import PickleInfra.Health.Collect
import PickleInfra.Health.Register

/-!
# `Health.Mail` — the reserved notifications of one target

A target keeps at most one `FAILED` and one `RECOVERED` delivery. `FailedOk` and `RecoveredOk` relate
each to the incident register: its incident is a number already opened, and while it is still open
(never submitted, or explicitly not sent) it is about the current state of the target. One collection
keeps both, and changes a delivery only by superseding it or by reserving a later incident
(`MailStep`).
-/

namespace PickleInfra
namespace Health

/-- The `FAILED` delivery of a register: while open, it is about the open incident. -/
def FailedOk (r : Register) (mail : Option Delivery) : Prop :=
  ∀ d, mail = some d → (∃ k, d.incident = some k ∧ k ≤ r.sequence) ∧
    (d.status.isOpen = true → r.incident = d.incident)

/-- The `RECOVERED` delivery of a register: while open, it is about the last closed incident, and no
    incident is open. -/
def RecoveredOk (r : Register) (mail : Option Delivery) : Prop :=
  ∀ d, mail = some d →
    (∃ k, d.incident = some k ∧ k ≤ r.sequence ∧ ∀ n, r.incident = some n → k < n) ∧
      (d.status.isOpen = true → r.incident = none ∧ r.closedIncident = d.incident)

/-- What one collection may do to a delivery. -/
inductive MailStep (old : Option Delivery) : Option Delivery → Prop
  | same : MailStep old old
  | superseded {d : Delivery} (h : old = some d) (ho : d.status.isOpen = true) :
      MailStep old (some { d with status := .superseded })
  | reserved {d : Delivery} {n : Nat} (hs : d.status = .new) (ha : d.attempts = 0)
      (hn : d.incident = some n)
      (hold : ∀ o, old = some o → ∃ k, o.incident = some k ∧ k < n) : MailStep old (some d)

/-- A delivery after `supersede`. -/
def Delivery.cancelled (d : Delivery) : Delivery :=
  if d.status.isOpen then { d with status := .superseded } else d

namespace Delivery

@[simp] theorem cancelled_incident (d : Delivery) : d.cancelled.incident = d.incident := by
  unfold cancelled; split <;> rfl

theorem cancelled_not_open (d : Delivery) : d.cancelled.status.isOpen = false := by
  unfold cancelled
  split
  · rfl
  · next h => simpa using h

end Delivery

theorem MailStep.cancelled (old : Option Delivery) : MailStep old (old.map Delivery.cancelled) := by
  cases old with
  | none => exact .same
  | some d =>
      rw [Option.map_some]
      unfold Delivery.cancelled
      split
      · next h => exact .superseded rfl h
      · exact .same

namespace Machine

theorem mail_supersede (m : Machine) (e e' : MailEvent) :
    (m.supersede e).mail e' =
      if e = e' then (m.mail e').map Delivery.cancelled else m.mail e' := by
  unfold supersede
  by_cases he : e = e'
  · subst he
    rw [if_pos rfl]
    cases hm : m.mail e with
    | none => simp [hm]
    | some d =>
        dsimp only
        by_cases ho : d.status.isOpen = true
        · simp [ho, Delivery.cancelled]
        · simp [ho, hm, Delivery.cancelled]
  · rw [if_neg he]
    cases hm : m.mail e with
    | none => rfl
    | some d =>
        dsimp only
        split
        · exact mail_setMail_ne _ _ he
        · rfl

/-- The `FAILED` delivery after `cancel`. -/
theorem failed_cancel (m : Machine) (status : Status) (event : Transition) :
    (m.cancel status event).mail .failed =
      if event = .recovered then (m.mail .failed).map Delivery.cancelled else m.mail .failed := by
  unfold cancel
  by_cases he : event = .recovered <;> by_cases hs : status = .healthy <;>
    simp [he, hs, mail_supersede]

/-- The `RECOVERED` delivery after `cancel`. -/
theorem recovered_cancel (m : Machine) (status : Status) (event : Transition) :
    (m.cancel status event).mail .recovered =
      if status = .healthy then m.mail .recovered
      else (m.mail .recovered).map Delivery.cancelled := by
  unfold cancel
  by_cases he : event = .recovered <;> by_cases hs : status = .healthy <;>
    simp [he, hs, mail_supersede]

@[simp] theorem register_setMail (m : Machine) (event d) :
    (m.setMail event d).register = m.register := by cases event <;> rfl

@[simp] theorem register_supersede (m : Machine) (event) :
    (m.supersede event).register = m.register := by
  unfold supersede; split <;> [split; skip] <;> simp

@[simp] theorem register_cancel (m : Machine) (status event) :
    (m.cancel status event).register = m.register := by
  unfold cancel; split <;> split <;> simp

@[simp] theorem register_reserveEvent (m : Machine) (target event now severity) :
    (m.reserveEvent target event now severity).register = m.register := register_setMail _ _ _

@[simp] theorem register_notify (m : Machine) (target event now severity) :
    (m.notify target event now severity).register = m.register := by
  unfold notify; split <;> [skip; skip; split] <;> simp

theorem mail_reserveEvent (m : Machine) (target e now severity) :
    ∃ d, (m.reserveEvent target e now severity).mail e = some d ∧ d.status = .new ∧
      d.attempts = 0 ∧ d.incident = match e with
        | .failed    => m.incident
        | .recovered => m.closedIncident :=
  ⟨_, mail_setMail_self .., rfl, rfl, rfl⟩

theorem mail_reserveEvent_ne (m : Machine) (target now severity) {e e' : MailEvent} (h : e ≠ e') :
    (m.reserveEvent target e now severity).mail e' = m.mail e' := mail_setMail_ne _ _ h

/-- What `notify` leaves in the `FAILED` slot: a reservation of the open incident, after a
    transition to `FAILED` or late, and else what was there. -/
theorem failed_notify (m : Machine) (target : String) (event : Transition) (now : ℚ)
    (severity : Option String) :
    ((event = .failed ∨ event ≠ .recovered ∧ m.incident.isSome ∧
        ((m.mail .failed).bind Delivery.incident) ≠ m.incident) ∧
      ∃ d, (m.notify target event now severity).mail .failed = some d ∧ d.status = .new ∧
        d.attempts = 0 ∧ d.incident = m.incident) ∨
    (event ≠ .failed ∧ (m.notify target event now severity).mail .failed = m.mail .failed) := by
  cases event with
  | failed => exact .inl ⟨.inl rfl, mail_reserveEvent m target .failed now severity⟩
  | recovered => exact .inr ⟨by simp, mail_reserveEvent_ne m target now severity (by simp)⟩
  | duplicate | unchanged =>
      by_cases h : m.incident.isSome ∧ (m.failedMail.bind Delivery.incident) ≠ m.incident
      · simp only [notify, if_pos h]
        exact .inl ⟨.inr ⟨by simp, h⟩, mail_reserveEvent m target .failed now severity⟩
      · exact .inr ⟨by simp, by simp only [notify, if_neg h]⟩

/-- What `notify` leaves in the `RECOVERED` slot. -/
theorem recovered_notify (m : Machine) (target : String) (event : Transition) (now : ℚ)
    (severity : Option String) :
    (event = .recovered ∧ ∃ d, (m.notify target event now severity).mail .recovered = some d ∧
      d.status = .new ∧ d.attempts = 0 ∧ d.incident = m.closedIncident) ∨
    (event ≠ .recovered ∧
      (m.notify target event now severity).mail .recovered = m.mail .recovered) := by
  cases event with
  | failed => exact .inr ⟨by simp, mail_reserveEvent_ne m target now severity (by simp)⟩
  | recovered => exact .inl ⟨rfl, mail_reserveEvent m target .recovered now severity⟩
  | duplicate | unchanged =>
      refine .inr ⟨by simp, ?_⟩
      simp only [notify]
      split
      · exact mail_reserveEvent_ne m target now severity (by simp)
      · rfl

end Machine

/-! ## One collection

A target is observed, its obsolete mails are cancelled, and it is notified about if notifications
are on. `r` and `old` are the register and the delivery before, `r'` the register after. -/

section Step

variable {r r' : Register} {status : Status} {time : ℚ} {event : Transition}
  {old : Option Delivery}

/-- The `FAILED` delivery after `observe` and `cancel`. -/
theorem FailedOk.cancelled (h : FailedOk r old) (hr : Registers r status time r' event) :
    FailedOk r' (if event = .recovered then old.map Delivery.cancelled else old) := by
  cases hr with
  | opened hs hnone =>
      rw [if_neg (by simp)]
      intro d hd
      obtain ⟨⟨k, hk, hle⟩, hopen⟩ := h d hd
      refine ⟨⟨k, hk, Nat.le_succ_of_le hle⟩, fun ho => ?_⟩
      exact absurd ((hopen ho).symm.trans hnone) (by simp [hk])
  | closed hs hn =>
      rw [if_pos rfl]
      intro d hd
      obtain ⟨d', hd', rfl⟩ := Option.map_eq_some_iff.mp hd
      obtain ⟨⟨k, hk, hle⟩, -⟩ := h d' hd'
      refine ⟨⟨k, by rw [Delivery.cancelled_incident, hk], hle⟩, fun ho => ?_⟩
      rw [Delivery.cancelled_not_open] at ho
      exact absurd ho (by simp)
  | kept hf hr => rwa [if_neg hr]

/-- The `RECOVERED` delivery after `observe` and `cancel`. -/
theorem RecoveredOk.cancelled (h : RecoveredOk r old)
    (hr : Registers r status time r' event) :
    RecoveredOk r' (if status = .healthy then old else old.map Delivery.cancelled) := by
  cases hr with
  | opened hs hnone =>
      rw [if_neg (by simp [hs])]
      intro d hd
      obtain ⟨d', hd', rfl⟩ := Option.map_eq_some_iff.mp hd
      obtain ⟨⟨k, hk, hle, -⟩, -⟩ := h d' hd'
      refine ⟨⟨k, by rw [Delivery.cancelled_incident, hk], Nat.le_succ_of_le hle, ?_⟩, fun ho => ?_⟩
      · rintro n ⟨⟩; exact Nat.lt_succ_of_le hle
      · rw [Delivery.cancelled_not_open] at ho
        exact absurd ho (by simp)
  | closed hs hn =>
      rw [if_pos hs]
      intro d hd
      obtain ⟨⟨k, hk, hle, -⟩, hopen⟩ := h d hd
      refine ⟨⟨k, hk, hle, by rintro n ⟨⟩⟩, fun ho => ?_⟩
      exact absurd ((hopen ho).1.symm.trans hn) (by simp)
  | kept hf hr =>
      split
      · exact h
      · intro d hd
        obtain ⟨d', hd', rfl⟩ := Option.map_eq_some_iff.mp hd
        refine ⟨by rw [Delivery.cancelled_incident]; exact (h d' hd').1, fun ho => ?_⟩
        rw [Delivery.cancelled_not_open] at ho
        exact absurd ho (by simp)

variable {m m₁ : Machine} {latest : Option ℚ}

/-- What `collect` does to a target it has observed. -/
def Machine.settle (m : Machine) (status : Status) (event : Transition) (notified : Bool)
    (target : String) (now : ℚ) (severity : Option String) : Machine :=
  if notified then (m.cancel status event).notify target event now severity
  else m.cancel status event

@[simp] theorem register_settle (m : Machine) (status event notified target now severity) :
    (m.settle status event notified target now severity).register = m.register := by
  unfold Machine.settle; split <;> simp

/-- **One collection and the `FAILED` delivery.** -/
theorem failed_step (hreg₁ : m₁.register.Ok latest)
    (hr : Registers m.register status time m₁.register event)
    (hmail : ∀ e, m₁.mail e = m.mail e) (h : FailedOk m.register (m.mail .failed))
    (notified target now severity) :
    let m' := m₁.settle status event notified target now severity
    FailedOk m'.register (m'.mail .failed) ∧ MailStep (m.mail .failed) (m'.mail .failed) := by
  intro m'
  rw [← hmail .failed] at h ⊢
  have hcancel := h.cancelled hr
  have hstep : MailStep (m₁.mail .failed)
      (if event = .recovered then (m₁.mail .failed).map Delivery.cancelled else m₁.mail .failed) := by
    split
    · exact .cancelled _
    · exact .same
  rw [← Machine.failed_cancel m₁ status event] at hcancel hstep
  rw [register_settle]
  simp only [m', Machine.settle]
  cases notified with
  | false => exact ⟨hcancel, hstep⟩
  | true =>
      simp only [if_true]
      rcases Machine.failed_notify (m₁.cancel status event) target event now severity with
        ⟨hwhy, d, hd, hnew, hzero, hinc⟩ | ⟨-, hkeep⟩
      · -- the open incident is announced: `n` is its number, and every older one is smaller
        have hci : (m₁.cancel status event).incident = m₁.register.incident :=
          congrArg Register.incident (Machine.register_cancel m₁ status event)
        have hinc₁ : d.incident = m₁.register.incident := hinc.trans hci
        rw [hci, Machine.failed_cancel] at hwhy
        have hn : ∃ n, m₁.register.incident = some n ∧
            ∀ o, m₁.mail .failed = some o → ∃ k, o.incident = some k ∧ k < n := by
          generalize m₁.register = r' at hr hreg₁ hwhy ⊢
          cases hr with
          | opened hs hnone =>
              refine ⟨_, rfl, fun o ho => ?_⟩
              obtain ⟨⟨k, hk, hle⟩, -⟩ := h o ho
              exact ⟨k, hk, Nat.lt_succ_of_le hle⟩
          | closed hs hn => simp at hwhy
          | kept hf hr =>
              obtain ⟨-, hsome, hne⟩ := hwhy.resolve_left hf
              obtain ⟨n, hn⟩ := Option.isSome_iff_exists.mp hsome
              refine ⟨n, hn, fun o ho => ?_⟩
              obtain ⟨⟨k, hk, hle⟩, -⟩ := h o ho
              rw [if_neg hr, ho, Option.bind_some, hk, hn] at hne
              have hseq := (hreg₁.current n hn).1
              exact ⟨k, hk, lt_of_le_of_ne (hseq ▸ hle) (fun he => hne (he ▸ rfl))⟩
        obtain ⟨n, hn, hold⟩ := hn
        rw [hd]
        refine ⟨?_, .reserved hnew hzero (hinc₁.trans hn) hold⟩
        rintro d' ⟨⟩
        exact ⟨⟨n, hinc₁.trans hn, (hreg₁.current n hn).1.le⟩, fun _ => hinc₁.symm⟩
      · rw [hkeep]
        exact ⟨hcancel, hstep⟩

/-- **One collection and the `RECOVERED` delivery**: if it is still open, the status is `HEALTHY`. -/
theorem recovered_step (hreg : m.register.Ok latest)
    (hr : Registers m.register status time m₁.register event)
    (hmail : ∀ e, m₁.mail e = m.mail e) (h : RecoveredOk m.register (m.mail .recovered))
    (notified target now severity) :
    let m' := m₁.settle status event notified target now severity
    RecoveredOk m'.register (m'.mail .recovered) ∧
      MailStep (m.mail .recovered) (m'.mail .recovered) ∧
      ∀ d, m'.mail .recovered = some d → d.status.isOpen = true → status = .healthy := by
  intro m'
  rw [← hmail .recovered] at h ⊢
  have hcancel := h.cancelled hr
  have hstep : MailStep (m₁.mail .recovered)
      (if status = .healthy then m₁.mail .recovered
        else (m₁.mail .recovered).map Delivery.cancelled) := by
    split
    · exact .same
    · exact .cancelled _
  have hhealthy : ∀ d, (if status = .healthy then m₁.mail .recovered
      else (m₁.mail .recovered).map Delivery.cancelled) = some d → d.status.isOpen = true →
      status = .healthy := by
    intro d hd ho
    by_contra hs
    rw [if_neg hs] at hd
    obtain ⟨d', -, rfl⟩ := Option.map_eq_some_iff.mp hd
    rw [Delivery.cancelled_not_open] at ho
    exact absurd ho (by simp)
  rw [← Machine.recovered_cancel m₁ status event] at hcancel hstep hhealthy
  rw [register_settle]
  simp only [m', Machine.settle]
  cases notified with
  | false => exact ⟨hcancel, hstep, hhealthy⟩
  | true =>
      simp only [if_true]
      rcases Machine.recovered_notify (m₁.cancel status event) target event now severity with
        ⟨rfl, d, hd, hnew, hzero, hinc⟩ | ⟨-, hkeep⟩
      · -- incident `n` has just closed: every older one is smaller
        have hinc₁ : d.incident = m₁.register.closedIncident :=
          hinc.trans (congrArg Register.closedIncident (Machine.register_cancel m₁ status _))
        generalize m₁.register = r' at hr hinc₁
        cases hr with
        | kept _ hr => exact absurd rfl hr
        | closed hs hn =>
            rename_i n
            rw [hd]
            refine ⟨?_, .reserved hnew hzero hinc₁ fun o ho => ?_, fun _ _ _ => hs⟩
            · rintro d' ⟨⟩
              exact ⟨⟨n, hinc₁, (hreg.current n hn).1.le, by rintro k ⟨⟩⟩, fun _ => ⟨rfl, hinc₁.symm⟩⟩
            · obtain ⟨⟨k, hk, -, hlt⟩, -⟩ := h o ho
              exact ⟨k, hk, hlt n hn⟩
      · rw [hkeep]
        exact ⟨hcancel, hstep, hhealthy⟩

end Step

end Health
end PickleInfra
