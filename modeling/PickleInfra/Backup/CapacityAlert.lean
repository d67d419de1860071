import PickleInfra.Backup.CapacityNotices

/-!
# `Backup.CapacityAlert` — what becomes of the alert of an escalation

The receipts that were saved, newest first, are the observations of the monitor: each has the report of
its run. `Alarm` is the most recent escalation since the status was last `OK`, and `Answered` says what
the last receipt of its notice must be. A run keeps this unless it reads `WARNING` while a rejected
`CRITICAL` alert waits, or reads `CRITICAL` right after a retry that was made at `WARNING` (`Steady`).
-/

namespace PickleInfra
namespace Backup
namespace Capacity

open Python Durable

/-! ## The saved receipts -/

def saved? : Durable.Event (Option State) Mailing MailAnswer → Option State
  | .wrote s => s
  | _        => none

/-- The saved receipts, newest first. -/
def savesOf (hist : List (Durable.Event (Option State) Mailing MailAnswer)) : List State :=
  hist.filterMap saved?

@[simp] theorem savesOf_nil : savesOf [] = [] := rfl

@[simp] theorem savesOf_wrote (s : State) (hist) : savesOf (.wrote (some s) :: hist) = s :: savesOf hist := rfl

@[simp] theorem savesOf_answered (q a hist) : savesOf (.answered q a :: hist) = savesOf hist := rfl

@[simp] theorem savesOf_lost (q hist) : savesOf (.lost q :: hist) = savesOf hist := rfl

/-- The status observed last. -/
def lastObserved (saves : List State) : Option Status := saves.head?.map fun s => s.report.status

/-- The number of the last notice. -/
def lastSequence (saves : List State) : Nat := (saves.head?.map State.sequence).getD 0

/-- A first abnormal status, a rise in level, or a measurement after an error. -/
def Escalation (last : Option Status) (new : Status) : Prop :=
  new ≠ .ok ∧ ∀ old, last = some old → escalates old new = true

/-- `e`, saved after `earlier`, is the most recent escalation since the status was last `OK`. -/
inductive Alarm : List State → State → List State → Prop
  | here (e : State) (earlier : List State) (h : Escalation (lastObserved earlier) e.report.status) :
      Alarm (e :: earlier) e earlier
  | later (s : State) {saves : List State} {e : State} {earlier : List State} (hok : s.report.status ≠ .ok)
      (h : ¬ Escalation (lastObserved saves) s.report.status) (halarm : Alarm saves e earlier) :
      Alarm (s :: saves) e earlier

/-- Handed to the mail server, or out of attempts. -/
def Delivery.IsFinal (d : Delivery) : Prop :=
  d = .sent ∨ d = .attempted ∨ d = .uncertain ∨ d = .retriesExhausted

/-- A retry is pending. -/
def State.Waits (s : State) : Prop := s.delivery = .notSent ∧ s.attempts < MAX_ATTEMPTS

/-- The last receipt of a notice. -/
def lastRecord (n : Nat) (saves : List State) : Option State := saves.find? fun s => s.sequence = n

/-- **The alert is not dropped**: while the last observed status is abnormal, the most recent escalation
    opened a notice of its own, whose last receipt is final, or waits and is the current one. -/
def Answered (saves : List State) : Prop :=
  ∀ s rest, saves = s :: rest → s.report.status ≠ .ok →
    ∃ e earlier, Alarm saves e earlier ∧ lastSequence earlier < e.sequence ∧
      e.event = .abnormal e.report.status ∧
      ∃ r, lastRecord e.sequence saves = some r ∧ r.event = e.event ∧
        (r.delivery.IsFinal ∨ (r.Waits ∧ r = s))

/-! ## Runs without the two fatal readings -/

/-- The reading is none of those that drop an alert: not `WARNING` during the backoff of a `CRITICAL`
    alert, and not `CRITICAL` after a retry of that alert at `WARNING`. -/
def Steady (x : RunInput) (file : Option State) : Prop :=
  ∀ p report, file = some p → x.read = some report → p.status = .critical →
    ¬ (report.status = .warning ∧ p.delivery = .notSent ∧ x.now < p.retryAfter.getD 0) ∧
      ¬ (p.report.status = .warning ∧ report.status = .critical)

inductive SteadyReachable : CapacityWorld → Prop
  | start : SteadyReachable ⟨none, []⟩
  | run {w w' : CapacityWorld} {r} (x : RunInput) (h : SteadyReachable w) (hsteady : Steady x w.disk)
      (hrun : Runs (run x) w w' r) : SteadyReachable w'

theorem SteadyReachable.reachable {w : CapacityWorld} (h : SteadyReachable w) : Reachable w := by
  induction h with
  | start => exact .start
  | run x _ _ hrun ih => exact .run x ih hrun

/-! ## The invariant -/

/-- The alert of the most recent escalation, seen from the current receipt `s`: its notice is still the
    current one, or it is over. -/
def Current (s : State) (rest : List State) (e : State) : Prop :=
  (s.sequence = e.sequence ∧ s.event = e.event ∧ (s.delivery.IsFinal ∨ s.Waits)) ∨
    (e.sequence < s.sequence ∧ s.delivery = .noAlert ∧
      ∃ r, lastRecord e.sequence rest = some r ∧ r.event = e.event ∧ r.delivery.IsFinal)

/-- What the saves of a steady run satisfy. -/
structure Accounted (s : State) (rest : List State) : Prop where
  recorded : s.status = s.report.status ∨ (s.status = .critical ∧ s.report.status = .warning)
  waits : s.delivery = .notSent → s.attempts < MAX_ATTEMPTS
  alarm : s.report.status ≠ .ok → ∃ e earlier, Alarm (s :: rest) e earlier ∧
    lastSequence earlier < e.sequence ∧ e.event = .abnormal e.report.status ∧ Current s rest e

theorem answered_of_accounted {s : State} {rest : List State} (h : Accounted s rest) : Answered (s :: rest) := by
  intro s' rest' heq hok
  rw [List.cons.injEq] at heq
  obtain ⟨rfl, rfl⟩ := heq
  obtain ⟨e, earlier, halarm, hnew, hevent, hcurrent⟩ := h.alarm hok
  refine ⟨e, earlier, halarm, hnew, hevent, ?_⟩
  unfold lastRecord
  rcases hcurrent with ⟨hsequence, hsame, hdelivery⟩ | ⟨hlt, -, r, hr, hsame, hfinal⟩
  · refine ⟨s, ?_, hsame, hdelivery.imp_right fun hw => ⟨hw, rfl⟩⟩
    rw [List.find?_cons_of_pos (by simpa using hsequence)]
  · refine ⟨r, ?_, hsame, .inl hfinal⟩
    rw [List.find?_cons_of_neg (by simpa using Nat.ne_of_gt hlt)]
    exact hr

/-! ## Steps -/

theorem escalates_self (x : Status) : escalates x x = false := by
  cases x <;> decide

/-- Without an event the status is the same, or fell from `CRITICAL` to `WARNING`. -/
theorem changeEvent_eq_none {old new : Status} (h : changeEvent old new = none) (hne : old ≠ new) :
    old = .critical ∧ new = .warning := by
  cases old <;> cases new <;> first | exact ⟨rfl, rfl⟩ | exact absurd rfl hne | cases h

/-- A save of the same notice, whose report is no escalation. -/
theorem Accounted.again {p s : State} {rest : List State} (h : Accounted p rest)
    (hrecorded : s.status = s.report.status ∨ (s.status = .critical ∧ s.report.status = .warning))
    (hescalation : p.report.status ≠ .ok ∨ s.report.status = .ok)
    (hno : ¬ Escalation (some p.report.status) s.report.status)
    (hsequence : s.sequence = p.sequence) (hevent : s.event = p.event)
    (hdelivery : s.delivery = p.delivery ∧ s.attempts = p.attempts ∨
      (p.delivery ≠ .noAlert ∧ (s.delivery.IsFinal ∨ s.Waits))) : Accounted s (p :: rest) where
  recorded := hrecorded
  waits := by
    intro hnot
    rcases hdelivery with ⟨hd, ha⟩ | ⟨-, hfinal | hw⟩
    · rw [ha]
      exact h.waits (hd ▸ hnot)
    · rcases hfinal with hf | hf | hf | hf <;> exact absurd (hnot.symm.trans hf) (by decide)
    · exact hw.2
  alarm := by
    intro hok
    have hpok : p.report.status ≠ .ok := hescalation.resolve_right hok
    obtain ⟨e, earlier, halarm, hnew, he, hcurrent⟩ := h.alarm hpok
    refine ⟨e, earlier, .later s hok hno halarm, hnew, he, ?_⟩
    rcases hcurrent with ⟨hseq, hev, hdel⟩ | ⟨hlt, hnone, r, hr, hev, hfinal⟩
    · refine .inl ⟨hsequence.trans hseq, hevent.trans hev, ?_⟩
      rcases hdelivery with ⟨hd, ha⟩ | ⟨-, hnow⟩
      · unfold State.Waits
        rw [hd, ha]
        exact hdel
      · exact hnow
    · rcases hdelivery with ⟨hd, -⟩ | ⟨hne, -⟩
      · refine .inr ⟨hsequence ▸ hlt, hd.trans hnone, r, ?_, hev, hfinal⟩
        unfold lastRecord
        rw [List.find?_cons_of_neg (by simpa using Nat.ne_of_gt hlt)]
        exact hr
      · exact absurd hnone hne

/-- What the saves of a world are, in terms of its store. -/
def Saves.Account (file : Option State) : List State → Prop
  | []        => file = none
  | s :: rest => file = some s ∧ Accounted s rest

theorem Saves.Account.head {p : State} {saves : List State} (h : Account (some p) saves) :
    ∃ rest, saves = p :: rest ∧ Accounted p rest := by
  cases saves with
  | nil => cases h
  | cons s rest =>
      obtain ⟨hs, ha⟩ := h
      obtain rfl := Option.some.inj hs
      exact ⟨rest, rfl, ha⟩

theorem not_escalation_same {last new : Status} (h : last = new) : ¬ Escalation (some last) new := by
  rintro ⟨-, hup⟩
  have := hup last rfl
  rw [h, escalates_self] at this
  cases this

section Step

variable {x : RunInput} {report : Report} {file : Option State} {saves : List State} {u : State}
  {event : MailEvent}

/-- A receipt that is saved without a call, in a steady run. -/
theorem accounted_quiet (h : Saves.Account file saves) (hsteady : Steady x file)
    (hread : x.read = some report) (hu : Decided x.now report file u none) : Accounted u saves := by
  cases hu with
  | baseline hok =>
      exact ⟨.inl rfl, fun hc => (by cases hc), fun hc => absurd hok hc⟩
  | same p hsame hdue =>
      obtain ⟨rest, rfl, ha⟩ := h.head
      rcases ha.recorded with hp | ⟨hp, hwarning⟩
      · have hstatus : p.report.status = report.status := hp.symm.trans hsame
        refine ha.again (.inl hsame) ?_ (not_escalation_same hstatus) rfl rfl (.inl ⟨rfl, rfl⟩)
        show p.report.status ≠ .ok ∨ report.status = .ok
        rw [hstatus]
        exact (em _).symm
      · -- read again at `CRITICAL` after a retry at `WARNING`: not steady
        exact absurd ⟨hwarning, hsame.symm.trans hp⟩ (hsteady p report rfl hread hp).2
  | fell p hne hevent hdue =>
      obtain ⟨rest, rfl, ha⟩ := h.head
      obtain ⟨hcritical, hwarning⟩ := changeEvent_eq_none hevent hne
      -- nothing waits: its retry would be due, or the run not steady
      have hnot : p.delivery ≠ .notSent := by
        intro hnot
        have hattempts := ha.waits hnot
        have hlate := (hsteady p report rfl hread hcritical).1
        exact hdue ⟨hnot, hattempts, le_of_not_gt fun hlt => hlate ⟨hwarning, hnot, hlt⟩⟩
      refine ⟨.inl rfl, fun hc => (by cases hc), fun _ => ?_⟩
      have hpok : p.report.status ≠ .ok := by
        rcases ha.recorded with hp | ⟨-, hp⟩
        · rw [← hp, hcritical]
          decide
        · rw [hp]
          decide
      have hno : ¬ Escalation (some p.report.status) report.status := by
        rintro ⟨-, hup⟩
        have hup := hup _ rfl
        rw [hwarning] at hup
        rcases ha.recorded with hp | ⟨-, hp⟩
        · rw [← hp, hcritical] at hup
          cases hup
        · rw [hp] at hup
          cases hup
      obtain ⟨e, earlier, halarm, hnew, he, hcurrent⟩ := ha.alarm hpok
      refine ⟨e, earlier, .later _ (by show report.status ≠ _; rw [hwarning]; decide) hno halarm, hnew, he, ?_⟩
      right
      rcases hcurrent with ⟨hseq, hev, hdel⟩ | ⟨hlt, hnone, r, hr, hev, hfinal⟩
      · refine ⟨hseq ▸ Nat.lt_succ_self _, rfl, p, ?_, hev, ?_⟩
        · unfold lastRecord
          rw [List.find?_cons_of_pos (by simpa using hseq)]
        · exact hdel.resolve_right fun hw => hnot hw.1
      · refine ⟨Nat.lt_succ_of_lt hlt, rfl, r, ?_, hev, hfinal⟩
        unfold lastRecord
        rw [List.find?_cons_of_neg (by simpa using Nat.ne_of_gt hlt)]
        exact hr

/-- A claim, in a steady run. -/
theorem accounted_claim (h : Saves.Account file saves) (hsteady : Steady x file)
    (hread : x.read = some report) (hu : Decided x.now report file u (some event)) :
    Accounted (claim u) saves := by
  cases hu with
  | first hok =>
      refine ⟨.inl rfl, fun hc => (by cases hc), fun _ => ?_⟩
      obtain rfl : saves = [] := by
        cases saves with
        | nil => rfl
        | cons s rest => exact absurd h.1 (by simp)
      refine ⟨_, [], .here _ [] ⟨hok, fun old ho => by cases ho⟩, Nat.lt_succ_self 0, rfl, ?_⟩
      exact .inl ⟨rfl, rfl, .inl (.inr (.inl rfl))⟩
  | retry p hcase hdue =>
      obtain ⟨rest, rfl, ha⟩ := h.head
      have hdelivery : (claim (p.seen x.now report)).delivery.IsFinal := .inr (.inl rfl)
      have hnone : p.delivery ≠ .noAlert := by
        rw [hdue.1]
        decide
      by_cases hsame : p.status = report.status
      · rcases ha.recorded with hp | ⟨hp, hwarning⟩
        · have hstatus : p.report.status = report.status := hp.symm.trans hsame
          refine ha.again (.inl hsame) ?_ (not_escalation_same hstatus) rfl rfl (.inr ⟨hnone, .inl hdelivery⟩)
          show p.report.status ≠ .ok ∨ report.status = .ok
          rw [hstatus]
          exact (em _).symm
        · exact absurd ⟨hwarning, hsame.symm.trans hp⟩ (hsteady p report rfl hread hp).2
      · -- the retry is made at a lower status
        obtain ⟨hcritical, hwarning⟩ := changeEvent_eq_none (hcase.resolve_left hsame) hsame
        refine ha.again (.inr ⟨hcritical, hwarning⟩) (.inl ?_) ?_ rfl rfl (.inr ⟨hnone, .inl hdelivery⟩)
        · rcases ha.recorded with hp | ⟨-, hp⟩
          · rw [← hp, hcritical]
            decide
          · rw [hp]
            decide
        · rintro ⟨-, hup⟩
          have hup : escalates p.report.status report.status = true := hup _ rfl
          rw [hwarning] at hup
          rcases ha.recorded with hp | ⟨-, hp⟩
          · rw [← hp, hcritical] at hup
            cases hup
          · rw [hp] at hup
            cases hup
  | changed p event hne hevent =>
      obtain ⟨rest, rfl, ha⟩ := h.head
      refine ⟨.inl rfl, fun hc => (by cases hc), fun hok => ?_⟩
      have hok : report.status ≠ .ok := hok
      unfold changeEvent at hevent
      rw [if_neg hok] at hevent
      split at hevent
      · next hup =>
        obtain rfl := Option.some.inj hevent
        refine ⟨_, p :: rest, .here _ _ ⟨hok, ?_⟩, Nat.lt_succ_self _, rfl, ?_⟩
        · intro old hold
          obtain rfl := Option.some.inj hold
          -- the recorded status is the observed one, or above it
          show escalates p.report.status report.status = true
          rcases ha.recorded with hp | ⟨hp, hwarning⟩
          · rw [← hp]
            exact hup
          · rw [hp] at hup
            rw [hwarning]
            revert hup
            cases report.status <;> decide
        · exact .inl ⟨rfl, rfl, .inl (.inr (.inl rfl))⟩
      · cases hevent

/-- The outcome of a call. -/
theorem accounted_outcome {now : ℚ} {c s : State} {a : MailAnswer} (h : Accounted c saves)
    (hc : c.delivery = .attempted) (hs : outcome now c a = some s) : Accounted s (c :: saves) := by
  obtain ⟨hstatus, hsequence, hattempts, hevent, hreport⟩ := outcome_same hs
  have hdelivery : s.delivery.IsFinal ∨ s.Waits := by
    cases a with
    | returned => obtain rfl := Option.some.inj hs; exact .inl (.inl rfl)
    | unknown => obtain rfl := Option.some.inj hs; exact .inl (.inr (.inr (.inl rfl)))
    | raised => cases hs
    | rejected =>
        unfold outcome at hs
        dsimp only at hs
        split at hs
        · obtain rfl := Option.some.inj hs
          exact .inl (.inr (.inr (.inr rfl)))
        · next hroom =>
          obtain rfl := Option.some.inj hs
          exact .inr ⟨rfl, Nat.lt_of_not_le hroom⟩
  refine h.again ?_ ?_ (not_escalation_same (by rw [hreport])) hsequence hevent (.inr ⟨?_, hdelivery⟩)
  · rw [hstatus, hreport]
    exact h.recorded
  · rw [hreport]
    exact (em _).symm
  · rw [hc]
    decide

end Step

/-- The saves of a world account for its store. -/
theorem SteadyReachable.account {w : CapacityWorld} (h : SteadyReachable w) :
    Saves.Account w.disk (savesOf w.hist) := by
  induction h with
  | start => exact rfl
  | @run w w' r x hreach hsteady hrun ih =>
      rcases run_cases hreach.reachable.inv.formed hrun with rfl | ⟨report, hread, hacted⟩
      · exact ih
      cases hacted with
      | quiet u hu => exact ⟨rfl, accounted_quiet ih hsteady hread hu⟩
      | told u event hu htold =>
          have hclaim := accounted_claim ih hsteady hread hu
          cases htold with
          | claimed => exact ⟨rfl, hclaim⟩
          | lost => exact ⟨rfl, hclaim⟩
          | answered a => exact ⟨rfl, hclaim⟩
          | recorded a d hd =>
              obtain ⟨s, hs, rfl⟩ := Option.map_eq_some_iff.mp hd
              exact ⟨rfl, accounted_outcome hclaim rfl hs⟩

def critical (now : ℚ) : RunInput := ⟨now, some ⟨.critical, []⟩⟩

def warning (now : ℚ) : RunInput := ⟨now, some ⟨.warning, []⟩⟩

/-- A first critical reading, whose alert is rejected. -/
def rejectedWorld : CapacityWorld := ((run (critical 0)).exec 9 ⟨none, []⟩ [.rejected]).1

/-- Half a minute later the status has fallen to a warning. -/
def droppedWorld : CapacityWorld := ((run (warning 30)).exec 9 rejectedWorld []).1

theorem rejectedWorld_steady : SteadyReachable rejectedWorld :=
  .run (critical 0) .start (fun _ _ h => by cases h) (runs_exec _ _ _ _)

end Capacity
end Backup
end PickleInfra
