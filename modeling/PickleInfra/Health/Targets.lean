import PickleInfra.Health.Collections
import PickleInfra.Health.Mail

/-!
# `Health.Targets` — what holds of every target in every state a collection leaves

`sampled_spec` says what an observation is; `Machine.Ok` what a target's machine always is: its
register is well formed and not ahead of its latest sample, and its mails are about that register.
A collection keeps `Machine.Ok` of every target and does one `MailStep` on every delivery.
-/

namespace PickleInfra
namespace Health

open Python

/-! ## Observations -/

/-- The status an accepted raw status is mapped to. -/
def Status.mapped : Status → Status
  | .budgetLimit => .observerError
  | status       => status

/-- An observation is either a fresh report, or an `OBSERVER_ERROR` of this collection. -/
inductive Sampled (source : Source) (now : ℚ) (o : Observation) : Prop
  | accepted (raw : Status) (ts : ℚ) (hu : o.unknownReason = none) (hraw : o.rawStatus = some raw)
      (hsource : o.sourceSampleAt = some ts) (hat : o.sampleAt = ts)
      (hstatus : o.status = raw.mapped) (hpos : 0 ≤ ts) (hfuture : ts ≤ now + 30)
      (hfresh : now - ts ≤ source.freshnessSeconds)
  | unknown (why : UnknownReason) (hu : o.unknownReason = some why) (hraw : o.rawStatus = none)
      (hat : o.sampleAt = now) (hstatus : o.status = .observerError)

theorem Status.ofText_text {s : String} {status : Status} (h : Status.ofText s = some status) :
    status.text = s := by
  have := List.find?_some h
  simpa using this

theorem accept_spec (o : Observation) (status : Status) (ts : ℚ) :
    (o.accept status ts).unknownReason = none ∧ (o.accept status ts).rawStatus = some status ∧
      (o.accept status ts).sourceSampleAt = o.sourceSampleAt ∧ (o.accept status ts).sampleAt = ts ∧
      (o.accept status ts).status = status.mapped ∧ (o.accept status ts).severity = o.severity := by
  unfold Observation.accept
  cases status <;> simp [Status.mapped]

theorem epoch_ok {v : Json} {q : ℚ} (h : epoch v = .ok q) : 0 ≤ q := by
  unfold epoch at h
  split at h
  · simp at h
  · next hq =>
    split at h
    · simp at h
    · next hneg => cases h; exact not_lt.mp hneg

/-- **What `sampled` returns.** -/
theorem sampled_spec {source : Source} {now : ℚ} {r : ReadResult} {o : Observation}
    (h : sampled source now r = .ok o) :
    Sampled source now o ∧ o.severity = source.severity.filter (fun s => s = "warning") := by
  have hun : ∀ (why : UnknownReason) (ts : Option ℚ) (reason : Option String),
      Sampled source now
        { Observation.unavailable source now why with sourceSampleAt := ts, sourceReason := reason } :=
    fun why _ _ => .unknown why rfl rfl rfl rfl
  cases r with
  | missing => cases h; exact ⟨hun _ _ _, rfl⟩
  | failed => cases h; exact ⟨hun _ _ _, rfl⟩
  | escaped => simp [sampled] at h
  | document value =>
      simp only [sampled, sampledDocument] at h
      split at h
      · split at h
        · cases h; exact ⟨hun _ _ _, rfl⟩
        · simp at h
      · next ts hts =>
        have hpos : 0 ≤ ts := by
          cases hitem : (value.item "observed_at" : Except HealthExn Json) with
          | error e => simp [hitem, bind, Except.bind] at hts
          | ok v => exact epoch_ok (by simpa [hitem, bind, Except.bind] using hts)
        split at h
        · split at h
          · cases h; exact ⟨hun _ _ _, rfl⟩
          · simp at h
        · next status _ =>
          split at h
          · cases h; exact ⟨.unknown _ rfl rfl rfl rfl, rfl⟩
          · next hfuture =>
            split at h
            · cases h; exact ⟨.unknown _ rfl rfl rfl rfl, rfl⟩
            · next hfresh =>
              cases h
              obtain ⟨hu, hraw, hsource, hat, hstatus, hsev⟩ := accept_spec
                { Observation.unavailable source now .resultInvalid with
                  sourceSampleAt := some ts, sourceReason := sourceReason value } status ts
              exact ⟨.accepted status ts hu hraw hsource hat hstatus hpos (not_lt.mp hfuture)
                (not_lt.mp hfresh), hsev⟩

theorem Sampled.nonneg {source : Source} {now : ℚ} {o : Observation} (h : Sampled source now o)
    (hnow : 0 ≤ now) : 0 ≤ o.sampleAt := by
  cases h with
  | accepted raw ts _ _ _ hat _ hpos => rw [hat]; exact hpos
  | unknown _ _ _ hat => rw [hat]; exact hnow

/-! ## Machines -/

/-- A target's machine in every reachable state. -/
structure Machine.Ok (m : Machine) : Prop where
  register : m.register.Ok m.sampleAt
  failed : FailedOk m.register (m.mail .failed)
  recovered : RecoveredOk m.register (m.mail .recovered)

theorem Machine.ok_start : Machine.Ok {} where
  register := Register.ok_start
  failed := by rintro d ⟨⟩
  recovered := by rintro d ⟨⟩

/-- What one collection does to one target. -/
structure Turn (m : Machine) (status : Status) (time : ℚ) (m' : Machine) (event : Transition) :
    Prop where
  registers : Registers m.register status time m'.register event
  consumed : event ≠ .duplicate → m.isStale time = false ∧ m'.sampleAt = some time ∧
    m'.latestStatus = some status
  stale : event = .duplicate → m.isStale time = true ∧ m'.register = m.register ∧
    m'.sampleAt = m.sampleAt ∧ m'.latestStatus = m.latestStatus
  ok : m'.Ok
  mails : ∀ e, MailStep (m.mail e) (m'.mail e)
  healthy : ∀ d, m'.mail .recovered = some d → d.status.isOpen = true → status = .healthy

namespace Machine

@[simp] theorem sampleAt_setMail (m : Machine) (e d) : (m.setMail e d).sampleAt = m.sampleAt := by
  cases e <;> rfl

@[simp] theorem latestStatus_setMail (m : Machine) (e d) :
    (m.setMail e d).latestStatus = m.latestStatus := by cases e <;> rfl

theorem register_of_core {m m' : Machine} (h : m.core = m'.core) : m.register = m'.register := by
  change m.core.register = m'.core.register
  rw [h]

theorem core_settle (m : Machine) (status event notified target now severity) :
    (m.settle status event notified target now severity).core = m.core := by
  unfold settle; split <;> simp

/-- Everything but the mails survives `settle`. -/
theorem settle_frame (m : Machine) (status event notified target now severity) :
    (m.settle status event notified target now severity).sampleAt = m.sampleAt ∧
      (m.settle status event notified target now severity).latestStatus = m.latestStatus := by
  have h := core_settle m status event notified target now severity
  have hsample : (m.settle status event notified target now severity).core.sampleAt =
      m.core.sampleAt := by rw [h]
  have hlatest : (m.settle status event notified target now severity).core.latestStatus =
      m.core.latestStatus := by rw [h]
  exact ⟨hsample, hlatest⟩

end Machine

/-- **One collection of one target**, given the machine `m₁` left by `observe` and the interruption
    that may follow it. -/
theorem turn_of_observes {m m₁ : Machine} {status : Status} {time : ℚ} {event : Transition}
    (hm : m.Ok) (htime : 0 ≤ time) (ho : Machine.Observes m status time m₁ event)
    (notified target now severity) :
    Turn m status time (m₁.settle status event notified target now severity) event := by
  obtain ⟨hsample, hlatest⟩ := m₁.settle_frame status event notified target now severity
  have hregister := register_settle m₁ status event notified target now severity
  have hok₁ : m₁.register.Ok m₁.sampleAt := by
    by_cases hd : event = .duplicate
    · obtain ⟨-, hreg, hsame, -⟩ := ho.stale hd
      rw [hreg, hsame]
      exact hm.register
    · obtain ⟨hfresh, hlast, -⟩ := ho.consumed hd
      rw [hlast]
      refine hm.register.registers (fun s hs => ?_) htime ho.registers
      simp only [Machine.isStale, hs, decide_eq_false_iff_not, not_le] at hfresh
      exact hfresh.le
  obtain ⟨hfailed, hfailedStep⟩ := failed_step hok₁ ho.registers ho.mail hm.failed
    notified target now severity
  obtain ⟨hrecovered, hrecoveredStep, hhealthy⟩ := recovered_step hm.register ho.registers ho.mail
    hm.recovered notified target now severity
  refine ⟨hregister ▸ ho.registers, ?_, ?_, ⟨?_, hfailed, hrecovered⟩, ?_, hhealthy⟩
  · intro hd
    obtain ⟨hfresh, hlast, hst⟩ := ho.consumed hd
    exact ⟨hfresh, hsample.trans hlast, hlatest.trans hst⟩
  · intro hd
    obtain ⟨hstale, hreg, hsame, hst⟩ := ho.stale hd
    exact ⟨hstale, hregister.trans hreg, hsample.trans hsame, hlatest.trans hst⟩
  · rw [hregister, hsample]
    exact hok₁
  · intro e
    cases e with
    | failed => exact hfailedStep
    | recovered => exact hrecoveredStep

/-! ## One collection of one source, and of a state -/

/-- The status, time and event of a target in a row of a summary. -/
def Row.event? (row : Row) : Target → Transition
  | .own      => row.event
  | .observer => row.observerEvent

/-- **One collection of one source.** -/
theorem collectSource_turn {now : ℚ} (hnow : 0 ≤ now) (notifications : Bool) (source : Source)
    {o : Observation} (ho : Sampled source now o) (ps : Option Status) {entry : Entry}
    (hentry : ∀ t, (entry.machine t).Ok) (t : Target) :
    Turn (entry.machine t)
      ((collectSource now notifications source o ps entry).2.observed now t).1
      ((collectSource now notifications source o ps entry).2.observed now t).2
      ((collectSource now notifications source o ps entry).1.machine t)
      ((collectSource now notifications source o ps entry).2.event? t) := by
  cases t with
  | own =>
      have hobs := Machine.observe_spec entry.own o.status o.sampleAt source.failureCount
        source.freshnessSeconds
      refine @turn_of_observes _ (if o.status = .observerError then _ else _) _ _ _ (hentry .own)
        (ho.nonneg hnow) ?_ notifications source.name now
        (source.severity.filter (fun s => s = "warning"))
      split
      · exact hobs.interrupt
      · exact hobs
  | observer =>
      have hobs := Machine.observe_spec entry.observer (observerStatus
        (suppressedBy source o ps) o.status) now 3 180
      refine @turn_of_observes _ (if (suppressedBy source o ps).isSome then _ else _) _ _ _
        (hentry .observer) hnow ?_ (notifications && (suppressedBy source o ps).isNone)
        ("observer-" ++ source.name) now none
      split
      · exact hobs.interrupt
      · exact hobs

theorem State.machine_eq {s : State} {name : String} {entry : Entry}
    (h : s.sources.get? name = some entry) (t : Target) : s.machine name t = entry.machine t := by
  rw [State.machine, h, Option.getD_some]

/-- Every target of a state is well formed. -/
def State.Ok (s : State) : Prop := ∀ name t, (s.machine name t).Ok

theorem State.ok_start : State.Ok {} := by
  intro name t
  cases t <;> exact Machine.ok_start

section Collected

variable {cfg : Config} {call : Call} {s s' : State} {summary : Summary}

/-- A collection turns every target of every configured source. -/
theorem Collected.turn (h : Collected cfg call s s' summary) (hs : s.Ok) {source : Source}
    (hsource : source ∈ cfg.sources) (t : Target) :
    ∃ row, summary.sources.get? source.name = some row ∧
      Turn (s.machine source.name t) (row.observed call.now t).1 (row.observed call.now t).2
        (s'.machine source.name t) (row.event? t) := by
  obtain ⟨o, ps, ho, hentry, hrow⟩ := h.at_source hsource
  refine ⟨_, hrow, ?_⟩
  rw [State.machine_eq hentry]
  exact collectSource_turn h.now_nonneg call.notifications source (sampled_spec ho).1 ps
    (fun t => hs source.name t) t

/-- It leaves the targets of other names alone. -/
theorem Collected.machine_other (h : Collected cfg call s s' summary) {name : String}
    (hname : name ∉ cfg.sources.map Source.name) (t : Target) :
    s'.machine name t = s.machine name t := by
  rw [State.machine, State.machine, (h.others name hname).1]

/-- **A collection keeps every target well formed**, and does one mail step on every delivery. -/
theorem Collected.ok (h : Collected cfg call s s' summary) (hs : s.Ok) :
    s'.Ok ∧ ∀ slot, MailStep (s.mail slot) (s'.mail slot) := by
  have hall : ∀ name t, (s'.machine name t).Ok ∧
      ∀ e, MailStep ((s.machine name t).mail e) ((s'.machine name t).mail e) := by
    intro name t
    by_cases hname : name ∈ cfg.sources.map Source.name
    · obtain ⟨source, hsource, rfl⟩ := List.mem_map.mp hname
      obtain ⟨row, -, hturn⟩ := h.turn hs hsource t
      exact ⟨hturn.ok, hturn.mails⟩
    · rw [h.machine_other hname]
      exact ⟨hs name t, fun e => .same⟩
  exact ⟨fun name t => (hall name t).1, fun slot => (hall slot.source slot.target).2 slot.event⟩

end Collected

end Health
end PickleInfra
