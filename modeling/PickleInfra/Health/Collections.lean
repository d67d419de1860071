import PickleInfra.Health.Incident
import PickleInfra.Health.Run

/-!
# `Health.Collections` — what one collection does, and the incident machine over all of them

`collect` is a chain of checks followed by a loop over the configured sources. `Collected` says what
is left of it when it returns: for every configured source, `collectSource` on that source's own
entry, and nothing else changed. The incident part of an entry does not depend on its mails
(`Machine.core`), so over any list of collections it is the replay of `Health.Incident`.
-/

namespace PickleInfra
namespace Health

open Python History

/-! ## `validate` -/

/-- The checks of `validate` on one source. -/
theorem validateSources_ok {seen : List String} {sources : List Source}
    (h : validateSources seen sources = .ok ()) :
    (sources.map Source.name).Nodup ∧ (∀ n ∈ sources.map Source.name, n ∉ seen) ∧
      ∀ s ∈ sources, s.invalid = false := by
  induction sources generalizing seen with
  | nil => simp
  | cons source rest ih =>
      unfold validateSources at h
      split at h
      · simp at h
      · next hc =>
        rw [Bool.or_eq_true, not_or, Bool.not_eq_true, Bool.not_eq_true, List.contains_eq_mem,
          decide_eq_false_iff_not] at hc
        obtain ⟨hnodup, hseen, hinvalid⟩ := ih h
        refine ⟨List.nodup_cons.mpr ⟨fun hm => hseen _ hm List.mem_cons_self, hnodup⟩, ?_, ?_⟩
        · intro n hn
          rcases List.mem_cons.mp hn with rfl | hn
          · exact hc.2
          · exact fun hm => hseen n hn (List.mem_cons_of_mem _ hm)
        · intro s hs
          rcases List.mem_cons.mp hs with rfl | hs
          · exact hc.1
          · exact hinvalid s hs

/-- What a valid configuration is. -/
structure Valid (cfg : Config) : Prop where
  nodup : (cfg.sources.map Source.name).Nodup
  sources : ∀ s ∈ cfg.sources, s.invalid = false
  parents : ∀ s ∈ cfg.sources, parentInvalid cfg.sources s = false

theorem valid_of_validate {cfg : Config} (h : validate cfg = .ok ()) : Valid cfg := by
  unfold validate at h
  split at h
  · simp at h
  · cases hs : validateSources [] cfg.sources with
    | error e => simp [hs] at h
    | ok u =>
        simp only [hs] at h
        obtain ⟨hnodup, -, hinvalid⟩ := validateSources_ok hs
        split at h
        · simp at h
        · next hp =>
          rw [Bool.not_eq_true, List.any_eq_false] at hp
          exact ⟨hnodup, hinvalid, fun s hm => Bool.not_eq_true _ ▸ hp s hm⟩

theorem Valid.source_eq {cfg : Config} (h : Valid cfg) {s s' : Source} (hs : s ∈ cfg.sources)
    (hs' : s' ∈ cfg.sources) (hn : s.name = s'.name) : s = s' :=
  List.inj_on_of_nodup_map h.nodup hs hs' hn

/-- A valid source has a positive failure threshold and a positive freshness. -/
theorem Source.bounds {s : Source} (h : s.invalid = false) :
    1 ≤ s.failureCount ∧ 60 ≤ s.freshnessSeconds ∧ s.freshnessSeconds ≤ 3600 := by
  simp only [Source.invalid, Bool.or_eq_false_iff, Bool.not_eq_false', Bool.and_eq_true,
    decide_eq_true_eq] at h
  obtain ⟨⟨⟨⟨⟨⟨⟨-, hfresh⟩, hcount⟩, -⟩, -⟩, -⟩, -⟩, -⟩ := h
  refine ⟨?_, hfresh⟩
  split at hcount
  · simp only [decide_eq_false_iff_not, not_not] at hcount; omega
  · simp only [Bool.not_eq_false', Bool.and_eq_true, decide_eq_true_eq] at hcount; omega

/-! ## The loop over the sources -/

theorem sampledAll_ok {now : ℚ} {reader : Reader} {sources : List Source}
    {samples : List (Source × Observation)} (h : sampledAll now reader sources = .ok samples) :
    samples.map Prod.fst = sources ∧
      ∀ p ∈ samples, sampled p.1 now (reader (.ofString p.1.path)) = .ok p.2 := by
  induction sources generalizing samples with
  | nil =>
      obtain rfl : [] = samples := by simpa [sampledAll] using h
      simp
  | cons source rest ih =>
      unfold sampledAll at h
      cases ho : sampled source now (reader (.ofString source.path)) with
      | error e => simp [ho, bind, Except.bind] at h
      | ok o =>
          cases hos : sampledAll now reader rest with
          | error e => simp [ho, hos, bind, Except.bind] at h
          | ok os =>
              obtain rfl : (source, o) :: os = samples := by
                simpa [ho, hos, bind, Except.bind] using h
              obtain ⟨hmap, hall⟩ := ih hos
              refine ⟨by simp [hmap], ?_⟩
              intro p hp
              rcases List.mem_cons.mp hp with rfl | hp
              · exact ho
              · exact hall p hp

variable {now : ℚ} {notifications : Bool} {samples : List (Source × Observation)}

/-- The loop leaves the entries and rows of other names alone. -/
theorem collectLoop_other {rest : List (Source × Observation)} {entries : Dict String Entry}
    {rows : Dict String Row} {name : String} (h : name ∉ rest.map (fun p => p.1.name)) :
    (collectLoop now notifications samples rest entries rows).1.get? name = entries.get? name ∧
      (collectLoop now notifications samples rest entries rows).2.get? name = rows.get? name := by
  induction rest generalizing entries rows with
  | nil => exact ⟨rfl, rfl⟩
  | cons p rest ih =>
      obtain ⟨source, o⟩ := p
      rw [List.map_cons, List.mem_cons, not_or] at h
      unfold collectLoop
      obtain ⟨he, hr⟩ := ih h.2
      exact ⟨he.trans (Dict.get?_set_ne _ _ (Ne.symm h.1)),
        hr.trans (Dict.get?_set_ne _ _ (Ne.symm h.1))⟩

/-- The loop does `collectSource` once for every sample, on the entry it found. -/
theorem collectLoop_mem {rest : List (Source × Observation)} {entries : Dict String Entry}
    {rows : Dict String Row} (hnodup : (rest.map (fun p => p.1.name)).Nodup)
    {source : Source} {o : Observation} (h : (source, o) ∈ rest) :
    (collectLoop now notifications samples rest entries rows).1.get? source.name =
        some (collectSource now notifications source o (parentStatus samples source)
          ((entries.get? source.name).getD {})).1 ∧
      (collectLoop now notifications samples rest entries rows).2.get? source.name =
        some (collectSource now notifications source o (parentStatus samples source)
          ((entries.get? source.name).getD {})).2 := by
  induction rest generalizing entries rows with
  | nil => simp at h
  | cons p rest ih =>
      obtain ⟨source', o'⟩ := p
      rw [List.map_cons, List.nodup_cons] at hnodup
      unfold collectLoop
      rcases List.mem_cons.mp h with heq | h
      · obtain ⟨rfl, rfl⟩ := Prod.mk.inj heq
        obtain ⟨he, hr⟩ := @collectLoop_other now notifications samples _ _ _ _ hnodup.1
        exact ⟨he.trans (Dict.get?_set_self ..), hr.trans (Dict.get?_set_self ..)⟩
      · have hne : source'.name ≠ source.name := fun hn =>
          hnodup.1 (List.mem_map.mpr ⟨_, h, hn.symm⟩)
        generalize collectSource now notifications source' o' (parentStatus samples source')
          ((entries.get? source'.name).getD {}) = done
        have hrest := @ih (entries.set source'.name done.1) (rows.set source'.name done.2) hnodup.2 h
        rwa [Dict.get?_set_ne _ _ hne] at hrest

/-! ## `collect` -/

/-- The arguments of one call of `collect`. -/
structure Call where
  now : ℚ
  reader : Reader
  notifications : Bool

/-- What a collection that returned did. -/
structure Collected (cfg : Config) (call : Call) (s s' : State) (summary : Summary) : Prop where
  valid : Valid cfg
  now_nonneg : 0 ≤ call.now
  clock : s.lastCollection.getD 0 ≤ call.now
  last : s'.lastCollection = some call.now
  observedAt : summary.observedAt = call.now
  /-- The samples of this collection; a source is processed with its own and its parent's. -/
  source : ∃ samples : List (Source × Observation), samples.map Prod.fst = cfg.sources ∧
    (∀ p ∈ samples, sampled p.1 call.now (call.reader (.ofString p.1.path)) = .ok p.2) ∧
    ∀ p ∈ samples,
      s'.sources.get? p.1.name = some (collectSource call.now call.notifications p.1 p.2
        (parentStatus samples p.1) ((s.sources.get? p.1.name).getD {})).1 ∧
      summary.sources.get? p.1.name = some (collectSource call.now call.notifications p.1 p.2
        (parentStatus samples p.1) ((s.sources.get? p.1.name).getD {})).2
  others : ∀ name, name ∉ cfg.sources.map Source.name →
    s'.sources.get? name = s.sources.get? name ∧ summary.sources.get? name = none

/-- **A collection that returned** did `collectSource` for every source. -/
theorem collect_ok {cfg : Config} {call : Call} {s s' : State} {summary : Summary}
    (h : collect cfg s call.now call.reader call.notifications = (s', .ok summary)) :
    Collected cfg call s s' summary := by
  unfold collect at h
  cases hv : validate cfg with
  | error e => simp [hv] at h
  | ok u =>
      simp only [hv] at h
      split at h
      · simp at h
      next hneg =>
      split at h
      · simp at h
      next hclock =>
      cases hs : sampledAll call.now call.reader cfg.sources with
      | error e => simp [hs] at h
      | ok samples =>
          simp only [hs, Prod.mk.injEq, Except.ok.injEq] at h
          obtain ⟨rfl, rfl⟩ := h
          have hvalid := valid_of_validate hv
          obtain ⟨hmap, hsampled⟩ := sampledAll_ok hs
          have hnames : samples.map (fun p => p.1.name) = cfg.sources.map Source.name := by
            rw [← hmap, List.map_map]; rfl
          refine ⟨hvalid, not_lt.mp hneg, not_lt.mp hclock, rfl, rfl,
            ⟨samples, hmap, hsampled, ?_⟩, ?_⟩
          · intro p hp
            exact collectLoop_mem (hnames ▸ hvalid.nodup) hp
          · intro name hname
            exact collectLoop_other (hnames ▸ hname)

/-- A collection that raised leaves every entry as it was. -/
theorem collect_error {cfg : Config} {call : Call} {s s' : State} {e : HealthExn}
    (h : collect cfg s call.now call.reader call.notifications = (s', .error e)) :
    s'.sources = s.sources := by
  unfold collect at h
  cases hv : validate cfg with
  | error e => simp only [hv, Prod.mk.injEq] at h; rw [← h.1]
  | ok u =>
      simp only [hv] at h
      split at h
      · rw [← (Prod.mk.inj h).1]
      split at h
      · rw [← (Prod.mk.inj h).1]
      cases hs : sampledAll call.now call.reader cfg.sources with
      | error e => simp only [hs, Prod.mk.injEq] at h; rw [← h.1]
      | ok samples => simp [hs] at h

/-! ## The incident part of a machine

Mails are written on top of the incident machine and are never read by it. -/

namespace Machine

/-- The machine without its mails. -/
def core (m : Machine) : Machine := { m with failedMail := none, recoveredMail := none }

@[simp] theorem core_incident (m : Machine) : m.core.incident = m.incident := rfl
@[simp] theorem core_failures (m : Machine) : m.core.failures = m.failures := rfl
@[simp] theorem core_sequence (m : Machine) : m.core.sequence = m.sequence := rfl
@[simp] theorem core_isStale (m : Machine) (t : ℚ) : m.core.isStale t = m.isStale t := rfl

theorem core_isGap (m : Machine) (t f : ℚ) : m.core.isGap t f = m.isGap t f := rfl

@[simp] theorem core_setMail (m : Machine) (event d) : (m.setMail event d).core = m.core := by
  cases event <;> rfl

@[simp] theorem core_reserveEvent (m : Machine) (target event now severity) :
    (m.reserveEvent target event now severity).core = m.core := core_setMail _ _ _

@[simp] theorem core_supersede (m : Machine) (event) : (m.supersede event).core = m.core := by
  unfold supersede
  split
  · split
    · exact core_setMail _ _ _
    · rfl
  · rfl

@[simp] theorem core_cancel (m : Machine) (status transition) :
    (m.cancel status transition).core = m.core := by
  unfold cancel
  split <;> split <;> simp

@[simp] theorem core_notify (m : Machine) (target transition now severity) :
    (m.notify target transition now severity).core = m.core := by
  unfold notify
  split
  · simp
  · simp
  · split <;> simp

theorem core_advance (m : Machine) (status time freshness) :
    m.core.advance status time freshness = (m.advance status time freshness).core := by
  unfold advance
  rw [core_isGap]
  generalize (m.isGap time freshness || !_) = interrupted
  cases interrupted <;> rfl

theorem core_fail (m : Machine) (time count) :
    m.core.fail time count = ((m.fail time count).1.core, (m.fail time count).2) := by
  by_cases h : m.incident = none ∧ count ≤ ((m.failures + 1 : Nat) : Int)
  · rw [fail_of_threshold h, fail_of_threshold (s := m.core) h]; rfl
  · rw [fail_of_below h, fail_of_below (s := m.core) h]; rfl

theorem core_heal (m : Machine) (time) :
    m.core.heal time = ((m.heal time).1.core, (m.heal time).2) := by
  cases hn : m.incident with
  | none => rw [heal_of_none hn, heal_of_none (s := m.core) hn]; rfl
  | some n =>
      by_cases h : recoverySamples ≤ m.healthySamples + 1 ∧
          recoverySeconds ≤ time - m.healthySince.getD time
      · rw [heal_of_window hn h, heal_of_window (s := m.core) hn h]; rfl
      · rw [heal_of_short hn h, heal_of_short (s := m.core) hn h]; rfl

theorem core_observe (m : Machine) (status time count freshness) :
    m.core.observe status time count freshness =
      ((m.observe status time count freshness).1.core,
        (m.observe status time count freshness).2) := by
  unfold observe
  rw [core_isStale, core_advance]
  split
  · rfl
  · cases status with
    | failed => exact core_fail _ _ _
    | healthy => exact core_heal _ _
    | loading | budgetLimit | observerError => rfl

theorem core_tick (m : Machine) (p : Params) (status time) :
    (m.core.tick p status time).1 = (m.tick p status time).1.core := by
  unfold tick
  rw [core_observe]
  dsimp only
  split <;> rfl

end Machine

theorem Source.failureCount_pos {s : Source} (h : s.invalid = false) : 0 < s.failureCount :=
  Int.lt_of_lt_of_le Int.zero_lt_one (Source.bounds h).1

/-- The thresholds a target is observed with. -/
def Source.params (s : Source) (h : s.invalid = false) : Target → Params
  | .own      => ⟨s.failureCount, s.freshnessSeconds, Source.failureCount_pos h⟩
  | .observer => ⟨3, 180, by decide⟩

/-- The status and time a target was observed with. -/
def Row.observed (row : Row) (observedAt : ℚ) : Target → Status × ℚ
  | .own      => (row.observation.status, row.observation.sampleAt)
  | .observer => (row.observerStatus, observedAt)

theorem observerStatus_eq_observerError (suppressed : Option String) (status : Status) :
    observerStatus suppressed status = .observerError ↔ suppressed.isSome := by
  unfold observerStatus
  cases suppressed with
  | none => by_cases h : status = .observerError <;> simp [h]
  | some parent => simp

/-- **One collection of one target** is one tick of its incident machine. -/
theorem collectSource_core {source : Source} (h : source.invalid = false) (now : ℚ)
    (notifications : Bool) (o : Observation) (ps : Option Status) (entry : Entry) (t : Target) :
    (((collectSource now notifications source o ps entry).1.machine t).core) =
      ((entry.machine t).core.tick (source.params h t)
        ((collectSource now notifications source o ps entry).2.observed now t).1
        ((collectSource now notifications source o ps entry).2.observed now t).2).1 := by
  rw [Machine.core_tick]
  cases t with
  | own =>
      cases notifications <;>
        simp only [collectSource, Entry.machine, Row.observed, Source.params, Machine.tick,
          Machine.core_cancel, Machine.core_notify, if_true, Bool.false_eq_true, if_false]
  | observer =>
      simp only [collectSource, Entry.machine, Row.observed, Source.params, Machine.tick,
        observerStatus_eq_observerError]
      split <;> simp

/-! ## The incident machine over every list of collections -/

/-- The state after a list of collections with one configuration, newest first. -/
def stateAfter (cfg : Config) : List Call → State
  | []           => {}
  | call :: rest =>
    (collect cfg (stateAfter cfg rest) call.now call.reader call.notifications).1

/-- What one collection observed of a target: nothing, if it raised. -/
def observed (cfg : Config) (s : State) (call : Call) (name : String) (t : Target) :
    Option (Status × ℚ) :=
  match (collect cfg s call.now call.reader call.notifications).2 with
  | .error _    => none
  | .ok summary => (summary.sources.get? name).map (fun row => row.observed summary.observedAt t)

/-- The history of a target over a list of collections, newest first. -/
def history (cfg : Config) (p : Params) (name : String) (t : Target) : List Call → Trace
  | []           => {}
  | call :: rest =>
    match observed cfg (stateAfter cfg rest) call name t with
    | none                => history cfg p name t rest
    | some (status, time) => (history cfg p name t rest).next p status time

theorem history_ok (cfg : Config) (p : Params) (name : String) (t : Target) (calls : List Call) :
    (history cfg p name t calls).Ok p := by
  induction calls with
  | nil => exact Trace.ok_start p
  | cons call rest ih =>
      unfold history
      split
      · exact ih
      · exact Trace.ok_next ih _ _

/-- The entry of a configured source after a collection that returned. -/
theorem Collected.at_source {cfg : Config} {call : Call} {s s' : State} {summary : Summary}
    (h : Collected cfg call s s' summary) {source : Source} (hs : source ∈ cfg.sources) :
    ∃ o ps, sampled source call.now (call.reader (.ofString source.path)) = .ok o ∧
      s'.sources.get? source.name = some (collectSource call.now call.notifications source o ps
        ((s.sources.get? source.name).getD {})).1 ∧
      summary.sources.get? source.name = some (collectSource call.now call.notifications source o ps
        ((s.sources.get? source.name).getD {})).2 := by
  obtain ⟨samples, hmap, hsampled, hall⟩ := h.source
  rw [← hmap, List.mem_map] at hs
  obtain ⟨⟨source, o⟩, hp, rfl⟩ := hs
  exact ⟨o, _, hsampled _ hp, hall _ hp⟩

/-- **The machine of a target is the replay of its history.** -/
theorem stateAfter_core {cfg : Config} {source : Source} (hs : source ∈ cfg.sources)
    (h : source.invalid = false) (t : Target) (calls : List Call) :
    ((stateAfter cfg calls).machine source.name t).core =
      (history cfg (source.params h t) source.name t calls).machine := by
  induction calls with
  | nil => cases t <;> rfl
  | cons call rest ih =>
      unfold history observed
      cases hc : collect cfg (stateAfter cfg rest) call.now call.reader call.notifications with
      | mk s' result =>
          have hs' : stateAfter cfg (call :: rest) = s' := by rw [stateAfter, hc]
          rw [hs']
          cases result with
          | error e =>
              dsimp only
              rw [← ih, State.machine, State.machine, collect_error hc]
          | ok summary =>
              have hcol := collect_ok hc
              obtain ⟨o, ps, -, hentry, hrow⟩ := hcol.at_source hs
              dsimp only
              rw [hrow]
              simp only [Option.map_some, hcol.observedAt, Trace.next, ← ih]
              rw [State.machine, hentry, Option.getD_some, collectSource_core h]
              rfl

/-- **The incident state machine.** After any list of collections with a valid configuration, the
    machine of a target counts the longest failure streak of its history, its incidents were opened
    as `1, 2, …` and closed at most once each; and the next collection opens or closes one exactly at
    the samples the history says. An `OBSERVER_ERROR` of an observer is a suppressed collection. -/
theorem incident_machine {cfg : Config} (hv : validate cfg = .ok ()) {source : Source}
    (hs : source ∈ cfg.sources) (t : Target) (calls : List Call) :
    let p := source.params ((valid_of_validate hv).sources source hs) t
    let tr := history cfg p source.name t calls
    let m := (stateAfter cfg calls).machine source.name t
    (tr.times.Pairwise (· > ·) ∧ ∀ time, m.isStale time = false ↔ ∀ u ∈ tr.times, u < time) ∧
    IsGreatest {k | ∃ ts, ts.length = k ∧ IsStreak Mark.failed? (Near p.freshness) tr.marks ts}
      m.failures ∧
    (tr.opened = (List.range' 1 m.sequence).reverse ∧ tr.closed.Pairwise (· > ·) ∧
      (∀ n ∈ tr.closed, n ∈ tr.opened) ∧
      ∀ n, m.incident = some n → n ∈ tr.opened ∧ n ∉ tr.closed) ∧
    ∀ call : Call,
      let tr' := history cfg p source.name t (call :: calls)
      let m' := (stateAfter cfg (call :: calls)).machine source.name t
      tr'.opened = Trace.fresh m.incident m'.incident ++ tr.opened ∧
      tr'.closed = Trace.fresh m'.incident m.incident ++ tr.closed ∧
      (∀ summary row, (collect cfg (stateAfter cfg calls) call.now call.reader
          call.notifications).2 = .ok summary → summary.sources.get? source.name = some row →
        (row.observerStatus = .observerError ↔ row.suppressedBy.isSome)) ∧
      (observed cfg (stateAfter cfg calls) call source.name t = none →
        m'.core = m.core ∧ tr'.marks = tr.marks) ∧
      ∀ status time, observed cfg (stateAfter cfg calls) call source.name t = some (status, time) →
        tr'.marks = Trace.newMarks m status time ++ tr.marks ∧
        ((m.incident = none ∧ m'.incident ≠ none) ↔
          m.isStale time = false ∧ status = .failed ∧ m.incident = none ∧
            (m'.failures : Int) = p.failureCount) ∧
        ((m.incident ≠ none ∧ m'.incident = none) ↔
          m.isStale time = false ∧ status = .healthy ∧ ∃ n, m.incident = some n ∧
            ∃ ts first, IsStreak (Mark.healthy? n) (Near p.freshness) tr'.marks ts ∧
              2 ≤ ts.length ∧ ts.getLast? = some first ∧ 3600 ≤ time - first) := by
  intro p tr m
  have hcore : ∀ calls, ((stateAfter cfg calls).machine source.name t).core =
      (history cfg p source.name t calls).machine := fun calls => stateAfter_core hs _ t calls
  have hok := history_ok cfg p source.name t calls
  have hm : m.core = tr.machine := hcore calls
  have hinc : m.incident = tr.machine.incident := by rw [← hm]; rfl
  have hstale : ∀ time, m.isStale time = tr.machine.isStale time := fun time => by rw [← hm]; rfl
  have hseq : m.sequence = tr.machine.sequence := by rw [← hm]; rfl
  have hfail : m.failures = tr.machine.failures := by rw [← hm]; rfl
  refine ⟨⟨hok.sorted, fun time => by rw [hstale]; exact hok.isStale_iff time⟩, ?_,
    ⟨by rw [hseq]; exact hok.opened, hok.closedSorted, ?_, ?_⟩, ?_⟩
  · rw [hfail, hok.failures]
    exact isGreatest_length_streak tr.marks
  · exact fun n hn => hok.mem_opened.mpr (hok.closedLe n hn)
  · intro n hn
    rw [hinc] at hn
    obtain ⟨hle, hclosed⟩ := hok.current n hn
    exact ⟨hok.mem_opened.mpr ⟨hok.pos n hn, hle.le⟩, hclosed⟩
  intro call tr' m'
  have hm' : m'.core = tr'.machine := hcore (call :: calls)
  have hinc' : m'.incident = tr'.machine.incident := by rw [← hm']; rfl
  have hok' := history_ok cfg p source.name t (call :: calls)
  have hsuppressed : ∀ summary row, (collect cfg (stateAfter cfg calls) call.now call.reader
      call.notifications).2 = .ok summary → summary.sources.get? source.name = some row →
      (row.observerStatus = .observerError ↔ row.suppressedBy.isSome) := by
    intro summary row hres hrow
    obtain ⟨o, ps, -, -, hrow'⟩ := (collect_ok (Prod.ext rfl hres)).at_source hs
    obtain rfl := Option.some.inj (hrow.symm.trans hrow')
    exact observerStatus_eq_observerError _ _
  cases hobs : observed cfg (stateAfter cfg calls) call source.name t with
  | none =>
      have htr : tr' = tr := by simp only [tr', history, hobs]; rfl
      have hsame : m'.incident = m.incident := by rw [hinc', hinc, htr]
      refine ⟨by simp [hsame, htr], by simp [hsame, htr], hsuppressed, fun _ => ⟨?_, by rw [htr]⟩, by simp⟩
      rw [hm', hm, htr]
  | some o =>
      obtain ⟨status, time⟩ := o
      have htr : tr' = tr.next p status time := by simp only [tr', history, hobs]; rfl
      have hnext : tr'.machine = (tr.machine.tick p status time).1 := by rw [htr]; rfl
      refine ⟨?_, ?_, hsuppressed, by simp, ?_⟩
      · rw [hinc', hinc, htr]; rfl
      · rw [hinc', hinc, htr]; rfl
      · intro status' time' heq
        obtain ⟨rfl, rfl⟩ : status = status' ∧ time = time' := by simpa using heq
        have hmarks : Trace.newMarks m status time = Trace.newMarks tr.machine status time := by
          unfold Trace.newMarks
          rw [hstale, hinc]
        have hfail' : m'.failures = (tr'.failedStreak p).length := by
          rw [← hok'.failures, ← hm']; rfl
        refine ⟨by rw [hmarks, htr]; rfl, ?_, ?_⟩
        · rw [hinc, hinc', hstale, hfail', htr]
          exact hok.opens_iff status time
        · rw [hinc, hinc', hstale, htr]
          exact hok.closes_iff status time

/-! ## A configuration to run the model on -/

def demoSource : Source where
  name := "api"
  path := "/reports/api.json"
  freshnessSeconds := 90
  failureCount := 2

def demoConfig : Config where
  sources := [demoSource]
  notificationsEnabled := true

/-- A report of the demo source. -/
def demoReport (status : String) (time : ℚ) : Json :=
  .dict [("version", .int 1), ("source", .str "api"), ("status", .str status),
    ("observed_at", .float (.finite time))]

/-- A collection that finds a report of its own time. -/
def demoCall (status : String) (time : ℚ) : Call where
  now := time
  reader := fun _ => .document (demoReport status time)
  notifications := true

/-- Two failed samples in a row open incident 1. -/
theorem incident_machine_two_failures :
    (history demoConfig (demoSource.params (by decide +kernel) .own) "api" .own
        [demoCall "FAILED" 160, demoCall "FAILED" 100]).opened = [1] := by
  have h := @incident_machine demoConfig (by decide +kernel) demoSource (by simp [demoConfig]) .own [demoCall "FAILED" 160, demoCall "FAILED" 100]
  refine h.2.2.1.1.trans ?_
  decide +kernel

end Health
end PickleInfra
