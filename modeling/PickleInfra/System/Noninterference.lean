import PickleInfra.System.Published

/-!
# `System.Noninterference` — what the row of a source depends on

The row of a source and its entry, apart from the mails, come from the source itself, its parent, their reports and the
stored entry. Another source matters in one way only: a report whose number is too large for a float stops the whole
collection.
-/

namespace PickleInfra
namespace Health

open Python Durable Relation

/-! ## One source -/

/-- An entry without its mails. -/
def Entry.core (e : Entry) : Entry := { own := e.own.core, observer := e.observer.core }

theorem Machine.observe_congr {m m' : Machine} (h : m.core = m'.core) (status : Status) (time : ℚ) (count : Int)
    (freshness : ℚ) :
    (m.observe status time count freshness).1.core = (m'.observe status time count freshness).1.core ∧
      (m.observe status time count freshness).2 = (m'.observe status time count freshness).2 := by
  have hm := core_observe m status time count freshness
  rw [h, core_observe m' status time count freshness] at hm
  obtain ⟨hcore, hevent⟩ := Prod.mk.inj hm
  exact ⟨hcore.symm, hevent.symm⟩

theorem Machine.core_interrupt (m : Machine) : m.interrupt.core = m.core.interrupt := rfl

theorem Machine.incident_of_core {m m' : Machine} (h : m.core = m'.core) : m.incident = m'.incident := by
  rw [← Machine.core_incident, h, Machine.core_incident]

theorem Machine.healthySince_of_core {m m' : Machine} (h : m.core = m'.core) :
    m.healthySince = m'.healthySince := by
  have hsince := congrArg Machine.healthySince h
  exact hsince

/-- The step of one source: its row and its entry do not depend on mails. -/
theorem collectSource_congr {entry entry' : Entry} (h : entry.core = entry'.core) (now : ℚ)
    (notifications notifications' : Bool) (source : Source) (o : Observation) (ps : Option Status) :
    (collectSource now notifications source o ps entry).1.core =
        (collectSource now notifications' source o ps entry').1.core ∧
      (collectSource now notifications source o ps entry).2 =
        (collectSource now notifications' source o ps entry').2 := by
  obtain ⟨hown, hobserver⟩ := Entry.mk.inj h
  obtain ⟨hown, hevent⟩ := Machine.observe_congr hown o.status o.sampleAt source.failureCount source.freshnessSeconds
  obtain ⟨hobserver, hobserverEvent⟩ := Machine.observe_congr hobserver
    (observerStatus (suppressedBy source o ps) o.status) now 3 180
  have hown' : ∀ (c : Prop) [Decidable c] (m m' : Machine), m.core = m'.core →
      (if c then m.interrupt else m).core = (if c then m'.interrupt else m').core := by
    intro c _ m m' hm
    split
    · rw [Machine.core_interrupt, Machine.core_interrupt, hm]
    · exact hm
  have hnotify : ∀ (c : Prop) [Decidable c] (m : Machine) (target : String) (event : Transition) (severity : Option String),
      (if c then m.notify target event now severity else m).core = m.core := by
    intro c _ m target event severity
    split
    · exact Machine.core_notify _ _ _ _ _
    · rfl
  have hentry : ∀ n e, (collectSource now n source o ps e).1.core =
      { own := (if o.status = .observerError then
          (e.own.observe o.status o.sampleAt source.failureCount source.freshnessSeconds).1.interrupt
          else (e.own.observe o.status o.sampleAt source.failureCount source.freshnessSeconds).1).core
        observer := (if (suppressedBy source o ps).isSome then
          (e.observer.observe (observerStatus (suppressedBy source o ps) o.status) now 3 180).1.interrupt
          else (e.observer.observe (observerStatus (suppressedBy source o ps) o.status) now 3 180).1).core } := by
    intro n e
    unfold collectSource Entry.core
    simp only [hnotify, Machine.core_cancel]
  have hcore : (collectSource now notifications source o ps entry).1.core =
      (collectSource now notifications' source o ps entry').1.core := by
    rw [hentry, hentry, hown' _ _ _ hown, hown' _ _ _ hobserver]
  refine ⟨hcore, ?_⟩
  obtain ⟨hown₂, hobserver₂⟩ := Entry.mk.inj hcore
  unfold collectSource at hown₂ hobserver₂ ⊢
  dsimp only at hown₂ hobserver₂ ⊢
  rw [Machine.incident_of_core hown₂, Machine.incident_of_core hobserver₂, Machine.healthySince_of_core hown₂, hevent,
    hobserverEvent]

/-! ## When a collection returns -/

/-- Reading or sampling a report raises what no `except` of the collector names: a number beyond the floats, or an
    exception of the reader itself. -/
def Escapes : ReadResult → Prop
  | .document v => ∃ n : Int, v.get? "observed_at" = some (.int n) ∧ (Json.maxDouble < n ∨ n < -Json.maxDouble)
  | .escaped    => True
  | .missing    => False
  | .failed     => False

theorem item_error {v : Json} {k : String} {e : HealthExn} (h : v.item k = .error e) : e.caught = true := by
  unfold Json.item at h
  split at h
  · split at h
    · cases h
    · cases h
      rfl
  · cases h
    rfl

theorem evidence_error {source : Source} {value : Json} {e : HealthExn} (h : evidence source value = .error e) :
    e.caught = true := by
  have hread : ∀ {value : Json} {key : String} {k : Json → Except HealthExn Status},
      value.item key >>= k = .error e → (∀ v, k v = .error e → e.caught = true) → e.caught = true := by
    intro value key k h hk
    cases hi : (value.item key : Except HealthExn Json) with
    | error e' =>
        rw [hi] at h
        cases h
        exact item_error hi
    | ok v =>
        rw [hi] at h
        exact hk v h
  unfold evidence at h
  split at h
  · cases h
    rfl
  · split at h
    on_goal 1 => refine hread h fun host h => ?_
    all_goals
      refine hread h fun status h => ?_
      split at h
      · cases h
        rfl
      · split at h
        · cases h
          rfl
        · split at h
          · cases h
            rfl
          · cases h

/-- What is not caught of a time of a report is the overflow. -/
theorem epoch_error {v : Json} {e : HealthExn} (h : epoch v = .error e) :
    e.caught = false ↔ ∃ n : Int, v = .int n ∧ (Json.maxDouble < n ∨ n < -Json.maxDouble) := by
  unfold epoch Json.finiteNumber at h
  cases v with
  | int n =>
      dsimp only at h
      by_cases hn : n ≤ Json.maxDouble ∧ -Json.maxDouble ≤ n
      · rw [if_pos hn] at h
        dsimp only at h
        split at h
        · cases h
          refine ⟨fun hc => (by cases hc), ?_⟩
          rintro ⟨m, hm, hlarge⟩
          cases hm
          omega
        · cases h
      · rw [if_neg hn] at h
        cases h
        exact ⟨fun _ => ⟨n, rfl, by omega⟩, fun _ => rfl⟩
  | float x =>
      refine ⟨fun hc => ?_, fun ⟨n, hn, _⟩ => by cases hn⟩
      cases x with
      | finite q =>
          dsimp only at h
          split at h
          · cases h
            cases hc
          · cases h
      | inf | negInf | nan =>
          cases h
          cases hc
  | null | bool | str | list | dict =>
      cases h
      exact ⟨fun hc => (by cases hc), fun ⟨n, hn, _⟩ => by cases hn⟩

/-- Sampling a report raises exactly for what escapes. -/
theorem sampled_error_iff (source : Source) (now : ℚ) (r : ReadResult) :
    (∃ e, sampled source now r = .error e) ↔ Escapes r := by
  cases r with
  | missing => exact ⟨fun ⟨e, he⟩ => (by cases he), False.elim⟩
  | failed => exact ⟨fun ⟨e, he⟩ => (by cases he), False.elim⟩
  | escaped => exact ⟨fun _ => trivial, fun _ => ⟨_, rfl⟩⟩
  | document v =>
      show (∃ e, sampledDocument source now v = .error e) ↔ ∃ n : Int, _
      unfold sampledDocument
      cases hi : (v.item "observed_at" : Except HealthExn Json) with
      | error e =>
          have hnone : v.get? "observed_at" = none := by
            cases hg : v.get? "observed_at" with
            | none => rfl
            | some x => rw [Json.item_of_get? hg] at hi; cases hi
          simp [hnone, bind, Except.bind, item_error hi]
      | ok x =>
          have hget := Json.get?_of_item hi
          rw [hget]
          simp only [bind, Except.bind]
          cases he : epoch x with
          | error e =>
              dsimp only
              have hcaught := epoch_error he
              cases hc : e.caught with
              | true =>
                  rw [if_pos rfl]
                  refine ⟨fun ⟨_, h⟩ => (by cases h), ?_⟩
                  rintro ⟨n, hn, hlarge⟩
                  have hfalse := hcaught.mpr ⟨n, Option.some.inj hn, hlarge⟩
                  rw [hc] at hfalse
                  cases hfalse
              | false =>
                  rw [if_neg Bool.false_ne_true]
                  obtain ⟨n, hn, hlarge⟩ := hcaught.mp hc
                  exact ⟨fun _ => ⟨n, congrArg some hn, hlarge⟩, fun _ => ⟨e, rfl⟩⟩
          | ok t =>
              have hsmall : ¬ ∃ n : Int, some x = some (.int n) ∧ (Json.maxDouble < n ∨ n < -Json.maxDouble) := by
                rintro ⟨n, hn, hlarge⟩
                cases hn
                have herror : epoch (.int n) = .error .overflowError := by
                  unfold epoch Json.finiteNumber
                  dsimp only
                  rw [if_neg (by omega)]
                rw [herror] at he
                cases he
              refine ⟨?_, fun h => absurd h hsmall⟩
              rintro ⟨e, h⟩
              dsimp only at h
              split at h
              next e' hevidence =>
                rw [if_pos (evidence_error hevidence)] at h
                cases h
              · split at h
                · cases h
                · split at h
                  · cases h
                  · cases h

theorem sampledAll_returns_iff {now : ℚ} {reader : Reader} {sources : List Source} :
    (∃ samples, sampledAll now reader sources = .ok samples) ↔
      ∀ q ∈ sources, ¬ Escapes (reader (.ofString q.path)) := by
  induction sources with
  | nil => exact ⟨fun _ q hq => (by cases hq), fun _ => ⟨[], rfl⟩⟩
  | cons source rest ih =>
      rw [List.forall_mem_cons, ← ih, ← sampled_error_iff source now]
      rw [sampledAll]
      cases hs : sampled source now (reader (.ofString source.path)) with
      | error e =>
          constructor
          · rintro ⟨_, ⟨⟩⟩
          · rintro ⟨h, -⟩
            exact absurd ⟨e, rfl⟩ h
      | ok o =>
          constructor
          · rintro ⟨samples, h⟩
            obtain ⟨_, -, h⟩ := bind_eq_ok.mp h
            obtain ⟨samples', h', -⟩ := bind_eq_ok.mp h
            exact ⟨by rintro ⟨_, ⟨⟩⟩, samples', h'⟩
          · rintro ⟨-, samples, h⟩
            exact ⟨(source, o) :: samples, bind_eq_ok.mpr ⟨o, rfl, bind_eq_ok.mpr ⟨samples, h, rfl⟩⟩⟩

/-- One collection: the configuration, the stored state, and the arguments of `collect`. -/
structure Collection where
  config : Config
  state : State
  call : Call

namespace Collection

def result (c : Collection) : State × Except HealthExn Summary :=
  collect c.config c.state c.call.now c.call.reader c.call.notifications

/-- What a collection makes of a source: its entry without mails, and its row. Nothing, if it raised. -/
def outcome (c : Collection) (name : String) : Option (Entry × Option Row) :=
  match c.result with
  | (_, .error _)    => none
  | (s, .ok summary) => some (((s.sources.get? name).getD {}).core, summary.sources.get? name)

/-- The configuration is accepted, the clock did not go back, and every report is sampled. -/
def Completes (c : Collection) : Prop :=
  validate c.config = .ok () ∧ 0 ≤ c.call.now ∧ c.state.lastCollection.getD 0 ≤ c.call.now ∧
    ∀ q ∈ c.config.sources, ¬ Escapes (c.call.reader (.ofString q.path))

theorem returns_iff (c : Collection) : (∃ s summary, c.result = (s, .ok summary)) ↔ c.Completes := by
  unfold Completes
  rw [← @sampledAll_returns_iff c.call.now]
  unfold result collect
  cases hv : validate c.config with
  | error e => simp
  | ok u =>
      dsimp only
      by_cases hneg : c.call.now < 0
      · simp [hneg]
      by_cases hback : c.call.now < c.state.lastCollection.getD 0
      · simp [hneg, hback]
      rw [if_neg hneg, if_neg hback]
      cases hs : sampledAll c.call.now c.call.reader c.config.sources with
      | error e => simp
      | ok samples => simp [not_lt.mp hneg, not_lt.mp hback]

theorem outcome_isSome (c : Collection) (name : String) : (c.outcome name).isSome = true ↔ c.Completes := by
  rw [← returns_iff]
  unfold outcome
  cases hr : c.result with
  | mk s r =>
      cases r with
      | error e => simp
      | ok summary => simp

/-! ## Two collections that agree on a source -/

/-- The stored entry of a source, without mails. -/
def stored (c : Collection) (name : String) : Entry := ((c.state.sources.get? name).getD {}).core

/-- What a collection reads for a source. -/
def report (c : Collection) (source : Source) : ReadResult := c.call.reader (.ofString source.path)

/-- Two collections at the same time agree on a source, its parent, their reports and the stored entry. -/
structure Agree (c c' : Collection) (source : Source) : Prop where
  now : c.call.now = c'.call.now
  mem : source ∈ c.config.sources
  mem' : source ∈ c'.config.sources
  report : c.report source = c'.report source
  parent : ∀ q ∈ c.config.sources, source.observerParent = some q.name →
    q ∈ c'.config.sources ∧ c.report q = c'.report q
  stored : c.stored source.name = c'.stored source.name

variable {c c' : Collection}

/-- The parent of a source is configured, and its status is that of its own sample. -/
theorem parentStatus_of_parent {samples : List (Source × Observation)} (hmap : samples.map Prod.fst = c.config.sources)
    (hsampled : ∀ p ∈ samples, sampled p.1 c.call.now (c.report p.1) = .ok p.2) (hvalid : Health.Valid c.config)
    {source q : Source} (hq : q ∈ c.config.sources) (hparent : source.observerParent = some q.name) :
    ∃ o, sampled q c.call.now (c.report q) = .ok o ∧ parentStatus samples source = some o.status := by
  unfold parentStatus
  rw [hparent, Option.bind_some]
  cases hf : samples.find? (fun p => p.1.name = q.name) with
  | none =>
      rw [← hmap, List.mem_map] at hq
      obtain ⟨p, hp, rfl⟩ := hq
      exact absurd (List.find?_eq_none.mp hf p hp) (by simp)
  | some p =>
      have hname : p.1.name = q.name := by simpa using List.find?_some hf
      have hp := List.mem_of_find?_eq_some hf
      have hmem : p.1 ∈ c.config.sources := hmap ▸ List.mem_map_of_mem hp
      obtain rfl := hvalid.source_eq hmem hq hname
      exact ⟨p.2, hsampled p hp, rfl⟩

/-- A valid configuration has the parent it names. -/
theorem exists_parent (hvalid : Health.Valid c.config) {source : Source} (hs : source ∈ c.config.sources)
    {parent : String} (hparent : source.observerParent = some parent) : ∃ q ∈ c.config.sources, q.name = parent := by
  have hok := hvalid.parents source hs
  unfold parentInvalid at hok
  rw [hparent] at hok
  dsimp only at hok
  cases hf : c.config.sources.find? (fun s => s.name = parent) with
  | none => rw [hf] at hok; cases hok
  | some q => exact ⟨q, List.mem_of_find?_eq_some hf, by simpa using List.find?_some hf⟩

/-- Two collections that agree on a source and return make the same of it. -/
theorem Agree.outcome_eq {source : Source} (h : Agree c c' source) (hc : c.Completes) (hc' : c'.Completes) :
    c.outcome source.name = c'.outcome source.name := by
  obtain ⟨s, summary, hr⟩ := c.returns_iff.mpr hc
  obtain ⟨s', summary', hr'⟩ := c'.returns_iff.mpr hc'
  have hcollected : Collected c.config c.call c.state s summary := collect_ok hr
  have hcollected' : Collected c'.config c'.call c'.state s' summary' := collect_ok hr'
  obtain ⟨samples, hmap, hsampled, hall⟩ := hcollected.source
  obtain ⟨samples', hmap', hsampled', hall'⟩ := hcollected'.source
  have hparents : parentStatus samples source = parentStatus samples' source := by
    cases hparent : source.observerParent with
    | none => simp [parentStatus, hparent]
    | some parent =>
        obtain ⟨q, hq, rfl⟩ := exists_parent hcollected.valid h.mem hparent
        obtain ⟨hq', hreport⟩ := h.parent q hq hparent
        obtain ⟨o, ho, hstatus⟩ := parentStatus_of_parent hmap hsampled hcollected.valid hq hparent
        obtain ⟨o', ho', hstatus'⟩ := parentStatus_of_parent hmap' hsampled' hcollected'.valid hq' hparent
        rw [h.now, hreport, ho'] at ho
        rw [hstatus, hstatus', Except.ok.inj ho]
  have hmem : source ∈ samples.map Prod.fst := hmap ▸ h.mem
  have hmem' : source ∈ samples'.map Prod.fst := hmap' ▸ h.mem'
  obtain ⟨⟨source, o⟩, hp, rfl⟩ := List.mem_map.mp hmem
  obtain ⟨⟨source', o'⟩, hp', hsame⟩ := List.mem_map.mp hmem'
  obtain rfl : source' = source := hsame
  have hobservation : o = o' := by
    have ho : sampled source' c.call.now (c.report source') = .ok o := hsampled _ hp
    rw [h.now, h.report] at ho
    exact Except.ok.inj (ho.symm.trans (hsampled' _ hp'))
  subst hobservation
  obtain ⟨hentry, hrow⟩ := hall _ hp
  obtain ⟨hentry', hrow'⟩ := hall' _ hp'
  obtain ⟨hcore, hsameRow⟩ := collectSource_congr h.stored c.call.now c.call.notifications c'.call.notifications source' o
    (parentStatus samples source')
  unfold outcome
  rw [hr, hr']
  dsimp only at hentry hrow hentry' hrow' ⊢
  rw [hentry, hrow, hentry', hrow', Option.getD_some, Option.getD_some, hcore, hsameRow, hparents, h.now]

/-! ## The same sources in another order, and a dry run -/

/-- The same sources, reports and incidents at the same time; their order, the mails and the notifications flag may
    differ. -/
structure Rearranged (c c' : Collection) : Prop where
  now : c.call.now = c'.call.now
  reader : c.call.reader = c'.call.reader
  sources : c.config.sources.Perm c'.config.sources
  last : c.state.lastCollection = c'.state.lastCollection
  stored : ∀ name, c.stored name = c'.stored name

theorem Rearranged.symm (h : Rearranged c c') : Rearranged c' c :=
  ⟨h.now.symm, h.reader.symm, h.sources.symm, h.last.symm, fun name => (h.stored name).symm⟩

theorem Rearranged.agree (h : Rearranged c c') {source : Source} (hs : source ∈ c.config.sources) :
    Agree c c' source where
  now := h.now
  mem := hs
  mem' := h.sources.mem_iff.mp hs
  report := by unfold Collection.report; rw [h.reader]
  parent := fun q hq _ => ⟨h.sources.mem_iff.mp hq, by unfold Collection.report; rw [h.reader]⟩
  stored := h.stored source.name

end Collection

/-- The checks of `validate` on the parent of a source, in a configuration with distinct names. -/
theorem parentInvalid_eq_false_iff {sources : List Source} (hnodup : (sources.map Source.name).Nodup) (source : Source) :
    parentInvalid sources source = false ↔ ∀ parent, source.observerParent = some parent →
      ∃ q ∈ sources, q.name = parent ∧ (parent = source.name || q.observerParent.isSome
        || q.expectedKind ≠ some "observer-report" || q.componentOrQuery ≠ "query") = false := by
  unfold parentInvalid
  cases source.observerParent with
  | none => exact ⟨fun _ _ h => (by cases h), fun _ => rfl⟩
  | some parent =>
      dsimp only
      cases hf : sources.find? (fun s => s.name = parent) with
      | none =>
          refine ⟨fun h => (by cases h), fun h => ?_⟩
          obtain ⟨q, hq, hname, -⟩ := h parent rfl
          exact absurd hname (by simpa using List.find?_eq_none.mp hf q hq)
      | some p =>
          have hname : p.name = parent := by simpa using List.find?_some hf
          have hp := List.mem_of_find?_eq_some hf
          constructor
          · rintro h parent' hparent'
            cases hparent'
            exact ⟨p, hp, hname, h⟩
          · intro h
            obtain ⟨q, hq, hqname, hok⟩ := h parent rfl
            rwa [List.inj_on_of_nodup_map hnodup hq hp (hqname.trans hname.symm)] at hok

theorem validateSources_iff {sources : List Source} : ∀ {seen : List String},
    validateSources seen sources = .ok () ↔ (sources.map Source.name).Nodup ∧
      (∀ n ∈ sources.map Source.name, n ∉ seen) ∧ ∀ s ∈ sources, s.invalid = false := by
  intro seen
  refine ⟨validateSources_ok, ?_⟩
  induction sources generalizing seen with
  | nil => exact fun _ => rfl
  | cons source rest ih =>
      rintro ⟨hnodup, hseen, hinvalid⟩
      rw [List.map_cons, List.nodup_cons] at hnodup
      rw [List.map_cons, List.forall_mem_cons] at hseen
      rw [List.forall_mem_cons] at hinvalid
      unfold validateSources
      rw [hinvalid.1, Bool.false_or, List.contains_eq_mem, decide_eq_false hseen.1, if_neg Bool.false_ne_true]
      refine ih ⟨hnodup.2, fun n hn => ?_, hinvalid.2⟩
      rw [List.mem_cons, not_or]
      exact ⟨fun heq => hnodup.1 (heq ▸ hn), hseen.2 n hn⟩

theorem validate_iff {cfg : Config} :
    validate cfg = .ok () ↔ cfg.sources ≠ [] ∧ cfg.sources.length ≤ 32 ∧ Valid cfg := by
  constructor
  · intro h
    have hvalid := valid_of_validate h
    unfold validate at h
    split at h
    · cases h
    next hsize =>
      rw [not_or, not_lt] at hsize
      exact ⟨hsize.1, hsize.2, hvalid⟩
  · rintro ⟨hne, hlength, hvalid⟩
    have hsources : validateSources [] cfg.sources = .ok () :=
      validateSources_iff.mpr ⟨hvalid.nodup, fun _ _ h => (by cases h), hvalid.sources⟩
    have hparents : cfg.sources.any (parentInvalid cfg.sources) = false :=
      List.any_eq_false.mpr fun s hs => by rw [hvalid.parents s hs]; exact Bool.false_ne_true
    unfold validate
    rw [if_neg (by rw [not_or, not_lt]; exact ⟨hne, hlength⟩), hsources]
    dsimp only
    rw [hparents, if_neg Bool.false_ne_true]

/-- The order of the sources does not decide whether a configuration is accepted. -/
theorem validate_perm {cfg cfg' : Config} (h : cfg.sources.Perm cfg'.sources) (hok : validate cfg = .ok ()) :
    validate cfg' = .ok () := by
  obtain ⟨hne, hlength, hvalid⟩ := validate_iff.mp hok
  have hnodup : (cfg'.sources.map Source.name).Nodup := (h.map Source.name).nodup_iff.mp hvalid.nodup
  refine validate_iff.mpr ⟨fun hnil => hne (by rw [hnil] at h; exact h.eq_nil), h.length_eq ▸ hlength, hnodup,
    fun s hs => hvalid.sources s (h.mem_iff.mpr hs), fun s hs => ?_⟩
  rw [parentInvalid_eq_false_iff hnodup]
  intro parent hparent
  obtain ⟨q, hq, hgood⟩ := (parentInvalid_eq_false_iff hvalid.nodup s).mp (hvalid.parents s (h.mem_iff.mpr hs))
    parent hparent
  exact ⟨q, h.mem_iff.mp hq, hgood⟩

namespace Collection

variable {c c' : Collection}

theorem Rearranged.completes (h : Rearranged c c') (hc : c.Completes) : c'.Completes := by
  obtain ⟨hvalidate, hnow, hlast, hreports⟩ := hc
  refine ⟨validate_perm h.sources hvalidate, h.now ▸ hnow, h.last ▸ h.now ▸ hlast, fun q hq => ?_⟩
  rw [← h.reader]
  exact hreports q (h.sources.mem_iff.mpr hq)

/-- Rearranged collections make the same of every name. -/
theorem Rearranged.outcome_eq (h : Rearranged c c') (name : String) : c.outcome name = c'.outcome name := by
  by_cases hc : c.Completes
  · have hc' := h.completes hc
    by_cases hname : name ∈ c.config.sources.map Source.name
    · obtain ⟨source, hs, rfl⟩ := List.mem_map.mp hname
      exact (h.agree hs).outcome_eq hc hc'
    · obtain ⟨s, summary, hr⟩ := c.returns_iff.mpr hc
      obtain ⟨s', summary', hr'⟩ := c'.returns_iff.mpr hc'
      have hcollected : Collected c.config c.call c.state s summary := collect_ok hr
      have hcollected' : Collected c'.config c'.call c'.state s' summary' := collect_ok hr'
      obtain ⟨hentry, hrow⟩ := hcollected.others name hname
      obtain ⟨hentry', hrow'⟩ := hcollected'.others name fun hm => hname ((h.sources.map _).mem_iff.mpr hm)
      unfold outcome
      rw [hr, hr']
      dsimp only
      rw [hentry, hrow, hentry', hrow']
      exact congrArg (fun e => some (e, none)) (h.stored name)
  · have hc' : ¬ c'.Completes := fun hc' => hc (h.symm.completes hc')
    rw [← outcome_isSome c name, Option.not_isSome_iff_eq_none] at hc
    rw [← outcome_isSome c' name, Option.not_isSome_iff_eq_none] at hc'
    rw [hc, hc']

end Collection

/-! ## The dry run and the real run -/

/-- The collection a run makes. -/
def RunInput.collection (x : RunInput) (d : Disk) (notifications : Bool) : Collection :=
  ⟨x.config, d.stateOrEmpty, x.now, x.reader, notifications⟩

theorem RunInput.rearranged (x : RunInput) (d : Disk) (notifications notifications' : Bool) :
    (x.collection d notifications).Rearranged (x.collection d notifications') :=
  ⟨rfl, rfl, .refl _, rfl, fun _ => rfl⟩

/-- A dry run and a run that returned have the same rows, and the same incidents afterwards. -/
structure SameRun (dry : State × Summary) (summary : Summary) (d : Disk) : Prop where
  observedAt : dry.2.observedAt = summary.observedAt
  rows : ∀ name, dry.2.sources.get? name = summary.sources.get? name
  published : d.summary = some summary
  incidents : ∃ s, d.state = some s ∧ ∀ name, ((s.sources.get? name).getD {}).core = ((dry.1.sources.get? name).getD {}).core

theorem dryRun_of_run {x : RunInput} {w w' : MonitorWorld} {summary : Summary}
    (h : Runs (run x) w w' (some (.ok summary))) :
    ∃ dry, (x.collection w.disk false).result = (dry.1, .ok dry.2) ∧ SameRun dry summary w'.disk ∧
      ∀ w'' r, Runs (dryRun x) w w'' (some r) → r = .ok dry.2 ∧ w'' = w := by
  rcases run_cases h with ⟨-, hno⟩ | ⟨state, summary', hc, hmoves, hreturned⟩
  · exact absurd rfl (hno summary)
  obtain ⟨rfl, hpublished⟩ := hreturned summary rfl
  have hreal : (x.collection w.disk x.config.notificationsEnabled).result = (state, .ok summary) := hc
  have hcompletes : (x.collection w.disk false).Completes :=
    (x.rearranged w.disk _ _).completes ((Collection.returns_iff _).mp ⟨state, summary, hreal⟩)
  obtain ⟨s, dry, hdry⟩ := (Collection.returns_iff _).mpr hcompletes
  have hsame : ∀ name, ((s.sources.get? name).getD {}).core = ((state.sources.get? name).getD {}).core ∧
      dry.sources.get? name = summary.sources.get? name := by
    intro name
    have houtcome := (x.rearranged w.disk false x.config.notificationsEnabled).outcome_eq name
    unfold Collection.outcome at houtcome
    rw [hdry, hreal] at houtcome
    exact Prod.mk.inj (Option.some.inj houtcome)
  have hdisk : System.OnDisk state w' := by
    refine invariant_of_moves (fun _ _ hinv hm => hinv.move hm) ?_ hmoves
    exact ⟨state, rfl, System.carries_refl state⟩
  obtain ⟨kept, hkept, hcarries⟩ := hdisk
  refine ⟨(s, dry), hdry, ⟨?_, fun name => (hsame name).2, hpublished, kept, hkept, fun name => ?_⟩, ?_⟩
  · exact (collect_ok hdry).observedAt.trans (collect_ok hreal).observedAt.symm
  · rw [(hsame name).1]
    exact Entry.mk.injEq .. ▸ ⟨hcarries.core name .own, hcarries.core name .observer⟩
  · intro w'' r hrun
    rcases runs_look hrun with ⟨-, hnone⟩ | hrun
    · cases hnone
    obtain ⟨hw, hr | hr⟩ := runs_ret hrun
    · cases hr
    · refine ⟨(Option.some.inj hr).trans ?_, hw⟩
      exact congrArg Prod.snd hdry

/-- **Collections do not interfere.** Two collections that agree on a source make the same of it exactly if both return
    or none does: the other sources decide nothing but that. The order of the sources, the mails and the notifications
    flag decide not even that, and a dry run has the rows and the incidents of the run that is made instead. -/
theorem collections_do_not_interfere (c c' : Collection) :
    (∀ source : Source, c.Agree c' source →
      (c.outcome source.name = c'.outcome source.name ↔ (c.Completes ↔ c'.Completes))) ∧
    (c.Rearranged c' → ∀ name, c.outcome name = c'.outcome name) ∧
    ∀ (x : RunInput) (w w' : MonitorWorld) (summary : Summary), Runs (run x) w w' (some (.ok summary)) →
      ∃ dry, (x.collection w.disk false).result = (dry.1, .ok dry.2) ∧ SameRun dry summary w'.disk ∧
        ∀ w'' r, Runs (dryRun x) w w'' (some r) → r = .ok dry.2 ∧ w'' = w := by
  refine ⟨fun source h => ⟨fun heq => ?_, fun hiff => ?_⟩, fun h name => h.outcome_eq name,
    fun x w w' summary h => dryRun_of_run h⟩
  · rw [← c.outcome_isSome source.name, ← c'.outcome_isSome source.name, heq]
  · by_cases hc : c.Completes
    · exact h.outcome_eq hc (hiff.mp hc)
    · have hc' : ¬ c'.Completes := fun hc' => hc (hiff.mpr hc')
      rw [← c.outcome_isSome source.name, Option.not_isSome_iff_eq_none] at hc
      rw [← c'.outcome_isSome source.name, Option.not_isSome_iff_eq_none] at hc'
      rw [hc, hc']

/-! ## A report with a number beyond the floats -/

/-- A second source, with a report of its own. -/
def otherSource : Source := { demoSource with name := "web", path := "/reports/web.json" }

/-- The demo source alone or beside another one, whose report was observed at `time`. -/
def besideReport (sources : List Source) (time : Int) : Collection where
  config := { sources }
  state := {}
  call :=
    { now := 100, notifications := false
      reader := fun path => .document (if path = .ofString demoSource.path then demoReport "HEALTHY" 100
        else .dict [("observed_at", .int time)]) }

/-- The report of the other source takes the row of the demo source away. -/
theorem large_number_interferes :
    (besideReport [demoSource] 0).Agree (besideReport [demoSource, otherSource] (10 ^ 400)) demoSource ∧
      ((besideReport [demoSource] 0).outcome "api").isSome = true ∧
      (besideReport [demoSource, otherSource] (10 ^ 400)).outcome "api" = none := by
  refine ⟨⟨rfl, List.mem_cons_self, List.mem_cons_self, rfl, fun q _ h => (by cases h), rfl⟩, by decide +kernel, ?_⟩
  decide +kernel

end Health
end PickleInfra
