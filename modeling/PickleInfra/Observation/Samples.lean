import PickleInfra.Observation.Numbered

/-!
# `Observation.Samples` — the runs of `sample`

One statement for every part of `sample`. From where its number is reserved on, the latest document is below the
number, and publishing brings it up to it; `makes_sample` puts them together.
-/

namespace PickleInfra
namespace Observation

open Python Metrics Durable
open Relation (ReflTransGen)

variable {M : Machine} {c : SampleConfig} {sourceId : String} {w : Site M}

/-- What holds of a sampler's store and of its past. -/
structure Going (M : Machine) (sourceId : String) (w : Site M) : Prop where
  sound : w.disk.Sound
  produced : Produced M sourceId w.disk.view
  numbered : Numbered M.text w

/-- The step keeps it. -/
def Goes (M : Machine) (sourceId : String) (w w' : Site M) : Prop := Going M sourceId w → Going M sourceId w'

theorem goes_push {e : Durable.Event Directory (Ask Sensing) (Answer (Measurement M.text))} (he : ∀ d, e ≠ .wrote d) :
    Goes M sourceId w (w.push e) := fun h => ⟨h.sound, h.produced, numbered_push he h.numbered⟩

theorem goes_quiet {w w' : Site M} (h : Quiet w w') : Goes M sourceId w w' := by
  cases h with
  | answered q a hq => exact goes_push fun d heq => by cases heq
  | lost q hq => exact goes_push fun d heq => by cases heq
  | wrote sound view =>
      exact fun h => ⟨sound, view ▸ h.produced, numbered_same (by rw [view]) h.numbered⟩

/-! ## Questions -/

section Questions

variable {p : Files → Prop}

theorem makes_measure {α : Type} {q : Sensing} {read : Measurement M.text → α} (post : α → Prop)
    (hread : ∀ m, post (read m)) (hw : Shows p w) :
    Makes (Goes M sourceId) (measure q read) w (fun a w' => Shows p w' ∧ post a) fun _ => Shows p := by
  refine makes_ask (goes_push fun d heq => by cases heq) (fun a => goes_push fun d heq => by cases heq) fun a => ?_
  cases a.reply.failure with
  | none => exact ⟨hw, hread a.reply⟩
  | some e => exact hw

theorem makes_readHost (hw : Shows p w) :
    Makes (Goes M sourceId) (readHost M c) w (fun r w' => Shows p w' ∧ Canonical.Held M.text r.1) fun _ => Shows p :=
  Makes.rescue (makes_measure (fun r : Json × Json => Canonical.Held M.text r.1) (fun m => m.held) hw)
    (fun _ _ _ h => .pure ⟨h, held_unavailableHost⟩) fun _ _ _ h => h

/-- The document was made of the number that is reserved. -/
def MadeOf (M : Machine) (sourceId : String) (p : ProducerState) (v : Json) : Prop :=
  ∃ payload now host identity sourceState, Canonical.Held M.text host ∧
    makeSample M payload sourceId p.epoch p.lastSequence now host identity sourceState = .ok v

theorem makes_document {now : Int} {q : ProducerState} {host identity : Json} (hheld : Canonical.Held M.text host)
    (hw : Shows p w) :
    Makes (Goes M sourceId) (document M c now q host identity) w
      (fun r w' => Shows p w' ∧ MadeOf M c.sourceId q r.1) fun _ => Shows p := by
  have hmade : ∀ payload sourceState, ∀ w₁ : Site M, Shows p w₁ →
      Makes (Goes M sourceId) (made M c now q host identity payload sourceState) w₁
        (fun v w' => Shows p w' ∧ MadeOf M c.sourceId q v) fun _ => Shows p := fun payload sourceState w₁ h₁ =>
    makes_lifted (fun v hv => ⟨h₁, payload, now, host, identity, sourceState, hheld, Observed.lift_eq_ok.mp hv⟩)
      fun _ => h₁
  have hobserved : Makes (Goes M sourceId)
      (do
        let payload ← measure .metrics Measurement.payload
        let value ← made M c now q host identity payload "OBSERVED"
        let _ ← lifted (forReporter M value now).lift
        pure (value, "SAMPLE_OBSERVED")) w
      (fun r w' => Shows p w' ∧ MadeOf M c.sourceId q r.1) fun _ => Shows p := by
    refine (makes_measure (fun _ => True) (fun _ => trivial) hw).bind fun payload w₁ h₁ => ?_
    refine (hmade payload _ w₁ h₁.1).bind fun value w₂ h₂ => ?_
    have hrequest : Makes (Goes M sourceId) (lifted (forReporter M value now).lift : Sampling M.text Json) w₂
        (fun _ => Shows p) fun _ => Shows p := makes_lifted (fun _ _ => h₂.1) fun _ => h₂.1
    exact hrequest.bind fun _ w₃ h₃ => .pure ⟨h₃, h₂.2⟩
  exact Makes.rescue hobserved
    (fun _ w₁ _ h₁ => (hmade _ _ w₁ h₁).bind fun value w₂ h₂ => .pure h₂) fun _ _ _ h => h

end Questions

/-! ## Saving -/

section Saving

variable {p : ProducerState} {n : Nat}

/-- The state is saved: the number of the state is reserved. -/
theorem makes_reserve (hepoch : isUuid p.epoch = true) (hbounded : p.lastSequence ≤ MAX_SEQUENCE)
    (hle : n ≤ p.lastSequence) (hw : Shows (Below M c.sourceId p.epoch n) w) :
    Makes (Goes M c.sourceId) (saved M "state.json" (p.toJson c.sourceId)) w
      (fun _ => Shows fun files => Reserved M c.sourceId p files ∧ Below M c.sourceId p.epoch n files)
      fun _ _ => True := by
  refine (makes_saveControl (fun _ _ => goes_quiet) (stable_shows _) (stable_shows _) (by decide) ?_ hw).mono
    (fun _ _ h => h) fun _ _ _ => trivial
  intro w' payload d hshows hpayload hsize hsound hview
  have hreserved : Reserved M c.sourceId p d.view := by
    rw [hview]
    exact reserved_set hbounded hepoch hpayload hsize _
  have hbelow : Below M c.sourceId p.epoch n d.view := by
    rw [hview]
    exact hshows.2.set (by decide) payload
  refine ⟨fun h => ⟨hsound, .inr ⟨p, hreserved, hbelow.mono hle⟩, numbered_same ?_ h.numbered⟩, hsound, hreserved,
    hbelow⟩
  rw [hview]
  exact latestOf_set (by decide) _ payload

/-- The document is published under the number that is reserved. -/
theorem makes_publish_latest {v : Json} (hmade : MadeOf M c.sourceId p v) (hlt : n < p.lastSequence)
    (hw : Shows (fun files => Reserved M c.sourceId p files ∧ Below M c.sourceId p.epoch n files) w) :
    Makes (Goes M c.sourceId) (saved M "latest.json" v) w
      (fun _ => Shows fun files => Reserved M c.sourceId p files ∧ Below M c.sourceId p.epoch p.lastSequence files)
      fun _ _ => True := by
  refine (makes_saveControl (fun _ _ => goes_quiet) (stable_shows _) (stable_shows _) (by decide) ?_ hw).mono
    (fun _ _ h => h) fun _ _ _ => trivial
  intro w' payload d hshows hpayload hsize hsound hview
  obtain ⟨input, now, host, identity, sourceState, hheld, hv⟩ := hmade
  let k : Key := ⟨p.epoch, p.lastSequence, hshows.2.1.epoch, hshows.2.1.bounded⟩
  have hsample : SampleOf M c.sourceId k payload v.sorted := sampled_of_made hheld hv hpayload
  have hreserved : Reserved M c.sourceId p d.view := by
    rw [hview]
    exact hshows.2.1.set (by decide) payload
  have hfile : d.view.get? "latest.json" = some payload := by
    rw [hview]
    exact (Dict.get?_set _ _ _ _).trans (if_pos rfl)
  have hbelow : Below M c.sourceId p.epoch p.lastSequence d.view := by
    intro payload' hpayload'
    rw [hfile] at hpayload'
    cases hpayload'
    exact ⟨hsize, k, v.sorted, hsample, rfl, Nat.le_refl _⟩
  have hlatest : latestOf M.text d.view = some (k, payload) := by
    unfold latestOf
    rw [hfile, Option.bind_some, hsample.key]
    rfl
  refine ⟨fun h => ⟨hsound, .inr ⟨p, hreserved, hbelow⟩, numbered_new hlatest ?_ h.numbered⟩, hsound, hreserved, hbelow⟩
  intro k' b' hlatest'
  obtain ⟨hepoch, hle⟩ := hshows.2.2.latest hlatest'
  exact ⟨hepoch, Nat.lt_of_le_of_lt hle hlt⟩

theorem makes_saveResult {result : Json}
    (hw : Shows (fun files => Reserved M c.sourceId p files ∧ Below M c.sourceId p.epoch p.lastSequence files) w) :
    Makes (Goes M c.sourceId) (saved M "status.json" result) w
      (fun _ => Shows fun files => Reserved M c.sourceId p files ∧ Below M c.sourceId p.epoch p.lastSequence files)
      fun _ _ => True := by
  refine (makes_saveControl (fun _ _ => goes_quiet) (stable_shows _) (stable_shows _) (by decide) ?_ hw).mono
    (fun _ _ h => h) fun _ _ _ => trivial
  intro w' payload d hshows _ _ hsound hview
  have hkept : Reserved M c.sourceId p d.view ∧ Below M c.sourceId p.epoch p.lastSequence d.view := by
    rw [hview]
    exact ⟨hshows.2.1.set (by decide) payload, hshows.2.2.set (by decide) payload⟩
  refine ⟨fun h => ⟨hsound, .inr ⟨p, hkept⟩, numbered_same ?_ h.numbered⟩, hsound, hkept⟩
  rw [hview]
  exact latestOf_set (by decide) _ payload

end Saving

/-! ## Runs -/

section Runs

variable {p : ProducerState}

theorem makes_publishSample {now : Int} {n : Nat} (hepoch : isUuid p.epoch = true)
    (hbounded : p.lastSequence ≤ MAX_SEQUENCE) (hlt : n < p.lastSequence)
    (hw : Shows (Below M c.sourceId p.epoch n) w) :
    Makes (Goes M c.sourceId) (publishSample M c now p) w (fun _ _ => True) fun _ _ => True := by
  refine (makes_reserve hepoch hbounded (Nat.le_of_lt hlt) hw).bind fun _ w₁ h₁ => ?_
  refine ((makes_readHost h₁).mono (fun _ _ h => h) fun _ _ _ => trivial).bind fun measured w₂ h₂ => ?_
  refine ((makes_document h₂.2 h₂.1).mono (fun _ _ h => h) fun _ _ _ => trivial).bind fun value w₃ h₃ => ?_
  refine (makes_publish_latest h₃.2 hlt h₃.1).bind fun _ w₄ h₄ => ?_
  exact (makes_saveResult h₄).bind fun _ w₅ _ => .pure trivial

theorem makes_loaded {name : String} {q : Files → Prop} (hw : Shows q w) :
    Makes (Goes M sourceId) (loaded M false name) w
      (fun r w' => Shows q w' ∧ loadControl M.text (sampleSession false) (shown w'.disk.view) name = .ok r)
      fun _ => Shows q :=
  makes_look (fun _ _ => goes_quiet) (stable_shows _) (fun _ _ => seen_loadControl _) hw

/-- The first run of a producer, on a store without its files. -/
theorem makes_firstRun {minute : Nat} {latest : Option Json}
    (hw : Shows (fun files => files.get? "latest.json" = none) w) :
    Makes (Goes M c.sourceId) (firstRun M c minute latest) w (fun _ _ => True) fun _ _ => True := by
  unfold firstRun
  split
  · exact .throw trivial
  · refine ((makes_look (fun _ _ => goes_quiet) (stable_shows _) (fun _ hd => seen_stats hd) hw).mono
      (fun _ _ h => h.1) fun _ _ _ => trivial).bind fun found w₁ h₁ => ?_
    split
    · exact .throw trivial
    · have huuid : Makes (Goes M c.sourceId) (ask (fun a => .ok a.uuid) .uuid : Sampling M.text Uuid) w₁
          (fun _ => Shows fun files => files.get? "latest.json" = none) fun _ _ => True :=
        makes_ask (goes_push fun _ heq => by cases heq) (fun a => goes_push fun _ heq => by cases heq) fun _ => h₁
      refine huuid.bind fun u w₂ h₂ => ?_
      have hbelow : Shows (Below M c.sourceId u.text 0) w₂ := h₂.mono fun files hnone payload hpayload => by
        rw [hnone] at hpayload
        cases hpayload
      have hreserve := makes_reserve (p := ⟨u.text, 0, minute⟩) u.valid (Nat.zero_le _) (Nat.le_refl 0) hbelow
      exact hreserve.bind fun _ w₃ _ => .pure trivial

theorem makes_nextRun {now : Int} {minute : Nat} {state : Json} {latest : Option Json}
    (hw : Shows (fun files => ∃ p, producerState state c.sourceId = .ok p ∧ Reserved M c.sourceId p files ∧
      Below M c.sourceId p.epoch p.lastSequence files) w) :
    Makes (Goes M c.sourceId) (nextRun M c now minute state latest) w (fun _ _ => True) fun _ _ => True := by
  obtain ⟨hsound, p, hstate, hreserved, hbelow⟩ := hw
  have hp : Makes (Goes M c.sourceId) (lifted (producerState state c.sourceId).lift : Sampling M.text ProducerState) w
      (fun q w' => q = p ∧ Shows (Below M c.sourceId p.epoch p.lastSequence) w') fun _ _ => True := by
    refine makes_lifted (fun q hq => ⟨?_, hsound, hbelow⟩) fun _ => trivial
    exact Except.ok.inj ((Observed.lift_eq_ok.mp hq).symm.trans hstate)
  refine hp.bind fun q w₁ h₁ => ?_
  obtain ⟨rfl, hbelow₁⟩ := h₁
  have hchecked : Makes (Goes M c.sourceId) (lifted (checkLatest M c q latest).lift : Sampling M.text Unit) w₁
      (fun _ => Shows (Below M c.sourceId q.epoch q.lastSequence)) fun _ _ => True :=
    makes_lifted (fun _ _ => hbelow₁) fun _ => trivial
  refine hchecked.bind fun _ w₂ hbelow₂ => ?_
  split
  · exact .throw trivial
  · split
    · exact .pure trivial
    · split
      · exact .throw trivial
      · next hroom =>
        have hlt : q.lastSequence + 1 ≤ MAX_SEQUENCE := by
          have hle := hreserved.bounded
          omega
        exact makes_publishSample hreserved.epoch hlt (Nat.lt_succ_self _) hbelow₂

theorem makes_sample {now : Int} (hw : w.disk.Sound) (hproduced : Produced M c.sourceId w.disk.view) :
    Makes (Goes M c.sourceId) (sample M c now) w (fun _ _ => True) fun _ _ => True := by
  have hshows : Shows (Produced M c.sourceId) w := ⟨hw, hproduced⟩
  have htime : Makes (Goes M c.sourceId) (lifted (instant now).lift : Sampling M.text String) w
      (fun _ => Shows (Produced M c.sourceId)) fun _ _ => True := makes_lifted (fun _ _ => hshows) fun _ => trivial
  refine htime.bind fun _ w₁ h₁ => ?_
  refine ((makes_call (P := Shows (Produced M c.sourceId)) (fun _ _ => goes_quiet)
    fun a => (stable_shows _).call h₁ _ a).mono (fun _ _ h => h) fun _ _ _ => trivial).bind fun _ w₂ h₂ => ?_
  refine ((makes_loaded h₂).mono (fun _ _ h => h) fun _ _ _ => trivial).bind fun state w₃ h₃ => ?_
  obtain ⟨⟨hsound₃, hproduced₃⟩, hload⟩ := h₃
  obtain ⟨-, ⟨hnone, rfl⟩ | ⟨payload, v, hfile, -, hdecoded, rfl⟩⟩ := loadControl_eq_ok.mp hload
  · have hlatest : Shows (fun files => files.get? "latest.json" = none) w₃ := by
      rcases hproduced₃ with ⟨-, hlatest⟩ | ⟨p, hreserved, -⟩
      · exact ⟨hsound₃, hlatest⟩
      · obtain ⟨payload, v, hfile, -⟩ := hreserved.state
        rw [hnone] at hfile
        cases hfile
    refine ((makes_loaded hlatest).mono (fun _ _ h => h.1) fun _ _ _ => trivial).bind fun latest w₄ h₄ => ?_
    exact makes_firstRun h₄
  · have hstate : Shows (fun files => ∃ p, producerState v c.sourceId = .ok p ∧ Reserved M c.sourceId p files ∧
        Below M c.sourceId p.epoch p.lastSequence files) w₃ := by
      rcases hproduced₃ with ⟨hnone, -⟩ | ⟨p, hreserved, hbelow⟩
      · rw [hnone] at hfile
        cases hfile
      · obtain ⟨payload', v', hfile', -, hdecoded', hp⟩ := hreserved.state
        rw [hfile] at hfile'
        cases hfile'
        rw [hdecoded] at hdecoded'
        cases hdecoded'
        exact ⟨hsound₃, p, hp, hreserved, hbelow⟩
    refine ((makes_loaded hstate).mono (fun _ _ h => h.1) fun _ _ _ => trivial).bind fun latest w₄ h₄ => ?_
    exact makes_nextRun h₄

end Runs

/-! ## Sequences of runs -/

/-- A run of `sample` at any time, which ended or was killed. -/
def Sampled (M : Machine) (sourceId : String) (w w' : Site M) : Prop :=
  ∃ c now r, c.sourceId = sourceId ∧ Runs (sample M c now).run w w' r

/-- Runs of `sample` that start from an empty store. -/
def Samples (M : Machine) (sourceId : String) (w : Site M) : Prop :=
  ReflTransGen (Sampled M sourceId) ⟨Directory.start, []⟩ w

/-- The world after a run of at most `n` steps with the answers. -/
def siteAfter (c : SampleConfig) (now : Int) (n : Nat) (answers : List (Answer (Measurement M.text))) (w : Site M) :
    Site M := ((sample M c now).run.exec n w answers).1

theorem sampled_siteAfter (c : SampleConfig) (now : Int) (n : Nat) (answers : List (Answer (Measurement M.text)))
    (w : Site M) : Sampled M c.sourceId w (siteAfter c now n answers w) := ⟨c, now, _, rfl, runs_exec _ _ _ _⟩

theorem going_start : Going M sourceId (⟨Directory.start, []⟩ : Site M) where
  sound := Directory.start_sound
  produced := .inl (by rw [view_start]; exact ⟨rfl, rfl⟩)
  numbered := ⟨fun _ _ _ h => absurd h List.not_mem_nil, fun _ _ _ _ _ h => absurd h List.not_mem_nil⟩

theorem goes_steps {w w' : Site M} (h : ReflTransGen (Goes M sourceId) w w') : Goes M sourceId w w' := by
  induction h with
  | refl => exact fun h => h
  | tail _ hstep ih => exact fun h => hstep (ih h)

theorem going_samples (h : Samples M sourceId w) : Going M sourceId w := by
  induction h with
  | refl => exact going_start
  | tail _ hrun ih =>
      obtain ⟨c, now, r, rfl, hr⟩ := hrun
      exact goes_steps ((makes_sample ih.sound ih.produced).moves hr) ih

/-- **No sequence number is published twice**, over any runs, and the numbers never go back. -/
theorem samples_numbered (h : Samples M sourceId w) : Numbered M.text w := (going_samples h).numbered

/-- The latest document, where there is one, passes every check of `read_latest`: its bytes are served as they are, and
the reporter takes them for a sample of the source. -/
def Served (M : Machine) (sourceId : String) (files : Files) : Prop :=
  ∀ payload, files.get? "latest.json" = some payload → ∃ state latest,
    loadControl M.text (sampleSession true) (shown files) "state.json" = .ok (some state) ∧
    loadControl M.text (sampleSession true) (shown files) "latest.json" = .ok (some latest) ∧
    (∀ c : SampleConfig, c.sourceId = sourceId → servedOf M c (some state) (some latest) = .ok payload) ∧
    payload.size ≤ MAX_SAMPLE_BYTES ∧ decoded M.text payload = .ok latest ∧ Fetched M sourceId latest

def plainSampler : SampleConfig where
  sourceId := plainSource
  configurationId := "plain"
  source_ok := isUuid_plainSource

/-- Every call of the system succeeds, and neither reader does. -/
def plainMeasurement : Answer (Measurement wholeMachine.text) :=
  ⟨none, 4096, ⟨plainSource, isUuid_plainSource⟩, ⟨some .value, .null, .null, .absent, trivial⟩⟩

/-- The first run of a sampler reserves a minute, and the run of the next minute publishes. -/
theorem samples_plain : Samples wholeMachine plainSampler.sourceId
    (siteAfter plainSampler 60000 100 (List.replicate 100 plainMeasurement)
      (siteAfter plainSampler 0 60 (List.replicate 60 plainMeasurement) ⟨Directory.start, []⟩)) :=
  .tail (.single (sampled_siteAfter _ _ _ _ _)) (sampled_siteAfter _ _ _ _ _)

theorem samples_numbered_plain : Numbered wholeMachine.text
    (siteAfter plainSampler 60000 100 (List.replicate 100 plainMeasurement)
      (siteAfter plainSampler 0 60 (List.replicate 60 plainMeasurement) ⟨Directory.start, []⟩)) :=
  samples_numbered samples_plain

end Observation
end PickleInfra
