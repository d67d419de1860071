import PickleInfra.Observation.Delivered
import PickleInfra.Observation.Sampler

/-!
# `Observation.Numbered` — the samples of a source are numbered

A sampler's store over any sequence of runs, each of which may have been killed anywhere. A number is reserved in
`state.json` before a document is published under it, so no number is published twice (`samples_numbered`), and
`read_latest` serves what was published last (`samples_served`).
-/

namespace PickleInfra
namespace Observation

open Python Metrics Durable
open Relation (ReflTransGen)

variable {M : Machine} {c : SampleConfig} {sourceId : String}

/-- The world of a sampler. -/
abbrev Site (M : Machine) := Place Sensing (Measurement M.text)

/-! ## The files of a producer -/

/-- The latest sample of the files: its key and its bytes. -/
def latestOf (T : FloatText) (files : Files) : Option (Key × ByteArray) :=
  (files.get? "latest.json").bind fun payload => (keyOf T payload).map fun k => (k, payload)

/-- `state.json` is accepted, and says that the number is reserved. -/
structure Reserved (M : Machine) (sourceId : String) (p : ProducerState) (files : Files) : Prop where
  bounded : p.lastSequence ≤ MAX_SEQUENCE
  epoch : isUuid p.epoch = true
  state : ∃ payload v, files.get? "state.json" = some payload ∧ payload.size ≤ 65536 ∧
    decoded M.text payload = .ok v ∧ producerState v sourceId = .ok p

/-- The latest document is a sample of the epoch, and not above the number. -/
def Below (M : Machine) (sourceId epoch : String) (n : Nat) (files : Files) : Prop :=
  ∀ payload, files.get? "latest.json" = some payload → payload.size ≤ MAX_SAMPLE_BYTES ∧
    ∃ k v, SampleOf M sourceId k payload v ∧ k.epoch = epoch ∧ k.sequence ≤ n

/-- What holds of the files between two steps. -/
def Produced (M : Machine) (sourceId : String) (files : Files) : Prop :=
  (files.get? "state.json" = none ∧ files.get? "latest.json" = none) ∨
    ∃ p, Reserved M sourceId p files ∧ Below M sourceId p.epoch p.lastSequence files

section Files

variable {files : Files} {p : ProducerState} {epoch : String} {n : Nat}

theorem Below.mono {m : Nat} (h : Below M sourceId epoch n files) (hle : n ≤ m) : Below M sourceId epoch m files := by
  intro payload hpayload
  obtain ⟨hsize, k, v, hsample, hepoch, hk⟩ := h payload hpayload
  exact ⟨hsize, k, v, hsample, hepoch, hk.trans hle⟩

/-- Another file changes nothing about the latest document. -/
theorem Below.set {name : String} (h : Below M sourceId epoch n files) (hname : name ≠ "latest.json")
    (payload : ByteArray) : Below M sourceId epoch n (files.set name payload) := by
  intro payload' hpayload'
  rw [Dict.get?_set_ne _ _ hname] at hpayload'
  exact h payload' hpayload'

theorem Reserved.set {name : String} (h : Reserved M sourceId p files) (hname : name ≠ "state.json")
    (payload : ByteArray) : Reserved M sourceId p (files.set name payload) := by
  obtain ⟨payload', v, hfile, hrest⟩ := h.state
  refine ⟨h.bounded, h.epoch, payload', v, ?_, hrest⟩
  rw [Dict.get?_set_ne _ _ hname, hfile]

theorem latestOf_set {T : FloatText} {name : String} (hname : name ≠ "latest.json") (files : Files)
    (payload : ByteArray) : latestOf T (files.set name payload) = latestOf T files := by
  unfold latestOf
  rw [Dict.get?_set_ne _ _ hname]

/-- The latest document is the sample that its bytes are. -/
theorem Below.latest {k : Key} {payload : ByteArray} (h : Below M sourceId epoch n files)
    (hlatest : latestOf M.text files = some (k, payload)) : k.epoch = epoch ∧ k.sequence ≤ n := by
  obtain ⟨payload', hfile, hkey⟩ := Option.bind_eq_some_iff.mp hlatest
  obtain ⟨k', hk', heq⟩ := Option.map_eq_some_iff.mp hkey
  cases heq
  obtain ⟨-, k'', v, hsample, hepoch, hle⟩ := h _ hfile
  rw [hsample.key] at hk'
  cases hk'
  exact ⟨hepoch, hle⟩

/-- A state that is written is accepted again. -/
theorem reserved_set {payload : ByteArray} (hbounded : p.lastSequence ≤ MAX_SEQUENCE) (hepoch : isUuid p.epoch = true)
    (hpayload : encoded M.text (p.toJson sourceId) = .ok payload) (hsize : payload.size ≤ 65536) (files : Files) :
    Reserved M sourceId p (files.set "state.json" payload) where
  bounded := hbounded
  epoch := hepoch
  state := ⟨payload, _, (Dict.get?_set _ _ _ _).trans (if_pos rfl), hsize,
    (decoded_encoded (p.held sourceId) hpayload).1, producerState_toJson hepoch hbounded sourceId⟩

end Files

/-! ## The past -/

/-- The published samples of the past: one document for a key, and the numbers never go back. -/
structure Numbered (T : FloatText) {Y : Type} (w : Place Sensing Y) : Prop where
  growing : ∀ d k b, .wrote d ∈ w.hist → latestOf T d.view = some (k, b) → ∃ k' b',
    latestOf T w.disk.view = some (k', b') ∧ k'.epoch = k.epoch ∧ k.sequence ≤ k'.sequence ∧ (k = k' → b = b')
  single : ∀ d d' k b b', .wrote d ∈ w.hist → .wrote d' ∈ w.hist → latestOf T d.view = some (k, b) →
    latestOf T d'.view = some (k, b') → b = b'

section Past

variable {T : FloatText} {Y : Type} {w : Place Sensing Y}

theorem numbered_push {e : Durable.Event Directory (Ask Sensing) (Answer Y)} (he : ∀ d, e ≠ .wrote d)
    (h : Numbered T w) : Numbered T (w.push e) := by
  have hmem : ∀ d, .wrote d ∈ (w.push e).hist → .wrote d ∈ w.hist := by
    intro d hd
    rcases List.mem_cons.mp hd with heq | hd
    · exact absurd heq.symm (he d)
    · exact hd
  exact ⟨fun d k b hd => h.growing d k b (hmem d hd),
    fun d d' k b b' hd hd' => h.single d d' k b b' (hmem d hd) (hmem d' hd')⟩

/-- The directory takes the latest document as it was. -/
theorem numbered_same {d : Directory} (hsame : latestOf T d.view = latestOf T w.disk.view) (h : Numbered T w) :
    Numbered T (w.wrote d) := by
  have hnow : ∀ d₀ k b, .wrote d₀ ∈ (w.wrote d).hist → latestOf T d₀.view = some (k, b) → ∃ k' b',
      latestOf T w.disk.view = some (k', b') ∧ k'.epoch = k.epoch ∧ k.sequence ≤ k'.sequence ∧ (k = k' → b = b') := by
    intro d₀ k b hd₀ hb
    rcases List.mem_cons.mp hd₀ with heq | hd₀
    · cases heq
      exact ⟨k, b, hsame ▸ hb, rfl, Nat.le_refl _, fun _ => rfl⟩
    · exact h.growing d₀ k b hd₀ hb
  -- what is as it was is what the past has under the key
  have hcurrent : ∀ d₀ k b b', .wrote d₀ ∈ (w.wrote d).hist → latestOf T d₀.view = some (k, b) →
      latestOf T w.disk.view = some (k, b') → b = b' := by
    intro d₀ k b b' hd₀ hb hb'
    obtain ⟨k', b'', hlatest, -, -, hsingle⟩ := hnow d₀ k b hd₀ hb
    rw [hb'] at hlatest
    cases hlatest
    exact hsingle rfl
  refine ⟨fun d₀ k b hd₀ hb => ?_, fun d₀ d₁ k b b' hd₀ hd₁ hb hb' => ?_⟩
  · rw [World.wrote_disk, hsame]
    exact hnow d₀ k b hd₀ hb
  · rcases List.mem_cons.mp hd₁ with heq | hold₁
    · cases heq
      exact hcurrent d₀ k b b' hd₀ hb (hsame ▸ hb')
    · rcases List.mem_cons.mp hd₀ with heq | hold₀
      · cases heq
        exact (hcurrent d₁ k b' b hd₁ hb' (hsame ▸ hb)).symm
      · exact h.single d₀ d₁ k b b' hold₀ hold₁ hb hb'

/-- A document under a new number. -/
theorem numbered_new {d : Directory} {k : Key} {b : ByteArray} (hlatest : latestOf T d.view = some (k, b))
    (hnew : ∀ k' b', latestOf T w.disk.view = some (k', b') → k'.epoch = k.epoch ∧ k'.sequence < k.sequence)
    (h : Numbered T w) : Numbered T (w.wrote d) := by
  have hold : ∀ d₀ k₀ b₀, .wrote d₀ ∈ w.hist → latestOf T d₀.view = some (k₀, b₀) →
      k₀.epoch = k.epoch ∧ k₀.sequence < k.sequence := by
    intro d₀ k₀ b₀ hd₀ hb₀
    obtain ⟨k', b', hnow, hepoch, hle, -⟩ := h.growing d₀ k₀ b₀ hd₀ hb₀
    obtain ⟨hepoch', hlt⟩ := hnew k' b' hnow
    exact ⟨hepoch.symm.trans hepoch', Nat.lt_of_le_of_lt hle hlt⟩
  refine ⟨fun d₀ k₀ b₀ hd₀ hb₀ => ⟨k, b, hlatest, ?_⟩, fun d₀ d₁ k₀ b₀ b₁ hd₀ hd₁ hb₀ hb₁ => ?_⟩
  · rcases List.mem_cons.mp hd₀ with heq | hd₀
    · cases heq
      rw [hlatest] at hb₀
      cases hb₀
      exact ⟨rfl, Nat.le_refl _, fun _ => rfl⟩
    · obtain ⟨hepoch, hlt⟩ := hold d₀ k₀ b₀ hd₀ hb₀
      refine ⟨hepoch.symm, Nat.le_of_lt hlt, ?_⟩
      rintro rfl
      exact absurd hlt (Nat.lt_irrefl _)
  · rcases List.mem_cons.mp hd₀ with heq | hold₀
    · cases heq
      rcases List.mem_cons.mp hd₁ with heq | hold₁
      · cases heq
        rw [hb₀] at hb₁
        cases hb₁
        rfl
      · rw [hlatest] at hb₀
        cases hb₀
        exact absurd (hold d₁ k b₁ hold₁ hb₁).2 (Nat.lt_irrefl _)
    · rcases List.mem_cons.mp hd₁ with heq | hold₁
      · cases heq
        rw [hlatest] at hb₁
        cases hb₁
        exact absurd (hold d₀ k b₀ hold₀ hb₀).2 (Nat.lt_irrefl _)
      · exact h.single d₀ d₁ k₀ b₀ b₁ hold₀ hold₁ hb₀ hb₁

end Past

end Observation
end PickleInfra
