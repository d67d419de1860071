import Mathlib.Data.List.Chain
import Mathlib.Order.Bounds.Basic

/-!
# `History.Streak` — the longest current streak of a newest-first history

A history is a list, newest entry first. A **streak** of it is a run of its newest entries that are
all selected (`sel`) and consecutively near each other (`near later earlier`). Streaks are exactly
the prefixes of one list, `streak sel near l`, so its length is the length of the longest streak and
its last element is the oldest entry any streak can reach back to.
-/

namespace PickleInfra
namespace History

variable {α β : Type}

/-- `bs` are the selected values of the newest entries of `l`, each near the one before it. -/
def IsStreak (sel : α → Option β) (near : β → β → Prop) (l : List α) (bs : List β) : Prop :=
  bs.map some <+: l.map sel ∧ bs.IsChain near

/-- The longest streak. -/
def streak (sel : α → Option β) (near : β → β → Prop) [DecidableRel near] : List α → List β
  | []       => []
  | a :: rest =>
    match sel a with
    | none   => []
    | some b =>
      match streak sel near rest with
      | []      => [b]
      | c :: cs => if near b c then b :: c :: cs else [b]

variable {sel : α → Option β} {near : β → β → Prop} [DecidableRel near]

theorem streak_isStreak (l : List α) : IsStreak sel near l (streak sel near l) := by
  induction l with
  | nil => simp [streak, IsStreak]
  | cons a rest ih =>
      unfold streak
      cases ha : sel a with
      | none => simp [IsStreak]
      | some b =>
          cases hs : streak sel near rest with
          | nil => simp [IsStreak, ha]
          | cons c cs =>
              rw [hs] at ih
              by_cases hn : near b c
              · simp only [if_pos hn]
                refine ⟨?_, List.isChain_cons_cons.mpr ⟨hn, ih.2⟩⟩
                rw [List.map_cons (l := rest), ha, List.map_cons]
                exact (List.prefix_cons_inj _).mpr ih.1
              · simp [if_neg hn, IsStreak, ha]

/-- **Streaks are the prefixes of the longest one.** -/
theorem isStreak_iff_isPrefix {l : List α} {bs : List β} :
    IsStreak sel near l bs ↔ bs <+: streak sel near l := by
  constructor
  · induction l generalizing bs with
    | nil =>
        rintro ⟨h, -⟩
        have : bs = [] := by simpa using h
        simp [this]
    | cons a rest ih =>
        rintro ⟨hp, hc⟩
        cases bs with
        | nil => exact List.nil_prefix
        | cons b bs =>
            rw [List.map_cons, List.map_cons, List.cons_prefix_cons] at hp
            obtain ⟨hb, hp⟩ := hp
            have hbs : bs <+: streak sel near rest := ih ⟨hp, hc.tail⟩
            simp only [streak, hb.symm]
            cases hs : streak sel near rest with
            | nil =>
                rw [hs, List.prefix_nil] at hbs
                simp [hbs]
            | cons c cs =>
                rw [hs] at hbs
                cases bs with
                | nil => by_cases hn : near b c <;> simp [hn]
                | cons d ds =>
                    obtain ⟨rfl, hds⟩ := List.cons_prefix_cons.mp hbs
                    have hn : near b d := (List.isChain_cons_cons.mp hc).1
                    simp only [if_pos hn]
                    exact (List.prefix_cons_inj _).mpr hbs
  · intro h
    obtain ⟨hp, hc⟩ : IsStreak sel near l (streak sel near l) := streak_isStreak l
    obtain ⟨t, ht⟩ := h
    refine ⟨?_, ?_⟩
    · rw [← ht, List.map_append] at hp
      exact (List.prefix_append _ _).trans hp
    · rw [← ht] at hc
      exact (List.isChain_append.mp hc).1

/-- The length of the longest streak is the greatest length of a streak. -/
theorem isGreatest_length_streak (l : List α) :
    IsGreatest {k | ∃ bs, bs.length = k ∧ IsStreak sel near l bs} (streak sel near l).length := by
  refine ⟨⟨_, rfl, streak_isStreak l⟩, ?_⟩
  rintro k ⟨bs, rfl, h⟩
  exact (isStreak_iff_isPrefix.mp h).length_le

/-- If every selected entry carries its value in `f`, a streak is a prefix of all the values. -/
theorem IsStreak.prefix_filterMap {near : β → β → Prop} {f : α → Option β} {l : List α} {bs : List β}
    (h : IsStreak sel near l bs) (hf : ∀ a b, sel a = some b → f a = some b) :
    bs <+: l.filterMap f := by
  induction l generalizing bs with
  | nil =>
      have : bs = [] := by simpa using h.1
      simp [this]
  | cons a rest ih =>
      cases bs with
      | nil => exact List.nil_prefix
      | cons b bs =>
          obtain ⟨hp, hc⟩ := h
          rw [List.map_cons, List.map_cons, List.cons_prefix_cons] at hp
          rw [List.filterMap_cons, hf a b hp.1.symm]
          exact (List.prefix_cons_inj _).mpr (ih ⟨hp.2, hc.tail⟩)

/-! ## How one more entry changes the longest streak -/

theorem streak_cons_none {a : α} {l : List α} (h : sel a = none) :
    streak sel near (a :: l) = [] := by simp only [streak, h]

/-- A selected entry near the head of the streak extends it. -/
theorem streak_cons_near {a : α} {l : List α} {b : β} (h : sel a = some b)
    (hn : ∀ c ∈ (streak sel near l).head?, near b c) :
    streak sel near (a :: l) = b :: streak sel near l := by
  simp only [streak, h]
  cases hs : streak sel near l with
  | nil => rfl
  | cons c cs => rw [hs] at hn; simp [hn c rfl]

/-- A selected entry far from the head of the streak starts a new one. -/
theorem streak_cons_far {a : α} {l : List α} {b : β} (h : sel a = some b)
    (hf : ∀ c ∈ (streak sel near l).head?, ¬ near b c) :
    streak sel near (a :: l) = [b] := by
  simp only [streak, h]
  cases hs : streak sel near l with
  | nil => rfl
  | cons c cs => rw [hs] at hf; simp [hf c rfl]

/-- The head of the longest streak is the newest entry. -/
theorem head_streak {l : List α} {c : β} (h : c ∈ (streak sel near l).head?) :
    ∃ a ∈ l.head?, sel a = some c := by
  cases l with
  | nil => simp [streak] at h
  | cons a rest =>
      refine ⟨a, rfl, ?_⟩
      unfold streak at h
      cases ha : sel a with
      | none => simp [ha] at h
      | some b =>
          simp only [ha] at h
          cases hs : streak sel near rest with
          | nil => simpa [hs] using h
          | cons d ds => simp only [hs] at h; split at h <;> simpa using h

end History
end PickleInfra
