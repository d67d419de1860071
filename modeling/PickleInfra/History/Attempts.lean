import Mathlib.Data.List.Basic

/-!
# `History.Attempts` — how often something was tried, and what ended it

A history is a list of entries, newest first. Some entries end an attempt at a key; `endsOf` lists
how the attempts at one key ended. `AtMostOnce` says that a final end is the newest one: after it
nothing was tried again.
-/

namespace PickleInfra
namespace History

variable {ε K E : Type}

section EndsOf

variable [DecidableEq K] (ends : ε → Option (K × E)) (k : K)

/-- How the attempts at `k` ended, newest first. -/
def endsOf (hist : List ε) : List E :=
  hist.filterMap (fun e => (ends e).bind (fun p => if p.1 = k then some p.2 else none))

@[simp] theorem endsOf_nil : endsOf ends k [] = [] := rfl

variable {ends k}

theorem endsOf_cons_none {e : ε} {hist : List ε} (h : ends e = none) :
    endsOf ends k (e :: hist) = endsOf ends k hist := by
  simp [endsOf, h]

theorem endsOf_cons_self {e : ε} {r : E} {hist : List ε} (h : ends e = some (k, r)) :
    endsOf ends k (e :: hist) = r :: endsOf ends k hist := by
  simp [endsOf, h]

theorem endsOf_cons_ne {e : ε} {k' : K} {r : E} {hist : List ε} (h : ends e = some (k', r))
    (hne : k' ≠ k) : endsOf ends k (e :: hist) = endsOf ends k hist := by
  simp [endsOf, h, hne]

theorem mem_endsOf {hist : List ε} {r : E} :
    r ∈ endsOf ends k hist ↔ ∃ e ∈ hist, ends e = some (k, r) := by
  simp only [endsOf, List.mem_filterMap, Option.bind_eq_some_iff]
  constructor
  · rintro ⟨e, he, ⟨k', r'⟩, hp, hr⟩
    split at hr
    · next hk => cases hr; exact ⟨e, he, by rw [hp, ← hk]⟩
    · simp at hr
  · rintro ⟨e, he, hr⟩
    exact ⟨e, he, (k, r), hr, by simp⟩

end EndsOf

/-- No attempt followed a final end. -/
def AtMostOnce (final : E → Prop) (ends : List E) : Prop := ∀ e ∈ ends.tail, ¬ final e

theorem atMostOnce_nil (final : E → Prop) : AtMostOnce final [] := by simp [AtMostOnce]

/-- One more attempt is safe exactly if none so far was final. -/
theorem atMostOnce_cons {final : E → Prop} {e : E} {ends : List E} :
    AtMostOnce final (e :: ends) ↔ ∀ x ∈ ends, ¬ final x := Iff.rfl

end History
end PickleInfra
