import Mathlib.Data.List.Basic

/-!
# `Network.FirstMatch` — ordered rule lists decided by the first rule that applies

A chain of rules over any kind of packet: its verdict is the target of the first rule that applies.
The lemmas compose verdicts over appended blocks of rules, so that a long chain is read block by block.
-/

namespace PickleInfra
namespace FirstMatch

variable {R P V : Type} (applies : R → P → Bool) (target : R → V)

/-- The target of the first rule that applies to the packet. -/
def verdict (rules : List R) (p : P) : Option V :=
  (rules.find? (fun r => applies r p)).map target

@[simp] theorem verdict_nil (p : P) : verdict applies target [] p = none := rfl

theorem verdict_cons (r : R) (rules : List R) (p : P) :
    verdict applies target (r :: rules) p =
      if applies r p then some (target r) else verdict applies target rules p := by
  unfold verdict
  rw [List.find?_cons]
  cases applies r p <;> rfl

variable {applies target} {rules before after : List R} {p : P} {v : V}

/-- A block in which no rule applies decides nothing. -/
theorem verdict_eq_none (h : ∀ r ∈ rules, applies r p = false) :
    verdict applies target rules p = none := by
  unfold verdict
  rw [List.find?_eq_none.mpr fun r hr => by simp [h r hr]]
  rfl

/-- A block that decides nothing is skipped. -/
theorem verdict_append_of_none (h : verdict applies target before p = none) :
    verdict applies target (before ++ after) p = verdict applies target after p := by
  unfold verdict at h ⊢
  rw [Option.map_eq_none_iff] at h
  rw [List.find?_append, h]
  rfl

/-- A block that decides is final. -/
theorem verdict_append_of_some (h : verdict applies target before p = some v) :
    verdict applies target (before ++ after) p = some v := by
  unfold verdict at h ⊢
  obtain ⟨r, hr, rfl⟩ := Option.map_eq_some_iff.mp h
  rw [List.find?_append, hr]
  rfl

/-- A block of rules of one target decides for it, as soon as one of them applies. -/
theorem verdict_eq_some (htarget : ∀ r ∈ rules, target r = v) {r : R} (hr : r ∈ rules)
    (happ : applies r p = true) : verdict applies target rules p = some v := by
  unfold verdict
  cases hf : rules.find? (fun r => applies r p) with
  | none => exact absurd happ (by simpa using List.find?_eq_none.mp hf r hr)
  | some r' => exact congrArg some (htarget r' (List.mem_of_find?_eq_some hf))

/-- A block of rules of one target decides exactly when one of them applies. -/
theorem verdict_of_target (htarget : ∀ r ∈ rules, target r = v) :
    verdict applies target rules p = if rules.any (fun r => applies r p) then some v else none := by
  by_cases h : rules.any (fun r => applies r p) = true
  · obtain ⟨r, hr, happ⟩ := List.any_eq_true.mp h
    rw [if_pos h]
    exact verdict_eq_some htarget hr happ
  · rw [if_neg h]
    apply verdict_eq_none
    intro r hr
    by_contra hne
    exact h (List.any_eq_true.mpr ⟨r, hr, by simpa using hne⟩)

/-- Lists whose rules correspond decide alike. -/
theorem verdict_correspond {R' P' V' : Type} {applies' : R' → P' → Bool} {target' : R' → V'} {f : V → V'}
    {rules' : List R'} {p' : P'}
    (h : List.Forall₂ (fun r r' => applies' r' p' = applies r p ∧ target' r' = f (target r)) rules rules') :
    verdict applies' target' rules' p' = (verdict applies target rules p).map f := by
  induction h with
  | nil => rfl
  | @cons r r' rules rules' hr _ ih =>
      rw [verdict_cons, verdict_cons, ih, hr.1, hr.2]
      cases applies r p <;> rfl

end FirstMatch
end PickleInfra
