import Mathlib.Data.List.Sort
import PickleInfra.Python.Dict
import PickleInfra.Python.Value

/-!
# `Python.Unordered` — loops and sorts that forget the order of their items

A loop that enters items one by one, and may refuse one, does not depend on their order when its state is
described by the items alone: `Collects` says what a step needs, and `Collects.perm` concludes. What a
dictionary was filled in with in some order is put in one order by `sorted`.
-/

namespace PickleInfra
namespace Python

/-! ## Loops -/

section Loops

variable {S A ε : Type}

/-- `Holds xs s` describes the state after the items `xs`, in any order; whoever has entered some of the items
    that a state holds can enter another one of them. -/
structure Collects (step : S → A → Except ε S) (Good : A → Prop) (Holds : List A → S → Prop) : Prop where
  perm : ∀ {xs ys s}, xs.Perm ys → Holds xs s → Holds ys s
  next : ∀ {xs s x s'}, Good x → Holds xs s → step s x = .ok s' → Holds (x :: xs) s'
  room : ∀ {xs x rest s all}, Holds xs s → Holds (x :: (xs ++ rest)) all → ∃ s', step s x = .ok s'

variable {step : S → A → Except ε S} {Good : A → Prop} {Holds : List A → S → Prop}

/-- A whole loop describes what it was given. -/
theorem Collects.holds (h : Collects step Good Holds) {xs done : List A} {s s' : S} (hgood : ∀ x ∈ xs, Good x)
    (hs : Holds done s) (hrun : xs.foldlM step s = .ok s') : Holds (xs ++ done) s' := by
  induction xs generalizing done s with
  | nil =>
      obtain rfl := Except.ok.inj hrun
      exact hs
  | cons x xs ih =>
      rw [List.forall_mem_cons] at hgood
      rw [List.foldlM_cons, bind_eq_ok] at hrun
      obtain ⟨s₁, hstep, hrun⟩ := hrun
      exact h.perm List.perm_middle (ih hgood.2 (h.next hgood.1 hs hstep) hrun)

/-- Items that a state holds can all be entered. -/
theorem Collects.runs (h : Collects step Good Holds) {xs done : List A} {s all : S} (hgood : ∀ x ∈ xs, Good x)
    (hs : Holds done s) (hall : Holds (xs ++ done) all) : ∃ s', xs.foldlM step s = .ok s' := by
  induction xs generalizing done s with
  | nil => exact ⟨s, rfl⟩
  | cons x xs ih =>
      rw [List.forall_mem_cons] at hgood
      have hfirst : Holds (x :: (done ++ xs)) all := h.perm (List.perm_append_comm.cons x) hall
      obtain ⟨s₁, hstep⟩ := h.room hs hfirst
      obtain ⟨s', hrun⟩ := ih hgood.2 (h.next hgood.1 hs hstep) (h.perm List.perm_middle.symm hall)
      refine ⟨s', ?_⟩
      rw [List.foldlM_cons, bind_eq_ok]
      exact ⟨s₁, hstep, hrun⟩

/-- **A loop that collects accepts its items in any order**, and leaves states that are described alike. -/
theorem Collects.foldlM_perm (h : Collects step Good Holds) {xs ys : List A} (hgood : ∀ x ∈ xs, Good x)
    (hperm : xs.Perm ys) {s₀ s : S} (hs₀ : Holds [] s₀) (hrun : xs.foldlM step s₀ = .ok s) :
    ∃ s', ys.foldlM step s₀ = .ok s' ∧ Holds xs s ∧ Holds xs s' := by
  have hgood' : ∀ y ∈ ys, Good y := fun y hy => hgood y (hperm.mem_iff.mpr hy)
  have hs := h.holds hgood hs₀ hrun
  rw [List.append_nil] at hs
  have hall : Holds (ys ++ []) s := by
    rw [List.append_nil]
    exact h.perm hperm hs
  obtain ⟨s', hrun'⟩ := h.runs hgood' hs₀ hall
  have hs' := h.holds hgood' hs₀ hrun'
  rw [List.append_nil] at hs'
  exact ⟨s', hrun', hs, h.perm hperm.symm hs'⟩

end Loops

/-! ## Sorting -/

section Sorting

variable {α β κ : Type}

/-- Sorting by distinct keys forgets the order. -/
theorem insertionSort_perm [LinearOrder κ] (key : α → κ) {r : α → α → Prop} [DecidableRel r]
    (hr : ∀ a b, r a b ↔ key a ≤ key b) {xs ys : List α} (h : xs.Perm ys) (hnodup : (xs.map key).Nodup) :
    xs.insertionSort r = ys.insertionSort r := by
  have htotal : Std.Total r := ⟨fun a b => (le_total (key a) (key b)).imp (hr a b).mpr (hr b a).mpr⟩
  have htrans : IsTrans α r := ⟨fun a b c hab hbc => (hr a c).mpr (((hr a b).mp hab).trans ((hr b c).mp hbc))⟩
  have hperm : (xs.insertionSort r).Perm (ys.insertionSort r) :=
    (List.perm_insertionSort r xs).trans (h.trans (List.perm_insertionSort r ys).symm)
  apply List.Perm.eq_of_pairwise _ (List.pairwise_insertionSort r xs) (List.pairwise_insertionSort r ys) hperm
  intro a b ha hb hab hba
  have ha' : a ∈ xs := (List.perm_insertionSort r xs).mem_iff.mp ha
  have hb' : b ∈ xs := h.mem_iff.mpr ((List.perm_insertionSort r ys).mem_iff.mp hb)
  exact List.inj_on_of_nodup_map hnodup ha' hb' (le_antisymm ((hr a b).mp hab) ((hr b a).mp hba))

/-- Lists of entries with the same keys, and related values under each. -/
theorem forall₂_of_keys {K V W : Type} {R : V → W → Prop} {xs : List (K × V)} {ys : List (K × W)}
    (hkeys : xs.map Prod.fst = ys.map Prod.fst) (hvalue : ∀ k v w, (k, v) ∈ xs → (k, w) ∈ ys → R v w) :
    List.Forall₂ (fun x y => x.1 = y.1 ∧ R x.2 y.2) xs ys := by
  induction xs generalizing ys with
  | nil =>
      obtain rfl := List.map_eq_nil_iff.mp hkeys.symm
      exact .nil
  | cons x xs ih =>
      cases ys with
      | nil => cases hkeys
      | cons y ys =>
          obtain ⟨k, v⟩ := x
          obtain ⟨k', w⟩ := y
          rw [List.map_cons, List.map_cons] at hkeys
          obtain ⟨hk, hrest⟩ := List.cons.inj hkeys
          obtain rfl : k = k' := hk
          refine .cons ⟨rfl, hvalue k v w List.mem_cons_self List.mem_cons_self⟩ (ih hrest ?_)
          intro k' v' w' hv hw
          exact hvalue k' v' w' (List.mem_cons_of_mem _ hv) (List.mem_cons_of_mem _ hw)

variable {K V W : Type} [DecidableEq K]

/-- `sorted(d.items())` of dictionaries that relate the values of the same keys. -/
theorem sorted_entries [LinearOrder κ] (key : K → κ) (hinj : Function.Injective key) {le : K → K → Prop}
    [DecidableRel le] (hle : ∀ a b, le a b ↔ key a ≤ key b) {R : V → W → Prop} {d : Dict K V} {d' : Dict K W}
    (h : ∀ k, Option.Rel R (d.get? k) (d'.get? k)) :
    List.Forall₂ (fun x y => x.1 = y.1 ∧ R x.2 y.2) (d.entries.insertionSort fun a b => le a.1 b.1)
      (d'.entries.insertionSort fun a b => le a.1 b.1) := by
  have hperm : d.keys.Perm d'.keys := by
    apply (List.perm_ext_iff_of_nodup d.nodup d'.nodup).mpr
    intro k
    show k ∈ d.keys ↔ k ∈ d'.keys
    rw [← Dict.get?_isSome_iff, ← Dict.get?_isSome_iff]
    have hk := h k
    generalize d.get? k = o, d'.get? k = o' at hk
    cases hk with
    | some _ => exact Iff.rfl
    | none => exact Iff.rfl
  apply forall₂_of_keys
  · have hsorted : ∀ {U : Type} (l : List (K × U)),
        (l.insertionSort fun a b => le a.1 b.1).map Prod.fst = (l.map Prod.fst).insertionSort le :=
      fun l => List.map_insertionSort _ _ _ l fun _ _ _ _ => Iff.rfl
    rw [hsorted, hsorted]
    exact insertionSort_perm key hle hperm (d.nodup.map hinj)
  · intro k v w hv hw
    have hv' : d.get? k = some v := d.get?_eq_some_iff.mpr ((List.perm_insertionSort _ _).mem_iff.mp hv)
    have hw' : d'.get? k = some w := d'.get?_eq_some_iff.mpr ((List.perm_insertionSort _ _).mem_iff.mp hw)
    have hk := h k
    rw [hv', hw'] at hk
    cases hk with
    | some hR => exact hR

/-- Dictionaries with the same values under the same keys have the same sorted entries. -/
theorem sorted_entries_eq [LinearOrder κ] (key : K → κ) (hinj : Function.Injective key) {le : K → K → Prop}
    [DecidableRel le] (hle : ∀ a b, le a b ↔ key a ≤ key b) {d d' : Dict K V} (h : ∀ k, d.get? k = d'.get? k) :
    (d.entries.insertionSort fun a b => le a.1 b.1) = d'.entries.insertionSort fun a b => le a.1 b.1 := by
  have hrel : ∀ k, Option.Rel Eq (d.get? k) (d'.get? k) := by
    intro k
    rw [h k]
    cases d'.get? k with
    | none => exact .none
    | some v => exact .some rfl
  have hall := sorted_entries key hinj hle hrel
  rw [← List.forall₂_eq_eq_eq]
  exact hall.imp fun _ _ h => Prod.ext h.1 h.2

/-- Loops over related lists. -/
theorem mapM_forall₂ {ε : Type} {R : α → κ → Prop} {f : α → Except ε β} {g : κ → Except ε β} {xs : List α}
    {ys : List κ} (h : List.Forall₂ R xs ys) (hfg : ∀ a b, R a b → f a = g b) : xs.mapM f = ys.mapM g := by
  induction h with
  | nil => rfl
  | cons hab _ ih => rw [List.mapM_cons, List.mapM_cons, hfg _ _ hab, ih]

end Sorting

end Python
end PickleInfra
