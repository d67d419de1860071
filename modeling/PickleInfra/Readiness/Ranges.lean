import PickleInfra.Ranges.Sorted
import PickleInfra.Registration.Config

/-!
# `Readiness.Ranges` — the reserved ranges of an IP pool

`_sorted_ranges` of `lib/inventory_readiness.py`, and the check of the configuration that compares its argument
with what it returns.
-/

namespace PickleInfra
namespace Readiness

open Python Network Registration
open Ranges (Range)

/-- One item of `reserved_ranges`. -/
def reservedRange (n : Subnet) (item : Json) : Except RegistrationExn (Range IPv4) := do
  require (item.hasKeys ["from", "to"]) "Each reserved range needs only from and to"
  let start ← parsed (address (← item.item "from"))
  let last ← parsed (address (← item.item "to"))
  if h : (usable n start = true ∧ usable n last = true) ∧ start ≤ last then .ok ⟨start, last, h.2⟩
  else .error (.own "Reserved ranges must be ordered usable addresses inside the pool")

/-- `all(parsed[index - 1][1] < parsed[index][0] for index in range(1, len(parsed)))` -/
def neighboursDisjoint (ranges : List (Range IPv4)) : Bool :=
  (ranges.zip ranges.tail).all fun p => p.1.last < p.2.first

def rangeEntries (r : Range IPv4) : List (String × Json) :=
  [("from", .str (addressText r.first)), ("to", .str (addressText r.last))]

def rangesJson (ranges : List (Range IPv4)) : Json := .list (ranges.map fun r => .dict (rangeEntries r))

/-- `_sorted_ranges` -/
def sortedRanges (n : Subnet) : Json → Except RegistrationExn Json
  | .list items => do
    let ranges := Range.sort (← items.mapM (reservedRange n))
    require (neighboursDisjoint ranges) "Reserved ranges overlap"
    return rangesJson ranges
  | _           => .error (.own "reserved_ranges must be an array")

/-- `require(_sorted_ranges(self.reserved_ranges, network) == self.reserved_ranges, …)` -/
def checkReservedRanges (n : Subnet) (v : Json) : Except RegistrationExn Unit := do
  require ((← sortedRanges n v).equal v) "Reserved ranges must be canonical and ordered"

/-! ## What an item names -/

/-- The item has the two fields, and they name the ends of the range. -/
def Names (item : Json) (r : Range IPv4) : Prop :=
  item.hasKeys ["from", "to"] = true ∧ (item.get? "from").bind address = some r.first ∧
    (item.get? "to").bind address = some r.last

/-- Every point of the range is a usable address. -/
def Usable (n : Subnet) (r : Range IPv4) : Prop := ∀ a ∈ r.points, usable n a = true

theorem usable_iff_ends {n : Subnet} {r : Range IPv4} :
    Usable n r ↔ usable n r.first = true ∧ usable n r.last = true :=
  ⟨fun h => ⟨h _ r.first_mem, h _ r.last_mem⟩, fun h _ ha => usable_between h.1 h.2 ha.1 ha.2⟩

theorem Names.unique {item : Json} {r s : Range IPv4} (hr : Names item r) (hs : Names item s) : r = s :=
  Range.ext (Option.some.inj (hr.2.1.symm.trans hs.2.1)) (Option.some.inj (hr.2.2.symm.trans hs.2.2))

theorem item_eq_ok {v x : Json} {k : String} : v.item k = (.ok x : Except RegistrationExn Json) ↔ v.get? k = some x := by
  cases v with
  | dict ms =>
      unfold Json.item Json.get?
      dsimp only
      cases Json.lookup k ms <;> simp
  | null | bool | int | float | str | list => exact ⟨fun h => (by cases h), fun h => (by cases h)⟩

theorem parsed_eq_ok {α : Type} {o : Option α} {a : α} : parsed o = .ok a ↔ o = some a := by
  cases o <;> simp [parsed]

theorem reservedRange_eq_ok {n : Subnet} {item : Json} {r : Range IPv4} :
    reservedRange n item = .ok r ↔ Names item r ∧ Usable n r := by
  rw [usable_iff_ends]
  unfold reservedRange Names
  simp only [bind_eq_ok, require_eq_ok, item_eq_ok, parsed_eq_ok, Option.bind_eq_some_iff]
  constructor
  · rintro ⟨-, hkeys, v, hv, start, hstart, w, hw, last, hlast, h⟩
    split at h
    · next hends =>
      cases h
      exact ⟨⟨hkeys, ⟨v, hv, hstart⟩, ⟨w, hw, hlast⟩⟩, hends.1⟩
    · cases h
  · rintro ⟨⟨hkeys, ⟨v, hv, hstart⟩, ⟨w, hw, hlast⟩⟩, hends⟩
    exact ⟨(), hkeys, v, hv, r.first, hstart, w, hw, r.last, hlast, dif_pos ⟨hends, r.le⟩⟩

theorem neighboursDisjoint_iff : ∀ {ranges : List (Range IPv4)},
    neighboursDisjoint ranges = true ↔ ranges.IsChain Range.Before
  | []           => by simp [neighboursDisjoint]
  | [r]          => by simp [neighboursDisjoint]
  | r :: s :: rs => by
      rw [List.isChain_cons_cons, ← neighboursDisjoint_iff]
      simp [neighboursDisjoint, Range.Before]

theorem usable_of_forall₂ {n : Subnet} {items : List Json} {ranges : List (Range IPv4)}
    (h : List.Forall₂ (fun item r => reservedRange n item = .ok r) items ranges) : ∀ r ∈ ranges, Usable n r := by
  induction h with
  | nil => exact fun r hr => absurd hr List.not_mem_nil
  | cons hr _ ih => exact List.forall_mem_cons.mpr ⟨(reservedRange_eq_ok.mp hr).2, ih⟩

theorem reservedRange_of_names {n : Subnet} {items : List Json} {ranges : List (Range IPv4)}
    (h : List.Forall₂ Names items ranges) (husable : ∀ r ∈ ranges, Usable n r) :
    List.Forall₂ (fun item r => reservedRange n item = .ok r) items ranges := by
  induction h with
  | nil => exact .nil
  | cons hr _ ih =>
      obtain ⟨hhead, htail⟩ := List.forall_mem_cons.mp husable
      exact .cons (reservedRange_eq_ok.mpr ⟨hr, hhead⟩) (ih htail)

/-- **What `_sorted_ranges` returns**: the ranges that the items name, sorted, when they are usable and disjoint. -/
theorem sortedRanges_eq_ok {n : Subnet} {items : List Json} {out : Json} :
    sortedRanges n (.list items) = .ok out ↔ ∃ ranges, List.Forall₂ Names items ranges ∧ (∀ r ∈ ranges, Usable n r) ∧
      (ranges.Pairwise fun r s => Disjoint r.points s.points) ∧ out = rangesJson (Range.sort ranges) := by
  unfold sortedRanges
  simp only [bind_eq_ok, require_eq_ok, mapM_eq_ok, neighboursDisjoint_iff, ← Range.pairwise_disjoint_iff]
  constructor
  · rintro ⟨ranges, hranges, -, hdisjoint, h⟩
    cases h
    exact ⟨ranges, hranges.imp fun _ _ h => (reservedRange_eq_ok.mp h).1, usable_of_forall₂ hranges, hdisjoint, rfl⟩
  · rintro ⟨ranges, hnames, husable, hdisjoint, rfl⟩
    exact ⟨ranges, reservedRange_of_names hnames husable, (), hdisjoint, rfl⟩

/-! ## Normal form -/

/-- Items in another order name the same ranges in another order. -/
theorem sortedRanges_perm {n : Subnet} {items items' : List Json} {out : Json} (h : items'.Perm items)
    (hout : sortedRanges n (.list items) = .ok out) : sortedRanges n (.list items') = .ok out := by
  obtain ⟨ranges, hnames, husable, hdisjoint, rfl⟩ := sortedRanges_eq_ok.mp hout
  obtain ⟨ranges', hnames', hperm⟩ := List.perm_comp_forall₂ h hnames
  refine sortedRanges_eq_ok.mpr ⟨ranges', hnames', fun r hr => husable r (hperm.mem_iff.mp hr), ?_, ?_⟩
  · exact (hperm.pairwise_iff fun h => h.symm).mpr hdisjoint
  · rw [Range.sort_congr hperm]

/-- The texts of a range, with the keys in either order. -/
def CanonicalItem (item : Json) (r : Range IPv4) : Prop :=
  item = .dict (rangeEntries r) ∨ item = .dict (rangeEntries r).reverse

theorem CanonicalItem.names {item : Json} {r : Range IPv4} (h : CanonicalItem item r) : Names item r := by
  have hget : item.hasKeys ["from", "to"] = true ∧ item.get? "from" = some (.str (addressText r.first)) ∧
      item.get? "to" = some (.str (addressText r.last)) := by
    rcases h with rfl | rfl <;> exact ⟨rfl, rfl, rfl⟩
  obtain ⟨hkeys, hfirst, hlast⟩ := hget
  refine ⟨hkeys, ?_, ?_⟩
  · rw [hfirst, Option.bind_some, address_addressText]
  · rw [hlast, Option.bind_some, address_addressText]

theorem lookup_singleton {j k : String} {v w : Json} (h : Json.lookup k [(j, v)] = some w) : j = k ∧ v = w := by
  unfold Json.lookup at h
  split at h
  · next hjk => exact ⟨hjk, Option.some.inj h⟩
  · cases h

/-- A dictionary that equals the canonical one has its two entries. -/
theorem canonicalItem_iff {item : Json} {r : Range IPv4} :
    (Json.dict (rangeEntries r)).equal item = true ↔ CanonicalItem item r := by
  constructor
  · intro h
    cases item with
    | dict ms =>
        rw [Json.equal_dict] at h
        obtain ⟨hlength, hmembers⟩ := h
        rw [Json.equalMembers_iff] at hmembers
        have hentry : ∀ m ∈ rangeEntries r, Json.lookup m.1 ms = some m.2 := by
          intro m hm
          obtain ⟨w, hw, heq⟩ := hmembers m hm
          rw [hw]
          simp only [rangeEntries, List.mem_cons, List.not_mem_nil, or_false] at hm
          rcases hm with rfl | rfl <;> rw [Json.equal_str.mp heq]
        have hfrom := hentry _ List.mem_cons_self
        have hto := hentry _ (List.mem_cons_of_mem _ List.mem_cons_self)
        obtain ⟨⟨j, x⟩, ⟨k, y⟩, rfl⟩ := List.length_eq_two.mp hlength.symm
        unfold Json.lookup at hfrom hto
        -- one of the two members is the one under each key
        by_cases hj : j = "from"
        · subst hj
          rw [if_pos rfl] at hfrom
          rw [if_neg (show ¬ "from" = "to" by decide)] at hto
          obtain ⟨rfl, hy⟩ := lookup_singleton hto
          rw [Option.some.inj hfrom, hy]
          exact .inl rfl
        · rw [if_neg hj] at hfrom
          obtain ⟨rfl, hy⟩ := lookup_singleton hfrom
          by_cases hto' : j = "to"
          · subst hto'
            rw [if_pos rfl] at hto
            rw [Option.some.inj hto, hy]
            exact .inr rfl
          · rw [if_neg hto'] at hto
            exact absurd (lookup_singleton hto).1 (show ¬ "from" = "to" by decide)
    | null | bool | int | float | str | list =>
        rw [Json.equal] at h
        · exact absurd h Bool.false_ne_true
        all_goals simp
  · rintro (rfl | rfl)
    · exact (Json.equal_dict).mpr ⟨rfl, by simp [rangeEntries, Json.equalMembers, Json.lookup, Json.equal]⟩
    · exact (Json.equal_dict).mpr ⟨rfl, by simp [rangeEntries, Json.equalMembers, Json.lookup, Json.equal]⟩

/-- A list of canonical items. -/
def Canonical (v : Json) (ranges : List (Range IPv4)) : Prop :=
  ∃ items, v = .list items ∧ List.Forall₂ CanonicalItem items ranges

theorem canonical_iff {v : Json} {ranges : List (Range IPv4)} :
    (rangesJson ranges).equal v = true ↔ Canonical v ranges := by
  unfold Canonical rangesJson
  cases v with
  | list items =>
      rw [Json.equal, Json.equalItems_iff, List.forall₂_map_left_iff]
      constructor
      · exact fun h => ⟨items, rfl, h.flip.imp fun _ _ h => canonicalItem_iff.mp h⟩
      · rintro ⟨_, h, hitems⟩
        cases h
        exact hitems.flip.imp fun _ _ h => canonicalItem_iff.mpr h
  | null | bool | int | float | str | dict =>
      rw [Json.equal]
      · exact ⟨fun h => absurd h Bool.false_ne_true, fun ⟨_, h, _⟩ => (by cases h)⟩
      all_goals simp

theorem canonical_rangesJson (ranges : List (Range IPv4)) : Canonical (rangesJson ranges) ranges := by
  refine ⟨_, rfl, ?_⟩
  rw [List.forall₂_map_left_iff]
  exact List.forall₂_same.mpr fun r _ => .inl rfl

/-- The sorted, disjoint, usable ranges are their own normal form. -/
theorem sortedRanges_canonical {n : Subnet} {v : Json} {ranges : List (Range IPv4)} (h : Canonical v ranges)
    (husable : ∀ r ∈ ranges, Usable n r) (hbefore : ranges.Pairwise Range.Before) :
    sortedRanges n v = .ok (rangesJson ranges) := by
  obtain ⟨items, rfl, hitems⟩ := h
  refine sortedRanges_eq_ok.mpr ⟨ranges, hitems.imp fun _ _ h => h.names, husable, hbefore.imp Range.Before.disjoint, ?_⟩
  rw [Range.sort_of_pairwise hbefore]

theorem checkReservedRanges_eq_ok {n : Subnet} {v : Json} :
    checkReservedRanges n v = .ok () ↔
      ∃ ranges, Canonical v ranges ∧ (∀ r ∈ ranges, Usable n r) ∧ ranges.Pairwise Range.Before := by
  unfold checkReservedRanges
  simp only [bind_eq_ok, require_eq_ok]
  constructor
  · rintro ⟨out, hout, hequal⟩
    cases v with
    | list items =>
        obtain ⟨ranges, -, husable, hdisjoint, rfl⟩ := sortedRanges_eq_ok.mp hout
        refine ⟨_, canonical_iff.mp hequal, fun r hr => husable r ((Range.perm_sort ranges).mem_iff.mp hr), ?_⟩
        exact List.isChain_iff_pairwise.mp ((Range.pairwise_disjoint_iff ranges).mp hdisjoint)
    | null | bool | int | float | str | dict => cases hout
  · rintro ⟨ranges, hcanonical, husable, hbefore⟩
    exact ⟨_, sortedRanges_canonical hcanonical husable hbefore, canonical_iff.mpr hcanonical⟩

/-- **Reserved range normalisation.** `_sorted_ranges` returns exactly when the items name usable ranges of which no two
    share an address. What it returns does not depend on the order of the items, is sorted, covers the addresses that
    the items cover, and is returned again for itself. The check of the configuration accepts exactly the sorted lists
    of the canonical items of disjoint usable ranges. -/
theorem sortedRanges_normal_form (n : Subnet) :
    (∀ items,
      ((∃ out, sortedRanges n (.list items) = .ok out) ↔ ∃ ranges, List.Forall₂ Names items ranges ∧
        (∀ r ∈ ranges, Usable n r) ∧ ranges.Pairwise fun r s => Disjoint r.points s.points) ∧
      (∀ items', items'.Perm items →
        (sortedRanges n (.list items')).toOption = (sortedRanges n (.list items)).toOption) ∧
      (∀ out, sortedRanges n (.list items) = .ok out →
        (∃ ranges sorted, List.Forall₂ Names items ranges ∧ out = rangesJson sorted ∧ sorted.Pairwise Range.Before ∧
          Range.covered sorted = Range.covered ranges) ∧ sortedRanges n out = .ok out)) ∧
    ∀ v, checkReservedRanges n v = .ok () ↔
      ∃ ranges, Canonical v ranges ∧ (∀ r ∈ ranges, Usable n r) ∧ ranges.Pairwise Range.Before := by
  refine ⟨fun items => ⟨?_, fun items' h => ?_, fun out hout => ?_⟩, fun v => checkReservedRanges_eq_ok⟩
  · constructor
    · rintro ⟨out, hout⟩
      obtain ⟨ranges, hnames, husable, hdisjoint, -⟩ := sortedRanges_eq_ok.mp hout
      exact ⟨ranges, hnames, husable, hdisjoint⟩
    · rintro ⟨ranges, hnames, husable, hdisjoint⟩
      exact ⟨_, sortedRanges_eq_ok.mpr ⟨ranges, hnames, husable, hdisjoint, rfl⟩⟩
  · cases hout : sortedRanges n (.list items) with
    | ok out => rw [sortedRanges_perm h hout]
    | error e =>
        cases hout' : sortedRanges n (.list items') with
        | ok out =>
            rw [sortedRanges_perm h.symm hout'] at hout
            cases hout
        | error e' => rfl
  · obtain ⟨ranges, hnames, husable, hdisjoint, rfl⟩ := sortedRanges_eq_ok.mp hout
    have hbefore := List.isChain_iff_pairwise.mp ((Range.pairwise_disjoint_iff ranges).mp hdisjoint)
    have hsorted : ∀ r ∈ Range.sort ranges, Usable n r := fun r hr => husable r ((Range.perm_sort ranges).mem_iff.mp hr)
    exact ⟨⟨ranges, _, hnames, rfl, hbefore, Range.covered_perm (Range.perm_sort ranges)⟩,
      sortedRanges_canonical (canonical_rangesJson _) hsorted hbefore⟩

end Readiness
end PickleInfra
