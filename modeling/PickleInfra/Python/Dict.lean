import Mathlib.Algebra.Ring.Nat
import Mathlib.Data.List.Nodup

/-!
# `Python.Dict` — the insertion-ordered dictionary

A dictionary is its list of entries in insertion order; that no key occurs twice is a field, so a
malformed one cannot be built. Assignment `d[k] = v` keeps the place of a key it already has and
appends a new one.
-/

namespace PickleInfra
namespace Python

variable {K V W : Type}

/-- A Python `dict`, in insertion order. -/
structure Dict (K V : Type) where
  entries : List (K × V)
  nodup : (entries.map Prod.fst).Nodup

namespace Dict

def empty : Dict K V := ⟨[], List.nodup_nil⟩

instance : Inhabited (Dict K V) := ⟨empty⟩

/-- `list(d)` -/
def keys (d : Dict K V) : List K := d.entries.map Prod.fst

/-- `list(d.values())` -/
def values (d : Dict K V) : List V := d.entries.map Prod.snd

/-- `len(d)` -/
def size (d : Dict K V) : Nat := d.entries.length

/-- `bool(d)` is `False` exactly for the empty dictionary. -/
def isEmpty (d : Dict K V) : Bool := d.entries.isEmpty

variable [DecidableEq K]

/-- The value of the first entry with key `k`. -/
def lookup (k : K) : List (K × V) → Option V
  | []              => none
  | (k', v) :: rest => if k' = k then some v else lookup k rest

/-- `d.get(k)`, with `none` for a missing key. -/
def get? (d : Dict K V) (k : K) : Option V := lookup k d.entries

/-- The entries after `d[k] = v`. -/
def assign (k : K) (v : V) : List (K × V) → List (K × V)
  | []              => [(k, v)]
  | (k', u) :: rest => if k' = k then (k, v) :: rest else (k', u) :: assign k v rest

theorem mem_keys_assign {k x : K} {v : V} {l : List (K × V)} :
    x ∈ (assign k v l).map Prod.fst ↔ x = k ∨ x ∈ l.map Prod.fst := by
  induction l with
  | nil => simp [assign]
  | cons p rest ih =>
      obtain ⟨k', u⟩ := p
      by_cases hk : k' = k
      · simp [assign, hk]
      · simp only [assign, if_neg hk, List.map_cons, List.mem_cons, ih]; tauto

theorem nodup_assign {k : K} {v : V} {l : List (K × V)} (h : (l.map Prod.fst).Nodup) :
    ((assign k v l).map Prod.fst).Nodup := by
  induction l with
  | nil => simp [assign]
  | cons p rest ih =>
      obtain ⟨k', u⟩ := p
      rw [List.map_cons, List.nodup_cons] at h
      by_cases hk : k' = k
      · subst hk; simpa [assign] using h
      · rw [assign, if_neg hk, List.map_cons, List.nodup_cons, mem_keys_assign]
        exact ⟨by rintro (he | hm); exacts [hk he, h.1 hm], ih h.2⟩

/-- `d[k] = v` -/
def set (d : Dict K V) (k : K) (v : V) : Dict K V := ⟨assign k v d.entries, nodup_assign d.nodup⟩

theorem lookup_assign (k k' : K) (v : V) (l : List (K × V)) :
    lookup k' (assign k v l) = if k = k' then some v else lookup k' l := by
  induction l with
  | nil => simp [assign, lookup]
  | cons p rest ih =>
      obtain ⟨x, u⟩ := p
      by_cases hk : x = k
      · subst hk; by_cases hk' : x = k' <;> simp [assign, lookup, hk']
      · by_cases hx : x = k'
        · subst hx; simp [assign, lookup, hk, Ne.symm hk]
        · simp [assign, lookup, hk, hx, ih]

theorem get?_set (d : Dict K V) (k k' : K) (v : V) :
    (d.set k v).get? k' = if k = k' then some v else d.get? k' := lookup_assign k k' v d.entries

@[simp] theorem get?_set_self (d : Dict K V) (k : K) (v : V) : (d.set k v).get? k = some v := by
  rw [get?_set, if_pos rfl]

theorem get?_set_ne (d : Dict K V) {k k' : K} (v : V) (h : k ≠ k') :
    (d.set k v).get? k' = d.get? k' := by rw [get?_set, if_neg h]

@[simp] theorem get?_empty (k : K) : (empty : Dict K V).get? k = none := rfl

theorem mem_of_lookup {k : K} {v : V} {l : List (K × V)} (h : lookup k l = some v) : (k, v) ∈ l := by
  induction l with
  | nil => cases h
  | cons e l ih =>
      rw [lookup] at h
      split at h
      · next hk =>
        obtain rfl := Option.some.inj h
        rw [← hk]
        exact List.mem_cons_self
      · exact List.mem_cons_of_mem _ (ih h)

theorem exists_lookup_iff {k : K} {l : List (K × V)} : (∃ v, lookup k l = some v) ↔ k ∈ l.map Prod.fst := by
  induction l with
  | nil => simp [lookup]
  | cons e l ih =>
      rw [List.map_cons, List.mem_cons, ← ih, lookup]
      by_cases hk : e.1 = k
      · simp [hk]
      · simp [hk, Ne.symm hk]

/-- Membership is lookup, because keys are distinct. -/
theorem lookup_eq_some_iff {k : K} {v : V} {l : List (K × V)} (h : (l.map Prod.fst).Nodup) :
    lookup k l = some v ↔ (k, v) ∈ l := by
  induction l with
  | nil => simp [lookup]
  | cons p rest ih =>
      obtain ⟨x, u⟩ := p
      rw [List.map_cons, List.nodup_cons] at h
      by_cases hk : x = k
      · subst hk
        have : (x, v) ∉ rest := fun hm => h.1 (List.mem_map.mpr ⟨_, hm, rfl⟩)
        simp [lookup, this, eq_comm]
      · simp [lookup, hk, ih h.2, Ne.symm hk]

theorem get?_eq_some_iff (d : Dict K V) {k : K} {v : V} :
    d.get? k = some v ↔ (k, v) ∈ d.entries := lookup_eq_some_iff d.nodup

theorem get?_isSome_iff (d : Dict K V) {k : K} : (d.get? k).isSome ↔ k ∈ d.keys := by
  rw [Option.isSome_iff_exists, keys, List.mem_map]
  constructor
  · rintro ⟨v, hv⟩; exact ⟨(k, v), d.get?_eq_some_iff.mp hv, rfl⟩
  · rintro ⟨⟨_, v⟩, hm, rfl⟩; exact ⟨v, d.get?_eq_some_iff.mpr hm⟩

/-- An entry after an assignment is the new one, or an old one. -/
theorem mem_entries_set {d : Dict K V} {k : K} {v : V} {e : K × V} (h : e ∈ (d.set k v).entries) :
    e = (k, v) ∨ e ∈ d.entries := by
  obtain ⟨x, u⟩ := e
  rw [← get?_eq_some_iff, get?_set] at h
  by_cases hk : k = x
  · rw [if_pos hk, Option.some.injEq] at h
    exact .inl (by rw [hk, h])
  · rw [if_neg hk, get?_eq_some_iff] at h
    exact .inr h

/-- `del d[k]` of a key that may be missing. -/
def erase (d : Dict K V) (k : K) : Dict K V :=
  ⟨d.entries.filter (fun e => e.1 ≠ k), d.nodup.sublist (List.filter_sublist.map Prod.fst)⟩

theorem lookup_filter_ne (k k' : K) (l : List (K × V)) :
    lookup k' (l.filter (fun e => e.1 ≠ k)) = if k = k' then none else lookup k' l := by
  induction l with
  | nil => simp [lookup]
  | cons p rest ih =>
      obtain ⟨x, u⟩ := p
      by_cases hx : x = k
      · rw [List.filter_cons_of_neg (by simp [hx]), ih]
        by_cases hk : k = k'
        · rw [if_pos hk, if_pos hk]
        · rw [if_neg hk, if_neg hk, lookup, if_neg (by rw [hx]; exact hk)]
      · rw [List.filter_cons_of_pos (by simp [hx]), lookup, lookup, ih]
        by_cases hk : k = k'
        · have hx' : x ≠ k' := by rw [← hk]; exact hx
          rw [if_neg hx', if_pos hk, if_pos hk]
        · rw [if_neg hk, if_neg hk]

theorem get?_erase (d : Dict K V) (k k' : K) :
    (d.erase k).get? k' = if k = k' then none else d.get? k' := lookup_filter_ne k k' d.entries

@[simp] theorem get?_erase_self (d : Dict K V) (k : K) : (d.erase k).get? k = none := by
  rw [get?_erase, if_pos rfl]

theorem get?_erase_ne (d : Dict K V) {k k' : K} (h : k ≠ k') : (d.erase k).get? k' = d.get? k' := by
  rw [get?_erase, if_neg h]

theorem mem_entries_erase {d : Dict K V} {k : K} {e : K × V} :
    e ∈ (d.erase k).entries ↔ e ∈ d.entries ∧ e.1 ≠ k := by
  show e ∈ d.entries.filter _ ↔ _
  rw [List.mem_filter, decide_eq_true_eq]

/-- The sum of a measure over the values. -/
def total (f : V → Nat) (d : Dict K V) : Nat := (d.entries.map (fun e => f e.2)).sum

/-- An assignment exchanges the measure of the old value, if there is one, for that of the new one. -/
theorem total_set (f : V → Nat) (d : Dict K V) (k : K) (v : V) :
    (d.set k v).total f + ((d.get? k).map f).getD 0 = d.total f + f v := by
  show ((assign k v d.entries).map (fun e => f e.2)).sum + ((lookup k d.entries).map f).getD 0 =
    (d.entries.map (fun e => f e.2)).sum + f v
  induction d.entries with
  | nil => simp [assign, lookup]
  | cons p rest ih =>
      obtain ⟨x, u⟩ := p
      by_cases hk : x = k
      · simp only [assign, lookup, hk, if_true, List.map_cons, List.sum_cons, Option.map_some,
          Option.getD_some]
        omega
      · simp only [assign, lookup, hk, if_false, List.map_cons, List.sum_cons]
        omega

/-- A removal takes the measure of the old value away. -/
theorem total_erase (f : V → Nat) (d : Dict K V) (k : K) :
    (d.erase k).total f + ((d.get? k).map f).getD 0 = d.total f := by
  have hnodup := d.nodup
  show ((d.entries.filter fun e => e.1 ≠ k).map (fun e => f e.2)).sum + ((lookup k d.entries).map f).getD 0 =
    (d.entries.map (fun e => f e.2)).sum
  generalize d.entries = entries at hnodup
  induction entries with
  | nil => rfl
  | cons p rest ih =>
      obtain ⟨x, u⟩ := p
      rw [List.map_cons, List.nodup_cons] at hnodup
      by_cases hk : x = k
      · -- the key is not in the rest
        subst hk
        have hrest : rest.filter (fun e => e.1 ≠ x) = rest := by
          rw [List.filter_eq_self]
          rintro ⟨y, v⟩ hy
          rw [decide_eq_true_eq]
          rintro rfl
          exact hnodup.1 (List.mem_map.mpr ⟨_, hy, rfl⟩)
        simp only [lookup, if_true, List.map_cons, List.sum_cons, Option.map_some, Option.getD_some]
        rw [List.filter_cons_of_neg (by simp), hrest]
        exact Nat.add_comm _ _
      · have hrest := ih hnodup.2
        simp only [lookup, hk, if_false, List.map_cons, List.sum_cons]
        rw [List.filter_cons_of_pos (by simpa using hk), List.map_cons, List.sum_cons, Nat.add_assoc, hrest]

theorem assign_assign (k : K) (v v' : V) (l : List (K × V)) :
    assign k v' (assign k v l) = assign k v' l := by
  induction l with
  | nil => simp [assign]
  | cons p rest ih =>
      obtain ⟨x, u⟩ := p
      by_cases hk : x = k <;> simp [assign, hk, ih]

@[simp] theorem set_set (d : Dict K V) (k : K) (v v' : V) : (d.set k v).set k v' = d.set k v' := by
  unfold set
  congr 1
  exact assign_assign k v v' d.entries

omit [DecidableEq K] in
theorem size_eq_total (d : Dict K V) : d.size = d.total (fun _ => 1) := by
  unfold size total
  induction d.entries with
  | nil => rfl
  | cons p rest ih => rw [List.map_cons, List.sum_cons, List.length_cons, ih, Nat.add_comm]

end Dict
end Python
end PickleInfra
