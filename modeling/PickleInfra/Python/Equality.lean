import PickleInfra.Python.Canonical

/-!
# `Python.Equality` — `==` of JSON values, and merged dictionaries

Numbers are equal by value whatever their type, and dictionaries by their entries whatever the order. So `==` sees
less than a reader does: `1`, `1.0` and `True` are one value to it. The order of keys it does not see is what
`sorted` forgets.
-/

namespace PickleInfra
namespace Python
namespace Json

open JsonText

/-! ## Identity -/

mutual
/-- Whether two values are one, the order of keys included. -/
def same : Json → Json → Bool
  | .null, .null         => true
  | .bool a, .bool b     => a = b
  | .int a, .int b       => a = b
  | .float a, .float b   => a = b
  | .str a, .str b       => a = b
  | .list xs, .list ys   => sameItems xs ys
  | .dict ms, .dict ns   => sameMembers ms ns
  | _, _                 => false
def sameItems : List Json → List Json → Bool
  | [], []           => true
  | x :: xs, y :: ys => same x y && sameItems xs ys
  | _, _             => false
def sameMembers : List (String × Json) → List (String × Json) → Bool
  | [], []                     => true
  | (j, v) :: ms, (k, w) :: ns => j = k && same v w && sameMembers ms ns
  | _, _                       => false
end

mutual
theorem same_iff : ∀ v w : Json, same v w = true ↔ v = w
  | .null, w => by cases w <;> simp [same]
  | .bool a, w => by cases w <;> simp [same]
  | .int a, w => by cases w <;> simp [same]
  | .float a, w => by cases w <;> simp [same]
  | .str a, w => by cases w <;> simp [same]
  | .list xs, w => by
      cases w with
      | list ys => rw [same, sameItems_iff xs ys, Json.list.injEq]
      | null | bool | int | float | str | dict => simp [same]
  | .dict ms, w => by
      cases w with
      | dict ns => rw [same, sameMembers_iff ms ns, Json.dict.injEq]
      | null | bool | int | float | str | list => simp [same]
theorem sameItems_iff : ∀ xs ys : List Json, sameItems xs ys = true ↔ xs = ys
  | [], [] => by simp [sameItems]
  | [], _ :: _ => by simp [sameItems]
  | _ :: _, [] => by simp [sameItems]
  | x :: xs, y :: ys => by
      rw [sameItems, Bool.and_eq_true, same_iff x y, sameItems_iff xs ys, List.cons.injEq]
theorem sameMembers_iff : ∀ ms ns : List (String × Json), sameMembers ms ns = true ↔ ms = ns
  | [], [] => by simp [sameMembers]
  | [], _ :: _ => by simp [sameMembers]
  | _ :: _, [] => by simp [sameMembers]
  | (j, v) :: ms, (k, w) :: ns => by
      rw [sameMembers, Bool.and_eq_true, Bool.and_eq_true, same_iff v w, sameMembers_iff ms ns, decide_eq_true_eq,
        List.cons.injEq, Prod.mk.injEq]
end

instance : DecidableEq Json := fun v w => decidable_of_iff _ (same_iff v w)

/-! ## Equality -/

mutual
/-- `left == right` -/
def equal : Json → Json → Bool
  | .null, .null                   => true
  | .str s, .str t                 => s = t
  | .list xs, .list ys             => equalItems xs ys
  | .dict ms, .dict ns             => ms.length = ns.length && equalMembers ms ns
  | .float .inf, .float .inf       => true
  | .float .negInf, .float .negInf => true
  | v, w                           => v.numeric.isSome && decide (v.numeric = w.numeric)
def equalItems : List Json → List Json → Bool
  | [], []           => true
  | x :: xs, y :: ys => equal x y && equalItems xs ys
  | _, _             => false
/-- Every member has an equal one under its key. -/
def equalMembers : List (String × Json) → List (String × Json) → Bool
  | [], _            => true
  | (k, v) :: ms, ns => (match lookup k ns with
    | some w => equal v w
    | none   => false) && equalMembers ms ns
end

example : equal (.dict [("a", .int 1), ("b", .null)]) (.dict [("b", .null), ("a", .bool true)]) = true := by decide

theorem equal_dict {ms ns : List (String × Json)} :
    equal (.dict ms) (.dict ns) = true ↔ ms.length = ns.length ∧ equalMembers ms ns = true := by
  rw [equal, Bool.and_eq_true, decide_eq_true_eq]

theorem equalMembers_iff {ms ns : List (String × Json)} :
    equalMembers ms ns = true ↔ ∀ m ∈ ms, ∃ w, lookup m.1 ns = some w ∧ equal m.2 w = true := by
  induction ms with
  | nil =>
      rw [equalMembers]
      exact ⟨fun _ m hm => absurd hm List.not_mem_nil, fun _ => rfl⟩
  | cons m ms ih =>
      obtain ⟨k, v⟩ := m
      rw [equalMembers, Bool.and_eq_true, ih, List.forall_mem_cons]
      dsimp only
      cases lookup k ns with
      | none => simp
      | some w => simp

theorem equalItems_iff : ∀ {xs ys : List Json}, equalItems xs ys = true ↔ List.Forall₂ (fun x y => equal x y = true) xs ys
  | [], []           => by simp [equalItems]
  | [], _ :: _       => by simp [equalItems]
  | _ :: _, []       => by simp [equalItems]
  | _ :: xs, _ :: ys => by rw [equalItems, Bool.and_eq_true, equalItems_iff, List.forall₂_cons]

/-- What has no numeric value equals no number. -/
theorem numbers_ne_none {v w : Json} (h : w.numeric = none) :
    (v.numeric.isSome && decide (v.numeric = w.numeric)) = false := by
  rw [h]
  cases v.numeric with
  | none => rfl
  | some q => rfl

theorem equal_str {s : String} {v : Json} : equal (.str s) v = true ↔ v = .str s := by
  cases v with
  | str t =>
      rw [equal, decide_eq_true_eq]
      exact ⟨fun h => h ▸ rfl, fun h => (Json.str.inj h).symm⟩
  | null | bool | int | float | list | dict =>
      rw [equal]
      · exact ⟨fun h => (by cases h), fun h => (by cases h)⟩
      all_goals simp

theorem equal_str_right {s : String} {v : Json} : equal v (.str s) = true ↔ v = .str s := by
  cases v with
  | str t =>
      rw [equal, decide_eq_true_eq]
      exact ⟨fun h => h ▸ rfl, fun h => Json.str.inj h⟩
  | null | bool | int | float | list | dict =>
      rw [equal]
      · exact ⟨fun h => absurd h (by rw [numbers_ne_none rfl]; exact Bool.false_ne_true), fun h => (by cases h)⟩
      all_goals simp

theorem equal_int {a b : Int} : equal (.int a) (.int b) = true ↔ a = b := by
  rw [equal]
  · simp [numeric]
  all_goals simp

/-- A value that equals a dictionary is one. -/
theorem dict_of_equal {ns : List (String × Json)} {v : Json} (h : equal v (.dict ns) = true) :
    ∃ ms, v = .dict ms ∧ ms.length = ns.length ∧ ∀ m ∈ ms, ∃ w, lookup m.1 ns = some w ∧ equal m.2 w = true := by
  cases v with
  | dict ms => exact ⟨ms, rfl, (equal_dict.mp h).1, equalMembers_iff.mp (equal_dict.mp h).2⟩
  | null | bool | int | float | str | list =>
      rw [equal] at h
      · exact absurd h (by rw [numbers_ne_none rfl]; exact Bool.false_ne_true)
      all_goals simp

/-! ## Keys in another order -/

/-- Equal members stay so in another order. -/
theorem equalMembers_perm {ms ms' ns : List (String × Json)} (h : ms.Perm ms') :
    equalMembers ms ns = equalMembers ms' ns := by
  rw [Bool.eq_iff_iff, equalMembers_iff, equalMembers_iff]
  exact ⟨fun hall m hm => hall m (h.mem_iff.mpr hm), fun hall m hm => hall m (h.mem_iff.mp hm)⟩

theorem numeric_sorted (v : Json) : v.sorted.numeric = v.numeric := by
  cases v with
  | list xs => rw [sorted]; rfl
  | dict ms => rw [sorted]; rfl
  | null | bool | int | float | str => rw [sorted]

mutual
/-- Equality does not see the order of keys. -/
theorem equal_sorted : ∀ v w : Json, equal v.sorted w = equal v w
  | .list xs, w => by
      rw [sorted]
      cases w with
      | list ys => rw [equal, equal, equalItems_sorted]
      | null | bool | int | float | str | dict => rfl
  | .dict ms, w => by
      rw [sorted]
      cases w with
      | dict ns =>
          have hperm := perm_sortMembers (sortedMembers ms)
          have hlength : (sortMembers (sortedMembers ms)).length = ms.length := by
            rw [hperm.length_eq, sortedMembers_eq, List.length_map]
          rw [equal, equal, hlength, equalMembers_perm hperm, equalMembers_sorted]
      | null | bool | int | float | str | list => rfl
  | .null, w | .bool _, w | .int _, w | .float _, w | .str _, w => by rw [sorted]
theorem equalItems_sorted : ∀ xs ys : List Json, equalItems (sortedItems xs) ys = equalItems xs ys
  | [], ys => by rw [sortedItems]
  | x :: xs, [] => by rw [sortedItems]; rfl
  | x :: xs, y :: ys => by rw [sortedItems, equalItems, equalItems, equal_sorted, equalItems_sorted]
theorem equalMembers_sorted : ∀ ms ns : List (String × Json), equalMembers (sortedMembers ms) ns = equalMembers ms ns
  | [], ns => by rw [sortedMembers]
  | (k, v) :: ms, ns => by
      rw [sortedMembers, equalMembers, equalMembers, equalMembers_sorted]
      cases lookup k ns with
      | none => rfl
      | some w =>
          dsimp only
          rw [equal_sorted]
end

mutual
theorem equal_sorted_right : ∀ v w : Json, equal v w.sorted = equal v w
  | .list xs, w => by
      cases w with
      | list ys => rw [sorted, equal, equal, equalItems_sorted_right]
      | dict ns => rw [sorted]; rfl
      | null | bool | int | float | str => rw [sorted]
  | .dict ms, w => by
      cases w with
      | dict ns =>
          have hlength : (sortMembers (sortedMembers ns)).length = ns.length := by
            rw [(perm_sortMembers _).length_eq, sortedMembers_eq, List.length_map]
          rw [sorted, equal, equal, hlength, equalMembers_sorted_right]
      | list ys => rw [sorted]; rfl
      | null | bool | int | float | str => rw [sorted]
  | .float x, w => by
      cases w with
      | list ys => rw [sorted]; cases x <;> rfl
      | dict ns => rw [sorted]; cases x <;> rfl
      | null | bool | int | float | str => rw [sorted]
  | .null, w | .bool _, w | .int _, w | .str _, w => by
      cases w with
      | list ys => rw [sorted]; rfl
      | dict ns => rw [sorted]; rfl
      | null | bool | int | float | str => rw [sorted]
theorem equalItems_sorted_right : ∀ xs ys : List Json, equalItems xs (sortedItems ys) = equalItems xs ys
  | _, [] => by rw [sortedItems]
  | [], y :: ys => by rw [sortedItems]; rfl
  | x :: xs, y :: ys => by
      rw [sortedItems, equalItems, equalItems, equal_sorted_right, equalItems_sorted_right]
theorem equalMembers_sorted_right : ∀ ms ns : List (String × Json),
    equalMembers ms (sortMembers (sortedMembers ns)) = equalMembers ms ns
  | [], _ => by rw [equalMembers, equalMembers]
  | (k, v) :: ms, ns => by
      have hlookup : lookup k (sortMembers (sortedMembers ns)) = (lookup k ns).map sorted := by
        rw [lookup_sortMembers, sortedMembers_eq, lookup_map, lookup_eq]
      rw [equalMembers, equalMembers, equalMembers_sorted_right, hlookup]
      cases lookup k ns with
      | none => rfl
      | some w =>
          show (equal v w.sorted && _) = _
          rw [equal_sorted_right]
end

theorem equal_congr {v v' w w' : Json} (hv : v.sorted = v'.sorted) (hw : w.sorted = w'.sorted) :
    equal v w = equal v' w' := by
  rw [← equal_sorted v, ← equal_sorted_right, hv, hw, equal_sorted, equal_sorted_right]

/-! ## Dictionaries by their lookups -/

section Lookups

variable {ms ns : List (String × Json)}

theorem exists_lookup {k : String} (h : k ∈ ms.map Prod.fst) : ∃ v, lookup k ms = some v := by
  simp only [lookup_eq]
  exact Dict.exists_lookup_iff.mpr h

theorem mem_keys_of_lookup {k : String} {v : Json} (h : lookup k ms = some v) : k ∈ ms.map Prod.fst := by
  rw [lookup_eq] at h
  exact Dict.exists_lookup_iff.mp ⟨v, h⟩

theorem mem_of_lookup {k : String} {v : Json} (h : lookup k ms = some v) : (k, v) ∈ ms := by
  rw [lookup_eq] at h
  exact Dict.mem_of_lookup h

theorem lookup_of_mem (hms : (ms.map Prod.fst).Nodup) {m : String × Json} (h : m ∈ ms) :
    lookup m.1 ms = some m.2 := by
  rw [lookup_eq]
  exact (Dict.lookup_eq_some_iff hms).mpr h

/-- Dictionaries with the same keys have the same keys in some order. -/
theorem keys_perm_of_lookup (hms : (ms.map Prod.fst).Nodup) (hns : (ns.map Prod.fst).Nodup)
    {R : Json → Json → Prop} (h : ∀ k, Option.Rel R (lookup k ms) (lookup k ns)) :
    (ms.map Prod.fst).Perm (ns.map Prod.fst) := by
  apply (List.perm_ext_iff_of_nodup hms hns).mpr
  intro k
  have hk := h k
  constructor
  · intro hm
    obtain ⟨v, hv⟩ := exists_lookup hm
    rw [hv] at hk
    generalize ho : lookup k ns = o at hk
    cases hk with
    | some _ => exact mem_keys_of_lookup ho
  · intro hn
    obtain ⟨w, hw⟩ := exists_lookup hn
    rw [hw] at hk
    generalize ho : lookup k ms = o at hk
    cases hk with
    | some _ => exact mem_keys_of_lookup ho

/-- **Two dictionaries are equal** when they have equal values under the same keys. -/
theorem equal_dict_iff (hms : (ms.map Prod.fst).Nodup) (hns : (ns.map Prod.fst).Nodup) :
    equal (.dict ms) (.dict ns) = true ↔
      ∀ k, Option.Rel (fun v w => equal v w = true) (lookup k ms) (lookup k ns) := by
  rw [equal_dict, equalMembers_iff]
  constructor
  · rintro ⟨hlength, hall⟩ k
    cases hm : lookup k ms with
    | some v =>
        obtain ⟨w, hw, hvw⟩ := hall (k, v) (mem_of_lookup hm)
        rw [hw]
        exact .some hvw
    | none =>
        cases hn : lookup k ns with
        | none => exact .none
        | some w =>
            -- a key of the second alone would make it longer
            have hsub : ms.map Prod.fst ⊆ ns.map Prod.fst := by
              intro k' hk'
              obtain ⟨m, hmem, rfl⟩ := List.mem_map.mp hk'
              obtain ⟨w', hw', -⟩ := hall m hmem
              exact mem_keys_of_lookup hw'
            have hperm := (List.subperm_of_subset hms hsub).perm_of_length_le
              (by rw [List.length_map, List.length_map, hlength])
            obtain ⟨v, hv⟩ := exists_lookup (hperm.mem_iff.mpr (mem_keys_of_lookup hn))
            rw [hm] at hv
            cases hv
  · intro h
    have hperm := keys_perm_of_lookup hms hns h
    refine ⟨by rw [← List.length_map, hperm.length_eq, List.length_map], fun m hm => ?_⟩
    have hk := h m.1
    rw [lookup_of_mem hms hm] at hk
    generalize hw : lookup m.1 ns = o at hk
    cases hk with
    | some heq => exact ⟨_, rfl, heq⟩

/-- Dictionaries that hold the same under every key are the same up to the order of keys. -/
theorem sorted_of_lookup (hms : (ms.map Prod.fst).Nodup) (hns : (ns.map Prod.fst).Nodup)
    (h : ∀ k, (lookup k ms).map sorted = (lookup k ns).map sorted) : sorted (.dict ms) = sorted (.dict ns) := by
  rw [sorted_dict, sorted_dict]
  have hkeys : ∀ l : List (String × Json), (l.map fun m => (m.1, m.2.sorted)).map Prod.fst = l.map Prod.fst := by
    intro l
    rw [List.map_map]
    rfl
  have hlookup : ∀ (l : List (String × Json)) (k : String),
      lookup k (l.map fun m => (m.1, m.2.sorted)) = (lookup k l).map sorted := by
    intro l k
    rw [lookup_map, lookup_eq]
  refine congrArg _ (sortMembers_perm ?_ (by rw [hkeys]; exact hms))
  refine (List.perm_ext_iff_of_nodup (List.Nodup.of_map Prod.fst (by rw [hkeys]; exact hms))
    (List.Nodup.of_map Prod.fst (by rw [hkeys]; exact hns))).mpr fun m => ?_
  have hmem : ∀ {l : List (String × Json)}, (l.map Prod.fst).Nodup →
      (m ∈ (l.map fun m => (m.1, m.2.sorted)) ↔ (lookup m.1 l).map sorted = some m.2) := by
    intro l hl
    rw [← hlookup, lookup_eq, Dict.lookup_eq_some_iff (by rw [hkeys]; exact hl)]
  rw [hmem hms, hmem hns, h m.1]

theorem lookup_of_sorted (h : sorted (.dict ms) = sorted (.dict ns)) (k : String) :
    (lookup k ms).map sorted = (lookup k ns).map sorted := by
  have hget := congrArg (get? k) h
  rw [get?_sorted, get?_sorted] at hget
  exact hget

/-- Equal dictionaries of integers are the same up to the order of keys. -/
theorem sorted_of_equal_ints (hms : (ms.map Prod.fst).Nodup) (hns : (ns.map Prod.fst).Nodup)
    (hintms : ∀ k v, lookup k ms = some v → ∃ n, v = .int n) (hintns : ∀ k v, lookup k ns = some v → ∃ n, v = .int n)
    (h : equal (.dict ms) (.dict ns) = true) : sorted (.dict ms) = sorted (.dict ns) := by
  apply sorted_of_lookup hms hns
  intro k
  have hk := (equal_dict_iff hms hns).mp h k
  generalize hm : lookup k ms = o, hn : lookup k ns = o' at hk
  cases hk with
  | none => rfl
  | some heq =>
      obtain ⟨a, rfl⟩ := hintms k _ hm
      obtain ⟨b, rfl⟩ := hintns k _ hn
      rw [equal_int.mp heq]

end Lookups

section Valid

variable {T : FloatText}

mutual
/-- A value that was read equals itself: it has no `NaN`, and no key twice. -/
theorem equal_self : ∀ v : Json, Valid T v → equal v v = true
  | .null, _ => by rw [equal]
  | .bool _, _ => by simp [equal, numeric]
  | .int _, _ => by simp [equal, numeric]
  | .float _, h => by
      obtain ⟨q, rfl, -⟩ := valid_float.mp h
      simp [equal, numeric]
  | .str _, _ => equal_str.mpr rfl
  | .list xs, h => by
      rw [Valid] at h
      rw [equal]
      exact equalItems_self xs h
  | .dict ms, h => by
      rw [Valid] at h
      refine equal_dict.mpr ⟨rfl, equalMembers_iff.mpr fun m hm => ⟨m.2, lookup_of_mem h.1 hm, ?_⟩⟩
      exact equalMembers_self ms h.2 m hm
theorem equalItems_self : ∀ xs : List Json, ValidItems T xs → equalItems xs xs = true
  | [], _ => by rw [equalItems]
  | x :: xs, h => by
      rw [ValidItems] at h
      rw [equalItems, equal_self x h.1, equalItems_self xs h.2]
      rfl
theorem equalMembers_self : ∀ ms : List (String × Json), ValidMembers T ms → ∀ m ∈ ms, equal m.2 m.2 = true
  | [], _, _, hm => absurd hm List.not_mem_nil
  | (_, v) :: ms, h, m', hm => by
      rw [ValidMembers] at h
      have hv := equal_self v h.1
      have hms := equalMembers_self ms h.2
      rcases List.mem_cons.mp hm with heq | hm
      · rw [heq]
        exact hv
      · exact hms m' hm
end

/-- A short integer is not too long to print. -/
theorem valid_int {n : Int} (h : n.natAbs < 10 ^ 20) : Valid T (.int n) := by
  rw [Valid]
  exact Nat.le_trans ((Nat.length_toDigits_le_iff (by decide) (by decide)).mpr h) (by decide)

theorem valid_of_get? {v x : Json} {k : String} (hv : Valid T v) (h : v.get? k = some x) : Valid T x := by
  cases v with
  | dict ms => exact (valid_dict.mp hv).2 _ (mem_of_lookup h)
  | null | bool | int | float | str | list => cases h

theorem valid_getOrNull {v : Json} (hv : Valid T v) (k : String) : Valid T (v.getOrNull k) := by
  unfold getOrNull
  cases hget : v.get? k with
  | none => rw [Option.getD_none, Valid]; trivial
  | some x => exact valid_of_get? hv hget

end Valid

/-! ## Keys -/

/-- The entries of a dictionary. -/
def members : Json → List (String × Json)
  | .dict ms => ms
  | _        => []

/-- `type(value) is dict and set(value) == names` -/
def hasKeys (names : List String) : Json → Bool
  | .dict ms => (ms.all fun m => names.contains m.1) && names.all fun k => (ms.map Prod.fst).contains k
  | _        => false

theorem hasKeys_iff {names : List String} {v : Json} :
    v.hasKeys names = true ↔ ∃ ms, v = .dict ms ∧ ∀ k, k ∈ ms.map Prod.fst ↔ k ∈ names := by
  cases v with
  | dict ms =>
      simp only [hasKeys, Bool.and_eq_true, List.all_eq_true, List.contains_iff_mem]
      constructor
      · rintro ⟨hin, hall⟩
        refine ⟨ms, rfl, fun k => ⟨fun hk => ?_, hall k⟩⟩
        obtain ⟨m, hm, rfl⟩ := List.mem_map.mp hk
        exact hin m hm
      · rintro ⟨_, h, hkeys⟩
        cases h
        exact ⟨fun m hm => (hkeys m.1).mp (List.mem_map_of_mem hm), fun k hk => (hkeys k).mpr hk⟩
  | null | bool | int | float | str | list =>
      exact ⟨fun h => (by cases h), fun ⟨_, h, _⟩ => (by cases h)⟩

/-- `bool(value)` -/
def truthy : Json → Bool
  | .null              => false
  | .bool b            => b
  | .int n             => n ≠ 0
  | .float (.finite q) => q ≠ 0
  | .float _           => true
  | .str s             => s ≠ ""
  | .list xs           => !xs.isEmpty
  | .dict ms           => !ms.isEmpty

/-! ## Merged dictionaries -/

/-- `{**first, **second}` -/
def merge (first second : List (String × Json)) : List (String × Json) :=
  second.foldl (fun ms m => Dict.assign m.1 m.2 ms) first

theorem lookup_assign (k k' : String) (v : Json) (ms : List (String × Json)) :
    lookup k' (Dict.assign k v ms) = if k = k' then some v else lookup k' ms := by
  rw [lookup_eq, lookup_eq, Dict.lookup_assign]

theorem lookup_merge {second : List (String × Json)} (h : (second.map Prod.fst).Nodup) (k : String) :
    ∀ first, lookup k (merge first second) = (lookup k second).or (lookup k first) := by
  unfold merge
  induction second with
  | nil => exact fun first => rfl
  | cons m second ih =>
      intro first
      obtain ⟨k', v⟩ := m
      rw [List.map_cons, List.nodup_cons] at h
      rw [List.foldl_cons, ih h.2, lookup_assign]
      show _ = (if k' = k then some v else lookup k second).or (lookup k first)
      by_cases hk : k' = k
      · subst hk
        cases hl : lookup k' second with
        | none => rw [if_pos rfl, if_pos rfl]; rfl
        | some w => exact absurd (mem_keys_of_lookup hl) h.1
      · rw [if_neg hk, if_neg hk]

theorem nodup_merge {second : List (String × Json)} :
    ∀ {first : List (String × Json)}, (first.map Prod.fst).Nodup → ((merge first second).map Prod.fst).Nodup := by
  unfold merge
  induction second with
  | nil => exact fun h => h
  | cons m second ih => exact fun h => ih (Dict.nodup_assign h)

/-! ## Values that are the same up to the order of keys -/

section Same

variable {v w : Json}

/-- What has no keys has one form. -/
def isScalar : Json → Bool
  | .list _ | .dict _ => false
  | _                 => true

theorem eq_of_sorted_scalar (h : v.sorted = w.sorted) (hw : w.isScalar = true) : v = w := by
  have hself : w.sorted = w := by
    cases w with
    | list ys => cases hw
    | dict ns => cases hw
    | null | bool | int | float | str => rw [sorted]
  rw [hself] at h
  cases v with
  | list xs =>
      rw [sorted] at h
      rw [← h] at hw
      cases hw
  | dict ms =>
      rw [sorted] at h
      rw [← h] at hw
      cases hw
  | null | bool | int | float | str => rwa [sorted] at h

theorem get?_of_sorted (h : v.sorted = w.sorted) (k : String) : (v.get? k).map sorted = (w.get? k).map sorted := by
  rw [← get?_sorted, ← get?_sorted, h]

/-- A key with a scalar has the same one in both. -/
theorem get?_scalar {k : String} {x : Json} (h : v.sorted = w.sorted) (hx : x.isScalar = true)
    (hget : w.get? k = some x) : v.get? k = some x := by
  have hmap := get?_of_sorted h k
  rw [hget, Option.map_some] at hmap
  obtain ⟨y, hy, heq⟩ := Option.map_eq_some_iff.mp hmap
  rw [hy, eq_of_sorted_scalar heq hx]

theorem get?_same {k : String} {x : Json} (h : v.sorted = w.sorted) (hget : w.get? k = some x) :
    ∃ y, v.get? k = some y ∧ y.sorted = x.sorted := by
  have hmap := get?_of_sorted h k
  rw [hget, Option.map_some] at hmap
  exact Option.map_eq_some_iff.mp hmap

theorem getOrNull_of_sorted (h : v.sorted = w.sorted) (k : String) :
    (v.getOrNull k).sorted = (w.getOrNull k).sorted := by
  rw [← getOrNull_sorted, ← getOrNull_sorted, h]

/-- What is a dictionary up to the order of keys is one. -/
theorem dict_of_sorted {ns : List (String × Json)} (h : v.sorted = (dict ns).sorted) : ∃ ms, v = .dict ms := by
  cases v with
  | dict ms => exact ⟨ms, rfl⟩
  | null | bool | int | float | str | list =>
      rw [sorted, sorted_dict] at h
      cases h

theorem hasKeys_sorted {names : List String} : v.sorted.hasKeys names = true ↔ v.hasKeys names = true := by
  cases v with
  | dict ms =>
      have hkeys : ∀ k, k ∈ (sortMembers (ms.map fun m => (m.1, m.2.sorted))).map Prod.fst ↔ k ∈ ms.map Prod.fst := by
        intro k
        rw [((perm_sortMembers _).map Prod.fst).mem_iff, List.map_map]
        rfl
      rw [sorted_dict, hasKeys_iff, hasKeys_iff]
      constructor
      · rintro ⟨_, h, hiff⟩
        cases h
        exact ⟨ms, rfl, fun k => (hkeys k).symm.trans (hiff k)⟩
      · rintro ⟨_, h, hiff⟩
        cases h
        exact ⟨_, rfl, fun k => (hkeys k).trans (hiff k)⟩
  | null | bool | int | float | str => rw [sorted]
  | list xs =>
      rw [sorted]
      exact Iff.rfl

theorem hasKeys_of_sorted {names : List String} (h : v.sorted = w.sorted) (hw : w.hasKeys names = true) :
    v.hasKeys names = true := by
  rw [← hasKeys_sorted, h, hasKeys_sorted]
  exact hw

end Same

end Json
end Python
end PickleInfra
