import Mathlib.Data.List.Sort
import Mathlib.Data.String.Basic
import PickleInfra.Python.JsonText

/-!
# `Python.Canonical` — `json.dumps` with sorted keys, as bytes

`dumps` prints a value with the keys of every object in order, in UTF-8; `parse` decodes bytes and reads
them. What was printed is read back with its keys sorted (`parse_bytes`), and printing that again gives
the same bytes (`bytes_sorted`): the bytes of a value name it up to the order of its keys. Every lookup is
the same before and after (`getOrNull_sorted`).

The recursion limit of the interpreter is not modelled.
-/

namespace PickleInfra
namespace Python

open JsonText

namespace Json

/-! ## Sorting the keys -/

/-- The entries of an object in the order of their keys. -/
def sortMembers (ms : List (String × Json)) : List (String × Json) :=
  ms.insertionSort (fun a b => a.1 ≤ b.1)

mutual
/-- The value with the keys of every object in order. -/
def sorted : Json → Json
  | .null    => .null
  | .bool b  => .bool b
  | .int n   => .int n
  | .float x => .float x
  | .str s   => .str s
  | .list xs => .list (sortedItems xs)
  | .dict ms => .dict (sortMembers (sortedMembers ms))
def sortedItems : List Json → List Json
  | []      => []
  | x :: xs => sorted x :: sortedItems xs
def sortedMembers : List (String × Json) → List (String × Json)
  | []           => []
  | (k, v) :: ms => (k, sorted v) :: sortedMembers ms
end

theorem sortedItems_eq (xs : List Json) : sortedItems xs = xs.map sorted := by
  induction xs with
  | nil => rw [sortedItems, List.map_nil]
  | cons x xs ih => rw [sortedItems, ih, List.map_cons]

theorem sortedMembers_eq (ms : List (String × Json)) :
    sortedMembers ms = ms.map (fun m => (m.1, m.2.sorted)) := by
  induction ms with
  | nil => rw [sortedMembers, List.map_nil]
  | cons m ms ih => rw [sortedMembers, ih, List.map_cons]

theorem sorted_list (xs : List Json) : sorted (.list xs) = .list (xs.map sorted) := by
  rw [sorted, sortedItems_eq]

theorem sorted_dict (ms : List (String × Json)) :
    sorted (.dict ms) = .dict (sortMembers (ms.map (fun m => (m.1, m.2.sorted)))) := by
  rw [sorted, sortedMembers_eq]

theorem perm_sortMembers (ms : List (String × Json)) : (sortMembers ms).Perm ms :=
  List.perm_insertionSort _ _

/-- Sorting and a change of the values commute. -/
theorem map_sortMembers (f : Json → Json) (ms : List (String × Json)) :
    (sortMembers ms).map (fun m => (m.1, f m.2)) = sortMembers (ms.map (fun m => (m.1, f m.2))) :=
  List.map_insertionSort _ _ _ ms fun _ _ _ _ => Iff.rfl

theorem sortMembers_idem (ms : List (String × Json)) : sortMembers (sortMembers ms) = sortMembers ms := by
  apply List.Pairwise.insertionSort_eq
  exact List.pairwise_insertionSort _ ms

/-- The order of the entries is lost when the keys are sorted. -/
theorem sortMembers_perm {a b : List (String × Json)} (h : a.Perm b) (hnodup : (a.map Prod.fst).Nodup) :
    sortMembers a = sortMembers b := by
  have hperm : (sortMembers a).Perm (sortMembers b) := (perm_sortMembers a).trans (h.trans (perm_sortMembers b).symm)
  refine List.Perm.eq_of_pairwise ?_ (List.pairwise_insertionSort _ a) (List.pairwise_insertionSort _ b) hperm
  intro x y hx hy hxy hyx
  have hx' : x ∈ a := (perm_sortMembers a).mem_iff.mp hx
  have hy' : y ∈ a := h.mem_iff.mpr ((perm_sortMembers b).mem_iff.mp hy)
  exact List.inj_on_of_nodup_map hnodup hx' hy' (le_antisymm hxy hyx)

mutual
/-- Keys are in order after they were sorted. -/
theorem sorted_sorted : ∀ v : Json, v.sorted.sorted = v.sorted
  | .null => by rw [sorted, sorted]
  | .bool _ => by rw [sorted, sorted]
  | .int _ => by rw [sorted, sorted]
  | .float _ => by rw [sorted, sorted]
  | .str _ => by rw [sorted, sorted]
  | .list xs => by
      have hxs := sortedItems_sortedItems xs
      rw [sorted, sorted, hxs]
  | .dict ms => by
      have hms := sortedMembers_sortedMembers ms
      rw [sorted, sorted, sortedMembers_eq (sortMembers _), map_sortMembers, ← sortedMembers_eq, hms,
        sortMembers_idem]
theorem sortedItems_sortedItems : ∀ xs : List Json, sortedItems (sortedItems xs) = sortedItems xs
  | [] => by rw [sortedItems, sortedItems]
  | x :: xs => by rw [sortedItems, sortedItems, sorted_sorted x, sortedItems_sortedItems xs]
theorem sortedMembers_sortedMembers :
    ∀ ms : List (String × Json), sortedMembers (sortedMembers ms) = sortedMembers ms
  | [] => by rw [sortedMembers, sortedMembers]
  | (k, v) :: ms => by rw [sortedMembers, sortedMembers, sorted_sorted v, sortedMembers_sortedMembers ms]
end

/-! ## What is read in a sorted value -/

/-- An entry that is put behind the smaller keys is found as before. -/
theorem lookup_orderedInsert (k : String) (m : String × Json) (ms : List (String × Json)) :
    lookup k (ms.orderedInsert (fun a b => a.1 ≤ b.1) m) = lookup k (m :: ms) := by
  induction ms with
  | nil => rfl
  | cons n ms ih =>
      by_cases hle : m.1 ≤ n.1
      · rw [List.orderedInsert_cons_of_le _ ms hle]
      · rw [List.orderedInsert_of_not_le _ ms hle]
        show (if n.1 = k then some n.2 else lookup k (ms.orderedInsert _ m)) =
          if m.1 = k then some m.2 else if n.1 = k then some n.2 else lookup k ms
        rw [ih]
        -- The two entries have different keys, so at most one of them is the one looked for.
        by_cases hn : n.1 = k
        · have hm : m.1 ≠ k := fun hm => hle (hm.trans hn.symm).le
          rw [if_pos hn, if_neg hm, if_pos hn]
        · rw [if_neg hn, if_neg hn]
          rfl

theorem lookup_sortMembers (k : String) (ms : List (String × Json)) :
    lookup k (sortMembers ms) = lookup k ms := by
  induction ms with
  | nil => rfl
  | cons m ms ih =>
      unfold sortMembers at ih ⊢
      rw [List.insertionSort_cons, lookup_orderedInsert]
      show (if m.1 = k then some m.2 else _) = if m.1 = k then some m.2 else _
      rw [ih]

@[simp] theorem sorted_null : sorted .null = .null := by rw [sorted]
@[simp] theorem sorted_int (n : Int) : sorted (.int n) = .int n := by rw [sorted]
@[simp] theorem sorted_str (s : String) : sorted (.str s) = .str s := by rw [sorted]

theorem get?_sorted (k : String) (v : Json) : v.sorted.get? k = (v.get? k).map sorted := by
  cases v with
  | dict ms =>
      rw [sorted_dict]
      show lookup k (sortMembers _) = (lookup k ms).map sorted
      rw [lookup_sortMembers, lookup_map, ← lookup_eq]
  | list xs => rw [sorted]; rfl
  | null | bool | int | float | str => rw [sorted]; rfl

theorem getOrNull_sorted (k : String) (v : Json) : v.sorted.getOrNull k = (v.getOrNull k).sorted := by
  unfold getOrNull
  rw [get?_sorted]
  cases v.get? k with
  | none => exact sorted_null.symm
  | some x => rfl

@[simp] theorem isDict_sorted (v : Json) : v.sorted.isDict = v.isDict := by
  cases v <;> rw [sorted] <;> rfl

@[simp] theorem isNull_sorted (v : Json) : v.sorted.isNull = v.isNull := by
  cases v <;> rw [sorted] <;> rfl

@[simp] theorem asStr?_sorted (v : Json) : v.sorted.asStr? = v.asStr? := by
  cases v <;> rw [sorted] <;> rfl

@[simp] theorem asInt?_sorted (v : Json) : v.sorted.asInt? = v.asInt? := by
  cases v <;> rw [sorted] <;> rfl

@[simp] theorem isStr_sorted (s : String) (v : Json) : v.sorted.isStr s = v.isStr s := by
  cases v <;> rw [sorted] <;> rfl

/-! ## Printing to bytes -/

/-- `json.dumps(allow_nan=False)` returns: no float is infinite or NaN, and no integer has too many
    digits. -/
def isPrintable : Json → Bool
  | .int n   => (Nat.toDigits 10 n.natAbs).length ≤ maxIntDigits
  | .float x => match x with
    | .finite _ => true
    | _         => false
  | _        => true

mutual
/-- `p` of the value and of everything inside. -/
def every (p : Json → Bool) : Json → Bool
  | .list xs => p (.list xs) && everyItem p xs
  | .dict ms => p (.dict ms) && everyMember p ms
  | .null    => p .null
  | .bool b  => p (.bool b)
  | .int n   => p (.int n)
  | .float x => p (.float x)
  | .str s   => p (.str s)
def everyItem (p : Json → Bool) : List Json → Bool
  | []      => true
  | x :: xs => every p x && everyItem p xs
def everyMember (p : Json → Bool) : List (String × Json) → Bool
  | []           => true
  | (_, v) :: ms => every p v && everyMember p ms
end

end Json

variable (T : FloatText)

namespace Canonical

open Json

mutual
/-- What Python can hold: no object has a key twice, and finite floats are those of the machine. -/
def Held : Json → Prop
  | .float (.finite q) => T.IsFloat q
  | .list xs           => HeldItems xs
  | .dict ms           => (ms.map Prod.fst).Nodup ∧ HeldMembers ms
  | _                  => True
def HeldItems : List Json → Prop
  | []      => True
  | x :: xs => Held x ∧ HeldItems xs
def HeldMembers : List (String × Json) → Prop
  | []           => True
  | (_, v) :: ms => Held v ∧ HeldMembers ms
end

/-- `json.dumps(value, ensure_ascii=False, sort_keys=True, separators=(',', ':')).encode('utf-8')` of a
    value that can be printed. -/
def bytes (v : Json) : ByteArray := (String.ofList (text T v.sorted)).toUTF8

/-- The same, or `none` where `json.dumps` raises. -/
def dumps (v : Json) : Option ByteArray := if v.every isPrintable then some (bytes T v) else none

/-- `json.loads(payload.decode('utf-8'))` -/
def parse (payload : ByteArray) : Option Json :=
  match String.fromUTF8? payload with
  | some s => loads T s.toList
  | none   => none

variable {T}

mutual
theorem valid_of_held : ∀ v : Json, Held T v → v.every isPrintable = true → Valid T v
  | .null, _, _ => by rw [Valid]; trivial
  | .bool _, _, _ => by rw [Valid]; trivial
  | .str _, _, _ => by rw [Valid]; trivial
  | .int n, _, hp => by
      rw [every, isPrintable, decide_eq_true_eq] at hp
      rw [Valid]
      exact hp
  | .float (.finite q), hh, _ => by
      rw [Held] at hh
      rw [Valid]
      exact hh
  | .float .inf, _, hp => by rw [every] at hp; cases hp
  | .float .negInf, _, hp => by rw [every] at hp; cases hp
  | .float .nan, _, hp => by rw [every] at hp; cases hp
  | .list xs, hh, hp => by
      rw [Held] at hh
      rw [every, Bool.and_eq_true] at hp
      rw [Valid]
      exact validItems_of_held xs hh hp.2
  | .dict ms, hh, hp => by
      rw [Held] at hh
      rw [every, Bool.and_eq_true] at hp
      rw [Valid]
      exact ⟨hh.1, validMembers_of_held ms hh.2 hp.2⟩
theorem validItems_of_held : ∀ xs, HeldItems T xs → everyItem isPrintable xs = true → ValidItems T xs
  | [], _, _ => by rw [ValidItems]; trivial
  | x :: xs, hh, hp => by
      rw [HeldItems] at hh
      rw [everyItem, Bool.and_eq_true] at hp
      rw [ValidItems]
      exact ⟨valid_of_held x hh.1 hp.1, validItems_of_held xs hh.2 hp.2⟩
theorem validMembers_of_held :
    ∀ ms, HeldMembers T ms → everyMember isPrintable ms = true → ValidMembers T ms
  | [], _, _ => by rw [ValidMembers]; trivial
  | (k, v) :: ms, hh, hp => by
      rw [HeldMembers] at hh
      rw [everyMember, Bool.and_eq_true] at hp
      rw [ValidMembers]
      exact ⟨valid_of_held v hh.1 hp.1, validMembers_of_held ms hh.2 hp.2⟩
end

mutual
theorem printable_of_valid : ∀ v : Json, Valid T v → v.every isPrintable = true
  | .null, _ => by rw [every]; rfl
  | .bool _, _ => by rw [every]; rfl
  | .str _, _ => by rw [every]; rfl
  | .int n, h => by
      rw [Valid] at h
      rw [every, isPrintable, decide_eq_true_eq]
      exact h
  | .float (.finite q), _ => by rw [every]; rfl
  | .float .inf, h => by rw [Valid] at h; exact h.elim
  | .float .negInf, h => by rw [Valid] at h; exact h.elim
  | .float .nan, h => by rw [Valid] at h; exact h.elim
  | .list xs, h => by
      rw [Valid] at h
      rw [every, Bool.and_eq_true]
      exact ⟨rfl, printableItems_of_valid xs h⟩
  | .dict ms, h => by
      rw [Valid] at h
      rw [every, Bool.and_eq_true]
      exact ⟨rfl, printableMembers_of_valid ms h.2⟩
theorem printableItems_of_valid : ∀ xs, ValidItems T xs → everyItem isPrintable xs = true
  | [], _ => by rw [everyItem]
  | x :: xs, h => by
      rw [ValidItems] at h
      rw [everyItem, Bool.and_eq_true]
      exact ⟨printable_of_valid x h.1, printableItems_of_valid xs h.2⟩
theorem printableMembers_of_valid : ∀ ms, ValidMembers T ms → everyMember isPrintable ms = true
  | [], _ => by rw [everyMember]
  | (k, v) :: ms, h => by
      rw [ValidMembers] at h
      rw [everyMember, Bool.and_eq_true]
      exact ⟨printable_of_valid v h.1, printableMembers_of_valid ms h.2⟩
end

mutual
theorem valid_sorted : ∀ v : Json, Valid T v → Valid T v.sorted
  | .null, h | .bool _, h | .int _, h | .float _, h | .str _, h => by rwa [sorted]
  | .list xs, h => by
      rw [Valid] at h
      rw [sorted, Valid]
      exact validItems_sorted xs h
  | .dict ms, h => by
      rw [Valid] at h
      have hms := validMembers_sorted ms h.2
      have hperm := perm_sortMembers (sortedMembers ms)
      rw [sorted, valid_dict]
      constructor
      · rw [(hperm.map Prod.fst).nodup_iff, sortedMembers_eq, List.map_map]
        exact h.1
      · intro m hm
        exact validMembers_iff.mp hms m (hperm.mem_iff.mp hm)
theorem validItems_sorted : ∀ xs, ValidItems T xs → ValidItems T (sortedItems xs)
  | [], _ => by rw [sortedItems, ValidItems]; trivial
  | x :: xs, h => by
      rw [ValidItems] at h
      rw [sortedItems, ValidItems]
      exact ⟨valid_sorted x h.1, validItems_sorted xs h.2⟩
theorem validMembers_sorted : ∀ ms, ValidMembers T ms → ValidMembers T (sortedMembers ms)
  | [], _ => by rw [sortedMembers, ValidMembers]; trivial
  | (k, v) :: ms, h => by
      rw [ValidMembers] at h
      rw [sortedMembers, ValidMembers]
      exact ⟨valid_sorted v h.1, validMembers_sorted ms h.2⟩
end

theorem dumps_of_valid {v : Json} (h : Valid T v) : dumps T v = some (bytes T v) :=
  if_pos (printable_of_valid v h)

theorem bytes_sorted (v : Json) : bytes T v.sorted = bytes T v := by
  unfold bytes
  rw [sorted_sorted]

/-- **What was printed is read back**, with the keys of its objects sorted. -/
theorem parse_bytes {v : Json} (h : Valid T v) : parse T (bytes T v) = some v.sorted := by
  unfold parse bytes
  have hutf8 : ∀ s : String, String.fromUTF8? s.toUTF8 = some s := fun s => dif_pos s.isValidUTF8
  rw [hutf8]
  show loads T (String.ofList (text T v.sorted)).toList = _
  rw [String.toList_ofList]
  exact loads_text (valid_sorted v h)

theorem valid_of_parse {payload : ByteArray} {v : Json} (h : parse T payload = some v) : Valid T v := by
  unfold parse at h
  split at h
  · exact valid_of_loads h
  · cases h

theorem size_bytes (v : Json) : (bytes T v).size = (String.ofList (text T v.sorted)).utf8ByteSize := rfl

end Canonical
end Python
end PickleInfra
