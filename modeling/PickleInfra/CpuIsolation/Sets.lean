import Mathlib.Data.Finset.Sort
import Mathlib.Data.Finset.Union
import PickleInfra.Python.Numeral
import PickleInfra.Python.Shlex
import PickleInfra.Python.Value

/-!
# `CpuIsolation.Sets` — CPU sets as texts

`cpus` reads a list of numbers and ranges, and `cpu_text` writes the numbers of a set in order. What is written is read
back.
-/

namespace PickleInfra
namespace CpuIsolation

open Python Numeral

/-- `IsolationError` with its text, and the exceptions of the language. -/
abbrev IsolationExn := Exn String

def need (condition : Bool) (reason : String) : Except IsolationExn Unit :=
  if condition then .ok () else .error (.own reason)

@[simp] theorem need_eq_ok {condition : Bool} {reason : String} {u : Unit} :
    need condition reason = .ok u ↔ condition = true := by
  cases condition
  · exact ⟨fun h => (by cases h), fun h => (by cases h)⟩
  · exact ⟨fun _ => rfl, fun _ => rfl⟩

/-! ## `cpus` -/

/-- `\\d`: a decimal digit of any script. -/
def isDecimal (c : Char) : Bool := Text.isDigit (Shlex.asciiDigit c)

/-- `\\d+` -/
def isNumber (digits : List Char) : Bool := !digits.isEmpty && digits.all isDecimal

/-- `int(x)` of decimal digits, of which there may be 4300 at most. -/
def int (digits : List Char) : Except IsolationExn Nat :=
  if 4300 < digits.length then .error .valueError else .ok (digitsValue (digits.map Shlex.asciiDigit))

/-- `\\d+(?:-\\d+)?`: the first and the last number of a part. -/
def ends (part : List Char) : Except IsolationExn (List Char × List Char) :=
  match part.splitOn '-' with
  | [a]    => if isNumber a then .ok (a, a) else .error (.own "Invalid nonempty CPU set")
  | [a, b] => if isNumber a && isNumber b then .ok (a, b) else .error (.own "Invalid nonempty CPU set")
  | _      => .error (.own "Invalid nonempty CPU set")

/-- The numbers of a part. -/
def rangeOf (part : List Char × List Char) : Except IsolationExn (List Nat) := do
  let start ← int part.1
  let stop ← int part.2
  need (start ≤ stop && stop ≤ 4095) "Invalid CPU range"
  return List.range' start (stop + 1 - start)

/-- The loop of `cpus`, and the check of the numbers it collected. -/
def collectRanges (parts : List (List Char × List Char)) : Except IsolationExn (Finset Nat) := do
  let values := (← parts.mapM rangeOf).flatten
  need (decide values.Nodup) "Repeated CPU in CPU set"
  return values.toFinset

/-- `cpus` -/
def cpus : Json → Except IsolationExn (Finset Nat)
  | .str text => do
    let parts ← (text.toList.splitOn ',').mapM ends
    collectRanges parts
  | _         => .error (.own "Invalid nonempty CPU set")

theorem insertionSort_eq {xs ys : List Nat} (h : xs.Perm ys) :
    xs.insertionSort (· ≤ ·) = ys.insertionSort (· ≤ ·) := by
  have hperm := (List.perm_insertionSort (· ≤ ·) xs).trans (h.trans (List.perm_insertionSort (· ≤ ·) ys).symm)
  exact hperm.eq_of_pairwise' (List.pairwise_insertionSort _ xs) (List.pairwise_insertionSort _ ys)

/-- `sorted(values)` -/
def sorted (values : Finset Nat) : List Nat :=
  Quotient.liftOn values.val (List.insertionSort (· ≤ ·)) fun _ _ h => insertionSort_eq h

theorem sorted_eq (values : Finset Nat) : sorted values = values.sort (· ≤ ·) := by
  obtain ⟨⟨xs⟩, hnodup⟩ := values
  have hperm : (List.insertionSort (· ≤ ·) xs).Perm (Finset.sort ⟨Quot.mk _ xs, hnodup⟩ (· ≤ ·)) :=
    (List.perm_insertionSort (· ≤ ·) xs).trans (Multiset.coe_eq_coe.mp (Finset.sort_eq _ _)).symm
  exact hperm.eq_of_pairwise' (List.pairwise_insertionSort _ xs) (Finset.pairwise_sort _ _)

/-- `cpu_text` -/
def cpuText (values : Finset Nat) : Except IsolationExn String := do
  need (decide values.Nonempty) "Empty or repeated CPU set"
  return String.ofList ([','].intercalate ((sorted values).map fun v => Nat.toDigits 10 v))

example : cpus (.str "0-2,5") = .ok {0, 1, 2, 5} := by decide +kernel
example : (cpus (.str "2,0-2")).toOption = none := by decide +kernel

/-! ## What is read of a text that was written -/

theorem digits_of_nat (n : Nat) : ∀ c ∈ Nat.toDigits 10 n, Text.isDigit c = true :=
  List.all_eq_true.mp (toDigits_isDigit n)

theorem map_asciiDigit (n : Nat) : (Nat.toDigits 10 n).map Shlex.asciiDigit = Nat.toDigits 10 n :=
  (List.map_congr_left fun c hc => Shlex.asciiDigit_of_isDigit (digits_of_nat n c hc)).trans (List.map_id _)

theorem isNumber_digits (n : Nat) : isNumber (Nat.toDigits 10 n) = true := by
  unfold isNumber
  rw [Bool.and_eq_true, Bool.not_eq_true', List.isEmpty_eq_false_iff, List.all_eq_true]
  refine ⟨Nat.toDigits_ne_nil, fun c hc => ?_⟩
  have hdigit := digits_of_nat n c hc
  unfold isDecimal
  rw [Shlex.asciiDigit_of_isDigit hdigit, hdigit]

/-- A small number is one part of its own. -/
theorem ends_digits (n : Nat) : ends (Nat.toDigits 10 n) = .ok (Nat.toDigits 10 n, Nat.toDigits 10 n) := by
  have hsplit : (Nat.toDigits 10 n).splitOn '-' = [Nat.toDigits 10 n] := by
    refine List.splitOn_eq_singleton ?_
    intro hdash
    have hdigit := digits_of_nat n '-' hdash
    exact absurd hdigit (by decide)
  unfold ends
  rw [hsplit]
  exact if_pos (isNumber_digits n)

theorem int_digits {n : Nat} (h : n ≤ 4095) : int (Nat.toDigits 10 n) = .ok n := by
  have hfour : (Nat.toDigits 10 n).length ≤ 4 :=
    (Nat.length_toDigits_le_iff (by decide) (by decide)).mpr (lt_of_le_of_lt h (by decide))
  have hlength : (Nat.toDigits 10 n).length ≤ 4300 := hfour.trans (by decide)
  unfold int
  rw [if_neg (not_lt.mpr hlength), map_asciiDigit, digitsValue_toDigits]

theorem rangeOf_digits {n : Nat} (h : n ≤ 4095) : rangeOf (Nat.toDigits 10 n, Nat.toDigits 10 n) = .ok [n] := by
  unfold rangeOf
  rw [int_digits h]
  simp only [bind_eq_ok, need_eq_ok]
  refine ⟨n, rfl, n, rfl, (), by simpa using h, ?_⟩
  rw [Nat.add_sub_cancel_left]
  rfl

/-- **What `cpu_text` writes, `cpus` reads back.** -/
theorem cpus_cpuText {values : Finset Nat} {text : String} (hvalues : ∀ v ∈ values, v ≤ 4095)
    (h : cpuText values = .ok text) : cpus (.str text) = .ok values := by
  unfold cpuText at h
  simp only [bind_eq_ok, need_eq_ok, decide_eq_true_eq, sorted_eq] at h
  obtain ⟨-, hne, h⟩ := h
  cases h
  have hmem : ∀ v ∈ values.sort (· ≤ ·), v ≤ 4095 := fun v hv => hvalues v ((Finset.mem_sort _).mp hv)
  have hsorted : values.sort (· ≤ ·) ≠ [] := by
    obtain ⟨v, hv⟩ := hne
    exact List.ne_nil_of_mem ((Finset.mem_sort _).mpr hv)
  have hsplit : ([','].intercalate ((values.sort (· ≤ ·)).map fun v => Nat.toDigits 10 v)).splitOn ',' =
      (values.sort (· ≤ ·)).map fun v => Nat.toDigits 10 v := by
    refine List.splitOn_intercalate ',' (fun ds hds hcomma => ?_) (by simpa using hsorted)
    obtain ⟨v, -, rfl⟩ := List.mem_map.mp hds
    exact absurd (digits_of_nat v ',' hcomma) (by decide)
  have hends : ((values.sort (· ≤ ·)).map fun v => Nat.toDigits 10 v).mapM ends =
      .ok ((values.sort (· ≤ ·)).map fun v => (Nat.toDigits 10 v, Nat.toDigits 10 v)) := by
    rw [mapM_eq_ok, List.forall₂_map_left_iff, List.forall₂_map_right_iff]
    exact List.forall₂_same.mpr fun v _ => ends_digits v
  have hranges : ((values.sort (· ≤ ·)).map fun v => (Nat.toDigits 10 v, Nat.toDigits 10 v)).mapM rangeOf =
      .ok ((values.sort (· ≤ ·)).map fun v => [v]) := by
    rw [mapM_eq_ok, List.forall₂_map_left_iff, List.forall₂_map_right_iff]
    exact List.forall₂_same.mpr fun v hv => rangeOf_digits (hmem v hv)
  unfold cpus
  dsimp only
  rw [String.toList_ofList, hsplit, hends]
  show collectRanges _ = _
  unfold collectRanges
  rw [hranges]
  have hflat : ((values.sort (· ≤ ·)).map fun v => [v]).flatten = values.sort (· ≤ ·) := by
    rw [← List.flatMap_def]
    exact List.flatMap_singleton' _
  simp only [bind_eq_ok, need_eq_ok, decide_eq_true_eq, Except.ok.injEq]
  refine ⟨_, rfl, (), ?_, ?_⟩
  · rw [hflat]
    exact Finset.sort_nodup _ _
  · show Except.ok _ = _
    rw [hflat, Finset.sort_toFinset]

/-- What is read is small. -/
theorem le_of_cpus {v : Json} {values : Finset Nat} (h : cpus v = .ok values) : ∀ n ∈ values, n ≤ 4095 := by
  unfold cpus at h
  split at h
  · unfold collectRanges at h
    simp only [bind_eq_ok] at h
    obtain ⟨parts, -, ranges, hranges, -, -, h⟩ := h
    cases h
    intro n hn
    rw [List.mem_toFinset, List.mem_flatten] at hn
    obtain ⟨range, hrange, hn⟩ := hn
    obtain ⟨part, -, hpart⟩ := forall₂_right (mapM_eq_ok.mp hranges) range hrange
    unfold rangeOf at hpart
    simp only [bind_eq_ok, need_eq_ok, Bool.and_eq_true, decide_eq_true_eq] at hpart
    obtain ⟨start, -, stop, -, -, ⟨hle, hmax⟩, hlist⟩ := hpart
    cases hlist
    have hbound := (List.mem_range'_1.mp hn).2
    omega
  · cases h

end CpuIsolation
end PickleInfra
