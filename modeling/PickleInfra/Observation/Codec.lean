import PickleInfra.Python.Padded

/-!
# `Observation.Codec` — the keys of records and the names of their files

A key is an epoch, written as `uuid` writes it, and a sequence. It is encoded in a file name by the 32
digits of the epoch and 16 digits of the sequence; `fullmatch` of `RECORD` takes a name apart again. The
two are inverse to each other (`Key.parse_name`, `Key.name_of_parse`).
-/

namespace PickleInfra
namespace Observation

open Python Python.Text

/-- `2**53 - 1` -/
def MAX_SEQUENCE : Nat := 2 ^ 53 - 1

/-! ## UUIDs -/

/-- `str(UUID(hex))` of 32 digits. -/
def hyphenated (hex : List Char) : List Char :=
  hex.take 8 ++ '-' :: ((hex.drop 8).take 4 ++ '-' :: ((hex.drop 12).take 4 ++ '-' ::
    ((hex.drop 16).take 4 ++ '-' :: hex.drop 20)))

/-- `UUID(value).hex` -/
def hexOf (value : String) : List Char := value.toList.filter (· ≠ '-')

def isHex32 (hex : List Char) : Bool := hex.length = 32 && hex.all isHex

/-- `str(UUID(value)) == value`: `UUID` reads other spellings too, and prints all of them in this one. -/
def isUuid (value : String) : Bool := isHex32 (hexOf value) && value.toList = hyphenated (hexOf value)

theorem isHex32_iff {hex : List Char} : isHex32 hex = true ↔ hex.length = 32 ∧ ∀ c ∈ hex, isHex c = true := by
  unfold isHex32
  rw [Bool.and_eq_true, decide_eq_true_eq, List.all_eq_true]

theorem ne_hyphen_of_isHex {c : Char} (h : isHex c = true) : c ≠ '-' := by
  rintro rfl
  exact absurd h (by decide)

/-- The digits are kept by the hyphens. -/
theorem filter_hyphenated {hex : List Char} (h : isHex32 hex = true) :
    (hyphenated hex).filter (· ≠ '-') = hex := by
  have hall : ∀ part : List Char, part ⊆ hex → part.filter (· ≠ '-') = part := by
    intro part hpart
    rw [List.filter_eq_self]
    intro c hc
    rw [decide_eq_true_eq]
    exact ne_hyphen_of_isHex ((isHex32_iff.mp h).2 c (hpart hc))
  have htake : ∀ n m, (hex.drop n).take m ⊆ hex := fun n m =>
    List.Subset.trans (List.take_subset _ _) (List.drop_subset _ _)
  have hhyphen : ∀ rest : List Char, ('-' :: rest).filter (· ≠ '-') = rest.filter (· ≠ '-') := fun _ =>
    List.filter_cons_of_neg (by decide)
  unfold hyphenated
  simp only [List.filter_append, hhyphen]
  rw [hall _ (List.take_subset 8 hex), hall _ (htake 8 4), hall _ (htake 12 4), hall _ (htake 16 4),
    hall _ (List.drop_subset 20 hex)]
  have hjoin : ∀ n m, (hex.drop n).take m ++ hex.drop (n + m) = hex.drop n := by
    intro n m
    rw [← List.drop_drop, List.take_append_drop]
  rw [hjoin 16 4, hjoin 12 4, hjoin 8 4, List.take_append_drop]

theorem isUuid_hyphenated {hex : List Char} (h : isHex32 hex = true) :
    isUuid (String.ofList (hyphenated hex)) = true ∧ hexOf (String.ofList (hyphenated hex)) = hex := by
  have hhex : hexOf (String.ofList (hyphenated hex)) = hex := by
    unfold hexOf
    rw [String.toList_ofList, filter_hyphenated h]
  refine ⟨?_, hhex⟩
  unfold isUuid
  rw [hhex, h, String.toList_ofList]
  exact decide_eq_true rfl

theorem isUuid_iff {value : String} :
    isUuid value = true ↔ isHex32 (hexOf value) = true ∧ value = String.ofList (hyphenated (hexOf value)) := by
  unfold isUuid
  rw [Bool.and_eq_true, decide_eq_true_eq]
  constructor
  · rintro ⟨hhex, hlist⟩
    exact ⟨hhex, by rw [← hlist, String.ofList_toList]⟩
  · rintro ⟨hhex, hvalue⟩
    refine ⟨hhex, ?_⟩
    conv_lhs => rw [hvalue, String.toList_ofList]

/-! ## Names -/

/-- The characters around the digits of a name. -/
def nameOf (hex digits : List Char) : List Char :=
  ['s', 'a', 'm', 'p', 'l', 'e', '-'] ++ (hex ++ '-' :: (digits ++ ['.', 'j', 's', 'o', 'n']))

/-- `sample-([a-f0-9]{32})-([0-9]{16})\.json\Z` over the whole name: the digits of the epoch and those of
    the sequence. -/
def RECORD (name : String) : Option (List Char × List Char) :=
  let hex := (name.toList.drop 7).take 32
  let digits := (name.toList.drop 40).take 16
  if isHex32 hex = true ∧ digits.length = 16 ∧ digits.all isDigit = true ∧ name.toList = nameOf hex digits
  then some (hex, digits)
  else none

theorem RECORD_nameOf {hex digits : List Char} (hhex : isHex32 hex = true) (hlen : digits.length = 16)
    (hdigits : digits.all isDigit = true) : RECORD (String.ofList (nameOf hex digits)) = some (hex, digits) := by
  have hlen32 := (isHex32_iff.mp hhex).1
  have hhex' : ((nameOf hex digits).drop 7).take 32 = hex := by
    show (hex ++ '-' :: (digits ++ ['.', 'j', 's', 'o', 'n'])).take 32 = hex
    rw [← hlen32, List.take_left]
  have hdigits' : ((nameOf hex digits).drop 40).take 16 = digits := by
    show ((hex ++ '-' :: (digits ++ ['.', 'j', 's', 'o', 'n'])).drop 33).take 16 = digits
    have hsplit : hex ++ '-' :: (digits ++ ['.', 'j', 's', 'o', 'n'])
        = (hex ++ ['-']) ++ (digits ++ ['.', 'j', 's', 'o', 'n']) := by simp
    have h33 : (hex ++ ['-']).length = 33 := by rw [List.length_append, hlen32]; rfl
    rw [hsplit, ← h33, List.drop_left, ← hlen, List.take_left]
  unfold RECORD
  rw [String.toList_ofList]
  dsimp only
  rw [hhex', hdigits', if_pos ⟨hhex, hlen, hdigits, rfl⟩]

theorem RECORD_eq_some {name : String} {hex digits : List Char} (h : RECORD name = some (hex, digits)) :
    isHex32 hex = true ∧ digits.length = 16 ∧ digits.all isDigit = true ∧
      name = String.ofList (nameOf hex digits) := by
  unfold RECORD at h
  dsimp only at h
  split at h
  · next hname =>
    cases h
    obtain ⟨hhex, hlen, hdigits, hlist⟩ := hname
    exact ⟨hhex, hlen, hdigits, by rw [← hlist, String.ofList_toList]⟩
  · cases h

/-! ## Keys -/

/-- The key of a record. -/
structure Key where
  epoch : String
  sequence : Nat
  epoch_uuid : isUuid epoch = true
  sequence_le : sequence ≤ MAX_SEQUENCE
deriving DecidableEq

namespace Key

@[ext] theorem ext {a b : Key} (he : a.epoch = b.epoch) (hs : a.sequence = b.sequence) : a = b := by
  cases a
  cases b
  cases he
  cases hs
  rfl

/-- `f'sample-{UUID(epoch).hex}-{sequence:016d}.json'` -/
def name (k : Key) : String := String.ofList (nameOf (hexOf k.epoch) (zfill 16 k.sequence))

/-- The key of a name: `str(UUID(match[1]))` and `int(match[2])`. -/
def parse (name : String) : Option Key :=
  match h : RECORD name with
  | none               => none
  | some (hex, digits) =>
    if hle : digitsValue digits ≤ MAX_SEQUENCE then
      some { epoch := String.ofList (hyphenated hex), sequence := digitsValue digits
             epoch_uuid := (isUuid_hyphenated (RECORD_eq_some h).1).1, sequence_le := hle }
    else none

theorem sequence_lt (k : Key) : k.sequence < 10 ^ 16 := by
  have hle := k.sequence_le
  have hmax : MAX_SEQUENCE < 10 ^ 16 := by decide
  omega

theorem RECORD_name (k : Key) : RECORD k.name = some (hexOf k.epoch, zfill 16 k.sequence) :=
  RECORD_nameOf (isUuid_iff.mp k.epoch_uuid).1 (zfill_length (by decide) k.sequence_lt) (zfill_digits _ _)

/-- What a name says is the key it was made of. -/
theorem epoch_of_name (k : Key) : String.ofList (hyphenated (hexOf k.epoch)) = k.epoch :=
  (isUuid_iff.mp k.epoch_uuid).2.symm

/-- **A name is taken apart into the key it was made of.** -/
theorem parse_name (k : Key) : parse k.name = some k := by
  unfold parse
  split
  · next h => rw [RECORD_name] at h; cases h
  · next hex digits h =>
    rw [RECORD_name] at h
    cases h
    have hvalue : digitsValue (zfill 16 k.sequence) = k.sequence := digitsValue_zfill _ _
    rw [dif_pos (by rw [hvalue]; exact k.sequence_le)]
    exact congrArg some (Key.ext k.epoch_of_name hvalue)

/-- **A name that can be taken apart is the name of its key.** -/
theorem name_of_parse {s : String} {k : Key} (h : parse s = some k) : k.name = s := by
  unfold parse at h
  split at h
  · cases h
  · next hex digits hrecord =>
    obtain ⟨hhex, hlen, hdigits, hs⟩ := RECORD_eq_some hrecord
    split at h
    · rw [← Option.some.inj h]
      show String.ofList (nameOf (hexOf (String.ofList (hyphenated hex))) (zfill 16 (digitsValue digits))) = s
      have hpad : zfill 16 (digitsValue digits) = digits := by
        rw [← hlen]
        exact zfill_digitsValue (by omega) hdigits
      rw [(isUuid_hyphenated hhex).2, hpad, hs]
    · cases h

theorem name_inj {a b : Key} (h : a.name = b.name) : a = b := by
  have ha := parse_name a
  rw [h, parse_name b] at ha
  exact (Option.some.inj ha).symm

end Key

end Observation
end PickleInfra
