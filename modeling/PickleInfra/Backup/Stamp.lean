import PickleInfra.Python.Isoformat
import PickleInfra.Python.Shlex
import PickleInfra.Python.Url

/-!
# `Backup.Stamp` — names of snapshots, as another program reads them

The name is matched as a text, and its stamp parsed by `strptime`. A digit may be one of any script, where the pattern of
a field of `strptime` allows it.
-/

namespace PickleInfra
namespace Backup
namespace Stamp

open Python Text Numeral Clock Calendar

/-- `\d` -/
def isDecimal (c : Char) : Bool := isDigit (Shlex.asciiDigit c)

/-- `\d{4}-\d{2}-\d{2}T\d{2}:\d{2}:\d{2}Z`, with a `d` for a digit. -/
def places : List Char :=
  ['d', 'd', 'd', 'd', '-', 'd', 'd', '-', 'd', 'd', 'T', 'd', 'd', ':', 'd', 'd', ':', 'd', 'd', 'Z']

def fits (place c : Char) : Bool := if place = 'd' then isDecimal c else place = c

def isStamp (cs : List Char) : Bool := cs.length = places.length && (places.zip cs).all fun p => fits p.1 p.2

def isGroupChar (c : Char) : Bool := Url.isAsciiAlpha c || isDigit c

/-- `[A-Za-z0-9][A-Za-z0-9._-]{0,63}` -/
def isGroup (s : String) : Bool :=
  fullmatchFirst isGroupChar (fun c => isGroupChar c || c = '.' || c = '_' || c = '-') 63 s

/-- `host/[A-Za-z0-9][A-Za-z0-9._-]{0,63}/\d{4}-\d{2}-\d{2}T\d{2}:\d{2}:\d{2}Z` -/
def isSnapshot (s : String) : Bool :=
  match s.toList.splitOn '/' with
  | [host, group, stamp] => host = "host".toList && isGroup (String.ofList group) && isStamp stamp
  | _                    => false

/-- `snapshot.rsplit('/', 1)[1]` -/
def rest (cs : List Char) : List Char := (cs.splitOn '/').getLast?.getD []

/-! ## `strptime` -/

/-- `int(x)` of the digits of a field. -/
def value (ds : List Char) : Nat := digitsValue (ds.map Shlex.asciiDigit)

/-- `1[0-2]|0[1-9]` -/
def isMonth : List Char → Bool
  | ['1', b] => b = '0' || b = '1' || b = '2'
  | ['0', b] => isDigit b && b ≠ '0'
  | _        => false

/-- `3[0-1]|[1-2]\d|0[1-9]` -/
def isDay : List Char → Bool
  | ['3', b] => b = '0' || b = '1'
  | ['1', b] => isDecimal b
  | ['2', b] => isDecimal b
  | ['0', b] => isDigit b && b ≠ '0'
  | _        => false

/-- `2[0-3]|[0-1]\d` -/
def isHour : List Char → Bool
  | ['2', b] => b = '0' || b = '1' || b = '2' || b = '3'
  | ['0', b] => isDecimal b
  | ['1', b] => isDecimal b
  | _        => false

/-- `[0-5]\d`, of minutes. Seconds may be 60 or 61 to the pattern, but there are no such times. -/
def isSixtieth : List Char → Bool
  | [a, b] => '0' ≤ a && a ≤ '5' && isDecimal b
  | _      => false

/-- `datetime.strptime(text, '%Y-%m-%dT%H:%M:%SZ')` of a text that fits its places, as seconds. -/
def strptime (cs : List Char) : Option Int :=
  let month := (cs.drop 5).take 2
  let day := (cs.drop 8).take 2
  let hour := (cs.drop 11).take 2
  let minute := (cs.drop 14).take 2
  let second := (cs.drop 17).take 2
  if isMonth month && isDay day && isHour hour && isSixtieth minute && isSixtieth second then
    (Isoformat.existing (value (cs.take 4)) (value month) (value day)).map fun days =>
      days * 86400 + value hour * 3600 + value minute * 60 + value second
  else none

example : strptime "2024-02-29T23:59:59Z".toList = some 1709251199 := by decide +kernel
example : strptime "2023-02-29T00:00:00Z".toList = none := by decide +kernel

/-! ## Stamps that were printed -/

theorem asciiDigit_zfill (width n : Nat) : (zfill width n).map Shlex.asciiDigit = zfill width n :=
  (List.map_congr_left fun c hc => Shlex.asciiDigit_of_isDigit (List.all_eq_true.mp (zfill_digits width n) c hc)).trans
    (List.map_id _)

theorem value_zfill (width n : Nat) : value (zfill width n) = n := by
  unfold value
  rw [asciiDigit_zfill, digitsValue_zfill]

theorem isMonth_zfill {n : Nat} (h : 1 ≤ n ∧ n ≤ 12) : isMonth (zfill 2 n) = true := by
  have hall : ∀ n ∈ List.range' 1 12, isMonth (zfill 2 n) = true := by decide
  exact hall n (List.mem_range'_1.mpr ⟨h.1, by omega⟩)

theorem isDay_zfill {n : Nat} (h : 1 ≤ n ∧ n ≤ 31) : isDay (zfill 2 n) = true := by
  have hall : ∀ n ∈ List.range' 1 31, isDay (zfill 2 n) = true := by decide +kernel
  exact hall n (List.mem_range'_1.mpr ⟨h.1, by omega⟩)

theorem isHour_zfill {n : Nat} (h : n < 24) : isHour (zfill 2 n) = true := by
  have hall : ∀ n ∈ List.range 24, isHour (zfill 2 n) = true := by decide +kernel
  exact hall n (List.mem_range.mpr h)

theorem isSixtieth_zfill {n : Nat} (h : n < 60) : isSixtieth (zfill 2 n) = true := by
  have hall : ∀ n ∈ List.range 60, isSixtieth (zfill 2 n) = true := by decide +kernel
  exact hall n (List.mem_range.mpr h)

section Fields

variable {year month day hour minute second : List Char}

/-- The fields of a stamp stand at their places. -/
theorem strptime_fields (h4 : year.length = 4) (h2 : month.length = 2) (h2' : day.length = 2) (hh : hour.length = 2)
    (hm : minute.length = 2) (hs : second.length = 2) :
    strptime (year ++ '-' :: (month ++ '-' :: (day ++ 'T' :: (hour ++ ':' :: (minute ++ ':' :: (second ++ ['Z'])))))) =
      if isMonth month && isDay day && isHour hour && isSixtieth minute && isSixtieth second then
        (Isoformat.existing (value year) (value month) (value day)).map fun days : Int =>
          days * 86400 + value hour * 3600 + value minute * 60 + value second
      else none := by
  obtain ⟨y1, y2, y3, y4, rfl⟩ := length_four h4
  obtain ⟨m1, m2, rfl⟩ := List.length_eq_two.mp h2
  obtain ⟨d1, d2, rfl⟩ := List.length_eq_two.mp h2'
  obtain ⟨k1, k2, rfl⟩ := List.length_eq_two.mp hh
  obtain ⟨n1, n2, rfl⟩ := List.length_eq_two.mp hm
  obtain ⟨s1, s2, rfl⟩ := List.length_eq_two.mp hs
  rfl

theorem isStamp_fields (h4 : year.length = 4) (h2 : month.length = 2) (h2' : day.length = 2) (hh : hour.length = 2)
    (hm : minute.length = 2) (hs : second.length = 2)
    (hdigits : (year ++ month ++ day ++ hour ++ minute ++ second).all isDecimal = true) :
    isStamp (year ++ '-' :: (month ++ '-' :: (day ++ 'T' :: (hour ++ ':' :: (minute ++ ':' :: (second ++ ['Z'])))))) =
      true := by
  obtain ⟨y1, y2, y3, y4, rfl⟩ := length_four h4
  obtain ⟨m1, m2, rfl⟩ := List.length_eq_two.mp h2
  obtain ⟨d1, d2, rfl⟩ := List.length_eq_two.mp h2'
  obtain ⟨k1, k2, rfl⟩ := List.length_eq_two.mp hh
  obtain ⟨n1, n2, rfl⟩ := List.length_eq_two.mp hm
  obtain ⟨s1, s2, rfl⟩ := List.length_eq_two.mp hs
  simp only [List.cons_append, List.nil_append, List.all_cons, List.all_nil, Bool.and_true, Bool.and_eq_true] at hdigits
  simp only [isStamp, places, fits, List.cons_append, List.nil_append, List.length_cons, List.length_nil,
    List.zip_cons_cons, List.zip_nil_right, List.all_cons, List.all_nil, hdigits, Char.reduceEq, if_true, if_false,
    decide_true, Bool.and_self]

end Fields

theorem isDecimal_of_isDigit {c : Char} (h : isDigit c = true) : isDecimal c = true := by
  unfold isDecimal
  rw [Shlex.asciiDigit_of_isDigit h, h]

theorem zfill_decimals (width n : Nat) : (zfill width n).all isDecimal = true :=
  List.all_eq_true.mpr fun c hc => isDecimal_of_isDigit (List.all_eq_true.mp (zfill_digits width n) c hc)

/-- **A stamp that was printed** is one to the pattern. -/
theorem isStamp_stampText {seconds : Int} (h : inRange seconds = true) : isStamp (stampText seconds) = true := by
  unfold inRange at h
  simp only [Bool.and_eq_true, decide_eq_true_eq] at h
  have hday := civil_bounds (seconds / 86400)
  unfold stampText
  rcases hcivil : civil (seconds / 86400) with ⟨year, month, day⟩
  rw [hcivil] at h hday
  dsimp only at h hday ⊢
  apply isStamp_fields
  · exact zfill_length (by omega) (by omega)
  · exact zfill_length (by omega) (by omega)
  · exact zfill_length (by omega) (by omega)
  · exact zfill_length (by omega) (by omega)
  · exact zfill_length (by omega) (by omega)
  · exact zfill_length (by omega) (by omega)
  · simp only [List.all_append, zfill_decimals, Bool.and_self]

/-- **A stamp that was printed is parsed** to its second. -/
theorem strptime_stampText {seconds : Int} (h : inRange seconds = true) : strptime (stampText seconds) = some seconds := by
  unfold inRange at h
  simp only [Bool.and_eq_true, decide_eq_true_eq] at h
  have hday := civil_bounds (seconds / 86400)
  have hback := dayNumber_civil (seconds / 86400)
  unfold stampText
  rcases hcivil : civil (seconds / 86400) with ⟨year, month, day⟩
  rw [hcivil] at h hday hback
  dsimp only at h hday hback ⊢
  rw [strptime_fields (zfill_length (by omega) (by omega)) (zfill_length (by omega) (by omega))
    (zfill_length (by omega) (by omega)) (zfill_length (by omega) (by omega)) (zfill_length (by omega) (by omega))
    (zfill_length (by omega) (by omega)), isMonth_zfill (by omega), isDay_zfill (by omega), isHour_zfill (by omega),
    isSixtieth_zfill (by omega), isSixtieth_zfill (by omega)]
  simp only [Bool.and_self, if_true, value_zfill]
  rw [Int.toNat_of_nonneg (show 0 ≤ year by omega), Int.toNat_of_nonneg (show 0 ≤ month by omega),
    Int.toNat_of_nonneg (show 0 ≤ day by omega)]
  unfold Isoformat.existing
  rw [hback, if_pos ⟨h.1, h.2, hcivil⟩, Option.map_some]
  congr 1
  omega

/-! ## Names that were printed -/

theorem splitOn_three {a b c : List Char} (ha : '/' ∉ a) (hb : '/' ∉ b) (hc : '/' ∉ c) :
    (a ++ '/' :: (b ++ '/' :: c)).splitOn '/' = [a, b, c] := by
  rw [List.splitOn_append_cons_self_of_not_mem ha, List.splitOn_append_cons_self_of_not_mem hb,
    List.splitOn_eq_singleton hc]

theorem not_slash_of_isStamp {cs : List Char} (h : isStamp cs = true) : '/' ∉ cs := by
  intro hmem
  unfold isStamp at h
  rw [Bool.and_eq_true, decide_eq_true_eq, List.all_eq_true] at h
  obtain ⟨i, hi, hget⟩ := List.getElem_of_mem hmem
  have hp : i < places.length := h.1 ▸ hi
  have hfits := h.2 (places[i], cs[i]) (List.mem_iff_getElem.mpr ⟨i, by simpa using ⟨hp, hi⟩, by simp⟩)
  rw [hget] at hfits
  have hdecimal : isDecimal '/' = false := by decide +kernel
  have hslash : '/' ∉ places := by decide
  have hall : ∀ place ∈ places, fits place '/' = false := by
    intro place hplace
    unfold fits
    split
    · exact hdecimal
    · exact decide_eq_false fun heq => hslash (heq ▸ hplace)
  rw [hall _ (List.getElem_mem hp)] at hfits
  exact Bool.noConfusion hfits

end Stamp
end Backup
end PickleInfra
