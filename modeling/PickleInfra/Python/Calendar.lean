import Mathlib.Tactic.IntervalCases
import PickleInfra.Python.Clock
import PickleInfra.Python.Padded

/-!
# `Python.Calendar` — instants as ISO 8601 texts

`instant` prints milliseconds since 1970 as `YYYY-MM-DDTHH:MM:SS.mmmZ`, up to the end of the year 9999;
`instantMillis` reads such a text, and nothing else. `ackMillis` reads the same date and time with any
fraction of a second of up to nine digits, or none. `utcStamp` prints whole seconds.
-/

namespace PickleInfra
namespace Python
namespace Calendar

open Text Clock

/-! ## Dates -/

/-- The day number of a date counted from 1970-01-01, `civil` backwards. -/
def dayNumber (year month day : Int) : Int :=
  let y := if month ≤ 2 then year - 1 else year
  let mp := if month ≤ 2 then month + 9 else month - 3
  let yoe := y % 400
  y / 400 * 146097 + (365 * yoe + yoe / 4 - yoe / 100 + ((153 * mp + 2) / 5 + day - 1)) - 719468

/-- The day of the year that `civil` finds, with its bounds. -/
theorem dayOfYear_bounds {doe yoe : Int} (h0 : 0 ≤ doe) (h1 : doe ≤ 146096)
    (hyoe : yoe = (doe - doe / 1460 + doe / 36524 - doe / 146096) / 365) :
    (0 ≤ yoe ∧ yoe ≤ 399) ∧ 0 ≤ doe - (365 * yoe + yoe / 4 - yoe / 100) ∧
      doe - (365 * yoe + yoe / 4 - yoe / 100) ≤ 365 := by
  have hbounds : 0 ≤ yoe ∧ yoe ≤ 399 := by omega
  refine ⟨hbounds, ?_⟩
  -- The centuries are few: for each of them the bounds are linear.
  obtain ⟨hd0, hd1⟩ : 0 ≤ doe / 36524 ∧ doe / 36524 ≤ 4 := by omega
  obtain ⟨he0, he1⟩ : 0 ≤ doe / 146096 ∧ doe / 146096 ≤ 1 := by omega
  obtain ⟨hg0, hg1⟩ : 0 ≤ yoe / 100 ∧ yoe / 100 ≤ 3 := by omega
  generalize hd : doe / 36524 = d at *
  generalize he : doe / 146096 = e at *
  generalize hg : yoe / 100 = g at *
  interval_cases d <;> interval_cases e <;> interval_cases g <;> omega

/-- The month of a day of the year, counted from March, and the day in it. -/
theorem dayNumber_ofEra {era yoe doy : Int} (hyoe : 0 ≤ yoe ∧ yoe ≤ 399) (hdoy : 0 ≤ doy ∧ doy ≤ 365)
    {mp month : Int} (hmp : mp = (5 * doy + 2) / 153) (hmonth : month = if mp < 10 then mp + 3 else mp - 9) :
    dayNumber (yoe + era * 400 + (if month ≤ 2 then 1 else 0)) month (doy - (153 * mp + 2) / 5 + 1)
      = era * 146097 + (365 * yoe + yoe / 4 - yoe / 100 + doy) - 719468 := by
  have hmp' : 0 ≤ mp ∧ mp ≤ 11 := by omega
  unfold dayNumber
  by_cases hten : mp < 10
  · rw [if_pos hten] at hmonth
    have hlate : ¬ month ≤ 2 := by omega
    dsimp only
    rw [if_neg hlate, if_neg hlate, if_neg hlate]
    have hyear : (yoe + era * 400 + 0) % 400 = yoe ∧ (yoe + era * 400 + 0) / 400 = era := by omega
    have hback : month - 3 = mp := by omega
    rw [hyear.1, hyear.2, hback]
    omega
  · rw [if_neg hten] at hmonth
    have hearly : month ≤ 2 := by omega
    dsimp only
    rw [if_pos hearly, if_pos hearly, if_pos hearly]
    have hyear : (yoe + era * 400 + 1 - 1) % 400 = yoe ∧ (yoe + era * 400 + 1 - 1) / 400 = era := by omega
    have hback : month + 9 = mp := by omega
    rw [hyear.1, hyear.2, hback]
    omega

/-- **The day number of the date of a day** is the day. -/
theorem dayNumber_civil (z : Int) : dayNumber (civil z).1 (civil z).2.1 (civil z).2.2 = z := by
  have hdoe : 0 ≤ (z + 719468) % 146097 ∧ (z + 719468) % 146097 ≤ 146096 := by omega
  obtain ⟨hyoe, hdoy⟩ := dayOfYear_bounds hdoe.1 hdoe.2 rfl
  have h := @dayNumber_ofEra ((z + 719468) / 146097) _ _ hyoe hdoy _ _ rfl rfl
  unfold civil
  dsimp only
  rw [h]
  omega

theorem civil_bounds (z : Int) :
    (1 ≤ (civil z).2.1 ∧ (civil z).2.1 ≤ 12) ∧ 1 ≤ (civil z).2.2 ∧ (civil z).2.2 ≤ 31 := by
  have hdoe : 0 ≤ (z + 719468) % 146097 ∧ (z + 719468) % 146097 ≤ 146096 := by omega
  obtain ⟨-, hdoy⟩ := dayOfYear_bounds hdoe.1 hdoe.2 rfl
  unfold civil
  dsimp only
  generalize hdoy' : (z + 719468) % 146097 - _ = doy at hdoy ⊢
  have hmp : 0 ≤ (5 * doy + 2) / 153 ∧ (5 * doy + 2) / 153 ≤ 11 := by omega
  refine ⟨?_, ?_⟩
  · split <;> omega
  · omega

/-- The last day is 9999-12-31. -/
theorem civil_year {z : Int} (h0 : 0 ≤ z) (h1 : z ≤ 2932896) : 0 ≤ (civil z).1 ∧ (civil z).1 < 10000 := by
  have hdoe : 0 ≤ (z + 719468) % 146097 ∧ (z + 719468) % 146097 ≤ 146096 := by omega
  obtain ⟨hyoe, hdoy⟩ := dayOfYear_bounds hdoe.1 hdoe.2 rfl
  have hera : 4 ≤ (z + 719468) / 146097 ∧ (z + 719468) / 146097 ≤ 24 := by omega
  unfold civil
  dsimp only
  generalize hy : ((z + 719468) % 146097 - (z + 719468) % 146097 / 1460 + (z + 719468) % 146097 / 36524
    - (z + 719468) % 146097 / 146096) / 365 = yoe at hyoe hdoy ⊢
  generalize hd : (z + 719468) % 146097 = doe at hdoe hdoy ⊢
  generalize he : (z + 719468) / 146097 = era at hera ⊢
  have hlast : era = 24 → yoe = 399 → doe - (365 * yoe + yoe / 4 - yoe / 100) ≤ 305 := by omega
  generalize hdoy' : doe - (365 * yoe + yoe / 4 - yoe / 100) = doy at hdoy hlast ⊢
  -- The year 10000 would begin ten months after the March of the last year of the era.
  have hmonth : era = 24 → yoe = 399 → (5 * doy + 2) / 153 < 10 := by omega
  refine ⟨?_, ?_⟩
  · split <;> omega
  · by_cases hten : (5 * doy + 2) / 153 < 10
    · rw [if_pos hten, if_neg (by omega)]
      omega
    · rw [if_neg hten, if_pos (by omega)]
      omega

/-! ## Instants of milliseconds -/

/-- Milliseconds of `datetime.max`. -/
def lastInstant : Int := 253402300799999

/-- The text of an instant, in milliseconds. -/
def isoText (ms : Int) : List Char :=
  let (year, month, day) := civil (ms / 86400000)
  zfill 4 year.toNat ++ '-' :: (zfill 2 month.toNat ++ '-' :: (zfill 2 day.toNat ++ 'T' ::
    (zfill 2 (ms / 3600000 % 24).toNat ++ ':' :: (zfill 2 (ms / 60000 % 60).toNat ++ ':' ::
      (zfill 2 (ms / 1000 % 60).toNat ++ '.' :: (zfill 3 (ms % 1000).toNat ++ ['Z']))))))

/-- `(datetime(1970, 1, 1, tzinfo=utc) + timedelta(milliseconds=ms)).isoformat(timespec='milliseconds')`
    with `Z` for the offset, or `none` where it raises. -/
def instant (ms : Int) : Option String :=
  if 0 ≤ ms ∧ ms ≤ lastInstant then some (String.ofList (isoText ms)) else none

/-- The number that the digits at a place write. -/
def digitsAt (cs : List Char) (start count : Nat) : Int := digitsValue ((cs.drop start).take count)

/-- The seconds of the date and the time at the start of a text, counted from 1970. -/
def secondsAt (cs : List Char) : Int :=
  dayNumber (digitsAt cs 0 4) (digitsAt cs 5 2) (digitsAt cs 8 2) * 86400
    + digitsAt cs 11 2 * 3600 + digitsAt cs 14 2 * 60 + digitsAt cs 17 2

/-- The milliseconds of a text that `instant` prints. `datetime.fromisoformat` reads other texts too, but
    what it reads is printed again and compared. -/
def instantMillis (s : String) : Option Int :=
  let ms := secondsAt s.toList * 1000 + digitsAt s.toList 20 3
  if instant ms = some s then some ms else none

theorem instant_of_millis {s : String} {ms : Int} (h : instantMillis s = some ms) : instant ms = some s := by
  unfold instantMillis at h
  dsimp only at h
  split at h
  · next heq =>
    cases h
    exact heq
  · cases h

theorem length_four {l : List Char} (h : l.length = 4) : ∃ a b c d, l = [a, b, c, d] := by
  match l, h with
  | [a, b, c, d], _ => exact ⟨a, b, c, d, rfl⟩

/-- The fields of a text of the layout stand at their places. -/
theorem fields_at {year month day hour minute second milli : List Char} (h4 : year.length = 4)
    (h2 : month.length = 2) (h2' : day.length = 2) (hh : hour.length = 2) (hm : minute.length = 2)
    (hs : second.length = 2) (h3 : milli.length = 3) :
    let cs := year ++ '-' :: (month ++ '-' :: (day ++ 'T' :: (hour ++ ':' :: (minute ++ ':' ::
      (second ++ '.' :: (milli ++ ['Z']))))))
    cs.length = 24 ∧
    secondsAt cs = dayNumber (digitsValue year) (digitsValue month) (digitsValue day) * 86400
      + digitsValue hour * 3600 + digitsValue minute * 60 + digitsValue second ∧
    digitsAt cs 20 3 = digitsValue milli := by
  obtain ⟨y1, y2, y3, y4, rfl⟩ := length_four h4
  obtain ⟨m1, m2, rfl⟩ := List.length_eq_two.mp h2
  obtain ⟨d1, d2, rfl⟩ := List.length_eq_two.mp h2'
  obtain ⟨k1, k2, rfl⟩ := List.length_eq_two.mp hh
  obtain ⟨n1, n2, rfl⟩ := List.length_eq_two.mp hm
  obtain ⟨s1, s2, rfl⟩ := List.length_eq_two.mp hs
  obtain ⟨t1, t2, t3, rfl⟩ := List.length_eq_three.mp h3
  exact ⟨rfl, rfl, rfl⟩

/-- The lengths of the fields of an instant. -/
theorem field_lengths {ms : Int} (h0 : 0 ≤ ms) (h1 : ms ≤ lastInstant) :
    (zfill 4 (civil (ms / 86400000)).1.toNat).length = 4 ∧
    (zfill 2 (civil (ms / 86400000)).2.1.toNat).length = 2 ∧
    (zfill 2 (civil (ms / 86400000)).2.2.toNat).length = 2 ∧
    (zfill 2 (ms / 3600000 % 24).toNat).length = 2 ∧ (zfill 2 (ms / 60000 % 60).toNat).length = 2 ∧
    (zfill 2 (ms / 1000 % 60).toNat).length = 2 ∧ (zfill 3 (ms % 1000).toNat).length = 3 := by
  unfold lastInstant at h1
  have hyear := civil_year (z := ms / 86400000) (by omega) (by omega)
  have hday := civil_bounds (ms / 86400000)
  have hfour : (10 : Nat) ^ 4 = 10000 := rfl
  have htwo : (10 : Nat) ^ 2 = 100 := rfl
  have hthree : (10 : Nat) ^ 3 = 1000 := rfl
  refine ⟨?_, ?_, ?_, ?_, ?_, ?_, ?_⟩
  all_goals
    apply zfill_length
    · omega
    · omega

theorem isoText_length {ms : Int} (h0 : 0 ≤ ms) (h1 : ms ≤ lastInstant) : (isoText ms).length = 24 := by
  obtain ⟨hy, hm, hd, hh, hn, hs, ht⟩ := field_lengths h0 h1
  exact (fields_at hy hm hd hh hn hs ht).1

/-- **The text of an instant is read back.** -/
theorem instantMillis_instant {ms : Int} {s : String} (h : instant ms = some s) : instantMillis s = some ms := by
  unfold instant at h
  split at h
  next hrange =>
    obtain ⟨h0, h1⟩ := hrange
    cases h
    obtain ⟨hy, hm, hd, hh, hn, hs, ht⟩ := field_lengths h0 h1
    obtain ⟨-, hsec, hmilli⟩ := fields_at hy hm hd hh hn hs ht
    have hlast : ms ≤ 253402300799999 := h1
    have hyear := civil_year (z := ms / 86400000) (by omega) (by omega)
    have hday := civil_bounds (ms / 86400000)
    simp only [digitsValue_zfill] at hsec hmilli
    rw [Int.toNat_of_nonneg hyear.1, Int.toNat_of_nonneg (by omega), Int.toNat_of_nonneg (by omega),
      dayNumber_civil] at hsec
    have hms : secondsAt (isoText ms) * 1000 + digitsAt (isoText ms) 20 3 = ms := by
      unfold isoText
      dsimp only at hsec hmilli ⊢
      rw [hsec, hmilli]
      omega
    unfold instantMillis
    rw [String.toList_ofList]
    dsimp only
    rw [hms]
    exact if_pos (if_pos ⟨h0, h1⟩)
  next => cases h

theorem instant_range {ms : Int} {s : String} (h : instant ms = some s) : 0 ≤ ms ∧ ms ≤ lastInstant := by
  unfold instant at h
  split at h
  · next hrange => exact hrange
  · cases h

theorem instant_inj {a b : Int} {s : String} (ha : instant a = some s) (hb : instant b = some s) : a = b := by
  have ha' := instantMillis_instant ha
  rw [instantMillis_instant hb] at ha'
  exact (Option.some.inj ha').symm

/-! ## Stamps of seconds -/

/-- The text of a second, in UTC. -/
def stampText (seconds : Int) : List Char :=
  let (year, month, day) := civil (seconds / 86400)
  zfill 4 year.toNat ++ '-' :: (zfill 2 month.toNat ++ '-' :: (zfill 2 day.toNat ++ 'T' ::
    (zfill 2 (seconds / 3600 % 24).toNat ++ ':' :: (zfill 2 (seconds / 60 % 60).toNat ++ ':' ::
      (zfill 2 (seconds % 60).toNat ++ ['Z'])))))

/-- `datetime.fromtimestamp(seconds, timezone.utc).strftime('%Y-%m-%dT%H:%M:%SZ')`, or `none` where it
    raises. -/
def utcStamp (seconds : Int) : Option String :=
  if inRange seconds then some (String.ofList (stampText seconds)) else none

/-- The fields of a stamp stand at their places. -/
theorem stamp_fields {year month day hour minute second : List Char} (h4 : year.length = 4)
    (h2 : month.length = 2) (h2' : day.length = 2) (hh : hour.length = 2) (hm : minute.length = 2)
    (hs : second.length = 2) :
    secondsAt (year ++ '-' :: (month ++ '-' :: (day ++ 'T' :: (hour ++ ':' :: (minute ++ ':' ::
      (second ++ ['Z'])))))) = dayNumber (digitsValue year) (digitsValue month) (digitsValue day) * 86400
      + digitsValue hour * 3600 + digitsValue minute * 60 + digitsValue second := by
  obtain ⟨y1, y2, y3, y4, rfl⟩ := length_four h4
  obtain ⟨m1, m2, rfl⟩ := List.length_eq_two.mp h2
  obtain ⟨d1, d2, rfl⟩ := List.length_eq_two.mp h2'
  obtain ⟨k1, k2, rfl⟩ := List.length_eq_two.mp hh
  obtain ⟨n1, n2, rfl⟩ := List.length_eq_two.mp hm
  obtain ⟨s1, s2, rfl⟩ := List.length_eq_two.mp hs
  rfl

/-- **The text of a second is read back.** -/
theorem secondsAt_stampText {seconds : Int} (h : inRange seconds = true) :
    secondsAt (stampText seconds) = seconds := by
  unfold inRange at h
  simp only [Bool.and_eq_true, decide_eq_true_eq] at h
  have hday := civil_bounds (seconds / 86400)
  have hback := dayNumber_civil (seconds / 86400)
  have hfour : (10 : Nat) ^ 4 = 10000 := rfl
  have htwo : (10 : Nat) ^ 2 = 100 := rfl
  unfold stampText
  rcases hcivil : civil (seconds / 86400) with ⟨year, month, day⟩
  rw [hcivil] at h hday hback
  dsimp only at h hday hback ⊢
  have hwidth : ∀ {width : Nat} {n : Int}, 0 < width → n.toNat < 10 ^ width →
      (zfill width n.toNat).length = width := fun hpos hn => zfill_length hpos hn
  rw [stamp_fields (hwidth (by omega) (by omega)) (hwidth (by omega) (by omega))
    (hwidth (by omega) (by omega)) (hwidth (by omega) (by omega)) (hwidth (by omega) (by omega))
    (hwidth (by omega) (by omega))]
  simp only [digitsValue_zfill]
  rw [Int.toNat_of_nonneg (by omega), Int.toNat_of_nonneg (by omega), Int.toNat_of_nonneg (by omega),
    hback]
  omega

theorem utcStamp_inj {a b : Int} {s : String} (ha : utcStamp a = some s) (hb : utcStamp b = some s) :
    a = b := by
  unfold utcStamp at ha hb
  split at ha
  · next hra =>
    split at hb
    · next hrb =>
      cases ha
      have htext : stampText b = stampText a := String.ofList_injective (Option.some.inj hb)
      rw [← secondsAt_stampText hra, ← secondsAt_stampText hrb, htext]
    · cases hb
  · cases ha

/-! ## Instants with any fraction -/

def daysInMonth (year month : Int) : Int :=
  if month = 2 then
    if year % 4 = 0 ∧ (year % 100 ≠ 0 ∨ year % 400 = 0) then 29 else 28
  else if month = 4 ∨ month = 6 ∨ month = 9 ∨ month = 11 then 30 else 31

/-- The fields at the start of the text are a date and a time that exist. -/
def existsAt (cs : List Char) : Bool :=
  let year := digitsAt cs 0 4
  let month := digitsAt cs 5 2
  let day := digitsAt cs 8 2
  1 ≤ year && 1 ≤ month && month ≤ 12 && 1 ≤ day && day ≤ daysInMonth year month
    && digitsAt cs 11 2 < 24 && digitsAt cs 14 2 < 60 && digitsAt cs 17 2 < 60

/-- `\d{4}-\d\d-\d\dT\d\d:\d\d:\d\d`, with a `d` for a digit. -/
def layout : List Char :=
  ['d', 'd', 'd', 'd', '-', 'd', 'd', '-', 'd', 'd', 'T', 'd', 'd', ':', 'd', 'd', ':', 'd', 'd']

def fits (place c : Char) : Bool := if place = 'd' then isDigit c else place = c

/-- The digits of `(?:\.\d{1,9})?Z` over the whole text. -/
def fraction : List Char → Option (List Char)
  | ['Z']       => some []
  | '.' :: more =>
    if more.getLast? = some 'Z' ∧ more.dropLast.all isDigit = true ∧ 2 ≤ more.length ∧ more.length ≤ 10
    then some more.dropLast
    else none
  | _           => none

/-- Milliseconds of a text with any fraction, rounded down: the regular expression, and what
    `datetime.fromisoformat` refuses beyond it. -/
def ackMillis (s : String) : Option Int :=
  let cs := s.toList
  match fraction (cs.drop 19) with
  | none    => none
  | some ds =>
    if (layout.zip cs).all (fun p => fits p.1 p.2) = true ∧ existsAt cs = true
    then some (secondsAt cs * 1000 + digitsValue ((ds ++ ['0', '0', '0']).take 3))
    else none

example : ackMillis "1970-01-02T00:00:00.0349Z" = some 86400034 := by decide +kernel
example : ackMillis "2023-02-29T00:00:00Z" = none := by decide +kernel

end Calendar
end Python
end PickleInfra
