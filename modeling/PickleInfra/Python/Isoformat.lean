import PickleInfra.Python.Calendar

/-!
# `Python.Isoformat` — `datetime.isoformat` in UTC, and `datetime.fromisoformat`

The reader takes the ISO 8601 forms of the language's documentation, with or without separators, week dates and
offsets, and the leniency of its C code: what follows the last field it reads is only refused at the end of the
text. A text that `isoformat` wrote is read back to the microsecond.
-/

namespace PickleInfra
namespace Python
namespace Isoformat

open Text Clock Calendar Numeral

/-! ## Moments -/

/-- A `datetime`: the microseconds of its own clock since 1970, and the offset of that clock if it has one. -/
structure Moment where
  wall : Int
  offset : Option Int
deriving DecidableEq, Repr

/-- `tzinfo is not None` -/
def Moment.isAware (m : Moment) : Bool := m.offset.isSome

/-- The microseconds since 1970 in UTC. -/
def Moment.instant (m : Moment) : Int := m.wall - m.offset.getD 0

/-- A `datetime` in UTC, as `datetime.now(timezone.utc)` returns it. -/
structure Utc where
  micros : Int
  exists_ : inRange (micros / 1000000) = true

/-! ## Writing -/

def dateText (days : Int) : List Char :=
  let (year, month, day) := civil days
  zfill 4 year.toNat ++ '-' :: (zfill 2 month.toNat ++ '-' :: zfill 2 day.toNat)

/-- Hours, minutes, seconds, and microseconds if there are any. -/
def clockText (micros : Int) : List Char :=
  zfill 2 (micros / 3600000000).toNat ++ ':' :: (zfill 2 (micros / 60000000 % 60).toNat ++ ':' ::
    (zfill 2 (micros / 1000000 % 60).toNat ++
      if micros % 1000000 = 0 then [] else '.' :: zfill 6 (micros % 1000000).toNat))

/-- The microseconds of a day. -/
def dayMicros : Int := 86400000000

def isoText (micros : Int) : List Char :=
  dateText (micros / dayMicros) ++ 'T' :: (clockText (micros % dayMicros) ++ ['+', '0', '0', ':', '0', '0'])

/-- `now.isoformat()` -/
def isoformat (now : Utc) : String := String.ofList (isoText now.micros)

/-! ## Reading -/

/-- A number of exactly so many digits. -/
def number (width : Nat) (cs : List Char) : Option (Nat × List Char) :=
  if (cs.take width).length = width ∧ (cs.take width).all isDigit = true
  then some (digitsValue (cs.take width), cs.drop width)
  else none

/-- Where the date of a text ends. -/
def separator (cs : List Char) : Option Nat :=
  let at? (n : Nat) : Option Char := cs[n]?
  if cs.length = 7 then some 7
  else if at? 4 = some '-' then
    if at? 5 = some 'W' then
      if at? 8 = some '-' then
        if cs.length = 9 then none
        else if (at? 10).any isDigit then some 8 else some 10
      else some 8
    else some 10
  else if at? 4 = some 'W' then
    let stop := 7 + ((cs.drop 7).takeWhile isDigit).length
    if stop < 9 then some stop else if stop % 2 = 0 then some 7 else some 8
  else some 8

/-- The Monday of the first week of a year, as a day number: the week with its fourth of January. -/
def firstMonday (year : Int) : Int :=
  let fourth := dayNumber year 1 4
  fourth - (fourth + 3) % 7

/-- The day of a date that exists. -/
def existing (year month day : Int) : Option Int :=
  if 1 ≤ year ∧ year ≤ 9999 ∧ civil (dayNumber year month day) = (year, month, day)
  then some (dayNumber year month day) else none

/-- The day of a week that exists. -/
def weekDay (year week day : Int) : Option Int :=
  let monday := firstMonday year + (week - 1) * 7
  if 1 ≤ year ∧ year ≤ 9999 ∧ 1 ≤ week ∧ monday < firstMonday (year + 1) ∧ 1 ≤ day ∧ day ≤ 7 ∧
      1 ≤ (civil (monday + (day - 1))).1 ∧ (civil (monday + (day - 1))).1 ≤ 9999
  then some (monday + (day - 1)) else none

/-- The day of the date in the characters before the separator. -/
def readDate (cs : List Char) : Option Int := do
  let (year, cs) ← number 4 cs
  let dashed := cs.head? = some '-'
  let cs := if dashed then cs.tail else cs
  if cs.head? = some 'W' then do
    let (week, cs) ← number 2 cs.tail
    if cs.isEmpty then weekDay year week 1
    else do
      let cs ← if dashed then dropChar? '-' cs else some cs
      let (day, _) ← number 1 cs
      weekDay year week day
  else do
    let (month, cs) ← number 2 cs
    let cs ← if dashed then dropChar? '-' cs else some cs
    let (day, _) ← number 2 cs
    existing year month day

/-- The fields of a clock, and whether its text ended with them. -/
structure Reading where
  hour : Nat
  minute : Nat := 0
  second : Nat := 0
  micros : Nat := 0
  clean : Bool := true
deriving DecidableEq, Repr

/-- The digits after a decimal mark: six of them are kept. -/
def readFraction (cs : List Char) : Option (Nat × Bool) :=
  if cs.isEmpty then some (0, false)
  else do
    let (value, rest) ← number (min 6 cs.length) cs
    some (value * 10 ^ (6 - min 6 cs.length), (rest.dropWhile isDigit).isEmpty)

def Reading.withFraction (r : Reading) (cs : List Char) : Option Reading :=
  (readFraction cs).map fun f => { r with micros := f.1, clean := f.2 }

/-- The seconds after the minutes. -/
def readSeconds (colons : Bool) (r : Reading) (cs : List Char) : Option Reading := do
  let (second, cs) ← number 2 cs
  match cs with
  | []        => some { r with second }
  | c :: rest =>
    -- A colon after the seconds, or no mark at all, is followed by a fraction.
    if rest.isEmpty then some { r with second, clean := false }
    else if (colons && c = ':') || c = '.' || c = ',' then Reading.withFraction { r with second } rest
    else if colons then none
    else Reading.withFraction { r with second } cs

/-- The minutes after the hours. -/
def readMinutes (colons : Bool) (r : Reading) (cs : List Char) : Option Reading := do
  let (minute, cs) ← number 2 cs
  match cs with
  | []        => some { r with minute }
  | c :: rest =>
    if rest.isEmpty then some { r with minute, clean := false }
    else if colons && c = ':' then readSeconds colons { r with minute } rest
    else if c = '.' || c = ',' then Reading.withFraction { r with minute } rest
    else if colons then none
    else readSeconds colons { r with minute } cs

/-- `HH[:MM[:SS[.f]]]`, or the same without colons. -/
def readClock (cs : List Char) : Option Reading := do
  let (hour, cs) ← number 2 cs
  match cs with
  | []        => some { hour }
  | c :: rest =>
    if rest.isEmpty then some { hour, clean := false }
    else if c = ':' then readMinutes true { hour } rest
    else if c = '.' || c = ',' then Reading.withFraction { hour } rest
    else readMinutes false { hour } cs

/-- The microseconds that a clock shows. -/
def Reading.total (r : Reading) : Int :=
  ((r.hour * 60 + r.minute) * 60 + r.second) * 1000000 + r.micros

def startsOffset (c : Char) : Bool := c = '+' || c = '-' || c = 'Z'

/-- The offset after the clock, whose sign is its first character. -/
def readOffset : List Char → Option Int
  | 'Z' :: rest  => if rest.isEmpty then some 0 else none
  | sign :: rest => do
    let r ← readClock rest
    if r.clean = true ∧ r.total < dayMicros then some (if sign = '-' then -r.total else r.total) else none
  | []           => none

/-- The time of day after the separator. -/
def readTime (cs : List Char) : Option (Int × Option Int) := do
  let r ← readClock (cs.takeWhile fun c => !startsOffset c)
  if r.hour < 24 ∧ r.minute < 60 ∧ r.second < 60 then
    match cs.dropWhile fun c => !startsOffset c with
    | []        => if r.clean = true then some (r.total, none) else none
    | c :: rest => (readOffset (c :: rest)).map fun offset => (r.total, some offset)
  else none

/-- `datetime.fromisoformat(text)`, or `none` where it raises a `ValueError`. -/
def fromisoformat (s : String) : Option Moment := do
  let cs := s.toList
  if cs.length < 7 then none
  else do
    let stop ← separator cs
    let days ← readDate (cs.take stop)
    match cs.drop stop with
    | []        => some { wall := days * dayMicros, offset := none }
    | _ :: time => do
      let (clock, offset) ← readTime time
      some { wall := days * dayMicros + clock, offset }

example : fromisoformat "2020-W05-3T12:30:15,25+01:30" = some ⟨1580301015250000, some 5400000000⟩ := by decide +kernel
example : fromisoformat "2021-02-29T00:00Z" = none := by decide +kernel

/-! ## What was written is read back -/

theorem number_zfill {width n : Nat} (hpos : 0 < width) (h : n < 10 ^ width) (rest : List Char) :
    number width (zfill width n ++ rest) = some (n, rest) := by
  have hlength := zfill_length hpos h
  have htake : (zfill width n ++ rest).take width = zfill width n := by
    rw [List.take_append_of_le_length (Nat.le_of_eq hlength.symm), List.take_of_length_le (Nat.le_of_eq hlength)]
  have hdrop : (zfill width n ++ rest).drop width = rest := by
    rw [List.drop_append_of_le_length (Nat.le_of_eq hlength.symm), List.drop_eq_nil_of_le (Nat.le_of_eq hlength),
      List.nil_append]
  unfold number
  rw [htake, hdrop, if_pos ⟨hlength, zfill_digits width n⟩, digitsValue_zfill]

/-- Two digits are not a mark. -/
theorem zfill_two {n : Nat} (h : n < 100) :
    ∃ a b, zfill 2 n = [a, b] ∧ isDigit a = true ∧ isDigit b = true := by
  obtain ⟨a, b, hab⟩ := List.length_eq_two.mp (zfill_length (by decide : 0 < 2) h)
  have hdigits := zfill_digits 2 n
  rw [hab, List.all_cons, List.all_cons, Bool.and_eq_true, Bool.and_eq_true] at hdigits
  exact ⟨a, b, hab, hdigits.1, hdigits.2.1⟩

/-- The date ends at the tenth character, and the day is read from it. -/
theorem readDate_dateText {days : Int} (h : 1 ≤ (civil days).1 ∧ (civil days).1 ≤ 9999) :
    readDate (dateText days) = some days := by
  have hbounds := civil_bounds days
  have hback := dayNumber_civil days
  unfold dateText
  rcases hcivil : civil days with ⟨year, month, day⟩
  rw [hcivil] at h hbounds hback
  dsimp only at h hbounds hback ⊢
  obtain ⟨m, n, hmonth, hm, -⟩ := zfill_two (n := month.toNat) (by omega)
  have hday := number_zfill (by decide : 0 < 2) (show day.toNat < 10 ^ 2 by omega) []
  rw [List.append_nil] at hday
  unfold readDate
  rw [number_zfill (by decide) (show year.toNat < 10 ^ 4 by omega)]
  have hmark : ('-' :: (zfill 2 month.toNat ++ '-' :: zfill 2 day.toNat)).tail.head? ≠ some 'W' := by
    rw [hmonth]
    rintro hhead
    rw [Option.some.inj hhead] at hm
    exact absurd hm (by decide)
  simp only [Option.bind_eq_bind, Option.bind_some, List.head?_cons, if_true]
  rw [if_neg hmark]
  rw [List.tail_cons, number_zfill (by decide) (show month.toNat < 10 ^ 2 by omega)]
  simp only [Option.bind_some, dropChar?_cons, hday]
  unfold existing
  rw [Int.toNat_of_nonneg (by omega), Int.toNat_of_nonneg (by omega), Int.toNat_of_nonneg (by omega), hback,
    if_pos ⟨h.1, h.2, hcivil⟩]

theorem readClock_clockText {micros : Int} (h0 : 0 ≤ micros) (h1 : micros < dayMicros) :
    ∃ r, readClock (clockText micros) = some r ∧ r.clean = true ∧ r.total = micros ∧
      r.hour < 24 ∧ r.minute < 60 ∧ r.second < 60 := by
  have hday : micros < 86400000000 := h1
  have hhour : (micros / 3600000000).toNat < 10 ^ 2 := by omega
  have hminute : (micros / 60000000 % 60).toNat < 10 ^ 2 := by omega
  have hsecond : (micros / 1000000 % 60).toNat < 10 ^ 2 := by omega
  obtain ⟨m, n, hmm, -, -⟩ := zfill_two hminute
  obtain ⟨s, t, hss, -, -⟩ := zfill_two hsecond
  unfold clockText readClock
  rw [number_zfill (by decide) hhour]
  simp only [Option.bind_eq_bind, Option.bind_some]
  have hmore : ∀ rest, (zfill 2 (micros / 60000000 % 60).toNat ++ rest).isEmpty = false := by
    intro rest
    rw [hmm]
    rfl
  have hmore' : ∀ rest, (zfill 2 (micros / 1000000 % 60).toNat ++ rest).isEmpty = false := by
    intro rest
    rw [hss]
    rfl
  rw [hmore, if_neg Bool.false_ne_true, if_pos trivial]
  unfold readMinutes
  rw [number_zfill (by decide) hminute]
  simp only [Option.bind_eq_bind, Option.bind_some]
  rw [hmore', if_neg Bool.false_ne_true, if_pos (by decide)]
  unfold readSeconds
  rw [number_zfill (by decide) hsecond]
  simp only [Option.bind_eq_bind, Option.bind_some]
  by_cases hfraction : micros % 1000000 = 0
  · rw [if_pos hfraction]
    refine ⟨_, rfl, rfl, ?_, ?_, ?_, ?_⟩
    · show (((micros / 3600000000).toNat * 60 + (micros / 60000000 % 60).toNat) * 60
        + (micros / 1000000 % 60).toNat : Int) * 1000000 + 0 = micros
      omega
    · show (micros / 3600000000).toNat < 24
      omega
    · show (micros / 60000000 % 60).toNat < 60
      omega
    · show (micros / 1000000 % 60).toNat < 60
      omega
  · have hmicros : (micros % 1000000).toNat < 10 ^ 6 := by omega
    have hsix := zfill_length (by decide : 0 < 6) hmicros
    have hread := number_zfill (by decide : 0 < 6) hmicros []
    rw [List.append_nil] at hread
    have hnonempty : (zfill 6 (micros % 1000000).toNat).isEmpty = false := by
      rw [List.isEmpty_eq_false_iff, ← List.length_pos_iff, hsix]
      decide
    rw [if_neg hfraction]
    dsimp only
    rw [hnonempty, if_neg Bool.false_ne_true, if_pos (by decide)]
    unfold Reading.withFraction readFraction
    rw [hnonempty, if_neg Bool.false_ne_true, hsix, Nat.min_self, hread]
    refine ⟨_, rfl, rfl, ?_, ?_, ?_, ?_⟩
    · show (((micros / 3600000000).toNat * 60 + (micros / 60000000 % 60).toNat) * 60
        + (micros / 1000000 % 60).toNat : Int) * 1000000 + ((micros % 1000000).toNat * 10 ^ (6 - 6) : Nat) = micros
      omega
    · show (micros / 3600000000).toNat < 24
      omega
    · show (micros / 60000000 % 60).toNat < 60
      omega
    · show (micros / 1000000 % 60).toNat < 60
      omega

theorem startsOffset_digit {c : Char} (h : isDigit c = true) : startsOffset c = false := by
  unfold startsOffset
  have hne : ∀ d : Char, isDigit d = false → c ≠ d := by
    rintro d hd rfl
    rw [h] at hd
    cases hd
  simp [hne '+' (by decide), hne '-' (by decide), hne 'Z' (by decide)]

/-- No character of a clock starts an offset. -/
theorem clockText_all (micros : Int) : (clockText micros).all (fun c => !startsOffset c) = true := by
  have hdigits : ∀ width n, (zfill width n).all (fun c => !startsOffset c) = true := by
    intro width n
    rw [List.all_eq_true]
    intro c hc
    rw [startsOffset_digit (List.all_eq_true.mp (zfill_digits width n) c hc)]
    rfl
  unfold clockText
  simp only [List.all_append, List.all_cons, hdigits, Bool.true_and]
  split
  · rfl
  · rw [List.all_cons, hdigits]
    rfl

/-- **What `isoformat` wrote is read back**, to the microsecond. -/
theorem fromisoformat_isoformat (now : Utc) :
    fromisoformat (isoformat now) = some { wall := now.micros, offset := some 0 } := by
  obtain ⟨micros, hrange⟩ := now
  have hyear : 1 ≤ (civil (micros / dayMicros)).1 ∧ (civil (micros / dayMicros)).1 ≤ 9999 := by
    unfold inRange at hrange
    simp only [Bool.and_eq_true, decide_eq_true_eq] at hrange
    have hdays : micros / 1000000 / 86400 = micros / dayMicros := by
      unfold dayMicros
      omega
    rwa [hdays] at hrange
  have h0 : 0 ≤ micros % dayMicros := Int.emod_nonneg _ (by decide)
  have h1 : micros % dayMicros < dayMicros := Int.emod_lt_of_pos _ (by decide)
  obtain ⟨r, hr, hclean, htotal, hhour, hminute, hsecond⟩ := readClock_clockText h0 h1
  -- the characters of the date, one by one
  have hdate : ∃ a b c d m n x y, dateText (micros / dayMicros) = [a, b, c, d, '-', m, n, '-', x, y] ∧ isDigit m = true := by
    have hbounds := civil_bounds (micros / dayMicros)
    unfold dateText
    rcases hcivil : civil (micros / dayMicros) with ⟨year, month, day⟩
    rw [hcivil] at hyear hbounds
    dsimp only at hyear hbounds ⊢
    obtain ⟨a, b, c, d, hy⟩ := length_four (zfill_length (n := year.toNat) (by decide : 0 < 4) (by omega))
    obtain ⟨m, n, hm, hdigit, -⟩ := zfill_two (n := month.toNat) (by omega)
    obtain ⟨x, y, hd, -, -⟩ := zfill_two (n := day.toNat) (by omega)
    exact ⟨a, b, c, d, m, n, x, y, by rw [hy, hm, hd]; rfl, hdigit⟩
  obtain ⟨a, b, c, d, m, n, x, y, hdate, hm⟩ := hdate
  have htext : (isoformat ⟨micros, hrange⟩).toList = [a, b, c, d, '-', m, n, '-', x, y] ++
      'T' :: (clockText (micros % dayMicros) ++ ['+', '0', '0', ':', '0', '0']) := by
    unfold isoformat isoText
    rw [String.toList_ofList, hdate]
  have hseparator : separator (isoformat ⟨micros, hrange⟩).toList = some 10 := by
    unfold separator
    rw [htext]
    have hW : m ≠ 'W' := by
      rintro rfl
      exact absurd hm (by decide)
    exact (if_neg (by simp)).trans ((if_pos rfl).trans (if_neg (by simpa using hW)))
  have hstop : StopsAt (fun c => !startsOffset c) ['+', '0', '0', ':', '0', '0'] := StopsAt.cons (by decide)
  have hspan := takeWhile_append_stop (clockText_all (micros % dayMicros)) hstop
  have htime : readTime (clockText (micros % dayMicros) ++ ['+', '0', '0', ':', '0', '0']) =
      some (micros % dayMicros, some 0) := by
    unfold readTime
    rw [hspan.1, hspan.2, hr, Option.bind_eq_bind, Option.bind_some, if_pos ⟨hhour, hminute, hsecond⟩, htotal]
    rfl
  unfold fromisoformat
  dsimp only
  rw [hseparator, htext, if_neg (by simp)]
  simp only [Option.bind_eq_bind, Option.bind_some]
  have hdays : readDate [a, b, c, d, '-', m, n, '-', x, y] = some (micros / dayMicros) := by
    rw [← hdate]
    exact readDate_dateText hyear
  show (readDate [a, b, c, d, '-', m, n, '-', x, y]).bind _ = _
  rw [hdays, Option.bind_some]
  show (readTime (clockText (micros % dayMicros) ++ ['+', '0', '0', ':', '0', '0'])).bind _ = _
  rw [htime, Option.bind_some]
  show some (Moment.mk (micros / dayMicros * dayMicros + micros % dayMicros) (some 0)) = _
  rw [Int.ediv_mul_add_emod]

end Isoformat
end Python
end PickleInfra
