import Mathlib.Data.Rat.Floor

/-!
# `Python.Clock` — `datetime.fromtimestamp` in Korean standard time

`fromtimestamp` rounds to microseconds, half to even, and raises outside the years 1 to 9999, both
before and after the nine hours are added. `strftime` then drops the fraction.
-/

namespace PickleInfra
namespace Python
namespace Clock

/-- `round` of a float to an integer: half to even. -/
def roundHalfEven (q : ℚ) : Int :=
  let down := ⌊q⌋
  let rest := q - down
  if rest < 1 / 2 then down
  else if 1 / 2 < rest then down + 1
  else if down % 2 = 0 then down else down + 1

/-- The whole seconds of a timestamp that was rounded to microseconds. -/
def wholeSeconds (q : ℚ) : Int := roundHalfEven (q * 1000000) / 1000000

/-- Year, month and day of a day number counted from 1970-01-01. -/
def civil (days : Int) : Int × Int × Int :=
  let z := days + 719468
  let era := z / 146097
  let doe := z % 146097
  let yoe := (doe - doe / 1460 + doe / 36524 - doe / 146096) / 365
  let doy := doe - (365 * yoe + yoe / 4 - yoe / 100)
  let mp := (5 * doy + 2) / 153
  let day := doy - (153 * mp + 2) / 5 + 1
  let month := if mp < 10 then mp + 3 else mp - 9
  (yoe + era * 400 + (if month ≤ 2 then 1 else 0), month, day)

/-- A datetime exists: its year is between 1 and 9999. -/
def inRange (seconds : Int) : Bool :=
  let year := (civil (seconds / 86400)).1
  1 ≤ year && year ≤ 9999

/-- A number in decimal, with leading zeros. -/
def padded (width : Nat) (n : Int) : String :=
  let digits := toString n
  String.ofList (List.replicate (width - digits.length) '0') ++ digits

/-- `datetime.fromtimestamp(now, timezone(timedelta(hours=9))).strftime('%Y-%m-%d %H:%M:%S')`, or
    `none` where it raises. -/
def stamp (now : ℚ) : Option String :=
  let utc := wholeSeconds now
  let local_ := utc + 32400
  if inRange utc && inRange local_ then
    let (year, month, day) := civil (local_ / 86400)
    let time := local_ % 86400
    some (padded 4 year ++ "-" ++ padded 2 month ++ "-" ++ padded 2 day ++ " "
      ++ padded 2 (time / 3600) ++ ":" ++ padded 2 (time / 60 % 60) ++ ":" ++ padded 2 (time % 60))
  else none

example : stamp 1000 = some "1970-01-01 09:16:40" := by decide +kernel
example : stamp 1709222399 = some "2024-03-01 00:59:59" := by decide +kernel

end Clock
end Python
end PickleInfra
