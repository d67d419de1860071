import PickleInfra.Python.Shlex
import PickleInfra.Python.Value

/-!
# `Python.FloatLiteral` — `float(text)`

A decimal numeral, or one of the words for what is not a number. `none` stands for the `ValueError`.
-/

namespace PickleInfra
namespace Python
namespace FloatLiteral

/-- Underscores stand only between two digits; they are dropped. -/
def dropUnderscores : Bool → List Char → Option (List Char)
  | _, []               => some []
  | digit, '_' :: c :: cs =>
    if digit && Text.isDigit c then (dropUnderscores true cs).map (c :: ·) else none
  | _, c :: cs          => if c = '_' then none else (dropUnderscores (Text.isDigit c) cs).map (c :: ·)

/-- `inf`, `infinity` and `nan`, with a sign and in any case. -/
def special (cs : List Char) : Option PyFloat :=
  let negative := cs.head? = some '-'
  let word := if negative ∨ cs.head? = some '+' then cs.tail else cs
  let word := String.ofList (word.map Char.toLower)
  if word = "inf" ∨ word = "infinity" then some (if negative then .negInf else .inf)
  else if word = "nan" then some .nan
  else none

/-- The float nearest to a rational number; from `2 ^ 1024` on it is infinite. -/
def ofRat (round : ℚ → ℚ) (q : ℚ) : PyFloat :=
  if 2 ^ 1024 ≤ round q then .inf else if round q ≤ -2 ^ 1024 then .negInf else .finite (round q)

/-- `float(text)` -/
def float (round : ℚ → ℚ) (text : List Char) : Option PyFloat :=
  let cs := Str.strip (text.map Shlex.asciiDigit)
  match special cs with
  | some x => some x
  | none   => do
    let numeral ← Numeral.parse (← dropUnderscores false cs)
    return ofRat round numeral.value

example : float id "1_0.5e1".toList = some (.finite 105) := by decide +kernel
example : float id "-Inf".toList = some .negInf := by decide +kernel
example : float id "1__0".toList = none := by decide +kernel

end FloatLiteral
end Python
end PickleInfra
