import Mathlib.Data.List.Basic

/-!
# `Python.Base64` — `base64.b64encode`, and its inverse

Three bytes are four digits of six bits. What is missing of the last three is padded with `=`.
-/

namespace PickleInfra
namespace Python
namespace Base64

/-! ## Digits -/

def digit (n : Nat) : Char :=
  if n < 26 then Char.ofNat (65 + n)
  else if n < 52 then Char.ofNat (71 + n)
  else if n < 62 then Char.ofNat (n - 4)
  else if n = 62 then '+'
  else '/'

def value (c : Char) : Option Nat :=
  if 'A' ≤ c ∧ c ≤ 'Z' then some (c.toNat - 65)
  else if 'a' ≤ c ∧ c ≤ 'z' then some (c.toNat - 71)
  else if '0' ≤ c ∧ c ≤ '9' then some (c.toNat + 4)
  else if c = '+' then some 62
  else if c = '/' then some 63
  else none

theorem value_digit {n : Nat} (h : n < 64) : value (digit n) = some n := by
  have hall : ∀ n ∈ List.range 64, value (digit n) = some n := by decide +kernel
  exact hall n (List.mem_range.mpr h)

/-- Letters, digits, and the three signs. -/
def isDigit (c : Char) : Bool := (value c).isSome || c = '='

theorem isDigit_digit {n : Nat} (h : n < 64) : isDigit (digit n) = true := by
  unfold isDigit
  rw [value_digit h]
  rfl

/-! ## Bytes -/

/-- `base64.b64encode(data)` -/
def encode : List UInt8 → List Char
  | []             => []
  | [a]            => [digit (a.toNat / 4), digit (a.toNat % 4 * 16), '=', '=']
  | [a, b]         =>
    [digit (a.toNat / 4), digit (a.toNat % 4 * 16 + b.toNat / 16), digit (b.toNat % 16 * 4), '=']
  | a :: b :: c :: bytes =>
    digit (a.toNat / 4) :: digit (a.toNat % 4 * 16 + b.toNat / 16) :: digit (b.toNat % 16 * 4 + c.toNat / 64) ::
      digit (c.toNat % 64) :: encode bytes

/-- The bytes of the last digits, after which there is padding. -/
def padded (w x y : Char) : Option (List UInt8) := do
  let w ← value w
  let x ← value x
  if y = '=' then return [UInt8.ofNat (w * 4 + x / 16)]
  else
    let y ← value y
    return [UInt8.ofNat (w * 4 + x / 16), UInt8.ofNat (x % 16 * 16 + y / 4)]

/-- The bytes of a text of base64, or `none` where it is not one. -/
def decode : List Char → Option (List UInt8)
  | []                     => some []
  | w :: x :: y :: z :: cs =>
    if z = '=' ∧ cs = [] then padded w x y
    else do
      let w ← value w
      let x ← value x
      let y ← value y
      let z ← value z
      return UInt8.ofNat (w * 4 + x / 16) :: UInt8.ofNat (x % 16 * 16 + y / 4) :: UInt8.ofNat (y % 4 * 64 + z) ::
        (← decode cs)
  | _                      => none

example : encode "any carnal pleas".toUTF8.toList = "YW55IGNhcm5hbCBwbGVhcw==".toList := by decide +kernel

/-! ## Reading back -/

theorem ofNat_eq {a : UInt8} {n : Nat} (h : n = a.toNat) : UInt8.ofNat n = a := by
  rw [h, UInt8.ofNat_toNat]

theorem digit_ne {n : Nat} (h : n < 64) : digit n ≠ '=' := by
  intro heq
  have hvalue := value_digit h
  rw [heq] at hvalue
  cases hvalue

theorem padded_two {w x : Nat} (hw : w < 64) (hx : x < 64) :
    padded (digit w) (digit x) '=' = some [UInt8.ofNat (w * 4 + x / 16)] := by
  unfold padded
  rw [value_digit hw, value_digit hx]
  rfl

theorem padded_three {w x y : Nat} (hw : w < 64) (hx : x < 64) (hy : y < 64) :
    padded (digit w) (digit x) (digit y) =
      some [UInt8.ofNat (w * 4 + x / 16), UInt8.ofNat (x % 16 * 16 + y / 4)] := by
  unfold padded
  simp only [value_digit hw, value_digit hx, value_digit hy, Option.bind_eq_bind, Option.bind_some, pure,
    if_neg (digit_ne hy)]

/-- **What was encoded is decoded.** -/
theorem decode_encode (bytes : List UInt8) : decode (encode bytes) = some bytes := by
  fun_induction encode bytes with
  | case1 => rfl
  | case2 a =>
      have ha := a.toNat_lt
      show padded _ _ '=' = _
      rw [padded_two (by omega) (by omega), @ofNat_eq a _ (by omega)]
  | case3 a b =>
      have ha := a.toNat_lt
      have hb := b.toNat_lt
      show padded _ _ _ = _
      rw [padded_three (by omega) (by omega) (by omega), @ofNat_eq a _ (by omega), @ofNat_eq b _ (by omega)]
  | case4 a b c bytes ih =>
      have ha := a.toNat_lt
      have hb := b.toNat_lt
      have hc := c.toNat_lt
      rw [decode, if_neg fun h => digit_ne (by omega) h.1]
      simp only [value_digit (show a.toNat / 4 < 64 by omega), value_digit (show a.toNat % 4 * 16 + b.toNat / 16 < 64 by omega),
        value_digit (show b.toNat % 16 * 4 + c.toNat / 64 < 64 by omega), value_digit (show c.toNat % 64 < 64 by omega), ih,
        Option.bind_eq_bind, Option.bind_some, pure]
      rw [@ofNat_eq a _ (by omega), @ofNat_eq b _ (by omega), @ofNat_eq c _ (by omega)]

/-- **What is encoded** is written in digits. -/
theorem all_encode (bytes : List UInt8) : (encode bytes).all isDigit = true := by
  have hdigit : ∀ n, n < 64 → isDigit (digit n) = true := fun n h => isDigit_digit h
  fun_induction encode bytes with
  | case1 => rfl
  | case2 a =>
      have ha := a.toNat_lt
      simp only [List.all_cons, hdigit _ (show a.toNat / 4 < 64 by omega), hdigit _ (show a.toNat % 4 * 16 < 64 by omega)]
      rfl
  | case3 a b =>
      have ha := a.toNat_lt
      have hb := b.toNat_lt
      simp only [List.all_cons, hdigit _ (show a.toNat / 4 < 64 by omega),
        hdigit _ (show a.toNat % 4 * 16 + b.toNat / 16 < 64 by omega), hdigit _ (show b.toNat % 16 * 4 < 64 by omega)]
      rfl
  | case4 a b c bytes ih =>
      have ha := a.toNat_lt
      have hb := b.toNat_lt
      have hc := c.toNat_lt
      simp only [List.all_cons, hdigit _ (show a.toNat / 4 < 64 by omega),
        hdigit _ (show a.toNat % 4 * 16 + b.toNat / 16 < 64 by omega),
        hdigit _ (show b.toNat % 16 * 4 + c.toNat / 64 < 64 by omega), hdigit _ (show c.toNat % 64 < 64 by omega), ih,
        Bool.and_self]

end Base64
end Python
end PickleInfra
