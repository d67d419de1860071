import PickleInfra.Python.JsonText

/-!
# `Python.Ascii` — `json.dumps(value, separators=(',', ':'))`

Without `ensure_ascii=False` a string is printed in the characters from space to tilde only; any other is
escaped, beyond the first plane as two surrogates. The reader undoes this too (`loads_dumpsAscii`), so two
values with one text are the same (`dumpsAscii_inj`).
-/

namespace PickleInfra
namespace Python
namespace JsonText

open Numeral

/-! ## Printing -/

/-- `'{0:04x}'.format(n)` -/
def hexDigits (n : Nat) : List Char :=
  [Nat.digitChar (n / 4096 % 16), Nat.digitChar (n / 256 % 16), Nat.digitChar (n / 16 % 16),
   Nat.digitChar (n % 16)]

def unicodeEscape (n : Nat) : List Char := '\\' :: 'u' :: hexDigits n

/-- A character inside a JSON string, in ASCII. -/
def asciiChar (c : Char) : List Char :=
  match shortEscapes.find? (fun e => e.2 = c) with
  | some e => ['\\', e.1]
  | none   =>
    if ' ' ≤ c && c ≤ '~' then [c]
    else if c.toNat < 0x10000 then unicodeEscape c.toNat
    else unicodeEscape (0xd800 + (c.toNat - 0x10000) / 0x400)
      ++ unicodeEscape (0xdc00 + (c.toNat - 0x10000) % 0x400)

def quoteAscii (s : String) : List Char := '"' :: (s.toList.flatMap asciiChar ++ ['"'])

/-- `json.dumps(value, separators=(',', ':'))` -/
def dumpsAscii (T : FloatText) (v : Json) : List Char := textWith T quoteAscii v

/-! ## Reading back -/

theorem hexValue_digitChar {d : Nat} (h : d < 16) : hexValue (Nat.digitChar d) = some d := by
  interval_cases d <;> decide

theorem hex4_hexDigits {n : Nat} (h : n < 0x10000) (rest : List Char) :
    hex4 (hexDigits n ++ rest) = some (n, rest) := by
  have hvalue : ∀ m, hexValue (Nat.digitChar (m % 16)) = some (m % 16) :=
    fun m => hexValue_digitChar (Nat.mod_lt m (by decide))
  show hex4 (Nat.digitChar (n / 4096 % 16) :: Nat.digitChar (n / 256 % 16) :: Nat.digitChar (n / 16 % 16) ::
    Nat.digitChar (n % 16) :: rest) = _
  unfold hex4
  dsimp only
  rw [hvalue, hvalue, hvalue, hvalue]
  show some ((((n / 4096 % 16) * 16 + n / 256 % 16) * 16 + n / 16 % 16) * 16 + n % 16, rest) = some (n, rest)
  have hsum : (((n / 4096 % 16) * 16 + n / 256 % 16) * 16 + n / 16 % 16) * 16 + n % 16 = n := by omega
  rw [hsum]

/-- An escape of four digits is a character, unless it is a surrogate. -/
theorem scanUnicode_hexDigits {n : Nat} (hn : n < 0x10000) (hsurrogate : n < 0xd800 ∨ 0xe000 ≤ n)
    (rest : List Char) : scanUnicode (hexDigits n ++ rest) = some (Char.ofNat n, rest) := by
  have hlow : isLow n = false := by
    unfold isLow
    rw [Bool.and_eq_false_iff, decide_eq_false_iff_not, decide_eq_false_iff_not]
    omega
  have hhigh : isHigh n = false := by
    unfold isHigh
    rw [Bool.and_eq_false_iff, decide_eq_false_iff_not, decide_eq_false_iff_not]
    omega
  unfold scanUnicode
  rw [hex4_hexDigits hn]
  dsimp only
  rw [hlow, hhigh, if_neg Bool.false_ne_true, if_neg Bool.false_ne_true]

/-- Two surrogates are one character beyond the first plane. -/
theorem scanUnicode_surrogates {m : Nat} (hm : m < 0x100000) (rest : List Char) :
    scanUnicode (hexDigits (0xd800 + m / 0x400) ++ (unicodeEscape (0xdc00 + m % 0x400) ++ rest)) =
      some (Char.ofNat (0x10000 + m), rest) := by
  have hlow : isLow (0xd800 + m / 0x400) = false := by
    unfold isLow
    rw [Bool.and_eq_false_iff, decide_eq_false_iff_not, decide_eq_false_iff_not]
    omega
  have hhigh : isHigh (0xd800 + m / 0x400) = true := by
    unfold isHigh
    rw [Bool.and_eq_true, decide_eq_true_eq, decide_eq_true_eq]
    omega
  have hlow' : isLow (0xdc00 + m % 0x400) = true := by
    unfold isLow
    rw [Bool.and_eq_true, decide_eq_true_eq, decide_eq_true_eq]
    omega
  have hsum : 0x10000 + (0xd800 + m / 0x400 - 0xd800) * 0x400 + (0xdc00 + m % 0x400 - 0xdc00) = 0x10000 + m := by
    omega
  unfold scanUnicode
  rw [hex4_hexDigits (by omega)]
  dsimp only
  rw [hlow, hhigh, if_neg Bool.false_ne_true, if_pos rfl]
  unfold unicodeEscape
  rw [List.cons_append, List.cons_append, dropChar?_cons, Option.bind_some, dropChar?_cons]
  dsimp only
  rw [hex4_hexDigits (by omega)]
  dsimp only
  rw [hlow', if_pos rfl, hsum]

theorem toNat_not_surrogate (c : Char) : c.toNat < 0xd800 ∨ 0xe000 ≤ c.toNat := by
  rcases c.valid with h | h
  · exact .inl h
  · exact .inr (Nat.succ_le_of_lt h.1)

theorem toNat_lt (c : Char) : c.toNat < 0x110000 := by
  rcases c.valid with h | h
  · exact Nat.lt_trans h (by decide)
  · exact h.2

theorem scanUnit_asciiChar (c : Char) (rest : List Char) :
    scanUnit (asciiChar c ++ rest) = some (some c, rest) := by
  unfold asciiChar
  cases hfind : shortEscapes.find? (fun e => e.2 = c) with
  | some e =>
      -- the escapes of one letter are as without `ensure_ascii`
      have h := scanUnit_escapeChar c rest
      unfold escapeChar at h
      rw [hfind] at h
      exact h
  | none =>
      dsimp only
      by_cases hprintable : (' ' ≤ c && c ≤ '~') = true
      · have hcontrol : ¬c.toNat < 32 := by
          rw [Bool.and_eq_true, decide_eq_true_eq, decide_eq_true_eq] at hprintable
          exact Nat.not_lt.mpr hprintable.1
        have h := scanUnit_escapeChar c rest
        unfold escapeChar at h
        rw [hfind] at h
        dsimp only at h
        rw [if_neg hcontrol] at h
        rw [if_pos hprintable]
        exact h
      · rw [if_neg hprintable]
        have hread : ∀ cs, scanUnit ('\\' :: 'u' :: cs) = (scanUnicode cs).map fun p => (some p.1, p.2) :=
          fun cs => rfl
        by_cases hplane : c.toNat < 0x10000
        · rw [if_pos hplane]
          unfold unicodeEscape
          rw [List.cons_append, List.cons_append, hread,
            scanUnicode_hexDigits hplane (toNat_not_surrogate c), Char.ofNat_toNat]
          rfl
        · rw [if_neg hplane]
          have hlt := toNat_lt c
          have hsum : 0x10000 + (c.toNat - 0x10000) = c.toNat := by omega
          rw [List.append_assoc]
          conv_lhs => rw [unicodeEscape]
          rw [List.cons_append, List.cons_append, hread, scanUnicode_surrogates (by omega), hsum,
            Char.ofNat_toNat]
          rfl

theorem quoting_quoteAscii : Quoting quoteAscii := quoting_escape scanUnit_asciiChar

/-- `json.loads(json.dumps(value))` -/
theorem loads_dumpsAscii {T : FloatText} {v : Json} (h : Valid T v) : loads T (dumpsAscii T v) = some v :=
  loads_textWith quoting_quoteAscii h

theorem dumpsAscii_inj {T : FloatText} {v w : Json} (hv : Valid T v) (hw : Valid T w)
    (h : dumpsAscii T v = dumpsAscii T w) : v = w := by
  have hread := loads_dumpsAscii hv
  rw [h, loads_dumpsAscii hw] at hread
  exact (Option.some.inj hread).symm

/-- A machine whose only float is zero, for documents without floats. -/
def zeroText : FloatText where
  round _ := 0
  repr _ := { sign := none, whole := ['0'], fraction := some ['0'], exponent := none }
  repr_isJson _ _ := by
    refine ⟨.inl rfl, .inl rfl, fun f hf => ?_, fun e he => by cases he⟩
    cases hf
    exact ⟨by decide, by decide⟩
  repr_float _ _ := rfl
  round_repr _ _ := rfl

end JsonText
end Python
end PickleInfra
