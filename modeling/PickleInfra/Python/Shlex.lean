import PickleInfra.Python.Numeral
import PickleInfra.Python.Str

/-!
# `Python.Shlex` — `shlex.split` and `int(text, 0)`

The words of a shell line, and the integer literals of the language. `none` stands for the `ValueError`.
-/

namespace PickleInfra
namespace Python
namespace Shlex

/-! ## Words -/

/-- Where the lexer stands: between words, in a word, inside quotes, or after a backslash. -/
inductive Place where
  | blank
  | word
  | quoted (quote : Char)
  | escaped
  | escapedIn (quote : Char)
deriving DecidableEq, Repr

/-- `' \t\r\n'` -/
def isBlank (c : Char) : Bool := c = ' ' || c = '\t' || c = '\r' || c = '\n'

def isQuote (c : Char) : Bool := c = '\'' || c = '"'

/-- `shlex.split`, with the word that was begun in reverse. Two quotes with nothing between are a word. -/
def splitFrom : Place → List Char → List Char → Option (List (List Char))
  | .blank, _, []             => some []
  | .word, token, []          => some [token.reverse]
  | _, _, []                  => none
  | .blank, _, c :: cs        =>
    if isBlank c then splitFrom .blank [] cs
    else if c = '\\' then splitFrom .escaped [] cs
    else if isQuote c then splitFrom (.quoted c) [] cs
    else splitFrom .word [c] cs
  | .word, token, c :: cs     =>
    if isBlank c then (splitFrom .blank [] cs).map (token.reverse :: ·)
    else if c = '\\' then splitFrom .escaped token cs
    else if isQuote c then splitFrom (.quoted c) token cs
    else splitFrom .word (c :: token) cs
  | .quoted q, token, c :: cs =>
    if c = q then splitFrom .word token cs
    else if c = '\\' && q = '"' then splitFrom (.escapedIn q) token cs
    else splitFrom (.quoted q) (c :: token) cs
  | .escaped, token, c :: cs  => splitFrom .word (c :: token) cs
  | .escapedIn q, token, c :: cs =>
    -- inside double quotes a backslash that escapes nothing is kept
    if c = '\\' || c = q then splitFrom (.quoted q) (c :: token) cs
    else splitFrom (.quoted q) (c :: '\\' :: token) cs

def split (line : List Char) : Option (List String) := (splitFrom .blank [] line).map (List.map String.ofList)

example : split "-A 'a b' \"c\\d\" ''".toList = some ["-A", "a b", "c\\d", ""] := by decide +kernel

/-! ## Integer literals -/

/-- The code points of the decimal zeros; the other nine digits follow each of them. -/
def zeros : List Nat :=
  [0x30, 0x660, 0x6f0, 0x7c0, 0x966, 0x9e6, 0xa66, 0xae6, 0xb66, 0xbe6, 0xc66, 0xce6, 0xd66, 0xde6, 0xe50,
   0xed0, 0xf20, 0x1040, 0x1090, 0x17e0, 0x1810, 0x1946, 0x19d0, 0x1a80, 0x1a90, 0x1b50, 0x1bb0, 0x1c40,
   0x1c50, 0xa620, 0xa8d0, 0xa900, 0xa9d0, 0xa9f0, 0xaa50, 0xabf0, 0xff10, 0x104a0, 0x10d30, 0x11066, 0x110f0,
   0x11136, 0x111d0, 0x112f0, 0x11450, 0x114d0, 0x11650, 0x116c0, 0x11730, 0x118e0, 0x11950, 0x11c50, 0x11d50,
   0x11da0, 0x11f50, 0x16a60, 0x16ac0, 0x16b50, 0x1d7ce, 0x1d7d8, 0x1d7e2, 0x1d7ec, 0x1d7f6, 0x1e140, 0x1e2f0,
   0x1e4f0, 0x1e950, 0x1fbf0]

/-- A decimal digit becomes the one of ASCII. -/
def asciiDigit (c : Char) : Char :=
  match zeros.find? fun z => z ≤ c.toNat && c.toNat < z + 10 with
  | some z => Char.ofNat (48 + (c.toNat - z))
  | none   => c

theorem asciiDigit_of_isDigit {c : Char} (h : Text.isDigit c = true) : asciiDigit c = c := by
  obtain ⟨hlow, hhigh⟩ := digit_bounds h
  have hall : ∀ n ∈ List.range' 48 10, asciiDigit (Char.ofNat n) = Char.ofNat n := by decide +kernel
  have hc := hall c.toNat (List.mem_range'_1.mpr ⟨hlow, by omega⟩)
  rwa [Char.ofNat_toNat] at hc

/-- The digits of a text in which an underscore stands only between two digits. -/
def digitsOf (isDigit : Char → Bool) : List Char → Option (List Char)
  | []             => none
  | [c]            => if isDigit c then some [c] else none
  | c :: '_' :: cs => if isDigit c then (digitsOf isDigit cs).map (c :: ·) else none
  | c :: cs        => if isDigit c then (digitsOf isDigit cs).map (c :: ·) else none

/-- The value of a hexadecimal digit. -/
def hexValue (c : Char) : Nat := if Text.isDigit c then c.toNat - 48 else c.toLower.toNat - 87

/-- The digits after a prefix, which an underscore may follow. -/
def radixValue (radix : Nat) (isDigit : Char → Bool) (cs : List Char) : Option Nat :=
  (digitsOf isDigit (if cs.head? = some '_' then cs.tail else cs)).map fun ds =>
    ds.foldl (fun n c => radix * n + hexValue c) 0

/-- A literal without a sign. No decimal number but zero begins with a zero. -/
def magnitude (cs : List Char) : Option Nat :=
  let isHexDigit (c : Char) : Bool := Text.isHex c.toLower
  if cs.head? = some '0' ∧ (cs.tail.head?.any fun c => c.toLower = 'x') then radixValue 16 isHexDigit (cs.drop 2)
  else if cs.head? = some '0' ∧ (cs.tail.head?.any fun c => c.toLower = 'o') then
    radixValue 8 (fun c => '0' ≤ c && c ≤ '7') (cs.drop 2)
  else if cs.head? = some '0' ∧ (cs.tail.head?.any fun c => c.toLower = 'b') then
    radixValue 2 (fun c => c = '0' || c = '1') (cs.drop 2)
  else do
    let ds ← digitsOf Text.isDigit cs
    if ds.length ≤ 4300 ∧ (ds.head? = some '0' → digitsValue ds = 0) then some (digitsValue ds) else none

/-- `int(text, 0)` -/
def intLiteral (text : List Char) : Option Int :=
  match Str.strip (text.map asciiDigit) with
  | '-' :: cs => (magnitude cs).map fun n => -(n : Int)
  | '+' :: cs => (magnitude cs).map fun n => (n : Int)
  | cs        => (magnitude cs).map fun n => (n : Int)

example : intLiteral "0x1bd20".toList = some 113952 := by decide +kernel
example : intLiteral " -1_0 ".toList = some (-10) := by decide +kernel
example : intLiteral "010".toList = none := by decide +kernel

end Shlex
end Python
end PickleInfra
