import Mathlib.Tactic.IntervalCases
import PickleInfra.Python.Numeral
import PickleInfra.Python.Value

/-!
# `Python.JsonText` — `json.dumps` and `json.loads`

`text` prints a value without spaces, `loads` reads any JSON text. The reader fails on the values its
callers refuse right after reading: an object with a key twice, a number beyond the floats, an integer
of more digits than Python converts, and half of a surrogate pair. What was printed is read back
(`loads_text`), and what was read can be printed (`valid_of_loads`). The sign of a zero float is not
kept.

A call of the reader consumes a character before it calls itself, so the length of the text is enough
fuel.
-/

namespace PickleInfra
namespace Python

open Text Numeral

/-- The floats of a machine as text: what a decimal is read as, and how a float is printed. -/
structure FloatText where
  /-- `float(decimal)`; beyond `2 ^ 1024` the float is infinite. -/
  round : ℚ → ℚ
  repr : ℚ → Numeral
  repr_isJson : ∀ x, |round x| < 2 ^ 1024 → (repr (round x)).IsJson
  repr_float : ∀ x, |round x| < 2 ^ 1024 → (repr (round x)).isIntegral = false
  round_repr : ∀ x, |round x| < 2 ^ 1024 → round (repr (round x)).value = round x

/-- The rational is a finite float. -/
def FloatText.IsFloat (T : FloatText) (q : ℚ) : Prop := (∃ x, q = T.round x) ∧ |q| < 2 ^ 1024

/-- The digits Python converts between an `int` and its text. -/
def maxIntDigits : Nat := 4300

namespace JsonText

/-! ## Strings -/

/-- The escapes of one letter, with what they stand for. -/
def shortEscapes : List (Char × Char) :=
  [('"', '"'), ('\\', '\\'), ('b', '\x08'), ('f', '\x0c'), ('n', '\n'), ('r', '\r'), ('t', '\t')]

/-- A character inside a JSON string. -/
def escapeChar (c : Char) : List Char :=
  match shortEscapes.find? (fun e => e.2 = c) with
  | some e => ['\\', e.1]
  | none   =>
    if c.toNat < 32 then
      ['\\', 'u', '0', '0', Nat.digitChar (c.toNat / 16), Nat.digitChar (c.toNat % 16)]
    else [c]

/-- A string in quotes. -/
def quote (s : String) : List Char := '"' :: (s.toList.flatMap escapeChar ++ ['"'])

def hexValue (c : Char) : Option Nat :=
  if isDigit c then some (c.toNat - 48)
  else if 'a' ≤ c && c ≤ 'f' then some (c.toNat - 87)
  else if 'A' ≤ c && c ≤ 'F' then some (c.toNat - 55)
  else none

/-- Four hexadecimal digits. -/
def hex4 : List Char → Option (Nat × List Char)
  | a :: b :: c :: d :: rest => do
    let a ← hexValue a
    let b ← hexValue b
    let c ← hexValue c
    let d ← hexValue d
    some (((a * 16 + b) * 16 + c) * 16 + d, rest)
  | _                        => none

def isHigh (u : Nat) : Bool := 0xd800 ≤ u && u < 0xdc00
def isLow (u : Nat) : Bool := 0xdc00 ≤ u && u < 0xe000

/-- `\uXXXX`, or two of them for a character beyond the first plane. -/
def scanUnicode (cs : List Char) : Option (Char × List Char) :=
  match hex4 cs with
  | none          => none
  | some (u, cs) =>
    if isLow u then none
    else if isHigh u then
      match (dropChar? '\\' cs).bind (dropChar? 'u') with
      | none    => none
      | some cs =>
        match hex4 cs with
        | none          => none
        | some (l, cs) =>
          if isLow l then some (Char.ofNat (0x10000 + (u - 0xd800) * 0x400 + (l - 0xdc00)), cs) else none
    else some (Char.ofNat u, cs)

/-- What follows a backslash. -/
def scanEscape : List Char → Option (Char × List Char)
  | []        => none
  | c :: rest =>
    match (('/', '/') :: shortEscapes).find? (fun e => e.1 = c) with
    | some e => some (e.2, rest)
    | none   => if c = 'u' then scanUnicode rest else none

/-- One character of a string, or its closing quote. -/
def scanUnit : List Char → Option (Option Char × List Char)
  | []        => none
  | c :: rest =>
    if c = '"' then some (none, rest)
    else if c = '\\' then (scanEscape rest).map fun (c, rest) => (some c, rest)
    else if c.toNat < 32 then none
    else some (some c, rest)

/-- The characters up to the closing quote. -/
def scanUnits : Nat → List Char → Option (List Char × List Char)
  | 0, _      => none
  | n + 1, cs =>
    match scanUnit cs with
    | none                => none
    | some (none, rest)   => some ([], rest)
    | some (some c, rest) => (scanUnits n rest).map fun (s, rest) => (c :: s, rest)

/-- A string after its opening quote. -/
def scanString (cs : List Char) : Option (String × List Char) :=
  (scanUnits cs.length cs).map fun (s, rest) => (String.ofList s, rest)

/-! ## Printing -/

variable (T : FloatText)

def floatText : PyFloat → List Char
  | .finite q => (T.repr q).render
  | .inf      => "Infinity".toList
  | .negInf   => "-Infinity".toList
  | .nan      => "NaN".toList

mutual
/-- `json.dumps(value, ensure_ascii=False, separators=(',', ':'))` -/
def text : Json → List Char
  | .null                => ['n', 'u', 'l', 'l']
  | .bool true           => ['t', 'r', 'u', 'e']
  | .bool false          => ['f', 'a', 'l', 's', 'e']
  | .int n               => (Numeral.ofInt n).render
  | .float x             => floatText T x
  | .str s               => quote s
  | .list []             => ['[', ']']
  | .list (x :: xs)      => '[' :: (text x ++ listTail xs)
  | .dict []             => ['{', '}']
  | .dict ((k, v) :: ms) => '{' :: (quote k ++ ':' :: (text v ++ dictTail ms))
/-- The items after the first. -/
def listTail : List Json → List Char
  | []      => [']']
  | x :: xs => ',' :: (text x ++ listTail xs)
def dictTail : List (String × Json) → List Char
  | []           => ['}']
  | (k, v) :: ms => ',' :: (quote k ++ ':' :: (text v ++ dictTail ms))
end

section With

variable (q : String → List Char)

mutual
/-- `text` with strings quoted another way. -/
def textWith : Json → List Char
  | .null                => ['n', 'u', 'l', 'l']
  | .bool true           => ['t', 'r', 'u', 'e']
  | .bool false          => ['f', 'a', 'l', 's', 'e']
  | .int n               => (Numeral.ofInt n).render
  | .float x             => floatText T x
  | .str s               => q s
  | .list []             => ['[', ']']
  | .list (x :: xs)      => '[' :: (textWith x ++ listTailWith xs)
  | .dict []             => ['{', '}']
  | .dict ((k, v) :: ms) => '{' :: (q k ++ ':' :: (textWith v ++ dictTailWith ms))
def listTailWith : List Json → List Char
  | []      => [']']
  | x :: xs => ',' :: (textWith x ++ listTailWith xs)
def dictTailWith : List (String × Json) → List Char
  | []           => ['}']
  | (k, v) :: ms => ',' :: (q k ++ ':' :: (textWith v ++ dictTailWith ms))
end

end With

mutual
theorem textWith_quote : ∀ v : Json, textWith T quote v = text T v
  | .null => by rw [textWith, text]
  | .bool true => by rw [textWith, text]
  | .bool false => by rw [textWith, text]
  | .int _ => by rw [textWith, text]
  | .float _ => by rw [textWith, text]
  | .str _ => by rw [textWith, text]
  | .list [] => by rw [textWith, text]
  | .list (x :: xs) => by rw [textWith, text, textWith_quote x, listTailWith_quote xs]
  | .dict [] => by rw [textWith, text]
  | .dict ((k, v) :: ms) => by rw [textWith, text, textWith_quote v, dictTailWith_quote ms]
theorem listTailWith_quote : ∀ xs : List Json, listTailWith T quote xs = listTail T xs
  | [] => by rw [listTailWith, listTail]
  | x :: xs => by rw [listTailWith, listTail, textWith_quote x, listTailWith_quote xs]
theorem dictTailWith_quote : ∀ ms : List (String × Json), dictTailWith T quote ms = dictTail T ms
  | [] => by rw [dictTailWith, dictTail]
  | (k, v) :: ms => by rw [dictTailWith, dictTail, textWith_quote v, dictTailWith_quote ms]
end

mutual
/-- A value of Python that can be printed: no key twice, floats of the machine, no integer too long. -/
def Valid : Json → Prop
  | .null              => True
  | .bool _            => True
  | .int n             => (Nat.toDigits 10 n.natAbs).length ≤ maxIntDigits
  | .float (.finite q) => T.IsFloat q
  | .float .inf        => False
  | .float .negInf     => False
  | .float .nan        => False
  | .str _             => True
  | .list xs           => ValidItems xs
  | .dict ms           => (ms.map Prod.fst).Nodup ∧ ValidMembers ms
def ValidItems : List Json → Prop
  | []      => True
  | x :: xs => Valid x ∧ ValidItems xs
def ValidMembers : List (String × Json) → Prop
  | []           => True
  | (_, v) :: ms => Valid v ∧ ValidMembers ms
end

section Valid

variable {T}

theorem validItems_iff {xs : List Json} : ValidItems T xs ↔ ∀ x ∈ xs, Valid T x := by
  induction xs with
  | nil =>
      rw [ValidItems]
      exact ⟨fun _ x hx => absurd hx List.not_mem_nil, fun _ => trivial⟩
  | cons x xs ih => rw [ValidItems, ih, List.forall_mem_cons]

theorem validMembers_iff {ms : List (String × Json)} :
    ValidMembers T ms ↔ ∀ m ∈ ms, Valid T m.2 := by
  induction ms with
  | nil =>
      rw [ValidMembers]
      exact ⟨fun _ x hx => absurd hx List.not_mem_nil, fun _ => trivial⟩
  | cons m ms ih => rw [ValidMembers, ih, List.forall_mem_cons]

theorem valid_list {xs : List Json} : Valid T (.list xs) ↔ ∀ x ∈ xs, Valid T x := by
  rw [Valid, validItems_iff]

theorem valid_dict {ms : List (String × Json)} :
    Valid T (.dict ms) ↔ (ms.map Prod.fst).Nodup ∧ ∀ m ∈ ms, Valid T m.2 := by
  rw [Valid, validMembers_iff]

end Valid

/-! ## Reading -/

def isSpace (c : Char) : Bool := c = ' ' || c = '\t' || c = '\n' || c = '\r'

def skipSpace (cs : List Char) : List Char := cs.dropWhile isSpace

/-- The word at the start of the text is dropped. -/
def dropWord? (word cs : List Char) : Option (List Char) :=
  if word.isPrefixOf cs then some (cs.drop word.length) else none

/-- What a number that is no integer is read as. -/
def readFloat (d : ℚ) : Option PyFloat :=
  if |T.round d| < 2 ^ 1024 then some (.finite (T.round d)) else none

def scanNumber (cs : List Char) : Option (Json × List Char) :=
  match scanJson cs with
  | none           => none
  | some (n, rest) =>
    if n.isIntegral then
      if n.whole.length ≤ maxIntDigits then some (.int n.intValue, rest) else none
    else (readFloat T n.value).map fun x => (.float x, rest)

/-- `null`, `true`, `false` or a number. -/
def scanAtom (cs : List Char) : Option (Json × List Char) :=
  match dropWord? ['n', 'u', 'l', 'l'] cs with
  | some rest => some (.null, rest)
  | none      =>
    match dropWord? ['t', 'r', 'u', 'e'] cs with
    | some rest => some (.bool true, rest)
    | none      =>
      match dropWord? ['f', 'a', 'l', 's', 'e'] cs with
      | some rest => some (.bool false, rest)
      | none      => scanNumber T cs

/-- A key with its colon. -/
def scanKey (cs : List Char) : Option (String × List Char) := do
  let cs ← dropChar? '"' cs
  let (k, cs) ← scanString cs
  let cs ← dropChar? ':' (skipSpace cs)
  some (k, skipSpace cs)

mutual
def value : Nat → List Char → Option (Json × List Char)
  | 0, _      => none
  | n + 1, cs =>
    match cs with
    | []        => none
    | c :: rest =>
      if c = '"' then (scanString rest).map fun (s, rest) => (.str s, rest)
      else if c = '[' then
        match dropChar? ']' (skipSpace rest) with
        | some rest => some (.list [], rest)
        | none      => do
          let (x, rest) ← value n (skipSpace rest)
          let (xs, rest) ← items n rest
          some (.list (x :: xs), rest)
      else if c = '{' then
        match dropChar? '}' (skipSpace rest) with
        | some rest => some (.dict [], rest)
        | none      => do
          let (k, rest) ← scanKey (skipSpace rest)
          let (v, rest) ← value n rest
          let (ms, rest) ← members n rest
          if (((k, v) :: ms).map Prod.fst).Nodup then some (.dict ((k, v) :: ms), rest) else none
      else scanAtom T (c :: rest)
/-- The items after the first, up to the closing bracket. -/
def items : Nat → List Char → Option (List Json × List Char)
  | 0, _      => none
  | n + 1, cs =>
    match dropChar? ']' (skipSpace cs) with
    | some rest => some ([], rest)
    | none      => do
      let rest ← dropChar? ',' (skipSpace cs)
      let (x, rest) ← value n (skipSpace rest)
      let (xs, rest) ← items n rest
      some (x :: xs, rest)
def members : Nat → List Char → Option (List (String × Json) × List Char)
  | 0, _      => none
  | n + 1, cs =>
    match dropChar? '}' (skipSpace cs) with
    | some rest => some ([], rest)
    | none      => do
      let rest ← dropChar? ',' (skipSpace cs)
      let (k, rest) ← scanKey (skipSpace rest)
      let (v, rest) ← value n rest
      let (ms, rest) ← members n rest
      some ((k, v) :: ms, rest)
end

/-- `json.loads`, followed by the checks of the values it read. -/
def loads (cs : List Char) : Option Json :=
  match value T cs.length (skipSpace cs) with
  | some (v, rest) => if (skipSpace rest).isEmpty then some v else none
  | none           => none

/-! ## Strings are read back -/

/-- A way to quote strings that the reader undoes. -/
def Quoting (q : String → List Char) : Prop :=
  ∀ s rest, ∃ cs, q s ++ rest = '"' :: cs ∧ scanString cs = some (s, rest)

theorem scanUnit_escapeChar (c : Char) (rest : List Char) :
    scanUnit (escapeChar c ++ rest) = some (some c, rest) := by
  by_cases hcontrol : c.toNat < 32
  · have hall : ∀ n < 32, scanUnit (escapeChar (Char.ofNat n) ++ rest) = some (some (Char.ofNat n), rest) := by
      intro n hn
      interval_cases n <;> rfl
    have := hall c.toNat hcontrol
    rwa [Char.ofNat_toNat] at this
  · by_cases hquote : c = '"'
    · subst hquote
      rfl
    · by_cases hbackslash : c = '\\'
      · subst hbackslash
        rfl
      · have hshort : shortEscapes.find? (fun e => e.2 = c) = none := by
          rw [List.find?_eq_none]
          intro e he
          simp only [shortEscapes, List.mem_cons, List.not_mem_nil, or_false] at he
          rw [decide_eq_true_eq]
          rintro rfl
          rcases he with rfl | rfl | rfl | rfl | rfl | rfl | rfl
          · exact hquote rfl
          · exact hbackslash rfl
          all_goals exact hcontrol (by decide)
        unfold escapeChar
        rw [hshort]
        dsimp only
        rw [if_neg hcontrol]
        show scanUnit (c :: rest) = _
        unfold scanUnit
        dsimp only
        rw [if_neg hquote, if_neg hbackslash, if_neg hcontrol]

section Escape

variable {escape : Char → List Char} (hescape : ∀ c rest, scanUnit (escape c ++ rest) = some (some c, rest))
include hescape

theorem scanUnits_escaped (s : List Char) (rest : List Char) (n : Nat) (h : s.length < n) :
    scanUnits n (s.flatMap escape ++ '"' :: rest) = some (s, rest) := by
  induction s generalizing n with
  | nil =>
      cases n with
      | zero => exact absurd h (Nat.lt_irrefl 0)
      | succ n => rfl
  | cons c s ih =>
      cases n with
      | zero => exact absurd h (Nat.not_lt_zero _)
      | succ n =>
          rw [List.flatMap_cons, List.append_assoc]
          unfold scanUnits
          rw [hescape]
          dsimp only
          rw [ih n (Nat.lt_of_succ_lt_succ h)]
          rfl

theorem length_le_escaped (s : List Char) : s.length ≤ (s.flatMap escape).length := by
  induction s with
  | nil => exact Nat.le_refl 0
  | cons c s ih =>
      rw [List.flatMap_cons, List.length_append, List.length_cons]
      have hpos : 0 < (escape c).length := by
        rw [List.length_pos_iff]
        intro hempty
        have h := hescape c []
        rw [hempty] at h
        cases h
      omega

/-- A quoted string, after its opening quote, is read back. -/
theorem scanString_escaped (s : String) (rest : List Char) :
    scanString (s.toList.flatMap escape ++ '"' :: rest) = some (s, rest) := by
  unfold scanString
  have hlength : s.toList.length < (s.toList.flatMap escape ++ '"' :: rest).length := by
    have := length_le_escaped hescape s.toList
    rw [List.length_append, List.length_cons]
    omega
  rw [scanUnits_escaped hescape s.toList rest _ hlength, Option.map_some]
  show some (String.ofList s.toList, rest) = _
  rw [String.ofList_toList]

/-- Quoting by such escapes is undone. -/
theorem quoting_escape : Quoting fun s => '"' :: (s.toList.flatMap escape ++ ['"']) := by
  intro s rest
  refine ⟨s.toList.flatMap escape ++ '"' :: rest, ?_, scanString_escaped hescape s rest⟩
  rw [List.cons_append, List.append_assoc, List.singleton_append]

end Escape

theorem quoting_quote : Quoting quote := quoting_escape scanUnit_escapeChar

/-! ## Values are read back -/

section RoundTrip

variable {T : FloatText}

theorem valid_float {x : PyFloat} : Valid T (.float x) ↔ ∃ q, x = .finite q ∧ T.IsFloat q := by
  cases x with
  | finite q =>
      rw [Valid]
      exact ⟨fun h => ⟨q, rfl, h⟩, by rintro ⟨_, ⟨⟩, h⟩; exact h⟩
  | inf | negInf | nan =>
      rw [Valid]
      exact ⟨False.elim, by rintro ⟨_, ⟨⟩, -⟩⟩

theorem value_quote (n : Nat) (rest : List Char) :
    value T (n + 1) ('"' :: rest) = (scanString rest).map fun (s, rest) => (.str s, rest) := by
  rw [value.eq_def]
  rfl

theorem value_bracket (n : Nat) (rest : List Char) : value T (n + 1) ('[' :: rest) =
    (match dropChar? ']' (skipSpace rest) with
    | some rest => some (.list [], rest)
    | none      => do
      let (x, rest) ← value T n (skipSpace rest)
      let (xs, rest) ← items T n rest
      some (.list (x :: xs), rest)) := by
  rw [value.eq_def]
  rfl

theorem value_brace (n : Nat) (rest : List Char) : value T (n + 1) ('{' :: rest) =
    (match dropChar? '}' (skipSpace rest) with
    | some rest => some (.dict [], rest)
    | none      => do
      let (k, rest) ← scanKey (skipSpace rest)
      let (v, rest) ← value T n rest
      let (ms, rest) ← members T n rest
      if (((k, v) :: ms).map Prod.fst).Nodup then some (.dict ((k, v) :: ms), rest) else none) := by
  rw [value.eq_def]
  rfl

theorem value_atom {c : Char} (hc : c ≠ '"' ∧ c ≠ '[' ∧ c ≠ '{') (n : Nat) (rest : List Char) :
    value T (n + 1) (c :: rest) = scanAtom T (c :: rest) := by
  rw [value.eq_def]
  dsimp only
  rw [if_neg hc.1, if_neg hc.2.1, if_neg hc.2.2]

/-- A value starts with one of these characters. -/
def starts (c : Char) : Bool := isDigit c || ['-', 'n', 't', 'f', '"', '[', '{'].contains c

theorem not_starts_of {c : Char} (h : isSpace c = true ∨ c = ']' ∨ c = '}' ∨ c = ',') : starts c = false := by
  unfold isSpace at h
  simp only [Bool.or_eq_true, decide_eq_true_eq] at h
  rcases h with ((( rfl | rfl) | rfl) | rfl) | rfl | rfl | rfl <;> decide

/-- The first character of a numeral. -/
theorem head_render {n : Numeral} (h : n.IsJson) :
    ∃ c cs, n.render = c :: cs ∧ (isDigit c = true ∨ c = '-') := by
  obtain ⟨sign, whole, fraction, exponent⟩ := n
  rcases h.sign with hs | hs
  · cases hs
    rcases h.whole with hw | ⟨hw, c, cs, hcons, -⟩
    · cases hw
      exact ⟨'0', _, rfl, .inl (by decide)⟩
    · cases hcons
      rw [List.all_cons, Bool.and_eq_true] at hw
      exact ⟨c, _, rfl, .inl hw.1⟩
  · cases hs
    exact ⟨'-', _, rfl, .inr rfl⟩

section With

variable {q : String → List Char}

theorem head_textWith (hq : Quoting q) {v : Json} (h : Valid T v) : ∃ c cs, textWith T q v = c :: cs ∧ starts c = true := by
  cases v with
  | null => exact ⟨'n', _, rfl, by decide⟩
  | bool b => cases b with
    | true => exact ⟨'t', _, rfl, by decide⟩
    | false => exact ⟨'f', _, rfl, by decide⟩
  | int n =>
      obtain ⟨c, cs, hcs, hc⟩ := head_render (ofInt_isJson n)
      refine ⟨c, cs, by rw [textWith]; exact hcs, ?_⟩
      rcases hc with hc | rfl
      · unfold starts
        rw [hc, Bool.true_or]
      · decide
  | float x =>
      obtain ⟨_, rfl, ⟨x, rfl⟩, hx⟩ := valid_float.mp h
      obtain ⟨c, cs, hcs, hc⟩ := head_render (T.repr_isJson x hx)
      refine ⟨c, cs, by rw [textWith]; exact hcs, ?_⟩
      rcases hc with hc | rfl
      · unfold starts
        rw [hc, Bool.true_or]
      · decide
  | str s =>
      obtain ⟨cs, hcs, -⟩ := hq s []
      rw [List.append_nil] at hcs
      exact ⟨'"', cs, by rw [textWith, hcs], by decide⟩
  | list xs => cases xs with
    | nil => exact ⟨'[', _, by rw [textWith], by decide⟩
    | cons x xs => exact ⟨'[', _, by rw [textWith], by decide⟩
  | dict ms => cases ms with
    | nil => exact ⟨'{', _, by rw [textWith], by decide⟩
    | cons m ms => exact ⟨'{', _, by rw [textWith], by decide⟩

theorem skipSpace_stop {cs : List Char} (h : StopsAt isSpace cs) : skipSpace cs = cs := by
  cases cs with
  | nil => rfl
  | cons c cs => exact List.dropWhile_cons_of_neg (by rw [h c rfl]; decide)

/-- Before a value there is nothing to skip, and no bracket. -/
theorem skipSpace_textWith (hq : Quoting q) {v : Json} (h : Valid T v) (rest : List Char) :
    skipSpace (textWith T q v ++ rest) = textWith T q v ++ rest ∧
      dropChar? ']' (textWith T q v ++ rest) = none := by
  obtain ⟨c, cs, hcs, hc⟩ := head_textWith hq h
  rw [hcs]
  constructor
  · apply skipSpace_stop
    apply StopsAt.cons
    by_contra hspace
    rw [Bool.not_eq_false] at hspace
    rw [not_starts_of (.inl hspace)] at hc
    cases hc
  · apply dropChar?_stop
    apply StopsAt.cons
    rw [decide_eq_false_iff_not]
    rintro rfl
    rw [not_starts_of (.inr (.inl rfl))] at hc
    cases hc

theorem dropWord?_stop {w cs : List Char} {a c : Char} (hne : a ≠ c) : dropWord? (a :: w) (c :: cs) = none := by
  unfold dropWord?
  rw [List.isPrefixOf_cons_cons]
  simp [hne]

theorem dropWord?_append (w rest : List Char) : dropWord? w (w ++ rest) = some rest := by
  unfold dropWord?
  rw [if_pos (List.isPrefixOf_iff_prefix.mpr (List.prefix_append w rest)), List.drop_left]

/-- A number is read back. -/
theorem scanAtom_render {n : Numeral} (h : n.IsJson) (rest : List Char) :
    scanAtom T (n.render ++ rest) = scanNumber T (n.render ++ rest) := by
  obtain ⟨c, cs, hcs, hc⟩ := head_render h
  have hne : ∀ a, isDigit a = false ∧ a ≠ '-' → a ≠ c := by
    rintro a ⟨ha, hminus⟩ rfl
    rcases hc with hc | hc
    · rw [ha] at hc
      cases hc
    · exact hminus hc
  unfold scanAtom
  rw [hcs, List.cons_append, dropWord?_stop (hne 'n' (by decide)), dropWord?_stop (hne 't' (by decide)),
    dropWord?_stop (hne 'f' (by decide))]

/-- A numeral starts no string, list or object. -/
theorem value_render {n : Numeral} (h : n.IsJson) (fuel : Nat) (rest : List Char) :
    value T (fuel + 1) (n.render ++ rest) = scanNumber T (n.render ++ rest) := by
  rw [← scanAtom_render h rest]
  obtain ⟨c, cs, hcs, hc⟩ := head_render h
  have hne : ∀ a, isDigit a = false ∧ a ≠ '-' → ¬ c = a := by
    rintro a ⟨ha, hminus⟩ rfl
    rcases hc with hc | hc
    · rw [ha] at hc
      cases hc
    · exact hminus hc
  rw [hcs, List.cons_append]
  exact value_atom ⟨hne '"' (by decide), hne '[' (by decide), hne '{' (by decide)⟩ _ _

theorem stopsAt_listTailWith (xs : List Json) (rest : List Char) :
    StopsAt continues (listTailWith T q xs ++ rest) := by
  cases xs with
  | nil => rw [listTailWith]; exact StopsAt.cons (by decide)
  | cons x xs => rw [listTailWith]; exact StopsAt.cons (by decide)

theorem stopsAt_dictTailWith (ms : List (String × Json)) (rest : List Char) :
    StopsAt continues (dictTailWith T q ms ++ rest) := by
  cases ms with
  | nil => rw [dictTailWith]; exact StopsAt.cons (by decide)
  | cons m ms => rw [dictTailWith]; exact StopsAt.cons (by decide)

/-- A key with its colon is read back, before a value. -/
theorem scanKey_textWith (hq : Quoting q) {v : Json} (h : Valid T v) (k : String) (rest : List Char) :
    scanKey (q k ++ ':' :: (textWith T q v ++ rest)) = some (k, textWith T q v ++ rest) := by
  obtain ⟨cs, hcs, hread⟩ := hq k (':' :: (textWith T q v ++ rest))
  unfold scanKey
  rw [hcs, dropChar?_cons]
  show (scanString _ >>= _) = _
  rw [hread, Option.bind_eq_bind, Option.bind_some]
  dsimp only
  rw [skipSpace_stop (StopsAt.cons (by decide)), dropChar?_cons, Option.bind_eq_bind, Option.bind_some,
    (skipSpace_textWith hq h rest).1]

/-- A key has no space and no brace before it. -/
theorem skipSpace_key (hq : Quoting q) (k : String) (rest : List Char) :
    skipSpace (q k ++ rest) = q k ++ rest ∧ dropChar? '}' (q k ++ rest) = none := by
  obtain ⟨cs, hcs, -⟩ := hq k rest
  rw [hcs]
  exact ⟨skipSpace_stop (StopsAt.cons (by decide)), dropChar?_stop (StopsAt.cons (by decide))⟩

mutual
/-- **What was printed is read back**, and what follows it is left. -/
theorem value_textWith (hq : Quoting q) : ∀ (v : Json) (n : Nat) (rest : List Char), Valid T v → (textWith T q v).length ≤ n →
    StopsAt continues rest → value T n (textWith T q v ++ rest) = some (v, rest)
  | v, 0, rest, hv, hn, _ => by
      obtain ⟨c, cs, hcs, -⟩ := head_textWith hq hv
      rw [hcs] at hn
      exact absurd hn (Nat.not_succ_le_zero _)
  | .null, n + 1, rest, _, _, _ => by
      rw [textWith]
      exact value_atom (by decide) n _
  | .bool true, n + 1, rest, _, _, _ => by
      rw [textWith]
      exact value_atom (by decide) n _
  | .bool false, n + 1, rest, _, _, _ => by
      rw [textWith]
      exact value_atom (by decide) n _
  | .int i, n + 1, rest, hv, _, hrest => by
      rw [textWith, value_render (ofInt_isJson i)]
      rw [Valid] at hv
      have hlength : (ofInt i).whole.length ≤ maxIntDigits := hv
      have hintegral : (ofInt i).isIntegral = true := rfl
      unfold scanNumber
      rw [scanJson_render (ofInt_isJson i) hrest]
      dsimp only
      rw [if_pos hintegral, if_pos hlength, intValue_ofInt]
  | .float _, n + 1, rest, hv, _, hrest => by
      obtain ⟨_, rfl, ⟨x, rfl⟩, hx⟩ := valid_float.mp hv
      have hjson := T.repr_isJson x hx
      rw [textWith]
      show value T (n + 1) ((T.repr (T.round x)).render ++ rest) = _
      rw [value_render hjson]
      unfold scanNumber
      rw [scanJson_render hjson hrest]
      dsimp only
      rw [if_neg (by rw [T.repr_float x hx]; decide)]
      unfold readFloat
      rw [T.round_repr x hx, if_pos hx]
      rfl
  | .str s, n + 1, rest, _, _, _ => by
      obtain ⟨cs, hcs, hread⟩ := hq s rest
      rw [textWith, hcs, value_quote, hread]
      rfl
  | .list [], n + 1, rest, _, _, _ => by
      rw [textWith]
      exact value_bracket n _
  | .list (x :: xs), n + 1, rest, hv, hn, hrest => by
      rw [Valid, ValidItems] at hv
      rw [textWith, List.length_cons, List.length_append] at hn
      rw [textWith, List.cons_append, List.append_assoc, value_bracket, (skipSpace_textWith hq hv.1 _).1,
        (skipSpace_textWith hq hv.1 _).2]
      dsimp only
      rw [value_textWith hq x n _ hv.1 (by omega) (stopsAt_listTailWith xs rest), Option.bind_eq_bind, Option.bind_some]
      dsimp only
      rw [items_textWith hq xs n rest hv.2 (by omega)]
      rfl
  | .dict [], n + 1, rest, _, _, _ => by
      rw [textWith]
      exact value_brace n _
  | .dict ((k, v) :: ms), n + 1, rest, hv, hn, hrest => by
      rw [Valid, ValidMembers] at hv
      obtain ⟨hnodup, hv, hms⟩ := hv
      rw [textWith, List.length_cons, List.length_append, List.length_cons, List.length_append] at hn
      rw [textWith, List.cons_append, List.append_assoc, List.cons_append, List.append_assoc, value_brace]
      rw [(skipSpace_key hq k _).1, (skipSpace_key hq k _).2]
      dsimp only
      rw [scanKey_textWith hq hv, Option.bind_eq_bind, Option.bind_some]
      dsimp only
      rw [value_textWith hq v n _ hv (by omega) (stopsAt_dictTailWith ms rest), Option.bind_eq_bind,
        Option.bind_some]
      dsimp only
      rw [members_textWith hq ms n rest hms (by omega), Option.bind_eq_bind, Option.bind_some]
      exact if_pos hnodup

theorem items_textWith (hq : Quoting q) : ∀ (xs : List Json) (n : Nat) (rest : List Char), ValidItems T xs →
    (listTailWith T q xs).length ≤ n → items T n (listTailWith T q xs ++ rest) = some (xs, rest)
  | [], 0, _, _, hn => by rw [listTailWith] at hn; exact absurd hn (Nat.not_succ_le_zero _)
  | [], n + 1, rest, _, _ => by rw [listTailWith, items]; rfl
  | _ :: _, 0, _, _, hn => by rw [listTailWith] at hn; exact absurd hn (Nat.not_succ_le_zero _)
  | x :: xs, n + 1, rest, hv, hn => by
      rw [ValidItems] at hv
      rw [listTailWith, List.length_cons, List.length_append] at hn
      rw [listTailWith, items, List.cons_append, skipSpace_stop (StopsAt.cons (by decide)),
        dropChar?_stop (StopsAt.cons (by decide))]
      dsimp only
      rw [dropChar?_cons, Option.bind_eq_bind, Option.bind_some, List.append_assoc,
        (skipSpace_textWith hq hv.1 _).1, value_textWith hq x n _ hv.1 (by omega) (stopsAt_listTailWith xs rest),
        Option.bind_eq_bind, Option.bind_some]
      dsimp only
      rw [items_textWith hq xs n rest hv.2 (by omega)]
      rfl

theorem members_textWith (hq : Quoting q) : ∀ (ms : List (String × Json)) (n : Nat) (rest : List Char), ValidMembers T ms →
    (dictTailWith T q ms).length ≤ n → members T n (dictTailWith T q ms ++ rest) = some (ms, rest)
  | [], 0, _, _, hn => by rw [dictTailWith] at hn; exact absurd hn (Nat.not_succ_le_zero _)
  | [], n + 1, rest, _, _ => by rw [dictTailWith, members]; rfl
  | (_, _) :: _, 0, _, _, hn => by rw [dictTailWith] at hn; exact absurd hn (Nat.not_succ_le_zero _)
  | (k, v) :: ms, n + 1, rest, hv, hn => by
      rw [ValidMembers] at hv
      rw [dictTailWith, List.length_cons, List.length_append, List.length_cons, List.length_append] at hn
      rw [dictTailWith, members, List.cons_append, skipSpace_stop (StopsAt.cons (by decide)),
        dropChar?_stop (StopsAt.cons (by decide))]
      dsimp only
      rw [dropChar?_cons, Option.bind_eq_bind, Option.bind_some, List.append_assoc, List.cons_append,
        List.append_assoc, (skipSpace_key hq k _).1, scanKey_textWith hq hv.1, Option.bind_eq_bind, Option.bind_some]
      dsimp only
      rw [value_textWith hq v n _ hv.1 (by omega) (stopsAt_dictTailWith ms rest), Option.bind_eq_bind,
        Option.bind_some]
      dsimp only
      rw [members_textWith hq ms n rest hv.2 (by omega)]
      rfl
end

theorem loads_textWith (hq : Quoting q) {v : Json} (h : Valid T v) : loads T (textWith T q v) = some v := by
  have hskip := (skipSpace_textWith hq h []).1
  rw [List.append_nil] at hskip
  have hvalue := value_textWith hq v (textWith T q v).length [] h (Nat.le_refl _) (by rintro c ⟨⟩)
  rw [List.append_nil] at hvalue
  unfold loads
  rw [hskip, hvalue]
  rfl

end With

/-- `json.loads(json.dumps(value))` -/
theorem loads_text {v : Json} (h : Valid T v) : loads T (text T v) = some v := by
  rw [← textWith_quote]
  exact loads_textWith quoting_quote h

/-! ## What is read can be printed -/

theorem spanDigits_all (cs : List Char) : (spanDigits cs).1.all isDigit = true := List.all_takeWhile

theorem scanWhole_digits {cs whole rest : List Char} (h : scanWhole cs = some (whole, rest)) :
    whole.all isDigit = true := by
  unfold scanWhole at h
  split at h
  · cases h
    decide
  · dsimp only at h
    split at h
    · cases h
    · cases h
      exact spanDigits_all cs

theorem scanJson_whole {cs rest : List Char} {n : Numeral} (h : scanJson cs = some (n, rest)) :
    n.whole.all isDigit = true := by
  unfold scanJson at h
  dsimp only at h
  rw [Option.map_eq_some_iff] at h
  obtain ⟨⟨whole, after⟩, hwhole, h⟩ := h
  cases h
  exact scanWhole_digits hwhole

theorem valid_scanNumber {cs rest : List Char} {v : Json} (h : scanNumber T cs = some (v, rest)) :
    Valid T v := by
  unfold scanNumber at h
  split at h
  · cases h
  next n after hscan =>
  split at h
  · split at h
    · next hlength =>
      cases h
      rw [Valid]
      have habs : n.intValue.natAbs = digitsValue n.whole := by
        unfold intValue
        split <;> omega
      rw [habs, Nat.length_toDigits_le_iff (by decide) (by decide)]
      calc digitsValue n.whole < 10 ^ n.whole.length := digitsValue_lt (scanJson_whole hscan)
        _ ≤ 10 ^ maxIntDigits := Nat.pow_le_pow_right (by decide) hlength
    · cases h
  · rw [Option.map_eq_some_iff] at h
    obtain ⟨x, hx, h⟩ := h
    cases h
    unfold readFloat at hx
    split at hx
    · next hfinite =>
      cases hx
      rw [Valid]
      exact ⟨⟨_, rfl⟩, hfinite⟩
    · cases hx

theorem valid_scanAtom {cs rest : List Char} {v : Json} (h : scanAtom T cs = some (v, rest)) :
    Valid T v := by
  unfold scanAtom at h
  split at h
  · cases h
    rw [Valid]
    trivial
  split at h
  · cases h
    rw [Valid]
    trivial
  split at h
  · cases h
    rw [Valid]
    trivial
  · exact valid_scanNumber h

theorem valid_read (n : Nat) :
    (∀ cs v rest, value T n cs = some (v, rest) → Valid T v) ∧
      (∀ cs xs rest, items T n cs = some (xs, rest) → ValidItems T xs) ∧
      (∀ cs ms rest, members T n cs = some (ms, rest) → ValidMembers T ms) := by
  induction n with
  | zero =>
      refine ⟨?_, ?_, ?_⟩
      · intro cs v rest h
        rw [value] at h
        cases h
      · intro cs xs rest h
        rw [items] at h
        cases h
      · intro cs ms rest h
        rw [members] at h
        cases h
  | succ n ih =>
      obtain ⟨ihvalue, ihitems, ihmembers⟩ := ih
      refine ⟨?_, ?_, ?_⟩
      · intro cs v rest h
        cases cs with
        | nil => rw [value] at h; cases h
        | cons c cs =>
            by_cases hquote : c = '"'
            · subst hquote
              rw [value_quote, Option.map_eq_some_iff] at h
              obtain ⟨⟨s, after⟩, -, h⟩ := h
              cases h
              rw [Valid]
              trivial
            by_cases hbracket : c = '['
            · subst hbracket
              rw [value_bracket] at h
              split at h
              · cases h
                rw [Valid, ValidItems]
                trivial
              · simp only [Option.bind_eq_bind, Option.bind_eq_some_iff] at h
                obtain ⟨⟨x, after⟩, hx, ⟨xs, after'⟩, hxs, h⟩ := h
                cases h
                rw [Valid, ValidItems]
                exact ⟨ihvalue _ _ _ hx, ihitems _ _ _ hxs⟩
            by_cases hbrace : c = '{'
            · subst hbrace
              rw [value_brace] at h
              split at h
              · cases h
                rw [Valid, ValidMembers]
                exact ⟨List.nodup_nil, trivial⟩
              · simp only [Option.bind_eq_bind, Option.bind_eq_some_iff] at h
                obtain ⟨⟨k, after⟩, -, ⟨x, after'⟩, hx, ⟨ms, after''⟩, hms, h⟩ := h
                split at h
                · next hnodup =>
                  cases h
                  rw [Valid, ValidMembers]
                  exact ⟨hnodup, ihvalue _ _ _ hx, ihmembers _ _ _ hms⟩
                · cases h
            · rw [value_atom ⟨hquote, hbracket, hbrace⟩] at h
              exact valid_scanAtom h
      · intro cs xs rest h
        rw [items] at h
        split at h
        · cases h
          rw [ValidItems]
          trivial
        · simp only [Option.bind_eq_bind, Option.bind_eq_some_iff] at h
          obtain ⟨after, -, ⟨x, after'⟩, hx, ⟨ys, after''⟩, hys, h⟩ := h
          cases h
          rw [ValidItems]
          exact ⟨ihvalue _ _ _ hx, ihitems _ _ _ hys⟩
      · intro cs ms rest h
        rw [members] at h
        split at h
        · cases h
          rw [ValidMembers]
          trivial
        · simp only [Option.bind_eq_bind, Option.bind_eq_some_iff] at h
          obtain ⟨after, -, ⟨k, after'⟩, -, ⟨x, after''⟩, hx, ⟨ns, after'''⟩, hns, h⟩ := h
          cases h
          rw [ValidMembers]
          exact ⟨ihvalue _ _ _ hx, ihmembers _ _ _ hns⟩

/-- **A value that was read can be printed.** -/
theorem valid_of_loads {cs : List Char} {v : Json} (h : loads T cs = some v) : Valid T v := by
  unfold loads at h
  split at h
  · next w rest hvalue =>
    split at h
    · cases h
      exact (valid_read _).1 _ _ _ hvalue
    · cases h
  · cases h

end RoundTrip

/-! ## Sizes -/

mutual
/-- A bound of the length of a text, which adds up the lengths of its words. -/
def size : Json → Nat
  | .null    => 4
  | .bool _  => 5
  | .int n   => (Numeral.ofInt n).render.length
  | .float x => (floatText T x).length
  | .str s   => (quote s).length
  | .list xs => 2 + itemsSize xs
  | .dict ms => 2 + membersSize ms
def itemsSize : List Json → Nat
  | []      => 0
  | x :: xs => 1 + size x + itemsSize xs
def membersSize : List (String × Json) → Nat
  | []           => 0
  | (k, v) :: ms => 2 + (quote k).length + size v + membersSize ms
end

mutual
theorem length_text_le : ∀ v : Json, (text T v).length ≤ size T v
  | .null => by
      rw [text, size]
      decide
  | .bool true => by
      rw [text, size]
      decide
  | .bool false => by
      rw [text, size]
      decide
  | .int n => by rw [text, size]
  | .float x => by rw [text, size]
  | .str s => by rw [text, size]
  | .list [] => by
      rw [text, size]
      exact Nat.le_add_right _ _
  | .list (x :: xs) => by
      have hx := length_text_le x
      have hxs := length_listTail_le xs
      rw [text, size, itemsSize]
      simp only [List.length_cons, List.length_append]
      omega
  | .dict [] => by
      rw [text, size]
      exact Nat.le_add_right _ _
  | .dict ((k, v) :: ms) => by
      have hv := length_text_le v
      have hms := length_dictTail_le ms
      rw [text, size, membersSize]
      simp only [List.length_cons, List.length_append]
      omega
theorem length_listTail_le : ∀ xs : List Json, (listTail T xs).length ≤ 1 + itemsSize T xs
  | [] => by
      rw [listTail, itemsSize]
      decide
  | x :: xs => by
      have hx := length_text_le x
      have hxs := length_listTail_le xs
      rw [listTail, itemsSize]
      simp only [List.length_cons, List.length_append]
      omega
theorem length_dictTail_le : ∀ ms : List (String × Json), (dictTail T ms).length ≤ 1 + membersSize T ms
  | [] => by
      rw [dictTail, membersSize]
      decide
  | (k, v) :: ms => by
      have hv := length_text_le v
      have hms := length_dictTail_le ms
      rw [dictTail, membersSize]
      simp only [List.length_cons, List.length_append]
      omega
end

theorem utf8ByteSize_ofList_le (cs : List Char) : (String.ofList cs).utf8ByteSize ≤ 4 * cs.length := by
  induction cs with
  | nil => decide
  | cons c cs ih =>
      rw [← List.singleton_append, String.ofList_append, String.utf8ByteSize_append, List.length_append]
      have hc : (String.ofList [c]).utf8ByteSize ≤ 4 := by
        show (String.singleton c).utf8ByteSize ≤ 4
        rw [String.utf8ByteSize_singleton]
        exact Char.utf8Size_le_four c
      simp only [List.length_singleton]
      omega

end JsonText
end Python
end PickleInfra
