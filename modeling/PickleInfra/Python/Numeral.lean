import Mathlib.Algebra.Order.Ring.Rat
import Mathlib.Algebra.Field.Rat
import Mathlib.Tactic.Ring
import PickleInfra.Python.Text

/-!
# `Python.Numeral` — numbers as they are written

A numeral is a sign, digits, an optional fraction and an optional exponent. It is rendered by `render`,
and read back by two grammars: a JSON number (`scanJson`, which also returns what follows), and the
decimal notation of `Decimal` and `float` (`parse`, which reads a whole text). Scanning what was rendered
gives the numeral back (`scanJson_render`).
-/

namespace PickleInfra
namespace Python

open Text

/-! ## Digits -/

/-- The longest run of digits at the start, and what follows. -/
def spanDigits (cs : List Char) : List Char × List Char := (cs.takeWhile isDigit, cs.dropWhile isDigit)

/-- The text does not start with a character of the class. -/
def StopsAt (cls : Char → Bool) (cs : List Char) : Prop := ∀ c, cs.head? = some c → cls c = false

theorem takeWhile_append_stop {cls : Char → Bool} {ds rest : List Char} (hds : ds.all cls = true)
    (hrest : StopsAt cls rest) : (ds ++ rest).takeWhile cls = ds ∧ (ds ++ rest).dropWhile cls = rest := by
  induction ds with
  | nil =>
      cases rest with
      | nil => exact ⟨rfl, rfl⟩
      | cons c cs =>
          have hc : cls c = false := hrest c rfl
          simp [hc]
  | cons d ds ih =>
      rw [List.all_cons, Bool.and_eq_true] at hds
      obtain ⟨htake, hdrop⟩ := ih hds.2
      rw [List.cons_append, List.takeWhile_cons_of_pos hds.1, List.dropWhile_cons_of_pos hds.1, htake, hdrop]
      exact ⟨rfl, rfl⟩

theorem spanDigits_append {ds rest : List Char} (hds : ds.all isDigit = true)
    (hrest : StopsAt isDigit rest) : spanDigits (ds ++ rest) = (ds, rest) := by
  obtain ⟨htake, hdrop⟩ := takeWhile_append_stop hds hrest
  unfold spanDigits
  rw [htake, hdrop]

/-- The number that digits write. -/
def digitsValue (ds : List Char) : Nat := Nat.ofDigitChars 10 ds 0

theorem isDigit_digitChar {n : Nat} (h : n < 10) : isDigit n.digitChar = true := by
  revert n
  decide

theorem toDigits_isDigit (n : Nat) : (Nat.toDigits 10 n).all isDigit = true := by
  rw [List.all_eq_true]
  intro c hc
  have hc' := Nat.isDigit_of_mem_toDigits (by decide) (by decide) hc
  rw [Char.isDigit_iff_toNat] at hc'
  unfold isDigit
  rw [Bool.and_eq_true, decide_eq_true_eq, decide_eq_true_eq, Char.le_def, Char.le_def]
  exact hc'

theorem digit_bounds {d : Char} (h : isDigit d = true) : 48 ≤ d.toNat ∧ d.toNat ≤ 57 := by
  unfold isDigit at h
  rw [Bool.and_eq_true, decide_eq_true_eq, decide_eq_true_eq, Char.le_def, Char.le_def] at h
  exact h

theorem digitsValue_cons (d : Char) (ds : List Char) :
    digitsValue (d :: ds) = (d.toNat - '0'.toNat) * 10 ^ ds.length + digitsValue ds := by
  unfold digitsValue
  rw [Nat.ofDigitChars_cons, Nat.ofDigitChars_eq_ofDigitChars_zero]
  ring

theorem digitsValue_lt {ds : List Char} (h : ds.all isDigit = true) : digitsValue ds < 10 ^ ds.length := by
  induction ds with
  | nil => decide
  | cons d ds ih =>
      rw [List.all_cons, Bool.and_eq_true] at h
      have hd := digit_bounds h.1
      have hrest := ih h.2
      have hdigit : d.toNat - '0'.toNat ≤ 9 := by
        show d.toNat - 48 ≤ 9
        omega
      rw [digitsValue_cons, List.length_cons, pow_succ]
      calc (d.toNat - '0'.toNat) * 10 ^ ds.length + digitsValue ds
          < (d.toNat - '0'.toNat) * 10 ^ ds.length + 10 ^ ds.length := by omega
        _ = (d.toNat - '0'.toNat + 1) * 10 ^ ds.length := by rw [Nat.succ_mul]
        _ ≤ 10 * 10 ^ ds.length := Nat.mul_le_mul_right _ (by omega)
        _ = 10 ^ ds.length * 10 := Nat.mul_comm _ _

/-! ## Numerals -/

/-- What follows `e`. -/
structure Exponent where
  mark : Char
  sign : Option Char
  digits : List Char
deriving DecidableEq, Repr

structure Numeral where
  sign : Option Char
  whole : List Char
  fraction : Option (List Char)
  exponent : Option Exponent
deriving DecidableEq, Repr

def Exponent.render (e : Exponent) : List Char := e.mark :: (e.sign.toList ++ e.digits)

def Exponent.value (e : Exponent) : Int :=
  if e.sign = some '-' then -(digitsValue e.digits : Int) else digitsValue e.digits

namespace Numeral

def render (n : Numeral) : List Char :=
  n.sign.toList ++ n.whole ++ (n.fraction.map (fun f => '.' :: f)).getD []
    ++ (n.exponent.map Exponent.render).getD []

/-- The digits without the point, and the power of ten they are multiplied with. -/
def coefficient (n : Numeral) : Nat := digitsValue (n.whole ++ n.fraction.getD [])

def power (n : Numeral) : Int :=
  (n.exponent.map Exponent.value).getD 0 - ((n.fraction.getD []).length : Int)

/-- The exact decimal. -/
def value (n : Numeral) : ℚ :=
  (if n.sign = some '-' then -1 else 1) * (n.coefficient : ℚ) * (10 : ℚ) ^ n.power

/-- Without a fraction and an exponent the numeral is an integer. -/
def isIntegral (n : Numeral) : Bool := n.fraction.isNone && n.exponent.isNone

/-- The integer of an integral numeral. -/
def intValue (n : Numeral) : Int :=
  if n.sign = some '-' then -(digitsValue n.whole : Int) else digitsValue n.whole

/-! ## Scanning -/

/-- `c` at the start of the text is dropped. -/
def dropChar? (c : Char) : List Char → Option (List Char)
  | x :: rest => if x = c then some rest else none
  | []        => none

theorem dropChar?_cons (c : Char) (rest : List Char) : dropChar? c (c :: rest) = some rest := if_pos rfl

theorem dropChar?_stop {c : Char} {cs : List Char} (h : StopsAt (· = c) cs) : dropChar? c cs = none := by
  cases cs with
  | nil => rfl
  | cons x rest =>
      have hx : ¬ x = c := by simpa using h x rfl
      exact if_neg hx

/-- An optional sign, of the ones given. -/
def scanSign (signs : List Char) : List Char → Option Char × List Char
  | x :: rest => if signs.contains x then (some x, rest) else (none, x :: rest)
  | []        => (none, [])

/-- `([eE][+-]?[0-9]+)?` -/
def scanExponent (cs : List Char) : Option Exponent × List Char :=
  match cs with
  | mark :: rest =>
    if mark = 'e' || mark = 'E' then
      let (sign, rest) := scanSign ['+', '-'] rest
      let (digits, rest) := spanDigits rest
      if digits.isEmpty then (none, cs) else (some { mark, sign, digits }, rest)
    else (none, cs)
  | []        => (none, cs)

/-- `(\.[0-9]+)?` -/
def scanFraction (cs : List Char) : Option (List Char) × List Char :=
  match dropChar? '.' cs with
  | some rest =>
    let (digits, rest) := spanDigits rest
    if digits.isEmpty then (none, cs) else (some digits, rest)
  | none      => (none, cs)

/-- `0|[1-9][0-9]*` -/
def scanWhole (cs : List Char) : Option (List Char × List Char) :=
  match dropChar? '0' cs with
  | some rest => some (['0'], rest)
  | none      =>
    let (digits, rest) := spanDigits cs
    if digits.isEmpty then none else some (digits, rest)

/-- `(-?(?:0|[1-9][0-9]*))(\.[0-9]+)?([eE][-+]?[0-9]+)?` at the start of the text. -/
def scanJson (cs : List Char) : Option (Numeral × List Char) :=
  let (sign, cs) := scanSign ['-'] cs
  (scanWhole cs).map fun (whole, cs) =>
    let (fraction, cs) := scanFraction cs
    let (exponent, cs) := scanExponent cs
    ({ sign, whole, fraction, exponent }, cs)

/-- `[+-]?(?:[0-9]+(?:\.[0-9]*)?|\.[0-9]+)(?:[eE][+-]?[0-9]+)?` over the whole text. -/
def parse (cs : List Char) : Option Numeral :=
  let (sign, cs) := scanSign ['+', '-'] cs
  let (whole, cs) := spanDigits cs
  let (fraction, cs) := match dropChar? '.' cs with
    | some rest => let (digits, rest) := spanDigits rest; (some digits, rest)
    | none      => (none, cs)
  let (exponent, cs) := scanExponent cs
  if (whole ++ fraction.getD []).isEmpty || !cs.isEmpty then none
  else some { sign, whole, fraction, exponent }

/-! ## What was rendered is scanned back -/

/-- A numeral of the JSON grammar. -/
structure IsJson (n : Numeral) : Prop where
  sign : n.sign = none ∨ n.sign = some '-'
  whole : n.whole = ['0'] ∨ (n.whole.all isDigit = true ∧ ∃ c cs, n.whole = c :: cs ∧ c ≠ '0')
  fraction : ∀ f, n.fraction = some f → f.all isDigit = true ∧ f ≠ []
  exponent : ∀ e, n.exponent = some e → (e.mark = 'e' ∨ e.mark = 'E') ∧
    (e.sign = none ∨ e.sign = some '+' ∨ e.sign = some '-') ∧ e.digits.all isDigit = true ∧ e.digits ≠ []

/-- The characters that would continue a numeral. -/
def continues (c : Char) : Bool := isDigit c || c = '.' || c = 'e' || c = 'E'

end Numeral

theorem StopsAt.mono {cls cls' : Char → Bool} {cs : List Char} (h : StopsAt cls cs)
    (hcls : ∀ c, cls' c = true → cls c = true) : StopsAt cls' cs := by
  intro c hc
  by_contra hne
  rw [Bool.not_eq_false] at hne
  exact absurd (hcls c hne) (by rw [h c hc]; decide)

theorem StopsAt.cons {cls : Char → Bool} {c : Char} {cs : List Char} (h : cls c = false) :
    StopsAt cls (c :: cs) := by
  intro x hx
  cases hx
  exact h

theorem StopsAt.nil (cls : Char → Bool) : StopsAt cls [] := by
  intro c hc
  cases hc

namespace Numeral

theorem scanSign_some {signs : List Char} {c : Char} (h : c ∈ signs) (rest : List Char) :
    scanSign signs (c :: rest) = (some c, rest) := by
  unfold scanSign
  dsimp only
  rw [if_pos (List.contains_iff_mem.mpr h)]

theorem scanSign_none {signs : List Char} {cs : List Char} (h : StopsAt signs.contains cs) :
    scanSign signs cs = (none, cs) := by
  cases cs with
  | nil => rfl
  | cons c rest =>
      have hc : signs.contains c = false := h c rfl
      unfold scanSign
      dsimp only
      rw [hc]
      rfl

theorem stopsAt_digits {cls : Char → Bool} {ds rest : List Char} (hds : ds.all isDigit = true)
    (hne : ds ≠ []) (hcls : ∀ c, isDigit c = true → cls c = false) : StopsAt cls (ds ++ rest) := by
  cases ds with
  | nil => exact absurd rfl hne
  | cons d ds =>
      rw [List.all_cons, Bool.and_eq_true] at hds
      exact StopsAt.cons (hcls d hds.1)

theorem not_sign_of_isDigit {c : Char} (h : isDigit c = true) : ['+', '-'].contains c = false := by
  rw [← Bool.not_eq_true, List.contains_iff_mem]
  intro hmem
  simp only [List.mem_cons, List.not_mem_nil, or_false] at hmem
  rcases hmem with rfl | rfl <;> exact absurd h (by decide)

theorem scanExponent_render {e : Exponent} (hmark : e.mark = 'e' ∨ e.mark = 'E')
    (hsign : e.sign = none ∨ e.sign = some '+' ∨ e.sign = some '-') (hdigits : e.digits.all isDigit = true)
    (hne : e.digits ≠ []) {rest : List Char} (hrest : StopsAt isDigit rest) :
    scanExponent (e.render ++ rest) = (some e, rest) := by
  obtain ⟨mark, sign, digits⟩ := e
  have hscan : scanSign ['+', '-'] (sign.toList ++ digits ++ rest) = (sign, digits ++ rest) := by
    rcases hsign with rfl | rfl | rfl
    · exact scanSign_none (stopsAt_digits hdigits hne fun c => not_sign_of_isDigit)
    · exact scanSign_some (by decide) _
    · exact scanSign_some (by decide) _
  have hmark' : (decide (mark = 'e') || decide (mark = 'E')) = true := by
    rw [Bool.or_eq_true, decide_eq_true_eq, decide_eq_true_eq]
    exact hmark
  unfold Exponent.render scanExponent
  rw [List.cons_append]
  dsimp only
  rw [if_pos hmark', hscan]
  dsimp only
  rw [spanDigits_append hdigits hrest]
  dsimp only
  rw [if_neg (by simpa using hne)]

theorem scanExponent_stop {cs : List Char} (h : StopsAt continues cs) : scanExponent cs = (none, cs) := by
  cases cs with
  | nil => rfl
  | cons c rest =>
      have hc := h c rfl
      unfold continues at hc
      unfold scanExponent
      simp only [Bool.or_eq_false_iff] at hc
      dsimp only
      rw [hc.1.2, hc.2]
      rfl

theorem scanFraction_some {f rest : List Char} (hf : f.all isDigit = true) (hne : f ≠ [])
    (hrest : StopsAt isDigit rest) : scanFraction ('.' :: f ++ rest) = (some f, rest) := by
  unfold scanFraction
  rw [List.cons_append, dropChar?_cons]
  dsimp only
  rw [spanDigits_append hf hrest]
  dsimp only
  rw [if_neg (by simpa using hne)]

theorem scanFraction_none {cs : List Char} (h : StopsAt (· = '.') cs) : scanFraction cs = (none, cs) := by
  unfold scanFraction
  rw [dropChar?_stop h]

theorem scanWhole_append {n : Numeral} (h : n.IsJson) {rest : List Char} (hrest : StopsAt isDigit rest) :
    scanWhole (n.whole ++ rest) = some (n.whole, rest) := by
  unfold scanWhole
  rcases h.whole with hzero | ⟨hdigits, c, cs, hcons, hc⟩
  · rw [hzero, List.cons_append, dropChar?_cons]
    rfl
  · have hstop : StopsAt (· = '0') (n.whole ++ rest) := by
      rw [hcons]
      exact StopsAt.cons (by simpa using hc)
    rw [dropChar?_stop hstop]
    dsimp only
    rw [spanDigits_append hdigits hrest]
    dsimp only
    rw [if_neg (by rw [hcons]; exact Bool.false_ne_true)]

/-- What follows the digits of a numeral does not start with a digit. -/
theorem stopsAt_tail {n : Numeral} (h : n.IsJson) {rest : List Char} (hrest : StopsAt continues rest) :
    StopsAt (fun c => isDigit c || c = '.') ((n.exponent.map Exponent.render).getD [] ++ rest) := by
  cases he : n.exponent with
  | none =>
      apply hrest.mono
      intro c hc
      unfold continues
      simp only [Bool.or_eq_true] at hc ⊢
      exact .inl (.inl hc)
  | some e =>
      have hmark := (h.exponent e he).1
      apply StopsAt.cons
      rcases hmark with hmark | hmark <;> rw [hmark] <;> decide

/-- **A JSON numeral that was rendered is scanned back**, and what follows it is left. -/
theorem scanJson_render {n : Numeral} (h : n.IsJson) {rest : List Char} (hrest : StopsAt continues rest) :
    scanJson (n.render ++ rest) = some (n, rest) := by
  obtain ⟨sign, whole, fraction, exponent⟩ := n
  have htail := stopsAt_tail h hrest
  have hdigit : ∀ cs, StopsAt (fun c => isDigit c || c = '.') cs → StopsAt isDigit cs :=
    fun cs hcs => hcs.mono fun c hc => by rw [hc, Bool.true_or]
  have hafter : StopsAt isDigit ((fraction.map (fun f => '.' :: f)).getD [] ++
      ((exponent.map Exponent.render).getD [] ++ rest)) := by
    cases fraction with
    | none => exact hdigit _ htail
    | some f => exact StopsAt.cons (by decide)
  have hsign : scanSign ['-'] (sign.toList ++ (whole ++ ((fraction.map (fun f => '.' :: f)).getD [] ++
      ((exponent.map Exponent.render).getD [] ++ rest)))) = (sign, whole ++
        ((fraction.map (fun f => '.' :: f)).getD [] ++ ((exponent.map Exponent.render).getD [] ++ rest))) := by
    rcases h.sign with hs | hs
    · cases hs
      show scanSign ['-'] (whole ++ _) = _
      apply scanSign_none
      rcases h.whole with hw | ⟨hw, c, cs, hcons, -⟩
      · cases hw
        exact StopsAt.cons (by decide)
      · have hne : whole ≠ [] := by
          rintro rfl
          cases hcons
        apply stopsAt_digits hw hne
        intro c hc
        rw [← Bool.not_eq_true, List.contains_iff_mem, List.mem_singleton]
        rintro rfl
        exact absurd hc (by decide)
    · cases hs
      exact scanSign_some (by decide) _
  have hfraction : scanFraction ((fraction.map (fun f => '.' :: f)).getD [] ++
      ((exponent.map Exponent.render).getD [] ++ rest)) =
        (fraction, (exponent.map Exponent.render).getD [] ++ rest) := by
    cases hf : fraction with
    | none => exact scanFraction_none (htail.mono fun c hc => by rw [hc, Bool.or_true])
    | some f =>
        cases hf
        obtain ⟨hall, hne⟩ := h.fraction f rfl
        exact scanFraction_some hall hne (hdigit _ htail)
  have hexponent : scanExponent ((exponent.map Exponent.render).getD [] ++ rest) = (exponent, rest) := by
    cases he : exponent with
    | none => exact scanExponent_stop hrest
    | some e =>
        cases he
        obtain ⟨hmark, hs, hall, hne⟩ := h.exponent e rfl
        refine scanExponent_render hmark hs hall hne (hrest.mono ?_)
        intro c hc
        unfold continues
        rw [hc]
        rfl
  unfold scanJson render
  simp only [List.append_assoc]
  rw [hsign]
  dsimp only
  rw [scanWhole_append h hafter]
  simp only [Option.map_some]
  rw [hfraction]
  dsimp only
  rw [hexponent]

theorem whole_digits {n : Numeral} (h : n.IsJson) : n.whole.all isDigit = true ∧ n.whole ≠ [] := by
  rcases h.whole with hzero | ⟨hdigits, c, cs, hcons, -⟩
  · rw [hzero]
    exact ⟨by decide, List.cons_ne_nil _ _⟩
  · rw [hcons] at hdigits ⊢
    exact ⟨hdigits, List.cons_ne_nil _ _⟩

/-- The characters of a numeral. -/
def isNumeralChar (c : Char) : Bool := isDigit c || ['+', '-', '.', 'e', 'E'].contains c

theorem render_chars {n : Numeral} (h : n.IsJson) : n.render.all isNumeralChar = true := by
  have hdigits : ∀ ds : List Char, ds.all isDigit = true → ds.all isNumeralChar = true := by
    intro ds hds
    rw [List.all_eq_true] at hds ⊢
    intro c hc
    unfold isNumeralChar
    rw [hds c hc, Bool.true_or]
  unfold render
  simp only [List.all_append, Bool.and_eq_true]
  refine ⟨⟨⟨?_, hdigits _ (whole_digits h).1⟩, ?_⟩, ?_⟩
  · rcases h.sign with hs | hs
    · rw [hs]
      rfl
    · rw [hs]
      decide
  · cases hf : n.fraction with
    | none => rfl
    | some f =>
        show ('.' :: f).all isNumeralChar = true
        rw [List.all_cons, hdigits f (h.fraction f hf).1]
        decide
  · cases he : n.exponent with
    | none => rfl
    | some e =>
        obtain ⟨hmark, hsign, hall, -⟩ := h.exponent e he
        show (e.mark :: (e.sign.toList ++ e.digits)).all isNumeralChar = true
        rw [List.all_cons, List.all_append, hdigits _ hall, Bool.and_true, Bool.and_eq_true]
        constructor
        · rcases hmark with hmark | hmark <;> rw [hmark] <;> decide
        · rcases hsign with hs | hs | hs <;> rw [hs] <;> decide

/-- A JSON numeral is read back as a decimal. -/
theorem parse_render {n : Numeral} (h : n.IsJson) : parse n.render = some n := by
  obtain ⟨hwhole, hne⟩ := whole_digits h
  obtain ⟨sign, whole, fraction, exponent⟩ := n
  have htail := stopsAt_tail h (StopsAt.nil continues)
  rw [List.append_nil] at htail
  have hdigit : ∀ cs, StopsAt (fun c => isDigit c || c = '.') cs → StopsAt isDigit cs :=
    fun cs hcs => hcs.mono fun c hc => by rw [hc, Bool.true_or]
  have hafter : StopsAt isDigit ((fraction.map (fun f => '.' :: f)).getD [] ++
      (exponent.map Exponent.render).getD []) := by
    cases fraction with
    | none => exact hdigit _ htail
    | some f => exact StopsAt.cons (by decide)
  have hsign : scanSign ['+', '-'] (sign.toList ++ (whole ++ ((fraction.map (fun f => '.' :: f)).getD [] ++
      (exponent.map Exponent.render).getD []))) = (sign, whole ++
        ((fraction.map (fun f => '.' :: f)).getD [] ++ (exponent.map Exponent.render).getD [])) := by
    rcases h.sign with hs | hs
    · cases hs
      show scanSign ['+', '-'] (whole ++ _) = _
      exact scanSign_none (stopsAt_digits hwhole hne fun c => not_sign_of_isDigit)
    · cases hs
      exact scanSign_some (by decide) _
  have hexponent : scanExponent ((exponent.map Exponent.render).getD []) = (exponent, []) := by
    cases he : exponent with
    | none => exact scanExponent_stop (StopsAt.nil _)
    | some e =>
        cases he
        obtain ⟨hmark, hs, hall, hdigits⟩ := h.exponent e rfl
        have hscan := scanExponent_render hmark hs hall hdigits (StopsAt.nil isDigit)
        rwa [List.append_nil] at hscan
  have hempty : ∀ f, (whole ++ f).isEmpty = false := by
    intro f
    cases whole with
    | nil => exact absurd rfl hne
    | cons c cs => rfl
  unfold parse render
  simp only [List.append_assoc]
  rw [hsign]
  dsimp only
  rw [spanDigits_append hwhole hafter]
  dsimp only
  cases hf : fraction with
  | none =>
      subst hf
      have hdrop : dropChar? '.' ((exponent.map Exponent.render).getD []) = none :=
        dropChar?_stop (htail.mono fun c hc => by rw [hc, Bool.or_true])
      simp only [Option.map_none, Option.getD_none, List.nil_append, hdrop, hexponent]
      rw [hempty]
      rfl
  | some f =>
      subst hf
      obtain ⟨hall, -⟩ := h.fraction f rfl
      simp only [Option.map_some, Option.getD_some, List.cons_append, dropChar?_cons,
        spanDigits_append hall (hdigit _ htail), hexponent]
      rw [hempty]
      rfl
/-! ## Integers -/

/-- `str(n)` -/
def ofInt (n : Int) : Numeral where
  sign := if n < 0 then some '-' else none
  whole := Nat.toDigits 10 n.natAbs
  fraction := none
  exponent := none

/-- The digits of a positive number do not start with a zero. -/
theorem toDigits_head (n : Nat) (h : 0 < n) : ∃ c cs, Nat.toDigits 10 n = c :: cs ∧ c ≠ '0' := by
  induction n using Nat.strong_induction_on with
  | _ n ih =>
      rw [Nat.toDigits_eq_if (by decide)]
      by_cases hn : n < 10
      · rw [if_pos hn]
        have hdigits : ∀ m < 10, 0 < m → m.digitChar ≠ '0' := by decide
        exact ⟨n.digitChar, [], rfl, hdigits n hn h⟩
      · rw [if_neg hn]
        obtain ⟨c, cs, hcs, hc⟩ := ih (n / 10) (by omega) (by omega)
        exact ⟨c, cs ++ [(n % 10).digitChar], by rw [hcs]; rfl, hc⟩

theorem ofInt_isJson (n : Int) : (ofInt n).IsJson := by
  refine ⟨?_, ?_, fun f hf => (by cases hf), fun e he => (by cases he)⟩
  · unfold ofInt
    split
    · exact .inr rfl
    · exact .inl rfl
  · by_cases hn : n = 0
    · subst hn
      exact .inl rfl
    · exact .inr ⟨toDigits_isDigit _, toDigits_head _ (Int.natAbs_pos.mpr hn)⟩

@[simp] theorem digitsValue_toDigits (n : Nat) : digitsValue (Nat.toDigits 10 n) = n :=
  Nat.ofDigitChars_ten_toDigits

theorem intValue_ofInt (n : Int) : (ofInt n).intValue = n := by
  unfold intValue ofInt
  dsimp only
  rw [digitsValue_toDigits]
  by_cases h : n < 0
  · rw [if_pos h, if_pos rfl]
    omega
  · rw [if_neg h, if_neg (by decide)]
    omega

end Numeral
end Python
end PickleInfra
