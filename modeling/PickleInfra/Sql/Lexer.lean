import Mathlib.Data.List.Basic

/-!
# `Sql.Lexer` — the tokens of PostgreSQL

The lexical rules with `standard_conforming_strings` on, one character at a time: the mode says what the last
characters may still be part of, and the token that is being built is the first of the output. `none` stands for an
error, and for the syntax that is left out: comments, quoted identifiers, parameters, the strings that a letter before
the quote makes special, and numbers that are not digits only.
-/

namespace PickleInfra
namespace Sql

/-! ## Tokens -/

inductive Token where
  /-- An identifier or a keyword. -/
  | word (cs : List Char)
  | number (cs : List Char)
  /-- The value between quotes. -/
  | string (cs : List Char)
  /-- The text between two tags. -/
  | dollar (tag body : List Char)
  | operator (cs : List Char)
  | symbol (c : Char)
deriving DecidableEq, Repr

/-- The token with one more character. -/
def Token.snoc : Token → Char → Token
  | .word cs, c         => .word (cs ++ [c])
  | .number cs, c       => .number (cs ++ [c])
  | .string cs, c       => .string (cs ++ [c])
  | .dollar tag body, c => .dollar tag (body ++ [c])
  | .operator cs, c     => .operator (cs ++ [c])
  | .symbol d, _        => .symbol d

/-- The tokens so far, the last one first. -/
abbrev Output := List Token

def Output.grow (o : Output) (c : Char) : Option Output :=
  match o with
  | []     => none
  | t :: o => some (t.snoc c :: o)

/-! ## Characters -/

def isSpace (c : Char) : Bool := [' ', '\t', '\n', '\r', '\x0b', '\x0c'].contains c

def isNewline (c : Char) : Bool := c = '\n' || c = '\r'

def isDigit (c : Char) : Bool := '0' ≤ c && c ≤ '9'

/-- `ident_start` -/
def isIdentStart (c : Char) : Bool := ('a' ≤ c && c ≤ 'z') || ('A' ≤ c && c ≤ 'Z') || c = '_' || 128 ≤ c.toNat

/-- `ident_cont` -/
def isIdent (c : Char) : Bool := isIdentStart c || isDigit c || c = '$'

/-- `op_chars` -/
def isOperator (c : Char) : Bool :=
  ['~', '!', '@', '#', '^', '&', '|', '\x60', '?', '+', '-', '*', '/', '%', '<', '>', '='].contains c

def isSelf (c : Char) : Bool := [',', '(', ')', '[', ']', ';'].contains c

/-- A letter that makes the string after it special, or the beginning of what does. -/
def isMark (c : Char) : Bool := ['b', 'e', 'n', 'u', 'x', 'B', 'E', 'N', 'U', 'X'].contains c

/-! ## Modes -/

inductive Mode where
  | blank
  /-- In a word, which so far is a letter that would make a string special or is not. -/
  | word (mark : Bool)
  | number
  /-- In an operator, of one character or of more. -/
  | operator (last : Char) (long : Bool)
  | colon
  | dot
  | string
  /-- After a quote, which ends the string unless another one follows. -/
  | quote
  /-- After a string and blanks. Another string goes on with it if there was a line end. -/
  | gap (newline : Bool)
  /-- In the tag that opens a text. -/
  | tag
  | body
  /-- In a text, after a dollar and some characters that may be its tag. -/
  | closing (seen : List Char)
deriving DecidableEq, Repr

/-- A character that begins something new. -/
def fresh (o : Output) (c : Char) : Option (Mode × Output) :=
  if isSpace c then some (.blank, o)
  else if isIdentStart c then some (.word (isMark c), .word [c] :: o)
  else if isDigit c then some (.number, .number [c] :: o)
  else if c = '\'' then some (.string, .string [] :: o)
  else if c = '$' then some (.tag, .dollar [] [] :: o)
  else if c = ':' then some (.colon, .operator [c] :: o)
  else if c = '.' then some (.dot, .symbol c :: o)
  else if isSelf c then some (.blank, .symbol c :: o)
  else if isOperator c then some (.operator c false, .operator [c] :: o)
  else none

/-- A character of the tag that opens a text. -/
def stepTag (o : Output) (c : Char) : Option (Mode × Output) :=
  match o with
  | .dollar tag body :: o =>
    if c = '$' then some (.body, .dollar tag body :: o)
    else if isIdentStart c || (isDigit c && !tag.isEmpty) then some (.tag, .dollar (tag ++ [c]) body :: o)
    else none
  | _                     => none

/-- A character after a dollar inside a text. What is not the tag is part of the text, but for its last dollar, which may
    begin the tag. -/
def stepClosing (seen : List Char) (o : Output) (c : Char) : Option (Mode × Output) :=
  match o with
  | .dollar tag body :: o =>
    if c = '$' then
      if seen = tag then some (.blank, .dollar tag body :: o)
      else some (.closing [], .dollar tag (body ++ '$' :: seen) :: o)
    else if isIdentStart c || (isDigit c && !seen.isEmpty) then some (.closing (seen ++ [c]), .dollar tag body :: o)
    else some (.body, .dollar tag (body ++ '$' :: (seen ++ [c])) :: o)
  | _                     => none

/-- One character. There is no zero character in a text of SQL. -/
def step (m : Mode) (o : Output) (c : Char) : Option (Mode × Output) :=
  if c.toNat = 0 then none else
  match m with
  | .blank              => fresh o c
  | .word mark          =>
    if isIdent c then (o.grow c).map (.word false, ·) else if mark && (c = '\'' || c = '&') then none else fresh o c
  | .number             =>
    if isDigit c then (o.grow c).map (.number, ·) else if isIdentStart c || c = '.' then none else fresh o c
  | .operator last long =>
    if isOperator c then
      if (last = '-' && c = '-') || (last = '/' && c = '*') then none else (o.grow c).map (.operator c true, ·)
    else if long && (last = '+' || last = '-') then none
    else fresh o c
  | .colon              => if c = ':' || c = '=' then (o.grow c).map (.blank, ·) else fresh o c
  | .dot                => if isDigit c || c = '.' then none else fresh o c
  | .string             => if c = '\'' then some (.quote, o) else (o.grow c).map (.string, ·)
  | .quote              =>
    if c = '\'' then (o.grow c).map (.string, ·) else if isSpace c then some (.gap (isNewline c), o) else fresh o c
  | .gap newline        =>
    if c = '\'' && newline then if o.isEmpty then none else some (.string, o)
    else if isSpace c then some (.gap (newline || isNewline c), o)
    else fresh o c
  | .tag                => stepTag o c
  | .body               => if c = '$' then some (.closing [], o) else (o.grow c).map (.body, ·)
  | .closing seen       => stepClosing seen o c

/-- A text, character by character. -/
def run (m : Mode) (o : Output) : List Char → Option (Mode × Output)
  | []      => some (m, o)
  | c :: cs => (step m o c).bind fun r => run r.1 r.2 cs

/-- Nothing is open where the text ends. -/
def Mode.ends : Mode → Bool
  | .blank | .word _ | .number | .dot | .quote | .gap _ => true
  | .operator last long                                 => !(long && (last = '+' || last = '-'))
  | .colon | .string | .tag | .body | .closing _        => false

/-- The tokens of a text. -/
def lex (cs : List Char) : Option (List Token) :=
  (run .blank [] cs).bind fun r => if r.1.ends then some r.2.reverse else none

example : lex "d->>'a''b' <> 1::text;".toList = some [.word ['d'], .operator ['-', '>', '>'], .string ['a', '\'', 'b'],
    .operator ['<', '>'], .number ['1'], .operator [':', ':'], .word ['t', 'e', 'x', 't'], .symbol ';'] := by decide +kernel
example : lex "DO $a$'$b$a$;".toList =
    some [.word ['D', 'O'], .dollar ['a'] ['\'', '$', 'b'], .symbol ';'] := by decide +kernel
example : lex "'a'\n'b' 'c'".toList = some [.string ['a', 'b'], .string ['c']] := by decide +kernel

/-! ## Composition -/

@[simp] theorem run_nil (m : Mode) (o : Output) : run m o [] = some (m, o) := rfl

theorem run_cons (m : Mode) (o : Output) (c : Char) (cs : List Char) :
    run m o (c :: cs) = (step m o c).bind fun r => run r.1 r.2 cs := rfl

theorem run_append (m : Mode) (o : Output) (as bs : List Char) :
    run m o (as ++ bs) = (run m o as).bind fun r => run r.1 r.2 bs := by
  induction as generalizing m o with
  | nil => rfl
  | cons a as ih =>
      rw [List.cons_append, run_cons, run_cons]
      cases step m o a with
      | none   => rfl
      | some r => exact ih r.1 r.2

/-- What comes before the tokens that are written is not read. -/
def Framed (f : Output → Option (Mode × Output)) : Prop :=
  ∀ o m o', f o = some (m, o') → ∀ p, f (o ++ p) = some (m, o' ++ p)

theorem framed_none : Framed fun _ => none := fun _ _ _ h => (by cases h)

theorem framed_keep (m : Mode) : Framed fun o => some (m, o) := by
  intro o m' o' h p
  cases h
  rfl

theorem framed_push (m : Mode) (t : Token) : Framed fun o => some (m, t :: o) := by
  intro o m' o' h p
  cases h
  rfl

theorem framed_grow (m : Mode) (c : Char) : Framed fun o => (o.grow c).map (m, ·) := by
  intro o m' o' h p
  cases o with
  | nil      => cases h
  | cons t o =>
      cases h
      rfl

theorem framed_ite {q : Prop} [Decidable q] {f g : Output → Option (Mode × Output)} (hf : Framed f) (hg : Framed g) :
    Framed fun o => if q then f o else g o := by
  split
  · exact hf
  · exact hg

theorem framed_fresh (c : Char) : Framed fun o => fresh o c := by
  unfold fresh
  exact framed_ite (framed_keep _) <| framed_ite (framed_push _ _) <| framed_ite (framed_push _ _) <|
    framed_ite (framed_push _ _) <| framed_ite (framed_push _ _) <| framed_ite (framed_push _ _) <|
    framed_ite (framed_push _ _) <| framed_ite (framed_push _ _) <| framed_ite (framed_push _ _) framed_none

theorem framed_stepTag (c : Char) : Framed fun o => stepTag o c := by
  intro o m o' h p
  cases o with
  | nil      => cases h
  | cons t o =>
      cases t with
      | dollar tag body =>
          unfold stepTag at h ⊢
          dsimp only [List.cons_append] at h ⊢
          split_ifs at h ⊢ <;> cases h <;> rfl
      | word | number | string | operator | symbol => cases h

theorem framed_stepClosing (seen : List Char) (c : Char) : Framed fun o => stepClosing seen o c := by
  intro o m o' h p
  cases o with
  | nil      => cases h
  | cons t o =>
      cases t with
      | dollar tag body =>
          unfold stepClosing at h ⊢
          dsimp only [List.cons_append] at h ⊢
          split_ifs at h ⊢ <;> cases h <;> rfl
      | word | number | string | operator | symbol => cases h

/-- A string that goes on was there before. -/
theorem framed_resume : Framed fun o => if o.isEmpty then none else some (.string, o) := by
  intro o m o' h p
  cases o with
  | nil      => cases h
  | cons t o =>
      cases h
      rfl

/-- **A step reads only the tokens it has begun.** -/
theorem framed_step (m : Mode) (c : Char) : Framed fun o => step m o c := by
  unfold step
  refine framed_ite framed_none ?_
  cases m with
  | blank              => exact framed_fresh c
  | word mark          => exact framed_ite (framed_grow _ c) (framed_ite framed_none (framed_fresh c))
  | number             => exact framed_ite (framed_grow _ c) (framed_ite framed_none (framed_fresh c))
  | operator last long =>
      exact framed_ite (framed_ite framed_none (framed_grow _ c)) (framed_ite framed_none (framed_fresh c))
  | colon              => exact framed_ite (framed_grow _ c) (framed_fresh c)
  | dot                => exact framed_ite framed_none (framed_fresh c)
  | string             => exact framed_ite (framed_keep _) (framed_grow _ c)
  | quote              => exact framed_ite (framed_grow _ c) (framed_ite (framed_keep _) (framed_fresh c))
  | gap newline        => exact framed_ite framed_resume (framed_ite (framed_keep _) (framed_fresh c))
  | tag                => exact framed_stepTag c
  | body               => exact framed_ite (framed_keep _) (framed_grow _ c)
  | closing seen       => exact framed_stepClosing seen c

theorem run_frame {m m' : Mode} {o o' : Output} {cs : List Char} (h : run m o cs = some (m', o')) (p : Output) :
    run m (o ++ p) cs = some (m', o' ++ p) := by
  induction cs generalizing m o with
  | nil =>
      cases h
      rfl
  | cons c cs ih =>
      rw [run_cons] at h ⊢
      obtain ⟨⟨m₁, o₁⟩, hstep, hrun⟩ := Option.bind_eq_some_iff.mp h
      have hframed : step m (o ++ p) c = some (m₁, o₁ ++ p) := framed_step m c o m₁ o₁ hstep p
      rw [hframed, Option.bind_some]
      exact ih hrun

/-- **There is no zero character** in a text that is read. -/
theorem run_zero {m : Mode} {o : Output} {cs : List Char} (h : Char.ofNat 0 ∈ cs) : run m o cs = none := by
  induction cs generalizing m o with
  | nil => cases h
  | cons c cs ih =>
      rw [run_cons]
      rcases List.mem_cons.mp h with rfl | htail
      · have hzero : step m o (Char.ofNat 0) = none := if_pos rfl
        rw [hzero, Option.bind_none]
      · cases step m o c with
        | none   => rfl
        | some r => exact ih htail

/-! ## Literals -/

/-- Nothing goes on where a letter, a digit, a quote or a dollar comes next. -/
def Mode.closed : Mode → Bool
  | .blank              => true
  | .operator last long => !(long && (last = '+' || last = '-'))
  | _                   => false

/-- The characters that begin a word, a number, a string or a text. -/
def begins (c : Char) : Bool := isIdentStart c || isDigit c || c = '\'' || c = '$'

theorem toNat_of_begins {c : Char} (h : begins c = true) : c.toNat ≠ 0 := by
  intro h0
  have hc : c = Char.ofNat 0 := by rw [← Char.ofNat_toNat c, h0]
  rw [hc] at h
  exact absurd h (by decide)

theorem not_operator_of_begins {c : Char} (h : begins c = true) : isOperator c = false := by
  cases hc : isOperator c with
  | false => rfl
  | true  =>
      have hmem := List.contains_iff_mem.mp hc
      simp only [List.mem_cons, List.not_mem_nil, or_false] at hmem
      rcases hmem with rfl | rfl | rfl | rfl | rfl | rfl | rfl | rfl | rfl | rfl | rfl | rfl | rfl | rfl | rfl | rfl | rfl <;>
        exact absurd h (by decide)

theorem step_of_closed {m : Mode} (hm : m.closed = true) (o : Output) {c : Char} (hc : begins c = true) :
    step m o c = fresh o c := by
  unfold step
  rw [if_neg (toNat_of_begins hc)]
  cases m with
  | blank => rfl
  | operator last long =>
      dsimp only
      have hlast : ¬ (long && (last = '+' || last = '-')) = true := by
        rw [Bool.not_eq_true]
        exact Bool.not_eq_true' _ ▸ hm
      rw [if_neg (by rw [not_operator_of_begins hc]; exact Bool.false_ne_true), if_neg hlast]
  | word | number | colon | dot | string | quote | gap | tag | body | closing => cases hm

/-- A value inside quotes, its quotes doubled. -/
def quoted (cs : List Char) : List Char := '\'' :: (cs.flatMap (fun c => if c = '\'' then ['\'', '\''] else [c]) ++ ['\''])

theorem run_string (o : Output) {cs : List Char} (hzero : ∀ c ∈ cs, c.toNat ≠ 0) (acc : List Char) :
    run .string (.string acc :: o) (cs.flatMap (fun c => if c = '\'' then ['\'', '\''] else [c]) ++ ['\'']) =
      some (.quote, .string (acc ++ cs) :: o) := by
  induction cs generalizing acc with
  | nil =>
      rw [List.append_nil]
      rfl
  | cons c cs ih =>
      have hc := hzero c List.mem_cons_self
      have ih := ih (fun d hd => hzero d (List.mem_cons_of_mem c hd)) (acc ++ [c])
      rw [List.append_assoc] at ih
      rw [List.flatMap_cons, List.append_assoc]
      by_cases hquote : c = '\''
      · subst hquote
        exact ih
      · have hstep : step .string (.string acc :: o) c = some (.string, .string (acc ++ [c]) :: o) := by
          unfold step
          rw [if_neg hc]
          exact if_neg hquote
        rw [if_neg hquote, List.cons_append, List.nil_append, run_cons, hstep]
        exact ih

/-- **A quoted value is one string**, whatever it contains. -/
theorem run_quoted {m : Mode} (hm : m.closed = true) (o : Output) {cs : List Char} (hzero : ∀ c ∈ cs, c.toNat ≠ 0) :
    run m o (quoted cs) = some (.quote, .string cs :: o) := by
  unfold quoted
  rw [run_cons, step_of_closed hm o (by decide)]
  exact run_string o hzero []

theorem run_number (o : Output) {ds : List Char} (hds : ds.all isDigit = true) (acc : List Char) :
    run .number (.number acc :: o) ds = some (.number, .number (acc ++ ds) :: o) := by
  induction ds generalizing acc with
  | nil => rw [List.append_nil, run_nil]
  | cons d ds ih =>
      rw [List.all_cons, Bool.and_eq_true] at hds
      have hbegins : begins d = true := by
        unfold begins
        rw [hds.1, Bool.or_true, Bool.true_or, Bool.true_or]
      have hstep : step .number (.number acc :: o) d = some (.number, .number (acc ++ [d]) :: o) := by
        unfold step
        rw [if_neg (toNat_of_begins hbegins)]
        exact if_pos hds.1
      rw [run_cons, hstep, Option.bind_some]
      have ih := ih hds.2 (acc ++ [d])
      rwa [List.append_assoc] at ih

theorem fresh_digit (o : Output) {d : Char} (h : isDigit d = true) : fresh o d = some (.number, .number [d] :: o) := by
  have hrange : ∀ n ∈ List.range' 48 10, isSpace (Char.ofNat n) = false ∧ isIdentStart (Char.ofNat n) = false := by decide
  have hdigit := h
  unfold isDigit at hdigit
  rw [Bool.and_eq_true, decide_eq_true_eq, decide_eq_true_eq, Char.le_def, Char.le_def] at hdigit
  have hd := hrange d.toNat (List.mem_range'_1.mpr ⟨hdigit.1, Nat.lt_succ_of_le hdigit.2⟩)
  rw [Char.ofNat_toNat] at hd
  unfold fresh
  rw [hd.1, hd.2, h]
  rfl

/-- **Digits are one number.** -/
theorem run_digits {m : Mode} (hm : m.closed = true) (o : Output) {ds : List Char} (hne : ds ≠ [])
    (hds : ds.all isDigit = true) : run m o ds = some (.number, .number ds :: o) := by
  cases ds with
  | nil => exact absurd rfl hne
  | cons d ds =>
      rw [List.all_cons, Bool.and_eq_true] at hds
      have hbegins : begins d = true := by
        unfold begins
        rw [hds.1, Bool.or_true, Bool.true_or, Bool.true_or]
      rw [run_cons, step_of_closed hm o hbegins, fresh_digit o hds.1, Option.bind_some]
      exact run_number o hds.2 [d]

/-! ## Texts between tags -/

/-- A text between its tags. -/
def dollarQuoted (tag body : List Char) : List Char := '$' :: (tag ++ '$' :: (body ++ '$' :: (tag ++ ['$'])))

theorem run_body (o : Output) (tag : List Char) {cs : List Char} (hzero : ∀ c ∈ cs, c.toNat ≠ 0) (hdollar : '$' ∉ cs)
    (acc : List Char) : run .body (.dollar tag acc :: o) cs = some (.body, .dollar tag (acc ++ cs) :: o) := by
  induction cs generalizing acc with
  | nil => rw [List.append_nil, run_nil]
  | cons c cs ih =>
      have hstep : step .body (.dollar tag acc :: o) c = some (.body, .dollar tag (acc ++ [c]) :: o) := by
        unfold step
        rw [if_neg (hzero c List.mem_cons_self)]
        exact if_neg fun h : c = '$' => hdollar (h ▸ List.mem_cons_self)
      rw [run_cons, hstep, Option.bind_some]
      have ih := ih (fun d hd => hzero d (List.mem_cons_of_mem c hd)) (fun h => hdollar (List.mem_cons_of_mem c h))
        (acc ++ [c])
      rwa [List.append_assoc] at ih

theorem toNat_of_isIdentStart {c : Char} (h : isIdentStart c = true) : c.toNat ≠ 0 := by
  apply toNat_of_begins
  unfold begins
  rw [h, Bool.true_or, Bool.true_or, Bool.true_or]

theorem ne_dollar_of_isIdentStart {c : Char} (h : isIdentStart c = true) : c ≠ '$' := by
  rintro rfl
  exact absurd h (by decide)

theorem run_tag (o : Output) (body : List Char) {tag : List Char} (htag : tag.all isIdentStart = true) (acc : List Char) :
    run .tag (.dollar acc body :: o) (tag ++ ['$']) = some (.body, .dollar (acc ++ tag) body :: o) := by
  induction tag generalizing acc with
  | nil =>
      rw [List.append_nil]
      rfl
  | cons c tag ih =>
      rw [List.all_cons, Bool.and_eq_true] at htag
      have hstep : step .tag (.dollar acc body :: o) c = some (.tag, .dollar (acc ++ [c]) body :: o) := by
        unfold step stepTag
        rw [if_neg (toNat_of_isIdentStart htag.1)]
        dsimp only
        rw [if_neg (ne_dollar_of_isIdentStart htag.1), htag.1, Bool.true_or, if_pos rfl]
      rw [List.cons_append, run_cons, hstep, Option.bind_some]
      have ih := ih htag.2 (acc ++ [c])
      rwa [List.append_assoc] at ih

theorem run_closing (o : Output) (body tag : List Char) {rest : List Char} (hrest : rest.all isIdentStart = true)
    (seen : List Char) (h : seen ++ rest = tag) :
    run (.closing seen) (.dollar tag body :: o) (rest ++ ['$']) = some (.blank, .dollar tag body :: o) := by
  induction rest generalizing seen with
  | nil =>
      rw [List.append_nil] at h
      subst h
      show run (.closing seen) _ ['$'] = _
      rw [run_cons]
      unfold step stepClosing
      rw [if_neg (by decide)]
      dsimp only
      rw [if_pos rfl, if_pos rfl]
      rfl
  | cons c rest ih =>
      rw [List.all_cons, Bool.and_eq_true] at hrest
      have hstep : step (.closing seen) (.dollar tag body :: o) c =
          some (.closing (seen ++ [c]), .dollar tag body :: o) := by
        unfold step stepClosing
        rw [if_neg (toNat_of_isIdentStart hrest.1)]
        dsimp only
        rw [if_neg (ne_dollar_of_isIdentStart hrest.1), hrest.1, Bool.true_or, if_pos rfl]
      rw [List.cons_append, run_cons, hstep, Option.bind_some]
      exact ih hrest.2 (seen ++ [c]) (by rw [List.append_assoc, List.cons_append, List.nil_append, h])

/-- **A text without a dollar** is closed by its tag only. -/
theorem run_dollarQuoted {m : Mode} (hm : m.closed = true) (o : Output) {tag body : List Char}
    (htag : tag.all isIdentStart = true) (hzero : ∀ c ∈ body, c.toNat ≠ 0) (hdollar : '$' ∉ body) :
    run m o (dollarQuoted tag body) = some (.blank, .dollar tag body :: o) := by
  have hopen : run m o ('$' :: (tag ++ ['$'])) = some (.body, .dollar tag [] :: o) := by
    rw [run_cons, step_of_closed hm o (by decide)]
    exact run_tag o [] htag []
  have hsplit : dollarQuoted tag body = '$' :: (tag ++ ['$']) ++ (body ++ '$' :: (tag ++ ['$'])) := by
    simp [dollarQuoted]
  rw [hsplit, run_append, hopen, Option.bind_some, run_append, run_body o tag hzero hdollar [], Option.bind_some,
    List.nil_append]
  exact run_closing o body tag htag [] rfl

end Sql
end PickleInfra
