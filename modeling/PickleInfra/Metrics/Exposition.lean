import PickleInfra.Metrics.Parse

/-!
# `Metrics.Exposition` — sample lines of the Prometheus text format, and what `_sample` makes of them

A line is written as its tokens with blanks between them; a label value is escaped as backslash, quote and
line feed only. `sample_render` says that `_sample` reads such a line back. Two kinds of lines are lost: a
blank before the brace ends the name of the sample, and a label value with a line boundary of
`str.splitlines` other than the line feed is cut inside its quotes.
-/

namespace PickleInfra
namespace Metrics

open Python Python.Text Python.Str

/-! ## Lines as they are written -/

/-- Between the tokens of a line there are spaces and tabs. -/
def isBlank (c : Char) : Bool := c = ' ' || c = '\t'

structure Blanks where
  chars : List Char
  blank : chars.all isBlank = true

def escapeLabelChar (c : Char) : List Char :=
  if c = '\\' then ['\\', '\\'] else if c = '"' then ['\\', '"'] else if c = '\n' then ['\\', 'n'] else [c]

/-- A label value between its quotes. -/
def escapeLabel (s : String) : List Char := s.toList.flatMap escapeLabelChar

/-- A label, and the blanks around its tokens. -/
structure LabelText where
  label : String × String
  beforeName : Blanks
  beforeEquals : Blanks
  beforeQuote : Blanks
  afterQuote : Blanks

/-- Up to the opening quote. -/
def LabelText.opening (l : LabelText) : List Char :=
  l.beforeName.chars ++ (l.label.1.toList ++ (l.beforeEquals.chars ++ '=' :: (l.beforeQuote.chars ++ ['"'])))

def LabelText.render (l : LabelText) : List Char :=
  l.opening ++ (escapeLabel l.label.2 ++ '"' :: l.afterQuote.chars)

/-- The labels between the braces. -/
def renderLabels : List LabelText → List Char
  | []           => []
  | [l]          => l.render
  | l :: l' :: ls => l.render ++ ',' :: renderLabels (l' :: ls)

/-- The timestamp of a sample, after at least one blank. -/
structure TimeText where
  before : Blanks
  numeral : Numeral
  apart : before.chars ≠ []

/-- A sample line. -/
structure LineText where
  before : Blanks
  name : String
  beforeBrace : Blanks
  labels : List LabelText
  beforeValue : Blanks
  value : Numeral
  time : Option TimeText
  after : Blanks
  apart : beforeValue.chars ≠ []

/-- The value and the time of a sample. -/
def LineText.numbers (l : LineText) : List Char :=
  l.value.render ++ (l.time.map fun t => t.before.chars ++ t.numeral.render).getD []

/-- From the name up to the last number. -/
def LineText.core (l : LineText) : List Char :=
  l.name.toList ++ (l.beforeBrace.chars ++ '{' :: (renderLabels l.labels ++ '}' ::
    (l.beforeValue.chars ++ l.numbers)))

def LineText.render (l : LineText) : List Char := l.before.chars ++ l.core ++ l.after.chars

/-- One sample a line, each ended by a line feed. -/
def renderText (lines : List LineText) : List Char :=
  (lines.map LineText.render).flatMap fun l => l ++ ['\n']

/-- `[a-zA-Z_][a-zA-Z0-9_]*` -/
def isLabelName (s : String) : Bool :=
  match s.toList with
  | []      => false
  | c :: cs => isLabelStart c && cs.all isLabelChar

/-- What can be written in one line: labels with names of their own, few and short, and JSON numbers. -/
structure LineText.Ok (l : LineText) : Prop where
  name : isMetricName l.name = true
  labelNames : ∀ x ∈ l.labels, isLabelName x.label.1 = true
  nodup : (l.labels.map (fun x => x.label.1)).Nodup
  few : l.labels.length ≤ 8
  short : ∀ x ∈ l.labels, x.label.2.utf8ByteSize ≤ maxLabelBytes
  value : l.value.IsJson
  time : ∀ t, l.time = some t → t.numeral.IsJson

/-! ## Blanks -/

theorem isSpace_of_isBlank {c : Char} (h : isBlank c = true) : isSpace c = true := by
  unfold isBlank at h
  rw [Bool.or_eq_true, decide_eq_true_eq, decide_eq_true_eq] at h
  rcases h with rfl | rfl <;> decide

theorem not_boundary_of_isBlank {c : Char} (h : isBlank c = true) : isBoundary c = false := by
  unfold isBlank at h
  rw [Bool.or_eq_true, decide_eq_true_eq, decide_eq_true_eq] at h
  rcases h with rfl | rfl <;> decide

theorem Blanks.space (b : Blanks) : b.chars.all isSpace = true := by
  rw [List.all_eq_true]
  intro c hc
  exact isSpace_of_isBlank (List.all_eq_true.mp b.blank c hc)

/-- Blanks are skipped. -/
theorem skipSpace_blanks (b : Blanks) {rest : List Char} (h : StopsAt isSpace rest) :
    skipSpace (b.chars ++ rest) = rest := (takeWhile_append_stop b.space h).2

theorem expectChar_blanks (b : Blanks) {c : Char} (h : isSpace c = false) (rest : List Char) :
    expectChar c (skipSpace (b.chars ++ c :: rest)) = .ok rest := by
  rw [skipSpace_blanks b (StopsAt.cons h)]
  unfold expectChar
  rw [Numeral.dropChar?_cons]

/-! ## Label values -/

theorem scanLabelValue_quote (cs : List Char) : scanLabelValue ('"' :: cs) = .ok ([], cs) := by
  rw [scanLabelValue.eq_def]
  rfl

theorem scanLabelValue_escaped {e c : Char} (h : unescape e = some c) (cs : List Char) :
    scanLabelValue ('\\' :: e :: cs) = (scanLabelValue cs).map fun r => (c :: r.1, r.2) := by
  rw [scanLabelValue.eq_def]
  dsimp only
  rw [if_neg (by decide), if_pos rfl, h]

theorem scanLabelValue_char {c : Char} (hquote : c ≠ '"') (hslash : c ≠ '\\') (cs : List Char) :
    scanLabelValue (c :: cs) = (scanLabelValue cs).map fun r => (c :: r.1, r.2) := by
  rw [scanLabelValue.eq_def]
  dsimp only
  rw [if_neg hquote, if_neg hslash]

/-- A character is written as an escape that stands for it, or as itself. -/
theorem escapeLabelChar_cases (c : Char) :
    (∃ e, unescape e = some c ∧ escapeLabelChar c = ['\\', e]) ∨
      (c ≠ '"' ∧ c ≠ '\\' ∧ c ≠ '\n' ∧ escapeLabelChar c = [c]) := by
  unfold escapeLabelChar
  by_cases hslash : c = '\\'
  · rw [if_pos hslash, hslash]
    exact .inl ⟨'\\', by decide, rfl⟩
  by_cases hquote : c = '"'
  · rw [if_neg hslash, if_pos hquote, hquote]
    exact .inl ⟨'"', by decide, rfl⟩
  by_cases hfeed : c = '\n'
  · rw [if_neg hslash, if_neg hquote, if_pos hfeed, hfeed]
    exact .inl ⟨'n', by decide, rfl⟩
  · rw [if_neg hslash, if_neg hquote, if_neg hfeed]
    exact .inr ⟨hquote, hslash, hfeed, rfl⟩

/-- **An escaped value is read back** up to its closing quote. -/
theorem scanLabelValue_escape (cs rest : List Char) :
    scanLabelValue (cs.flatMap escapeLabelChar ++ '"' :: rest) = .ok (cs, rest) := by
  induction cs with
  | nil => exact scanLabelValue_quote rest
  | cons c cs ih =>
      rw [List.flatMap_cons, List.append_assoc]
      rcases escapeLabelChar_cases c with ⟨e, he, hc⟩ | ⟨hquote, hslash, -, hc⟩
      · rw [hc]
        show scanLabelValue ('\\' :: e :: (cs.flatMap escapeLabelChar ++ '"' :: rest)) = _
        rw [scanLabelValue_escaped he, ih]
        rfl
      · rw [hc, List.singleton_append, scanLabelValue_char hquote hslash, ih]
        rfl

theorem scanLabelValue_string (s : String) (rest : List Char) :
    scanLabelValue (escapeLabel s ++ '"' :: rest) = .ok (s.toList, rest) := scanLabelValue_escape _ _

/-! ## Labels -/

theorem isLabelName_chars {s : String} (h : isLabelName s = true) :
    ∃ c cs, s.toList = c :: cs ∧ isLabelStart c = true ∧ s.toList.all isLabelChar = true := by
  unfold isLabelName at h
  split at h
  · cases h
  · next c cs hcs =>
    rw [Bool.and_eq_true] at h
    have hchar : isLabelChar c = true := by
      unfold isLabelChar
      rw [h.1, Bool.true_or]
    refine ⟨c, cs, hcs, h.1, ?_⟩
    rw [hcs, List.all_cons, hchar, h.2]
    rfl

theorem not_space_of_isLabelChar {c : Char} (h : isLabelChar c = true) : isSpace c = false := by
  unfold isLabelChar isLabelStart isLower isUpper isDigit at h
  simp only [Bool.or_eq_true, Bool.and_eq_true, decide_eq_true_eq, Char.le_def] at h
  have hrange : 33 ≤ c.toNat ∧ c.toNat ≤ 127 := by
    rcases h with ((h | h) | rfl) | h
    · change 97 ≤ c.toNat ∧ c.toNat ≤ 122 at h
      omega
    · change 65 ≤ c.toNat ∧ c.toNat ≤ 90 at h
      omega
    · decide
    · change 48 ≤ c.toNat ∧ c.toNat ≤ 57 at h
      omega
  unfold isSpace
  rw [← Bool.not_eq_true]
  simp only [Bool.or_eq_true, Bool.and_eq_true, decide_eq_true_eq]
  omega

theorem matchName_label {s : String} (h : isLabelName s = true) {rest : List Char}
    (hrest : StopsAt isLabelChar rest) :
    matchName isLabelStart isLabelChar (s.toList ++ rest) = some (s.toList, rest) := by
  obtain ⟨c, cs, hcs, hstart, hall⟩ := isLabelName_chars h
  obtain ⟨htake, hdrop⟩ := takeWhile_append_stop hall hrest
  unfold matchName
  rw [htake, hdrop, hcs, List.cons_append]
  dsimp only
  rw [if_pos hstart]

/-- After blanks and before a token no name goes on. -/
theorem stopsAt_blanks {cls : Char → Bool} (b : Blanks) (hcls : ∀ c, isBlank c = true → cls c = false)
    {rest : List Char} (h : StopsAt cls rest) : StopsAt cls (b.chars ++ rest) := by
  cases hb : b.chars with
  | nil => exact h
  | cons c cs =>
      have hblank := b.blank
      rw [hb, List.all_cons, Bool.and_eq_true] at hblank
      exact StopsAt.cons (hcls c hblank.1)

theorem not_labelChar_of_blank {c : Char} (h : isBlank c = true) : isLabelChar c = false := by
  by_contra hne
  rw [Bool.not_eq_false] at hne
  exact absurd (isSpace_of_isBlank h) (by rw [not_space_of_isLabelChar hne]; decide)

/-- What follows the name of a label. -/
def LabelText.body (l : LabelText) (rest : List Char) : List Char :=
  l.beforeEquals.chars ++ '=' :: (l.beforeQuote.chars ++ '"' :: (escapeLabel l.label.2 ++ '"' ::
    (l.afterQuote.chars ++ rest)))

theorem LabelText.render_append (l : LabelText) (rest : List Char) :
    l.render ++ rest = l.beforeName.chars ++ (l.label.1.toList ++ l.body rest) := by
  unfold render opening body
  simp only [List.append_assoc, List.cons_append, List.nil_append]

/-- **A label is read back**, if it is new and short. -/
theorem scanLabel_render {l : LabelText} (hname : isLabelName l.label.1 = true)
    (hshort : l.label.2.utf8ByteSize ≤ maxLabelBytes) {result : Labels}
    (hnew : l.label.1 ∉ result.map Prod.fst) (hfew : result.length < 8) (rest : List Char) :
    scanLabel result (l.label.1.toList ++ l.body rest) = .ok (l.label, l.afterQuote.chars ++ rest) := by
  have hstop : StopsAt isLabelChar (l.body rest) :=
    stopsAt_blanks l.beforeEquals (fun c => not_labelChar_of_blank) (StopsAt.cons (by decide))
  have hequals := expectChar_blanks l.beforeEquals (by decide : isSpace '=' = false)
    (l.beforeQuote.chars ++ '"' :: (escapeLabel l.label.2 ++ '"' :: (l.afterQuote.chars ++ rest)))
  have hquote := expectChar_blanks l.beforeQuote (by decide : isSpace '"' = false)
    (escapeLabel l.label.2 ++ '"' :: (l.afterQuote.chars ++ rest))
  unfold scanLabel
  rw [matchName_label hname hstop]
  simp only [bind_eq_ok, failIf_eq_ok, exists_const]
  refine ⟨_, hequals, _, hquote, _, scanLabelValue_string _ _, ?_, ?_, ?_⟩
  · rw [String.ofList_toList, ← Bool.not_eq_true, List.contains_iff_mem]
    exact hnew
  · rw [String.ofList_toList, Bool.or_eq_false_iff, decide_eq_false_iff_not, decide_eq_false_iff_not]
    exact ⟨not_lt.mpr hshort, by omega⟩
  · rw [String.ofList_toList, String.ofList_toList]

theorem skipSpace_label {l : LabelText} (hname : isLabelName l.label.1 = true) (rest : List Char) :
    skipSpace (l.render ++ rest) = l.label.1.toList ++ l.body rest := by
  obtain ⟨c, cs, hcs, -, hall⟩ := isLabelName_chars hname
  rw [LabelText.render_append]
  apply skipSpace_blanks
  rw [hcs, List.all_cons, Bool.and_eq_true] at hall
  rw [hcs]
  exact StopsAt.cons (not_space_of_isLabelChar hall.1)

theorem name_append_ne_nil {s : String} (h : isLabelName s = true) (rest : List Char) :
    (s.toList ++ rest).isEmpty = false := by
  obtain ⟨c, cs, hcs, -⟩ := isLabelName_chars h
  rw [hcs]
  rfl

/-- What the loop of `_labels` needs of the labels that are left. -/
structure LabelsLeft (result : Labels) (ls : List LabelText) : Prop where
  names : ∀ x ∈ ls, isLabelName x.label.1 = true
  nodup : (result.map Prod.fst ++ ls.map (fun x => x.label.1)).Nodup
  few : result.length + ls.length ≤ 8
  short : ∀ x ∈ ls, x.label.2.utf8ByteSize ≤ maxLabelBytes

theorem LabelsLeft.head {result : Labels} {l : LabelText} {ls : List LabelText}
    (h : LabelsLeft result (l :: ls)) (rest : List Char) :
    scanLabel result (l.label.1.toList ++ l.body rest) = .ok (l.label, l.afterQuote.chars ++ rest) := by
  have hfew := h.few
  rw [List.length_cons] at hfew
  apply scanLabel_render (h.names l List.mem_cons_self) (h.short l List.mem_cons_self) ?_ (by omega)
  intro hmem
  exact (List.nodup_append.mp h.nodup).2.2 _ hmem _ List.mem_cons_self rfl

theorem LabelsLeft.tail {result : Labels} {l : LabelText} {ls : List LabelText}
    (h : LabelsLeft result (l :: ls)) : LabelsLeft (result ++ [l.label]) ls := by
  refine ⟨fun x hx => h.names x (List.mem_cons_of_mem _ hx), ?_, ?_,
    fun x hx => h.short x (List.mem_cons_of_mem _ hx)⟩
  · have hnodup := h.nodup
    rw [List.map_cons] at hnodup
    rw [List.map_append, List.append_assoc]
    exact hnodup
  · have hfew := h.few
    rw [List.length_cons] at hfew
    rw [List.length_append, List.length_singleton]
    omega

/-- **The labels between the braces are read back.** -/
theorem labelsFrom_render {ls : List LabelText} : ∀ {fuel : Nat} {result : Labels},
    LabelsLeft result ls → (renderLabels ls).length < fuel →
      labelsFrom fuel result (renderLabels ls) = .ok (result ++ ls.map LabelText.label) := by
  induction ls with
  | nil =>
      rintro (_ | fuel) result - hfuel
      · exact absurd hfuel (Nat.not_lt_zero _)
      · rw [List.map_nil, List.append_nil]
        rfl
  | cons l ls ih =>
      rintro (_ | fuel) result h hfuel
      · exact absurd hfuel (Nat.not_lt_zero _)
      have hname := h.names l List.mem_cons_self
      cases ls with
      | nil =>
          have hskip := skipSpace_label hname []
          rw [List.append_nil] at hskip
          have hend : skipSpace (l.afterQuote.chars ++ []) = [] := skipSpace_blanks _ (StopsAt.nil _)
          show labelsFrom (fuel + 1) result l.render = .ok (result ++ [l.label])
          unfold labelsFrom
          rw [hskip]
          dsimp only
          rw [if_neg (by rw [name_append_ne_nil hname]; decide), h.head []]
          show (if (skipSpace (l.afterQuote.chars ++ [])).isEmpty then _ else _) = _
          rw [hend]
          rfl
      | cons l' ls =>
          have hskip := skipSpace_label hname (',' :: renderLabels (l' :: ls))
          have hcomma : skipSpace (l.afterQuote.chars ++ ',' :: renderLabels (l' :: ls))
              = ',' :: renderLabels (l' :: ls) := skipSpace_blanks _ (StopsAt.cons (by decide))
          have hlength : (renderLabels (l' :: ls)).length < fuel := by
            rw [renderLabels, List.length_append, List.length_cons] at hfuel
            omega
          rw [renderLabels]
          unfold labelsFrom
          rw [hskip]
          dsimp only
          rw [if_neg (by rw [name_append_ne_nil hname]; decide), h.head]
          show (if (skipSpace (l.afterQuote.chars ++ ',' :: renderLabels (l' :: ls))).isEmpty then _
            else _) = _
          rw [hcomma, List.isEmpty_cons, if_neg Bool.false_ne_true]
          show (do
            let cs ← expectChar ',' (',' :: renderLabels (l' :: ls))
            labelsFrom fuel (result ++ [l.label]) cs) = _
          unfold expectChar
          rw [Numeral.dropChar?_cons]
          show labelsFrom fuel (result ++ [l.label]) (renderLabels (l' :: ls)) = _
          rw [ih h.tail hlength, List.append_assoc]
          rfl

/-! ## Braces -/

/-- Outside quotes, other characters are passed. -/
theorem scanBraces_plain {cs : List Char} (h : ∀ c ∈ cs, c ≠ '"' ∧ c ≠ '}') (rest : List Char) :
    scanBraces false false (cs ++ rest) = (scanBraces false false rest).map fun r => (cs ++ r.1, r.2) := by
  induction cs with
  | nil =>
      show scanBraces false false rest = _
      cases scanBraces false false rest with
      | none   => rfl
      | some r => rfl
  | cons c cs ih =>
      obtain ⟨hquote, hbrace⟩ := h c List.mem_cons_self
      rw [List.cons_append, scanBraces]
      simp only [hbrace, hquote, decide_false, Bool.and_false, Bool.false_and, Bool.false_eq_true, if_false]
      rw [ih fun d hd => h d (List.mem_cons_of_mem _ hd), Option.map_map]
      rfl

theorem scanBraces_comma (rest : List Char) :
    scanBraces false false (',' :: rest) = (scanBraces false false rest).map fun r => (',' :: r.1, r.2) := by
  rw [scanBraces]
  rfl

/-- Inside quotes, the character after a backslash is passed. -/
theorem scanBraces_escaped (e : Char) (rest : List Char) :
    scanBraces true false ('\\' :: e :: rest)
      = (scanBraces true false rest).map fun r => ('\\' :: e :: r.1, r.2) := by
  have hslash : scanBraces true false ('\\' :: e :: rest)
      = (scanBraces true true (e :: rest)).map fun r => ('\\' :: r.1, r.2) := by
    rw [scanBraces]
    rfl
  have hnext : scanBraces true true (e :: rest)
      = (scanBraces true false rest).map fun r => (e :: r.1, r.2) := by
    rw [scanBraces]
    rfl
  rw [hslash, hnext, Option.map_map]
  rfl

/-- Inside quotes, an escaped value is passed. -/
theorem scanBraces_escape (cs rest : List Char) :
    scanBraces true false (cs.flatMap escapeLabelChar ++ rest)
      = (scanBraces true false rest).map fun r => (cs.flatMap escapeLabelChar ++ r.1, r.2) := by
  induction cs with
  | nil =>
      show scanBraces true false rest = _
      cases scanBraces true false rest with
      | none   => rfl
      | some r => rfl
  | cons c cs ih =>
      rw [List.flatMap_cons, List.append_assoc]
      rcases escapeLabelChar_cases c with ⟨e, -, hc⟩ | ⟨hquote, hslash, -, hc⟩
      · rw [hc]
        show scanBraces true false ('\\' :: e :: (cs.flatMap escapeLabelChar ++ rest)) = _
        rw [scanBraces_escaped, ih, Option.map_map]
        rfl
      · rw [hc, List.singleton_append, scanBraces]
        simp only [hquote, hslash, decide_false, Bool.not_true, Bool.and_false, Bool.false_and,
          Bool.false_eq_true, if_false]
        rw [ih, Option.map_map]
        rfl

theorem scanBraces_open (rest : List Char) :
    scanBraces false false ('"' :: rest) = (scanBraces true false rest).map fun r => ('"' :: r.1, r.2) := by
  rw [scanBraces]
  rfl

theorem scanBraces_close (rest : List Char) :
    scanBraces true false ('"' :: rest) = (scanBraces false false rest).map fun r => ('"' :: r.1, r.2) := by
  rw [scanBraces]
  rfl

/-- A text without its closing brace is no shorter one with a closing brace. -/
theorem scanBraces_initial {quoted escaped : Bool} {cs rest : List Char}
    (h : scanBraces quoted escaped (cs ++ rest) = none) : scanBraces quoted escaped cs = none := by
  induction cs generalizing quoted escaped with
  | nil => rfl
  | cons c cs ih =>
      rw [List.cons_append, scanBraces] at h
      rw [scanBraces]
      split
      · next hbrace =>
        rw [if_pos hbrace] at h
        cases h
      · next hbrace =>
        rw [if_neg hbrace] at h
        dsimp only at h ⊢
        rw [Option.map_eq_none_iff] at h ⊢
        exact ih h

theorem blank_plain {b : Blanks} : ∀ c ∈ b.chars, c ≠ '"' ∧ c ≠ '}' := by
  intro c hc
  have hblank := List.all_eq_true.mp b.blank c hc
  constructor
  · rintro rfl
    exact absurd hblank (by decide)
  · rintro rfl
    exact absurd hblank (by decide)

theorem labelName_plain {s : String} (h : isLabelName s = true) : ∀ c ∈ s.toList, c ≠ '"' ∧ c ≠ '}' := by
  intro c hc
  obtain ⟨_, _, -, -, hall⟩ := isLabelName_chars h
  have hchar := List.all_eq_true.mp hall c hc
  constructor
  · rintro rfl
    exact absurd hchar (by decide)
  · rintro rfl
    exact absurd hchar (by decide)

/-- What is in front of the opening quote of a label. -/
def LabelText.front (l : LabelText) : List Char :=
  l.beforeName.chars ++ (l.label.1.toList ++ (l.beforeEquals.chars ++ '=' :: l.beforeQuote.chars))

theorem LabelText.opening_eq (l : LabelText) : l.opening = l.front ++ ['"'] := by
  unfold opening front
  simp only [List.append_assoc, List.cons_append]

theorem front_plain {l : LabelText} (h : isLabelName l.label.1 = true) :
    ∀ c ∈ l.front, c ≠ '"' ∧ c ≠ '}' := by
  intro c hc
  unfold LabelText.front at hc
  rw [List.mem_append, List.mem_append, List.mem_append, List.mem_cons] at hc
  rcases hc with hc | hc | hc | rfl | hc
  · exact blank_plain c hc
  · exact labelName_plain h c hc
  · exact blank_plain c hc
  · decide
  · exact blank_plain c hc

/-- Up to a point within a label value, the text is within quotes. -/
theorem scanBraces_opening {l : LabelText} (h : isLabelName l.label.1 = true) (rest : List Char) :
    scanBraces false false (l.opening ++ (escapeLabel l.label.2 ++ rest))
      = (scanBraces true false rest).map
          fun r => (l.opening ++ (escapeLabel l.label.2 ++ r.1), r.2) := by
  rw [LabelText.opening_eq, List.append_assoc, scanBraces_plain (front_plain h), List.singleton_append,
    scanBraces_open]
  unfold escapeLabel
  rw [scanBraces_escape, Option.map_map, Option.map_map]
  congr 1
  funext r
  simp only [Function.comp_apply, List.append_assoc, List.singleton_append]

theorem scanBraces_label {l : LabelText} (h : isLabelName l.label.1 = true) (rest : List Char) :
    scanBraces false false (l.render ++ rest)
      = (scanBraces false false rest).map fun r => (l.render ++ r.1, r.2) := by
  unfold LabelText.render
  rw [List.append_assoc, List.append_assoc, scanBraces_opening h, List.cons_append, scanBraces_close,
    scanBraces_plain blank_plain, Option.map_map, Option.map_map]
  congr 1
  funext r
  simp only [Function.comp_apply, List.append_assoc, List.cons_append]

/-- **The closing brace is found** after the labels. -/
theorem scanBraces_labels {ls : List LabelText} (h : ∀ x ∈ ls, isLabelName x.label.1 = true)
    (rest : List Char) :
    scanBraces false false (renderLabels ls ++ '}' :: rest) = some (renderLabels ls, rest) := by
  induction ls with
  | nil => rfl
  | cons l ls ih =>
      have hl := h l List.mem_cons_self
      have hls := fun x hx => h x (List.mem_cons_of_mem _ hx)
      cases ls with
      | nil =>
          show scanBraces false false (l.render ++ '}' :: rest) = some (l.render, rest)
          rw [scanBraces_label hl]
          show some (l.render ++ [], rest) = _
          rw [List.append_nil]
      | cons l' ls =>
          rw [renderLabels, List.append_assoc, scanBraces_label hl, List.cons_append, scanBraces_comma, ih hls]
          rfl

/-! ## Numbers -/

/-- A number that is written as a numeral: `_number` accepts the decimal, and the number is the nearest. -/
structure Written (F : FloatFormat) (count : Bool) (maximum : ℚ) (x : Num) (n : Numeral) : Prop where
  isJson : n.IsJson
  short : n.render.length ≤ 128
  fits : decimalFits n = true
  checked : checkDecimal F count maximum n.value = .ok ()
  nearest : keptNumber F n.value = x

variable {F : FloatFormat}

theorem numberOfText_render {count : Bool} {maximum : ℚ} {x : Num} {n : Numeral}
    (h : Written F count maximum x n) : numberOfText F count maximum n.render = .ok x := by
  unfold numberOfText numberOfDecimal
  rw [Numeral.parse_render h.isJson]
  simp only [bind_eq_ok, failIf_eq_ok, exists_const]
  refine ⟨decide_eq_false (not_lt.mpr h.short), ?_, (), h.checked, by rw [h.nearest]⟩
  rw [h.fits]
  rfl

/-- The time of a sample in seconds, from milliseconds. -/
def seconds (F : FloatFormat) (t : Num) : Num := .float (F.round (t.value / 1000))

theorem sampleTime_render {t : Num} {n : Numeral} (h : Written F false (10 ^ 15) t n) :
    sampleTime F n.render = .ok (seconds F t) := by
  unfold sampleTime
  rw [numberOfText_render h]
  rfl

theorem not_space_of_isNumeralChar {c : Char} (h : Numeral.isNumeralChar c = true) : isSpace c = false := by
  unfold Numeral.isNumeralChar isDigit at h
  rw [Bool.or_eq_true, Bool.and_eq_true, decide_eq_true_eq, decide_eq_true_eq,
    List.contains_iff_mem, Char.le_def, Char.le_def] at h
  rcases h with h | h
  · change 48 ≤ c.toNat ∧ c.toNat ≤ 57 at h
    unfold isSpace
    rw [← Bool.not_eq_true]
    simp only [Bool.or_eq_true, Bool.and_eq_true, decide_eq_true_eq]
    omega
  · simp only [List.mem_cons, List.not_mem_nil, or_false] at h
    rcases h with rfl | rfl | rfl | rfl | rfl <;> decide

theorem render_word {n : Numeral} (h : n.IsJson) :
    n.render.all (fun c => !isSpace c) = true ∧ n.render ≠ [] := by
  constructor
  · rw [List.all_eq_true]
    intro c hc
    rw [not_space_of_isNumeralChar (List.all_eq_true.mp (Numeral.render_chars h) c hc)]
    rfl
  · intro hnil
    obtain ⟨-, hne⟩ := Numeral.whole_digits h
    unfold Numeral.render at hnil
    simp only [List.append_eq_nil_iff] at hnil
    exact hne hnil.1.1.2

/-! ## Strips -/

theorem not_space_of_isNameChar {c : Char} (h : isNameChar c = true) : isSpace c = false := by
  unfold isNameChar isNameStart at h
  rw [Bool.or_eq_true, Bool.or_eq_true, decide_eq_true_eq] at h
  rcases h with (h | rfl) | h
  · apply not_space_of_isLabelChar
    unfold isLabelChar isLabelStart
    rw [h, Bool.true_or]
  · decide
  · apply not_space_of_isLabelChar
    unfold isLabelChar
    rw [h, Bool.or_true]

theorem isMetricName_chars {s : String} (h : isMetricName s = true) :
    ∃ c cs, s.toList = c :: cs ∧ isNameStart c = true ∧ s.toList.all isNameChar = true ∧
      s.toList.length ≤ 128 := by
  unfold isMetricName fullmatchFirst at h
  split at h
  · cases h
  · next c cs hcs =>
    rw [Bool.and_eq_true, Bool.and_eq_true, decide_eq_true_eq] at h
    have hchar : isNameChar c = true := by
      unfold isNameChar
      rw [h.1.1, Bool.true_or]
    refine ⟨c, cs, hcs, h.1.1, ?_, ?_⟩
    · rw [hcs, List.all_cons, hchar, h.1.2]
      rfl
    · rw [hcs, List.length_cons]
      omega

/-- A text that ends in a word has no white space at its end. -/
theorem stopsAt_reverse {cs w : List Char} (hw : w.all (fun c => !isSpace c) = true) (hne : w ≠ []) :
    StopsAt isSpace (cs ++ w).reverse := by
  rw [List.reverse_append]
  cases hr : w.reverse with
  | nil => exact absurd (List.reverse_eq_nil_iff.mp hr) hne
  | cons c ws =>
      apply StopsAt.cons
      have hc : c ∈ w := List.mem_reverse.mp (hr ▸ List.mem_cons_self)
      have hspace := List.all_eq_true.mp hw c hc
      rwa [Bool.not_eq_true'] at hspace

theorem metricName_word {s : String} (h : isMetricName s = true) :
    s.toList.all (fun c => !isSpace c) = true ∧ s.toList ≠ [] := by
  obtain ⟨c, cs, hcs, -, hall, -⟩ := isMetricName_chars h
  constructor
  · rw [List.all_eq_true] at hall ⊢
    intro d hd
    rw [not_space_of_isNameChar (hall d hd)]
    rfl
  · rw [hcs]
    exact List.cons_ne_nil _ _

/-- A stripped line begins with its name, and goes on with what it went on with, up to a point. -/
theorem strip_name (before : Blanks) {s : String} (h : isMetricName s = true) (rest : List Char) :
    ∃ kept gone, rest = kept ++ gone ∧ strip (before.chars ++ (s.toList ++ rest)) = s.toList ++ kept := by
  obtain ⟨hword, hne⟩ := metricName_word h
  have hfirst : StopsAt isSpace (s.toList ++ rest) := by
    obtain ⟨c, cs, hcs, -, hall, -⟩ := isMetricName_chars h
    rw [hcs, List.all_cons, Bool.and_eq_true] at hall
    rw [hcs]
    exact StopsAt.cons (not_space_of_isNameChar hall.1)
  have hlast : s.toList.reverse.dropWhile isSpace = s.toList.reverse := by
    have hstop : StopsAt isSpace ([] ++ s.toList).reverse := stopsAt_reverse hword hne
    have hdrop : ([] ++ s.toList.reverse).dropWhile isSpace = s.toList.reverse :=
      (takeWhile_append_stop rfl hstop).2
    exact hdrop
  refine ⟨(rest.reverse.dropWhile isSpace).reverse, (rest.reverse.takeWhile isSpace).reverse, ?_, ?_⟩
  · rw [← List.reverse_append, List.takeWhile_append_dropWhile, List.reverse_reverse]
  · unfold strip
    rw [(takeWhile_append_stop before.space hfirst).2, List.reverse_append, List.dropWhile_append, hlast]
    split
    · next hempty =>
      rw [List.isEmpty_iff.mp hempty, List.reverse_reverse, List.reverse_nil, List.append_nil]
    · rw [List.reverse_append, List.reverse_reverse]

theorem scanName_append {s : String} (h : isMetricName s = true) {rest : List Char}
    (hrest : StopsAt isNameChar rest) : scanName (s.toList ++ rest) = .ok (s.toList, rest) := by
  obtain ⟨c, cs, hcs, hstart, hall, hlength⟩ := isMetricName_chars h
  obtain ⟨htake, hdrop⟩ := takeWhile_append_stop hall hrest
  have hmatch : matchName isNameStart isNameChar (s.toList ++ rest) = some (s.toList, rest) := by
    unfold matchName
    rw [htake, hdrop, hcs, List.cons_append]
    dsimp only
    rw [if_pos hstart]
  unfold scanName
  rw [hmatch]
  simp only [bind_eq_ok, failIf_eq_ok, exists_const]
  exact ⟨decide_eq_false (not_lt.mpr hlength), trivial⟩

/-! ## A line that is read back -/

/-- The last number of a line ends it. -/
theorem core_word {l : LineText} (h : l.Ok) :
    ∃ front w, l.core = front ++ w ∧ w.all (fun c => !isSpace c) = true ∧ w ≠ [] := by
  cases ht : l.time with
  | none =>
      obtain ⟨hword, hne⟩ := render_word h.value
      refine ⟨l.name.toList ++ (l.beforeBrace.chars ++ '{' :: (renderLabels l.labels ++ '}' ::
        l.beforeValue.chars)), l.value.render, ?_, hword, hne⟩
      unfold LineText.core LineText.numbers
      rw [ht]
      simp only [Option.map_none, Option.getD_none, List.append_nil, List.append_assoc, List.cons_append]
  | some t =>
      obtain ⟨hword, hne⟩ := render_word (h.time t ht)
      refine ⟨l.name.toList ++ (l.beforeBrace.chars ++ '{' :: (renderLabels l.labels ++ '}' ::
        (l.beforeValue.chars ++ (l.value.render ++ t.before.chars)))), t.numeral.render, ?_, hword, hne⟩
      unfold LineText.core LineText.numbers
      rw [ht]
      simp only [Option.map_some, Option.getD_some, List.append_assoc, List.cons_append]

theorem strip_render {l : LineText} (h : l.Ok) : strip l.render = l.core := by
  obtain ⟨front, w, hcore, hword, hne⟩ := core_word h
  obtain ⟨c, cs, hcs, -, hall, -⟩ := isMetricName_chars h.name
  rw [hcs, List.all_cons, Bool.and_eq_true] at hall
  apply strip_append l.before.space l.after.space
  · unfold LineText.core
    rw [hcs]
    exact StopsAt.cons (not_space_of_isNameChar hall.1)
  · rw [hcore]
    exact stopsAt_reverse hword hne

theorem words_numbers {l : LineText} (h : l.Ok) :
    words l.numbers = l.value.render :: (l.time.map fun t => t.numeral.render).toList := by
  obtain ⟨hword, hne⟩ := render_word h.value
  unfold LineText.numbers
  cases ht : l.time with
  | none =>
      simp only [Option.map_none, Option.getD_none, List.append_nil, Option.toList_none]
      exact words_last hword hne
  | some t =>
      obtain ⟨htime, htime'⟩ := render_word (h.time t ht)
      simp only [Option.map_some, Option.getD_some, Option.toList_some]
      cases hb : t.before.chars with
      | nil => exact absurd hb t.apart
      | cons b bs =>
          have hspace := t.before.space
          rw [hb, List.all_cons, Bool.and_eq_true] at hspace
          rw [List.cons_append, words_word hword hne hspace.1, words_space hspace.2,
            words_last htime htime']

/-- The timestamp that is written in a line. -/
def Timed (F : FloatFormat) : Option TimeText → Option Num → Prop :=
  Option.Rel fun text t => Written F false (10 ^ 15) t text.numeral

/-- What a line says. -/
def LineText.sample (F : FloatFormat) (l : LineText) (t : Option Num) : Sample :=
  { name := l.name, labels := l.labels.map LabelText.label, rawValue := l.value.render
    sampleAt := t.map (seconds F) }

/-- **A sample line is read back** by `_sample`, if its brace follows its name. -/
theorem sample_render {l : LineText} (h : l.Ok) (hbrace : l.beforeBrace.chars = []) {t : Option Num}
    (ht : Timed F l.time t) : sample F l.core = .ok (l.sample F t) := by
  have hname : scanName l.core = .ok (l.name.toList, '{' :: (renderLabels l.labels ++ '}' ::
      (l.beforeValue.chars ++ l.numbers))) := by
    unfold LineText.core
    rw [hbrace, List.nil_append]
    exact scanName_append h.name (StopsAt.cons (by decide))
  have hleft : LabelsLeft [] l.labels := by
    refine ⟨h.labelNames, ?_, ?_, h.short⟩
    · exact h.nodup
    · rw [List.length_nil, Nat.zero_add]
      exact h.few
  have hlabels : labels (renderLabels l.labels) = .ok (l.labels.map LabelText.label) :=
    labelsFrom_render hleft (Nat.lt_succ_self _)
  have hscan : scanLabels ('{' :: (renderLabels l.labels ++ '}' :: (l.beforeValue.chars ++ l.numbers)))
      = .ok (l.labels.map LabelText.label, l.beforeValue.chars ++ l.numbers) := by
    unfold scanLabels
    rw [Numeral.dropChar?_cons]
    dsimp only
    rw [scanBraces_labels h.labelNames]
    dsimp only
    rw [hlabels]
    rfl
  have hspace : (l.beforeValue.chars ++ l.numbers).head?.any isSpace = true := by
    have hall := l.beforeValue.space
    cases hb : l.beforeValue.chars with
    | nil => exact absurd hb l.apart
    | cons b bs =>
        rw [hb, List.all_cons, Bool.and_eq_true] at hall
        exact hall.1
  unfold sample
  rw [hname]
  simp only [bind_eq_ok, failIf_eq_ok, exists_const, Except.ok.injEq, exists_eq_left']
  refine ⟨_, hscan, by rw [hspace]; rfl, ?_⟩
  rw [words_space l.beforeValue.space, words_numbers h]
  unfold LineText.sample
  rw [String.ofList_toList]
  cases hl : l.time with
  | none =>
      rw [hl] at ht
      cases ht
      rfl
  | some x =>
      rw [hl] at ht
      cases ht with
      | some hwritten =>
          dsimp only [Option.map_some, Option.toList_some]
          rw [sampleTime_render hwritten]
          rfl

/-- **A sample line of a known name is entered** as what it says. -/
theorem addLine_render {l : LineText} (h : l.Ok) (hbrace : l.beforeBrace.chars = []) {t : Option Num}
    (ht : Timed F l.time t) {family : Definition} {part : Part} (hknown : sample? l.name = some (family, part))
    (r : Reading) : addLine F r (strip l.render) = addSample F r family part (l.sample F t) := by
  have hname : scanName l.core = .ok (l.name.toList, '{' :: (renderLabels l.labels ++ '}' ::
      (l.beforeValue.chars ++ l.numbers))) := by
    unfold LineText.core
    rw [hbrace, List.nil_append]
    exact scanName_append h.name (StopsAt.cons (by decide))
  obtain ⟨c, cs, hcs, hstart, -, -⟩ := isMetricName_chars h.name
  have hhead : l.core.head? = some c := by
    unfold LineText.core
    rw [hcs]
    rfl
  have hhash : ¬ l.core.head? = some '#' := by
    rw [hhead]
    rintro ⟨⟩
    exact absurd hstart (by decide)
  have hempty : ¬ l.core.isEmpty = true := by
    intro hnil
    rw [List.isEmpty_iff.mp hnil] at hhead
    cases hhead
  rw [strip_render h]
  unfold addLine
  rw [if_neg hempty, if_neg hhash, hname]
  dsimp only [bind, Except.bind]
  rw [String.ofList_toList, hknown]
  dsimp only
  rw [sample_render h hbrace ht]

/-! ## Lines that are lost -/

/-- A line that begins with a known name and has no label is refused. -/
theorem addLine_refused {name : String} (h : isMetricName name = true) {known : Definition × Part}
    (hknown : sample? name = some known) {kept : List Char} (hkept : StopsAt isNameChar kept)
    (hscan : ∀ found rest, scanLabels kept = .ok (found, rest) → found = [] ∨ rest = []) (r r' : Reading) :
    addLine F r (name.toList ++ kept) ≠ .ok r' := by
  obtain ⟨c, cs, hcs, hstart, -, -⟩ := isMetricName_chars h
  have hhash : ¬ (name.toList ++ kept).head? = some '#' := by
    rw [hcs]
    rintro ⟨⟩
    exact absurd hstart (by decide)
  have hempty : ¬ (name.toList ++ kept).isEmpty = true := by
    rw [hcs]
    exact Bool.false_ne_true
  intro hline
  unfold addLine at hline
  rw [if_neg hempty, if_neg hhash, scanName_append h hkept] at hline
  simp only [bind_eq_ok, Except.ok.injEq, exists_eq_left', String.ofList_toList, hknown] at hline
  obtain ⟨s, hs, hadd⟩ := hline
  unfold sample at hs
  rw [scanName_append h hkept] at hs
  simp only [bind_eq_ok, failIf_eq_ok, exists_const, Except.ok.injEq, exists_eq_left'] at hs
  obtain ⟨⟨found, rest⟩, hfound, hspace, hs⟩ := hs
  rcases hscan found rest hfound with rfl | rfl
  · have hlabels : s.labels = [] := by
      split at hs
      · cases hs
        rfl
      · simp only [bind_eq_ok] at hs
        obtain ⟨_, -, hs⟩ := hs
        cases hs
        rfl
      · cases hs
    unfold addSample engineOfLabels at hadd
    rw [hlabels] at hadd
    cases hadd
  · cases hspace

/-- **A blank before the brace loses the line**: the name is read without labels. -/
theorem addLine_apart (before : Blanks) {name : String} (h : isMetricName name = true)
    {known : Definition × Part} (hknown : sample? name = some known) {b : Char} (hb : isBlank b = true)
    (rest : List Char) (r r' : Reading) :
    addLine F r (strip (before.chars ++ (name.toList ++ b :: rest))) ≠ .ok r' := by
  obtain ⟨kept, gone, hkept, hstrip⟩ := strip_name before h (b :: rest)
  have hstop : ∀ cls : Char → Bool, cls b = false → StopsAt cls kept := by
    intro cls hcls
    cases kept with
    | nil => exact StopsAt.nil cls
    | cons c kept =>
        rw [List.cons_append, List.cons.injEq] at hkept
        exact StopsAt.cons (hkept.1 ▸ hcls)
  have hnot : isNameChar b = false := by
    by_contra hne
    rw [Bool.not_eq_false] at hne
    exact absurd (isSpace_of_isBlank hb) (by rw [not_space_of_isNameChar hne]; decide)
  have hbrace : decide (b = '{') = false := by
    apply decide_eq_false
    rintro rfl
    exact absurd hb (by decide)
  rw [hstrip]
  apply addLine_refused h hknown (hstop _ hnot)
  intro found rest' hfound
  unfold scanLabels at hfound
  rw [Numeral.dropChar?_stop (hstop _ hbrace)] at hfound
  cases hfound
  exact .inl rfl

/-- **A line that ends inside its braces is lost.** -/
theorem addLine_cut (before : Blanks) {name : String} (h : isMetricName name = true)
    {known : Definition × Part} (hknown : sample? name = some known) {inside : List Char}
    (hinside : scanBraces false false inside = none) (r r' : Reading) :
    addLine F r (strip (before.chars ++ (name.toList ++ '{' :: inside))) ≠ .ok r' := by
  obtain ⟨kept, gone, hkept, hstrip⟩ := strip_name before h ('{' :: inside)
  rw [hstrip]
  cases kept with
  | nil =>
      apply addLine_refused h hknown (StopsAt.nil _)
      intro found rest hfound
      cases hfound
      exact .inl rfl
  | cons c kept =>
      rw [List.cons_append, List.cons.injEq] at hkept
      obtain ⟨rfl, rfl⟩ := hkept
      apply addLine_refused h hknown (StopsAt.cons (by decide))
      intro found rest hfound
      unfold scanLabels at hfound
      rw [Numeral.dropChar?_cons] at hfound
      dsimp only at hfound
      rw [scanBraces_initial hinside] at hfound
      cases hfound

end Metrics
end PickleInfra
