import PickleInfra.Metrics.Exposition

/-!
# `Metrics.Cut` — the lines `str.splitlines` makes of a rendered text

A line that is written whole is one line again. A line boundary within a label value ends the line inside
its quotes, and the parser gives up there.
-/

namespace PickleInfra
namespace Metrics

open Python Python.Text Python.Str

/-- No label value has a line boundary other than the line feed, which is escaped. -/
def LineText.Uncut (l : LineText) : Prop :=
  ∀ x ∈ l.labels, ∀ c ∈ x.label.2.toList, isBoundary c = true → c = '\n'

/-- The lines that are read back: their brace follows their name, and they are not cut. -/
structure LineText.Fine (l : LineText) : Prop where
  together : l.beforeBrace.chars = []
  uncut : l.Uncut

/-! ## A line that is not cut -/

/-- The text has no line boundary. -/
def Whole (cs : List Char) : Prop := ∀ c ∈ cs, isBoundary c = false

theorem whole_append {a b : List Char} : Whole (a ++ b) ↔ Whole a ∧ Whole b := List.forall_mem_append

theorem whole_cons {c : Char} {cs : List Char} : Whole (c :: cs) ↔ isBoundary c = false ∧ Whole cs :=
  List.forall_mem_cons

theorem whole_nil : Whole [] := fun _ hc => absurd hc List.not_mem_nil

theorem not_boundary_of_not_space {c : Char} (h : isSpace c = false) : isBoundary c = false := by
  by_contra hne
  rw [Bool.not_eq_false] at hne
  rw [isSpace_of_isBoundary hne] at h
  cases h

theorem whole_blanks (b : Blanks) : Whole b.chars := by
  intro c hc
  exact not_boundary_of_isBlank (List.all_eq_true.mp b.blank c hc)

theorem whole_metricName {s : String} (h : isMetricName s = true) : Whole s.toList := by
  intro c hc
  obtain ⟨_, _, -, -, hall, -⟩ := isMetricName_chars h
  exact not_boundary_of_not_space (not_space_of_isNameChar (List.all_eq_true.mp hall c hc))

theorem whole_labelName {s : String} (h : isLabelName s = true) : Whole s.toList := by
  intro c hc
  obtain ⟨_, _, -, -, hall⟩ := isLabelName_chars h
  exact not_boundary_of_not_space (not_space_of_isLabelChar (List.all_eq_true.mp hall c hc))

theorem whole_render {n : Numeral} (h : n.IsJson) : Whole n.render := by
  intro c hc
  have hchar := List.all_eq_true.mp (Numeral.render_chars h) c hc
  exact not_boundary_of_not_space (not_space_of_isNumeralChar hchar)

theorem unescape_whole {e c : Char} (h : unescape e = some c) : isBoundary e = false := by
  unfold unescape at h
  split at h
  · next he =>
    rw [he]
    decide
  split at h
  · next he =>
    rw [he]
    decide
  split at h
  · next he =>
    rw [he]
    decide
  · cases h

theorem whole_escape {s : String} (h : ∀ c ∈ s.toList, isBoundary c = true → c = '\n') :
    Whole (escapeLabel s) := by
  intro d hd
  obtain ⟨c, hc, hd⟩ := List.mem_flatMap.mp hd
  rcases escapeLabelChar_cases c with ⟨e, he, hesc⟩ | ⟨-, -, hfeed, hesc⟩
  · rw [hesc, List.mem_cons, List.mem_singleton] at hd
    rcases hd with rfl | rfl
    · decide
    · exact unescape_whole he
  · rw [hesc, List.mem_singleton] at hd
    subst hd
    rw [← Bool.not_eq_true]
    exact fun hboundary => hfeed (h d hc hboundary)

theorem whole_label {l : LabelText} (hname : isLabelName l.label.1 = true)
    (h : ∀ c ∈ l.label.2.toList, isBoundary c = true → c = '\n') : Whole l.render := by
  unfold LabelText.render LabelText.opening
  simp only [whole_append, whole_cons]
  exact ⟨⟨whole_blanks _, whole_labelName hname, whole_blanks _, by decide, whole_blanks _, by decide,
    whole_nil⟩, whole_escape h, by decide, whole_blanks _⟩

theorem whole_labels {ls : List LabelText} (hnames : ∀ x ∈ ls, isLabelName x.label.1 = true)
    (h : ∀ x ∈ ls, ∀ c ∈ x.label.2.toList, isBoundary c = true → c = '\n') : Whole (renderLabels ls) := by
  induction ls with
  | nil => exact whole_nil
  | cons l ls ih =>
      have hl := whole_label (hnames l List.mem_cons_self) (h l List.mem_cons_self)
      cases ls with
      | nil => exact hl
      | cons l' ls =>
          rw [renderLabels, whole_append, whole_cons]
          exact ⟨hl, by decide, ih (fun x hx => hnames x (List.mem_cons_of_mem _ hx))
            (fun x hx => h x (List.mem_cons_of_mem _ hx))⟩

theorem whole_numbers {l : LineText} (h : l.Ok) : Whole l.numbers := by
  unfold LineText.numbers
  rw [whole_append]
  refine ⟨whole_render h.value, ?_⟩
  cases ht : l.time with
  | none => exact whole_nil
  | some t =>
      show Whole (t.before.chars ++ t.numeral.render)
      rw [whole_append]
      exact ⟨whole_blanks _, whole_render (h.time t ht)⟩

theorem whole_line {l : LineText} (h : l.Ok) (huncut : l.Uncut) : Whole l.render := by
  unfold LineText.render LineText.core
  simp only [whole_append, whole_cons]
  exact ⟨⟨whole_blanks _, whole_metricName h.name, whole_blanks _, by decide,
    whole_labels h.labelNames huncut, by decide, whole_blanks _, whole_numbers h⟩, whole_blanks _⟩

/-- **A text of fine lines is split into its lines.** -/
theorem splitlines_render {lines : List LineText} (hok : ∀ l ∈ lines, l.Ok) (hfine : ∀ l ∈ lines, l.Fine) :
    splitlines (renderText lines) = lines.map LineText.render := by
  apply splitlines_lines
  intro cs hcs
  obtain ⟨l, hl, rfl⟩ := List.mem_map.mp hcs
  exact whole_line (hok l hl) (hfine l hl).uncut

/-! ## A line that is cut -/

/-- In front of the closing quote of a label value no brace closes. -/
theorem inside_label {ls : List LabelText} (hnames : ∀ x ∈ ls, isLabelName x.label.1 = true) {x : LabelText}
    (hx : x ∈ ls) : ∃ front rest, renderLabels ls = front ++ (escapeLabel x.label.2 ++ rest) ∧
      scanBraces false false (front ++ escapeLabel x.label.2) = none := by
  induction ls with
  | nil => exact absurd hx List.not_mem_nil
  | cons l ls ih =>
      have hl := hnames l List.mem_cons_self
      have hls := fun x hx => hnames x (List.mem_cons_of_mem _ hx)
      rcases List.mem_cons.mp hx with rfl | hx
      · have hopen := scanBraces_opening hl []
        rw [List.append_nil] at hopen
        have hnone : scanBraces false false (x.opening ++ escapeLabel x.label.2) = none := by
          rw [hopen]
          rfl
        cases ls with
        | nil =>
            refine ⟨x.opening, '"' :: x.afterQuote.chars, rfl, hnone⟩
        | cons l' ls =>
            refine ⟨x.opening, '"' :: (x.afterQuote.chars ++ ',' :: renderLabels (l' :: ls)), ?_, hnone⟩
            rw [renderLabels]
            unfold LabelText.render
            simp only [List.append_assoc, List.cons_append]
      · obtain ⟨front, rest, heq, hnone⟩ := ih hls hx
        cases ls with
        | nil => exact absurd hx List.not_mem_nil
        | cons l' ls =>
            refine ⟨l.render ++ ',' :: front, rest, ?_, ?_⟩
            · rw [renderLabels, heq]
              simp only [List.append_assoc, List.cons_append]
            · rw [List.append_assoc, List.cons_append, scanBraces_label hl, scanBraces_comma, hnone]
              rfl

/-- The first line boundary of a text. -/
theorem first_boundary {cs : List Char} (h : ∃ c ∈ cs, isBoundary c = true) :
    ∃ piece c rest, cs = piece ++ c :: rest ∧ Whole piece ∧ isBoundary c = true := by
  induction cs with
  | nil =>
      obtain ⟨c, hc, -⟩ := h
      exact absurd hc List.not_mem_nil
  | cons d cs ih =>
      cases hd : isBoundary d with
      | true => exact ⟨[], d, cs, rfl, whole_nil, hd⟩
      | false =>
          obtain ⟨c, hc, hboundary⟩ := h
          rcases List.mem_cons.mp hc with rfl | hc
          · rw [hd] at hboundary
            cases hboundary
          · obtain ⟨piece, e, rest, rfl, hpiece, he⟩ := ih ⟨c, hc, hboundary⟩
            exact ⟨d :: piece, e, rest, rfl, whole_cons.mpr ⟨hd, hpiece⟩, he⟩

variable {F : FloatFormat}

/-- A line that ends inside its braces, or has a blank in front of them, is refused. -/
theorem addLine_lost {l : LineText} (h : l.Ok) {known : Definition × Part} (hknown : sample? l.name = some known)
    {inside : List Char} (hlost : l.beforeBrace.chars ≠ [] ∨ scanBraces false false inside = none)
    (r r' : Reading) :
    addLine F r (strip (l.before.chars ++ (l.name.toList ++ (l.beforeBrace.chars ++ '{' :: inside)))) ≠ .ok r' := by
  cases hb : l.beforeBrace.chars with
  | nil =>
      rcases hlost with hne | hinside
      · exact absurd hb hne
      · exact addLine_cut l.before h.name hknown hinside r r'
  | cons b bs =>
      have hblank := l.beforeBrace.blank
      rw [hb, List.all_cons, Bool.and_eq_true] at hblank
      exact addLine_apart l.before h.name hknown hblank.1 _ r r'

/-- **A line boundary in a label value cuts the line inside its quotes.** -/
theorem splitlines_cut {l : LineText} (h : l.Ok) (hcut : ¬ l.Uncut) (rest : List Char) :
    ∃ inside more, scanBraces false false inside = none ∧
      splitlines (l.render ++ rest)
        = (l.before.chars ++ (l.name.toList ++ (l.beforeBrace.chars ++ '{' :: inside))) :: more := by
  unfold LineText.Uncut at hcut
  simp only [not_forall] at hcut
  obtain ⟨x, hx, c, hc, hboundary, hfeed⟩ := hcut
  obtain ⟨front, after, heq, hnone⟩ := inside_label h.labelNames hx
  have hescaped : c ∈ escapeLabel x.label.2 := by
    refine List.mem_flatMap.mpr ⟨c, hc, ?_⟩
    rcases escapeLabelChar_cases c with ⟨e, he, -⟩ | ⟨-, -, -, hesc⟩
    · unfold unescape at he
      split at he
      · cases he
        exact absurd hboundary (by decide)
      split at he
      · cases he
        exact absurd hboundary (by decide)
      split at he
      · cases he
        exact absurd rfl hfeed
      · cases he
    · rw [hesc]
      exact List.mem_singleton_self c
  obtain ⟨piece, d, gone, hsplit, hpiece, hd⟩ :=
    first_boundary ⟨c, List.mem_append_right front hescaped, hboundary⟩
  have hhead : Whole (l.before.chars ++ (l.name.toList ++ (l.beforeBrace.chars ++ '{' :: piece))) := by
    simp only [whole_append, whole_cons]
    exact ⟨whole_blanks _, whole_metricName h.name, whole_blanks _, by decide, hpiece⟩
  rw [hsplit] at hnone
  refine ⟨piece, ?_⟩
  obtain ⟨more, hmore⟩ := @head_splitlines _ (gone ++ (after ++ '}' :: (l.beforeValue.chars ++
    (l.numbers ++ (l.after.chars ++ rest))))) _ hhead hd
  refine ⟨more, scanBraces_initial hnone, ?_⟩
  rw [← hmore]
  have hlabels : renderLabels l.labels = piece ++ (d :: (gone ++ after)) := by
    rw [heq, ← List.append_assoc, hsplit, List.append_assoc, List.cons_append]
  unfold LineText.render LineText.core
  rw [hlabels]
  simp only [List.append_assoc, List.cons_append]

theorem addLines_cons {r r' : Reading} {line : List Char} {lines : List (List Char)}
    (h : addLines F r (line :: lines) = .ok r') :
    ∃ next, addLine F r (strip line) = .ok next ∧ addLines F next lines = .ok r' := by
  unfold addLines at h
  simp only [bind_eq_ok] at h
  obtain ⟨_, -, next, hnext, hrest⟩ := h
  exact ⟨next, hnext, hrest⟩

/-- **A text with a line that is not fine is refused.** -/
theorem addLines_lost {lines : List LineText} (hok : ∀ l ∈ lines, l.Ok)
    (hknown : ∀ l ∈ lines, ∃ known, sample? l.name = some known) (hbad : ¬ ∀ l ∈ lines, l.Fine) :
    ∀ r r', addLines F r (splitlines (renderText lines)) ≠ .ok r' := by
  induction lines with
  | nil => exact absurd (fun l hl => absurd hl List.not_mem_nil) hbad
  | cons l lines ih =>
      intro r r' h
      have hl := hok l List.mem_cons_self
      obtain ⟨known, hk⟩ := hknown l List.mem_cons_self
      have htext : renderText (l :: lines) = l.render ++ ('\n' :: renderText lines) := by
        unfold renderText
        rw [List.map_cons, List.flatMap_cons, List.append_assoc]
        rfl
      by_cases huncut : l.Uncut
      · have hfirst : splitlines (renderText (l :: lines)) = l.render :: splitlines (renderText lines) := by
          have hone : ∀ cs ∈ [l.render], Whole cs := fun cs hcs =>
            List.mem_singleton.mp hcs ▸ whole_line hl huncut
          have hlines := splitlines_append hone (renderText lines)
          rw [List.flatMap_singleton, List.append_assoc] at hlines
          rw [htext]
          exact hlines
        rw [hfirst] at h
        obtain ⟨next, hnext, hrest⟩ := addLines_cons h
        by_cases htogether : l.beforeBrace.chars = []
        · refine ih (fun x hx => hok x (List.mem_cons_of_mem _ hx))
            (fun x hx => hknown x (List.mem_cons_of_mem _ hx)) ?_ next r' hrest
          intro hfine
          apply hbad
          intro x hx
          rcases List.mem_cons.mp hx with rfl | hx
          · exact ⟨htogether, huncut⟩
          · exact hfine x hx
        · apply @addLine_lost F _ hl _ hk (renderLabels l.labels ++ '}' ::
            (l.beforeValue.chars ++ (l.numbers ++ l.after.chars))) (.inl htogether) r next
          rw [← hnext]
          unfold LineText.render LineText.core
          simp only [List.append_assoc, List.cons_append]
      · obtain ⟨inside, more, hinside, hsplit⟩ := splitlines_cut hl huncut ('\n' :: renderText lines)
        rw [htext, hsplit] at h
        obtain ⟨next, hnext, -⟩ := addLines_cons h
        exact addLine_lost hl hk (.inr hinside) r next hnext

end Metrics
end PickleInfra
