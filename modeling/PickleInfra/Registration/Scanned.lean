import PickleInfra.Registration.Statement

/-!
# `Registration.Scanned` — the tokens of a statement, whatever its values

The mode of the lexer after a part does not depend on the value in it: a JSON value ends in a word, whether it is there or
not. So the modes are found of the fixed texts alone, and a statement is read without an error for all values.
-/

namespace PickleInfra
namespace Registration

open Python JsonText Sql

/-! ## Modes -/

/-- A part without its value. -/
inductive Kind where
  | text (cs : List Char)
  | literal
  | json
  | number

/-- The mode after the parts. -/
def modes : Mode → List Kind → Option Mode
  | m, []            => some m
  | m, .text cs :: ks => (run m [] cs).bind fun r => modes r.1 ks
  | m, .literal :: ks => if m.closed then modes .quote ks else none
  | m, .json :: ks    => if m.closed then modes (.word false) ks else none
  | m, .number :: ks  => if m.closed then modes .number ks else none

/-- The parts are of these kinds. -/
inductive Spelled : List Part → List Kind → Prop where
  | nil : Spelled [] []
  | text {cs : List Char} {ps : List Part} {ks : List Kind} (h : Spelled ps ks) :
      Spelled (.text (String.ofList cs) :: ps) (.text cs :: ks)
  | literal {value : String} {ps : List Part} {ks : List Kind} (h : Spelled ps ks) :
      Spelled (.hole (.literal value) :: ps) (.literal :: ks)
  | json {value : Json} {ps : List Part} {ks : List Kind} (h : Spelled ps ks) :
      Spelled (.hole (.json value) :: ps) (.json :: ks)
  | number {n : Nat} {ps : List Part} {ks : List Kind} (h : Spelled ps ks) :
      Spelled (.hole (.raw (.int n)) :: ps) (.number :: ks)

/-- The fixed texts have neither a dollar nor a zero character. -/
def Kind.plain : Kind → Bool
  | .text cs => cs.all fun c => c ≠ '$' && c.toNat ≠ 0
  | _        => true

/-- A literal has neither a dollar nor a zero character. -/
def Part.IsPlain : Part → Prop
  | .hole (.literal value) => Plain value.toList
  | _                      => True

section Scan

variable (T : FloatText) (repr : Json → String)

/-- The tokens of a JSON value, from wherever something new begins. -/
theorem scan_json {m : Mode} (hm : m.closed = true) (value : Json) :
    ∃ slots, scan m (Hole.pieces T repr (.json value)) = some (.word false, slots) := by
  unfold Hole.pieces
  dsimp only
  split
  · have hnull : run .blank [] "NULL::jsonb".toList = some (.word false,
        [.word "jsonb".toList, .operator "::".toList, .word "NULL".toList]) := by decide +kernel
    have hrun : run m [] "NULL::jsonb".toList = _ := (run_of_closed hm (by decide) [] _).trans hnull
    exact ⟨_, scan_text.mpr ⟨_, _, _, _, hrun, rfl, rfl⟩⟩
  · have hopen : run .blank [] "convert_from(decode(".toList = some (.blank,
        [.symbol '(', .word "decode".toList, .symbol '(', .word "convert_from".toList]) := by decide +kernel
    have hrun : run m [] "convert_from(decode(".toList = _ := (run_of_closed hm (by decide) [] _).trans hopen
    have hclose : ∃ o, run .quote [] ", 'base64'), 'UTF8')::jsonb".toList = some (.word false, o) := by
      have hmode : (run .quote [] ", 'base64'), 'UTF8')::jsonb".toList).map Prod.fst = some (.word false) := by
        decide +kernel
      obtain ⟨⟨m', o⟩, ho, rfl⟩ := Option.map_eq_some_iff.mp hmode
      exact ⟨o, ho⟩
    obtain ⟨o, hclose⟩ := hclose
    have hvalue : scan .blank [.quoted (encoded T value), .text ", 'base64'), 'UTF8')::jsonb".toList] =
        some (.word false, ⟨true, .string (encoded T value)⟩ :: (fixed o ++ [])) :=
      scan_quoted rfl _ (scan_text.mpr ⟨_, _, _, _, hclose, rfl, rfl⟩)
    exact ⟨_, scan_text.mpr ⟨_, _, _, _, hrun, hvalue, rfl⟩⟩

/-- **The parts are read**, and leave the mode that their kinds leave. -/
theorem scan_of_modes {ps : List Part} {ks : List Kind} (hspelled : Spelled ps ks) {m m' : Mode}
    (h : modes m ks = some m') : ∃ slots, scan m (ps.flatMap (Part.pieces T repr)) = some (m', slots) := by
  induction hspelled generalizing m with
  | nil =>
      cases h
      exact ⟨[], rfl⟩
  | text _ ih =>
      rw [modes] at h
      obtain ⟨⟨m₁, o⟩, hrun, h⟩ := Option.bind_eq_some_iff.mp h
      obtain ⟨slots, hslots⟩ := ih h
      refine ⟨fixed o ++ slots, ?_⟩
      rw [List.flatMap_cons]
      exact scan_text.mpr ⟨m₁, o, m', slots, by rwa [String.toList_ofList], hslots, rfl⟩
  | literal _ ih =>
      rw [modes] at h
      split at h
      · next hm =>
        obtain ⟨slots, hslots⟩ := ih h
        exact ⟨_, scan_quoted hm _ hslots⟩
      · cases h
  | json _ ih =>
      rw [modes] at h
      split at h
      · next value _ _ _ hm =>
        obtain ⟨slots, hslots⟩ := ih h
        obtain ⟨first, hfirst⟩ := scan_json T repr hm value
        refine ⟨first ++ slots, ?_⟩
        rw [List.flatMap_cons, scan_append]
        show (scan m (Hole.pieces T repr (.json value))).bind _ = _
        rw [hfirst, Option.bind_some, hslots]
        rfl
      · cases h
  | number _ ih =>
      rw [modes] at h
      split at h
      · next hm =>
        obtain ⟨slots, hslots⟩ := ih h
        exact ⟨_, scan_digits hm _ hslots⟩
      · cases h

/-! ## Characters -/

theorem plain_encoded (value : Json) : Plain (encoded T value) :=
  plain_of_all (Base64.all_encode _) (by decide) (by decide)

theorem plain_quoted {cs : List Char} (h : Plain cs) : Plain (quoted cs) := by
  intro c hc
  unfold quoted at hc
  rcases List.mem_cons.mp hc with rfl | hc
  · decide
  · rcases List.mem_append.mp hc with hc | hc
    · obtain ⟨d, hd, hc⟩ := List.mem_flatMap.mp hc
      split at hc
      · rw [List.mem_cons, List.mem_singleton, or_self] at hc
        rw [hc]
        decide
      · rw [List.mem_singleton.mp hc]
        exact h d hd
    · rw [List.mem_singleton.mp hc]
      decide

/-- The pieces of a part can be written. -/
theorem safe_pieces {p : Part} (h : p.IsPlain) : ∀ q ∈ p.pieces T repr, q.Safe := by
  intro q hq
  cases p with
  | text s =>
      rw [List.mem_singleton.mp hq]
      trivial
  | hole hole =>
      cases hole with
      | literal value =>
          rw [List.mem_singleton.mp hq]
          exact fun c hc => (h c hc).2
      | json value =>
          have hq : q ∈ Hole.pieces T repr (.json value) := hq
          unfold Hole.pieces at hq
          dsimp only at hq
          split at hq
          · rw [List.mem_singleton.mp hq]
            trivial
          · rw [List.mem_cons, List.mem_cons, List.mem_singleton] at hq
            rcases hq with rfl | rfl | rfl
            · trivial
            · exact fun c hc => (plain_encoded T value c hc).2
            · trivial
      | raw value =>
          cases value with
          | int n =>
              cases n with
              | ofNat n   =>
                  rw [List.mem_singleton.mp hq]
                  rw [Nat.toString_eq_repr, Nat.toList_repr]
                  exact ⟨Nat.toDigits_ne_nil, toDigits_isDigit n⟩
              | negSucc n =>
                  rw [List.mem_singleton.mp hq]
                  trivial
          | null | bool | float | str | list | dict =>
              rw [List.mem_singleton.mp hq]
              trivial

theorem plain_jsonLiteral (value : Json) : Plain (jsonLiteral T value) := by
  unfold jsonLiteral
  split
  · exact @plain_of_all (fun c => c ≠ '$' && c.toNat ≠ 0) _ (by decide +kernel) (by decide) (by decide)
  · have hopen : Plain "convert_from(decode(".toList :=
      @plain_of_all (fun c => c ≠ '$' && c.toNat ≠ 0) _ (by decide +kernel) (by decide) (by decide)
    have hclose : Plain ", 'base64'), 'UTF8')::jsonb".toList :=
      @plain_of_all (fun c => c ≠ '$' && c.toNat ≠ 0) _ (by decide +kernel) (by decide) (by decide)
    unfold literal
    rw [String.toList_ofList (l := encoded T value)]
    exact (hopen.append (plain_quoted (plain_encoded T value))).append hclose

/-- **The text of the parts** has neither a dollar nor a zero character. -/
theorem plain_chars {ps : List Part} {ks : List Kind} (hspelled : Spelled ps ks) (hkinds : ks.all Kind.plain = true)
    (hps : ∀ p ∈ ps, p.IsPlain) : Plain (ps.flatMap (Part.chars T repr)) := by
  induction hspelled with
  | nil => exact fun c hc => absurd hc List.not_mem_nil
  | @text cs _ _ _ ih =>
      rw [List.all_cons, Bool.and_eq_true] at hkinds
      rw [List.flatMap_cons]
      refine Plain.append ?_ (ih hkinds.2 (List.forall_mem_cons.mp hps).2)
      show Plain (String.ofList cs).toList
      rw [String.toList_ofList]
      exact plain_of_all hkinds.1 (by decide) (by decide)
  | literal _ ih =>
      rw [List.all_cons, Bool.and_eq_true] at hkinds
      rw [List.flatMap_cons]
      exact (plain_quoted (List.forall_mem_cons.mp hps).1).append (ih hkinds.2 (List.forall_mem_cons.mp hps).2)
  | @json value _ _ _ ih =>
      rw [List.all_cons, Bool.and_eq_true] at hkinds
      rw [List.flatMap_cons]
      exact (plain_jsonLiteral T value).append (ih hkinds.2 (List.forall_mem_cons.mp hps).2)
  | @number n _ _ _ ih =>
      rw [List.all_cons, Bool.and_eq_true] at hkinds
      rw [List.flatMap_cons]
      exact (plain_toString n).append (ih hkinds.2 (List.forall_mem_cons.mp hps).2)

/-! ## Branches -/

/-- Whether a JSON value is missing, of a part that has one. -/
def Part.absent : Part → Option Bool
  | .hole (.json value) => some value.isNull
  | _                   => none

/-- **Parts of the same kinds, of which the same values are missing**, are pieces of one shape. -/
theorem shape_of_kinds {ps qs : List Part} {ks : List Kind} (hps : Spelled ps ks) (hqs : Spelled qs ks)
    (habsent : ps.filterMap Part.absent = qs.filterMap Part.absent) :
    (ps.flatMap (Part.pieces T repr)).map Piece.shape = (qs.flatMap (Part.pieces T repr)).map Piece.shape := by
  induction hps generalizing qs with
  | nil =>
      cases hqs
      rfl
  | text _ ih =>
      cases hqs with
      | text hqs =>
          rw [List.flatMap_cons, List.flatMap_cons, List.map_append, List.map_append, ih hqs habsent]
  | literal _ ih =>
      cases hqs with
      | literal hqs =>
          rw [List.flatMap_cons, List.flatMap_cons, List.map_append, List.map_append, ih hqs habsent]
          rfl
  | json _ ih =>
      cases hqs with
      | json hqs =>
          obtain ⟨hnull, habsent⟩ := List.cons.inj habsent
          rw [List.flatMap_cons, List.flatMap_cons, List.map_append, List.map_append, ih hqs habsent]
          congr 1
          show (Hole.pieces T repr (.json _)).map _ = (Hole.pieces T repr (.json _)).map _
          unfold Hole.pieces
          dsimp only
          rw [hnull]
          split <;> rfl
  | number _ ih =>
      cases hqs with
      | number hqs =>
          rw [List.flatMap_cons, List.flatMap_cons, List.map_append, List.map_append, ih hqs habsent]
          rfl

/-! ## Values -/

/-- The token of the value of a part: the literal, the base64 of a JSON value that is there, or the number. -/
def Part.token : Part → Option Token
  | .text _                        => none
  | .hole (.literal value)         => some (.string value.toList)
  | .hole (.json value)            => if value.isNull then none else some (.string (encoded T value))
  | .hole (.raw (.int (.ofNat n))) => some (.number (toString n).toList)
  | .hole (.raw _)                 => none

theorem value_pieces (p : Part) : (p.pieces T repr).filterMap Piece.value = (p.token T).toList := by
  cases p with
  | text s => rfl
  | hole hole =>
      cases hole with
      | literal value => rfl
      | json value    =>
          show (Hole.pieces T repr (.json value)).filterMap Piece.value = (Part.token T (.hole (.json value))).toList
          unfold Hole.pieces Part.token
          dsimp only
          split <;> rfl
      | raw value     =>
          cases value with
          | int n => cases n <;> rfl
          | null | bool | float | str | list | dict => rfl

theorem values_pieces (ps : List Part) :
    (ps.flatMap (Part.pieces T repr)).filterMap Piece.value = ps.filterMap (Part.token T) := by
  induction ps with
  | nil => rfl
  | cons p ps ih =>
      rw [List.flatMap_cons, List.filterMap_append, value_pieces, ih]
      cases hp : p.token T with
      | none   => rw [List.filterMap_cons_none hp]; rfl
      | some t => rw [List.filterMap_cons_some hp]; rfl

/-! ## Scripts -/

/-- The pieces of the whole text. -/
def Script.pieces (s : Script) : List Piece :=
  .text s.before.toList :: .dollar s.tag.toList (s.bodyText T repr) :: s.after.flatMap (Part.pieces T repr)

theorem render_script (s : Script) : render (s.pieces T repr) = s.text T repr := by
  have hcons : render (s.pieces T repr) = s.before.toList ++ (dollarQuoted s.tag.toList (s.bodyText T repr) ++
      render (s.after.flatMap (Part.pieces T repr))) := rfl
  rw [hcons, render_flatMap]
  exact (List.append_assoc ..).symm

/-- Which JSON values are missing. The texts of an `apply_sql` differ in this only, but for what is inside the values. -/
def Script.branch (s : Script) : List Bool := (s.body ++ s.after).filterMap Part.absent

/-- What is fixed of a script. -/
structure Outline where
  before : List Char
  tag : List Char
  body : List Kind
  after : List Kind

/-- The fixed texts are closed before the block and before each value, and have no dollar. -/
def Outline.closed (l : Outline) : Bool :=
  (run .blank [] l.before).any (fun r => r.1.closed) && l.tag.all isIdentStart && (modes .blank l.body).any Mode.ends
    && (modes .blank l.after).any Mode.ends && (Kind.text l.before :: (l.body ++ l.after)).all Kind.plain
    && match l.body with
      | .text ('\n' :: _) :: _ => !l.tag.contains '\n'
      | _                      => false

/-- The script has the outline, with values that can be written. -/
structure Script.Fits (s : Script) (l : Outline) : Prop where
  before : s.before = String.ofList l.before
  tag : s.tag = String.ofList l.tag
  body : Spelled s.body l.body
  after : Spelled s.after l.after
  plain : ∀ p ∈ s.body ++ s.after, p.IsPlain

/-- **A text is read as written**: its tokens are those of the slots, of which the filled ones are the values. -/
structure Reads (s : Script) (outer inner : List Slot) : Prop where
  text : lex (s.text T repr) = some (outer.map Slot.token)
  body : lex (s.bodyText T repr) = some (inner.map Slot.token)
  outerValues : (outer.filter Slot.filled).map Slot.token =
    .dollar s.tag.toList (s.bodyText T repr) :: s.after.filterMap (Part.token T)
  innerValues : (inner.filter Slot.filled).map Slot.token = s.body.filterMap (Part.token T)

section Fits

variable {s : Script} {l : Outline}

theorem bodyText_plain (hfits : s.Fits l) (hclosed : l.closed = true) : Plain (s.bodyText T repr) := by
  unfold Outline.closed at hclosed
  simp only [Bool.and_eq_true, List.all_cons, List.all_append] at hclosed
  exact plain_chars T repr hfits.body hclosed.1.2.2.1 fun p hp => hfits.plain p (List.mem_append_left _ hp)

theorem afterText_plain (hfits : s.Fits l) (hclosed : l.closed = true) :
    Plain (s.after.flatMap (Part.chars T repr)) := by
  unfold Outline.closed at hclosed
  simp only [Bool.and_eq_true, List.all_cons, List.all_append] at hclosed
  exact plain_chars T repr hfits.after hclosed.1.2.2.2 fun p hp => hfits.plain p (List.mem_append_right _ hp)

/-- The block starts on a line of its own, which no tag does. -/
theorem bodyText_ne (hfits : s.Fits l) (hclosed : l.closed = true) : s.bodyText T repr ≠ s.tag.toList := by
  unfold Outline.closed at hclosed
  rw [Bool.and_eq_true] at hclosed
  obtain ⟨-, hline⟩ := hclosed
  intro heq
  split at hline
  · next cs ks hbody =>
    have hspelled := hfits.body
    rw [hbody] at hspelled
    cases hps : s.body with
    | nil =>
        rw [hps] at hspelled
        cases hspelled
    | cons p ps =>
        rw [hps] at hspelled
        cases hspelled
        have hmem : '\n' ∈ s.tag.toList := by
          rw [← heq]
          unfold Script.bodyText
          rw [hps, List.flatMap_cons]
          refine List.mem_append_left _ ?_
          show '\n' ∈ (String.ofList ('\n' :: cs)).toList
          rw [String.toList_ofList]
          exact List.mem_cons_self
        rw [hfits.tag, String.toList_ofList] at hmem
        rw [List.contains_iff_mem.mpr hmem] at hline
        cases hline
  · cases hline

/-- **The tag occurs twice.** -/
theorem occurrences_tag (hfits : s.Fits l) (hclosed : l.closed = true) :
    occurrences (tagText s.tag.toList) (s.text T repr) = 2 := by
  have hne := bodyText_ne T repr hfits hclosed
  have hbody := bodyText_plain T repr hfits hclosed
  have hafter := afterText_plain T repr hfits hclosed
  unfold Outline.closed at hclosed
  simp only [Bool.and_eq_true, List.all_cons] at hclosed
  have htag : ∀ c ∈ s.tag.toList, c ≠ '$' := by
    rw [hfits.tag, String.toList_ofList]
    exact fun c hc => ne_dollar_of_isIdentStart (List.all_eq_true.mp hclosed.1.1.1.1.2 c hc)
  have hbefore : Plain s.before.toList := by
    rw [hfits.before, String.toList_ofList]
    exact plain_of_all hclosed.1.2.1 (by decide) (by decide)
  exact occurrences_dollarQuoted (fun h => htag _ h rfl) (fun h => (hbefore _ h).1 rfl) (fun h => (hbody _ h).1 rfl)
    (fun h => (hafter _ h).1 rfl) hne

theorem exists_scan_of_modes {ps : List Part} {ks : List Kind} (hspelled : Spelled ps ks)
    (h : (modes .blank ks).any Mode.ends = true) :
    ∃ m slots, m.ends = true ∧ scan .blank (ps.flatMap (Part.pieces T repr)) = some (m, slots) := by
  obtain ⟨m, hm, hends⟩ := Option.any_eq_true _ _ |>.mp h
  obtain ⟨slots, hslots⟩ := scan_of_modes T repr hspelled hm
  exact ⟨m, slots, hends, hslots⟩

/-- The block is read to its end. -/
theorem exists_scan_body (hfits : s.Fits l) (hclosed : l.closed = true) :
    ∃ m inner, m.ends = true ∧ scan .blank (s.body.flatMap (Part.pieces T repr)) = some (m, inner) := by
  unfold Outline.closed at hclosed
  simp only [Bool.and_eq_true] at hclosed
  exact exists_scan_of_modes T repr hfits.body hclosed.1.1.1.2

/-- The text is read to its end. -/
theorem exists_scan_text (hfits : s.Fits l) (hclosed : l.closed = true) :
    ∃ m outer, m.ends = true ∧ scan .blank (s.pieces T repr) = some (m, outer) := by
  unfold Outline.closed at hclosed
  simp only [Bool.and_eq_true] at hclosed
  obtain ⟨m, after, hends, hafter⟩ := exists_scan_of_modes T repr hfits.after hclosed.1.1.2
  obtain ⟨⟨m₁, o⟩, hrun, hm₁⟩ := (Option.any_eq_true _ _).mp hclosed.1.1.1.1.1
  refine ⟨m, _, hends, scan_text.mpr ⟨m₁, o, m, _, ?_, scan_dollar hm₁ _ _ hafter, rfl⟩⟩
  rwa [hfits.before, String.toList_ofList]

/-- **What is scanned is read**, and its filled slots are the values. -/
theorem reads_of_scan (hfits : s.Fits l) (hclosed : l.closed = true) {m m' : Mode} {outer inner : List Slot}
    (houter : scan .blank (s.pieces T repr) = some (m, outer)) (hm : m.ends = true)
    (hinner : scan .blank (s.body.flatMap (Part.pieces T repr)) = some (m', inner)) (hm' : m'.ends = true) :
    Reads T repr s outer inner := by
  have hbody := bodyText_plain T repr hfits hclosed
  have hsafe : ∀ {ps : List Part}, (∀ p ∈ ps, p.IsPlain) → ∀ q ∈ ps.flatMap (Part.pieces T repr), q.Safe := by
    intro ps hps q hq
    obtain ⟨p, hp, hq⟩ := List.mem_flatMap.mp hq
    exact safe_pieces T repr (hps p hp) q hq
  have htag : s.tag.toList.all isIdentStart = true := by
    unfold Outline.closed at hclosed
    simp only [Bool.and_eq_true] at hclosed
    rw [hfits.tag, String.toList_ofList]
    exact hclosed.1.1.1.1.2
  have hpieces : ∀ q ∈ s.pieces T repr, q.Safe := by
    refine List.forall_mem_cons.mpr ⟨trivial, List.forall_mem_cons.mpr ⟨⟨htag, fun c hc => (hbody c hc).2, ?_⟩, ?_⟩⟩
    · exact fun h => (hbody _ h).1 rfl
    · exact hsafe fun p hp => hfits.plain p (List.mem_append_right _ hp)
  refine ⟨?_, ?_, ?_, ?_⟩
  · rw [← render_script]
    exact lex_render hpieces houter hm
  · have hlex := lex_render (hsafe fun p hp => hfits.plain p (List.mem_append_left _ hp)) hinner hm'
    rwa [render_flatMap] at hlex
  · rw [values_of_scan houter]
    exact congrArg (Token.dollar s.tag.toList (s.bodyText T repr) :: ·) (values_pieces T repr s.after)
  · rw [values_of_scan hinner]
    exact values_pieces T repr s.body

/-! ## Two texts -/

def Kind.isJson : Kind → Bool
  | .json => true
  | _     => false

theorem length_absent {ps : List Part} {ks : List Kind} (h : Spelled ps ks) :
    (ps.filterMap Part.absent).length = ks.countP Kind.isJson := by
  induction h with
  | nil => rfl
  | text _ ih => exact ih
  | literal _ ih => exact ih
  | json _ ih =>
      rw [List.countP_cons_of_pos rfl, ← ih]
      rfl
  | number _ ih => exact ih

/-- **Two texts of one outline, of which the same values are missing**, have the same tokens but for the contents of the
    values. -/
theorem masks_of_scan {t : Script} (hs : s.Fits l) (ht : t.Fits l) (hbranch : s.branch = t.branch)
    {m m' n n' : Mode} {outer inner outer' inner' : List Slot}
    (houter : scan .blank (s.pieces T repr) = some (m, outer))
    (hinner : scan .blank (s.body.flatMap (Part.pieces T repr)) = some (m', inner))
    (houter' : scan .blank (t.pieces T repr) = some (n, outer'))
    (hinner' : scan .blank (t.body.flatMap (Part.pieces T repr)) = some (n', inner')) :
    outer.map Slot.mask = outer'.map Slot.mask ∧ inner.map Slot.mask = inner'.map Slot.mask := by
  unfold Script.branch at hbranch
  rw [List.filterMap_append, List.filterMap_append] at hbranch
  obtain ⟨hbody, hafter⟩ := List.append_inj hbranch ((length_absent hs.body).trans (length_absent ht.body).symm)
  constructor
  · refine mask_of_shape ?_ houter houter'
    unfold Script.pieces
    simp only [List.map_cons, Piece.shape, hs.before, ht.before, hs.tag, ht.tag,
      shape_of_kinds T repr hs.after ht.after hafter]
  · exact mask_of_shape (shape_of_kinds T repr hs.body ht.body hbody) hinner hinner'

end Fits

end Scan

end Registration
end PickleInfra
