import PickleInfra.Sql.Lexer

/-!
# `Sql.Template` — a text with holes, and its tokens

A template is written of fixed texts and of values, each in one of the forms that the lexer reads as one token. Its
tokens are found without the values (`scan`): a fixed text is read alone, from the mode that the piece before it leaves.
So two templates of one shape have the same tokens but for the contents of the values.
-/

namespace PickleInfra
namespace Sql

/-! ## Pieces -/

inductive Piece where
  | text (cs : List Char)
  | quoted (cs : List Char)
  | digits (cs : List Char)
  | dollar (tag body : List Char)
deriving DecidableEq

/-- What is written. -/
def Piece.render : Piece → List Char
  | .text cs         => cs
  | .quoted cs       => Sql.quoted cs
  | .digits cs       => cs
  | .dollar tag body => dollarQuoted tag body

def render (ps : List Piece) : List Char := ps.flatMap Piece.render

/-- The token of a value. -/
def Piece.value : Piece → Option Token
  | .text _          => none
  | .quoted cs       => some (.string cs)
  | .digits cs       => some (.number cs)
  | .dollar tag body => some (.dollar tag body)

/-- The piece without its value. -/
def Piece.shape : Piece → Piece
  | .text cs      => .text cs
  | .quoted _     => .quoted []
  | .digits _     => .digits []
  | .dollar tag _ => .dollar tag []

/-- The value can be written as the piece writes it. -/
def Piece.Safe : Piece → Prop
  | .text _          => True
  | .quoted cs       => ∀ c ∈ cs, c.toNat ≠ 0
  | .digits cs       => cs ≠ [] ∧ cs.all isDigit = true
  | .dollar tag body => tag.all isIdentStart = true ∧ (∀ c ∈ body, c.toNat ≠ 0) ∧ '$' ∉ body

/-! ## Slots -/

/-- A token, and whether it is of a value. -/
structure Slot where
  filled : Bool
  token : Token
deriving DecidableEq

/-- The token without what is inside it. -/
def Token.emptied : Token → Token
  | .word _       => .word []
  | .number _     => .number []
  | .string _     => .string []
  | .dollar tag _ => .dollar tag []
  | .operator _   => .operator []
  | .symbol c     => .symbol c

/-- The slot without the contents of a value. -/
def Slot.mask (s : Slot) : Slot := if s.filled then ⟨true, s.token.emptied⟩ else s

/-- The tokens of fixed text. -/
def fixed (o : Output) : List Slot := o.reverse.map (⟨false, ·⟩)

/-! ## Scanning -/

/-- The tokens of a template, and the mode that it leaves. -/
def scan (m : Mode) : List Piece → Option (Mode × List Slot)
  | []                     => some (m, [])
  | .text cs :: ps         => do
    let (m₁, o) ← run m [] cs
    let (m₂, slots) ← scan m₁ ps
    return (m₂, fixed o ++ slots)
  | .quoted cs :: ps       =>
    if m.closed then (scan .quote ps).map fun r => (r.1, ⟨true, .string cs⟩ :: r.2) else none
  | .digits cs :: ps       =>
    if m.closed then (scan .number ps).map fun r => (r.1, ⟨true, .number cs⟩ :: r.2) else none
  | .dollar tag body :: ps =>
    if m.closed then (scan .blank ps).map fun r => (r.1, ⟨true, .dollar tag body⟩ :: r.2) else none

theorem scan_text {m : Mode} {cs : List Char} {ps : List Piece} {r : Mode × List Slot} :
    scan m (.text cs :: ps) = some r ↔ ∃ m₁ o m₂ slots, run m [] cs = some (m₁, o) ∧ scan m₁ ps = some (m₂, slots) ∧
      r = (m₂, fixed o ++ slots) := by
  rw [scan]
  simp only [Option.bind_eq_bind, Option.bind_eq_some_iff, Prod.exists, pure, Option.some.injEq]
  constructor
  · rintro ⟨m₁, o, hrun, m₂, slots, hscan, h⟩
    exact ⟨m₁, o, m₂, slots, hrun, hscan, h.symm⟩
  · rintro ⟨m₁, o, m₂, slots, hrun, hscan, h⟩
    exact ⟨m₁, o, hrun, m₂, slots, hscan, h.symm⟩

/-- One value, where something new begins. -/
theorem map_eq_some_of_closed {m m₁ : Mode} {ps : List Piece} {t : Token} {r : Mode × List Slot}
    (h : (if m.closed then (scan m₁ ps).map fun r => (r.1, ⟨true, t⟩ :: r.2) else none) = some r) :
    m.closed = true ∧ ∃ m₂ slots, scan m₁ ps = some (m₂, slots) ∧ r = (m₂, ⟨true, t⟩ :: slots) := by
  split at h
  · next hm =>
    obtain ⟨⟨m₂, slots⟩, hscan, hr⟩ := Option.map_eq_some_iff.mp h
    exact ⟨hm, m₂, slots, hscan, hr.symm⟩
  · cases h

theorem scan_quoted {m m' : Mode} (hm : m.closed = true) (cs : List Char) {ps : List Piece} {slots : List Slot}
    (h : scan .quote ps = some (m', slots)) : scan m (.quoted cs :: ps) = some (m', ⟨true, .string cs⟩ :: slots) := by
  rw [scan, if_pos hm, h]
  rfl

theorem scan_digits {m m' : Mode} (hm : m.closed = true) (cs : List Char) {ps : List Piece} {slots : List Slot}
    (h : scan .number ps = some (m', slots)) : scan m (.digits cs :: ps) = some (m', ⟨true, .number cs⟩ :: slots) := by
  rw [scan, if_pos hm, h]
  rfl

theorem scan_dollar {m m' : Mode} (hm : m.closed = true) (tag body : List Char) {ps : List Piece} {slots : List Slot}
    (h : scan .blank ps = some (m', slots)) :
    scan m (.dollar tag body :: ps) = some (m', ⟨true, .dollar tag body⟩ :: slots) := by
  rw [scan, if_pos hm, h]
  rfl

/-- **The tokens of a template** are those of its text. -/
theorem run_render {ps : List Piece} {m m' : Mode} {slots : List Slot} (hsafe : ∀ p ∈ ps, p.Safe)
    (h : scan m ps = some (m', slots)) : run m [] (render ps) = some (m', (slots.map Slot.token).reverse) := by
  induction ps generalizing m slots with
  | nil =>
      cases h
      rfl
  | cons p ps ih =>
      obtain ⟨hp, hps⟩ := List.forall_mem_cons.mp hsafe
      have hcons : render (p :: ps) = p.render ++ render ps := rfl
      -- the piece leaves the mode from which the rest is scanned
      have hrest : ∀ (slots₁ : List Slot) {m₁ : Mode} {o : Output} {slots₂ : List Slot}, run m [] p.render = some (m₁, o) →
          scan m₁ ps = some (m', slots₂) → (slots₁.map Slot.token).reverse = o →
          run m [] (render (p :: ps)) = some (m', ((slots₁ ++ slots₂).map Slot.token).reverse) := by
        intro slots₁ m₁ o slots₂ hrun hscan ho
        rw [hcons, run_append, hrun, Option.bind_some, ← List.nil_append o, run_frame (ih hps hscan) o, ← ho]
        simp
      cases p with
      | text cs =>
          obtain ⟨m₁, o, m₂, rest, hrun, hscan, heq⟩ := scan_text.mp h
          cases heq
          exact hrest _ hrun hscan (by simp [fixed, Function.comp_def])
      | quoted cs =>
          obtain ⟨hm, m₂, rest, hscan, heq⟩ := map_eq_some_of_closed h
          cases heq
          exact hrest [⟨true, .string cs⟩] (run_quoted hm [] hp) hscan rfl
      | digits cs =>
          obtain ⟨hm, m₂, rest, hscan, heq⟩ := map_eq_some_of_closed h
          cases heq
          exact hrest [⟨true, .number cs⟩] (run_digits hm [] hp.1 hp.2) hscan rfl
      | dollar tag body =>
          obtain ⟨hm, m₂, rest, hscan, heq⟩ := map_eq_some_of_closed h
          cases heq
          exact hrest [⟨true, .dollar tag body⟩] (run_dollarQuoted hm [] hp.1 hp.2.1 hp.2.2) hscan rfl

/-! ## Shapes -/

@[simp] theorem map_mask_fixed (o : Output) : (fixed o).map Slot.mask = fixed o := by
  unfold fixed
  rw [List.map_map]
  rfl

/-- **The shape of a template decides its tokens** but for the contents of the values. -/
theorem scan_shape (m : Mode) (ps : List Piece) :
    scan m (ps.map Piece.shape) = (scan m ps).map fun r => (r.1, r.2.map Slot.mask) := by
  induction ps generalizing m with
  | nil => rfl
  | cons p ps ih =>
      cases p with
      | text cs =>
          rw [List.map_cons, Piece.shape, scan, scan]
          cases run m [] cs with
          | none   => rfl
          | some r =>
              simp only [Option.bind_eq_bind, Option.bind_some, ih r.1]
              cases scan r.1 ps with
              | none   => rfl
              | some q =>
                  simp only [Option.map_some, Option.bind_some, pure, List.map_append, map_mask_fixed]
      | quoted cs =>
          rw [List.map_cons, Piece.shape, scan, scan, ih]
          cases m.closed <;> cases scan .quote ps <;> rfl
      | digits cs =>
          rw [List.map_cons, Piece.shape, scan, scan, ih]
          cases m.closed <;> cases scan .number ps <;> rfl
      | dollar tag body =>
          rw [List.map_cons, Piece.shape, scan, scan, ih]
          cases m.closed <;> cases scan .blank ps <;> rfl

theorem mask_of_shape {ps qs : List Piece} {m m₁ m₂ : Mode} {slots₁ slots₂ : List Slot}
    (hshape : ps.map Piece.shape = qs.map Piece.shape) (hps : scan m ps = some (m₁, slots₁))
    (hqs : scan m qs = some (m₂, slots₂)) : slots₁.map Slot.mask = slots₂.map Slot.mask := by
  have h := scan_shape m ps
  rw [hshape, scan_shape, hps, hqs] at h
  exact (congrArg Prod.snd (Option.some.inj h)).symm

@[simp] theorem filter_fixed (o : Output) : (fixed o).filter Slot.filled = [] := by
  unfold fixed
  rw [List.filter_map, List.map_eq_nil_iff, List.filter_eq_nil_iff]
  exact fun _ _ => Bool.false_ne_true

/-- **Each value is one token**, in the order of the template. -/
theorem values_of_scan {ps : List Piece} {m m' : Mode} {slots : List Slot} (h : scan m ps = some (m', slots)) :
    (slots.filter Slot.filled).map Slot.token = ps.filterMap Piece.value := by
  induction ps generalizing m slots with
  | nil =>
      cases h
      rfl
  | cons p ps ih =>
      cases p with
      | text cs =>
          obtain ⟨m₁, o, m₂, rest, -, hscan, heq⟩ := scan_text.mp h
          cases heq
          rw [List.filter_append, filter_fixed, List.nil_append, ih hscan]
          rfl
      | quoted cs =>
          obtain ⟨-, m₂, rest, hscan, heq⟩ := map_eq_some_of_closed h
          cases heq
          exact congrArg (Token.string cs :: ·) (ih hscan)
      | digits cs =>
          obtain ⟨-, m₂, rest, hscan, heq⟩ := map_eq_some_of_closed h
          cases heq
          exact congrArg (Token.number cs :: ·) (ih hscan)
      | dollar tag body =>
          obtain ⟨-, m₂, rest, hscan, heq⟩ := map_eq_some_of_closed h
          cases heq
          exact congrArg (Token.dollar tag body :: ·) (ih hscan)

theorem scan_append (m : Mode) (ps qs : List Piece) :
    scan m (ps ++ qs) = (scan m ps).bind fun r => (scan r.1 qs).map fun s => (s.1, r.2 ++ s.2) := by
  induction ps generalizing m with
  | nil =>
      rw [List.nil_append, scan, Option.bind_some]
      cases scan m qs <;> rfl
  | cons p ps ih =>
      cases p with
      | text cs =>
          rw [List.cons_append, scan, scan]
          cases run m [] cs with
          | none   => rfl
          | some r =>
              simp only [Option.bind_eq_bind, Option.bind_some, ih r.1]
              cases scan r.1 ps with
              | none   => rfl
              | some a =>
                  simp only [Option.bind_some, pure]
                  cases scan a.1 qs with
                  | none   => rfl
                  | some b => simp only [Option.map_some, Option.bind_some, List.append_assoc]
      | quoted cs =>
          rw [List.cons_append, scan, scan, ih]
          cases m.closed
          · rfl
          · cases hps : scan .quote ps with
            | none   => rfl
            | some a => cases hqs : scan a.1 qs <;> simp [hqs]
      | digits cs =>
          rw [List.cons_append, scan, scan, ih]
          cases m.closed
          · rfl
          · cases hps : scan .number ps with
            | none   => rfl
            | some a => cases hqs : scan a.1 qs <;> simp [hqs]
      | dollar tag body =>
          rw [List.cons_append, scan, scan, ih]
          cases m.closed
          · rfl
          · cases hps : scan .blank ps with
            | none   => rfl
            | some a => cases hqs : scan a.1 qs <;> simp [hqs]

/-- A text that begins something new is read as from a blank. -/
theorem run_of_closed {m : Mode} (hm : m.closed = true) {c : Char} (hc : begins c = true) (o : Output) (cs : List Char) :
    run m o (c :: cs) = run .blank o (c :: cs) := by
  rw [run_cons, run_cons, step_of_closed hm o hc, @step_of_closed .blank rfl o c hc]

/-- Text in the place of a number has its own tokens there. -/
theorem scan_widened {ps qs : List Piece} {ds cs : List Char} {c : Char} {m : Mode} {o : Output} {slots : List Slot}
    (hc : begins c = true) (hrun : run .blank [] (c :: cs) = some (.number, o))
    (h : scan .blank (ps ++ .digits ds :: qs) = some (m, slots)) : ∃ wide,
      scan .blank (ps ++ .text (c :: cs) :: qs) = some (m, wide) ∧ wide.length + 1 = slots.length + o.length := by
  rw [scan_append] at h
  obtain ⟨⟨m₁, before⟩, hbefore, h⟩ := Option.bind_eq_some_iff.mp h
  obtain ⟨⟨m₂, after⟩, hafter, hslots⟩ := Option.map_eq_some_iff.mp h
  cases hslots
  rw [scan] at hafter
  obtain ⟨hclosed, m₃, rest, hrest, hafter⟩ := map_eq_some_of_closed hafter
  cases hafter
  have hwide : scan m₁ (.text (c :: cs) :: qs) = some (_, fixed o ++ rest) :=
    scan_text.mpr ⟨_, _, _, _, (run_of_closed hclosed hc [] cs).trans hrun, hrest, rfl⟩
  refine ⟨before ++ (fixed o ++ rest), ?_, ?_⟩
  · rw [scan_append, hbefore, Option.bind_some, hwide]
    rfl
  · simp only [List.length_append, List.length_cons, fixed, List.length_map, List.length_reverse]
    omega

/-- **A template that is closed at its end is lexed** to its slots. -/
theorem lex_render {ps : List Piece} {m : Mode} {slots : List Slot} (hsafe : ∀ p ∈ ps, p.Safe)
    (h : scan .blank ps = some (m, slots)) (hends : m.ends = true) : lex (render ps) = some (slots.map Slot.token) := by
  unfold lex
  rw [run_render hsafe h, Option.bind_some, if_pos hends, List.reverse_reverse]

/-! ## Occurrences -/

/-- How often a text occurs in another. -/
def occurrences (needle : List Char) : List Char → Nat
  | []      => if needle.isEmpty then 1 else 0
  | c :: cs => (if needle.isPrefixOf (c :: cs) then 1 else 0) + occurrences needle cs

/-- What a tag is written as. -/
def tagText (tag : List Char) : List Char := '$' :: (tag ++ ['$'])

section Occurrences

variable {tag : List Char}

theorem occurrences_skip {cs : List Char} (h : '$' ∉ cs) (rest : List Char) :
    occurrences (tagText tag) (cs ++ rest) = occurrences (tagText tag) rest := by
  induction cs with
  | nil => rfl
  | cons c cs ih =>
      have hc : c ≠ '$' := fun heq => h (heq ▸ List.mem_cons_self)
      have hnot : (tagText tag).isPrefixOf (c :: (cs ++ rest)) = false := by
        show ('$' == c && _) = false
        rw [beq_eq_false_iff_ne.mpr (Ne.symm hc), Bool.false_and]
      rw [List.cons_append, occurrences, hnot, ih fun hmem => h (List.mem_cons_of_mem c hmem)]
      exact Nat.zero_add _

theorem occurrences_none {cs : List Char} (h : '$' ∉ cs) : occurrences (tagText tag) cs = 0 := by
  have hskip := @occurrences_skip tag _ h []
  rw [List.append_nil] at hskip
  rw [hskip]
  rfl

/-- Between two dollars there is the tag, or the first of them does not begin it. -/
theorem isPrefixOf_dollar (htag : '$' ∉ tag) {body : List Char} (hbody : '$' ∉ body) (rest : List Char) :
    (tagText tag).isPrefixOf ('$' :: (body ++ '$' :: rest)) = decide (tag = body) := by
  rw [Bool.eq_iff_iff, List.isPrefixOf_iff_prefix, decide_eq_true_eq]
  constructor
  · rintro ⟨after, h⟩
    unfold tagText at h
    rw [List.cons_append, List.append_assoc, List.cons_append, List.nil_append] at h
    have hbefore : ∀ {cs : List Char}, '$' ∉ cs → ∀ rest, (cs ++ '$' :: rest).takeWhile (· ≠ '$') = cs := by
      intro cs hcs rest
      have hpos : ∀ c ∈ cs, decide (c ≠ '$') = true := fun c hc => decide_eq_true fun heq => hcs (heq ▸ hc)
      rw [List.takeWhile_append_of_pos hpos]
      exact List.append_nil cs
    have hsame := congrArg (List.takeWhile (· ≠ '$')) (List.cons.inj h).2
    rwa [hbefore htag, hbefore hbody] at hsame
  · rintro rfl
    exact ⟨rest, by simp [tagText]⟩

/-- **The tag of a text occurs twice**, where no other dollar is written. -/
theorem occurrences_dollarQuoted {before body after : List Char} (htag : '$' ∉ tag) (hbefore : '$' ∉ before)
    (hbody : '$' ∉ body) (hafter : '$' ∉ after) (hne : body ≠ tag) :
    occurrences (tagText tag) (before ++ dollarQuoted tag body ++ after) = 2 := by
  have hcons : ∀ (c : Char) (cs : List Char), occurrences (tagText tag) (c :: cs) =
      (if (tagText tag).isPrefixOf (c :: cs) then 1 else 0) + occurrences (tagText tag) cs := fun _ _ => rfl
  have hlast : (tagText tag).isPrefixOf ('$' :: after) = false := by
    rw [Bool.eq_false_iff]
    intro h
    obtain ⟨rest, hrest⟩ := List.isPrefixOf_iff_prefix.mp h
    unfold tagText at hrest
    rw [List.cons_append, List.append_assoc] at hrest
    exact hafter ((List.cons.inj hrest).2 ▸ List.mem_append_right _ List.mem_cons_self)
  have hsplit : before ++ dollarQuoted tag body ++ after =
      before ++ '$' :: (tag ++ '$' :: (body ++ '$' :: (tag ++ '$' :: after))) := by
    simp [dollarQuoted]
  -- the four dollars in turn
  rw [hsplit, occurrences_skip hbefore, hcons, isPrefixOf_dollar htag htag, occurrences_skip htag, hcons,
    isPrefixOf_dollar htag hbody, occurrences_skip hbody, hcons, isPrefixOf_dollar htag htag, occurrences_skip htag,
    hcons, hlast, occurrences_none hafter, decide_eq_false (Ne.symm hne)]
  simp

end Occurrences

end Sql
end PickleInfra
