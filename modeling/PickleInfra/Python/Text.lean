import Mathlib.Data.List.Basic

/-!
# `Python.Text` — the regular expressions, paths and keys the code checks strings with

Every pattern of the modelled code is a fixed character class repeated a bounded number of times,
possibly after a first character of a smaller class; `fullmatch` of such a pattern is a `Bool`
function of the characters. Two keys joined by a colon are also decomposed here: the join is
injective as soon as the left part has no colon.
-/

namespace PickleInfra
namespace Python
namespace Text

def isLower (c : Char) : Bool := 'a' ≤ c && c ≤ 'z'
def isUpper (c : Char) : Bool := 'A' ≤ c && c ≤ 'Z'
def isDigit (c : Char) : Bool := '0' ≤ c && c ≤ '9'

/-- `[a-f0-9]` -/
def isHex (c : Char) : Bool := isDigit c || ('a' ≤ c && c ≤ 'f')

/-- `[class]{lo,hi}` -/
def fullmatch (cls : Char → Bool) (lo hi : Nat) (s : String) : Bool :=
  s.toList.all cls && decide (lo ≤ s.toList.length) && decide (s.toList.length ≤ hi)

/-- `[first][class]{0,more}` -/
def fullmatchFirst (first cls : Char → Bool) (more : Nat) (s : String) : Bool :=
  match s.toList with
  | []      => false
  | c :: cs => first c && cs.all cls && decide (cs.length ≤ more)

/-- `[a-z][a-z0-9_-]{0,63}` -/
def isName : String → Bool :=
  fullmatchFirst isLower (fun c => isLower c || isDigit c || c = '_' || c = '-') 63

/-- A name has no colon. -/
theorem colon_not_mem_of_isName {s : String} (h : isName s = true) : ':' ∉ s.toList := by
  unfold isName fullmatchFirst at h
  split at h
  · next hs => rw [hs]; simp
  · next c cs hs =>
    rw [Bool.and_eq_true, Bool.and_eq_true, List.all_eq_true] at h
    rw [hs, List.mem_cons, not_or]
    refine ⟨?_, fun hm => absurd (h.1.2 ':' hm) (by decide)⟩
    rintro rfl
    exact absurd h.1.1 (by decide)

/-! ## Pure POSIX paths -/

/-- Split at `/`, keeping empty segments. -/
def segments : List Char → List (List Char)
  | []      => [[]]
  | c :: cs =>
    match segments cs with
    | []           => [[c]]
    | first :: rest => if c = '/' then [] :: first :: rest else (c :: first) :: rest

/-- `Path(s)` up to equality: how it is rooted (exactly two leading slashes are a root of their
    own), and its parts, without the empty ones and without `.`. -/
structure Path where
  root : Nat
  parts : List String
deriving DecidableEq, Repr

def Path.ofString (s : String) : Path where
  root :=
    let slashes := (s.toList.takeWhile (· = '/')).length
    if slashes = 2 then 2 else min slashes 1
  parts := ((segments s.toList).map String.ofList).filter (fun p => p ≠ "" && p ≠ ".")

def Path.isAbsolute (p : Path) : Bool := p.root ≠ 0

/-- `'..' in path.parts` -/
def Path.climbs (p : Path) : Bool := p.parts.contains ".."

theorem segments_ne_nil (cs : List Char) : segments cs ≠ [] := by
  cases cs with
  | nil => exact List.cons_ne_nil _ _
  | cons c cs =>
      unfold segments
      split
      · exact List.cons_ne_nil _ _
      · split <;> exact List.cons_ne_nil _ _

theorem segments_cons (c : Char) {cs first : List Char} {rest : List (List Char)} (h : segments cs = first :: rest) :
    segments (c :: cs) = if c = '/' then [] :: first :: rest else (c :: first) :: rest := by
  conv_lhs => unfold segments
  rw [h]

theorem segments_of_not_mem {cs : List Char} (h : '/' ∉ cs) : segments cs = [cs] := by
  induction cs with
  | nil => rfl
  | cons c cs ih =>
      rw [List.mem_cons, not_or] at h
      rw [segments_cons c (ih h.2)]
      exact if_neg (Ne.symm h.1)

/-- A slash ends a segment. -/
theorem segments_append (a b : List Char) : segments (a ++ '/' :: b) = segments a ++ segments b := by
  induction a with
  | nil =>
      obtain ⟨first, rest, hsegments⟩ := List.exists_cons_of_ne_nil (segments_ne_nil b)
      rw [List.nil_append, segments_cons '/' hsegments, if_pos rfl, hsegments]
      rfl
  | cons c a ih =>
      obtain ⟨first, rest, hsegments⟩ := List.exists_cons_of_ne_nil (segments_ne_nil a)
      have hboth : segments (a ++ '/' :: b) = first :: (rest ++ segments b) := by
        rw [ih, hsegments, List.cons_append]
      rw [List.cons_append, segments_cons c hboth, segments_cons c hsegments]
      split <;> rfl

/-- The parts of a path text: its names, and `..`. -/
def parts (s : String) : List String := (Path.ofString s).parts

theorem parts_append (a b : String) : parts (a ++ "/" ++ b) = parts a ++ parts b := by
  have hslash : (a ++ "/" ++ b).toList = a.toList ++ '/' :: b.toList := by
    rw [String.toList_append, String.toList_append, List.append_assoc]
    rfl
  unfold parts Path.ofString
  rw [hslash, segments_append, List.map_append, List.filter_append]

/-- The name of an entry of a directory. -/
structure IsName (s : String) : Prop where
  nonempty : s ≠ ""
  noSlash : '/' ∉ s.toList
  notHere : s ≠ "."
  notUp : s ≠ ".."

theorem IsName.parts {s : String} (h : IsName s) : parts s = [s] := by
  unfold Text.parts Path.ofString
  rw [segments_of_not_mem h.noSlash, List.map_singleton, String.ofList_toList]
  have hkeep : (decide (s ≠ "") && decide (s ≠ ".")) = true := by
    rw [decide_eq_true h.nonempty, decide_eq_true h.notHere]
    rfl
  show List.filter (fun p => decide (p ≠ "") && decide (p ≠ ".")) [s] = [s]
  rw [List.filter_cons, if_pos hkeep, List.filter_nil]

/-! ## Keys joined by a colon -/

/-- If the left parts have no colon, equal joins have equal parts. -/
theorem append_colon_inj {a b c d : List Char} (ha : ':' ∉ a) (hc : ':' ∉ c)
    (h : a ++ ':' :: b = c ++ ':' :: d) : a = c ∧ b = d := by
  induction a generalizing c with
  | nil =>
      cases c with
      | nil => exact ⟨rfl, by simpa using h⟩
      | cons x xs =>
          rw [List.nil_append, List.cons_append, List.cons.injEq] at h
          exact absurd (h.1 ▸ List.mem_cons_self) hc
  | cons x xs ih =>
      cases c with
      | nil =>
          rw [List.nil_append, List.cons_append, List.cons.injEq] at h
          exact absurd (h.1 ▸ List.mem_cons_self) ha
      | cons y ys =>
          rw [List.cons_append, List.cons_append, List.cons.injEq] at h
          obtain ⟨rfl, hrest⟩ := h
          rw [List.mem_cons, not_or] at ha hc
          obtain ⟨rfl, rfl⟩ := ih ha.2 hc.2 hrest
          exact ⟨rfl, rfl⟩

/-- Decimal rendering is injective. -/
theorem natRepr_inj {m n : Nat} (h : toString m = toString n) : m = n := by
  have hd : Nat.toDigits 10 m = Nat.toDigits 10 n := by
    have hl := congrArg String.toList h
    rwa [Nat.toString_eq_repr, Nat.toString_eq_repr, Nat.toList_repr, Nat.toList_repr] at hl
  have hp := congrArg (fun ds => Nat.ofDigitChars 10 ds 0) hd
  simpa using hp

end Text
end Python
end PickleInfra
