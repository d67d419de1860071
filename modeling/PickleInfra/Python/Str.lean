import PickleInfra.Python.Numeral

/-!
# `Python.Str` — white space, `splitlines`, `strip` and `split` of strings

`str.isspace` and the line boundaries of `str.splitlines` are sets of Unicode characters: both are wider
than the blanks and the line feed of ASCII.
-/

namespace PickleInfra
namespace Python
namespace Str

/-- `c.isspace()`, and `\s` of a regular expression. -/
def isSpace (c : Char) : Bool :=
  let n := c.toNat
  (9 ≤ n && n ≤ 13) || (28 ≤ n && n ≤ 32) || n = 0x85 || n = 0xa0 || n = 0x1680
    || (0x2000 ≤ n && n ≤ 0x200a) || n = 0x2028 || n = 0x2029 || n = 0x202f || n = 0x205f || n = 0x3000

/-- The characters `str.splitlines` splits at. -/
def isBoundary (c : Char) : Bool :=
  let n := c.toNat
  (10 ≤ n && n ≤ 13) || (28 ≤ n && n ≤ 30) || n = 0x85 || n = 0x2028 || n = 0x2029

theorem isSpace_of_isBoundary {c : Char} (h : isBoundary c = true) : isSpace c = true := by
  unfold isBoundary at h
  unfold isSpace
  simp only [Bool.or_eq_true, Bool.and_eq_true, decide_eq_true_eq] at h ⊢
  omega

/-- `splitlines` inside a line whose first characters are `line`, in reverse; `return_` is whether the
    last character was a carriage return that closed a line. -/
def splitlinesFrom (return_ : Bool) (line : List Char) : List Char → List (List Char)
  | []      => if line.isEmpty then [] else [line.reverse]
  | c :: cs =>
    if return_ && c = '\n' then splitlinesFrom false [] cs
    else if isBoundary c then line.reverse :: splitlinesFrom (c = '\r') [] cs
    else splitlinesFrom false (c :: line) cs

/-- `text.splitlines()` -/
def splitlines (cs : List Char) : List (List Char) := splitlinesFrom false [] cs

/-- `text.strip()` -/
def strip (cs : List Char) : List Char := ((cs.dropWhile isSpace).reverse.dropWhile isSpace).reverse

/-- `text.split()` -/
def words (cs : List Char) : List (List Char) := (cs.splitOnP isSpace).filter (fun w => !w.isEmpty)

/-- `s.removeprefix(word)` -/
def removeprefix (word s : List Char) : List Char := if word.isPrefixOf s then s.drop word.length else s

/-- `s.removesuffix(word)` -/
def removesuffix (word s : List Char) : List Char :=
  if word.isSuffixOf s then s.take (s.length - word.length) else s

/-- The code points with a digit value, by their first and last. -/
def digitRanges : List (Nat × Nat) :=
  [(0x30, 0x39), (0xb2, 0xb3), (0xb9, 0xb9), (0x660, 0x669), (0x6f0, 0x6f9), (0x7c0, 0x7c9),
   (0x966, 0x96f), (0x9e6, 0x9ef), (0xa66, 0xa6f), (0xae6, 0xaef), (0xb66, 0xb6f), (0xbe6, 0xbef),
   (0xc66, 0xc6f), (0xce6, 0xcef), (0xd66, 0xd6f), (0xde6, 0xdef), (0xe50, 0xe59), (0xed0, 0xed9),
   (0xf20, 0xf29), (0x1040, 0x1049), (0x1090, 0x1099), (0x1369, 0x1371), (0x17e0, 0x17e9),
   (0x1810, 0x1819), (0x1946, 0x194f), (0x19d0, 0x19da), (0x1a80, 0x1a89), (0x1a90, 0x1a99),
   (0x1b50, 0x1b59), (0x1bb0, 0x1bb9), (0x1c40, 0x1c49), (0x1c50, 0x1c59), (0x2070, 0x2070),
   (0x2074, 0x2079), (0x2080, 0x2089), (0x2460, 0x2468), (0x2474, 0x247c), (0x2488, 0x2490),
   (0x24ea, 0x24ea), (0x24f5, 0x24fd), (0x24ff, 0x24ff), (0x2776, 0x277e), (0x2780, 0x2788),
   (0x278a, 0x2792), (0xa620, 0xa629), (0xa8d0, 0xa8d9), (0xa900, 0xa909), (0xa9d0, 0xa9d9),
   (0xa9f0, 0xa9f9), (0xaa50, 0xaa59), (0xabf0, 0xabf9), (0xff10, 0xff19), (0x104a0, 0x104a9),
   (0x10a40, 0x10a43), (0x10d30, 0x10d39), (0x10e60, 0x10e68), (0x11052, 0x1105a), (0x11066, 0x1106f),
   (0x110f0, 0x110f9), (0x11136, 0x1113f), (0x111d0, 0x111d9), (0x112f0, 0x112f9), (0x11450, 0x11459),
   (0x114d0, 0x114d9), (0x11650, 0x11659), (0x116c0, 0x116c9), (0x11730, 0x11739), (0x118e0, 0x118e9),
   (0x11950, 0x11959), (0x11c50, 0x11c59), (0x11d50, 0x11d59), (0x11da0, 0x11da9), (0x11f50, 0x11f59),
   (0x16a60, 0x16a69), (0x16ac0, 0x16ac9), (0x16b50, 0x16b59), (0x1d7ce, 0x1d7ff), (0x1e140, 0x1e149),
   (0x1e2f0, 0x1e2f9), (0x1e4f0, 0x1e4f9), (0x1e950, 0x1e959), (0x1f100, 0x1f10a), (0x1fbf0, 0x1fbf9)]

/-- `s.isdigit()` -/
def isdigit (s : List Char) : Bool :=
  !s.isEmpty && s.all fun c => digitRanges.any fun r => r.1 ≤ c.toNat && c.toNat ≤ r.2

/-! ## Lines -/

/-- A line without a boundary is kept whole. -/
theorem splitlinesFrom_append {l : List Char} (h : ∀ c ∈ l, isBoundary c = false) (line rest : List Char) :
    splitlinesFrom false line (l ++ rest) = splitlinesFrom false (l.reverse ++ line) rest := by
  induction l generalizing line with
  | nil => rfl
  | cons c l ih =>
      have hc := h c List.mem_cons_self
      rw [List.cons_append, splitlinesFrom]
      simp only [Bool.false_and, Bool.false_eq_true, if_false, hc]
      rw [ih (fun d hd => h d (List.mem_cons_of_mem _ hd)), List.reverse_cons, List.append_assoc]
      rfl

/-- A boundary that is no carriage return closes a line. -/
theorem splitlinesFrom_boundary {c : Char} (h : isBoundary c = true) (hreturn : c ≠ '\r')
    (line rest : List Char) :
    splitlinesFrom false line (c :: rest) = line.reverse :: splitlines rest := by
  rw [splitlinesFrom]
  simp only [Bool.false_and, Bool.false_eq_true, if_false, h, if_true, hreturn, decide_false]
  rfl

/-- The lines of a text whose lines are closed by line feeds. -/
theorem splitlines_lines {lines : List (List Char)} (h : ∀ l ∈ lines, ∀ c ∈ l, isBoundary c = false) :
    splitlines (lines.flatMap (fun l => l ++ ['\n'])) = lines := by
  induction lines with
  | nil => rfl
  | cons l lines ih =>
      rw [List.flatMap_cons, List.append_assoc]
      show splitlinesFrom false [] (l ++ '\n' :: lines.flatMap (fun l => l ++ ['\n'])) = _
      rw [splitlinesFrom_append (h l List.mem_cons_self), List.append_nil,
        splitlinesFrom_boundary (by decide) (by decide), List.reverse_reverse,
        ih (fun l' hl' => h l' (List.mem_cons_of_mem _ hl'))]

/-- The first line ends at the first boundary. -/
theorem head_splitlines {l rest : List Char} {c : Char} (h : ∀ d ∈ l, isBoundary d = false)
    (hc : isBoundary c = true) : ∃ more, splitlines (l ++ c :: rest) = l :: more := by
  unfold splitlines
  rw [splitlinesFrom_append h, List.append_nil, splitlinesFrom]
  simp only [Bool.false_and, Bool.false_eq_true, if_false, hc, if_true, List.reverse_reverse]
  exact ⟨_, rfl⟩

/-- Closed lines come first. -/
theorem splitlines_append {lines : List (List Char)} (h : ∀ l ∈ lines, ∀ c ∈ l, isBoundary c = false)
    (rest : List Char) :
    splitlines (lines.flatMap (fun l => l ++ ['\n']) ++ rest) = lines ++ splitlines rest := by
  induction lines with
  | nil => rfl
  | cons l lines ih =>
      rw [List.flatMap_cons, List.append_assoc, List.append_assoc, List.singleton_append]
      show splitlinesFrom false [] _ = _
      rw [splitlinesFrom_append (h l List.mem_cons_self), List.append_nil,
        splitlinesFrom_boundary (by decide) (by decide), List.reverse_reverse,
        ih (fun l' hl' => h l' (List.mem_cons_of_mem _ hl'))]
      rfl

/-- Nothing that precedes a line feed reaches past it. -/
theorem splitlinesFrom_feed (return_ : Bool) (line l rest : List Char) :
    splitlinesFrom return_ line (l ++ '\n' :: rest) =
      splitlinesFrom return_ line (l ++ ['\n']) ++ splitlines rest := by
  induction l generalizing return_ line with
  | nil =>
      have hfeed : isBoundary '\n' = true := by decide
      rw [List.nil_append, List.nil_append, splitlinesFrom, splitlinesFrom]
      cases return_ with
      | true => rfl
      | false =>
          simp only [Bool.false_and, Bool.false_eq_true, if_false, hfeed, if_true]
          rfl
  | cons c l ih =>
      rw [List.cons_append, List.cons_append, splitlinesFrom, splitlinesFrom]
      split
      · exact ih false []
      · split
        · rw [ih, List.cons_append]
        · exact ih false (c :: line)

/-- Lines that are closed by line feeds are split one by one, whatever other boundaries they have. -/
theorem splitlines_feeds (lines : List (List Char)) :
    splitlines (lines.flatMap (fun l => l ++ ['\n'])) = lines.flatMap fun l => splitlines (l ++ ['\n']) := by
  induction lines with
  | nil => rfl
  | cons l lines ih =>
      rw [List.flatMap_cons, List.flatMap_cons, List.append_assoc, List.singleton_append, ← ih]
      exact splitlinesFrom_feed false [] l _

/-! ## Words -/

theorem strip_of_stops {cs : List Char} (hfirst : StopsAt isSpace cs) (hlast : StopsAt isSpace cs.reverse) :
    strip cs = cs := by
  have hdrop : ∀ l, StopsAt isSpace l → l.dropWhile isSpace = l := by
    intro l hl
    cases l with
    | nil => rfl
    | cons c l => exact List.dropWhile_cons_of_neg (by rw [hl c rfl]; decide)
  unfold strip
  rw [hdrop cs hfirst, hdrop _ hlast, List.reverse_reverse]

/-- Leading and trailing white space goes. -/
theorem strip_append {before after cs : List Char} (hbefore : before.all isSpace = true)
    (hafter : after.all isSpace = true) (hfirst : StopsAt isSpace (cs ++ after))
    (hlast : StopsAt isSpace cs.reverse) : strip (before ++ cs ++ after) = cs := by
  unfold strip
  rw [List.append_assoc, (takeWhile_append_stop hbefore hfirst).2, List.reverse_append,
    (takeWhile_append_stop (by rwa [List.all_reverse]) hlast).2, List.reverse_reverse]

theorem splitOnP_no_space {w : List Char} (h : w.all (fun c => !isSpace c) = true) :
    w.splitOnP isSpace = [w] := by
  apply List.splitOnP_eq_singleton
  intro c hc
  have := List.all_eq_true.mp h c hc
  simpa using this

/-- White space in front of words goes. -/
theorem words_space {spaces : List Char} (h : spaces.all isSpace = true) (cs : List Char) :
    words (spaces ++ cs) = words cs := by
  induction spaces with
  | nil => rfl
  | cons c spaces ih =>
      rw [List.all_cons, Bool.and_eq_true] at h
      rw [List.cons_append, ← ih h.2]
      unfold words
      rw [List.splitOnP_cons_eq_if_modifyHead, if_pos h.1]
      rfl

/-- A word up to white space. -/
theorem words_word {w : List Char} (hw : w.all (fun c => !isSpace c) = true) (hne : w ≠ []) {s : Char}
    (hs : isSpace s = true) (rest : List Char) : words (w ++ s :: rest) = w :: words rest := by
  unfold words
  rw [List.splitOnP_append_cons _ _ hs, splitOnP_no_space hw, List.singleton_append, List.filter_cons,
    if_pos (by simpa using hne)]

theorem words_last {w : List Char} (hw : w.all (fun c => !isSpace c) = true) (hne : w ≠ []) :
    words w = [w] := by
  unfold words
  rw [splitOnP_no_space hw, List.filter_cons, if_pos (by simpa using hne)]
  rfl

theorem words_nil : words [] = [] := by
  unfold words
  rw [List.splitOnP_nil]
  rfl

end Str
end Python
end PickleInfra
