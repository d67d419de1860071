import PickleInfra.Python.Text

/-!
# `Posix.Tree` — file trees with symbolic links, and how a path is resolved

A tree is given by its nodes, each under the names on the way to it. `walk` resolves a path name by name:
`..` goes back to where the walk came from, and a link is replaced by its text. Where the directories on
the way are no links, the walk follows the names (`walk_real`, `walk_through`).
-/

namespace PickleInfra
namespace Posix

open Python

inductive Node where
  | dir
  | file (data : List UInt8)
  | link (text : String)
deriving DecidableEq, Repr

/-- The nodes below the root directory, by the names of their paths. -/
abbrev Tree := List String → Option Node

variable (t : Tree)

/-- Resolve the names that are left, with the links followed by `follow`. -/
def descend (follow : List String → List String → Option (List String)) :
    List String → List String → Option (List String)
  | cur, []           => some cur
  | cur, name :: rest =>
    if name = ".." then descend follow cur.dropLast rest
    else match t (cur ++ [name]) with
      | none              => none
      | some .dir         => descend follow (cur ++ [name]) rest
      | some (.file _)    => if rest = [] then some (cur ++ [name]) else none
      | some (.link text) =>
        follow (if (Text.Path.ofString text).isAbsolute then [] else cur) (Text.parts text ++ rest)

/-- `path.resolve(strict=True)`, from a directory, through at most so many links. -/
def walk : Nat → List String → List String → Option (List String)
  | 0     => descend t (fun _ _ => none)
  | n + 1 => descend t (walk n)

/-- `path.lstat()` of a path whose last part is a name. -/
def lstat (links : Nat) (path : List String) : Option Node :=
  match path.getLast? with
  | none      => some .dir
  | some name => (walk t links [] path.dropLast).bind fun dir => t (dir ++ [name])

/-! ## Directories that are no links -/

/-- The names lead from one directory to the next. -/
def Dirs : List String → List String → Prop
  | _, []             => True
  | cur, name :: rest => name ≠ ".." ∧ t (cur ++ [name]) = some .dir ∧ Dirs (cur ++ [name]) rest

section Walk

variable {t}

theorem walk_eq_descend (n : Nat) : ∃ follow, walk t n = descend t follow := by
  cases n with
  | zero => exact ⟨_, rfl⟩
  | succ n => exact ⟨_, rfl⟩

theorem walk_nil (n : Nat) (cur : List String) : walk t n cur [] = some cur := by
  obtain ⟨follow, hfollow⟩ := @walk_eq_descend t n
  rw [hfollow]
  rfl

theorem walk_dir {n : Nat} {cur : List String} {name : String} (hname : name ≠ "..")
    (hdir : t (cur ++ [name]) = some .dir) (rest : List String) :
    walk t n cur (name :: rest) = walk t n (cur ++ [name]) rest := by
  obtain ⟨follow, hfollow⟩ := @walk_eq_descend t n
  rw [hfollow]
  conv_lhs => unfold descend
  rw [if_neg hname, hdir]

theorem walk_up (n : Nat) (cur rest : List String) :
    walk t n cur (".." :: rest) = walk t n cur.dropLast rest := by
  obtain ⟨follow, hfollow⟩ := @walk_eq_descend t n
  rw [hfollow]
  conv_lhs => unfold descend
  rw [if_pos rfl]

theorem walk_file {n : Nat} {cur : List String} {name : String} {data : List UInt8} (hname : name ≠ "..")
    (hfile : t (cur ++ [name]) = some (.file data)) : walk t n cur [name] = some (cur ++ [name]) := by
  obtain ⟨follow, hfollow⟩ := @walk_eq_descend t n
  rw [hfollow]
  unfold descend
  rw [if_neg hname, hfile]
  exact if_pos rfl

theorem walk_link {n : Nat} {cur : List String} {name text : String} (hname : name ≠ "..")
    (hlink : t (cur ++ [name]) = some (.link text)) (hrelative : (Text.Path.ofString text).isAbsolute = false)
    (rest : List String) : walk t (n + 1) cur (name :: rest) = walk t n cur (Text.parts text ++ rest) := by
  show descend t (walk t n) cur (name :: rest) = _
  unfold descend
  rw [if_neg hname, hlink]
  dsimp only
  rw [hrelative]
  rfl

theorem walk_link_zero {cur : List String} {name text : String} (hname : name ≠ "..")
    (hlink : t (cur ++ [name]) = some (.link text)) (rest : List String) :
    walk t 0 cur (name :: rest) = none := by
  show descend t (fun _ _ => none) cur (name :: rest) = none
  unfold descend
  rw [if_neg hname, hlink]

/-- Through directories the walk only adds the names. -/
theorem walk_dirs {n : Nat} {cur names : List String} (h : Dirs t cur names) (rest : List String) :
    walk t n cur (names ++ rest) = walk t n (cur ++ names) rest := by
  induction names generalizing cur with
  | nil => rw [List.nil_append, List.append_nil]
  | cons name names ih =>
      obtain ⟨hname, hdir, hrest⟩ := h
      rw [List.cons_append, walk_dir hname hdir, ih hrest, List.append_assoc, List.singleton_append]

theorem Dirs.append {cur a b : List String} (ha : Dirs t cur a) (hb : Dirs t (cur ++ a) b) :
    Dirs t cur (a ++ b) := by
  induction a generalizing cur with
  | nil => rwa [List.append_nil] at hb
  | cons name a ih =>
      obtain ⟨hname, hdir, hrest⟩ := ha
      refine ⟨hname, hdir, ih hrest ?_⟩
      rwa [List.append_assoc, List.singleton_append]

theorem Dirs.prefix {cur a b : List String} (h : Dirs t cur (a ++ b)) : Dirs t cur a := by
  induction a generalizing cur with
  | nil => trivial
  | cons name a ih => exact ⟨h.1, h.2.1, ih h.2.2⟩

theorem Dirs.dropLast {cur : List String} (h : Dirs t [] cur) : Dirs t [] cur.dropLast := by
  rcases List.eq_nil_or_concat cur with rfl | ⟨init, last, rfl⟩
  · exact h
  · rw [List.concat_eq_append] at h ⊢
    rw [List.dropLast_concat]
    exact h.prefix

/-- Where a walk ends: in a directory or at a file, and no link is on the way. -/
def Resolved (t : Tree) (path : List String) : Prop :=
  Dirs t [] path ∨ ∃ dir name data, path = dir ++ [name] ∧ Dirs t [] dir ∧ t path = some (.file data)

theorem descend_resolved {follow : List String → List String → Option (List String)}
    (hfollow : ∀ cur names path, Dirs t [] cur → follow cur names = some path → Resolved t path)
    {cur names path : List String} (hcur : Dirs t [] cur) (h : descend t follow cur names = some path) :
    Resolved t path := by
  induction names generalizing cur with
  | nil =>
      cases h
      exact .inl hcur
  | cons name rest ih =>
      unfold descend at h
      by_cases hup : name = ".."
      · rw [if_pos hup] at h
        exact ih hcur.dropLast h
      rw [if_neg hup] at h
      cases hnode : t (cur ++ [name]) with
      | none => rw [hnode] at h; cases h
      | some node =>
          rw [hnode] at h
          cases node with
          | dir =>
              have hnext : Dirs t cur [name] := ⟨hup, hnode, trivial⟩
              exact ih (hcur.append hnext) h
          | file data =>
              dsimp only at h
              split at h
              · cases h
                exact .inr ⟨cur, name, data, rfl, hcur, hnode⟩
              · cases h
          | link text =>
              -- the links are followed from a directory again
              refine hfollow _ _ _ ?_ h
              split
              · trivial
              · exact hcur

theorem walk_resolved {n : Nat} {cur names path : List String} (hcur : Dirs t [] cur)
    (h : walk t n cur names = some path) : Resolved t path := by
  induction n generalizing cur names path with
  | zero => exact descend_resolved (fun _ _ _ _ h => by cases h) hcur h
  | succ n ih => exact descend_resolved (fun _ _ _ hcur h => ih hcur h) hcur h

/-- A directory that a walk ends in is reached through directories. -/
theorem dirs_of_walk {n : Nat} {names path : List String} (h : walk t n [] names = some path)
    (hdir : path = [] ∨ t path = some .dir) : Dirs t [] path := by
  have hroot : Dirs t [] [] := trivial
  rcases walk_resolved hroot h with hdirs | ⟨dir, name, data, rfl, -, hfile⟩
  · exact hdirs
  · rcases hdir with hnil | hdir
    · exact absurd hnil (List.append_ne_nil_of_right_ne_nil _ (List.cons_ne_nil _ _))
    · rw [hfile] at hdir
      cases hdir

theorem lstat_dirs {n : Nat} {dir : List String} {name : String} (h : Dirs t [] dir) :
    lstat t n (dir ++ [name]) = t (dir ++ [name]) := by
  have hwalk : walk t n [] dir = some dir := by
    have := @walk_dirs t n [] dir h []
    rwa [List.append_nil, List.nil_append, walk_nil] at this
  unfold lstat
  rw [List.getLast?_concat]
  dsimp only
  rw [List.dropLast_concat, hwalk]
  rfl

end Walk

end Posix
end PickleInfra
