import PickleInfra.Python.Canonical

/-!
# `Python.Fields` — documents that are rebuilt from checked fields

`project` copies the fields of a document that are there, each through its check. A check is `Stable` if it
accepts what it returned, after the keys were sorted, and returns the same again; a projection of stable checks
is stable.
-/

namespace PickleInfra
namespace Python

variable {E : Type}

/-- `if bad: raise E(error)` -/
def rejectIf (bad : Bool) (error : E) : Except (Exn E) Unit := if bad then .error (.own error) else .ok ()

@[simp] theorem rejectIf_false (error : E) : rejectIf false error = .ok () := rfl

@[simp] theorem rejectIf_eq_ok {bad : Bool} {error : E} {u : Unit} : rejectIf bad error = .ok u ↔ bad = false := by
  cases bad <;> simp [rejectIf]

namespace Json

/-- `value in names` of a set of strings: a list or a dictionary has no hash. -/
def memberOf (names : List String) : Json → Except (Exn E) Bool
  | .list _ | .dict _ => .error .typeError
  | .str s            => .ok (names.contains s)
  | _                 => .ok false

theorem memberOf_eq_true {names : List String} {v : Json} (h : memberOf names v = (.ok true : Except (Exn E) Bool)) :
    ∃ s, v = .str s ∧ s ∈ names := by
  cases v with
  | str s =>
      unfold memberOf at h
      exact ⟨s, rfl, List.contains_iff_mem.mp (Except.ok.inj h)⟩
  | null | bool | int | float =>
      unfold memberOf at h
      cases Except.ok.inj h
  | list | dict =>
      unfold memberOf at h
      cases h

/-- Nothing to sort. -/
def IsAtom (v : Json) : Prop := v.sorted = v

theorem isAtom_str (s : String) : IsAtom (.str s) := sorted_str s

theorem isAtom_int (n : Int) : IsAtom (.int n) := sorted_int n

theorem isAtom_null : IsAtom .null := sorted_null

theorem isAtom_bool (b : Bool) : IsAtom (.bool b) := by
  unfold IsAtom
  rw [sorted]

theorem isAtom_float (x : PyFloat) : IsAtom (.float x) := by
  unfold IsAtom
  rw [sorted]

theorem eq_of_isStr {s : String} {v : Json} (h : v.isStr s = true) : v = .str s := by
  cases v with
  | str t =>
      obtain rfl := of_decide_eq_true h
      rfl
  | null | bool | int | float | list | dict => cases h

theorem lookup_append (k : String) (a b : List (String × Json)) :
    lookup k (a ++ b) = (lookup k a).or (lookup k b) := by
  induction a with
  | nil => rfl
  | cons e a ih =>
      show (if e.1 = k then some e.2 else lookup k (a ++ b)) = (if e.1 = k then some e.2 else lookup k a).or _
      by_cases hk : e.1 = k
      · rw [if_pos hk, if_pos hk, Option.some_or]
      · rw [if_neg hk, if_neg hk, ih]

theorem getOrNull_of_get? {k : String} {v x : Json} (h : v.get? k = some x) : v.getOrNull k = x := by
  unfold getOrNull
  rw [h]
  rfl

end Json

/-! ## Fields -/

/-- A field that may be there, and the check of its value. -/
structure CheckedField (E : Type) where
  key : String
  check : Json → Except (Exn E) Json

/-- `for field in fields: if field.key in value: result[field.key] = field.check(value[field.key])` -/
def project : List (CheckedField E) → Json → Except (Exn E) (List (String × Json))
  | [], _              => .ok []
  | f :: fields, value =>
    match value.get? f.key with
    | none   => project fields value
    | some x => do
      let y ← f.check x
      let rest ← project fields value
      return (f.key, y) :: rest

/-- The entries with their keys sorted, to compare them with. -/
def canonicalEntries (ms : List (String × Json)) : List (String × Json) := ms.map fun m => (m.1, m.2.sorted)

/-- The check accepts what it returned, and returns the same. -/
def Stable (check : Json → Except (Exn E) Json) : Prop :=
  ∀ x y, check x = .ok y → ∃ y', check y.sorted = .ok y' ∧ y'.sorted = y.sorted

theorem stable_of_atom {check : Json → Except (Exn E) Json}
    (h : ∀ x y, check x = .ok y → check y = .ok y ∧ y.IsAtom) : Stable check := by
  intro x y hxy
  obtain ⟨hsame, hatom⟩ := h x y hxy
  refine ⟨y, ?_, rfl⟩
  rw [hatom]
  exact hsame

theorem canonicalEntries_append (a b : List (String × Json)) :
    canonicalEntries (a ++ b) = canonicalEntries a ++ canonicalEntries b := List.map_append

theorem sorted_dict_congr {a b : List (String × Json)} (h : canonicalEntries a = canonicalEntries b) :
    (Json.dict a).sorted = (Json.dict b).sorted := by
  rw [Json.sorted_dict, Json.sorted_dict]
  exact congrArg (fun ms => Json.dict (Json.sortMembers ms)) h

section Project

variable {fields : List (CheckedField E)} {value : Json} {ms : List (String × Json)}

/-- Other keys are not projected. -/
theorem lookup_project_other {k : String} (hk : k ∉ fields.map CheckedField.key) (h : project fields value = .ok ms) :
    Json.lookup k ms = none := by
  induction fields generalizing ms with
  | nil =>
      obtain rfl := Except.ok.inj h
      rfl
  | cons f fields ih =>
      rw [List.map_cons, List.mem_cons, not_or] at hk
      unfold project at h
      split at h
      · exact ih hk.2 h
      · obtain ⟨y, -, h⟩ := bind_eq_ok.mp h
        obtain ⟨rest, hrest, h⟩ := bind_eq_ok.mp h
        obtain rfl := Except.ok.inj h
        show (if f.key = k then _ else Json.lookup k rest) = none
        rw [if_neg (Ne.symm hk.1)]
        exact ih hk.2 hrest

/-- **A projection is stable**: a document with the projected fields, their keys sorted, is projected to the
    same. -/
theorem project_stable (hnodup : (fields.map CheckedField.key).Nodup) (hstable : ∀ f ∈ fields, Stable f.check)
    (h : project fields value = .ok ms) {value' : Json}
    (hvalue : ∀ f ∈ fields, value'.get? f.key = (Json.lookup f.key ms).map Json.sorted) :
    ∃ ms', project fields value' = .ok ms' ∧ canonicalEntries ms' = canonicalEntries ms := by
  induction fields generalizing ms with
  | nil =>
      obtain rfl := Except.ok.inj h
      exact ⟨[], rfl, rfl⟩
  | cons f fields ih =>
      rw [List.map_cons, List.nodup_cons] at hnodup
      have hstable' := fun g hg => hstable g (List.mem_cons_of_mem _ hg)
      have hf := hvalue f List.mem_cons_self
      unfold project at h
      split at h
      · -- the field is absent, and stays so
        rw [lookup_project_other hnodup.1 h] at hf
        obtain ⟨ms', hms', hsame⟩ := ih hnodup.2 hstable' h fun g hg => hvalue g (List.mem_cons_of_mem _ hg)
        refine ⟨ms', ?_, hsame⟩
        unfold project
        rw [hf]
        exact hms'
      · obtain ⟨y, hy, h⟩ := bind_eq_ok.mp h
        obtain ⟨rest, hrest, h⟩ := bind_eq_ok.mp h
        obtain rfl := Except.ok.inj h
        have hhead : Json.lookup f.key ((f.key, y) :: rest) = some y := if_pos rfl
        rw [hhead] at hf
        obtain ⟨y', hy', hsorted⟩ := hstable f List.mem_cons_self _ y hy
        have htail : ∀ g ∈ fields, value'.get? g.key = (Json.lookup g.key rest).map Json.sorted := by
          intro g hg
          have hne : f.key ≠ g.key := fun heq => hnodup.1 (heq ▸ List.mem_map_of_mem hg)
          have hskip : Json.lookup g.key ((f.key, y) :: rest) = Json.lookup g.key rest := if_neg hne
          rw [hvalue g (List.mem_cons_of_mem _ hg), hskip]
        obtain ⟨rest', hrest', hsame⟩ := ih hnodup.2 hstable' hrest htail
        refine ⟨(f.key, y') :: rest', ?_, ?_⟩
        · unfold project
          rw [hf]
          show ((f.check y.sorted) >>= fun y => project fields value' >>= fun rest => pure ((f.key, y) :: rest)) = _
          rw [hy', hrest']
          rfl
        · show (f.key, y'.sorted) :: canonicalEntries rest' = (f.key, y.sorted) :: canonicalEntries rest
          rw [hsorted, hsame]

end Project

end Python
end PickleInfra
