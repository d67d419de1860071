import Mathlib.Algebra.Order.Ring.Rat
import Mathlib.Data.List.Forall2
import PickleInfra.Python.Dict

/-!
# `Python.Value` — JSON values as Python holds them, and the exceptions of reading them

`Json` is what `json.loads` returns: integers are unbounded, floats are finite rationals, the two
infinities or NaN, and `True`, `1` and `1.0` are equal. Subscripts and numeric checks raise the
exception classes Python raises, because which of them an `except` clause names decides where a
malformed document ends up.
-/

namespace PickleInfra
namespace Python

/-- A Python float. A finite double is a rational number. -/
inductive PyFloat where
  | finite (q : ℚ)
  | inf
  | negInf
  | nan
deriving DecidableEq, Repr

/-- What `json.loads` returns. -/
inductive Json where
  | null
  | bool (b : Bool)
  | int (n : Int)
  | float (x : PyFloat)
  | str (s : String)
  | list (xs : List Json)
  | dict (kvs : List (String × Json))

/-- The exceptions of the modelled code: the program's own class, and those of the language.
    `overflowError` is an `ArithmeticError`: no `except` clause of the modelled code names it. -/
inductive Exn (E : Type) where
  | own (e : E)
  | keyError
  | typeError
  | valueError
  | osError
  | overflowError
deriving DecidableEq, Repr

/-- The `except (OwnError, OSError, ValueError, TypeError, KeyError)` clause. -/
def Exn.caught {E : Type} : Exn E → Bool
  | .overflowError => false
  | _              => true

/-- A sequence of two steps returned if both did. -/
theorem bind_eq_ok {ε α β : Type} {x : Except ε α} {f : α → Except ε β} {b : β} :
    (x >>= f) = .ok b ↔ ∃ a, x = .ok a ∧ f a = .ok b := by
  cases x with
  | error e => simp [bind, Except.bind]
  | ok a => simp [bind, Except.bind]

theorem mapM_eq_ok {ε α β : Type} {f : α → Except ε β} {xs : List α} {ys : List β} :
    xs.mapM f = .ok ys ↔ List.Forall₂ (fun x y => f x = .ok y) xs ys := by
  induction xs generalizing ys with
  | nil =>
      rw [List.mapM_nil]
      constructor
      · intro h
        cases h
        exact .nil
      · intro h
        cases h
        rfl
  | cons x xs ih =>
      rw [List.mapM_cons]
      simp only [bind_eq_ok]
      constructor
      · rintro ⟨y, hy, ys', hys, h⟩
        cases h
        exact .cons hy (ih.mp hys)
      · intro h
        cases h with
        | cons hy hys => exact ⟨_, hy, _, ih.mpr hys, rfl⟩

/-- All steps return exactly when each does. -/
theorem mapM_returns {ε α β : Type} {f : α → Except ε β} {xs : List α} :
    (∃ ys, xs.mapM f = .ok ys) ↔ ∀ x ∈ xs, ∃ y, f x = .ok y := by
  induction xs with
  | nil => exact ⟨fun _ x hx => absurd hx List.not_mem_nil, fun _ => ⟨[], rfl⟩⟩
  | cons x xs ih =>
      rw [List.mapM_cons, List.forall_mem_cons, ← ih]
      simp only [bind_eq_ok]
      constructor
      · rintro ⟨_, y, hy, ys, hys, -⟩
        exact ⟨⟨y, hy⟩, ys, hys⟩
      · rintro ⟨⟨y, hy⟩, ys, hys⟩
        exact ⟨_, y, hy, ys, hys, rfl⟩

theorem mapM_exists {α β ε : Type} {f : α → Except ε β} {P : α → β → Prop} {xs : List α}
    (h : ∀ a ∈ xs, ∃ b, f a = .ok b ∧ P a b) :
    ∃ ys, xs.mapM f = .ok ys ∧ List.Forall₂ (fun a b => f a = .ok b ∧ P a b) xs ys := by
  induction xs with
  | nil => exact ⟨[], rfl, .nil⟩
  | cons a xs ih =>
      obtain ⟨b, hb, hP⟩ := h a List.mem_cons_self
      obtain ⟨ys, -, hall⟩ := ih fun c hc => h c (List.mem_cons_of_mem _ hc)
      have hall' := List.Forall₂.cons ⟨hb, hP⟩ hall
      exact ⟨b :: ys, mapM_eq_ok.mpr (hall'.imp fun _ _ hpair => hpair.1), hall'⟩

/-- What is related to an element on the right. -/
theorem forall₂_right {α β : Type} {R : α → β → Prop} {xs : List α} {ys : List β} (h : List.Forall₂ R xs ys) :
    ∀ y ∈ ys, ∃ a ∈ xs, R a y := by
  induction h with
  | nil => exact fun y hy => absurd hy List.not_mem_nil
  | cons hfirst _ ih =>
      intro y hy
      rcases List.mem_cons.mp hy with rfl | hy
      · exact ⟨_, List.mem_cons_self, hfirst⟩
      · obtain ⟨a, ha, hR⟩ := ih y hy
        exact ⟨a, List.mem_cons_of_mem _ ha, hR⟩

theorem forall₂_left {α β : Type} {R : α → β → Prop} {xs : List α} {ys : List β} (h : List.Forall₂ R xs ys) :
    ∀ a ∈ xs, ∃ y ∈ ys, R a y := forall₂_right h.flip

theorem forall₂_keys {α β K : Type} {R : α → β → Prop} {f : α → K} {g : β → K} {xs : List α} {ys : List β}
    (h : List.Forall₂ R xs ys) (hkey : ∀ a b, R a b → g b = f a) : ys.map g = xs.map f := by
  induction h with
  | nil => rfl
  | cons hfirst _ ih => rw [List.map_cons, List.map_cons, ih, hkey _ _ hfirst]

theorem mapM_congr {ε α β : Type} {f g : α → Except ε β} {xs : List α} (h : ∀ x ∈ xs, f x = g x) :
    xs.mapM f = xs.mapM g := by
  induction xs with
  | nil => rfl
  | cons x xs ih =>
      rw [List.mapM_cons, List.mapM_cons, h x List.mem_cons_self,
        ih fun y hy => h y (List.mem_cons_of_mem _ hy)]

theorem mapM_map_ok {ε α β : Type} {f : β → Except ε α} {g : α → β} {xs : List α}
    (h : ∀ x ∈ xs, f (g x) = .ok x) : (xs.map g).mapM f = .ok xs := by
  rw [mapM_eq_ok, List.forall₂_map_left_iff, List.forall₂_same]
  exact h

namespace Json

variable {E : Type}

/-- The value a `bool`, an `int` or a finite `float` compares equal by. -/
def numeric : Json → Option ℚ
  | .bool b            => some (if b then 1 else 0)
  | .int n             => some n
  | .float (.finite q) => some q
  | _                  => none

/-- `value == n` for a number `n`. -/
def isNumber (n : ℚ) (v : Json) : Bool := v.numeric = some n

/-- `value == s` for a string `s`. -/
def isStr (s : String) : Json → Bool
  | .str t => t = s
  | _      => false

/-- The first entry with key `k`. -/
def lookup (k : String) : List (String × Json) → Option Json
  | []              => none
  | (k', v) :: rest => if k' = k then some v else lookup k rest

/-- `value.get(k)`: absent and `None` both read as `none` or `some null`; callers compare by
    `getStr?`, `isMissing` and the like, which treat the two alike where the source does. -/
def get? (k : String) : Json → Option Json
  | .dict kvs => lookup k kvs
  | _         => none

/-- `value[k]` -/
def item (v : Json) (k : String) : Except (Exn E) Json :=
  match v with
  | .dict kvs => match lookup k kvs with
    | some x => .ok x
    | none   => .error .keyError
  | _         => .error .typeError

/-- `value.get(k)` as `None` or a value. -/
def getOrNull (k : String) (v : Json) : Json := (v.get? k).getD .null

/-- `isinstance(value, dict)` -/
def isDict : Json → Bool
  | .dict _ => true
  | _       => false

/-- `value is None` -/
def isNull : Json → Bool
  | .null => true
  | _     => false

/-- The string, if the value is one. -/
def asStr? : Json → Option String
  | .str s => some s
  | _      => none

/-- `type(value) is int`: a `bool` is not. -/
def asInt? : Json → Option Int
  | .int n => some n
  | _      => none

/-- The largest integer `float` accepts: everything beyond rounds past the largest double. -/
def maxDouble : Int := 2 ^ 1024 - 2 ^ 970 - 1

/-- `type(value) in (int, float) and math.isfinite(value)`, returning the number. `math.isfinite`
    converts an integer to a double first, and raises `OverflowError` when there is none. An integer
    is read as itself: the rounding of integers past `2 ^ 53` is not modelled. -/
def finiteNumber (v : Json) (bad : Exn E) : Except (Exn E) ℚ :=
  match v with
  | .int n             => if n ≤ maxDouble ∧ -maxDouble ≤ n then .ok n else .error .overflowError
  | .float (.finite q) => .ok q
  | _                  => .error bad

theorem lookup_eq (k : String) (kvs : List (String × Json)) : lookup k kvs = Dict.lookup k kvs := by
  induction kvs with
  | nil => rfl
  | cons e kvs ih =>
      show (if e.1 = k then some e.2 else lookup k kvs) = if e.1 = k then some e.2 else Dict.lookup k kvs
      rw [ih]

/-- A dictionary whose values are documents. -/
theorem lookup_map {V : Type} (toJson : V → Json) (k : String) (l : List (String × V)) :
    lookup k (l.map fun e => (e.1, toJson e.2)) = (Dict.lookup k l).map toJson := by
  induction l with
  | nil => rfl
  | cons e l ih =>
      show (if e.1 = k then some (toJson e.2) else lookup k _) =
        (if e.1 = k then some e.2 else Dict.lookup k l).map toJson
      by_cases hk : e.1 = k
      · rw [if_pos hk, if_pos hk, Option.map_some]
      · rw [if_neg hk, if_neg hk, ih]

theorem item_dict_of_lookup {k : String} {kvs : List (String × Json)} {x : Json}
    (h : lookup k kvs = some x) : item (.dict kvs) k = (.ok x : Except (Exn E) Json) := by
  simp only [item, h]

theorem item_of_get? {v x : Json} {k : String} (h : v.get? k = some x) :
    v.item k = (.ok x : Except (Exn E) Json) := by
  cases v with
  | dict kvs => exact item_dict_of_lookup h
  | null | bool | int | float | str | list => cases h

/-- A subscript that returned found the key. -/
theorem get?_of_item {v x : Json} {k : String} (h : v.item k = (.ok x : Except (Exn E) Json)) :
    v.get? k = some x := by
  cases v with
  | dict kvs =>
      unfold item at h
      dsimp only at h
      split at h
      · next hl => cases h; exact hl
      · cases h
  | null | bool | int | float | str | list => cases h

theorem item_eq_ok {v x : Json} {k : String} :
    v.item k = (.ok x : Except (Exn E) Json) ↔ v.get? k = some x :=
  ⟨get?_of_item, item_of_get?⟩

@[simp] theorem finiteNumber_finite (q : ℚ) (bad : Exn E) :
    finiteNumber (.float (.finite q)) bad = .ok q := rfl

end Json
end Python
end PickleInfra
