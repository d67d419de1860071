import PickleInfra.Durable.Prog
import PickleInfra.History.Attempts

/-!
# `Durable.History` — reading the history of a world

The history of a world determines its store (`diskAt`), what was asked and how it ended
(`Event.ended`), and which calls were made since some earlier moment, with the store each was made on
(`CallsSince`).
-/

namespace PickleInfra
namespace Durable

open History

variable {D Q R α K : Type}

namespace Event

/-- The question of a call, and its answer if the program saw one. -/
def call? : Event D Q R → Option (Q × Option R)
  | .wrote _      => none
  | .answered q r => some (q, some r)
  | .lost q       => some (q, none)

/-- How a call ended, under the key of its question. -/
def ended (key : Q → K) (e : Event D Q R) : Option (K × Option R) :=
  e.call?.map (fun p => (key p.1, p.2))

@[simp] theorem call?_wrote (d : D) : (.wrote d : Event D Q R).call? = none := rfl
@[simp] theorem call?_answered (q : Q) (r : R) :
    (.answered q r : Event D Q R).call? = some (q, some r) := rfl
@[simp] theorem call?_lost (q : Q) : (.lost q : Event D Q R).call? = some (q, none) := rfl

@[simp] theorem ended_wrote (key : Q → K) (d : D) : (.wrote d : Event D Q R).ended key = none := rfl
@[simp] theorem ended_answered (key : Q → K) (q : Q) (r : R) :
    (.answered q r : Event D Q R).ended key = some (key q, some r) := rfl
@[simp] theorem ended_lost (key : Q → K) (q : Q) :
    (.lost q : Event D Q R).ended key = some (key q, none) := rfl

end Event

/-- The store a history leaves: the last one written. -/
def diskAt (init : D) : List (Event D Q R) → D
  | []                  => init
  | .wrote d :: _       => d
  | .answered .. :: rest => diskAt init rest
  | .lost _ :: rest     => diskAt init rest

@[simp] theorem diskAt_nil (init : D) : diskAt init ([] : List (Event D Q R)) = init := rfl
@[simp] theorem diskAt_wrote (init : D) (d : D) (hist : List (Event D Q R)) :
    diskAt init (.wrote d :: hist) = d := rfl
@[simp] theorem diskAt_answered (init : D) (q : Q) (r : R) (hist : List (Event D Q R)) :
    diskAt init (.answered q r :: hist) = diskAt init hist := rfl
@[simp] theorem diskAt_lost (init : D) (q : Q) (hist : List (Event D Q R)) :
    diskAt init (.lost q :: hist) = diskAt init hist := rfl

/-- The store is always what the history says. -/
theorem runs_diskAt {init : D} {p : Prog D Q R α} {w w' : World D Q R} {r}
    (h : Runs p w w' r) (hw : w.disk = diskAt init w.hist) : w'.disk = diskAt init w'.hist := by
  induction h with
  | killed | ret => exact hw
  | look _ ih => exact ih hw
  | write _ ih => exact ih rfl
  | answered _ _ ih => exact ih hw
  | lost => exact hw

/-- Every call made after the history was `base` was made on a store for which `P` holds. -/
def CallsSince (init : D) (P : Q → D → Prop) (base hist : List (Event D Q R)) : Prop :=
  ∀ later e earlier, hist = later ++ e :: earlier → base <:+ earlier →
    ∀ q r, e.call? = some (q, r) → P q (diskAt init earlier)

section CallsSince

variable {init : D} {P : Q → D → Prop} {base hist : List (Event D Q R)}

/-- The call at an index of the history, made after an empty one. -/
theorem CallsSince.get (h : CallsSince init P [] hist) {i : Nat} {e : Event D Q R}
    (hget : hist[i]? = some e) {q : Q} {r : Option R} (he : e.call? = some (q, r)) :
    P q (diskAt init (hist.drop (i + 1))) := by
  obtain ⟨hi, rfl⟩ := List.getElem?_eq_some_iff.mp hget
  refine h (hist.take i) _ _ ?_ (List.nil_suffix) q r he
  rw [← List.drop_eq_getElem_cons hi, List.take_append_drop]

theorem callsSince_self : CallsSince init P base base := by
  intro later e earlier hb hs
  have hle := hs.length_le
  have hlen := congrArg List.length hb
  rw [List.length_append, List.length_cons] at hlen
  omega

theorem CallsSince.cons (h : CallsSince init P base hist) {e : Event D Q R}
    (he : ∀ q r, e.call? = some (q, r) → P q (diskAt init hist)) :
    CallsSince init P base (e :: hist) := by
  intro later x earlier hb hs q r hx
  cases later with
  | nil =>
      rw [List.nil_append, List.cons.injEq] at hb
      obtain ⟨rfl, rfl⟩ := hb
      exact he q r hx
  | cons y later =>
      rw [List.cons_append, List.cons.injEq] at hb
      exact h later x earlier hb.2 hs q r hx

theorem CallsSince.wrote (h : CallsSince init P base hist) (d : D) :
    CallsSince init P base (.wrote d :: hist) := h.cons (by simp)

end CallsSince

end Durable
end PickleInfra
