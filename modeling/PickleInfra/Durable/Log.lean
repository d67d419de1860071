import PickleInfra.Durable.History

/-!
# `Durable.Log` — a log of the runs of a program

A program that is run again and again on one store, each time with another input, leaves a log: what
each run was given, and what happened in it. Every run starts with an empty history of its own, so the
log says which run made which call.

Nothing here mentions a particular program.
-/

namespace PickleInfra
namespace Durable

variable {X D Q R α : Type}

/-- One run: its input, and what happened in it, newest event first. -/
structure Entry (X D Q R : Type) where
  input : X
  hist : List (Event D Q R)

namespace Entry

/-- The calls of a run, newest first: what was asked, and the answer if the run saw one. -/
def calls (c : Entry X D Q R) : List (Q × Option R) := c.hist.filterMap Event.call?

/-- The last store a run wrote. -/
def saved? (c : Entry X D Q R) : Option D := c.hist.findSome? fun
  | .wrote d      => some d
  | .answered _ _ => none
  | .lost _       => none

@[simp] theorem calls_nil (x : X) : (⟨x, []⟩ : Entry X D Q R).calls = [] := rfl
@[simp] theorem calls_wrote (x : X) (d : D) (hist : List (Event D Q R)) :
    (⟨x, .wrote d :: hist⟩ : Entry X D Q R).calls = (⟨x, hist⟩ : Entry X D Q R).calls := rfl
@[simp] theorem calls_answered (x : X) (q : Q) (r : R) (hist : List (Event D Q R)) :
    (⟨x, .answered q r :: hist⟩ : Entry X D Q R).calls =
      (q, some r) :: (⟨x, hist⟩ : Entry X D Q R).calls := rfl
@[simp] theorem calls_lost (x : X) (q : Q) (hist : List (Event D Q R)) :
    (⟨x, .lost q :: hist⟩ : Entry X D Q R).calls = (q, none) :: (⟨x, hist⟩ : Entry X D Q R).calls := rfl

@[simp] theorem saved?_nil (x : X) : (⟨x, []⟩ : Entry X D Q R).saved? = none := rfl
@[simp] theorem saved?_wrote (x : X) (d : D) (hist : List (Event D Q R)) :
    (⟨x, .wrote d :: hist⟩ : Entry X D Q R).saved? = some d := rfl
@[simp] theorem saved?_answered (x : X) (q : Q) (r : R) (hist : List (Event D Q R)) :
    (⟨x, .answered q r :: hist⟩ : Entry X D Q R).saved? = (⟨x, hist⟩ : Entry X D Q R).saved? := rfl
@[simp] theorem saved?_lost (x : X) (q : Q) (hist : List (Event D Q R)) :
    (⟨x, .lost q :: hist⟩ : Entry X D Q R).saved? = (⟨x, hist⟩ : Entry X D Q R).saved? := rfl

end Entry

/-- The runs of `p` on the store `init`, newest first, and the store they leave. -/
inductive Logged (p : X → Prog D Q R α) (init : D) : List (Entry X D Q R) → D → Prop
  | start : Logged p init [] init
  | run {log d w r} (x : X) (before : Logged p init log d) (h : Runs (p x) ⟨d, []⟩ w r) :
      Logged p init (⟨x, w.hist⟩ :: log) w.disk

/-- A log is cut anywhere: the later runs are a log of their own, on the store the earlier ones left. -/
theorem Logged.cut {p : X → Prog D Q R α} {init d : D} {newer older : List (Entry X D Q R)}
    (h : Logged p init (newer ++ older) d) : ∃ d₁, Logged p init older d₁ ∧ Logged p d₁ newer d := by
  induction newer generalizing d with
  | nil => exact ⟨d, h, .start⟩
  | cons c newer ih =>
      cases h with
      | run x before hrun =>
          obtain ⟨d₁, holder, hnewer⟩ := ih before
          exact ⟨d₁, holder, .run x hnewer hrun⟩

/-- The run at any place of a log. -/
theorem Logged.at {p : X → Prog D Q R α} {init d : D} {newer older : List (Entry X D Q R)}
    {c : Entry X D Q R} (h : Logged p init (newer ++ c :: older) d) :
    ∃ d₁ w r, Logged p init older d₁ ∧ Runs (p c.input) ⟨d₁, []⟩ w r ∧ w.hist = c.hist := by
  obtain ⟨_, h, -⟩ := h.cut
  cases h with
  | run x before hrun => exact ⟨_, _, _, before, hrun, rfl⟩

/-- Run `p` on given inputs, for given numbers of effects, on given answers; the newest run first. -/
def logOf (p : X → Prog D Q R α) (init : D) : List (X × Nat × List R) → List (Entry X D Q R) × D
  | []                  => ([], init)
  | (x, n, as) :: older =>
      let before := logOf p init older
      let w := ((p x).exec n ⟨before.2, []⟩ as).1
      (⟨x, w.hist⟩ :: before.1, w.disk)

theorem logged_logOf (p : X → Prog D Q R α) (init : D) (runs : List (X × Nat × List R)) :
    Logged p init (logOf p init runs).1 (logOf p init runs).2 := by
  induction runs with
  | nil => exact .start
  | cons run older ih =>
      obtain ⟨x, n, as⟩ := run
      exact .run x ih (runs_exec (p x) n _ as)

end Durable
end PickleInfra
