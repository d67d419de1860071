import Mathlib.Logic.Relation

/-!
# `Durable.Prog` — programs that may be killed between any two durable effects

A program over a durable store `D` reads it, replaces it in one atomic write, or asks the outside
world a question `Q` and waits for the answer `R`. Nothing else is observable, so a process kill is
exactly a run that stops before one of these effects: the volatile state of the program is gone and
the store and the history of the world stay as they are.

* `Prog` — the syntax, a monad; exceptions are ordinary values (`Prog D Q R (Except ε α)`).
* `World` — the store together with the history of what happened, **newest event first**.
* `Runs p w w' r` — from `w` the program may reach `w'`, returning `r = some a`, or killed (`none`).

Nothing here mentions a particular program.
-/

namespace PickleInfra
namespace Durable

/-- A program over a store `D` that may ask `Q` and be answered `R`, and returns an `α`. -/
inductive Prog (D Q R α : Type) where
  | ret (a : α)
  | look (k : D → Prog D Q R α)
  | write (f : D → D) (next : Prog D Q R α)
  | call (q : Q) (k : R → Prog D Q R α)

/-- What the world remembers of an effect. A call whose answer the program never saw is `lost`. -/
inductive Event (D Q R : Type) where
  | wrote (d : D)
  | answered (q : Q) (r : R)
  | lost (q : Q)

/-- The store and the history of the world, newest event first. -/
structure World (D Q R : Type) where
  disk : D
  hist : List (Event D Q R)

variable {D Q R α β : Type}

namespace Prog

/-- Sequencing: run `p`, then `f` of what it returned. -/
def bind (p : Prog D Q R α) (f : α → Prog D Q R β) : Prog D Q R β :=
  match p with
  | .ret a        => f a
  | .look k       => .look (fun d => (k d).bind f)
  | .write g next => .write g (next.bind f)
  | .call q k     => .call q (fun r => (k r).bind f)

instance : Monad (Prog D Q R) where
  pure := .ret
  bind := bind

@[simp] theorem pure_eq (a : α) : (pure a : Prog D Q R α) = .ret a := rfl
@[simp] theorem bind_eq (p : Prog D Q R α) (f : α → Prog D Q R β) : p >>= f = p.bind f := rfl

end Prog

namespace World

/-- The world after one more event that leaves the store alone. -/
def push (w : World D Q R) (e : Event D Q R) : World D Q R := ⟨w.disk, e :: w.hist⟩

/-- The world after an atomic replacement of the store. -/
def wrote (w : World D Q R) (d : D) : World D Q R := ⟨d, .wrote d :: w.hist⟩

@[simp] theorem push_disk (w : World D Q R) (e) : (w.push e).disk = w.disk := rfl
@[simp] theorem push_hist (w : World D Q R) (e) : (w.push e).hist = e :: w.hist := rfl
@[simp] theorem wrote_disk (w : World D Q R) (d) : (w.wrote d).disk = d := rfl
@[simp] theorem wrote_hist (w : World D Q R) (d) : (w.wrote d).hist = .wrote d :: w.hist := rfl

end World

/-- Executions. `killed` may end any run at any point; a call that is killed while it waits leaves
    the question in the history, because the outside world may well have acted on it. -/
inductive Runs : Prog D Q R α → World D Q R → World D Q R → Option α → Prop
  | killed (p w) : Runs p w w none
  | ret (a w) : Runs (.ret a) w w (some a)
  | look {k w w' r} : Runs (k w.disk) w w' r → Runs (.look k) w w' r
  | write {f next w w' r} : Runs next (w.wrote (f w.disk)) w' r → Runs (.write f next) w w' r
  | answered {q k w w' r} (a : R) : Runs (k a) (w.push (.answered q a)) w' r → Runs (.call q k) w w' r
  | lost (q k w) : Runs (.call q k) w (w.push (.lost q)) none

/-! ## Inversion: what each form of program can do -/

theorem runs_ret {a : α} {w w' : World D Q R} {r} (h : Runs (.ret a) w w' r) :
    w' = w ∧ (r = none ∨ r = some a) := by
  cases h with
  | killed => exact ⟨rfl, .inl rfl⟩
  | ret => exact ⟨rfl, .inr rfl⟩

theorem runs_look {k : D → Prog D Q R α} {w w' r} (h : Runs (.look k) w w' r) :
    (w' = w ∧ r = none) ∨ Runs (k w.disk) w w' r := by
  cases h with
  | killed => exact .inl ⟨rfl, rfl⟩
  | look h => exact .inr h

theorem runs_write {f : D → D} {next : Prog D Q R α} {w w' r} (h : Runs (.write f next) w w' r) :
    (w' = w ∧ r = none) ∨ Runs next (w.wrote (f w.disk)) w' r := by
  cases h with
  | killed => exact .inl ⟨rfl, rfl⟩
  | write h => exact .inr h

theorem runs_call {q : Q} {k : R → Prog D Q R α} {w w' r} (h : Runs (.call q k) w w' r) :
    (w' = w ∧ r = none) ∨ (w' = w.push (.lost q) ∧ r = none) ∨
      ∃ a, Runs (k a) (w.push (.answered q a)) w' r := by
  cases h with
  | killed => exact .inl ⟨rfl, rfl⟩
  | lost => exact .inr (.inl ⟨rfl, rfl⟩)
  | answered a h => exact .inr (.inr ⟨a, h⟩)

/-- **A run of a sequence** is killed inside the first program, or runs it to its end and goes on. -/
theorem runs_bind {p : Prog D Q R α} {f : α → Prog D Q R β} {w w' r}
    (h : Runs (p.bind f) w w' r) :
    (Runs p w w' none ∧ r = none) ∨ ∃ a w₁, Runs p w w₁ (some a) ∧ Runs (f a) w₁ w' r := by
  induction p generalizing w with
  | ret a => exact .inr ⟨a, w, .ret a w, h⟩
  | look k ih =>
      rcases runs_look h with ⟨rfl, rfl⟩ | h
      · exact .inl ⟨.killed _ _, rfl⟩
      · rcases ih _ h with ⟨h, hr⟩ | ⟨a, w₁, h₁, h₂⟩
        · exact .inl ⟨.look h, hr⟩
        · exact .inr ⟨a, w₁, .look h₁, h₂⟩
  | write g next ih =>
      rcases runs_write h with ⟨rfl, rfl⟩ | h
      · exact .inl ⟨.killed _ _, rfl⟩
      · rcases ih h with ⟨h, hr⟩ | ⟨a, w₁, h₁, h₂⟩
        · exact .inl ⟨.write h, hr⟩
        · exact .inr ⟨a, w₁, .write h₁, h₂⟩
  | call q k ih =>
      rcases runs_call h with ⟨rfl, rfl⟩ | ⟨rfl, rfl⟩ | ⟨a, h⟩
      · exact .inl ⟨.killed _ _, rfl⟩
      · exact .inl ⟨.lost _ _ _, rfl⟩
      · rcases ih a h with ⟨h, hr⟩ | ⟨b, w₁, h₁, h₂⟩
        · exact .inl ⟨.answered a h, hr⟩
        · exact .inr ⟨b, w₁, .answered a h₁, h₂⟩

/-- The history only grows: what happened stays happened. -/
theorem runs_suffix {p : Prog D Q R α} {w w' r} (h : Runs p w w' r) : w.hist <:+ w'.hist := by
  induction h with
  | killed | ret => exact List.suffix_rfl
  | look _ ih => exact ih
  | write _ ih => exact (List.suffix_cons _ _).trans ih
  | answered _ _ ih => exact (List.suffix_cons _ _).trans ih
  | lost => exact List.suffix_cons _ _

/-! ## Running a program on given answers -/

/-- Run `p` for at most `n` effects on the given answers; it is killed after them, and at the first
    call there is no answer for. -/
def Prog.exec : Prog D Q R α → Nat → World D Q R → List R → World D Q R × Option α
  | .ret a, _, w, _            => (w, some a)
  | .look k, n, w, as          => (k w.disk).exec n w as
  | .write _ _, 0, w, _        => (w, none)
  | .write f next, n + 1, w, as => next.exec n (w.wrote (f w.disk)) as
  | .call _ _, 0, w, _         => (w, none)
  | .call q _, _ + 1, w, []    => (w.push (.lost q), none)
  | .call q k, n + 1, w, a :: as => (k a).exec n (w.push (.answered q a)) as

theorem runs_exec (p : Prog D Q R α) (n : Nat) (w : World D Q R) (as : List R) :
    Runs p w (p.exec n w as).1 (p.exec n w as).2 := by
  induction p generalizing n w as with
  | ret a => exact .ret a w
  | look k ih => exact .look (ih _ n w as)
  | write f next ih =>
      cases n with
      | zero => exact .killed _ w
      | succ n => exact .write (ih n _ as)
  | call q k ih =>
      cases n with
      | zero => exact .killed _ w
      | succ n =>
          cases as with
          | nil => exact .lost q k w
          | cons a as => exact .answered a (ih a n _ as)

/-! ## The claim–call–record episode

The shape every careful sender has: persist the claim, make the call, persist its outcome. -/

/-- Persist `claim`, ask `q`, persist what the answer makes of the store, go on. -/
def attempt (claim : D → D) (q : Q) (record : R → D → D) (k : R → Prog D Q R α) : Prog D Q R α :=
  .write claim (.call q (fun a => .write (record a) (k a)))

/-- The world after the whole episode was recorded. -/
def World.recorded (w : World D Q R) (claim : D → D) (q : Q) (record : R → D → D) (a : R) :
    World D Q R :=
  ((w.wrote (claim w.disk)).push (.answered q a)).wrote (record a (claim w.disk))

/-- How far one episode got. -/
inductive Episode (claim : D → D) (q : Q) (record : R → D → D) (w : World D Q R) :
    World D Q R → Prop
  | claimed : Episode claim q record w (w.wrote (claim w.disk))
  | lost : Episode claim q record w ((w.wrote (claim w.disk)).push (.lost q))
  | answered (a : R) : Episode claim q record w ((w.wrote (claim w.disk)).push (.answered q a))
  | recorded (a : R) : Episode claim q record w (w.recorded claim q record a)

/-- **A run of an episode** is killed at one of its four stages, or records the answer and goes on. -/
theorem runs_attempt {claim : D → D} {q : Q} {record : R → D → D} {k : R → Prog D Q R α} {w w' r}
    (h : Runs (attempt claim q record k) w w' r) :
    (w' = w ∧ r = none) ∨ (Episode claim q record w w' ∧ r = none) ∨
      ∃ a, Runs (k a) (w.recorded claim q record a) w' r := by
  rcases runs_write h with h | h
  · exact .inl h
  rcases runs_call h with ⟨rfl, hr⟩ | ⟨rfl, hr⟩ | ⟨a, h⟩
  · exact .inr (.inl ⟨.claimed, hr⟩)
  · exact .inr (.inl ⟨.lost, hr⟩)
  rcases runs_write h with ⟨rfl, hr⟩ | h
  · exact .inr (.inl ⟨.answered a, hr⟩)
  · exact .inr (.inr ⟨a, h⟩)

/-! ## Moves: a program as a sequence of atomic world changes -/

open Relation (ReflTransGen)

/-- `Follows M p w post`: however far `p` gets from `w`, it got there by moves of `M`; and if it
    returned, what it returned satisfies `post`. -/
def Follows (M : World D Q R → World D Q R → Prop) (p : Prog D Q R α) (w : World D Q R)
    (post : α → World D Q R → Prop) : Prop :=
  ∀ ⦃w' r⦄, Runs p w w' r → ReflTransGen M w w' ∧ ∀ a, r = some a → post a w'

section Follows

variable {M : World D Q R → World D Q R → Prop} {post : α → World D Q R → Prop}

theorem Follows.ret {a : α} {w} (h : post a w) : Follows M (.ret a) w post := by
  intro w' r hr
  obtain ⟨rfl, rfl | rfl⟩ := runs_ret hr
  · exact ⟨.refl, by simp⟩
  · exact ⟨.refl, by rintro _ ⟨⟩; exact h⟩

theorem Follows.look {k : D → Prog D Q R α} {w} (h : Follows M (k w.disk) w post) :
    Follows M (.look k) w post := by
  intro w' r hr
  rcases runs_look hr with ⟨rfl, rfl⟩ | hr
  · exact ⟨.refl, by simp⟩
  · exact h hr

theorem Follows.write {f : D → D} {next : Prog D Q R α} {w} (hm : M w (w.wrote (f w.disk)))
    (h : Follows M next (w.wrote (f w.disk)) post) : Follows M (.write f next) w post := by
  intro w' r hr
  rcases runs_write hr with ⟨rfl, rfl⟩ | hr
  · exact ⟨.refl, by simp⟩
  · exact ⟨.head hm (h hr).1, (h hr).2⟩

theorem Follows.attempt {claim : D → D} {q : Q} {record : R → D → D} {k : R → Prog D Q R α} {w}
    (hm : ∀ w', Episode claim q record w w' → M w w')
    (h : ∀ a, Follows M (k a) (w.recorded claim q record a) post) :
    Follows M (Durable.attempt claim q record k) w post := by
  intro w' r hr
  rcases runs_attempt hr with ⟨rfl, rfl⟩ | ⟨he, rfl⟩ | ⟨a, hr⟩
  · exact ⟨.refl, by simp⟩
  · exact ⟨.single (hm _ he), by simp⟩
  · exact ⟨.head (hm _ (.recorded a)) (h a hr).1, (h a hr).2⟩

theorem Follows.bind {p : Prog D Q R β} {f : β → Prog D Q R α} {w}
    {mid : β → World D Q R → Prop} (hp : Follows M p w mid)
    (hf : ∀ b w₁, mid b w₁ → Follows M (f b) w₁ post) : Follows M (p.bind f) w post := by
  intro w' r hr
  rcases runs_bind hr with ⟨hk, rfl⟩ | ⟨b, w₁, h₁, h₂⟩
  · exact ⟨(hp hk).1, by simp⟩
  · have hw := hp h₁
    have hk := hf b w₁ (hw.2 b rfl) h₂
    exact ⟨hw.1.trans hk.1, hk.2⟩

theorem Follows.mono {p : Prog D Q R α} {w} {post' : α → World D Q R → Prop}
    (h : Follows M p w post) (hpost : ∀ a w', post a w' → post' a w') : Follows M p w post' :=
  fun _ _ hr => ⟨(h hr).1, fun a ha => hpost a _ ((h hr).2 a ha)⟩

end Follows

/-- An invariant of every single move is an invariant of every sequence of moves. -/
theorem invariant_of_moves {W : Type} {M : W → W → Prop} {I : W → Prop}
    (hstep : ∀ w w', I w → M w w' → I w') {w w' : W} (hw : I w) (h : ReflTransGen M w w') : I w' := by
  induction h with
  | refl => exact hw
  | tail _ hm ih => exact hstep _ _ ih hm

end Durable
end PickleInfra
