import PickleInfra.Durable.Prog

/-!
# `Durable.Crash` — what a program leaves behind, whether it returns or is killed

`Safe inv p d post`: from a store `d` the program `p` can only be killed where `inv` holds, and returns
only where `post` does. One rule for each form of program; a script of writes and fallible commands
(`perform`) has a rule of its own.

Nothing here mentions a particular program.
-/

namespace PickleInfra
namespace Durable

variable {D Q R α β : Type}

/-- A kill leaves a store of `inv`, and a return leaves one of `post`. -/
def Safe (inv : D → Prop) (p : Prog D Q R α) (d : D) (post : α → D → Prop) : Prop :=
  ∀ ⦃w w' r⦄, w.disk = d → Runs p w w' r → (r = none → inv w'.disk) ∧ ∀ a, r = some a → post a w'.disk

section Safe

variable {inv : D → Prop} {post : α → D → Prop} {d : D}

theorem Safe.ret {a : α} (hinv : inv d) (h : post a d) : Safe inv (.ret a : Prog D Q R α) d post := by
  rintro w w' r rfl hr
  obtain ⟨rfl, hr | hr⟩ := runs_ret hr
  · exact ⟨fun _ => hinv, fun b hb => by rw [hr] at hb; cases hb⟩
  · refine ⟨fun hn => ?_, fun b hb => ?_⟩
    · rw [hr] at hn
      cases hn
    · rw [hr] at hb
      obtain rfl := Option.some.inj hb
      exact h

/-- What a kill at once leaves. -/
theorem safe_killed (hinv : inv d) {w' : World D Q R} {r : Option α} (hdisk : w'.disk = d) (hr : r = none) :
    (r = none → inv w'.disk) ∧ ∀ a, r = some a → post a w'.disk := by
  subst hr
  exact ⟨fun _ => hdisk ▸ hinv, fun a ha => by cases ha⟩

theorem Safe.look {k : D → Prog D Q R α} (hinv : inv d) (h : Safe inv (k d) d post) :
    Safe inv (.look k) d post := by
  rintro w w' r rfl hr
  rcases runs_look hr with ⟨rfl, hnone⟩ | hr'
  · exact safe_killed hinv rfl hnone
  · exact h rfl hr'

theorem Safe.write {f : D → D} {next : Prog D Q R α} (hinv : inv d) (h : Safe inv next (f d) post) :
    Safe inv (.write f next) d post := by
  rintro w w' r rfl hr
  rcases runs_write hr with ⟨rfl, hnone⟩ | hr'
  · exact safe_killed hinv rfl hnone
  · exact h rfl hr'

theorem Safe.call {q : Q} {k : R → Prog D Q R α} (hinv : inv d) (h : ∀ a, Safe inv (k a) d post) :
    Safe inv (.call q k) d post := by
  rintro w w' r rfl hr
  rcases runs_call hr with ⟨rfl, hnone⟩ | ⟨rfl, hnone⟩ | ⟨a, hr'⟩
  · exact safe_killed hinv rfl hnone
  · exact safe_killed hinv rfl hnone
  · exact @h a (w.push (.answered q a)) w' r rfl hr'

theorem Safe.bind {p : Prog D Q R β} {f : β → Prog D Q R α} {mid : β → D → Prop}
    (hp : Safe inv p d mid) (hf : ∀ b d', mid b d' → Safe inv (f b) d' post) :
    Safe inv (p.bind f) d post := by
  intro w w' r hw hr
  rcases runs_bind hr with ⟨hk, hnone⟩ | ⟨b, w₁, h₁, h₂⟩
  · exact safe_killed ((hp hw hk).1 rfl) rfl hnone
  · exact hf b w₁.disk ((hp hw h₁).2 b rfl) rfl h₂

theorem Safe.mono {p : Prog D Q R α} {inv' : D → Prop} {post' : α → D → Prop} (h : Safe inv p d post)
    (hinv : ∀ d, inv d → inv' d) (hpost : ∀ a d, post a d → post' a d) : Safe inv' p d post' :=
  fun _ _ _ hw hr => ⟨fun hn => hinv _ ((h hw hr).1 hn), fun a ha => hpost a _ ((h hw hr).2 a ha)⟩

/-- A program that keeps a predicate, killed or not. -/
theorem Safe.keeps {p : Prog D Q R α} {w w' : World D Q R} {r} (h : Safe inv p w.disk fun _ => inv)
    (hr : Runs p w w' r) : inv w'.disk := by
  cases r with
  | none => exact (h rfl hr).1 rfl
  | some a => exact (h rfl hr).2 a rfl

end Safe

/-! ## Exceptions -/

/-- A program that may raise. -/
abbrev Raising (ε D Q R : Type) := ExceptT ε (Prog D Q R)

section Raising

variable {ε : Type} {inv : D → Prop} {d : D}

theorem run_bind (x : Raising ε D Q R α) (f : α → Raising ε D Q R β) :
    (x >>= f).run = x.run.bind fun r => match r with
      | .ok a    => (f a).run
      | .error e => .ret (.error e) := by
  show x.run.bind (ExceptT.bindCont f) = _
  congr 1
  funext r
  cases r with
  | ok a => rfl
  | error e => rfl

/-- Killed, raised or returned, the program leaves a store of `inv`; and a return one of `post`. -/
def Keeps (inv : D → Prop) (x : Raising ε D Q R α) (d : D) (post : α → D → Prop) : Prop :=
  Safe inv x.run d fun r d' => inv d' ∧ ∀ a, r = .ok a → post a d'

variable {post : α → D → Prop}

theorem Keeps.lift {r : Except ε α} (hinv : inv d) (h : ∀ a, r = .ok a → post a d) :
    Keeps inv (ExceptT.mk (.ret r) : Raising ε D Q R α) d post := .ret hinv ⟨hinv, h⟩

theorem Keeps.pure {a : α} (hinv : inv d) (h : post a d) :
    Keeps inv (Pure.pure a : Raising ε D Q R α) d post := by
  apply Keeps.lift hinv
  intro b hb
  obtain rfl := Except.ok.inj hb
  exact h

theorem Keeps.throw {e : ε} (hinv : inv d) : Keeps inv (throw e : Raising ε D Q R α) d post := by
  apply Keeps.lift hinv
  intro a ha
  cases ha

theorem Keeps.mono {x : Raising ε D Q R α} {post' : α → D → Prop} (h : Keeps inv x d post)
    (hpost : ∀ a d', post a d' → post' a d') : Keeps inv x d post' :=
  Safe.mono h (fun _ h => h) fun _ d' hr => ⟨hr.1, fun a ha => hpost a d' (hr.2 a ha)⟩

/-- A part of a program keeps more than the whole does. -/
theorem Keeps.weaken {inv' : D → Prop} {x : Raising ε D Q R α} (h : Keeps inv' x d post)
    (hinv : ∀ d', inv' d' → inv d') : Keeps inv x d fun a d' => inv' d' ∧ post a d' :=
  Safe.mono h hinv fun _ d' hr => ⟨hinv d' hr.1, fun a ha => ⟨hr.1, hr.2 a ha⟩⟩

/-- However it ends, the invariant holds. -/
theorem Keeps.always {x : Raising ε D Q R α} {w w' : World D Q R} {r} (h : Keeps inv x w.disk post)
    (hr : Runs x.run w w' r) : inv w'.disk :=
  Safe.keeps (Safe.mono h (fun _ h => h) fun _ _ h => h.1) hr

/-- A sequence goes on where the first part returned. -/
theorem Keeps.bind {x : Raising ε D Q R α} {f : α → Raising ε D Q R β} {mid : α → D → Prop}
    {post : β → D → Prop} (hx : Keeps inv x d mid)
    (hf : ∀ a d', inv d' → mid a d' → Keeps inv (f a) d' post) : Keeps inv (x >>= f) d post := by
  unfold Keeps
  rw [run_bind]
  apply Safe.bind hx
  rintro r d' ⟨hinv, hmid⟩
  cases r with
  | ok a => exact hf a d' hinv (hmid a rfl)
  | error e => exact .ret hinv ⟨hinv, fun a ha => by cases ha⟩

end Raising

/-! ## Undisturbed runs -/

/-- The run in which every question is answered by a function and nothing is killed. -/
def Prog.complete (answer : Q → R) : Prog D Q R α → D → D × α
  | .ret a, d        => (d, a)
  | .look k, d       => (k d).complete answer d
  | .write f next, d => next.complete answer (f d)
  | .call q k, d     => (k (answer q)).complete answer d

theorem complete_bind (answer : Q → R) (p : Prog D Q R α) (f : α → Prog D Q R β) (d : D) :
    (p.bind f).complete answer d =
      (f (p.complete answer d).2).complete answer (p.complete answer d).1 := by
  induction p generalizing d with
  | ret a => rfl
  | look k ih => exact ih d d
  | write g next ih => exact ih (g d)
  | call q k ih => exact ih (answer q) d

/-- An undisturbed program that returned is followed by the rest. -/
theorem complete_seq {ε : Type} {answer : Q → R} {x : Raising ε D Q R α} {f : α → Raising ε D Q R β} {d d' : D}
    {a : α} (h : x.run.complete answer d = (d', .ok a)) :
    (x >>= f).run.complete answer d = (f a).run.complete answer d' := by
  rw [run_bind, complete_bind, h]

/-- The undisturbed run is a run. -/
theorem runs_complete (answer : Q → R) (p : Prog D Q R α) (w : World D Q R) :
    ∃ w', w'.disk = (p.complete answer w.disk).1 ∧ Runs p w w' (some (p.complete answer w.disk).2) := by
  induction p generalizing w with
  | ret a => exact ⟨w, rfl, .ret a w⟩
  | look k ih =>
      obtain ⟨w', hdisk, hrun⟩ := ih w.disk w
      exact ⟨w', hdisk, .look hrun⟩
  | write f next ih =>
      obtain ⟨w', hdisk, hrun⟩ := ih (w.wrote (f w.disk))
      exact ⟨w', hdisk, .write hrun⟩
  | call q k ih =>
      obtain ⟨w', hdisk, hrun⟩ := ih (answer q) (w.push (.answered q (answer q)))
      exact ⟨w', hdisk, .answered _ hrun⟩

/-! ## Scripts -/

/-- A step of a script: a write, a check of the store, or a command that may fail. -/
inductive Step (D Q : Type) where
  | write (f : D → D)
  | check (test : D → Bool)
  | command (q : Q)

/-- Run the steps in order; the first that fails goes on with `onFail`. -/
def perform (done : R → Bool) (onFail : Prog D Q R α) : List (Step D Q) → Prog D Q R α → Prog D Q R α
  | [], k                 => k
  | .write f :: rest, k   => .write f (perform done onFail rest k)
  | .check test :: rest, k =>
    .look fun d => if test d then perform done onFail rest k else onFail
  | .command q :: rest, k => .call q fun a => if done a then perform done onFail rest k else onFail

/-- **A script** all of whose writes keep a predicate goes on from a store that has it. -/
theorem Safe.perform (keep : D → Prop) {inv : D → Prop} {post : α → D → Prop} {done : R → Bool}
    {onFail k : Prog D Q R α} {steps : List (Step D Q)} (hinv : ∀ d, keep d → inv d)
    (hsteps : ∀ f, .write f ∈ steps → ∀ d, keep d → keep (f d))
    (hfail : ∀ d, keep d → Safe inv onFail d post) (hk : ∀ d, keep d → Safe inv k d post) {d : D}
    (hd : keep d) : Safe inv (Durable.perform done onFail steps k) d post := by
  induction steps generalizing d with
  | nil => exact hk d hd
  | cons step rest ih =>
      have hrest := fun d => @ih (fun f hf => hsteps f (List.mem_cons_of_mem _ hf)) d
      cases step with
      | write f => exact .write (hinv d hd) (hrest (f d) (hsteps f List.mem_cons_self d hd))
      | check test =>
          apply Safe.look (hinv d hd)
          split
          · exact hrest d hd
          · exact hfail d hd
      | command q =>
          apply Safe.call (hinv d hd)
          intro a
          split
          · exact hrest d hd
          · exact hfail d hd

end Durable
end PickleInfra
