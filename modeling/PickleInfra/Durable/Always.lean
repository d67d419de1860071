import PickleInfra.Durable.Effects

/-!
# `Durable.Always` — what holds of the world after every effect, its history included

`Keeps` is about the store alone. `Always inv x w ok` is about the world: wherever `x` is killed, raises or returns, `inv`
holds of the store and of what was asked until then.

Nothing here mentions a particular program.
-/

namespace PickleInfra
namespace Durable

variable {D Q R α β ε : Type}

/-- A result that was computed already. -/
def reply (r : Except ε α) : Raising ε D Q R α := ExceptT.mk (.ret r)

/-- Killed, raised or returned, the program leaves a world of `inv`; and a return one of `ok`. -/
def Always (inv : World D Q R → Prop) (x : Raising ε D Q R α) (w : World D Q R) (ok : α → World D Q R → Prop) :
    Prop :=
  ∀ ⦃w' r⦄, Runs x.run w w' r → inv w' ∧ ∀ a, r = some (.ok a) → ok a w'

section Always

variable {inv : World D Q R → Prop} {w : World D Q R} {ok : α → World D Q R → Prop}

theorem always_reply {r : Except ε α} (hinv : inv w) (h : ∀ a, r = .ok a → ok a w) :
    Always inv (reply r : Raising ε D Q R α) w ok := by
  intro w' r' hr
  obtain ⟨rfl, rfl | rfl⟩ := runs_ret hr
  · exact ⟨hinv, fun a ha => by cases ha⟩
  · exact ⟨hinv, fun a ha => h a (Option.some.inj ha)⟩

theorem Always.pure {a : α} (hinv : inv w) (h : ok a w) : Always inv (Pure.pure a : Raising ε D Q R α) w ok :=
  always_reply hinv fun b hb => by cases hb; exact h

theorem Always.throw {e : ε} (hinv : inv w) : Always inv (throw e : Raising ε D Q R α) w ok :=
  always_reply hinv fun a ha => by cases ha

theorem always_ask {answer : R → Except ε α} {q : Q} (hinv : inv w) (hlost : inv (w.push (.lost q)))
    (h : ∀ r, inv (w.push (.answered q r)) ∧ ∀ a, answer r = .ok a → ok a (w.push (.answered q r))) :
    Always inv (ask answer q : Raising ε D Q R α) w ok := by
  intro w' r' hr
  rcases runs_call hr with ⟨rfl, rfl⟩ | ⟨rfl, rfl⟩ | ⟨r, hr⟩
  · exact ⟨hinv, fun a ha => by cases ha⟩
  · exact ⟨hlost, fun a ha => by cases ha⟩
  · exact always_reply (h r).1 (h r).2 hr

theorem always_readStore (hinv : inv w) :
    Always inv (readStore : Raising ε D Q R D) w fun d w' => d = w.disk ∧ w' = w := by
  intro w' r' hr
  rcases runs_look hr with ⟨rfl, rfl⟩ | hr
  · exact ⟨hinv, fun a ha => by cases ha⟩
  · have hread : Always inv (reply (.ok w.disk) : Raising ε D Q R D) w fun d w' => d = w.disk ∧ w' = w :=
      always_reply hinv fun d hd => ⟨(Except.ok.inj hd).symm, rfl⟩
    exact hread hr

theorem always_modify {f : D → D} (hinv : inv w) (hnew : inv (w.wrote (f w.disk))) :
    Always inv (modify f : Raising ε D Q R Unit) w fun _ w' => w' = w.wrote (f w.disk) := by
  intro w' r' hr
  rcases runs_write hr with ⟨rfl, rfl⟩ | hr
  · exact ⟨hinv, fun a ha => by cases ha⟩
  · have hwrote : Always inv (reply (.ok ()) : Raising ε D Q R Unit) (w.wrote (f w.disk))
        fun _ w' => w' = w.wrote (f w.disk) := always_reply hnew fun _ _ => rfl
    exact hwrote hr

theorem Always.bind {x : Raising ε D Q R β} {f : β → Raising ε D Q R α} {mid : β → World D Q R → Prop}
    (hx : Always inv x w mid) (hf : ∀ b w₁, inv w₁ → mid b w₁ → Always inv (f b) w₁ ok) :
    Always inv (x >>= f) w ok := by
  intro w' r' hr
  rw [run_bind] at hr
  rcases runs_bind hr with ⟨hkilled, rfl⟩ | ⟨r, w₁, h₁, h₂⟩
  · exact ⟨(hx hkilled).1, fun a ha => by cases ha⟩
  obtain ⟨hinv, hmid⟩ := hx h₁
  cases r with
  | ok b => exact hf b w₁ hinv (hmid b rfl) h₂
  | error e => exact always_reply hinv (fun a ha => by cases ha) h₂

theorem Always.mono {x : Raising ε D Q R α} {inv' : World D Q R → Prop} {ok' : α → World D Q R → Prop}
    (h : Always inv x w ok) (hinv : ∀ w', inv w' → inv' w') (hok : ∀ a w', ok a w' → ok' a w') :
    Always inv' x w ok' := fun _ _ hr => ⟨hinv _ (h hr).1, fun a ha => hok a _ ((h hr).2 a ha)⟩

end Always

end Durable
end PickleInfra
