import PickleInfra.Durable.Effects

/-!
# `Durable.Makes` — a program that may raise, as moves of the world

`Makes M x w ok err`: however far `x` gets from `w`, it got there by moves of `M`; where it returned, `ok` holds, and
where it raised, `err` does. What a handler or a `finally` block starts from is what `err` says, so each statement has
one rule and a program is taken apart once, whatever is proved of its moves later.

Nothing here mentions a particular program.
-/

namespace PickleInfra
namespace Durable

variable {D Q R α β ε : Type}

/-- `try: x finally: last`; what `last` raises replaces what `x` did. -/
def tryFinally (x : Raising ε D Q R α) (last : Raising ε D Q R Unit) : Raising ε D Q R α :=
  ExceptT.mk (x.run.bind fun r => last.run.bind fun
    | .ok _    => .ret r
    | .error e => .ret (.error e))

/-- What holds where a program ended, by how it ended. -/
def Outcome (ok : α → World D Q R → Prop) (err : ε → World D Q R → Prop) (r : Except ε α) (w : World D Q R) : Prop :=
  match r with
  | .ok a    => ok a w
  | .error e => err e w

/-- The program makes moves of `M`, and ends as `ok` or `err` says. -/
def Makes (M : World D Q R → World D Q R → Prop) (x : Raising ε D Q R α) (w : World D Q R)
    (ok : α → World D Q R → Prop) (err : ε → World D Q R → Prop) : Prop :=
  Follows M x.run w (Outcome ok err)

section Makes

variable {M : World D Q R → World D Q R → Prop} {w : World D Q R} {ok : α → World D Q R → Prop}
  {err : ε → World D Q R → Prop}

theorem makes_reply {r : Except ε α} (h : Outcome ok err r w) :
    Makes M (ExceptT.mk (.ret r) : Raising ε D Q R α) w ok err := .ret h

theorem Makes.pure {a : α} (h : ok a w) : Makes M (Pure.pure a : Raising ε D Q R α) w ok err := .ret h

theorem Makes.throw {e : ε} (h : err e w) : Makes M (throw e : Raising ε D Q R α) w ok err := .ret h

/-- A question is one move, whether its answer is seen or lost. -/
theorem makes_ask {answer : R → Except ε α} {q : Q} (hlost : M w (w.push (.lost q)))
    (hmove : ∀ r, M w (w.push (.answered q r))) (h : ∀ r, Outcome ok err (answer r) (w.push (.answered q r))) :
    Makes M (ask answer q : Raising ε D Q R α) w ok err := by
  intro w' r hr
  rcases runs_call hr with ⟨rfl, rfl⟩ | ⟨rfl, rfl⟩ | ⟨a, hr⟩
  · exact ⟨.refl, fun _ ha => by cases ha⟩
  · exact ⟨.single hlost, fun _ ha => by cases ha⟩
  · have hreply : Makes M (ExceptT.mk (.ret (answer a)) : Raising ε D Q R α) (w.push (.answered q a)) ok err :=
      makes_reply (h a)
    exact ⟨.head (hmove a) (hreply hr).1, (hreply hr).2⟩

theorem makes_readStore :
    Makes M (readStore : Raising ε D Q R D) w (fun d w' => d = w.disk ∧ w' = w) err := .look (.ret ⟨rfl, rfl⟩)

theorem makes_modify {f : D → D} (hmove : M w (w.wrote (f w.disk))) :
    Makes M (modify f : Raising ε D Q R Unit) w (fun _ w' => w' = w.wrote (f w.disk)) err := .write hmove (.ret rfl)

theorem Makes.bind {x : Raising ε D Q R β} {f : β → Raising ε D Q R α} {mid : β → World D Q R → Prop}
    (hx : Makes M x w mid err) (hf : ∀ b w₁, mid b w₁ → Makes M (f b) w₁ ok err) : Makes M (x >>= f) w ok err := by
  unfold Makes
  rw [run_bind]
  refine Follows.bind hx fun r w₁ hr => ?_
  cases r with
  | ok b => exact hf b w₁ hr
  | error e => exact .ret hr

theorem Makes.mono {x : Raising ε D Q R α} {ok' : α → World D Q R → Prop} {err' : ε → World D Q R → Prop}
    (h : Makes M x w ok err) (hok : ∀ a w', ok a w' → ok' a w') (herr : ∀ e w', err e w' → err' e w') :
    Makes M x w ok' err' := by
  refine Follows.mono h fun r w' hr => ?_
  cases r with
  | ok a => exact hok a w' hr
  | error e => exact herr e w' hr

/-- A handler starts where the program raised. -/
theorem Makes.rescue {caught : ε → Bool} {x : Raising ε D Q R α} {handler : ε → Raising ε D Q R α}
    {mid : ε → World D Q R → Prop} (hx : Makes M x w ok mid)
    (hhandler : ∀ e w₁, caught e = true → mid e w₁ → Makes M (handler e) w₁ ok err)
    (hother : ∀ e w₁, caught e = false → mid e w₁ → err e w₁) : Makes M (Durable.rescue caught x handler) w ok err := by
  refine Follows.bind hx fun r w₁ hr => ?_
  cases r with
  | ok a => exact .ret hr
  | error e =>
      dsimp only
      cases hcaught : caught e with
      | true => exact hhandler e w₁ hcaught hr
      | false => exact .ret (hother e w₁ hcaught hr)

/-- The last block starts wherever the program ended. -/
theorem Makes.tryFinally {x : Raising ε D Q R α} {last : Raising ε D Q R Unit}
    {okMid : α → World D Q R → Prop} {errMid : ε → World D Q R → Prop} (hx : Makes M x w okMid errMid)
    (hok : ∀ a w₁, okMid a w₁ → Makes M last w₁ (fun _ => ok a) err)
    (herr : ∀ e w₁, errMid e w₁ → Makes M last w₁ (fun _ => err e) err) :
    Makes M (Durable.tryFinally x last) w ok err := by
  refine Follows.bind hx fun r w₁ hr => ?_
  have hlast : Makes M last w₁ (fun _ w₂ => Outcome ok err r w₂) err := by
    cases r with
    | ok a => exact hok a w₁ hr
    | error e => exact herr e w₁ hr
  refine Follows.bind hlast fun s w₂ hs => ?_
  cases s with
  | ok _ => exact .ret hs
  | error e => exact .ret hs

/-- What happened stays happened. -/
theorem Makes.past {x : Raising ε D Q R α} (h : Makes M x w ok err) {e : Event D Q R} (he : e ∈ w.hist) :
    Makes M x w (fun a w' => ok a w' ∧ e ∈ w'.hist) fun e' w' => err e' w' ∧ e ∈ w'.hist := by
  intro w' r hr
  refine ⟨(h hr).1, fun a ha => ?_⟩
  have hend := (h hr).2 a ha
  have hpast := (runs_suffix hr).mem he
  cases a with
  | ok a => exact ⟨hend, hpast⟩
  | error e' => exact ⟨hend, hpast⟩

/-- A killed program got where it is by moves, too. -/
theorem Makes.moves {x : Raising ε D Q R α} {w' : World D Q R} {r : Option (Except ε α)}
    (h : Makes M x w ok err) (hr : Runs x.run w w' r) : Relation.ReflTransGen M w w' := (h hr).1

theorem Makes.returned {x : Raising ε D Q R α} {w' : World D Q R} {a : α}
    (h : Makes M x w ok err) (hr : Runs x.run w w' (some (.ok a))) : ok a w' := (h hr).2 _ rfl

end Makes

end Durable
end PickleInfra
