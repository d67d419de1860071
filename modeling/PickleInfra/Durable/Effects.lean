import PickleInfra.Durable.Crash
import PickleInfra.Durable.Log

/-!
# `Durable.Effects` — the effects of a program that may raise, and its undisturbed answers

`ask`, `readStore` and `modify` are the three effects, and `rescue` the handler of an exception; each has
its `Keeps` rule. `Sure` is about runs in which every answer is good: what such a run returns, and the
world it leaves.

Nothing here mentions a particular program.
-/

namespace PickleInfra
namespace Durable

variable {D Q R α β ε : Type}

/-! ## Effects -/

/-- Ask, and raise where the answer is no answer. -/
def ask (answer : R → Except ε α) (q : Q) : Raising ε D Q R α :=
  ExceptT.mk (.call q fun r => .ret (answer r))

def readStore : Raising ε D Q R D := ExceptT.mk (.look fun d => .ret (.ok d))

def modify (f : D → D) : Raising ε D Q R Unit := ExceptT.mk (.write f (.ret (.ok ())))

/-- `try: x except: handler`, for the exceptions that `caught` accepts. -/
def rescue (caught : ε → Bool) (x : Raising ε D Q R α) (handler : ε → Raising ε D Q R α) :
    Raising ε D Q R α :=
  ExceptT.mk (x.run.bind fun r => match r with
    | .ok a    => .ret (.ok a)
    | .error e => if caught e then (handler e).run else .ret (.error e))

section Keeps

variable {inv : D → Prop} {d : D}

theorem keeps_ask {answer : R → Except ε α} {q : Q} (hinv : inv d) :
    Keeps inv (ask answer q : Raising ε D Q R α) d fun _ d' => d' = d :=
  .call hinv fun _ => .ret hinv ⟨hinv, fun _ _ => rfl⟩

theorem keeps_readStore (hinv : inv d) :
    Keeps inv (readStore : Raising ε D Q R D) d fun a d' => a = d ∧ d' = d := by
  refine .look hinv (.ret hinv ⟨hinv, fun a ha => ?_⟩)
  obtain rfl := Except.ok.inj ha
  exact ⟨rfl, rfl⟩

theorem keeps_modify {f : D → D} (hinv : inv d) (hnew : inv (f d)) :
    Keeps inv (modify f : Raising ε D Q R Unit) d fun _ d' => d' = f d :=
  .write hinv (.ret hnew ⟨hnew, fun _ _ => rfl⟩)

theorem keeps_rescue {caught : ε → Bool} {x : Raising ε D Q R α} {handler : ε → Raising ε D Q R α}
    {post : α → D → Prop} (hx : Keeps inv x d post)
    (hhandler : ∀ e d', inv d' → Keeps inv (handler e) d' post) :
    Keeps inv (rescue caught x handler) d post := by
  apply Safe.bind hx
  rintro r d' ⟨hinv, hpost⟩
  cases r with
  | ok a =>
      refine .ret hinv ⟨hinv, fun b hb => ?_⟩
      obtain rfl := Except.ok.inj hb
      exact hpost a rfl
  | error e =>
      dsimp only
      split
      · exact hhandler e d' hinv
      · exact .ret hinv ⟨hinv, fun a ha => by cases ha⟩

/-- A program that goes on with what was returned or raised. -/
theorem Keeps.safe_bind {x : Raising ε D Q R α} {f : Except ε α → Prog D Q R β} {mid : α → D → Prop}
    {post : β → D → Prop} (hx : Keeps inv x d mid)
    (herror : ∀ e d', inv d' → Safe inv (f (.error e)) d' post)
    (hok : ∀ a d', inv d' ∧ mid a d' → Safe inv (f (.ok a)) d' post) : Safe inv (x.run.bind f) d post := by
  apply Safe.bind hx
  rintro r d' ⟨hinv, hmid⟩
  cases r with
  | ok a => exact hok a d' ⟨hinv, hmid a rfl⟩
  | error e => exact herror e d' hinv

/-- A value that is checked before the program goes on. -/
theorem Keeps.next {x : Raising ε D Q R α} {f : α → Raising ε D Q R β} {mid : α → D → Prop}
    {post : β → D → Prop} (hx : Keeps inv x d mid) (hf : ∀ a d', mid a d' → Keeps inv (f a) d' post) :
    Keeps inv (x >>= f) d post := hx.bind fun a d' _ hmid => hf a d' hmid

end Keeps

/-! ## Programs that only read -/

/-- The program leaves the store as it was, however it ends. -/
def ReadOnly (x : Raising ε D Q R α) : Prop := ∀ d, Keeps (· = d) x d fun _ _ => True

section ReadOnly

theorem ReadOnly.keeps {x : Raising ε D Q R α} {inv : D → Prop} {d : D} (h : ReadOnly x) (hinv : inv d) :
    Keeps inv x d fun _ d' => d' = d :=
  ((h d).weaken fun _ hd => hd.symm ▸ hinv).mono fun _ _ hpost => hpost.1

/-- It leaves the store as it was where it raises, too. -/
theorem ReadOnly.safe {x : Raising ε D Q R α} {inv : D → Prop} {d : D} (h : ReadOnly x) (hinv : inv d) :
    Safe inv x.run d fun _ d' => d' = d :=
  Safe.mono (h d) (fun _ hd => hd.symm ▸ hinv) fun _ _ hpost => hpost.1

theorem readOnly_pure (a : α) : ReadOnly (pure a : Raising ε D Q R α) := fun _ => .pure rfl trivial

theorem readOnly_throw (e : ε) : ReadOnly (throw e : Raising ε D Q R α) := fun _ => .throw rfl

theorem readOnly_ask (answer : R → Except ε α) (q : Q) : ReadOnly (ask answer q : Raising ε D Q R α) :=
  fun d => (@keeps_ask D Q R α ε (· = d) d answer q rfl).mono fun _ _ _ => trivial

theorem readOnly_readStore : ReadOnly (readStore : Raising ε D Q R D) :=
  fun d => (@keeps_readStore D Q R ε (· = d) d rfl).mono fun _ _ _ => trivial

theorem ReadOnly.bind {x : Raising ε D Q R α} {f : α → Raising ε D Q R β} (hx : ReadOnly x)
    (hf : ∀ a, ReadOnly (f a)) : ReadOnly (x >>= f) := by
  intro d
  refine (hx d).bind fun a d' hd _ => ?_
  cases hd
  exact hf a d

theorem ReadOnly.rescue {caught : ε → Bool} {x : Raising ε D Q R α} {handler : ε → Raising ε D Q R α}
    (hx : ReadOnly x) (hhandler : ∀ e, ReadOnly (handler e)) :
    ReadOnly (Durable.rescue caught x handler) := by
  intro d
  refine keeps_rescue (hx d) fun e d' hd => ?_
  cases hd
  exact hhandler e d

end ReadOnly

/-! ## Returning runs -/

theorem runs_ret_some {a b : α} {w w' : World D Q R}
    (h : Runs (.ret a : Prog D Q R α) w w' (some b)) : w' = w ∧ b = a := by
  obtain ⟨hw, hr | hr⟩ := runs_ret h
  · cases hr
  · exact ⟨hw, Option.some.inj hr⟩

/-- A sequence that returned went through its first part. -/
theorem runs_seq {x : Raising ε D Q R α} {f : α → Raising ε D Q R β} {w w' : World D Q R} {b : β}
    (h : Runs (x >>= f).run w w' (some (.ok b))) :
    ∃ a w₁, Runs x.run w w₁ (some (.ok a)) ∧ Runs (f a).run w₁ w' (some (.ok b)) := by
  rw [run_bind] at h
  rcases runs_bind h with ⟨-, hnone⟩ | ⟨r, w₁, h₁, h₂⟩
  · cases hnone
  cases r with
  | ok a => exact ⟨a, w₁, h₁, h₂⟩
  | error e =>
      obtain ⟨-, hr⟩ := runs_ret h₂
      rcases hr with hr | hr
      · cases hr
      · cases Option.some.inj hr

/-- A question that was answered. -/
theorem runs_ask {answer : R → Except ε α} {q : Q} {w w' : World D Q R} {a : α}
    (h : Runs (ask answer q : Raising ε D Q R α).run w w' (some (.ok a))) :
    ∃ r, answer r = .ok a ∧ w' = w.push (.answered q r) := by
  rcases runs_call h with ⟨-, hr⟩ | ⟨-, hr⟩ | ⟨r, h⟩
  · cases hr
  · cases hr
  obtain ⟨hw, hr⟩ := runs_ret h
  rcases hr with hr | hr
  · cases hr
  · exact ⟨r, (Option.some.inj hr).symm, hw⟩

theorem runs_readStore {w w' : World D Q R} {d : D}
    (h : Runs (readStore : Raising ε D Q R D).run w w' (some (.ok d))) : w' = w ∧ d = w.disk := by
  rcases runs_look h with ⟨-, hr⟩ | h
  · cases hr
  obtain ⟨hw, hr⟩ := runs_ret h
  rcases hr with hr | hr
  · cases hr
  · exact ⟨hw, Except.ok.inj (Option.some.inj hr)⟩

theorem runs_pure {w w' : World D Q R} {a b : α}
    (h : Runs (pure a : Raising ε D Q R α).run w w' (some (.ok b))) : w' = w ∧ b = a := by
  obtain ⟨hw, hr⟩ := runs_ret h
  rcases hr with hr | hr
  · cases hr
  · exact ⟨hw, Except.ok.inj (Option.some.inj hr)⟩

theorem runs_throw {w w' : World D Q R} {e : ε} {b : α}
    (h : Runs (throw e : Raising ε D Q R α).run w w' (some (.ok b))) : False := by
  obtain ⟨-, hr⟩ := runs_ret h
  rcases hr with hr | hr
  · cases hr
  · cases Option.some.inj hr

/-- A guarded program that returned: the body did, or the handler of its exception. -/
theorem runs_rescue {caught : ε → Bool} {x : Raising ε D Q R α} {handler : ε → Raising ε D Q R α}
    {w w' : World D Q R} {b : α} (h : Runs (rescue caught x handler).run w w' (some (.ok b))) :
    Runs x.run w w' (some (.ok b)) ∨
      ∃ e w₁, Runs x.run w w₁ (some (.error e)) ∧ Runs (handler e).run w₁ w' (some (.ok b)) := by
  rcases runs_bind h with ⟨-, hnone⟩ | ⟨r, w₁, h₁, h₂⟩
  · cases hnone
  cases r with
  | ok a =>
      obtain ⟨rfl, hr⟩ := runs_ret h₂
      rcases hr with hr | hr
      · cases hr
      · obtain rfl := Except.ok.inj (Option.some.inj hr)
        exact .inl h₁
  | error e =>
      dsimp only at h₂
      split at h₂
      · exact .inr ⟨e, w₁, h₁, h₂⟩
      · obtain ⟨-, hr⟩ := runs_ret h₂
        rcases hr with hr | hr
        · cases hr
        · cases Option.some.inj hr

/-! ## Killed runs -/

/-- The store after `n` effects, where every question is answered by a function and then the program is
    killed. -/
def Prog.killedAfter (answer : Q → R) : Nat → Prog D Q R α → D → D
  | _, .ret _, d            => d
  | n, .look k, d           => (k d).killedAfter answer n d
  | 0, .write _ _, d        => d
  | n + 1, .write f next, d => next.killedAfter answer n (f d)
  | 0, .call _ _, d         => d
  | n + 1, .call q k, d     => (k (answer q)).killedAfter answer n d

theorem runs_killedAfter (answer : Q → R) (n : Nat) (p : Prog D Q R α) (w : World D Q R) :
    ∃ w', w'.disk = p.killedAfter answer n w.disk ∧ Runs p w w' none := by
  induction p generalizing n w with
  | ret a => exact ⟨w, by cases n <;> rfl, .killed _ w⟩
  | look k ih =>
      obtain ⟨w', hdisk, hrun⟩ := ih w.disk n w
      exact ⟨w', by rw [hdisk]; cases n <;> rfl, .look hrun⟩
  | write f next ih =>
      cases n with
      | zero => exact ⟨w, rfl, .killed _ w⟩
      | succ n =>
          obtain ⟨w', hdisk, hrun⟩ := ih n (w.wrote (f w.disk))
          exact ⟨w', hdisk, .write hrun⟩
  | call q k ih =>
      cases n with
      | zero => exact ⟨w, rfl, .killed _ w⟩
      | succ n =>
          obtain ⟨w', hdisk, hrun⟩ := ih (answer q) n (w.push (.answered q (answer q)))
          exact ⟨w', hdisk, .answered _ hrun⟩

/-- A log that goes on with a killed run. -/
theorem Logged.killed {X : Type} {p : X → Prog D Q R α} {init d : D} {log : List (Entry X D Q R)}
    (h : Logged p init log d) (answer : Q → R) (n : Nat) (x : X) :
    ∃ log', Logged p init log' ((p x).killedAfter answer n d) := by
  obtain ⟨w, hdisk, hrun⟩ := runs_killedAfter answer n (p x) ⟨d, []⟩
  have hlog := Logged.run x h hrun
  rw [hdisk] at hlog
  exact ⟨_, hlog⟩

/-! ## Good answers -/

/-- Every answer in a history is good. -/
def AllGood (good : Q → R → Prop) (hist : List (Event D Q R)) : Prop :=
  ∀ q r, .answered q r ∈ hist → good q r

theorem AllGood.suffix {good : Q → R → Prop} {hist hist' : List (Event D Q R)} (h : AllGood good hist')
    (hs : hist <:+ hist') : AllGood good hist := fun q r hmem => h q r (hs.subset hmem)

/-- There is a run with good answers. -/
theorem runs_good {good : Q → R → Prop} {answer : Q → R} (h : ∀ q, good q (answer q)) (p : Prog D Q R α)
    {w : World D Q R} (hall : AllGood good w.hist) :
    ∃ w' a, Runs p w w' (some a) ∧ AllGood good w'.hist := by
  induction p generalizing w with
  | ret a => exact ⟨w, a, .ret a w, hall⟩
  | look k ih =>
      obtain ⟨w', a, hrun, hgood⟩ := ih w.disk hall
      exact ⟨w', a, .look hrun, hgood⟩
  | write f next ih =>
      have hwrote : AllGood good (w.wrote (f w.disk)).hist := by
        intro q r hmem
        rcases List.mem_cons.mp hmem with heq | hmem
        · cases heq
        · exact hall q r hmem
      obtain ⟨w', a, hrun, hgood⟩ := ih hwrote
      exact ⟨w', a, .write hrun, hgood⟩
  | call q k ih =>
      have hpush : AllGood good (w.push (.answered q (answer q))).hist := by
        intro q' r hmem
        rcases List.mem_cons.mp hmem with heq | hmem
        · cases heq
          exact h q
        · exact hall q' r hmem
      obtain ⟨w', a, hrun, hgood⟩ := ih (answer q) hpush
      exact ⟨w', a, .answered _ hrun, hgood⟩

/-- Where every answer is good, a run that ends satisfies `post`. -/
def Under (good : Q → R → Prop) (p : Prog D Q R α) (w : World D Q R)
    (post : α → World D Q R → Prop) : Prop :=
  ∀ ⦃w' a⦄, Runs p w w' (some a) → AllGood good w'.hist → post a w'

section Under

variable {good : Q → R → Prop} {w : World D Q R} {post : α → World D Q R → Prop}

theorem Under.ret {a : α} (h : post a w) : Under good (.ret a) w post := by
  intro w' b hrun _
  obtain ⟨rfl, rfl⟩ := runs_ret_some hrun
  exact h

theorem Under.look {k : D → Prog D Q R α} (h : Under good (k w.disk) w post) :
    Under good (.look k) w post := by
  intro w' b hrun hall
  rcases runs_look hrun with ⟨-, hr⟩ | hrun
  · cases hr
  · exact h hrun hall

theorem Under.write {f : D → D} {next : Prog D Q R α} (h : Under good next (w.wrote (f w.disk)) post) :
    Under good (.write f next) w post := by
  intro w' b hrun hall
  rcases runs_write hrun with ⟨-, hr⟩ | hrun
  · cases hr
  · exact h hrun hall

theorem Under.call {q : Q} {k : R → Prog D Q R α}
    (h : ∀ r, good q r → Under good (k r) (w.push (.answered q r)) post) :
    Under good (.call q k) w post := by
  intro w' b hrun hall
  rcases runs_call hrun with ⟨-, hr⟩ | ⟨-, hr⟩ | ⟨r, hrun⟩
  · cases hr
  · cases hr
  · exact h r (hall q r ((runs_suffix hrun).subset List.mem_cons_self)) hrun hall

theorem Under.bind {p : Prog D Q R β} {f : β → Prog D Q R α} {mid : β → World D Q R → Prop}
    (hp : Under good p w mid) (hf : ∀ b w₁, mid b w₁ → Under good (f b) w₁ post) :
    Under good (p.bind f) w post := by
  intro w' a hrun hall
  rcases runs_bind hrun with ⟨-, hr⟩ | ⟨b, w₁, h₁, h₂⟩
  · cases hr
  · exact hf b w₁ (hp h₁ (hall.suffix (runs_suffix h₂))) h₂ hall

theorem Under.mono {p : Prog D Q R α} {post' : α → World D Q R → Prop} (h : Under good p w post)
    (hpost : ∀ a w', w.hist <:+ w'.hist → post a w' → post' a w') : Under good p w post' :=
  fun w' a hrun hall => hpost a w' (runs_suffix hrun) (h hrun hall)

end Under

/-- Where every answer is good, the program returns as `ok` says, or raises as `err` says. -/
def Ends (good : Q → R → Prop) (x : Raising ε D Q R α) (w : World D Q R)
    (ok : α → World D Q R → Prop) (err : World D Q R → Prop) : Prop :=
  Under good x.run w fun r w' => match r with
    | .ok a    => ok a w'
    | .error _ => err w'

section Ends

variable {good : Q → R → Prop} {w : World D Q R} {ok : α → World D Q R → Prop}
  {err : World D Q R → Prop}

theorem Ends.pure {a : α} (h : ok a w) : Ends good (Pure.pure a : Raising ε D Q R α) w ok err := .ret h

theorem Ends.throw {e : ε} (h : err w) : Ends good (throw e : Raising ε D Q R α) w ok err := .ret h

theorem Ends.bind {x : Raising ε D Q R β} {f : β → Raising ε D Q R α} {mid : β → World D Q R → Prop}
    (hx : Ends good x w mid err) (hf : ∀ b w₁, mid b w₁ → Ends good (f b) w₁ ok err) :
    Ends good (x >>= f) w ok err := by
  unfold Ends
  rw [run_bind]
  refine Under.bind hx fun r w₁ hr => ?_
  cases r with
  | ok b => exact hf b w₁ hr
  | error e => exact .ret hr

theorem Ends.mono {x : Raising ε D Q R α} {ok' : α → World D Q R → Prop} {err' : World D Q R → Prop}
    (h : Ends good x w ok err) (hok : ∀ a w', ok a w' → ok' a w') (herr : ∀ w', err w' → err' w') :
    Ends good x w ok' err' := by
  refine Under.mono h fun r w' _ hr => ?_
  cases r with
  | ok a => exact hok a w' hr
  | error e => exact herr w' hr

theorem ends_ask {answer : R → Except ε α} {q : Q}
    (h : ∀ r, good q r → match answer r with
      | .ok a    => ok a (w.push (.answered q r))
      | .error _ => err (w.push (.answered q r))) :
    Ends good (ask answer q : Raising ε D Q R α) w ok err := .call fun r hr => .ret (h r hr)

theorem ends_readStore : Ends good (readStore : Raising ε D Q R D) w (fun d w' => d = w.disk ∧ w' = w) err :=
  .look (.ret ⟨rfl, rfl⟩)

theorem ends_modify (f : D → D) :
    Ends good (modify f : Raising ε D Q R Unit) w (fun _ w' => w' = w.wrote (f w.disk)) err :=
  .write (.ret rfl)

end Ends

/-- Where every answer is good, a run that ends returns, and what it returned satisfies `post`. -/
def Sure (good : Q → R → Prop) (x : Raising ε D Q R α) (w : World D Q R)
    (post : α → World D Q R → Prop) : Prop :=
  Under good x.run w fun r w' => ∃ a, r = .ok a ∧ post a w'

section Sure

variable {good : Q → R → Prop} {w : World D Q R} {post : α → World D Q R → Prop}

theorem sure_ret {r : Except ε α} {a : α} (hr : r = .ok a) (h : post a w) :
    Sure good (ExceptT.mk (.ret r) : Raising ε D Q R α) w post := .ret ⟨a, hr, h⟩

theorem sure_pure {a : α} (h : post a w) : Sure good (pure a : Raising ε D Q R α) w post := sure_ret rfl h

theorem sure_ask {answer : R → Except ε α} {q : Q} (h : ∀ r, good q r → ∃ a, answer r = .ok a) :
    Sure good (ask answer q : Raising ε D Q R α) w fun a w' =>
      ∃ r, good q r ∧ answer r = .ok a ∧ w' = w.push (.answered q r) := by
  refine .call fun r hr => .ret ?_
  obtain ⟨a, ha⟩ := h r hr
  exact ⟨a, ha, r, hr, ha, rfl⟩

theorem sure_readStore :
    Sure good (readStore : Raising ε D Q R D) w fun d w' => d = w.disk ∧ w' = w :=
  .look (.ret ⟨_, rfl, rfl, rfl⟩)

theorem sure_modify (f : D → D) :
    Sure good (modify f : Raising ε D Q R Unit) w fun _ w' => w' = w.wrote (f w.disk) :=
  .write (.ret ⟨(), rfl, rfl⟩)

theorem Sure.bind {x : Raising ε D Q R β} {f : β → Raising ε D Q R α} {mid : β → World D Q R → Prop}
    (hx : Sure good x w mid) (hf : ∀ b w₁, mid b w₁ → Sure good (f b) w₁ post) :
    Sure good (x >>= f) w post := by
  unfold Sure
  rw [run_bind]
  refine Under.bind hx ?_
  rintro _ w₁ ⟨b, rfl, hmid⟩
  exact hf b w₁ hmid

theorem Sure.rescue {caught : ε → Bool} {x : Raising ε D Q R α} {handler : ε → Raising ε D Q R α}
    (hx : Sure good x w post) : Sure good (Durable.rescue caught x handler) w post := by
  refine Under.bind hx ?_
  rintro _ w₁ ⟨a, rfl, hmid⟩
  exact .ret ⟨a, rfl, hmid⟩

theorem Sure.mono {x : Raising ε D Q R α} {post' : α → World D Q R → Prop} (h : Sure good x w post)
    (hpost : ∀ a w', w.hist <:+ w'.hist → post a w' → post' a w') : Sure good x w post' := by
  refine Under.mono h ?_
  rintro _ w' hsuffix ⟨a, rfl, hmid⟩
  exact ⟨a, rfl, hpost a w' hsuffix hmid⟩

end Sure

end Durable
end PickleInfra
