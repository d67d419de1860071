import PickleInfra.Durable.History
import PickleInfra.Discord.Prepare

/-!
# `Discord.Moves` — a run as its first write and moves, and all sequences of runs

After its first write a run settles interrupted claims and hands due items to the webhook. Each such
step replaces one item in the outbox (`Move`). `reachable_views` is the induction over every sequence
of runs, killed anywhere: an invariant of the view of a key, kept by the first write of every run and
by each replacement of an item of that key, holds in every reachable world.
-/

namespace PickleInfra
namespace Discord

open Python Durable History
open Relation (ReflTransGen)

abbrev AlertEvent := Event (Option State) Post Outcome
abbrev AlertWorld := World (Option State) Post Outcome

/-! ## Moves -/

/-- The state with one item replaced, and the receipt it may leave. -/
def State.replace (s : State) (done : List Item) (item : Item) (rest : List Item) : State :=
  ({ s with outbox := done ++ item :: rest }).remember item

/-- What a run does after its first write. -/
inductive Move (x : RunInput) (eligible : List ItemId) : AlertWorld → AlertWorld → Prop
  | settled {w : AlertWorld} {s : State} {done rest : List Item} {item : Item}
      (hs : w.disk = some s) (hsplit : s.outbox = done ++ item :: rest)
      (hitem : item.delivery = .attempted) :
      Move x eligible w (w.wrote (some (s.replace done item.interrupted rest)))
  | exhausted {w : AlertWorld} {s : State} {done rest : List Item} {item : Item}
      (hs : w.disk = some s) (hsplit : s.outbox = done ++ item :: rest)
      (hitem : item.delivery = .pending) :
      Move x eligible w (w.wrote (some { s with outbox := done ++ item.exhausted :: rest }))
  | posted {w w' : AlertWorld} {s : State} {done rest : List Item} {item : Item}
      (hs : w.disk = some s) (hsplit : s.outbox = done ++ item :: rest)
      (htries : x.tries eligible item = true) (hattempts : item.attempts < maxAttempts)
      (hfree : s.webhookRetryAfter.getD 0 ≤ x.now)
      (hdone : ∀ j ∈ done, x.tries eligible j = false)
      (he : Episode (fun _ => some { s with outbox := done ++ item.claimed :: rest })
        ⟨item.claimed, x.now⟩
        (fun outcome _ => some (State.record { s with outbox := done ++ item.claimed :: rest }
          done item.claimed rest x.now outcome)) w w') :
      Move x eligible w w'

/-! ## `dispatch` makes moves -/

section Remember

variable (s : State) (item : Item)

@[simp] theorem remember_outbox : (s.remember item).outbox = s.outbox := by
  unfold State.remember
  split
  · rfl
  · split <;> rfl

@[simp] theorem remember_webhookRetryAfter :
    (s.remember item).webhookRetryAfter = s.webhookRetryAfter := by
  unfold State.remember
  split
  · rfl
  · split <;> rfl

@[simp] theorem remember_testEnqueued : (s.remember item).testEnqueued = s.testEnqueued := by
  unfold State.remember
  split
  · rfl
  · split <;> rfl

/-- Only the cursor of the item's key may change. -/
theorem remember_observations (key : Key) :
    (s.remember item).observations.get? key =
      if item.id.key? = some key then (s.observations.get? key).map (Cursor.remember · item)
      else s.observations.get? key := by
  unfold State.remember
  cases hid : item.id with
  | connectionTest => simp [ItemId.key?]
  | event key' n =>
      simp only [ItemId.key?, Option.some.injEq]
      by_cases hk : key' = key
      · subst hk
        cases hc : s.observations.get? key' with
        | none => simp [hc]
        | some cursor => simp
      · rw [if_neg hk]
        cases hc : s.observations.get? key' with
        | none => rfl
        | some cursor => exact Dict.get?_set_ne _ _ hk

end Remember

@[simp] theorem record_outbox (s : State) (done : List Item) (item : Item) (rest : List Item)
    (now : ℚ) (outcome : Outcome) :
    (s.record done item rest now outcome).outbox = done ++ item.recorded now outcome :: rest :=
  remember_outbox _ _

@[simp] theorem record_testEnqueued (s : State) (done : List Item) (item : Item) (rest : List Item)
    (now : ℚ) (outcome : Outcome) :
    (s.record done item rest now outcome).testEnqueued = s.testEnqueued := remember_testEnqueued _ _

/-- Only a rate limit holds the webhook back. -/
theorem record_webhookRetryAfter {s : State} {done : List Item} {item : Item} {rest : List Item}
    {now : ℚ} {outcome : Outcome} (h : ∀ d, outcome ≠ .rateLimited d) :
    (s.record done item rest now outcome).webhookRetryAfter = s.webhookRetryAfter := by
  refine (remember_webhookRetryAfter _ _).trans ?_
  cases outcome with
  | rateLimited d => exact absurd rfl (h d)
  | sent | uncertain | failed | raised | rejected => rfl

theorem settle_follows (x : RunInput) (eligible : List ItemId) {done todo : List Item} {s : State}
    {w : AlertWorld} (hw : w.disk = some s) (hsplit : s.outbox = done ++ todo) :
    Follows (Move x eligible) (settle x.testMessage done todo s) w
      (fun s' w' => w'.disk = some s') := by
  induction todo generalizing done s w with
  | nil => exact .ret hw
  | cons item rest ih =>
      unfold settle
      split
      · next hc =>
        rw [Bool.and_eq_true, decide_eq_true_eq] at hc
        refine .write (.settled hw hsplit hc.1) (ih rfl ?_)
        rw [remember_outbox, List.append_assoc]
        rfl
      · exact ih hw (by rw [hsplit, List.append_assoc]; rfl)

/-- An item whose attempt has been recorded is not tried again by this run. -/
theorem tries_recorded {x : RunInput} {eligible : List ItemId} {item : Item} {outcome : Outcome}
    (h : ∀ d, outcome ≠ .rateLimited d) :
    x.tries eligible (item.recorded x.now outcome) = false := by
  have hpending : ∀ i : Item, i.delivery ≠ .pending ∨ x.now < i.nextAttempt →
      x.tries eligible i = false := by
    rintro i (hd | hn)
    · simp [RunInput.tries, hd]
    · simp [RunInput.tries, hn]
  cases outcome with
  | sent | uncertain | failed | raised => exact hpending _ (.inl (by simp [Item.recorded]))
  | rateLimited d => exact absurd rfl (h d)
  | rejected =>
      simp only [Item.recorded]
      split
      · exact hpending _ (.inl (by simp [Item.exhausted]))
      · refine hpending _ (.inr ?_)
        dsimp only
        split <;> linarith

theorem tries_pending {x : RunInput} {eligible : List ItemId} {item : Item}
    (h : x.tries eligible item = true) :
    item.delivery = .pending ∧ item.nextAttempt ≤ x.now := by
  simp only [RunInput.tries, Bool.and_eq_true, decide_eq_true_eq] at h
  exact ⟨h.1.2, h.2⟩

theorem sendDue_follows (x : RunInput) (eligible : List ItemId) {done todo : List Item}
    {attempted sent : Nat} {s : State} {w : AlertWorld} (hw : w.disk = some s)
    (hsplit : s.outbox = done ++ todo) (hfree : s.webhookRetryAfter.getD 0 ≤ x.now)
    (hdone : ∀ j ∈ done, x.tries eligible j = false) :
    Follows (Move x eligible) (sendDue x eligible done todo attempted sent s) w
      (fun _ _ => True) := by
  induction todo generalizing done attempted sent s w with
  | nil => exact .ret trivial
  | cons item rest ih =>
      have hsnoc : ∀ i : Item, x.tries eligible i = false →
          ∀ j ∈ done ++ [i], x.tries eligible j = false := by
        intro i hi j hj
        rcases List.mem_append.mp hj with hj | hj
        · exact hdone j hj
        · rw [List.mem_singleton.mp hj]; exact hi
      have hshift : ∀ i : Item, done ++ i :: rest = (done ++ [i]) ++ rest := fun i => by
        rw [List.append_assoc]; rfl
      unfold sendDue
      cases htries : x.tries eligible item with
      | false => exact ih hw (hsplit.trans (hshift item)) hfree (hsnoc item htries)
      | true =>
          simp only [Bool.not_true, Bool.false_eq_true, if_false]
          split
          · exact .ret trivial
          split
          · refine .write (.exhausted hw hsplit (tries_pending htries).1) ?_
            refine ih rfl (hshift _) hfree (hsnoc _ ?_)
            simp [RunInput.tries, Item.exhausted]
          · next hattempts =>
            refine .attempt (fun w' he => .posted hw hsplit htries (not_le.mp hattempts) hfree
              hdone he) fun outcome => ?_
            have hnext : (∀ d, outcome ≠ .rateLimited d) → ∀ attempted sent,
                Follows (Move x eligible)
                  (sendDue x eligible (done ++ [item.claimed.recorded x.now outcome]) rest attempted
                    sent (State.record { s with outbox := done ++ item.claimed :: rest } done
                      item.claimed rest x.now outcome))
                  (w.recorded (fun _ => some { s with outbox := done ++ item.claimed :: rest })
                    ⟨item.claimed, x.now⟩ (fun outcome _ => some (State.record
                      { s with outbox := done ++ item.claimed :: rest } done item.claimed rest x.now
                      outcome)) outcome) (fun _ _ => True) := by
              intro hno attempted sent
              refine ih rfl ((record_outbox _ _ _ _ _ _).trans (hshift _)) ?_
                (hsnoc _ (tries_recorded hno))
              rw [record_webhookRetryAfter hno]
              exact hfree
            cases outcome with
            | rateLimited d => exact .ret trivial
            | sent | uncertain | failed | raised | rejected =>
                exact hnext (fun _ h => Outcome.noConfusion h) _ _

theorem dispatch_follows (x : RunInput) (eligible : List ItemId) {s : State} {w : AlertWorld}
    (hw : w.disk = some s) :
    Follows (Move x eligible) (dispatch x eligible s) w (fun _ _ => True) := by
  unfold dispatch
  refine (settle_follows x eligible hw rfl).bind fun s' w' hw' => ?_
  split
  · exact .ret trivial
  · next hfree => exact sendDue_follows x eligible hw' rfl (not_lt.mp hfree) (by simp)

/-- **What a run does**: nothing durable, or its first write and then moves. -/
theorem run_cases {x : RunInput} {w w' : AlertWorld} {r} (h : Runs (run x) w w' r) :
    w' = w ∨ ∃ s eligible, prepare x w.disk = .ok (s, eligible) ∧
      ReflTransGen (Move x eligible) (w.wrote (some s)) w' := by
  unfold run at h
  split at h
  · exact .inl (runs_ret h).1
  rcases runs_look h with ⟨rfl, -⟩ | h
  · exact .inl rfl
  cases hp : prepare x w.disk with
  | error e => rw [hp] at h; exact .inl (runs_ret h).1
  | ok res =>
      obtain ⟨s, eligible⟩ := res
      rw [hp] at h
      rcases runs_write h with ⟨rfl, -⟩ | h
      · exact .inl rfl
      refine .inr ⟨s, eligible, rfl, ?_⟩
      have hfollows : Follows (Move x eligible) ((dispatch x eligible s).bind fun res =>
          .ret (.ok (.of x res.1 res.2) : Except AlertExn RunReport)) (w.wrote (some s))
          (fun _ _ => True) :=
        (dispatch_follows x eligible rfl).bind fun _ _ _ => .ret trivial
      exact (hfollows h).1

/-- The worlds that sequences of runs reach, where every run satisfies `C`. -/
inductive Reachable (C : RunInput → AlertWorld → AlertWorld → Prop) : AlertWorld → Prop
  | start : Reachable C ⟨none, []⟩
  | run {w w' : AlertWorld} {r} (x : RunInput) (h : Reachable C w) (hrun : Runs (run x) w w' r)
      (hc : C x w w') : Reachable C w'

theorem Reachable.mono {C C' : RunInput → AlertWorld → AlertWorld → Prop}
    (hsub : ∀ x w w', C x w w' → C' x w w') {w : AlertWorld} (h : Reachable C w) :
    Reachable C' w := by
  induction h with
  | start => exact .start
  | run x _ hrun hc ih => exact .run x ih hrun (hsub _ _ _ hc)

theorem Reachable.diskAt {C : RunInput → AlertWorld → AlertWorld → Prop} {w : AlertWorld}
    (h : Reachable C w) : w.disk = Durable.diskAt none w.hist := by
  induction h with
  | start => rfl
  | run x _ hrun _ ih => exact runs_diskAt hrun ih

end Discord
end PickleInfra
