import PickleInfra.Discord.Moves

/-!
# `Discord.Keys` — a sequence of runs, as one key sees it

Every invariant of the outbox but the bound on its length is about one key. `World.key` projects a
world to a key: its view of the state, and the history of its persisted views and of the calls of the
sender for its items. `run_key` says what a run does there, and `Reachable.key_invariant` is the
induction over every sequence of runs, killed anywhere.
-/

namespace PickleInfra
namespace Discord

open Python Durable History
open Relation (ReflTransGen)

/-! ## The projection -/

/-- What happens to a key: its view is persisted, or the sender is called for one of its items. -/
inductive KeyEvent where
  | saw (v : View)
  | call (post : Post) (outcome : Option Outcome)

/-- The view of a key, and its history, newest event first. -/
structure KeyWorld where
  view : View
  hist : List KeyEvent

def KeyWorld.saved (k : KeyWorld) (v : View) : KeyWorld := ⟨v, .saw v :: k.hist⟩

def KeyWorld.called (k : KeyWorld) (post : Post) (outcome : Option Outcome) : KeyWorld :=
  ⟨k.view, .call post outcome :: k.hist⟩

@[simp] theorem saved_view (k : KeyWorld) (v : View) : (k.saved v).view = v := rfl
@[simp] theorem saved_hist (k : KeyWorld) (v : View) : (k.saved v).hist = .saw v :: k.hist := rfl
@[simp] theorem called_view (k : KeyWorld) (p : Post) (a : Option Outcome) :
    (k.called p a).view = k.view := rfl
@[simp] theorem called_hist (k : KeyWorld) (p : Post) (a : Option Outcome) :
    (k.called p a).hist = .call p a :: k.hist := rfl

/-- What a key sees of an event. -/
def keyEvent (o : Option Key) : AlertEvent → Option KeyEvent
  | .wrote d           => d.map (fun s => .saw (s.view o))
  | .answered q answer => if q.item.id.key? = o then some (.call q (some answer)) else none
  | .lost q            => if q.item.id.key? = o then some (.call q none) else none

def keyHist (o : Option Key) (hist : List AlertEvent) : List KeyEvent := hist.filterMap (keyEvent o)

/-- The world as a key sees it. -/
def keyWorld (o : Option Key) (w : AlertWorld) : KeyWorld :=
  ⟨(loaded w.disk).view o, keyHist o w.hist⟩

/-- Before the first run. -/
def KeyWorld.start : KeyWorld := ⟨⟨none, [], false⟩, []⟩

@[simp] theorem keyWorld_start (o : Option Key) : keyWorld o ⟨none, []⟩ = .start := by
  cases o with
  | none => rfl
  | some key => simp [keyWorld, KeyWorld.start, loaded, State.view, keyHist]

@[simp] theorem keyWorld_wrote (o : Option Key) (w : AlertWorld) (s : State) :
    keyWorld o (w.wrote (some s)) = (keyWorld o w).saved (s.view o) := rfl

theorem keyWorld_call {o : Option Key} {w : AlertWorld} {e : AlertEvent} {q : Post}
    {answer : Option Outcome} (he : e.call? = some (q, answer)) :
    keyWorld o (w.push e) =
      if q.item.id.key? = o then (keyWorld o w).called q answer else keyWorld o w := by
  have hevent : keyEvent o e = if q.item.id.key? = o then some (.call q answer) else none := by
    cases e with
    | wrote d => simp at he
    | answered q' a => simp only [Event.call?_answered, Option.some.injEq, Prod.mk.injEq] at he
                       obtain ⟨rfl, rfl⟩ := he; rfl
    | lost q' => simp only [Event.call?_lost, Option.some.injEq, Prod.mk.injEq] at he
                 obtain ⟨rfl, rfl⟩ := he; rfl
  unfold keyWorld keyHist
  rw [World.push_hist, World.push_disk, List.filterMap_cons, hevent]
  by_cases ho : q.item.id.key? = o
  · rw [if_pos ho, if_pos ho]; rfl
  · rw [if_neg ho, if_neg ho]

/-! ## Moves of a key -/

/-- The view with one item replaced, and the receipt it may leave. -/
def View.replace (v : View) (done : List Item) (item : Item) (rest : List Item) : View :=
  { v with cursor := v.cursor.map (Cursor.remember · item), items := done ++ item :: rest }

@[simp] theorem replace_items (v : View) (done : List Item) (item : Item) (rest : List Item) :
    (v.replace done item rest).items = done ++ item :: rest := rfl
@[simp] theorem replace_cursor (v : View) (done : List Item) (item : Item) (rest : List Item) :
    (v.replace done item rest).cursor = v.cursor.map (Cursor.remember · item) := rfl
@[simp] theorem replace_tested (v : View) (done : List Item) (item : Item) (rest : List Item) :
    (v.replace done item rest).tested = v.tested := rfl

/-- Only an item that was handed over leaves a receipt. -/
theorem remember_of_not_handed {item : Item} (hs : item.delivery ≠ .sent)
    (hu : item.delivery ≠ .uncertain) (cursor : Cursor) : cursor.remember item = cursor := by
  unfold Cursor.remember
  split
  · split
    · rw [if_neg (by simp [hs, hu])]
    · rfl
  · rfl

theorem replace_of_not_handed {v : View} {done rest : List Item} {item : Item}
    (hs : item.delivery ≠ .sent) (hu : item.delivery ≠ .uncertain) :
    v.replace done item rest = { v with items := done ++ item :: rest } := by
  have hid : v.cursor.map (Cursor.remember · item) = v.cursor := by
    rw [funext (remember_of_not_handed hs hu)]
    exact Option.map_id'
  rw [View.replace, hid]

/-- The item that is handed to the sender next, in a run with input `x`. -/
structure Due (x : RunInput) (eligible : List ItemId) (v : View) (done : List Item) (item : Item)
    (rest : List Item) : Prop where
  split : v.items = done ++ item :: rest
  tries : x.tries eligible item = true
  attempts : item.attempts < maxAttempts
  done : ∀ j ∈ done, x.tries eligible j = false

/-- The world after the claim of an item. -/
def KeyWorld.claim (k : KeyWorld) (done : List Item) (item : Item) (rest : List Item) : KeyWorld :=
  k.saved (k.view.replace done item.claimed rest)

/-- What a run does to a key after its first write. -/
inductive KeyMove (x : RunInput) (eligible : List ItemId) (k : KeyWorld) : KeyWorld → Prop
  | saved : KeyMove x eligible k (k.saved k.view)
  | settled {done rest : List Item} {item : Item} (hsplit : k.view.items = done ++ item :: rest)
      (hitem : item.delivery = .attempted) :
      KeyMove x eligible k (k.saved (k.view.replace done item.interrupted rest))
  | exhausted {done rest : List Item} {item : Item} (hsplit : k.view.items = done ++ item :: rest)
      (hitem : item.delivery = .pending) :
      KeyMove x eligible k (k.saved (k.view.replace done item.exhausted rest))
  | claimed {done rest : List Item} {item : Item} (h : Due x eligible k.view done item rest) :
      KeyMove x eligible k (k.claim done item rest)
  | called {done rest : List Item} {item : Item} (h : Due x eligible k.view done item rest)
      (answer : Option Outcome) :
      KeyMove x eligible k ((k.claim done item rest).called ⟨item.claimed, x.now⟩ answer)
  | recorded {done rest : List Item} {item : Item} (h : Due x eligible k.view done item rest)
      (outcome : Outcome) :
      KeyMove x eligible k (((k.claim done item rest).called ⟨item.claimed, x.now⟩
        (some outcome)).saved (k.view.replace done (item.claimed.recorded x.now outcome) rest))

/-! ## Moves project to moves -/

section Project

variable {x : RunInput} {eligible : List ItemId} {s : State} {done rest : List Item}
  {item item' : Item}

@[simp] theorem interrupted_id (item : Item) : item.interrupted.id = item.id := rfl
@[simp] theorem claimed_id (item : Item) : item.claimed.id = item.id := rfl
@[simp] theorem exhausted_id (item : Item) : item.exhausted.id = item.id := rfl

@[simp] theorem recorded_id (item : Item) (now : ℚ) (outcome : Outcome) :
    (item.recorded now outcome).id = item.id := by
  cases outcome with
  | sent | uncertain | failed | raised | rateLimited => rfl
  | rejected => simp only [Item.recorded]; split <;> rfl

@[simp] theorem recorded_service (item : Item) (now : ℚ) (outcome : Outcome) :
    (item.recorded now outcome).service = item.service := by
  cases outcome with
  | sent | uncertain | failed | raised | rateLimited => rfl
  | rejected => simp only [Item.recorded]; split <;> rfl

theorem split_key (o : Option Key) (hsplit : s.outbox = done ++ item :: rest)
    (ho : item.id.key? = o) : (s.view o).items =
      done.filter (fun i => i.id.key? = o) ++ item :: rest.filter (fun i => i.id.key? = o) := by
  simp [State.view, hsplit, ho]

/-- One item replaced, as a key sees it. -/
theorem view_replace (o : Option Key) (hsplit : s.outbox = done ++ item :: rest)
    (hid : item'.id = item.id) :
    (s.replace done item' rest).view o =
      if item.id.key? = o then (s.view o).replace (done.filter (fun i => i.id.key? = o)) item'
        (rest.filter (fun i => i.id.key? = o))
      else s.view o := by
  unfold State.view State.replace View.replace
  rw [remember_outbox, remember_testEnqueued]
  by_cases ho : item.id.key? = o
  · rw [if_pos ho]
    refine (View.mk.injEq ..).mpr ⟨?_, ?_, rfl⟩
    · cases o with
      | none => rfl
      | some key =>
          rw [Option.bind_some, remember_observations, hid, if_pos ho]
          rfl
    · simp [hid, ho]
  · rw [if_neg ho]
    refine (View.mk.injEq ..).mpr ⟨?_, ?_, rfl⟩
    · cases o with
      | none => rfl
      | some key =>
          rw [Option.bind_some, remember_observations, hid, if_neg ho]
          rfl
    · simp [hid, ho, hsplit]

/-- One item replaced by one that leaves no receipt. -/
theorem view_put (o : Option Key) (hsplit : s.outbox = done ++ item :: rest)
    (hid : item'.id = item.id) (hs : item'.delivery ≠ .sent) (hu : item'.delivery ≠ .uncertain) :
    ({ s with outbox := done ++ item' :: rest } : State).view o =
      if item.id.key? = o then (s.view o).replace (done.filter (fun i => i.id.key? = o)) item'
        (rest.filter (fun i => i.id.key? = o))
      else s.view o := by
  rw [replace_of_not_handed hs hu]
  unfold State.view
  by_cases ho : item.id.key? = o
  · simp [hid, ho]
  · simp [hid, ho, hsplit]

/-- Claiming does not matter once the answer is recorded. -/
theorem replace_claimed (v : View) (done : List Item) (item item' : Item) (rest : List Item) :
    (v.replace done item.claimed rest).replace done item' rest = v.replace done item' rest := by
  have hclaimed : v.replace done item.claimed rest =
      { v with items := done ++ item.claimed :: rest } :=
    replace_of_not_handed (by simp [Item.claimed]) (by simp [Item.claimed])
  rw [hclaimed]
  rfl

theorem record_eq_replace (o : Option Key) (now : ℚ) (outcome : Outcome) :
    (s.record done item rest now outcome).view o =
      (s.replace done (item.recorded now outcome) rest).view o := by
  unfold State.view State.record State.replace
  rw [remember_outbox, remember_outbox, remember_testEnqueued, remember_testEnqueued]
  refine (View.mk.injEq ..).mpr ⟨?_, rfl, rfl⟩
  cases o with
  | none => rfl
  | some key => rw [Option.bind_some, Option.bind_some, remember_observations, remember_observations]

theorem record_view (o : Option Key) (now : ℚ) (outcome : Outcome)
    (hsplit : s.outbox = done ++ item :: rest) :
    (s.record done item rest now outcome).view o =
      if item.id.key? = o then (s.view o).replace (done.filter (fun i => i.id.key? = o))
        (item.recorded now outcome) (rest.filter (fun i => i.id.key? = o))
      else s.view o :=
  (record_eq_replace o now outcome).trans (view_replace o hsplit (recorded_id _ _ _))

/-- **A move of a run**, as a key sees it. -/
theorem move_key {w w' : AlertWorld} (o : Option Key) (h : Move x eligible w w') :
    ReflTransGen (KeyMove x eligible) (keyWorld o w) (keyWorld o w') := by
  have hview : ∀ {s : State}, w.disk = some s → (keyWorld o w).view = s.view o := by
    intro s hs
    rw [keyWorld, hs]; rfl
  have hput : ∀ {s : State} {v : View}, w.disk = some s → s.view o = v →
      KeyMove x eligible (keyWorld o w) ((keyWorld o w).saved v) := by
    intro s v hs hv
    rw [← hv, ← hview hs]
    exact .saved
  cases h with
  | settled hs hsplit hitem =>
      rw [keyWorld_wrote, view_replace o hsplit (interrupted_id _)]
      split
      · next ho =>
        rw [← hview hs]
        exact .single (.settled ((congrArg View.items (hview hs)).trans (split_key o hsplit ho)) hitem)
      · exact .single (hput hs rfl)
  | exhausted hs hsplit hitem =>
      rw [keyWorld_wrote, view_put o hsplit (exhausted_id _) (by simp [Item.exhausted])
        (by simp [Item.exhausted])]
      split
      · next ho =>
        rw [← hview hs]
        exact .single (.exhausted ((congrArg View.items (hview hs)).trans (split_key o hsplit ho)) hitem)
      · exact .single (hput hs rfl)
  | @posted _ s done rest item hs hsplit htries hattempts hfree hdone he =>
      have hclaim := view_put o hsplit (claimed_id item) (by simp [Item.claimed])
        (by simp [Item.claimed])
      have hrecord := fun outcome => record_view (s := { s with outbox := done ++ item.claimed :: rest })
        o x.now outcome rfl
      simp only [claimed_id, hclaim] at hrecord
      by_cases ho : item.id.key? = o
      · simp only [if_pos ho, replace_claimed] at hclaim hrecord
        rw [← hview hs] at hclaim hrecord
        have hdue : Due x eligible (keyWorld o w).view (done.filter (fun i => i.id.key? = o)) item
            (rest.filter (fun i => i.id.key? = o)) :=
          ⟨(congrArg View.items (hview hs)).trans (split_key o hsplit ho), htries, hattempts,
            fun j hj => hdone j (List.mem_filter.mp hj).1⟩
        cases he with
        | claimed =>
            rw [keyWorld_wrote, hclaim]
            exact .single (.claimed hdue)
        | lost =>
            rw [keyWorld_call (Event.call?_lost _), claimed_id, if_pos ho, keyWorld_wrote, hclaim]
            exact .single (.called hdue none)
        | answered a =>
            rw [keyWorld_call (Event.call?_answered _ _), claimed_id, if_pos ho, keyWorld_wrote,
              hclaim]
            exact .single (.called hdue (some a))
        | recorded a =>
            rw [World.recorded, keyWorld_wrote, keyWorld_call (Event.call?_answered _ _), claimed_id,
              if_pos ho, keyWorld_wrote, hclaim, hrecord]
            exact .single (.recorded hdue a)
      · simp only [if_neg ho] at hclaim hrecord
        have hfirst := hput hs hclaim.symm
        cases he with
        | claimed => exact .single hfirst
        | lost =>
            rw [keyWorld_call (Event.call?_lost _), claimed_id, if_neg ho]
            exact .single hfirst
        | answered a =>
            rw [keyWorld_call (Event.call?_answered _ _), claimed_id, if_neg ho]
            exact .single hfirst
        | recorded a =>
            rw [World.recorded, keyWorld_wrote, keyWorld_call (Event.call?_answered _ _), claimed_id,
              if_neg ho, keyWorld_wrote, hrecord]
            refine .tail (.single hfirst) ?_
            rw [hclaim]
            exact .saved

theorem moves_key {w w' : AlertWorld} (o : Option Key) (h : ReflTransGen (Move x eligible) w w') :
    ReflTransGen (KeyMove x eligible) (keyWorld o w) (keyWorld o w') := by
  induction h with
  | refl => exact .refl
  | tail _ hm ih => exact ih.trans (move_key o hm)

end Project

/-! ## Runs -/

/-- Where the eligible items of a key come from: they have the identity of one whose tag matches what
    this run has accepted for the key. -/
def EligibleKey (x : RunInput) (o : Option Key) (v v' : View) (eligible : List ItemId) : Prop :=
  ∀ id ∈ eligible, id.key? = o → x.testMessage = false ∧ ∃ source ∈ x.config.sources,
    ∃ dimension ∈ source.dimensions, source.kind.isService = true ∧
      o = some (source.name, dimension) ∧ ∃ r, x.report source dimension = some r ∧
        Accepted v (some r) ∧ ∃ item ∈ v'.items, item.id = id ∧
          ∃ tag, item.service = some tag ∧ serviceMatches tag r = true

/-- What a run does to a key. -/
inductive KeyRun (x : RunInput) (o : Option Key) (k : KeyWorld) : KeyWorld → Prop
  | none : KeyRun x o k k
  | moves {v v' : View} {eligible : List ItemId} {k' : KeyWorld} (hprune : PrunedView k.view v)
      (hprepare : ViewPrepared x o v v') (heligible : EligibleKey x o k.view v' eligible)
      (hmoves : ReflTransGen (KeyMove x eligible) (k.saved v') k') : KeyRun x o k k'

/-- **A run**, as a key sees it. -/
theorem run_key {x : RunInput} {w w' : AlertWorld} {r} (o : Option Key)
    (h : Runs (run x) w w' r) : KeyRun x o (keyWorld o w) (keyWorld o w') := by
  rcases run_cases h with rfl | ⟨s, eligible, hp, hmoves⟩
  · exact .none
  have hspec := prepare_spec hp
  obtain ⟨v, hprune, hprepare⟩ := hspec.views o
  refine .moves hprune hprepare ?_ (keyWorld_wrote o w s ▸ moves_key o hmoves)
  intro id hid ho
  obtain ⟨htest, source, hs, d, hd, hk, r, hr, hacc, item, hm, hitem, tag, htag⟩ :=
    hspec.eligible id hid
  have hkey : o = some (source.name, d) := by
    have hfilter := (List.mem_filter.mp hm).2
    rw [decide_eq_true_eq, hitem] at hfilter
    exact ho.symm.trans hfilter
  subst hkey
  exact ⟨htest, source, hs, d, hd, hk, rfl, r, hr, hacc, item, hm, hitem, tag, htag⟩

/-- **The induction over sequences of runs**: an invariant of a key that every first write and every
    move keeps holds in every reachable world. -/
theorem Reachable.key_invariant {C : RunInput → AlertWorld → AlertWorld → Prop} {P : RunInput → Prop}
    {o : Option Key} {I : KeyWorld → Prop} (hP : ∀ x w w', C x w w' → P x) (hstart : I .start)
    (hfirst : ∀ {x k v v'}, P x → I k → PrunedView k.view v → ViewPrepared x o v v' → I (k.saved v'))
    (hmove : ∀ {x eligible k k'}, P x → I k → KeyMove x eligible k k' → I k')
    {w : AlertWorld} (h : Reachable C w) : I (keyWorld o w) := by
  induction h with
  | start => rw [keyWorld_start]; exact hstart
  | @run _ w' _ x _ hrun hc ih =>
      have hkey := run_key o hrun
      generalize keyWorld o w' = k' at hkey ⊢
      cases hkey with
      | none => exact ih
      | moves hprune hprepare _ hmoves =>
          exact invariant_of_moves (I := I) (fun _ _ hk hm => hmove (hP _ _ _ hc) hk hm)
            (hfirst (hP _ _ _ hc) ih hprune hprepare) hmoves

end Discord
end PickleInfra
