import PickleInfra.Discord.Alternation
import PickleInfra.Discord.Delivery

/-!
# `Discord.Order` — when the events of a plain source are sent in order

An item waits for its own `next_attempt`, and nothing makes a later event of its key wait for it. So
an alarm in back-off is overtaken by its recovery as soon as the recovery is due. `plain_in_order`
says that this is the only way: if no run finds, or makes, an item in back-off before a due item of
the same key, every call is made when nothing older of its key is pending.
-/

namespace PickleInfra
namespace Discord

open Python Durable History
open Relation (ReflTransGen)

/-- No call for an item of the key is made while an older item of the key is pending. -/
def CallsInOrder (key : Key) (hist : List AlertEvent) : Prop :=
  CallsSince none (fun q disk => ∀ s, disk = some s → ∀ i ∈ s.outbox,
    ItemId.Before key i.id q.item.id → i.delivery ≠ .pending) [] hist

/-- No item of the key in back-off stands before a due one. -/
def NotOvertaken (key : Key) (now : ℚ) (s : State) : Prop :=
  ∀ i ∈ s.outbox, ∀ j ∈ s.outbox, ItemId.Before key i.id j.id → i.delivery = .pending →
    j.delivery = .pending → j.nextAttempt ≤ now → i.nextAttempt ≤ now

instance (key : Key) (now : ℚ) (s : State) : Decidable (NotOvertaken key now s) :=
  inferInstanceAs (Decidable (∀ i ∈ s.outbox, ∀ j ∈ s.outbox, _))

/-- The run may call the sender for items of the key. -/
def RunInput.handles (x : RunInput) (key : Key) : Prop :=
  x.testMessage = false ∧ key.1 ∈ x.config.sources.map Source.name

/-- The run begins to dispatch the key with no item in back-off before a due one. -/
def StartsCalm (key : Key) (x : RunInput) (disk : Option State) : Prop :=
  ∀ s eligible, prepare x disk = .ok (s, eligible) → x.handles key → s.held ≤ x.now →
    NotOvertaken key x.now s

/-- No item of the key was put back by a rejection before a due one. -/
def RejectionsCalm (key : Key) (hist : List AlertEvent) : Prop :=
  ∀ later q earlier, hist = later ++ .answered q .rejected :: earlier →
    q.item.attempts < maxAttempts → ∀ s, diskAt none earlier = some s → ∀ j ∈ s.outbox,
      ItemId.Before key q.item.id j.id → j.delivery = .pending → q.now < j.nextAttempt

/-- Runs that take the key for one of a plain source. -/
def PlainRuns (key : Key) : RunInput → AlertWorld → AlertWorld → Prop :=
  fun x _ _ => PlainKey key x

/-- And that neither find nor make an item in back-off before a due one. -/
def CalmRuns (key : Key) : RunInput → AlertWorld → AlertWorld → Prop :=
  fun x w w' => PlainKey key x ∧ StartsCalm key x w.disk ∧ RejectionsCalm key w'.hist

theorem RejectionsCalm.tail {key : Key} {e : AlertEvent} {hist : List AlertEvent}
    (h : RejectionsCalm key (e :: hist)) : RejectionsCalm key hist :=
  fun later q earlier hsplit => h (e :: later) q earlier (by rw [hsplit, List.cons_append])

theorem RejectionsCalm.of_suffix {key : Key} {hist hist' : List AlertEvent}
    (h : RejectionsCalm key hist') (hs : hist <:+ hist') : RejectionsCalm key hist := by
  obtain ⟨t, rfl⟩ := hs
  exact fun later q earlier hsplit => h (t ++ later) q earlier (by rw [hsplit, List.append_assoc])

/-- Fewer pending items are overtaken by fewer. -/
theorem NotOvertaken.of_pending {key : Key} {now : ℚ} {s s' : State} (h : NotOvertaken key now s)
    (hsub : ∀ i ∈ s'.outbox, i.delivery = .pending → i ∈ s.outbox) : NotOvertaken key now s' :=
  fun i hi j hj hb hip hjp => h i (hsub i hi hip) j (hsub j hj hjp) hb hip hjp

/-! ## One run -/

/-- A run since its first write, on a plain key. -/
structure InOrder (key : Key) (x : RunInput) (w : AlertWorld) : Prop where
  disk : w.disk = diskAt none w.hist
  state : ∃ s, w.disk = some s ∧ (x.handles key → s.held ≤ x.now → NotOvertaken key x.now s)
  calls : CallsInOrder key w.hist

namespace InOrder

variable {key : Key} {x : RunInput} {w : AlertWorld}

theorem wrote (h : InOrder key x w) {s : State}
    (hs : x.handles key → s.held ≤ x.now → NotOvertaken key x.now s) :
    InOrder key x (w.wrote (some s)) := ⟨rfl, ⟨s, rfl, hs⟩, h.calls.wrote _⟩

theorem called (h : InOrder key x w) {e : AlertEvent} {q : Post} {a : Option Outcome}
    (he : e.call? = some (q, a)) (hq : ∀ s, w.disk = some s → ∀ i ∈ s.outbox,
      ItemId.Before key i.id q.item.id → i.delivery ≠ .pending) : InOrder key x (w.push e) := by
  refine ⟨?_, h.state, h.calls.cons fun q' r hr => ?_⟩
  · have hdisk : diskAt none (e :: w.hist) = diskAt none w.hist := by
      cases e with
      | wrote d => simp at he
      | answered | lost => rfl
    exact h.disk.trans hdisk.symm
  · cases he.symm.trans hr
    rw [← h.disk]
    exact hq

/-- An item that a run may call for: it is of a plain source and due. -/
theorem tries_of_due {eligible : List ItemId} {i : Item} {n : Nat} (hx : x.handles key)
    (hid : i.id = .event key n) (hservice : i.service = none) (hp : i.delivery = .pending)
    (hdue : i.nextAttempt ≤ x.now) : x.tries eligible i = true := by
  simp [RunInput.tries, hid, hservice, hp, hdue, hx.1]
  simpa using hx.2

theorem handles_of_tries {eligible : List ItemId} {i : Item} {n : Nat} (hid : i.id = .event key n)
    (ht : x.tries eligible i = true) : x.handles key := by
  simp only [RunInput.tries, hid, Bool.and_eq_true, Bool.not_eq_true', Bool.and_eq_false_iff,
    List.contains_iff_mem] at ht
  refine ⟨?_, ht.1.1.1.1⟩
  rcases ht.1.1.2 with ht | ht
  · exact ht
  · simp at ht

/-- **The call** of a run is for the oldest pending item of the key. -/
theorem oldest {s : State} {eligible : List ItemId} {done rest : List Item} {item : Item}
    (hplain : PlainItems key (s.view (some key)).items) (hsplit : s.outbox = done ++ item :: rest)
    (hcalm : x.handles key → NotOvertaken key x.now s) (htries : x.tries eligible item = true)
    (hdone : ∀ j ∈ done, x.tries eligible j = false) :
    ∀ i ∈ done ++ item.claimed :: rest, ItemId.Before key i.id item.id → i.delivery ≠ .pending := by
  rintro i hi hbefore hpending
  obtain ⟨m, n, him, hin, hlt⟩ := hbefore
  have hhandles := handles_of_tries hin htries
  obtain ⟨hitem, hdue⟩ := tries_pending htries
  have hmem : i ∈ done ∨ i ∈ rest := by
    rcases List.mem_append.mp hi with hi | hi
    · exact .inl hi
    rcases List.mem_cons.mp hi with rfl | hi
    · simp [Item.claimed] at hpending
    · exact .inr hi
  have hi' : i ∈ s.outbox := by
    rw [hsplit]
    rcases hmem with hi | hi
    · exact List.mem_append_left _ hi
    · exact List.mem_append_right _ (List.mem_cons_of_mem _ hi)
  have hview : i ∈ (s.view (some key)).items :=
    List.mem_filter.mpr ⟨hi', by simp [him, ItemId.key?]⟩
  -- the older item is due as well, and so the run would have tried it first
  have hidue := hcalm hhandles i hi' item (hsplit ▸ by simp) ⟨m, n, him, hin, hlt⟩ hpending hitem hdue
  have htried : x.tries eligible i = true :=
    tries_of_due hhandles him (hplain.plain i hview).1 hpending hidue
  rcases hmem with hi | hi
  · rw [hdone i hi] at htried; cases htried
  · have horder := hplain.order
    rw [split_key (some key) hsplit (by rw [hin]; rfl), List.filter_append,
      List.filter_cons_of_pos (by simp [Item.unresolved, hitem]), List.map_append,
      List.map_cons] at horder
    have hafter := (List.pairwise_cons.mp (List.pairwise_append.mp horder).2.1).1 i.id
      (List.mem_map.mpr ⟨i, List.mem_filter.mpr ⟨List.mem_filter.mpr
        ⟨hi, by simp [him, ItemId.key?]⟩, by simp [Item.unresolved, hpending]⟩, rfl⟩)
    exact hafter.asymm ⟨m, n, him, hin, hlt⟩

/-- After an answer, nothing stands in back-off before a due item, unless the webhook is held. -/
theorem calm_recorded {s : State} {done rest : List Item} {item : Item} (outcome : Outcome)
    (hcalm : NotOvertaken key x.now { s with outbox := done ++ item :: rest })
    (hrejected : outcome = .rejected → item.attempts < maxAttempts → ∀ j ∈ done ++ item :: rest,
      ItemId.Before key item.id j.id → j.delivery = .pending → x.now < j.nextAttempt)
    (hfree : (s.record done item rest x.now outcome).held ≤ x.now) :
    NotOvertaken key x.now (s.record done item rest x.now outcome) := by
  have hsub : ∀ i ∈ done ++ item.recorded x.now outcome :: rest, i.delivery = .pending →
      i ∈ done ++ item :: rest ∨ i = item.recorded x.now outcome := by
    intro i hi _
    rcases List.mem_append.mp hi with hi | hi
    · exact .inl (List.mem_append_left _ hi)
    rcases List.mem_cons.mp hi with hi | hi
    · exact .inr hi
    · exact .inl (List.mem_append_right _ (List.mem_cons_of_mem _ hi))
  have hfinal : (item.recorded x.now outcome).delivery ≠ .pending →
      NotOvertaken key x.now (s.record done item rest x.now outcome) := by
    intro hne
    refine hcalm.of_pending fun i hi hp => ?_
    rw [record_outbox] at hi
    rcases hsub i hi hp with hi | rfl
    · exact hi
    · exact absurd hp hne
  cases outcome with
  | sent | uncertain | failed | raised => exact hfinal (by simp [Item.recorded])
  | rateLimited d =>
      have hheld : (s.record done item rest x.now (.rateLimited d)).held = x.now + d.val := by
        simp [State.record, State.held]
      rw [hheld] at hfree
      exact absurd hfree (by linarith [d.property.1])
  | rejected =>
      by_cases hattempts : item.attempts < maxAttempts
      · have hnext : x.now < (item.recorded x.now .rejected).nextAttempt := by
          simp only [Item.recorded]
          rw [if_neg (not_le.mpr hattempts)]
          dsimp only
          split <;> linarith
        intro i hi j hj hbefore hip hjp hdue
        rw [record_outbox] at hi hj
        rcases hsub j hj hjp with hj | rfl
        · rcases hsub i hi hip with hi | rfl
          · exact hcalm i hi j hj hbefore hip hjp hdue
          · rw [recorded_id] at hbefore
            exact absurd hdue (not_le.mpr (hrejected rfl hattempts j hj hbefore hjp))
        · exact absurd hdue (not_le.mpr hnext)
      · refine hfinal ?_
        simp only [Item.recorded]
        rw [if_pos (not_lt.mp hattempts)]
        simp [Item.exhausted]

/-- **Each move** of a run keeps the order. -/
theorem move (h : InOrder key x w) (hturn : InTurn key (keyWorld (some key) w))
    {eligible : List ItemId} {w' : AlertWorld} (hm : Move x eligible w w')
    (hrejections : RejectionsCalm key w'.hist) : InOrder key x w' := by
  obtain ⟨s, hs, hcalm⟩ := h.state
  have hput : ∀ {done rest : List Item} {item item' : Item}, s.outbox = done ++ item :: rest →
      item'.delivery ≠ .pending → ∀ i ∈ done ++ item' :: rest, i.delivery = .pending →
        i ∈ s.outbox := by
    intro done rest item item' hsplit hne i hi hp
    rw [hsplit]
    rcases List.mem_append.mp hi with hi | hi
    · exact List.mem_append_left _ hi
    rcases List.mem_cons.mp hi with rfl | hi
    · exact absurd hp hne
    · exact List.mem_append_right _ (List.mem_cons_of_mem _ hi)
  cases hm with
  | settled hs' hsplit hitem =>
      cases hs.symm.trans hs'
      refine h.wrote fun hx hfree => ?_
      rw [State.held, State.replace, remember_webhookRetryAfter] at hfree
      refine (hcalm hx hfree).of_pending ?_
      rw [State.replace, remember_outbox]
      exact hput hsplit (by simp [Item.interrupted])
  | exhausted hs' hsplit hitem =>
      cases hs.symm.trans hs'
      exact h.wrote fun hx hfree =>
        (hcalm hx hfree).of_pending (hput hsplit (by simp [Item.exhausted]))
  | @posted _ _ done rest item hs' hsplit htries hattempts hfree hdone he =>
      cases hs.symm.trans hs'
      have hplain : PlainItems key (s.view (some key)).items := by
        have hitems := hturn.items
        rw [keyWorld, hs] at hitems
        exact hitems
      have hclaimCalm : x.handles key →
          NotOvertaken key x.now { s with outbox := done ++ item.claimed :: rest } := fun hx =>
        (hcalm hx hfree).of_pending (hput hsplit (by simp [Item.claimed]))
      have hclaim : InOrder key x (w.wrote (some { s with outbox := done ++ item.claimed :: rest })) :=
        h.wrote fun hx _ => hclaimCalm hx
      have hcall : ∀ {e : AlertEvent} {a}, e.call? = some (⟨item.claimed, x.now⟩, a) →
          InOrder key x ((w.wrote (some { s with outbox := done ++ item.claimed :: rest })).push e) := by
        intro e a hcall
        refine hclaim.called hcall ?_
        rintro _ ⟨⟩
        exact oldest hplain hsplit (fun hx => hcalm hx hfree) htries hdone
      cases he with
      | claimed => exact hclaim
      | lost => exact hcall (Event.call?_lost _)
      | answered a => exact hcall (Event.call?_answered _ _)
      | recorded a =>
          refine (hcall (Event.call?_answered _ a)).wrote fun hx hheld => ?_
          refine calm_recorded a (hclaimCalm hx) ?_ hheld
          rintro rfl hlt
          exact hrejections.tail [] ⟨item.claimed, x.now⟩ _ rfl hlt _ rfl

end InOrder

/-! ## All runs -/

theorem Reachable.inTurn {key : Key} {w : AlertWorld} (h : Reachable (PlainRuns key) w) :
    Ledger (keyWorld (some key) w) ∧ InTurn key (keyWorld (some key) w) :=
  h.key_invariant (P := PlainKey key) (I := fun k => Ledger k ∧ InTurn key k) (fun _ _ _ hc => hc)
    ⟨.start, .start key⟩
    (fun hx hk hprune hprepare =>
      ⟨hk.1.prepared hprune hprepare, hk.2.prepared hk.1 hx hprune hprepare⟩)
    (fun _ hk hm => ⟨hk.1.move hm, (hk.2.move hm).1⟩)

theorem moves_suffix {x : RunInput} {eligible : List ItemId} {w w' : AlertWorld}
    (h : ReflTransGen (Move x eligible) w w') : w.hist <:+ w'.hist := by
  induction h with
  | refl => exact List.suffix_rfl
  | tail _ hm ih =>
      refine ih.trans ?_
      cases hm with
      | settled | exhausted => exact List.suffix_cons _ _
      | posted _ _ _ _ _ _ he =>
          cases he with
          | claimed => exact List.suffix_cons _ _
          | lost | answered => exact (List.suffix_cons _ _).trans (List.suffix_cons _ _)
          | recorded =>
              exact ((List.suffix_cons _ _).trans (List.suffix_cons _ _)).trans (List.suffix_cons _ _)

theorem Reachable.callsInOrder {key : Key} {w : AlertWorld} (h : Reachable (CalmRuns key) w) :
    CallsInOrder key w.hist := by
  induction h with
  | start => intro later e earlier hsplit; simp at hsplit
  | @run w w' _ x hreach hrun hc ih =>
      obtain ⟨hplain, hstart, hrejections⟩ := hc
      rcases run_cases hrun with rfl | ⟨s, eligible, hp, hmoves⟩
      · exact ih
      have hinv := (hreach.mono fun _ _ _ hc => hc.1 : Reachable (PlainRuns key) w).inTurn
      obtain ⟨v, hprune, hprepare⟩ := (prepare_spec hp).views (some key)
      have hfirst : Ledger (keyWorld (some key) (w.wrote (some s))) ∧
          InTurn key (keyWorld (some key) (w.wrote (some s))) :=
        ⟨hinv.1.prepared hprune hprepare, hinv.2.prepared hinv.1 hplain hprune hprepare⟩
      have horder : InOrder key x (w.wrote (some s)) :=
        ⟨rfl, ⟨s, rfl, hstart s eligible hp⟩, ih.wrote _⟩
      clear hp hprepare hprune ih hinv hrun
      have hboth : InTurn key (keyWorld (some key) w') ∧ InOrder key x w' := by
        induction hmoves with
        | refl => exact ⟨hfirst.2, horder⟩
        | tail hms hm ihm =>
            obtain ⟨hturn, hord⟩ := ihm (hrejections.of_suffix (moves_suffix (.single hm)))
            refine ⟨?_, hord.move hturn hm hrejections⟩
            exact invariant_of_moves (I := InTurn key) (fun _ _ hk hkm => (hk.move hkm).1) hturn
              (move_key (some key) hm)
      exact hboth.2.calls

/-- A run that observes nothing of the key. -/
def Silent (key : Key) (x : RunInput) : Prop :=
  ∀ source ∈ x.config.sources, source.name = key.1 → x.signal source key.2 = .unknown

/-- A silent run queues nothing and leaves the cursor. -/
theorem silent_run {key : Key} {w w' : AlertWorld} {x : RunInput} {r}
    (hinv : InTurn key (keyWorld (some key) w)) (hx : PlainKey key x) (hsilent : Silent key x)
    (hrun : Runs (run x) w w' r) :
    (loaded w'.disk).observations.get? key = (loaded w.disk).observations.get? key ∧
      appended (keyHist (some key) w'.hist) = appended (keyHist (some key) w.hist) := by
  have hkey := run_key (some key) hrun
  change (keyWorld (some key) w').view.cursor = (keyWorld (some key) w).view.cursor ∧
    appended (keyWorld (some key) w').hist = appended (keyWorld (some key) w).hist
  generalize keyWorld (some key) w' = k' at hkey ⊢
  generalize keyWorld (some key) w = k at hkey hinv ⊢
  cases hkey with
  | none => exact ⟨rfl, rfl⟩
  | @moves v v' eligible _ hprune hprepare _ hmoves =>
      have hsame : v' = v := by
        cases hprepare with
        | idle => rfl
        | test _ ho _ => cases ho
        | @observed source dimension _ htest hsource hdim ho hobs =>
            cases ho
            rcases hobs with ⟨-, content, -, rfl⟩ | ⟨hservice, -⟩
            · exact View.plain_skip (.inl (hsilent source hsource rfl))
            · rw [hx _ hsource rfl] at hservice; cases hservice
      subst hsame
      obtain ⟨hturn, happended⟩ := hinv.quiet hprune
      have hall := invariant_of_moves (I := fun k'' => InTurn key k'' ∧
          k''.view.cursor = k.view.cursor ∧ appended k''.hist = appended k.hist)
        (fun a b hk hm => ⟨(hk.1.move hm).1, ((hk.1.move hm).2).trans hk.2.1,
          (appended_move hk.1.seen hm).2.trans hk.2.2⟩)
        ⟨hturn, hprune.cursor, happended⟩ hmoves
      exact hall.2

/-- **Plain sources.** Over every sequence of runs that take a key for one of a plain source, its
    events alternate, starting with an alarm, with increasing sequence numbers, and a run that
    observes nothing of it changes nothing. And over those sequences where no run finds or makes an
    item of the key in back-off before a due one, no item is handed over while an older one of the
    key is pending. -/
theorem plain_in_order {key : Key} {w : AlertWorld} (h : Reachable (PlainRuns key) w) :
    Alternates key (appended (keyHist (some key) w.hist)) ∧
    (∀ x w' r, PlainKey key x → Silent key x → Runs (run x) w w' r →
      (loaded w'.disk).observations.get? key = (loaded w.disk).observations.get? key ∧
        appended (keyHist (some key) w'.hist) = appended (keyHist (some key) w.hist)) ∧
    (Reachable (CalmRuns key) w → CallsInOrder key w.hist) :=
  ⟨h.inTurn.2.alternates, fun _ _ _ hx hs hrun => silent_run h.inTurn.2 hx hs hrun,
    fun hcalm => hcalm.callsInOrder⟩

/-! ## A demo: an alarm that is overtaken -/

def demoKey : Key := (demoSource.name, .condition)

theorem demoRun_plain (now : ℚ) (condition freshness : Signal) :
    PlainKey demoKey (demoRun now condition freshness) := by
  intro source hs _
  rw [List.mem_singleton.mp hs]
  rfl

/-- The alarm and the recovery are both sent at once. -/
def calmWorld : AlertWorld :=
  ((run (demoRun 200 .normal .normal)).exec 9
    ((run (demoRun 100 .alarm .normal)).exec 9 ⟨none, []⟩ [.sent "1234567890123456"]).1
    [.sent "1234567890123457"]).1

theorem startsCalm_of_check {key : Key} {x : RunInput} {disk : Option State}
    (h : (match prepare x disk with
      | .ok (s, _) => decide (NotOvertaken key x.now s)
      | .error _   => true) = true) : StartsCalm key x disk := by
  intro s eligible hp _ _
  rw [hp] at h
  exact of_decide_eq_true h

theorem rejectionsCalm_of_check {key : Key} {hist : List AlertEvent}
    (h : hist.all (fun e => e.call?.all (fun p => p.2 ≠ some .rejected)) = true) :
    RejectionsCalm key hist := by
  rintro later q earlier rfl
  simp at h

theorem calmWorld_reachable : Reachable (CalmRuns demoKey) calmWorld := by
  refine .run _ (.run _ .start (runs_exec _ _ _ _) ⟨demoRun_plain _ _ _, ?_, ?_⟩) (runs_exec _ _ _ _)
    ⟨demoRun_plain _ _ _, ?_, ?_⟩
  · exact startsCalm_of_check (by decide +kernel)
  · exact rejectionsCalm_of_check (by decide +kernel)
  · exact startsCalm_of_check (by decide +kernel)
  · exact rejectionsCalm_of_check (by decide +kernel)

/-- Two events were queued and sent, in order. -/
theorem plain_in_order_two_events :
    (appended (keyHist (some demoKey) calmWorld.hist)).map (fun i => i.content.signal) =
      [some .normal, some .alarm] ∧
    Alternates demoKey (appended (keyHist (some demoKey) calmWorld.hist)) ∧
    CallsInOrder demoKey calmWorld.hist := by
  obtain ⟨halternates, -, horder⟩ :=
    plain_in_order (calmWorld_reachable.mono fun _ _ _ hc => hc.1 : Reachable (PlainRuns demoKey) _)
  exact ⟨by decide +kernel, halternates, horder calmWorld_reachable⟩

/-- The alarm is rejected, and its recovery is sent while the alarm waits for its second attempt. -/
def overtakeWorld : AlertWorld :=
  ((run (demoRun 110 .normal .normal)).exec 9
    ((run (demoRun 100 .alarm .normal)).exec 9 ⟨none, []⟩ [.rejected]).1
    [.sent "1234567890123456"]).1

theorem alarm_overtaken :
    Reachable (PlainRuns demoKey) overtakeWorld ∧ ¬ CallsInOrder demoKey overtakeWorld.hist := by
  refine ⟨.run _ (.run _ .start (runs_exec _ _ _ _) (demoRun_plain _ _ _)) (runs_exec _ _ _ _)
    (demoRun_plain _ _ _), fun h => ?_⟩
  have hcall : (overtakeWorld.hist[1]?.bind Event.call?).map (fun p => p.1.item.id) =
      some (.event demoKey 2) := by decide +kernel
  have hpending : ((diskAt none (overtakeWorld.hist.drop 2)).any fun s =>
      s.outbox.any fun i => i.id = .event demoKey 1 && i.delivery = .pending) = true := by
    decide +kernel
  simp only [Option.map_eq_some_iff, Option.bind_eq_some_iff] at hcall
  obtain ⟨⟨q, a⟩, ⟨e, hget, he⟩, hq⟩ := hcall
  simp only [Option.any_eq_true, List.any_eq_true, Bool.and_eq_true, decide_eq_true_eq] at hpending
  obtain ⟨s, hs, i, hi, hid, hp⟩ := hpending
  exact h.get hget he s hs i hi ⟨1, 2, hid, hq, by omega⟩ hp

end Discord
end PickleInfra
