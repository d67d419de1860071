import PickleInfra.Durable.History
import PickleInfra.Health.Targets

/-!
# `Health.Delivery` — the mails of every sequence of monitor runs

A run is killed before its first persist, or it writes the collected state and then makes moves: one
claim–call–record episode per due delivery, and the summary. `Ledger` says how the history of sender
calls and reservations relates to the deliveries on disk; every move keeps it, so it holds in every
reachable world.
-/

namespace PickleInfra
namespace Health

open Python Durable History
open Relation (ReflTransGen)

abbrev MonitorEvent := Event Disk Mailing MailAnswer
abbrev MonitorWorld := World Disk Mailing MailAnswer

/-! ## Mails of a state -/

namespace State

theorem machine_setMail (s : State) (slot : Slot) (d : Delivery) (name : String) (t : Target) :
    (s.setMail slot d).machine name t =
      if slot.source = name ∧ slot.target = t then (s.machine name t).setMail slot.event d
      else s.machine name t := by
  unfold setMail machine
  rw [Dict.get?_set]
  by_cases hn : slot.source = name
  · subst hn
    rw [if_pos rfl, Option.getD_some]
    cases ht : slot.target <;> cases t <;> simp [Entry.machine, Entry.setMachine]
  · simp [hn]

theorem mail_setMail (s : State) (slot slot' : Slot) (d : Delivery) :
    (s.setMail slot d).mail slot' = if slot = slot' then some d else s.mail slot' := by
  unfold mail
  rw [machine_setMail]
  obtain ⟨name, t, e⟩ := slot
  obtain ⟨name', t', e'⟩ := slot'
  by_cases h : name = name' ∧ t = t'
  · obtain ⟨rfl, rfl⟩ := h
    by_cases he : e = e'
    · subst he; simp
    · simp [he, Machine.mail_setMail_ne _ _ he]
  · have : ¬ (name = name' ∧ t = t' ∧ e = e') := fun hc => h ⟨hc.1, hc.2.1⟩
    simp [h, this]

@[simp] theorem mail_setMail_self (s : State) (slot : Slot) (d : Delivery) :
    (s.setMail slot d).mail slot = some d := by rw [mail_setMail, if_pos rfl]

theorem core_setMail (s : State) (slot : Slot) (d : Delivery) (name : String) (t : Target) :
    ((s.setMail slot d).machine name t).core = (s.machine name t).core := by
  rw [machine_setMail]
  split
  · exact Machine.core_setMail _ _ _
  · rfl

end State

/-- A rewritten delivery keeps a target well formed if it is about the same incident, and open only
    if it was. -/
theorem Machine.Ok.setMail {m : Machine} (h : m.Ok) {e : MailEvent} {d d' : Delivery}
    (hd : m.mail e = some d) (hinc : d'.incident = d.incident)
    (hopen : d'.status.isOpen = true → d.status.isOpen = true) : (m.setMail e d').Ok := by
  have hreg : (m.setMail e d').register = m.register := register_setMail m e d'
  refine ⟨?_, ?_, ?_⟩
  · rw [hreg, sampleAt_setMail]; exact h.register
  · rw [hreg]
    cases e with
    | failed =>
        rw [mail_setMail_self]
        rintro d'' ⟨⟩
        obtain ⟨hle, ho⟩ := h.failed d hd
        rw [hinc]
        exact ⟨hle, fun hd' => ho (hopen hd')⟩
    | recovered => rw [mail_setMail_ne _ _ (by simp)]; exact h.failed
  · rw [hreg]
    cases e with
    | failed => rw [mail_setMail_ne _ _ (by simp)]; exact h.recovered
    | recovered =>
        rw [mail_setMail_self]
        rintro d'' ⟨⟩
        obtain ⟨hle, ho⟩ := h.recovered d hd
        rw [hinc]
        exact ⟨hle, fun hd' => ho (hopen hd')⟩

theorem State.Ok.setMail {s : State} (h : s.Ok) {slot : Slot} {d d' : Delivery}
    (hd : s.mail slot = some d) (hinc : d'.incident = d.incident)
    (hopen : d'.status.isOpen = true → d.status.isOpen = true) : (s.setMail slot d').Ok := by
  intro name t
  rw [State.machine_setMail]
  split
  · next hc =>
    obtain ⟨rfl, rfl⟩ := hc
    exact (h slot.source slot.target).setMail hd hinc hopen
  · exact h name t

/-! ## Reading the history -/

/-- A delivery is identified by its slot and its incident. -/
def Mailing.key (q : Mailing) : Slot × Option Nat := (q.slot, q.delivery.incident)

/-- How the sender calls for one delivery ended, newest first; `none` is a call cut short. -/
def mailEnds (slot : Slot) (incident : Option Nat) (hist : List MonitorEvent) :
    List (Option MailAnswer) :=
  endsOf (Event.ended Mailing.key) (slot, incident) hist

/-- An end after which a delivery may be tried again. -/
def finalMail (r : Option MailAnswer) : Prop := r ≠ some .notSent

/-- The store before the first run. -/
def Disk.start : Disk := ⟨none, none⟩

def Disk.stateOrEmpty (d : Disk) : State := d.state.getD {}

/-- The reservation a write adds to a slot: a `NEW` delivery that was not there before. -/
def newlyReserved (before after : Option Delivery) : List (Option Nat) :=
  match after with
  | none   => []
  | some d => if d.status = .new ∧ before ≠ some d then [d.incident] else []

/-- The incidents a slot was reserved for, newest first. -/
def reservations (slot : Slot) : List MonitorEvent → List (Option Nat)
  | []                  => []
  | .wrote d :: rest    =>
    newlyReserved ((diskAt .start rest).stateOrEmpty.mail slot) (d.stateOrEmpty.mail slot)
      ++ reservations slot rest
  | .answered .. :: rest => reservations slot rest
  | .lost _ :: rest     => reservations slot rest

@[simp] theorem newlyReserved_self (m : Option Delivery) : newlyReserved m m = [] := by
  cases m <;> simp [newlyReserved]

theorem newlyReserved_of_ne_new {before : Option Delivery} {d : Delivery} (h : d.status ≠ .new) :
    newlyReserved before (some d) = [] := by simp [newlyReserved, h]

/-- An incident not beyond that of the delivery on disk. -/
def NotBeyond (mail : Option Delivery) (incident : Option Nat) : Prop :=
  ∃ d k j, mail = some d ∧ d.incident = some k ∧ incident = some j ∧ j ≤ k

/-- What the history of a slot says about its delivery. -/
structure Ledger (slot : Slot) (mail : Option Delivery) (hist : List MonitorEvent) : Prop where
  once : ∀ incident, AtMostOnce finalMail (mailEnds slot incident hist)
  thrice : ∀ incident, (mailEnds slot incident hist).length ≤ 3
  known : ∀ incident, mailEnds slot incident hist ≠ [] → NotBeyond mail incident
  counted : ∀ d, mail = some d →
    (mailEnds slot d.incident hist).length ≤ d.attempts ∧ d.attempts ≤ 3
  retriable : ∀ d, mail = some d → d.status.isOpen = true →
    d.attempts ≤ 2 ∧ ∀ r ∈ mailEnds slot d.incident hist, ¬ finalMail r
  reserved : (reservations slot hist).Nodup
  reservedLe : ∀ r ∈ reservations slot hist, NotBeyond mail r

theorem ledger_start (slot : Slot) : Ledger slot none [] where
  once := fun _ => atMostOnce_nil _
  thrice := fun _ => Nat.zero_le _
  known := fun _ h => absurd rfl h
  counted := by rintro d ⟨⟩
  retriable := by rintro d ⟨⟩
  reserved := List.nodup_nil
  reservedLe := by rintro r ⟨⟩

/-! ## What each event does to a ledger -/

section Ledger

variable {slot : Slot} {old new : Option Delivery} {hist : List MonitorEvent}

@[simp] theorem mailEnds_wrote (slot : Slot) (incident : Option Nat) (d : Disk)
    (hist : List MonitorEvent) :
    mailEnds slot incident (.wrote d :: hist) = mailEnds slot incident hist :=
  endsOf_cons_none rfl

theorem mailEnds_answered (q : Mailing) (a : MailAnswer) (hist : List MonitorEvent) :
    mailEnds q.slot q.delivery.incident (.answered q a :: hist) =
      some a :: mailEnds q.slot q.delivery.incident hist :=
  endsOf_cons_self rfl

theorem NotBeyond.step {r : Option Nat} (h : NotBeyond old r) (hstep : MailStep old new) :
    NotBeyond new r := by
  obtain ⟨d, k, j, hd, hk, hj, hle⟩ := h
  cases hstep with
  | same => exact ⟨d, k, j, hd, hk, hj, hle⟩
  | superseded hold _ =>
      obtain rfl := Option.some.inj (hold.symm.trans hd)
      exact ⟨_, k, j, rfl, hk, hj, hle⟩
  | reserved _ _ hn hold =>
      obtain ⟨k', hk', hlt⟩ := hold d hd
      obtain rfl := Option.some.inj (hk'.symm.trans hk)
      exact ⟨_, _, j, rfl, hn, hj, hle.trans hlt.le⟩

/-- A write that keeps the incident of the delivery and reserves nothing. -/
theorem Ledger.rewritten {d d' : Delivery} (h : Ledger slot (some d) hist) {disk : Disk}
    (hold : (diskAt .start hist).stateOrEmpty.mail slot = some d)
    (hnew : disk.stateOrEmpty.mail slot = some d') (hinc : d'.incident = d.incident)
    (hstatus : d'.status ≠ .new) (hattempts : d.attempts ≤ d'.attempts ∧ d'.attempts ≤ 3)
    (hopen : d'.status.isOpen = true →
      d'.attempts ≤ 2 ∧ ∀ r ∈ mailEnds slot d.incident hist, ¬ finalMail r) :
    Ledger slot (some d') (.wrote disk :: hist) := by
  have hbeyond : ∀ r, NotBeyond (some d) r → NotBeyond (some d') r := by
    rintro r ⟨_, k, j, ⟨⟩, hk, hj, hle⟩
    exact ⟨d', k, j, rfl, hinc.trans hk, hj, hle⟩
  have hres : reservations slot (.wrote disk :: hist) = reservations slot hist := by
    rw [reservations, hold, hnew, newlyReserved_of_ne_new hstatus, List.nil_append]
  refine ⟨?_, ?_, ?_, ?_, ?_, by rw [hres]; exact h.reserved, ?_⟩
  · simpa only [mailEnds_wrote] using h.once
  · simpa only [mailEnds_wrote] using h.thrice
  · intro r hr
    rw [mailEnds_wrote] at hr
    exact hbeyond r (h.known r hr)
  · rintro _ ⟨⟩
    rw [mailEnds_wrote, hinc]
    exact ⟨(h.counted d rfl).1.trans hattempts.1, hattempts.2⟩
  · rintro _ ⟨⟩ ho
    rw [mailEnds_wrote, hinc]
    exact hopen ho
  · intro r hr
    rw [hres] at hr
    exact hbeyond r (h.reservedLe r hr)

/-- **A collection**, written to disk. -/
theorem Ledger.collected (h : Ledger slot old hist) {disk : Disk}
    (hold : (diskAt .start hist).stateOrEmpty.mail slot = old)
    (hnew : disk.stateOrEmpty.mail slot = new) (hstep : MailStep old new) :
    Ledger slot new (.wrote disk :: hist) := by
  cases hstep with
  | same =>
      have hres : reservations slot (.wrote disk :: hist) = reservations slot hist := by
        rw [reservations, hold, hnew, newlyReserved_self, List.nil_append]
      refine ⟨?_, ?_, ?_, ?_, ?_, by rw [hres]; exact h.reserved, by rw [hres]; exact h.reservedLe⟩
      all_goals simp only [mailEnds_wrote]
      exacts [h.once, h.thrice, h.known, h.counted, h.retriable]
  | @superseded d hd ho =>
      subst hd
      exact h.rewritten hold hnew rfl (by simp) ⟨le_refl _, (h.counted d rfl).2⟩ (by
        intro hs; exact absurd hs (by simp [MailStatus.isOpen]))
  | @reserved d n hs ha hn hlt =>
      have hbefore : ∀ r, NotBeyond old r → ∃ j, r = some j ∧ j < n := by
        rintro r ⟨o, k, j, ho, hk, hj, hle⟩
        obtain ⟨k', hk', hlt'⟩ := hlt o ho
        obtain rfl := Option.some.inj (hk'.symm.trans hk)
        exact ⟨j, hj, hle.trans_lt hlt'⟩
      have hfresh : ∀ r, NotBeyond old r → r ≠ some n := by
        intro r hr he
        obtain ⟨j, hj, hlt'⟩ := hbefore r hr
        exact absurd (Option.some.inj (hj.symm.trans he)) hlt'.ne
      have hnone : mailEnds slot d.incident hist = [] := by
        by_contra hne
        exact hfresh _ (h.known _ hne) hn
      have hres : reservations slot (.wrote disk :: hist) = some n :: reservations slot hist := by
        have hne : old ≠ some d := by
          intro he
          obtain ⟨k, hk, hlt'⟩ := hlt d he
          exact absurd (Option.some.inj (hk.symm.trans hn)) hlt'.ne
        rw [reservations, hold, hnew, newlyReserved, if_pos ⟨hs, hne⟩, hn]
        rfl
      have hle : ∀ r, NotBeyond old r → NotBeyond (some d) r :=
        fun r hr => hr.step (.reserved hs ha hn hlt)
      refine ⟨?_, ?_, ?_, ?_, ?_, ?_, ?_⟩
      · simpa only [mailEnds_wrote] using h.once
      · simpa only [mailEnds_wrote] using h.thrice
      · intro r hr
        rw [mailEnds_wrote] at hr
        exact hle r (h.known r hr)
      · rintro _ ⟨⟩
        rw [mailEnds_wrote, hnone, ha]
        exact ⟨le_refl _, Nat.zero_le _⟩
      · rintro _ ⟨⟩ -
        rw [mailEnds_wrote, hnone, ha]
        exact ⟨Nat.zero_le _, by simp⟩
      · rw [hres]
        exact List.nodup_cons.mpr ⟨fun hm => hfresh _ (h.reservedLe _ hm) rfl, h.reserved⟩
      · intro r hr
        rw [hres] at hr
        rcases List.mem_cons.mp hr with rfl | hr
        · exact ⟨d, n, n, rfl, hn, rfl, le_refl _⟩
        · exact hle r (h.reservedLe r hr)

/-- A call for another slot. -/
theorem Ledger.other_called (h : Ledger slot old hist) {e : MonitorEvent} {key : Slot × Option Nat}
    {r : Option MailAnswer} (he : e.ended Mailing.key = some (key, r)) (hne : key.1 ≠ slot) :
    Ledger slot old (e :: hist) := by
  have hends : ∀ i, mailEnds slot i (e :: hist) = mailEnds slot i hist := fun i =>
    endsOf_cons_ne he (fun hk => hne (by rw [hk]))
  have hres : reservations slot (e :: hist) = reservations slot hist := by
    cases e with
    | wrote d => simp at he
    | answered | lost => rfl
  refine ⟨?_, ?_, ?_, ?_, ?_, by rw [hres]; exact h.reserved, by rw [hres]; exact h.reservedLe⟩
  all_goals simp only [hends]
  exacts [h.once, h.thrice, h.known, h.counted, h.retriable]

/-- **A call for the claimed delivery**: it is counted by the claim, and no call before was final. -/
theorem Ledger.called {d : Delivery} (h : Ledger slot (some d) hist) {e : MonitorEvent}
    {r : Option MailAnswer} (he : e.ended Mailing.key = some ((slot, d.incident), r))
    (hclosed : d.status.isOpen = false) (hknown : ∃ k, d.incident = some k)
    (hnone : ∀ r ∈ mailEnds slot d.incident hist, ¬ finalMail r)
    (hcount : (mailEnds slot d.incident hist).length < d.attempts) :
    Ledger slot (some d) (e :: hist) := by
  have hself : mailEnds slot d.incident (e :: hist) = r :: mailEnds slot d.incident hist :=
    endsOf_cons_self he
  have hother : ∀ i, i ≠ d.incident → mailEnds slot i (e :: hist) = mailEnds slot i hist :=
    fun i hi => endsOf_cons_ne he (fun hk => hi (congrArg Prod.snd hk).symm)
  have hres : reservations slot (e :: hist) = reservations slot hist := by
    cases e with
    | wrote d => simp at he
    | answered | lost => rfl
  have hattempts := (h.counted d rfl).2
  refine ⟨?_, ?_, ?_, ?_, ?_, by rw [hres]; exact h.reserved, by rw [hres]; exact h.reservedLe⟩
  · intro i
    by_cases hi : i = d.incident
    · subst hi; rw [hself]; exact atMostOnce_cons.mpr hnone
    · rw [hother i hi]; exact h.once i
  · intro i
    by_cases hi : i = d.incident
    · subst hi; rw [hself, List.length_cons]; omega
    · rw [hother i hi]; exact h.thrice i
  · intro i hi
    by_cases hid : i = d.incident
    · obtain ⟨k, hk⟩ := hknown
      exact ⟨d, k, k, rfl, hk, hid.trans hk, le_refl _⟩
    · rw [hother i hid] at hi; exact h.known i hi
  · rintro _ ⟨⟩
    rw [hself, List.length_cons]
    exact ⟨hcount, hattempts⟩
  · rintro _ ⟨⟩ ho
    rw [hclosed] at ho
    exact absurd ho (by simp)

end Ledger

/-! ## Moves of a run -/

/-- The claim of a due delivery, written to disk. -/
def claimMail (state : State) (slot : Slot) (d : Delivery) (disk : Disk) : Disk :=
  { disk with state := some (state.setMail slot d.claim) }

/-- The claimed delivery after the sender ended, written to disk. -/
def recordMail (now : ℚ) (state : State) (slot : Slot) (d : Delivery) (a : MailAnswer)
    (disk : Disk) : Disk :=
  { disk with state := some ((state.setMail slot d.claim).setMail slot (d.claim.record now a)) }

/-- What a run does after it has written the collected state. -/
inductive Move (now : ℚ) (slots : List Slot) : MonitorWorld → MonitorWorld → Prop
  | published (w : MonitorWorld) (summary : Summary) :
      Move now slots w (w.wrote { w.disk with summary := some summary })
  | mailed {w w' : MonitorWorld} {state : State} {slot : Slot} {d : Delivery}
      (hstate : w.disk.state = some state) (hslot : slot ∈ slots)
      (hd : state.mail slot = some d) (hdue : d.isDue now = true)
      (he : Episode (claimMail state slot d) ⟨slot, d.claim⟩ (recordMail now state slot d) w w') :
      Move now slots w w'

theorem deliver_follows {now : ℚ} {slots : List Slot} {slot : Slot} (hslot : slot ∈ slots)
    {state : State} {w : MonitorWorld} (hw : w.disk.state = some state) :
    Follows (Move now slots) (deliver now slot state) w
      (fun state' w' => w'.disk.state = some state') := by
  unfold deliver
  cases hd : state.mail slot with
  | none => exact .ret hw
  | some d =>
      dsimp only
      split
      · next hdue =>
        refine .attempt (fun w' he => .mailed hw hslot hd hdue he) (fun a => .ret rfl)
      · exact .ret hw

theorem deliverAll_follows {now : ℚ} {slots todo : List Slot} (htodo : ∀ slot ∈ todo, slot ∈ slots)
    {state : State} {w : MonitorWorld} (hw : w.disk.state = some state) :
    Follows (Move now slots) (deliverAll now todo state) w
      (fun state' w' => w'.disk.state = some state') := by
  induction todo generalizing state w with
  | nil => exact .ret hw
  | cons slot rest ih =>
      unfold deliverAll
      refine (deliver_follows (htodo slot List.mem_cons_self) hw).bind fun state' w' hw' => ?_
      exact ih (fun s hs => htodo s (List.mem_cons_of_mem _ hs)) hw'

/-- The slots a run may try. -/
def RunInput.slots (x : RunInput) (summary : Summary) : List Slot :=
  x.config.sources.flatMap (fun s => sourceSlots summary s.name)

def RunInput.call (x : RunInput) : Call := ⟨x.now, x.reader, x.config.notificationsEnabled⟩

theorem deliverAndPublish_follows (x : RunInput) (state : State) (summary : Summary)
    {w : MonitorWorld} (hw : w.disk.state = some state) :
    Follows (Move x.now (x.slots summary)) (deliverAndPublish x state summary) w
      (fun a w' => ∀ summary', a = .ok summary' →
        summary' = summary ∧ w'.disk.summary = some summary) := by
  have hpublish : ∀ w₁ : MonitorWorld, Follows (Move x.now (x.slots summary))
      (publish summary >>= fun _ => .ret (.ok summary)) w₁
      (fun (a : Except HealthExn Summary) w' => ∀ summary', a = .ok summary' →
        summary' = summary ∧ w'.disk.summary = some summary) := by
    intro w₁
    refine .write (.published w₁ summary) (.ret ?_)
    rintro _ ⟨⟩
    exact ⟨rfl, rfl⟩
  unfold deliverAndPublish
  split
  · exact hpublish w
  split
  · exact .ret (by rintro _ ⟨⟩)
  · exact (deliverAll_follows (fun _ hs => hs) hw).bind fun _ w₁ _ => hpublish w₁

/-- **What a run does**: nothing durable, or the collected state is written and moves follow. A run
    that returned a summary has published it. -/
theorem run_cases {x : RunInput} {w w' : MonitorWorld} {r} (h : Runs (run x) w w' r) :
    (w' = w ∧ ∀ summary, r ≠ some (.ok summary)) ∨
    ∃ state summary, collect x.config w.disk.stateOrEmpty x.now x.reader
        x.config.notificationsEnabled = (state, .ok summary) ∧
      ReflTransGen (Move x.now (x.slots summary))
        (w.wrote { w.disk with state := some state }) w' ∧
      ∀ summary', r = some (.ok summary') → summary' = summary ∧ w'.disk.summary = some summary := by
  rcases runs_look h with ⟨rfl, rfl⟩ | h
  · exact .inl ⟨rfl, by simp⟩
  cases hc : collect x.config w.disk.stateOrEmpty x.now x.reader x.config.notificationsEnabled with
  | mk state result =>
      change collect x.config (w.disk.state.getD {}) x.now x.reader x.config.notificationsEnabled = _ at hc
      rw [hc] at h
      cases result with
      | error e =>
          obtain ⟨rfl, rfl | rfl⟩ := runs_ret h
          · exact .inl ⟨rfl, by simp⟩
          · exact .inl ⟨rfl, by simp⟩
      | ok summary =>
          rcases runs_write h with ⟨rfl, rfl⟩ | h
          · exact .inl ⟨rfl, by simp⟩
          obtain ⟨hmoves, hpost⟩ := deliverAndPublish_follows x state summary rfl h
          exact .inr ⟨state, summary, rfl, hmoves, fun summary' hr => hpost _ hr summary' rfl⟩

/-! ## The invariant of every reachable world -/

structure Inv (w : MonitorWorld) : Prop where
  disk : w.disk = diskAt .start w.hist
  ok : w.disk.stateOrEmpty.Ok
  ledger : ∀ slot, Ledger slot (w.disk.stateOrEmpty.mail slot) w.hist

theorem inv_start : Inv ⟨.start, []⟩ where
  disk := rfl
  ok := State.ok_start
  ledger := fun slot => by
    have hnone : Disk.start.stateOrEmpty.mail slot = none := by
      obtain ⟨name, t, e⟩ := slot
      cases t <;> cases e <;> rfl
    rw [hnone]
    exact ledger_start slot

/-- A write that does one mail step on every delivery. -/
theorem Inv.wrote {w : MonitorWorld} (h : Inv w) {disk : Disk} (hok : disk.stateOrEmpty.Ok)
    (hsteps : ∀ slot, MailStep (w.disk.stateOrEmpty.mail slot) (disk.stateOrEmpty.mail slot)) :
    Inv (w.wrote disk) where
  disk := rfl
  ok := hok
  ledger := fun slot => (h.ledger slot).collected (by rw [← h.disk]) rfl (hsteps slot)

section Mailed

variable {w : MonitorWorld} {state : State} {slot : Slot} {d : Delivery} {now : ℚ}

theorem Delivery.isOpen_of_isDue (h : d.isDue now = true) : d.status.isOpen = true := by
  rw [Delivery.isDue, Bool.and_eq_true] at h
  exact h.1

theorem stateOrEmpty_of_state {disk : Disk} (h : disk.state = some state) :
    disk.stateOrEmpty = state := by rw [Disk.stateOrEmpty, h, Option.getD_some]

/-- A due delivery, claimed on disk: every call so far was explicitly not sent, and the claim counts
    the next one. -/
structure Claimed (state : State) (slot : Slot) (d : Delivery) (w : MonitorWorld) : Prop where
  state : w.disk.state = some (state.setMail slot d.claim)
  retriable : ∀ r ∈ mailEnds slot d.incident w.hist, ¬ finalMail r
  counted : (mailEnds slot d.incident w.hist).length < d.claim.attempts

/-- **The claim.** -/
theorem Inv.claimed (h : Inv w) (hstate : w.disk.state = some state)
    (hd : state.mail slot = some d) (hdue : d.isDue now = true) :
    Inv (w.wrote (claimMail state slot d w.disk)) ∧
      Claimed state slot d (w.wrote (claimMail state slot d w.disk)) := by
  have hs := stateOrEmpty_of_state hstate
  have hledger := h.ledger
  have hopen := Delivery.isOpen_of_isDue hdue
  rw [hs] at hledger
  have hslot := hledger slot
  rw [hd] at hslot
  obtain ⟨htwo, hnone⟩ := hslot.retriable d rfl hopen
  have hcount := (hslot.counted d rfl).1
  refine ⟨⟨rfl, ?_, fun slot' => ?_⟩, rfl, ?_, ?_⟩
  · exact (hs ▸ h.ok).setMail hd rfl (fun ho => absurd ho (by simp [Delivery.claim, MailStatus.isOpen]))
  · change Ledger slot' ((state.setMail slot d.claim).mail slot') _
    have hold : (diskAt .start w.hist).stateOrEmpty.mail slot' = state.mail slot' := by
      rw [← h.disk, hs]
    rw [State.mail_setMail]
    by_cases he : slot = slot'
    · subst he
      rw [if_pos rfl]
      refine hslot.rewritten (hold.trans hd) (State.mail_setMail_self ..) rfl
        (by simp [Delivery.claim]) ⟨Nat.le_succ _, Nat.succ_le_succ htwo⟩ (fun ho => ?_)
      exact absurd ho (by simp [Delivery.claim, MailStatus.isOpen])
    · rw [if_neg he]
      refine (hledger slot').collected hold ?_ .same
      change (state.setMail slot d.claim).mail slot' = _
      rw [State.mail_setMail, if_neg he]
  · exact hnone
  · exact Nat.lt_succ_of_le hcount

/-- **The call.** -/
theorem Inv.called (h : Inv w) (hc : Claimed state slot d w) {e : MonitorEvent}
    {r : Option MailAnswer} (he : e.call? = some (⟨slot, d.claim⟩, r)) :
    Inv (w.push e) := by
  have hs := stateOrEmpty_of_state hc.state
  have hended : e.ended Mailing.key = some ((slot, d.claim.incident), r) := by
    rw [Event.ended, he]; rfl
  have hledger := h.ledger
  have hok := h.ok
  rw [hs] at hledger hok
  have hmail : (state.setMail slot d.claim).mail slot = some d.claim := State.mail_setMail_self ..
  have hknown : ∃ k, d.claim.incident = some k := by
    have hm := hok slot.source slot.target
    cases hev : slot.event with
    | failed =>
        rw [State.mail, hev] at hmail
        obtain ⟨⟨k, hk, -⟩, -⟩ := hm.failed _ hmail
        exact ⟨k, hk⟩
    | recovered =>
        rw [State.mail, hev] at hmail
        obtain ⟨⟨k, hk, -⟩, -⟩ := hm.recovered _ hmail
        exact ⟨k, hk⟩
  refine ⟨?_, h.ok, fun slot' => ?_⟩
  · cases e with
    | wrote => simp at he
    | answered | lost => exact h.disk
  · rw [World.push_disk, World.push_hist, hs]
    by_cases hslot : slot = slot'
    · subst hslot
      have hself := hledger slot
      rw [hmail] at hself ⊢
      exact hself.called hended rfl hknown hc.retriable hc.counted
    · exact (hledger slot').other_called hended hslot

/-- **The recorded answer.** -/
theorem Inv.answered (h : Inv w) (hc : Claimed state slot d w) (hopen : d.status.isOpen = true)
    (hok : state.Ok) (hd : state.mail slot = some d) (a : MailAnswer) :
    Inv (w.push (.answered ⟨slot, d.claim⟩ a) |>.wrote (recordMail now state slot d a w.disk)) := by
  have hcalled := h.called hc (e := .answered ⟨slot, d.claim⟩ a) rfl
  have hs := stateOrEmpty_of_state hc.state
  have hledger := hcalled.ledger
  rw [World.push_disk, World.push_hist, hs] at hledger
  have hself := hledger slot
  rw [State.mail_setMail_self] at hself
  have hthree := (hself.counted _ rfl).2
  have hstatus : (d.claim.record now a).status ≠ .new := by
    cases a with
    | sent | uncertain => simp [Delivery.record]
    | notSent => simp only [Delivery.record]; split <;> simp
  have hattempts : (d.claim.record now a).attempts = d.claim.attempts := by cases a <;> rfl
  have hincident : (d.claim.record now a).incident = d.incident := by cases a <;> rfl
  refine ⟨rfl, ?_, fun slot' => ?_⟩
  · change ((state.setMail slot d.claim).setMail slot (d.claim.record now a)).Ok
    have heq : ∀ name t, ((state.setMail slot d.claim).setMail slot
        (d.claim.record now a)).machine name t =
          (state.setMail slot (d.claim.record now a)).machine name t := by
      intro name t
      rw [State.machine_setMail, State.machine_setMail, State.machine_setMail]
      split
      · cases slot.event <;> rfl
      · rfl
    intro name t
    rw [heq]
    exact hok.setMail hd hincident (fun _ => hopen) name t
  · change Ledger slot' (((state.setMail slot d.claim).setMail slot
      (d.claim.record now a)).mail slot') _
    have hold : (diskAt .start (w.push (.answered ⟨slot, d.claim⟩ a)).hist).stateOrEmpty.mail slot' =
        (state.setMail slot d.claim).mail slot' := by
      rw [← hcalled.disk, World.push_disk, hs]
    rw [State.mail_setMail]
    by_cases he : slot = slot'
    · subst he
      rw [if_pos rfl]
      refine hself.rewritten (hold.trans (State.mail_setMail_self ..)) (State.mail_setMail_self ..)
        hincident hstatus ⟨hattempts.ge, hattempts.le.trans hthree⟩ (fun ho => ?_)
      -- still open: explicitly not sent, and for less than the third time
      cases a with
      | sent | uncertain => exact absurd ho (by simp [Delivery.record, MailStatus.isOpen])
      | notSent =>
          have hlt : d.claim.attempts < 3 := by
            by_contra hge
            simp [Delivery.record, not_lt.mp hge, MailStatus.isOpen] at ho
          refine ⟨by rw [hattempts]; exact Nat.le_of_lt_succ hlt, fun r hr => ?_⟩
          rw [mailEnds_answered ⟨slot, d.claim⟩] at hr
          rcases List.mem_cons.mp hr with rfl | hr
          · simp [finalMail]
          · exact hc.retriable r hr
    · rw [if_neg he]
      refine (hledger slot').collected hold ?_ .same
      change ((state.setMail slot d.claim).setMail slot (d.claim.record now a)).mail slot' = _
      rw [State.mail_setMail, if_neg he]

/-- **An episode** keeps the invariant, however far it gets. -/
theorem Inv.mailed (h : Inv w) (hstate : w.disk.state = some state)
    (hd : state.mail slot = some d) (hdue : d.isDue now = true) {w' : MonitorWorld}
    (he : Episode (claimMail state slot d) ⟨slot, d.claim⟩ (recordMail now state slot d) w w') :
    Inv w' := by
  obtain ⟨hinv, hc⟩ := h.claimed hstate hd hdue
  cases he with
  | claimed => exact hinv
  | lost => exact hinv.called hc rfl
  | answered a => exact hinv.called hc rfl
  | recorded a =>
      exact hinv.answered hc (Delivery.isOpen_of_isDue hdue)
        (stateOrEmpty_of_state hstate ▸ h.ok) hd a

end Mailed

/-! ## The calls of one run -/

/-- What a sender call is justified by: the state on disk it is made on, and the collection of the
    same run. -/
def Justified (summary : Summary) (q : Mailing) (disk : Disk) : Prop :=
  ∃ state row, disk.state = some state ∧ summary.sources.get? q.slot.source = some row ∧
    state.mail q.slot = some q.delivery ∧ q.delivery.incident.isSome ∧
    (q.slot.event = .failed →
      (state.machine q.slot.source q.slot.target).incident = q.delivery.incident) ∧
    (q.slot.event = .recovered →
      (state.machine q.slot.source q.slot.target).closedIncident = q.delivery.incident ∧
      (state.machine q.slot.source q.slot.target).incident = none ∧
      (row.observed summary.observedAt q.slot.target).1 = .healthy) ∧
    (q.slot.target = .observer → row.suppressedBy = none)

/-- What holds between the first persist of a run and its end. -/
structure During (summary : Summary) (collected : State) (base : List MonitorEvent)
    (w : MonitorWorld) : Prop where
  inv : Inv w
  state : ∃ s, w.disk.state = some s ∧
    (∀ name t, (s.machine name t).core = (collected.machine name t).core) ∧
    ∀ slot d, s.mail slot = some d → d.status.isOpen = true →
      ∃ d₀, collected.mail slot = some d₀ ∧ d₀.status.isOpen = true
  calls : CallsSince .start (Justified summary) base w.hist

/-- What a collection tells the deliveries that follow it. -/
structure Announces (summary : Summary) (collected : State) (slots : List Slot) : Prop where
  row : ∀ slot ∈ slots, ∃ row, summary.sources.get? slot.source = some row ∧
    (slot.target = .observer → row.suppressedBy = none) ∧
    ∀ d, slot.event = .recovered → collected.mail slot = some d → d.status.isOpen = true →
      (row.observed summary.observedAt slot.target).1 = .healthy

theorem Collected.announces {x : RunInput} {s s' : State} {summary : Summary}
    (h : Collected x.config x.call s s' summary) (hs : s.Ok) :
    Announces summary s' (x.slots summary) where
  row := by
    intro slot hslot
    obtain ⟨source, hsource, hm⟩ := List.mem_flatMap.mp hslot
    have hname : slot.source = source.name ∧ (slot.target = .observer →
        ((summary.sources.get? source.name).bind Row.suppressedBy).isSome = false) := by
      unfold sourceSlots at hm
      split at hm
      · rcases List.mem_cons.mp hm with rfl | hm
        · exact ⟨rfl, by simp⟩
        · obtain rfl := List.mem_singleton.mp hm
          exact ⟨rfl, by simp⟩
      · next hsup =>
        rw [Bool.not_eq_true] at hsup
        simp only [List.cons_append, List.nil_append, List.mem_cons, List.not_mem_nil,
          or_false] at hm
        rcases hm with rfl | rfl | rfl | rfl <;> exact ⟨rfl, fun _ => hsup⟩
    obtain ⟨row, hrow, hturn⟩ := h.turn hs hsource slot.target
    refine ⟨row, hname.1 ▸ hrow, fun ht => ?_, fun d he hd ho => ?_⟩
    · have hsup := hname.2 ht
      rw [hrow] at hsup
      simpa using hsup
    · rw [h.observedAt]
      rw [State.mail, he, hname.1] at hd
      exact hturn.healthy d hd ho

section During

variable {summary : Summary} {collected : State} {base : List MonitorEvent} {slots : List Slot}

/-- A call for a due delivery is justified. -/
theorem During.justified {w : MonitorWorld} (h : During summary collected base w)
    (ha : Announces summary collected slots) {now : ℚ} {state : State} {slot : Slot} {d : Delivery}
    (hstate : w.disk.state = some state) (hslot : slot ∈ slots) (hd : state.mail slot = some d)
    (hdue : d.isDue now = true) :
    Justified summary ⟨slot, d.claim⟩ (claimMail state slot d w.disk) := by
  have hopen := Delivery.isOpen_of_isDue hdue
  obtain ⟨row, hrow, hsup, hhealthy⟩ := ha.row slot hslot
  obtain ⟨s, hs, -, hopens⟩ := h.state
  obtain rfl := Option.some.inj (hs.symm.trans hstate)
  have hok := stateOrEmpty_of_state hstate ▸ h.inv.ok
  have hcore := State.core_setMail s slot d.claim slot.source slot.target
  have hreg := Machine.register_of_core hcore
  have hinc : ((s.setMail slot d.claim).machine slot.source slot.target).incident =
      (s.machine slot.source slot.target).register.incident := congrArg Register.incident hreg
  have hclosed : ((s.setMail slot d.claim).machine slot.source slot.target).closedIncident =
      (s.machine slot.source slot.target).register.closedIncident :=
    congrArg Register.closedIncident hreg
  refine ⟨_, row, rfl, hrow, State.mail_setMail_self .., ?_, ?_, ?_, hsup⟩
  · cases he : slot.event with
    | failed =>
        rw [State.mail, he] at hd
        obtain ⟨⟨k, hk, -⟩, -⟩ := (hok slot.source slot.target).failed d hd
        exact Option.isSome_iff_exists.mpr ⟨k, hk⟩
    | recovered =>
        rw [State.mail, he] at hd
        obtain ⟨⟨k, hk, -⟩, -⟩ := (hok slot.source slot.target).recovered d hd
        exact Option.isSome_iff_exists.mpr ⟨k, hk⟩
  · intro he
    replace he : slot.event = .failed := he
    rw [State.mail, he] at hd
    exact hinc.trans (((hok slot.source slot.target).failed d hd).2 hopen)
  · intro he
    replace he : slot.event = .recovered := he
    have hd' := hd
    rw [State.mail, he] at hd'
    obtain ⟨hnone, hlast⟩ := ((hok slot.source slot.target).recovered d hd').2 hopen
    obtain ⟨d₀, hd₀, hopen₀⟩ := hopens slot d hd hopen
    exact ⟨hclosed.trans hlast, hinc.trans hnone, hhealthy d₀ he hd₀ hopen₀⟩

/-- **Every move keeps what holds during a run.** -/
theorem During.move {w w' : MonitorWorld} (h : During summary collected base w)
    (ha : Announces summary collected slots) {now : ℚ} (hm : Move now slots w w') :
    During summary collected base w' := by
  cases hm with
  | published s =>
      obtain ⟨state, hstate, hcore, hopens⟩ := h.state
      refine ⟨h.inv.wrote ?_ (fun slot => .same), ⟨state, hstate, hcore, hopens⟩, h.calls.wrote _⟩
      exact h.inv.ok
  | @mailed _ state slot d hstate hslot hd hdue he =>
      have hopen := Delivery.isOpen_of_isDue hdue
      have hjust := h.justified ha hstate hslot hd hdue
      refine ⟨h.inv.mailed hstate hd hdue he, ?_, ?_⟩
      · obtain ⟨s, hs, hcore, hopens⟩ := h.state
        obtain rfl := Option.some.inj (hs.symm.trans hstate)
        have hset : ∀ (state : State) (d' : Delivery),
            (∀ name t, (state.machine name t).core = (collected.machine name t).core) →
            (∀ slot d, state.mail slot = some d → d.status.isOpen = true →
              ∃ d₀, collected.mail slot = some d₀ ∧ d₀.status.isOpen = true) →
            (∀ name t, ((state.setMail slot d').machine name t).core =
                (collected.machine name t).core) ∧
              ∀ slot₁ d₁, (state.setMail slot d').mail slot₁ = some d₁ → d₁.status.isOpen = true →
                ∃ d₀, collected.mail slot₁ = some d₀ ∧ d₀.status.isOpen = true := by
          intro state d' hcore' hopens'
          refine ⟨fun name t => (State.core_setMail ..).trans (hcore' name t), ?_⟩
          intro slot₁ d₁ hd₁ ho₁
          rw [State.mail_setMail] at hd₁
          by_cases he : slot = slot₁
          · subst he; exact hopens slot d hd hopen
          · rw [if_neg he] at hd₁; exact hopens' slot₁ d₁ hd₁ ho₁
        obtain ⟨hcore₁, hopens₁⟩ := hset s d.claim hcore hopens
        cases he with
        | claimed | lost | answered => exact ⟨_, rfl, hcore₁, hopens₁⟩
        | recorded a =>
            obtain ⟨hcore₂, hopens₂⟩ := hset _ (d.claim.record now a) hcore₁ hopens₁
            exact ⟨_, rfl, hcore₂, hopens₂⟩
      · cases he with
        | claimed => exact h.calls.wrote _
        | lost => exact (h.calls.wrote _).cons (by rintro q r ⟨⟩; exact hjust)
        | answered a => exact (h.calls.wrote _).cons (by rintro q r ⟨⟩; exact hjust)
        | recorded a => exact ((h.calls.wrote _).cons (by rintro q r ⟨⟩; exact hjust)).wrote _

end During

/-- **One run**: the invariant holds afterwards, and every sender call was justified. -/
theorem Inv.run {x : RunInput} {w w' : MonitorWorld} {r} (h : Inv w) (hrun : Runs (run x) w w' r) :
    Inv w' ∧ (w' = w ∨ ∃ state summary,
      collect x.config w.disk.stateOrEmpty x.now x.reader x.config.notificationsEnabled =
        (state, .ok summary) ∧ During summary state w.hist w') := by
  rcases run_cases hrun with ⟨rfl, -⟩ | ⟨state, summary, hc, hmoves, -⟩
  · exact ⟨h, .inl rfl⟩
  · have hcollected : Collected x.config x.call w.disk.stateOrEmpty state summary := collect_ok hc
    obtain ⟨hok, hsteps⟩ := hcollected.ok h.ok
    have hbegin : During summary state w.hist
        (w.wrote { w.disk with state := some state }) := by
      refine ⟨h.wrote hok hsteps, ⟨state, rfl, fun _ _ => rfl, fun slot d hd ho => ⟨d, hd, ho⟩⟩, ?_⟩
      exact callsSince_self.wrote _
    have hduring := invariant_of_moves (I := During summary state w.hist)
      (fun _ _ hd hm => During.move hd (hcollected.announces h.ok) hm) hbegin hmoves
    exact ⟨hduring.inv, .inr ⟨state, summary, hc, hduring⟩⟩

/-- The worlds that sequences of runs reach, each run with its own configuration, clock and reports,
    and killed anywhere. -/
inductive Reachable : MonitorWorld → Prop
  | start : Reachable ⟨.start, []⟩
  | run {w w' : MonitorWorld} {r} (x : RunInput) (h : Reachable w) (hrun : Runs (run x) w w' r) :
      Reachable w'
  | dryRun {w w' : MonitorWorld} {r} (x : RunInput) (h : Reachable w)
      (hrun : Runs (dryRun x) w w' r) : Reachable w'

theorem dryRun_same {x : RunInput} {w w' : MonitorWorld} {r} (h : Runs (dryRun x) w w' r) :
    w' = w := by
  rcases runs_look h with ⟨rfl, -⟩ | h
  · rfl
  · exact (runs_ret h).1

theorem Reachable.inv {w : MonitorWorld} (h : Reachable w) : Inv w := by
  induction h with
  | start => exact inv_start
  | run x _ hrun ih => exact (ih.run hrun).1
  | dryRun x _ hrun ih => rw [dryRun_same hrun]; exact ih

/-- **Mail delivery.** In every reachable world each slot was reserved at most once for an incident,
    and each reserved delivery was handed to the sender at most three times and never again after a
    call that ended in anything but `MailNotSent`. And every call of the next run is about the open
    incident, or about the last closed one of a target that is `HEALTHY` at that very collection;
    never about a suppressed observer. -/
theorem mail_delivery {w : MonitorWorld} (h : Reachable w) :
    (∀ slot, (reservations slot w.hist).Nodup) ∧
    (∀ slot incident, (mailEnds slot incident w.hist).length ≤ 3 ∧
      AtMostOnce finalMail (mailEnds slot incident w.hist)) ∧
    ∀ (x : RunInput) (w' : MonitorWorld) r, Runs (run x) w w' r → w' ≠ w →
      ∃ state summary, collect x.config w.disk.stateOrEmpty x.now x.reader
          x.config.notificationsEnabled = (state, .ok summary) ∧
        CallsSince .start (Justified summary) w.hist w'.hist := by
  refine ⟨fun slot => (h.inv.ledger slot).reserved,
    fun slot incident => ⟨(h.inv.ledger slot).thrice incident, (h.inv.ledger slot).once incident⟩, ?_⟩
  intro x w' r hrun hne
  rcases (h.inv.run hrun).2 with heq | ⟨state, summary, hc, hduring⟩
  · exact absurd heq hne
  · exact ⟨state, summary, hc, hduring.calls⟩

/-- A run of the demo configuration. -/
def demoRun (status : String) (time : ℚ) : RunInput where
  config := demoConfig
  now := time
  reader := (demoCall status time).reader
  mailReady := true

/-- The world after two failed samples, the second of which was mailed. -/
def demoWorld : MonitorWorld :=
  ((run (demoRun "FAILED" 160)).exec 9 ((run (demoRun "FAILED" 100)).exec 9 ⟨.start, []⟩ []).1 [.sent]).1

theorem demoWorld_reachable : Reachable demoWorld :=
  .run _ (.run _ .start (runs_exec _ _ _ _)) (runs_exec _ _ _ _)

/-- Incident 1 was mailed once, and is not mailed again. -/
theorem mail_delivery_one_mail :
    mailEnds ⟨"api", .own, .failed⟩ (some 1) demoWorld.hist = [some .sent] ∧
      (reservations ⟨"api", .own, .failed⟩ demoWorld.hist).Nodup ∧
      AtMostOnce finalMail (mailEnds ⟨"api", .own, .failed⟩ (some 1) demoWorld.hist) := by
  obtain ⟨hreserved, hends, -⟩ := mail_delivery demoWorld_reachable
  exact ⟨by decide +kernel, hreserved _, (hends _ _).2⟩

end Health
end PickleInfra
