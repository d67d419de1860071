import PickleInfra.Backup.Capacity

/-!
# `Backup.CapacityNotices` — what a run of the capacity monitor can do

A run changes nothing, saves a receipt it tells nobody of, or claims an alert and calls the sender
(`run_cases`); which of them, and with what receipt, is said once by `decide_quiet` and `decide_told`.
Receipts are well formed in every world (`Formed`), so the next run loads what was saved.
-/

namespace PickleInfra
namespace Backup
namespace Capacity

open Python Durable

/-! ## The note of a receipt -/

def Delivery.stage : Delivery → Stage
  | .attempted                        => .claimed
  | .notSent                          => .refused
  | .baseline | .noAlert              => .quiet
  | .sent | .uncertain | .retriesExhausted => .closed

def State.note (s : State) : Note := ⟨s.sequence, s.delivery.stage, s.attempts⟩

/-- The note of the store; without a receipt no number was used. -/
def noteOf : Option State → Note
  | none   => ⟨0, .quiet, 0⟩
  | some s => s.note

/-! ## Well-formed receipts -/

/-- What the runs keep of a receipt. -/
structure Formed (s : State) : Prop where
  sequence : 1 ≤ s.sequence
  attempts : s.attempts ≤ MAX_ATTEMPTS

/-- The receipt file is missing or well formed. -/
def FileFormed (file : Option State) : Prop := ∀ s, file = some s → Formed s

theorem mem_statuses (s : Status) : s.text ∈ statuses := by
  cases s <;> decide

theorem mem_deliveries (d : Delivery) : d.text ∈ deliveries := by
  cases d <;> decide

theorem lookup_epochEntry {key k : String} {epoch : Option ℚ} {rest : List (String × Json)} :
    Json.lookup k (epochEntry key epoch ++ rest) =
      if key = k then (epoch.map fun q => .float (.finite q)).or (Json.lookup k rest)
      else Json.lookup k rest := by
  unfold epochEntry
  cases epoch with
  | none => simp
  | some q => simp [Json.lookup]

/-- **A well-formed receipt is accepted** when it is read back. -/
theorem validateState_toJson {s : State} (h : Formed s) : validateState s.toJson = .ok () := by
  have hsequence : (1 : Int) ≤ s.sequence := by exact_mod_cast h.sequence
  have hattempts : (s.attempts : Int) ≤ (MAX_ATTEMPTS : Int) := by exact_mod_cast h.attempts
  have hstatus : s.toJson.getOrNull "status" = .str s.status.text := rfl
  have hnumber : s.toJson.getOrNull "sequence" = .int s.sequence := rfl
  have hdelivery : s.toJson.getOrNull "delivery" = .str s.delivery.text := rfl
  have hcount : s.toJson.getOrNull "attempts" = .int s.attempts := rfl
  have hcheck : ∀ text, validEpoch s.toJson "last_check_epoch" text = .ok () := by
    intro text
    have hget : s.toJson.get? "last_check_epoch" = s.lastCheckEpoch.map fun q => .float (.finite q) := by
      have hend := @lookup_epochEntry "retry_after" "last_check_epoch" s.retryAfter []
      rw [List.append_nil] at hend
      simp [State.toJson, Json.get?, Json.lookup, lookup_epochEntry, hend]
    unfold validEpoch
    rw [hget]
    cases s.lastCheckEpoch <;> rfl
  have hretry : ∀ text, validEpoch s.toJson "retry_after" text = .ok () := by
    intro text
    have hget : s.toJson.get? "retry_after" = s.retryAfter.map fun q => .float (.finite q) := by
      have hend := @lookup_epochEntry "retry_after" "retry_after" s.retryAfter []
      rw [List.append_nil] at hend
      simp [State.toJson, Json.get?, Json.lookup, lookup_epochEntry, hend]
    unfold validEpoch
    rw [hget]
    cases s.retryAfter <;> rfl
  have hform : ∃ e rest, s.toJson = .dict (e :: rest) := ⟨_, _, rfl⟩
  obtain ⟨e, rest, hjson⟩ := hform
  unfold validateState
  rw [hjson]
  show (do
    require (← memberOf statuses ((Json.dict (e :: rest)).getOrNull "status")) _
    require _ _
    require (← memberOf deliveries ((Json.dict (e :: rest)).getOrNull "delivery")) _
    require _ _
    validEpoch (Json.dict (e :: rest)) _ _
    validEpoch (Json.dict (e :: rest)) _ _) = _
  rw [← hjson, hstatus, hnumber, hdelivery, hcount, hcheck, hretry]
  simp [memberOf, mem_statuses, mem_deliveries, require, Json.asInt?, hsequence, hattempts,
    bind, Except.bind]

theorem loadState_eq {file : Option State} (h : FileFormed file) : loadState file = .ok file := by
  cases file with
  | none => rfl
  | some s =>
      show Except.map _ (validateState s.toJson) = _
      rw [validateState_toJson (h s rfl)]
      rfl

/-! ## What is decided -/

/-- The retry of an alert is due. -/
def Due (now : ℚ) (p : State) : Prop :=
  p.delivery = .notSent ∧ p.attempts < MAX_ATTEMPTS ∧ p.retryAfter.getD 0 ≤ now

theorem due_iff {now : ℚ} {p : State} :
    Due now p ↔ p.delivery = .notSent ∧ p.attempts < MAX_ATTEMPTS ∧ p.retryAfter.getD 0 ≤ now := Iff.rfl

/-- The receipt of the same notice, with another report. -/
def State.seen (p : State) (now : ℚ) (report : Report) : State :=
  { p with report := report, lastCheckEpoch := some now }

/-- The receipt of a new notice. -/
def opened (now : ℚ) (sequence : Nat) (report : Report) (delivery : Delivery) (event : MailEvent) : State where
  status := report.status
  sequence := sequence
  delivery := delivery
  attempts := 0
  event := event
  report := report
  lastCheckEpoch := some now

/-- The event of a change of status; a fall to a lower abnormal one has none. -/
def changeEvent (old new : Status) : Option MailEvent :=
  if new = .ok then some .recovered else if escalates old new then some (.abnormal new) else none

/-- **What a run decides**: one constructor for each way through `transition` and the retry. -/
inductive Decided (now : ℚ) (report : Report) : Option State → State → Option MailEvent → Prop
  | baseline (h : report.status = .ok) :
      Decided now report none (opened now 1 report .baseline .baseline) none
  | first (h : report.status ≠ .ok) :
      Decided now report none (opened now 1 report .attempted (.abnormal report.status))
        (some (.abnormal report.status))
  | same (p : State) (h : p.status = report.status) (hdue : ¬ Due now p) :
      Decided now report (some p) (p.seen now report) none
  | retry (p : State) (h : p.status = report.status ∨ changeEvent p.status report.status = none)
      (hdue : Due now p) : Decided now report (some p) (p.seen now report) (some p.event)
  | changed (p : State) (event : MailEvent) (h : p.status ≠ report.status)
      (hevent : changeEvent p.status report.status = some event) :
      Decided now report (some p) (opened now (p.sequence + 1) report .attempted event) (some event)
  | fell (p : State) (h : p.status ≠ report.status) (hevent : changeEvent p.status report.status = none)
      (hdue : ¬ Due now p) :
      Decided now report (some p) (opened now (p.sequence + 1) report .noAlert .statusChanged) none

theorem decided (now : ℚ) (previous : Option State) (report : Report) :
    Decided now report previous (decide now previous report).1 (decide now previous report).2 := by
  cases previous with
  | none =>
      unfold decide transition
      by_cases hok : report.status = .ok
      · simp only [if_pos hok]
        have h := @Decided.baseline now report hok
        unfold opened at h
        rwa [hok] at h
      · simp only [if_neg hok]
        exact .first hok
  | some p =>
      unfold decide transition
      by_cases hsame : p.status = report.status
      · simp only [if_pos hsame]
        by_cases hdue : Due now p
        · simp only [if_pos (due_iff.mp hdue)]
          exact .retry p (.inl hsame) hdue
        · simp only [if_neg (mt due_iff.mpr hdue)]
          exact .same p hsame hdue
      · simp only [if_neg hsame]
        cases hevent : changeEvent p.status report.status with
        | some event =>
            unfold changeEvent at hevent
            simp only [hevent]
            exact .changed p event hsame hevent
        | none =>
            have hevent' := hevent
            unfold changeEvent at hevent'
            simp only [hevent']
            by_cases hdue : Due now p
            · simp only [if_pos (due_iff.mp hdue)]
              exact .retry p (.inr hevent) hdue
            · simp only [if_neg (mt due_iff.mpr hdue)]
              exact .fell p hsame hevent hdue

section Decided

variable {now : ℚ} {report : Report} {previous : Option State} {u : State} {event : MailEvent}

/-- A receipt that is saved without a call keeps the notice, or opens the next one. -/
theorem Decided.quiet (h : Decided now report previous u none) :
    u.note = noteOf previous ∨ u.note = (noteOf previous).next := by
  cases h with
  | baseline h => exact .inr rfl
  | same p h hdue => exact .inl rfl
  | fell p h hevent hdue => exact .inr rfl

/-- A receipt that is saved before a call claims the next notice, or the one that was not sent. -/
theorem Decided.claims (h : Decided now report previous u (some event)) :
    (noteOf previous).Claims (claim u).note := by
  cases h with
  | first h => exact .inl rfl
  | retry p h hdue =>
      refine .inr ⟨?_, rfl⟩
      show p.delivery.stage = .refused
      rw [hdue.1]
      rfl
  | changed p event h hevent => exact .inl rfl

theorem Decided.formed (h : Decided now report previous u none) (hfile : FileFormed previous) :
    Formed u := by
  cases h with
  | baseline h => exact ⟨Nat.le_refl 1, Nat.zero_le _⟩
  | same p h hdue => exact ⟨(hfile p rfl).sequence, (hfile p rfl).attempts⟩
  | fell p h hevent hdue => exact ⟨Nat.le_add_left 1 _, Nat.zero_le _⟩

theorem Decided.formed_claim (h : Decided now report previous u (some event)) (hfile : FileFormed previous) :
    Formed (claim u) := by
  cases h with
  | first h => exact ⟨Nat.le_refl 1, by show 0 + 1 ≤ 3; decide⟩
  | retry p h hdue => exact ⟨(hfile p rfl).sequence, hdue.2.1⟩
  | changed p event h hevent => exact ⟨Nat.le_add_left 1 _, by show 0 + 1 ≤ 3; decide⟩

/-- A call settles its claim. -/
theorem outcome_settles {c s : State} {a : MailAnswer} (h : outcome now c a = some s) :
    c.note.Settles MAX_ATTEMPTS (a = .rejected) s.note := by
  cases a with
  | returned => obtain rfl := Option.some.inj h; exact ⟨rfl, rfl, .inl rfl⟩
  | rejected =>
      unfold outcome at h
      dsimp only at h
      split at h
      · obtain rfl := Option.some.inj h
        exact ⟨rfl, rfl, .inl rfl⟩
      · next hroom =>
        obtain rfl := Option.some.inj h
        exact ⟨rfl, rfl, .inr ⟨rfl, rfl, Nat.lt_of_not_le hroom⟩⟩
  | unknown => obtain rfl := Option.some.inj h; exact ⟨rfl, rfl, .inl rfl⟩
  | raised => cases h

/-- The outcome changes the delivery alone, and when to try again. -/
theorem outcome_same {c s : State} {a : MailAnswer} (h : outcome now c a = some s) :
    s.status = c.status ∧ s.sequence = c.sequence ∧ s.attempts = c.attempts ∧ s.event = c.event ∧
      s.report = c.report := by
  cases a with
  | returned => obtain rfl := Option.some.inj h; exact ⟨rfl, rfl, rfl, rfl, rfl⟩
  | rejected =>
      unfold outcome at h
      dsimp only at h
      split at h <;> (obtain rfl := Option.some.inj h; exact ⟨rfl, rfl, rfl, rfl, rfl⟩)
  | unknown => obtain rfl := Option.some.inj h; exact ⟨rfl, rfl, rfl, rfl, rfl⟩
  | raised => cases h

end Decided

/-! ## A run -/

/-- How far a run got after its decision. -/
inductive Acted (x : RunInput) (report : Report) (w : CapacityWorld) : CapacityWorld → Prop
  | quiet (u : State) (h : Decided x.now report w.disk u none) : Acted x report w (w.wrote (some u))
  | told {w'} (u : State) (event : MailEvent) (h : Decided x.now report w.disk u (some event))
      (htold : Told ⟨event, report, u.sequence⟩
        (fun answer => (outcome x.now (claim u) answer).map some) (w.wrote (some (claim u))) w') :
      Acted x report w w'

/-- **A run** leaves the world alone, or acts on its decision. -/
theorem run_cases {x : RunInput} {w w' : CapacityWorld} {r} (hfile : FileFormed w.disk)
    (h : Runs (run x) w w' r) : w' = w ∨ ∃ report, x.read = some report ∧ Acted x report w w' := by
  rcases runs_look h with ⟨rfl, -⟩ | h
  · exact .inl rfl
  rw [loadState_eq hfile] at h
  dsimp only at h
  split at h
  · exact .inl (runs_ret h).1
  split at h
  · exact .inl (runs_ret h).1
  next report hread =>
  have hdecided := decided x.now w.disk report
  split at h
  · next u hu =>
    rw [hu] at hdecided
    rcases runs_write h with ⟨rfl, -⟩ | h
    · exact .inl rfl
    · rw [(runs_ret h).1]
      exact .inr ⟨report, hread, .quiet u hdecided⟩
  · next u event hu =>
    rw [hu] at hdecided
    rcases runs_tell h with rfl | htold
    · exact .inl rfl
    · exact .inr ⟨report, hread, .told u event hdecided htold⟩

/-- The sequence goes up by one where the recorded status changes, and stays where it does not. -/
def StatusStep (old new : Option State) : Prop :=
  ∃ s, new = some s ∧
    ((old.map State.status = some s.status ∧ s.sequence = (noteOf old).sequence) ∨
      (old.map State.status ≠ some s.status ∧ s.sequence = (noteOf old).sequence + 1))

theorem Decided.statusStep {now : ℚ} {report : Report} {previous : Option State} {u : State}
    {event : Option MailEvent} (h : Decided now report previous u event) :
    StatusStep previous (some u) := by
  refine ⟨u, rfl, ?_⟩
  cases h with
  | baseline h => exact .inr ⟨by simp, rfl⟩
  | first h => exact .inr ⟨by simp, rfl⟩
  | same p h hdue => exact .inl ⟨rfl, rfl⟩
  | retry p h hdue => exact .inl ⟨rfl, rfl⟩
  | changed p event h hevent => exact .inr ⟨fun hc => h (Option.some.inj hc), rfl⟩
  | fell p h hevent hdue => exact .inr ⟨fun hc => h (Option.some.inj hc), rfl⟩

/-- What every write does: the sequence follows the status, and the receipt is well formed. -/
def Saves (old new : Option State) : Prop := StatusStep old new ∧ FileFormed new

/-- What every reachable world satisfies. -/
structure Inv (w : CapacityWorld) : Prop where
  kept : Kept noteOf Mailing.sequence (· = .rejected) MAX_ATTEMPTS w
  formed : FileFormed w.disk
  saves : WritesRelated Saves none w.hist
  disk : w.disk = diskAt none w.hist

theorem inv_start : Inv ⟨none, []⟩ where
  kept := kept_start none fun h => by cases h
  formed := fun _ h => by cases h
  saves := writesRelated_nil
  disk := rfl

theorem fileFormed_some {s : State} (h : Formed s) : FileFormed (some s) := by
  intro s' hs'
  obtain rfl := Option.some.inj hs'
  exact h

theorem Inv.run {x : RunInput} {w w' : CapacityWorld} {r} (h : Inv w) (hrun : Runs (run x) w w' r) :
    Inv w' := by
  have hdisk' := runs_diskAt hrun h.disk
  rcases run_cases h.formed hrun with rfl | ⟨report, -, hacted⟩
  · exact h
  cases hacted with
  | quiet u hu =>
      have hformed := fileFormed_some (hu.formed h.formed)
      exact ⟨h.kept.quiet hu.quiet, hformed, h.saves.wrote (h.disk ▸ ⟨hu.statusStep, hformed⟩), hdisk'⟩
  | told u event hu htold =>
      have hclaims : (noteOf w.disk).Claims (noteOf (some (claim u))) := hu.claims
      have hformed := fileFormed_some (hu.formed_claim h.formed)
      -- what the outcome makes of the claim
      have hrecord : ∀ a d, (outcome x.now (claim u) a).map some = some d →
          (noteOf (some (claim u))).Settles MAX_ATTEMPTS (a = .rejected) (noteOf d) ∧
            Saves (some (claim u)) d := by
        intro a d hd
        obtain ⟨s, hs, rfl⟩ := Option.map_eq_some_iff.mp hd
        obtain ⟨hstatus, hsequence, hattempts, -⟩ := outcome_same hs
        have hclaimed := hformed _ rfl
        refine ⟨outcome_settles hs, ⟨s, rfl, .inl ⟨congrArg some hstatus.symm, hsequence⟩⟩, ?_⟩
        exact fileFormed_some ⟨hsequence ▸ hclaimed.sequence, hattempts ▸ hclaimed.attempts⟩
      refine ⟨?_, ?_, ?_, hdisk'⟩
      · exact h.kept.told (by decide) hclaims rfl (fun a d hd => (hrecord a d hd).1) htold
      · cases htold with
        | claimed => exact hformed
        | lost => exact hformed
        | answered a => exact hformed
        | recorded a d hd => exact (hrecord a d hd).2.2
      · refine h.saves.told h.disk ⟨?_, hformed⟩ (fun a d hd => (hrecord a d hd).2) htold
        obtain ⟨s, hs, hstep⟩ := hu.statusStep
        obtain rfl := Option.some.inj hs
        exact ⟨claim u, rfl, hstep⟩

theorem Reachable.inv {w : CapacityWorld} (h : Reachable w) : Inv w := by
  induction h with
  | start => exact inv_start
  | run x _ hrun ih => exact ih.run hrun

end Capacity
end Backup
end PickleInfra
