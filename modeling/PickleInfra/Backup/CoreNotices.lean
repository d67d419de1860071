import PickleInfra.Backup.Core

/-!
# `Backup.CoreNotices` — what a run of the core monitor can do

A run changes nothing, saves an observation beside the notification it found, opens the baseline, or
claims a notification and calls the sender (`run_cases`). Every state that is saved has the observation
of the run as its last one.
-/

namespace PickleInfra
namespace Backup
namespace Core

open Python Durable

/-! ## The note of a notification -/

def Delivery.stage : Delivery → Stage
  | .attempted                             => .claimed
  | .notSent                               => .refused
  | .baseline                              => .quiet
  | .sent | .uncertain | .retriesExhausted => .closed

/-- The notification of the state file. -/
def noticeOf (file : Option State) : Option Notice := file.bind State.notice

/-- The note of a notification; without one no number was used. -/
def Notice.note : Option Notice → Note
  | none   => ⟨0, .quiet, 0⟩
  | some n => ⟨n.sequence, n.delivery.stage, n.attempts⟩

def noteOf (file : Option State) : Note := Notice.note (noticeOf file)

/-! ## What is decided -/

/-- The state of a run before its notification: an observation, and the time of the check. -/
structure Recorded (x : RunInput) (file : Option State) (o : Observation) (s : State) : Prop where
  observed : observed x (file.getD {}).lastObservation = some o
  schema : s.schemaVersion = some 1
  observation : s.lastObservation = some o
  clock : s.lastCheckEpoch = some x.now

/-- The notification that a run claims: the one whose retry is due, or the next. -/
inductive Claimed (now : ℚ) (o : Observation) : Option Notice → Notice → Prop
  | retry (p : Notice) (hstatus : p.status = o.report.status) (hdue : p.due now = true) :
      Claimed now o (some p) { p with report := o }
  | next {previous : Option Notice} (n : Notice) (hstatus : n.status = o.report.status)
      (hchanged : previous.map Notice.status ≠ some o.report.status)
      (hsequence : n.sequence = (Notice.note previous).sequence + 1) (hattempts : n.attempts = 0) :
      Claimed now o previous n

/-- How far a run got after its observation. -/
inductive Acted (x : RunInput) (o : Observation) (w : CoreWorld) : CoreWorld → Prop
  | same (s : State) (hrec : Recorded x w.disk o s) (hnotice : s.notice = noticeOf w.disk)
      (hstatus : o.report.status = .pending ∨ (noticeOf w.disk).map Notice.status = some o.report.status) :
      Acted x o w (w.wrote (some s))
  | baseline (s : State) (n : Notice) (hrec : Recorded x w.disk o s) (hnotice : s.notice = some n)
      (hnone : noticeOf w.disk = none) (hsame : n.status = o.report.status)
      (hn : Notice.note (some n) = (Notice.note none).next)
      (hstatus : o.report.status ≠ .pending) : Acted x o w (w.wrote (some s))
  | told {w'} (s : State) (n : Notice) (hrec : Recorded x w.disk o s)
      (hstatus : o.report.status ≠ .pending) (hclaimed : Claimed x.now o (noticeOf w.disk) n)
      (htold : Told ⟨o, n.event, n.sequence⟩
        (fun answer => (n.claim.outcome x.now answer).map fun n => some { s with notice := some n })
        (w.wrote (some { s with notice := some n.claim })) w') : Acted x o w w'

theorem recordObservation_notice (s : State) (o : Observation) :
    (recordObservation s o).notice = s.notice := by
  unfold recordObservation
  dsimp only
  split <;> rfl

/-- What `transition` leaves alone. -/
theorem transition_same {s : State} {o : Observation} :
    (transition s o).1.schemaVersion = s.schemaVersion ∧
      (transition s o).1.lastObservation = s.lastObservation ∧
      (transition s o).1.lastCheckEpoch = s.lastCheckEpoch := by
  unfold transition
  dsimp only
  split <;> exact ⟨rfl, rfl, rfl⟩

/-- Without an event the status is the one before, and nothing changes. -/
theorem transition_none {s u : State} {o : Observation} (h : transition s o = (u, none)) :
    u = s ∧ s.notice.map Notice.status = some o.report.status := by
  unfold transition at h
  dsimp only at h
  split at h
  · next hsame => exact ⟨(congrArg Prod.fst h).symm, hsame⟩
  · cases congrArg Prod.snd h

/-- An event comes with the next notification. -/
theorem transition_some {s u : State} {o : Observation} {event : MailEvent}
    (h : transition s o = (u, some event)) :
    s.notice.map Notice.status ≠ some o.report.status ∧ ∃ n, u.notice = some n ∧
      n.status = o.report.status ∧ n.sequence = (Notice.note s.notice).sequence + 1 ∧ n.event = event ∧
      n.attempts = 0 ∧ (event = .baseline → s.notice = none ∧ n.delivery = .baseline) := by
  unfold transition at h
  dsimp only at h
  split at h
  · cases congrArg Prod.snd h
  next hdiff =>
  refine ⟨hdiff, ?_⟩
  have hu := congrArg Prod.fst h
  have hevent := Option.some.inj (congrArg Prod.snd h)
  dsimp only at hu hevent
  rw [← hu]
  refine ⟨_, rfl, rfl, ?_, hevent, rfl, ?_⟩
  · cases s.notice <;> rfl
  · rintro rfl
    rw [hevent]
    refine ⟨?_, rfl⟩
    split at hevent
    · next hfirst => exact Option.map_eq_none_iff.mp hfirst.1
    · split at hevent <;> cases hevent

/-- **The second half of a run.** -/
theorem announce_cases {x : RunInput} {o : Observation} {s : State} {w w' : CoreWorld} {r}
    (hrec : Recorded x w.disk o s) (hnotice : s.notice = noticeOf w.disk)
    (hstatus : o.report.status ≠ .pending) (h : Runs (announce x.now s o) w w' r) :
    w' = w ∨ Acted x o w w' := by
  unfold announce at h
  cases htransition : transition s o with
  | mk u event =>
  rw [htransition] at h
  cases event with
  | none =>
      obtain ⟨-, hsame⟩ := transition_none htransition
      rw [hnotice] at hsame
      dsimp only at h
      rw [hnotice] at h
      cases hp : noticeOf w.disk with
      | none =>
          rw [hp] at hsame
          cases hsame
      | some p =>
          simp only [hp] at h
          split at h
          · next hdue =>
            rcases runs_tell h with rfl | htold
            · exact .inl rfl
            refine .inr (.told s { p with report := o } hrec hstatus ?_ htold)
            rw [hp] at hsame ⊢
            exact .retry p (Option.some.inj hsame) hdue
          · rcases runs_write h with ⟨rfl, -⟩ | h
            · exact .inl rfl
            · rw [(runs_ret h).1]
              exact .inr (.same s hrec hnotice (.inr hsame))
  | some event =>
      obtain ⟨hdiff, n, hn, hsame, hsequence, hevent, hattempts, hbaseline⟩ := transition_some htransition
      obtain ⟨hschema, hobservation, hclock⟩ := transition_same (s := s) (o := o)
      rw [htransition] at hschema hobservation hclock
      have hrec' : Recorded x w.disk o u :=
        ⟨hrec.observed, hschema.trans hrec.schema, hobservation.trans hrec.observation,
          hclock.trans hrec.clock⟩
      rw [hnotice] at hdiff hsequence
      dsimp only at h
      rw [hn] at h
      split at h
      · -- the baseline is saved without a call
        obtain ⟨hnone, hdelivery⟩ := hbaseline rfl
        rcases runs_write h with ⟨rfl, -⟩ | h
        · exact .inl rfl
        rw [(runs_ret h).1]
        rw [hnotice] at hnone
        rw [hnone] at hsequence
        refine .inr (.baseline u n hrec' hn hnone hsame ?_ hstatus)
        show (⟨n.sequence, n.delivery.stage, n.attempts⟩ : Note) = _
        rw [hsequence, hattempts, hdelivery]
        rfl
      · next n' _ hn' =>
        obtain rfl := Option.some.inj hn'
        rcases runs_tell h with rfl | htold
        · exact .inl rfl
        · exact .inr (.told u n hrec' hstatus (.next n hsame hdiff hsequence hattempts) htold)
      · next hnone => cases hnone

/-- **A run** leaves the world alone, or acts on its observation. -/
theorem run_cases {x : RunInput} {w w' : CoreWorld} {r} (h : Runs (run x) w w' r) :
    w' = w ∨ ∃ o, Acted x o w w' := by
  rcases runs_look h with ⟨rfl, -⟩ | h
  · exact .inl rfl
  dsimp only at h
  split at h
  · exact .inl (runs_ret h).1
  split at h
  · exact .inl (runs_ret h).1
  next o hobserved =>
  split at h
  · exact .inl (runs_ret h).1
  -- the state with the observation, and what it has in common with the file
  have hrec : Recorded x w.disk o { recordObservation (w.disk.getD {}) o with lastCheckEpoch := some x.now } :=
    ⟨hobserved, rfl, rfl, rfl⟩
  have hnotice : (recordObservation (w.disk.getD {}) o).notice = noticeOf w.disk := by
    rw [recordObservation_notice]
    cases w.disk <;> rfl
  split at h
  · next hpending =>
    rcases runs_write h with ⟨rfl, -⟩ | h
    · exact .inl rfl
    · rw [(runs_ret h).1]
      exact .inr ⟨o, .same _ hrec hnotice (.inl hpending)⟩
  · next hstatus =>
    rcases announce_cases hrec hnotice hstatus h with rfl | hacted
    · exact .inl rfl
    · exact .inr ⟨o, hacted⟩

/-! ## What every write does -/

/-- The sequence goes up by one where the recorded status changes, and stays where it does not. -/
def StatusStep (old new : Option State) : Prop :=
  ((noticeOf old).map Notice.status = (noticeOf new).map Notice.status ∧
      (noteOf new).sequence = (noteOf old).sequence) ∨
    ((noticeOf old).map Notice.status ≠ (noticeOf new).map Notice.status ∧
      (noteOf new).sequence = (noteOf old).sequence + 1)

/-- The outcome changes the delivery alone, and when to try again. -/
theorem outcome_same {now : ℚ} {c n : Notice} {a : MailAnswer} (h : c.outcome now a = some n) :
    n.status = c.status ∧ n.sequence = c.sequence ∧ n.attempts = c.attempts ∧
      (n.delivery.stage = .closed ∨ (n.delivery.stage = .refused ∧ a = .notSent ∧ c.attempts < 3)) := by
  cases a with
  | returned =>
      obtain rfl := Option.some.inj h
      exact ⟨rfl, rfl, rfl, .inl rfl⟩
  | notSent =>
      unfold Notice.outcome at h
      dsimp only at h
      split at h
      · obtain rfl := Option.some.inj h
        exact ⟨rfl, rfl, rfl, .inl rfl⟩
      · next hroom =>
        obtain rfl := Option.some.inj h
        exact ⟨rfl, rfl, rfl, .inr ⟨rfl, rfl, Nat.lt_of_not_le hroom⟩⟩
  | uncertain =>
      obtain rfl := Option.some.inj h
      exact ⟨rfl, rfl, rfl, .inl rfl⟩
  | raised => cases h

section Claimed

variable {now : ℚ} {o : Observation} {previous : Option Notice} {n : Notice}

theorem Claimed.claims (h : Claimed now o previous n) :
    (Notice.note previous).Claims (Notice.note (some n.claim)) := by
  cases h with
  | retry p hstatus hdue =>
      unfold Notice.due at hdue
      rw [Bool.and_eq_true, Bool.and_eq_true, decide_eq_true_iff] at hdue
      refine .inr ⟨?_, rfl⟩
      show p.delivery.stage = .refused
      rw [hdue.1.1]
      rfl
  | next n hstatus hchanged hsequence hattempts =>
      left
      show (⟨n.sequence, .claimed, n.attempts + 1⟩ : Note) = _
      rw [hsequence, hattempts]

theorem Claimed.status (h : Claimed now o previous n) : n.status = o.report.status := by
  cases h with
  | retry p hstatus hdue => exact hstatus
  | next n hstatus hchanged hsequence hattempts => exact hstatus

/-- The claim steps the sequence with the status. -/
theorem Claimed.statusStep (h : Claimed now o previous n) :
    (previous.map Notice.status = some n.status ∧ n.sequence = (Notice.note previous).sequence) ∨
      (previous.map Notice.status ≠ some n.status ∧ n.sequence = (Notice.note previous).sequence + 1) := by
  cases h with
  | retry p hstatus hdue => exact .inl ⟨rfl, rfl⟩
  | next n hstatus hchanged hsequence hattempts => exact .inr ⟨hstatus ▸ hchanged, hsequence⟩

end Claimed

/-- What every reachable world satisfies. -/
structure Inv (w : CoreWorld) : Prop where
  kept : Kept noteOf Mailing.sequence (· = .notSent) 3 w
  saves : WritesRelated StatusStep none w.hist
  disk : w.disk = diskAt none w.hist

theorem inv_start : Inv ⟨none, []⟩ where
  kept := kept_start none fun h => by cases h
  saves := writesRelated_nil
  disk := rfl

theorem Inv.run {x : RunInput} {w w' : CoreWorld} {r} (h : Inv w) (hrun : Runs (run x) w w' r) : Inv w' := by
  have hdisk' := runs_diskAt hrun h.disk
  rcases run_cases hrun with rfl | ⟨o, hacted⟩
  · exact h
  cases hacted with
  | same s hrec hnotice hstatus =>
      have hnote : noteOf (some s) = noteOf w.disk := congrArg Notice.note hnotice
      refine ⟨h.kept.quiet (.inl hnote), h.saves.wrote (h.disk ▸ .inl ⟨?_, ?_⟩), hdisk'⟩
      · exact congrArg (Option.map Notice.status) hnotice.symm
      · rw [hnote]
  | baseline s n hrec hnotice hnone hsame hn hstatus =>
      have hnew : noteOf (some s) = (noteOf w.disk).next := by
        show Notice.note s.notice = (Notice.note (noticeOf w.disk)).next
        rw [hnotice, hnone, hn]
      refine ⟨h.kept.quiet (.inr hnew), h.saves.wrote (h.disk ▸ .inr ⟨?_, ?_⟩), hdisk'⟩
      · show (noticeOf w.disk).map Notice.status ≠ s.notice.map Notice.status
        rw [hnone, hnotice]
        simp
      · rw [hnew]
        rfl
  | told s n hrec hstatus hclaimed htold =>
      have hclaims : (noteOf w.disk).Claims (noteOf (some { s with notice := some n.claim })) :=
        hclaimed.claims
      have hstep : StatusStep w.disk (some { s with notice := some n.claim }) := hclaimed.statusStep
      -- what the outcome makes of the claim
      have hsettles : ∀ a d,
          (n.claim.outcome x.now a).map (fun n => some { s with notice := some n }) = some d →
          (noteOf (some { s with notice := some n.claim })).Settles 3 (a = .notSent) (noteOf d) ∧
            StatusStep (some { s with notice := some n.claim }) d := by
        intro a d hd
        obtain ⟨n', hn', rfl⟩ := Option.map_eq_some_iff.mp hd
        obtain ⟨hsame, hsequence, hattempts, hstage⟩ := outcome_same hn'
        exact ⟨⟨hsequence, hattempts, hstage⟩, .inl ⟨congrArg some hsame.symm, hsequence⟩⟩
      refine ⟨?_, ?_, hdisk'⟩
      · exact h.kept.told (by decide) hclaims rfl (fun a d hd => (hsettles a d hd).1) htold
      · exact h.saves.told h.disk hstep (fun a d hd => (hsettles a d hd).2) htold

theorem Reachable.inv {clock : ℚ → Prop} {w : CoreWorld} (h : Reachable clock w) : Inv w := by
  induction h with
  | start => exact inv_start
  | run x _ _ hrun ih => exact ih.run hrun

/-- **A pending observation** leaves the notification alone, killed or not. -/
theorem run_pending {x : RunInput} {w w' : CoreWorld} {r} {o : Observation}
    (ho : observed x (w.disk.getD {}).lastObservation = some o) (hpending : o.report.status = .pending)
    (h : Runs (run x) w w' r) : noticeOf w'.disk = noticeOf w.disk := by
  rcases run_cases h with rfl | ⟨o', hacted⟩
  · rfl
  -- the observation that was acted on is the pending one
  have hsame : ∀ {s}, Recorded x w.disk o' s → o'.report.status = .pending := by
    intro s hrec
    obtain rfl := Option.some.inj (hrec.observed.symm.trans ho)
    exact hpending
  cases hacted with
  | same s hrec hnotice hstatus => exact hnotice
  | baseline s n hrec hnotice hnone hstatusEq hn hstatus => exact absurd (hsame hrec) hstatus
  | told s n hrec hstatus hclaimed htold => exact absurd (hsame hrec) hstatus

end Core
end Backup
end PickleInfra
