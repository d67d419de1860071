import Mathlib.Data.List.Range
import Mathlib.Tactic.Linarith
import PickleInfra.History.Streak
import PickleInfra.Health.Machine

/-!
# `Health.Incident` — what the incident machine computes from the history of its samples

`Machine.tick` is what one collection does to the incident part of a target: `observe`, then the
extra interruption of `collect` when the status is `OBSERVER_ERROR`. A `Trace` replays a list of
collections and keeps, next to the machine, the history in its own terms: the consumed samples
(`Mark.sample`, with the incident that was open then), the interruptions (`Mark.cut`), and the
numbers opened and closed. `Trace.Ok` says how the counters of the machine read that history; it
holds of every replay (`replay_ok`), and the opening and closing conditions follow from it.
-/

namespace PickleInfra
namespace Health

open Python History

/-- One entry of a target's history. -/
inductive Mark where
  | sample (at_ : ℚ) (status : Status) (incident : Option Nat)
  | cut
deriving DecidableEq, Repr

namespace Mark

def time? : Mark → Option ℚ
  | .sample t _ _ => some t
  | .cut          => none

/-- A consumed `FAILED` sample. -/
def failed? : Mark → Option ℚ
  | .sample t .failed _ => some t
  | _                   => none

/-- A `HEALTHY` sample consumed while incident `n` was open. -/
def healthy? (n : Nat) : Mark → Option ℚ
  | .sample t .healthy (some m) => if m = n then some t else none
  | _                           => none

theorem time_of_failed {mk : Mark} {t : ℚ} (h : mk.failed? = some t) : mk.time? = some t := by
  unfold failed? at h; split at h <;> simp_all [time?]

theorem time_of_healthy {n : Nat} {mk : Mark} {t : ℚ} (h : mk.healthy? n = some t) :
    mk.time? = some t := by
  unfold healthy? at h; split at h
  · split at h <;> simp_all [time?]
  · simp at h

end Mark

/-- Two consecutive samples without a gap. -/
def Near (freshness later earlier : ℚ) : Prop := later - earlier ≤ freshness

instance (freshness : ℚ) : DecidableRel (Near freshness) :=
  fun later earlier => inferInstanceAs (Decidable (later - earlier ≤ freshness))

/-- The thresholds a target is observed with. -/
structure Params where
  failureCount : Int
  freshness : ℚ
  positive : 0 < failureCount

/-- `observe` and the interruption `collect` adds for an `OBSERVER_ERROR`. -/
def Machine.tick (p : Params) (m : Machine) (status : Status) (time : ℚ) : Machine × Transition :=
  let (m', event) := m.observe status time p.failureCount p.freshness
  (if status = .observerError then m'.interrupt else m', event)

/-- A target together with its history, newest first. -/
structure Trace where
  machine : Machine := {}
  marks : List Mark := []
  opened : List Nat := []
  closed : List Nat := []

namespace Trace

/-- The marks one collection adds: the sample if it is consumed, then the cut. -/
def newMarks (m : Machine) (status : Status) (time : ℚ) : List Mark :=
  (if status = .observerError then [.cut] else []) ++
    (if m.isStale time then [] else [.sample time status m.incident])

/-- The incident that is open in the second state and was not in the first. -/
def fresh (before after : Option Nat) : List Nat := if before = none then after.toList else []

@[simp] theorem fresh_self (i : Option Nat) : fresh i i = [] := by cases i <;> rfl
@[simp] theorem fresh_none (i : Option Nat) : fresh none i = i.toList := rfl
@[simp] theorem fresh_some (n : Nat) (i : Option Nat) : fresh (some n) i = [] := rfl

/-- One more collection. -/
def next (p : Params) (tr : Trace) (status : Status) (time : ℚ) : Trace :=
  let m := (tr.machine.tick p status time).1
  { machine := m
    marks := newMarks tr.machine status time ++ tr.marks
    opened := fresh tr.machine.incident m.incident ++ tr.opened
    closed := fresh m.incident tr.machine.incident ++ tr.closed }

/-- The trace of a list of collections, newest first. -/
def replay (p : Params) : List (Status × ℚ) → Trace
  | []                     => {}
  | (status, time) :: rest => (replay p rest).next p status time

/-- The consumed sample times, newest first. -/
def times (tr : Trace) : List ℚ := tr.marks.filterMap Mark.time?

/-- The longest suffix of consumed samples that are all `FAILED` without a gap or a cut. -/
def failedStreak (p : Params) (tr : Trace) : List ℚ :=
  streak Mark.failed? (Near p.freshness) tr.marks

/-- The longest run of `HEALTHY` samples taken while incident `n` was open, without a gap, a cut or
    another sample in between. -/
def healthyStreak (p : Params) (n : Nat) (tr : Trace) : List ℚ :=
  streak (Mark.healthy? n) (Near p.freshness) tr.marks

/-- How the machine reads the history. -/
structure Ok (p : Params) (tr : Trace) : Prop where
  last : tr.machine.sampleAt = tr.times.head?
  sorted : tr.times.Pairwise (· > ·)
  failures : tr.machine.failures = (tr.failedStreak p).length
  below : tr.machine.incident = none → (tr.machine.failures : Int) < p.failureCount
  healthySamples : ∀ n, tr.machine.incident = some n →
    tr.machine.healthySamples = (tr.healthyStreak p n).length
  healthySince : ∀ n, tr.machine.incident = some n →
    tr.machine.healthySince = (tr.healthyStreak p n).getLast?
  opened : tr.opened = (List.range' 1 tr.machine.sequence).reverse
  current : ∀ n, tr.machine.incident = some n → n = tr.machine.sequence ∧ n ∉ tr.closed
  closedSorted : tr.closed.Pairwise (· > ·)
  closedLe : ∀ n ∈ tr.closed, 1 ≤ n ∧ n ≤ tr.machine.sequence
  pos : ∀ n, tr.machine.incident = some n → 1 ≤ n

theorem ok_start (p : Params) : Ok p {} where
  last := rfl
  sorted := List.Pairwise.nil
  failures := rfl
  below := fun _ => p.positive
  healthySamples := by simp
  healthySince := by simp
  opened := rfl
  current := by simp
  closedSorted := List.Pairwise.nil
  closedLe := by simp
  pos := by simp

/-! ## One collection preserves `Ok` -/

variable {p : Params} {tr : Trace}

/-- A sample that is not stale is newer than every consumed one. -/
theorem Ok.newer (h : Ok p tr) {time : ℚ} (hs : tr.machine.isStale time = false) :
    ∀ t ∈ tr.times, t < time := by
  intro t ht
  cases htimes : tr.times with
  | nil => simp [htimes] at ht
  | cons c cs =>
      have hlast : tr.machine.sampleAt = some c := by rw [h.last, htimes]; rfl
      have hc : c < time := by simpa [Machine.isStale, hlast] using hs
      have hsorted := h.sorted
      rw [htimes, List.pairwise_cons] at hsorted
      rw [htimes, List.mem_cons] at ht
      rcases ht with rfl | ht
      · exact hc
      · exact lt_trans (hsorted.1 t ht) hc

/-- The consumed samples are those newer than every sample consumed before. -/
theorem Ok.isStale_iff (h : Ok p tr) (time : ℚ) :
    tr.machine.isStale time = false ↔ ∀ t ∈ tr.times, t < time := by
  refine ⟨h.newer, fun hall => ?_⟩
  rw [Machine.isStale, h.last]
  cases htimes : tr.times with
  | nil => rfl
  | cons c cs =>
      have hc : c < time := hall c (by simp [htimes])
      simpa using hc

/-- The numbers opened so far are `1, 2, …`; a closed one was opened, and the open one is not closed. -/
theorem Ok.mem_opened (h : Ok p tr) {n : Nat} :
    n ∈ tr.opened ↔ 1 ≤ n ∧ n ≤ tr.machine.sequence := by
  rw [h.opened, List.mem_reverse, List.mem_range'_1]
  omega

/-- **A new selected sample and the streak**: the streak starts again after a gap, and grows by one
    otherwise. A gap is measured from the last consumed sample of any status, but if that sample is
    not selected there is no streak to break. -/
theorem Ok.streak_sample (h : Ok p tr) {sel : Mark → Option ℚ}
    (hsel : ∀ mk t, sel mk = some t → mk.time? = some t) {mk : Mark} {time : ℚ}
    (hmk : sel mk = some time) :
    streak sel (Near p.freshness) (mk :: tr.marks) =
      if tr.machine.isGap time p.freshness then [time]
      else time :: streak sel (Near p.freshness) tr.marks := by
  have hhead : ∀ c ∈ (streak sel (Near p.freshness) tr.marks).head?,
      tr.machine.sampleAt = some c := by
    intro c hc
    obtain ⟨a, ha, hac⟩ := head_streak hc
    cases hm : tr.marks with
    | nil => simp [hm] at ha
    | cons x xs =>
        rw [hm, List.head?_cons, Option.mem_some_iff] at ha
        subst ha
        rw [h.last, times, hm, List.filterMap_cons, hsel _ _ hac]
        rfl
  by_cases hg : tr.machine.isGap time p.freshness = true
  · rw [if_pos hg]
    apply streak_cons_far hmk
    intro c hc
    simp only [Machine.isGap, hhead c hc, decide_eq_true_eq] at hg
    exact not_le.mpr hg
  · rw [if_neg hg]
    apply streak_cons_near hmk
    intro c hc
    simp only [Machine.isGap, hhead c hc, decide_eq_true_eq] at hg
    exact not_lt.mp hg

/-- An interruption alone. -/
theorem Ok.cut (h : Ok p tr) : Ok p { tr with
    machine := tr.machine.interrupt, marks := .cut :: tr.marks } where
  last := h.last
  sorted := h.sorted
  failures := rfl
  below := fun _ => p.positive
  healthySamples := fun _ _ => rfl
  healthySince := fun _ _ => rfl
  opened := h.opened
  current := h.current
  closedSorted := h.closedSorted
  closedLe := h.closedLe
  pos := h.pos

/-- A consumed sample that is neither `HEALTHY` nor `FAILED`. -/
theorem Ok.other (h : Ok p tr) {status : Status} {time : ℚ}
    (hs : tr.machine.isStale time = false) (hf : status ≠ .failed) (hh : status ≠ .healthy) :
    Ok p { tr with
      machine := tr.machine.advance status time p.freshness
      marks := .sample time status tr.machine.incident :: tr.marks } := by
  have hadv : tr.machine.advance status time p.freshness =
      { tr.machine with sampleAt := some time, latestStatus := some status }.interrupt := by
    simp [Machine.advance, hf, hh]
  have hnone : ∀ n, Mark.healthy? n (.sample time status tr.machine.incident) = none := by
    intro n; cases status <;> first | exact absurd rfl hh | rfl
  rw [hadv]
  refine ⟨rfl, List.pairwise_cons.mpr ⟨h.newer hs, h.sorted⟩, ?_, fun _ => p.positive, ?_, ?_,
    h.opened, h.current, h.closedSorted, h.closedLe, h.pos⟩
  · rw [failedStreak, streak_cons_none (by cases status <;> first | exact absurd rfl hf | rfl)]
    rfl
  · intro n _; rw [healthyStreak, streak_cons_none (hnone n)]; rfl
  · intro n _; rw [healthyStreak, streak_cons_none (hnone n)]; rfl

/-- A `FAILED` or `HEALTHY` sample: only a gap interrupts. -/
theorem advance_plain {m : Machine} {status : Status} {time freshness : ℚ}
    (h : status = .healthy ∨ status = .failed) :
    m.advance status time freshness =
      if m.isGap time freshness then
        { m with sampleAt := some time, latestStatus := some status }.interrupt
      else { m with sampleAt := some time, latestStatus := some status } := by
  rcases h with rfl | rfl <;> simp [Machine.advance]

@[simp] theorem interrupt_incident (m : Machine) : m.interrupt.incident = m.incident := rfl

@[simp] theorem advance_incident (m : Machine) (status : Status) (time freshness : ℚ) :
    (m.advance status time freshness).incident = m.incident := by
  unfold Machine.advance; split <;> rfl

theorem advance_sequence (m : Machine) (status : Status) (time freshness : ℚ) :
    (m.advance status time freshness).sequence = m.sequence := by
  unfold Machine.advance; split <;> rfl

theorem advance_failures_le (m : Machine) (status : Status) (time freshness : ℚ) :
    (m.advance status time freshness).failures ≤ m.failures := by
  unfold Machine.advance; split <;> simp [Machine.interrupt]

theorem advance_sampleAt (m : Machine) (status : Status) (time freshness : ℚ) :
    (m.advance status time freshness).sampleAt = some time := by
  unfold Machine.advance; split <;> rfl

/-- The failure counter after a consumed `FAILED` sample is the length of the new streak. -/
theorem Ok.failures_sample (h : Ok p tr) (time : ℚ) (inc : Option Nat) :
    (tr.machine.advance .failed time p.freshness).failures + 1 =
      (streak Mark.failed? (Near p.freshness) (.sample time .failed inc :: tr.marks)).length := by
  rw [h.streak_sample (fun _ _ => Mark.time_of_failed) rfl, advance_plain (.inr rfl)]
  have hf := h.failures
  by_cases hg : tr.machine.isGap time p.freshness = true
  · simp [hg, Machine.interrupt]
  · simp [hg, hf, failedStreak]

/-- A consumed `FAILED` sample. -/
theorem Ok.failed (h : Ok p tr) {time : ℚ} (hs : tr.machine.isStale time = false) :
    Ok p { tr with
      machine := ((tr.machine.advance .failed time p.freshness).fail time p.failureCount).1
      marks := .sample time .failed tr.machine.incident :: tr.marks
      opened := fresh tr.machine.incident
        ((tr.machine.advance .failed time p.freshness).fail time p.failureCount).1.incident
          ++ tr.opened
      closed := fresh
        ((tr.machine.advance .failed time p.freshness).fail time p.failureCount).1.incident
        tr.machine.incident ++ tr.closed } := by
  have hinc := advance_incident tr.machine .failed time p.freshness
  have hseq := advance_sequence tr.machine .failed time p.freshness
  have hsample := advance_sampleAt tr.machine .failed time p.freshness
  have hfail := h.failures_sample time tr.machine.incident
  have hsorted := List.pairwise_cons.mpr ⟨h.newer hs, h.sorted⟩
  have hhealthy : ∀ n, streak (Mark.healthy? n) (Near p.freshness)
      (.sample time .failed tr.machine.incident :: tr.marks) = [] :=
    fun n => streak_cons_none rfl
  generalize tr.machine.advance .failed time p.freshness = m at hinc hseq hsample hfail ⊢
  by_cases hopen : m.incident = none ∧ p.failureCount ≤ ((m.failures + 1 : Nat) : Int)
  · -- the threshold is reached: incident `sequence + 1` opens
    have hfresh : ∀ n ∈ tr.closed, n < tr.machine.sequence + 1 := fun n hn =>
      Nat.lt_succ_of_le (h.closedLe n hn).2
    have hnone : tr.machine.incident = none := hinc ▸ hopen.1
    simp only [Machine.fail, if_pos hopen, hseq]
    simp only [hnone, fresh_none, fresh_some, Option.toList_some, List.nil_append]
    rw [hnone] at hfail hhealthy
    refine ⟨hsample, hsorted, hfail, by simp, fun n _ => by rw [healthyStreak, hhealthy]; rfl,
      fun n _ => by rw [healthyStreak, hhealthy]; rfl, ?_, ?_, h.closedSorted, ?_, ?_⟩
    · rw [h.opened, List.range'_1_concat, List.reverse_append]; simp [Nat.add_comm]
    · rintro n ⟨⟩; exact ⟨rfl, fun hm => absurd (hfresh _ hm) (lt_irrefl _)⟩
    · exact fun n hn => ⟨(h.closedLe n hn).1, Nat.le_succ_of_le (h.closedLe n hn).2⟩
    · rintro n ⟨⟩; exact Nat.le_add_left 1 _
  · simp only [Machine.fail, if_neg hopen]
    simp only [hinc, fresh_self, List.nil_append]
    refine ⟨hsample, hsorted, hfail, ?_, fun n _ => by rw [healthyStreak, hhealthy]; rfl,
      fun n _ => by rw [healthyStreak, hhealthy]; rfl, ?_, ?_, h.closedSorted, ?_, ?_⟩
    · intro hnone
      exact not_le.mp (fun hle => hopen ⟨hinc.trans hnone, hle⟩)
    · simpa [hseq] using h.opened
    · intro n hn; rw [hseq]; exact h.current n hn
    · rw [hseq]; exact h.closedLe
    · exact h.pos

/-- The recovery window after a consumed `HEALTHY` sample is the new streak: as many samples, and
    counted from its oldest one. -/
theorem Ok.window_sample (h : Ok p tr) {n : Nat} (hn : tr.machine.incident = some n) (time : ℚ) :
    (tr.machine.advance .healthy time p.freshness).healthySamples + 1 =
        (streak (Mark.healthy? n) (Near p.freshness)
          (.sample time .healthy tr.machine.incident :: tr.marks)).length ∧
      some ((tr.machine.advance .healthy time p.freshness).healthySince.getD time) =
        (streak (Mark.healthy? n) (Near p.freshness)
          (.sample time .healthy tr.machine.incident :: tr.marks)).getLast? := by
  have hsel : Mark.healthy? n (.sample time .healthy tr.machine.incident) = some time := by
    simp [Mark.healthy?, hn]
  rw [h.streak_sample (fun _ _ => Mark.time_of_healthy) hsel, advance_plain (.inl rfl)]
  have hcount := h.healthySamples n hn
  have hsince := h.healthySince n hn
  rw [healthyStreak] at hcount hsince
  by_cases hg : tr.machine.isGap time p.freshness = true
  · simp [hg, Machine.interrupt]
  · simp [hg, hcount, hsince, List.getLast?_cons]

/-- A consumed `HEALTHY` sample. -/
theorem Ok.healthy (h : Ok p tr) {time : ℚ} (hs : tr.machine.isStale time = false) :
    Ok p { tr with
      machine := ((tr.machine.advance .healthy time p.freshness).heal time).1
      marks := .sample time .healthy tr.machine.incident :: tr.marks
      opened := fresh tr.machine.incident
        ((tr.machine.advance .healthy time p.freshness).heal time).1.incident ++ tr.opened
      closed := fresh ((tr.machine.advance .healthy time p.freshness).heal time).1.incident
        tr.machine.incident ++ tr.closed } := by
  have hinc := advance_incident tr.machine .healthy time p.freshness
  have hseq := advance_sequence tr.machine .healthy time p.freshness
  have hsample := advance_sampleAt tr.machine .healthy time p.freshness
  have hsorted := List.pairwise_cons.mpr ⟨h.newer hs, h.sorted⟩
  have hwindow := fun n hn => h.window_sample (n := n) hn time
  have hfailed : streak Mark.failed? (Near p.freshness)
      (.sample time .healthy tr.machine.incident :: tr.marks) = [] := streak_cons_none rfl
  generalize tr.machine.advance .healthy time p.freshness = m at hinc hseq hsample hwindow ⊢
  cases hn : tr.machine.incident with
  | none =>
      rw [hn] at hinc
      simp only [Machine.heal, hinc, fresh_self, List.nil_append]
      refine ⟨hsample, hsorted, ?_, fun _ => p.positive, by simp, by simp, ?_, by simp,
        h.closedSorted, ?_, by simp⟩
      · rw [failedStreak, ← hn, hfailed]; rfl
      · simpa [hseq] using h.opened
      · rw [hseq]; exact h.closedLe
  | some n =>
      obtain ⟨hcount, hsince⟩ := hwindow n hn
      have hcur := h.current n hn
      rw [hn] at hinc hcount hsince hfailed
      by_cases hclose : recoverySamples ≤ m.healthySamples + 1 ∧
          recoverySeconds ≤ time - m.healthySince.getD time
      · -- the window is long enough: incident `n` closes
        simp only [Machine.heal, hinc, if_pos hclose, fresh_none, fresh_some, Option.toList_some,
          List.nil_append]
        refine ⟨hsample, hsorted, ?_, fun _ => p.positive, by simp, by simp, ?_, by simp, ?_, ?_,
          by simp⟩
        · rw [failedStreak, hfailed]; rfl
        · simpa [hseq] using h.opened
        · refine List.pairwise_cons.mpr ⟨fun c hc => ?_, h.closedSorted⟩
          have hle := (h.closedLe c hc).2
          have hne : c ≠ n := fun he => hcur.2 (he ▸ hc)
          omega
        · intro c hc
          rw [hseq]
          rcases List.mem_cons.mp hc with rfl | hc
          · exact ⟨h.pos _ hn, hcur.1.le⟩
          · exact h.closedLe c hc
      · simp only [Machine.heal, hinc, if_neg hclose, fresh_self, List.nil_append]
        refine ⟨hsample, hsorted, ?_, fun _ => p.positive, ?_, ?_, ?_, ?_, h.closedSorted, ?_, ?_⟩
        · rw [failedStreak, hfailed]; rfl
        · rintro k hk
          obtain rfl : n = k := by simpa [hinc] using hk
          exact hcount
        · rintro k hk
          obtain rfl : n = k := by simpa [hinc] using hk
          exact hsince
        · simpa [hseq] using h.opened
        · rintro k hk
          obtain rfl : n = k := by simpa [hinc] using hk
          exact ⟨by simpa [hseq] using hcur.1, hcur.2⟩
        · rw [hseq]; exact h.closedLe
        · rintro k hk
          obtain rfl : n = k := by simpa [hinc] using hk
          exact h.pos n hn

/-- **One collection preserves `Ok`.** -/
theorem ok_next (h : Ok p tr) (status : Status) (time : ℚ) : Ok p (tr.next p status time) := by
  cases hs : tr.machine.isStale time with
  | true =>
      -- a duplicate: only an `OBSERVER_ERROR` does anything, and it interrupts
      by_cases he : status = .observerError
      · simpa [next, newMarks, Machine.tick, Machine.observe, hs, he] using h.cut
      · simpa [next, newMarks, Machine.tick, Machine.observe, hs, he] using h
  | false =>
      cases status with
      | failed => simpa [next, newMarks, Machine.tick, Machine.observe, hs]
          using h.failed hs
      | healthy => simpa [next, newMarks, Machine.tick, Machine.observe, hs]
          using h.healthy hs
      | loading => simpa [next, newMarks, Machine.tick, Machine.observe, hs]
          using @Ok.other _ _ h .loading _ hs (by simp) (by simp)
      | budgetLimit => simpa [next, newMarks, Machine.tick, Machine.observe, hs]
          using @Ok.other _ _ h .budgetLimit _ hs (by simp) (by simp)
      | observerError => simpa [next, newMarks, Machine.tick, Machine.observe, hs]
          using (@Ok.other _ _ h .observerError _ hs (by simp) (by simp)).cut

theorem replay_ok (p : Params) (obs : List (Status × ℚ)) : Ok p (replay p obs) := by
  induction obs with
  | nil => exact ok_start p
  | cons o rest ih => exact ok_next ih o.1 o.2

/-! ## When incidents open and close -/

/-- **An incident opens** exactly at a consumed `FAILED` sample that makes the streak of failures as
    long as the threshold while no incident is open. -/
theorem Ok.opens_iff (h : Ok p tr) (status : Status) (time : ℚ) :
    (tr.machine.incident = none ∧ (tr.next p status time).machine.incident ≠ none) ↔
      tr.machine.isStale time = false ∧ status = .failed ∧ tr.machine.incident = none ∧
        (((tr.next p status time).failedStreak p).length : Int) = p.failureCount := by
  cases hs : tr.machine.isStale time with
  | true =>
      have hinc : (tr.next p status time).machine.incident = tr.machine.incident := by
        simp only [next, Machine.tick, Machine.observe, hs, if_true]
        split <;> rfl
      simp [hinc]
  | false =>
      by_cases hf : status = .failed
      · subst hf
        have hstreak : (tr.next p .failed time).failedStreak p =
            streak Mark.failed? (Near p.freshness)
              (.sample time .failed tr.machine.incident :: tr.marks) := by
          simp [failedStreak, next, newMarks, hs]
        have hmachine : (tr.next p .failed time).machine =
            ((tr.machine.advance .failed time p.freshness).fail time p.failureCount).1 := by
          simp [next, Machine.tick, Machine.observe, hs]
        have hle := advance_failures_le tr.machine .failed time p.freshness
        rw [hstreak, ← h.failures_sample, hmachine, Machine.fail]
        simp only [advance_incident]
        by_cases hopen : tr.machine.incident = none
        · have hbelow := h.below hopen
          by_cases hcount : p.failureCount ≤
              ((tr.machine.advance .failed time p.freshness).failures + 1 : Nat)
          · rw [if_pos ⟨hopen, hcount⟩]
            simp only [hopen, ne_eq, reduceCtorEq, not_false_eq_true, and_self, true_and, true_iff]
            omega
          · rw [if_neg (fun hc => hcount hc.2)]
            simp only [hopen, ne_eq, not_true_eq_false, and_false, true_and,
              false_iff]
            omega
        · simp [hopen]
      · have hinc : (tr.next p status time).machine.incident = none ↔
            (tr.machine.incident = none ∨ (tr.next p status time).machine.incident = none) := by
          refine ⟨.inr, ?_⟩
          rintro (hnone | hnone)
          · cases status with
            | failed => exact absurd rfl hf
            | healthy => simp [next, Machine.tick, Machine.observe, hs, Machine.heal, hnone]
            | loading | budgetLimit | observerError =>
                simp [next, Machine.tick, Machine.observe, hs, hnone]
          · exact hnone
        simp only [hf, false_and, and_false, iff_false, not_and, not_not]
        exact fun hnone => hinc.mpr (.inl hnone)

/-- The values of a streak, oldest last, are the newest consumed times. -/
theorem Ok.streak_sorted (h : Ok p tr) {sel : Mark → Option ℚ}
    (hsel : ∀ mk t, sel mk = some t → mk.time? = some t) :
    (streak sel (Near p.freshness) tr.marks).Pairwise (· > ·) :=
  h.sorted.sublist ((streak_isStreak tr.marks).prefix_filterMap hsel).sublist

/-- If some streak of `HEALTHY` samples is long enough, the longest one is. -/
theorem Ok.window_of_streak (h : Ok p tr) {n : Nat} {ts : List ℚ} {first time : ℚ}
    (hts : IsStreak (Mark.healthy? n) (Near p.freshness) tr.marks ts)
    (hlength : recoverySamples ≤ ts.length) (hfirst : ts.getLast? = some first)
    (hspan : recoverySeconds ≤ time - first) :
    recoverySamples ≤ (tr.healthyStreak p n).length ∧
      ∃ oldest, (tr.healthyStreak p n).getLast? = some oldest ∧ recoverySeconds ≤ time - oldest := by
  have hsorted := @Ok.streak_sorted _ _ h (Mark.healthy? n) (fun _ _ => Mark.time_of_healthy)
  obtain ⟨rest, hrest⟩ := isStreak_iff_isPrefix.mp hts
  rw [healthyStreak, ← hrest]
  rw [← hrest] at hsorted
  refine ⟨by rw [List.length_append]; omega, ?_⟩
  cases hlast : rest.getLast? with
  | none =>
      rw [List.getLast?_eq_none_iff] at hlast
      exact ⟨first, by simpa [hlast] using hfirst, hspan⟩
  | some oldest =>
      have hlt : oldest < first := (List.pairwise_append.mp hsorted).2.2 first
        (List.mem_of_getLast? hfirst) oldest (List.mem_of_getLast? hlast)
      exact ⟨oldest, by simp [List.getLast?_append, hlast], by linarith⟩

/-- **An incident closes** exactly at a consumed `HEALTHY` sample that ends a streak of at least two
    `HEALTHY` samples taken while it was open and spanning at least the recovery time. -/
theorem Ok.closes_iff (h : Ok p tr) (status : Status) (time : ℚ) :
    (tr.machine.incident ≠ none ∧ (tr.next p status time).machine.incident = none) ↔
      tr.machine.isStale time = false ∧ status = .healthy ∧ ∃ n, tr.machine.incident = some n ∧
        ∃ ts first, IsStreak (Mark.healthy? n) (Near p.freshness) (tr.next p status time).marks ts ∧
          2 ≤ ts.length ∧ ts.getLast? = some first ∧ 3600 ≤ time - first := by
  cases hs : tr.machine.isStale time with
  | true =>
      have hinc : (tr.next p status time).machine.incident = tr.machine.incident := by
        simp only [next, Machine.tick, Machine.observe, hs, if_true]
        split <;> rfl
      simp [hinc]
  | false =>
      cases hopen : tr.machine.incident with
      | none => simp
      | some n =>
          by_cases hh : status = .healthy
          · subst hh
            have hmarks : (tr.next p .healthy time).marks =
                .sample time .healthy tr.machine.incident :: tr.marks := by
              simp [next, newMarks, hs]
            have hmachine : (tr.next p .healthy time).machine =
                ((tr.machine.advance .healthy time p.freshness).heal time).1 := by
              simp [next, Machine.tick, Machine.observe, hs]
            obtain ⟨hcount, hsince⟩ := h.window_sample hopen time
            have hiff : (tr.next p .healthy time).machine.incident = none ↔
                recoverySamples ≤ ((tr.next p .healthy time).healthyStreak p n).length ∧
                  ∃ oldest, ((tr.next p .healthy time).healthyStreak p n).getLast? = some oldest ∧
                    recoverySeconds ≤ time - oldest := by
              rw [healthyStreak, hmarks, ← hcount, ← hsince, hmachine, Machine.heal]
              simp only [advance_incident, hopen, Option.some.injEq, exists_eq_left']
              split <;> simp_all
            constructor
            · rintro ⟨-, hnone⟩
              obtain ⟨hlength, oldest, hlast, hspan⟩ := hiff.mp hnone
              exact ⟨rfl, rfl, n, rfl, _, oldest, streak_isStreak _, hlength, hlast, hspan⟩
            · rintro ⟨-, -, k, hk, ts, first, hts, hlength, hfirst, hspan⟩
              obtain rfl : n = k := by simpa using hk
              exact ⟨by simp, hiff.mpr ((ok_next h .healthy time).window_of_streak hts hlength
                hfirst hspan)⟩
          · have hkeep : (tr.next p status time).machine.incident ≠ none := by
              cases status with
              | healthy => exact absurd rfl hh
              | failed =>
                  simp only [next, Machine.tick, Machine.observe, hs, Machine.fail]
                  simp [hopen]
              | loading | budgetLimit | observerError =>
                  simp [next, Machine.tick, Machine.observe, hs, hopen]
            simp [hkeep, hh]

end Trace
end Health
end PickleInfra
