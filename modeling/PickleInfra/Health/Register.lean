import Mathlib.Tactic.Linarith
import PickleInfra.Health.Machine

/-!
# `Health.Register` — the incident register of a machine, and what one sample does to it

Of the many counters of a target only five identify its incidents: they form its `Register`. A
sample leaves the register alone, opens the next incident, or closes the open one (`Registers`);
`observe_spec` says so of `observe`. `Register.Ok` is what a reader of a register may rely on; it is
kept by every sample.
-/

namespace PickleInfra
namespace Health

/-- What identifies the incidents of a target. -/
structure Register where
  sequence : Nat := 0
  incident : Option Nat := none
  openedAt : Option ℚ := none
  closedIncident : Option Nat := none
  closedAt : Option ℚ := none
deriving DecidableEq, Repr

namespace Register

/-- The next incident opens at `time`. -/
def opened (r : Register) (time : ℚ) : Register :=
  { r with sequence := r.sequence + 1, incident := some (r.sequence + 1), openedAt := some time }

/-- Incident `n` closes at `time`. -/
def closed (r : Register) (n : Nat) (time : ℚ) : Register :=
  { r with incident := none, closedIncident := some n, closedAt := some time }

/-- A register and the time of the latest sample it has seen. -/
structure Ok (r : Register) (latest : Option ℚ) : Prop where
  current : ∀ n, r.incident = some n → n = r.sequence ∧ 1 ≤ n
  closedLe : ∀ c, r.closedIncident = some c → 1 ≤ c ∧ c ≤ r.sequence ∧ ∀ n, r.incident = some n → c < n
  lastClosed : r.sequence ≠ 0 → r.incident = none → r.closedIncident = some r.sequence
  openedAt : r.sequence ≠ 0 → ∃ o s, r.openedAt = some o ∧ latest = some s ∧ 0 ≤ o ∧ o ≤ s
  closedAt : ∀ c, r.closedIncident = some c →
    ∃ a s, r.closedAt = some a ∧ latest = some s ∧ 0 ≤ a ∧ a ≤ s
  neverOpened : r.sequence = 0 → r.openedAt = none
  neverClosed : r.closedIncident = none → r.closedAt = none

theorem ok_start : Ok {} none where
  current := by simp
  closedLe := by simp
  lastClosed := by simp
  openedAt := by simp
  closedAt := by simp
  neverOpened := by simp
  neverClosed := by simp

variable {r : Register} {latest : Option ℚ} {time : ℚ}

/-- A later sample that changes nothing. -/
theorem Ok.later (h : Ok r latest) (hlater : ∀ s, latest = some s → s ≤ time) :
    Ok r (some time) where
  current := h.current
  closedLe := h.closedLe
  lastClosed := h.lastClosed
  openedAt := by
    intro hseq
    obtain ⟨o, s, ho, hs, hpos, hle⟩ := h.openedAt hseq
    exact ⟨o, time, ho, rfl, hpos, hle.trans (hlater s hs)⟩
  closedAt := by
    intro c hc
    obtain ⟨a, s, ha, hs, hpos, hle⟩ := h.closedAt c hc
    exact ⟨a, time, ha, rfl, hpos, hle.trans (hlater s hs)⟩
  neverOpened := h.neverOpened
  neverClosed := h.neverClosed

theorem Ok.opened (h : Ok r (some time)) (htime : 0 ≤ time) :
    Ok (r.opened time) (some time) where
  current := by rintro n ⟨⟩; exact ⟨rfl, Nat.le_add_left 1 _⟩
  closedLe := by
    intro c hc
    obtain ⟨hpos, hle, -⟩ := h.closedLe c hc
    refine ⟨hpos, Nat.le_succ_of_le hle, ?_⟩
    rintro n ⟨⟩
    exact Nat.lt_succ_of_le hle
  lastClosed := by rintro - ⟨⟩
  openedAt := fun _ => ⟨time, time, rfl, rfl, htime, le_refl _⟩
  closedAt := h.closedAt
  neverOpened := by rintro ⟨⟩
  neverClosed := h.neverClosed

theorem Ok.closed (h : Ok r (some time)) (htime : 0 ≤ time) {n : Nat} (hn : r.incident = some n) :
    Ok (r.closed n time) (some time) where
  current := by rintro m ⟨⟩
  closedLe := by
    rintro c ⟨⟩
    obtain ⟨hseq, hpos⟩ := h.current n hn
    exact ⟨hpos, hseq.le, by rintro m ⟨⟩⟩
  lastClosed := fun _ _ => congrArg some (h.current n hn).1
  openedAt := h.openedAt
  closedAt := by rintro c ⟨⟩; exact ⟨time, time, rfl, rfl, htime, le_refl _⟩
  neverOpened := h.neverOpened
  neverClosed := by rintro ⟨⟩

end Register

/-- What a sample may do to a register, and the transition `observe` returns for it. -/
inductive Registers (r : Register) (status : Status) (time : ℚ) : Register → Transition → Prop
  | opened (hs : status = .failed) (h : r.incident = none) :
      Registers r status time (r.opened time) .failed
  | closed {n : Nat} (hs : status = .healthy) (h : r.incident = some n) :
      Registers r status time (r.closed n time) .recovered
  | kept {event : Transition} (hf : event ≠ .failed) (hr : event ≠ .recovered) :
      Registers r status time r event

theorem Register.Ok.registers {r r' : Register} {latest : Option ℚ} {status : Status} {time : ℚ}
    {event : Transition} (h : r.Ok latest) (hlater : ∀ s, latest = some s → s ≤ time)
    (htime : 0 ≤ time) (hr : Registers r status time r' event) : r'.Ok (some time) := by
  cases hr with
  | opened => exact (h.later hlater).opened htime
  | closed _ hn => exact (h.later hlater).closed htime hn
  | kept => exact h.later hlater

namespace Machine

/-- The incident register of a machine. -/
def register (m : Machine) : Register where
  sequence := m.sequence
  incident := m.incident
  openedAt := m.openedAt
  closedIncident := m.closedIncident
  closedAt := m.closedAt

@[simp] theorem interrupt_register (m : Machine) : m.interrupt.register = m.register := rfl

@[simp] theorem advance_register (m : Machine) (status time freshness) :
    (m.advance status time freshness).register = m.register := by
  unfold advance; split <;> rfl

@[simp] theorem advance_mail (m : Machine) (status time freshness event) :
    (m.advance status time freshness).mail event = m.mail event := by
  unfold advance; cases event <;> split <;> rfl

theorem advance_sampleAt (m : Machine) (status : Status) (time freshness : ℚ) :
    (m.advance status time freshness).sampleAt = some time := by
  unfold advance; split <;> rfl

theorem advance_latestStatus (m : Machine) (status : Status) (time freshness : ℚ) :
    (m.advance status time freshness).latestStatus = some status := by
  unfold advance; split <;> rfl

/-- What one sample does to a machine: nothing, if it is stale; otherwise it is the latest sample,
    the register moves, and the mails are left alone. -/
structure Observes (m : Machine) (status : Status) (time : ℚ) (m' : Machine) (event : Transition) :
    Prop where
  registers : Registers m.register status time m'.register event
  mail : ∀ e, m'.mail e = m.mail e
  consumed : event ≠ .duplicate →
    m.isStale time = false ∧ m'.sampleAt = some time ∧ m'.latestStatus = some status
  stale : event = .duplicate → m.isStale time = true ∧ m'.register = m.register ∧
    m'.sampleAt = m.sampleAt ∧ m'.latestStatus = m.latestStatus

theorem Observes.interrupt {m m' : Machine} {status : Status} {time : ℚ} {event : Transition}
    (h : Observes m status time m' event) : Observes m status time m'.interrupt event where
  registers := h.registers
  mail := fun e => by rw [← h.mail e]; cases e <;> rfl
  consumed := h.consumed
  stale := h.stale

theorem fail_spec (m : Machine) (time : ℚ) (count : Int) :
    Registers m.register .failed time (m.fail time count).1.register (m.fail time count).2 ∧
      (m.fail time count).1.sampleAt = m.sampleAt ∧
      (m.fail time count).1.latestStatus = m.latestStatus ∧
      ∀ e, (m.fail time count).1.mail e = m.mail e := by
  by_cases h : m.incident = none ∧ count ≤ ((m.failures + 1 : Nat) : Int)
  · rw [fail_of_threshold h]
    exact ⟨.opened rfl h.1, rfl, rfl, fun e => by cases e <;> rfl⟩
  · rw [fail_of_below h]
    exact ⟨.kept (by simp) (by simp), rfl, rfl, fun e => by cases e <;> rfl⟩

theorem heal_spec (m : Machine) (time : ℚ) :
    Registers m.register .healthy time (m.heal time).1.register (m.heal time).2 ∧
      (m.heal time).1.sampleAt = m.sampleAt ∧ (m.heal time).1.latestStatus = m.latestStatus ∧
      ∀ e, (m.heal time).1.mail e = m.mail e := by
  cases hn : m.incident with
  | none =>
      rw [heal_of_none hn]
      exact ⟨.kept (by simp) (by simp), rfl, rfl, fun e => by cases e <;> rfl⟩
  | some n =>
      by_cases h : recoverySamples ≤ m.healthySamples + 1 ∧
          recoverySeconds ≤ time - m.healthySince.getD time
      · rw [heal_of_window hn h]
        exact ⟨.closed rfl hn, rfl, rfl, fun e => by cases e <;> rfl⟩
      · rw [heal_of_short hn h]
        exact ⟨.kept (by simp) (by simp), rfl, rfl, fun e => by cases e <;> rfl⟩

theorem fail_ne_duplicate (m : Machine) (time : ℚ) (count : Int) :
    (m.fail time count).2 ≠ .duplicate := by
  unfold fail; dsimp only; split <;> simp

theorem heal_ne_duplicate (m : Machine) (time : ℚ) : (m.heal time).2 ≠ .duplicate := by
  unfold heal; dsimp only
  split
  · simp
  · split <;> simp

/-- **What `observe` does.** -/
theorem observe_spec (m : Machine) (status : Status) (time : ℚ) (count : Int) (freshness : ℚ) :
    Observes m status time (m.observe status time count freshness).1
      (m.observe status time count freshness).2 := by
  unfold observe
  cases hs : m.isStale time with
  | true =>
      exact ⟨.kept (by simp) (by simp), fun _ => rfl, by simp, fun _ => ⟨hs, rfl, rfl, rfl⟩⟩
  | false =>
      simp only [Bool.false_eq_true, if_false]
      have hlast := advance_sampleAt m status time freshness
      have hlatest := advance_latestStatus m status time freshness
      have hreg := advance_register m status time freshness
      have hmail := advance_mail m status time freshness
      cases status with
      | failed =>
          obtain ⟨hr, hl, hst, hm⟩ := fail_spec (m.advance .failed time freshness) time count
          exact ⟨hreg ▸ hr, fun e => (hm e).trans (hmail e),
            fun _ => ⟨hs, hl.trans hlast, hst.trans hlatest⟩,
            fun hd => absurd hd (fail_ne_duplicate _ _ _)⟩
      | healthy =>
          obtain ⟨hr, hl, hst, hm⟩ := heal_spec (m.advance .healthy time freshness) time
          exact ⟨hreg ▸ hr, fun e => (hm e).trans (hmail e),
            fun _ => ⟨hs, hl.trans hlast, hst.trans hlatest⟩,
            fun hd => absurd hd (heal_ne_duplicate _ _)⟩
      | loading | budgetLimit | observerError =>
          refine ⟨?_, hmail, fun _ => ⟨hs, hlast, hlatest⟩, by simp⟩
          rw [hreg]
          exact .kept (by simp) (by simp)

end Machine
end Health
end PickleInfra
