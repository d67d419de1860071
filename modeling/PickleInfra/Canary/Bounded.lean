import Mathlib.Algebra.Order.Floor.Ring
import PickleInfra.Canary.Outcome
import PickleInfra.History.Spaced

/-!
# `Canary.Bounded` — paid requests are bounded

Over any runs on one state directory, killed anywhere, with any answers and any clock: requests keep their distance, a day
has no more than its maximum, and a run that is refused leaves the last request and the report as they were.
-/

namespace PickleInfra
namespace Canary

open Python Durable History
open Health (epoch)

/-! ## One run -/

/-- `last_request` of the state directory. -/
def StateDirectory.last (d : StateDirectory) : Option ℚ := (d.budget.getD {}).last

theorem Budget.onDay_last (b : Budget) (day : String) : (b.onDay day).last = b.last := by
  unfold Budget.onDay
  split <;> rfl

theorem checked_eq_ok {now : ℚ} {b b' : Budget} (h : checked now b = .ok b') :
    b.lastCheck.getD 0 ≤ now ∧ b' = { b with lastCheck := some now } := by
  unfold checked at h
  split at h
  · cases h
  next hle =>
    cases h
    exact ⟨not_lt.mp hle, rfl⟩

section Stage

variable {clock : Json} {d : StateDirectory} {now : ℚ} {b : Budget} {limits : Limits}

theorem Ready.last (h : Ready clock d now b) : b.last = d.last := by
  obtain ⟨b', day, hchecked, -, rfl⟩ := h.decided
  rw [Budget.onDay_last, (checked_eq_ok hchecked).2]
  rfl

/-- An admitted run keeps the distance to the last request. -/
theorem Ready.fits (h : Ready clock d now b) (hadmits : b.refuses limits now = false) {last : ℚ}
    (hlast : d.last = some last) : limits.period ≤ now - last := by
  unfold Budget.refuses at hadmits
  rw [h.last, hlast, Bool.or_eq_false_iff, decide_eq_false_iff_not] at hadmits
  exact not_lt.mp hadmits.1

theorem Ready.unique {now' : ℚ} {b' : Budget} (h : Ready clock d now b) (h' : Ready clock d now' b') :
    now = now' ∧ b = b' := by
  obtain rfl : now = now' := by simpa [h.epoch] using h'.epoch
  obtain ⟨c, day, hc, hday, rfl⟩ := h.decided
  obtain ⟨c', day', hc', hday', rfl⟩ := h'.decided
  obtain rfl : c = c' := by simpa [hc] using hc'
  obtain rfl : day = day' := by simpa [hday] using hday'
  exact ⟨rfl, rfl⟩

end Stage

/-- What a run does to the last request: its requests keep their distance to it, and it only moves on. -/
theorem Outcome.spacing {limits : Limits} {clock : Json} {d d' : StateDirectory} {requests : List ℚ}
    (h : Outcome limits clock d requests d') (hperiod : 0 ≤ limits.period) :
    (requests = [] ∨ ∃ now, requests = [now] ∧ d'.last = some now ∧ ∀ l, d.last = some l → limits.period ≤ now - l) ∧
      ∀ l, d.last = some l → ∃ l', d'.last = some l' ∧ l ≤ l' := by
  have hspent : ∀ {now b}, Ready clock d now b → b.refuses limits now = false →
      ∀ l, d.last = some l → ∃ l', some now = some l' ∧ l ≤ l' := by
    intro now b hready hadmits l hl
    exact ⟨now, rfl, by linarith [hready.fits hadmits hl]⟩
  cases h with
  | untouched => exact ⟨.inl rfl, fun l hl => ⟨l, hl, le_refl l⟩⟩
  | refused hready => exact ⟨.inl rfl, fun l hl => ⟨l, hready.last.trans hl, le_refl l⟩⟩
  | spent hready hadmits => exact ⟨.inl rfl, hspent hready hadmits⟩
  | requested hready hadmits =>
      exact ⟨.inr ⟨_, rfl, rfl, fun l hl => hready.fits hadmits hl⟩, hspent hready hadmits⟩
  | reported hready hadmits report =>
      exact ⟨.inr ⟨_, rfl, rfl, fun l hl => hready.fits hadmits hl⟩, hspent hready hadmits⟩

/-! ## All runs -/

section Log

variable {X : Type}

/-- The requests of a log with the runs that made them, newest first. -/
def requestsIn (log : List (Entry X StateDirectory Ask Answer)) : List (ℚ × X) :=
  log.flatMap fun c => (requestsOf c.hist).map fun now => (now, c.input)

/-- What is promised of the paid requests of a probe, with the limits and the clock of each run. -/
structure Bounded (probe : X → Probe Report) (limits : X → Limits) (clock : X → Json) : Prop where
  /-- A request comes at least the period of its run after every older one. -/
  spaced : ∀ {init log d}, Logged (fun x => (probe x).run) init log d →
    (requestsIn log).Pairwise fun later earlier => (limits later.2).period ≤ later.1 - earlier.1
  /-- In a day of UTC there are no more requests under the same limits than their maximum. -/
  daily : ∀ {init log d}, Logged (fun x => (probe x).run) init log d → ∀ (l : Limits) (day : ℤ),
    ((requestsIn log).filter fun r => decide (limits r.2 = l) && decide (⌊r.1 / 86400⌋ = day)).length ≤ l.maximum
  /-- A run with a clock that went back changes nothing. -/
  clockBack : ∀ {x d w r now}, Runs (probe x).run ⟨d, []⟩ w r → epoch (clock x) = .ok now →
    now < (d.budget.getD {}).lastCheck.getD 0 → w.disk = d ∧ requestsOf w.hist = []
  /-- A run the budget refuses makes no request, and changes neither the report nor the last request. The count of a
      day that was begun stays, and that of a new day begins at zero. -/
  refused : ∀ {x d w r now b}, Runs (probe x).run ⟨d, []⟩ w r → Ready (clock x) d now b →
    b.refuses (limits x) now = true → requestsOf w.hist = [] ∧ w.disk.result = d.result ∧ w.disk.last = d.last ∧
      ((w.disk.budget.getD {}).today = (d.budget.getD {}).today ∨
        ∃ day, utcDay now = .ok day ∧ (d.budget.getD {}).today.map Prod.fst ≠ some day ∧
          (w.disk.budget.getD {}).today = some (day, 0))

variable {probe : X → Probe Report} {limits : X → Limits} {clock : X → Json}
  {init d : StateDirectory} {log : List (Entry X StateDirectory Ask Answer)}

/-- The requests of a log keep their distance, and none is after the last request the files know. -/
theorem logged_spaced (hperiod : ∀ x, 0 ≤ (limits x).period)
    (houtcome : ∀ x d w r, Runs (probe x).run ⟨d, []⟩ w r → Outcome (limits x) (clock x) d (requestsOf w.hist) w.disk)
    (h : Logged (fun x => (probe x).run) init log d) :
    ((requestsIn log).Pairwise fun later earlier => (limits later.2).period ≤ later.1 - earlier.1) ∧
      ∀ r ∈ requestsIn log, ∃ l, d.last = some l ∧ r.1 ≤ l := by
  induction h with
  | start => exact ⟨.nil, fun r hr => by cases hr⟩
  | @run log d w r x before hrun ih =>
      obtain ⟨hpairs, hbounded⟩ := ih
      obtain ⟨hrequests, hmoves⟩ := (houtcome x d w r hrun).spacing (hperiod x)
      have holder : ∀ r ∈ requestsIn log, ∃ l, w.disk.last = some l ∧ r.1 ≤ l := by
        intro r hr
        obtain ⟨l, hl, hle⟩ := hbounded r hr
        obtain ⟨l', hl', hle'⟩ := hmoves l hl
        exact ⟨l', hl', hle.trans hle'⟩
      have hsplit : requestsIn (⟨x, w.hist⟩ :: log) = (requestsOf w.hist).map (·, x) ++ requestsIn log := rfl
      rw [hsplit]
      rcases hrequests with hnone | ⟨now, hone, hlast, hfits⟩
      · rw [hnone]
        exact ⟨hpairs, holder⟩
      · rw [hone]
        refine ⟨List.Pairwise.cons (fun r hr => ?_) hpairs, fun r hr => ?_⟩
        · obtain ⟨l, hl, hle⟩ := hbounded r hr
          have hgap := hfits l hl
          show (limits x).period ≤ now - r.1
          linarith
        · rcases List.mem_cons.mp hr with rfl | hr
          · exact ⟨now, hlast, le_refl now⟩
          · exact holder r hr

/-- A probe whose runs have the five stages is bounded, when a day of its requests cannot exceed the maximum. -/
theorem bounded_of_outcome (hperiod : ∀ x, 0 ≤ (limits x).period)
    (hday : ∀ x, 86400 ≤ (limits x).maximum * (limits x).period)
    (houtcome : ∀ x d w r, Runs (probe x).run ⟨d, []⟩ w r → Outcome (limits x) (clock x) d (requestsOf w.hist) w.disk) :
    Bounded probe limits clock where
  spaced h := (logged_spaced hperiod houtcome h).1
  daily := by
    intro init log d h l day
    have hpairs := (logged_spaced hperiod houtcome h).1
    generalize hrequests : (requestsIn log).filter _ = requests
    have hsub : requests.Sublist (requestsIn log) := hrequests ▸ List.filter_sublist
    have hmem : ∀ r ∈ requests, limits r.2 = l ∧ ⌊r.1 / 86400⌋ = day := by
      intro r hr
      rw [← hrequests, List.mem_filter, Bool.and_eq_true, decide_eq_true_eq, decide_eq_true_eq] at hr
      exact hr.2
    cases requests with
    | nil => exact Nat.zero_le _
    | cons r rest =>
        have hl := (hmem r List.mem_cons_self).1
        have hspaced : Spaced l.period ((r :: rest).map Prod.fst) := by
          refine List.pairwise_map.mpr ((hpairs.sublist hsub).imp_of_mem fun {later _} hlater _ hgap => ?_)
          rw [← (hmem later hlater).1]
          exact hgap
        have hin : ∀ t ∈ (r :: rest).map Prod.fst, (86400 * day : ℚ) ≤ t ∧ t < 86400 * day + 86400 := by
          intro t ht
          obtain ⟨s, hs, rfl⟩ := List.mem_map.mp ht
          obtain ⟨hlow, hhigh⟩ := Int.floor_eq_iff.mp (hmem s hs).2
          rw [le_div_iff₀ (by norm_num)] at hlow
          rw [div_lt_iff₀ (by norm_num)] at hhigh
          constructor <;> linarith
        rw [← List.length_map Prod.fst]
        exact hspaced.length_le (hl ▸ hperiod r.2) (hl ▸ hday r.2) hin
  clockBack := by
    intro x d w r now hrun hepoch hback
    have hready : ∀ {now' b}, ¬ Ready (clock x) d now' b := by
      intro now' b hready
      obtain rfl : now = now' := by simpa [hepoch] using hready.epoch
      obtain ⟨b', -, hchecked, -⟩ := hready.decided
      exact absurd (checked_eq_ok hchecked).1 (not_le.mpr hback)
    have houtcome := houtcome x d w r hrun
    generalize hrequests : requestsOf w.hist = requests at houtcome
    generalize w.disk = d' at houtcome
    cases houtcome with
    | untouched => exact ⟨rfl, rfl⟩
    | refused h => exact absurd h hready
    | spent h => exact absurd h hready
    | requested h => exact absurd h hready
    | reported h => exact absurd h hready
  refused := by
    intro x d w r now b hrun hready hrefuses
    have hadmitted : ∀ {now' b'}, Ready (clock x) d now' b' → b'.refuses (limits x) now' ≠ false := by
      intro now' b' hready' hadmits
      obtain ⟨rfl, rfl⟩ := hready.unique hready'
      rw [hrefuses] at hadmits
      cases hadmits
    have houtcome := houtcome x d w r hrun
    generalize requestsOf w.hist = requests at houtcome ⊢
    generalize w.disk = d' at houtcome ⊢
    cases houtcome with
    | untouched => exact ⟨rfl, rfl, rfl, .inl rfl⟩
    | refused h =>
        obtain ⟨rfl, rfl⟩ := hready.unique h
        refine ⟨rfl, rfl, h.last, ?_⟩
        obtain ⟨b', day, hchecked, hday, rfl⟩ := h.decided
        rw [(checked_eq_ok hchecked).2]
        unfold Budget.onDay
        dsimp only [Option.getD_some]
        split
        next hsame => exact .inl rfl
        next hother => exact .inr ⟨day, hday, hother, rfl⟩
    | spent h hadmits => exact absurd hadmits (hadmitted h)
    | requested h hadmits => exact absurd hadmits (hadmitted h)
    | reported h hadmits => exact absurd hadmits (hadmitted h)

end Log

/-- **Paid requests are bounded**, for both probes. -/
theorem requests_bounded :
    Bounded llmProbe (fun run => run.profile.limits) LlmRun.clock ∧
      Bounded publicProbe (fun _ => publicLimits) PublicRun.clock := by
  constructor
  · refine bounded_of_outcome (fun run => ?_) (fun run => ?_) fun run d w r h => llmProbe_outcome run h
    all_goals
      cases run.profile with
      | «local» => norm_num [Profile.limits]
      | upstream => norm_num [Profile.limits]
  · refine bounded_of_outcome (fun _ => ?_) (fun _ => ?_) fun run d w r h => publicProbe_outcome run h
    · norm_num [publicLimits, MINIMUM_INTERVAL_SECONDS]
    · norm_num [publicLimits, MINIMUM_INTERVAL_SECONDS, MAXIMUM_DAILY_REQUESTS]

/-! ## A refusal on a new day -/

/-- A second before the day ends. -/
def lateRun : LlmRun := { source := "llm", profile := .upstream, clock := .float (.finite 86399) }

/-- Two seconds later, on the next day. -/
def earlyRun : LlmRun := { lateRun with clock := .float (.finite 86401) }

/-- The answers of a run that returns. -/
def goodAnswers : List Answer :=
  [.ok .null, .ok .null, .ok .null, .ok (.str "token"), .ok .null, .ok .null,
    .ok (.dict [("status", .str "HEALTHY")]), .ok .null, .ok .null]

/-- A run that comes too early after midnight is refused, and the count falls from one to zero. -/
theorem refusal_resets_attempts :
    let before := (logOf (fun run => (llmProbe run).run) ⟨none, none⟩ [(lateRun, 20, goodAnswers)]).2
    ∃ w r b, Runs (llmProbe earlyRun).run ⟨before, []⟩ w r ∧ Ready earlyRun.clock before 86401 b ∧
      b.refuses earlyRun.profile.limits 86401 = true ∧ (before.budget.getD {}).count = 1 ∧
      (w.disk.budget.getD {}).count = 0 := by
  intro before
  refine ⟨_, _, { lastCheck := some 86401, today := some ("1970-01-02", 0), last := some 86399 },
    runs_exec (llmProbe earlyRun).run 20 _ goodAnswers, ⟨rfl, ?_⟩, by decide +kernel, by decide +kernel, by decide +kernel⟩
  exact ⟨{ lastCheck := some 86401, today := some ("1970-01-01", 1), last := some 86399 }, "1970-01-02",
    by decide +kernel, by decide +kernel, by decide +kernel⟩

end Canary
end PickleInfra
