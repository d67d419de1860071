import PickleInfra.Backup.DatabaseNotice

/-!
# `Backup.DatabaseNotified` — a status episode of the database backup is told at most once

The log of any calls of `notify`, killed anywhere, satisfies three invariants, one for each question:
`Episode` for the calls about one key, `Announced` for the recovery, `TestedOnce` for the test message.
Each is kept by what one call can do (`notify_cases`).
-/

namespace PickleInfra
namespace Backup
namespace Database

open Python Durable

/-- A receipt that a later call with its key sends again. -/
def Receipt.Open (r : Receipt) : Prop := r.delivery = .disabled ∨ r.delivery = .notSent

/-! ## What one call can do -/

/-- A call opens a baseline, or tells: then its prior receipt was not of a baseline if it is healthy,
    and one with the same key was open and no test. -/
inductive Acted (x : NotifyInput) (key : String) (files : Files) : World Files Mailing Answer → Prop
  | baseline (receipt : Receipt) (hkey : receipt.key = key) (hdelivery : receipt.delivery = .baseline)
      (hhealthy : x.healthy = true)
      (hprior : ∀ p, files.read x.test = some p → p.delivery = .baseline) :
      Acted x key files ⟨files.save x.test receipt, [.wrote (files.save x.test receipt)]⟩
  | told {w} (attempts : Nat)
      (hhealthy : x.healthy = true → ∃ p, files.read x.test = some p ∧ p.delivery ≠ .baseline)
      (hsame : ∀ p, files.read x.test = some p → p.key = key →
        x.test = false ∧ p.Open ∧ attempts = p.attempts)
      (htold : Told ⟨x.report, x.test⟩
        (fun a => (settle x.test (claim x key attempts) a).map (files.save x.test))
        ((⟨files, []⟩ : World Files Mailing Answer).wrote (files.save x.test (claim x key attempts))) w) :
      Acted x key files w

/-- A baseline is opened by a healthy call that finds nothing but a baseline. -/
theorem weigh_baseline {x : NotifyInput} {key : String} {prior : Option Receipt}
    (h : weigh x key prior = .baseline) :
    x.healthy = true ∧ ∀ p, prior = some p → p.delivery = .baseline := by
  cases prior with
  | none =>
      unfold weigh at h
      dsimp only at h
      by_cases hx : x.healthy = true
      · exact ⟨hx, fun _ hp => by cases hp⟩
      · rw [if_neg hx] at h
        cases h
  | some p =>
      unfold weigh at h
      dsimp only at h
      by_cases h₁ : x.healthy = true ∧ p.delivery = .baseline
      · refine ⟨h₁.1, fun q hq => ?_⟩
        obtain rfl := Option.some.inj hq
        exact h₁.2
      · rw [if_neg (fun hc => h₁ ⟨hc.1, hc.2.1⟩), if_neg h₁] at h
        unfold needsReview at h
        repeat' split at h
        all_goals cases h

/-- The sender is called after a prior receipt that lets it. -/
theorem weigh_send {x : NotifyInput} {key : String} {prior : Option Receipt} {attempts : Nat}
    (h : weigh x key prior = .send attempts) :
    (x.healthy = true → ∃ p, prior = some p ∧ p.delivery ≠ .baseline) ∧
      ∀ p, prior = some p → p.key = key → x.test = false ∧ p.Open ∧ attempts = p.attempts := by
  cases prior with
  | none =>
      unfold weigh at h
      dsimp only at h
      split at h
      · cases h
      · next hx => exact ⟨fun hc => absurd hc hx, fun _ hp => by cases hp⟩
  | some p =>
      unfold weigh at h
      dsimp only at h
      by_cases h₁ : x.healthy = true ∧ p.delivery = .baseline
      · -- a baseline is returned or opened again
        rw [if_pos h₁] at h
        split at h <;> cases h
      rw [if_neg (fun hc => h₁ ⟨hc.1, hc.2.1⟩), if_neg h₁] at h
      refine ⟨fun hc => ⟨p, rfl, fun hd => h₁ ⟨hc, hd⟩⟩, fun q hq hkey => ?_⟩
      obtain rfl := Option.some.inj hq
      rw [if_pos hkey] at h
      split at h
      · cases h
      next hquiet =>
      split at h
      · cases h
      next hreview =>
      split at h
      · cases h
      · cases h
        simp only [not_or] at hquiet hreview
        refine ⟨by simpa using hreview.1, ?_, rfl⟩
        -- five of the seven deliveries are gone
        unfold Receipt.Open
        cases hd : p.delivery with
        | disabled => exact .inl rfl
        | notSent => exact .inr rfl
        | baseline => exact absurd hd hquiet.1
        | sent => exact absurd hd hquiet.2
        | attempted => exact absurd hd hreview.2.1
        | uncertain => exact absurd hd hreview.2.2.1
        | retriesExhausted => exact absurd hd hreview.2.2.2

/-- **A call** leaves the world alone, or acts under its key. -/
theorem notify_cases {x : NotifyInput} {files : Files} {w : World Files Mailing Answer} {r}
    (h : Runs (notify x) ⟨files, []⟩ w r) :
    w = ⟨files, []⟩ ∨ ∃ key, x.key = some key ∧ Acted x key files w := by
  unfold notify at h
  split at h
  · exact .inl (runs_ret h).1
  split at h
  · exact .inl (runs_ret h).1
  · exact .inl (runs_ret h).1
  split at h
  · exact .inl (runs_ret h).1
  split at h
  · exact .inl (runs_ret h).1
  split at h
  · exact .inl (runs_ret h).1
  next key hkey =>
  split at h
  · exact .inl (runs_ret h).1
  rcases runs_look h with ⟨rfl, -⟩ | h
  · exact .inl rfl
  dsimp only at h
  cases hweigh : weigh x key (files.read x.test) with
  | reply prior =>
      simp only [hweigh] at h
      exact .inl (runs_ret h).1
  | stop message =>
      simp only [hweigh] at h
      exact .inl (runs_ret h).1
  | baseline =>
      simp only [hweigh] at h
      obtain ⟨hhealthy, hprior⟩ := weigh_baseline hweigh
      rcases runs_write h with ⟨rfl, -⟩ | h
      · exact .inl rfl
      · rw [(runs_ret h).1]
        exact .inr ⟨key, hkey, .baseline _ rfl rfl hhealthy hprior⟩
  | send attempts =>
      simp only [hweigh] at h
      obtain ⟨hhealthy, hsame⟩ := weigh_send hweigh
      rcases runs_tell h with rfl | htold
      · exact .inl rfl
      · exact .inr ⟨key, hkey, .told attempts hhealthy hsame htold⟩

/-! ## Calls in a log -/

/-- One call of `notify`: what it was given, and what happened in it. -/
abbrev Called := Entry NotifyInput Files Mailing Answer

namespace Called

/-- How the calls of the sender ended, newest first; one that was killed is `none`. -/
def outcomes (c : Called) : List (Option Outcome) := c.calls.map fun e => e.2.map Answer.outcome

/-- The last receipt the call wrote. -/
def receipt? (c : Called) : Option Receipt := c.saved?.bind fun files => files.read c.input.test

/-- The attempt was recorded, and what came of it was not: a kill, or an exception nobody catches. -/
def Interrupted (c : Called) : Prop := ∃ r, c.receipt? = some r ∧ r.delivery = .attempted

/-- After this call its key needs no mail, or an operator. -/
def Closed (c : Called) : Prop :=
  some (.delivered true) ∈ c.outcomes ∨ some .uncertain ∈ c.outcomes ∨ c.Interrupted

/-- The call opened a baseline. -/
def Baselined (c : Called) : Prop := ∃ r, c.receipt? = some r ∧ r.delivery = .baseline

/-- The call recorded its key. -/
def RecordedKey (c : Called) : Prop := ∃ r, c.receipt? = some r ∧ c.input.key = some r.key

end Called

/-- The calls about the status; the others are for the test message. -/
def statusCalls (log : List Called) : List Called := log.filter fun c => !c.input.test

def testCalls (log : List Called) : List Called := log.filter fun c => c.input.test

/-- How all the calls of the sender ended. -/
def outcomes (log : List Called) : List (Option Outcome) := log.flatMap Called.outcomes

/-- `MailNotSent`, or an uncertain outcome. -/
def failed (o : Option Outcome) : Bool := o = some .notSent || o = some .uncertain

theorem statusCalls_cons {c : Called} {log : List Called} :
    statusCalls (c :: log) = if c.input.test then statusCalls log else c :: statusCalls log := by
  unfold statusCalls
  rw [List.filter_cons]
  cases c.input.test <;> rfl

theorem testCalls_cons {c : Called} {log : List Called} :
    testCalls (c :: log) = if c.input.test then c :: testCalls log else testCalls log := by
  unfold testCalls
  rw [List.filter_cons]

@[simp] theorem outcomes_cons (c : Called) (log : List Called) :
    outcomes (c :: log) = c.outcomes ++ outcomes log := rfl

/-- A call that changed nothing. -/
theorem quiet_call (x : NotifyInput) :
    Called.outcomes ⟨x, []⟩ = [] ∧ Called.receipt? ⟨x, []⟩ = none := ⟨rfl, rfl⟩

/-- A call without a call of the sender and without a recorded attempt closes nothing. -/
theorem not_closed {c : Called} (hnone : c.outcomes = [])
    (hreceipt : ∀ r, c.receipt? = some r → r.delivery ≠ .attempted) : ¬ c.Closed := by
  rintro (h | h | ⟨r, hr, hd⟩)
  · rw [hnone] at h
    cases h
  · rw [hnone] at h
    cases h
  · exact hreceipt r hr hd

/-- **A call that tells**: how its sender ended, and the receipt it leaves. -/
theorem told_cases {x : NotifyInput} {files : Files} {claimed : Receipt}
    {w : World Files Mailing Answer} (hclaimed : claimed.delivery = .attempted)
    (h : Told ⟨x.report, x.test⟩ (fun a => (settle x.test claimed a).map (files.save x.test))
      ((⟨files, []⟩ : World Files Mailing Answer).wrote (files.save x.test claimed)) w) :
    ∃ r : Receipt, w.disk = files.save x.test r ∧ Called.receipt? ⟨x, w.hist⟩ = some r ∧
      r.key = claimed.key ∧ r.delivery ≠ .baseline ∧ r.attempts = claimed.attempts ∧
      ((r.delivery = .attempted ∧ (Called.outcomes ⟨x, w.hist⟩).length ≤ 1) ∨
        ∃ a, Called.outcomes ⟨x, w.hist⟩ = [some a.outcome] ∧ settle x.test claimed a = some r) := by
  have hkept : ∀ {a r}, settle x.test claimed a = some r →
      r.key = claimed.key ∧ r.delivery ≠ .baseline ∧ r.attempts = claimed.attempts := by
    intro a r hr
    unfold settle at hr
    cases ho : a.outcome with
    | delivered accepted =>
        simp only [ho] at hr
        obtain rfl := Option.some.inj hr
        cases accepted <;> exact ⟨rfl, by simp, rfl⟩
    | notSent =>
        simp only [ho] at hr
        split at hr <;> (obtain rfl := Option.some.inj hr; exact ⟨rfl, by simp, rfl⟩)
    | uncertain =>
        simp only [ho] at hr
        obtain rfl := Option.some.inj hr
        exact ⟨rfl, by simp, rfl⟩
    | raised =>
        simp only [ho] at hr
        cases hr
  have hbase : claimed.delivery ≠ .baseline := by
    rw [hclaimed]
    simp
  have hread := read_save files x.test claimed
  cases h with
  | claimed =>
      exact ⟨claimed, rfl, hread, rfl, hbase, rfl, .inl ⟨hclaimed, Nat.zero_le _⟩⟩
  | lost =>
      exact ⟨claimed, rfl, hread, rfl, hbase, rfl, .inl ⟨hclaimed, Nat.le_refl _⟩⟩
  | answered a =>
      exact ⟨claimed, rfl, hread, rfl, hbase, rfl, .inl ⟨hclaimed, Nat.le_refl _⟩⟩
  | recorded a d hd =>
      obtain ⟨r, hr, rfl⟩ := Option.map_eq_some_iff.mp hd
      obtain ⟨hkey, hdelivery, hattempts⟩ := hkept hr
      exact ⟨r, rfl, read_save files x.test r, hkey, hdelivery, hattempts, .inr ⟨a, rfl, hr⟩⟩

/-! ## The calls about one key -/

/-- After every call that closed its key, the sender was not called again. -/
def ClosedOnce (log : List Called) : Prop :=
  (statusCalls log).Pairwise fun later earlier => earlier.Closed → later.outcomes = []

/-- The calls of the sender that failed. -/
def failures (log : List Called) : Nat := (outcomes (statusCalls log)).countP failed

/-- No call so far closed the key, and there is room for another failure: one fewer than three so far,
    and fewer calls than the attempts that the next receipt counts. -/
structure Waiting (log : List Called) (attempts : Nat) : Prop where
  waiting : ∀ c ∈ statusCalls log, ¬ c.Closed
  room : failures log ≤ 2
  counted : (outcomes (statusCalls log)).length ≤ attempts

/-- What the calls about `key` leave: nothing happened, or the key waits, or it is closed. -/
def Episode (key : String) (log : List Called) (files : Files) : Prop :=
  (outcomes (statusCalls log) = [] ∧ ∀ c ∈ statusCalls log, ¬ c.Closed) ∨
    ∃ r, files.notification = some r ∧ r.key = key ∧
      ((r.Open ∧ Waiting log r.attempts) ∨ (¬ r.Open ∧ ClosedOnce log ∧ failures log ≤ 3))

section Episode

variable {key : String} {log : List Called} {files : Files}

theorem closedOnce_of_waiting (h : ∀ c ∈ statusCalls log, ¬ c.Closed) : ClosedOnce log :=
  List.pairwise_iff_forall_sublist.mpr fun {a b} hab hb =>
    absurd hb (h b (hab.subset (List.mem_cons_of_mem a (List.mem_singleton_self b))))

/-- One more call about the status. -/
theorem failures_cons {c : Called} (hc : c.input.test = false) :
    failures (c :: log) = c.outcomes.countP failed + failures log := by
  unfold failures
  rw [statusCalls_cons, hc]
  exact List.countP_append

/-- A call of the test message does not count. -/
theorem Episode.test (h : Episode key log files) {c : Called} (hc : c.input.test = true) {files' : Files}
    (hsame : files'.notification = files.notification) : Episode key (c :: log) files' := by
  have hcalls : statusCalls (c :: log) = statusCalls log := by
    rw [statusCalls_cons, if_pos hc]
  have hfail : failures (c :: log) = failures log := by
    unfold failures
    rw [hcalls]
  rcases h with h | ⟨r, hr, hkey, ⟨hopen, hw⟩ | ⟨hopen, honce, hbound⟩⟩
  · exact .inl (hcalls ▸ h)
  · exact .inr ⟨r, hsame ▸ hr, hkey, .inl ⟨hopen, hcalls ▸ hw.waiting, hfail ▸ hw.room, hcalls ▸ hw.counted⟩⟩
  · refine .inr ⟨r, hsame ▸ hr, hkey, .inr ⟨hopen, ?_, hfail ▸ hbound⟩⟩
    unfold ClosedOnce
    rw [hcalls]
    exact honce

/-- A call that does not tell keeps the episode, if the receipt is the same or closed. -/
theorem Episode.silent (h : Episode key log files) {c : Called} (hc : c.input.test = false)
    (hnone : c.outcomes = []) (hclosed : ¬ c.Closed) {files' : Files}
    (hfile : files'.notification = files.notification ∨
      (∃ r, files'.notification = some r ∧ r.key = key ∧ ¬ r.Open) ∧
        ∀ p, files.notification = some p → ¬ p.Open) : Episode key (c :: log) files' := by
  have hcalls : statusCalls (c :: log) = c :: statusCalls log := by
    rw [statusCalls_cons, hc]
    rfl
  have hfail : failures (c :: log) = failures log := by
    rw [failures_cons hc, hnone]
    exact Nat.zero_add _
  have hout : outcomes (statusCalls (c :: log)) = outcomes (statusCalls log) := by
    rw [hcalls, outcomes_cons, hnone]
    rfl
  have hall : (∀ d ∈ statusCalls log, ¬ d.Closed) → ∀ d ∈ statusCalls (c :: log), ¬ d.Closed := by
    intro hlog d hd
    rw [hcalls] at hd
    rcases List.mem_cons.mp hd with rfl | hd
    · exact hclosed
    · exact hlog d hd
  have honce' : ClosedOnce log → ClosedOnce (c :: log) := by
    intro honce
    unfold ClosedOnce
    rw [hcalls]
    exact List.pairwise_cons.mpr ⟨fun _ _ _ => hnone, honce⟩
  rcases h with ⟨h₁, h₂⟩ | ⟨r, hr, hkey, hcase⟩
  · exact .inl ⟨hout ▸ h₁, hall h₂⟩
  right
  rcases hfile with hsame | ⟨⟨r', hr', hkey', hnot'⟩, hprior⟩
  · refine ⟨r, hsame ▸ hr, hkey, ?_⟩
    rcases hcase with ⟨hopen, hw⟩ | ⟨hopen, honce, hbound⟩
    · exact .inl ⟨hopen, hall hw.waiting, hfail ▸ hw.room, hout ▸ hw.counted⟩
    · exact .inr ⟨hopen, honce' honce, hfail ▸ hbound⟩
  · refine ⟨r', hr', hkey', ?_⟩
    rcases hcase with ⟨hopen, -⟩ | ⟨-, honce, hbound⟩
    · exact absurd hopen (hprior r hr)
    · exact .inr ⟨hnot', honce' honce, hfail ▸ hbound⟩

/-- Before a call of the sender the key waits, however the last receipt counts. -/
theorem Episode.waiting (h : Episode key log files) {attempts : Nat}
    (hsame : ∀ p, files.notification = some p → p.key = key → p.Open ∧ attempts = p.attempts) :
    Waiting log attempts := by
  rcases h with ⟨h₁, h₂⟩ | ⟨r, hr, hkey, ⟨-, hw⟩ | ⟨hopen, -⟩⟩
  · refine ⟨h₂, ?_, ?_⟩
    · unfold failures
      rw [h₁]
      exact Nat.zero_le _
    · rw [h₁]
      exact Nat.zero_le _
  · obtain ⟨-, hattempts⟩ := hsame r hr hkey
    exact hattempts ▸ hw
  · exact absurd (hsame r hr hkey).1 hopen

/-- A failure is a call of the sender. -/
theorem failures_le (log : List Called) : failures log ≤ (outcomes (statusCalls log)).length :=
  List.countP_le_length

/-- **A call that tells while the key waits** leaves it waiting, or closes it. -/
theorem Waiting.told {attempts : Nat} (h : Waiting log attempts) {c : Called}
    (hc : c.input.test = false) {claimed r : Receipt} (hreceipt : c.receipt? = some r)
    (hcount : claimed.attempts = attempts + 1) (hattempts : r.attempts = claimed.attempts)
    (hcase : (r.delivery = .attempted ∧ c.outcomes.length ≤ 1) ∨
      ∃ a, c.outcomes = [some a.outcome] ∧ settle false claimed a = some r) :
    (r.Open ∧ Waiting (c :: log) r.attempts) ∨
      (¬ r.Open ∧ ClosedOnce (c :: log) ∧ failures (c :: log) ≤ 3) := by
  have hcalls : statusCalls (c :: log) = c :: statusCalls log := by
    rw [statusCalls_cons, hc]
    rfl
  have hone : c.outcomes.length ≤ 1 := by
    rcases hcase with ⟨-, hone⟩ | ⟨a, ha, -⟩
    · exact hone
    · rw [ha]
      exact Nat.le_refl 1
  have hlength : (outcomes (statusCalls (c :: log))).length ≤ attempts + 1 := by
    rw [hcalls, outcomes_cons, List.length_append]
    have := h.counted
    omega
  -- whatever the receipt says, at most three failed, and nothing was closed before
  have hclosed : ClosedOnce (c :: log) ∧ failures (c :: log) ≤ 3 := by
    constructor
    · unfold ClosedOnce
      rw [hcalls]
      exact List.pairwise_cons.mpr
        ⟨fun d hd hclosed => absurd hclosed (h.waiting d hd), closedOnce_of_waiting h.waiting⟩
    · have hfew := (List.countP_le_length (p := failed) (l := c.outcomes)).trans hone
      have hroom := h.room
      rw [failures_cons hc]
      omega
  -- a receipt that is sent again came from a call that closed nothing
  have hopen : ∀ {a : Answer}, c.outcomes = [some a.outcome] → a.outcome ≠ .delivered true →
      a.outcome ≠ .uncertain → r.delivery ≠ .attempted → failures (c :: log) ≤ 2 →
      Waiting (c :: log) r.attempts := by
    intro a ha htrue huncertain hnot hfew
    refine ⟨fun d hd => ?_, hfew, ?_⟩
    · rw [hcalls] at hd
      rcases List.mem_cons.mp hd with rfl | hd
      · rintro (hmem | hmem | ⟨r', hr', hd'⟩)
        · rw [ha, List.mem_singleton, Option.some.injEq] at hmem
          exact htrue hmem.symm
        · rw [ha, List.mem_singleton, Option.some.injEq] at hmem
          exact huncertain hmem.symm
        · rw [hreceipt, Option.some.injEq] at hr'
          exact hnot (hr' ▸ hd')
      · exact h.waiting d hd
    · rw [hattempts, hcount]
      exact hlength
  rcases hcase with ⟨hd, -⟩ | ⟨a, ha, hr⟩
  · right
    refine ⟨?_, hclosed⟩
    unfold Receipt.Open
    rw [hd]
    simp
  unfold settle at hr
  cases ho : a.outcome with
  | delivered accepted =>
      simp only [ho] at hr
      cases accepted with
      | true =>
          obtain rfl := Option.some.inj hr
          exact .inr ⟨by simp [Receipt.Open], hclosed⟩
      | false =>
          -- the sender returned false: nothing failed, and the next call tries again
          have hfew : failures (c :: log) ≤ 2 := by
            rw [failures_cons hc, ha, ho]
            have hroom := h.room
            simpa [failed] using hroom
          obtain rfl := Option.some.inj hr
          refine .inl ⟨.inl rfl, hopen ha ?_ ?_ ?_ hfew⟩
          · rw [ho]
            simp
          · rw [ho]
            simp
          · simp
  | notSent =>
      simp only [ho] at hr
      split at hr
      · obtain rfl := Option.some.inj hr
        exact .inr ⟨by simp [Receipt.Open], hclosed⟩
      · next hroom =>
        -- fewer than three attempts, so fewer than three failures
        have hfew : failures (c :: log) ≤ 2 := by
          have hle := failures_le (c :: log)
          simp only [Bool.false_eq_true, false_or] at hroom
          omega
        obtain rfl := Option.some.inj hr
        refine .inl ⟨.inr rfl, hopen ha ?_ ?_ ?_ hfew⟩
        · rw [ho]
          simp
        · rw [ho]
          simp
        · simp
  | uncertain =>
      simp only [ho] at hr
      obtain rfl := Option.some.inj hr
      exact .inr ⟨by simp [Receipt.Open], hclosed⟩
  | raised =>
      simp only [ho] at hr
      cases hr

end Episode

/-- **A call keeps the episode** of its key. -/
theorem Episode.step {key : String} {log : List Called} {files : Files} (h : Episode key log files)
    {x : NotifyInput} (hx : x.test = false → x.key = some key) {w : World Files Mailing Answer} {r}
    (hrun : Runs (notify x) ⟨files, []⟩ w r) : Episode key (⟨x, w.hist⟩ :: log) w.disk := by
  cases htest : x.test with
  | true =>
      refine h.test htest ?_
      rcases notify_cases hrun with rfl | ⟨k, -, hacted⟩
      · rfl
      cases hacted with
      | baseline receipt =>
          rw [htest]
          rfl
      | told attempts hhealthy hsame htold =>
          obtain ⟨r', hdisk, -⟩ := told_cases rfl htold
          rw [hdisk, htest]
          rfl
  | false =>
      rcases notify_cases hrun with rfl | ⟨k, hk, hacted⟩
      · refine h.silent htest rfl (not_closed rfl fun r hr => ?_) (.inl rfl)
        cases hr
      obtain rfl : key = k := by
        rw [hx htest] at hk
        exact Option.some.inj hk
      cases hacted with
      | baseline receipt hkey hdelivery hhealthy hprior =>
          have hsaved : Called.receipt? ⟨x, [.wrote (files.save x.test receipt)]⟩ = some receipt :=
            read_save files x.test receipt
          have hnot : ¬ receipt.Open := by
            unfold Receipt.Open
            rw [hdelivery]
            simp
          refine h.silent htest rfl (not_closed rfl fun r hr => ?_) (.inr ⟨⟨receipt, ?_, hkey, hnot⟩, ?_⟩)
          · rw [hsaved, Option.some.injEq] at hr
            rw [← hr, hdelivery]
            simp
          · rw [htest]
            rfl
          · intro p hp hopen
            have hd := hprior p (by rw [htest]; exact hp)
            unfold Receipt.Open at hopen
            rw [hd] at hopen
            simp at hopen
      | told attempts hhealthy hsame htold =>
          rw [htest] at hsame
          obtain ⟨r', hdisk, hreceipt, hkey, -, hattempts, hcase⟩ := told_cases rfl htold
          have hw := h.waiting fun p hp hpk => (hsame p hp hpk).2
          rw [htest] at hcase
          refine .inr ⟨r', ?_, hkey, ?_⟩
          · rw [hdisk, htest]
            rfl
          · exact hw.told htest hreceipt rfl hattempts hcase

/-- The whole of an episode. -/
theorem episode_of_logged {key : String} {log : List Called} {start files : Files}
    (h : Logged notify start log files)
    (hkey : ∀ c ∈ log, c.input.test = false → c.input.key = some key) : Episode key log files := by
  induction h with
  | start => exact .inl ⟨rfl, fun c hc => by cases hc⟩
  | run x before hrun ih =>
      have hlog := ih fun c hc => hkey c (List.mem_cons_of_mem _ hc)
      exact hlog.step (hkey _ List.mem_cons_self) hrun

theorem Episode.kept {key : String} {log : List Called} {files : Files} (h : Episode key log files) :
    failures log ≤ 3 ∧ ClosedOnce log := by
  rcases h with ⟨h₁, h₂⟩ | ⟨r, -, -, ⟨-, hw⟩ | ⟨-, honce, hbound⟩⟩
  · refine ⟨?_, closedOnce_of_waiting h₂⟩
    unfold failures
    rw [h₁]
    exact Nat.zero_le _
  · exact ⟨hw.room.trans (by decide), closedOnce_of_waiting hw.waiting⟩
  · exact ⟨hbound, honce⟩

/-! ## The recovery -/

/-- Some call about a status that is not healthy recorded its key, and no baseline was opened since. -/
def Announced (log : List Called) : Prop :=
  ∃ newer c older, log = newer ++ c :: older ∧ c.input.test = false ∧ c.input.healthy = false ∧
    c.RecordedKey ∧ ∀ d ∈ newer, d.input.test = false → ¬ d.Baselined

theorem Announced.cons {log : List Called} (h : Announced log) {c : Called}
    (hc : c.input.test = false → ¬ c.Baselined) : Announced (c :: log) := by
  obtain ⟨newer, u, older, rfl, htest, hhealthy, hkey, hnone⟩ := h
  refine ⟨c :: newer, u, older, rfl, htest, hhealthy, hkey, fun d hd => ?_⟩
  rcases List.mem_cons.mp hd with rfl | hd
  · exact hc
  · exact hnone d hd

/-- A receipt that is not of a baseline was announced. -/
theorem announced_of_logged {log : List Called} {files : Files} (h : Logged notify {} log files) :
    ∀ r, files.notification = some r → r.delivery ≠ .baseline → Announced log := by
  induction h with
  | start =>
      intro r hr
      cases hr
  | @run log files w _ x before hrun ih =>
      intro r hr hdelivery
      cases htest : x.test with
      | true =>
          refine Announced.cons (ih r ?_ hdelivery) fun hc => ?_
          · rw [← hr]
            rcases notify_cases hrun with rfl | ⟨k, -, hacted⟩
            · rfl
            cases hacted with
            | baseline receipt =>
                rw [htest]
                rfl
            | told attempts hhealthy hsame htold =>
                obtain ⟨r', hdisk, -⟩ := told_cases rfl htold
                rw [hdisk, htest]
                rfl
          · exact absurd (htest.symm.trans hc) (by decide)
      | false =>
          rcases notify_cases hrun with rfl | ⟨k, hk, hacted⟩
          · refine Announced.cons (ih r hr hdelivery) fun _ hc => ?_
            obtain ⟨r', hr', -⟩ := hc
            cases hr'
          cases hacted with
          | baseline receipt hkey hbase hhealthy hprior =>
              rw [htest, notification_save, Option.some.injEq] at hr
              exact absurd (hr ▸ hbase) hdelivery
          | told attempts hhealthy hsame htold =>
              obtain ⟨r', hdisk, hreceipt, hkey, hnot, -⟩ := told_cases rfl htold
              have hbaselined : ¬ Called.Baselined ⟨x, w.hist⟩ := by
                rintro ⟨r'', hr'', hd''⟩
                rw [hreceipt, Option.some.injEq] at hr''
                exact hnot (hr'' ▸ hd'')
              cases hx : x.healthy with
              | true =>
                  -- the prior receipt was announced before this call
                  obtain ⟨p, hp, hpd⟩ := hhealthy hx
                  rw [htest] at hp
                  exact Announced.cons (ih p hp hpd) fun _ => hbaselined
              | false =>
                  refine ⟨[], ⟨x, w.hist⟩, log, rfl, htest, hx, ⟨r', hreceipt, ?_⟩, fun d hd => by cases hd⟩
                  rw [hk, hkey]
                  rfl

/-- A healthy call of the sender was announced. -/
theorem announced_of_healthy {newer older : List Called} {c : Called} {files : Files}
    (h : Logged notify {} (newer ++ c :: older) files) (hhealthy : c.input.healthy = true)
    (hcalled : c.outcomes ≠ []) : Announced older := by
  obtain ⟨d₁, w, r, holder, hrun, hhist⟩ := h.at
  obtain ⟨x, hist⟩ := c
  dsimp only at hrun hhist hhealthy
  subst hhist
  have htest : x.test = false := by
    unfold NotifyInput.healthy at hhealthy
    cases htest : x.test with
    | true =>
        rw [htest] at hhealthy
        cases hhealthy
    | false => rfl
  rcases notify_cases hrun with rfl | ⟨k, -, hacted⟩
  · exact absurd rfl hcalled
  cases hacted with
  | baseline receipt => exact absurd rfl hcalled
  | told attempts hnot hsame htold =>
      obtain ⟨p, hp, hpd⟩ := hnot hhealthy
      rw [htest] at hp
      exact announced_of_logged holder p hp hpd

/-! ## The test message -/

/-- The sender was not called for the test message, or it was once and the receipt says so. -/
def TestedOnce (log : List Called) (files : Files) : Prop :=
  outcomes (testCalls log) = [] ∨
    ((∃ r, files.mailTest = some r ∧ r.key = "one-test") ∧ (outcomes (testCalls log)).length ≤ 1)

theorem testedOnce_of_logged {log : List Called} {files : Files} (h : Logged notify {} log files) :
    TestedOnce log files := by
  induction h with
  | start => exact .inl rfl
  | @run log files w _ x before hrun ih =>
      unfold TestedOnce
      rw [testCalls_cons]
      cases htest : x.test with
      | false =>
          rw [if_neg (by simp)]
          have hsame : w.disk.mailTest = files.mailTest := by
            rcases notify_cases hrun with rfl | ⟨k, -, hacted⟩
            · rfl
            cases hacted with
            | baseline receipt =>
                rw [htest]
                rfl
            | told attempts hhealthy hsame htold =>
                obtain ⟨r', hdisk, -⟩ := told_cases rfl htold
                rw [hdisk, htest]
                rfl
          rw [hsame]
          exact ih
      | true =>
          rw [if_pos rfl, outcomes_cons]
          rcases notify_cases hrun with rfl | ⟨k, hk, hacted⟩
          · exact ih
          cases hacted with
          | baseline receipt hkey hdelivery hhealthy =>
              unfold NotifyInput.healthy at hhealthy
              rw [htest] at hhealthy
              cases hhealthy
          | told attempts hhealthy hsame htold =>
              obtain rfl : "one-test" = k := by
                unfold NotifyInput.key at hk
                rw [if_pos htest] at hk
                exact Option.some.inj hk
              obtain ⟨r', hdisk, -, hkey, -, -, hcase⟩ := told_cases rfl htold
              have hone : (Called.outcomes ⟨x, w.hist⟩).length ≤ 1 := by
                rcases hcase with ⟨-, hone⟩ | ⟨a, ha, -⟩
                · exact hone
                · rw [ha]
                  exact Nat.le_refl 1
              right
              refine ⟨⟨r', by rw [hdisk, htest]; rfl, hkey⟩, ?_⟩
              rcases ih with hnone | ⟨⟨p, hp, hpk⟩, -⟩
              · rw [hnone, List.append_nil]
                exact hone
              · -- a receipt of an earlier test refuses the call
                have hfalse := (hsame p (by rw [htest]; exact hp) hpk).1
                rw [htest] at hfalse
                cases hfalse

/-! ## The claim -/

/-- **The database notification is at most once per status episode.** In any log of calls, killed
    anywhere: among consecutive calls about one key at most three calls of the sender failed, and none
    followed a call that closed the key; a healthy call of the sender was announced; and the test
    message was handed over at most once. -/
theorem notified_at_most_once (log : List Called) (files : Files) (h : Logged notify {} log files) :
    (∀ (key : String) (newer segment older : List Called), log = newer ++ (segment ++ older) →
        (∀ c ∈ segment, c.input.test = false → c.input.key = some key) →
        failures segment ≤ 3 ∧ ClosedOnce segment) ∧
      (∀ (newer : List Called) (c : Called) (older : List Called), log = newer ++ c :: older →
        c.input.healthy = true → c.outcomes ≠ [] → Announced older) ∧
      (outcomes (testCalls log)).length ≤ 1 := by
  refine ⟨?_, ?_, ?_⟩
  · rintro key newer segment older rfl hkey
    obtain ⟨d₁, h₁, -⟩ := h.cut
    obtain ⟨d₂, -, hsegment⟩ := h₁.cut
    exact (episode_of_logged hsegment hkey).kept
  · rintro newer c older rfl hhealthy hcalled
    exact announced_of_healthy h hhealthy hcalled
  · rcases testedOnce_of_logged h with hnone | ⟨-, hone⟩
    · rw [hnone]
      exact Nat.zero_le 1
    · exact hone

/-- A call with mail enabled. -/
def calledWith (status reason : String) (test : Bool) (now : Int) : NotifyInput where
  report := .dict [("status", .str status), ("reason", .str reason)]
  test := test
  stateReady := true
  settings := some (some (.dict [("enabled", .bool true)]))
  locked := true
  now := now

/-- A failure that was not sent, was retried and then uncertain, and is not told a third time; the
    recovery is told. -/
def recoveryLog : List Called × Files :=
  logOf notify {}
    [(calledWith "HEALTHY" "VERIFIED" false 900, 9, [⟨.delivered true, 901, 901⟩]),
     (calledWith "FAILED" "TOO_OLD" false 800, 9, [⟨.delivered true, 801, 801⟩]),
     (calledWith "FAILED" "TOO_OLD" false 700, 9, [⟨.uncertain, 701, 701⟩]),
     (calledWith "FAILED" "TOO_OLD" false 600, 9, [⟨.notSent, 601, 601⟩]),
     (calledWith "FAILED" "TOO_OLD" true 590, 9, [⟨.delivered true, 591, 591⟩])]

theorem notified_at_most_once_recovery :
    outcomes recoveryLog.1 =
        [some (.delivered true), some .uncertain, some .notSent, some (.delivered true)] ∧
      Announced recoveryLog.1.tail ∧ (outcomes (testCalls recoveryLog.1)).length ≤ 1 := by
  have h := notified_at_most_once recoveryLog.1 recoveryLog.2 (logged_logOf notify {} _)
  refine ⟨by decide +kernel, ?_, h.2.2⟩
  exact h.2.1 [] _ recoveryLog.1.tail rfl (by decide +kernel) (by decide +kernel)

end Database
end Backup
end PickleInfra
