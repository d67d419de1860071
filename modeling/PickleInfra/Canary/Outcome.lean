import PickleInfra.Canary.Budget

/-!
# `Canary.Outcome` — what a run of a canary leaves behind

Wherever a run is killed, raises or returns, the requests it made and the files it leaves are those of one of five
stages. Both probes have the same stages, with their own limits.
-/

namespace PickleInfra
namespace Canary

open Python Durable
open Health (epoch)

/-- The time of a question that is a request. -/
def Ask.requestTime : Ask → Option ℚ
  | .request now _ => some now
  | _              => none

/-- The time of a request, whether the run saw its answer or not. -/
def requestAt (e : Event StateDirectory Ask Answer) : Option ℚ := e.call?.bind fun c => c.1.requestTime

/-- The requests of a history, newest first. -/
def requestsOf (hist : List (Event StateDirectory Ask Answer)) : List ℚ := hist.filterMap requestAt

/-- The budget a run decides on. -/
structure Ready (clock : Json) (d : StateDirectory) (now : ℚ) (b : Budget) : Prop where
  epoch : epoch clock = .ok now
  decided : ∃ checkedBudget day, checked now (d.budget.getD {}) = .ok checkedBudget ∧ utcDay now = .ok day ∧
    b = checkedBudget.onDay day

/-- How far a run got that started with the files `d`. -/
inductive Outcome (limits : Limits) (clock : Json) (d : StateDirectory) : List ℚ → StateDirectory → Prop
  | untouched : Outcome limits clock d [] d
  | refused {now b} (h : Ready clock d now b) (hrefuses : b.refuses limits now = true) :
      Outcome limits clock d [] { d with budget := some b }
  | spent {now b} (h : Ready clock d now b) (hadmits : b.refuses limits now = false) :
      Outcome limits clock d [] { d with budget := some (b.spend now) }
  | requested {now b} (h : Ready clock d now b) (hadmits : b.refuses limits now = false) :
      Outcome limits clock d [now] { d with budget := some (b.spend now) }
  | reported {now b} (h : Ready clock d now b) (hadmits : b.refuses limits now = false) (report : Report) :
      Outcome limits clock d [now] { budget := some (b.spend now), result := some report }

section Stages

variable {S : List ℚ → StateDirectory → Prop} {w : World StateDirectory Ask Answer} {k : List ℚ}
  {d : StateDirectory} {α : Type}

/-- The requests made and the files, at a place in a run. -/
def At (k : List ℚ) (d : StateDirectory) (w : World StateDirectory Ask Answer) : Prop :=
  requestsOf w.hist = k ∧ w.disk = d

/-- However the program ends, its requests and files are of `S`. -/
abbrev Ensures (S : List ℚ → StateDirectory → Prop) (x : Probe α) (w : World StateDirectory Ask Answer)
    (ok : α → World StateDirectory Ask Answer → Prop) : Prop :=
  Always (fun w' => S (requestsOf w'.hist) w'.disk) x w ok

theorem At.stage (h : At k d w) (hS : S k d) : S (requestsOf w.hist) w.disk := by
  rw [h.1, h.2]
  exact hS

theorem At.quiet (h : At k d w) {q : Ask} (hq : q.requestTime = none) (r : Answer) :
    At k d (w.push (.lost q)) ∧ At k d (w.push (.answered q r)) := by
  have hrequests : ∀ e, requestAt e = none → At k d (w.push e) := by
    intro e he
    refine ⟨?_, h.2⟩
    show (e :: w.hist).filterMap requestAt = k
    rw [List.filterMap_cons_none he]
    exact h.1
  exact ⟨hrequests _ hq, hrequests _ hq⟩

/-- A question that is no request. -/
theorem ensures_ask {answer : Answer → Except CanaryExn α} {q : Ask} (h : At k d w) (hS : S k d)
    (hq : q.requestTime = none) : Ensures S (ask answer q) w fun _ w' => At k d w' :=
  always_ask (h.stage hS) ((h.quiet hq (.ok .null)).1.stage hS) fun r =>
    ⟨(h.quiet hq r).2.stage hS, fun _ _ => (h.quiet hq r).2⟩

theorem ensures_reply {r : Except CanaryExn α} (h : At k d w) (hS : S k d) :
    Ensures S (reply r) w fun a w' => r = .ok a ∧ At k d w' :=
  always_reply (h.stage hS) fun _ ha => ⟨ha, h⟩

theorem ensures_readBudget (h : At k d w) (hS : S k d) :
    Ensures S readBudget w fun b w' => b = d.budget.getD {} ∧ At k d w' := by
  refine (ensures_ask h hS rfl).bind fun _ w₁ _ h₁ => ?_
  refine (always_readStore (h₁.stage hS)).bind ?_
  rintro d' w₂ hinv ⟨rfl, rfl⟩
  exact .pure hinv ⟨by rw [h₁.2], h₁⟩

theorem ensures_atomicJson {file : StateFile} {write : StateDirectory → StateDirectory} (h : At k d w) (hS : S k d)
    (hnew : S k (write d)) : Ensures S (atomicJson file write) w fun _ w' => At k (write d) w' := by
  refine (ensures_ask h hS rfl).bind fun _ w₁ _ h₁ => ?_
  have hwrote : At k (write d) (w₁.wrote (write w₁.disk)) := ⟨h₁.1, by rw [h₁.2]; rfl⟩
  refine (always_modify (h₁.stage hS) (hwrote.stage hnew)).bind ?_
  rintro _ w₂ - rfl
  exact ensures_ask hwrote hnew rfl

/-- The request itself: from here on it counts. -/
theorem ensures_request {now : ℚ} {token : String} (h : At k d w) (hS : S k d) (hnew : S (now :: k) d) :
    Ensures S (ask Answer.document (.request now token)) w fun _ w' => At (now :: k) d w' := by
  have hrequests : ∀ e, requestAt e = some now → At (now :: k) d (w.push e) := by
    intro e he
    refine ⟨?_, h.2⟩
    show (e :: w.hist).filterMap requestAt = now :: k
    rw [List.filterMap_cons_some he]
    exact congrArg (now :: ·) h.1
  exact always_ask (h.stage hS) ((hrequests _ rfl).stage hnew) fun r =>
    ⟨(hrequests _ rfl).stage hnew, fun _ _ => hrequests _ rfl⟩

end Stages

section Runs

variable {limits : Limits} {clock : Json} {d : StateDirectory} {w : World StateDirectory Ask Answer}

theorem ensures_readToken {k : List ℚ} {S : List ℚ → StateDirectory → Prop} (h : At k d w) (hS : S k d) :
    Ensures S readToken w fun _ w' => At k d w' := by
  refine (ensures_ask h hS rfl).bind fun _ w₁ _ h₁ => ?_
  exact .pure (h₁.stage hS) h₁

theorem ensures_finalReport {k : List ℚ} {S : List ℚ → StateDirectory → Prop} (h : At k d w) (hS : S k d)
    (profile : Profile) (now : ℚ) (report : Report) :
    Ensures S (finalReport profile now report) w fun _ w' => At k d w' := by
  cases profile with
  | upstream => exact .pure (h.stage hS) h
  | «local» =>
      refine (ensures_reply h hS).bind fun status w₁ _ h₁ => ?_
      split
      · refine (ensures_ask h₁.2 hS rfl).bind fun host w₂ _ h₂ => ?_
        refine (ensures_reply h₂ hS).bind fun loading w₃ _ h₃ => ?_
        exact .pure (h₃.2.stage hS) h₃.2
      · exact .pure (h₁.2.stage hS) h₁.2

/-- The report of a request is the last thing that is written. -/
theorem ensures_saveResult {now : ℚ} {b : Budget} {α : Type} (hready : Ready clock d now b)
    (hadmits : b.refuses limits now = false) (h : At [now] { d with budget := some (b.spend now) } w)
    (report : Report) (a : α) :
    Ensures (Outcome limits clock d) (do saveResult report; return a) w fun _ _ => True := by
  refine (ensures_atomicJson h (.requested hready hadmits) (.reported hready hadmits report)).bind fun _ w₁ _ h₁ => ?_
  exact .pure (h₁.stage (.reported hready hadmits report)) trivial

theorem ensures_llmRequest {run : LlmRun} {now : ℚ} {b : Budget} (hready : Ready clock d now b)
    (hadmits : b.refuses limits now = false) (h : At [] d w) (report : Report) :
    Ensures (Outcome limits clock d) (llmRequest run now b report) w fun _ _ => True := by
  refine (ensures_readToken h .untouched).bind fun token w₁ _ h₁ => ?_
  refine (ensures_atomicJson h₁ .untouched (.spent hready hadmits)).bind fun _ w₂ _ h₂ => ?_
  refine (ensures_request h₂ (.spent hready hadmits) (.requested hready hadmits)).bind fun answer w₃ _ h₃ => ?_
  refine (ensures_finalReport h₃ (.requested hready hadmits) run.profile now _).bind fun report w₄ _ h₄ => ?_
  exact ensures_saveResult hready hadmits h₄ report report

theorem ensures_publicRequest {now : ℚ} {b : Budget} (hready : Ready clock d now b)
    (hadmits : b.refuses limits now = false) (h : At [] d w) (token : String) (report : Report) :
    Ensures (Outcome limits clock d) (publicRequest now token b report) w fun _ _ => True := by
  refine (ensures_atomicJson h .untouched (.spent hready hadmits)).bind fun _ w₁ _ h₁ => ?_
  refine (ensures_request h₁ (.spent hready hadmits) (.requested hready hadmits)).bind fun answer w₂ _ h₂ => ?_
  exact ensures_saveResult hready hadmits h₂ _ _

/-- A refused run writes what it decided on. -/
theorem ensures_refused {now : ℚ} {b : Budget} (hready : Ready clock d now b) (hrefuses : b.refuses limits now = true)
    (h : At [] d w) (report : Report) :
    Ensures (Outcome limits clock d) (do saveBudget b; return report) w fun _ _ => True := by
  refine (ensures_atomicJson h .untouched (.refused hready hrefuses)).bind fun _ w₁ _ h₁ => ?_
  exact .pure (h₁.stage (.refused hready hrefuses)) trivial

/-- **The stages of `llm-health-probe.py`.** -/
theorem llmProbe_outcome (run : LlmRun) {r} (h : Runs (llmProbe run).run ⟨d, []⟩ w r) :
    Outcome run.profile.limits run.clock d (requestsOf w.hist) w.disk := by
  have hstart : At [] d ⟨d, []⟩ := ⟨rfl, rfl⟩
  have hensures : Ensures (Outcome run.profile.limits run.clock d) (llmProbe run) ⟨d, []⟩ fun _ _ => True := by
    refine (ensures_ask hstart .untouched rfl).bind fun _ w₁ _ h₁ => ?_
    refine (ensures_reply h₁ .untouched).bind fun now w₂ _ h₂ => ?_
    refine (ensures_ask h₂.2 .untouched rfl).bind fun _ w₃ _ h₃ => ?_
    refine (ensures_readBudget h₃ .untouched).bind fun b w₄ _ h₄ => ?_
    refine (ensures_reply h₄.2 .untouched).bind fun b' w₅ _ h₅ => ?_
    refine (ensures_reply h₅.2 .untouched).bind fun day w₆ _ h₆ => ?_
    have hready : Ready run.clock d now (b'.onDay day) := ⟨h₂.1, b', day, h₄.1 ▸ h₅.1, h₆.1, rfl⟩
    dsimp only
    split
    next hrefuses => exact ensures_refused hready hrefuses h₆.2 _
    next hadmits => exact ensures_llmRequest hready (eq_false_of_ne_true hadmits) h₆.2 _
  exact (hensures h).1

/-- **The stages of `public-service-health-probe.py`.** -/
theorem publicProbe_outcome (run : PublicRun) {r} (h : Runs (publicProbe run).run ⟨d, []⟩ w r) :
    Outcome publicLimits run.clock d (requestsOf w.hist) w.disk := by
  have hstart : At [] d ⟨d, []⟩ := ⟨rfl, rfl⟩
  have hensures : Ensures (Outcome publicLimits run.clock d) (publicProbe run) ⟨d, []⟩ fun _ _ => True := by
    refine (ensures_ask hstart .untouched rfl).bind fun _ w₁ _ h₁ => ?_
    refine (ensures_reply h₁ .untouched).bind fun now w₂ _ h₂ => ?_
    refine (ensures_ask h₂.2 .untouched rfl).bind fun hostname w₃ _ h₃ => ?_
    refine (ensures_reply h₃ .untouched).bind fun _ w₄ _ h₄ => ?_
    refine (ensures_ask h₄.2 .untouched rfl).bind fun _ w₅ _ h₅ => ?_
    refine (ensures_readBudget h₅ .untouched).bind fun b w₆ _ h₆ => ?_
    refine (ensures_reply h₆.2 .untouched).bind fun b' w₇ _ h₇ => ?_
    dsimp only
    split
    · refine (ensures_readToken h₇.2 .untouched).bind fun token w₈ _ h₈ => ?_
      refine (ensures_reply h₈ .untouched).bind fun _ w₉ _ h₉ => ?_
      refine (ensures_reply h₉.2 .untouched).bind fun day w₁₀ _ h₁₀ => ?_
      have hready : Ready run.clock d now (b'.onDay day) := ⟨h₂.1, b', day, h₆.1 ▸ h₇.1, h₁₀.1, rfl⟩
      dsimp only
      split
      next hrefuses => exact ensures_refused hready hrefuses h₁₀.2 _
      next hadmits => exact ensures_publicRequest hready (eq_false_of_ne_true hadmits) h₁₀.2 _ _
    · exact .pure (h₇.2.stage .untouched) trivial
  exact (hensures h).1

end Runs

end Canary
end PickleInfra
