import PickleInfra.Observation.Delivered

/-!
# `Observation.Leftover` — a temporary file that was left over

A run that is killed while it writes leaves its temporary file. An enumeration refuses a directory with such a name,
and nothing in `report` removes one, so from there no run delivers or changes anything (`report_halts`).
-/

namespace PickleInfra
namespace Observation

open Python Metrics Durable
open Relation (ReflTransGen)

variable {M : Machine} {c : ReportConfig} {w : Place Outside Reply}

/-- Nothing was written, and nothing was sent. -/
def Still (w w' : Place Outside Reply) : Prop := w'.disk = w.disk ∧ ∀ b, Sent b w'.hist → Sent b w.hist

theorem Still.trans {w w' w'' : Place Outside Reply} (h : Still w w') (h' : Still w' w'') : Still w w'' :=
  ⟨h'.1.trans h.1, fun b hb => h.2 b (h'.2 b hb)⟩

theorem still_steps {w w' : Place Outside Reply} (h : ReflTransGen Still w w') : Still w w' := by
  induction h with
  | refl => exact ⟨rfl, fun _ hb => hb⟩
  | tail _ hstep ih => exact ih.trans hstep

/-- A question about something else sends nothing. -/
theorem still_answered {q : Ask Outside} (hq : ∀ b, q ≠ .outside (.send b)) (a : Answer Reply) :
    Still w (w.push (.answered q a)) := by
  refine ⟨rfl, fun b hb => ?_⟩
  rcases hb with hb | ⟨a', hb⟩
  · rcases List.mem_cons.mp hb with heq | hb
    · cases heq
    · exact .inl hb
  · rcases List.mem_cons.mp hb with heq | hb
    · cases heq
      exact absurd rfl (hq b)
    · exact .inr ⟨a', hb⟩

theorem still_lost {q : Ask Outside} (hq : ∀ b, q ≠ .outside (.send b)) : Still w (w.push (.lost q)) := by
  refine ⟨rfl, fun b hb => ?_⟩
  rcases hb with hb | ⟨a', hb⟩
  · rcases List.mem_cons.mp hb with heq | hb
    · cases heq
      exact absurd rfl (hq b)
    · exact .inl hb
  · rcases List.mem_cons.mp hb with heq | hb
    · cases heq
    · exact .inr ⟨a', hb⟩

/-! ## What is refused -/

section Refused

variable {d : Directory} {s : Session}

theorem clean_of_stats {r : Nat × Nat} (h : stats s d.listing = .ok r) : d.Clean := by
  obtain ⟨rows, hrows, -⟩ := bind_eq_ok.mp h
  exact clean_of_entries hrows

theorem clean_of_pending {T : FloatText} {limit : Int} {exclude : List (String × Int)} {records : List Record}
    (h : pending T s d.listing limit exclude = .ok records) : d.Clean := by
  obtain ⟨_, -, h⟩ := bind_eq_ok.mp h
  obtain ⟨_, -, h⟩ := bind_eq_ok.mp h
  obtain ⟨_, -, h⟩ := bind_eq_ok.mp h
  obtain ⟨rows, hrows, -⟩ := bind_eq_ok.mp h
  exact clean_of_entries hrows

end Refused

/-! ## Runs -/

theorem still_call (k : SystemCall) : Makes Still (call k : Reporting Unit) w (fun _ w' => w'.disk = w.disk)
    fun _ _ => True := by
  refine makes_ask (still_lost fun b heq => by cases heq) (fun a => still_answered (fun b heq => by cases heq) a)
    fun a => ?_
  cases raised a with
  | ok _ => exact rfl
  | error e => exact trivial

/-- An operation is asked on what is there. -/
theorem still_look {α : Type} (op : Listing → Stored α) :
    Makes Still (look op : Reporting α) w (fun r w' => w'.disk = w.disk ∧ op w.disk.listing = .ok r)
      fun _ _ => True := by
  refine (still_call .inspect).bind fun _ w₁ h₁ => ?_
  refine makes_readStore.bind fun d w₂ h₂ => ?_
  obtain ⟨rfl, rfl⟩ := h₂
  refine makes_reply ?_
  cases hop : op w₂.disk.listing with
  | ok r => exact ⟨h₁, h₁ ▸ hop⟩
  | error e => exact trivial

theorem still_loadState (hleft : ¬ w.disk.Clean) :
    Makes Still (loadState M c) w (fun _ w' => w'.disk = w.disk) fun _ _ => True := by
  refine (still_look _).bind fun found w₁ h₁ => ?_
  cases found with
  | some v => exact makes_lifted (fun _ _ => h₁.1) fun _ => trivial
  | none =>
      refine (still_look _).bind fun found w₂ h₂ => ?_
      exact absurd (h₁.1 ▸ clean_of_stats h₂.2) hleft

theorem still_drain {t : Tally} (hleft : ¬ w.disk.Clean) :
    Makes Still (drain M c t) w (fun _ _ => False) fun _ _ => True := by
  refine (still_look _).bind fun records w₁ h₁ => ?_
  exact absurd (clean_of_pending h₁.2) hleft

/-- A run ends at the first enumeration. -/
theorem still_report {now : Int} (hleft : ¬ w.disk.Clean) :
    Makes Still (report M c now) w (fun _ _ => False) fun _ _ => True := by
  have htime : Makes Still (lifted (instant now).lift : Reporting String) w (fun _ w' => w'.disk = w.disk)
      fun _ _ => True := makes_lifted (fun _ _ => rfl) fun _ => trivial
  refine htime.bind fun _ w₁ h₁ => ?_
  have htoken : Makes Still (askOutside .token fun _ => ()) w₁ (fun _ w' => w'.disk = w.disk) fun _ _ => True := by
    refine makes_ask (still_lost fun b heq => by cases heq) (fun a => still_answered (fun b heq => by cases heq) a)
      fun a => ?_
    cases a.reply.failure with
    | none => exact h₁
    | some e => exact trivial
  refine htoken.bind fun _ w₂ h₂ => ?_
  refine (still_call .lock).bind fun _ w₃ h₃ => ?_
  have hleft₃ : ¬ w₃.disk.Clean := by rwa [h₃, h₂]
  refine (still_loadState hleft₃).bind fun s w₄ h₄ => ?_
  exact (still_drain (by rwa [h₄])).bind fun _ _ h => h.elim

theorem reported_still {sourceId : String} {w w' : Place Outside Reply} (hleft : ¬ w.disk.Clean)
    (h : Reported M sourceId w w') : Still w w' := by
  obtain ⟨c, now, r, -, hr⟩ := h
  exact still_steps ((still_report hleft).moves hr)

/-- **From a leftover on nothing is delivered**: no run sends or writes anything, and every run that ends raises. -/
theorem report_halts {sourceId : String} {w w' : Place Outside Reply} (hleft : ¬ w.disk.Clean)
    (h : ReflTransGen (Reported M sourceId) w w') :
    w'.disk = w.disk ∧ (∀ b, Sent b w'.hist → Sent b w.hist) ∧
      ∀ c now w'' r, Runs (report M c now).run w' w'' (some r) → ∃ e, r = .error e := by
  have hstill : Still w w' := by
    induction h with
    | refl => exact ⟨rfl, fun _ hb => hb⟩
    | tail _ hrun ih => exact ih.trans (reported_still (by rwa [ih.1]) hrun)
  refine ⟨hstill.1, hstill.2, fun c now w'' r hr => ?_⟩
  cases r with
  | ok a => exact ((still_report (by rwa [hstill.1])).returned hr).elim
  | error e => exact ⟨e, rfl⟩

/-- The world where a run on an empty store was killed after it created a temporary file. -/
def leftWorld : Place Outside Reply :=
  ((report wholeMachine plainConfig 0).run.exec 8 ⟨Directory.start, []⟩ (List.replicate 8 plainAnswer)).1

theorem leftWorld_left : leftWorld.disk.names.entries.any (fun e => isTemporary e.1) = true := by decide +kernel

theorem leftWorld_not_clean : ¬ leftWorld.disk.Clean := by
  intro hclean
  obtain ⟨e, he, htemporary⟩ := List.any_eq_true.mp leftWorld_left
  rw [hclean e he] at htemporary
  cases htemporary

/-- The world after the next run. -/
def stuckWorld : Place Outside Reply :=
  ((report wholeMachine plainConfig 0).run.exec 60 leftWorld (List.replicate 60 plainAnswer)).1

theorem stuckWorld_reported : Reported wholeMachine plainSource leftWorld stuckWorld :=
  ⟨plainConfig, 0, _, rfl, runs_exec _ _ _ _⟩

theorem report_halts_left : Reports wholeMachine plainSource leftWorld ∧ stuckWorld.disk = leftWorld.disk ∧
    (∀ b, Sent b stuckWorld.hist → Sent b leftWorld.hist) ∧
      ∀ c now w'' r, Runs (report wholeMachine c now).run stuckWorld w'' (some r) → ∃ e, r = .error e :=
  ⟨.single ⟨plainConfig, 0, _, rfl, runs_exec _ _ _ _⟩, report_halts leftWorld_not_clean (.single stuckWorld_reported)⟩

end Observation
end PickleInfra
