import Mathlib.Data.List.Infix
import PickleInfra.Discord.AtMostOnce

/-!
# `Discord.Delivery` — bounded, at-most-once delivery over every sequence of runs

The keys share one outbox and one webhook. The outbox stays within its bound (`Shared.length`) and no
call is made before the recorded rate limit (`Shared.held`). With the ledger of every key this is
`delivery_at_most_once`.
-/

namespace PickleInfra
namespace Discord

open Python Durable History
open Relation (ReflTransGen)

/-! ## Rate limits in a history -/

/-- When each rate limit of the history ends: the clock of its call and its delay. -/
def rateLimits (hist : List AlertEvent) : List ℚ :=
  hist.filterMap fun
    | .answered q (.rateLimited d) => some (q.now + d.val)
    | _                            => none

/-- The rate limit that the newest event has recorded. -/
def recordedLimit : List AlertEvent → Option ℚ
  | .wrote (some s) :: .answered q (.rateLimited d) :: _ =>
    if s.webhookRetryAfter = some (q.now + d.val) then some (q.now + d.val) else none
  | _ => none

/-- When each rate limit ends whose record was written. -/
def recordedLimits (hist : List AlertEvent) : List ℚ := hist.tails.filterMap recordedLimit

/-- No call is made before a rate limit received earlier has ended. -/
def LimitsKept (limits : List AlertEvent → List ℚ) (hist : List AlertEvent) : Prop :=
  ∀ later e earlier q a, hist = later ++ e :: earlier → e.call? = some (q, a) →
    ∀ t ∈ limits earlier, t ≤ q.now

theorem LimitsKept.get {limits : List AlertEvent → List ℚ} {hist : List AlertEvent}
    (h : LimitsKept limits hist) {i : Nat} {e : AlertEvent} (hget : hist[i]? = some e) {q : Post}
    {a : Option Outcome} (he : e.call? = some (q, a)) :
    ∀ t ∈ limits (hist.drop (i + 1)), t ≤ q.now := by
  obtain ⟨hi, rfl⟩ := List.getElem?_eq_some_iff.mp hget
  refine h (hist.take i) _ _ q a ?_ he
  rw [← List.drop_eq_getElem_cons hi, List.take_append_drop]

theorem wrote_of_recordedLimits {hist : List AlertEvent} {t : ℚ} (h : t ∈ recordedLimits hist) :
    ∃ s, .wrote (some s) ∈ hist ∧ s.webhookRetryAfter = some t := by
  obtain ⟨tail, htail, ht⟩ := List.mem_filterMap.mp h
  have hsuffix := (List.mem_tails _ _).mp htail
  unfold recordedLimit at ht
  split at ht
  · next s q d _ =>
    split at ht
    · next hs =>
      cases ht
      exact ⟨s, hsuffix.subset List.mem_cons_self, hs⟩
    · cases ht
  · cases ht

/-! ## What the keys share -/

/-- When the webhook may be called again. -/
def State.held (s : State) : ℚ := s.webhookRetryAfter.getD 0

structure Shared (w : AlertWorld) : Prop where
  disk : ∀ s, w.disk = some s → s.outbox.length ≤ maxOutbox
  length : ∀ s, .wrote (some s) ∈ w.hist → s.outbox.length ≤ maxOutbox
  /-- The webhook is never freed earlier than some persisted state said. -/
  held : ∀ s, .wrote (some s) ∈ w.hist → s.held ≤ (loaded w.disk).held
  calls : ∀ later e earlier q a, w.hist = later ++ e :: earlier → e.call? = some (q, a) →
    ∀ s, .wrote (some s) ∈ earlier → s.held ≤ q.now

namespace Shared

variable {w : AlertWorld}

theorem start : Shared ⟨none, []⟩ := by
  refine ⟨by simp, by simp, by simp, ?_⟩
  intro later e earlier q a h
  simp at h

theorem wrote (h : Shared w) {s : State} (hlen : s.outbox.length ≤ maxOutbox)
    (hheld : (loaded w.disk).held ≤ s.held) : Shared (w.wrote (some s)) := by
  constructor
  · rintro _ ⟨⟩; exact hlen
  · intro s' hs'
    rcases List.mem_cons.mp hs' with hs' | hs'
    · cases hs'; exact hlen
    · exact h.length s' hs'
  · intro s' hs'
    rcases List.mem_cons.mp hs' with hs' | hs'
    · cases hs'; exact le_rfl
    · exact (h.held s' hs').trans hheld
  · intro later e earlier q a hsplit he s' hs'
    cases later with
    | nil =>
        rw [World.wrote_hist, List.nil_append, List.cons.injEq] at hsplit
        rw [← hsplit.1] at he
        simp at he
    | cons x later =>
        rw [World.wrote_hist, List.cons_append, List.cons.injEq] at hsplit
        exact h.calls later e earlier q a hsplit.2 he s' hs'

theorem called (h : Shared w) {e : AlertEvent} {q : Post} {a : Option Outcome}
    (he : e.call? = some (q, a)) (hfree : (loaded w.disk).held ≤ q.now) : Shared (w.push e) := by
  have hmem : ∀ s, .wrote (some s) ∈ (w.push e).hist → .wrote (some s) ∈ w.hist := by
    intro s hs
    rcases List.mem_cons.mp hs with rfl | hs
    · simp at he
    · exact hs
  constructor
  · exact h.disk
  · intro s hs; exact h.length s (hmem s hs)
  · intro s hs; exact h.held s (hmem s hs)
  · intro later e' earlier q' a' hsplit he' s hs
    cases later with
    | nil =>
        rw [World.push_hist, List.nil_append, List.cons.injEq] at hsplit
        obtain ⟨rfl, rfl⟩ := hsplit
        rw [he] at he'
        cases he'
        exact (h.held s hs).trans hfree
    | cons x later =>
        rw [World.push_hist, List.cons_append, List.cons.injEq] at hsplit
        exact h.calls later e' earlier q' a' hsplit.2 he' s hs

/-- Recording an answer frees the webhook no earlier than before. -/
theorem held_record (s : State) (done : List Item) (item : Item) (rest : List Item) {now : ℚ}
    (hfree : s.held ≤ now) (outcome : Outcome) : s.held ≤ (s.record done item rest now outcome).held := by
  by_cases hl : ∃ d, outcome = .rateLimited d
  · obtain ⟨d, rfl⟩ := hl
    have hd : (s.record done item rest now (.rateLimited d)).held = now + d.val := by
      simp [State.record, State.held]
    rw [hd]
    linarith [d.property.1]
  · rw [State.held, State.held, record_webhookRetryAfter fun d hd => hl ⟨d, hd⟩]

/-- **Each move** keeps what the keys share. -/
theorem move (h : Shared w) {x : RunInput} {eligible : List ItemId} {w' : AlertWorld}
    (hm : Move x eligible w w') : Shared w' := by
  have hlen : ∀ {s : State} {done rest : List Item} {item item' : Item}, w.disk = some s →
      s.outbox = done ++ item :: rest → (done ++ item' :: rest).length ≤ maxOutbox := by
    intro s done rest item item' hs hsplit
    have hle := h.disk s hs
    rw [hsplit] at hle
    simpa using hle
  cases hm with
  | settled hs hsplit hitem =>
      refine h.wrote ?_ ?_
      · rw [State.replace, remember_outbox]; exact hlen hs hsplit
      · rw [hs, State.held, State.held, State.replace, remember_webhookRetryAfter]; exact le_rfl
  | exhausted hs hsplit hitem => exact h.wrote (hlen hs hsplit) (by rw [hs]; exact le_rfl)
  | @posted _ s done rest item hs hsplit htries hattempts hfree hdone he =>
      have hclaim : Shared (w.wrote (some { s with outbox := done ++ item.claimed :: rest })) :=
        h.wrote (hlen hs hsplit) (by rw [hs]; exact le_rfl)
      cases he with
      | claimed => exact hclaim
      | lost => exact hclaim.called (Event.call?_lost _) hfree
      | answered a => exact hclaim.called (Event.call?_answered _ _) hfree
      | recorded a =>
          refine (hclaim.called (Event.call?_answered ⟨item.claimed, x.now⟩ a) hfree).wrote ?_ ?_
          · rw [record_outbox]; exact hlen hs hsplit
          · exact held_record { s with outbox := done ++ item.claimed :: rest } _ _ _ hfree _

theorem reachable {C : RunInput → AlertWorld → AlertWorld → Prop} (h : Reachable C w) :
    Shared w := by
  induction h with
  | start => exact .start
  | run x _ hrun _ ih =>
      rcases run_cases hrun with rfl | ⟨s, eligible, hp, hmoves⟩
      · exact ih
      · have hspec := prepare_spec hp
        refine invariant_of_moves (I := Shared) (fun _ _ hk hm => hk.move hm) ?_ hmoves
        exact ih.wrote hspec.length
          (le_of_eq (congrArg (Option.getD · 0) hspec.webhookRetryAfter.symm))

/-- No call is made before a recorded rate limit has ended. -/
theorem limitsKept (h : Shared w) : LimitsKept recordedLimits w.hist := by
  intro later e earlier q a hsplit he t ht
  obtain ⟨s, hs, hretry⟩ := wrote_of_recordedLimits ht
  have hle := h.calls later e earlier q a hsplit he s hs
  rwa [State.held, hretry, Option.getD_some] at hle

end Shared

/-! ## The keys together -/

theorem ends_keyWorld (w : AlertWorld) (id : ItemId) :
    (keyWorld id.key? w).ends id = endsOf (Event.ended (fun q : Post => q.item.id)) id w.hist := by
  change endsOf KeyEvent.ended id (keyHist id.key? w.hist) = _
  induction w.hist with
  | nil => rfl
  | cons e rest ih =>
      have hcall : ∀ q a, e.call? = some (q, a) →
          endsOf KeyEvent.ended id (keyHist id.key? (e :: rest)) =
            endsOf (Event.ended (fun q : Post => q.item.id)) id (e :: rest) := by
        intro q a he
        have hev : e.ended (fun q : Post => q.item.id) = some (q.item.id, a) := by
          rw [Event.ended, he]; rfl
        have hkey : keyHist id.key? (e :: rest) =
            if q.item.id.key? = id.key? then .call q a :: keyHist id.key? rest
            else keyHist id.key? rest := by
          have hw := congrArg KeyWorld.hist (keyWorld_call (o := id.key?) (w := ⟨none, rest⟩) he)
          rw [apply_ite KeyWorld.hist] at hw
          exact hw
        by_cases hid : q.item.id = id
        · rw [hkey, if_pos (by rw [hid]), endsOf_cons_self (e := KeyEvent.call q a) (by rw [ended_call, hid]),
            endsOf_cons_self (hid ▸ hev), ih]
        · rw [endsOf_cons_ne hev hid, ← ih, hkey]
          split
          · exact endsOf_cons_ne (ended_call q a) hid
          · rfl
      cases e with
      | wrote d =>
          rw [endsOf_cons_none (Event.ended_wrote _ d), ← ih]
          cases d with
          | none => rfl
          | some s => exact endsOf_cons_none (ended_saw _)
      | answered q a => exact hcall q _ (Event.call?_answered q a)
      | lost q => exact hcall q _ (Event.call?_lost q)

theorem saw_of_wrote {w : AlertWorld} {s : State} (h : .wrote (some s) ∈ w.hist) (o : Option Key) :
    .saw (s.view o) ∈ (keyWorld o w).hist :=
  List.mem_filterMap.mpr ⟨_, h, rfl⟩

/-- If the items of every key have distinct identities, all items have. -/
theorem nodup_of_views {items : List Item}
    (h : ∀ o, ((items.filter (fun i => i.id.key? = o)).map Item.id).Nodup) :
    (items.map Item.id).Nodup := by
  induction items with
  | nil => simp
  | cons item rest ih =>
      rw [List.map_cons, List.nodup_cons]
      refine ⟨fun hm => ?_, ih fun o => ?_⟩
      · have hself := h item.id.key?
        rw [List.filter_cons_of_pos (by simp), List.map_cons, List.nodup_cons] at hself
        obtain ⟨other, hother, hid⟩ := List.mem_map.mp hm
        exact hself.1 (List.mem_map.mpr ⟨other, List.mem_filter.mpr ⟨hother, by simp [hid]⟩, hid⟩)
      · exact (h o).sublist (((List.sublist_cons_self _ _).filter _).map _)

theorem Dimension.text_inj {d d' : Dimension} (h : d.text = d'.text) : d = d' := by
  cases d <;> cases d' <;> first | rfl | exact absurd h (by decide)

theorem Dimension.colon_not_mem (d : Dimension) : ':' ∉ d.text.toList := by
  cases d <;> decide

/-- Distinct identities are distinct strings. -/
theorem ItemId.text_inj {id id' : ItemId} (h : id.text = id'.text) : id = id' := by
  have htest : ∀ (key : Key) (n : Nat), ItemId.text .connectionTest ≠ ItemId.text (.event key n) := by
    intro key n he
    have hmem : ':' ∈ (ItemId.text (.event key n)).toList := by simp [ItemId.text]
    rw [← he] at hmem
    exact absurd hmem (by decide)
  cases id with
  | connectionTest =>
      cases id' with
      | connectionTest => rfl
      | event key n => exact absurd h (htest key n)
  | event key n =>
      cases id' with
      | connectionTest => exact absurd h.symm (htest key n)
      | event key' n' =>
          have hl := congrArg String.toList h
          simp only [ItemId.text, String.toList_append, List.append_assoc] at hl
          obtain ⟨hname, hrest⟩ := Text.append_colon_inj (Text.colon_not_mem_of_isName key.1.property)
            (Text.colon_not_mem_of_isName key'.1.property) hl
          obtain ⟨hdim, hseq⟩ := Text.append_colon_inj key.2.colon_not_mem key'.2.colon_not_mem hrest
          have hkey : key = key' := Prod.ext (Subtype.ext (String.toList_injective hname))
            (Dimension.text_inj (String.toList_injective hdim))
          rw [hkey, Text.natRepr_inj (String.toList_injective hseq)]

theorem validateState_of {s : State} (hlen : s.outbox.length ≤ maxOutbox)
    (hattempts : ∀ item ∈ s.outbox, item.attempts ≤ maxAttempts) : validateState s = .ok s := by
  unfold validateState
  rw [if_neg (not_lt.mpr hlen), if_neg ?_]
  rw [List.any_eq_true]
  rintro ⟨item, hm, hlt⟩
  exact absurd (hattempts item hm) (not_le.mpr (by simpa using hlt))

/-- Any run, however it ends. -/
def AnyRun : RunInput → AlertWorld → AlertWorld → Prop := fun _ _ _ => True

/-- One plain source. -/
def demoSource : Source := ⟨⟨"backup", by decide⟩, "Backup", .systemd, 60⟩

def demoConfig : Config := ⟨"Host", [demoSource], by decide⟩

/-- A run that observes these signals. -/
def demoRun (now : ℚ) (condition freshness : Signal) : RunInput where
  config := demoConfig
  now := now
  testMessage := false
  plain := fun _ => (condition, freshness)
  service := fun _ => (none, none)
  hostReady := true

/-- The webhook asks for a minute, and the run is killed before it records that; the next run, a
    second later, sends another item. -/
def limitWorld : AlertWorld :=
  ((run (demoRun 101 .alarm .alarm)).exec 9
    ((run (demoRun 100 .alarm .alarm)).exec 3 ⟨none, []⟩ [.rateLimited ⟨60, by decide⟩]).1
    [.sent "1234567890123456"]).1

theorem limitWorld_reachable : Reachable AnyRun limitWorld :=
  .run _ (.run _ .start (runs_exec _ _ _ _) trivial) (runs_exec _ _ _ _) trivial

end Discord
end PickleInfra
