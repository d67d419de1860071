import PickleInfra.Discord.Grown

/-!
# `Discord.AtMostOnce` — a message is not sent again after an ambiguous end

The ledger of a key says what every sequence of runs keeps: identities are given away once, an item
that is still `PENDING` was only ever explicitly rejected, and `attempts` bounds the calls that were
not rate limited. `Discord.Delivery` puts the keys together.
-/

namespace PickleInfra
namespace Discord

open Python Durable History
open Relation (ReflTransGen)

/-! ## How calls end -/

def Outcome.isLimit : Outcome → Bool
  | .rateLimited _ => true
  | _              => false

/-- `PENDING` with `REJECTED` or `RATE_LIMITED`: the webhook explicitly refused the message. -/
def Outcome.isRejection : Outcome → Bool
  | .rejected      => true
  | .rateLimited _ => true
  | _              => false

/-- The end of a call, `none` if it was killed, is no explicit rejection. -/
def Final (answer : Option Outcome) : Prop := ∀ outcome, answer = some outcome → outcome.isRejection = false

/-- How many calls ended in anything but a rate limit. -/
def counted (ends : List (Option Outcome)) : Nat := ends.countP (fun a => !a.any Outcome.isLimit)

/-- An end of a call for an item of the key. -/
def KeyEvent.ended : KeyEvent → Option (ItemId × Option Outcome)
  | .saw _            => none
  | .call post answer => some (post.item.id, answer)

@[simp] theorem ended_saw (v : View) : (KeyEvent.saw v).ended = none := rfl
@[simp] theorem ended_call (post : Post) (answer : Option Outcome) :
    (KeyEvent.call post answer).ended = some (post.item.id, answer) := rfl

/-- The ends of the calls for an item, newest first. -/
def KeyWorld.ends (k : KeyWorld) (id : ItemId) : List (Option Outcome) :=
  endsOf KeyEvent.ended id k.hist

@[simp] theorem ends_saved (k : KeyWorld) (v : View) (id : ItemId) :
    (k.saved v).ends id = k.ends id := endsOf_cons_none rfl

theorem ends_called_self (k : KeyWorld) (post : Post) (answer : Option Outcome) :
    (k.called post answer).ends post.item.id = answer :: k.ends post.item.id :=
  endsOf_cons_self rfl

theorem ends_called_ne (k : KeyWorld) (post : Post) (answer : Option Outcome) {id : ItemId}
    (h : post.item.id ≠ id) : (k.called post answer).ends id = k.ends id := endsOf_cons_ne rfl h

theorem counted_cons_le (answer : Option Outcome) (ends : List (Option Outcome)) :
    counted (answer :: ends) ≤ counted ends + 1 := by
  unfold counted
  rw [List.countP_cons]
  split <;> omega

theorem counted_cons_limit {outcome : Outcome} (h : outcome.isLimit = true)
    (ends : List (Option Outcome)) : counted (some outcome :: ends) = counted ends := by
  simp [counted, h]

/-- What the record of an answer makes of an item that was not yet final. -/
theorem recorded_spec (item : Item) (now : ℚ) (outcome : Outcome) :
    (item.claimed.recorded now outcome).attempts =
      (if outcome.isLimit then item.attempts else item.attempts + 1) ∧
    ((item.claimed.recorded now outcome).delivery = .pending → outcome.isRejection = true) := by
  cases outcome with
  | sent | uncertain | failed | raised =>
      simp [Item.recorded, Item.claimed, Outcome.isLimit]
  | rateLimited d => simp [Item.recorded, Item.claimed, Outcome.isLimit, Outcome.isRejection]
  | rejected =>
      refine ⟨?_, fun _ => rfl⟩
      simp only [Item.recorded]
      split <;> simp [Item.exhausted, Item.claimed, Outcome.isLimit]

/-! ## The ledger of a key -/

/-- What the history says of the calls for an item, against the item. -/
structure ItemOk (ends : List (Option Outcome)) (item : Item) : Prop where
  counted_le : counted ends ≤ item.attempts
  attempts_le : item.attempts ≤ maxAttempts
  pending : item.delivery = .pending → ∀ e ∈ ends, ¬ Final e

/-- A persisted view is in order. -/
def ViewOk (v : View) : Prop :=
  (v.items.map Item.id).Nodup ∧ ∀ item ∈ v.items, item.attempts ≤ maxAttempts

structure Ledger (k : KeyWorld) : Prop where
  nodup : (k.view.items.map Item.id).Nodup
  items : ∀ item ∈ k.view.items, ItemOk (k.ends item.id) item ∧ k.view.Issued item.id
  called : ∀ id, k.ends id ≠ [] → k.view.Issued id
  once : ∀ id, AtMostOnce Final (k.ends id) ∧ counted (k.ends id) ≤ maxAttempts
  persisted : ∀ v, .saw v ∈ k.hist → ViewOk v

namespace Ledger

variable {k : KeyWorld} {done rest : List Item} {item item' : Item}

theorem start : Ledger .start := by
  refine ⟨by simp [KeyWorld.start], by simp [KeyWorld.start], ?_, ?_, by simp [KeyWorld.start]⟩
  · intro id h; exact absurd rfl h
  · intro id; exact ⟨atMostOnce_nil _, Nat.zero_le _⟩

theorem viewOk (h : Ledger k) : ViewOk k.view :=
  ⟨h.nodup, fun item hm => (h.items item hm).1.attempts_le⟩

/-- Persisting a view that is in order with the history so far. -/
theorem saved (h : Ledger k) {v : View} (hn : (v.items.map Item.id).Nodup)
    (hitems : ∀ item ∈ v.items, ItemOk (k.ends item.id) item ∧ v.Issued item.id)
    (hissued : ∀ id, k.view.Issued id → v.Issued id) : Ledger (k.saved v) := by
  constructor
  · exact hn
  · intro item hm; rw [ends_saved]; exact hitems item hm
  · intro id hid; rw [ends_saved] at hid; exact hissued id (h.called id hid)
  · intro id; rw [ends_saved]; exact h.once id
  · intro v' hv'
    rcases List.mem_cons.mp hv' with hv' | hv'
    · cases hv'
      exact ⟨hn, fun item hm => (hitems item hm).1.attempts_le⟩
    · exact h.persisted v' hv'

theorem same (h : Ledger k) : Ledger (k.saved k.view) := h.saved h.nodup h.items fun _ hid => hid

/-- Replacing an item by one of the same identity. -/
theorem replace (h : Ledger k) (hsplit : k.view.items = done ++ item :: rest)
    (hid : item'.id = item.id) (hok : ItemOk (k.ends item.id) item') :
    Ledger (k.saved (k.view.replace done item' rest)) := by
  refine h.saved ?_ ?_ fun id hi => (issued_replace id).mpr hi
  · have hn := h.nodup
    rw [hsplit] at hn
    simpa [hid] using hn
  · intro j hj
    rw [issued_replace]
    rcases List.mem_append.mp hj with hj | hj
    · exact h.items j (hsplit ▸ List.mem_append_left _ hj)
    rcases List.mem_cons.mp hj with rfl | hj
    · rw [hid]
      exact ⟨hok, (h.items item (hsplit ▸ List.mem_append_right _ List.mem_cons_self)).2⟩
    · exact h.items j (hsplit ▸ List.mem_append_right _ (List.mem_cons_of_mem _ hj))

/-- A call for a claimed item that was only ever rejected. -/
theorem call (h : Ledger k) {post : Post} (hm : post.item ∈ k.view.items)
    (hclaimed : post.item.delivery ≠ .pending) (hopen : ∀ e ∈ k.ends post.item.id, ¬ Final e)
    (hcount : counted (k.ends post.item.id) < post.item.attempts) (answer : Option Outcome) :
    Ledger (k.called post answer) := by
  have hissued := (h.items _ hm).2
  have hle : counted (answer :: k.ends post.item.id) ≤ post.item.attempts :=
    (counted_cons_le _ _).trans hcount
  constructor
  · exact h.nodup
  · intro j hj
    refine ⟨?_, (h.items j hj).2⟩
    by_cases hid : post.item.id = j.id
    · have hj' : j = post.item := List.inj_on_of_nodup_map h.nodup hj hm hid.symm
      subst hj'
      rw [ends_called_self]
      exact ⟨hle, (h.items _ hj).1.attempts_le, fun hp => absurd hp hclaimed⟩
    · rw [ends_called_ne k post answer hid]
      exact (h.items j hj).1
  · intro id hne
    by_cases hid : post.item.id = id
    · exact hid ▸ hissued
    · rw [ends_called_ne k post answer hid] at hne
      exact h.called id hne
  · intro id
    by_cases hid : post.item.id = id
    · subst hid
      rw [ends_called_self]
      exact ⟨atMostOnce_cons.mpr hopen, hle.trans (h.items _ hm).1.attempts_le⟩
    · rw [ends_called_ne k post answer hid]
      exact h.once id
  · intro v hv
    rcases List.mem_cons.mp hv with hv | hv
    · cases hv
    · exact h.persisted v hv

/-- **The first write of a run** keeps the ledger. -/
theorem prepared (h : Ledger k) {x : RunInput} {o : Option Key} {v v' : View}
    (hprune : PrunedView k.view v) (hprepare : ViewPrepared x o v v') : Ledger (k.saved v') := by
  have hgrown := prepared_grown hprepare
  have hissued : ∀ id, k.view.Issued id ↔ v.Issued id := by
    intro id
    cases id with
    | connectionTest => simp only [View.Issued, hprune.tested]
    | event key n => simp only [View.Issued, hprune.cursor]
  have hv : ∀ item ∈ v.items, ItemOk (k.ends item.id) item ∧ v.Issued item.id := fun item hm =>
    ⟨(h.items item (mem_of_pruned hprune.items hm)).1,
      (hissued _).mp (h.items item (mem_of_pruned hprune.items hm)).2⟩
  refine h.saved ?_ ?_ fun id hi => hgrown.issued id ((hissued id).mp hi)
  · exact hgrown.nodup (nodup_of_pruned hprune.items h.nodup) fun item hm => (hv item hm).2
  · intro item hm
    rcases hgrown.mem hm with ⟨old, hold, haged⟩ | ⟨-, hzero, hfresh, hnew⟩
    · obtain ⟨hok, hi⟩ := hv old hold
      rw [haged.id]
      refine ⟨⟨haged.attempts ▸ hok.counted_le, haged.attempts ▸ hok.attempts_le, fun hp => ?_⟩,
        hgrown.issued _ hi⟩
      rw [haged.eq_of_pending hp] at hp
      exact hok.pending hp
    · -- nothing was ever called for a new identity
      have hnil : k.ends item.id = [] := by
        by_contra hne
        exact hfresh ((hissued _).mp (h.called _ hne))
      rw [hnil]
      exact ⟨⟨Nat.zero_le _, hzero ▸ Nat.zero_le _, by simp⟩, hnew⟩

/-- **Each move of a run** keeps the ledger. -/
theorem move (h : Ledger k) {x : RunInput} {eligible : List ItemId} {k' : KeyWorld}
    (hm : KeyMove x eligible k k') : Ledger k' := by
  have hclaim : ∀ {done rest : List Item} {item : Item}, Due x eligible k.view done item rest →
      ItemOk (k.ends item.id) item ∧ item.delivery = .pending ∧
        Ledger (k.claim done item rest) := by
    intro done rest item hdue
    have hok := (h.items item (hdue.split ▸ List.mem_append_right _ List.mem_cons_self)).1
    refine ⟨hok, (tries_pending hdue.tries).1, h.replace hdue.split rfl ?_⟩
    exact ⟨hok.counted_le.trans (Nat.le_succ _), hdue.attempts, by simp [Item.claimed]⟩
  have hcalled : ∀ {done rest : List Item} {item : Item}, Due x eligible k.view done item rest →
      ∀ answer, Ledger ((k.claim done item rest).called ⟨item.claimed, x.now⟩ answer) := by
    intro done rest item hdue answer
    obtain ⟨hok, hpending, hledger⟩ := hclaim hdue
    have hends : (k.claim done item rest).ends item.id = k.ends item.id := ends_saved _ _ _
    refine hledger.call ?_ (by simp [Item.claimed]) ?_ ?_ answer
    · exact List.mem_append_right _ List.mem_cons_self
    · simp only [claimed_id, hends]
      exact hok.pending hpending
    · simp only [claimed_id, hends]
      exact Nat.lt_succ_of_le hok.counted_le
  cases hm with
  | saved => exact h.same
  | settled hsplit hitem =>
      have hok := (h.items _ (hsplit ▸ List.mem_append_right _ List.mem_cons_self)).1
      exact h.replace hsplit rfl ⟨hok.counted_le, hok.attempts_le, by simp [Item.interrupted]⟩
  | exhausted hsplit hitem =>
      have hok := (h.items _ (hsplit ▸ List.mem_append_right _ List.mem_cons_self)).1
      exact h.replace hsplit rfl ⟨hok.counted_le, hok.attempts_le, by simp [Item.exhausted]⟩
  | claimed hdue => exact (hclaim hdue).2.2
  | called hdue answer => exact hcalled hdue answer
  | @recorded done rest item hdue outcome =>
      obtain ⟨hok, hpending, -⟩ := hclaim hdue
      obtain ⟨hattempts, hrejected⟩ := recorded_spec item x.now outcome
      have hends : ((k.claim done item rest).called ⟨item.claimed, x.now⟩ (some outcome)).ends
          item.id = some outcome :: k.ends item.id :=
        (ends_called_self _ _ _).trans (congrArg _ (ends_saved _ _ _))
      have hview : k.view.replace done (item.claimed.recorded x.now outcome) rest =
          ((k.claim done item rest).called ⟨item.claimed, x.now⟩ (some outcome)).view.replace done
            (item.claimed.recorded x.now outcome) rest := (replace_claimed _ _ _ _ _).symm
      rw [hview]
      refine (hcalled hdue (some outcome)).replace rfl (recorded_id item.claimed _ _) ?_
      rw [claimed_id, hends]
      refine ⟨?_, ?_, ?_⟩
      · rw [hattempts]
        split
        · next hl => rw [counted_cons_limit hl]; exact hok.counted_le
        · exact (counted_cons_le _ _).trans (Nat.succ_le_succ hok.counted_le)
      · rw [hattempts]
        split
        · exact hok.attempts_le
        · exact hdue.attempts
      · intro hp e he
        rcases List.mem_cons.mp he with rfl | he
        · intro hfinal
          have hr := hrejected hp
          rw [hfinal outcome rfl] at hr
          cases hr
        · exact hok.pending hpending e he

theorem reachable {C : RunInput → AlertWorld → AlertWorld → Prop} {w : AlertWorld}
    (h : Reachable C w) (o : Option Key) : Ledger (keyWorld o w) :=
  h.key_invariant (I := Ledger) (fun _ _ _ _ => (trivial : True)) .start
    (fun _ hk hprune hprepare => hk.prepared hprune hprepare) (fun _ hk hm => hk.move hm)

end Ledger

end Discord
end PickleInfra
