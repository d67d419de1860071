import PickleInfra.Durable.History

/-!
# `Durable.Notices` — numbered notices that are sent a bounded number of times

A sender persists a claim, makes one call, and persists what the answer makes of it (`tell`). Its store
has a `Note`: the number of the current notice, its stage, and how often it was claimed. If every write
keeps the note, opens the next number, or claims again what was refused, then no number is sent more
often than the limit, and none again after a call that was not refused (`Kept`): a kill leaves a claim,
and a claim is never repeated.

Nothing here mentions a particular program.
-/

namespace PickleInfra
namespace Durable

open History

variable {D Q R α : Type}

/-! ## Telling -/

/-- Persist `claim`, ask `q`, and persist what the answer makes of the store, if it makes something. -/
def tell (claim : D) (q : Q) (record : R → Option D) (k : R → α) : Prog D Q R α :=
  .write (fun _ => claim) (.call q fun r =>
    match record r with
    | some d => .write (fun _ => d) (.ret (k r))
    | none   => .ret (k r))

/-- How far a telling got, from the world after its claim. -/
inductive Told (q : Q) (record : R → Option D) (w : World D Q R) : World D Q R → Prop
  | claimed : Told q record w w
  | lost : Told q record w (w.push (.lost q))
  | answered (r : R) : Told q record w (w.push (.answered q r))
  | recorded (r : R) (d : D) (h : record r = some d) : Told q record w ((w.push (.answered q r)).wrote d)

/-- **A run of a telling** is killed before its claim, or gets somewhere after it. -/
theorem runs_tell {claim : D} {q : Q} {record : R → Option D} {k : R → α} {w w' : World D Q R} {x}
    (h : Runs (tell claim q record k) w w' x) : w' = w ∨ Told q record (w.wrote claim) w' := by
  rcases runs_write h with ⟨rfl, -⟩ | h
  · exact .inl rfl
  right
  rcases runs_call h with ⟨rfl, -⟩ | ⟨rfl, -⟩ | ⟨r, h⟩
  · exact .claimed
  · exact .lost
  cases hrecord : record r with
  | none =>
      rw [hrecord] at h
      rw [(runs_ret h).1]
      exact .answered r
  | some d =>
      rw [hrecord] at h
      rcases runs_write h with ⟨rfl, -⟩ | h
      · exact .answered r
      · rw [(runs_ret h).1]
        exact .recorded r d hrecord

/-! ## Notes -/

inductive Stage where
  | quiet
  | claimed
  | refused
  | closed
deriving DecidableEq, Repr

/-- What the store says of the current notice. -/
structure Note where
  sequence : Nat
  stage : Stage
  attempts : Nat

/-- The next number, without a call. -/
def Note.next (n : Note) : Note := ⟨n.sequence + 1, .quiet, 0⟩

/-- `c` claims a notice: the next number, or what was refused before. -/
def Note.Claims (n c : Note) : Prop :=
  c = ⟨n.sequence + 1, .claimed, 1⟩ ∨ (n.stage = .refused ∧ c = ⟨n.sequence, .claimed, n.attempts + 1⟩)

/-- `s` settles the claim `c`: it is closed, or refused with attempts left. -/
def Note.Settles (limit : Nat) (isRefused : Prop) (c s : Note) : Prop :=
  s.sequence = c.sequence ∧ s.attempts = c.attempts ∧
    (s.stage = .closed ∨ (s.stage = .refused ∧ isRefused ∧ c.attempts < limit))

section Notices

variable (note : D → Note) (key : Q → Nat) (refused : R → Prop) (limit : Nat)

/-- A move of a sender from one world to another. -/
inductive Move (w : World D Q R) : World D Q R → Prop
  | still : Move w w
  | quiet (d : D) (h : note d = note w.disk ∨ note d = (note w.disk).next) : Move w (w.wrote d)
  | tell {w'} (claim : D) (q : Q) (record : R → Option D) (hclaim : (note w.disk).Claims (note claim))
      (hkey : key q = (note claim).sequence)
      (hrecord : ∀ r d, record r = some d → (note claim).Settles limit (refused r) (note d))
      (htold : Told q record (w.wrote claim) w') : Move w w'

/-- How the calls about a number ended, newest first; a call that was killed is `none`. -/
abbrev callEnds (n : Nat) (hist : List (Event D Q R)) : List (Option R) :=
  endsOf (Event.ended key) n hist

/-- The call was refused, for certain. -/
def Refused (refused : R → Prop) (e : Option R) : Prop := ∃ r, e = some r ∧ refused r

/-- The invariant of a sender. -/
structure Kept (w : World D Q R) : Prop where
  fresh : ∀ n, (note w.disk).sequence < n → callEnds key n w.hist = []
  bounded : ∀ n, (callEnds key n w.hist).length ≤ limit
  once : ∀ n, AtMostOnce (fun e => ¬ Refused refused e) (callEnds key n w.hist)
  waiting : (note w.disk).stage = .refused →
    (∀ e ∈ callEnds key (note w.disk).sequence w.hist, Refused refused e) ∧
      (callEnds key (note w.disk).sequence w.hist).length = (note w.disk).attempts ∧
      (note w.disk).attempts < limit

variable {note key refused limit}

theorem callEnds_wrote (n : Nat) (d : D) (w : World D Q R) :
    callEnds key n (w.wrote d).hist = callEnds key n w.hist := endsOf_cons_none rfl

/-- The calls after one more. -/
theorem callEnds_call {n : Nat} {e : Event D Q R} {q : Q} {r : Option R} (he : e.call? = some (q, r))
    (w : World D Q R) :
    callEnds key n (w.push e).hist =
      if key q = n then r :: callEnds key n w.hist else callEnds key n w.hist := by
  have hended : e.ended key = some (key q, r) := by
    unfold Event.ended
    rw [he]
    rfl
  split
  · next hkey => exact endsOf_cons_self (hkey ▸ hended)
  · next hkey => exact endsOf_cons_ne hended hkey

/-- A write that keeps the note, or opens the next number without a call. -/
theorem Kept.quiet {w : World D Q R} (h : Kept note key refused limit w) {d : D}
    (hd : note d = note w.disk ∨ note d = (note w.disk).next) :
    Kept note key refused limit (w.wrote d) where
  fresh := by
    intro n hn
    rw [callEnds_wrote]
    apply h.fresh
    rw [World.wrote_disk] at hn
    rcases hd with hd | hd
    · rwa [hd] at hn
    · rw [hd] at hn
      exact Nat.lt_of_succ_lt hn
  bounded := fun n => by rw [callEnds_wrote]; exact h.bounded n
  once := fun n => by rw [callEnds_wrote]; exact h.once n
  waiting := by
    rw [World.wrote_disk]
    rcases hd with hd | hd
    · rw [hd, callEnds_wrote]
      exact h.waiting
    · rw [hd]
      intro hstage
      cases hstage

/-- What is known of the number a claim is about: every call so far was refused, and there is room. -/
theorem Kept.claim {w : World D Q R} (h : Kept note key refused limit w) (hlimit : 1 ≤ limit)
    {c : Note} (hc : (note w.disk).Claims c) :
    (∀ n, c.sequence < n → callEnds key n w.hist = []) ∧
      (∀ e ∈ callEnds key c.sequence w.hist, Refused refused e) ∧
      (callEnds key c.sequence w.hist).length + 1 = c.attempts ∧ c.attempts ≤ limit := by
  rcases hc with rfl | ⟨hstage, rfl⟩
  · -- the next number has no calls yet
    have hnone := h.fresh _ (Nat.lt_succ_self _)
    refine ⟨fun n hn => h.fresh n (Nat.lt_of_succ_lt hn), ?_, ?_, hlimit⟩
    · rw [hnone]
      simp
    · rw [hnone]
      rfl
  · obtain ⟨hall, hlength, hroom⟩ := h.waiting hstage
    exact ⟨h.fresh, hall, congrArg (· + 1) hlength, hroom⟩

/-- After a claim and its call, whatever was recorded. -/
theorem Kept.told {w w' : World D Q R} (h : Kept note key refused limit w) (hlimit : 1 ≤ limit) {claim : D}
    {q : Q} {record : R → Option D} (hclaim : (note w.disk).Claims (note claim))
    (hkey : key q = (note claim).sequence)
    (hrecord : ∀ r d, record r = some d → (note claim).Settles limit (refused r) (note d))
    (htold : Told q record (w.wrote claim) w') : Kept note key refused limit w' := by
  obtain ⟨hfresh, hall, hlength, hroom⟩ := h.claim hlimit hclaim
  have hstage : (note claim).stage = .claimed := by
    rcases hclaim with hc | ⟨-, hc⟩ <;> rw [hc]
  -- the world after the call, with a store whose note has the number of the claim
  have hcalled : ∀ {e : Event D Q R} {r : Option R}, e.call? = some (q, r) → ∀ (d : D) (hist),
      hist = ((w.wrote claim).push e).hist ∨ hist = .wrote d :: ((w.wrote claim).push e).hist →
      (note d).sequence = (note claim).sequence →
      ((note d).stage = .refused → Refused refused r ∧ (note d).attempts = (note claim).attempts ∧
        (note claim).attempts < limit) →
      Kept note key refused limit ⟨d, hist⟩ := by
    intro e r he d hist hhist hsequence hrefused
    have hends : ∀ n, callEnds key n hist =
        if (note claim).sequence = n then r :: callEnds key n w.hist else callEnds key n w.hist := by
      intro n
      rw [← hkey, ← callEnds_wrote n claim w, ← callEnds_call he]
      rcases hhist with rfl | rfl
      · rfl
      · exact endsOf_cons_none rfl
    refine ⟨fun n hn => ?_, fun n => ?_, fun n => ?_, fun hd => ?_⟩
    · have hlt : (note claim).sequence < n := hsequence ▸ hn
      rw [hends, if_neg (Nat.ne_of_lt hlt)]
      exact hfresh n hlt
    · rw [hends]
      split
      · next hn =>
        subst hn
        rw [List.length_cons, hlength]
        exact hroom
      · exact h.bounded n
    · rw [hends]
      split
      · next hn =>
        subst hn
        exact atMostOnce_cons.mpr fun x hx hnot => hnot (hall x hx)
      · exact h.once n
    · obtain ⟨hr, hattempts, hlt⟩ := hrefused hd
      rw [hsequence, hends, if_pos rfl]
      refine ⟨?_, ?_, hattempts ▸ hlt⟩
      · intro x hx
        rcases List.mem_cons.mp hx with rfl | hx
        · exact hr
        · exact hall x hx
      · rw [List.length_cons, hlength, hattempts]
  have hnotRefused : (note claim).stage = .refused → ∀ p : Prop, p := by
    intro hc
    rw [hstage] at hc
    cases hc
  cases htold with
  | claimed =>
      refine ⟨fun n hn => ?_, fun n => ?_, fun n => ?_, fun hc => hnotRefused hc _⟩
      · rw [callEnds_wrote]
        exact hfresh n hn
      · rw [callEnds_wrote]
        exact h.bounded n
      · rw [callEnds_wrote]
        exact h.once n
  | lost => exact hcalled rfl claim _ (.inl rfl) rfl fun hc => hnotRefused hc _
  | answered r => exact hcalled (Event.call?_answered q r) claim _ (.inl rfl) rfl fun hc => hnotRefused hc _
  | recorded r d hr =>
      obtain ⟨hsequence, hattempts, hsettled⟩ := hrecord r d hr
      refine hcalled (Event.call?_answered q r) d _ (.inr rfl) hsequence fun hd => ?_
      rcases hsettled with hclosed | ⟨-, hrefused, hlt⟩
      · rw [hclosed] at hd
        cases hd
      · exact ⟨⟨r, rfl, hrefused⟩, hattempts, hlt⟩

/-- **Every move of a sender keeps its notices.** -/
theorem Kept.move {w w' : World D Q R} (h : Kept note key refused limit w) (hlimit : 1 ≤ limit)
    (hm : Move note key refused limit w w') : Kept note key refused limit w' := by
  cases hm with
  | still => exact h
  | quiet d hd => exact h.quiet hd
  | tell claim q record hclaim hkey hrecord htold => exact h.told hlimit hclaim hkey hrecord htold

theorem kept_start (d : D) (h : (note d).stage ≠ .refused) :
    Kept note key refused limit (⟨d, []⟩ : World D Q R) where
  fresh := fun _ _ => rfl
  bounded := fun _ => Nat.zero_le _
  once := fun _ => atMostOnce_nil _
  waiting := fun hc => absurd hc h

end Notices

/-! ## What is written -/

/-- Every write of a history is related to the store it replaced. -/
def WritesRelated (rel : D → D → Prop) (init : D) (hist : List (Event D Q R)) : Prop :=
  ∀ later d earlier, hist = later ++ .wrote d :: earlier → rel (diskAt init earlier) d

section WritesRelated

variable {rel : D → D → Prop} {init : D} {hist : List (Event D Q R)}

theorem writesRelated_nil : WritesRelated rel init ([] : List (Event D Q R)) := by
  intro later d earlier h
  cases later <;> cases h

theorem WritesRelated.mono {rel' : D → D → Prop} (h : WritesRelated rel init hist)
    (himp : ∀ {old new}, rel old new → rel' old new) : WritesRelated rel' init hist :=
  fun later d earlier heq => himp (h later d earlier heq)

theorem WritesRelated.wrote (h : WritesRelated rel init hist) {d : D} (hrel : rel (diskAt init hist) d) :
    WritesRelated rel init (.wrote d :: hist) := by
  intro later d' earlier heq
  cases later with
  | nil =>
      rw [List.nil_append, List.cons.injEq] at heq
      obtain ⟨hd, rfl⟩ := heq
      cases hd
      exact hrel
  | cons e later =>
      rw [List.cons_append, List.cons.injEq] at heq
      exact h later d' earlier heq.2

theorem WritesRelated.call (h : WritesRelated rel init hist) {e : Event D Q R} {q : Q} {r : Option R}
    (he : e.call? = some (q, r)) : WritesRelated rel init (e :: hist) := by
  intro later d' earlier heq
  cases later with
  | nil =>
      rw [List.nil_append, List.cons.injEq] at heq
      rw [heq.1] at he
      cases he
  | cons x later =>
      rw [List.cons_append, List.cons.injEq] at heq
      exact h later d' earlier heq.2

/-- A telling writes its claim, and perhaps its outcome. -/
theorem WritesRelated.told {w w' : World D Q R} {claim : D} {q : Q} {record : R → Option D}
    (h : WritesRelated rel init w.hist) (hdisk : w.disk = diskAt init w.hist) (hclaim : rel w.disk claim)
    (hrecord : ∀ r d, record r = some d → rel claim d) (htold : Told q record (w.wrote claim) w') :
    WritesRelated rel init w'.hist := by
  have hclaimed : WritesRelated rel init (w.wrote claim).hist := h.wrote (hdisk ▸ hclaim)
  cases htold with
  | claimed => exact hclaimed
  | lost => exact hclaimed.call rfl
  | answered r => exact hclaimed.call (Event.call?_answered q r)
  | recorded r d hr => exact (hclaimed.call (Event.call?_answered q r)).wrote (hrecord r d hr)

end WritesRelated

end Durable
end PickleInfra
