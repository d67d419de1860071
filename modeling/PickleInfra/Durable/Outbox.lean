import Mathlib.Logic.Relation

/-!
# `Durable.Outbox` — messages that are held until they are acknowledged

An outbox holds at most one message for a key. The keys of a group are numbered, and a group has a mark that
outlives its messages: the number up to which they were acknowledged. A message may be dropped once it was
acknowledged and its number marked; a key gets a message only above the mark; what is quarantined is neither
sent nor dropped. `Kept` is what holds of the whole past of an outbox under these rules.

Nothing here mentions a particular program.
-/

namespace PickleInfra
namespace Durable
namespace Outbox

/-- What an outbox holds, the marks of its groups, and the quarantined keys. -/
structure State (K G B : Type) where
  held : K → Option B
  mark : G → Option Nat
  quarantined : K → Prop

/-- An outbox was seen, or sent a message. -/
inductive Event (K G B : Type) where
  | was (s : State K G B)
  | sent (k : K) (b : B) (acknowledged : Bool)

/-- An outbox and its past, newest event first. -/
structure World (K G B : Type) where
  now : State K G B
  past : List (Event K G B)

variable {K G B : Type}

/-- The outbox that holds nothing. -/
def State.empty : State K G B := ⟨fun _ => none, fun _ => none, fun _ => False⟩

def World.start : World K G B := ⟨.empty, []⟩

/-- A key held a message at some time. -/
def World.Ever (w : World K G B) (k : K) (b : B) : Prop := ∃ s, .was s ∈ w.past ∧ s.held k = some b

/-! ## The rules -/

section Rules

variable (group : K → G) (number : K → Nat)

/-- The changes of an outbox. -/
inductive Change (past : List (Event K G B)) (s s' : State K G B) : Prop where
  | keep {k : K} {b : B} (free : s.held k = none) (above : ∀ n, s.mark (group k) = some n → n < number k)
      (held : s'.held k = some b) (others : ∀ k', k' ≠ k → s'.held k' = s.held k') (mark : s'.mark = s.mark)
      (quarantined : s'.quarantined = s.quarantined)
  | settle (held : s'.held = s.held) (mark : ∀ g n, s.mark g = some n → ∃ m, s'.mark g = some m ∧ n ≤ m)
      (quarantined : ∀ k, s.quarantined k → s'.quarantined k)
  | drop {k : K} {b : B} {n : Nat} (held : s.held k = some b) (acknowledged : .sent k b true ∈ past)
      (marked : s.mark (group k) = some n) (below : number k ≤ n) (allowed : ¬ s.quarantined k)
      (gone : s'.held k = none) (others : ∀ k', k' ≠ k → s'.held k' = s.held k') (mark : s'.mark = s.mark)
      (quarantined : s'.quarantined = s.quarantined)

inductive Step : World K G B → World K G B → Prop where
  | change {s s' : State K G B} {past : List (Event K G B)} (h : Change group number past s s') :
      Step ⟨s, past⟩ ⟨s', .was s' :: past⟩
  | send {s : State K G B} {past : List (Event K G B)} {k : K} {b : B} (acknowledged : Bool)
      (held : s.held k = some b) (allowed : ¬ s.quarantined k) : Step ⟨s, past⟩ ⟨s, .sent k b acknowledged :: past⟩

end Rules

/-! ## What is kept -/

variable {group : K → G} {number : K → Nat}

theorem Change.mark_le {past : List (Event K G B)} {s s' : State K G B} (h : Change group number past s s') {g : G}
    {n : Nat} (hn : s.mark g = some n) : ∃ m, s'.mark g = some m ∧ n ≤ m := by
  cases h with
  | keep _ _ _ _ mark _ => exact ⟨n, by rw [mark, hn], Nat.le_refl n⟩
  | settle _ mark _ => exact mark g n hn
  | drop _ _ _ _ _ _ _ mark _ => exact ⟨n, by rw [mark, hn], Nat.le_refl n⟩

theorem Change.still_quarantined {past : List (Event K G B)} {s s' : State K G B}
    (h : Change group number past s s') {k : K} (hk : s.quarantined k) :
    s'.quarantined k ∧ ∀ b, s.held k = some b → s'.held k = some b := by
  cases h with
  | @keep k' b' free _ _ others _ quarantined =>
      refine ⟨by rw [quarantined]; exact hk, fun b hb => ?_⟩
      have hne : k ≠ k' := by
        rintro rfl
        rw [free] at hb
        cases hb
      rw [others k hne, hb]
  | settle held _ quarantined => exact ⟨quarantined k hk, fun b hb => by rw [held, hb]⟩
  | @drop k' b' n _ _ _ _ allowed _ others _ quarantined =>
      refine ⟨by rw [quarantined]; exact hk, fun b hb => ?_⟩
      have hne : k ≠ k' := by
        rintro rfl
        exact allowed hk
      rw [others k hne, hb]

/-- A message that is held stays held, unless it was acknowledged and its number marked. -/
theorem Change.held_or_marked {past : List (Event K G B)} {s s' : State K G B}
    (h : Change group number past s s') {k : K} {b : B} (hb : s.held k = some b) :
    s'.held k = some b ∨ .sent k b true ∈ past ∧ ∃ n, s'.mark (group k) = some n ∧ number k ≤ n := by
  cases h with
  | @keep k' b' free _ _ others _ _ =>
      have hne : k ≠ k' := by
        rintro rfl
        rw [free] at hb
        cases hb
      exact .inl (by rw [others k hne, hb])
  | settle held _ _ => exact .inl (by rw [held, hb])
  | @drop k' b' n held acknowledged marked below _ _ others mark _ =>
      by_cases hk : k = k'
      · subst hk
        obtain rfl := Option.some.inj (held.symm.trans hb)
        exact .inr ⟨acknowledged, n, by rw [mark, marked], below⟩
      · exact .inl (by rw [others k hk, hb])

/-- A message that is held was held before, or its key was free and above the mark. -/
theorem Change.held_before {past : List (Event K G B)} {s s' : State K G B}
    (h : Change group number past s s') {k : K} {b : B} (hb : s'.held k = some b) :
    s.held k = some b ∨ s.held k = none ∧ ∀ n, s.mark (group k) = some n → n < number k := by
  cases h with
  | @keep k' b' free above _ others _ _ =>
      by_cases hk : k = k'
      · subst hk
        exact .inr ⟨free, above⟩
      · exact .inl (by rw [← others k hk, hb])
  | settle held _ _ => exact .inl (by rw [← held, hb])
  | @drop k' b' n _ _ _ _ _ gone others _ _ =>
      have hne : k ≠ k' := by
        rintro rfl
        rw [gone] at hb
        cases hb
      exact .inl (by rw [← others k hne, hb])

/-- **What holds of the past of an outbox.** -/
structure Kept (group : K → G) (number : K → Nat) (w : World K G B) : Prop where
  /-- What was held is held, or it was acknowledged and its number is marked. -/
  lasting : ∀ k b, w.Ever k b → w.now.held k = some b ∨
    .sent k b true ∈ w.past ∧ ∃ n, w.now.mark (group k) = some n ∧ number k ≤ n
  /-- A key had one message. -/
  single : ∀ k b b', w.Ever k b → w.Ever k b' → b = b'
  current : ∀ k b, w.now.held k = some b → w.Ever k b
  /-- Only what was held was sent. -/
  sent : ∀ k b a, .sent k b a ∈ w.past → w.Ever k b
  /-- A mark does not move back. -/
  marks : ∀ s g n, .was s ∈ w.past → s.mark g = some n → ∃ m, w.now.mark g = some m ∧ n ≤ m
  /-- What is quarantined stays so, with its message, and is not sent again. -/
  quarantine : ∀ newer s older k, w.past = newer ++ .was s :: older → s.quarantined k →
    w.now.quarantined k ∧ (∀ b a, .sent k b a ∉ newer) ∧ ∀ b, s.held k = some b → w.now.held k = some b

theorem kept_start : Kept group number (World.start : World K G B) where
  lasting _ _ h := by
    obtain ⟨_, hs, -⟩ := h
    cases hs
  single _ _ _ h := by
    obtain ⟨_, hs, -⟩ := h
    cases hs
  current _ _ h := by cases h
  sent _ _ _ h := by cases h
  marks _ _ _ h := by cases h
  quarantine newer s older k h := by
    have hlength := congrArg List.length h
    rw [List.length_append, List.length_cons] at hlength
    cases hlength

theorem ever_change {s s' : State K G B} {past : List (Event K G B)} {k : K} {b : B}
    (h : (⟨s', .was s' :: past⟩ : World K G B).Ever k b) :
    s'.held k = some b ∨ (⟨s, past⟩ : World K G B).Ever k b := by
  obtain ⟨x, hx, hb⟩ := h
  rcases List.mem_cons.mp hx with heq | hx
  · obtain rfl := Event.was.inj heq
    exact .inl hb
  · exact .inr ⟨x, hx, hb⟩

theorem Kept.change {s s' : State K G B} {past : List (Event K G B)} (hw : Kept group number ⟨s, past⟩)
    (h : Change group number past s s') : Kept group number ⟨s', .was s' :: past⟩ := by
  have hever : ∀ k b, (⟨s, past⟩ : World K G B).Ever k b → (⟨s', .was s' :: past⟩ : World K G B).Ever k b := by
    rintro k b ⟨x, hx, hb⟩
    exact ⟨x, List.mem_cons_of_mem _ hx, hb⟩
  -- a key that has a message now and had another one was free and above the mark, so its message is not gone
  have hsame : ∀ k b b', s'.held k = some b → (⟨s, past⟩ : World K G B).Ever k b' → b' = b := by
    intro k b b' hb hb'
    rcases h.held_before hb with hbefore | ⟨hfree, habove⟩
    · exact hw.single k b' b hb' (hw.current k b hbefore)
    · rcases hw.lasting k b' hb' with hheld | ⟨-, n, hn, hle⟩
      · rw [hfree] at hheld
        cases hheld
      · exact absurd (habove n hn) (Nat.not_lt.mpr hle)
  refine ⟨?_, ?_, ?_, ?_, ?_, ?_⟩
  · intro k b hb
    rcases ever_change hb with hb | hb
    · exact .inl hb
    · rcases hw.lasting k b hb with hheld | ⟨hsent, n, hn, hle⟩
      · rcases h.held_or_marked hheld with hheld | ⟨hsent, hmark⟩
        · exact .inl hheld
        · exact .inr ⟨List.mem_cons_of_mem _ hsent, hmark⟩
      · obtain ⟨m, hm, hnm⟩ := h.mark_le hn
        exact .inr ⟨List.mem_cons_of_mem _ hsent, m, hm, Nat.le_trans hle hnm⟩
  · intro k b b' hb hb'
    rcases ever_change hb with hb | hb
    · rcases ever_change hb' with hb' | hb'
      · exact Option.some.inj (hb.symm.trans hb')
      · exact (hsame k b b' hb hb').symm
    · rcases ever_change hb' with hb' | hb'
      · exact hsame k b' b hb' hb
      · exact hw.single k b b' hb hb'
  · exact fun k b hb => ⟨s', List.mem_cons_self, hb⟩
  · intro k b a hsent
    rcases List.mem_cons.mp hsent with heq | hsent
    · cases heq
    · exact hever k b (hw.sent k b a hsent)
  · intro x g n hx hn
    rcases List.mem_cons.mp hx with heq | hx
    · obtain rfl := Event.was.inj heq
      exact ⟨n, hn, Nat.le_refl n⟩
    · obtain ⟨m, hm, hnm⟩ := hw.marks x g n hx hn
      obtain ⟨m', hm', hmm⟩ := h.mark_le hm
      exact ⟨m', hm', Nat.le_trans hnm hmm⟩
  · intro newer x older k hpast hk
    cases newer with
    | nil =>
        obtain ⟨heq, -⟩ := List.cons.inj hpast
        obtain rfl := Event.was.inj heq
        exact ⟨hk, fun _ _ => List.not_mem_nil, fun b hb => hb⟩
    | cons e newer =>
        obtain ⟨rfl, htail⟩ := List.cons.inj hpast
        obtain ⟨hnow, hunsent, hheld⟩ := hw.quarantine newer x older k htail hk
        obtain ⟨hnow', hheld'⟩ := h.still_quarantined hnow
        refine ⟨hnow', fun b a hmem => ?_, fun b hb => hheld' b (hheld b hb)⟩
        rcases List.mem_cons.mp hmem with heq | hmem
        · cases heq
        · exact hunsent b a hmem

theorem Kept.send {s : State K G B} {past : List (Event K G B)} (hw : Kept group number ⟨s, past⟩) {k : K} {b : B}
    (acknowledged : Bool) (held : s.held k = some b) (allowed : ¬ s.quarantined k) :
    Kept group number ⟨s, .sent k b acknowledged :: past⟩ := by
  have hever : ∀ k' b', (⟨s, .sent k b acknowledged :: past⟩ : World K G B).Ever k' b' ↔
      (⟨s, past⟩ : World K G B).Ever k' b' := by
    intro k' b'
    constructor
    · rintro ⟨x, hx, hb⟩
      rcases List.mem_cons.mp hx with heq | hx
      · cases heq
      · exact ⟨x, hx, hb⟩
    · rintro ⟨x, hx, hb⟩
      exact ⟨x, List.mem_cons_of_mem _ hx, hb⟩
  refine ⟨?_, ?_, ?_, ?_, ?_, ?_⟩
  · intro k' b' hb
    exact (hw.lasting k' b' ((hever k' b').mp hb)).imp_right fun h => ⟨List.mem_cons_of_mem _ h.1, h.2⟩
  · intro k' b' b'' hb hb'
    exact hw.single k' b' b'' ((hever _ _).mp hb) ((hever _ _).mp hb')
  · exact fun k' b' hb => (hever k' b').mpr (hw.current k' b' hb)
  · intro k' b' a hsent
    rw [hever]
    rcases List.mem_cons.mp hsent with heq | hsent
    · cases heq
      exact hw.current k b held
    · exact hw.sent k' b' a hsent
  · intro x g n hx hn
    rcases List.mem_cons.mp hx with heq | hx
    · cases heq
    · exact hw.marks x g n hx hn
  · intro newer x older k' hpast hk
    cases newer with
    | nil =>
        obtain ⟨heq, -⟩ := List.cons.inj hpast
        cases heq
    | cons e newer =>
        obtain ⟨rfl, htail⟩ := List.cons.inj hpast
        obtain ⟨hnow, hunsent, hheld⟩ := hw.quarantine newer x older k' htail hk
        refine ⟨hnow, fun b' a hmem => ?_, hheld⟩
        rcases List.mem_cons.mp hmem with heq | hmem
        · cases heq
          exact allowed hnow
        · exact hunsent b' a hmem

/-- **Every run of the rules keeps it.** -/
theorem kept_of_steps {w w' : World K G B} (hw : Kept group number w)
    (h : Relation.ReflTransGen (Step group number) w w') : Kept group number w' := by
  induction h with
  | refl => exact hw
  | tail _ hstep ih =>
      cases hstep with
      | change h => exact ih.change h
      | send a held allowed => exact ih.send a held allowed

theorem Kept.sent_single {w : World K G B} (hw : Kept group number w) {k : K} {b b' : B} {a a' : Bool}
    (h : .sent k b a ∈ w.past) (h' : .sent k b' a' ∈ w.past) : b = b' :=
  hw.single k b b' (hw.sent k b a h) (hw.sent k b' a' h')

end Outbox
end Durable
end PickleInfra
