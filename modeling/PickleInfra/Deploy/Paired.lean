import PickleInfra.Deploy.Activation

/-!
# `Deploy.Paired` — when an activation keeps the two links of the gateway paired

`Went` has one constructor for each way through `activate_binary`, with the commands that decide it.
Two ways leave the links of different releases: a keygen link that cannot be switched while the active
one cannot be taken back, and a rollback that takes back the active link alone. `Keeps` says that neither
is taken, and `activate_binary_paired` that nothing else is needed.
-/

namespace PickleInfra
namespace Deploy

open Python

/-! ## What the callers pass -/

/-- **A link that was read** is passed as it is, and is not empty. -/
theorem activeLink_reads {releaseDir : String} {prod : Bool} {view : LinkView} {previous : Option String}
    (h : activeLink releaseDir prod view = .ok previous) :
    previous = view.path.link ∧ truthy previous = previous := by
  unfold activeLink at h
  split at h
  · cases h
  cases hpath : view.path with
  | absent =>
      simp only [hpath] at h
      split at h
      · cases h
      cases hstate : view.activeState.checked with
      | error stop =>
          rw [hstate] at h
          cases h
      | ok state =>
          rw [hstate] at h
          simp only [bind, Except.bind] at h
          split at h
          · cases h
          · obtain rfl := Except.ok.inj h
            exact ⟨rfl, rfl⟩
  | symlink target =>
      simp only [hpath] at h
      split at h
      · cases h
      next hprefix =>
      split at h
      · cases h
      obtain rfl := Except.ok.inj h
      rw [target.trimmed] at hprefix ⊢
      refine ⟨rfl, ?_⟩
      -- it starts with the directory and a slash
      have hne : target.text ≠ "" := by
        intro hempty
        rw [hempty, not_not] at hprefix
        have hlength := hprefix.length_le
        simp at hlength
      unfold truthy
      rw [Option.filter_some, if_pos (by simpa using hne)]
  | other =>
      simp only [hpath] at h
      cases h

theorem keygenLink_reads {hasPath : Bool} {releaseDir : String} {prod : Bool} {view : LinkView}
    {previous : Option String} (h : keygenLink hasPath releaseDir prod view = .ok previous) :
    previous = view.path.link ∧ truthy previous = previous := by
  unfold keygenLink at h
  split at h
  · cases h
  · exact activeLink_reads h

/-- The name of a release is not empty. -/
theorem truthy_releaseName (releaseDir binary commit : String) :
    truthy (some (releaseName releaseDir binary commit)) = some (releaseName releaseDir binary commit) := by
  have hne : releaseName releaseDir binary commit ≠ "" := by
    intro hempty
    have hlength := congrArg String.length hempty
    unfold releaseName at hlength
    simp only [String.length_append] at hlength
    have hslash : "/".length = 1 := rfl
    have hnone : "".length = 0 := rfl
    omega
  unfold truthy
  rw [Option.filter_some, if_pos (by simpa using hne)]

/-! ## The ways through an activation -/

/-- The unit did not come up with the new artifact, and nothing raised. -/
def GoesDown (o : Outcomes) : Prop :=
  ¬ (o.restart.ok = true ∧ waitHealth o.health = true) ∨
    (o.hash.ok = true ∧ ∃ expected, firstWord o.hash.stdout = some expected ∧
      verifyRunningArtifact expected o.mainPid o.probe = false)

/-- The unit came up and runs the new artifact. -/
def CameUp (o : Outcomes) : Prop :=
  o.restart.ok = true ∧ waitHealth o.health = true ∧ o.hash.ok = true ∧
    ∃ expected, firstWord o.hash.stdout = some expected ∧
      verifyRunningArtifact expected o.mainPid o.probe = true

/-- The two messages that say the previous artifact was restored. -/
def SaysRestored (stop : Stop) : Prop :=
  stop = .refusal "health failed; previous artifact restored" ∨
    stop = .refusal "health failed; previous artifact restored but its health failed"

/-- A failed command says something else. -/
theorem not_saysRestored_failure (c : Command) : ¬ SaysRestored c.failure := by
  have hhead : ∀ message : String, message.toList.head? = some 'h' → c.failure ≠ .refusal message := by
    intro message hmessage hc
    unfold Command.failure at hc
    have htext := congrArg (fun s : String => s.toList.head?) (Stop.refusal.inj hc)
    simp only [hmessage] at htext
    rw [show toString "command failed (pct, exit " = "command failed (pct, exit " from rfl,
      String.append_assoc, String.toList_append] at htext
    cases htext
  rintro (h | h)
  · exact hhead _ (by decide) h
  · exact hhead _ (by decide) h

/-- One constructor for each way through `activate_binary`; `new` is what both links should select. -/
inductive Went (destination keygen : String) (before : Links) (policy : RollbackPolicy) (o : Outcomes) :
    Except Stop Unit × Links → Prop
  | unselected (h : o.selectActive.ok = false) :
      Went destination keygen before policy o (.error o.selectActive.failure, before)
  | undone (previous : String) (h : o.selectActive.ok = true) (hkeygen : o.selectKeygen.ok = false)
      (hprevious : before.active = some previous) (hundo : o.undoActive.ok = true) :
      Went destination keygen before policy o (.error o.selectKeygen.failure, before)
  | stranded (stop : Stop) (h : o.selectActive.ok = true) (hkeygen : o.selectKeygen.ok = false)
      (hundo : before.active = none ∨ o.undoActive.ok = false) (hstop : ¬ SaysRestored stop) :
      Went destination keygen before policy o (.error stop, ⟨some destination, before.keygen⟩)
  | raised (stop : Stop) (h : o.selectActive.ok = true) (hkeygen : o.selectKeygen.ok = true) (hdown : ¬ GoesDown o) (hstop : ¬ SaysRestored stop) :
      Went destination keygen before policy o (.error stop, ⟨some destination, some keygen⟩)
  | activated (h : o.selectActive.ok = true) (hkeygen : o.selectKeygen.ok = true) (hup : CameUp o) (hdown : ¬ GoesDown o) :
      Went destination keygen before policy o (.ok (), ⟨some destination, some keygen⟩)
  | kept (stop : Stop) (h : o.selectActive.ok = true) (hkeygen : o.selectKeygen.ok = true)
      (hstop : ¬ SaysRestored stop)
      (hkept : before.active = none ∨ policy = .fixForward ∨ o.restoreActive.ok = false) :
      Went destination keygen before policy o (.error stop, ⟨some destination, some keygen⟩)
  | half (stop : Stop) (h : o.selectActive.ok = true) (hkeygen : o.selectKeygen.ok = true)
      (hdown : GoesDown o) (hactive : before.active.isSome) (hpolicy : policy = .compatible)
      (hrestore : o.restoreActive.ok = true)
      (hkept : before.keygen = none ∨ o.restoreKeygen.ok = false)
      (hstop : SaysRestored stop ↔ before.keygen = none ∧ o.restartBack.ok = true) :
      Went destination keygen before policy o (.error stop, ⟨before.active, some keygen⟩)
  | restored (stop : Stop) (h : o.selectActive.ok = true) (hkeygen : o.selectKeygen.ok = true)
      (hsome : before.keygen.isSome) (hrestore : o.restoreKeygen.ok = true) :
      Went destination keygen before policy o (.error stop, before)

section Ways

variable {destination keygen : String} {before : Links} {policy : RollbackPolicy} {o : Outcomes}

/-- The first half: both links are switched, or one of three ways is taken. -/
theorem switchLinks_cases (hkeygen : truthy (some keygen) = some keygen)
    (hactive : truthy before.active = before.active) :
    (o.selectActive.ok = true ∧ o.selectKeygen.ok = true ∧
        switchLinks destination (some keygen) before.active o before =
          (.ok (), ⟨some destination, some keygen⟩)) ∨
      ∃ stop links, switchLinks destination (some keygen) before.active o before = (.error stop, links) ∧
        Went destination keygen before policy o (.error stop, links) := by
  unfold switchLinks Activation.andThen selectActive selectKeygen
  rw [hkeygen, hactive]
  cases h₁ : o.selectActive.ok with
  | false => exact .inr ⟨_, _, rfl, .unselected h₁⟩
  | true =>
      cases h₂ : o.selectKeygen.ok with
      | true => exact .inl ⟨rfl, rfl, rfl⟩
      | false =>
          right
          cases hprevious : before.active with
          | none =>
              exact ⟨_, _, rfl, .stranded _ h₁ h₂ (.inl hprevious) (not_saysRestored_failure _)⟩
          | some previous =>
              cases h₃ : o.undoActive.ok with
              | false =>
                  exact ⟨_, _, rfl, .stranded _ h₁ h₂ (.inr h₃) (not_saysRestored_failure _)⟩
              | true =>
                  refine ⟨_, ⟨some previous, before.keygen⟩, rfl, ?_⟩
                  rw [← hprevious]
                  exact .undone previous h₁ h₂ hprevious h₃

/-- The second half: the unit comes up, goes down, or the check raises. -/
theorem comesUp_cases (links : Links) :
    (CameUp o ∧ ¬ GoesDown o ∧ comesUp o links = (.ok true, links)) ∨
      (GoesDown o ∧ comesUp o links = (.ok false, links)) ∨
      ∃ stop, ¬ GoesDown o ∧ ¬ SaysRestored stop ∧ comesUp o links = (.error stop, links) := by
  unfold comesUp Activation.andThen run Command.checked GoesDown CameUp
  cases h₁ : o.restart.ok with
  | false => exact .inr (.inl ⟨.inl (by simp), rfl⟩)
  | true =>
      cases h₂ : waitHealth o.health with
      | false => exact .inr (.inl ⟨.inl (by simp), rfl⟩)
      | true =>
          cases h₃ : o.hash.ok with
          | false => exact .inr (.inr ⟨_, by simp, not_saysRestored_failure _, rfl⟩)
          | true =>
              cases h₄ : firstWord o.hash.stdout with
              | none =>
                  refine .inr (.inr ⟨.index, by simp, ?_, ?_⟩)
                  · rintro (h | h) <;> cases h
                  · simp [h₄]
              | some expected =>
                  cases h₅ : verifyRunningArtifact expected o.mainPid o.probe with
                  | true =>
                      refine .inl ⟨⟨rfl, rfl, rfl, expected, rfl, h₅⟩, ?_, ?_⟩
                      · simp [h₅]
                      · simp [h₄, h₅]
                  | false =>
                      refine .inr (.inl ⟨.inr ⟨rfl, expected, rfl, h₅⟩, ?_⟩)
                      simp [h₄, h₅]

/-- The way back. -/
theorem rollBack_went {previous : String} (h : o.selectActive.ok = true) (h' : o.selectKeygen.ok = true)
    (hdown : GoesDown o) (hprevious : before.active = some previous) (hpolicy : policy = .compatible)
    (hkeygen : truthy before.keygen = before.keygen) :
    Went destination keygen before policy o
      (rollBack previous before.keygen o ⟨some destination, some keygen⟩) := by
  have hactive : before.active.isSome := by
    rw [hprevious]
    rfl
  unfold rollBack Activation.andThen selectActive selectKeygen run Command.checked refuse
  rw [hkeygen]
  cases h₁ : o.restoreActive.ok with
  | false => exact .kept _ h h' (not_saysRestored_failure _) (.inr (.inr h₁))
  | true =>
      cases hk : before.keygen with
      | none =>
          -- the new keygen link stays
          have hhalf : ∀ stop, (SaysRestored stop ↔ o.restartBack.ok = true) →
              Went destination keygen before policy o (.error stop, ⟨some previous, some keygen⟩) := by
            intro stop hstop
            rw [← hprevious]
            refine .half stop h h' hdown hactive hpolicy h₁ (.inl hk) ?_
            rw [hstop]
            exact ⟨fun hr => ⟨hk, hr⟩, And.right⟩
          cases h₂ : o.restartBack.ok with
          | false =>
              refine hhalf _ ?_
              rw [h₂]
              exact ⟨fun hs => absurd hs (not_saysRestored_failure _), fun hf => by cases hf⟩
          | true =>
              cases h₃ : waitHealth o.healthBack with
              | false => exact hhalf _ ⟨fun _ => h₂, fun _ => .inr rfl⟩
              | true => exact hhalf _ ⟨fun _ => h₂, fun _ => .inl rfl⟩
      | some previousKeygen =>
          cases h₂ : o.restoreKeygen.ok with
          | false =>
              rw [show (some previous : Option String) = before.active from hprevious.symm]
              refine .half _ h h' hdown hactive hpolicy h₁ (.inr h₂) ?_
              rw [hk]
              exact ⟨fun hs => absurd hs (not_saysRestored_failure _), fun hc => by cases hc.1⟩
          | true =>
              have hsome : before.keygen.isSome := by
                rw [hk]
                rfl
              have hback : ∀ stop, Went destination keygen before policy o
                  (.error stop, ⟨some previous, some previousKeygen⟩) := by
                intro stop
                rw [← hprevious, ← hk]
                exact .restored stop h h' hsome h₂
              cases h₃ : o.restartBack.ok with
              | false => exact hback _
              | true =>
                  cases h₄ : waitHealth o.healthBack with
                  | false => exact hback _
                  | true => exact hback _

/-- **Every activation goes one of the ways.** -/
theorem activateBinary_went (hkeygen : truthy (some keygen) = some keygen)
    (hactive : truthy before.active = before.active) (hprevious : truthy before.keygen = before.keygen) :
    Went destination keygen before policy o
      (activateBinary destination (some keygen) before.active before.keygen policy o before) := by
  unfold activateBinary
  rcases @switchLinks_cases destination keygen before policy o hkeygen hactive with
    ⟨h₁, h₂, hswitch⟩ | ⟨stop, links, hswitch, hwent⟩
  · have hrest : ∀ f : Unit → Activation Unit,
        (switchLinks destination (some keygen) before.active o).andThen f before =
          f () ⟨some destination, some keygen⟩ := by
      intro f
      unfold Activation.andThen
      rw [hswitch]
    rw [hrest]
    rcases @comesUp_cases o ⟨some destination, some keygen⟩ with ⟨hup, hdown, h⟩ | ⟨hdown, h⟩ | ⟨stop, hdown, hstop, h⟩
    · unfold Activation.andThen
      rw [h]
      exact .activated h₁ h₂ hup hdown
    · unfold Activation.andThen
      rw [h, hactive]
      simp only [Bool.false_eq_true, if_false]
      cases ha : before.active with
      | none =>
          refine .kept _ h₁ h₂ ?_ (.inl ha)
          rintro (hs | hs) <;> exact absurd (Stop.refusal.inj hs) (by decide)
      | some previous =>
          cases policy with
          | compatible => exact rollBack_went h₁ h₂ hdown ha rfl hprevious
          | fixForward =>
              refine .kept _ h₁ h₂ ?_ (.inr (.inl rfl))
              rintro (hs | hs) <;> exact absurd (Stop.refusal.inj hs) (by decide)
    · unfold Activation.andThen
      rw [h]
      exact .raised stop h₁ h₂ hdown hstop
  · unfold Activation.andThen
    rw [hswitch]
    exact hwent

end Ways

/-! ## The claim -/

/-- What an activation owes: a matching pair, success only with everything checked, and an honest
    message. -/
structure Paired (destination keygen : String) (before : Links) (o : Outcomes)
    (result : Except Stop Unit × Links) : Prop where
  pair : result.2 = ⟨some destination, some keygen⟩ ∨ result.2 = before
  success : result.1 = .ok () → result.2 = ⟨some destination, some keygen⟩ ∧ CameUp o
  honest : ∀ stop, result.1 = .error stop → SaysRestored stop → result.2 = before

/-- One of the two links selects the new release already. -/
def Selected (destination keygen : String) (before : Links) : Prop :=
  before.active = some destination ∨ before.keygen = some keygen

/-- The condition. A keygen link that cannot be switched needs an active link that can be taken back; a
    rollback that takes the active link back needs to take the keygen link back. Where the new release
    was selected by one of the two links before, neither is needed, as long as nothing says that the
    previous artifact was restored. -/
structure Keeps (destination keygen : String) (before : Links) (policy : RollbackPolicy) (o : Outcomes) :
    Prop where
  undone : o.selectActive.ok = true → o.selectKeygen.ok = false →
    (before.active.isSome ∧ o.undoActive.ok = true) ∨ Selected destination keygen before
  rolledBack : o.selectActive.ok = true → o.selectKeygen.ok = true → GoesDown o → before.active.isSome →
    policy = .compatible → o.restoreActive.ok = true →
    (before.keygen.isSome ∧ o.restoreKeygen.ok = true) ∨
      (Selected destination keygen before ∧ (before.keygen.isSome ∨ o.restartBack.ok = false))

section Paired

variable {destination keygen : String} {before : Links} {policy : RollbackPolicy} {o : Outcomes}

theorem paired_before {stop : Stop} : Paired destination keygen before o (.error stop, before) where
  pair := .inr rfl
  success := fun h => by cases h
  honest := fun _ _ _ => rfl

theorem paired_new {stop : Stop} (h : ¬ SaysRestored stop) :
    Paired destination keygen before o (.error stop, ⟨some destination, some keygen⟩) where
  pair := .inl rfl
  success := fun h => by cases h
  honest := fun _ hs hsays => by
    obtain rfl := Except.error.inj hs
    exact absurd hsays h

/-- The links of a stranded activation match where one of them had the new release. -/
theorem paired_stranded_iff {stop : Stop} (h : ¬ SaysRestored stop) :
    Paired destination keygen before o (.error stop, ⟨some destination, before.keygen⟩) ↔
      Selected destination keygen before := by
  constructor
  · intro hp
    rcases hp.pair with hnew | hold
    · exact .inr (congrArg Links.keygen hnew)
    · exact .inl (congrArg Links.active hold).symm
  · intro hs
    refine ⟨?_, (fun h => by cases h), fun _ hstop hsays => ?_⟩
    · rcases hs with ha | hk
      · right
        rw [← ha]
      · left
        rw [hk]
    · obtain rfl := Except.error.inj hstop
      exact absurd hsays h

/-- So do the links of half a rollback, as long as it does not say that it is whole. -/
theorem paired_half_iff {stop : Stop}
    (hkept : before.keygen = none ∨ o.restoreKeygen.ok = false)
    (hstop : SaysRestored stop ↔ before.keygen = none ∧ o.restartBack.ok = true) :
    Paired destination keygen before o (.error stop, ⟨before.active, some keygen⟩) ↔
      (before.keygen.isSome ∧ o.restoreKeygen.ok = true) ∨
        (Selected destination keygen before ∧ (before.keygen.isSome ∨ o.restartBack.ok = false)) := by
  constructor
  · intro hp
    right
    constructor
    · rcases hp.pair with hnew | hold
      · exact .inl (congrArg Links.active hnew)
      · exact .inr (congrArg Links.keygen hold).symm
    · cases hk : before.keygen with
      | some previousKeygen => exact .inl rfl
      | none =>
          right
          cases hr : o.restartBack.ok with
          | false => rfl
          | true =>
              -- the message would promise the keygen link that never was
              have hlinks := congrArg Links.keygen (hp.honest stop rfl (hstop.mpr ⟨hk, hr⟩))
              rw [hk] at hlinks
              cases hlinks
  · intro h
    have hcase : Selected destination keygen before ∧ (before.keygen.isSome ∨ o.restartBack.ok = false) := by
      rcases h with ⟨hsome, hok⟩ | h
      · rcases hkept with hnone | hfail
        · rw [hnone] at hsome
          cases hsome
        · rw [hok] at hfail
          cases hfail
      · exact h
    obtain ⟨hselected, hquiet⟩ := hcase
    refine ⟨?_, (fun h => by cases h), fun _ hs hsays => ?_⟩
    · rcases hselected with ha | hk
      · left
        rw [ha]
      · right
        rw [← hk]
    · obtain rfl := Except.error.inj hs
      obtain ⟨hnone, hok⟩ := hstop.mp hsays
      rcases hquiet with hsome | hfail
      · rw [hnone] at hsome
        cases hsome
      · rw [hok] at hfail
        cases hfail

/-- **Of each way.** -/
theorem Went.paired_iff {result : Except Stop Unit × Links}
    (h : Went destination keygen before policy o result) :
    Paired destination keygen before o result ↔ Keeps destination keygen before policy o := by
  cases h with
  | unselected h =>
      refine ⟨fun _ => ⟨fun hc => ?_, fun hc => ?_⟩, fun _ => paired_before⟩ <;>
        (rw [h] at hc; cases hc)
  | undone previous h hkeygen hprevious hundo =>
      refine ⟨fun _ => ⟨fun _ _ => .inl ⟨by rw [hprevious]; rfl, hundo⟩, fun _ hc => ?_⟩, fun _ => paired_before⟩
      rw [hkeygen] at hc
      cases hc
  | stranded stop h hkeygen hundo hstop =>
      rw [paired_stranded_iff hstop]
      constructor
      · intro hs
        refine ⟨fun _ _ => .inr hs, fun _ hc => ?_⟩
        rw [hkeygen] at hc
        cases hc
      · intro hk
        rcases hk.undone h hkeygen with ⟨hsome, hok⟩ | hs
        · rcases hundo with hnone | hfail
          · rw [hnone] at hsome
            cases hsome
          · rw [hok] at hfail
            cases hfail
        · exact hs
  | raised stop h hkeygen hdown hstop =>
      refine ⟨fun _ => ⟨fun _ hc => ?_, fun _ _ hc => absurd hc hdown⟩, fun _ => paired_new hstop⟩
      rw [hkeygen] at hc
      cases hc
  | activated h hkeygen hup hdown =>
      refine ⟨fun _ => ⟨fun _ hc => ?_, fun _ _ hc => absurd hc hdown⟩, fun _ => ?_⟩
      · rw [hkeygen] at hc
        cases hc
      · exact ⟨.inl rfl, fun _ => ⟨rfl, hup⟩, fun _ hs => by cases hs⟩
  | kept stop h hkeygen hstop hkept =>
      refine ⟨fun _ => ⟨fun _ hc => ?_, fun _ _ _ hsome hpolicy hok => ?_⟩, fun _ => paired_new hstop⟩
      · rw [hkeygen] at hc
        cases hc
      · rcases hkept with hnone | hfix | hfail
        · rw [hnone] at hsome
          cases hsome
        · rw [hpolicy] at hfix
          cases hfix
        · rw [hok] at hfail
          cases hfail
  | half stop h hkeygen hdown hactive hpolicy hrestore hkept hstop =>
      rw [paired_half_iff hkept hstop]
      constructor
      · intro hh
        refine ⟨fun _ hc => ?_, fun _ _ _ _ _ _ => hh⟩
        rw [hkeygen] at hc
        cases hc
      · intro hk
        exact hk.rolledBack h hkeygen hdown hactive hpolicy hrestore
  | restored stop h hkeygen hsome hrestore =>
      refine ⟨fun _ => ⟨fun _ hc => ?_, fun _ _ _ _ _ _ => .inl ⟨hsome, hrestore⟩⟩, fun _ => paired_before⟩
      rw [hkeygen] at hc
      cases hc

end Paired

/-- The link of an older release. -/
def olderLink (binary : String) (h : trim (releaseName "/opt/releases" binary "0a" ++ "\n") =
    releaseName "/opt/releases" binary "0a") : LinkView where
  directories := true
  path := .symlink ⟨releaseName "/opt/releases" binary "0a", h⟩
  targetPresent := true
  activeState := { stdout := "inactive\n" }

/-- No link, and a unit that does not run. -/
def missingLink : LinkView where
  directories := true
  path := .absent
  targetPresent := false
  activeState := { stdout := "inactive\n" }

end Deploy
end PickleInfra
