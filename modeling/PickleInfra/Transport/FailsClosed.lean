import PickleInfra.Transport.Importer

/-!
# `Transport.FailsClosed` — a permission never outlives a failed import

A run revokes before it asks, and publishes the attestation after every report of the same envelope. So an
attestation that permits is the one that the run which revoked last validated, wherever that run was stopped.
-/

namespace PickleInfra
namespace Transport
namespace Import

open Python Health Durable

variable {T : FloatText} {x : ImportInput} {d₀ d : Disk}

/-- The attestation on disk permits. -/
def Permits (policy : Option Json) : Prop := ∃ p, policy = some p ∧ p.get? "valid" = some (.bool true)

/-- The attestation is the one of the envelope that the run validated, and its reports are all on disk. -/
def Published (T : FloatText) (x : ImportInput) (d : Disk) : Prop :=
  ∃ reports p, validated T x = .ok (reports, some p) ∧ d.policy = some p ∧
    ∀ e ∈ reports, d.reports.get? e.1 = some e.2

/-- What a run may have made of the files: nothing that is looked at, or what its revocation and its envelope
    justify. -/
structure Imported (T : FloatText) (x : ImportInput) (d₀ d : Disk) : Prop where
  policy : (d.policy = d₀.policy ∧ d.lastRun = d₀.lastRun ∧ d.reports = d₀.reports) ∨
    (d.lastRun = some x ∧ (Permits d.policy → Published T x d))
  reports : d.reports ≠ d₀.reports → ∃ result, validated T x = .ok result

/-- The run has revoked, and has not published. -/
structure Revoked (T : FloatText) (x : ImportInput) (d₀ d : Disk) : Prop where
  lastRun : d.lastRun = some x
  denied : ¬ Permits d.policy
  reports : d.reports ≠ d₀.reports → ∃ result, validated T x = .ok result

theorem Revoked.imported (h : Revoked T x d₀ d) : Imported T x d₀ d where
  policy := .inr ⟨h.lastRun, fun hpermits => absurd hpermits h.denied⟩
  reports := h.reports

theorem Imported.start (d : Disk) : Imported T x d d where
  policy := .inl ⟨rfl, rfl, rfl⟩
  reports := fun hne => absurd rfl hne

/-- A file that is not looked at may change. -/
theorem Imported.same {d' : Disk} (h : Imported T x d₀ d) (hpolicy : d'.policy = d.policy)
    (hlast : d'.lastRun = d.lastRun) (hreports : d'.reports = d.reports) : Imported T x d₀ d' := by
  obtain ⟨hcase, hframe⟩ := h
  refine ⟨?_, fun hne => hframe (hreports ▸ hne)⟩
  rcases hcase with ⟨h₁, h₂, h₃⟩ | ⟨h₁, h₂⟩
  · exact .inl ⟨hpolicy.trans h₁, hlast.trans h₂, hreports.trans h₃⟩
  · refine .inr ⟨hlast.trans h₁, fun hpermits => ?_⟩
    obtain ⟨reports, p, hvalid, hp, hall⟩ := h₂ (hpolicy ▸ hpermits)
    exact ⟨reports, p, hvalid, hpolicy.trans hp, fun e he => hreports ▸ hall e he⟩

theorem not_permits_invalid (now : ℚ) : ¬ Permits (some (invalidPolicy now)) := by
  rintro ⟨p, hp, hvalid⟩
  obtain rfl := Option.some.inj hp
  have hfalse : (invalidPolicy now).get? "valid" = some (.bool false) := rfl
  cases hfalse.symm.trans hvalid

theorem revoked_revoke (h : d.reports ≠ d₀.reports → ∃ result, validated T x = .ok result) :
    Revoked T x d₀ (revoke x d) where
  lastRun := rfl
  denied := not_permits_invalid x.now
  reports := h

/-- Once a run has revoked, it may revoke again. -/
theorem Imported.again (h : Imported T x d₀ d) (hlast : d.lastRun = some x) :
    Imported T x d₀ (setPolicy (invalidPolicy x.now) d) where
  policy := .inr ⟨hlast, fun hpermits => absurd hpermits (not_permits_invalid x.now)⟩
  reports := h.reports

/-! ## Calls -/

section Calls

variable {inv : Disk → Prop} {α : Type}

theorem keeps_ask {q : Call} {value : Disk → α} (hinv : inv d) :
    Keeps inv (ask q value) d fun a d' => d' = d ∧ a = value d := by
  apply Safe.call hinv
  intro reply
  cases reply with
  | done =>
      apply Safe.look hinv
      refine .ret hinv ⟨hinv, fun a ha => ⟨rfl, (Except.ok.inj ha).symm⟩⟩
  | raised e acted => exact .ret hinv ⟨hinv, fun a ha => by cases ha⟩

theorem keeps_lift {value : Except HealthExn α} (hinv : inv d) :
    Keeps inv (lift value) d fun a d' => d' = d ∧ value = .ok a := .lift hinv fun _ h => ⟨rfl, h⟩

/-- A replacement happens, or the exception leaves one of the two. -/
theorem keeps_atomicJson {f : Disk → Disk} (hinv : inv d) (hafter : inv (f d)) :
    Keeps inv (atomicJson f) d fun _ d' => d' = f d := by
  apply Safe.call hinv
  intro reply
  match reply with
  | .done           => exact .write hinv (.ret hafter ⟨hafter, fun _ _ => rfl⟩)
  | .raised e true  => exact .write hinv (.ret hafter ⟨hafter, fun a ha => by cases ha⟩)
  | .raised e false => exact .ret hinv ⟨hinv, fun a ha => by cases ha⟩

theorem keeps_tryExcept {selected : HealthExn → Bool} {body : Importing α} {handler : HealthExn → Importing α}
    {post : α → Disk → Prop} (hbody : Keeps inv body d post)
    (hhandler : ∀ e d', inv d' → Keeps inv (handler e) d' post) :
    Keeps inv (tryExcept selected body handler) d post := by
  apply Safe.bind hbody
  rintro r d' ⟨hinv, hpost⟩
  cases r with
  | ok a => exact .ret hinv ⟨hinv, fun b hb => Except.ok.inj hb ▸ hpost a rfl⟩
  | error e =>
      dsimp only
      split
      · exact hhandler e d' hinv
      · exact .ret hinv ⟨hinv, fun a ha => by cases ha⟩

end Calls

/-! ## A run -/

/-- The reports are replaced one by one; the attestation stays revoked. -/
theorem keeps_publishReports {entries : List (String × Json)} {result : List (String × Json) × Option Json}
    (hvalid : validated T x = .ok result) (hnodup : (entries.map Prod.fst).Nodup) (h : Revoked T x d₀ d) :
    Keeps (Revoked T x d₀) (publishReports entries) d fun _ d' =>
      (∀ e ∈ entries, d'.reports.get? e.1 = some e.2) ∧
        ∀ name, name ∉ entries.map Prod.fst → d'.reports.get? name = d.reports.get? name := by
  induction entries generalizing d with
  | nil => exact .pure h ⟨fun _ he => (by cases he), fun _ _ => rfl⟩
  | cons e entries ih =>
      rw [List.map_cons, List.nodup_cons] at hnodup
      have hset : Revoked T x d₀ (setReport e d) := ⟨h.lastRun, h.denied, fun _ => ⟨_, hvalid⟩⟩
      apply Keeps.bind (keeps_atomicJson h hset)
      rintro - _ - rfl
      apply Keeps.mono (ih hnodup.2 hset)
      rintro - d' ⟨hall, hother⟩
      have hhead : d'.reports.get? e.1 = some e.2 := by
        rw [hother e.1 hnodup.1]
        exact Dict.get?_set_self _ _ _
      refine ⟨List.forall_mem_cons.mpr ⟨hhead, hall⟩, fun name hname => ?_⟩
      rw [List.map_cons, List.mem_cons, not_or] at hname
      rw [hother name hname.2]
      exact Dict.get?_set_ne _ _ (Ne.symm hname.1)

/-- After the revocation of the run. -/
structure Late (T : FloatText) (x : ImportInput) (d₀ d : Disk) : Prop where
  lastRun : d.lastRun = some x
  imported : Imported T x d₀ d

theorem Revoked.late (h : Revoked T x d₀ d) : Late T x d₀ d := ⟨h.lastRun, h.imported⟩

theorem expectedSources_nodup {config : Json} {names : List String} (h : expectedSources config = .ok names) :
    names.Nodup := by
  unfold expectedSources at h
  split at h
  · simp only [bind_eq_ok, rejectIf_eq_ok] at h
    obtain ⟨names', -, _, hchecks, h⟩ := h
    obtain rfl := Except.ok.inj h
    simp only [Bool.or_eq_false_iff, Bool.not_eq_false', decide_eq_true_eq] at hchecks
    exact hchecks.1.2
  · cases h

/-- The names of the reports that are returned are those that were expected. -/
theorem inspectEnvelope_names {document : ByteArray} {expected : List String} {now : ℚ} {flag : Bool}
    {reports : List (String × Json)} {policy : Option Json}
    (h : inspectEnvelope T document expected now flag = .ok (reports, policy)) :
    reports.map Prod.fst = expected := by
  unfold inspectEnvelope at h
  obtain ⟨_, -, h⟩ := bind_eq_ok.mp h
  split at h
  · unfold inspectValue at h
    split at h
    · simp only [bind_eq_ok] at h
      obtain ⟨_, -, _, -, _, -, sanitized, hsanitized, h⟩ := h
      have hsame : sanitized = reports := by
        split at h
        · simp only [bind_eq_ok] at h
          obtain ⟨_, -, h⟩ := h
          exact congrArg Prod.fst (Except.ok.inj h)
        · exact congrArg Prod.fst (Except.ok.inj h)
      subst hsame
      have hkeys : sanitized.map Prod.fst = expected.map id := by
        apply forall₂_keys (mapM_eq_ok.mp hsanitized)
        intro name e he
        obtain ⟨value, -, he⟩ := bind_eq_ok.mp he
        obtain ⟨r, -, he⟩ := bind_eq_ok.mp he
        obtain rfl := Except.ok.inj he
        rfl
      rw [hkeys, List.map_id]
    · cases h
  · cases h

theorem validated_nodup {reports : List (String × Json)} {policy : Option Json}
    (h : validated T x = .ok (reports, policy)) : (reports.map Prod.fst).Nodup := by
  unfold validated at h
  simp only [bind_eq_ok] at h
  obtain ⟨_, -, _, -, expected, hexpected, document, -, h⟩ := h
  rw [inspectEnvelope_names h]
  exact expectedSources_nodup hexpected

/-- **The body of the import**: the attestation follows the last report. -/
theorem keeps_importEnvelope (h : Revoked T x d₀ d) :
    Keeps (Late T x d₀) (importEnvelope T x) d fun _ _ => True := by
  apply Keeps.bind (keeps_lift h.late)
  rintro ⟨reports, policy⟩ d - ⟨rfl, hvalid⟩
  apply Keeps.bind (keeps_ask h.late)
  rintro - d - ⟨rfl, -⟩
  apply Keeps.bind ((keeps_publishReports hvalid (validated_nodup hvalid) h).weaken fun _ h => h.late)
  rintro - d' - ⟨hrevoked, hall, -⟩
  cases policy with
  | none =>
      exact .pure hrevoked.late trivial
  | some p =>
      -- at this point every report of the envelope is on disk
      have hlate : Late T x d₀ (setPolicy p d') :=
        ⟨hrevoked.lastRun, .inr ⟨hrevoked.lastRun, fun _ => ⟨reports, p, hvalid, rfl, hall⟩⟩,
          fun _ => ⟨_, hvalid⟩⟩
      apply Keeps.bind (keeps_atomicJson hrevoked.late hlate)
      rintro - d'' hlate -
      exact .pure hlate trivial

theorem keeps_revokeAgain (h : Late T x d₀ d) : Keeps (Late T x d₀) (revokeAgain x) d fun _ _ => True := by
  unfold revokeAgain
  split
  · have hafter : Late T x d₀ (setPolicy (invalidPolicy x.now) d) := ⟨h.lastRun, h.imported.again h.lastRun⟩
    exact Keeps.mono (keeps_atomicJson h hafter) fun _ _ _ => trivial
  · exact .pure h trivial

theorem keeps_importOutcome (h : Revoked T x d₀ d) :
    Keeps (Late T x d₀) (importOutcome T x) d fun _ _ => True := by
  apply keeps_tryExcept (keeps_importEnvelope h)
  intro e d' hlate
  apply Keeps.bind (keeps_revokeAgain hlate)
  rintro - d'' hlate' -
  exact .pure hlate' trivial

theorem keeps_writeResult {result : Json} (h : Late T x d₀ d) :
    Keeps (Late T x d₀) (writeResult x result) d fun _ _ => True := by
  have hafter : Late T x d₀ (setResult result d) := ⟨h.lastRun, h.imported.same rfl rfl rfl⟩
  apply keeps_tryExcept (Keeps.mono (keeps_atomicJson h hafter) fun _ _ _ => trivial)
  intro e d' hlate
  apply Keeps.bind (keeps_revokeAgain hlate)
  rintro - d'' hlate' -
  exact .throw hlate'

theorem keeps_writeState (h : Revoked T x d₀ d) :
    Keeps (Revoked T x d₀) (writeState x) d fun _ _ => True := by
  apply Keeps.bind (keeps_ask h)
  rintro state d - ⟨rfl, -⟩
  apply Keeps.bind (keeps_lift h)
  rintro back d - ⟨rfl, -⟩
  apply Keeps.bind (keeps_lift h)
  rintro - d - ⟨rfl, -⟩
  have hafter : Revoked T x d₀ (setState (checkedAt x.now state) d) := ⟨h.lastRun, h.denied, h.reports⟩
  exact Keeps.mono (keeps_atomicJson h hafter) fun _ _ _ => trivial

/-- **A run**, killed, raised or returned, leaves what its revocation and its envelope justify. -/
theorem keeps_run (hinclude : includePolicy x.config = true) (d : Disk) :
    Keeps (Imported T x d) (run T x) d fun _ _ => True := by
  have hstart : Imported T x d d := .start d
  apply Keeps.bind (keeps_lift hstart)
  rintro - d₁ - ⟨rfl, -⟩
  apply Keeps.bind (keeps_lift hstart)
  rintro - d₁ - ⟨rfl, -⟩
  apply Keeps.bind (keeps_ask hstart)
  rintro - d₁ - ⟨rfl, -⟩
  rw [if_pos hinclude]
  have hrevoked : Revoked T x d₁ (revoke x d₁) := revoked_revoke fun hne => absurd rfl hne
  apply Keeps.bind (keeps_atomicJson hstart hrevoked.imported)
  rintro - _ - rfl
  apply Keeps.bind ((keeps_writeState hrevoked).weaken fun _ h => h.imported)
  rintro - d₂ - ⟨hrevoked, -⟩
  apply Keeps.bind (keeps_lift hrevoked.imported)
  rintro source d₂ - ⟨rfl, -⟩
  apply Keeps.bind ((keeps_importOutcome hrevoked).weaken fun _ h => h.imported)
  rintro outcome d₃ - ⟨hlate, -⟩
  apply Keeps.bind ((keeps_writeResult hlate).weaken fun _ h => h.imported)
  rintro - d₄ himported -
  exact .pure himported trivial

/-! ## Any sequence of runs -/

/-- The states on disk over runs that include the attestation, each of which may be killed anywhere; no
    attestation permits before the first. -/
inductive Reachable (T : FloatText) : Disk → Prop
  | start {d : Disk} (h : ¬ Permits d.policy) : Reachable T d
  | run {w w' : World Disk Call Reply} {r : Option (Except HealthExn Json)} (x : ImportInput)
      (h : Reachable T w.disk) (hinclude : includePolicy x.config = true)
      (hrun : Runs (Import.run T x).run w w' r) : Reachable T w'.disk

/-- An attestation that permits is published by the run that revoked last. -/
def Sound (T : FloatText) (d : Disk) : Prop := Permits d.policy → ∃ x, d.lastRun = some x ∧ Published T x d

theorem Imported.sound (h : Imported T x d₀ d) (h₀ : Sound T d₀) : Sound T d := by
  intro hpermits
  rcases h.policy with ⟨hpolicy, hlast, hreports⟩ | ⟨hlast, hpublished⟩
  · obtain ⟨x₀, hx₀, reports, p, hvalid, hp, hall⟩ := h₀ (hpolicy ▸ hpermits)
    exact ⟨x₀, hlast.trans hx₀, reports, p, hvalid, hpolicy.trans hp, fun e he => hreports ▸ hall e he⟩
  · exact ⟨x, hlast, hpublished hpermits⟩

theorem Reachable.sound (h : Reachable T d) : Sound T d := by
  induction h with
  | start h => exact fun hpermits => absurd hpermits h
  | run x _ hinclude hrun ih => exact ((keeps_run hinclude _).always hrun).sound ih

/-- **The importer fails closed**: in every state on disk an attestation that permits is the one that the run
    which revoked last validated with its whole envelope, at its own clock, and all its reports are on disk; and
    no run changes a report without having validated its envelope. -/
theorem fails_closed (T : FloatText) : (∀ d, Reachable T d → Sound T d) ∧
    ∀ (x : ImportInput) (w w' : World Disk Call Reply) (r : Option (Except HealthExn Json)),
      includePolicy x.config = true → Runs (run T x).run w w' r → w'.disk.reports ≠ w.disk.reports →
        ∃ reports policy, validated T x = .ok (reports, policy) := by
  refine ⟨fun d h => h.sound, ?_⟩
  intro x w w' r hinclude hrun hne
  obtain ⟨⟨reports, policy⟩, hvalid⟩ := ((keeps_run hinclude w.disk).always hrun).reports hne
  exact ⟨reports, policy, hvalid⟩

end Import
end Transport
end PickleInfra
