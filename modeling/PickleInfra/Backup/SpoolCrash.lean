import Mathlib.Data.List.Dedup
import PickleInfra.Backup.Spool

/-!
# `Backup.SpoolCrash` — what a killed backup leaves for the next one

The next run cleans the spool exactly if every attempt has its record (`nextCleans_iff`). A run that is
not killed leaves it so; a kill does not where it falls between the `mkdir` of an attempt and the rename
of its record, or inside an `rmtree` after the record is unlinked.
-/

namespace PickleInfra
namespace Backup
namespace Spool

open Python Durable

/-! ## Orders of names -/

theorem mem_arrange {order names : List String} {name : String} :
    name ∈ arrange order names ↔ name ∈ names := by
  unfold arrange
  by_cases h : name ∈ order <;> simp [h]

theorem nodup_arrange {order names : List String} (h : names.Nodup) : (arrange order names).Nodup := by
  unfold arrange
  refine List.Nodup.append (List.nodup_dedup _) (h.filter _) fun name ha hb => ?_
  rw [List.mem_dedup, List.mem_filter] at ha
  rw [List.mem_filter] at hb
  simp [ha.1] at hb

/-! ## Owned and recorded attempts -/

/-- Every entry of the spool is the directory of an attempt of this instance, whose record passes the
    checks of the cleaner if it is there. -/
def Owned (c : Config) (d : Disk) : Prop :=
  ∀ name e, d.spool.get? name = some e → acceptsUuid name = true ∧
    ∃ a, e = .directory a ∧ ∀ record, a.record = some record → ∃ epoch, checkRecord c name record = .ok epoch

/-- The attempt has a record. -/
def Entry.recorded : Entry → Prop
  | .directory a => a.record ≠ none
  | .other       => False

/-- Every attempt has a record. -/
def Recorded (d : Disk) : Prop := ∀ name e, d.spool.get? name = some e → e.recorded

/-- Every attempt but one has a record. -/
def RecordedBut (name : String) (d : Disk) : Prop :=
  ∀ other e, other ≠ name → d.spool.get? other = some e → e.recorded

theorem Recorded.but {d : Disk} (h : Recorded d) (name : String) : RecordedBut name d :=
  fun other e _ he => h other e he

/-! ## Changes of one attempt -/

theorem get?_onAttempt {name : String} {f : Attempt → Attempt} {d : Disk} {a : Attempt}
    (h : d.spool.get? name = some (.directory a)) (other : String) :
    (onAttempt name f d).spool.get? other =
      if name = other then some (.directory (f a)) else d.spool.get? other := by
  unfold onAttempt
  rw [h]
  exact Dict.get?_set d.spool name other _

/-- The directory of the attempt is there, and nothing is wrong with the spool. -/
structure Present (c : Config) (name : String) (d : Disk) : Prop where
  owned : Owned c d
  others : RecordedBut name d
  there : ∃ a, d.spool.get? name = some (.directory a)

/-- The attempt has its record, and nothing is wrong with the spool. -/
structure Started (c : Config) (name : String) (d : Disk) : Prop where
  owned : Owned c d
  recorded : Recorded d
  there : ∃ a, d.spool.get? name = some (.directory a)

section Change

variable {c : Config} {name : String} {d : Disk}

theorem Owned.change (h : Owned c d) {a : Attempt} (ha : d.spool.get? name = some (.directory a))
    {f : Attempt → Attempt}
    (hf : ∀ record, (f a).record = some record → ∃ epoch, checkRecord c name record = .ok epoch) :
    Owned c (onAttempt name f d) := by
  intro other e he
  rw [get?_onAttempt ha] at he
  split at he
  · next heq =>
    subst heq
    obtain rfl := Option.some.inj he
    exact ⟨(h name _ ha).1, f a, rfl, hf⟩
  · exact h other e he

/-- A change that leaves the record alone, or unlinks it. -/
theorem Owned.changeFiles (h : Owned c d) {f : Attempt → Attempt}
    (hf : ∀ a, (f a).record = a.record ∨ (f a).record = none) : Owned c (onAttempt name f d) := by
  cases ha : d.spool.get? name with
  | none =>
      unfold onAttempt
      rw [ha]
      exact h
  | some e =>
      obtain ⟨-, a, rfl, hrecord⟩ := h name e ha
      refine h.change ha fun record hr => ?_
      rcases hf a with hsame | hnone
      · exact hrecord record (hsame ▸ hr)
      · rw [hnone] at hr
        cases hr

theorem RecordedBut.change (h : RecordedBut name d) {f : Attempt → Attempt} :
    RecordedBut name (onAttempt name f d) := by
  intro other e hne he
  unfold onAttempt at he
  split at he
  · rw [Dict.get?_set_ne _ _ (Ne.symm hne)] at he
    exact h other e hne he
  · exact h other e hne he

theorem there_change (h : ∃ a, d.spool.get? name = some (.directory a)) (f : Attempt → Attempt) :
    ∃ a, (onAttempt name f d).spool.get? name = some (.directory a) := by
  obtain ⟨a, ha⟩ := h
  exact ⟨f a, by rw [get?_onAttempt ha, if_pos rfl]⟩

theorem Present.changeFiles (h : Present c name d) {f : Attempt → Attempt}
    (hf : ∀ a, (f a).record = a.record ∨ (f a).record = none) : Present c name (onAttempt name f d) :=
  ⟨h.owned.changeFiles hf, h.others.change, there_change h.there f⟩

theorem Started.changeFiles (h : Started c name d) {f : Attempt → Attempt}
    (hf : ∀ a, (f a).record = a.record) : Started c name (onAttempt name f d) := by
  refine ⟨h.owned.changeFiles fun a => .inl (hf a), fun other e he => ?_, there_change h.there f⟩
  obtain ⟨a, ha⟩ := h.there
  rw [get?_onAttempt ha] at he
  split at he
  · obtain rfl := Option.some.inj he
    show (f a).record ≠ none
    rw [hf]
    exact h.recorded name _ ha
  · exact h.recorded other e he

theorem Started.present (h : Started c name d) : Present c name d := ⟨h.owned, h.recorded.but name, h.there⟩

/-- The rename of a valid record starts the attempt. -/
theorem Present.publish (h : Present c name d) {record : Json} {epoch : Int}
    (hrecord : checkRecord c name record = .ok epoch) (temporary : String) :
    Started c name (publish temporary record name d) := by
  obtain ⟨a, ha⟩ := h.there
  refine ⟨h.owned.change ha fun r hr => ?_, fun other e he => ?_, there_change h.there _⟩
  · obtain rfl := Option.some.inj hr
    exact ⟨epoch, hrecord⟩
  · rw [Spool.publish, get?_onAttempt ha] at he
    split at he
    · obtain rfl := Option.some.inj he
      exact Option.some_ne_none record
    · next hne => exact h.others other e (Ne.symm hne) he

end Change

/-! ## `rmtree` -/

/-- The spool is the one before without some names. -/
def Without (names : List String) (before after : Disk) : Prop :=
  ∀ other, after.spool.get? other = if other ∈ names then none else before.spool.get? other

section Without

variable {c : Config} {names : List String} {before after : Disk}

theorem Owned.without (h : Owned c before) (hw : Without names before after) : Owned c after := by
  intro name e he
  rw [hw name] at he
  split at he
  · cases he
  · exact h name e he

/-- Without the only attempt that may lack its record, all have theirs. -/
theorem RecordedBut.without {name : String} (h : RecordedBut name before)
    (hw : Without [name] before after) : Recorded after := by
  intro other e he
  rw [hw other] at he
  split at he
  · cases he
  · next hne => exact h other e (fun heq => hne (by simp [heq])) he

theorem Recorded.without (h : Recorded before) (hw : Without names before after) : Recorded after := by
  intro other e he
  rw [hw other] at he
  split at he
  · cases he
  · exact h other e he

theorem Without.trans {more : List String} {last : Disk} (h : Without names before after)
    (h' : Without more after last) : Without (names ++ more) before last := by
  intro other
  rw [h' other, h other]
  by_cases hmore : other ∈ more
  · rw [if_pos hmore, if_pos (List.mem_append_right _ hmore)]
  · rw [if_neg hmore]
    by_cases hnames : other ∈ names
    · rw [if_pos hnames, if_pos (List.mem_append_left _ hnames)]
    · rw [if_neg hnames, if_neg (by simp [hnames, hmore])]

end Without

/-- Unlinking keeps the spool owned, and ends without the directory. -/
theorem safe_unlinkAll {c : Config} {name : String} {paths : List String} {before d : Disk}
    (h : Owned c d) (hsame : ∀ other, other ≠ name → d.spool.get? other = before.spool.get? other) :
    Safe (Owned c) (unlinkAll name paths) d fun _ after => Without [name] before after := by
  induction paths generalizing d with
  | nil =>
      have hwithout : Without [name] before (rmdir name d) := by
        intro other
        show (d.spool.erase name).get? other = _
        by_cases heq : other = name
        · subst heq
          rw [Dict.get?_erase_self, if_pos List.mem_cons_self]
        · rw [Dict.get?_erase_ne _ (Ne.symm heq), hsame other heq, if_neg (by simp [heq])]
      have howned : Owned c (rmdir name d) := by
        intro other e he
        have hmem : d.spool.get? other = some e := by
          by_cases heq : other = name
          · subst heq
            rw [rmdir, Dict.get?_erase_self] at he
            cases he
          · rwa [rmdir, Dict.get?_erase_ne _ (Ne.symm heq)] at he
        exact h other e hmem
      exact .write h (.ret howned hwithout)
  | cons path paths ih =>
      refine .write h (ih (h.changeFiles fun a => ?_) fun other hne => ?_)
      · by_cases hpath : path = "attempt.json"
        · exact .inr (by rw [if_pos hpath])
        · exact .inl (by rw [if_neg hpath])
      · rw [← hsame other hne]
        unfold unlink onAttempt
        split
        · exact Dict.get?_set_ne _ _ (Ne.symm hne)
        · rfl

theorem safe_rmtree {c : Config} (x : RunInput) {name : String} {d : Disk} (h : Owned c d) :
    Safe (Owned c) (rmtree x name) d fun _ after => Without [name] d after := by
  apply Safe.look h
  cases hentry : d.spool.get? name with
  | none =>
      refine .ret h fun other => ?_
      by_cases heq : other = name
      · rw [heq, hentry, if_pos List.mem_cons_self]
      · rw [if_neg (by simp [heq])]
  | some e =>
      obtain ⟨-, a, rfl, -⟩ := h name e hentry
      exact safe_unlinkAll h fun _ _ => rfl

/-! ## The cleaner -/

theorem safe_removeCopies {c : Config} (x : RunInput) {es : List Candidate} {d : Disk} (h : Owned c d) :
    Safe (Owned c) (removeCopies x es) d fun _ after => Without (es.map Candidate.name) d after := by
  induction es generalizing d with
  | nil => exact .ret h fun other => by simp
  | cons e rest ih =>
      apply Safe.write h
      have hsaved : Owned c { d with
          records := d.records.set ("local-spool-" ++ e.name ++ ".json") (removedRecord e.record) } := h
      refine Safe.bind (safe_rmtree x hsaved) fun _ d' hw => ?_
      refine (ih (hsaved.without hw)).mono (fun _ hinv => hinv) fun _ after hw' => ?_
      exact hw.trans hw'

/-- What `candidate` returns of an entry. -/
theorem candidate_eq_ok {c : Config} {d : Disk} {name : String} {e : Candidate}
    (h : candidate c d name = .ok e) :
    e.name = name ∧ ∃ a, d.spool.get? name = some (.directory a) ∧ a.record = some e.record ∧
      checkRecord c name e.record = .ok e.epoch := by
  unfold candidate at h
  split at h
  · cases h
  split at h
  · next record files hentry =>
    cases hcheck : checkRecord c name record with
    | error err =>
        rw [hcheck] at h
        cases h
    | ok epoch =>
        rw [hcheck] at h
        cases h
        exact ⟨rfl, _, hentry, rfl, hcheck⟩
  · cases h
  · cases h

theorem candidate_ok {c : Config} {d : Disk} {name : String} {e : Entry} (h : Owned c d)
    (hentry : d.spool.get? name = some e) (hrecorded : e.recorded) : ∃ r, candidate c d name = .ok r := by
  obtain ⟨haccepts, ⟨record, files⟩, rfl, hrecord⟩ := h name e hentry
  cases record with
  | none => exact absurd rfl hrecorded
  | some record =>
      obtain ⟨epoch, hcheck⟩ := hrecord record rfl
      unfold candidate
      rw [haccepts, hentry]
      dsimp only
      rw [hcheck]
      exact ⟨_, rfl⟩

/-- The attempt of a name is owned, with an epoch. -/
def HasEpoch (c : Config) (d : Disk) (name : String) (epoch : Int) : Prop :=
  ∃ a record, d.spool.get? name = some (.directory a) ∧ a.record = some record ∧
    checkRecord c name record = .ok epoch

/-- What a cleaner may do: remove owned attempts, and keep one of the greatest epoch. -/
structure Cleaned (c : Config) (before after : Disk) : Prop where
  kept : ∀ name e, after.spool.get? name = some e → before.spool.get? name = some e
  removed : ∀ name e, before.spool.get? name = some e → after.spool.get? name = none →
    ∃ epoch, HasEpoch c before name epoch
  newest : (∀ name, before.spool.get? name = none) ∨
    ∃ name epoch, HasEpoch c before name epoch ∧ after.spool.get? name ≠ none ∧
      ∀ other epoch', HasEpoch c before other epoch' → epoch' ≤ epoch

/-- The newest candidate is the first. -/
theorem newestFirst_head {es rest : List Candidate} {e : Candidate} (h : newestFirst es = e :: rest) :
    ∀ e' ∈ es, e'.epoch ≤ e.epoch := by
  have hsorted : (newestFirst es).Pairwise fun a b => b.epoch ≤ a.epoch := by
    have htotal : Std.Total fun a b : Candidate => b.epoch ≤ a.epoch := ⟨fun a b => le_total b.epoch a.epoch⟩
    have htrans : IsTrans Candidate fun a b => b.epoch ≤ a.epoch := ⟨fun a b d hab hbd => le_trans hbd hab⟩
    exact List.pairwise_insertionSort _ es
  intro e' he'
  have hmem : e' ∈ newestFirst es := (List.mem_insertionSort _).mpr he'
  rw [h] at hmem hsorted
  rcases List.mem_cons.mp hmem with rfl | hrest
  · exact le_refl _
  · exact (List.pairwise_cons.mp hsorted).1 e' hrest

/-- Each candidate is found under its own name. -/
theorem candidates_ok {c : Config} {d : Disk} {names : List String} {es : List Candidate}
    (h : List.Forall₂ (fun name e => candidate c d name = .ok e) names es) :
    es.map Candidate.name = names ∧ ∀ e ∈ es, HasEpoch c d e.name e.epoch := by
  induction h with
  | nil => exact ⟨rfl, fun e he => (by cases he)⟩
  | cons hcandidate _ ih =>
      obtain ⟨hname, a, ha, hrecord, hcheck⟩ := candidate_eq_ok hcandidate
      refine ⟨by rw [List.map_cons, hname, ih.1], fun e he => ?_⟩
      rcases List.mem_cons.mp he with rfl | he
      · exact ⟨a, _, hname ▸ ha, hrecord, hname ▸ hcheck⟩
      · exact ih.2 e he

theorem HasEpoch.unique {c : Config} {d : Disk} {name : String} {a b : Int} (ha : HasEpoch c d name a)
    (hb : HasEpoch c d name b) : a = b := by
  obtain ⟨x, record, hx, hrecord, hcheck⟩ := ha
  obtain ⟨y, record', hy, hrecord', hcheck'⟩ := hb
  obtain rfl := Entry.directory.inj (Option.some.inj (hx.symm.trans hy))
  obtain rfl := Option.some.inj (hrecord.symm.trans hrecord')
  exact Except.ok.inj (hcheck.symm.trans hcheck')

theorem HasEpoch.there {c : Config} {d : Disk} {name : String} {epoch : Int} (h : HasEpoch c d name epoch) :
    d.spool.get? name ≠ none := by
  obtain ⟨a, -, ha, -⟩ := h
  rw [ha]
  exact Option.some_ne_none _

/-- **Where every attempt has its record the cleaner returns**, and keeps one of the greatest epoch. -/
theorem safe_clean {c : Config} (x : RunInput) {d : Disk} (h : Owned c d) (hrecorded : Recorded d) :
    Safe (Owned c) (cleanOwnedFailedSpool c x) d fun r after =>
      r = .ok () ∧ Owned c after ∧ Recorded after ∧ Cleaned c d after := by
  apply Safe.look h
  have hreturns : ∃ es, (arrange x.iterdir d.spool.keys).mapM (candidate c d) = .ok es := by
    rw [mapM_returns]
    intro name hname
    rw [mem_arrange, ← Dict.get?_isSome_iff, Option.isSome_iff_exists] at hname
    obtain ⟨e, he⟩ := hname
    exact candidate_ok h he (hrecorded name e he)
  obtain ⟨es, hes⟩ := hreturns
  rw [hes]
  obtain ⟨hnames, hfound⟩ := candidates_ok (mapM_eq_ok.mp hes)
  have hall : ∀ name, d.spool.get? name ≠ none → ∃ e ∈ es, e.name = name := by
    intro name hname
    rw [← List.mem_map, hnames, mem_arrange, ← Dict.get?_isSome_iff]
    exact Option.isSome_iff_ne_none.mpr hname
  have hperm : (newestFirst es).Perm es := List.perm_insertionSort _ es
  refine (safe_removeCopies x h).bind fun _ after hw => .ret (h.without hw) ⟨rfl, h.without hw,
    hrecorded.without hw, ?_⟩
  refine ⟨fun name e he => ?_, fun name e he hgone => ?_, ?_⟩
  · rw [hw name] at he
    split at he
    · cases he
    · exact he
  · obtain ⟨e', he', rfl⟩ := hall name (by rw [he]; exact Option.some_ne_none e)
    exact ⟨e'.epoch, hfound e' he'⟩
  · cases hsorted : newestFirst es with
    | nil =>
        left
        intro name
        by_contra hname
        obtain ⟨e, he, -⟩ := hall name hname
        rw [← hperm.mem_iff, hsorted] at he
        cases he
    | cons e rest =>
        right
        have he : e ∈ es := by
          rw [← hperm.mem_iff, hsorted]
          exact List.mem_cons_self
        refine ⟨e.name, e.epoch, hfound e he, ?_, fun other epoch hother => ?_⟩
        · -- the first name is not among the others, since no name occurs twice
          have hnodup : ((newestFirst es).map Candidate.name).Nodup := by
            rw [(hperm.map Candidate.name).nodup_iff, hnames]
            exact nodup_arrange d.spool.nodup
          rw [hsorted, List.map_cons, List.nodup_cons] at hnodup
          rw [hw e.name, hsorted, List.tail_cons, if_neg hnodup.1]
          exact (hfound e he).there
        · obtain ⟨e', he', rfl⟩ := hall other hother.there
          rw [hother.unique (hfound e' he')]
          exact newestFirst_head hsorted e' he'

/-- Where an attempt lacks its record a check raises. -/
theorem candidates_unrecorded {c : Config} (x : RunInput) {d : Disk} (hnot : ¬ Recorded d) :
    ∃ e, (arrange x.iterdir d.spool.keys).mapM (candidate c d) = .error e := by
  cases hes : (arrange x.iterdir d.spool.keys).mapM (candidate c d) with
  | error e => exact ⟨e, rfl⟩
  | ok es =>
      refine absurd (fun name e he => ?_) hnot
      have hmem : name ∈ arrange x.iterdir d.spool.keys := by
        rw [mem_arrange, ← Dict.get?_isSome_iff, he]
        rfl
      obtain ⟨r, hr⟩ := mapM_returns.mp ⟨es, hes⟩ name hmem
      obtain ⟨-, a, ha, hrecorded, -⟩ := candidate_eq_ok hr
      obtain rfl := Option.some.inj (he.symm.trans ha)
      show a.record ≠ none
      rw [hrecorded]
      exact Option.some_ne_none _

theorem safe_clean_unrecorded {c : Config} (x : RunInput) {d : Disk} (h : Owned c d) (hnot : ¬ Recorded d) :
    Safe (Owned c) (cleanOwnedFailedSpool c x) d fun r after => after = d ∧ ∃ e, r = .error e := by
  obtain ⟨e, he⟩ := candidates_unrecorded x hnot
  apply Safe.look h
  rw [he]
  exact .ret h ⟨rfl, e, rfl⟩

/-! ## A run -/

theorem checkRecord_attempt {c : Config} {x : RunInput} {snapshot status : String}
    {verified : List (String × Json)}
    (h : status ∈ ["STARTED", "FAILED_OR_UNCONFIRMED", "VERIFIED"]) :
    checkRecord c x.run.text (attemptRecord c x snapshot status verified) = .ok x.epoch := by
  have hinstance : (attemptRecord c x snapshot status verified).getOrNull "instance_id" =
      .str c.instanceId := rfl
  have hrun : (attemptRecord c x snapshot status verified).getOrNull "run_id" = .str x.run.text := rfl
  have hepoch : (attemptRecord c x snapshot status verified).getOrNull "recovery_point_epoch" =
      .int x.epoch := rfl
  have hstatus : (attemptRecord c x snapshot status verified).getOrNull "status" = .str status := rfl
  have hdict : (attemptRecord c x snapshot status verified).isDict = true := rfl
  unfold checkRecord
  rw [hinstance, hrun, hepoch, hstatus, hdict]
  have hknown : ["STARTED", "FAILED_OR_UNCONFIRMED", "VERIFIED"].any
      (fun known => Json.isStr known (.str status)) = true :=
    List.any_eq_true.mpr ⟨status, h, decide_eq_true rfl⟩
  rw [hknown]
  simp [Json.isStr, Json.asInt?]

/-- What a run leaves when it returns. -/
def Left (c : Config) (d : Disk) : Prop := Owned c d ∧ Recorded d

section Run

variable {c : Config} {x : RunInput} {d : Disk}

theorem safe_recordFailure {snapshot : String} {verified : List (String × Json)}
    (h : Started c x.run.text d) :
    Safe (Owned c) (recordFailure c x snapshot verified) d fun _ => Left c := by
  have hcreated : Started c x.run.text (create x.temporary x.run.text d) := h.changeFiles fun _ => rfl
  have hcheck : checkRecord c x.run.text (attemptRecord c x snapshot "FAILED_OR_UNCONFIRMED" verified) =
      .ok x.epoch := checkRecord_attempt (by simp)
  have hpublished := hcreated.present.publish hcheck x.temporary
  exact .write h.owned (.write hcreated.owned (.ret hpublished.owned ⟨hpublished.owned, hpublished.recorded⟩))

theorem started_dumpSteps {f : Disk → Disk} (hf : .write f ∈ dumpSteps x) (h : Started c x.run.text d) :
    Started c x.run.text (f d) := by
  unfold dumpSteps at hf
  simp only [List.mem_cons, List.not_mem_nil, Step.write.injEq, reduceCtorEq, false_or, or_false] at hf
  rcases hf with rfl | rfl | rfl | rfl | rfl | rfl | rfl | rfl <;> exact h.changeFiles fun _ => rfl

theorem started_proofSteps {f : Disk → Disk} {record : Json} (hf : .write f ∈ proofSteps x record)
    (h : Started c x.run.text d) : Started c x.run.text (f d) := by
  unfold proofSteps at hf
  simp only [List.mem_cons, List.not_mem_nil, Step.write.injEq, reduceCtorEq, false_or, or_false] at hf
  rcases hf with rfl | rfl | rfl | rfl | rfl
  · exact h.changeFiles fun _ => rfl
  · exact h.changeFiles fun _ => rfl
  · exact h.changeFiles fun _ => rfl
  -- the checkpoint and the records are outside the spool
  · exact ⟨h.owned, h.recorded, h.there⟩
  · exact ⟨h.owned, h.recorded, h.there⟩

theorem safe_finish {snapshot : String} (h : Started c x.run.text d) :
    Safe (Owned c) (finish c x snapshot) d fun _ => Left c := by
  apply Safe.call h.owned
  intro a
  split
  · exact safe_recordFailure h
  · have hmaintained : Owned c { d with maintenance := some (.dict [("error",
        if a = .done then .null else .str "RETENTION_FAILED")]) } := h.owned
    refine .write h.owned (Safe.bind (safe_rmtree x hmaintained) fun _ after hw => ?_)
    have howned := hmaintained.without hw
    exact .ret howned ⟨howned, h.present.others.without hw⟩

theorem safe_attempt {snapshot : String} (h : Started c x.run.text d) :
    Safe (Owned c) (attempt c x snapshot) d fun _ => Left c := by
  have howned : ∀ d, Started c x.run.text d → Owned c d := fun _ h => h.owned
  refine Safe.perform (Started c x.run.text) howned (fun f hf d hd => started_dumpSteps hf hd)
    (fun d hd => safe_recordFailure hd) (fun d hd => ?_) h
  exact Safe.perform (Started c x.run.text) howned (fun f hf d hd => started_proofSteps hf hd)
    (fun d hd => safe_recordFailure hd) (fun d hd => safe_finish hd) hd

theorem safe_begin (h : Left c d) : Safe (Owned c) (begin c x) d fun _ => Left c := by
  obtain ⟨howned, hrecorded⟩ := h
  apply Safe.look howned
  split
  · exact .ret howned ⟨howned, hrecorded⟩
  -- the new directory is the only one without a record
  have hmade : Present c x.run.text (mkdir x.run.text d) := by
    refine ⟨fun other e he => ?_, fun other e hne he => ?_, {}, Dict.get?_set_self _ _ _⟩
    · rw [mkdir, Dict.get?_set] at he
      split at he
      · next heq =>
        obtain rfl := Option.some.inj he
        exact ⟨heq ▸ x.run.accepted, {}, rfl, fun _ hr => (by cases hr)⟩
      · exact howned other e he
    · rw [mkdir, Dict.get?_set_ne _ _ (Ne.symm hne)] at he
      exact hrecorded other e he
  have hpayload : Present c x.run.text (create "payload" x.run.text (mkdir x.run.text d)) :=
    hmade.changeFiles fun _ => .inl rfl
  refine .write howned (.write hmade.owned ?_)
  have hname : ∃ snapshot, snapshotName c x.epoch false = .ok snapshot := by
    unfold snapshotName Calendar.utcStamp
    rw [if_pos x.inRange]
    exact ⟨_, rfl⟩
  obtain ⟨snapshot, hsnapshot⟩ := hname
  rw [hsnapshot]
  have hcreated : Present c x.run.text (create x.temporary x.run.text
      (create "payload" x.run.text (mkdir x.run.text d))) := hpayload.changeFiles fun _ => .inl rfl
  have hcheck : checkRecord c x.run.text (attemptRecord c x snapshot "STARTED" []) = .ok x.epoch :=
    checkRecord_attempt (by simp)
  exact .write hpayload.owned (.write hcreated.owned (safe_attempt (hcreated.publish hcheck x.temporary)))

/-- **A run** keeps the spool owned wherever it is killed; if it returns, a spool in which every attempt
    has its record still is one. -/
theorem safe_runBackup (h : Owned c d) :
    Safe (Owned c) (runBackup c x) d fun _ after => Owned c after ∧ (Recorded d → Recorded after) := by
  refine Safe.perform (fun d' => d' = d) (fun _ heq => heq ▸ h) (fun f hf => by simp at hf)
    (fun d' heq => ?_) (fun d' heq => ?_) rfl
  · subst heq
    exact .ret h ⟨h, id⟩
  subst heq
  by_cases hrecorded : Recorded d'
  · refine Safe.bind (safe_clean x h hrecorded) fun r after hclean => ?_
    obtain ⟨rfl, howned, hrecorded', -⟩ := hclean
    refine Safe.perform (Left c) (fun _ hleft => hleft.1) (fun f hf => by simp at hf)
      (fun _ hleft => .ret hleft.1 ⟨hleft.1, fun _ => hleft.2⟩) (fun _ hleft => ?_) ⟨howned, hrecorded'⟩
    exact (safe_begin hleft).mono (fun _ hinv => hinv) fun _ _ hleft => ⟨hleft.1, fun _ => hleft.2⟩
  · refine Safe.bind (safe_clean_unrecorded x h hrecorded) fun r after hclean => ?_
    obtain ⟨rfl, e, rfl⟩ := hclean
    exact .ret h ⟨h, id⟩

end Run

/-! ## Every run -/

theorem Reachable.owned {c : Config} {killable : Disk → Prop} {w : BackupWorld} (h : Reachable c killable w) :
    Owned c w.disk := by
  induction h with
  | start => exact fun _ _ he => (by cases he)
  | finished x _ hrun ih => exact ((safe_runBackup ih rfl hrun).2 _ rfl).1
  | killed x _ hrun _ ih => exact (safe_runBackup ih rfl hrun).1 rfl

theorem Reachable.recorded {c : Config} {w : BackupWorld} (h : Reachable c Recorded w) : Recorded w.disk := by
  induction h with
  | start => exact fun _ _ he => (by cases he)
  | finished x hprevious hrun ih => exact ((safe_runBackup hprevious.owned rfl hrun).2 _ rfl).2 ih
  | killed x _ hrun hkill _ => exact hkill

/-- The next run cleans the spool: its cleaner returns, removes owned attempts alone, and keeps one of the
    greatest epoch. -/
def NextCleans (c : Config) (d : Disk) : Prop :=
  ∀ (x : RunInput) (w w' : BackupWorld) (r : Except SpoolExn Unit), w.disk = d →
    Runs (cleanOwnedFailedSpool c x) w w' (some r) → r = .ok () ∧ Cleaned c d w'.disk

/-- Where an attempt lacks its record the cleaner raises. -/
theorem clean_raises {c : Config} (x : RunInput) {w : BackupWorld} (hnot : ¬ Recorded w.disk) :
    ∃ e, Runs (cleanOwnedFailedSpool c x) w w (some (.error e)) := by
  obtain ⟨e, he⟩ := @candidates_unrecorded c x w.disk hnot
  refine ⟨e, .look ?_⟩
  rw [he]
  exact .ret _ _

/-- A first run. -/
def firstRun : RunInput where
  run := ⟨"0f8fad5b-d9cb-469f-a165-70867728950e", by decide +kernel⟩
  epoch := 1767225600
  inRange := by decide
  temporary := ".attempt.json.7c9e6679-7425-40de-944b-e07fc1f90ae7"
  verified := []
  iterdir := []
  scandir := fun _ => []

theorem nextCleans_iff {c : Config} {d : Disk} (h : Owned c d) : NextCleans c d ↔ Recorded d := by
  constructor
  · intro hclean
    by_contra hnot
    obtain ⟨e, he⟩ := @clean_raises c firstRun ⟨d, []⟩ hnot
    cases (hclean firstRun _ _ _ rfl he).1
  · intro hrecorded x w w' r hw hrun
    obtain ⟨hr, -, -, hcleaned⟩ := (safe_clean x h hrecorded hw hrun).2 r rfl
    exact ⟨hr, hcleaned⟩

def exampleConfig : Config :=
  ⟨"629a771b-012b-4fea-8c0d-5f171573a4fa", "pickle_verify", "1234567890123456789", "application-db"⟩

/-- The first run, killed after it made the directory of its attempt. -/
def killedWorld : BackupWorld :=
  ((runBackup exampleConfig firstRun).exec 4 ⟨.initial, []⟩ [.done, .done, .done]).1

end Spool
end Backup
end PickleInfra
