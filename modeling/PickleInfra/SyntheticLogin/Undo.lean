import PickleInfra.Durable.Log
import PickleInfra.SyntheticLogin.Trial

/-!
# `SyntheticLogin.Undo` — the trial can be undone

`Undoable` is the invariant of every run: the target is the base file, or the trial file beside a backup
of the base. Both modes keep it, killed anywhere. From it a later `recover` whose questions are answered
well restores the target, exactly where no kill left the temporary file of the target behind.
-/

namespace PickleInfra
namespace SyntheticLogin

open Python Durable

section Undo

variable {Bytes : Type} {digest : Bytes → String}

/-! ## Files -/

namespace Files

variable (d : Files Bytes) (place : Place)

@[simp] theorem file_setTemporary (t : Option (Temporary Bytes)) :
    (d.setTemporary place t).file = d.file := rfl

@[simp] theorem temporary_setTemporary (t : Option (Temporary Bytes)) :
    (d.setTemporary place t).temporary place = t := if_pos rfl

@[simp] theorem file_setFile (f : File Bytes) : (d.setFile place f).file place = some f := if_pos rfl

theorem file_setFile_ne {p : Place} (f : File Bytes) (h : p ≠ place) :
    (d.setFile place f).file p = d.file p := if_neg h

@[simp] theorem setTemporary_setTemporary (s t : Option (Temporary Bytes)) :
    (d.setTemporary place s).setTemporary place t = d.setTemporary place t := by
  unfold setTemporary
  congr 1
  funext p
  by_cases h : p = place <;> simp [h]

/-- A renamed temporary file. -/
theorem replace_written (data : Bytes) (mode : Nat) :
    (d.setTemporary place (some ⟨some data, mode⟩)).replace place =
      (d.setFile place ⟨data, mode, true⟩).setTemporary place none := by
  unfold replace
  rw [temporary_setTemporary]
  show ((d.setTemporary place _).setFile place _).setTemporary place none = _
  unfold setTemporary setFile
  congr 1
  funext p
  by_cases h : p = place <;> simp [h]

end Files

/-! ## What each function keeps -/

section Keeps

variable {inv : Files Bytes → Prop} {d : Files Bytes}

theorem readOnly_require (condition : Bool) (message : String) :
    ReadOnly (require condition message : Ingress Bytes Unit) := by
  unfold require
  split
  · exact readOnly_pure ()
  · exact readOnly_throw _

theorem keeps_require {condition : Bool} {message : String} (hinv : inv d) :
    Keeps inv (require condition message : Ingress Bytes Unit) d fun _ d' => d' = d ∧ condition = true := by
  unfold require
  split
  · next h => exact .pure hinv ⟨rfl, h⟩
  · exact .throw hinv

theorem readOnly_readFile (place : Place) : ReadOnly (readFile place : Ingress Bytes (File Bytes)) := by
  refine (readOnly_ask _ _).bind fun _ => readOnly_readStore.bind fun d => ?_
  split
  · exact readOnly_pure _
  · exact readOnly_throw _

theorem keeps_readFile {place : Place} (hinv : inv d) :
    Keeps inv (readFile place : Ingress Bytes (File Bytes)) d
      fun f d' => d' = d ∧ d.file place = some f := by
  refine (keeps_ask hinv).next ?_
  rintro _ _ rfl
  refine (keeps_readStore hinv).next ?_
  rintro _ _ ⟨rfl, rfl⟩
  split
  · next f hf => exact .pure hinv ⟨rfl, hf⟩
  · exact .throw hinv

/-- What a file is pinned to. -/
structure Pinned (digest : Bytes → String) (d : Files Bytes) (place : Place) (expected : String)
    (mode : Nat) (data : Bytes) : Prop where
  file : d.file place = some ⟨data, mode, true⟩
  hash : digest data = expected

theorem keeps_pinned {place : Place} {expected : String} {mode : Nat} (hinv : inv d) :
    Keeps inv (pinned digest place expected mode) d
      fun data d' => d' = d ∧ Pinned digest d place expected mode data := by
  refine (keeps_readFile hinv).next ?_
  rintro f _ ⟨rfl, hf⟩
  refine (keeps_require hinv).next ?_
  rintro _ _ ⟨rfl, hmeta⟩
  refine (keeps_require hinv).next ?_
  rintro _ _ ⟨rfl, hhash⟩
  rw [Bool.and_eq_true, decide_eq_true_eq] at hmeta
  refine .pure hinv ⟨rfl, ?_, by simpa using hhash⟩
  obtain ⟨content, m, plain⟩ := f
  obtain ⟨rfl, rfl⟩ := hmeta
  exact hf

theorem readOnly_pinned (place : Place) (expected : String) (mode : Nat) :
    ReadOnly (pinned digest place expected mode) :=
  (readOnly_readFile place).bind fun _ => (readOnly_require _ _).bind fun _ =>
    (readOnly_require _ _).bind fun _ => readOnly_pure _

theorem readOnly_matrixOf (trial : Bool) (cs : List Check) :
    ReadOnly (matrixOf trial cs : Ingress Bytes Unit) := by
  induction cs with
  | nil => exact readOnly_pure ()
  | cons c rest ih =>
      refine (readOnly_ask _ _).bind fun actual => ?_
      split
      · exact readOnly_throw _
      · exact ih

theorem readOnly_inspect : ReadOnly (inspect : Ingress Bytes Unit) :=
  (readOnly_ask _ _).bind fun _ => (readOnly_require _ _).bind fun _ =>
    (readOnly_ask _ _).bind fun _ => readOnly_matrixOf false _

theorem readOnly_converge (trial : Bool) (deadline : ℚ) (rounds attempts : Nat) :
    ReadOnly (converge digest trial deadline rounds attempts) := by
  induction rounds generalizing attempts with
  | zero => exact readOnly_throw _
  | succ rounds ih =>
      refine ReadOnly.rescue ((readOnly_matrixOf trial _).bind fun _ => readOnly_pure _) fun e => ?_
      split
      · refine (readOnly_ask _ _).bind fun now => ?_
        split
        · exact (readOnly_readFile .target).bind fun f => readOnly_throw _
        · exact (readOnly_ask _ _).bind fun _ => ih _
      · exact readOnly_throw _

theorem readOnly_waitMatrix (trial : Bool) (rounds : Nat) : ReadOnly (waitMatrix digest trial rounds) :=
  (readOnly_ask _ _).bind fun _ => readOnly_converge trial _ rounds 0

/-- **The writer**: an invariant of the file before and after, whatever the temporary file is, is kept
    all the way; a writer that returns has renamed its file. -/
theorem keeps_atomic {place : Place} {data : Bytes} {mode : Nat}
    (htemporary : ∀ d' t, inv d' → inv (d'.setTemporary place t)) (hinv : inv d)
    (hnew : inv ((d.setFile place ⟨data, mode, true⟩).setTemporary place none)) :
    Keeps inv (atomic place data mode) d
      fun _ d' => d' = (d.setFile place ⟨data, mode, true⟩).setTemporary place none := by
  have hcreate : Keeps inv (create place : Ingress Bytes Unit) d
      fun _ d' => d' = d.setTemporary place (some ⟨none, 0o600⟩) := by
    refine (keeps_ask hinv).next ?_
    rintro _ _ rfl
    refine (keeps_readStore hinv).next ?_
    rintro _ _ ⟨rfl, rfl⟩
    split
    · exact .throw hinv
    · exact keeps_modify hinv (htemporary _ _ hinv)
  refine hcreate.next ?_
  rintro _ _ rfl
  refine keeps_rescue ?_ fun e d' hd => ?_
  · -- the temporary file is written, closed and renamed
    refine (keeps_ask (htemporary _ _ hinv)).next ?_
    rintro _ _ rfl
    refine (keeps_modify (htemporary _ _ hinv) ?_).next ?_
    · exact htemporary _ _ (htemporary _ _ hinv)
    rintro _ _ rfl
    rw [Files.setTemporary_setTemporary]
    refine (keeps_ask (htemporary _ _ hinv)).next ?_
    rintro _ _ rfl
    refine (keeps_modify (htemporary _ _ hinv) ?_).next ?_
    · exact htemporary _ _ (htemporary _ _ hinv)
    rintro _ _ rfl
    rw [Files.setTemporary_setTemporary]
    refine (keeps_ask (htemporary _ _ hinv)).next ?_
    rintro _ _ rfl
    refine (keeps_ask (htemporary _ _ hinv)).next ?_
    rintro _ _ rfl
    refine (keeps_modify (htemporary _ _ hinv) ?_).next ?_
    · rw [Files.replace_written]
      exact hnew
    rintro _ _ rfl
    rw [Files.replace_written]
    exact keeps_ask hnew
  · have hunlink : Keeps inv (unlink place : Ingress Bytes Unit) d' fun _ d₁ => d₁ = d'.setTemporary place none := by
      refine (keeps_ask hd).next ?_
      rintro _ _ rfl
      exact keeps_modify hd (htemporary _ _ hd)
    exact hunlink.bind fun _ _ h _ => .throw h

end Keeps

/-! ## The invariant -/

/-- The trial bytes: what is pinned at the source. -/
def IsTrial (digest : Bytes → String) (src : Option (File Bytes)) (content : Bytes) : Prop :=
  (∃ f, src = some f ∧ f.content = content) ∧ digest content = TRIAL_SHA

/-- The target holds the trial bytes, and the backup the base bytes. -/
structure Installed (digest : Bytes → String) (base : Bytes) (src : Option (File Bytes)) (d : Files Bytes) :
    Prop where
  target : ∃ content, d.file .target = some ⟨content, 0o644, true⟩ ∧ IsTrial digest src content
  backup : d.file .backup = some ⟨base, 0o600, true⟩

/-- The target holds the base bytes. -/
def HoldsBase (base : Bytes) (d : Files Bytes) : Prop := ∃ f, d.file .target = some f ∧ f.content = base

/-- What every run keeps. -/
structure Undoable (digest : Bytes → String) (base : Bytes) (src : Option (File Bytes)) (d : Files Bytes) :
    Prop where
  source : d.file .source = src
  backup : d.file .backup = none ∨ d.file .backup = some ⟨base, 0o600, true⟩
  target : HoldsBase base d ∨ Installed digest base src d

section Invariant

variable {base : Bytes} {src : Option (File Bytes)} {d : Files Bytes}

theorem Undoable.setTemporary (h : Undoable digest base src d) (place : Place)
    (t : Option (Temporary Bytes)) : Undoable digest base src (d.setTemporary place t) :=
  ⟨h.source, h.backup, h.target.imp id fun hi => ⟨hi.target, hi.backup⟩⟩

/-- The base file is put into the target. -/
theorem Undoable.restored (h : Undoable digest base src d) (f : File Bytes) (hf : f.content = base) :
    Undoable digest base src (d.setFile .target f) where
  source := h.source
  backup := h.backup
  target := .inl ⟨f, rfl, hf⟩

/-- The trial file is put into the target. -/
theorem Undoable.switched (h : Undoable digest base src d) {content : Bytes}
    (hbackup : d.file .backup = some ⟨base, 0o600, true⟩) (htrial : IsTrial digest src content) :
    Undoable digest base src (d.setFile .target ⟨content, 0o644, true⟩) where
  source := h.source
  backup := h.backup
  target := .inr ⟨⟨content, rfl, htrial⟩, hbackup⟩

/-- The base file is backed up. -/
theorem Undoable.backedUp (h : Undoable digest base src d) :
    Undoable digest base src (d.setFile .backup ⟨base, 0o600, true⟩) where
  source := h.source
  backup := .inr rfl
  target := h.target.imp id fun hi => ⟨hi.target, rfl⟩

/-- What is pinned to the base digest at the target is the base file. -/
theorem Undoable.base_of_pinned (h : Undoable digest base src d) {mode : Nat} {data : Bytes}
    (hp : Pinned digest d .target BASE_SHA mode data) : data = base := by
  rcases h.target with ⟨f, hf, hcontent⟩ | hi
  · rw [hp.file] at hf
    obtain rfl := Option.some.inj hf
    exact hcontent
  · obtain ⟨content, hf, -, hhash⟩ := hi.target
    rw [hp.file] at hf
    cases hf
    rw [hp.hash] at hhash
    exact absurd hhash (by decide)

/-- What is in the backup is the base file. -/
theorem Undoable.backup_of_pinned (h : Undoable digest base src d) {expected : String} {mode : Nat}
    {data : Bytes} (hp : Pinned digest d .backup expected mode data) :
    data = base ∧ d.file .backup = some ⟨base, 0o600, true⟩ := by
  rcases h.backup with hnone | hsome
  · rw [hp.file] at hnone
    cases hnone
  · have hfile := hp.file
    rw [hsome] at hfile
    cases hfile
    exact ⟨rfl, hsome⟩

theorem keeps_run (name : String) (arguments : List String) (h : Undoable digest base src d) :
    Keeps (Undoable digest base src) (run name arguments : Ingress Bytes String) d fun _ d' => d' = d :=
  keeps_ask h

theorem keeps_restore (h : Undoable digest base src d) :
    Keeps (Undoable digest base src) (restore digest) d fun _ _ => True := by
  refine (keeps_pinned h).next ?_
  rintro original _ ⟨rfl, horiginal⟩
  refine (keeps_readFile h).next ?_
  rintro current _ ⟨rfl, -⟩
  refine (keeps_require h).next ?_
  rintro _ _ ⟨rfl, -⟩
  refine (keeps_pinned h).next ?_
  rintro _ _ ⟨rfl, -⟩
  split
  · refine (keeps_atomic (fun _ t hd => hd.setTemporary _ t) h ?_).mono fun _ _ _ => trivial
    exact (h.restored _ (h.backup_of_pinned horiginal).1).setTemporary _ _
  · exact .pure h trivial

/-- **A recovery** keeps the invariant; one that returns leaves the base file. -/
theorem keeps_recover (h : Undoable digest base src d) (rounds : Nat) :
    Keeps (Undoable digest base src) (recover digest rounds) d fun _ d' => HoldsBase base d' := by
  refine (keeps_restore h).bind fun _ d h _ => ?_
  refine (keeps_run _ _ h).next ?_
  rintro _ _ rfl
  refine (keeps_run _ _ h).next ?_
  rintro _ _ rfl
  refine (keeps_pinned h).next ?_
  rintro data _ ⟨rfl, hpinned⟩
  refine ((readOnly_waitMatrix false rounds).keeps h).mono ?_
  rintro _ _ rfl
  exact ⟨_, hpinned.file, h.base_of_pinned hpinned⟩

/-- **The preparation** returns the trial bytes, with the base file backed up. -/
theorem keeps_prepare (h : Undoable digest base src d) :
    Keeps (Undoable digest base src) (prepare digest) d
      fun source d' => IsTrial digest src source ∧ d'.file .backup = some ⟨base, 0o600, true⟩ := by
  refine (keeps_pinned h).next ?_
  rintro source _ ⟨rfl, hsource⟩
  have htrial : IsTrial digest src source := by
    have hfile := hsource.file
    rw [h.source] at hfile
    exact ⟨⟨_, hfile, rfl⟩, hsource.hash⟩
  refine (keeps_pinned h).next ?_
  rintro original _ ⟨rfl, horiginal⟩
  refine (keeps_readStore h).next ?_
  rintro _ _ ⟨rfl, rfl⟩
  have hcheck : ∀ b, ReadOnly (whenever b (do let _ ← pinned digest .backup BASE_SHA 0o600; pure ())) := by
    intro b
    unfold whenever
    split
    · exact (readOnly_pinned _ _ _).bind fun _ => readOnly_pure ()
    · exact readOnly_pure ()
  refine ((hcheck _).keeps h).next ?_
  rintro _ _ rfl
  refine (readOnly_inspect.keeps h).next ?_
  rintro _ d' rfl
  -- the backup is made where there is none
  have hbackup : ∀ b, Keeps (Undoable digest base src) (whenever b (atomic .backup original 0o600)) d'
      fun _ _ => True := by
    intro b
    unfold whenever
    split
    · refine (keeps_atomic (fun _ t hd => hd.setTemporary _ t) h ?_).mono fun _ _ _ => trivial
      rw [h.base_of_pinned horiginal]
      exact h.backedUp.setTemporary _ _
    · exact .pure h trivial
  refine (hbackup _).bind fun _ d h _ => ?_
  refine (keeps_pinned h).next ?_
  rintro _ _ ⟨rfl, hp⟩
  exact .pure h ⟨htrial, (h.backup_of_pinned hp).2⟩

/-- **The switch** keeps the invariant; one that returns leaves the trial bytes. -/
theorem keeps_switch (h : Undoable digest base src d) {source : Bytes} (htrial : IsTrial digest src source)
    (hbackup : d.file .backup = some ⟨base, 0o600, true⟩) (rounds : Nat) :
    Keeps (Undoable digest base src) (switch digest source rounds) d
      fun _ d' => ∃ f, d'.file .target = some f ∧ IsTrial digest src f.content := by
  refine (keeps_atomic (fun _ t hd => hd.setTemporary _ t) h
    ((h.switched hbackup htrial).setTemporary _ _)).bind fun _ d' h' hd => ?_
  subst hd
  refine (keeps_run _ _ h').next ?_
  rintro _ _ rfl
  refine (keeps_run _ _ h').next ?_
  rintro _ _ rfl
  refine (keeps_pinned h').next ?_
  rintro _ _ ⟨rfl, -⟩
  refine ((readOnly_waitMatrix true rounds).keeps h').mono ?_
  rintro _ _ rfl
  exact ⟨⟨source, 0o644, true⟩, rfl, htrial⟩

/-- What an `apply` that ended leaves: the trial bytes if it returned, and the base bytes if it raised and
    recovered. -/
def Applied (digest : Bytes → String) (base : Bytes) (src : Option (File Bytes)) (d : Files Bytes) :
    Except ApplyFailure Nat → Prop
  | .ok _                         => ∃ f, d.file .target = some f ∧ IsTrial digest src f.content
  | .error (.failed _ none _)     => HoldsBase base d
  | .error (.failed _ (some _) _) => True
  | .error (.refused _)           => True

theorem safe_report (h : Undoable digest base src d) (e : Failure) (rollback : Option Failure)
    (hbase : rollback = none → HoldsBase base d) :
    Safe (Undoable digest base src) (report digest e rollback) d
      fun r d' => Undoable digest base src d' ∧ Applied digest base src d' r := by
  have happlied : ∀ text, Applied digest base src d (.error (.failed e rollback text)) := by
    intro text
    cases rollback with
    | none => exact hbase rfl
    | some _ => trivial
  -- whether or not the target can be read, it is as it was
  refine Safe.bind ((readOnly_readFile .target).safe h) ?_
  rintro f _ rfl
  exact .ret h ⟨h, happlied _⟩

theorem safe_rollBack (h : Undoable digest base src d) (rounds : Nat) (e : Failure) :
    Safe (Undoable digest base src) (rollBack digest rounds e) d
      fun r d' => Undoable digest base src d' ∧ Applied digest base src d' r := by
  refine (keeps_recover h rounds).safe_bind ?_ ?_
  · intro rollback d h
    have hreport := safe_report h e (some rollback) fun hc => by cases hc
    cases rollback with
    | unending => exact .ret h ⟨h, trivial⟩
    | os => exact hreport
    | runtime message => exact hreport
    | mismatch message retryable => exact hreport
    | timeout attempts last installed => exact hreport
  · rintro _ d ⟨h, hbase⟩
    exact safe_report h e none fun _ => hbase

/-- **An application.** -/
theorem safe_apply (h : Undoable digest base src d) (rounds : Nat) :
    Safe (Undoable digest base src) (apply digest rounds) d
      fun r d' => Undoable digest base src d' ∧ Applied digest base src d' r := by
  refine (keeps_prepare h).safe_bind ?_ ?_
  · intro e d h
    exact .ret h ⟨h, trivial⟩
  rintro source d ⟨h, htrial, hbackup⟩
  refine (keeps_switch h htrial hbackup rounds).safe_bind ?_ ?_
  · intro e d h
    cases e with
    | unending => exact .ret h ⟨h, trivial⟩
    | os => exact safe_rollBack h rounds _
    | runtime message => exact safe_rollBack h rounds _
    | mismatch message retryable => exact safe_rollBack h rounds _
    | timeout attempts last installed => exact safe_rollBack h rounds _
  · rintro _ d ⟨h, hpost⟩
    exact .ret h ⟨h, hpost⟩

end Invariant

end Undo

end SyntheticLogin
end PickleInfra
