import PickleInfra.SyntheticLogin.Undo

/-!
# `SyntheticLogin.Recovered` — what a trial that returned has passed, and when a recovery succeeds

An `apply` that returns ends with every probe of the trial matrix answered as expected (`Passed`). From a
target that holds the trial bytes, a `recover` whose questions are all answered well restores it if and
only if no temporary file of the target was left behind: the writer creates that file exclusively, under
one name, and removes nothing it finds.
-/

namespace PickleInfra
namespace SyntheticLogin

open Python Durable

section Recovered

variable {Bytes : Type} {digest : Bytes → String}

/-! ## The matrix in the history -/

/-- The probe of a check was answered as expected. -/
def Met (c : Check) (e : Event (Files Bytes) Ask Answer) : Prop :=
  ∃ a, e = .answered (.probe c.request) a ∧ a.raised = false ∧ a.status = c.expected

/-- The history ends with the probes of the whole matrix, each as expected. -/
def Passed (trial : Bool) (hist : List (Event (Files Bytes) Ask Answer)) : Prop :=
  ∃ newer older, hist = newer ++ older ∧ List.Forall₂ Met (checks trial) newer.reverse

/-- An answer that was used did not raise. -/
theorem reply_eq_ok {α : Type} {get : Answer → Except Failure α} {a : Answer} {b : α}
    (h : reply get a = .ok b) : a.raised = false ∧ get a = .ok b := by
  unfold reply at h
  split at h
  · cases h
  · next hraised => exact ⟨by simpa using hraised, h⟩

theorem runs_matrixOf {trial : Bool} {cs : List Check} {w w' : World (Files Bytes) Ask Answer} {u : Unit}
    (h : Runs (matrixOf trial cs).run w w' (some (.ok u))) :
    ∃ newer, w'.hist = newer ++ w.hist ∧ List.Forall₂ Met cs newer.reverse := by
  induction cs generalizing w with
  | nil =>
      obtain ⟨rfl, -⟩ := runs_pure h
      exact ⟨[], rfl, .nil⟩
  | cons c rest ih =>
      obtain ⟨actual, w₁, hprobe, hrest⟩ := runs_seq h
      obtain ⟨a, ha, rfl⟩ := runs_ask hprobe
      obtain ⟨hraised, hstatus⟩ := reply_eq_ok ha
      obtain rfl := Except.ok.inj hstatus
      split at hrest
      · exact (runs_throw hrest).elim
      next hexpected =>
      obtain ⟨newer, hhist, hmet⟩ := ih hrest
      refine ⟨newer ++ [.answered (.probe c.request) a], ?_, ?_⟩
      · rw [hhist, World.push_hist, List.append_assoc]
        rfl
      · rw [List.reverse_append]
        exact .cons ⟨a, rfl, hraised, not_not.mp hexpected⟩ hmet

/-- **The loop returns** only after a whole matrix. -/
theorem runs_converge {trial : Bool} {deadline : ℚ} {rounds attempts n : Nat}
    {w w' : World (Files Bytes) Ask Answer}
    (h : Runs (converge digest trial deadline rounds attempts).run w w' (some (.ok n))) :
    Passed trial w'.hist := by
  induction rounds generalizing attempts w with
  | zero => exact (runs_throw h).elim
  | succ rounds ih =>
      rcases runs_rescue h with h | ⟨e, w₁, -, h⟩
      · obtain ⟨_, w₁, hmatrix, hpure⟩ := runs_seq h
        obtain ⟨rfl, -⟩ := runs_pure hpure
        obtain ⟨newer, hhist, hmet⟩ := runs_matrixOf hmatrix
        exact ⟨newer, _, hhist, hmet⟩
      · -- the handler returns by another round alone
        split at h
        · obtain ⟨now, w₂, -, h⟩ := runs_seq h
          split at h
          · obtain ⟨f, w₃, -, h⟩ := runs_seq h
            exact (runs_throw h).elim
          · obtain ⟨_, w₃, -, h⟩ := runs_seq h
            exact ih h
        · exact (runs_throw h).elim

theorem runs_switch {source : Bytes} {rounds n : Nat} {w w' : World (Files Bytes) Ask Answer}
    (h : Runs (switch digest source rounds).run w w' (some (.ok n))) : Passed true w'.hist := by
  obtain ⟨_, _, -, h⟩ := runs_seq h
  obtain ⟨_, _, -, h⟩ := runs_seq h
  obtain ⟨_, _, -, h⟩ := runs_seq h
  obtain ⟨_, _, -, h⟩ := runs_seq h
  obtain ⟨_, _, -, h⟩ := runs_seq h
  exact runs_converge h

theorem runs_report {e : Failure} {rollback : Option Failure} {w w' : World (Files Bytes) Ask Answer}
    {r : Except ApplyFailure Nat} (h : Runs (report digest e rollback) w w' (some r)) :
    ∀ n, r ≠ .ok n := by
  rintro n rfl
  rcases runs_bind h with ⟨-, hr⟩ | ⟨f, w₁, -, h⟩
  · cases hr
  · obtain ⟨-, hr | hr⟩ := runs_ret h
    · cases hr
    · cases Option.some.inj hr

theorem runs_rollBack {e : Failure} {rounds : Nat} {w w' : World (Files Bytes) Ask Answer}
    {r : Except ApplyFailure Nat} (h : Runs (rollBack digest rounds e) w w' (some r)) :
    ∀ n, r ≠ .ok n := by
  rintro n rfl
  rcases runs_bind h with ⟨-, hr⟩ | ⟨f, w₁, -, h⟩
  · cases hr
  · split at h
    · obtain ⟨-, hr | hr⟩ := runs_ret h
      · cases hr
      · cases Option.some.inj hr
    · exact runs_report h n rfl
    · exact runs_report h n rfl

/-- **An `apply` that returns** has passed the trial matrix last of all. -/
theorem runs_apply {rounds n : Nat} {w w' : World (Files Bytes) Ask Answer}
    (h : Runs (apply digest rounds) w w' (some (.ok n))) : Passed true w'.hist := by
  rcases runs_bind h with ⟨-, hr⟩ | ⟨r, w₁, -, h⟩
  · cases hr
  cases r with
  | error e =>
      obtain ⟨-, hr | hr⟩ := runs_ret h
      · cases hr
      · cases Option.some.inj hr
  | ok source =>
      rcases runs_bind h with ⟨-, hr⟩ | ⟨r, w₂, hswitch, h⟩
      · cases hr
      cases r with
      | ok attempts =>
          obtain ⟨rfl, -⟩ := runs_ret h
          exact runs_switch hswitch
      | error e =>
          exfalso
          cases e with
          | unending =>
              obtain ⟨-, hr | hr⟩ := runs_ret h
              · cases hr
              · cases Option.some.inj hr
          | os => exact runs_rollBack h n rfl
          | runtime message => exact runs_rollBack h n rfl
          | mismatch message retryable => exact runs_rollBack h n rfl
          | timeout attempts last installed => exact runs_rollBack h n rfl

/-! ## A recovery without failures -/

/-- The question was answered well: nothing raised, no command failed, and a probe of the health matrix
    has the status that is expected. -/
structure Well (q : Ask) (a : Answer) : Prop where
  quiet : a.raised = false
  zero : a.returncode = 0
  status : ∀ c ∈ checks false, q = .probe c.request → a.status = c.expected

section Sure

variable {w : World (Files Bytes) Ask Answer}

theorem sure_reply {α : Type} {get : Answer → Except Failure α} {q : Ask}
    (h : ∀ a, Well q a → ∃ b, get a = .ok b) :
    Sure Well (ask (reply get) q : Ingress Bytes α) w fun b w' =>
      ∃ a, Well q a ∧ get a = .ok b ∧ w' = w.push (.answered q a) := by
  have hreply : ∀ a, Well q a → reply get a = get a := by
    intro a ha
    unfold reply
    rw [ha.quiet]
    rfl
  have hask : Sure Well (ask (reply get) q : Ingress Bytes α) w _ :=
    sure_ask fun a ha => by rw [hreply a ha]; exact h a ha
  refine hask.mono fun b w' _ ⟨a, ha, hb, hw⟩ => ⟨a, ha, ?_, hw⟩
  rwa [hreply a ha] at hb

theorem sure_system (name : String) (place : Place) :
    Sure Well (system name place : Ingress Bytes Unit) w fun _ w' => w'.disk = w.disk := by
  refine (sure_reply fun _ _ => ⟨(), rfl⟩).mono fun _ w' _ ⟨a, _, _, hw⟩ => ?_
  rw [hw]
  rfl

theorem sure_readFile {place : Place} {f : File Bytes} (hf : w.disk.file place = some f) :
    Sure Well (readFile place : Ingress Bytes (File Bytes)) w fun g w' => g = f ∧ w'.disk = w.disk := by
  refine (sure_system "read" place).bind fun _ w₁ hw => ?_
  refine sure_readStore.bind ?_
  rintro _ _ ⟨rfl, rfl⟩
  rw [hw, hf]
  exact sure_pure ⟨rfl, hw⟩

theorem sure_require {condition : Bool} {message : String} (h : condition = true) :
    Sure Well (require condition message : Ingress Bytes Unit) w fun _ w' => w'.disk = w.disk := by
  unfold require
  rw [if_pos h]
  exact sure_pure rfl

theorem sure_pinned {place : Place} {expected : String} {mode : Nat} {data : Bytes}
    (h : Pinned digest w.disk place expected mode data) :
    Sure Well (pinned digest place expected mode) w fun d w' => d = data ∧ w'.disk = w.disk := by
  refine (sure_readFile h.file).bind ?_
  rintro _ w₁ ⟨rfl, hw₁⟩
  refine (sure_require (by simp)).bind fun _ w₂ hw₂ => ?_
  refine (sure_require (by simpa using h.hash)).bind fun _ w₃ hw₃ => ?_
  exact sure_pure ⟨rfl, hw₃.trans (hw₂.trans hw₁)⟩

theorem sure_run (name : String) (arguments : List String) :
    Sure Well (run name arguments : Ingress Bytes String) w fun _ w' =>
      w'.disk = w.disk ∧ ∃ a, w'.hist = .answered (.command (name :: arguments)) a :: w.hist := by
  refine (sure_reply fun a ha => ⟨strip a.stdout, ?_⟩).mono fun _ w' _ ⟨a, _, _, hw⟩ => ?_
  · rw [if_neg (not_not.mpr ha.zero)]
  · rw [hw]
    exact ⟨rfl, a, rfl⟩

theorem sure_matrixOf {cs : List Check} (hcs : ∀ c ∈ cs, c ∈ checks false) :
    Sure Well (matrixOf false cs : Ingress Bytes Unit) w fun _ w' => w'.disk = w.disk := by
  induction cs generalizing w with
  | nil => exact sure_pure rfl
  | cons c rest ih =>
      refine (sure_reply fun a _ => ⟨a.status, rfl⟩).bind ?_
      rintro actual _ ⟨a, ha, hstatus, rfl⟩
      obtain rfl := Except.ok.inj hstatus
      rw [if_neg (not_not.mpr (ha.status c (hcs c List.mem_cons_self) rfl))]
      exact ih fun d hd => hcs d (List.mem_cons_of_mem c hd)

theorem sure_waitMatrix (rounds : Nat) :
    Sure Well (waitMatrix digest false (rounds + 1)) w fun _ w' => w'.disk = w.disk := by
  refine (sure_reply fun a _ => ⟨a.time, rfl⟩).bind ?_
  rintro start _ ⟨a, -, -, rfl⟩
  refine Sure.rescue ((sure_matrixOf fun _ hc => hc).bind fun _ w₂ hw₂ => ?_)
  exact sure_pure hw₂

theorem sure_create {place : Place} (h : w.disk.temporary place = none) :
    Sure Well (create place : Ingress Bytes Unit) w fun _ w' =>
      w'.disk = w.disk.setTemporary place (some ⟨none, 0o600⟩) := by
  refine (sure_system "open" place).bind fun _ w₁ hw => ?_
  refine sure_readStore.bind ?_
  rintro _ _ ⟨rfl, rfl⟩
  rw [hw, h]
  refine (sure_modify _).mono fun _ w' _ hw' => ?_
  rw [hw', World.wrote_disk, hw]

/-- A write that changes the temporary file alone. -/
theorem sure_setTemporary {d : Files Bytes} {place : Place} {s t : Option (Temporary Bytes)}
    (h : w.disk = d.setTemporary place s) :
    Sure Well (modify (·.setTemporary place t) : Ingress Bytes Unit) w fun _ w' =>
      w'.disk = d.setTemporary place t := by
  refine (sure_modify _).mono fun _ w' _ hw' => ?_
  rw [hw', World.wrote_disk, h, Files.setTemporary_setTemporary]

/-- The writer, where no temporary file is in its way. -/
theorem sure_atomic {place : Place} {data : Bytes} {mode : Nat} (h : w.disk.temporary place = none) :
    Sure Well (atomic place data mode) w fun _ w' =>
      w'.disk = (w.disk.setFile place ⟨data, mode, true⟩).setTemporary place none ∧
        .wrote ((w.disk.setFile place ⟨data, mode, true⟩).setTemporary place none) ∈ w'.hist := by
  refine (sure_create h).bind fun _ w₁ h₁ => Sure.rescue ?_
  refine (sure_system "write" place).bind fun _ w₂ h₂ => ?_
  refine (sure_setTemporary (h₂.trans h₁)).bind fun _ w₃ h₃ => ?_
  refine (sure_system "fchmod" place).bind fun _ w₄ h₄ => ?_
  refine (sure_setTemporary (h₄.trans h₃)).bind fun _ w₅ h₅ => ?_
  refine (sure_system "fsync" place).bind fun _ w₆ h₆ => ?_
  refine (sure_system "replace" place).bind fun _ w₇ h₇ => ?_
  refine (sure_modify _).bind ?_
  rintro _ _ rfl
  -- the temporary file holds the data in full
  have hreplaced : w₇.disk.replace place =
      (w.disk.setFile place ⟨data, mode, true⟩).setTemporary place none := by
    rw [h₇, h₆, h₅, Files.replace_written]
  refine (sure_system "fsync directory" place).mono fun _ w' hs hw' => ⟨?_, hs.subset ?_⟩
  · rw [hw', World.wrote_disk, hreplaced]
  · rw [World.wrote_hist, hreplaced]
    exact List.mem_cons_self

end Sure

/-! ## The claim -/

/-- The target holds the base bytes, and nginx was reloaded after the file was put there. -/
def Restored (base : Bytes) (w : World (Files Bytes) Ask Answer) : Prop :=
  HoldsBase base w.disk ∧ ∃ newer older a d, w.hist = newer ++ older ∧
    .answered (.command ["nginx", "-s", "reload"]) a ∈ newer ∧ .wrote d ∈ older ∧ HoldsBase base d

section Claim

variable {base : Bytes} {src : Option (File Bytes)}

/-- **A recovery from the trial** whose questions are answered well, with no temporary file in its way. -/
theorem sure_recover (hbase : digest base = BASE_SHA) {w : World (Files Bytes) Ask Answer}
    (h : Installed digest base src w.disk) (htemporary : w.disk.temporary .target = none)
    (rounds : Nat) :
    Sure Well (recover digest (rounds + 1)) w fun _ w' => Restored base w' := by
  obtain ⟨content, htarget, htrial⟩ := h.target
  -- the file is put back
  have hrestore : Sure Well (restore digest) w fun _ w' =>
      w'.disk = (w.disk.setFile .target ⟨base, 0o644, true⟩).setTemporary .target none ∧
        .wrote ((w.disk.setFile .target ⟨base, 0o644, true⟩).setTemporary .target none) ∈ w'.hist := by
    refine (sure_pinned ⟨h.backup, hbase⟩).bind ?_
    rintro original w₁ ⟨rfl, h₁⟩
    rw [← h₁] at htarget
    refine (sure_readFile htarget).bind ?_
    rintro current w₂ ⟨rfl, h₂⟩
    refine (sure_require (by simp [htrial.2])).bind fun _ w₃ h₃ => ?_
    rw [← h₂, ← h₃] at htarget
    refine (sure_pinned ⟨htarget, rfl⟩).bind ?_
    rintro _ w₄ ⟨-, h₄⟩
    rw [if_pos htrial.2]
    have hdisk : w₄.disk = w.disk := h₄.trans (h₃.trans (h₂.trans h₁))
    rw [← hdisk] at htemporary ⊢
    exact sure_atomic htemporary
  refine hrestore.bind ?_
  rintro _ w₁ ⟨h₁, hwrote⟩
  refine (sure_run "nginx" ["-t"]).bind ?_
  rintro _ w₂ ⟨h₂, a₂, hhist₂⟩
  refine (sure_run "nginx" ["-s", "reload"]).bind ?_
  rintro _ w₃ ⟨h₃, a₃, hhist₃⟩
  have hdisk : w₃.disk = (w.disk.setFile .target ⟨base, 0o644, true⟩).setTemporary .target none :=
    h₃.trans (h₂.trans h₁)
  have hpinned : Pinned digest w₃.disk .target BASE_SHA 0o644 base := ⟨by rw [hdisk]; rfl, hbase⟩
  refine ((sure_pinned hpinned).bind fun _ w₄ h₄ => ?_ : Sure Well (pinned digest .target BASE_SHA 0o644 >>=
    fun _ => waitMatrix digest false (rounds + 1)) w₃ fun _ w' => w'.disk = w₃.disk).mono ?_
  · exact (sure_waitMatrix rounds).mono fun _ w' _ hw' => hw'.trans h₄.2
  intro _ w' hsuffix hw'
  obtain ⟨later, hlater⟩ := hsuffix
  have hholds : HoldsBase base ((w.disk.setFile .target ⟨base, 0o644, true⟩).setTemporary .target none) :=
    ⟨_, rfl, rfl⟩
  refine ⟨by rw [hw', hdisk]; exact hholds, later ++ [.answered (.command ["nginx", "-s", "reload"]) a₃],
    w₂.hist, a₃, _, ?_, ?_, ?_, hholds⟩
  · rw [← hlater, hhist₃, List.append_assoc]
    rfl
  · exact List.mem_append_right _ List.mem_cons_self
  · rw [hhist₂]
    exact List.mem_cons_of_mem _ hwrote

/-- A temporary file of the target stops the recovery before it changes anything. -/
theorem keeps_recover_blocked {inv : Files Bytes → Prop} {d : Files Bytes} (hinv : inv d)
    (h : Installed digest base src d) {t : Temporary Bytes} (ht : d.temporary .target = some t)
    (rounds : Nat) : Keeps inv (recover digest rounds) d fun _ _ => False := by
  obtain ⟨content, htarget, htrial⟩ := h.target
  have hcreate : Keeps inv (create .target : Ingress Bytes Unit) d fun _ _ => False := by
    refine ((readOnly_ask _ _).keeps hinv).next fun _ d' hd => ?_
    subst hd
    refine (keeps_readStore hinv).next ?_
    rintro _ _ ⟨rfl, rfl⟩
    rw [ht]
    exact .throw hinv
  have hrestore : Keeps inv (restore digest) d fun _ _ => False := by
    refine ((readOnly_pinned _ _ _).keeps hinv).next fun _ d' hd => ?_
    subst hd
    refine (keeps_readFile hinv).next ?_
    rintro current _ ⟨rfl, hcurrent⟩
    rw [htarget] at hcurrent
    obtain rfl := Option.some.inj hcurrent
    refine ((readOnly_require _ _).keeps hinv).next fun _ d' hd => ?_
    subst hd
    refine ((readOnly_pinned _ _ _).keeps hinv).next fun _ d' hd => ?_
    subst hd
    rw [if_pos htrial.2]
    exact hcreate.bind fun _ _ _ hf => hf.elim
  exact hrestore.bind fun _ _ _ hf => hf.elim

/-- **An invocation** keeps the invariant, killed or not. -/
theorem safe_invoke {d : Files Bytes} (h : Undoable digest base src d) (x : Mode × Nat) :
    Safe (Undoable digest base src) (invoke digest x) d fun _ d' => Undoable digest base src d' := by
  obtain ⟨mode, rounds⟩ := x
  cases mode with
  | apply => exact (safe_apply h rounds).bind fun _ _ hd => .ret hd.1 hd.1
  | recover => exact Safe.bind (keeps_recover h rounds) fun _ _ hd => .ret hd.1 hd.1

theorem undoable_of_logged {start files : Files Bytes}
    {log : List (Entry (Mode × Nat) (Files Bytes) Ask Answer)}
    (hstart : Undoable digest base src start) (h : Logged (invoke digest) start log files) :
    Undoable digest base src files := by
  induction h with
  | start => exact hstart
  | run x before hrun ih => exact Safe.keeps (safe_invoke ih x) hrun

/-- An answer to every question that a recovery likes. -/
def wellAnswer (q : Ask) : Answer where
  stdout := "active"
  status := match q with
    | .probe request => ((checks false).find? fun c => c.request = request).elim "" Check.expected
    | _              => ""

theorem well_wellAnswer (q : Ask) : Well q (wellAnswer q) := by
  have hall : ∀ c ∈ checks false, (wellAnswer (.probe c.request)).status = c.expected := by decide +kernel
  refine ⟨rfl, rfl, ?_⟩
  rintro c hc rfl
  exact hall c hc

/-- The base file is installed, there is no backup, and nothing is left of an earlier writer. -/
structure Start (base : Bytes) (src : Option (File Bytes)) (d : Files Bytes) : Prop where
  source : d.file .source = src
  target : HoldsBase base d
  backup : d.file .backup = none
  temporary : ∀ place, d.temporary place = none

/-- **The synthetic login trial can be undone.** After any invocations, killed anywhere, the target holds
    the base bytes, or the trial bytes beside a backup of the base; an `apply` that returns has installed
    the trial bytes and passed the whole matrix with them, and one that raised after its recovery
    succeeded has put the base bytes back; and from the trial bytes a `recover` whose questions are
    answered well restores the base and reloads nginx, if and only if no kill left the temporary file of
    the target. -/
theorem trial_undone (digest : Bytes → String) (base : Bytes) (src : Option (File Bytes))
    (start files : Files Bytes) (log : List (Entry (Mode × Nat) (Files Bytes) Ask Answer))
    (hbase : digest base = BASE_SHA) (hstart : Start base src start)
    (h : Logged (invoke digest) start log files) :
    (HoldsBase base files ∨ Installed digest base src files) ∧
      (∀ rounds w r, Runs (apply digest rounds) ⟨files, []⟩ w (some r) →
        (∀ n, r = .ok n →
          (∃ f, w.disk.file .target = some f ∧ IsTrial digest src f.content) ∧ Passed true w.hist) ∧
        (∀ e text, r = .error (.failed e none text) → HoldsBase base w.disk)) ∧
      (Installed digest base src files → ∀ rounds,
        ((∀ w r, Runs (recover digest (rounds + 1)).run ⟨files, []⟩ w (some r) → AllGood Well w.hist →
          (∃ n, r = .ok n) ∧ Restored base w) ↔ files.temporary .target = none)) := by
  have hundoable := undoable_of_logged ⟨hstart.source, .inl hstart.backup, .inl hstart.target⟩ h
  refine ⟨hundoable.target, fun rounds w r hrun => ⟨?_, ?_⟩, fun hinstalled rounds => ⟨?_, ?_⟩⟩
  · rintro n rfl
    exact ⟨((safe_apply hundoable rounds rfl hrun).2 _ rfl).2, runs_apply hrun⟩
  · rintro e text rfl
    exact ((safe_apply hundoable rounds rfl hrun).2 _ rfl).2
  · -- with the temporary file in its way, a well answered recovery ends with the trial still installed
    intro hall
    cases htemporary : files.temporary .target with
    | none => rfl
    | some t =>
        have hnone : AllGood Well (⟨files, []⟩ : World (Files Bytes) Ask Answer).hist := by
          intro q a hmem
          cases hmem
        obtain ⟨w, r, hrun, hgood⟩ := runs_good well_wellAnswer (recover digest (rounds + 1)).run hnone
        obtain ⟨⟨n, rfl⟩, -⟩ := hall w r hrun hgood
        have hblocked := keeps_recover_blocked hundoable hinstalled htemporary (rounds + 1)
        exact ((hblocked rfl hrun).2 _ rfl).2 n rfl |>.elim
  · intro htemporary w r hrun hgood
    obtain ⟨n, rfl, hrestored⟩ := sure_recover hbase hinstalled htemporary rounds hrun hgood
    exact ⟨⟨n, rfl⟩, hrestored⟩

end Claim

end Recovered

/-! ## A killed recovery -/

/-- Two files by name, with their digests. -/
def namedDigest (name : String) : String :=
  if name = "health" then BASE_SHA else if name = "trial" then TRIAL_SHA else ""

/-- The health vhost is installed, and the trial vhost is staged. -/
def healthInstalled : Files String where
  file
    | .source => some ⟨"trial", 0o600, true⟩
    | .target => some ⟨"health", 0o644, true⟩
    | .backup => none
  temporary := fun _ => none

theorem start_healthInstalled : Start "health" (some ⟨"trial", 0o600, true⟩) healthInstalled :=
  ⟨rfl, ⟨_, rfl, rfl⟩, rfl, fun _ => rfl⟩

/-- An `apply` that was killed after it renamed the trial file. -/
def killedApply : Files String :=
  (invoke namedDigest (.apply, 1)).killedAfter wellAnswer 33 healthInstalled

/-- A `recover` after it, killed with its temporary file just created. -/
def killedRecover : Files String :=
  (invoke namedDigest (.recover, 1)).killedAfter wellAnswer 5 killedApply

theorem logged_killedApply : ∃ log, Logged (invoke namedDigest) healthInstalled log killedApply :=
  Logged.start.killed wellAnswer 33 (Mode.apply, 1)

theorem logged_killedRecover : ∃ log, Logged (invoke namedDigest) healthInstalled log killedRecover := by
  obtain ⟨log, hlog⟩ := logged_killedApply
  exact hlog.killed wellAnswer 5 (Mode.recover, 1)

theorem installed_killedApply : Installed namedDigest "health" (some ⟨"trial", 0o600, true⟩) killedApply :=
  ⟨⟨"trial", by decide +kernel, ⟨_, rfl, rfl⟩, by decide +kernel⟩, by decide +kernel⟩

theorem installed_killedRecover : Installed namedDigest "health" (some ⟨"trial", 0o600, true⟩) killedRecover :=
  ⟨⟨"trial", by decide +kernel, ⟨_, rfl, rfl⟩, by decide +kernel⟩, by decide +kernel⟩

/-- After the killed `apply` a well answered recovery restores the health vhost. -/
theorem trial_undone_killedApply :
    ∃ w r, Runs (recover namedDigest 1).run ⟨killedApply, []⟩ w (some r) ∧ AllGood Well w.hist ∧
      Restored "health" w := by
  obtain ⟨log, hlog⟩ := logged_killedApply
  have h := trial_undone namedDigest "health" _ healthInstalled killedApply log (by decide +kernel)
    start_healthInstalled hlog
  have hnone : AllGood Well (⟨killedApply, []⟩ : World (Files String) Ask Answer).hist := by
    intro q a hmem
    cases hmem
  obtain ⟨w, r, hrun, hgood⟩ := runs_good well_wellAnswer (recover namedDigest 1).run hnone
  have hrestores := (h.2.2 installed_killedApply 0).mpr (by decide +kernel)
  exact ⟨w, r, hrun, hgood, (hrestores w r hrun hgood).2⟩

/-- After the killed `recover` none does: the trial stays installed. -/
theorem recover_blocked :
    (∃ log, Logged (invoke namedDigest) healthInstalled log killedRecover) ∧
      Installed namedDigest "health" (some ⟨"trial", 0o600, true⟩) killedRecover ∧
      ∃ w r, Runs (recover namedDigest 1).run ⟨killedRecover, []⟩ w (some r) ∧ AllGood Well w.hist ∧
        ¬ HoldsBase "health" w.disk := by
  refine ⟨logged_killedRecover, installed_killedRecover, ?_⟩
  have hnone : AllGood Well (⟨killedRecover, []⟩ : World (Files String) Ask Answer).hist := by
    intro q a hmem
    cases hmem
  obtain ⟨w, r, hrun, hgood⟩ := runs_good well_wellAnswer (recover namedDigest 1).run hnone
  refine ⟨w, r, hrun, hgood, fun hbase => ?_⟩
  have htemporary : killedRecover.temporary .target = some ⟨none, 0o600⟩ := by decide +kernel
  have hdisk : w.disk = killedRecover :=
    (@keeps_recover_blocked _ _ _ _ (fun d => d = killedRecover) _ rfl installed_killedRecover _ htemporary
      1).always hrun
  obtain ⟨f, hf, hcontent⟩ := hbase
  obtain ⟨content, hfile, -, hhash⟩ := installed_killedRecover.target
  rw [hdisk, hfile] at hf
  obtain rfl := Option.some.inj hf
  obtain rfl : content = "health" := hcontent
  exact absurd hhash (by decide +kernel)

end SyntheticLogin
end PickleInfra
