import Mathlib.Data.List.Pairwise
import PickleInfra.Backup.RetentionPairs

/-!
# `Backup.Retained` — paired retention, cut short and run again

What a run of `prune` leaves wherever it stops, and that the next run, with the same selection, finishes what
it left: the server lists no proof that is gone, so the rows of the removed ones are no longer there.
-/

namespace PickleInfra
namespace Backup
namespace Retention

open Python Durable

variable {T : FloatText} {c : Config} {rows : List Json} {v e : Int} {s : Server} {record : Json}

/-! ## An undisturbed run -/

/-- Every call returns. -/
def done (_ : Call) : Reply := .done

theorem complete_read {α : Type} {q : Call} {value : Server → Except BackupExn α} {a : α}
    (h : value s = .ok a) : (read q value).run.complete done s = (s, .ok a) := by
  show (s, value s) = _
  rw [h]

theorem complete_lift {α : Type} {r : Except BackupExn α} {a : α} (h : r = .ok a) :
    (ExceptT.mk (.ret r) : Client α).run.complete done s = (s, .ok a) := by
  subst h
  rfl

theorem complete_name {p : Bool} {text : String} (h : snapshotName c e p = .ok text) :
    (name c e p).run.complete done s = (s, .ok text) := complete_lift h

theorem complete_snapshots (c : Config) (p : Bool) (s : Server) :
    ∃ epochs, (snapshots c p).run.complete done s = (s, .ok epochs) ∧ ∀ e, e ∈ epochs ↔ e ∈ s.group p := by
  obtain ⟨epochs, hread, hmem⟩ := readInventory_eq c p s
  exact ⟨epochs, complete_read hread, hmem⟩

theorem complete_refuse {bad : Bool} {text : String} (h : bad = false) :
    (refuse bad text).run.complete done s = (s, .ok ()) := by
  subst h
  rfl

theorem complete_forgetConfirmed {p : Bool} {name : String} (hname : snapshotName c e p = .ok name) :
    (forgetConfirmed c e p).run.complete done s = (s.forget c name, .ok ()) := by
  unfold forgetConfirmed
  rw [complete_seq (complete_name hname)]
  have hcall : (tryForget c e p name).run.complete done s = (s.forget c name, .ok ()) :=
    complete_bind done _ _ s
  rw [complete_seq hcall]
  obtain ⟨left, hleft, hmem⟩ := complete_snapshots c p (s.forget c name)
  unfold confirmGone
  rw [complete_seq hleft]
  apply complete_refuse
  rw [Bool.eq_false_iff]
  intro hthere
  have hgroup := (hmem e).mp (List.contains_iff_mem.mp hthere)
  exact ((mem_forget hname).mp hgroup).2 ⟨rfl, rfl⟩

/-! ## What an undisturbed run removes -/

/-- The pair of a second was removed, and nothing else. -/
structure Removed (e : Int) (s s' : Server) : Prop where
  receipt : s'.receipt = s.receipt
  index : s'.index = s.index
  others : ∀ q x, x ≠ e → (x ∈ s'.group q ↔ x ∈ s.group q)
  shrinks : ∀ q x, x ∈ s'.group q → x ∈ s.group q
  gone : e ∉ s'.proofs

theorem mem_forget_of_ne {p q : Bool} {name : String} {x : Int} (hname : snapshotName c e p = .ok name)
    (hx : x ≠ e) : x ∈ (s.forget c name).group q ↔ x ∈ s.group q := by
  rw [mem_forget hname]
  exact and_iff_left fun hboth => hx hboth.1

theorem removed_proof {name : String} (hname : snapshotName c e true = .ok name) :
    Removed e s (s.forget c name) where
  receipt := rfl
  index := rfl
  others := fun _ _ hx => mem_forget_of_ne hname hx
  shrinks := fun _ _ hx => ((mem_forget hname).mp hx).1
  gone := fun hthere => ((@mem_forget _ true true _ _ _ _ hname).mp hthere).2 ⟨rfl, rfl⟩

theorem removed_pair {data proof : String} (hdata : snapshotName c e false = .ok data)
    (hproof : snapshotName c e true = .ok proof) : Removed e s ((s.forget c data).forget c proof) where
  receipt := rfl
  index := rfl
  others := fun _ _ hx => (mem_forget_of_ne hproof hx).trans (mem_forget_of_ne hdata hx)
  shrinks := fun _ _ hx => ((mem_forget hdata).mp ((mem_forget hproof).mp hx).1).1
  gone := (removed_proof hproof).gone

/-- The next run can remove the pair of a second. -/
structure Removable (T : FloatText) (c : Config) (s : Server) (e : Int) : Prop where
  proof : e ∈ s.proofs
  receipt : ∃ record, Receipted c s e record ∧ (e ∈ s.data → Matches T c s e record)

theorem complete_prunePair {dataEpochs : List Int} (h : Removable T c s e)
    (hepochs : e ∈ dataEpochs ↔ e ∈ s.data) :
    ∃ s', (prunePair T c dataEpochs e).run.complete done s = (s', .ok ()) ∧ Removed e s s' := by
  obtain ⟨record, hreceipt, hmatch⟩ := h.receipt
  obtain ⟨proof, hproof, hheld⟩ := hreceipt.restored
  have hrestored : restored c proof Server.receipt s = .ok record := by
    unfold restored
    rw [if_pos ((@holds_iff _ true _ _ _ hproof).mpr h.proof)]
    exact hheld
  unfold prunePair
  have hreceived : (receipt c proof).run.complete done s = (s, .ok record) := complete_read hrestored
  rw [complete_seq (complete_name hproof), complete_seq hreceived, complete_seq (complete_lift hreceipt.valid)]
  by_cases hdata : e ∈ s.data
  · rw [if_pos (List.contains_iff_mem.mpr (hepochs.mpr hdata))]
    obtain ⟨data, manifest, fingerprint, hname, hindex, hfingerprint, hsame⟩ := hmatch hdata
    obtain ⟨data', hname', hsnapshot⟩ := hreceipt.snapshot
    obtain rfl := Except.ok.inj (hname.symm.trans hname')
    have hmanifest : restored c data Server.index s = .ok manifest := by
      unfold restored
      rw [if_pos ((@holds_iff _ false _ _ _ hname).mpr hdata)]
      exact hindex
    have hcompare : (compareManifest T c record e).run.complete done s = (s, .ok ()) := by
      unfold compareManifest
      have hread : (index c data).run.complete done s = (s, .ok manifest) := complete_read hmanifest
      rw [hsnapshot, Option.getD_some, complete_seq hread, complete_seq (complete_lift hfingerprint)]
      apply complete_refuse
      rw [hsame]
      rfl
    rw [complete_seq hcompare, complete_seq (complete_forgetConfirmed hname)]
    exact ⟨_, complete_forgetConfirmed hproof, removed_pair hname hproof⟩
  · rw [if_neg fun hthere => hdata (hepochs.mp (List.contains_iff_mem.mp hthere))]
    exact ⟨_, complete_forgetConfirmed hproof, removed_proof hproof⟩

/-! ## The rows of an undisturbed run -/

/-- The rows have no second in common. -/
def Apart (a b : Json) : Prop :=
  ∀ e : Int, ¬ ((a.getOrNull "backup-time").isNumber e = true ∧ (b.getOrNull "backup-time").isNumber e = true)

instance : Std.Symm Apart := ⟨fun _ _ h e hboth => h e hboth.symm⟩

/-- No second is listed twice. -/
def Distinct (rows : List Json) : Prop := rows.Pairwise Apart

theorem Selects.isNumber {row : Json} (h : Selects row e) : (row.getOrNull "backup-time").isNumber e = true := by
  obtain ⟨-, hepoch⟩ := h
  cases hrow : row.getOrNull "backup-time" with
  | int n =>
      rw [hrow] at hepoch
      obtain rfl := Option.some.inj hepoch
      exact decide_eq_true rfl
  | null | bool | float | str | list | dict =>
      rw [hrow] at hepoch
      cases hepoch

theorem keeps_exclusive {row : Json} (htrue : keeps true row = true) (hfalse : keeps false row = true) : False := by
  unfold keeps at htrue hfalse
  split at htrue
  · next b hb =>
    rw [hb] at hfalse
    have h₁ := of_decide_eq_true htrue
    have h₂ := of_decide_eq_true hfalse
    exact absurd (h₁.symm.trans h₂) (by decide)
  · cases htrue

/-- A row says what becomes of its second. -/
def Decided (row : Json) : Prop := keeps true row = true ∨ ∃ e, Selects row e

theorem complete_pruneRows {dataEpochs : List Int} (hdistinct : Distinct rows)
    (hdecided : ∀ row ∈ rows, Decided row)
    (hready : ∀ row ∈ rows, ∀ e, Selects row e → Removable T c s e ∧ (e ∈ dataEpochs ↔ e ∈ s.data)) :
    ∃ s', (pruneRows T c dataEpochs rows).run.complete done s = (s', .ok ()) ∧
      (∀ row ∈ rows, ∀ e, Selects row e → e ∉ s'.proofs) ∧ ∀ q x, x ∈ s'.group q → x ∈ s.group q := by
  induction rows generalizing s with
  | nil => exact ⟨s, rfl, fun _ h => (by cases h), fun _ _ h => h⟩
  | cons row rows ih =>
      obtain ⟨hhead, htail⟩ := List.pairwise_cons.mp hdistinct
      have hdecided' := fun row hrow => hdecided row (List.mem_cons_of_mem _ hrow)
      have hready' := fun row hrow => hready row (List.mem_cons_of_mem _ hrow)
      unfold pruneRows
      rcases hdecided row List.mem_cons_self with hkeep | ⟨e, hselect⟩
      · rw [if_pos hkeep]
        obtain ⟨s', hrun, hgone, hshrinks⟩ := ih htail hdecided' hready'
        refine ⟨s', hrun, fun row' hrow' e hselect => ?_, hshrinks⟩
        rcases List.mem_cons.mp hrow' with rfl | hrow'
        · exact (keeps_exclusive hkeep hselect.1).elim
        · exact hgone row' hrow' e hselect
      · rw [if_neg fun hkeep => keeps_exclusive hkeep hselect.1, hselect.1, hselect.2]
        obtain ⟨hremovable, hepochs⟩ := hready row List.mem_cons_self e hselect
        obtain ⟨s₁, hpair, hremoved⟩ := complete_prunePair hremovable hepochs
        -- the other selected seconds are as they were
        have hready₁ : ∀ row' ∈ rows, ∀ e', Selects row' e' →
            Removable T c s₁ e' ∧ (e' ∈ dataEpochs ↔ e' ∈ s₁.data) := by
          intro row' hrow' e' hselect'
          have hne : e' ≠ e := by
            rintro rfl
            exact hhead row' hrow' e' ⟨hselect.isNumber, hselect'.isNumber⟩
          obtain ⟨⟨hproof, record, ⟨⟨text, htext, hheld⟩, hvalid⟩, hmatch⟩, hdata⟩ := hready' row' hrow' e' hselect'
          have hdata₁ : e' ∈ s₁.data ↔ e' ∈ s.data := hremoved.others false e' hne
          refine ⟨⟨(hremoved.others true e' hne).mpr hproof, record, ⟨⟨text, htext, ?_⟩, hvalid⟩, ?_⟩, ?_⟩
          · rw [hremoved.receipt]
            exact hheld
          · intro hthere
            obtain ⟨data, manifest, fingerprint, hname, hindex, hrest⟩ := hmatch (hdata₁.mp hthere)
            exact ⟨data, manifest, fingerprint, hname, hremoved.index ▸ hindex, hrest⟩
          · exact hdata.trans hdata₁.symm
        obtain ⟨s', hrun, hgone, hshrinks⟩ := ih htail hdecided' hready₁
        refine ⟨s', ?_, ?_, fun q x hx => hremoved.shrinks q x (hshrinks q x hx)⟩
        · exact (complete_seq hpair).trans hrun
        · intro row' hrow' e' hselect'
          rcases List.mem_cons.mp hrow' with rfl | hrow'
          · obtain rfl := Option.some.inj (hselect.2.symm.trans hselect'.2)
            exact fun hthere => hremoved.gone (hshrinks true e hthere)
          · exact hgone row' hrow' e' hselect'

/-! ## What a run leaves, and the next run -/

/-- The rows that the next preview still lists. -/
def stillListed (s : Server) (rows : List Json) : List Json :=
  rows.filter fun row => !(keeps false row
    && (row.getOrNull "backup-time").asInt?.any fun e => !s.proofs.contains e)

/-- The preview keeps the second. -/
def ListedKept (rows : List Json) (e : Int) : Prop :=
  ∃ row ∈ rows, keeps true row = true ∧ (row.getOrNull "backup-time").isNumber e = true

/-- The server `s` is what a run of `prune` from `s₀` may leave. -/
structure Retained (T : FloatText) (c : Config) (rows : List Json) (v : Int) (s₀ s : Server) : Prop where
  paired : ∀ e ∈ s₀.data, e ∈ s₀.proofs → e ∈ s.data → e ∈ s.proofs
  justified : ∀ e ∈ s₀.data, e ∈ s₀.proofs → ¬ (e ∈ s.data ∧ e ∈ s.proofs) →
    (∃ row ∈ rows, Selects row e) ∧ ∃ record, Receipted c s₀ e record ∧ Matches T c s₀ e record
  kept : ∀ e, e = v ∨ ListedKept rows e → ∀ p, e ∈ s₀.group p → e ∈ s.group p
  finished : checkPreview c v (.list rows) = .ok rows → (∀ row ∈ rows, Decided row) →
    (∀ row ∈ rows, ∀ e, Selects row e → e ∈ s.proofs → Removable T c s e) →
    ∃ s', (prune T c (.list (stillListed s rows)) v).run.complete done s = (s', .ok ()) ∧
      ∀ row ∈ rows, ∀ e, Selects row e → e ∉ s'.proofs

theorem mem_stillListed {row : Json} (hrow : row ∈ stillListed s rows) (h : Selects row e) : e ∈ s.proofs := by
  obtain ⟨-, hlisted⟩ := List.mem_filter.mp hrow
  rw [h.1, h.2] at hlisted
  simpa using hlisted

theorem stillListed_of_mem {row : Json} (hrow : row ∈ rows) (h : Selects row e) (he : e ∈ s.proofs) :
    row ∈ stillListed s rows := by
  refine List.mem_filter.mpr ⟨hrow, ?_⟩
  rw [h.1, h.2]
  simpa using he

/-- An accepted preview keeps the second it is about. -/
theorem checkPreview_keeps (h : checkPreview c v (.list rows) = .ok rows) {row : Json} (hrow : row ∈ rows)
    (hv : (row.getOrNull "backup-time").isNumber v = true) : keeps true row = true := by
  unfold checkPreview at h
  simp only [bind_eq_ok, refuseIf_eq_ok] at h
  obtain ⟨-, -, -, -, -, hcurrent, -⟩ := h
  simp only [Bool.not_eq_false', Bool.and_eq_true, List.all_eq_true] at hcurrent
  exact hcurrent.2 row (List.mem_filter.mpr ⟨hrow, hv⟩)

theorem checkPreview_stillListed (h : checkPreview c v (.list rows) = .ok rows) :
    checkPreview c v (.list (stillListed s rows)) = .ok (stillListed s rows) := by
  -- the rows of the new point are kept, so they are still listed
  have hcurrent : (stillListed s rows).filter (fun row => (row.getOrNull "backup-time").isNumber v)
      = rows.filter fun row => (row.getOrNull "backup-time").isNumber v := by
    unfold stillListed
    rw [List.filter_filter]
    apply List.filter_congr
    intro row hrow
    cases hv : (row.getOrNull "backup-time").isNumber v with
    | false => rfl
    | true =>
        have hkeep := checkPreview_keeps h hrow hv
        have hnot : keeps false row = false := by
          rw [Bool.eq_false_iff]
          exact fun hfalse => keeps_exclusive hkeep hfalse
        rw [hnot]
        rfl
  unfold checkPreview at h ⊢
  simp only [bind_eq_ok, refuseIf_eq_ok, hcurrent] at h ⊢
  obtain ⟨-, hdict, -, hgroup, -, hkept, -⟩ := h
  refine ⟨(), ?_, (), ?_, (), hkept, rfl⟩
  · simp only [Bool.not_eq_false', List.all_eq_true] at hdict ⊢
    exact fun row hrow => hdict row (List.mem_of_mem_filter hrow)
  · rw [List.any_eq_false] at hgroup ⊢
    exact fun row hrow => hgroup row (List.mem_of_mem_filter hrow)

/-- What an accepted preview keeps it does not select. -/
theorem not_selected (hdistinct : Distinct rows) (hpreview : checkPreview c v (.list rows) = .ok rows)
    (hkept : e = v ∨ ListedKept rows e) {row : Json} (hrow : row ∈ rows) (h : Selects row e) : False := by
  rcases hkept with rfl | ⟨other, hother, hkeep, htime⟩
  · exact keeps_exclusive (checkPreview_keeps hpreview hrow h.isNumber) h.1
  · have hne : row ≠ other := by
      rintro rfl
      exact keeps_exclusive hkeep h.1
    exact List.Pairwise.forall hdistinct hrow hother hne e ⟨h.isNumber, htime⟩

/-- A run whose preview is refused leaves the server as it was. -/
theorem refused_unchanged {error : BackupExn} (h : checkPreview c v preview = .error error) :
    Keeps (fun s' => s' = s) (prune T c preview v) s fun _ _ => True := by
  have hread : Keeps (fun s' => s' = s) (read .preview fun _ => checkPreview c v preview) s
      fun rows s' => s' = s ∧ checkPreview c v preview = .ok rows := keeps_read rfl
  apply Keeps.bind hread
  rintro rows s' - ⟨-, hrows⟩
  rw [h] at hrows
  cases hrows

/-- The next run removes the proofs that were left. -/
theorem complete_prune (hdistinct : Distinct rows) (hpreview : checkPreview c v (.list rows) = .ok rows)
    (hdecided : ∀ row ∈ rows, Decided row)
    (hready : ∀ row ∈ rows, ∀ e, Selects row e → e ∈ s.proofs → Removable T c s e) :
    ∃ s', (prune T c (.list (stillListed s rows)) v).run.complete done s = (s', .ok ()) ∧
      ∀ row ∈ rows, ∀ e, Selects row e → e ∉ s'.proofs := by
  obtain ⟨dataEpochs, hsnapshots, hmem⟩ := complete_snapshots c false s
  have hmem' : ∀ row ∈ stillListed s rows, row ∈ rows := fun _ h => List.mem_of_mem_filter h
  obtain ⟨s', hrun, hgone, hshrinks⟩ := @complete_pruneRows T c (stillListed s rows) s dataEpochs
    (hdistinct.filter _) (fun row hrow => hdecided row (hmem' row hrow))
    fun row hrow e hselect => ⟨hready row (hmem' row hrow) e hselect (mem_stillListed hrow hselect), hmem e⟩
  refine ⟨s', ?_, ?_⟩
  · unfold prune
    rw [complete_seq (complete_read (checkPreview_stillListed hpreview)), complete_seq hsnapshots]
    exact hrun
  · intro row hrow e hselect hthere
    have hproof : e ∈ s.proofs := hshrinks true e hthere
    exact hgone row (stillListed_of_mem hrow hselect hproof) e hselect hthere

/-- What a run left is justified, and the next run finishes it. -/
theorem Pruned.retained {s₀ : Server} (hdistinct : Distinct rows) (h : Pruned T c rows s₀ s)
    (haccepted : s = s₀ ∨ checkPreview c v (.list rows) = .ok rows) : Retained T c rows v s₀ s where
  paired := by
    intro e _ hproof hdata
    by_contra hgone
    exact (h.proofs e hproof hgone).1 hdata
  justified := by
    intro e hdata hproof hnot
    apply h.data e hdata
    intro hthere
    apply hnot ⟨hthere, ?_⟩
    by_contra hgone
    exact (h.proofs e hproof hgone).1 hthere
  kept := by
    intro e hkept p he
    rcases haccepted with rfl | hpreview
    · exact he
    by_contra hgone
    have hselected : ∃ row ∈ rows, Selects row e := by
      cases p with
      | false => exact (h.data e he hgone).1
      | true => exact (h.proofs e he hgone).2
    obtain ⟨row, hrow, hselect⟩ := hselected
    exact not_selected hdistinct hpreview hkept hrow hselect
  finished := fun hpreview hdecided hready => complete_prune hdistinct hpreview hdecided hready

/-- **Paired retention**: wherever a run of `prune` stops, no epoch is left with its data alone, what was
    removed was selected and verified, what is kept keeps both snapshots, and the next run finishes the
    selection if every proof that is left has a valid receipt, matching the data if that is left too. -/
theorem paired_retention (hdistinct : Distinct rows) {w w' : World Server Call Reply}
    {r : Option (Except BackupExn Unit)} (hrun : Runs (prune T c (.list rows) v).run w w' r) :
    Retained T c rows v w.disk w'.disk := by
  have hpruned : Pruned T c rows w.disk w'.disk :=
    (keeps_prune rfl w.disk).always hrun
  cases hpreview : checkPreview c v (.list rows) with
  | ok accepted =>
      obtain rfl := Json.list.inj (checkPreview_rows hpreview)
      exact hpruned.retained hdistinct (.inr hpreview)
  | error e =>
      have hsame : w'.disk = w.disk := (refused_unchanged hpreview).always hrun
      exact hpruned.retained hdistinct (.inl hsame)

/-! ## Two runs -/

def databaseConfig : Config :=
  ⟨"629a771b-012b-4fea-8c0d-5f171573a4fa", "pickle_verify", "1234567890123456789", "application-db"⟩

def previewRow (e : Int) (keep : Bool) : Json :=
  .dict [("backup-type", .str "host"), ("backup-id", .str "application-db-verified"), ("backup-time", .int e),
    ("keep", .bool keep)]

/-- The first point is selected, the second is new. -/
def exampleRows : List Json := [previewRow 1767225600 false, previewRow 1767312000 true]

theorem exampleRows_distinct : Distinct exampleRows := by
  have hapart : Apart (previewRow 1767225600 false) (previewRow 1767312000 true) := by
    rintro e ⟨hfirst, hsecond⟩
    have h₁ : ((1767225600 : Int) : ℚ) = e := Option.some.inj (of_decide_eq_true hfirst)
    have h₂ : ((1767312000 : Int) : ℚ) = e := Option.some.inj (of_decide_eq_true hsecond)
    exact absurd (Int.cast_inj.mp (h₁.trans h₂.symm)) (by decide)
  exact List.pairwise_cons.mpr ⟨List.forall_mem_singleton.mpr hapart, List.pairwise_singleton _ _⟩

def digest : Json := .str "e3b0c44298fc1c149afbf4c8996fb92427ae41e4649b934ca495991b7852b855"

/-- A proof whose data is gone, with its receipt. -/
def proofLeft : Server where
  data := [1767312000]
  proofs := [1767312000, 1767225600]
  receipt := fun _ => .ok (.dict [("instance_id", .str "629a771b-012b-4fea-8c0d-5f171573a4fa"),
    ("database", .str "pickle_verify"), ("system_identifier", .str "1234567890123456789"),
    ("status", .str "VERIFIED"), ("recovery_point_epoch", .int 1767225600),
    ("snapshot", .str "host/application-db/2026-01-01T00:00:00Z"),
    ("receipt_snapshot", .str "host/application-db-verified/2026-01-01T00:00:00Z"),
    ("verified_epoch", .int 1767225900), ("manifest_fingerprint", digest),
    ("payload_sha256", .dict [("database.dump", digest), ("roles.sql", digest), ("manifest.json", digest)])])
  index := fun _ => .error (.own "command failed")

theorem paired_retention_finishes : Distinct exampleRows ∧ ∀ T : FloatText,
    ∃ w : World Server Call Reply,
      Runs (prune T databaseConfig (.list exampleRows) 1767312000).run ⟨proofLeft, []⟩ w (some (.ok ())) ∧
      w.disk.proofs = [1767312000] ∧ Retained T databaseConfig exampleRows 1767312000 proofLeft w.disk := by
  refine ⟨exampleRows_distinct, fun T => ?_⟩
  obtain ⟨w, hdisk, hrun⟩ := runs_complete done
    (prune T databaseConfig (.list exampleRows) 1767312000).run ⟨proofLeft, []⟩
  refine ⟨w, hrun, ?_, paired_retention exampleRows_distinct hrun⟩
  rw [hdisk]
  rfl

/-- A server whose receipts say nothing. -/
def emptyReceipts : Server where
  data := [1767312000, 1767225600]
  proofs := [1767312000, 1767225600]
  receipt := fun _ => .ok (.dict [])
  index := fun _ => .ok (.dict [])

theorem invalid_receipt_stays : Distinct exampleRows ∧ ∀ T : FloatText,
    ∃ (w : World Server Call Reply) (text : String),
      Runs (prune T databaseConfig (.list exampleRows) 1767312000).run ⟨emptyReceipts, []⟩ w
        (some (.error (.own text))) ∧
      (prune T databaseConfig (.list (stillListed w.disk exampleRows)) 1767312000).run.complete done w.disk =
        (w.disk, .error (.own text)) ∧ 1767225600 ∈ w.disk.proofs := by
  refine ⟨exampleRows_distinct, fun T => ?_⟩
  have hrun : (prune T databaseConfig (.list exampleRows) 1767312000).run.complete done emptyReceipts =
      (emptyReceipts, .error (.own "Verification receipt does not identify this database recovery point")) := rfl
  obtain ⟨w, hdisk, hfirst⟩ := runs_complete done
    (prune T databaseConfig (.list exampleRows) 1767312000).run ⟨emptyReceipts, []⟩
  rw [hrun] at hdisk hfirst
  refine ⟨w, _, hfirst, ?_, ?_⟩
  · rw [hdisk]
    exact hrun
  · rw [hdisk]
    exact List.mem_cons_of_mem _ List.mem_cons_self

end Retention
end Backup
end PickleInfra
