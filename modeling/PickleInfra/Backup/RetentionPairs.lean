import Mathlib.Data.List.Dedup
import Mathlib.Data.List.Sort
import PickleInfra.Backup.Retention

/-!
# `Backup.RetentionPairs` — data and proof of a recovery point are removed together

A snapshot is removed by its name alone, and names are injective, so a `forget` removes one second of one
group. Each removal is justified before it is asked for: the second is selected, its receipt is valid, and
the data manifest is the one that the receipt verified. A run that was cut short is finished by the next.
-/

namespace PickleInfra
namespace Backup
namespace Retention

open Python Durable

variable {T : FloatText} {c : Config} {preview : Json} {v : Int}

/-! ## What a `forget` removes -/

theorem named_eq_true {p : Bool} {name : String} {e : Int} :
    named c p name e = true ↔ snapshotName c e p = .ok name := by
  unfold named
  split
  · next other hother =>
    rw [hother]
    simp only [decide_eq_true_eq, Except.ok.injEq]
  · next e' herror =>
    rw [herror]
    simp only [Bool.false_eq_true, reduceCtorEq]

/-- **A `forget` removes** the second of its name from the group of its name, and nothing else. -/
theorem mem_forget {p q : Bool} {name : String} {e x : Int} {s : Server}
    (hname : snapshotName c e p = .ok name) :
    x ∈ (s.forget c name).group q ↔ x ∈ s.group q ∧ ¬ (x = e ∧ q = p) := by
  have hnamed : ∀ q, named c q name x = true ↔ x = e ∧ q = p := by
    intro q
    rw [named_eq_true]
    constructor
    · intro hx
      exact snapshotName_inj hx hname
    · rintro ⟨rfl, rfl⟩
      exact hname
  cases q with
  | true =>
      show x ∈ s.proofs.filter _ ↔ _
      rw [List.mem_filter, ← hnamed]
      simp only [Bool.not_eq_true', Bool.not_eq_true]
      exact Iff.rfl
  | false =>
      show x ∈ s.data.filter _ ↔ _
      rw [List.mem_filter, ← hnamed]
      simp only [Bool.not_eq_true', Bool.not_eq_true]
      exact Iff.rfl

@[simp] theorem forget_receipt (name : String) (s : Server) : (s.forget c name).receipt = s.receipt := rfl

@[simp] theorem forget_index (name : String) (s : Server) : (s.forget c name).index = s.index := rfl

theorem holds_iff {p : Bool} {name : String} {e : Int} {s : Server} (hname : snapshotName c e p = .ok name) :
    s.holds c name = true ↔ e ∈ s.group p := by
  unfold Server.holds
  rw [Bool.or_eq_true, List.any_eq_true, List.any_eq_true]
  simp only [named_eq_true]
  constructor
  · rintro (⟨x, hx, hn⟩ | ⟨x, hx, hn⟩)
    · obtain ⟨rfl, rfl⟩ := snapshotName_inj hn hname
      exact hx
    · obtain ⟨rfl, rfl⟩ := snapshotName_inj hn hname
      exact hx
  · intro he
    cases p with
    | false => exact .inl ⟨e, he, hname⟩
    | true => exact .inr ⟨e, he, hname⟩

/-! ## Inventories -/

theorem inventoryRow_eq (c : Config) (p : Bool) (e : Int) :
    inventoryRow c p (.dict [("backup-type", .str "host"), ("backup-id", .str (groupId c p)),
      ("backup-time", .int e), ("files", .list [.dict [("filename", .str "index.json.blob")],
        .dict [("filename", .str (archiveOf p ++ ".didx"))]])]) = .ok (some e) := by
  have hfiles : fileNames [.dict [("filename", .str "index.json.blob")],
      .dict [("filename", .str (archiveOf p ++ ".didx"))]] = .ok ["index.json.blob", archiveOf p ++ ".didx"] := rfl
  unfold inventoryRow
  simp [Json.getOrNull, Json.get?, Json.lookup, Json.asInt?, Json.isStr, hfiles, bind, Except.bind, pure,
    Except.pure]

/-- The client reads the seconds of a group. -/
theorem readInventory_eq (c : Config) (p : Bool) (s : Server) :
    ∃ epochs, readInventory c p (s.inventory c p) = .ok epochs ∧ ∀ e, e ∈ epochs ↔ e ∈ s.group p := by
  unfold readInventory Server.inventory
  have hdict : ((s.group p).map fun epoch => Json.dict [("backup-type", .str "host"),
      ("backup-id", .str (groupId c p)), ("backup-time", .int epoch),
      ("files", .list [.dict [("filename", .str "index.json.blob")],
        .dict [("filename", .str (archiveOf p ++ ".didx"))]])]).all Json.isDict = true := by
    rw [List.all_map, List.all_eq_true]
    intro e _
    rfl
  have hrows := @mapM_eq_ok _ _ _ (inventoryRow c p) ((s.group p).map fun epoch => Json.dict
      [("backup-type", .str "host"), ("backup-id", .str (groupId c p)), ("backup-time", .int epoch),
      ("files", .list [.dict [("filename", .str "index.json.blob")],
        .dict [("filename", .str (archiveOf p ++ ".didx"))]])]) ((s.group p).map some)
  rw [List.forall₂_map_left_iff, List.forall₂_map_right_iff, List.forall₂_same] at hrows
  have hok := hrows.mpr fun e _ => inventoryRow_eq c p e
  simp only [hdict, Bool.not_true, refuseIf_false, hok, bind, Except.bind, pure, Except.pure]
  refine ⟨_, rfl, fun e => ?_⟩
  rw [List.mem_insertionSort, List.mem_dedup]
  simp

/-! ## What justifies a removal -/

/-- The row of the preview selects the second. -/
def Selects (row : Json) (e : Int) : Prop :=
  keeps false row = true ∧ (row.getOrNull "backup-time").asInt? = some e

/-- The stored receipt of the second is valid for it. -/
structure Receipted (c : Config) (s : Server) (e : Int) (record : Json) : Prop where
  restored : ∃ name, snapshotName c e true = .ok name ∧ s.receipt name = .ok record
  valid : validateReceipt c record e = .ok ()

/-- The data manifest of the second has the fingerprint in its receipt. -/
def Matches (T : FloatText) (c : Config) (s : Server) (e : Int) (record : Json) : Prop :=
  ∃ name manifest fingerprint, snapshotName c e false = .ok name ∧ s.index name = .ok manifest ∧
    manifestFingerprint T c manifest e false = .ok fingerprint ∧
    (record.getOrNull "manifest_fingerprint").isStr fingerprint = true

/-- What a run that started at `s₀` may have made of the server. -/
structure Pruned (T : FloatText) (c : Config) (rows : List Json) (s₀ s : Server) : Prop where
  receipt : s.receipt = s₀.receipt
  index : s.index = s₀.index
  shrinks : ∀ p e, e ∈ s.group p → e ∈ s₀.group p
  data : ∀ e ∈ s₀.data, e ∉ s.data →
    (∃ row ∈ rows, Selects row e) ∧ ∃ record, Receipted c s₀ e record ∧ Matches T c s₀ e record
  proofs : ∀ e ∈ s₀.proofs, e ∉ s.proofs → e ∉ s.data ∧ ∃ row ∈ rows, Selects row e

theorem Pruned.start (rows : List Json) (s : Server) : Pruned T c rows s s where
  receipt := rfl
  index := rfl
  shrinks := fun _ _ h => h
  data := fun _ h hnot => absurd h hnot
  proofs := fun _ h hnot => absurd h hnot

variable {rows : List Json} {s₀ s : Server} {e : Int} {record : Json}

/-- Data may be removed where the receipt matches it. -/
theorem Pruned.forget_data {name : String} (h : Pruned T c rows s₀ s)
    (hname : snapshotName c e false = .ok name) (hrow : ∃ row ∈ rows, Selects row e)
    (hreceipt : Receipted c s₀ e record) (hmatch : Matches T c s₀ e record) :
    Pruned T c rows s₀ (s.forget c name) where
  receipt := h.receipt
  index := h.index
  shrinks := fun p x hx => h.shrinks p x ((mem_forget hname).mp hx).1
  data := by
    intro x hx hgone
    by_cases hxe : x = e
    · subst hxe
      exact ⟨hrow, record, hreceipt, hmatch⟩
    · apply h.data x hx
      intro hthere
      exact hgone ((@mem_forget _ _ false _ _ _ _ hname).mpr ⟨hthere, fun hboth => hxe hboth.1⟩)
  proofs := by
    intro x hx hgone
    have hbefore : x ∉ s.proofs := fun hthere =>
      hgone ((@mem_forget _ _ true _ _ _ _ hname).mpr ⟨hthere, fun hboth => nomatch hboth.2⟩)
    obtain ⟨hdata, hselected⟩ := h.proofs x hx hbefore
    exact ⟨fun hthere => hdata ((@mem_forget _ _ false _ _ _ _ hname).mp hthere).1, hselected⟩

/-- A proof may be removed where its data is gone. -/
theorem Pruned.forget_proof {name : String} (h : Pruned T c rows s₀ s)
    (hname : snapshotName c e true = .ok name) (hrow : ∃ row ∈ rows, Selects row e) (hdata : e ∉ s.data) :
    Pruned T c rows s₀ (s.forget c name) where
  receipt := h.receipt
  index := h.index
  shrinks := fun p x hx => h.shrinks p x ((mem_forget hname).mp hx).1
  data := by
    intro x hx hgone
    apply h.data x hx
    intro hthere
    exact hgone ((@mem_forget _ _ false _ _ _ _ hname).mpr ⟨hthere, fun hboth => nomatch hboth.2⟩)
  proofs := by
    intro x hx hgone
    have hdataGone : ∀ x, x ∉ s.data → x ∉ (s.forget c name).data := fun x hnot hthere =>
      hnot ((@mem_forget _ _ false _ _ _ _ hname).mp hthere).1
    by_cases hxe : x = e
    · subst hxe
      exact ⟨hdataGone x hdata, hrow⟩
    · have hbefore : x ∉ s.proofs := fun hthere =>
        hgone ((@mem_forget _ _ true _ _ _ _ hname).mpr ⟨hthere, fun hboth => hxe hboth.1⟩)
      obtain ⟨hnot, hselected⟩ := h.proofs x hx hbefore
      exact ⟨hdataGone x hnot, hselected⟩

/-! ## One call -/

section Calls

variable {inv : Server → Prop}

theorem keeps_read {α : Type} {q : Call} {value : Server → Except BackupExn α} (hinv : inv s) :
    Keeps inv (read q value) s fun a s' => s' = s ∧ value s = .ok a := by
  apply Safe.call hinv
  intro reply
  cases reply with
  | done => exact .look hinv (.ret hinv ⟨hinv, fun a ha => ⟨rfl, ha⟩⟩)
  | failed acted => exact .ret hinv ⟨hinv, fun a ha => by cases ha⟩
  | raised acted => exact .ret hinv ⟨hinv, fun a ha => by cases ha⟩

theorem keeps_snapshots {p : Bool} (hinv : inv s) :
    Keeps inv (snapshots c p) s fun epochs s' => s' = s ∧ ∀ e, e ∈ epochs ↔ e ∈ s.group p := by
  apply Keeps.mono (keeps_read hinv)
  rintro epochs s' ⟨hs, hread⟩
  obtain ⟨epochs', hread', hmem⟩ := readInventory_eq c p s
  obtain rfl := Except.ok.inj (hread.symm.trans hread')
  exact ⟨hs, hmem⟩

theorem keeps_refuse {bad : Bool} {text : String} (hinv : inv s) :
    Keeps inv (refuse bad text) s fun _ s' => s' = s ∧ bad = false := by
  apply Keeps.lift hinv
  intro u hu
  exact ⟨rfl, refuseIf_eq_ok.mp hu⟩

theorem keeps_name {p : Bool} (hinv : inv s) :
    Keeps inv (name c e p) s fun name s' => s' = s ∧ snapshotName c e p = .ok name :=
  .lift hinv fun _ hname => ⟨rfl, hname⟩

/-- A removal happened or not, and either way the store is one of the two. -/
theorem keeps_callForget {name : String} (hinv : inv s) (hafter : inv (s.forget c name)) :
    Safe inv (callForget c name).run s fun _ s' =>
      inv s' ∧ (s' = s ∨ s' = s.forget c name) := by
  have hstays : inv s ∧ (s = s ∨ s = s.forget c name) := ⟨hinv, .inl rfl⟩
  have hacts : inv (s.forget c name) ∧ (s.forget c name = s ∨ s.forget c name = s.forget c name) :=
    ⟨hafter, .inr rfl⟩
  apply Safe.call hinv
  intro reply
  match reply with
  | .done         => exact .write hinv (.ret hafter hacts)
  | .failed true  => exact .write hinv (.ret hafter hacts)
  | .failed false => exact .ret hinv hstays
  | .raised true  => exact .write hinv (.ret hafter hacts)
  | .raised false => exact .ret hinv hstays

/-- **A confirmed removal**: it keeps what holds before and after the removal, and returns only where the
    snapshot is gone. -/
theorem keeps_forgetConfirmed {p : Bool} (hinv : inv s)
    (hafter : ∀ name, snapshotName c e p = .ok name → inv (s.forget c name)) :
    Keeps inv (forgetConfirmed c e p) s fun _ s' => e ∉ s'.group p ∧
      (s' = s ∨ ∃ name, snapshotName c e p = .ok name ∧ s' = s.forget c name) := by
  apply Keeps.bind (keeps_name hinv)
  rintro name s - ⟨rfl, hname⟩
  have hforget : Keeps inv (tryForget c e p name) s fun _ s' => s' = s ∨ s' = s.forget c name := by
    -- a `BackupError` of the call is reconsidered, and either way the store stays where the call left it
    apply Safe.bind (keeps_callForget hinv (hafter name hname))
    rintro r s' ⟨hinv', hs'⟩
    have hraised : ∀ e : BackupExn, Keeps inv (throw e : Client Unit) s' fun _ s' =>
        s' = s ∨ s' = s.forget c name := fun _ => .throw hinv'
    match r with
    | .ok ()             => exact .ret hinv' ⟨hinv', fun _ _ => hs'⟩
    | .error (.own text) =>
      apply Keeps.bind (keeps_snapshots hinv')
      rintro left s' - ⟨rfl, -⟩
      apply Keeps.mono (keeps_refuse hinv')
      rintro - _ ⟨rfl, -⟩
      exact hs'
    | .error .keyError | .error .typeError | .error .valueError | .error .osError
    | .error .overflowError => exact hraised _
  apply Keeps.bind hforget
  rintro - s' hinv' hs'
  apply Keeps.bind (keeps_snapshots hinv')
  rintro left s' - ⟨rfl, hleft⟩
  apply Keeps.mono (keeps_refuse hinv')
  rintro - _ ⟨rfl, hgone⟩
  refine ⟨fun he => ?_, hs'.imp_right fun h => ⟨name, hname, h⟩⟩
  have hlisted := List.contains_iff_mem.mpr ((hleft e).mpr he)
  rw [hgone] at hlisted
  cases hlisted

end Calls

/-! ## One pair -/

/-- A valid receipt names the data snapshot. -/
theorem Receipted.snapshot (h : Receipted c s e record) :
    ∃ name, snapshotName c e false = .ok name ∧ (record.getOrNull "snapshot").asStr? = some name := by
  have hvalid := h.valid
  unfold validateReceipt at hvalid
  simp only [bind_eq_ok, refuseIf_eq_ok] at hvalid
  obtain ⟨-, -, name, hname, -, hsnapshot, -⟩ := hvalid
  refine ⟨name, hname, ?_⟩
  rw [Bool.not_eq_false'] at hsnapshot
  cases hrecord : record.getOrNull "snapshot" with
  | str text =>
      rw [hrecord] at hsnapshot
      exact congrArg some (of_decide_eq_true hsnapshot)
  | null | bool | int | float | list | dict =>
      rw [hrecord] at hsnapshot
      cases hsnapshot

section Pair

variable {inv : Server → Prop}

theorem restored_eq_ok {name : String} {held : Server → String → Except BackupExn Json} {value : Json}
    (h : restored c name held s = .ok value) : held s name = .ok value := by
  unfold restored at h
  split at h
  · exact h
  · cases h

/-- The comparison returns only where the manifest matches. -/
theorem keeps_compareManifest (hinv : inv s) (hreceipt : Receipted c s e record) :
    Keeps inv (compareManifest T c record e) s fun _ s' => s' = s ∧ Matches T c s e record := by
  obtain ⟨name, hname, hsnapshot⟩ := hreceipt.snapshot
  unfold compareManifest
  rw [hsnapshot]
  apply Keeps.bind (keeps_read hinv)
  rintro manifest s - ⟨rfl, hmanifest⟩
  have hfingerprint : Keeps inv (ExceptT.mk (.ret (manifestFingerprint T c manifest e false)) : Client String) s
      fun actual s' => s' = s ∧ manifestFingerprint T c manifest e false = .ok actual :=
    .lift hinv fun _ h => ⟨rfl, h⟩
  apply Keeps.bind hfingerprint
  rintro actual s - ⟨rfl, hactual⟩
  apply Keeps.mono (keeps_refuse hinv)
  rintro - _ ⟨rfl, hsame⟩
  exact ⟨rfl, name, manifest, actual, hname, restored_eq_ok hmanifest, hactual, by simpa using hsame⟩

/-- The removal of a selected pair keeps what a run may make of the server. -/
theorem keeps_prunePair {dataEpochs : List Int} (h : Pruned T c rows s₀ s)
    (hepochs : ∀ x, x ∈ dataEpochs ↔ x ∈ s₀.data) (hrow : ∃ row ∈ rows, Selects row e) :
    Keeps (Pruned T c rows s₀) (prunePair T c dataEpochs e) s fun _ _ => True := by
  apply Keeps.bind (keeps_name h)
  rintro proof s - ⟨rfl, hproof⟩
  apply Keeps.bind (keeps_read h)
  rintro record s - ⟨rfl, hrecord⟩
  have hvalidate : Keeps (Pruned T c rows s₀) (ExceptT.mk (.ret (validateReceipt c record e)) : Client Unit) s
      fun _ s' => s' = s ∧ validateReceipt c record e = .ok () := .lift h fun _ hvalid => ⟨rfl, hvalid⟩
  apply Keeps.bind hvalidate
  rintro - s - ⟨rfl, hvalid⟩
  have hreceipt : Receipted c s e record := ⟨⟨proof, hproof, restored_eq_ok hrecord⟩, hvalid⟩
  have hlast : ∀ s', Pruned T c rows s₀ s' → e ∉ s'.data →
      Keeps (Pruned T c rows s₀) (forgetConfirmed c e true) s' fun _ _ => True := by
    intro s' h' hgone
    exact Keeps.mono (keeps_forgetConfirmed h' fun name hname => h'.forget_proof hname hrow hgone)
      fun _ _ _ => trivial
  by_cases hdata : dataEpochs.contains e = true
  · rw [if_pos hdata]
    apply Keeps.bind (keeps_compareManifest h hreceipt)
    rintro - s - ⟨rfl, hmatch⟩
    have hreceipt₀ : Receipted c s₀ e record := by
      obtain ⟨⟨name, hname, hheld⟩, hvalid⟩ := hreceipt
      exact ⟨⟨name, hname, h.receipt ▸ hheld⟩, hvalid⟩
    have hmatch₀ : Matches T c s₀ e record := by
      obtain ⟨name, manifest, fingerprint, hname, hindex, hrest⟩ := hmatch
      exact ⟨name, manifest, fingerprint, hname, h.index ▸ hindex, hrest⟩
    apply Keeps.bind (keeps_forgetConfirmed h fun name hname => h.forget_data hname hrow hreceipt₀ hmatch₀)
    rintro - s' h' ⟨hgone, -⟩
    exact hlast s' h' hgone
  · rw [if_neg hdata]
    apply hlast s h
    intro hthere
    exact hdata (List.contains_iff_mem.mpr ((hepochs e).mpr (h.shrinks false e hthere)))

/-- The rows keep it, one by one. -/
theorem keeps_pruneRows {dataEpochs : List Int} (hepochs : ∀ x, x ∈ dataEpochs ↔ x ∈ s₀.data)
    {left : List Json} (hleft : ∀ row ∈ left, row ∈ rows) (h : Pruned T c rows s₀ s) :
    Keeps (Pruned T c rows s₀) (pruneRows T c dataEpochs left) s fun _ _ => True := by
  induction left generalizing s with
  | nil => exact .pure h trivial
  | cons row left ih =>
      have hrest := fun s h => @ih s (fun row hrow => hleft row (List.mem_cons_of_mem _ hrow)) h
      unfold pruneRows
      split
      · exact hrest s h
      · split
        · next hkeep hepoch =>
          have hrow : ∃ row ∈ rows, Selects row _ := ⟨row, hleft row List.mem_cons_self, hkeep, hepoch⟩
          apply Keeps.bind (keeps_prunePair h hepochs hrow)
          rintro - s' h' -
          exact hrest s' h'
        · exact .throw h

theorem checkPreview_rows (h : checkPreview c v preview = .ok rows) : preview = .list rows := by
  unfold checkPreview at h
  split at h
  · simp only [bind_eq_ok, refuseIf_eq_ok] at h
    obtain ⟨-, -, -, -, -, -, h⟩ := h
    exact congrArg Json.list (Except.ok.inj h)
  · cases h

/-- **A run of `prune`**, killed, raised or returned, leaves what its rows justify. -/
theorem keeps_prune {left : List Json} (hpreview : preview = .list left) (s : Server) :
    Keeps (Pruned T c left s) (prune T c preview v) s fun _ _ => True := by
  apply Keeps.bind (keeps_read (.start left s))
  rintro rows s' - ⟨rfl, hrows⟩
  have hlist := checkPreview_rows hrows
  obtain rfl := Json.list.inj (hpreview.symm.trans hlist)
  apply Keeps.bind (keeps_snapshots (.start left s'))
  rintro dataEpochs s - ⟨rfl, hepochs⟩
  exact keeps_pruneRows hepochs (fun _ h => h) (.start left s)

end Pair

end Retention
end Backup
end PickleInfra
