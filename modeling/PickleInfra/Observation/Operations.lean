import Mathlib.Data.List.Dedup
import PickleInfra.Observation.Files

/-!
# `Observation.Operations` — when the operations of the store return, and with what

One equivalence for every operation on a tidy store: what it returns and what it does to the directory, in
terms of the map of keys to contents.
-/

namespace PickleInfra
namespace Observation

open Python

variable {T : FloatText}

/-! ## Documents -/

theorem encoded_eq_ok {value : Json} {payload : ByteArray} :
    encoded T value = .ok payload ↔ value.isDict = true ∧ Canonical.dumps T value = some payload := by
  unfold encoded
  cases value.isDict with
  | false =>
      rw [if_neg Bool.false_ne_true]
      constructor
      · intro h
        cases h
      · rintro ⟨h, -⟩
        cases h
  | true =>
      rw [if_pos rfl]
      cases Canonical.dumps T value with
      | none =>
          constructor
          · intro h
            cases h
          · rintro ⟨-, h⟩
            cases h
      | some p =>
          dsimp only
          rw [Except.ok.injEq, Option.some.injEq]
          exact ⟨fun h => ⟨rfl, h⟩, fun h => h.2⟩

theorem decoded_eq_ok {payload : ByteArray} {value : Json} :
    decoded T payload = .ok value ↔ Canonical.parse T payload = some value ∧ value.isDict = true := by
  unfold decoded
  cases Canonical.parse T payload with
  | none =>
      constructor
      · intro h
        cases h
      · rintro ⟨h, -⟩
        cases h
  | some v =>
      dsimp only
      cases hdict : v.isDict with
      | false =>
          rw [if_neg Bool.false_ne_true]
          constructor
          · intro h
            cases h
          · rintro ⟨h, hv⟩
            cases h
            rw [hdict] at hv
            cases hv
      | true =>
          rw [if_pos rfl, Except.ok.injEq, Option.some.injEq]
          constructor
          · rintro rfl
            exact ⟨rfl, hdict⟩
          · exact fun h => h.1

theorem valid_of_decoded {payload : ByteArray} {value : Json} (h : decoded T payload = .ok value) :
    JsonText.Valid T value := Canonical.valid_of_parse (decoded_eq_ok.mp h).1

theorem encoded_of_valid {value : Json} (h : JsonText.Valid T value) (hdict : value.isDict = true) :
    encoded T value = .ok (Canonical.bytes T value) :=
  encoded_eq_ok.mpr ⟨hdict, Canonical.dumps_of_valid h⟩

/-- The bytes are those of a document in canonical form. -/
def Coded (T : FloatText) (payload : ByteArray) : Prop :=
  ∃ value, decoded T payload = .ok value ∧ encoded T value = .ok payload

theorem decoded_bytes {value : Json} (h : JsonText.Valid T value) (hdict : value.isDict = true) :
    decoded T (Canonical.bytes T value) = .ok value.sorted :=
  decoded_eq_ok.mpr ⟨Canonical.parse_bytes h, by rw [Json.isDict_sorted, hdict]⟩

theorem encoded_sorted {value : Json} (h : JsonText.Valid T value) (hdict : value.isDict = true) :
    encoded T value.sorted = .ok (Canonical.bytes T value) := by
  rw [encoded_of_valid (Canonical.valid_sorted value h) (by rw [Json.isDict_sorted, hdict]),
    Canonical.bytes_sorted]

/-- What was encoded is decoded, with its keys sorted, and encoded to the same bytes. -/
theorem decoded_encoded {value : Json} {payload : ByteArray} (hheld : Canonical.Held T value)
    (h : encoded T value = .ok payload) :
    decoded T payload = .ok value.sorted ∧ encoded T value.sorted = .ok payload := by
  obtain ⟨hdict, hdumps⟩ := encoded_eq_ok.mp h
  unfold Canonical.dumps at hdumps
  split at hdumps
  · next hprint =>
    have hvalid := Canonical.valid_of_held value hheld hprint
    cases hdumps
    exact ⟨decoded_bytes hvalid hdict, encoded_sorted hvalid hdict⟩
  · cases hdumps

/-! ## Keys -/

theorem Key.of?_eq_some {epoch sequence : Json} {k : Key} :
    Key.of? epoch sequence = some k ↔ epoch = .str k.epoch ∧ sequence = .int k.sequence := by
  constructor
  · intro h
    unfold Key.of? at h
    split at h
    · next e n =>
      split at h
      · next hkey =>
        rw [← Option.some.inj h]
        refine ⟨rfl, ?_⟩
        show Json.int n = Json.int n.toNat
        rw [Int.toNat_of_nonneg hkey.2.1]
      · cases h
    · cases h
  · rintro ⟨rfl, rfl⟩
    have hle := k.sequence_le
    unfold Key.of?
    dsimp only
    rw [dif_pos ⟨k.epoch_uuid, Int.natCast_nonneg _, Int.ofNat_le.mpr hle⟩]
    exact congrArg some (Key.ext rfl (Int.toNat_natCast _))

theorem Key.of?_self (k : Key) : Key.of? (.str k.epoch) (.int k.sequence) = some k :=
  Key.of?_eq_some.mpr ⟨rfl, rfl⟩

theorem recordName_eq_ok {epoch sequence : Json} {name : String} :
    recordName epoch sequence = .ok name ↔ ∃ k, Key.of? epoch sequence = some k ∧ name = k.name := by
  unfold recordName
  cases Key.of? epoch sequence with
  | none =>
      constructor
      · intro h
        cases h
      · rintro ⟨k, h, -⟩
        cases h
  | some k =>
      dsimp only
      rw [Except.ok.injEq]
      constructor
      · rintro rfl
        exact ⟨k, rfl, rfl⟩
      · rintro ⟨k', hk, rfl⟩
        cases hk
        rfl

theorem written_eq_ok {α : Type} {s : Session} {result r : α} {effect e : Effect} :
    written s result effect = .ok (r, e) ↔ s.readOnly = false ∧ r = result ∧ e = effect := by
  unfold written
  rw [bind_eq_ok]
  constructor
  · rintro ⟨_, hread, h⟩
    cases h
    exact ⟨raiseIf_eq_ok.mp hread, rfl, rfl⟩
  · rintro ⟨hread, rfl, rfl⟩
    exact ⟨(), raiseIf_eq_ok.mpr hread, rfl⟩

/-! ## The operations -/

variable {s : Session} {files : Files}

/-- There is room for one more record of the size. -/
structure Room (limits : Limits) (files : Files) (size : Nat) : Prop where
  samples : (records files).length < limits.maxSamples
  bytes : ((records files).map (fun r => r.2.size)).sum + size ≤ limits.maxBytes

theorem totalSize_sorted (files : Files) :
    totalSize ((sortedRecords files).map rowFor) = ((records files).map (fun r => r.2.size)).sum := by
  unfold totalSize
  rw [List.map_map]
  exact ((perm_sortedRecords files).map _).sum_nat

theorem length_sorted (files : Files) : ((sortedRecords files).map rowFor).length = (records files).length := by
  rw [List.length_map]
  exact (perm_sortedRecords files).length_eq

/-- **`put` returns** `False` for a record that is there already, and `True` for one it adds. -/
theorem put_eq_ok (h : Tidy files) {epoch sequence document : Json} {result : Bool} {effect : Effect} :
    put T s (shown files) epoch sequence document = .ok (result, effect) ↔
      ∃ k payload, Key.of? epoch sequence = some k ∧ encoded T document = .ok payload ∧
        payload.size ≤ s.limits.maxSampleBytes ∧
        ((result = false ∧ effect = .nothing ∧ stored files k = some payload) ∨
          (result = true ∧ effect = .link k.name payload ∧ stored files k = none ∧
            Within s.limits (records files) ∧ Room s.limits files payload.size ∧ s.readOnly = false)) := by
  unfold put
  constructor
  · intro hput
    simp only [bind_eq_ok, recordName_eq_ok, raiseIf_eq_ok, decide_eq_false_iff_not, not_lt, read_eq_ok,
      exists_const] at hput
    obtain ⟨_, ⟨k, hk, rfl⟩, payload, hpayload, hsize, found, ⟨hfound, -⟩, hrest⟩ := hput
    refine ⟨k, payload, hk, hpayload, hsize, ?_⟩
    cases found with
    | some existing =>
        simp only [bind_eq_ok, raiseIf_eq_ok, decide_eq_false_iff_not, ne_eq, not_not, exists_const] at hrest
        obtain ⟨hsame, hrest⟩ := hrest
        cases hrest
        exact .inl ⟨rfl, rfl, by rw [← hsame]; exact hfound.symm⟩
    | none =>
        simp only [bind_eq_ok, raiseIf_eq_ok, Bool.or_eq_false_iff, decide_eq_false_iff_not, not_le, not_lt,
          exists_const, entries_eq_ok h, written_eq_ok] at hrest
        obtain ⟨_, ⟨rfl, hwithin⟩, ⟨hsamples, hbytes⟩, hwrite, rfl, rfl⟩ := hrest
        rw [length_sorted] at hsamples
        rw [totalSize_sorted] at hbytes
        exact .inr ⟨rfl, rfl, hfound.symm, hwithin, ⟨hsamples, hbytes⟩, hwrite⟩
  · rintro ⟨k, payload, hk, hpayload, hsize, hcase⟩
    simp only [bind_eq_ok, recordName_eq_ok, raiseIf_eq_ok, decide_eq_false_iff_not, not_lt, read_eq_ok,
      exists_const]
    refine ⟨k.name, ⟨k, hk, rfl⟩, payload, hpayload, hsize, stored files k, ⟨rfl, ?_⟩, ?_⟩
    · rcases hcase with ⟨-, -, hstored⟩ | ⟨-, -, hstored, -⟩
      · intro p hp
        rw [hstored] at hp
        cases hp
        exact hsize
      · intro p hp
        rw [hstored] at hp
        cases hp
    · rcases hcase with ⟨rfl, rfl, hstored⟩ | ⟨rfl, rfl, hstored, hwithin, hroom, hwrite⟩
      · rw [hstored]
        simp only [bind_eq_ok, raiseIf_eq_ok, decide_eq_false_iff_not, ne_eq, not_not, exists_const]
        exact ⟨trivial, trivial⟩
      · rw [hstored]
        simp only [bind_eq_ok, raiseIf_eq_ok, Bool.or_eq_false_iff, decide_eq_false_iff_not, not_le, not_lt,
          exists_const, entries_eq_ok h, written_eq_ok]
        refine ⟨_, ⟨rfl, hwithin⟩, ⟨?_, ?_⟩, hwrite, trivial, trivial⟩
        · rw [length_sorted]
          exact hroom.samples
        · rw [totalSize_sorted]
          exact hroom.bytes

/-- A key that is stored with other bytes is a conflict. -/
theorem put_conflict {epoch sequence document : Json} {k : Key} {payload existing : ByteArray}
    (hk : Key.of? epoch sequence = some k) (hpayload : encoded T document = .ok payload)
    (hsize : payload.size ≤ s.limits.maxSampleBytes) (hstored : stored files k = some existing)
    (hexisting : existing.size ≤ s.limits.maxSampleBytes) (hne : existing ≠ payload) :
    put T s (shown files) epoch sequence document = .error .contentConflict := by
  have hname : recordName epoch sequence = .ok k.name := recordName_eq_ok.mpr ⟨k, hk, rfl⟩
  have hread : read (shown files) k.name s.limits.maxSampleBytes = .ok (some existing) :=
    read_eq_ok.mpr ⟨hstored.symm, fun p hp => by cases hp; exact hexisting⟩
  unfold put
  rw [hname, hpayload]
  show (do raiseIf (s.limits.maxSampleBytes < payload.size) StoreReason.sampleTooLarge; _) = _
  rw [decide_eq_false (not_lt.mpr hsize)]
  show (do let found ← read (shown files) k.name s.limits.maxSampleBytes; _) = _
  rw [hread]
  show (do raiseIf (existing ≠ payload) StoreReason.contentConflict; _) = _
  rw [decide_eq_true hne]
  rfl

/-- The records that are not excluded, in the order of their keys, up to the limit. -/
def selected (files : Files) (limit : Int) (exclude : List (String × Int)) : List (Key × ByteArray) :=
  ((sortedRecords files).filter (fun r => !exclude.contains (r.1.epoch, (r.1.sequence : Int)))).take limit.toNat

/-- A record of a key and its bytes. -/
def recordAt (T : FloatText) (r : Key × ByteArray) : Stored Record :=
  recordOf T r.1.name r.1.epoch r.1.sequence r.2

theorem mem_of_selected {limit : Int} {exclude : List (String × Int)} {r : Key × ByteArray}
    (h : r ∈ selected files limit exclude) :
    stored files r.1 = some r.2 ∧ (r.1.epoch, (r.1.sequence : Int)) ∉ exclude := by
  have hfilter := List.mem_filter.mp (List.mem_of_mem_take h)
  refine ⟨mem_records.mp ((perm_sortedRecords files).mem_iff.mp hfilter.1), ?_⟩
  intro hmem
  have hcontains := List.contains_iff_mem.mpr hmem
  rw [hcontains] at hfilter
  exact absurd hfilter.2 (by decide)

theorem pendingRecord_eq {r : Key × ByteArray} (hstored : stored files r.1 = some r.2)
    (hsize : r.2.size ≤ s.limits.maxSampleBytes) :
    pendingRecord T s (shown files) (rowFor r) = recordAt T r := by
  have hread : read (shown files) (rowFor r).name s.limits.maxSampleBytes = .ok (some r.2) :=
    read_eq_ok.mpr ⟨hstored.symm, fun p hp => by cases hp; exact hsize⟩
  unfold pendingRecord
  rw [hread]
  rfl

/-- The rows that are selected are those of the records that are. -/
theorem selected_rows (files : Files) (limit : Int) (exclude : List (String × Int)) :
    (((sortedRecords files).map rowFor).filter
        (fun row => !exclude.dedup.contains (row.epoch, (row.sequence : Int)))).take limit.toNat
      = (selected files limit exclude).map rowFor := by
  have hcontains : ∀ key : String × Int, exclude.dedup.contains key = exclude.contains key := by
    intro key
    rw [Bool.eq_iff_iff, List.contains_iff_mem, List.contains_iff_mem, List.mem_dedup]
  unfold selected
  rw [List.filter_map, List.map_take]
  simp only [hcontains]
  rfl

/-- **`pending` returns** the records of the selected keys. -/
theorem pending_eq_ok (h : Tidy files) {limit : Int} {exclude : List (String × Int)} {rs : List Record} :
    pending T s (shown files) limit exclude = .ok rs ↔
      (1 ≤ limit ∧ limit ≤ 256) ∧ exclude.dedup.length ≤ 64 ∧
        (∀ key ∈ exclude, ∃ k, Key.of? (.str key.1) (.int key.2) = some k) ∧
        Within s.limits (records files) ∧
        List.Forall₂ (fun r record => recordAt T r = .ok record) (selected files limit exclude) rs := by
  -- Reading a selected record gives its bytes, since it is within the limits.
  have hread : Within s.limits (records files) →
      ((selected files limit exclude).map rowFor).mapM (pendingRecord T s (shown files))
        = (selected files limit exclude).mapM (recordAt T) := by
    intro hwithin
    have hrecords : ∀ r ∈ selected files limit exclude,
        pendingRecord T s (shown files) (rowFor r) = recordAt T r := by
      intro r hr
      have hstored := (mem_of_selected hr).1
      exact pendingRecord_eq hstored (hwithin.sample r (mem_records.mpr hstored))
    generalize selected files limit exclude = sel at hrecords ⊢
    induction sel with
    | nil => rfl
    | cons r rest ih =>
        rw [List.forall_mem_cons] at hrecords
        rw [List.map_cons, List.mapM_cons, List.mapM_cons, hrecords.1, ih hrecords.2]
  have hnames : (∃ names, exclude.dedup.mapM (fun key => recordName (.str key.1) (.int key.2)) = .ok names) ↔
      ∀ key ∈ exclude, ∃ k, Key.of? (.str key.1) (.int key.2) = some k := by
    rw [mapM_returns]
    constructor
    · intro hall key hkey
      obtain ⟨name, hname⟩ := hall key (List.mem_dedup.mpr hkey)
      obtain ⟨k, hk, -⟩ := recordName_eq_ok.mp hname
      exact ⟨k, hk⟩
    · intro hall key hkey
      obtain ⟨k, hk⟩ := hall key (List.mem_dedup.mp hkey)
      exact ⟨k.name, recordName_eq_ok.mpr ⟨k, hk, rfl⟩⟩
  unfold pending
  simp only [bind_eq_ok, raiseIf_eq_ok, exists_const, entries_eq_ok h, Bool.not_eq_false',
    Bool.and_eq_true, decide_eq_true_eq, decide_eq_false_iff_not, not_lt]
  constructor
  · rintro ⟨hlimit, hlen, names, hn, _, ⟨rfl, hwithin⟩, hrs⟩
    rw [selected_rows, hread hwithin, mapM_eq_ok] at hrs
    exact ⟨hlimit, hlen, hnames.mp ⟨names, hn⟩, hwithin, hrs⟩
  · rintro ⟨hlimit, hlen, hkeys, hwithin, hrs⟩
    obtain ⟨names, hn⟩ := hnames.mpr hkeys
    refine ⟨hlimit, hlen, names, hn, _, ⟨rfl, hwithin⟩, ?_⟩
    rw [selected_rows, hread hwithin, mapM_eq_ok]
    exact hrs

/-- What `stats` counts. -/
theorem stats_eq_ok (h : Tidy files) {r : Nat × Nat} : stats s (shown files) = .ok r ↔
    r = ((records files).length, ((records files).map (fun r => r.2.size)).sum) ∧
      Within s.limits (records files) := by
  unfold stats
  simp only [bind_eq_ok, entries_eq_ok h]
  constructor
  · rintro ⟨_, ⟨rfl, hwithin⟩, hr⟩
    rw [length_sorted, totalSize_sorted] at hr
    cases hr
    exact ⟨rfl, hwithin⟩
  · rintro ⟨rfl, hwithin⟩
    refine ⟨_, ⟨rfl, hwithin⟩, ?_⟩
    rw [length_sorted, totalSize_sorted]

/-- **`get` returns** the record of the key, if there is one. -/
theorem get_eq_ok {epoch sequence : Json} {r : Option Record} :
    get T s (shown files) epoch sequence = .ok r ↔
      ∃ k, Key.of? epoch sequence = some k ∧
        ((stored files k = none ∧ r = none) ∨
          ∃ payload record, stored files k = some payload ∧ payload.size ≤ s.limits.maxSampleBytes ∧
            recordOf T k.name k.epoch k.sequence payload = .ok record ∧ r = some record) := by
  unfold get
  cases hk : Key.of? epoch sequence with
  | none =>
      constructor
      · intro h
        cases h
      · rintro ⟨k, hk', -⟩
        cases hk'
  | some k =>
      simp only [bind_eq_ok, read_eq_ok]
      constructor
      · rintro ⟨found, ⟨hfound, hsize⟩, hrest⟩
        refine ⟨k, rfl, ?_⟩
        cases found with
        | none =>
            cases hrest
            exact .inl ⟨hfound.symm, rfl⟩
        | some payload =>
            dsimp only at hrest
            cases hrecord : recordOf T k.name k.epoch k.sequence payload with
            | error e => rw [hrecord] at hrest; cases hrest
            | ok record =>
                rw [hrecord] at hrest
                cases hrest
                exact .inr ⟨payload, record, hfound.symm, hsize payload rfl, hrecord, rfl⟩
      · rintro ⟨k', hk', hcase⟩
        cases hk'
        rcases hcase with ⟨hstored, rfl⟩ | ⟨payload, record, hstored, hsize, hrecord, rfl⟩
        · exact ⟨none, ⟨hstored.symm, fun p hp => by cases hp⟩, rfl⟩
        · refine ⟨some payload, ⟨hstored.symm, fun p hp => by cases hp; exact hsize⟩, ?_⟩
          dsimp only
          rw [hrecord]
          rfl

/-- **`ack` removes** the record whose bytes have the digest, and nothing else. -/
theorem ack_eq_ok {record : Record} {result : Bool} {effect : Effect} :
    ack s (shown files) record = .ok (result, effect) ↔
      s.readOnly = false ∧ ∃ k, Key.of? (.str record.epoch) (.int record.sequence) = some k ∧
        record.name = k.name ∧
        ((stored files k = none ∧ result = false ∧ effect = .nothing) ∨
          ∃ payload, stored files k = some payload ∧ payload.size ≤ s.limits.maxSampleBytes ∧
            Sha256.hexdigest payload = record.sha256 ∧ result = true ∧ effect = .unlink k.name) := by
  unfold ack
  constructor
  · intro hack
    simp only [bind_eq_ok, recordName_eq_ok, raiseIf_eq_ok, decide_eq_false_iff_not, ne_eq, not_not,
      read_eq_ok, exists_const] at hack
    obtain ⟨hwrite, _, ⟨k, hk, rfl⟩, hname, found, ⟨hfound, hsize⟩, hrest⟩ := hack
    refine ⟨hwrite, k, hk, hname, ?_⟩
    rw [hname] at hfound
    cases found with
    | none =>
        cases hrest
        exact .inl ⟨hfound.symm, rfl, rfl⟩
    | some payload =>
        simp only [bind_eq_ok, raiseIf_eq_ok, decide_eq_false_iff_not, not_not, exists_const] at hrest
        obtain ⟨hdigest, hrest⟩ := hrest
        cases hrest
        exact .inr ⟨payload, hfound.symm, hsize payload rfl, hdigest, rfl, by rw [hname]⟩
  · rintro ⟨hwrite, k, hk, hname, hcase⟩
    simp only [bind_eq_ok, recordName_eq_ok, raiseIf_eq_ok, decide_eq_false_iff_not, ne_eq, not_not,
      read_eq_ok, exists_const]
    refine ⟨hwrite, k.name, ⟨k, hk, rfl⟩, hname, ?_⟩
    rw [hname]
    rcases hcase with ⟨hstored, rfl, rfl⟩ | ⟨payload, hstored, hsize, hdigest, rfl, rfl⟩
    · exact ⟨none, ⟨hstored.symm, fun p hp => by cases hp⟩, rfl⟩
    · refine ⟨some payload, ⟨hstored.symm, fun p hp => by cases hp; exact hsize⟩, ?_⟩
      simp only [bind_eq_ok, raiseIf_eq_ok, decide_eq_false_iff_not, not_not, exists_const]
      exact ⟨hdigest, trivial⟩

/-- **`load_control` returns** what the file decodes to, if there is one. -/
theorem loadControl_eq_ok {name : String} {r : Option Json} :
    loadControl T s (shown files) name = .ok r ↔ name ∈ CONTROLS ∧
      ((files.get? name = none ∧ r = none) ∨
        ∃ payload value, files.get? name = some payload ∧ payload.size ≤ controlLimit s.limits name ∧
          decoded T payload = .ok value ∧ r = some value) := by
  unfold loadControl
  simp only [bind_eq_ok, raiseIf_eq_ok, Bool.not_eq_false', List.contains_iff_mem, read_eq_ok,
    exists_const]
  refine and_congr_right fun _ => ?_
  constructor
  · rintro ⟨found, ⟨hfound, hsize⟩, hrest⟩
    cases found with
    | none =>
        cases hrest
        exact .inl ⟨hfound.symm, rfl⟩
    | some payload =>
        dsimp only at hrest
        cases hvalue : decoded T payload with
        | error e => rw [hvalue] at hrest; cases hrest
        | ok value =>
            rw [hvalue] at hrest
            cases hrest
            exact .inr ⟨payload, value, hfound.symm, hsize payload rfl, hvalue, rfl⟩
  · rintro (⟨hnone, rfl⟩ | ⟨payload, value, hsome, hsize, hvalue, rfl⟩)
    · exact ⟨none, ⟨hnone.symm, fun p hp => by cases hp⟩, rfl⟩
    · refine ⟨some payload, ⟨hsome.symm, fun p hp => by cases hp; exact hsize⟩, ?_⟩
      dsimp only
      rw [hvalue]
      rfl

/-- **`save_control` replaces** the control with the bytes of the value. -/
theorem saveControl_eq_ok {name : String} {value : Json} {u : Unit} {effect : Effect} :
    saveControl T s (shown files) name value = .ok (u, effect) ↔ name ∈ CONTROLS ∧
      ∃ payload, encoded T value = .ok payload ∧ payload.size ≤ controlLimit s.limits name ∧
        (∀ old, files.get? name = some old → old.size ≤ controlLimit s.limits name) ∧
        s.readOnly = false ∧ effect = .replace name payload := by
  unfold saveControl
  simp only [bind_eq_ok, raiseIf_eq_ok, Bool.not_eq_false', List.contains_iff_mem, read_eq_ok,
    exists_const, decide_eq_false_iff_not, not_lt, written_eq_ok]
  refine and_congr_right fun _ => ?_
  constructor
  · rintro ⟨payload, hpayload, hsize, found, ⟨hfound, hold⟩, hwrite, -, rfl⟩
    exact ⟨payload, hpayload, hsize, fun old hget => hold old (hfound.trans hget), hwrite, rfl⟩
  · rintro ⟨payload, hpayload, hsize, hold, hwrite, rfl⟩
    exact ⟨payload, hpayload, hsize, _, ⟨rfl, hold⟩, hwrite, trivial, rfl⟩

end Observation
end PickleInfra
