import PickleInfra.Observation.Store
import Mathlib.Data.Prod.Lex

/-!
# `Observation.Files` — the store as a map of names to contents

Where every file has one name, a directory is a dictionary of contents, and it shows that. The records in
it are the files whose names are names of keys. Every operation is described by what it finds in the
dictionary: `entries` returns exactly when the records are within the limits, and then their rows in the
order of their keys.
-/

namespace PickleInfra
namespace Observation

open Python

/-- A directory whose files have one name each. -/
abbrev Files := Dict String ByteArray

/-- What it shows. -/
def shown (files : Files) : Listing := files.entries.map (fun e => ⟨e.1, 1, e.2⟩)

/-- An effect that was carried out. -/
def Effect.apply : Effect → Files → Files
  | .nothing, files              => files
  | .link name payload, files    => files.set name payload
  | .replace name payload, files => files.set name payload
  | .unlink name, files          => files.erase name

/-- The names of the store: the lock, the controls and the records. -/
def Vocabulary (name : String) : Prop := name = lockName ∨ name ∈ CONTROLS ∨ ∃ k : Key, name = k.name

/-- Only names of the store occur. -/
def Tidy (files : Files) : Prop := ∀ e ∈ files.entries, Vocabulary e.1

/-! ## Names -/

theorem RECORD_of_vocabulary : RECORD lockName = none ∧ ∀ name ∈ CONTROLS, RECORD name = none := by
  decide +kernel

theorem name_ne_lock (k : Key) : k.name ≠ lockName := by
  intro h
  have hr := k.RECORD_name
  rw [h, RECORD_of_vocabulary.1] at hr
  cases hr

theorem name_not_control (k : Key) : k.name ∉ CONTROLS := by
  intro h
  have hr := k.RECORD_name
  rw [RECORD_of_vocabulary.2 _ h] at hr
  cases hr

theorem name_ne_control (k : Key) {name : String} (h : name ∈ CONTROLS) : k.name ≠ name := by
  rintro rfl
  exact name_not_control k h

theorem lock_not_control : lockName ∉ CONTROLS := by decide

theorem Tidy.set {files : Files} (h : Tidy files) {name : String} (hname : Vocabulary name)
    (payload : ByteArray) : Tidy (files.set name payload) := by
  intro e he
  rcases Dict.mem_entries_set he with rfl | he
  · exact hname
  · exact h e he

theorem Tidy.erase {files : Files} (h : Tidy files) (name : String) : Tidy (files.erase name) := by
  intro e he
  exact h e (Dict.mem_entries_erase.mp he).1

/-! ## Records -/

/-- The records of a list of files. -/
def recordsIn (es : List (String × ByteArray)) : List (Key × ByteArray) :=
  es.filterMap (fun e => (Key.parse e.1).map (fun k => (k, e.2)))

/-- The records of the store. -/
def records (files : Files) : List (Key × ByteArray) := recordsIn files.entries

/-- What the store has under a key. -/
def stored (files : Files) (k : Key) : Option ByteArray := files.get? k.name

theorem mem_recordsIn {es : List (String × ByteArray)} {k : Key} {p : ByteArray} :
    (k, p) ∈ recordsIn es ↔ (k.name, p) ∈ es := by
  unfold recordsIn
  rw [List.mem_filterMap]
  constructor
  · rintro ⟨⟨name, q⟩, he, hparse⟩
    rw [Option.map_eq_some_iff] at hparse
    obtain ⟨k', hk, heq⟩ := hparse
    cases heq
    rw [Key.name_of_parse hk]
    exact he
  · intro he
    refine ⟨_, he, ?_⟩
    rw [Key.parse_name]
    rfl

theorem mem_records {files : Files} {k : Key} {p : ByteArray} :
    (k, p) ∈ records files ↔ stored files k = some p := by
  unfold records stored
  rw [mem_recordsIn, Dict.get?_eq_some_iff]

/-- The keys of the records are distinct, as the names are. -/
theorem nodup_recordsIn {es : List (String × ByteArray)} (h : (es.map Prod.fst).Nodup) :
    ((recordsIn es).map Prod.fst).Nodup := by
  induction es with
  | nil => exact List.nodup_nil
  | cons e es ih =>
      rw [List.map_cons, List.nodup_cons] at h
      unfold recordsIn at ih ⊢
      rw [List.filterMap_cons]
      cases hk : Key.parse e.1 with
      | none => exact ih h.2
      | some k =>
          show ((k, e.2) :: _ |>.map Prod.fst).Nodup
          rw [List.map_cons, List.nodup_cons]
          refine ⟨?_, ih h.2⟩
          intro hmem
          obtain ⟨⟨k', p⟩, hp, heq⟩ := List.mem_map.mp hmem
          have heq' : k' = k := heq
          have hin : (k.name, p) ∈ es := mem_recordsIn.mp (heq' ▸ hp)
          rw [Key.name_of_parse hk] at hin
          exact h.1 (List.mem_map.mpr ⟨_, hin, rfl⟩)

theorem nodup_records (files : Files) : ((records files).map Prod.fst).Nodup := nodup_recordsIn files.nodup

/-- The row of a record. -/
def rowFor (r : Key × ByteArray) : Row :=
  { name := r.1.name, epoch := r.1.epoch, sequence := r.1.sequence, size := r.2.size }

/-- The records are within the limits. -/
structure Within (limits : Limits) (rs : List (Key × ByteArray)) : Prop where
  sample : ∀ r ∈ rs, r.2.size ≤ limits.maxSampleBytes
  samples : rs.length ≤ limits.maxSamples
  bytes : (rs.map (fun r => r.2.size)).sum ≤ limits.maxBytes

/-! ## Reading -/

theorem find?_shown (es : List (String × ByteArray)) (name : String) :
    (es.map (fun e => (⟨e.1, 1, e.2⟩ : Entry))).find? (fun e => e.name = name)
      = (Dict.lookup name es).map (fun p => ⟨name, 1, p⟩) := by
  induction es with
  | nil => rfl
  | cons e es ih =>
      rw [List.map_cons, Dict.lookup]
      by_cases h : e.1 = name
      · rw [List.find?_cons_of_pos (by simp [h]), if_pos h, Option.map_some, h]
      · rw [List.find?_cons_of_neg (by simp [h]), if_neg h, ih]

theorem read_shown (files : Files) (name : String) (limit : Nat) :
    read (shown files) name limit = match files.get? name with
      | none         => .ok none
      | some payload => if limit < payload.size then .error .fileTooLarge else .ok (some payload) := by
  unfold read shown
  rw [find?_shown]
  show _ = match Dict.lookup name files.entries with | none => _ | some payload => _
  cases Dict.lookup name files.entries with
  | none => rfl
  | some payload =>
      by_cases h : limit < payload.size
      · simp [private_, raiseIf, h, bind, Except.bind]
      · simp [private_, raiseIf, h, bind, Except.bind]

theorem read_eq_ok {files : Files} {name : String} {limit : Nat} {r : Option ByteArray} :
    read (shown files) name limit = .ok r ↔ r = files.get? name ∧ ∀ p, r = some p → p.size ≤ limit := by
  rw [read_shown]
  cases files.get? name with
  | none =>
      constructor
      · intro h
        cases h
        exact ⟨rfl, fun p hp => nomatch hp⟩
      · rintro ⟨rfl, -⟩
        rfl
  | some payload =>
      dsimp only
      by_cases hsize : limit < payload.size
      · rw [if_pos hsize]
        constructor
        · intro h
          cases h
        · rintro ⟨rfl, h⟩
          exact absurd (h payload rfl) (not_le.mpr hsize)
      · rw [if_neg hsize]
        constructor
        · intro h
          cases h
          exact ⟨rfl, fun p hp => by cases hp; exact not_lt.mp hsize⟩
        · rintro ⟨rfl, -⟩
          rfl

/-! ## `_entries` -/

theorem rowOf_lock (limits : Limits) (p : ByteArray) : rowOf limits ⟨lockName, 1, p⟩ = .ok none := by
  unfold rowOf
  rw [if_pos rfl]

theorem rowOf_control (limits : Limits) {name : String} (h : name ∈ CONTROLS) (p : ByteArray) :
    rowOf limits ⟨name, 1, p⟩ = .ok none := by
  have hlock : name ≠ lockName := by
    rintro rfl
    exact lock_not_control h
  unfold rowOf
  rw [if_neg hlock, if_pos (List.contains_iff_mem.mpr h)]
  rfl

theorem rowOf_record (limits : Limits) (k : Key) (p : ByteArray) :
    rowOf limits ⟨k.name, 1, p⟩ =
      if limits.maxSampleBytes < p.size then .error .fileTooLarge else .ok (some (rowFor (k, p))) := by
  have hcontrol : CONTROLS.contains k.name = false := by
    rw [← Bool.not_eq_true, List.contains_iff_mem]
    exact name_not_control k
  have hsequence : ¬ MAX_SEQUENCE < digitsValue (zfill 16 k.sequence) := by
    rw [digitsValue_zfill]
    exact not_lt.mpr k.sequence_le
  unfold rowOf
  dsimp only
  rw [if_neg (name_ne_lock k), hcontrol, if_neg Bool.false_ne_true, k.RECORD_name]
  dsimp only
  rw [decide_eq_false hsequence, k.epoch_of_name, digitsValue_zfill]
  by_cases hsize : limits.maxSampleBytes < p.size
  · rw [if_pos hsize, decide_eq_true hsize]
    rfl
  · rw [if_neg hsize, decide_eq_false hsize]
    rfl

theorem scan_cons (limits : Limits) (acc : List Row) (e : Entry) (es : Listing) :
    scan limits acc (e :: es) = match rowOf limits e with
      | .error r       => .error r
      | .ok none       => scan limits acc es
      | .ok (some row) =>
        if limits.maxSamples < (acc ++ [row]).length then .error .storeFull
        else scan limits (acc ++ [row]) es := by
  rw [scan]
  cases rowOf limits e with
  | error r => rfl
  | ok found =>
      cases found with
      | none => rfl
      | some row =>
          show (do raiseIf (limits.maxSamples < (acc ++ [row]).length) StoreReason.storeFull
                   scan limits (acc ++ [row]) es) = if _ then _ else _
          by_cases h : limits.maxSamples < (acc ++ [row]).length
          · rw [if_pos h, decide_eq_true h]
            rfl
          · rw [if_neg h, decide_eq_false h]
            rfl

/-- Only the name of a record can be taken apart. -/
theorem parse_of_RECORD {name : String} (h : RECORD name = none) : Key.parse name = none := by
  cases hk : Key.parse name with
  | none => rfl
  | some k =>
      rw [← Key.name_of_parse hk, k.RECORD_name] at h
      cases h

theorem recordsIn_skip {name : String} (h : RECORD name = none) (p : ByteArray)
    (es : List (String × ByteArray)) : recordsIn ((name, p) :: es) = recordsIn es := by
  unfold recordsIn
  rw [List.filterMap_cons, parse_of_RECORD h]
  rfl

theorem recordsIn_record (k : Key) (p : ByteArray) (es : List (String × ByteArray)) :
    recordsIn ((k.name, p) :: es) = (k, p) :: recordsIn es := by
  unfold recordsIn
  rw [List.filterMap_cons, Key.parse_name]
  rfl

/-- The rows that the loop collects, when it returns: a lock or a control adds none, a record its own. -/
theorem scan_eq_ok {limits : Limits} {es : List (String × ByteArray)} (h : ∀ e ∈ es, Vocabulary e.1)
    {acc rows : List Row} (hacc : acc.length ≤ limits.maxSamples) :
    scan limits acc (es.map (fun e => ⟨e.1, 1, e.2⟩)) = .ok rows ↔
      rows = acc ++ (recordsIn es).map rowFor ∧ (∀ r ∈ recordsIn es, r.2.size ≤ limits.maxSampleBytes) ∧
        rows.length ≤ limits.maxSamples := by
  induction es generalizing acc with
  | nil =>
      show Except.ok acc = .ok rows ↔ _
      constructor
      · intro heq
        cases heq
        exact ⟨(List.append_nil _).symm, fun r hr => absurd hr List.not_mem_nil, hacc⟩
      · rintro ⟨rfl, -, -⟩
        rw [show recordsIn [] = [] from rfl, List.map_nil, List.append_nil]
  | cons e es ih =>
      obtain ⟨name, p⟩ := e
      rw [List.forall_mem_cons] at h
      obtain ⟨hname, hes⟩ := h
      rw [List.map_cons, scan_cons]
      dsimp only
      rcases hname with hlock | hcontrol | ⟨k, hk⟩
      · have hlock' : name = lockName := hlock
        subst hlock'
        rw [rowOf_lock, recordsIn_skip RECORD_of_vocabulary.1]
        exact ih hes hacc
      · rw [rowOf_control limits hcontrol, recordsIn_skip (RECORD_of_vocabulary.2 name hcontrol)]
        exact ih hes hacc
      · have hk' : name = k.name := hk
        subst hk'
        rw [recordsIn_record, List.map_cons, List.forall_mem_cons, rowOf_record]
        by_cases hsize : limits.maxSampleBytes < p.size
        · rw [if_pos hsize]
          constructor
          · intro heq
            cases heq
          · rintro ⟨-, ⟨hle, -⟩, -⟩
            exact absurd hle (not_le.mpr hsize)
        · rw [if_neg hsize]
          dsimp only
          by_cases hfull : limits.maxSamples < (acc ++ [rowFor (k, p)]).length
          · rw [if_pos hfull]
            constructor
            · intro heq
              cases heq
            · rintro ⟨rfl, -, hlen⟩
              rw [List.length_append, List.length_cons] at hlen
              rw [List.length_append, List.length_singleton] at hfull
              omega
          · rw [if_neg hfull, ih hes (not_lt.mp hfull), List.append_assoc, List.singleton_append]
            constructor
            · rintro ⟨heq, hall, hlen⟩
              exact ⟨heq, ⟨not_lt.mp hsize, hall⟩, hlen⟩
            · rintro ⟨heq, ⟨-, hall⟩, hlen⟩
              exact ⟨heq, hall, hlen⟩

/-- `(epoch, sequence)` in order. -/
def Key.le (a b : Key) : Bool := a.epoch < b.epoch || (a.epoch = b.epoch && a.sequence ≤ b.sequence)

/-- The records in the order of their keys. -/
def sortedRecords (files : Files) : List (Key × ByteArray) :=
  (records files).insertionSort (fun a b => a.1.le b.1 = true)

theorem perm_sortedRecords (files : Files) : (sortedRecords files).Perm (records files) :=
  List.perm_insertionSort _ _

theorem sortedRecords_map (files : Files) : (sortedRecords files).map rowFor =
    ((records files).map rowFor).insertionSort (fun a b => a.le b = true) :=
  List.map_insertionSort _ _ _ _ fun _ _ _ _ => Iff.rfl

/-- **`_entries` returns exactly when the records are within the limits**, with their rows in order. -/
theorem entries_eq_ok {limits : Limits} {files : Files} (h : Tidy files) {rows : List Row} :
    entries limits (shown files) = .ok rows ↔
      rows = (sortedRecords files).map rowFor ∧ Within limits (records files) := by
  have hsum : totalSize ((records files).map rowFor) = ((records files).map (fun r => r.2.size)).sum := by
    unfold totalSize
    rw [List.map_map]
    rfl
  have hscan := fun rows => @scan_eq_ok limits files.entries h [] rows (Nat.zero_le _)
  unfold entries shown
  rw [bind_eq_ok]
  constructor
  · rintro ⟨found, hfound, hrest⟩
    obtain ⟨rfl, hsample, hlen⟩ := (hscan _).mp hfound
    rw [List.nil_append] at hrest hlen
    rw [bind_eq_ok] at hrest
    obtain ⟨_, hbytes, hrows⟩ := hrest
    rw [raiseIf_eq_ok, decide_eq_false_iff_not, not_lt] at hbytes
    cases hrows
    refine ⟨(sortedRecords_map files).symm, hsample, ?_, ?_⟩
    · rwa [List.length_map] at hlen
    · rw [← hsum]
      exact hbytes
  · rintro ⟨rfl, hwithin⟩
    refine ⟨(records files).map rowFor, (hscan _).mpr ⟨rfl, hwithin.sample, ?_⟩, ?_⟩
    · rw [List.length_map]
      exact hwithin.samples
    · rw [bind_eq_ok]
      refine ⟨(), ?_, ?_⟩
      · rw [raiseIf_eq_ok, decide_eq_false_iff_not, not_lt, hsum]
        exact hwithin.bytes
      · rw [sortedRecords_map]

end Observation
end PickleInfra
