import Mathlib
import PickleInfra.Observation.Codec
import PickleInfra.Python.Canonical
import PickleInfra.Python.Sha256

/-!
# `Observation.Store` — the operations of `ObservationStore`

An operation looks at the directory, makes its checks, and then has at most one effect on it: a new file
that is linked under its name, a control that is replaced, or a record that is unlinked. Here an operation
is a function of what the directory shows, to its result and its effect; how `_write` carries an effect
out is `Observation.Directory`'s matter.

The files are regular, and owned and readable by the program alone, as it creates them; of `_private` only
the number of links can fail. `scandir` enumerates in the order of the listing.
-/

namespace PickleInfra
namespace Observation

open Python

/-! ## Reasons and limits -/

/-- The reasons of a `StoreError`. -/
inductive StoreReason where
  | documentInvalid
  | recordKeyInvalid
  | storeLimitInvalid
  | storeReadOnly
  | fileNotPrivate
  | fileTooLarge
  | writeFailed
  | storeEntryInvalid
  | storeFull
  | sampleTooLarge
  | contentConflict
  | contentChanged
  | batchLimitInvalid
  | controlNameInvalid
  | controlTooLarge
deriving DecidableEq, Repr

abbrev Stored (α : Type) := Except StoreReason α

/-- `if c: raise error` -/
def raiseIf {ε : Type} (c : Bool) (error : ε) : Except ε Unit := if c then .error error else .ok ()

@[simp] theorem raiseIf_eq_ok {ε : Type} {c : Bool} {error : ε} {u : Unit} :
    raiseIf c error = .ok u ↔ c = false := by
  cases c <;> simp [raiseIf]

/-- The limits that the constructor accepts. -/
structure Limits where
  maxSamples : Nat
  maxBytes : Nat
  maxSampleBytes : Nat
  samples_ok : 1 ≤ maxSamples ∧ maxSamples ≤ 200000
  bytes_ok : 1 ≤ maxBytes ∧ maxBytes ≤ 16 * 1024 ^ 3
  sampleBytes_ok : 1 ≤ maxSampleBytes ∧ maxSampleBytes ≤ 1024 ^ 2

/-- `ObservationStore(directory, max_samples=…, max_bytes=…, max_sample_bytes=…)` -/
def Limits.make (maxSamples maxBytes maxSampleBytes : Nat) : Stored Limits :=
  if h : (1 ≤ maxSamples ∧ maxSamples ≤ 200000) ∧ (1 ≤ maxBytes ∧ maxBytes ≤ 16 * 1024 ^ 3) ∧
      (1 ≤ maxSampleBytes ∧ maxSampleBytes ≤ 1024 ^ 2) then
    .ok { maxSamples, maxBytes, maxSampleBytes, samples_ok := h.1, bytes_ok := h.2.1
          sampleBytes_ok := h.2.2 }
  else .error .storeLimitInvalid

/-- A locked store. -/
structure Session where
  limits : Limits
  readOnly : Bool

/-! ## Documents -/

variable (T : FloatText)

/-- `encoded` -/
def encoded (value : Json) : Stored ByteArray :=
  if value.isDict then
    match Canonical.dumps T value with
    | some payload => .ok payload
    | none         => .error .documentInvalid
  else .error .documentInvalid

/-- `decoded` -/
def decoded (payload : ByteArray) : Stored Json :=
  match Canonical.parse T payload with
  | none       => .error .documentInvalid
  | some value => if value.isDict then .ok value else .error .documentInvalid

/-- The key that `record_name` accepts. -/
def Key.of? (epoch sequence : Json) : Option Key :=
  match epoch, sequence with
  | .str e, .int n =>
    if h : isUuid e = true ∧ 0 ≤ n ∧ n ≤ MAX_SEQUENCE then
      some { epoch := e, sequence := n.toNat, epoch_uuid := h.1, sequence_le := by omega }
    else none
  | _, _           => none

/-- `record_name` -/
def recordName (epoch sequence : Json) : Stored String :=
  match Key.of? epoch sequence with
  | some k => .ok k.name
  | none   => .error .recordKeyInvalid

/-! ## What a directory shows -/

/-- A directory entry: the name, the number of names of its file, and the contents. -/
structure Entry where
  name : String
  links : Nat
  payload : ByteArray
deriving DecidableEq

abbrev Listing := List Entry

def lockName : String := ".store.lock"

/-- `CONTROLS` -/
def CONTROLS : List String := ["state.json", "status.json", "latest.json"]

/-- `_private` -/
def private_ (e : Entry) : Stored Unit := raiseIf (e.links ≠ 1) .fileNotPrivate

/-- `_read` -/
def read (dir : Listing) (name : String) (limit : Nat) : Stored (Option ByteArray) :=
  match dir.find? (fun e => e.name = name) with
  | none   => .ok none
  | some e => do
    private_ e
    raiseIf (limit < e.payload.size) .fileTooLarge
    .ok (some e.payload)

/-- A row of `_entries`. -/
structure Row where
  name : String
  epoch : String
  sequence : Nat
  size : Nat
deriving DecidableEq, Repr

/-- The checks of one entry, and its row if it is a record. -/
def rowOf (limits : Limits) (e : Entry) : Stored (Option Row) :=
  if e.name = lockName then .ok none
  else if CONTROLS.contains e.name then do
    private_ e
    .ok none
  else
    match RECORD e.name with
    | none               => .error .storeEntryInvalid
    | some (hex, digits) => do
      private_ e
      raiseIf (limits.maxSampleBytes < e.payload.size) .fileTooLarge
      raiseIf (MAX_SEQUENCE < digitsValue digits) .storeEntryInvalid
      .ok (some { name := e.name, epoch := String.ofList (hyphenated hex), sequence := digitsValue digits
                  size := e.payload.size })

/-- The loop of `_entries`. -/
def scan (limits : Limits) (records : List Row) : Listing → Stored (List Row)
  | []      => .ok records
  | e :: es => do
    match ← rowOf limits e with
    | none     => scan limits records es
    | some row => do
      raiseIf (limits.maxSamples < (records ++ [row]).length) .storeFull
      scan limits (records ++ [row]) es

/-- `(epoch, sequence)` in order. -/
def Row.le (a b : Row) : Bool := a.epoch < b.epoch || (a.epoch = b.epoch && a.sequence ≤ b.sequence)

def totalSize (rows : List Row) : Nat := (rows.map Row.size).sum

/-- `_entries` -/
def entries (limits : Limits) (dir : Listing) : Stored (List Row) := do
  let records ← scan limits [] dir
  raiseIf (limits.maxBytes < totalSize records) .storeFull
  .ok (records.insertionSort (fun a b => a.le b = true))

/-! ## Operations -/

/-- What an operation does to the directory after its checks. -/
inductive Effect where
  | nothing
  | link (name : String) (payload : ByteArray)
  | replace (name : String) (payload : ByteArray)
  | unlink (name : String)

/-- The first check of `_write`. -/
def written {α : Type} (s : Session) (result : α) (effect : Effect) : Stored (α × Effect) := do
  raiseIf s.readOnly .storeReadOnly
  .ok (result, effect)

/-- `put` -/
def put (s : Session) (dir : Listing) (epoch sequence document : Json) : Stored (Bool × Effect) := do
  let name ← recordName epoch sequence
  let payload ← encoded T document
  raiseIf (s.limits.maxSampleBytes < payload.size) .sampleTooLarge
  match ← read dir name s.limits.maxSampleBytes with
  | some existing => do
    raiseIf (existing ≠ payload) .contentConflict
    .ok (false, .nothing)
  | none          => do
    let records ← entries s.limits dir
    raiseIf (s.limits.maxSamples ≤ records.length
      || s.limits.maxBytes < totalSize records + payload.size) .storeFull
    written s true (.link name payload)

/-- `Record` -/
structure Record where
  name : String
  epoch : String
  sequence : Int
  document : Json
  payload : ByteArray
  sha256 : String

/-- The record of a key and the bytes that were read. -/
def recordOf (name epoch : String) (sequence : Int) (payload : ByteArray) : Stored Record := do
  let document ← decoded T payload
  .ok { name, epoch, sequence, document, payload, sha256 := Sha256.hexdigest payload }

/-- One record of a batch. -/
def pendingRecord (s : Session) (dir : Listing) (row : Row) : Stored Record := do
  match ← read dir row.name s.limits.maxSampleBytes with
  | none         => .error .contentChanged
  | some payload => recordOf T row.name row.epoch row.sequence payload

/-- `pending` -/
def pending (s : Session) (dir : Listing) (limit : Int) (exclude : List (String × Int)) :
    Stored (List Record) := do
  raiseIf (!(1 ≤ limit && limit ≤ 256)) .batchLimitInvalid
  let excluded := exclude.dedup
  raiseIf (64 < excluded.length) .batchLimitInvalid
  let _ ← excluded.mapM (fun key => recordName (.str key.1) (.int key.2))
  let rows ← entries s.limits dir
  let selected := (rows.filter (fun row => !excluded.contains (row.epoch, (row.sequence : Int)))).take limit.toNat
  selected.mapM (pendingRecord T s dir)

/-- `stats`: the number of samples and their bytes. -/
def stats (s : Session) (dir : Listing) : Stored (Nat × Nat) := do
  let rows ← entries s.limits dir
  .ok (rows.length, totalSize rows)

/-- `get` -/
def get (s : Session) (dir : Listing) (epoch sequence : Json) : Stored (Option Record) :=
  match Key.of? epoch sequence with
  | none   => .error .recordKeyInvalid
  | some k => do
    match ← read dir k.name s.limits.maxSampleBytes with
    | none         => .ok none
    | some payload => (recordOf T k.name k.epoch k.sequence payload).map some

/-- `ack` -/
def ack (s : Session) (dir : Listing) (record : Record) : Stored (Bool × Effect) := do
  raiseIf s.readOnly .storeReadOnly
  let name ← recordName (.str record.epoch) (.int record.sequence)
  raiseIf (record.name ≠ name) .recordKeyInvalid
  match ← read dir record.name s.limits.maxSampleBytes with
  | none         => .ok (false, .nothing)
  | some payload => do
    raiseIf (Sha256.hexdigest payload ≠ record.sha256) .contentChanged
    .ok (true, .unlink record.name)

/-- The largest control. -/
def controlLimit (limits : Limits) (name : String) : Nat :=
  if name = "latest.json" then limits.maxSampleBytes else 65536

/-- `load_control` -/
def loadControl (s : Session) (dir : Listing) (name : String) : Stored (Option Json) := do
  raiseIf (!CONTROLS.contains name) .controlNameInvalid
  match ← read dir name (controlLimit s.limits name) with
  | none         => .ok none
  | some payload => (decoded T payload).map some

/-- `save_control` -/
def saveControl (s : Session) (dir : Listing) (name : String) (value : Json) : Stored (Unit × Effect) := do
  raiseIf (!CONTROLS.contains name) .controlNameInvalid
  let payload ← encoded T value
  raiseIf (controlLimit s.limits name < payload.size) .controlTooLarge
  let _ ← read dir name (controlLimit s.limits name)
  written s () (.replace name payload)

end Observation
end PickleInfra
