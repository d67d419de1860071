import PickleInfra.Observation.Outbox

/-!
# `Observation.Sampler` — `sample` and `read_latest`, where samples come from

A run of `sample` reserves the next sequence number in `state.json`, measures, and publishes one document as
`latest.json`. What `make_sample` returned is stored and read back as the sample it was (`sampled_of_made`).
-/

namespace PickleInfra
namespace Observation

open Python Metrics Durable

/-! ## Configuration and state -/

/-- The configuration of a sampler, as far as `sample` itself reads it. -/
structure SampleConfig where
  sourceId : String
  configurationId : String
  source_ok : isUuid sourceId = true

theorem samples_bounds : 1 ≤ 4096 ∧ 4096 ≤ 200000 := by decide

theorem bytes_bounds : 1 ≤ 64 * 1024 * 1024 ∧ 64 * 1024 * 1024 ≤ 16 * 1024 ^ 3 := by decide

theorem sampleBytes_bounds : 1 ≤ MAX_SAMPLE_BYTES ∧ MAX_SAMPLE_BYTES ≤ 1024 ^ 2 := by decide

/-- The locked store of a sampler, with the limits of `ObservationStore` as they are. -/
def sampleSession (readOnly : Bool) : Session where
  limits :=
    { maxSamples := 4096, maxBytes := 64 * 1024 * 1024, maxSampleBytes := MAX_SAMPLE_BYTES
      samples_ok := samples_bounds, bytes_ok := bytes_bounds, sampleBytes_ok := sampleBytes_bounds }
  readOnly

/-- The producer's state: the sequence and the minute that were reserved last. -/
structure ProducerState where
  epoch : String
  lastSequence : Nat
  lastPublishedUtcMinute : Nat
deriving DecidableEq, Repr

def ProducerState.toJson (sourceId : String) (p : ProducerState) : Json :=
  .dict [("version", .int 1), ("kind", .str "producer"), ("sourceId", .str sourceId), ("epoch", .str p.epoch),
    ("lastSequence", .int p.lastSequence), ("lastPublishedUtcMinute", .int p.lastPublishedUtcMinute)]

/-- The fields of the producer's state. -/
def producerKeys : List String := ["version", "kind", "sourceId", "epoch", "lastSequence", "lastPublishedUtcMinute"]

/-- `producer_state` -/
def producerState (v : Json) (sourceId : String) : Observed ProducerState := do
  let lastSequence := ((v.getOrNull "lastSequence").asInt?).getD (-1)
  let minute := ((v.getOrNull "lastPublishedUtcMinute").asInt?).getD (-1)
  raiseIf (!(v.hasKeys producerKeys && (v.getOrNull "version").asInt? = some 1 && (v.getOrNull "kind").isStr "producer"
    && (v.getOrNull "sourceId").isStr sourceId && decide (0 ≤ lastSequence) && decide (lastSequence ≤ MAX_SEQUENCE)
    && decide (0 ≤ minute))) .producerStateInvalid
  let epoch ← canonicalUuid (v.getOrNull "epoch")
  .ok { epoch, lastSequence := lastSequence.toNat, lastPublishedUtcMinute := minute.toNat }

/-! ## The program -/

/-- What a run asks the world. -/
inductive Sensing where
  | host
  | metrics

/-- An answer of the world: what is raised, and what the host reader and the metrics reader returned. -/
structure Measurement (T : FloatText) where
  failure : Option Failure
  host : Json
  identity : Json
  payload : Payload
  /-- The host reader returns a value of Python. -/
  held : Canonical.Held T host

abbrev Sampling (T : FloatText) (α : Type) := Spooling Sensing (Measurement T) α

def measure {T : FloatText} {α : Type} (q : Sensing) (read : Measurement T → α) : Sampling T α :=
  ask (fun a => match a.reply.failure with
    | some e => .error e
    | none   => .ok (read a.reply)) (.outside q)

/-- The exceptions that `sample` catches. -/
def Failure.caughtBySample : Failure → Bool
  | .observation _ | .io _ | .os _ | .value => true
  | _                                       => false

/-- `unavailable_host` -/
def unavailableHost : Json :=
  .dict [("state", .str "SOURCE_FAILED"),
    ("metrics", .dict (HOST_UNITS.map fun name => (name, .dict [("state", .str "SOURCE_FAILED"), ("value", .null)])))]

variable (M : Machine) (c : SampleConfig)

/-- What the host reader returned: the host and the identity; or that it is not available. -/
def readHost : Sampling M.text (Json × Json) :=
  rescue Failure.caughtBySample (measure .host fun m => (m.host, m.identity)) fun _ =>
    pure (unavailableHost, .dict [("bootId", .null), ("processId", .null), ("configId", .str c.configurationId)])

/-- `make_sample` of the run. -/
def made (now : Int) (p : ProducerState) (host identity : Json) (payload : Payload) (sourceState : String) :
    Sampling M.text Json :=
  lifted (makeSample M payload c.sourceId p.epoch p.lastSequence now host identity sourceState).lift

/-- The document of the run and its reason: with the metrics, or without where they cannot be had. -/
def document (now : Int) (p : ProducerState) (host identity : Json) : Sampling M.text (Json × String) :=
  rescue Failure.caughtBySample
    (do
      let payload ← measure .metrics Measurement.payload
      let value ← made M c now p host identity payload "OBSERVED"
      let _ ← lifted (forReporter M value now).lift
      pure (value, "SAMPLE_OBSERVED"))
    fun _ => do
      let value ← made M c now p host identity .absent "SOURCE_FAILED"
      pure (value, "INFERENCE_SOURCE_FAILED")

/-- `box.load_control(name)` -/
def loaded (readOnly : Bool) (name : String) : Sampling M.text (Option Json) :=
  look fun dir => loadControl M.text (sampleSession readOnly) dir name

/-- `box.save_control(name, value)` -/
def saved (name : String) (value : Json) : Sampling M.text Unit :=
  perform fun dir => saveControl M.text (sampleSession false) dir name value

def waiting (reason : String) : Json := .dict [("status", .str "WAITING"), ("reason", .str reason)]

/-- The first run of a producer reserves its minute. -/
def firstRun (minute : Nat) (latest : Option Json) : Sampling M.text Json := do
  if latest.isSome then throw (.observation .producerStateLost)
  else do
    let found ← look fun dir => stats (sampleSession false) dir
    if 0 < found.1 then throw (.observation .producerStateLost)
    else do
      let u ← ask (fun a => .ok a.uuid) .uuid
      let p : ProducerState := { epoch := u.text, lastSequence := 0, lastPublishedUtcMinute := minute }
      saved M "state.json" (p.toJson c.sourceId)
      pure (waiting "FIRST_MINUTE_RESERVED")

/-- The checks of the latest sample, where there is one. -/
def checkLatest (p : ProducerState) : Option Json → Observed Unit
  | none   => .ok ()
  | some v => do
    let _ ← validateSample M false v
    raiseIf (!((v.getOrNull "sourceId").isStr c.sourceId && (v.getOrNull "epoch").isStr p.epoch)) .producerStateInvalid

/-- The result of a run that published. -/
def persisted (value : Json) (reason : String) : Json :=
  .dict [("status", .str "PERSISTED"), ("reason", .str reason), ("observedAt", value.getOrNull "observedAt"),
    ("epoch", value.getOrNull "epoch"), ("sequence", value.getOrNull "sequence")]

/-- A run that reserved its sequence and its minute. -/
def publishSample (now : Int) (p : ProducerState) : Sampling M.text Json := do
  saved M "state.json" (p.toJson c.sourceId)
  let (host, identity) ← readHost M c
  let (value, reason) ← document M c now p host identity
  saved M "latest.json" value
  saved M "status.json" (persisted value reason)
  pure (persisted value reason)

/-- A later run of a producer. -/
def nextRun (now : Int) (minute : Nat) (state : Json) (latest : Option Json) : Sampling M.text Json := do
  let p ← lifted (producerState state c.sourceId).lift
  lifted (checkLatest M c p latest).lift
  if minute < p.lastPublishedUtcMinute then throw (.observation .clockMovedBackwards)
  else if minute = p.lastPublishedUtcMinute then pure (waiting "MINUTE_ALREADY_RESERVED")
  else if p.lastSequence = MAX_SEQUENCE then throw (.observation .sequenceExhausted)
  else publishSample M c now { p with lastSequence := p.lastSequence + 1, lastPublishedUtcMinute := minute }

/-- `sample` -/
def sample (now : Int) : Sampling M.text Json := do
  let _ ← lifted (instant now).lift
  let minute := (now / 60000).toNat
  call .lock
  let state ← loaded M false "state.json"
  let latest ← loaded M false "latest.json"
  match state with
  | none       => firstRun M c minute latest
  | some state => nextRun M c now minute state latest

/-- What `read_latest` makes of the two documents. -/
def servedOf : Option Json → Option Json → Observed ByteArray
  | some state, some latest => do
    let p ← producerState state c.sourceId
    let _ ← validateSample M false latest
    raiseIf (!((latest.getOrNull "sourceId").isStr c.sourceId && (latest.getOrNull "epoch").isStr p.epoch
      && ((latest.getOrNull "sequence").asInt?).any (fun n => decide (n ≤ (p.lastSequence : Int)))))
      .producerStateInvalid
    canonicalBytes M latest
  | _, _                    => .error .sampleNotReady

/-- `read_latest` -/
def readLatest : Sampling M.text ByteArray := do
  call .lock
  let state ← loaded M true "state.json"
  let latest ← loaded M true "latest.json"
  lifted (servedOf M c state latest).lift

/-! ## What is written is read back -/

section Written

variable {M : Machine} {sourceId : String}

theorem producerState_toJson {p : ProducerState} (hepoch : isUuid p.epoch = true)
    (hsequence : p.lastSequence ≤ MAX_SEQUENCE) (sourceId : String) : producerState (p.toJson sourceId).sorted sourceId = .ok p := by
  have hkeys : (p.toJson sourceId).hasKeys producerKeys = true := rfl
  unfold producerState
  simp only [Json.getOrNull_sorted, Json.asInt?_sorted, Json.isStr_sorted, Json.hasKeys_sorted.mpr hkeys,
    canonicalUuid_sorted]
  have hnat : (p.lastSequence : Int) ≤ (MAX_SEQUENCE : Int) := by omega
  simp [ProducerState.toJson, Json.getOrNull, Json.get?, Json.lookup, Json.asInt?, Json.isStr, canonicalUuid, hepoch,
    hnat, raiseIf]
  rfl

theorem ProducerState.held {T : FloatText} (p : ProducerState) (sourceId : String) :
    Canonical.Held T (p.toJson sourceId) := by
  have hnodup : producerKeys.Nodup := by decide
  exact ⟨hnodup, trivial, trivial, trivial, trivial, trivial, trivial, trivial⟩

end Written

/-! ## What is made is a sample -/

section Made

variable {M : Machine} {T : FloatText}

theorem held_lookup {k : String} {x : Json} {ms : List (String × Json)} (hheld : Canonical.HeldMembers T ms)
    (h : Json.lookup k ms = some x) : Canonical.Held T x := by
  induction ms with
  | nil => cases h
  | cons m ms ih =>
      rw [Json.lookup] at h
      split at h
      · obtain rfl := Option.some.inj h
        exact hheld.1
      · exact ih hheld.2 h

theorem held_getOrNull {v : Json} (hheld : Canonical.Held T v) (k : String) : Canonical.Held T (v.getOrNull k) := by
  unfold Json.getOrNull
  cases hx : v.get? k with
  | none => exact trivial
  | some x =>
      cases v with
      | dict ms => exact held_lookup hheld.2 hx
      | null | bool | int | float | str | list => cases hx

theorem held_unavailableHost : Canonical.Held T unavailableHost := by
  simp [unavailableHost, HOST_UNITS, Canonical.Held, Canonical.HeldMembers]

/-- The number of a measurement is printed. -/
theorem valid_measured {name : String} {x : Json} (hheld : Canonical.Held T x) (h : isMeasured name x = true) :
    JsonText.Valid T x := by
  cases x with
  | int n =>
      have hrange : (decide (0 ≤ (n : ℚ)) && decide ((n : ℚ) ≤ (MAX_SEQUENCE : ℚ))) = true :=
        ((Bool.and_eq_true _ _).mp h).1
      rw [Bool.and_eq_true, decide_eq_true_eq, decide_eq_true_eq] at hrange
      have hlow : 0 ≤ n := by exact_mod_cast hrange.1
      have hhigh : n ≤ (MAX_SEQUENCE : Int) := by exact_mod_cast hrange.2
      have hmax : (MAX_SEQUENCE : Int) < 10 ^ 20 := by decide
      exact Json.valid_int (by omega)
  | float x =>
      cases x with
      | finite q => exact JsonText.valid_float.mpr ⟨q, rfl, hheld⟩
      | inf | negInf | nan => cases h
  | null | bool | str | list | dict => cases h

theorem valid_hostState {v : Json} (h : isHostState v = true) : JsonText.Valid T v := by
  cases v with
  | str s => rw [JsonText.Valid]; trivial
  | null | bool | int | float | list | dict => cases h

theorem valid_hostMeasurement {metrics : Json} {name : String} {m : String × Json}
    (hheld : Canonical.Held T metrics) (h : hostMeasurement metrics name = .ok m) :
    m.1 = name ∧ JsonText.Valid T m.2 := by
  unfold hostMeasurement at h
  have hitem : Canonical.Held T
      ((metrics.get? name).getD (.dict [("state", .str "NOT_REPORTED"), ("value", .null)])) := by
    cases hget : metrics.get? name with
    | none => exact ⟨by decide, trivial, trivial, trivial⟩
    | some item =>
        have hnull := held_getOrNull hheld name
        unfold Json.getOrNull at hnull
        rwa [hget] at hnull
  generalize (metrics.get? name).getD (.dict [("state", .str "NOT_REPORTED"), ("value", .null)]) = item at h hitem
  simp only [bind_eq_ok, raiseIf_eq_ok, Bool.not_eq_false', Bool.and_eq_true] at h
  obtain ⟨_, hstate, _, hnumber, hm⟩ := h
  cases hm
  have hvalue : JsonText.Valid T (item.getOrNull "value") := by
    split at hnumber
    · exact valid_measured (held_getOrNull hitem _) hnumber
    · cases hv : item.getOrNull "value" with
      | null => rw [JsonText.Valid]; trivial
      | bool | int | float | str | list | dict => rw [hv] at hnumber; cases hnumber
  refine ⟨rfl, JsonText.valid_dict.mpr ⟨by simp, ?_⟩⟩
  simp only [List.forall_mem_cons]
  exact ⟨valid_hostState hstate.2, hvalue, fun _ hm => absurd hm List.not_mem_nil⟩

theorem valid_normalizeHost {v host : Json} (hheld : Canonical.Held T v) (h : normalizeHost v = .ok host) :
    JsonText.Valid T host := by
  unfold normalizeHost at h
  simp only [bind_eq_ok, raiseIf_eq_ok, Bool.not_eq_false', Bool.and_eq_true] at h
  obtain ⟨_, hchecks, ms, hms, hhost⟩ := h
  cases hhost
  have hall := mapM_eq_ok.mp hms
  have hmeasured : ∀ name m, hostMeasurement (v.getOrNull "metrics") name = .ok m → m.1 = name ∧ JsonText.Valid T m.2 :=
    fun name m hm => valid_hostMeasurement (held_getOrNull hheld _) hm
  have hkeys : ms.map Prod.fst = HOST_UNITS.map id := forall₂_keys hall fun name m hm => (hmeasured name m hm).1
  have hmetrics : JsonText.Valid T (.dict ms) := by
    refine JsonText.valid_dict.mpr ⟨?_, fun m hm => ?_⟩
    · rw [hkeys]
      decide
    · obtain ⟨name, -, hname⟩ := forall₂_right hall m hm
      exact (hmeasured name m hname).2
  refine JsonText.valid_dict.mpr ⟨by simp, ?_⟩
  simp only [List.forall_mem_cons]
  exact ⟨valid_hostState hchecks.1.2, hmetrics, fun _ hm => absurd hm List.not_mem_nil⟩

/-- The bytes are a sample of the source, under the key. -/
structure SampleOf (M : Machine) (sourceId : String) (k : Key) (payload : ByteArray) (v : Json) : Prop where
  read : decoded M.text payload = .ok v
  sample : validateSample M false v = .ok v
  canonical : canonicalBytes M v = .ok payload
  source : v.getOrNull "sourceId" = .str sourceId
  epoch : v.getOrNull "epoch" = .str k.epoch
  sequence : v.getOrNull "sequence" = .int k.sequence

theorem SampleOf.key {sourceId : String} {k : Key} {payload : ByteArray} {v : Json}
    (h : SampleOf M sourceId k payload v) :
    keyOf M.text payload = some k := by
  unfold keyOf
  rw [h.read]
  exact Key.of?_eq_some.mpr ⟨h.epoch, h.sequence⟩

/-- **What `make_sample` returned is stored as the sample it is.** -/
theorem sampled_of_made {payload : Payload} {sourceId sourceState : String} {k : Key} {now : Int}
    {host identity v : Json} {stored : ByteArray} (hheld : Canonical.Held M.text host)
    (h : makeSample M payload sourceId k.epoch k.sequence now host identity sourceState = .ok v)
    (hstored : encoded M.text v = .ok stored) : SampleOf M sourceId k stored v.sorted := by
  unfold makeSample at h
  obtain ⟨_, -, h⟩ := bind_eq_ok.mp h
  obtain ⟨_, -, h⟩ := bind_eq_ok.mp h
  obtain ⟨_, -, h⟩ := bind_eq_ok.mp h
  obtain ⟨observed, -, h⟩ := bind_eq_ok.mp h
  split at h
  · cases h
  · next snapshot hsnapshot =>
    obtain ⟨host', hhost', hvalidated⟩ := bind_eq_ok.mp h
    obtain rfl := (keys_of_sample hvalidated).1
    obtain ⟨haccepted, hkept⟩ := parseSnapshot_accepted hsnapshot
    have hstr : ∀ s, JsonText.Valid M.text (.str s) := fun s => by rw [JsonText.Valid]; trivial
    have hsequence : JsonText.Valid M.text (.int k.sequence) := by
      have hlt := k.sequence_lt
      exact Json.valid_int (by omega)
    have hvalid : JsonText.Valid M.text (sampleJson sourceId k.epoch k.sequence observed host' snapshot) := by
      refine JsonText.valid_dict.mpr ⟨by simp, ?_⟩
      simp only [List.forall_mem_cons]
      exact ⟨Json.valid_int (by decide), hstr _, hstr _, hsequence, hstr _, valid_normalizeHost hheld hhost',
        valid_snapshot haccepted hkept, fun _ hm => absurd hm List.not_mem_nil⟩
    cases (encoded_of_valid hvalid rfl).symm.trans hstored
    refine ⟨decoded_bytes hvalid rfl, validateSample_sorted hvalid hvalidated, ?_, ?_, ?_, ?_⟩
    · rw [canonicalBytes_sorted hvalid]
      unfold canonicalBytes
      rw [Canonical.dumps_of_valid hvalid]
    · rw [Json.getOrNull_sorted]
      simp [sampleJson, Json.getOrNull, Json.get?, Json.lookup]
    · rw [Json.getOrNull_sorted]
      simp [sampleJson, Json.getOrNull, Json.get?, Json.lookup]
    · rw [Json.getOrNull_sorted]
      simp [sampleJson, Json.getOrNull, Json.get?, Json.lookup]

end Made

end Observation
end PickleInfra
