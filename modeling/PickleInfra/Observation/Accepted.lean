import PickleInfra.Metrics.Sorted
import PickleInfra.Observation.Saved
import PickleInfra.Python.Fields

/-!
# `Observation.Accepted` — a sample that is stored is accepted again

A record is written with the keys of its objects in order, and read back so. Nothing that `validate_sample` checks
depends on that order (`validateSample_sorted`), so what `for_reporter` returned passes, once it is stored, the checks
of `drain` in every later run (`fit_of_request`).
-/

namespace PickleInfra
namespace Observation

open Python Json Metrics

/-! ## Hosts -/

theorem isHostState_sorted (v : Json) : isHostState v.sorted = isHostState v := by
  unfold isHostState
  rw [asStr?_sorted]

theorem isMeasured_sorted (name : String) (v : Json) : isMeasured name v.sorted = isMeasured name v := by
  unfold isMeasured
  rw [numOfJson_sorted]

theorem keysWithin_sorted (keys : List String) (v : Json) : keysWithin keys v.sorted = keysWithin keys v := by
  cases v with
  | dict ms =>
      rw [sorted_dict, Bool.eq_iff_iff]
      show List.all _ _ = true ↔ List.all _ _ = true
      rw [List.all_eq_true, List.all_eq_true]
      constructor
      · intro h m hm
        exact h (m.1, m.2.sorted) ((perm_sortMembers _).mem_iff.mpr (List.mem_map_of_mem hm))
      · intro h m hm
        obtain ⟨m', hm', rfl⟩ := List.mem_map.mp ((perm_sortMembers _).mem_iff.mp hm)
        exact h m' hm'
  | null | bool | int | float | str => rw [sorted]
  | list xs =>
      rw [sorted_list]
      rfl

/-- A state is a text. -/
theorem sorted_of_hostState {v : Json} (h : isHostState v = true) : v.sorted = v := by
  cases v with
  | str s => rw [sorted]
  | null | bool | int | float | list | dict => cases h

theorem sorted_of_measured {name : String} {v : Json} (h : isMeasured name v = true) : v.sorted = v := by
  cases v with
  | null | bool | int | float | str => rw [sorted]
  | list | dict => cases h

theorem sorted_of_null {v : Json} (h : v.isNull = true) : v.sorted = v := by
  cases v with
  | null => rw [sorted]
  | bool | int | float | str | list | dict => cases h

/-- What follows a check matters only where the check passes. -/
theorem raiseIf_bind_congr {ε α : Type} {c : Bool} {error : ε} {f g : Unit → Except ε α}
    (h : c = false → f () = g ()) : (raiseIf c error >>= f) = (raiseIf c error >>= g) := by
  cases c with
  | true => rfl
  | false => exact h rfl

theorem hostMeasurement_sorted (metrics : Json) (name : String) :
    hostMeasurement metrics.sorted name = hostMeasurement metrics name := by
  have hitem : (metrics.sorted.get? name).getD (.dict [("state", .str "NOT_REPORTED"), ("value", .null)])
      = ((metrics.get? name).getD (.dict [("state", .str "NOT_REPORTED"), ("value", .null)])).sorted := by
    rw [get?_sorted]
    cases metrics.get? name with
    | none =>
        show Json.dict _ = Json.sorted (.dict _)
        rw [sorted_dict]
        simp [sortMembers]
    | some item => rfl
  unfold hostMeasurement
  rw [hitem]
  generalize (metrics.get? name).getD (.dict [("state", .str "NOT_REPORTED"), ("value", .null)]) = item
  simp only [metricsKeys_sorted, getOrNull_sorted, isHostState_sorted, isStr_sorted, isMeasured_sorted, isNull_sorted]
  refine raiseIf_bind_congr fun hstate => raiseIf_bind_congr fun hnumber => ?_
  rw [Bool.not_eq_false', Bool.and_eq_true] at hstate
  rw [Bool.not_eq_false'] at hnumber
  have hvalue : (item.getOrNull "value").sorted = item.getOrNull "value" := by
    split at hnumber
    · exact sorted_of_measured hnumber
    · exact sorted_of_null hnumber
  rw [hvalue, sorted_of_hostState hstate.2]

theorem normalizeHost_sorted (v : Json) : normalizeHost v.sorted = normalizeHost v := by
  unfold normalizeHost
  have hmeasurements : hostMeasurement (v.getOrNull "metrics").sorted = hostMeasurement (v.getOrNull "metrics") :=
    funext (hostMeasurement_sorted _)
  simp only [metricsKeys_sorted, getOrNull_sorted, isHostState_sorted, keysWithin_sorted, hmeasurements]
  refine raiseIf_bind_congr fun hhost => ?_
  rw [Bool.not_eq_false', Bool.and_eq_true, Bool.and_eq_true] at hhost
  rw [sorted_of_hostState hhost.1.2]

/-! ## Samples -/

theorem canonicalUuid_sorted (v : Json) : canonicalUuid v.sorted = canonicalUuid v := by
  cases v with
  | null | bool | int | float | str => rw [sorted]
  | list | dict => rw [sorted]; rfl

theorem sequenceOf_sorted (v : Json) : sequenceOf v.sorted = sequenceOf v := by
  cases v with
  | null | bool | int | float | str => rw [sorted]
  | list | dict => rw [sorted]; rfl

theorem instantMillis_sorted (v : Json) : instantMillis v.sorted = instantMillis v := by
  unfold instantMillis
  rw [asStr?_sorted]

variable {M : Machine}

theorem inferenceOf_sorted {v : Json} (hv : JsonText.Valid M.text v) : inferenceOf M v.sorted = inferenceOf M v := by
  unfold inferenceOf
  rw [interval_sorted hv, validateSnapshot_sorted hv]

theorem canonicalBytes_sorted {v : Json} (hv : JsonText.Valid M.text v) :
    canonicalBytes M v.sorted = canonicalBytes M v := by
  unfold canonicalBytes
  rw [Canonical.dumps_of_valid (Canonical.valid_sorted v hv), Canonical.dumps_of_valid hv, Canonical.bytes_sorted]

/-- The last checks of a sample. -/
theorem sized_eq_ok {v x r : Json} :
    (do
      let payload ← canonicalBytes M v
      raiseIf (MAX_SAMPLE_BYTES < payload.size) ObservationReason.sampleTooLarge
      .ok x) = .ok r ↔ x = r ∧ ∃ payload, canonicalBytes M v = .ok payload ∧ payload.size ≤ MAX_SAMPLE_BYTES := by
  simp only [bind_eq_ok, raiseIf_eq_ok, decide_eq_false_iff_not, not_lt, Except.ok.injEq]
  constructor
  · rintro ⟨payload, hpayload, _, hsize, hr⟩
    exact ⟨hr, payload, hpayload, hsize⟩
  · rintro ⟨hr, payload, hpayload, hsize⟩
    exact ⟨payload, hpayload, (), hsize, hr⟩

/-- **A sample is accepted in any order of its keys.** -/
theorem validateSample_sorted {reporter : Bool} {v r : Json} (hv : JsonText.Valid M.text v)
    (h : validateSample M reporter v = .ok r) : validateSample M reporter v.sorted = .ok v.sorted := by
  unfold validateSample at h ⊢
  simp only [metricsKeys_sorted, getOrNull_sorted, asInt?_sorted, canonicalUuid_sorted, sequenceOf_sorted,
    instantMillis_sorted, normalizeHost_sorted, inferenceOf_sorted (valid_getOrNull hv _), canonicalBytes_sorted hv]
  simp only [bind_eq_ok] at h ⊢
  obtain ⟨u, hkeys, sourceId, hsource, epoch, hepoch, sequence, hsequence, ms, hms, host, hhost, inference, hinference,
    u', hlabels, u'', hidentity, h⟩ := h
  refine ⟨u, hkeys, sourceId, hsource, epoch, hepoch, sequence, hsequence, ms, hms, host, hhost, inference, hinference,
    u', hlabels, u'', hidentity, ?_⟩
  split at h
  · next hreporter =>
    rw [if_pos hreporter]
    obtain ⟨received, hreceived, h⟩ := bind_eq_ok.mp h
    exact bind_eq_ok.mpr ⟨received, hreceived, sized_eq_ok.mpr ⟨rfl, (sized_eq_ok.mp h).2⟩⟩
  · next hreporter =>
    rw [if_neg hreporter]
    obtain ⟨received, hreceived, h⟩ := bind_eq_ok.mp h
    exact bind_eq_ok.mpr ⟨received, hreceived, sized_eq_ok.mpr ⟨rfl, (sized_eq_ok.mp h).2⟩⟩

/-- What is accepted has the fields of a sample. -/
theorem keys_of_sample {reporter : Bool} {v r : Json} (h : validateSample M reporter v = .ok r) :
    r = v ∧ ∃ ms, v = .dict ms ∧ ∀ m ∈ ms, m.1 ∈ sampleKeys reporter := by
  unfold validateSample at h
  simp only [bind_eq_ok] at h
  obtain ⟨_, hkeys, _, -, _, -, _, -, _, -, _, -, _, -, _, -, _, -, h⟩ := h
  have hr : r = v := by
    split at h
    · obtain ⟨_, -, h⟩ := bind_eq_ok.mp h
      exact (sized_eq_ok.mp h).1.symm
    · obtain ⟨_, -, h⟩ := bind_eq_ok.mp h
      exact (sized_eq_ok.mp h).1.symm
  refine ⟨hr, ?_⟩
  rw [raiseIf_eq_ok, Bool.not_eq_false', Bool.and_eq_true] at hkeys
  cases v with
  | dict ms =>
      refine ⟨ms, rfl, fun m hm => ?_⟩
      have hall := (Bool.and_eq_true _ _ ▸ hkeys.1 : _ ∧ _).1
      exact List.contains_iff_mem.mp (List.all_eq_true.mp hall m hm)
  | null | bool | int | float | str | list => cases hkeys.1

/-! ## Requests -/

/-- A sample that was fetched from the source. -/
structure Fetched (M : Machine) (sourceId : String) (latest : Json) : Prop where
  valid : JsonText.Valid M.text latest
  sample : validateSample M false latest = .ok latest
  source : (latest.getOrNull "sourceId").isStr sourceId = true

/-- The bytes under a key are a record that `drain` accepts. -/
def Fit (M : Machine) (sourceId : String) (k : Key) (payload : ByteArray) : Prop :=
  ∃ record, recordAt M.text (k, payload) = .ok record ∧
    ∀ c : ReportConfig, c.sourceId = sourceId → checkRecord M c record = .ok ()

section Requests

variable {sourceId : String} {latest request : Json} {now : Int}

theorem forReporter_eq_ok (h : forReporter M latest now = .ok request) : ∃ received,
    request = withReceived received latest ∧ validateSample M true request = .ok request := by
  obtain ⟨value, hvalue, hrest⟩ := bind_eq_ok.mp h
  obtain ⟨received, -, hrequest⟩ := bind_eq_ok.mp hrest
  obtain rfl := (keys_of_sample hvalue).1
  obtain rfl := (keys_of_sample hrequest).1
  exact ⟨received, rfl, hrequest⟩

/-- A sample has no time of receipt yet. -/
theorem received_not_mem {ms : List (String × Json)} (h : ∀ m ∈ ms, m.1 ∈ sampleKeys false) :
    "reporterReceivedAt" ∉ ms.map Prod.fst := by
  intro hmem
  obtain ⟨m, hm, heq⟩ := List.mem_map.mp hmem
  have hkey := h m hm
  rw [heq] at hkey
  exact absurd hkey (by decide)

theorem valid_withReceived {ms : List (String × Json)} (hv : JsonText.Valid M.text (.dict ms))
    (h : ∀ m ∈ ms, m.1 ∈ sampleKeys false) (received : String) :
    JsonText.Valid M.text (withReceived received (.dict ms)) := by
  obtain ⟨hnodup, hms⟩ := JsonText.valid_dict.mp hv
  refine JsonText.valid_dict.mpr ⟨?_, ?_⟩
  · rw [List.map_append, List.nodup_append']
    exact ⟨hnodup, List.nodup_singleton _, List.disjoint_singleton.mpr (received_not_mem h)⟩
  · intro m hm
    rcases List.mem_append.mp hm with hm | hm
    · exact hms m hm
    · rw [List.mem_singleton.mp hm, JsonText.Valid]
      trivial

theorem getOrNull_withReceived {ms : List (String × Json)} {received k : String} (hk : k ≠ "reporterReceivedAt") :
    (withReceived received (.dict ms)).getOrNull k = (Json.dict ms).getOrNull k := by
  show ((Json.lookup k (ms ++ [("reporterReceivedAt", .str received)]))).getD .null = (Json.lookup k ms).getD .null
  rw [lookup_append]
  cases Json.lookup k ms with
  | some x => rfl
  | none => simp [Json.lookup, hk.symm]

/-- **What `for_reporter` returned is stored as a record that every later run accepts.** -/
theorem fit_of_request {k : Key} {payload : ByteArray} (hf : Fetched M sourceId latest)
    (hrequest : forReporter M latest now = .ok request)
    (hk : Key.of? (latest.getOrNull "epoch") (latest.getOrNull "sequence") = some k)
    (hpayload : encoded M.text request = .ok payload) : Fit M sourceId k payload := by
  obtain ⟨received, rfl, hvalidated⟩ := forReporter_eq_ok hrequest
  obtain ⟨-, ms, rfl, hkeys⟩ := keys_of_sample hf.sample
  have hvalid := valid_withReceived hf.valid hkeys received
  have hbytes := (encoded_of_valid hvalid rfl).symm.trans hpayload
  cases hbytes
  obtain ⟨hepoch, hsequence⟩ := Key.of?_eq_some.mp hk
  refine ⟨⟨k.name, k.epoch, k.sequence, _, _, _⟩, bind_eq_ok.mpr ⟨_, decoded_bytes hvalid rfl, rfl⟩, ?_⟩
  rintro c rfl
  refine bind_eq_ok.mpr ⟨_, validateSample_sorted hvalid hvalidated, bind_eq_ok.mpr
    ⟨Canonical.bytes M.text (withReceived received (.dict ms)), ?_, ?_⟩⟩
  · rw [canonicalBytes_sorted hvalid]
    unfold canonicalBytes
    rw [Canonical.dumps_of_valid hvalid]
  · rw [raiseIf_eq_ok, Bool.not_eq_false']
    simp only [getOrNull_sorted, isStr_sorted, asInt?_sorted,
      getOrNull_withReceived (by decide : "sourceId" ≠ "reporterReceivedAt"),
      getOrNull_withReceived (by decide : "epoch" ≠ "reporterReceivedAt"),
      getOrNull_withReceived (by decide : "sequence" ≠ "reporterReceivedAt"), hepoch, hsequence, hf.source]
    simp [isStr, asInt?]

end Requests

end Observation
end PickleInfra
