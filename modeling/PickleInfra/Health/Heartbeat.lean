import PickleInfra.Health.Documents

/-!
# `Health.Heartbeat` — `heartbeat`, the reader that attests that the collector runs

`health-result-reader.py` turns the collector's summary into one sanitized report, after checking the
version, the size, the clock, and the status and time of every source.
-/

namespace PickleInfra
namespace Health

open Python

/-- The check of one source. -/
def heartbeatSource (timestamp : ℚ) (name : String) (observation : Json) : Except HealthExn Unit :=
  let bad : HealthExn := .own "COLLECTOR_SUMMARY_SOURCE_INVALID"
  if !Text.isName name || !observation.isDict
      || (((observation.getOrNull "status").asStr?).bind Status.ofText).isNone then .error bad
  else match epoch (observation.getOrNull "sample_at") with
    | .error e => .error e
    | .ok t    => if timestamp + 30 < t then .error bad else .ok ()

def heartbeatSources (timestamp : ℚ) : List (String × Json) → Except HealthExn Unit
  | []                          => .ok ()
  | (name, observation) :: rest => do
    heartbeatSource timestamp name observation
    heartbeatSources timestamp rest

/-- `heartbeat` -/
def heartbeat (value : Json) (now : ℚ) : Except HealthExn Json :=
  match (value.getOrNull "version").asInt?, value.getOrNull "sources" with
  | some 1, .dict sources =>
    if sources.length = 0 ∨ 32 < sources.length then .error (.own "COLLECTOR_SUMMARY_INVALID")
    else do
      let timestamp ← epoch (value.getOrNull "observed_at")
      if now + 30 < timestamp then .error (.own "COLLECTOR_SUMMARY_FUTURE")
      else do
        heartbeatSources timestamp sources
        .ok (.dict [("version", .int 1), ("source", .str "collector-heartbeat"),
          ("kind", .str "observer-report"), ("observed_at", time timestamp),
          ("status", .str "HEALTHY"), ("reason", .str "COLLECTOR_HEARTBEAT_VERIFIED")])
  | _, _ => .error (.own "COLLECTOR_SUMMARY_INVALID")

theorem epoch_time {q : ℚ} (h : 0 ≤ q) : epoch (time q) = .ok q := by
  unfold epoch time
  rw [Json.finiteNumber_finite]
  exact if_neg (not_lt.mpr h)

/-- A row whose sample is not too far ahead. -/
theorem heartbeatSource_ok {timestamp : ℚ} {name : String} {row : Row} (hname : Text.isName name = true)
    (hpos : 0 ≤ row.observation.sampleAt) (hle : row.observation.sampleAt ≤ timestamp + 30) :
    heartbeatSource timestamp name row.toJson = .ok () := by
  have hstatus : (((row.toJson.getOrNull "status").asStr?).bind Status.ofText) =
      some row.observation.status := by
    show Status.ofText row.observation.status.text = _
    cases row.observation.status <;> decide
  have hsample : row.toJson.getOrNull "sample_at" = time row.observation.sampleAt := rfl
  unfold heartbeatSource
  rw [hname, hstatus, hsample, epoch_time hpos]
  show (if timestamp + 30 < row.observation.sampleAt then _ else _) = _
  exact if_neg (not_lt.mpr hle)

theorem heartbeatSources_ok {timestamp : ℚ} {sources : List (String × Json)}
    (h : ∀ p ∈ sources, heartbeatSource timestamp p.1 p.2 = .ok ()) :
    heartbeatSources timestamp sources = .ok () := by
  induction sources with
  | nil => rfl
  | cons p rest ih =>
      unfold heartbeatSources
      rw [h p List.mem_cons_self]
      exact ih fun q hq => h q (List.mem_cons_of_mem _ hq)

/-- **The heartbeat** accepts a summary with at most 32 sources and no sample ahead of it. -/
theorem heartbeat_ok {summary : Summary} {now : ℚ} (hsize : 1 ≤ summary.sources.size)
    (hmax : summary.sources.size ≤ 32) (hpos : 0 ≤ summary.observedAt)
    (hnow : summary.observedAt ≤ now + 30)
    (hrows : ∀ name row, summary.sources.get? name = some row → Text.isName name = true ∧
      0 ≤ row.observation.sampleAt ∧ row.observation.sampleAt ≤ summary.observedAt + 30) :
    ∃ report, heartbeat summary.toJson now = .ok report := by
  have hsources : summary.toJson.getOrNull "sources" = dictJson Row.toJson summary.sources := rfl
  have hversion : (summary.toJson.getOrNull "version").asInt? = some 1 := rfl
  have hat : summary.toJson.getOrNull "observed_at" = time summary.observedAt := rfl
  have hlength : (summary.sources.entries.map (fun p => (p.1, p.2.toJson))).length =
      summary.sources.size := List.length_map _
  have hall : heartbeatSources summary.observedAt
      (summary.sources.entries.map (fun p => (p.1, p.2.toJson))) = .ok () := by
    apply heartbeatSources_ok
    intro p hp
    obtain ⟨⟨name, row⟩, hm, rfl⟩ := List.mem_map.mp hp
    obtain ⟨hname, h0, hle⟩ := hrows name row (summary.sources.get?_eq_some_iff.mpr hm)
    exact heartbeatSource_ok hname h0 hle
  unfold heartbeat
  rw [hsources, hversion, hat, dictJson]
  show ∃ report, (if _ ∨ _ then _ else _) = Except.ok report
  rw [if_neg (by omega), epoch_time hpos]
  show ∃ report, (if now + 30 < summary.observedAt then _ else _) = Except.ok report
  rw [if_neg (not_lt.mpr hnow), hall]
  exact ⟨_, rfl⟩

end Health
end PickleInfra
