import PickleInfra.Health.Collect

/-!
# `Health.Documents` — the two files of the collector, as JSON

`State.toJson` and `Summary.toJson` are what `atomic_json` writes: floats for times, integers for
incident numbers, and no key for what a dictionary does not have. A state has more keys than are
written here; no reader looks at the streak counters and the deliveries.
-/

namespace PickleInfra
namespace Health

open Python

/-! ## Fields -/

/-- A time: `epoch` has made it a float. -/
def time (q : ℚ) : Json := .float (.finite q)

/-- A key that is there only if it has a value. -/
def field (key : String) (value : Option Json) : List (String × Json) :=
  (value.map (fun v => (key, v))).toList

/-- A value that may be `None`. -/
def orNull (value : Option Json) : Json := value.getD .null

def incidentJson (n : Nat) : Json := .int n

theorem lookup_field (k key : String) (value : Option Json) (rest : List (String × Json)) :
    Json.lookup k (field key value ++ rest) =
      if key = k then value.or (Json.lookup k rest) else Json.lookup k rest := by
  cases value with
  | none => by_cases h : key = k <;> simp [field, h]
  | some v => by_cases h : key = k <;> simp [field, Json.lookup, h]

theorem lookup_field_nil (k key : String) (value : Option Json) :
    Json.lookup k (field key value) = if key = k then value else none := by
  have h := lookup_field k key value []
  rw [List.append_nil] at h
  simpa [Json.lookup] using h

/-- A dictionary whose values are documents. -/
def dictJson {V : Type} (toJson : V → Json) (d : Dict String V) : Json :=
  .dict (d.entries.map (fun p => (p.1, toJson p.2)))

theorem item_dictJson {E V : Type} {toJson : V → Json} {d : Dict String V} {k : String} {v : V}
    (h : d.get? k = some v) : (dictJson toJson d).item k = (.ok (toJson v) : Except (Exn E) Json) := by
  refine Json.item_dict_of_lookup ?_
  rw [Json.lookup_map]
  exact congrArg (Option.map toJson) h

/-! ## `state.json` -/

/-- The keys of a target that identify its sample and its incidents. -/
def Machine.fields (m : Machine) : List (String × Json) :=
  field "sample_at" (m.sampleAt.map time)
    ++ (field "latest_status" (m.latestStatus.map (fun s => .str s.text))
    ++ (field "sequence" (if m.sequence = 0 then none else some (incidentJson m.sequence))
    ++ (field "incident" (m.incident.map incidentJson)
    ++ (field "opened_at" (m.openedAt.map time)
    ++ (field "closed_incident" (m.closedIncident.map incidentJson)
    ++ field "closed_at" (m.closedAt.map time))))))

def Entry.toJson (e : Entry) : Json :=
  .dict (("observer", .dict e.observer.fields) :: e.own.fields)

def State.toJson (s : State) : Json :=
  .dict (("sources", dictJson Entry.toJson s.sources)
    :: field "last_collection" (s.lastCollection.map time))

/-! ## `summary.json` -/

def Observation.fields (o : Observation) : List (String × Json) :=
  [("status", .str o.status.text), ("sample_at", time o.sampleAt), ("reason", .str o.reason),
    ("raw_status", .str ((o.rawStatus.map Status.text).getD "UNKNOWN")),
    ("source_sample_at", orNull (o.sourceSampleAt.map time)),
    ("source_reason", orNull (o.sourceReason.map .str)),
    ("unknown_reason", orNull (o.unknownReason.map (fun r => .str r.text)))]

def Row.toJson (row : Row) : Json :=
  .dict (row.observation.fields ++
    ([("incident", orNull (row.incident.map incidentJson)),
      ("observer_incident", orNull (row.observerIncident.map incidentJson)),
      ("event", .str row.event.text), ("observer_status", .str row.observerStatus.text),
      ("observer_event", .str row.observerEvent.text),
      ("suppressed_by", orNull (row.suppressedBy.map .str)),
      ("parent_status", orNull (row.parentStatus.map (fun s => .str s.text))),
      ("recovery_candidate_since", orNull (row.recoveryCandidateSince.map time))]
    ++ field "severity" (row.observation.severity.map .str)))

def Summary.toJson (s : Summary) : Json :=
  .dict [("version", .int 1), ("observed_at", time s.observedAt),
    ("sources", dictJson Row.toJson s.sources)]

end Health
end PickleInfra
