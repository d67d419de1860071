import PickleInfra.Metrics.Interval

/-!
# `Metrics.Document` — the JSON document of a snapshot

The keys are in the order in which `parse_snapshot` enters them.
-/

namespace PickleInfra
namespace Metrics

open Python

def jsonOfOption {α : Type} (f : α → Json) : Option α → Json
  | none   => .null
  | some x => f x

def stringsJson (xs : List String) : Json := .list (xs.map .str)

def labelsJson (labels : Labels) : Json := .dict (labels.map fun l => (l.1, .str l.2))

def Bound.toJson : Bound → Json
  | .num x => x.toJson
  | .inf   => .str "+Inf"

def Identity.toJson (i : Identity) : Json :=
  .dict [("sourceId", .str i.sourceId), ("bootId", jsonOfOption .str i.bootId),
    ("processId", jsonOfOption .str i.processId), ("configId", jsonOfOption .str i.configId)]

def stampJson (t : Option Num) : Json := jsonOfOption Num.toJson t

def gaugeJson (s : Scalar) : Json :=
  .dict [("name", .str s.head.family.name), ("labels", labelsJson s.head.labels),
    ("value", s.value.toJson), ("unit", .str s.head.family.unit.text),
    ("sampleAt", stampJson s.head.sampleAt), ("typeDeclared", .bool s.head.typeDeclared)]

def counterJson (s : Scalar) : Json :=
  .dict [("name", .str s.head.family.name), ("labels", labelsJson s.head.labels),
    ("value", s.value.toJson), ("unit", .str s.head.family.unit.text),
    ("sampleAt", stampJson s.head.sampleAt), ("typeDeclared", .bool s.head.typeDeclared),
    ("createdAt", stampJson s.head.createdAt)]

def histogramJson (s : Histogram) : Json :=
  .dict [("name", .str s.head.family.name), ("labels", labelsJson s.head.labels),
    ("unit", .str s.head.family.unit.text), ("count", s.count.toJson), ("sum", s.sum.toJson),
    ("typeDeclared", .bool s.head.typeDeclared), ("createdAt", stampJson s.head.createdAt),
    ("sampleAt", stampJson s.head.sampleAt), ("bounds", .list (s.bounds.map Bound.toJson)),
    ("counts", .list (s.counts.map Num.toJson))]

def Engine.toJson (e : Engine) : Json :=
  .dict [("modelName", .str e.modelName), ("engineId", .str e.engineId),
    ("gauges", .list (e.gauges.map gaugeJson)), ("counters", .list (e.counters.map counterJson)),
    ("histograms", .list (e.histograms.map histogramJson)),
    ("notReportedMetricNames", stringsJson e.notReported)]

def Snapshot.toJson (s : Snapshot) : Json :=
  .dict [("version", .int 1), ("observedAt", s.observedAt.toJson),
    ("sourceState", .str s.sourceState.text), ("identity", s.identity.toJson),
    ("engines", .list (s.engines.map Engine.toJson)),
    ("unsupportedMetricNames", stringsJson s.unsupported),
    ("notReportedMetricNames", stringsJson s.notReported)]

end Metrics
end PickleInfra
