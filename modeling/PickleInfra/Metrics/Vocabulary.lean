import PickleInfra.Metrics.Number
import PickleInfra.Python.Text

/-!
# `Metrics.Vocabulary` — the metric families (`DEFINITIONS`) and their sample names (`SAMPLES`)
-/

namespace PickleInfra
namespace Metrics

open Python

inductive Kind where
  | gauges
  | counters
  | histograms
deriving DecidableEq, Repr

inductive MetricUnit where
  | requests
  | state
  | ratio
  | tokens
  | preemptions
  | items
  | seconds
  | sequences
deriving DecidableEq, Repr

def MetricUnit.text : MetricUnit → String
  | .requests    => "requests"
  | .state       => "state"
  | .ratio       => "ratio"
  | .tokens      => "tokens"
  | .preemptions => "preemptions"
  | .items       => "items"
  | .seconds     => "seconds"
  | .sequences   => "sequences"

/-- One entry of `DEFINITIONS`. -/
structure Definition where
  name : String
  kind : Kind
  unit : MetricUnit
  extras : List String
deriving DecidableEq, Repr

def plain (kind : Kind) (unit : MetricUnit) (name : String) : Definition :=
  ⟨"vllm:" ++ name, kind, unit, []⟩

/-- `DEFINITIONS` -/
def definitions : List Definition :=
  [plain .gauges .requests "num_requests_running",
   plain .gauges .requests "num_requests_waiting",
   ⟨"vllm:num_requests_waiting_by_reason", .gauges, .requests, ["reason"]⟩,
   ⟨"vllm:engine_sleep_state", .gauges, .state, ["sleep_state"]⟩,
   plain .gauges .ratio "kv_cache_usage_perc"]
  ++ (["prompt_tokens_total", "generation_tokens_total", "prompt_tokens_cached_total",
      "prefix_cache_queries_total", "prefix_cache_hits_total",
      "external_prefix_cache_queries_total", "external_prefix_cache_hits_total"].map
        (plain .counters .tokens))
  ++ [plain .counters .preemptions "num_preemptions_total",
   plain .counters .items "mm_cache_queries_total",
   plain .counters .items "mm_cache_hits_total",
   ⟨"vllm:request_success_total", .counters, .requests, ["finished_reason"]⟩,
   ⟨"vllm:prompt_tokens_by_source_total", .counters, .tokens, ["source"]⟩]
  ++ (["time_to_first_token_seconds", "inter_token_latency_seconds",
      "request_time_per_output_token_seconds", "e2e_request_latency_seconds",
      "request_queue_time_seconds", "request_inference_time_seconds",
      "request_prefill_time_seconds", "request_decode_time_seconds"].map
        (plain .histograms .seconds))
  ++ (["request_prompt_tokens", "request_generation_tokens", "iteration_tokens_total",
      "request_max_num_generation_tokens", "request_params_max_tokens",
      "request_prefill_kv_computed_tokens"].map (plain .histograms .tokens))
  ++ [plain .histograms .sequences "request_params_n"]

/-- `DEFINITIONS[name]` -/
def definition? (name : String) : Option Definition := definitions.find? (fun d => d.name = name)

theorem name_of_definition? {name : String} {d : Definition} (h : definition? name = some d) :
    d.name = name := by
  have := List.find?_some h
  simpa using this

theorem mem_of_definition? {name : String} {d : Definition} (h : definition? name = some d) :
    d ∈ definitions := List.mem_of_find?_eq_some h

/-- `sorted(DEFINITIONS)`, as a set of names. -/
def definitionNames : List String := definitions.map Definition.name

inductive Part where
  | value
  | bucket
  | count
  | sum
  | created
deriving DecidableEq, Repr

/-- `name.removesuffix('_total')` -/
def withoutTotal (name : String) : String :=
  if "_total".toList.isSuffixOf name.toList then
    String.ofList (name.toList.take (name.toList.length - 6))
  else name

/-- The sample names of one family, with their parts. -/
def Definition.samples (d : Definition) : List (String × Part) :=
  match d.kind with
  | .histograms => [(d.name ++ "_bucket", .bucket), (d.name ++ "_count", .count),
      (d.name ++ "_sum", .sum), (d.name ++ "_created", .created)]
  | .counters   => [(d.name, .value), (withoutTotal d.name ++ "_created", .created)]
  | .gauges     => [(d.name, .value)]

/-- `SAMPLES`: the family and the part of a sample name. -/
def samples : List (String × Definition × Part) :=
  definitions.flatMap fun d => d.samples.map fun s => (s.1, d, s.2)

/-- `SAMPLES[name]` -/
def sample? (name : String) : Option (Definition × Part) :=
  (samples.find? (fun s => s.1 = name)).map Prod.snd

theorem nodup_definitionNames : definitionNames.Nodup := by decide +kernel

theorem sample?_mem {name : String} {family : Definition} {part : Part}
    (h : sample? name = some (family, part)) : (name, family, part) ∈ samples := by
  unfold sample? at h
  rw [Option.map_eq_some_iff] at h
  obtain ⟨⟨n, d, p⟩, hfind, h⟩ := h
  cases h
  have hname := List.find?_some hfind
  rw [decide_eq_true_eq] at hname
  dsimp only at hname
  exact hname ▸ List.mem_of_find?_eq_some hfind

theorem mem_samples {name : String} {family : Definition} {part : Part} :
    (name, family, part) ∈ samples ↔ family ∈ definitions ∧ (name, part) ∈ family.samples := by
  unfold samples
  rw [List.mem_flatMap]
  constructor
  · rintro ⟨d, hd, hmem⟩
    obtain ⟨s, hs, heq⟩ := List.mem_map.mp hmem
    obtain ⟨rfl, rfl, rfl⟩ := heq
    exact ⟨hd, hs⟩
  · rintro ⟨hd, hs⟩
    exact ⟨family, hd, List.mem_map.mpr ⟨(name, part), hs, rfl⟩⟩

/-- A family has one sample name for each of its parts. -/
theorem sample_unique {family : Definition} {name name' : String} {part : Part}
    (h : (name, part) ∈ family.samples) (h' : (name', part) ∈ family.samples) : name = name' := by
  unfold Definition.samples at h h'
  cases hkind : family.kind with
  | gauges =>
      rw [hkind] at h h'
      simp only [List.mem_singleton, Prod.mk.injEq] at h h'
      rw [h.1, h'.1]
  | counters | histograms =>
      rw [hkind] at h h'
      simp only [List.mem_cons, List.not_mem_nil, or_false, Prod.mk.injEq] at h h'
      cases part <;> simp_all

/-- The parts of a family are those of its kind. -/
theorem sample_part {family : Definition} {name : String} {part : Part} (h : (name, part) ∈ family.samples) :
    (family.kind = .histograms ↔ part ≠ .value ∧ ¬ (part = .created ∧ family.kind = .counters)) ∧
      (family.kind = .gauges → part = .value) := by
  unfold Definition.samples at h
  cases hkind : family.kind with
  | gauges =>
      rw [hkind] at h
      simp only [List.mem_singleton, Prod.mk.injEq] at h
      simp [h.2]
  | counters | histograms =>
      rw [hkind] at h
      simp only [List.mem_cons, List.not_mem_nil, or_false, Prod.mk.injEq] at h
      cases part <;> simp_all

end Metrics
end PickleInfra
