import PickleInfra.Health.Targets
import PickleInfra.Transport.Envelope

/-!
# `Transport.Sanitized` — a sanitized document is accepted again

Every check returns a value that it accepts, so what `sanitize_report` and `sanitize_policy` returned, printed
with sorted keys and read back, is sanitized to the same document, at any clock at which its times pass.
-/

namespace PickleInfra
namespace Transport

open Python Health

/-! ## Checks of one value -/

theorem stringOf_eq_ok {test : String → Bool} {error s : String} {x : Json} :
    stringOf test error x = .ok s ↔ x = .str s ∧ test s = true := by
  cases x with
  | str t =>
      show (if test t then Except.ok t else _) = .ok s ↔ _
      by_cases ht : test t = true
      · rw [if_pos ht, Except.ok.injEq, Json.str.injEq]
        constructor
        · rintro rfl
          exact ⟨rfl, ht⟩
        · exact And.left
      · rw [if_neg ht]
        constructor
        · intro h
          cases h
        · rintro ⟨heq, hs⟩
          exact absurd (Json.str.inj heq ▸ hs) ht
  | null | bool | int | float | list | dict =>
      constructor
      · intro h
        cases h
      · rintro ⟨h, -⟩
        cases h

theorem textThat_eq_ok {test : String → Bool} {error : String} {x y : Json} :
    textThat test error x = .ok y ↔ ∃ s, x = .str s ∧ y = .str s ∧ test s = true := by
  unfold textThat
  constructor
  · intro h
    cases hs : stringOf test error x with
    | ok s =>
        rw [hs] at h
        obtain ⟨hx, htest⟩ := stringOf_eq_ok.mp hs
        exact ⟨s, hx, (Except.ok.inj h).symm, htest⟩
    | error e =>
        rw [hs] at h
        cases h
  · rintro ⟨s, hx, rfl, htest⟩
    rw [stringOf_eq_ok.mpr ⟨hx, htest⟩]
    rfl

theorem stable_textThat (test : String → Bool) (error : String) : Stable (textThat test error) := by
  apply stable_of_atom
  intro x y h
  obtain ⟨s, -, rfl, htest⟩ := textThat_eq_ok.mp h
  exact ⟨textThat_eq_ok.mpr ⟨s, rfl, rfl, htest⟩, Json.isAtom_str s⟩

theorem eq_of_isInt {n : Int} {x : Json} (h : isInt n x = true) : x = .int n := by
  cases x with
  | int m => exact congrArg Json.int (Option.some.inj (of_decide_eq_true h))
  | null | bool | float | str | list | dict => cases h

theorem isAtom_of_finiteNumber {x : Json} {q : ℚ} {bad : HealthExn} (h : x.finiteNumber bad = .ok q) :
    x.IsAtom := by
  cases x with
  | int n => exact Json.isAtom_int n
  | float f => exact Json.isAtom_float f
  | null | bool | str | list | dict => cases h

/-- A number is returned as it was. -/
theorem number_eq_ok {maximum : Int} {x y : Json} (h : number maximum x = .ok y) : y = x ∧ x.IsAtom := by
  unfold number at h
  obtain ⟨q, hq, h⟩ := bind_eq_ok.mp h
  obtain ⟨_, -, h⟩ := bind_eq_ok.mp h
  exact ⟨(Except.ok.inj h).symm, isAtom_of_finiteNumber hq⟩

theorem stable_number (maximum : Int) : Stable (number maximum) := by
  apply stable_of_atom
  intro x y h
  obtain ⟨rfl, hatom⟩ := number_eq_ok h
  exact ⟨h, hatom⟩

theorem stable_numberOrNull (maximum : Int) : Stable (numberOrNull maximum) := by
  apply stable_of_atom
  intro x y h
  unfold numberOrNull at h
  split at h
  · obtain rfl := Except.ok.inj h
    exact ⟨rfl, Json.isAtom_null⟩
  · next hnull =>
    obtain ⟨rfl, hatom⟩ := number_eq_ok h
    refine ⟨?_, hatom⟩
    unfold numberOrNull
    rw [if_neg hnull]
    exact h

theorem stable_httpStatus : Stable httpStatus := by
  apply stable_of_atom
  intro x y h
  have hx := h
  unfold httpStatus at hx
  obtain ⟨_, hrange, hx⟩ := bind_eq_ok.mp hx
  obtain rfl := Except.ok.inj hx
  rw [rejectIf_eq_ok] at hrange
  refine ⟨h, ?_⟩
  cases x with
  | int n => exact Json.isAtom_int n
  | null | bool | float | str | list | dict => cases hrange

theorem stable_boolean : Stable boolean := by
  apply stable_of_atom
  intro x y h
  cases x with
  | bool b =>
      obtain rfl := Except.ok.inj h
      exact ⟨rfl, Json.isAtom_bool b⟩
  | null | int | float | str | list | dict => cases h

theorem stable_bootId : Stable bootId := by
  apply stable_of_atom
  intro x y h
  cases x with
  | str t =>
      obtain ⟨s, -, rfl, htest⟩ := textThat_eq_ok.mp h
      exact ⟨textThat_eq_ok.mpr ⟨s, rfl, rfl, htest⟩, Json.isAtom_str s⟩
  | null | bool | int | float | list | dict => cases h

/-! ## `metrics` -/

theorem metric_eq_ok {e e' : String × Json} (h : metric e = .ok e') : e' = e ∧ e.2.IsAtom := by
  obtain ⟨y, hy, h⟩ := bind_eq_ok.mp h
  obtain ⟨rfl, hatom⟩ := number_eq_ok hy
  exact ⟨(Except.ok.inj h).symm, hatom⟩

theorem stable_metrics : Stable metrics := by
  intro x y h
  unfold metrics at h
  split at h
  · next kvs =>
    obtain ⟨_, hkeys, h⟩ := bind_eq_ok.mp h
    obtain ⟨items, hitems, h⟩ := bind_eq_ok.mp h
    obtain rfl := Except.ok.inj h
    have heach := mapM_eq_ok.mp hitems
    -- every entry is returned as it was, so the values have no keys to sort
    have hsame : items = kvs := by
      refine (List.forall₂_eq_eq_eq ▸ heach.imp ?_ : kvs = items).symm
      intro e e' he
      exact (metric_eq_ok he).1.symm
    subst hsame
    have haccepted : ∀ e ∈ items, metric e = .ok e := by
      rw [List.forall₂_same] at heach
      exact heach
    have hsorted : (Json.dict items).sorted = .dict (Json.sortMembers items) := by
      rw [Json.sorted_dict]
      congr 2
      conv_rhs => rw [← List.map_id items]
      apply List.map_congr_left
      intro e he
      exact Prod.ext rfl (metric_eq_ok (haccepted e he)).2
    have hperm := Json.perm_sortMembers items
    refine ⟨(Json.dict items).sorted, ?_, Json.sorted_sorted _⟩
    rw [hsorted]
    unfold metrics
    have hkeys' : (!(Json.sortMembers items).all fun e => METRICS.contains e.1) = false := by
      rw [rejectIf_eq_ok, Bool.not_eq_false', List.all_eq_true] at hkeys
      rw [Bool.not_eq_false', List.all_eq_true]
      exact fun e he => hkeys e (hperm.mem_iff.mp he)
    have hmapM : (Json.sortMembers items).mapM metric = .ok (Json.sortMembers items) := by
      rw [mapM_eq_ok, List.forall₂_same]
      exact fun e he => haccepted e (hperm.mem_iff.mp he)
    show (rejectIf _ _ >>= fun _ => (Json.sortMembers items).mapM metric >>= fun items => pure (Json.dict items)) = _
    rw [hkeys', hmapM]
    rfl
  · cases h

/-! ## `host` -/

theorem stable_hostFields : ∀ f ∈ hostFields, Stable f.check := by
  intro f hf
  simp only [hostFields, HOST_NUMBERS, List.map_cons, List.map_nil, List.cons_append, List.nil_append,
    List.mem_cons, List.not_mem_nil, or_false] at hf
  rcases hf with rfl | rfl | rfl | rfl | rfl | rfl | rfl | rfl | rfl
  · exact stable_textThat _ _
  · exact stable_bootId
  · exact stable_number _
  · exact stable_number _
  · exact stable_number _
  · exact stable_number _
  · exact stable_number _
  · exact stable_textThat _ _
  · exact stable_textThat _ _

/-- The host report is projected to its status and its fields. -/
theorem hostReport_eq_ok {x y : Json} (h : hostReport x = .ok y) :
    ∃ status rest, x.getOrNull "status" = .str status ∧ status ∈ STATES ∧ project hostFields x = .ok rest ∧
      y = .dict (("status", .str status) :: rest) := by
  unfold hostReport at h
  obtain ⟨_, -, h⟩ := bind_eq_ok.mp h
  obtain ⟨known, hknown, h⟩ := bind_eq_ok.mp h
  obtain ⟨_, hstates, h⟩ := bind_eq_ok.mp h
  obtain ⟨rest, hrest, h⟩ := bind_eq_ok.mp h
  rw [rejectIf_eq_ok, Bool.not_eq_false'] at hstates
  rw [hstates] at hknown
  obtain ⟨status, hstatus, hmem⟩ := Json.memberOf_eq_true hknown
  rw [hstatus] at h
  exact ⟨status, rest, hstatus, hmem, hrest, (Except.ok.inj h).symm⟩

theorem stable_hostReport : Stable hostReport := by
  intro x y h
  obtain ⟨status, rest, -, hmem, hrest, rfl⟩ := hostReport_eq_ok h
  have hstatus : (Json.dict (("status", .str status) :: rest)).sorted.getOrNull "status" = .str status := by
    rw [Json.getOrNull_sorted]
    exact Json.sorted_str status
  have hother : ∀ f ∈ hostFields, (Json.dict (("status", .str status) :: rest)).sorted.get? f.key =
      (Json.lookup f.key rest).map Json.sorted := by
    intro f hf
    rw [Json.get?_sorted]
    have hne : "status" ≠ f.key := by
      have hkeys : "status" ∉ hostFields.map CheckedField.key := by decide
      exact fun heq => hkeys (heq ▸ List.mem_map_of_mem hf)
    exact congrArg (Option.map Json.sorted) (if_neg hne)
  have hnodup : (hostFields.map CheckedField.key).Nodup := by decide
  obtain ⟨rest', hrest', hsame⟩ := project_stable hnodup stable_hostFields hrest hother
  refine ⟨.dict (("status", .str status) :: rest'), ?_, ?_⟩
  · have hknown : Json.memberOf STATES (.str status) = (.ok true : Except HealthExn Bool) :=
      congrArg Except.ok (List.contains_iff_mem.mpr hmem)
    unfold hostReport
    rw [Json.isDict_sorted, hstatus, hknown, hrest']
    rfl
  · apply sorted_dict_congr
    show (_, Json.sorted (.str status)) :: canonicalEntries rest' = (_, Json.sorted (.str status)) :: canonicalEntries rest
    rw [hsame]

/-! ## Reports -/

/-- What the checks of the base fields come to. -/
structure BaseOk (value : Json) (source : String) (now : ℚ) : Prop where
  dict : value.isDict = true
  known : source ∈ SOURCES
  timely : ∃ t, epoch (value.getOrNull "observed_at") = .ok t ∧ t ≤ now + 30
  version : value.getOrNull "version" = .int 1
  named : value.getOrNull "source" = .str source
  kind : ∃ kind ∈ KINDS, value.getOrNull "kind" = .str kind
  status : ∃ status ∈ STATES, value.getOrNull "status" = .str status
  policy : ((value.getOrNull "kind").isStr "access-policy" && source ≠ "staging-access-policy") = false

theorem memberOf_str {names : List String} {s : String} (h : s ∈ names) :
    Json.memberOf names (.str s) = (.ok true : Except HealthExn Bool) :=
  congrArg Except.ok (List.contains_iff_mem.mpr h)

theorem checkBase_eq_ok {value : Json} {source : String} {now : ℚ} :
    checkBase value source now = .ok () ↔ BaseOk value source now := by
  unfold checkBase
  simp only [bind_eq_ok, rejectIf_eq_ok]
  constructor
  · rintro ⟨_, hvalue, t, ht, _, hversion, kind, hkind, _, hkinds, status, hstatus, _, htime, hpolicy⟩
    rw [Bool.not_eq_false', Bool.and_eq_true] at hvalue hversion
    rw [Bool.not_eq_false'] at hkinds
    rw [Bool.or_eq_false_iff, Bool.not_eq_false', decide_eq_false_iff_not, not_lt] at htime
    subst hkinds
    rw [htime.1] at hstatus
    obtain ⟨kind, hkind, hmem⟩ := Json.memberOf_eq_true hkind
    obtain ⟨status, hstatus, hmem'⟩ := Json.memberOf_eq_true hstatus
    refine ⟨hvalue.1, List.contains_iff_mem.mp hvalue.2, ⟨t, ht, htime.2⟩, ?_, Json.eq_of_isStr hversion.2,
      ⟨kind, hmem, hkind⟩, ⟨status, hmem', hstatus⟩, hpolicy⟩
    exact eq_of_isInt hversion.1
  · rintro ⟨hdict, hknown, ⟨t, ht, hle⟩, hversion, hnamed, ⟨kind, hkind, hkind'⟩, ⟨status, hstatus, hstatus'⟩, hpolicy⟩
    refine ⟨(), ?_, t, ht, (), ?_, true, ?_, (), rfl, true, ?_, (), ?_, hpolicy⟩
    · rw [hdict, List.contains_iff_mem.mpr hknown]
      rfl
    · rw [hversion, hnamed]
      simp [isInt, Json.asInt?, Json.isStr]
    · rw [hkind']
      exact memberOf_str hkind
    · rw [hstatus']
      exact memberOf_str hstatus
    · rw [Bool.not_true, Bool.false_or, decide_eq_false_iff_not, not_lt]
      exact hle

theorem lookup_base (k : String) (value : Json) :
    Json.lookup k (base value) = if k ∈ baseKeys then some (value.getOrNull k) else none := by
  unfold base
  induction baseKeys with
  | nil => rfl
  | cons key keys ih =>
      show (if key = k then some (value.getOrNull key) else Json.lookup k (keys.map _)) = _
      by_cases hk : key = k
      · subst hk
        rw [if_pos rfl, if_pos List.mem_cons_self]
      · rw [if_neg hk, ih]
        simp only [List.mem_cons, Ne.symm hk, false_or]

/-- The keys of the fields that a report may have. -/
def reportKeys : List String :=
  ["phase", "target", "reason", "metrics_reason", "latency_seconds", "certificate_remaining_seconds",
    "completion_tokens", "prompt_tokens", "generation_counter_delta", "http_status", "answer_correct",
    "counter_reset", "metrics_status", "metrics", "host"]

theorem reportFields_keys (source : String) : (reportFields source).map CheckedField.key = reportKeys := rfl

theorem stable_reportFields (source : String) : ∀ f ∈ reportFields source, Stable f.check := by
  intro f hf
  simp only [reportFields, NUMBERS, List.map_cons, List.map_nil, List.cons_append, List.nil_append,
    List.mem_cons, List.not_mem_nil, or_false] at hf
  rcases hf with rfl | rfl | rfl | rfl | rfl | rfl | rfl | rfl | rfl | rfl | rfl | rfl | rfl | rfl | rfl
  · exact stable_textThat _ _
  · exact stable_textThat _ _
  · exact stable_textThat _ _
  · exact stable_textThat _ _
  · exact stable_numberOrNull _
  · exact stable_numberOrNull _
  · exact stable_numberOrNull _
  · exact stable_numberOrNull _
  · exact stable_numberOrNull _
  · exact stable_httpStatus
  · exact stable_boolean
  · exact stable_boolean
  · exact stable_textThat _ _
  · exact stable_metrics
  · exact stable_hostReport

/-- What `severityField` returns. -/
theorem severityField_eq_ok {value : Json} {source : String} {severity : List (String × Json)} :
    severityField value source = .ok severity ↔
      ((value.getOrNull "kind").isStr "tls-expiry-warning" = true ∧ source = "public-staging-expiry-warning" ∧
        value.getOrNull "severity" = .str "warning" ∧ severity = [("severity", .str "warning")]) ∨
      ((value.getOrNull "kind").isStr "tls-expiry-warning" = false ∧ value.get? "severity" = none ∧
        severity = []) := by
  unfold severityField
  cases hkind : (value.getOrNull "kind").isStr "tls-expiry-warning" with
  | true =>
      simp only [if_true, bind_eq_ok, rejectIf_eq_ok, true_and, Bool.true_eq_false, false_and, or_false]
      constructor
      · rintro ⟨_, hwarning, h⟩
        rw [Bool.or_eq_false_iff, decide_eq_false_iff_not, not_not, Bool.not_eq_false'] at hwarning
        exact ⟨hwarning.1, Json.eq_of_isStr hwarning.2, (Except.ok.inj h).symm⟩
      · rintro ⟨rfl, hwarning, rfl⟩
        refine ⟨(), ?_, rfl⟩
        rw [hwarning]
        decide
  | false =>
      simp only [Bool.false_eq_true, if_false, bind_eq_ok, rejectIf_eq_ok, true_and, false_and, false_or]
      constructor
      · rintro ⟨_, hnone, h⟩
        exact ⟨Option.not_isSome_iff_eq_none.mp (Bool.eq_false_iff.mp hnone), (Except.ok.inj h).symm⟩
      · rintro ⟨hnone, rfl⟩
        refine ⟨(), ?_, rfl⟩
        rw [hnone]
        rfl

theorem sanitizeReport_eq_ok {value r : Json} {source : String} {now : ℚ} :
    sanitizeReport value source now = .ok r ↔ BaseOk value source now ∧ ∃ severity rest,
      severityField value source = .ok severity ∧ project (reportFields source) value = .ok rest ∧
      r = .dict (base value ++ severity ++ rest) := by
  unfold sanitizeReport
  simp only [bind_eq_ok, ← checkBase_eq_ok]
  constructor
  · rintro ⟨_, hbase, severity, hseverity, rest, hrest, h⟩
    exact ⟨hbase, severity, rest, hseverity, hrest, (Except.ok.inj h).symm⟩
  · rintro ⟨hbase, severity, rest, hseverity, hrest, rfl⟩
    exact ⟨(), hbase, severity, hseverity, rest, hrest, rfl⟩

/-- A base field of a sanitized report is the one of its source. -/
theorem getOrNull_base {value : Json} {k : String} (hk : k ∈ baseKeys) (rest : List (String × Json)) :
    (Json.dict (base value ++ rest)).sorted.getOrNull k = (value.getOrNull k).sorted := by
  have hlookup : Json.lookup k (base value ++ rest) = some (value.getOrNull k) := by
    rw [Json.lookup_append, lookup_base, if_pos hk, Option.some_or]
  rw [Json.getOrNull_sorted]
  exact congrArg Json.sorted (Json.getOrNull_of_get? hlookup)

theorem getOrNull_extra {value : Json} {k : String} (hk : k ∉ baseKeys) (rest : List (String × Json)) :
    (Json.dict (base value ++ rest)).sorted.get? k = (Json.lookup k rest).map Json.sorted := by
  have hlookup : Json.lookup k (base value ++ rest) = Json.lookup k rest := by
    rw [Json.lookup_append, lookup_base, if_neg hk, Option.none_or]
  rw [Json.get?_sorted]
  exact congrArg (Option.map Json.sorted) hlookup

/-- The base fields of a report that was accepted have no keys. -/
theorem BaseOk.atom {value : Json} {source : String} {now : ℚ} (h : BaseOk value source now) {k : String}
    (hk : k ∈ baseKeys) : (value.getOrNull k).IsAtom := by
  simp only [baseKeys, List.mem_cons, List.not_mem_nil, or_false] at hk
  rcases hk with rfl | rfl | rfl | rfl | rfl
  · rw [h.version]
    exact Json.isAtom_int 1
  · rw [h.named]
    exact Json.isAtom_str source
  · obtain ⟨kind, -, hkind⟩ := h.kind
    rw [hkind]
    exact Json.isAtom_str kind
  · obtain ⟨t, ht, -⟩ := h.timely
    unfold epoch at ht
    split at ht
    · cases ht
    · next q hq => exact isAtom_of_finiteNumber hq
  · obtain ⟨status, -, hstatus⟩ := h.status
    rw [hstatus]
    exact Json.isAtom_str status

/-- **A sanitized report is accepted again**, at every clock at which it is not from the future, and sanitized
    to the same report. -/
theorem sanitizeReport_stable {value r : Json} {source : String} {now now' : ℚ}
    (h : sanitizeReport value source now = .ok r)
    (htime : ∃ t, epoch (r.getOrNull "observed_at") = .ok t ∧ t ≤ now' + 30) :
    ∃ r', sanitizeReport r.sorted source now' = .ok r' ∧ r'.sorted = r.sorted := by
  obtain ⟨hbase, severity, rest, hseverity, hrest, rfl⟩ := sanitizeReport_eq_ok.mp h
  rw [List.append_assoc] at htime ⊢
  have hsame : ∀ k ∈ baseKeys, (Json.dict (base value ++ (severity ++ rest))).sorted.getOrNull k =
      value.getOrNull k := fun k hk => (getOrNull_base hk _).trans (hbase.atom hk)
  have hbase' : BaseOk (Json.dict (base value ++ (severity ++ rest))).sorted source now' := by
    refine ⟨Json.isDict_sorted _, hbase.known, ?_, ?_, ?_, ?_, ?_, ?_⟩
    · obtain ⟨t, ht, hle⟩ := htime
      have hunsorted : (Json.dict (base value ++ (severity ++ rest))).getOrNull "observed_at" =
          value.getOrNull "observed_at" := by
        apply Json.getOrNull_of_get?
        show Json.lookup "observed_at" (base value ++ (severity ++ rest)) = _
        rw [Json.lookup_append, lookup_base, if_pos (by decide), Option.some_or]
      rw [hunsorted] at ht
      rw [hsame "observed_at" (by decide)]
      exact ⟨t, ht, hle⟩
    · rw [hsame "version" (by decide)]
      exact hbase.version
    · rw [hsame "source" (by decide)]
      exact hbase.named
    · rw [hsame "kind" (by decide)]
      exact hbase.kind
    · rw [hsame "status" (by decide)]
      exact hbase.status
    · rw [hsame "kind" (by decide)]
      exact hbase.policy
  have hrest_severity : Json.lookup "severity" rest = none := by
    apply lookup_project_other _ hrest
    rw [reportFields_keys]
    decide
  have hseverity' : severityField (Json.dict (base value ++ (severity ++ rest))).sorted source = .ok severity := by
    rw [severityField_eq_ok, hsame "kind" (by decide)]
    have hget := @getOrNull_extra value "severity" (by decide) (severity ++ rest)
    rw [Json.lookup_append, hrest_severity, Option.or_none] at hget
    rcases severityField_eq_ok.mp hseverity with ⟨hkind, hsource, -, rfl⟩ | ⟨hkind, -, rfl⟩
    · left
      refine ⟨hkind, hsource, ?_, rfl⟩
      rw [Json.getOrNull_of_get? hget]
      exact Json.sorted_str _
    · right
      exact ⟨hkind, hget, rfl⟩
  have hfields : ∀ f ∈ reportFields source, (Json.dict (base value ++ (severity ++ rest))).sorted.get? f.key =
      (Json.lookup f.key rest).map Json.sorted := by
    intro f hf
    have hkey : f.key ∈ reportKeys := reportFields_keys source ▸ List.mem_map_of_mem hf
    have hnot : f.key ∉ baseKeys ∧ f.key ≠ "severity" := by
      have hall : ∀ k ∈ reportKeys, k ∉ baseKeys ∧ k ≠ "severity" := by decide
      exact hall f.key hkey
    have hnone : Json.lookup f.key severity = none := by
      rcases severityField_eq_ok.mp hseverity with ⟨-, -, -, rfl⟩ | ⟨-, -, rfl⟩
      · exact if_neg (Ne.symm hnot.2)
      · rfl
    rw [getOrNull_extra hnot.1, Json.lookup_append, hnone, Option.none_or]
  have hnodup : ((reportFields source).map CheckedField.key).Nodup := by
    rw [reportFields_keys]
    decide
  obtain ⟨rest', hrest', hentries⟩ := project_stable hnodup (stable_reportFields source) hrest hfields
  refine ⟨_, sanitizeReport_eq_ok.mpr ⟨hbase', severity, rest', hseverity', hrest', rfl⟩, ?_⟩
  have hbases : base (Json.dict (base value ++ (severity ++ rest))).sorted = base value :=
    List.map_congr_left fun k hk => Prod.ext rfl (hsame k hk)
  apply sorted_dict_congr
  rw [hbases, List.append_assoc, canonicalEntries_append, canonicalEntries_append, hentries,
    canonicalEntries_append, canonicalEntries_append]

/-- A report of the reader's own. -/
def plainReport (source : String) (t : ℚ) (status reason : String) : Json :=
  .dict [("version", .int 1), ("source", .str source), ("kind", .str "observer-report"),
    ("observed_at", time t), ("status", .str status), ("reason", .str reason)]

/-- The reader's own reports pass. -/
theorem sanitizeReport_plain {source status reason : String} {t now : ℚ} (hsource : source ∈ SOURCES)
    (hstatus : status ∈ STATES) (hreason : safeReason reason = true) (ht : 0 ≤ t) (hle : t ≤ now + 30) :
    sanitizeReport (plainReport source t status reason) source now = .ok (plainReport source t status reason) := by
  rw [sanitizeReport_eq_ok]
  refine ⟨⟨rfl, hsource, ⟨t, epoch_time ht, hle⟩, rfl, rfl, ⟨"observer-report", by decide, rfl⟩,
    ⟨status, hstatus, rfl⟩, rfl⟩, [], [("reason", .str reason)], rfl, ?_, rfl⟩
  have htext : reasonText "REPORT_REASON_INVALID" (.str reason) = .ok (.str reason) :=
    textThat_eq_ok.mpr ⟨reason, rfl, rfl, hreason⟩
  show (reasonText "REPORT_REASON_INVALID" (.str reason) >>= fun y => pure [] >>= fun rest =>
    pure (("reason", y) :: rest)) = _
  rw [htext]
  rfl

/-! ## Policy attestations -/

theorem getOrNull_sorted_of {v x : Json} {k : String} (h : v.getOrNull k = x) :
    v.sorted.getOrNull k = x.sorted := by
  rw [Json.getOrNull_sorted, h]

theorem epoch_sorted (v : Json) : epoch v.sorted = epoch v := by
  cases v <;> rw [Json.sorted] <;> rfl

theorem sorted_time (t : ℚ) : (time t).sorted = time t := Json.isAtom_float _

/-- What the checks come to that every attestation passes. -/
structure Attested (value : Json) (valid : Bool) (issued expires now : ℚ) : Prop where
  dict : value.isDict = true
  kind : value.getOrNull "kind" = .str POLICY_KIND
  valid_eq : value.getOrNull "valid" = .bool valid
  issued_at : epoch (value.getOrNull "issued_at") = .ok issued
  expires_at : epoch (value.getOrNull "expires_at") = .ok expires
  timely : issued ≤ now + 30
  issued_le : issued ≤ maxTime
  expires_le : expires ≤ maxTime

/-- The attestation that is returned where `valid` is false. -/
def deniedJson (issued expires : ℚ) (reason : String) : Json :=
  .dict [("kind", .str POLICY_KIND), ("valid", .bool false), ("issued_at", time issued),
    ("expires_at", time expires), ("reason", .str reason)]

theorem sanitizePolicy_eq_ok {value p : Json} {now : ℚ} : sanitizePolicy value now = .ok p ↔
    ∃ valid issued expires, Attested value valid issued expires now ∧
      ((valid = true ∧ validPolicy value issued expires now = .ok p) ∨
        (valid = false ∧ expires = issued ∧ ∃ reason ∈ POLICY_REASONS, value.getOrNull "reason" = .str reason ∧
          p = deniedJson issued expires reason)) := by
  unfold sanitizePolicy
  simp only [bind_eq_ok, rejectIf_eq_ok, Bool.not_eq_false', Bool.and_eq_true]
  constructor
  · rintro ⟨_, ⟨hdict, hkind⟩, h⟩
    split at h
    · next valid hvalid =>
      simp only [bind_eq_ok, rejectIf_eq_ok, Bool.or_eq_false_iff, decide_eq_false_iff_not, not_lt] at h
      obtain ⟨issued, hissued, expires, hexpires, _, ⟨⟨htimely, hissued_le⟩, hexpires_le⟩, h⟩ := h
      refine ⟨valid, issued, expires, ⟨hdict, Json.eq_of_isStr hkind, hvalid, hissued, hexpires, htimely,
        hissued_le, hexpires_le⟩, ?_⟩
      cases valid with
      | true => exact .inl ⟨rfl, h⟩
      | false =>
          right
          simp only [Bool.false_eq_true, if_false, bind_eq_ok, rejectIf_eq_ok, Bool.or_eq_false_iff,
            Bool.not_eq_false', decide_eq_false_iff_not, not_not] at h
          obtain ⟨known, hknown, _, ⟨rfl, hsame⟩, h⟩ := h
          obtain ⟨reason, hreason, hmem⟩ := Json.memberOf_eq_true hknown
          rw [hreason] at h
          exact ⟨rfl, hsame, reason, hmem, hreason, (Except.ok.inj h).symm⟩
    · cases h
  · rintro ⟨valid, issued, expires, h, hcase⟩
    refine ⟨(), ⟨h.dict, by simp [h.kind, Json.isStr]⟩, ?_⟩
    rw [h.valid_eq]
    simp only [bind_eq_ok, rejectIf_eq_ok, Bool.or_eq_false_iff, decide_eq_false_iff_not, not_lt]
    refine ⟨issued, h.issued_at, expires, h.expires_at, (), ⟨⟨h.timely, h.issued_le⟩, h.expires_le⟩, ?_⟩
    rcases hcase with ⟨rfl, hp⟩ | ⟨rfl, hsame, reason, hmem, hreason, rfl⟩
    · exact hp
    · rw [hreason]
      simp only [Bool.false_eq_true, if_false, bind_eq_ok, rejectIf_eq_ok, Bool.or_eq_false_iff,
        Bool.not_eq_false', decide_eq_false_iff_not, not_not]
      exact ⟨true, memberOf_str hmem, (), ⟨rfl, hsame⟩, rfl⟩

/-- `server_enforced` as it is returned. -/
def serverJson (model : String) (expiry : ℚ) : Json :=
  .dict ([("operations", .list [.str "chat"]), ("effective_models", .list [.str model]), ("fallback", .null),
    ("route", .str "SELF_HOSTED")] ++ limitsJson SERVER_LIMITS ++ [("expires_at", time expiry)])

/-- A valid attestation as it is returned. -/
def grantedJson (issued expires expiry : ℚ) (origin model key serverPolicy : String) : Json :=
  .dict [("kind", .str POLICY_KIND), ("valid", .bool true), ("issued_at", time issued),
    ("expires_at", time expires), ("key_sha256", .str key), ("server_policy_sha256", .str serverPolicy),
    ("gateway_origin", .str origin), ("model", .str model), ("student_account", .bool false),
    ("server_enforced", serverJson model expiry), ("probe_enforced", .dict (limitsJson POLICY_PROBE))]

theorem serverEnforced_eq_ok {model : String} {server p : Json} {expires : ℚ}
    (h : serverEnforced model server expires = .ok p) :
    ∃ expiry, 0 ≤ expiry ∧ expires ≤ expiry ∧ expiry ≤ maxTime ∧ p = serverJson model expiry := by
  unfold serverEnforced at h
  simp only [bind_eq_ok, rejectIf_eq_ok, Bool.not_eq_false', Bool.and_eq_true, decide_eq_true_eq] at h
  obtain ⟨_, -, _, -, expiry, hexpiry, _, ⟨hle, hmax⟩, h⟩ := h
  exact ⟨expiry, epoch_ok hexpiry, hle, hmax, (Except.ok.inj h).symm⟩

/-- What is left of a valid attestation. -/
theorem validPolicy_eq_ok {value p : Json} {issued expires now : ℚ}
    (h : validPolicy value issued expires now = .ok p) :
    issued ≤ now ∧ now ≤ expires ∧ 0 < expires - issued ∧ expires - issued ≤ 180 ∧
      ∃ expiry origin model key serverPolicy, 0 ≤ expiry ∧ expires ≤ expiry ∧ expiry ≤ maxTime ∧
        isOrigin origin = true ∧ isModel model = true ∧ Text.fullmatch Text.isHex 64 64 key = true ∧
        Text.fullmatch Text.isHex 64 64 serverPolicy = true ∧
        p = grantedJson issued expires expiry origin model key serverPolicy := by
  unfold validPolicy at h
  simp only [bind_eq_ok, rejectIf_eq_ok, Bool.not_eq_false', Bool.and_eq_true, decide_eq_true_eq] at h
  obtain ⟨_, ⟨⟨⟨hstarted, hrunning⟩, hspan⟩, hshort⟩, origin, horigin, model, hmodel, key, hkey, serverPolicy,
    hserverPolicy, _, -, _, -, server, hserver, _, -, h⟩ := h
  obtain ⟨expiry, hpos, hle, hmax, rfl⟩ := serverEnforced_eq_ok hserver
  exact ⟨hstarted, hrunning, hspan, hshort, expiry, origin, model, key, serverPolicy, hpos, hle, hmax,
    (stringOf_eq_ok.mp horigin).2, (stringOf_eq_ok.mp hmodel).2, (stringOf_eq_ok.mp hkey).2,
    (stringOf_eq_ok.mp hserverPolicy).2, (Except.ok.inj h).symm⟩

theorem sorted_singleton (s : String) : (Json.list [.str s]).sorted = .list [.str s] := by
  rw [Json.sorted_list, List.map_singleton, Json.sorted_str]

/-- The limits that were written are read back. -/
theorem checkLimits_sorted {limits : List (String × Int)} {error : String} {value : Json}
    (h : ∀ e ∈ limits, value.getOrNull e.1 = .int e.2) : checkLimits limits error value.sorted = .ok () := by
  unfold checkLimits
  rw [rejectIf_eq_ok, Bool.not_eq_false', List.all_eq_true]
  intro e he
  rw [getOrNull_sorted_of (h e he), Json.sorted_int]
  exact decide_eq_true rfl

theorem serverEnforced_sorted {model : String} {expires expiry : ℚ} (hpos : 0 ≤ expiry) (hle : expires ≤ expiry)
    (hmax : expiry ≤ maxTime) :
    serverEnforced model (serverJson model expiry).sorted expires = .ok (serverJson model expiry) := by
  have hoperations : (serverJson model expiry).sorted.getOrNull "operations" = .list [.str "chat"] :=
    (getOrNull_sorted_of rfl).trans (sorted_singleton "chat")
  have hmodels : (serverJson model expiry).sorted.getOrNull "effective_models" = .list [.str model] :=
    (getOrNull_sorted_of rfl).trans (sorted_singleton model)
  have hfallback : (serverJson model expiry).sorted.get? "fallback" = some .null := by
    rw [Json.get?_sorted]
    exact congrArg some Json.sorted_null
  have hroute : (serverJson model expiry).sorted.getOrNull "route" = .str "SELF_HOSTED" :=
    (getOrNull_sorted_of rfl).trans (Json.sorted_str _)
  have hexpiry : (serverJson model expiry).sorted.getOrNull "expires_at" = time expiry :=
    (getOrNull_sorted_of rfl).trans (sorted_time expiry)
  have hlimits : ∀ e ∈ SERVER_LIMITS, (serverJson model expiry).getOrNull e.1 = .int e.2 := by
    simp only [SERVER_LIMITS, List.forall_mem_cons, List.not_mem_nil, false_imp_iff, implies_true, and_true]
    exact ⟨rfl, rfl, rfl, rfl⟩
  unfold serverEnforced
  rw [hoperations, hmodels, hfallback, hroute, hexpiry, epoch_time hpos, checkLimits_sorted hlimits]
  simp [isSingleton, Json.isStr, Json.isNull, rejectIf, bind, Except.bind, pure, Except.pure, hle, hmax, serverJson]

/-- A valid attestation that was returned is valid at every clock inside its window. -/
theorem validPolicy_granted {issued expires expiry now : ℚ} {origin model key serverPolicy : String}
    (hstarted : issued ≤ now) (hrunning : now ≤ expires) (hspan : 0 < expires - issued)
    (hshort : expires - issued ≤ 180) (hpos : 0 ≤ expiry) (hle : expires ≤ expiry) (hmax : expiry ≤ maxTime)
    (horigin : isOrigin origin = true) (hmodel : isModel model = true)
    (hkey : Text.fullmatch Text.isHex 64 64 key = true)
    (hserverPolicy : Text.fullmatch Text.isHex 64 64 serverPolicy = true) :
    validPolicy (grantedJson issued expires expiry origin model key serverPolicy).sorted issued expires now =
      .ok (grantedJson issued expires expiry origin model key serverPolicy) := by
  have hstr : ∀ k s, (grantedJson issued expires expiry origin model key serverPolicy).getOrNull k = .str s →
      (grantedJson issued expires expiry origin model key serverPolicy).sorted.getOrNull k = .str s :=
    fun k s h => (getOrNull_sorted_of h).trans (Json.sorted_str s)
  have haccount : (grantedJson issued expires expiry origin model key serverPolicy).sorted.getOrNull
      "student_account" = .bool false := (getOrNull_sorted_of rfl).trans (Json.isAtom_bool false)
  have hserver : (grantedJson issued expires expiry origin model key serverPolicy).sorted.getOrNull
      "server_enforced" = (serverJson model expiry).sorted := getOrNull_sorted_of rfl
  have hprobe : (grantedJson issued expires expiry origin model key serverPolicy).sorted.getOrNull
      "probe_enforced" = (Json.dict (limitsJson POLICY_PROBE)).sorted := getOrNull_sorted_of rfl
  have hlimits : ∀ e ∈ POLICY_PROBE, (Json.dict (limitsJson POLICY_PROBE)).getOrNull e.1 = .int e.2 := by
    simp only [POLICY_PROBE, List.forall_mem_cons, List.not_mem_nil, false_imp_iff, implies_true, and_true]
    exact ⟨rfl, rfl, rfl, rfl⟩
  unfold validPolicy
  rw [hstr "gateway_origin" origin rfl, hstr "model" model rfl, hstr "key_sha256" key rfl,
    hstr "server_policy_sha256" serverPolicy rfl, haccount, hserver, hprobe]
  simp only [bind_eq_ok, rejectIf_eq_ok, stringOf_eq_ok, Bool.not_eq_false', Bool.and_eq_true, decide_eq_true_eq]
  exact ⟨(), ⟨⟨⟨hstarted, hrunning⟩, hspan⟩, hshort⟩, origin, ⟨rfl, horigin⟩, model, ⟨rfl, hmodel⟩, key,
    ⟨rfl, hkey⟩, serverPolicy, ⟨rfl, hserverPolicy⟩, (), trivial, (), ⟨Json.isDict_sorted _, Json.isDict_sorted _⟩,
    _, serverEnforced_sorted hpos hle hmax, (), checkLimits_sorted hlimits, rfl⟩

/-- **A sanitized attestation is accepted again**, at every earlier clock at which it is not from the future,
    and sanitized to itself. -/
theorem sanitizePolicy_stable {value p : Json} {now now' : ℚ} (h : sanitizePolicy value now = .ok p)
    (hle : now' ≤ now) (htime : ∃ t, epoch (p.getOrNull "issued_at") = .ok t ∧ t ≤ now' + 30 ∧
      (p.getOrNull "valid" = .bool true → t ≤ now')) : sanitizePolicy p.sorted now' = .ok p := by
  obtain ⟨valid, issued, expires, hattested, hcase⟩ := sanitizePolicy_eq_ok.mp h
  have hpos : 0 ≤ issued := epoch_ok hattested.issued_at
  have hpos' : 0 ≤ expires := epoch_ok hattested.expires_at
  obtain ⟨t, ht, htimely, hwindow⟩ := htime
  rcases hcase with ⟨rfl, hvalid⟩ | ⟨rfl, hsame, reason, hmem, -, rfl⟩
  · obtain ⟨-, hrunning, hspan, hshort, expiry, origin, model, key, serverPolicy, hexpiry, hkeep, hmax, horigin,
      hmodel, hkey, hserverPolicy, rfl⟩ := validPolicy_eq_ok hvalid
    have hissued : epoch ((grantedJson issued expires expiry origin model key serverPolicy).getOrNull "issued_at")
        = .ok issued := epoch_time hpos
    obtain rfl := Except.ok.inj (ht.symm.trans hissued)
    rw [sanitizePolicy_eq_ok]
    refine ⟨true, t, expires, ⟨Json.isDict_sorted _, (getOrNull_sorted_of rfl).trans (Json.sorted_str _),
      (getOrNull_sorted_of rfl).trans (Json.isAtom_bool true), ?_, ?_, htimely, hattested.issued_le,
      hattested.expires_le⟩, .inl ⟨rfl, ?_⟩⟩
    · rw [Json.getOrNull_sorted, epoch_sorted]
      exact ht
    · rw [Json.getOrNull_sorted, epoch_sorted]
      exact epoch_time hpos'
    · exact validPolicy_granted (hwindow rfl) (hle.trans hrunning) hspan hshort hexpiry hkeep hmax horigin hmodel
        hkey hserverPolicy
  · have hissued : epoch ((deniedJson issued expires reason).getOrNull "issued_at") = .ok issued := epoch_time hpos
    obtain rfl := Except.ok.inj (ht.symm.trans hissued)
    rw [sanitizePolicy_eq_ok]
    refine ⟨false, t, expires, ⟨Json.isDict_sorted _, (getOrNull_sorted_of rfl).trans (Json.sorted_str _),
      (getOrNull_sorted_of rfl).trans (Json.isAtom_bool false), ?_, ?_, htimely, hattested.issued_le,
      hattested.expires_le⟩, .inr ⟨rfl, hsame, reason, hmem,
        (getOrNull_sorted_of rfl).trans (Json.sorted_str reason), rfl⟩⟩
    · rw [Json.getOrNull_sorted, epoch_sorted]
      exact ht
    · rw [Json.getOrNull_sorted, epoch_sorted]
      exact epoch_time hpos'

end Transport
end PickleInfra
