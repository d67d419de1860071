import PickleInfra.System.Records

/-!
# `System.Agreement` — the reader on a state and a summary of one collection

`Agreed` lists the relations between the two files that `collect_service_health` checks again, as
facts about the collector's own data. Under them, and when both samples of the source were consumed,
the reader takes no error path: `serviceReports_agreed` computes what it returns.
-/

namespace PickleInfra
namespace System

open Python

/-- What one collection of a source leaves in the two files. -/
structure Agreed (source : Health.Source) (s : Health.State) (summary : Health.Summary)
    (entry : Health.Entry) (row : Health.Row) : Prop where
  inState : s.sources.get? source.name = some entry
  inSummary : summary.sources.get? source.name = some row
  last : s.lastCollection = some summary.observedAt
  ok : ∀ t, (entry.machine t).Ok
  sampled : Health.Sampled source summary.observedAt row.observation
  nonneg : 0 ≤ summary.observedAt
  severity : row.observation.severity = source.severity.filter (fun s => s = "warning")
  incident : row.incident = entry.own.incident
  observerIncident : row.observerIncident = entry.observer.incident
  observerStatus : row.observerStatus = Health.observerStatus row.suppressedBy row.observation.status
  suppressed : ∀ parent, row.suppressedBy = some parent →
    Text.isName parent = true ∧ row.parentStatus = some .observerError ∧
      (row.observation.unknownReason = some .resultMissing ∨
        row.observation.unknownReason = some .resultStale) ∧
      ∃ parentRow, summary.sources.get? parent = some parentRow ∧
        parentRow.observation.status = .observerError

/-- Both samples of the source were consumed: the machines stand at them. -/
structure Consumed (summary : Health.Summary) (entry : Health.Entry) (row : Health.Row) : Prop where
  sampleAt : entry.own.sampleAt = some row.observation.sampleAt
  latestStatus : entry.own.latestStatus = some row.observation.status
  observerAt : entry.observer.sampleAt = some summary.observedAt
  observerStatus : entry.observer.latestStatus = some row.observerStatus

/-- The original probe is too old, or too far ahead, for the reader. -/
def Expired (row : Health.Row) (maxAge : Int) (now : ℚ) : Prop :=
  row.observation.unknownReason = none ∧
    ¬ (-5 ≤ now - row.observation.sampleAt ∧ now - row.observation.sampleAt ≤ (maxAge : ℚ))

instance (row : Health.Row) (maxAge : Int) (now : ℚ) : Decidable (Expired row maxAge now) :=
  inferInstanceAs (Decidable (_ ∧ _))

/-- The report of the source itself. -/
def conditionReport (entry : Health.Entry) (row : Health.Row) (observedAt : ℚ) :
    Discord.ServiceReport :=
  (identity entry.own row.observation.sampleAt observedAt).report
    (row.observation.rawStatus = some .healthy || row.observation.rawStatus = some .failed)
    (row.observation.rawStatus = some .healthy)

/-- The report of the source's observer. -/
def observerReport (entry : Health.Entry) (row : Health.Row) (observedAt : ℚ) :
    Discord.ServiceReport :=
  (identity entry.observer observedAt observedAt).report row.suppressedBy.isNone
    (row.observerStatus = .healthy)

/-! ## Fields of a row and of the two files -/

theorem text_injective {a b : Health.Status} (h : a.text = b.text) : a = b := by
  cases a <;> cases b <;> first | rfl | exact absurd h (by decide)

/-- No row has the status `BUDGET_LIMIT`. -/
theorem Agreed.status_listed {source : Health.Source} {s : Health.State} {summary : Health.Summary}
    {entry : Health.Entry} {row : Health.Row} (h : Agreed source s summary entry row) :
    ["HEALTHY", "FAILED", "LOADING", "OBSERVER_ERROR"].contains row.observation.status.text =
      true := by
  cases h.sampled with
  | accepted raw ts _ _ _ _ hstatus =>
      rw [hstatus]
      cases raw <;> decide
  | unknown why _ _ _ hstatus =>
      rw [hstatus]
      decide

theorem Agreed.observerStatus_listed {source : Health.Source} {s : Health.State}
    {summary : Health.Summary} {entry : Health.Entry} {row : Health.Row}
    (h : Agreed source s summary entry row) :
    ["HEALTHY", "FAILED", "OBSERVER_ERROR"].contains row.observerStatus.text = true := by
  rw [h.observerStatus]
  unfold Health.observerStatus
  split
  · decide
  · split <;> decide

theorem oneOf_str {allowed : List String} {text : String} (h : allowed.contains text = true) :
    Discord.oneOf allowed (.str text) = .ok text := by
  show (if allowed.contains text then _ else _) = _
  rw [if_pos h]

theorem sameIncident_orNull (n : Option Nat) :
    Discord.sameIncident (Health.orNull (n.map Health.incidentJson)) n = true := by
  cases n with
  | none => rfl
  | some n =>
      show decide (some ((n : Int) : ℚ) = some (n : ℚ)) = true
      simp

/-! ## `collect_service_health` -/

section Reader

variable {source : Health.Source} {s : Health.State} {summary : Health.Summary}
  {entry : Health.Entry} {row : Health.Row} {name : Discord.Name} {warning : Bool} {now : ℚ}

theorem Agreed.severity_ok (h : Agreed source s summary entry row)
    (hwarning : warning = decide (source.severity = some "warning")) :
    (if warning then (row.toJson.getOrNull "severity").isStr "warning"
      else (row.toJson.getOrNull "severity").isNull) = true := by
  have hget : row.toJson.getOrNull "severity" =
      (row.observation.severity.map Json.str).getD .null := by
    show (Json.lookup "severity"
      (Health.field "severity" (row.observation.severity.map .str))).getD .null = _
    rw [Health.lookup_field_nil, if_pos rfl]
  rw [hget, h.severity, hwarning]
  cases hs : source.severity with
  | none => rfl
  | some text =>
      by_cases htext : text = "warning"
      · subst htext; rfl
      · simp [htext, Option.filter, Json.isNull]

/-- The check of a suppressed row: its parent is in the same summary, in error. -/
theorem Agreed.checkSuppression_ok (h : Agreed source s summary entry row) :
    Discord.checkSuppression summary.toJson row.toJson row.observation.status.text
      row.observerStatus.text = .ok () := by
  have hget : row.toJson.getOrNull "suppressed_by" = Health.orNull (row.suppressedBy.map .str) := rfl
  unfold Discord.checkSuppression
  rw [hget]
  cases hsup : row.suppressedBy with
  | none => rfl
  | some parent =>
      obtain ⟨hname, hparent, hreason, parentRow, hrow, hstatus⟩ := h.suppressed parent hsup
      have hsources : summary.toJson.item "sources" =
          (.ok (Health.dictJson Health.Row.toJson summary.sources) : Except Discord.ReadExn Json) := rfl
      have hitem : (Health.dictJson Health.Row.toJson summary.sources).item parent =
          (.ok parentRow.toJson : Except Discord.ReadExn Json) := Health.item_dictJson hrow
      have hitemStatus : parentRow.toJson.item "status" =
          (.ok (.str "OBSERVER_ERROR") : Except Discord.ReadExn Json) := by
        show (Except.ok (Json.str parentRow.observation.status.text) : Except Discord.ReadExn Json) = _
        rw [hstatus]
        rfl
      have hparentStatus : row.toJson.getOrNull "parent_status" = .str "OBSERVER_ERROR" := by
        show Health.orNull (row.parentStatus.map (fun s => Json.str s.text)) = _
        rw [hparent]
        rfl
      have hunknown : ((row.toJson.getOrNull "unknown_reason").isStr "RESULT_MISSING"
          || (row.toJson.getOrNull "unknown_reason").isStr "RESULT_STALE") = true := by
        show ((Health.orNull (row.observation.unknownReason.map (fun r => Json.str r.text))).isStr _
          || (Health.orNull (row.observation.unknownReason.map (fun r => Json.str r.text))).isStr _) =
            true
        rcases hreason with hr | hr <;> rw [hr] <;> decide
      have hown : row.observation.status.text = "OBSERVER_ERROR" := by
        cases h.sampled with
        | accepted _ _ hu =>
            rw [hu] at hreason
            rcases hreason with hr | hr <;> cases hr
        | unknown _ _ _ _ hs =>
            rw [hs]
            rfl
      have hobserver : row.observerStatus.text = "OBSERVER_ERROR" := by
        rw [h.observerStatus, hsup]
        rfl
      show (do
        let r ← (← summary.toJson.item "sources").item parent
        let parentStatus ← r.item "status"
        Discord.ensure (Text.isName parent && parentStatus.isStr "OBSERVER_ERROR"
          && (row.toJson.getOrNull "parent_status").isStr "OBSERVER_ERROR"
          && ((row.toJson.getOrNull "unknown_reason").isStr "RESULT_MISSING"
            || (row.toJson.getOrNull "unknown_reason").isStr "RESULT_STALE")
          && row.observation.status.text = "OBSERVER_ERROR"
          && row.observerStatus.text = "OBSERVER_ERROR")) = Except.ok ()
      rw [hsources]
      show (do
        let r ← (Health.dictJson Health.Row.toJson summary.sources).item parent
        _) = Except.ok ()
      rw [hitem]
      show (do
        let parentStatus ← parentRow.toJson.item "status"
        _) = Except.ok ()
      rw [hitemStatus, hparentStatus, hunknown, hname, hown, hobserver]
      rfl

/-- **The two files agree about the source.** -/
theorem Agreed.validated (h : Agreed source s summary entry row) (hc : Consumed summary entry row)
    (hname : name.val = source.name) (hwarning : warning = decide (source.severity = some "warning"))
    (hlow : -5 ≤ now - summary.observedAt) (hhigh : now - summary.observedAt ≤ 180) :
    Discord.validated name warning now s.toJson summary.toJson =
      .ok { report := row.toJson, status := row.observation.status.text
            sampleAt := row.observation.sampleAt
            condition := identity entry.own row.observation.sampleAt summary.observedAt
            observerStatus := row.observerStatus.text
            observer := identity entry.observer summary.observedAt summary.observedAt } := by
  have hlast : s.toJson.get? "last_collection" = some (Health.time summary.observedAt) := by
    show Json.lookup "last_collection" (Health.field "last_collection" (s.lastCollection.map Health.time))
      = _
    rw [Health.lookup_field_nil, if_pos rfl, h.last]
    rfl
  have hentry : (Health.dictJson Health.Entry.toJson s.sources).get? name = some entry.toJson :=
    Json.get?_of_item (E := String) (Health.item_dictJson (hname ▸ h.inState))
  have hrow : (Health.dictJson Health.Row.toJson summary.sources).get? name = some row.toJson :=
    Json.get?_of_item (E := String) (Health.item_dictJson (hname ▸ h.inSummary))
  have hwindow : (decide (summary.observedAt = summary.observedAt)
      && decide (-5 ≤ now - summary.observedAt)
      && decide (now - summary.observedAt ≤ 180)) = true := by
    rw [decide_eq_true hlow, decide_eq_true hhigh, decide_eq_true rfl]
    rfl
  have hsample : (decide (0 ≤ row.observation.sampleAt)
      && decide (row.observation.sampleAt ≤ summary.observedAt + 30)) = true := by
    have hpos : 0 ≤ row.observation.sampleAt := h.sampled.nonneg h.nonneg
    have hle : row.observation.sampleAt ≤ summary.observedAt + 30 := by
      cases h.sampled with
      | accepted raw ts _ _ _ hat _ _ hfuture => rw [hat]; exact hfuture
      | unknown _ _ _ hat => rw [hat]; linarith
    rw [decide_eq_true hpos, decide_eq_true hle]
    rfl
  have hown : Discord.serviceEntry entry.toJson row.observation.status.text
      row.observation.sampleAt summary.observedAt =
        .ok (identity entry.own row.observation.sampleAt summary.observedAt) :=
    (serviceEntry_iff (recorded_own entry) (h.ok .own).register).mpr
      ⟨congrArg (Option.map Health.Status.text) hc.latestStatus, hc.sampleAt, rfl⟩
  have hobserver : Discord.serviceEntry (.dict entry.observer.fields) row.observerStatus.text
      summary.observedAt summary.observedAt =
        .ok (identity entry.observer summary.observedAt summary.observedAt) :=
    (serviceEntry_iff (recorded_fields entry.observer) (h.ok .observer).register).mpr
      ⟨congrArg (Option.map Health.Status.text) hc.observerStatus, hc.observerAt, rfl⟩
  have hincidents : (Discord.sameIncident (row.toJson.getOrNull "incident") entry.own.incident
      && Discord.sameIncident (row.toJson.getOrNull "observer_incident") entry.observer.incident) =
        true := by
    show (Discord.sameIncident (Health.orNull (row.incident.map Health.incidentJson)) _
      && Discord.sameIncident (Health.orNull (row.observerIncident.map Health.incidentJson)) _) = true
    rw [h.incident, h.observerIncident, sameIncident_orNull, sameIncident_orNull]
    rfl
  have hstatus : Discord.oneOf ["HEALTHY", "FAILED", "LOADING", "OBSERVER_ERROR"]
      (.str row.observation.status.text) = .ok row.observation.status.text :=
    oneOf_str h.status_listed
  have hobserverStatus : Discord.oneOf ["HEALTHY", "FAILED", "OBSERVER_ERROR"]
      (.str row.observerStatus.text) = .ok row.observerStatus.text :=
    oneOf_str h.observerStatus_listed
  unfold Discord.validated
  simp only [bind_eq_ok, Discord.ensure_eq_ok, Json.item_eq_ok]
  exact ⟨_, rfl, _, rfl, (), rfl, _, hlast, _, rfl, (), hwindow, _, rfl, _, hentry, _, rfl, _, hrow,
    _, rfl, (), h.severity_ok hwarning, _, hstatus, _, rfl, _, rfl, (), hsample, _, hown,
    _, rfl, _, hobserverStatus, _, Json.item_eq_ok.mp (item_observer entry), _, hobserver,
    (), hincidents, (), h.checkSuppression_ok, rfl⟩

/-- `raw_status` is one of the reported states, and `status` follows from it. -/
theorem raw_listed (raw : Health.Status) :
    ["HEALTHY", "FAILED", "LOADING", "OBSERVER_ERROR", "BUDGET_LIMIT"].contains raw.text = true ∧
      raw.mapped.text = (if raw.text = "OBSERVER_ERROR" || raw.text = "BUDGET_LIMIT" then
        "OBSERVER_ERROR" else raw.text) := by
  cases raw <;> decide

theorem Agreed.classify (h : Agreed source s summary entry row) (maxAge : Int) :
    Discord.Validated.classify
        { report := row.toJson, status := row.observation.status.text
          sampleAt := row.observation.sampleAt
          condition := identity entry.own row.observation.sampleAt summary.observedAt
          observerStatus := row.observerStatus.text
          observer := identity entry.observer summary.observedAt summary.observedAt } maxAge now =
      .ok (if Expired row maxAge now then none
        else some (conditionReport entry row summary.observedAt,
          observerReport entry row summary.observedAt)) := by
  have hobserver : (identity entry.observer summary.observedAt summary.observedAt).report
      (row.toJson.getOrNull "suppressed_by").isNull (row.observerStatus.text = "HEALTHY") =
        observerReport entry row summary.observedAt := by
    have hsup : (row.toJson.getOrNull "suppressed_by").isNull = row.suppressedBy.isNone := by
      show (Health.orNull (row.suppressedBy.map .str)).isNull = _
      cases row.suppressedBy <;> rfl
    have hhealthy : decide (row.observerStatus.text = "HEALTHY") =
        decide (row.observerStatus = .healthy) := by
      cases row.observerStatus <;> decide
    rw [observerReport, hsup, hhealthy]
  unfold Discord.Validated.classify
  simp only [hobserver]
  cases h.sampled with
  | accepted raw ts hu hraw hsource hat hstatus hpos hfuture hfresh =>
      subst hat
      have hreason : (row.toJson.getOrNull "unknown_reason").isNull = true := by
        show (Health.orNull (row.observation.unknownReason.map (fun r => Json.str r.text))).isNull = _
        rw [hu]
        rfl
      have hrawItem : row.toJson.item "raw_status" =
          (.ok (.str raw.text) : Except Discord.ReadExn Json) := by
        show (Except.ok (.str ((row.observation.rawStatus.map Health.Status.text).getD "UNKNOWN")) :
          Except Discord.ReadExn Json) = _
        rw [hraw]
        rfl
      have hsourceItem : row.toJson.item "source_sample_at" =
          (.ok (Health.time row.observation.sampleAt) : Except Discord.ReadExn Json) := by
        show (Except.ok (Health.orNull (row.observation.sourceSampleAt.map Health.time)) :
          Except Discord.ReadExn Json) = _
        rw [hsource]
        rfl
      have hmapped : decide (raw.mapped.text = if raw.text = "OBSERVER_ERROR" || raw.text =
          "BUDGET_LIMIT" then "OBSERVER_ERROR" else raw.text) = true :=
        decide_eq_true (raw_listed raw).2
      have hraw? : ∀ status : Health.Status,
          decide (raw.text = status.text) = decide (row.observation.rawStatus = some status) := by
        intro status
        rw [hraw]
        exact decide_eq_decide.mpr
          ⟨fun ht => congrArg some (text_injective ht), fun hs => by cases hs; rfl⟩
      have hcondition : (identity entry.own row.observation.sampleAt summary.observedAt).report
          (raw.text = "HEALTHY" || raw.text = "FAILED") (raw.text = "HEALTHY") =
            conditionReport entry row summary.observedAt := by
        rw [conditionReport, ← hraw? .healthy, ← hraw? .failed]
        rfl
      have hexpired : Expired row maxAge now ↔
          ¬ (-5 ≤ now - row.observation.sampleAt ∧ now - row.observation.sampleAt ≤ (maxAge : ℚ)) :=
        and_iff_right hu
      rw [hrawItem, hreason, hsourceItem]
      show (do
        Discord.ensure (decide (row.observation.sampleAt = row.observation.sampleAt))
        let text ← Discord.oneOf _ (.str raw.text)
        _) = Except.ok _
      rw [decide_eq_true rfl, oneOf_str (raw_listed raw).1]
      show (do
        Discord.ensure (decide (row.observation.status.text = _))
        _) = Except.ok _
      rw [hstatus, hmapped]
      show (if !(decide (-5 ≤ now - row.observation.sampleAt)
        && decide (now - row.observation.sampleAt ≤ (maxAge : ℚ))) then _ else _) = _
      rw [hcondition]
      by_cases hage : -5 ≤ now - row.observation.sampleAt ∧
          now - row.observation.sampleAt ≤ (maxAge : ℚ)
      · rw [if_neg (mt hexpired.mp (not_not_intro hage)), decide_eq_true hage.1, decide_eq_true hage.2]
        rfl
      · have hnot : (!(decide (-5 ≤ now - row.observation.sampleAt)
            && decide (now - row.observation.sampleAt ≤ (maxAge : ℚ)))) = true := by
          rw [Bool.not_eq_true', ← Bool.decide_and]
          exact decide_eq_false hage
        rw [if_pos (hexpired.mpr hage), if_pos hnot]
  | unknown why hu hraw hat hstatus =>
      have hreason : (row.toJson.getOrNull "unknown_reason").isNull = false := by
        show (Health.orNull (row.observation.unknownReason.map (fun r => Json.str r.text))).isNull = _
        rw [hu]
        rfl
      have hrawItem : row.toJson.item "raw_status" =
          (.ok (.str "UNKNOWN") : Except Discord.ReadExn Json) := by
        show (Except.ok (.str ((row.observation.rawStatus.map Health.Status.text).getD "UNKNOWN")) :
          Except Discord.ReadExn Json) = _
        rw [hraw]
        rfl
      have hcondition : conditionReport entry row summary.observedAt =
          (identity entry.own row.observation.sampleAt summary.observedAt).report false false := by
        rw [conditionReport, hraw]
        rfl
      have hexpired : ¬ Expired row maxAge now := by
        intro he
        rw [he.1] at hu
        cases hu
      rw [if_neg hexpired, hrawItem, hreason, hstatus, hcondition]
      rfl

/-- **The reader on the two files of one collection.** -/
theorem Agreed.serviceReports (h : Agreed source s summary entry row)
    (hc : Consumed summary entry row) (hname : name.val = source.name)
    (hwarning : warning = decide (source.severity = some "warning"))
    (hlow : -5 ≤ now - summary.observedAt) (hhigh : now - summary.observedAt ≤ 180) (maxAge : Int) :
    Discord.serviceReports name warning maxAge now s.toJson summary.toJson =
      .ok (if Expired row maxAge now then none
        else some (conditionReport entry row summary.observedAt,
          observerReport entry row summary.observedAt)) := by
  unfold Discord.serviceReports
  rw [h.validated hc hname hwarning hlow hhigh]
  exact h.classify maxAge

end Reader

end System
end PickleInfra
