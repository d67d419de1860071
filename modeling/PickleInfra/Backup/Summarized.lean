import PickleInfra.Backup.Observations
import PickleInfra.Backup.Summary

/-!
# `Backup.Summarized` — what the summary makes of a state of the core monitor

The summary reads every state that a run saves (`readObservation_toJson`), but for two kinds of
observations that it refuses as a whole: one with an archive from before 1970, and a healthy one without
an archive of a container.
-/

namespace PickleInfra
namespace Backup
namespace Summary

open Python Durable Core

/-- The observations that `core_summary` refuses. -/
def Unprojectable (o : Observation) : Prop :=
  (∃ e ∈ o.points, ∃ ctime : Int, e.2.ctime = some ctime ∧ ctime < 0) ∨
    (o.report.status = .healthy ∧ ∃ e ∈ o.points, e.2.ctime = none)

/-- What a point is projected to. -/
def projected (now : ℚ) (p : Point) : Projected :=
  match p.ctime with
  | none       => {}
  | some ctime => ⟨some ctime, some (now - ctime)⟩

@[simp] theorem refuse_false (code : String) : refuse false code = .ok () := rfl

theorem maximum_eq : maximum = 4102444800 := rfl

theorem numeric_float {q : ℚ} (h : SafeClock q) : numeric (.float (.finite q)) = .ok q := if_pos h

theorem numeric_int {n : Int} (h : SafeClock n) : numeric (.int n) = .ok (n : ℚ) := if_pos h

/-- A point with a time, up to the check of its time. -/
theorem project_there (now stamp : ℚ) (inventory : Option ℚ) (ctime : Int) (volid : Json) (age : ℚ) :
    project now stamp inventory (Point.toJson ⟨some ctime, volid, some age⟩) = (do
      let ctime ← numeric (.int ctime)
      let cachedAge ← numeric (.float (.finite age))
      refuse (!inventory.any (fun t => ctime ≤ t) || TOLERANCE < |stamp - ctime - cachedAge|)
        "CORE_POINT_TIME_INVALID"
      return ⟨some ctime, some (now - ctime)⟩) := rfl

/-- **A point** is refused exactly if it is from before 1970. -/
theorem project_toJson {now stamp : ℚ} {inventory : Option ℚ} {p : Point} (hstamp : SafeClock stamp)
    (hinventory : ∀ t, inventory = some t → t ≤ stamp) (h : PointFormed stamp inventory p) :
    ((∀ ctime, p.ctime = some ctime → 0 ≤ ctime) →
        project now stamp inventory p.toJson = .ok (projected now p)) ∧
      ∀ ctime, p.ctime = some ctime → ctime < 0 →
        ∃ e, project now stamp inventory p.toJson = .error e := by
  cases h with
  | missing hctime hage =>
      obtain ⟨_, volid, _⟩ := p
      dsimp only at hctime hage
      rw [hctime, hage]
      exact ⟨fun _ => rfl, fun ctime h => (by cases h)⟩
  | there ctime t hctime hage ht hle =>
      obtain ⟨_, volid, _⟩ := p
      dsimp only at hctime hage
      rw [hctime, hage, project_there]
      have hle' : (ctime : ℚ) ≤ stamp := hle.trans (hinventory t ht)
      constructor
      · intro hsafe
        have hzero : (0 : ℚ) ≤ ctime := by exact_mod_cast hsafe ctime rfl
        have hage' : SafeClock (stamp - ctime) :=
          ⟨sub_nonneg.mpr hle', (sub_le_self _ hzero).trans hstamp.2⟩
        rw [numeric_int ⟨hzero, hle'.trans hstamp.2⟩, numeric_float hage', ht]
        have hfresh : (!(some t).any (fun t => decide ((ctime : ℚ) ≤ t)) ||
            decide (TOLERANCE < |stamp - ctime - (stamp - ctime)|)) = false := by
          simp [hle, TOLERANCE]
        show (do
          refuse (!(some t).any (fun t => decide ((ctime : ℚ) ≤ t)) ||
            decide (TOLERANCE < |stamp - ctime - (stamp - ctime)|)) _
          return _) = _
        rw [hfresh]
        rfl
      · rintro c hc hneg
        obtain rfl := Option.some.inj hc
        have hnumeric : numeric (.int ctime) = .error (.own "TIMESTAMP_INVALID") := by
          refine if_neg fun hsafe => ?_
          have hzero : 0 ≤ ctime := by exact_mod_cast hsafe.1
          omega
        rw [hnumeric]
        exact ⟨_, rfl⟩

theorem ctids_eq : Core.CTIDS.map toString = CTIDS := by decide

/-- Each point is found under its container. -/
theorem mapM_points {o : Observation} (h : Formed o) (f : String → Json → Except SummaryExn Projected) :
    (CTIDS.mapM fun ctid => do
      let point ← (pointsJson o.points).item ctid
      return (ctid, ← f ctid point)) =
    o.points.mapM fun e => do return (e.1, ← f e.1 e.2.toJson) := by
  have hkeys : o.points.map Prod.fst = CTIDS := h.members.trans ctids_eq
  have hnodup : (o.points.map Prod.fst).Nodup := by
    rw [hkeys]
    decide
  rw [← hkeys, List.mapM_map]
  refine mapM_congr fun e he => ?_
  have hitem : (pointsJson o.points).item e.1 = (.ok e.2.toJson : Except SummaryExn Json) := by
    apply Json.item_dict_of_lookup
    rw [Json.lookup_map, (Dict.lookup_eq_some_iff hnodup).mpr he]
    rfl
  show (do
    let point ← (pointsJson o.points).item e.1
    return (e.1, ← f e.1 point)) = _
  rw [hitem]
  rfl

theorem hasMembers_points {o : Observation} (h : Formed o) : hasMembers (pointsJson o.points) = true := by
  have hkeys : (o.points.map fun e => (e.1, e.2.toJson)).map Prod.fst = CTIDS := by
    rw [List.map_map]
    exact h.members.trans ctids_eq
  show (CTIDS.all (fun ctid => ((o.points.map fun e => (e.1, e.2.toJson)).map Prod.fst).contains ctid)
    && ((o.points.map fun e => (e.1, e.2.toJson)).map Prod.fst).all fun key => CTIDS.contains key) = true
  rw [hkeys]
  decide

/-- The status of the query, as it is written. -/
def queryText (o : Observation) : String := if o.queryOk then "OK" else "UNAVAILABLE"

/-- The provenance agrees with the query. -/
theorem provenance_passes {o : Observation} (h : Formed o) :
    (Json.isStr "OK" (.str (queryText o)) &&
        (!Json.isStr "OBSERVED" (.str o.evidence.text) || o.inventoryAt ≠ some o.observedAt)) = false ∧
      (Json.isStr "UNAVAILABLE" (.str (queryText o)) && (Json.isStr "OBSERVED" (.str o.evidence.text)
        || (Json.isStr "CACHED" (.str o.evidence.text) && o.inventoryAt.isNone)
        || (Json.isStr "UNAVAILABLE" (.str o.evidence.text) && o.inventoryAt.isSome))) = false := by
  unfold queryText
  cases h.provenance with
  | observed hquery hevidence hinventory =>
      rw [hquery, hevidence, hinventory]
      constructor
      · simp [Json.isStr, Evidence.text]
      · rfl
  | cached t hquery hevidence hinventory ht =>
      rw [hquery, hevidence, hinventory]
      exact ⟨rfl, rfl⟩
  | unavailable hquery hevidence hinventory =>
      rw [hquery, hevidence, hinventory]
      exact ⟨rfl, rfl⟩

/-- **The head of an observation passes**: what is left are its points. -/
theorem readObservation_eq {s : State} {o : Observation} {now : ℚ} (h : Formed o)
    (hschema : s.schemaVersion = some 1) (ho : s.lastObservation = some o) (hnow : o.observedAt ≤ now) :
    readObservation s.toJson now = (do
      let projected ← o.points.mapM fun e => do
        return (e.1, ← project now o.observedAt o.inventoryAt e.2.toJson)
      refuse (Json.isStr "HEALTHY" (.str o.report.status.text) &&
        projected.any fun e => e.2.ctime.isNone) "CORE_HEALTHY_POINT_MISSING"
      return ⟨o.observedAt, o.inventoryAt, .str o.report.status.text, .str (queryText o),
        .str o.evidence.text, projected⟩) := by
  rw [← mapM_points h fun _ => project now o.observedAt o.inventoryAt]
  have hjson : ∃ rest, s.toJson = .dict (("observation_schema_version", .int 1) ::
      ("last_observation", o.toJson) :: rest) := by
    unfold State.toJson
    rw [hschema, ho]
    exact ⟨_, rfl⟩
  obtain ⟨rest, hjson⟩ := hjson
  have hversion : s.toJson.getOrNull "observation_schema_version" = .int 1 := by
    rw [hjson]
    rfl
  have hlast : s.toJson.item "last_observation" = (.ok o.toJson : Except SummaryExn Json) := by
    rw [hjson]
    rfl
  have hdict : s.toJson.isDict = true := by
    rw [hjson]
    rfl
  have hstamp : (o.toJson.item "observed_at_epoch" : Except SummaryExn Json) =
      .ok (.float (.finite o.observedAt)) := rfl
  have hinventory : o.toJson.getOrNull "inventory_observed_at_epoch" = floatOrNull o.inventoryAt := rfl
  have hread : numericOrNull (floatOrNull o.inventoryAt) = .ok o.inventoryAt := by
    cases ht : o.inventoryAt with
    | none => rfl
    | some t =>
        have hbounds := h.inventory ht
        show (numeric (.float (.finite t))).map some = _
        rw [numeric_float ⟨hbounds.1, hbounds.2.trans h.stamp.2⟩]
        rfl
  have hfuture : (decide (now < o.observedAt) || o.inventoryAt.any fun t => decide (o.observedAt < t)) =
      false := by
    rw [decide_eq_false (not_lt.mpr hnow), Bool.false_or]
    cases ht : o.inventoryAt with
    | none => rfl
    | some t => exact decide_eq_false (not_lt.mpr (h.inventory ht).2)
  have hclass : (!oneOf ["HEALTHY", "FAILED", "PENDING"] (.str o.report.status.text) ||
      !oneOf ["OK", "UNAVAILABLE"] (.str (queryText o)) ||
      !oneOf ["OBSERVED", "CACHED", "UNAVAILABLE"] (.str o.evidence.text)) = false := by
    have hstatus : oneOf ["HEALTHY", "FAILED", "PENDING"] (.str o.report.status.text) = true := by
      cases o.report.status <;> decide
    have hquery : oneOf ["OK", "UNAVAILABLE"] (.str (queryText o)) = true := by
      unfold queryText
      cases o.queryOk <;> decide
    have hevidence : oneOf ["OBSERVED", "CACHED", "UNAVAILABLE"] (.str o.evidence.text) = true := by
      cases o.evidence <;> decide
    rw [hstatus, hquery, hevidence]
    rfl
  obtain ⟨hok, hunavailable⟩ := provenance_passes h
  have hstatus : (o.toJson.item "status" : Except SummaryExn Json) = .ok (.str o.report.status.text) := rfl
  have hquery : (o.toJson.item "query_status" : Except SummaryExn Json) = .ok (.str (queryText o)) := rfl
  have hevidence : (o.toJson.item "point_evidence" : Except SummaryExn Json) =
      .ok (.str o.evidence.text) := rfl
  have hpoints : (o.toJson.item "last_valid_points" : Except SummaryExn Json) =
      .ok (pointsJson o.points) := rfl
  have hpassed : refuse (false || decide ((Json.int 1).asInt? ≠ some 1)) "CORE_SCHEMA_UNSUPPORTED" =
    .ok () := rfl
  have hobject : o.toJson.isDict = true := rfl
  unfold readObservation
  simp only [hdict, hversion, hlast, hobject, hstamp, hinventory, hread, hstatus, hquery, hevidence,
    hpoints, hpassed, hok, hunavailable, hclass, hfuture, hasMembers_points h, Bool.not_true,
    refuse_false, numeric_float h.stamp, Except.bind, bind]

theorem isStr_healthy {v : Verdict} : Json.isStr "HEALTHY" (.str v.text) = true ↔ v = .healthy := by
  cases v <;> simp [Json.isStr, Verdict.text]

theorem projected_isNone (now : ℚ) (p : Point) : (projected now p).ctime.isNone = p.ctime.isNone := by
  unfold projected
  cases p.ctime <;> rfl

/-- An observation that is read: its stamp, its status, and the status of its query. -/
structure Reads (o : Observation) (r : Reading) : Prop where
  stamp : r.stamp = o.observedAt
  status : r.status = .str o.report.status.text
  query : r.query = .str (queryText o)

/-- **The observations that are read** are all but the unprojectable ones. -/
theorem readObservation_toJson {s : State} {o : Observation} {now : ℚ} (h : Formed o)
    (hschema : s.schemaVersion = some 1) (ho : s.lastObservation = some o) (hnow : o.observedAt ≤ now) :
    (Unprojectable o → ∃ e, readObservation s.toJson now = .error e) ∧
      (¬ Unprojectable o → ∃ r, readObservation s.toJson now = .ok r ∧ Reads o r) := by
  rw [readObservation_eq h hschema ho hnow]
  have hpoint : ∀ e ∈ o.points, _ := fun e he =>
    @project_toJson now _ _ _ h.stamp (fun t ht => (h.inventory ht).2) (h.points e he)
  -- without an archive from before 1970 every point is projected
  have hprojected : (∀ e ∈ o.points, ∀ ctime, e.2.ctime = some ctime → 0 ≤ ctime) →
      (o.points.mapM fun e => do
        return (e.1, ← project now o.observedAt o.inventoryAt e.2.toJson) :
        Except SummaryExn (List (String × Projected))) =
      .ok (o.points.map fun e => (e.1, projected now e.2)) := by
    intro hsafe
    rw [mapM_eq_ok, List.forall₂_map_right_iff, List.forall₂_same]
    intro e he
    rw [(hpoint e he).1 (hsafe e he)]
    rfl
  by_cases hsafe : ∀ e ∈ o.points, ∀ ctime, e.2.ctime = some ctime → 0 ≤ ctime
  · have hany : (Json.isStr "HEALTHY" (.str o.report.status.text) &&
        (o.points.map fun e => (e.1, projected now e.2)).any fun e => e.2.ctime.isNone) = true ↔
        Unprojectable o := by
      rw [Bool.and_eq_true, List.any_map, List.any_eq_true, isStr_healthy]
      constructor
      · rintro ⟨hhealthy, e, he, hnone⟩
        exact .inr ⟨hhealthy, e, he, Option.isNone_iff_eq_none.mp (projected_isNone now e.2 ▸ hnone)⟩
      · rintro (⟨e, he, ctime, hctime, hneg⟩ | ⟨hhealthy, e, he, hnone⟩)
        · exact absurd (hsafe e he ctime hctime) (not_le.mpr hneg)
        · refine ⟨hhealthy, e, he, ?_⟩
          show (projected now e.2).ctime.isNone = true
          rw [projected_isNone, hnone]
          rfl
    rw [hprojected hsafe]
    constructor
    · intro hbad
      refine ⟨.own "CORE_HEALTHY_POINT_MISSING", ?_⟩
      show (refuse (_ && _) _ >>= _) = _
      rw [hany.mpr hbad]
      rfl
    · intro hgood
      refine ⟨⟨o.observedAt, o.inventoryAt, .str o.report.status.text, .str (queryText o),
        .str o.evidence.text, o.points.map fun e => (e.1, projected now e.2)⟩, ?_, ⟨rfl, rfl, rfl⟩⟩
      show (refuse (_ && _) _ >>= _) = _
      rw [Bool.eq_false_iff.mpr (mt hany.mp hgood)]
      rfl
  · -- an archive from before 1970 ends the reading
    simp only [not_forall, not_le] at hsafe
    obtain ⟨e, he, ctime, hctime, hneg⟩ := hsafe
    obtain ⟨err, herr⟩ := (hpoint e he).2 ctime hctime hneg
    constructor
    · intro _
      cases hpoints : (o.points.mapM fun e => do
          return (e.1, ← project now o.observedAt o.inventoryAt e.2.toJson) :
          Except SummaryExn (List (String × Projected))) with
      | error err => exact ⟨err, rfl⟩
      | ok ys =>
          obtain ⟨y, hy⟩ := mapM_returns.mp ⟨ys, hpoints⟩ e he
          rw [herr] at hy
          cases hy
    · intro hgood
      exact absurd (.inl ⟨e, he, ctime, hctime, hneg⟩) hgood

/-! ## The verdict -/

/-- The output says no more than that nothing is known, for a reason. -/
def Output.Unknown (out : Output) (reason : String) : Prop :=
  out.currentVerdict = .str "UNKNOWN" ∧ out.reason = reason

/-- What the summary says of an observation at a safe clock. -/
structure Judged (o : Observation) (now : ℚ) (out : Output) : Prop where
  refused : Unprojectable o → out.Unknown "CORE_OBSERVATION_UNAVAILABLE"
  stale : ¬ Unprojectable o → 720 < now - o.observedAt → out.Unknown "CORE_OBSERVATION_STALE"
  outage : ¬ Unprojectable o → now - o.observedAt ≤ 720 → o.queryOk = false →
    out.Unknown "CORE_QUERY_UNAVAILABLE"
  current : ¬ Unprojectable o → now - o.observedAt ≤ 720 → o.queryOk = true →
    out.currentVerdict = .str o.report.status.text ∧ out.reason = "CORE_CURRENT_OBSERVATION"

theorem isStr_queryText (o : Observation) : Json.isStr "OK" (.str (queryText o)) = o.queryOk := by
  unfold queryText
  cases o.queryOk <;> decide

/-- The output for an observation that is read. -/
theorem coreSummary_of_reads {state : Json} {o : Observation} {now : ℚ} {r : Reading}
    (hr : readObservation state now = .ok r) (h : Reads o r) :
    (720 < now - o.observedAt → (coreSummary state now true).Unknown "CORE_OBSERVATION_STALE") ∧
      (now - o.observedAt ≤ 720 → o.queryOk = false →
        (coreSummary state now true).Unknown "CORE_QUERY_UNAVAILABLE") ∧
      (now - o.observedAt ≤ 720 → o.queryOk = true →
        (coreSummary state now true).currentVerdict = .str o.report.status.text ∧
          (coreSummary state now true).reason = "CORE_CURRENT_OBSERVATION") := by
  unfold coreSummary
  rw [hr]
  simp only [h.stamp, h.query, isStr_queryText, CORE_FRESHNESS, Bool.not_true, Bool.false_eq_true, if_false]
  refine ⟨fun hstale => ?_, fun hfresh hquery => ?_, fun hfresh hquery => ?_⟩
  · rw [if_pos hstale]
    exact ⟨rfl, rfl⟩
  · rw [if_neg (not_lt.mpr hfresh), hquery]
    exact ⟨rfl, rfl⟩
  · rw [if_neg (not_lt.mpr hfresh), hquery]
    exact ⟨h.status, rfl⟩

theorem judged {s : State} {o : Observation} {now : ℚ} (h : Formed o) (hschema : s.schemaVersion = some 1)
    (ho : s.lastObservation = some o) (hnow : o.observedAt ≤ now) :
    Judged o now (coreSummary s.toJson now true) := by
  obtain ⟨hbad, hgood⟩ := readObservation_toJson h hschema ho hnow
  constructor
  · intro hun
    obtain ⟨e, he⟩ := hbad hun
    unfold coreSummary
    rw [he]
    exact ⟨rfl, rfl⟩
  · intro hun
    obtain ⟨r, hr, hreads⟩ := hgood hun
    exact (coreSummary_of_reads hr hreads).1
  · intro hun
    obtain ⟨r, hr, hreads⟩ := hgood hun
    exact (coreSummary_of_reads hr hreads).2.1
  · intro hun
    obtain ⟨r, hr, hreads⟩ := hgood hun
    exact (coreSummary_of_reads hr hreads).2.2

/-- **The summary reads what the core monitor saves**: over any runs at clocks of 1970 to 2100, killed
    anywhere, every state that is written is judged by its observation, at every safe clock that is not
    before it. Only an archive from before 1970, and a healthy observation without an archive of CT1203
    before the first due date, are refused. -/
theorem core_states_summarized :
    (∀ w, Core.Reachable SafeClock w → ∀ s, .wrote (some s) ∈ w.hist →
      ∃ o, s.lastObservation = some o ∧
        ∀ now, o.observedAt ≤ now → Judged o now (coreSummary s.toJson now true)) ∧
    ∀ (s : Schedule) (content : List Json) (now : ℚ), ∀ e ∈ (inspect s content now).2,
      (inspect s content now).1.status = .healthy → e.2.ctime = none →
        e.1 = "1203" ∧ (s.zone.toLocal now).day < s.firstDueDate := by
  constructor
  · intro w hw s hs
    obtain ⟨later, earlier, heq⟩ := List.append_of_mem hs
    obtain ⟨hschema, o, ho, hformed⟩ := hw.legible.writes later (some s) earlier heq s rfl
    exact ⟨o, ho, fun now hnow => judged hformed hschema ho hnow⟩
  · intro s content now e he hhealthy hmissing
    exact point_of_healthy hhealthy he hmissing

/-! ## A healthy day without CT1203 -/

/-- Korean standard time. -/
def kst : Zone where
  toLocal t :=
    let day := ⌊(t + 32400) / 86400⌋
    ⟨day, t + 32400 - 86400 * day⟩
  timestamp l := 86400 * l.day + l.seconds - 32400

/-- An archive as `pvesh` lists it. -/
def archive (ctid : Nat) (volid : String) (ctime : Int) : Json :=
  .dict [("vmid", .int ctid), ("volid", .str volid), ("ctime", .int ctime), ("format", .str "pbs-ct"),
    ("subtype", .str "lxc"), ("content", .str "backup"), ("encrypted", .str FINGERPRINT),
    ("size", .int 1), ("protected", .int 1)]

/-- The evening of 2025-01-01, when the four manual archives are there. -/
def firstEvening : RunInput where
  schedule := ⟨kst, 16200, 20090⟩
  now := 1735740000
  fetched := .content [
    archive 1200 "pbs-example-core-read:backup/ct/1200/2025-01-01T12:43:02Z" 1735735382,
    archive 1201 "pbs-example-core-read:backup/ct/1201/2025-01-01T11:55:44Z" 1735732544,
    archive 1202 "pbs-example-core-read:backup/ct/1202/2025-01-01T12:46:30Z" 1735735590,
    archive 1204 "pbs-example-core-read:backup/ct/1204/2025-01-01T12:50:42Z" 1735735842]

/-- The world after the first run that evening. -/
def firstWorld : CoreWorld := ((run firstEvening).exec 1 ⟨none, []⟩ []).1

/-- The file holds a healthy observation, which the summary refuses at once. -/
def refusedHealthy (file : Option State) : Bool :=
  file.any fun s => s.lastObservation.any fun o => o.queryOk && o.report.status = Verdict.healthy
    && (coreSummary s.toJson o.observedAt true).reason = "CORE_OBSERVATION_UNAVAILABLE"

theorem healthy_state_unavailable :
    ∃ (w : CoreWorld) (s : State) (o : Observation), Core.Reachable SafeClock w ∧ w.disk = some s ∧
      s.lastObservation = some o ∧ o.queryOk = true ∧ o.report.status = .healthy ∧
      (coreSummary s.toJson o.observedAt true).reason = "CORE_OBSERVATION_UNAVAILABLE" := by
  have hreach : Core.Reachable SafeClock firstWorld :=
    .run firstEvening .start (by unfold SafeClock firstEvening; norm_num) (runs_exec _ _ _ _)
  have hrefused : refusedHealthy firstWorld.disk = true := by decide +kernel
  obtain ⟨s, hs, hrefused⟩ := (Option.any_eq_true _ _).mp hrefused
  obtain ⟨o, ho, hrefused⟩ := (Option.any_eq_true _ _).mp hrefused
  simp only [Bool.and_eq_true, decide_eq_true_eq] at hrefused
  exact ⟨firstWorld, s, o, hreach, hs, ho, hrefused.1.1, hrefused.1.2, hrefused.2⟩

end Summary
end Backup
end PickleInfra
