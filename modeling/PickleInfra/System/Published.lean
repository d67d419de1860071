import PickleInfra.System.Agreement
import PickleInfra.Health.Heartbeat
import PickleInfra.Health.Delivery

/-!
# `System.Published` — the collector's two files are understood by their readers

A completed run leaves the collected state on disk, changed only in its mails, and the summary of the
same collection. So the two files agree (`agreed_of_run`), whatever happened before, and the results of
`Health.Heartbeat` and `System.Agreement` apply.
-/

namespace PickleInfra
namespace System

open Python Durable Relation

/-! ## What the deliveries keep of the collected state -/

/-- The state differs from the collected one in its mails only. -/
structure Carries (collected s : Health.State) : Prop where
  last : s.lastCollection = collected.lastCollection
  present : ∀ name entry, collected.sources.get? name = some entry → ∃ e, s.sources.get? name = some e
  core : ∀ name t, (s.machine name t).core = (collected.machine name t).core

theorem carries_refl (s : Health.State) : Carries s s where
  last := rfl
  present := fun _ entry h => ⟨entry, h⟩
  core := fun _ _ => rfl

theorem Carries.setMail {collected s : Health.State} (h : Carries collected s) (slot : Health.Slot)
    (d : Health.Delivery) : Carries collected (s.setMail slot d) where
  last := h.last
  present := by
    intro name entry hname
    obtain ⟨e, he⟩ := h.present name entry hname
    unfold Health.State.setMail
    rw [Dict.get?_set]
    by_cases hs : slot.source = name
    · exact ⟨_, if_pos hs⟩
    · exact ⟨e, by rw [if_neg hs, he]⟩
  core := fun name t => (Health.State.core_setMail s slot d name t).trans (h.core name t)

/-- The state on disk carries the collected one. -/
def OnDisk (collected : Health.State) (w : Health.MonitorWorld) : Prop :=
  ∃ s, w.disk.state = some s ∧ Carries collected s

/-- Every move of a run keeps it: it publishes, or it writes a mail. -/
theorem OnDisk.move {collected : Health.State} {now : ℚ} {slots : List Health.Slot}
    {w w' : Health.MonitorWorld} (h : OnDisk collected w) (hm : Health.Move now slots w w') :
    OnDisk collected w' := by
  obtain ⟨s, hs, hcarries⟩ := h
  cases hm with
  | published summary => exact ⟨s, hs, hcarries⟩
  | @mailed _ state slot d hstate _ _ _ he =>
      obtain rfl := Option.some.inj (hs.symm.trans hstate)
      have hclaim := hcarries.setMail slot d.claim
      cases he with
      | claimed | lost | answered => exact ⟨_, rfl, hclaim⟩
      | recorded a => exact ⟨_, rfl, hclaim.setMail slot (d.claim.record now a)⟩

/-! ## The rows of a collection -/

section Collected

variable {cfg : Health.Config} {call : Health.Call} {s s' : Health.State} {summary : Health.Summary}

theorem isName_of_valid {source : Health.Source} (h : source.invalid = false) :
    Text.isName source.name = true := by
  simp only [Health.Source.invalid, Bool.or_eq_false_iff, Bool.not_eq_false'] at h
  exact h.1.1.1.1.1.1.1.1.1.1

/-- A row belongs to a configured source. -/
theorem source_of_row (h : Health.Collected cfg call s s' summary) {name : String}
    {row : Health.Row} (hrow : summary.sources.get? name = some row) :
    ∃ source ∈ cfg.sources, source.name = name := by
  by_contra hnone
  have hname : name ∉ cfg.sources.map Health.Source.name := by
    intro hm
    obtain ⟨source, hs, hn⟩ := List.mem_map.mp hm
    exact hnone ⟨source, hs, hn⟩
  rw [(h.others name hname).2] at hrow
  cases hrow

/-- **The row of a source and its machines**, as the collection wrote them. -/
theorem agreed_of_collected (h : Health.Collected cfg call s s' summary) (hs : s.Ok)
    {source : Health.Source} (hsource : source ∈ cfg.sources) :
    ∃ entry row, Agreed source s' summary entry row := by
  obtain ⟨samples, hmap, hsampled, hall⟩ := h.source
  have hmem := hsource
  rw [← hmap, List.mem_map] at hmem
  obtain ⟨⟨source, o⟩, hp, rfl⟩ := hmem
  obtain ⟨hentry, hrow⟩ := hall _ hp
  have ho := Health.sampled_spec (hsampled _ hp)
  refine ⟨_, _, ⟨hentry, hrow, ?_, ?_, ?_, ?_, ho.2, rfl, rfl, rfl, ?_⟩⟩
  · rw [h.last, h.observedAt]
  · intro t
    rw [← Health.State.machine_eq hentry]
    exact (h.ok hs).1 source.name t
  · rw [h.observedAt]
    exact ho.1
  · rw [h.observedAt]
    exact h.now_nonneg
  · intro parent hsup
    have hsup : Health.suppressedBy source o (Health.parentStatus samples source) = some parent := hsup
    unfold Health.suppressedBy at hsup
    split at hsup
    case isFalse => cases hsup
    case isTrue hc =>
      obtain ⟨hreason, hstatus⟩ := hc
      -- the parent is the source whose sample gave the status
      have hfind := hstatus
      unfold Health.parentStatus at hfind
      rw [hsup, Option.bind_some, Option.map_eq_some_iff] at hfind
      obtain ⟨⟨p, po⟩, hfound, hpo⟩ := hfind
      have hpname : p.name = parent := by simpa using List.find?_some hfound
      have hpmem := List.mem_of_find?_eq_some hfound
      have hpsource : p ∈ cfg.sources := hmap ▸ List.mem_map.mpr ⟨_, hpmem, rfl⟩
      refine ⟨hpname ▸ isName_of_valid (h.valid.sources p hpsource), hstatus, hreason, _,
        hpname ▸ (hall _ hpmem).2, ?_⟩
      exact hpo

/-- A collection has between one and 32 rows. -/
theorem rows_bounded (h : Health.Collected cfg call s s' summary)
    (hv : Health.validate cfg = .ok ()) :
    1 ≤ summary.sources.size ∧ summary.sources.size ≤ 32 := by
  have hlength : cfg.sources ≠ [] ∧ cfg.sources.length ≤ 32 := by
    unfold Health.validate at hv
    split at hv
    · cases hv
    · next hc =>
      rw [not_or, not_lt] at hc
      exact hc
  constructor
  · obtain ⟨source, hsource⟩ := List.exists_mem_of_ne_nil _ hlength.1
    obtain ⟨o, ps, -, -, hrow⟩ := h.at_source hsource
    exact List.length_pos_of_mem (summary.sources.get?_eq_some_iff.mp hrow)
  · have hsub : summary.sources.keys ⊆ cfg.sources.map Health.Source.name := by
      intro name hname
      obtain ⟨row, hrow⟩ := Option.isSome_iff_exists.mp (summary.sources.get?_isSome_iff.mpr hname)
      obtain ⟨source, hs, rfl⟩ := source_of_row h hrow
      exact List.mem_map.mpr ⟨source, hs, rfl⟩
    have hle := (List.subperm_of_subset summary.sources.nodup hsub).length_le
    have hkeys : summary.sources.keys.length = summary.sources.size := List.length_map _
    have hnames : (cfg.sources.map Health.Source.name).length = cfg.sources.length :=
      List.length_map _
    rw [← hkeys]
    exact hle.trans (hnames ▸ hlength.2)

end Collected

/-! ## A completed run -/

/-- The report is about the incidents of the machine. -/
structure Identifies (m : Health.Machine) (r : Discord.ServiceReport) : Prop where
  incident : r.incident = m.incident
  sequence : r.sourceSequence = m.sequence
  closedIncident : r.closedIncident = m.closedIncident
  openedAt : r.openedAt = m.openedAt
  closedAt : r.closedAt = m.closedAt

theorem identifies_report (m : Health.Machine) (sampleAt observedAt : ℚ) (evidence healthy : Bool) :
    Identifies m ((identity m sampleAt observedAt).report evidence healthy) := ⟨rfl, rfl, rfl, rfl, rfl⟩

/-- An identity with evidence is an alarm exactly when its incident is open. -/
theorem status_report (e : Discord.Identity) (evidence healthy : Bool) :
    (e.report evidence healthy).status = .alarm ↔ e.incident ≠ none ∧ evidence = true := by
  obtain ⟨incident, sequence, closed, openedAt, closedAt, sampleAt, observedAt⟩ := e
  unfold Discord.Identity.report
  cases evidence with
  | false => simp
  | true =>
      cases incident with
      | some n => simp
      | none => cases healthy <;> simp

/-- The entry of a state that carries the collected one agrees with the same rows. -/
theorem Agreed.carried {source : Health.Source} {collected s : Health.State}
    {summary : Health.Summary} {entry : Health.Entry} {row : Health.Row}
    (h : Agreed source collected summary entry row) (hc : Carries collected s) (hs : s.Ok) :
    ∃ entry', (∀ t, (entry'.machine t).core = (entry.machine t).core) ∧
      Agreed source s summary entry' row := by
  obtain ⟨entry', hentry⟩ := hc.present _ _ h.inState
  have hcore : ∀ t, (entry'.machine t).core = (entry.machine t).core := by
    intro t
    rw [← Health.State.machine_eq hentry, hc.core, Health.State.machine_eq h.inState]
  refine ⟨entry', hcore, { h with inState := hentry, last := hc.last.trans h.last, ok := ?_
                                  incident := ?_, observerIncident := ?_ }⟩
  · intro t
    rw [← Health.State.machine_eq hentry]
    exact hs _ t
  · rw [h.incident]
    show (entry.machine .own).core.incident = (entry'.machine .own).core.incident
    rw [hcore]
  · rw [h.observerIncident]
    show (entry.machine .observer).core.incident = (entry'.machine .observer).core.incident
    rw [hcore]

/-- Samples that were not duplicates are the latest ones of the machines. -/
theorem consumed_of_core {summary : Health.Summary} {collected entry : Health.Entry}
    {row : Health.Row} (hcore : ∀ t, (entry.machine t).core = (collected.machine t).core)
    (hown : collected.own.sampleAt = some row.observation.sampleAt ∧
      collected.own.latestStatus = some row.observation.status)
    (hobserver : collected.observer.sampleAt = some summary.observedAt ∧
      collected.observer.latestStatus = some row.observerStatus) : Consumed summary entry row where
  sampleAt := by
    show (entry.machine .own).core.sampleAt = _
    rw [hcore]; exact hown.1
  latestStatus := by
    show (entry.machine .own).core.latestStatus = _
    rw [hcore]; exact hown.2
  observerAt := by
    show (entry.machine .observer).core.sampleAt = _
    rw [hcore]; exact hobserver.1
  observerStatus := by
    show (entry.machine .observer).core.latestStatus = _
    rw [hcore]; exact hobserver.2

/-- **The two readers of a completed run.** The heartbeat reader accepts the summary. And where both
    samples of a source were consumed, the Discord reader takes no error path: unless the original
    probe has expired, it reports the incidents of the source and of its observer, and an alarm exactly
    for an open incident with current evidence. -/
theorem published_readable {w w' : Health.MonitorWorld} (hw : Health.Reachable w)
    {x : Health.RunInput} {summary : Health.Summary}
    (hrun : Runs (Health.run x) w w' (some (.ok summary))) :
    ∃ s, w'.disk.state = some s ∧ w'.disk.summary = some summary ∧
      (∀ clock, x.now - 30 ≤ clock →
        ∃ report, Health.heartbeat summary.toJson clock = .ok report) ∧
      ∀ source ∈ x.config.sources, ∃ row, summary.sources.get? source.name = some row ∧
        (row.event ≠ .duplicate → row.observerEvent ≠ .duplicate →
          ∀ (name : Discord.Name) (maxAge : Int) (clock : ℚ), name.val = source.name →
          x.now - 5 ≤ clock → clock ≤ x.now + 180 →
          (Expired row maxAge clock →
            Discord.serviceReports name (source.severity = some "warning") maxAge clock s.toJson
              summary.toJson = .ok none) ∧
          (¬ Expired row maxAge clock → ∃ condition observer,
            Discord.collectServiceHealth name (source.severity = some "warning") maxAge clock
              (some (s.toJson, summary.toJson)) = .ok (some condition, some observer) ∧
            Identifies (s.machine source.name .own) condition ∧
            Identifies (s.machine source.name .observer) observer ∧
            (condition.status = .alarm ↔ (s.machine source.name .own).incident ≠ none ∧
              (row.observation.rawStatus = some .healthy ∨
                row.observation.rawStatus = some .failed)) ∧
            (observer.status = .alarm ↔ (s.machine source.name .observer).incident ≠ none ∧
              row.suppressedBy = none))) := by
  rcases Health.run_cases hrun with ⟨-, hnone⟩ | ⟨collected, summary', hc, hmoves, hpublished⟩
  · exact absurd rfl (hnone summary)
  obtain ⟨rfl, hsummary⟩ := hpublished summary rfl
  have hcollected : Health.Collected x.config x.call w.disk.stateOrEmpty collected summary :=
    Health.collect_ok hc
  have hvalid : Health.validate x.config = .ok () := by
    unfold Health.collect at hc
    cases hv : Health.validate x.config with
    | error e => simp [hv] at hc
    | ok u => rfl
  have hat : summary.observedAt = x.now := hcollected.observedAt
  have hbegin : OnDisk collected (w.wrote { w.disk with state := some collected }) :=
    ⟨collected, rfl, carries_refl collected⟩
  obtain ⟨s, hs, hcarries⟩ : OnDisk collected w' :=
    invariant_of_moves (I := OnDisk collected) (fun _ _ h hm => h.move hm) hbegin hmoves
  have hok : s.Ok := Health.stateOrEmpty_of_state hs ▸ (hw.inv.run hrun).1.ok
  refine ⟨s, hs, hsummary, ?_, ?_⟩
  · intro clock hclock
    obtain ⟨hpos, hmax⟩ := rows_bounded hcollected hvalid
    apply Health.heartbeat_ok hpos hmax
    · rw [hat]; exact hcollected.now_nonneg
    · rw [hat]; linarith
    · intro name row hrow
      obtain ⟨source, hsource, rfl⟩ := source_of_row hcollected hrow
      obtain ⟨entry, row', hagreed⟩ := agreed_of_collected hcollected hw.inv.ok hsource
      obtain rfl := Option.some.inj (hrow.symm.trans hagreed.inSummary)
      refine ⟨isName_of_valid (hcollected.valid.sources source hsource),
        hagreed.sampled.nonneg hagreed.nonneg, ?_⟩
      cases hagreed.sampled with
      | accepted _ _ _ _ _ hsample _ _ hfuture => rw [hsample]; exact hfuture
      | unknown _ _ _ hsample => rw [hsample]; linarith
  · intro source hsource
    obtain ⟨entry, row, hagreed⟩ := agreed_of_collected hcollected hw.inv.ok hsource
    refine ⟨row, hagreed.inSummary, ?_⟩
    intro hevent hobserverEvent name maxAge clock hname hlow hhigh
    obtain ⟨entry', hcore, hagreed'⟩ := hagreed.carried hcarries hok
    have hconsumed : ∀ t, row.event? t ≠ .duplicate →
        (entry.machine t).sampleAt = some (row.observed x.now t).2 ∧
          (entry.machine t).latestStatus = some (row.observed x.now t).1 := by
      intro t ht
      obtain ⟨row', hrow', hturn⟩ := hcollected.turn hw.inv.ok hsource t
      obtain rfl := Option.some.inj (hagreed.inSummary.symm.trans hrow')
      rw [Health.State.machine_eq hagreed.inState] at hturn
      exact (hturn.consumed ht).2
    have hc' : Consumed summary entry' row := consumed_of_core hcore (hconsumed .own hevent)
      (hat ▸ hconsumed .observer hobserverEvent)
    have hread := hagreed'.serviceReports hc' hname rfl (by rw [hat]; linarith : _ ≤ clock - _)
      (by rw [hat]; linarith) maxAge
    refine ⟨fun he => by rw [hread, if_pos he], fun he => ?_⟩
    rw [if_neg he] at hread
    rw [Health.State.machine_eq hagreed'.inState, Health.State.machine_eq hagreed'.inState]
    refine ⟨conditionReport entry' row summary.observedAt, observerReport entry' row summary.observedAt,
      by rw [Discord.collectServiceHealth, hread], identifies_report .., identifies_report .., ?_, ?_⟩
    · have h := status_report (identity entry'.own row.observation.sampleAt summary.observedAt)
        (row.observation.rawStatus = some .healthy || row.observation.rawStatus = some .failed)
        (row.observation.rawStatus = some .healthy)
      rw [Bool.or_eq_true, decide_eq_true_eq, decide_eq_true_eq] at h
      exact h
    · have h := status_report (identity entry'.observer summary.observedAt summary.observedAt)
        row.suppressedBy.isNone (row.observerStatus = .healthy)
      rw [Option.isNone_iff_eq_none] at h
      exact h

/-! ## A probe that expires between the run and the poll -/

/-- A run of the demo configuration that finds a report of another time. -/
def reportRun (reported now : ℚ) : Health.RunInput where
  config := Health.demoConfig
  now := now
  reader := fun _ => .document (Health.demoReport "FAILED" reported)
  mailReady := true

/-- The world after a failed sample at 60. -/
def failedOnce : Health.MonitorWorld := ((Health.run (reportRun 60 60)).exec 9 ⟨.start, []⟩ []).1

/-- The run at 180 that opens incident 1 on a report of 100. -/
def failedTwice : Health.MonitorWorld × Option (Except Health.HealthExn Health.Summary) :=
  (Health.run (reportRun 100 180)).exec 9 failedOnce [.sent]

theorem failedOnce_reachable : Health.Reachable failedOnce :=
  .run _ .start (runs_exec _ _ _ _)

theorem isName_api : Text.isName "api" = true := by decide +kernel

/-- The demo source, as the Discord reader names it. -/
def demoName : Discord.Name := ⟨"api", isName_api⟩

/-- The demo source's row and open incident after the two runs. -/
def demoRow : Option (Health.Row × Option Nat) :=
  match failedTwice with
  | (w, some (.ok summary)) =>
    match w.disk.state, summary.sources.get? "api" with
    | some s, some row => some (row, (s.machine "api" .own).incident)
    | _, _             => none
  | _ => none

/-- What the poll at `clock` reads of the demo source after the two runs. -/
def demoReading (maxAge : Int) (clock : ℚ) : Except Discord.ReadExn
    (Option Discord.ServiceReport × Option Discord.ServiceReport) :=
  match failedTwice with
  | (w, some (.ok summary)) => Discord.collectServiceHealth demoName false maxAge clock
      (w.disk.state.map (fun s => (s.toJson, summary.toJson)))
  | _                       => .error .valueError

/-- The second run completes, and leaves the demo source with a row. -/
theorem failedTwice_completes {P : Health.Row → Option Nat → Bool} (h : demoRow.any (fun p => P p.1 p.2)) :
    ∃ (w' : Health.MonitorWorld) (s : Health.State) (summary : Health.Summary) (row : Health.Row),
      Runs (Health.run (reportRun 100 180)) failedOnce w' (some (.ok summary)) ∧
      w'.disk.state = some s ∧ summary.sources.get? "api" = some row ∧
      P row (s.machine "api" .own).incident = true ∧
      ∀ maxAge clock, demoReading maxAge clock =
        Discord.collectServiceHealth demoName false maxAge clock (some (s.toJson, summary.toJson)) := by
  have hrun : Runs (Health.run (reportRun 100 180)) failedOnce failedTwice.1 failedTwice.2 :=
    runs_exec _ _ _ _
  unfold demoRow at h
  unfold demoReading
  generalize failedTwice = out at h hrun
  obtain ⟨w', r⟩ := out
  cases r with
  | none => cases h
  | some result =>
      cases result with
      | error e => cases h
      | ok summary =>
          dsimp only at h hrun ⊢
          split at h
          · next s row hs hrow => exact ⟨w', s, summary, row, hrun, hs, hrow, h, by simp [hs]⟩
          · cases h

/-- At 350 the probe of 100 is older than 180: the reader says nothing about incident 1, though both
    samples were consumed in the run at 180. -/
theorem not_readable_when_expired :
    Health.Reachable failedOnce ∧
    ∃ (w' : Health.MonitorWorld) (s : Health.State) (summary : Health.Summary) (row : Health.Row),
      Runs (Health.run (reportRun 100 180)) failedOnce w' (some (.ok summary)) ∧
      w'.disk.state = some s ∧ summary.sources.get? "api" = some row ∧
      row.event ≠ .duplicate ∧ row.observerEvent ≠ .duplicate ∧
      (180 : ℚ) - 5 ≤ 350 ∧ (350 : ℚ) ≤ 180 + 180 ∧
      (s.machine "api" .own).incident = some 1 ∧
      Discord.collectServiceHealth demoName false 180 350 (some (s.toJson, summary.toJson)) =
        .ok (none, none) := by
  have hread : demoReading 180 350 = .ok (none, none) := by decide +kernel
  have hrow : demoRow.any (fun p => decide (p.1.event ≠ .duplicate ∧ p.1.observerEvent ≠ .duplicate ∧
      p.2 = some 1)) = true := by decide +kernel
  obtain ⟨w', s, summary, row, hrun, hs, hget, hp, hreads⟩ := failedTwice_completes (P :=
    fun row incident => decide (row.event ≠ .duplicate ∧ row.observerEvent ≠ .duplicate ∧
      incident = some 1)) hrow
  obtain ⟨hevent, hobserver, hincident⟩ := of_decide_eq_true hp
  exact ⟨failedOnce_reachable, w', s, summary, row, hrun, hs, hget, hevent, hobserver, by norm_num,
    by norm_num, hincident, (hreads 180 350).symm.trans hread⟩

/-- At 250 the same poll reports incident 1. -/
theorem published_readable_open_incident :
    ∃ (w' : Health.MonitorWorld) (s : Health.State) (summary : Health.Summary)
      (condition observer : Discord.ServiceReport),
      Runs (Health.run (reportRun 100 180)) failedOnce w' (some (.ok summary)) ∧
      w'.disk.state = some s ∧ (∃ report, Health.heartbeat summary.toJson 150 = .ok report) ∧
      Discord.collectServiceHealth demoName false 180 250 (some (s.toJson, summary.toJson)) =
        .ok (some condition, some observer) ∧
      condition.incident = (s.machine "api" .own).incident := by
  have hrow : demoRow.any (fun p => decide (p.1.event ≠ .duplicate ∧ p.1.observerEvent ≠ .duplicate ∧
      ¬ Expired p.1 180 250)) = true := by decide +kernel
  obtain ⟨w', s, summary, row, hrun, hs, hget, hp, -⟩ := failedTwice_completes (P :=
    fun row _ => decide (row.event ≠ .duplicate ∧ row.observerEvent ≠ .duplicate ∧
      ¬ Expired row 180 250)) hrow
  obtain ⟨hevent, hobserver, hfresh⟩ := of_decide_eq_true hp
  obtain ⟨s', hs', -, hheartbeat, hsources⟩ := published_readable failedOnce_reachable hrun
  obtain rfl := Option.some.inj (hs.symm.trans hs')
  obtain ⟨row', hget', hreads⟩ := hsources Health.demoSource List.mem_cons_self
  obtain rfl := Option.some.inj (hget.symm.trans hget')
  obtain ⟨condition, observer, hread, hcondition, -⟩ :=
    (hreads hevent hobserver demoName 180 250 rfl (by norm_num [reportRun])
      (by norm_num [reportRun])).2 hfresh
  exact ⟨w', s, summary, condition, observer, hrun, hs, hheartbeat 150 (by norm_num [reportRun]),
    hread, hcondition.incident⟩

end System
end PickleInfra
