import PickleInfra.Discord.Delivery

/-!
# `Discord.Eligible` — no stale message of a `service_health` source is sent

An item of a `service_health` source may wait for many runs. It is handed to the sender only in a run
that has accepted, for the item's own source and dimension, a report that matches the item's tag.
The tag never changes after the first write of a run, and identities are distinct, so eligibility by
identity is eligibility of the item itself.
-/

namespace PickleInfra
namespace Discord

open Python Durable History
open Relation (ReflTransGen)

/-! ## What a run keeps of each item -/

/-- The item is one of the list, possibly later in its life. -/
def OneOf (items : List Item) (item : Item) : Prop :=
  ∃ first ∈ items, item.id = first.id ∧ item.service = first.service

theorem OneOf.same {items : List Item} {item item' : Item} (h : OneOf items item)
    (hid : item'.id = item.id) (hservice : item'.service = item.service) : OneOf items item' := by
  obtain ⟨first, hm, hi, hs⟩ := h
  exact ⟨first, hm, hid.trans hi, hservice.trans hs⟩

/-- A run since its first write `first`: its items are those, and it has only called the sender for
    items that are due. -/
structure During (first : State) (eligible : List ItemId) (base : List AlertEvent) (w : AlertWorld) :
    Prop where
  disk : ∃ s, w.disk = some s ∧ ∀ item ∈ s.outbox, OneOf first.outbox item
  calls : CallsSince none (fun q _ => OneOf first.outbox q.item ∧
    (q.item.service.isSome → q.item.id ∈ eligible)) base w.hist

namespace During

variable {first : State} {eligible : List ItemId} {base : List AlertEvent} {w : AlertWorld}

theorem wrote (h : During first eligible base w) {s : State}
    (hs : ∀ item ∈ s.outbox, OneOf first.outbox item) :
    During first eligible base (w.wrote (some s)) := ⟨⟨s, rfl, hs⟩, h.calls.wrote _⟩

/-- Each move replaces an item by one with the same identity and tag. -/
theorem move (h : During first eligible base w) {x : RunInput} {w' : AlertWorld}
    (hm : Move x eligible w w') : During first eligible base w' := by
  obtain ⟨s, hs, hitems⟩ := h.disk
  have hput : ∀ {done rest : List Item} {item item' : Item}, s.outbox = done ++ item :: rest →
      item'.id = item.id → item'.service = item.service →
      ∀ j ∈ done ++ item' :: rest, OneOf first.outbox j := by
    intro done rest item item' hsplit hid hservice j hj
    rcases List.mem_append.mp hj with hj | hj
    · exact hitems j (hsplit ▸ List.mem_append_left _ hj)
    rcases List.mem_cons.mp hj with rfl | hj
    · exact (hitems item (hsplit ▸ List.mem_append_right _ List.mem_cons_self)).same hid hservice
    · exact hitems j (hsplit ▸ List.mem_append_right _ (List.mem_cons_of_mem _ hj))
  cases hm with
  | settled hs' hsplit hitem =>
      cases hs.symm.trans hs'
      exact h.wrote (by rw [State.replace, remember_outbox]; exact hput hsplit rfl rfl)
  | exhausted hs' hsplit hitem =>
      cases hs.symm.trans hs'
      exact h.wrote (hput hsplit rfl rfl)
  | @posted _ _ done rest item hs' hsplit htries hattempts hfree hdone he =>
      cases hs.symm.trans hs'
      have hclaimed : ∀ j ∈ done ++ item.claimed :: rest, OneOf first.outbox j :=
        hput hsplit rfl rfl
      have hclaim := h.wrote (s := { s with outbox := done ++ item.claimed :: rest }) hclaimed
      have hcall : ∀ {e : AlertEvent} {a}, e.call? = some (⟨item.claimed, x.now⟩, a) →
          During first eligible base
            ((w.wrote (some { s with outbox := done ++ item.claimed :: rest })).push e) := by
        intro e a he
        refine ⟨hclaim.disk, hclaim.calls.cons fun q r hq => ?_⟩
        cases he.symm.trans hq
        refine ⟨hclaimed item.claimed (List.mem_append_right _ List.mem_cons_self),
          fun hservice => ?_⟩
        simp only [RunInput.tries, Bool.and_eq_true, Bool.not_eq_true', Bool.and_eq_false_iff] at htries
        rcases htries.1.1.1.2 with hno | hyes
        · simp [Item.claimed, hno] at hservice
        · simpa using hyes
      cases he with
      | claimed => exact hclaim
      | lost => exact hcall (Event.call?_lost _)
      | answered a => exact hcall (Event.call?_answered _ _)
      | recorded a =>
          refine (hcall (Event.call?_answered _ a)).wrote ?_
          rw [record_outbox]
          exact hput hsplit (recorded_id _ _ _) (recorded_service _ _ _)

end During

/-! ## The report that justifies a call -/

/-- This run has accepted a report that the item with this tag is about. -/
def JustifiedBy (x : RunInput) (before : State) (item : Item) (tag : ServiceTag) : Prop :=
  x.testMessage = false ∧ ∃ source ∈ x.config.sources, ∃ dimension,
    source.kind.isService = true ∧ item.id.key? = some (source.name, dimension) ∧
    ∃ report, x.report source dimension = some report ∧
      accepts (before.observations.get? (source.name, dimension)) report = true ∧
      (tag.event = .alarm → report.status = .alarm ∧ report.incident = tag.incident ∧
        report.incident.isSome ∧ report.openedAt = tag.openedAt) ∧
      (tag.event ≠ .alarm → report.status = .normal ∧ report.incident = none ∧
        report.closedIncident = tag.incident ∧ report.closedAt = tag.closedAt)

theorem serviceMatches_spec {tag : ServiceTag} {report : ServiceReport}
    (h : serviceMatches tag report = true) :
    (tag.event = .alarm → report.status = .alarm ∧ report.incident = tag.incident ∧
      report.incident.isSome ∧ report.openedAt = tag.openedAt) ∧
    (tag.event ≠ .alarm → report.status = .normal ∧ report.incident = none ∧
      report.closedIncident = tag.incident ∧ report.closedAt = tag.closedAt) := by
  unfold serviceMatches at h
  split at h
  · simp at h
  split at h
  · next he =>
    simp only [Bool.and_eq_true, decide_eq_true_eq] at h
    exact ⟨fun _ => ⟨h.1.1, h.1.2.symm, report.alarm h.1.1, h.2.symm⟩, fun hne => absurd he hne⟩
  · next he =>
    simp only [Bool.and_eq_true, decide_eq_true_eq, Option.isNone_iff_eq_none] at h
    exact ⟨fun hal => absurd hal he, fun _ => ⟨h.1.1.1, h.1.1.2, h.1.2.symm, h.2.symm⟩⟩

/-- **No stale message.** After any runs, every call that the next run makes for an item of a
    `service_health` source is about what this very run has accepted for the item's source and
    dimension. -/
theorem service_calls_current {w : AlertWorld} (h : Reachable AnyRun w) {x : RunInput}
    {w' : AlertWorld} {r} (hrun : Runs (run x) w w' r) :
    CallsSince none (fun q _ => ∀ tag, q.item.service = some tag →
      JustifiedBy x (loaded w.disk) q.item tag) w.hist w'.hist := by
  rcases run_cases hrun with rfl | ⟨first, eligible, hp, hmoves⟩
  · exact callsSince_self
  have hspec := prepare_spec hp
  have hnodup : (first.outbox.map Item.id).Nodup := nodup_of_views fun o => by
    obtain ⟨v, hprune, hprepare⟩ := hspec.views o
    exact ((Ledger.reachable h o).prepared hprune hprepare).nodup
  have hfirst : During first eligible w.hist (w.wrote (some first)) :=
    ⟨⟨first, rfl, fun item hm => ⟨item, hm, rfl, rfl⟩⟩, callsSince_self.wrote _⟩
  have hduring := invariant_of_moves (I := During first eligible w.hist)
    (fun _ _ hk hm => hk.move hm) hfirst hmoves
  intro later e earlier hsplit hbase q a he tag htag
  obtain ⟨⟨item, hitem, hid, hservice⟩, heligible⟩ :=
    hduring.calls later e earlier hsplit hbase q a he
  obtain ⟨htest, source, hsource, d, -, hkind, report, hreport, ⟨_, ⟨⟩, haccepts, -⟩, other, hother,
    hotherId, tag', htag', hmatch⟩ := hspec.eligible _ (heligible (by rw [htag]; rfl))
  obtain ⟨hmem, hkey⟩ := List.mem_filter.mp hother
  -- the two items have one identity
  have hsame : other = item :=
    List.inj_on_of_nodup_map hnodup hmem hitem (hotherId.trans hid)
  subst hsame
  obtain rfl : tag' = tag := Option.some.inj (htag'.symm.trans (hservice.symm.trans htag))
  refine ⟨htest, source, hsource, d, hkind, ?_, report, hreport, haccepts, serviceMatches_spec hmatch⟩
  rw [hid]
  simpa using hkey

/-! ## A demo -/

/-- One `service_health` source. -/
def serviceSource : Source := ⟨⟨"api", by decide⟩, "API", .serviceHealth ⟨"api", by decide⟩ false, 60⟩

/-- A run whose collector reports these two dimensions of it. -/
def serviceRun (now : ℚ) (condition observer : Option ServiceReport) : RunInput where
  config := ⟨"Host", [serviceSource], by decide⟩
  now := now
  testMessage := false
  plain := fun _ => (.unknown, .unknown)
  service := fun _ => (condition, observer)
  hostReady := true

/-- Incident 1 is open. -/
def alarmReport : ServiceReport where
  status := .alarm
  incident := some 1
  sourceSequence := 1
  closedIncident := none
  openedAt := some 50
  closedAt := none
  sampleAt := 90
  observedAt := 90
  alarm := by simp
  normal := by simp

def alarmWorld : AlertWorld :=
  ((run (serviceRun 100 (some alarmReport) none)).exec 9 ⟨none, []⟩ [.sent "1234567890123456"]).1

/-- The alarm of incident 1 is sent, by the run that has accepted incident 1. -/
theorem service_calls_current_alarm :
    endsOf (Event.ended (fun q : Post => q.item.id)) (.event (serviceSource.name, .condition) 1)
      alarmWorld.hist = [some (.sent "1234567890123456")] ∧
    CallsSince none (fun q _ => ∀ tag, q.item.service = some tag →
      JustifiedBy (serviceRun 100 (some alarmReport) none) {} q.item tag) [] alarmWorld.hist :=
  ⟨by decide +kernel, service_calls_current .start (runs_exec _ _ _ _)⟩

end Discord
end PickleInfra
