import PickleInfra.Backup.CoreNotices

/-!
# `Backup.Observations` — what the core monitor records of its archives

Every observation a run saves is `Formed`: its points are those of the five containers, no point is newer
than the inventory it came from, and the inventory is of the same run or of an earlier one. Points carried
over an outage keep this, since they were well formed when they were recorded.
-/

namespace PickleInfra
namespace Backup
namespace Core

open Python Durable

/-- The clocks of the years 1970 to 2099, and the first instant after. -/
def SafeClock (t : ℚ) : Prop := 0 ≤ t ∧ t ≤ 4102444800

/-! ## Well-formed observations -/

/-- A point of an observation: there is none, or it is no newer than the inventory and aged to the stamp. -/
inductive PointFormed (stamp : ℚ) (inventory : Option ℚ) : Point → Prop
  | missing (p : Point) (hctime : p.ctime = none) (hage : p.age = none) : PointFormed stamp inventory p
  | there (p : Point) (ctime : Int) (t : ℚ) (hctime : p.ctime = some ctime)
      (hage : p.age = some (stamp - ctime)) (hinventory : inventory = some t) (hle : (ctime : ℚ) ≤ t) :
      PointFormed stamp inventory p

/-- Where the points come from: this query, an earlier one, or none. -/
inductive Provenanced (o : Observation) : Prop
  | observed (hquery : o.queryOk = true) (hevidence : o.evidence = .observed)
      (hinventory : o.inventoryAt = some o.observedAt)
  | cached (t : ℚ) (hquery : o.queryOk = false) (hevidence : o.evidence = .cached)
      (hinventory : o.inventoryAt = some t) (ht : 0 ≤ t ∧ t ≤ o.observedAt)
  | unavailable (hquery : o.queryOk = false) (hevidence : o.evidence = .unavailable)
      (hinventory : o.inventoryAt = none)

structure Formed (o : Observation) : Prop where
  stamp : SafeClock o.observedAt
  members : o.points.map Prod.fst = CTIDS.map toString
  provenance : Provenanced o
  points : ∀ e ∈ o.points, PointFormed o.observedAt o.inventoryAt e.2

/-- The inventory is no newer than the stamp. -/
theorem Formed.inventory {o : Observation} (h : Formed o) {t : ℚ} (ht : o.inventoryAt = some t) :
    0 ≤ t ∧ t ≤ o.observedAt := by
  cases h.provenance with
  | observed hquery hevidence hinventory =>
      obtain rfl := Option.some.inj (ht.symm.trans hinventory)
      exact ⟨h.stamp.1, le_refl _⟩
  | cached t' hquery hevidence hinventory hbounds =>
      obtain rfl := Option.some.inj (ht.symm.trans hinventory)
      exact hbounds
  | unavailable hquery hevidence hinventory =>
      rw [hinventory] at ht
      cases ht

/-! ## `inspect` -/

/-- A fold that keeps what it has or takes the element ends with what it began with, or with an element. -/
theorem foldl_choice {α : Type} {f : Option α → α → Option α}
    (hf : ∀ best row, f best row = some row ∨ f best row = best ∧ best ≠ none) (best : Option α) (rows : List α) :
    (rows.foldl f best = best ∧ (best = none → rows = [])) ∨ ∃ row ∈ rows, rows.foldl f best = some row := by
  induction rows generalizing best with
  | nil => exact .inl ⟨rfl, fun _ => rfl⟩
  | cons r rows ih =>
      rw [List.foldl_cons]
      rcases ih (f best r) with ⟨hfold, -⟩ | ⟨row, hrow, hfold⟩
      · rcases hf best r with hr | ⟨hbest, hsome⟩
        · exact .inr ⟨r, List.mem_cons_self, hfold.trans hr⟩
        · exact .inl ⟨hfold.trans hbest, fun hnone => absurd hnone hsome⟩
      · exact .inr ⟨row, List.mem_cons_of_mem _ hrow, hfold⟩

theorem newest_cases (rows : List (Int × Json)) :
    (newest rows = none ∧ rows = []) ∨ ∃ row ∈ rows, newest rows = some row := by
  unfold newest
  refine (foldl_choice ?newer none rows).imp_left fun h => ⟨h.1, h.2 rfl⟩
  intro best row
  cases best with
  | none => exact .inl rfl
  | some b =>
      dsimp only
      split
      · exact .inl rfl
      · exact .inr ⟨rfl, Option.some_ne_none b⟩

/-- The newest row is one of the rows. -/
theorem newest_mem {rows : List (Int × Json)} {row : Int × Json} (h : newest rows = some row) :
    row ∈ rows := by
  rcases newest_cases rows with ⟨hnone, -⟩ | ⟨row', hrow', hsome⟩
  · rw [hnone] at h
    cases h
  · rw [hsome] at h
    obtain rfl := Option.some.inj h
    exact hrow'

theorem newest_eq_none {rows : List (Int × Json)} (h : newest rows = none) : rows = [] := by
  rcases newest_cases rows with ⟨-, hrows⟩ | ⟨row, -, hsome⟩
  · exact hrows
  · rw [hsome] at h
    cases h

theorem mem_timed {rows : List Json} {e : Int × Json} (h : e ∈ timed rows) :
    e.2 ∈ rows ∧ ctime? e.2 = some e.1 := by
  obtain ⟨row, hrow, he⟩ := List.mem_filterMap.mp h
  obtain ⟨ctime, hctime, rfl⟩ := Option.map_eq_some_iff.mp he
  exact ⟨hrow, hctime⟩

/-- A valid row has a time that is not in the future. -/
theorem ctime_of_valid {now : ℚ} {ctid : Nat} {row : Json} (h : valid now ctid row = true) :
    ∃ ctime, ctime? row = some ctime ∧ (ctime : ℚ) ≤ now := by
  unfold valid at h
  split at h
  · cases h
  · simp only [Bool.and_eq_true] at h
    obtain ⟨ctime, hctime, hle⟩ := (Option.any_eq_true _ _).mp h.2
    exact ⟨ctime, hctime, of_decide_eq_true hle⟩

theorem lastValidPoint_formed (now : ℚ) (content : List Json) (ctid : Nat) :
    PointFormed now (some now) (lastValidPoint now content ctid) := by
  unfold lastValidPoint
  cases hnewest : newest (timed (validRows now content ctid)) with
  | none => exact .missing _ rfl rfl
  | some e =>
      obtain ⟨hrow, hctime⟩ := mem_timed (newest_mem hnewest)
      obtain ⟨ctime, hctime', hle⟩ := ctime_of_valid (List.mem_filter.mp hrow).2
      obtain rfl := Option.some.inj (hctime.symm.trans hctime')
      exact .there _ e.1 now rfl rfl rfl hle

/-- A container with a valid row has a last valid point. -/
theorem lastValidPoint_ctime {now : ℚ} {content : List Json} {ctid : Nat} {row : Json}
    (hrow : row ∈ rowsOf content ctid) (hvalid : valid now ctid row = true) :
    (lastValidPoint now content ctid).ctime ≠ none := by
  unfold lastValidPoint
  cases hnewest : newest (timed (validRows now content ctid)) with
  | none =>
      obtain ⟨ctime, hctime, -⟩ := ctime_of_valid hvalid
      have hmem : (ctime, row) ∈ timed (validRows now content ctid) :=
        List.mem_filterMap.mpr ⟨row, List.mem_filter.mpr ⟨hrow, hvalid⟩, by rw [hctime]; rfl⟩
      rw [newest_eq_none hnewest] at hmem
      cases hmem
  | some e => exact Option.some_ne_none _

/-- Today's archive is a valid row. -/
theorem today_valid {now window : ℚ} {content : List Json} {ctid : Nat} {ctime : Int}
    (h : today now window content ctid = .ok ctime) :
    ∃ row ∈ rowsOf content ctid, valid now ctid row = true := by
  unfold today at h
  dsimp only at h
  split at h
  · cases h
  next hnewest =>
  split at h
  · cases h
  next hvalid =>
  obtain ⟨hrow, -⟩ := mem_timed (newest_mem hnewest)
  exact ⟨_, (List.mem_filter.mp hrow).1, by simpa using hvalid⟩

/-- The containers with a protected manual archive, and CT1203. -/
theorem manual_of_mem {ctid : Nat} (h : ctid ∈ CTIDS) : ctid = 1203 ∨ ∃ volid, manual ctid = some volid := by
  unfold CTIDS at h
  simp only [List.mem_cons, List.not_mem_nil, or_false] at h
  rcases h with rfl | rfl | rfl | rfl | rfl
  · exact .inr ⟨_, rfl⟩
  · exact .inr ⟨_, rfl⟩
  · exact .inr ⟨_, rfl⟩
  · exact .inl rfl
  · exact .inr ⟨_, rfl⟩

theorem verdict_healthy {baseline failures : List String} {late : Bool}
    (h : verdict baseline failures late = .healthy) : baseline = [] ∧ failures = [] := by
  unfold verdict at h
  split at h
  · cases h
  next hnot =>
  split at h
  · cases h
  next hfailures =>
  rw [not_or, ne_eq, not_not] at hnot
  exact ⟨hnot.1, not_not.mp hfailures⟩

/-- **A healthy report** has a point of every container, but for CT1203 before the first due date: only
    it has no protected manual archive. -/
theorem point_of_healthy {s : Schedule} {content : List Json} {now : ℚ} {e : String × Point}
    (hhealthy : (inspect s content now).1.status = .healthy) (he : e ∈ (inspect s content now).2)
    (hmissing : e.2.ctime = none) :
    e.1 = toString 1203 ∧ (s.zone.toLocal now).day < s.firstDueDate := by
  obtain ⟨ctid, hctid, rfl⟩ := List.mem_map.mp he
  -- nothing is wrong with the protected archives or with today's
  obtain ⟨hbaseline, hfailures⟩ := verdict_healthy hhealthy
  unfold baselineFailures at hbaseline
  rw [List.map_eq_nil_iff, List.filter_eq_nil_iff] at hbaseline
  rw [List.filterMap_eq_nil_iff] at hfailures
  have hnone : ∀ row ∈ rowsOf content ctid, valid now ctid row ≠ true :=
    fun row hrow hvalid => lastValidPoint_ctime hrow hvalid hmissing
  constructor
  · rcases manual_of_mem hctid with rfl | ⟨volid, hvolid⟩
    · rfl
    · have hthere := hbaseline ctid hctid
      unfold baselineMissing at hthere
      rw [hvolid] at hthere
      simp only [Bool.not_eq_true', Bool.not_eq_false, List.any_eq_true, Bool.and_eq_true] at hthere
      obtain ⟨row, hrow, -, hvalid⟩ := hthere
      exact absurd hvalid (hnone row hrow)
  · by_contra hdue
    unfold todays at hfailures
    dsimp only at hfailures
    rw [if_neg hdue] at hfailures
    have htoday := hfailures _ (List.mem_map.mpr ⟨ctid, hctid, rfl⟩)
    unfold failure? at htoday
    dsimp only at htoday
    split at htoday
    · cases htoday
    next hok =>
    obtain ⟨row, hrow, hvalid⟩ := today_valid hok
    exact hnone row hrow hvalid

/-! ## `record_observation` -/

theorem observe_query_formed {previous : Option Observation} {s : Schedule} {content : List Json} {now : ℚ}
    (hnow : SafeClock now) :
    Formed (observe previous (inspect s content now).1 (some (inspect s content now).2) now) where
  stamp := hnow
  members := rfl
  provenance := .observed rfl rfl rfl
  points := by
    intro e he
    obtain ⟨ctid, -, rfl⟩ := List.mem_map.mp he
    exact lastValidPoint_formed now content ctid

/-- A cached point was recorded with the inventory that is inherited. -/
theorem cachedPoint_formed {previous : Observation} {now t : ℚ} {ctid : String} (h : Formed previous)
    (ht : previous.inventoryAt = some t) :
    PointFormed now (some t) (cachedPoint now previous.points ctid) := by
  unfold cachedPoint
  split
  · exact .missing _ rfl rfl
  next ctime volid hfind =>
  split
  · obtain ⟨e, he, hctime⟩ := Option.bind_eq_some_iff.mp hfind
    obtain ⟨c, hc, heq⟩ := Option.map_eq_some_iff.mp hctime
    obtain ⟨rfl, -⟩ := Prod.mk.injEq .. ▸ heq
    cases h.points e (List.mem_of_find?_eq_some he) with
    | missing hnone hage =>
        rw [hnone] at hc
        cases hc
    | there ctime t' hsome hage hinventory hle =>
        obtain rfl := Option.some.inj (hsome.symm.trans hc)
        obtain rfl := Option.some.inj (hinventory.symm.trans ht)
        exact .there _ _ _ rfl rfl rfl hle
  · exact .missing _ rfl rfl

theorem observe_outage_formed {previous : Option Observation} {report : Report} {now : ℚ}
    (hprevious : ∀ p, previous = some p → Formed p) (hnow : SafeClock now) :
    Formed (observe previous report none now) where
  stamp := hnow
  members := rfl
  provenance := by
    cases hinherited : inherited previous now with
    | none =>
        refine .unavailable rfl ?_ hinherited
        show (if (inherited previous now).isSome then Evidence.cached else _) = _
        rw [hinherited]
        rfl
    | some t =>
        refine .cached t rfl ?_ hinherited ?_
        · show (if (inherited previous now).isSome then Evidence.cached else _) = _
          rw [hinherited]
          rfl
        · unfold inherited at hinherited
          show 0 ≤ t ∧ t ≤ now
          simpa using (Option.filter_eq_some_iff.mp hinherited).2
  points := by
    intro e he
    obtain ⟨ctid, -, rfl⟩ := List.mem_map.mp he
    show PointFormed now (inherited previous now) (cachedPoint now _ _)
    cases hinherited : inherited previous now with
    | none =>
        -- without an inventory nothing is carried over
        have hempty : cachedPoint now [] (toString ctid) = {} := rfl
        simp only [Option.isSome_none, Bool.false_eq_true, if_false, hempty]
        exact .missing _ rfl rfl
    | some t =>
        unfold inherited at hinherited
        obtain ⟨p, hp, ht⟩ := Option.bind_eq_some_iff.mp (Option.filter_eq_some_iff.mp hinherited).1
        simp only [hp, Option.isSome_some, if_true, Option.map_some, Option.getD_some]
        exact cachedPoint_formed (hprevious p hp) ht

theorem observed_formed {x : RunInput} {previous : Option Observation} {o : Observation}
    (hprevious : ∀ p, previous = some p → Formed p) (hnow : SafeClock x.now)
    (h : observed x previous = some o) : Formed o := by
  unfold observed at h
  split at h
  · obtain rfl := Option.some.inj h
    exact observe_query_formed hnow
  · obtain rfl := Option.some.inj h
    exact observe_outage_formed hprevious hnow
  · cases h

/-! ## Every saved state -/

/-- A state that a run saves: its schema is known, and its last observation well formed. -/
def Readable (file : Option State) : Prop :=
  ∀ s, file = some s → s.schemaVersion = some 1 ∧ ∃ o, s.lastObservation = some o ∧ Formed o

theorem Readable.lastObservation {file : Option State} (h : Readable file) :
    ∀ p, (file.getD {}).lastObservation = some p → Formed p := by
  intro p hp
  cases file with
  | none => cases hp
  | some s =>
      obtain ⟨-, o, ho, hformed⟩ := h s rfl
      obtain rfl := Option.some.inj (ho.symm.trans hp)
      exact hformed

theorem Recorded.readable {x : RunInput} {file : Option State} {o : Observation} {s : State}
    (h : Recorded x file o s) (hfile : Readable file) (hnow : SafeClock x.now) (notice : Option Notice) :
    Readable (some { s with notice := notice }) := by
  intro s' hs'
  obtain rfl := Option.some.inj hs'
  exact ⟨h.schema, o, h.observation, observed_formed hfile.lastObservation hnow h.observed⟩

/-- What every world satisfies that runs reach by safe clocks. -/
structure Legible (w : CoreWorld) : Prop where
  file : Readable w.disk
  writes : WritesRelated (fun _ new => Readable new) none w.hist

theorem Legible.run {x : RunInput} {w w' : CoreWorld} {r} (h : Legible w) (hdisk : w.disk = diskAt none w.hist)
    (hnow : SafeClock x.now) (hrun : Runs (run x) w w' r) : Legible w' := by
  rcases run_cases hrun with rfl | ⟨o, hacted⟩
  · exact h
  cases hacted with
  | same s hrec hnotice hstatus =>
      have hs := hrec.readable h.file hnow s.notice
      exact ⟨hs, h.writes.wrote hs⟩
  | baseline s n hrec hnotice hnone hsame hn hstatus =>
      have hs := hrec.readable h.file hnow s.notice
      exact ⟨hs, h.writes.wrote hs⟩
  | told s n hrec hstatus hclaimed htold =>
      have hclaim := hrec.readable h.file hnow (some n.claim)
      have hrecord : ∀ a d,
          (n.claim.outcome x.now a).map (fun n => some { s with notice := some n }) = some d →
          Readable d := by
        intro a d hd
        obtain ⟨n', -, rfl⟩ := Option.map_eq_some_iff.mp hd
        exact hrec.readable h.file hnow (some n')
      refine ⟨?_, h.writes.told hdisk hclaim hrecord htold⟩
      cases htold with
      | claimed => exact hclaim
      | lost => exact hclaim
      | answered a => exact hclaim
      | recorded a d hd => exact hrecord a d hd

theorem Reachable.legible {w : CoreWorld} (h : Reachable SafeClock w) : Legible w := by
  induction h with
  | start => exact ⟨fun _ hs => (by cases hs), writesRelated_nil⟩
  | run x hprevious hclock hrun ih => exact ih.run hprevious.inv.disk hclock hrun

end Core
end Backup
end PickleInfra
