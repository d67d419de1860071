import PickleInfra.Discord.Reader
import PickleInfra.Health.Documents
import PickleInfra.Health.Targets

/-!
# `System.Records` — what the reader finds in the dictionary of a target

`serviceEntry_iff`: on the dictionary of a well-formed machine, `service_entry` succeeds exactly when
the machine's latest sample is the expected one, and then returns the machine's incidents.
-/

namespace PickleInfra
namespace System

open Python

/-- The dictionary holds what identifies the machine's sample and incidents. -/
structure Recorded (m : Health.Machine) (doc : Json) : Prop where
  sampleAt : doc.get? "sample_at" = m.sampleAt.map Health.time
  latestStatus : doc.get? "latest_status" = m.latestStatus.map (fun s => .str s.text)
  sequence : doc.get? "sequence" =
    if m.sequence = 0 then none else some (Health.incidentJson m.sequence)
  incident : doc.get? "incident" = m.incident.map Health.incidentJson
  openedAt : doc.get? "opened_at" = m.openedAt.map Health.time
  closedIncident : doc.get? "closed_incident" = m.closedIncident.map Health.incidentJson
  closedAt : doc.get? "closed_at" = m.closedAt.map Health.time

theorem recorded_fields (m : Health.Machine) : Recorded m (.dict m.fields) := by
  constructor <;>
    simp [Json.get?, Health.Machine.fields, Health.lookup_field, Health.lookup_field_nil]

theorem recorded_own (e : Health.Entry) : Recorded e.own e.toJson := by
  constructor <;>
    simp [Json.get?, Json.lookup, Health.Entry.toJson, Health.Machine.fields, Health.lookup_field,
      Health.lookup_field_nil]

theorem item_observer (e : Health.Entry) :
    e.toJson.item "observer" = (.ok (.dict e.observer.fields) : Except Discord.ReadExn Json) :=
  Json.item_dict_of_lookup rfl

/-- The identity a machine records. -/
def identity (m : Health.Machine) (sampleAt observedAt : ℚ) : Discord.Identity where
  incident := m.incident
  sourceSequence := m.sequence
  closedIncident := m.closedIncident
  openedAt := m.openedAt
  closedAt := m.closedAt
  sampleAt := sampleAt
  observedAt := observedAt

section Entry

variable {m : Health.Machine} {doc : Json}

@[simp] theorem number_time (q : ℚ) : Discord.number (Health.time q) = .ok q := rfl

@[simp] theorem natural_incident (n : Nat) :
    Discord.natural (Health.incidentJson n) = .ok n := by
  unfold Health.incidentJson Discord.natural
  show (if (n : Int) < 0 then Except.error Exn.valueError else Except.ok (n : Int).toNat) = .ok n
  have hn : ¬ ((n : Int) < 0) := by omega
  rw [if_neg hn, Int.toNat_natCast]

@[simp] theorem optionalNatural_incident (n : Option Nat) :
    Discord.optionalNatural ((n.map Health.incidentJson).getD .null) = .ok n := by
  cases n with
  | none => rfl
  | some n =>
      show (Discord.natural (Health.incidentJson n)).map some = .ok (some n)
      rw [natural_incident]
      rfl

theorem Recorded.natural_sequence (h : Recorded m doc) :
    Discord.natural ((doc.get? "sequence").getD (.int 0)) = .ok m.sequence := by
  rw [h.sequence]
  by_cases hz : m.sequence = 0
  · rw [if_pos hz, hz]; rfl
  · rw [if_neg hz]; exact natural_incident _

theorem numberIf_time {present : Bool} {key : String} {at? : Option ℚ} {t : ℚ}
    (hp : present = true) (hdoc : doc.get? key = some (Health.time t)) (ht : at? = some t) :
    Discord.numberIf present doc key = .ok at? := by
  rw [Discord.numberIf, if_pos hp, Json.item_of_get? hdoc, ht]
  rfl

/-- A well-formed register passes the reader's checks on its history. -/
theorem historyOk_of_register {sampleAt observedAt : ℚ} (h : m.register.Ok (some sampleAt)) :
    (identity m sampleAt observedAt).historyOk = true := by
  have hcurrent : ∀ n, m.incident = some n → n = m.sequence ∧ 1 ≤ n := h.current
  have hclosed : ∀ c, m.closedIncident = some c →
      1 ≤ c ∧ c ≤ m.sequence ∧ ∀ n, m.incident = some n → c < n := h.closedLe
  have hlast : m.sequence ≠ 0 → m.incident = none → m.closedIncident = some m.sequence :=
    h.lastClosed
  have hopenedAt : ∀ t, m.openedAt = some t → 0 ≤ t ∧ t ≤ sampleAt := by
    intro t ht
    by_cases hz : m.sequence = 0
    · have hnone : m.openedAt = none := h.neverOpened hz
      rw [hnone] at ht
      cases ht
    · obtain ⟨o, s, ho, hs, hpos, hle⟩ := h.openedAt hz
      obtain rfl : o = t := Option.some.inj (Eq.trans (Eq.symm ho) ht)
      cases hs
      exact ⟨hpos, hle⟩
  have hclosedAt : ∀ t, m.closedAt = some t → 0 ≤ t ∧ t ≤ sampleAt := by
    intro t ht
    cases hc : m.closedIncident with
    | none =>
        have hnone : m.closedAt = none := h.neverClosed hc
        rw [hnone] at ht
        cases ht
    | some c =>
        obtain ⟨a, s, ha, hs, hpos, hle⟩ := h.closedAt c hc
        obtain rfl : a = t := Option.some.inj (Eq.trans (Eq.symm ha) ht)
        cases hs
        exact ⟨hpos, hle⟩
  have hend : m.sequence = 0 ∨ m.incident.isNone = false ∨ m.closedIncident = some m.sequence := by
    by_cases hz : m.sequence = 0
    · exact .inl hz
    · cases hi : m.incident with
      | some n => exact .inr (.inl rfl)
      | none => exact .inr (.inr (hlast hz hi))
  unfold Discord.Identity.historyOk identity
  simp only [Bool.and_eq_true, Option.all_eq_true]
  refine ⟨⟨⟨⟨?_, ?_⟩, ?_⟩, ?_⟩, ?_⟩
  · intro n hn; simpa using hcurrent n hn
  · intro c hc
    obtain ⟨hpos, hle, hlt⟩ := hclosed c hc
    simpa [hpos, hle] using hlt
  · intro t ht; simpa using hopenedAt t ht
  · intro t ht; simpa using hclosedAt t ht
  · rcases hend with hz | hi | hc
    · simp [hz]
    · simp [hi]
    · simp [hc]

/-- **`service_entry`** on the dictionary of a well-formed machine. -/
theorem serviceEntry_iff (hdoc : Recorded m doc) (hm : m.register.Ok m.sampleAt)
    {expected : String} {sampleAt observedAt : ℚ} {e : Discord.Identity} :
    Discord.serviceEntry doc expected sampleAt observedAt = .ok e ↔
      m.latestStatus.map Health.Status.text = some expected ∧ m.sampleAt = some sampleAt ∧
        e = identity m sampleAt observedAt := by
  have hstatus : (doc.getOrNull "latest_status").isStr expected =
      decide (m.latestStatus.map Health.Status.text = some expected) := by
    rw [Json.getOrNull, hdoc.latestStatus]
    cases m.latestStatus <;> simp [Json.isStr]
  have hopened : Discord.numberIf (m.sequence ≠ 0) doc "opened_at" = .ok m.openedAt := by
    by_cases hz : m.sequence = 0
    · rw [hz]
      exact congrArg Except.ok (hm.neverOpened hz).symm
    · obtain ⟨o, s, ho, -⟩ := hm.openedAt hz
      exact numberIf_time (by simpa using hz) (hdoc.openedAt.trans (congrArg _ ho)) ho
  have hclosedAt : Discord.numberIf m.closedIncident.isSome doc "closed_at" = .ok m.closedAt := by
    cases hc : m.closedIncident with
    | none => exact congrArg Except.ok (hm.neverClosed hc).symm
    | some c =>
        obtain ⟨a, s, ha, -⟩ := hm.closedAt c hc
        exact numberIf_time rfl (hdoc.closedAt.trans (congrArg _ ha)) ha
  have hincident : Discord.optionalNatural (doc.getOrNull "incident") = .ok m.incident := by
    rw [Json.getOrNull, hdoc.incident]; exact optionalNatural_incident _
  have hclosed : Discord.optionalNatural (doc.getOrNull "closed_incident") = .ok m.closedIncident := by
    rw [Json.getOrNull, hdoc.closedIncident]; exact optionalNatural_incident _
  unfold Discord.serviceEntry
  simp only [bind_eq_ok, Discord.ensure_eq_ok, Json.item_eq_ok, hdoc.sampleAt, hstatus,
    hdoc.natural_sequence, hincident, hclosed, hopened, hclosedAt, Except.ok.injEq, exists_eq_left',
    decide_eq_true_eq]
  constructor
  · rintro ⟨-, hs, doc, hat, t, ht, -, rfl, -, -, rfl⟩
    obtain ⟨t', hm', rfl⟩ := Option.map_eq_some_iff.mp hat
    cases ht
    exact ⟨hs, hm', rfl⟩
  · rintro ⟨hs, hat, rfl⟩
    rw [hat] at hm ⊢
    exact ⟨(), hs, _, rfl, sampleAt, rfl, (), rfl, (), historyOk_of_register hm, rfl⟩

end Entry

end System
end PickleInfra
