import PickleInfra.Observation.Loaded

/-!
# `Observation.Saved` — the state of the reporter in its file

What `state.json` says of an epoch is the sequence that it is checkpointed to, and of a key whether it is blocked.
`Ahead` relates the state in memory to the file: it has every checkpoint of the file, or a later one, and every
blocked key. The state that was read is ahead of its file, and a file that is written says what the state has and is
accepted again.
-/

namespace PickleInfra
namespace Observation

open Python Metrics

/-! ## What the file says -/

/-- The sequence that an epoch is checkpointed to. -/
def markOf (v : Json) (epoch : String) : Option Nat :=
  ((v.getOrNull "checkpoints").get? epoch).bind fun e => (e.getOrNull "sequence").asInt?.map Int.toNat

/-- The key is blocked. -/
def isBlocked (v : Json) (k : Key) : Bool := ((v.getOrNull "blocked").get? k.text).isSome

/-- What `state.json` decodes to. -/
def savedJson (T : FloatText) (files : Files) : Json :=
  ((files.get? "state.json").bind fun payload => (decoded T payload).toOption).getD .null

/-- The file, where it is there, is loaded and accepted. -/
def Readable (T : FloatText) (sourceId : String) (files : Files) : Prop :=
  ∀ payload, files.get? "state.json" = some payload → payload.size ≤ 65536 ∧
    ∃ v s, decoded T payload = .ok v ∧ reporterState v sourceId = .ok s

/-- The state is accepted, and has every checkpoint of the file, or a later one, and every blocked key. -/
structure Ahead (T : FloatText) (s : ReporterState) (files : Files) : Prop where
  ok : s.Ok
  checkpoints : ∀ epoch n, markOf (savedJson T files) epoch = some n →
    ∃ p, s.checkpoints.get? epoch = some p ∧ n ≤ p.sequence
  blocked : ∀ k, isBlocked (savedJson T files) k = true → (s.blocked.get? k.text).isSome

/-- The file says what the state has. -/
structure Saved (T : FloatText) (s : ReporterState) (files : Files) : Prop where
  ok : s.Ok
  checkpoints : ∀ epoch, markOf (savedJson T files) epoch = (s.checkpoints.get? epoch).map Checkpoint.sequence
  blocked : ∀ k, isBlocked (savedJson T files) k = (s.blocked.get? k.text).isSome

theorem Saved.ahead {T : FloatText} {s : ReporterState} {files : Files} (h : Saved T s files) : Ahead T s files where
  ok := h.ok
  checkpoints epoch n hn := by
    rw [h.checkpoints, Option.map_eq_some_iff] at hn
    obtain ⟨p, hp, rfl⟩ := hn
    exact ⟨p, hp, Nat.le_refl _⟩
  blocked k hk := by rwa [h.blocked] at hk

section Files

variable {T : FloatText} {s : ReporterState} {files files' : Files}

/-- A state is as far ahead of any store with the same file. -/
theorem Ahead.congr (h : Ahead T s files) (hfile : files'.get? "state.json" = files.get? "state.json") :
    Ahead T s files' := by
  have hsaved : savedJson T files' = savedJson T files := by
    unfold savedJson
    rw [hfile]
  exact ⟨h.ok, hsaved ▸ h.checkpoints, hsaved ▸ h.blocked⟩

/-- Where there is no file, every state is ahead. -/
theorem ahead_none (hok : s.Ok) (h : files.get? "state.json" = none) : Ahead T s files := by
  have hsaved : savedJson T files = .null := by
    unfold savedJson
    rw [h]
    rfl
  refine ⟨hok, fun epoch n hn => ?_, fun k hk => ?_⟩
  · rw [hsaved] at hn
    cases hn
  · rw [hsaved] at hk
    cases hk

end Files

/-! ## What is written -/

section Written

variable {T : FloatText}

theorem lookup_entries {V : Type} (f : V → Json) (k : String) (es : List (String × V)) :
    Json.lookup k (es.map fun e => (e.1, f e.2)) = (Dict.lookup k es).map f := by
  induction es with
  | nil => rfl
  | cons e es ih =>
      rw [List.map_cons, Json.lookup, Dict.lookup]
      split
      · rfl
      · exact ih

theorem heldMembers_entries {V : Type} {f : V → Json} (hf : ∀ x, Canonical.Held T (f x)) (es : List (String × V)) :
    Canonical.HeldMembers T (es.map fun e => (e.1, f e.2)) := by
  induction es with
  | nil => exact trivial
  | cons e es ih => exact ⟨hf e.2, ih⟩

theorem held_entries {V : Type} {f : V → Json} (hf : ∀ x, Canonical.Held T (f x)) (d : Dict String V) :
    Canonical.Held T (.dict (d.entries.map fun e => (e.1, f e.2))) := by
  refine ⟨?_, heldMembers_entries hf d.entries⟩
  rw [List.map_map]
  exact d.nodup

theorem held_toJson (sourceId : String) (s : ReporterState) : Canonical.Held T (s.toJson sourceId) := by
  have hkeys : ["version", "kind", "sourceId", "checkpoints", "blocked"].Nodup
      ∧ ["sequence", "bodySha256", "producerSha256", "receivedAt", "observedAt"].Nodup
      ∧ ["bodySha256", "reason"].Nodup := by decide
  have hcheckpoints : ∀ c : Checkpoint, Canonical.Held T c.toJson := fun c =>
    ⟨hkeys.2.1, trivial, trivial, trivial, trivial, trivial, trivial⟩
  have hblocked : ∀ b : Blocked, Canonical.Held T b.toJson := fun b => ⟨hkeys.2.2, trivial, trivial, trivial⟩
  exact ⟨hkeys.1, trivial, trivial, trivial, held_entries hcheckpoints s.checkpoints,
    held_entries hblocked s.blocked, trivial⟩

/-- **A file that is written says what the state has.** -/
theorem saved_set {sourceId : String} {s : ReporterState} {payload : ByteArray} (hok : s.Ok)
    (h : encoded T (s.toJson sourceId) = .ok payload) (files : Files) :
    Saved T s (files.set "state.json" payload) := by
  have hsaved : savedJson T (files.set "state.json" payload) = (s.toJson sourceId).sorted := by
    unfold savedJson
    rw [Dict.get?_set, if_pos rfl, Option.bind_some, (decoded_encoded (held_toJson sourceId s) h).1]
    rfl
  have hcheckpoints : (s.toJson sourceId).getOrNull "checkpoints"
      = .dict (s.checkpoints.entries.map fun e => (e.1, e.2.toJson)) := by
    simp [ReporterState.toJson, Json.getOrNull, Json.get?, Json.lookup]
  have hblocked : (s.toJson sourceId).getOrNull "blocked"
      = .dict (s.blocked.entries.map fun e => (e.1, e.2.toJson)) := by
    simp [ReporterState.toJson, Json.getOrNull, Json.get?, Json.lookup]
  refine ⟨hok, ?_, ?_⟩
  · intro epoch
    unfold markOf
    rw [hsaved, Json.getOrNull_sorted, Json.get?_sorted, hcheckpoints]
    show ((Json.lookup epoch _).map Json.sorted).bind _ = _
    rw [lookup_entries]
    show (((s.checkpoints.get? epoch).map _).map _).bind _ = _
    cases s.checkpoints.get? epoch with
    | none => rfl
    | some p =>
        show ((p.toJson.sorted.getOrNull "sequence").asInt?.map Int.toNat) = some p.sequence
        rw [Json.getOrNull_sorted, Json.asInt?_sorted]
        have hsequence : p.toJson.getOrNull "sequence" = .int p.sequence := by
          simp [Checkpoint.toJson, Json.getOrNull, Json.get?, Json.lookup]
        rw [hsequence]
        rfl
  · intro k
    unfold isBlocked
    rw [hsaved, Json.getOrNull_sorted, Json.get?_sorted, hblocked]
    show ((Json.lookup k.text _).map Json.sorted).isSome = _
    rw [lookup_entries, Option.isSome_map, Option.isSome_map]
    rfl

/-- **A file that is written is accepted again.** -/
theorem readable_set {sourceId : String} {s : ReporterState} {payload : ByteArray} (hok : s.Ok)
    (h : encoded T (s.toJson sourceId) = .ok payload) (hsize : payload.size ≤ 65536) (files : Files) :
    Readable T sourceId (files.set "state.json" payload) := by
  intro payload' hget
  rw [Dict.get?_set, if_pos rfl] at hget
  cases hget
  obtain ⟨s', hs', -⟩ := reporterState_toJson hok sourceId
  exact ⟨hsize, _, s', (decoded_encoded (held_toJson sourceId s) h).1, hs'⟩

end Written

/-! ## What is read -/

section Read

/-- Every entry of a dictionary is read, and kept under its key. -/
theorem entriesOf_ok {V : Type} {read : String → Json → Observed V} {v : Json} {d : Dict String V}
    (h : entriesOf read v = .ok d) (hnodup : (v.members.map Prod.fst).Nodup) {k : String} {x : Json}
    (hx : v.get? k = some x) : ∃ y, d.get? k = some y ∧ read k x = .ok y := by
  cases v with
  | dict ms =>
      -- the entries that were read are kept, as their keys do not occur again
      have hfold : ∀ (ms : List (String × Json)) (d₀ d : Dict String V), (ms.map Prod.fst).Nodup →
          ms.foldlM (fun d m => do
            let y ← read m.1 m.2
            (.ok (d.set m.1 y) : Observed (Dict String V))) d₀ = .ok d →
          (∀ k, k ∉ ms.map Prod.fst → d.get? k = d₀.get? k) ∧
            ∀ k x, Json.lookup k ms = some x → ∃ y, d.get? k = some y ∧ read k x = .ok y := by
        intro ms
        induction ms with
        | nil =>
            intro d₀ d _ hd
            cases hd
            exact ⟨fun _ _ => rfl, fun k x hx => by cases hx⟩
        | cons m ms ih =>
            intro d₀ d hms hd
            rw [List.map_cons, List.nodup_cons] at hms
            rw [List.foldlM_cons, bind_eq_ok] at hd
            obtain ⟨d₁, hd₁, hd⟩ := hd
            obtain ⟨y, hy, heq⟩ := bind_eq_ok.mp hd₁
            cases heq
            obtain ⟨hother, hfound⟩ := ih _ d hms.2 hd
            refine ⟨fun k hk => ?_, fun k x hx => ?_⟩
            · rw [List.map_cons, List.mem_cons, not_or] at hk
              rw [hother k hk.2, Dict.get?_set_ne _ _ (Ne.symm hk.1)]
            · rw [Json.lookup] at hx
              split at hx
              · next hk =>
                obtain rfl := Option.some.inj hx
                subst hk
                exact ⟨y, by rw [hother m.1 hms.1, Dict.get?_set, if_pos rfl], hy⟩
              · exact hfound k x hx
      exact (hfold ms Dict.empty d hnodup h).2 k x hx
  | null | bool | int | float | str | list => cases hx

/-- The checkpoint of an entry has its sequence. -/
theorem checkpointOf_sequence {epoch : String} {v : Json} {p : Checkpoint} (h : checkpointOf epoch v = .ok p) :
    (v.getOrNull "sequence").asInt? = some (p.sequence : Int) := by
  unfold checkpointOf at h
  simp only [bind_eq_ok] at h
  obtain ⟨_, -, _, -, n, hn, _, -, _, -, _, -, _, -, hp⟩ := h
  cases hp
  split at hn
  · next m hm =>
    split at hn
    · next hrange =>
      cases hn
      rw [hm]
      show some m = some (m.toNat : Int)
      rw [Int.toNat_of_nonneg hrange.1]
    · cases hn
  · cases hn

/-- **A state that was read is ahead of its file.** -/
theorem ahead_of_reporterState {T : FloatText} {files : Files} {sourceId : String} {payload : ByteArray} {v : Json}
    {s : ReporterState} (hfile : files.get? "state.json" = some payload) (hdecoded : decoded T payload = .ok v)
    (h : reporterState v sourceId = .ok s) : Ahead T s files := by
  have hsaved : savedJson T files = v := by
    unfold savedJson
    rw [hfile, Option.bind_some, hdecoded]
    rfl
  have hnodup : ∀ name, ((v.getOrNull name).members.map Prod.fst).Nodup := by
    intro name
    have hvalid := Json.valid_getOrNull (valid_of_decoded hdecoded) name
    cases hv : v.getOrNull name with
    | dict ms =>
        rw [hv] at hvalid
        exact (JsonText.valid_dict.mp hvalid).1
    | null | bool | int | float | str | list => exact List.nodup_nil
  have hok := ok_of_reporterState h
  unfold reporterState at h
  simp only [bind_eq_ok] at h
  obtain ⟨_, -, checkpoints, hcheckpoints, blocked, hblocked, hs⟩ := h
  cases hs
  refine ⟨hok, ?_, ?_⟩
  · intro epoch n hn
    rw [hsaved] at hn
    unfold markOf at hn
    rw [Option.bind_eq_some_iff] at hn
    obtain ⟨x, hx, hn⟩ := hn
    obtain ⟨p, hp, hread⟩ := entriesOf_ok hcheckpoints (hnodup _) hx
    rw [checkpointOf_sequence hread] at hn
    obtain rfl := Option.some.inj hn
    exact ⟨p, hp, Nat.le_refl _⟩
  · intro k hk
    rw [hsaved] at hk
    unfold isBlocked at hk
    rw [Option.isSome_iff_exists] at hk
    obtain ⟨x, hx⟩ := hk
    obtain ⟨b, hb, -⟩ := entriesOf_ok hblocked (hnodup _) hx
    show (blocked.get? k.text).isSome
    rw [hb]
    rfl

end Read

end Observation
end PickleInfra
