import PickleInfra.Observation.Reporter

/-!
# `Observation.Loaded` — a state that was saved is loaded again

`reporter_state` checks every entry of the file. `ReporterState.Ok` is what it accepts of a state, and is kept by a new
checkpoint and by a new blocked record; a state with it is written to a file that is accepted again, and that says the
same (`reporterState_saved`).
-/

namespace PickleInfra
namespace Observation

open Python Metrics

/-! ## Accepted states -/

/-- What `reporter_state` accepts of a checkpoint. -/
structure Checkpoint.Ok (epoch : String) (p : Checkpoint) : Prop where
  epoch_uuid : isUuid epoch = true
  sequence : p.sequence ≤ MAX_SEQUENCE
  bodySha256 : isSha256 p.bodySha256 = true
  producerSha256 : isSha256 p.producerSha256 = true
  receivedAt : (Calendar.ackMillis p.receivedAt).isSome
  observedAt : (Calendar.instantMillis p.observedAt).isSome

/-- What `reporter_state` accepts of a blocked record. -/
structure Blocked.Ok (key : String) (b : Blocked) : Prop where
  key_form : isBlockedKey key = true
  epoch_uuid : isUuid (String.ofList (splitKey key).1) = true
  sequence : digitsValue (splitKey key).2 ≤ MAX_SEQUENCE
  bodySha256 : isSha256 b.bodySha256 = true
  reason : b.reason ∈ ["CONTENT_CONFLICT", "REPLAY_REJECTED"]

structure ReporterState.Ok (s : ReporterState) : Prop where
  checkpoints : ∀ epoch p, s.checkpoints.get? epoch = some p → p.Ok epoch
  blocked : ∀ key b, s.blocked.get? key = some b → b.Ok key
  fewCheckpoints : s.checkpoints.size ≤ MAX_CHECKPOINTS
  fewBlocked : s.blocked.size ≤ MAX_BLOCKED

theorem ok_new : ReporterState.new.Ok where
  checkpoints _ _ h := by cases h
  blocked _ _ h := by cases h
  fewCheckpoints := Nat.zero_le _
  fewBlocked := Nat.zero_le _

/-! ## Entries -/

theorem sha256Of_eq_ok {v : Json} {s : String} : sha256Of v = .ok s ↔ v = .str s ∧ isSha256 s = true := by
  unfold sha256Of
  cases v with
  | str t =>
      dsimp only
      constructor
      · intro h
        split at h
        · next ht =>
          cases h
          exact ⟨rfl, ht⟩
        · cases h
      · rintro ⟨heq, hs⟩
        cases heq
        rw [if_pos hs]
  | null | bool | int | float | list | dict => exact ⟨fun h => (by cases h), fun h => (by cases h.1)⟩

theorem ackInstant_eq_ok {v : Json} {s : String} :
    ackInstant v = .ok s ↔ v = .str s ∧ (Calendar.ackMillis s).isSome = true := by
  unfold ackInstant
  cases v with
  | str t =>
      dsimp only
      constructor
      · intro h
        split at h
        · next ht =>
          cases h
          exact ⟨rfl, ht⟩
        · cases h
      · rintro ⟨heq, hs⟩
        cases heq
        rw [if_pos hs]
  | null | bool | int | float | list | dict => exact ⟨fun h => (by cases h), fun h => (by cases h.1)⟩

theorem instantMillis_eq_ok {v : Json} {ms : Int} :
    instantMillis v = .ok ms ↔ ∃ s, v = .str s ∧ Calendar.instantMillis s = some ms := by
  unfold instantMillis
  constructor
  · intro h
    split at h
    · next ms' hms =>
      cases h
      rw [Option.bind_eq_some_iff] at hms
      obtain ⟨s, hs, hms⟩ := hms
      cases v with
      | str t =>
          cases hs
          exact ⟨_, rfl, hms⟩
      | null | bool | int | float | list | dict => cases hs
    · cases h
  · rintro ⟨s, rfl, hms⟩
    have hbind : (Json.str s).asStr?.bind Calendar.instantMillis = some ms := hms
    rw [hbind]

theorem instantText_eq_ok {v : Json} {s : String} :
    instantText v = .ok s ↔ v = .str s ∧ (Calendar.instantMillis s).isSome = true := by
  unfold instantText
  simp only [bind_eq_ok, instantMillis_eq_ok]
  constructor
  · rintro ⟨ms, ⟨t, rfl, hms⟩, h⟩
    obtain rfl : t = s := Except.ok.inj h
    exact ⟨rfl, by rw [hms]; rfl⟩
  · rintro ⟨rfl, hs⟩
    obtain ⟨ms, hms⟩ := Option.isSome_iff_exists.mp hs
    exact ⟨ms, ⟨s, rfl, hms⟩, rfl⟩

theorem canonicalUuid_eq_ok {v : Json} {s : String} : canonicalUuid v = .ok s ↔ v = .str s ∧ isUuid s = true := by
  unfold canonicalUuid
  cases v with
  | str t =>
      dsimp only
      constructor
      · intro h
        split at h
        · next ht =>
          cases h
          exact ⟨rfl, ht⟩
        · cases h
      · rintro ⟨heq, hs⟩
        cases heq
        rw [if_pos hs]
  | null | bool | int | float | list | dict => exact ⟨fun h => (by cases h), fun h => (by cases h.1)⟩

/-- `CHECKPOINT`: the fields of a checkpoint. -/
def checkpointKeys : List String := ["sequence", "bodySha256", "producerSha256", "receivedAt", "observedAt"]

/-- **A checkpoint is read** where its fields are, and each is accepted. -/
theorem checkpointOf_eq_ok {epoch : String} {v : Json} {p : Checkpoint} : checkpointOf epoch v = .ok p ↔
    p.Ok epoch ∧ v.hasKeys checkpointKeys = true ∧ v.getOrNull "sequence" = .int p.sequence
      ∧ v.getOrNull "bodySha256" = .str p.bodySha256 ∧ v.getOrNull "producerSha256" = .str p.producerSha256
      ∧ v.getOrNull "receivedAt" = .str p.receivedAt ∧ v.getOrNull "observedAt" = .str p.observedAt := by
  unfold checkpointOf
  simp only [bind_eq_ok, canonicalUuid_eq_ok, raiseIf_eq_ok, Bool.not_eq_false', sha256Of_eq_ok, ackInstant_eq_ok,
    instantText_eq_ok, exists_const]
  constructor
  · rintro ⟨_, ⟨heq, hepoch⟩, hkeys, n, hn, body, ⟨hbody, hbodyOk⟩, producer, ⟨hproducer, hproducerOk⟩, received,
      ⟨hreceived, hreceivedOk⟩, observed, ⟨hobserved, hobservedOk⟩, hp⟩
    cases hp
    cases heq
    split at hn
    · next m hm =>
      split at hn
      · next hrange =>
        cases hn
        refine ⟨⟨hepoch, Int.toNat_le.mpr hrange.2, hbodyOk, hproducerOk, hreceivedOk, hobservedOk⟩, hkeys, ?_, hbody,
          hproducer, hreceived, hobserved⟩
        rw [hm]
        show Json.int m = .int (m.toNat : Int)
        rw [Int.toNat_of_nonneg hrange.1]
      · cases hn
    · cases hn
  · rintro ⟨hok, hkeys, hsequence, hbody, hproducer, hreceived, hobserved⟩
    have hsequence' := hok.sequence
    refine ⟨epoch, ⟨rfl, hok.epoch_uuid⟩, hkeys, p.sequence, ?_, _, ⟨hbody, hok.bodySha256⟩, _,
      ⟨hproducer, hok.producerSha256⟩, _, ⟨hreceived, hok.receivedAt⟩, _, ⟨hobserved, hok.observedAt⟩, rfl⟩
    rw [hsequence]
    dsimp only
    rw [if_pos ⟨Int.natCast_nonneg _, Int.ofNat_le.mpr hsequence'⟩, Int.toNat_natCast]

/-- **A blocked record is read** where its fields are, and each is accepted. -/
theorem blockedOf_eq_ok {key : String} {v : Json} {b : Blocked} : blockedOf key v = .ok b ↔
    b.Ok key ∧ v.hasKeys ["bodySha256", "reason"] = true ∧ v.getOrNull "bodySha256" = .str b.bodySha256
      ∧ v.getOrNull "reason" = .str b.reason := by
  unfold blockedOf
  simp only [bind_eq_ok, canonicalUuid_eq_ok, raiseIf_eq_ok, Bool.not_eq_false', sha256Of_eq_ok, exists_const,
    Bool.and_eq_true, decide_eq_false_iff_not, not_lt]
  constructor
  · rintro ⟨⟨hkey, hkeys⟩, body, ⟨hbody, hbodyOk⟩, reason, hreason, _, ⟨heq, hepoch⟩, hsequence, hb⟩
    cases hb
    cases heq
    split at hreason
    · next r hr =>
      split at hreason
      · next hmem =>
        cases hreason
        exact ⟨⟨hkey, hepoch, hsequence, hbodyOk, List.contains_iff_mem.mp hmem⟩, hkeys, hbody, hr⟩
      · cases hreason
    · cases hreason
  · rintro ⟨hok, hkeys, hbody, hreason⟩
    refine ⟨⟨hok.key_form, hkeys⟩, _, ⟨hbody, hok.bodySha256⟩, b.reason, ?_, _, ⟨rfl, hok.epoch_uuid⟩, hok.sequence,
      rfl⟩
    rw [hreason]
    dsimp only
    rw [if_pos (List.contains_iff_mem.mpr hok.reason)]

/-! ## What is written is read -/

theorem checkpointOf_toJson {epoch : String} {p : Checkpoint} (h : p.Ok epoch) :
    checkpointOf epoch p.toJson.sorted = .ok p := by
  rw [checkpointOf_eq_ok]
  refine ⟨h, Json.hasKeys_sorted.mpr (by rfl), ?_, ?_, ?_, ?_, ?_⟩ <;> rw [Json.getOrNull_sorted] <;>
    simp [Checkpoint.toJson, Json.getOrNull, Json.get?, Json.lookup]

theorem blockedOf_toJson {key : String} {b : Blocked} (h : b.Ok key) : blockedOf key b.toJson.sorted = .ok b := by
  rw [blockedOf_eq_ok]
  refine ⟨h, Json.hasKeys_sorted.mpr (by rfl), ?_, ?_⟩ <;> rw [Json.getOrNull_sorted] <;>
    simp [Blocked.toJson, Json.getOrNull, Json.get?, Json.lookup]

theorem assign_new {K V : Type} [DecidableEq K] {k : K} {v : V} {l : List (K × V)} (h : k ∉ l.map Prod.fst) :
    Dict.assign k v l = l ++ [(k, v)] := by
  induction l with
  | nil => rfl
  | cons e l ih =>
      rw [List.map_cons, List.mem_cons, not_or] at h
      unfold Dict.assign
      rw [if_neg (Ne.symm h.1), ih h.2]
      rfl

section Entries

variable {V : Type} {read : String → Json → Observed V} {f : V → Json}

/-- Entries of which each is read back are read one after the other. -/
theorem entriesOf_entries (read : String → Json → Observed V) {es : List (String × V)}
    (hnodup : (es.map Prod.fst).Nodup) (hread : ∀ e ∈ es, read e.1 (f e.2) = .ok e.2) :
    ∃ d, entriesOf read (.dict (es.map fun e => (e.1, f e.2))) = .ok d ∧ d.entries = es := by
  -- what was read so far, and what is still to be read, are the entries
  have hfold : ∀ (es : List (String × V)) (d : Dict String V), (∀ e ∈ es, read e.1 (f e.2) = .ok e.2) →
      ((d.entries ++ es).map Prod.fst).Nodup →
      ∃ d', (es.map fun e => (e.1, f e.2)).foldlM (fun d m => do
          let x ← read m.1 m.2
          (.ok (d.set m.1 x) : Observed (Dict String V))) d = .ok d' ∧ d'.entries = d.entries ++ es := by
    intro es
    induction es with
    | nil => exact fun d _ _ => ⟨d, rfl, (List.append_nil _).symm⟩
    | cons e es ih =>
        intro d hread hnodup
        obtain ⟨he, hes⟩ := List.forall_mem_cons.mp hread
        have hnew : e.1 ∉ d.entries.map Prod.fst := by
          intro hmem
          rw [List.map_append, List.nodup_append] at hnodup
          exact hnodup.2.2 _ hmem _ (List.mem_map_of_mem List.mem_cons_self) rfl
        have hset : (d.set e.1 e.2).entries = d.entries ++ [e] := assign_new hnew
        obtain ⟨d', hd', hentries⟩ := ih (d.set e.1 e.2) hes (by rwa [hset, List.append_assoc])
        refine ⟨d', ?_, by rw [hentries, hset, List.append_assoc]; rfl⟩
        rw [List.map_cons, List.foldlM_cons]
        dsimp only
        rw [he]
        exact hd'
  obtain ⟨d, hd, hentries⟩ := hfold es Dict.empty hread hnodup
  exact ⟨d, hd, hentries⟩

/-- A dictionary that was written is read back, and says the same. -/
theorem entriesOf_sorted (d : Dict String V) (hread : ∀ k x, d.get? k = some x → read k (f x).sorted = .ok x) :
    ∃ d', entriesOf read (Json.dict (d.entries.map fun e => (e.1, f e.2))).sorted = .ok d' ∧ d'.get? = d.get? := by
  have hperm := List.perm_insertionSort (fun a b : String × V => a.1 ≤ b.1) d.entries
  have hmembers : (Json.dict (d.entries.map fun e => (e.1, f e.2))).sorted
      = .dict ((d.entries.insertionSort fun a b => a.1 ≤ b.1).map fun e => (e.1, (f e.2).sorted)) := by
    rw [Json.sorted_dict, List.map_map]
    exact congrArg Json.dict (List.map_insertionSort (fun a b : String × V => a.1 ≤ b.1)
      (fun a b : String × Json => a.1 ≤ b.1) (fun e => (e.1, (f e.2).sorted)) d.entries fun _ _ _ _ => Iff.rfl).symm
  obtain ⟨d', hd', hentries⟩ := entriesOf_entries read (f := fun x => (f x).sorted)
    ((hperm.map _).nodup_iff.mpr d.nodup) fun e he => hread e.1 e.2 (d.get?_eq_some_iff.mpr (hperm.mem_iff.mp he))
  rw [hmembers]
  refine ⟨d', hd', funext fun k => Option.ext fun x => ?_⟩
  rw [d'.get?_eq_some_iff, d.get?_eq_some_iff, hentries, hperm.mem_iff]

end Entries

/-- **A state that is written is read back**, and says the same. -/
theorem reporterState_toJson {s : ReporterState} (h : s.Ok) (sourceId : String) :
    ∃ s', reporterState (s.toJson sourceId).sorted sourceId = .ok s' ∧ s'.checkpoints.get? = s.checkpoints.get? ∧
      s'.blocked.get? = s.blocked.get? := by
  have hcheckpoints : (s.toJson sourceId).getOrNull "checkpoints"
      = .dict (s.checkpoints.entries.map fun e => (e.1, e.2.toJson)) := by
    simp [ReporterState.toJson, Json.getOrNull, Json.get?, Json.lookup]
  have hblocked : (s.toJson sourceId).getOrNull "blocked"
      = .dict (s.blocked.entries.map fun e => (e.1, e.2.toJson)) := by
    simp [ReporterState.toJson, Json.getOrNull, Json.get?, Json.lookup]
  have hfew : ∀ {V : Type} (d : Dict String V) (f : V → Json) n, d.size ≤ n →
      fewEntries n (Json.dict (d.entries.map fun e => (e.1, f e.2))).sorted = true := by
    intro V d f n hn
    rw [Json.sorted_dict]
    refine decide_eq_true ?_
    rw [(Json.perm_sortMembers _).length_eq, List.length_map, List.length_map]
    exact hn
  have hhead : ((s.toJson sourceId).sorted.hasKeys ["version", "kind", "sourceId", "checkpoints", "blocked"]
      && ((s.toJson sourceId).sorted.getOrNull "version").asInt? = some 1
      && ((s.toJson sourceId).sorted.getOrNull "kind").isStr "reporter"
      && ((s.toJson sourceId).sorted.getOrNull "sourceId").isStr sourceId) = true := by
    rw [Json.getOrNull_sorted, Json.getOrNull_sorted, Json.getOrNull_sorted, Json.asInt?_sorted, Json.isStr_sorted,
      Json.isStr_sorted, Json.hasKeys_sorted.mpr (by rfl)]
    simp [ReporterState.toJson, Json.getOrNull, Json.get?, Json.lookup, Json.asInt?, Json.isStr]
  obtain ⟨checkpoints, hreadCheckpoints, hsameCheckpoints⟩ := entriesOf_sorted (f := Checkpoint.toJson) s.checkpoints
    fun epoch p hp => checkpointOf_toJson (h.checkpoints epoch p hp)
  obtain ⟨blocked, hreadBlocked, hsameBlocked⟩ := entriesOf_sorted (f := Blocked.toJson) s.blocked
    fun key b hb => blockedOf_toJson (h.blocked key b hb)
  refine ⟨⟨checkpoints, blocked⟩, ?_, hsameCheckpoints, hsameBlocked⟩
  unfold reporterState
  rw [hhead, Json.getOrNull_sorted, Json.getOrNull_sorted, hcheckpoints, hblocked, hfew _ _ _ h.fewCheckpoints,
    hfew _ _ _ h.fewBlocked, hreadCheckpoints, hreadBlocked]
  rfl

/-! ## What was read is accepted -/

theorem length_assign_le {K V : Type} [DecidableEq K] (k : K) (v : V) (l : List (K × V)) :
    (Dict.assign k v l).length ≤ l.length + 1 := by
  induction l with
  | nil => exact Nat.le_refl 1
  | cons e l ih =>
      unfold Dict.assign
      split
      · exact Nat.le_succ _
      · exact Nat.succ_le_succ ih

theorem length_assign_mem {K V : Type} [DecidableEq K] {k : K} {v : V} {l : List (K × V)} (h : k ∈ l.map Prod.fst) :
    (Dict.assign k v l).length = l.length := by
  induction l with
  | nil => cases h
  | cons e l ih =>
      unfold Dict.assign
      split
      · rfl
      · next hne =>
        rw [List.map_cons, List.mem_cons] at h
        rw [List.length_cons, List.length_cons, ih (h.resolve_left (Ne.symm hne))]

/-- Every entry of what was read was accepted, and there are no more of them than were read. -/
theorem entriesOf_accepted {V : Type} {read : String → Json → Observed V} {v : Json} {d : Dict String V}
    (h : entriesOf read v = .ok d) :
    (∀ k y, d.get? k = some y → ∃ x, read k x = .ok y) ∧ ∀ n, fewEntries n v = true → d.size ≤ n := by
  cases v with
  | dict ms =>
      have hfold : ∀ (ms : List (String × Json)) (d₀ d : Dict String V),
          ms.foldlM (fun d m => do
            let y ← read m.1 m.2
            (.ok (d.set m.1 y) : Observed (Dict String V))) d₀ = .ok d →
          (∀ k y, d.get? k = some y → d₀.get? k = some y ∨ ∃ x, read k x = .ok y) ∧ d.size ≤ d₀.size + ms.length := by
        intro ms
        induction ms with
        | nil =>
            intro d₀ d hd
            cases hd
            exact ⟨fun _ _ hy => .inl hy, Nat.le_refl _⟩
        | cons m ms ih =>
            intro d₀ d hd
            rw [List.foldlM_cons, bind_eq_ok] at hd
            obtain ⟨d₁, hd₁, hd⟩ := hd
            obtain ⟨y, hy, heq⟩ := bind_eq_ok.mp hd₁
            cases heq
            obtain ⟨haccepted, hsize⟩ := ih _ d hd
            have hset : (d₀.set m.1 y).size ≤ d₀.size + 1 := length_assign_le _ _ _
            refine ⟨fun k z hz => ?_, by rw [List.length_cons]; omega⟩
            rcases haccepted k z hz with hz | hz
            · rw [Dict.get?_set] at hz
              split at hz
              · next hk =>
                cases hz
                exact .inr ⟨m.2, hk ▸ hy⟩
              · exact .inl hz
            · exact .inr hz
      obtain ⟨haccepted, hsize⟩ := hfold ms Dict.empty d h
      refine ⟨fun k y hy => (haccepted k y hy).resolve_left fun hempty => (by cases hempty), fun n hn => ?_⟩
      have hle : ms.length ≤ n := of_decide_eq_true hn
      have hzero : (Dict.empty : Dict String V).size = 0 := rfl
      omega
  | null | bool | int | float | str | list => cases h

theorem ok_of_reporterState {v : Json} {sourceId : String} {s : ReporterState} (h : reporterState v sourceId = .ok s) :
    s.Ok := by
  unfold reporterState at h
  simp only [bind_eq_ok, raiseIf_eq_ok, Bool.not_eq_false', Bool.and_eq_true] at h
  obtain ⟨_, ⟨⟨-, hfewCheckpoints⟩, hfewBlocked⟩, checkpoints, hcheckpoints, blocked, hblocked, hs⟩ := h
  cases hs
  refine ⟨fun epoch p hp => ?_, fun key b hb => ?_, (entriesOf_accepted hcheckpoints).2 _ hfewCheckpoints,
    (entriesOf_accepted hblocked).2 _ hfewBlocked⟩
  · obtain ⟨x, hx⟩ := (entriesOf_accepted hcheckpoints).1 epoch p hp
    exact (checkpointOf_eq_ok.mp hx).1
  · obtain ⟨x, hx⟩ := (entriesOf_accepted hblocked).1 key b hb
    exact (blockedOf_eq_ok.mp hx).1

/-! ## New entries -/

/-- `epoch + ':' + str(sequence)` of a key. -/
def Key.text (k : Key) : String := k.epoch ++ ":" ++ String.ofList (Numeral.ofInt k.sequence).render

theorem render_ofNat (n : Nat) : (Numeral.ofInt n).render = Nat.toDigits 10 n := by
  unfold Numeral.render Numeral.ofInt
  rw [if_neg (by omega)]
  simp

theorem epoch_chars (k : Key) : k.epoch.toList.length = 36 ∧
    ∀ c ∈ k.epoch.toList, Text.isHex c = true ∨ c = '-' := by
  obtain ⟨hhex, heq⟩ := isUuid_iff.mp k.epoch_uuid
  obtain ⟨hlength, hall⟩ := isHex32_iff.mp hhex
  have hlist : k.epoch.toList = hyphenated (hexOf k.epoch) := by
    conv_lhs => rw [heq, String.toList_ofList]
  rw [hlist]
  generalize hexOf k.epoch = hex at hlength hall
  unfold hyphenated
  refine ⟨?_, fun c hc => ?_⟩
  · simp only [List.length_append, List.length_cons, List.length_take, List.length_drop, hlength]
    rfl
  · simp only [List.mem_append, List.mem_cons] at hc
    rcases hc with hc | rfl | hc | rfl | hc | rfl | hc | rfl | hc
    · exact .inl (hall c (List.mem_of_mem_take hc))
    · exact .inr rfl
    · exact .inl (hall c (List.mem_of_mem_drop (List.mem_of_mem_take hc)))
    · exact .inr rfl
    · exact .inl (hall c (List.mem_of_mem_drop (List.mem_of_mem_take hc)))
    · exact .inr rfl
    · exact .inl (hall c (List.mem_of_mem_drop (List.mem_of_mem_take hc)))
    · exact .inr rfl
    · exact .inl (hall c (List.mem_of_mem_drop hc))

/-- The text of a key is split into its parts again. -/
theorem splitKey_text (k : Key) : splitKey k.text = (k.epoch.toList, Nat.toDigits 10 k.sequence) := by
  have hlist : k.text.toList = k.epoch.toList ++ ':' :: Nat.toDigits 10 k.sequence := by
    unfold Key.text
    simp only [render_ofNat, String.toList_append, String.toList_ofList, List.append_assoc]
    rfl
  have hcolon : ∀ c ∈ k.epoch.toList, c ≠ ':' := by
    rintro c hc rfl
    rcases (epoch_chars k).2 _ hc with h | h
    · exact absurd h (by decide)
    · exact absurd h (by decide)
  unfold splitKey
  rw [hlist, List.takeWhile_append_of_pos (by simpa using hcolon), List.dropWhile_append_of_pos (by simpa using hcolon)]
  simp

theorem isBlockedKey_text (k : Key) : isBlockedKey k.text = true := by
  have hdigits : (Nat.toDigits 10 k.sequence).length ≤ 16 :=
    (Nat.length_toDigits_le_iff (by decide) (by decide)).mpr k.sequence_lt
  have hpos : 1 ≤ (Nat.toDigits 10 k.sequence).length := Nat.length_toDigits_pos
  have hcolon : k.text.toList.contains ':' = true := by
    unfold Key.text
    rw [String.toList_append, String.toList_append]
    simp
  unfold isBlockedKey
  rw [splitKey_text]
  dsimp only
  rw [hcolon, (epoch_chars k).1, decide_eq_true hdigits, decide_eq_true hpos, toDigits_isDigit]
  have hall : k.epoch.toList.all (fun c => Text.isHex c || c = '-') = true := by
    rw [List.all_eq_true]
    intro c hc
    rw [Bool.or_eq_true, decide_eq_true_eq]
    exact (epoch_chars k).2 c hc
  rw [hall]
  rfl

theorem isSha256_hexdigest (payload : ByteArray) : isSha256 (Sha256.hexdigest payload) = true := by
  obtain ⟨hlength, hall⟩ := Sha256.hexdigest_form payload
  unfold isSha256
  rw [hlength, hall]
  rfl

theorem ok_blocked (k : Key) (payload : ByteArray) {reason : String}
    (hreason : reason ∈ ["CONTENT_CONFLICT", "REPLAY_REJECTED"]) :
    (Blocked.mk (Sha256.hexdigest payload) reason).Ok k.text where
  key_form := isBlockedKey_text k
  epoch_uuid := by
    rw [splitKey_text, String.ofList_toList]
    exact k.epoch_uuid
  sequence := by
    rw [splitKey_text]
    show digitsValue (Nat.toDigits 10 k.sequence) ≤ MAX_SEQUENCE
    rw [Numeral.digitsValue_toDigits]
    exact k.sequence_le
  bodySha256 := isSha256_hexdigest payload
  reason := hreason

theorem ReporterState.Ok.block {s : ReporterState} (h : s.Ok) (hroom : s.blocked.size < MAX_BLOCKED) {key : String}
    {b : Blocked} (hb : b.Ok key) : ReporterState.Ok ⟨s.checkpoints, s.blocked.set key b⟩ where
  checkpoints := h.checkpoints
  blocked key' b' hget := by
    rw [Dict.get?_set] at hget
    split at hget
    · next heq =>
      cases hget
      exact heq ▸ hb
    · exact h.blocked key' b' hget
  fewCheckpoints := h.fewCheckpoints
  fewBlocked := by
    have hsize : (s.blocked.set key b).size ≤ s.blocked.size + 1 := length_assign_le _ _ _
    show (s.blocked.set key b).size ≤ MAX_BLOCKED
    omega

/-- A checkpoint is new only where there is room. -/
theorem ReporterState.Ok.checkpoint {s : ReporterState} (h : s.Ok) {epoch : String}
    (hroom : s.checkpoints.get? epoch = none → s.checkpoints.size < MAX_CHECKPOINTS) {p : Checkpoint}
    (hp : p.Ok epoch) :
    ReporterState.Ok ⟨s.checkpoints.set epoch p, s.blocked⟩ where
  checkpoints epoch' p' hget := by
    rw [Dict.get?_set] at hget
    split at hget
    · next heq =>
      cases hget
      exact heq ▸ hp
    · exact h.checkpoints epoch' p' hget
  blocked := h.blocked
  fewCheckpoints := by
    show (s.checkpoints.set epoch p).size ≤ MAX_CHECKPOINTS
    cases hprevious : s.checkpoints.get? epoch with
    | none =>
        have hsize : (s.checkpoints.set epoch p).size ≤ s.checkpoints.size + 1 := length_assign_le _ _ _
        have hlt := hroom hprevious
        omega
    | some previous =>
        have hmem : epoch ∈ s.checkpoints.keys := (Dict.get?_isSome_iff _).mp (by rw [hprevious]; rfl)
        have hsize : (s.checkpoints.set epoch p).size = s.checkpoints.size := length_assign_mem hmem
        rw [hsize]
        exact h.fewCheckpoints
  fewBlocked := h.fewBlocked

end Observation
end PickleInfra
