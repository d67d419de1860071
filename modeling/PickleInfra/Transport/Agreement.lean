import PickleInfra.Metrics.Closed
import PickleInfra.Transport.Reader
import PickleInfra.Transport.Sanitized

/-!
# `Transport.Agreement` — the importer accepts what the reader emits

The importer reads its clock before it asks, so its clock is the earlier one. What the reader emitted is
sanitized at the reader's clock; at the importer's it is sanitized again, and to the same, unless a time in it
is from the future there. One such time refuses the whole envelope.
-/

namespace PickleInfra
namespace Transport

open Python Health

variable {T : FloatText} {hostname : String} {config : Json} {now : ℚ}
  {reader : String → Except HealthExn Json} {runner : Except HealthExn ByteArray}
  {reports : List (String × Json)} {policy : Option Json}

/-! ## What the reader emits -/

theorem heartbeat_eq_ok {value r : Json} (h : heartbeat value now = .ok r) : ∃ t, 0 ≤ t ∧ t ≤ now + 30 ∧
    r = plainReport "collector-heartbeat" t "HEALTHY" "COLLECTOR_HEARTBEAT_VERIFIED" := by
  unfold heartbeat at h
  split at h
  · split at h
    · cases h
    · obtain ⟨t, ht, h⟩ := bind_eq_ok.mp h
      split at h
      · cases h
      · next hle =>
        obtain ⟨_, -, h⟩ := bind_eq_ok.mp h
        exact ⟨t, epoch_ok ht, not_lt.mp hle, (Except.ok.inj h).symm⟩
  · cases h

/-- A report that is emitted was sanitized at the clock of the reader. -/
def Emits (now : ℚ) (entry : String × Json) : Prop := ∃ value, sanitizeReport value entry.1 now = .ok entry.2

theorem emits_plain {source status reason : String} {t : ℚ} (hsource : source ∈ SOURCES)
    (hstatus : status ∈ STATES) (hreason : safeReason reason = true) (ht : 0 ≤ t) (hle : t ≤ now + 30) :
    Emits now (source, plainReport source t status reason) :=
  ⟨_, sanitizeReport_plain hsource hstatus hreason ht hle⟩

theorem orElse_eq_ok {α : Type} {value : Except HealthExn α} {fallback a : α} (h : orElse value fallback = .ok a) :
    value = .ok a ∨ a = fallback := by
  unfold orElse at h
  split at h
  · exact .inl h
  · split at h
    · exact .inr (Except.ok.inj h).symm
    · cases h

theorem sourceReport_emits {entry : String × String} {e : String × Json} (hnow : 0 ≤ now)
    (hsource : entry.1 ∈ SOURCES) (h : sourceReport reader now entry = .ok e) : e.1 = entry.1 ∧ Emits now e := by
  obtain ⟨report, hreport, h⟩ := bind_eq_ok.mp h
  obtain rfl := Except.ok.inj h
  refine ⟨rfl, ?_⟩
  have hlater : now ≤ now + 30 := by linarith
  rcases orElse_eq_ok hreport with hread | rfl
  · obtain ⟨document, -, hdocument⟩ := bind_eq_ok.mp hread
    unfold readReport at hdocument
    split at hdocument
    · next hheartbeat =>
      obtain ⟨t, ht, hle, rfl⟩ := heartbeat_eq_ok hdocument
      rw [hheartbeat]
      exact emits_plain (by decide) (by decide) (by decide) ht hle
    · exact ⟨document, hdocument⟩
  · exact emits_plain hsource (by decide) (by decide) hnow hlater

theorem tlsSources_known {names : List String} (h : tlsSources config = .ok names) : ∀ s ∈ names, s ∈ TLS_SOURCES := by
  unfold tlsSources at h
  split at h
  · simp only [bind_eq_ok, rejectIf_eq_ok] at h
    obtain ⟨names', -, _, hknown, h⟩ := h
    obtain rfl := Except.ok.inj h
    rw [Bool.or_eq_false_iff, Bool.not_eq_false', Bool.not_eq_false', List.all_eq_true] at hknown
    intro s hs
    exact List.contains_iff_mem.mp (hknown.2 s hs)
  · cases h

theorem select_eq_ok {s : Selection} (h : select hostname config = .ok s) :
    (∀ t ∈ s.tls, t ∈ TLS_SOURCES) ∧ option config "include_policy_attestation" = .ok s.policyAttestation := by
  unfold select at h
  simp only [bind_eq_ok, rejectIf_eq_ok] at h
  obtain ⟨role, -, _, -, publicGeneration, -, collectorHeartbeat, -, policyAttestation, hpolicy, staging, -, _, -,
    _, -, tls, htls, _, -, h⟩ := h
  obtain rfl := Except.ok.inj h
  exact ⟨tlsSources_known htls, hpolicy⟩

/-- Every source of a selection is known. -/
theorem paths_known {s : Selection} (htls : ∀ t ∈ s.tls, t ∈ TLS_SOURCES) : ∀ e ∈ s.paths, e.1 ∈ SOURCES := by
  have hfixed : ∀ e ∈ (Dict.lookup s.role PATHS).getD [], e.1 ∈ SOURCES := by
    have hall : ∀ role ∈ PATHS, ∀ e ∈ role.2, e.1 ∈ SOURCES := by decide
    cases hrole : Dict.lookup s.role PATHS with
    | none => exact fun e he => absurd he List.not_mem_nil
    | some paths => exact hall (s.role, paths) (Dict.mem_of_lookup hrole)
  have htlsKnown : ∀ t ∈ TLS_SOURCES, t ∈ SOURCES := by decide
  intro e he
  unfold Selection.paths at he
  rw [List.mem_append] at he
  rcases he with he | he
  · exact hfixed e he
  · split at he
    · simp only [List.mem_append] at he
      rcases he with ((he | he) | he) | he
      · split at he
        · rw [List.mem_singleton.mp he]
          decide
        · cases he
      · split at he
        · rw [List.mem_singleton.mp he]
          decide
        · cases he
      · split at he
        · simp only [List.mem_cons, List.not_mem_nil, or_false] at he
          rcases he with rfl | rfl
          · decide
          · decide
        · cases he
      · obtain ⟨t, ht, rfl⟩ := List.mem_map.mp he
        exact htlsKnown t (htls t ht)
    · cases he

/-- What `inspect_envelope` returns was sanitized at its clock. -/
theorem inspectEnvelope_emits {document : ByteArray} {expected : List String} {includePolicy : Bool}
    (h : inspectEnvelope T document expected now includePolicy = .ok (reports, policy)) :
    ∀ e ∈ reports, Emits now e := by
  unfold inspectEnvelope at h
  obtain ⟨_, -, h⟩ := bind_eq_ok.mp h
  split at h
  · next value _ =>
    unfold inspectValue at h
    split at h
    · next kvs received _ =>
      simp only [bind_eq_ok] at h
      obtain ⟨_, -, _, -, _, -, sanitized, hsanitized, h⟩ := h
      have hsame : sanitized = reports := by
        split at h
        · simp only [bind_eq_ok] at h
          obtain ⟨_, -, h⟩ := h
          exact congrArg Prod.fst (Except.ok.inj h)
        · exact congrArg Prod.fst (Except.ok.inj h)
      subst hsame
      intro e he
      obtain ⟨name, -, hname⟩ := forall₂_right (mapM_eq_ok.mp hsanitized) e he
      unfold reportOf at hname
      obtain ⟨value, -, hname⟩ := bind_eq_ok.mp hname
      obtain ⟨r, hr, hname⟩ := bind_eq_ok.mp hname
      obtain rfl := Except.ok.inj hname
      exact ⟨value, hr⟩
    · cases h
  · cases h

/-- **What is emitted** was sanitized at the clock of the reader, or is the fixed attestation that is not valid. -/
theorem emitted_eq_ok (h : emitted T hostname config now reader runner = .ok (reports, policy)) :
    0 ≤ now ∧ option config "include_policy_attestation" = .ok policy.isSome ∧ (∀ e ∈ reports, Emits now e) ∧
      ∀ p, policy = some p → (∃ value, sanitizePolicy value now = .ok p) ∨ p = invalidPolicy now := by
  unfold emitted at h
  obtain ⟨_, hnow, h⟩ := bind_eq_ok.mp h
  obtain ⟨s, hs, h⟩ := bind_eq_ok.mp h
  obtain ⟨reports', hreports, h⟩ := bind_eq_ok.mp h
  rw [rejectIf_eq_ok, decide_eq_false_iff_not, not_lt] at hnow
  obtain ⟨htls, hoption⟩ := select_eq_ok hs
  have hemits : ∀ e ∈ reports', Emits now e := by
    unfold Selection.reports at hreports
    split at hreports
    · obtain ⟨document, -, hreports⟩ := bind_eq_ok.mp hreports
      obtain ⟨⟨inspected, none'⟩, hinspected, hreports⟩ := bind_eq_ok.mp hreports
      obtain rfl := Except.ok.inj hreports
      exact inspectEnvelope_emits hinspected
    · intro e he
      obtain ⟨entry, hentry, hread⟩ := forall₂_right (mapM_eq_ok.mp hreports) e he
      exact (sourceReport_emits hnow (paths_known htls entry hentry) hread).2
  split at h
  · next hflag =>
    obtain ⟨p, hp, h⟩ := bind_eq_ok.mp h
    obtain ⟨rfl, rfl⟩ := Prod.mk.inj (Except.ok.inj h)
    refine ⟨hnow, ?_, hemits, ?_⟩
    · rw [hoption, hflag]
      rfl
    rintro _ ⟨⟩
    rcases orElse_eq_ok hp with hread | rfl
    · obtain ⟨document, -, hdocument⟩ := bind_eq_ok.mp hread
      exact .inl ⟨document, hdocument⟩
    · exact .inr rfl
  · next hflag =>
    obtain ⟨rfl, rfl⟩ := Prod.mk.inj (Except.ok.inj h)
    rw [Bool.not_eq_true] at hflag
    refine ⟨hnow, ?_, hemits, ?_⟩
    · rw [hoption, hflag]
      rfl
    rintro _ ⟨⟩

/-! ## What the importer accepts -/

/-- The report is not from the future at the clock. -/
def Timely (clock : ℚ) (report : Json) : Prop :=
  ∃ t, epoch (report.getOrNull "observed_at") = .ok t ∧ t ≤ clock + 30

/-- The attestation is not from the future at the clock, and has begun if it is valid. -/
def Begun (clock : ℚ) (policy : Json) : Prop :=
  ∃ t, epoch (policy.getOrNull "issued_at") = .ok t ∧ t ≤ clock + 30 ∧ t ≤ maxTime ∧
    (policy.getOrNull "valid" = .bool true → t ≤ clock)

theorem sanitizePolicy_invalid {clock : ℚ} (hnow : 0 ≤ now) (hbegun : Begun clock (invalidPolicy now)) :
    ∃ p', sanitizePolicy (invalidPolicy now).sorted clock = .ok p' ∧ p'.sorted = (invalidPolicy now).sorted := by
  obtain ⟨t, ht, htimely, hmax, -⟩ := hbegun
  have hissued : epoch ((invalidPolicy now).getOrNull "issued_at") = .ok now := epoch_time hnow
  obtain rfl := Except.ok.inj (ht.symm.trans hissued)
  refine ⟨deniedJson t t "POLICY_TRANSPORT_UNAVAILABLE", ?_, ?_⟩
  · rw [sanitizePolicy_eq_ok]
    refine ⟨false, t, t, ⟨Json.isDict_sorted _, (getOrNull_sorted_of rfl).trans (Json.sorted_str _),
      (getOrNull_sorted_of rfl).trans (Json.isAtom_bool false), ?_, ?_, htimely, hmax, hmax⟩, .inr ⟨rfl, rfl,
        "POLICY_TRANSPORT_UNAVAILABLE", by decide, (getOrNull_sorted_of rfl).trans (Json.sorted_str _), rfl⟩⟩
    · rw [Json.getOrNull_sorted, epoch_sorted]
      exact ht
    · rw [Json.getOrNull_sorted, epoch_sorted]
      exact ht
  · -- the same entries in another order
    unfold deniedJson invalidPolicy
    rw [Json.sorted_dict, Json.sorted_dict]
    congr 1
    apply Json.sortMembers_perm
    · apply List.Perm.map
      refine .cons _ (.cons _ ?_)
      exact (List.perm_append_comm : ([("issued_at", time t), ("expires_at", time t)] ++
        [("reason", Json.str "POLICY_TRANSPORT_UNAVAILABLE")]).Perm _)
    · show (["kind", "valid", "issued_at", "expires_at", "reason"] : List String).Nodup
      decide

/-- An emitted attestation that has begun is accepted at the earlier clock. -/
theorem policy_accepted {clock : ℚ} {p : Json} (hnow : 0 ≤ now) (hle : clock ≤ now)
    (h : (∃ value, sanitizePolicy value now = .ok p) ∨ p = invalidPolicy now) (hbegun : Begun clock p) :
    ∃ p', sanitizePolicy p.sorted clock = .ok p' ∧ p'.sorted = p.sorted := by
  rcases h with ⟨value, hvalue⟩ | rfl
  · obtain ⟨t, ht, htimely, -, hvalid⟩ := hbegun
    exact ⟨p, sanitizePolicy_stable hvalue hle ⟨t, ht, htimely, hvalid⟩, rfl⟩
  · exact sanitizePolicy_invalid hnow hbegun

theorem hasKeys_of_mem {keys : List String} {kvs : List (String × Json)}
    (h : ∀ key, key ∈ keys ↔ key ∈ kvs.map Prod.fst) : hasKeys keys kvs = true := by
  unfold hasKeys
  rw [Bool.and_eq_true, List.all_eq_true, List.all_eq_true]
  constructor
  · intro e he
    exact List.contains_iff_mem.mpr ((h e.1).mpr (List.mem_map_of_mem he))
  · intro key hkey
    exact List.contains_iff_mem.mpr ((h key).mp hkey)

/-- Sorting the keys keeps them. -/
theorem mem_keys_sorted {k : String} {ms : List (String × Json)} :
    k ∈ (Json.sortMembers (canonicalEntries ms)).map Prod.fst ↔ k ∈ ms.map Prod.fst := by
  have hperm := (Json.perm_sortMembers (canonicalEntries ms)).map Prod.fst
  have hkeys : (canonicalEntries ms).map Prod.fst = ms.map Prod.fst := List.map_map
  rw [hperm.mem_iff, hkeys]

/-- A report that was received is sanitized to the report that was emitted. -/
theorem reportOf_accepts {clock : ℚ} {name : String} (hemits : ∀ e ∈ reports, Emits now e)
    (htimely : ∀ e ∈ reports, Timely clock e.2) (hname : name ∈ reports.map Prod.fst) :
    ∃ e, reportOf (Json.sortMembers (canonicalEntries reports)) clock name = .ok e ∧
      e.1 = name ∧ (Dict.lookup name reports).map Json.sorted = some e.2.sorted := by
  obtain ⟨r, hr⟩ := Dict.exists_lookup_iff.mpr hname
  have hmem := Dict.mem_of_lookup hr
  obtain ⟨value, hvalue⟩ := hemits _ hmem
  obtain ⟨r', hr', hsorted⟩ := sanitizeReport_stable hvalue (htimely _ hmem)
  refine ⟨(name, r'), ?_, rfl, ?_⟩
  · have hitem : (Json.dict (Json.sortMembers (canonicalEntries reports))).item name =
        (.ok r.sorted : Except HealthExn Json) := by
      apply Json.item_dict_of_lookup
      rw [Json.lookup_sortMembers]
      unfold canonicalEntries
      rw [Json.lookup_map, hr]
      rfl
    unfold reportOf
    rw [hitem]
    show (sanitizeReport r.sorted name clock >>= fun r => pure (name, r)) = _
    rw [hr']
    rfl
  · rw [hr, Option.map_some, hsorted]

theorem envelope_inj {reports' : List (String × Json)} {policy' : Option Json}
    (h : envelope now reports policy = envelope now reports' policy') : reports = reports' ∧ policy = policy' := by
  have hentries := Json.dict.inj h
  simp only [List.cons_append, List.nil_append, List.cons.injEq, Prod.mk.injEq, true_and] at hentries
  refine ⟨Json.dict.inj hentries.1, ?_⟩
  cases policy with
  | none =>
      cases policy' with
      | none => rfl
      | some p' => cases hentries.2
  | some p =>
      cases policy' with
      | none => cases hentries.2
      | some p' =>
          have hsingle := hentries.2
          simp only [Option.map_some, Option.toList_some, List.cons.injEq, Prod.mk.injEq, true_and, and_true]
            at hsingle
          rw [hsingle]

/-- An envelope whose parts are all accepted is accepted. -/
theorem inspectValue_accepts {kvs received sanitized : List (String × Json)} {expected : List String}
    {includePolicy : Bool} {generated : ℚ} (hversion : (Json.dict kvs).getOrNull "version" = .int 1)
    (hreports : (Json.dict kvs).getOrNull "reports" = .dict received)
    (hkeys : hasKeys (envelopeKeys includePolicy) kvs = true) (hexpected : hasKeys expected received = true)
    (hgenerated : epoch ((Json.dict kvs).getOrNull "generated_at") = .ok generated)
    (hrecent : now - 120 ≤ generated ∧ generated ≤ now + 30)
    (hsanitized : expected.mapM (reportOf received now) = .ok sanitized)
    (hpolicy : if includePolicy then ∃ p,
      sanitizePolicy ((Json.dict kvs).getOrNull "policy_attestation") now = .ok p ∧ policy = some p
      else policy = none) :
    inspectValue (.dict kvs) expected now includePolicy = .ok (sanitized, policy) := by
  unfold inspectValue
  rw [hreports, hversion, hgenerated]
  dsimp only
  rw [hkeys, hexpected]
  simp only [bind_eq_ok, rejectIf_eq_ok]
  refine ⟨(), rfl, generated, rfl, (), ?_, sanitized, hsanitized, ?_⟩
  · rw [Bool.not_eq_false', Bool.and_eq_true, decide_eq_true_eq, decide_eq_true_eq]
    exact hrecent
  · cases includePolicy with
    | true =>
        obtain ⟨p, hp, rfl⟩ := hpolicy
        rw [if_pos rfl, hp]
        rfl
    | false =>
        obtain rfl := hpolicy
        rfl

/-- The entries of the envelope. -/
def envelopeEntries (now : ℚ) (reports : List (String × Json)) (policy : Option Json) : List (String × Json) :=
  [("version", .int 1), ("generated_at", time now), ("reports", .dict reports)]
    ++ (policy.map fun p => ("policy_attestation", p)).toList

theorem envelope_keys :
    (envelopeEntries now reports policy).map Prod.fst = envelopeKeys policy.isSome := by
  cases policy with
  | none => rfl
  | some p => rfl

/-- **The importer accepts the envelope** of the reader, at a clock up to 15 seconds earlier, and returns the
    reports and the attestation that were emitted, unless a report was observed more than 30 seconds after that
    clock, or the attestation begins after it or is dated beyond the last second. -/
theorem importer_accepts {tr ti : ℚ} {expected : List String} {includePolicy : Bool} {document : ByteArray}
    (hcollect : collect T hostname config tr reader runner = .ok (envelope tr reports policy))
    (hflag : option config "include_policy_attestation" = .ok includePolicy)
    (hexpected : ∀ name, name ∈ expected ↔ name ∈ reports.map Prod.fst)
    (hdocument : Canonical.parse T document = some (envelope tr reports policy).sorted)
    (hsize : document.size ≤ MAX_JSON) (hearlier : ti ≤ tr) (hclose : tr ≤ ti + 15)
    (htimely : ∀ e ∈ reports, Timely ti e.2) (hbegun : ∀ p, policy = some p → Begun ti p) :
    ∃ reports' policy', inspectEnvelope T document expected ti includePolicy = .ok (reports', policy') ∧
      (∀ name, (Dict.lookup name reports').map Json.sorted = (Dict.lookup name reports).map Json.sorted) ∧
      policy'.map Json.sorted = policy.map Json.sorted := by
  obtain ⟨⟨reports₀, policy₀⟩, hemitted, henvelope⟩ := bind_eq_ok.mp hcollect
  obtain ⟨rfl, rfl⟩ := envelope_inj (Except.ok.inj henvelope)
  obtain ⟨hnow, hoption, hemits, hpolicies⟩ := emitted_eq_ok hemitted
  obtain rfl := Except.ok.inj (hflag.symm.trans hoption)
  -- the document is the envelope with its keys sorted
  have hsorted : (envelope tr reports₀ policy₀).sorted =
      .dict (Json.sortMembers (canonicalEntries (envelopeEntries tr reports₀ policy₀))) := Json.sorted_dict _
  have hget : ∀ k x, (envelope tr reports₀ policy₀).getOrNull k = x →
      (Json.dict (Json.sortMembers (canonicalEntries (envelopeEntries tr reports₀ policy₀)))).getOrNull k =
        x.sorted := by
    intro k x hx
    rw [← hsorted]
    exact getOrNull_sorted_of hx
  have hversion := (hget "version" (.int 1) rfl).trans (Json.sorted_int 1)
  have hreports := (hget "reports" (.dict reports₀) rfl).trans (Json.sorted_dict reports₀)
  have hgenerated := (hget "generated_at" (time tr) rfl).trans (sorted_time tr)
  have hkeys : hasKeys (envelopeKeys policy₀.isSome)
      (Json.sortMembers (canonicalEntries (envelopeEntries tr reports₀ policy₀))) = true := by
    apply hasKeys_of_mem
    intro key
    rw [mem_keys_sorted, envelope_keys]
  have hnames : hasKeys expected (Json.sortMembers (canonicalEntries reports₀)) = true := by
    apply hasKeys_of_mem
    intro key
    rw [mem_keys_sorted]
    exact hexpected key
  obtain ⟨sanitized, hsanitized, heach⟩ := mapM_exists fun name hname =>
    reportOf_accepts hemits htimely ((hexpected name).mp hname)
  obtain ⟨policy', hpolicy', hsame⟩ : ∃ policy', (if policy₀.isSome = true then ∃ p,
      sanitizePolicy ((Json.dict (Json.sortMembers (canonicalEntries
        (envelopeEntries tr reports₀ policy₀)))).getOrNull "policy_attestation") ti = .ok p ∧ policy' = some p
      else policy' = none) ∧ policy'.map Json.sorted = policy₀.map Json.sorted := by
    cases policy₀ with
    | none => exact ⟨none, rfl, rfl⟩
    | some p =>
        obtain ⟨p', hp', hsame⟩ := policy_accepted hnow hearlier (hpolicies p rfl) (hbegun p rfl)
        refine ⟨some p', ?_, congrArg some hsame⟩
        rw [hget "policy_attestation" p rfl]
        exact ⟨p', hp', rfl⟩
  refine ⟨sanitized, policy', ?_, ?_, hsame⟩
  · unfold inspectEnvelope
    rw [decide_eq_false (not_lt.mpr hsize), hdocument, hsorted]
    apply inspectValue_accepts hversion hreports hkeys hnames (hgenerated ▸ epoch_time hnow) _ hsanitized hpolicy'
    constructor
    · linarith
    · linarith
  · intro name
    have hall : ∀ e ∈ sanitized, (Dict.lookup e.1 reports₀).map Json.sorted = some e.2.sorted := by
      intro e he
      obtain ⟨key, -, -, rfl, hlookup⟩ := forall₂_right heach e he
      exact hlookup
    cases hname : Dict.lookup name sanitized with
    | some r => exact (hall _ (Dict.mem_of_lookup hname)).symm
    | none =>
        -- a name that was not returned was not expected
        have hnot : name ∉ reports₀.map Prod.fst := by
          intro hmem
          obtain ⟨e, he, -, rfl, -⟩ := forall₂_left heach name ((hexpected name).mpr hmem)
          obtain ⟨r, hr⟩ := Dict.exists_lookup_iff.mpr (List.mem_map_of_mem he)
          exact nomatch hname.symm.trans hr
        cases hreport : Dict.lookup name reports₀ with
        | none => rfl
        | some r => exact absurd (Dict.exists_lookup_iff.mp ⟨r, hreport⟩) hnot

/-! ## Only then -/

/-- An attestation that is accepted has begun. -/
theorem begun_of_sanitized {p p' : Json} (h : sanitizePolicy p.sorted now = .ok p') : Begun now p := by
  obtain ⟨valid, issued, expires, hattested, hcase⟩ := sanitizePolicy_eq_ok.mp h
  have hissued := hattested.issued_at
  rw [Json.getOrNull_sorted, epoch_sorted] at hissued
  refine ⟨issued, hissued, hattested.timely, hattested.issued_le, fun hvalid => ?_⟩
  have hsame := hattested.valid_eq
  rw [getOrNull_sorted_of hvalid, Json.isAtom_bool true, Json.bool.injEq] at hsame
  rcases hcase with ⟨-, hgranted⟩ | ⟨hdenied, -⟩
  · exact (validPolicy_eq_ok hgranted).1
  · exact absurd (hsame.trans hdenied) (by decide)

/-- **The importer accepts nothing else**: in an envelope that it accepted no expected report is from the future
    at its clock, and the attestation has begun. -/
theorem accepted_only {tr ti : ℚ} {expected : List String} {includePolicy : Bool} {document : ByteArray}
    {result : List (String × Json) × Option Json}
    (hdocument : Canonical.parse T document = some (envelope tr reports policy).sorted)
    (h : inspectEnvelope T document expected ti includePolicy = .ok result) :
    (∀ name ∈ expected, ∀ r, Dict.lookup name reports = some r → Timely ti r) ∧
      (includePolicy = true → ∀ p, policy = some p → Begun ti p) := by
  have hsorted : (envelope tr reports policy).sorted =
      .dict (Json.sortMembers (canonicalEntries (envelopeEntries tr reports policy))) := Json.sorted_dict _
  have hreports : (envelope tr reports policy).sorted.getOrNull "reports" =
      .dict (Json.sortMembers (canonicalEntries reports)) := (getOrNull_sorted_of rfl).trans (Json.sorted_dict _)
  unfold inspectEnvelope at h
  obtain ⟨_, -, h⟩ := bind_eq_ok.mp h
  rw [hdocument] at h
  dsimp only at h
  unfold inspectValue at h
  rw [hreports] at h
  rw [hsorted] at h
  simp only [bind_eq_ok] at h
  obtain ⟨_, -, _, -, _, -, sanitized, hsanitized, h⟩ := h
  constructor
  · intro name hname r hr
    obtain ⟨e, -, he⟩ := forall₂_left (mapM_eq_ok.mp hsanitized) name hname
    have hlookup : Json.lookup name (Json.sortMembers (canonicalEntries reports)) = some r.sorted := by
      rw [Json.lookup_sortMembers]
      unfold canonicalEntries
      rw [Json.lookup_map, hr]
      rfl
    unfold reportOf at he
    rw [Json.item_dict_of_lookup hlookup] at he
    obtain ⟨_, hitem, he⟩ := bind_eq_ok.mp he
    obtain rfl := Except.ok.inj hitem
    obtain ⟨r', hr', -⟩ := bind_eq_ok.mp he
    obtain ⟨t, ht, hle⟩ := (sanitizeReport_eq_ok.mp hr').1.timely
    rw [Json.getOrNull_sorted, epoch_sorted] at ht
    exact ⟨t, ht, hle⟩
  · rintro rfl p rfl
    rw [if_pos rfl] at h
    obtain ⟨p', hp', -⟩ := bind_eq_ok.mp h
    rw [← hsorted, getOrNull_sorted_of rfl] at hp'
    exact begun_of_sanitized hp'

/-! ## A report from the future -/

/-- A configuration of the model host. -/
def modelHost : Json := .dict [("role", .str "model-host"), ("expected_hostname", .str "model")]

/-- The host query is dated `ahead`, the local probe before the clocks. -/
def dated (ahead : ℚ) (path : String) : Except HealthExn Json :=
  if path = "/var/lib/pickle-llm-host-query/result.json" then .ok (plainReport "host-query" ahead "HEALTHY" "OK")
  else .ok (plainReport "local-generation" 1990 "HEALTHY" "OK")

def datedReports (ahead : ℚ) : List (String × Json) :=
  [("host-query", plainReport "host-query" ahead "HEALTHY" "OK"),
    ("local-generation", plainReport "local-generation" 1990 "HEALTHY" "OK")]

theorem sourceReport_plain {source path status reason : String} {t : ℚ} (hsource : source ∈ SOURCES)
    (hheartbeat : source ≠ "collector-heartbeat") (hstatus : status ∈ STATES) (hreason : safeReason reason = true)
    (ht : 0 ≤ t) (hle : t ≤ now + 30) (hread : reader path = .ok (plainReport source t status reason)) :
    sourceReport reader now (source, path) = .ok (source, plainReport source t status reason) := by
  have hreport : readReport source (plainReport source t status reason) now =
      .ok (plainReport source t status reason) := by
    unfold readReport
    rw [if_neg hheartbeat]
    exact sanitizeReport_plain hsource hstatus hreason ht hle
  unfold sourceReport
  rw [hread]
  show (orElse (readReport source _ now) _ >>= fun report => pure (source, report)) = _
  rw [hreport]
  rfl

theorem collect_dated (T : FloatText) {ahead : ℚ} (hpos : 0 ≤ ahead) (hle : ahead ≤ 2045) :
    collect T "model" modelHost 2015 (dated ahead) (.error .osError) =
      .ok (envelope 2015 (datedReports ahead) none) := by
  have hselect : select "model" modelHost = .ok ⟨"model-host", false, false, false, false, []⟩ := rfl
  have hfirst := @sourceReport_plain 2015 (dated ahead) "host-query"
    "/var/lib/pickle-llm-host-query/result.json" "HEALTHY" "OK" ahead (by decide) (by decide) (by decide) (by decide)
    hpos (by linarith) rfl
  have hsecond := @sourceReport_plain 2015 (dated ahead) "local-generation"
    "/var/lib/pickle-llm-local-generation/result.json" "HEALTHY" "OK" 1990 (by decide) (by decide) (by decide)
    (by decide) (by norm_num) (by norm_num) rfl
  have hreports : Selection.reports T ⟨"model-host", false, false, false, false, []⟩ 2015 (dated ahead)
      (.error .osError) = .ok (datedReports ahead) := by
    show [("host-query", _), ("local-generation", _)].mapM (sourceReport (dated ahead) 2015) = _
    rw [mapM_eq_ok]
    exact .cons hfirst (.cons hsecond .nil)
  have hclock : decide ((2015 : ℚ) < 0) = false := by decide +kernel
  unfold collect emitted
  rw [hselect, hclock]
  show ((Selection.reports T ⟨"model-host", false, false, false, false, []⟩ 2015 (dated ahead) _ >>= _) >>= _) = _
  rw [hreports]
  rfl

/-- The envelope as the machine prints it. -/
def datedText (ahead : ℚ) : ByteArray :=
  Canonical.bytes Metrics.wholeMachine.text (envelope 2015 (datedReports ahead) none)

theorem isFloat_whole {q : ℚ} (n : Int) (hq : q = n) (hpos : 0 ≤ n) (hle : n ≤ 4096) :
    Metrics.wholeMachine.text.IsFloat q := by
  subst hq
  constructor
  · refine ⟨n, ?_⟩
    show (n : ℚ) = ((⌊(n : ℚ)⌋ : Int) : ℚ)
    rw [Int.floor_intCast]
  · have hcast : (0 : ℚ) ≤ n ∧ (n : ℚ) ≤ 4096 := by exact_mod_cast And.intro hpos hle
    have hpow : (2 : ℚ) ^ 13 ≤ 2 ^ 1024 := by
      apply pow_le_pow_right₀
      · norm_num
      · omega
    have hlast : (4096 : ℚ) < 2 ^ 13 := by norm_num
    rw [abs_of_nonneg hcast.1]
    exact (hcast.2.trans_lt hlast).trans_le hpow

theorem datedText_parse {ahead : ℚ} (h : Metrics.wholeMachine.text.IsFloat ahead) :
    Canonical.parse Metrics.wholeMachine.text (datedText ahead) =
      some (envelope 2015 (datedReports ahead) none).sorted := by
  apply Canonical.parse_bytes
  have hone : (Nat.toDigits 10 1).length ≤ maxIntDigits := by decide
  have htime := @isFloat_whole 2015 2015 (by norm_num) (by norm_num) (by norm_num)
  have hprobe := @isFloat_whole 1990 1990 (by norm_num) (by norm_num) (by norm_num)
  simp [envelope, datedReports, plainReport, time, JsonText.Valid, JsonText.ValidMembers, hone, htime, hprobe, h]

theorem datedText_size {ahead : ℚ} (h : ahead = 2010 ∨ ahead = 2040) : (datedText ahead).size ≤ MAX_JSON := by
  rcases h with rfl | rfl
  · decide +kernel
  · decide +kernel

/-- A report of five seconds after the clock of the importer is imported. -/
theorem importer_accepts_dated : ∃ reports' policy', inspectEnvelope Metrics.wholeMachine.text (datedText 2010)
      ["host-query", "local-generation"] 2000 false = .ok (reports', policy') ∧
      (∀ name, (Dict.lookup name reports').map Json.sorted =
        (Dict.lookup name (datedReports 2010)).map Json.sorted) ∧ policy'.map Json.sorted = none := by
  have hparse := datedText_parse (@isFloat_whole 2010 2010 (by norm_num) (by norm_num) (by norm_num))
  refine importer_accepts (collect_dated Metrics.wholeMachine.text (by norm_num) (by norm_num)) rfl ?_ hparse
    (datedText_size (.inl rfl)) (by norm_num) (by norm_num) ?_ (fun p hp => by cases hp)
  · intro name
    rfl
  · intro e he
    rcases List.mem_cons.mp he with rfl | he
    · exact ⟨2010, epoch_time (by norm_num), by norm_num⟩
    · rw [List.mem_singleton.mp he]
      exact ⟨1990, epoch_time (by norm_num), by norm_num⟩

/-- One report of 40 seconds after the clock of the importer, which the reader accepted 15 seconds later, and
    no report of the envelope is imported. -/
theorem future_report_refused :
    collect Metrics.wholeMachine.text "model" modelHost 2015 (dated 2040) (.error .osError) =
      .ok (envelope 2015 (datedReports 2040) none) ∧
    Canonical.parse Metrics.wholeMachine.text (datedText 2040) = some (envelope 2015 (datedReports 2040) none).sorted ∧
    (datedText 2040).size ≤ MAX_JSON ∧
    ∀ result, inspectEnvelope Metrics.wholeMachine.text (datedText 2040) ["host-query", "local-generation"] 2000
      false ≠ .ok result := by
  have hparse := datedText_parse (@isFloat_whole 2040 2040 (by norm_num) (by norm_num) (by norm_num))
  refine ⟨collect_dated _ (by norm_num) (by norm_num), hparse, datedText_size (.inr rfl), ?_⟩
  intro result hresult
  have hreport : Dict.lookup "host-query" (datedReports 2040) =
      some (plainReport "host-query" 2040 "HEALTHY" "OK") := rfl
  obtain ⟨t, ht, hle⟩ := (accepted_only hparse hresult).1 "host-query" List.mem_cons_self _ hreport
  have hdated : epoch ((plainReport "host-query" 2040 "HEALTHY" "OK").getOrNull "observed_at") = .ok 2040 :=
    epoch_time (by norm_num)
  obtain rfl := Except.ok.inj (ht.symm.trans hdated)
  exact absurd hle (by norm_num)

end Transport
end PickleInfra
