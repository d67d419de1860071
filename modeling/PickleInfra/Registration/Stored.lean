import PickleInfra.Registration.Report

/-!
# `Registration.Stored` — what a stored capacity is

The checks of `validate_capacity_document` as a relation between a document and the numbers in it, which holds of
a document whatever the order of its keys.
-/

namespace PickleInfra
namespace Registration

open Python JsonText

variable {T : FloatText}

/-! ## Groups -/

/-- The document holds the dimensions under the name of the group, in range. -/
def IsGroup (group : String) (d : Dimensions) (v : Json) : Prop :=
  ∃ x, v.get? group = some x ∧ x.hasKeys dimensions = true ∧
    ∀ key ∈ dimensions, x.get? key = some (.int (d.at key)) ∧ storedLeast group ≤ d.at key ∧
      d.at key ≤ storedMax group key

theorem checkNumber_eq_ok {group : String} {m : String × Json} {u : Unit} :
    checkNumber group m = .ok u ↔ ∃ n, m.2 = .int n ∧ storedLeast group ≤ n ∧ n ≤ storedMax group m.1 := by
  unfold checkNumber
  simp only [bind_eq_ok, positiveInt_eq_ok, require_eq_ok, decide_eq_true_eq, and_assoc]

theorem storedGroup_eq_ok {group : String} {v : Json} {d : Dimensions} (hv : Valid T v) :
    storedGroup group v = .ok d ↔ IsGroup group d v := by
  unfold storedGroup IsGroup
  simp only [bind_eq_ok, Json.item_eq_ok, require_eq_ok]
  constructor
  · rintro ⟨x, hx, _, hkeys, us, hall, hd⟩
    obtain ⟨ms, rfl, hms⟩ := Json.hasKeys_iff.mp hkeys
    refine ⟨_, hx, hkeys, fun key hkey => ?_⟩
    -- the key is there, and the loop has seen what it holds
    obtain ⟨y, hy⟩ := Json.exists_lookup ((hms key).mpr hkey)
    obtain ⟨u, hu⟩ := mapM_returns.mp ⟨us, hall⟩ _ (Json.mem_of_lookup hy)
    obtain ⟨n, rfl, hleast, hmost⟩ := checkNumber_eq_ok.mp hu
    have hat : d.at key = n := by
      have hint : intAt key (.dict ms) = n := by
        unfold intAt Json.getOrNull
        rw [show (Json.dict ms).get? key = some (.int n) from hy]
        rfl
      cases hd
      simp only [dimensions, List.mem_cons, List.not_mem_nil, or_false] at hkey
      rcases hkey with rfl | rfl | rfl
      · exact hint
      · exact hint
      · exact hint
    rw [hat]
    exact ⟨hy, hleast, hmost⟩
  · rintro ⟨x, hx, hkeys, hnumbers⟩
    obtain ⟨ms, rfl, hms⟩ := Json.hasKeys_iff.mp hkeys
    have hnodup := (valid_dict.mp (Json.valid_of_get? hv hx)).1
    have hat : ∀ key ∈ dimensions, intAt key (.dict ms) = d.at key := by
      intro key hkey
      unfold intAt Json.getOrNull
      rw [(hnumbers key hkey).1]
      rfl
    have hreturns : ∀ m ∈ ms, ∃ u, checkNumber group m = .ok u := by
      intro m hm
      have hkey := (hms m.1).mp (List.mem_map_of_mem hm)
      obtain ⟨hget, hleast, hmost⟩ := hnumbers m.1 hkey
      have hlookup := Json.lookup_of_mem hnodup hm
      have heq : m.2 = .int (d.at m.1) := Option.some.inj (hlookup.symm.trans hget)
      exact ⟨(), checkNumber_eq_ok.mpr ⟨_, heq, hleast, hmost⟩⟩
    obtain ⟨us, hus⟩ := mapM_returns.mpr hreturns
    refine ⟨_, hx, (), hkeys, us, hus, ?_⟩
    rw [hat _ (by decide), hat _ (by decide), hat _ (by decide)]
    rfl

/-- A group is the same whatever the order of keys. -/
theorem isGroup_same {group : String} {d : Dimensions} {v w : Json} (h : w.sorted = v.sorted) (hv : IsGroup group d v) :
    IsGroup group d w := by
  obtain ⟨x, hx, hkeys, hnumbers⟩ := hv
  obtain ⟨y, hy, hsame⟩ := Json.get?_same h hx
  exact ⟨y, hy, Json.hasKeys_of_sorted hsame hkeys, fun key hkey =>
    ⟨Json.get?_scalar hsame rfl (hnumbers key hkey).1, (hnumbers key hkey).2⟩⟩

/-! ## The policy -/

/-- The policy that a version stores. -/
def IsPolicy (version : Option Int) (policy : Int × Int) (v : Json) : Prop :=
  if version = some 2 then
    ∃ x, v.get? "cpu_policy" = some x ∧ x.hasKeys ["allocation_ratio", "committed_vcpu"] = true ∧
      x.get? "allocation_ratio" = some (.int policy.1) ∧ x.get? "committed_vcpu" = some (.int policy.2) ∧
      (1 ≤ policy.1 ∧ policy.1 ≤ 2) ∧ 0 ≤ policy.2 ∧ policy.2 ≤ maxBigint
  else policy = (1, 0)

theorem get?_of_getOrNull {v x : Json} {k : String} (h : v.getOrNull k = x) (hx : x ≠ .null) : v.get? k = some x := by
  unfold Json.getOrNull at h
  cases hget : v.get? k with
  | none =>
      rw [hget] at h
      exact absurd h.symm hx
  | some y =>
      rw [hget] at h
      exact congrArg some h

theorem storedPolicy_eq_ok {v : Json} {policy : Int × Int} :
    storedPolicy v = .ok policy ↔ IsPolicy (some 2) policy v := by
  unfold storedPolicy IsPolicy
  rw [if_pos rfl]
  simp only [bind_eq_ok, Json.item_eq_ok, require_eq_ok, decide_eq_true_eq]
  constructor
  · rintro ⟨x, hx, _, hkeys, ratio, hratio, committed, hcommitted, _, hmost, hpolicy⟩
    cases hpolicy
    obtain ⟨hratio, hbounds⟩ := int_of_intBetween hratio
    obtain ⟨hcommitted, hleast⟩ := positiveInt_eq_ok.mp hcommitted
    exact ⟨x, hx, hkeys, get?_of_getOrNull hratio (by simp), get?_of_getOrNull hcommitted (by simp), hbounds, hleast, hmost⟩
  · rintro ⟨x, hx, hkeys, hratio, hcommitted, hbounds, hleast, hmost⟩
    refine ⟨x, hx, (), hkeys, policy.1, ?_, policy.2, positiveInt_eq_ok.mpr ⟨?_, hleast⟩, (), hmost, rfl⟩
    · rw [Json.getOrNull_of_get? hratio]
      exact if_pos hbounds
    · exact Json.getOrNull_of_get? hcommitted

theorem policyOf_eq_ok {version : Option Int} {v : Json} {policy : Int × Int} :
    policyOf version v = .ok policy ↔ IsPolicy version policy v := by
  unfold policyOf
  by_cases hversion : version = some 2
  · rw [if_pos hversion, hversion]
    exact storedPolicy_eq_ok
  · rw [if_neg hversion]
    unfold IsPolicy
    rw [if_neg hversion]
    exact ⟨fun h => (Except.ok.inj h).symm, fun h => congrArg Except.ok h.symm⟩

theorem isPolicy_same {version : Option Int} {policy : Int × Int} {v w : Json} (h : w.sorted = v.sorted)
    (hv : IsPolicy version policy v) : IsPolicy version policy w := by
  unfold IsPolicy at hv ⊢
  split at hv
  · next hversion =>
    obtain ⟨x, hx, hkeys, hratio, hcommitted, hbounds⟩ := hv
    obtain ⟨y, hy, hsame⟩ := Json.get?_same h hx
    rw [if_pos hversion]
    exact ⟨y, hy, Json.hasKeys_of_sorted hsame hkeys, Json.get?_scalar hsame rfl hratio,
      Json.get?_scalar hsame rfl hcommitted, hbounds⟩
  · next hversion =>
    rw [if_neg hversion]
    exact hv

/-! ## The document -/

/-- The keys of a version. -/
def HasVersion (v : Json) (version : Option Int) : Prop :=
  (v.getOrNull "schema_version").asInt? = version ∧
    ((version = some 1 ∧ v.hasKeys legacyFields = true) ∨
      (version = some 2 ∧ v.hasKeys (legacyFields ++ ["cpu_policy"]) = true))

/-- The numbers in a stored capacity. -/
structure Numbers where
  version : Option Int
  physical : Dimensions
  reserved : Dimensions
  allocatable : Dimensions
  policy : Int × Int

/-- The vCPU of the policy, before the committed ones are taken off. -/
def Numbers.budget (n : Numbers) : Int := (n.physical.cpuThreads - n.reserved.cpuThreads) * n.policy.1

/-- A stored capacity with its numbers. -/
structure IsCapacity (v : Json) (n : Numbers) : Prop where
  version : HasVersion v n.version
  physical : IsGroup "physical" n.physical v
  reserved : IsGroup "reserved" n.reserved v
  allocatable : IsGroup "allocatable" n.allocatable v
  margin : ∀ key ∈ dimensions, n.reserved.at key < n.physical.at key
  policy : IsPolicy n.version n.policy v
  budget : n.budget ≤ maxBigint ∧ n.policy.2 < n.budget
  consistent : n.allocatable = ⟨n.budget - n.policy.2, n.physical.memoryMb - n.reserved.memoryMb,
    n.physical.diskGb - n.reserved.diskGb⟩
  measured : ∃ s moment, v.get? "measured_at" = some (.str s) ∧ Isoformat.fromisoformat s = some moment ∧
    moment.isAware = true

theorem momentOf_eq_ok {s : String} {moment : Isoformat.Moment} :
    momentOf (.str s) = .ok moment ↔ Isoformat.fromisoformat s = some moment := by
  unfold momentOf
  dsimp only
  cases Isoformat.fromisoformat s with
  | none => exact ⟨fun h => (by cases h), fun h => (by cases h)⟩
  | some m => exact ⟨fun h => congrArg some (Except.ok.inj h), fun h => congrArg Except.ok (Option.some.inj h)⟩

theorem all_margin {physical reserved : Dimensions} :
    (dimensions.all fun key => reserved.at key < physical.at key) = true ↔
      ∀ key ∈ dimensions, reserved.at key < physical.at key := by
  rw [List.all_eq_true]
  simp only [decide_eq_true_eq]

theorem stringThat_any {message s : String} {v : Json} :
    stringThat (fun _ => true) message v = .ok s ↔ v = .str s := by
  constructor
  · exact fun h => (str_of_stringThat h).1
  · rintro rfl
    rfl

/-- **The validator accepts exactly the stored capacities.** -/
theorem validateCapacityDocument_iff {v : Json} (hv : Valid T v) : validateCapacityDocument v = .ok () ↔
    ∃ n, IsCapacity v n := by
  unfold validateCapacityDocument
  simp only [bind_eq_ok, require_eq_ok, storedGroup_eq_ok hv, policyOf_eq_ok, stringThat_any, momentOf_eq_ok,
    all_margin, Bool.or_eq_true, Bool.and_eq_true, decide_eq_true_eq]
  constructor
  · rintro ⟨_, hversion, physical, hphysical, reserved, hreserved, allocatable, hallocatable, _, hmargin, policy, hpolicy,
      _, hbudget, _, hconsistent, s, hs, moment, hmoment, haware⟩
    exact ⟨⟨_, physical, reserved, allocatable, policy⟩, ⟨rfl, hversion⟩, hphysical, hreserved, hallocatable, hmargin,
      hpolicy, hbudget, hconsistent, s, moment, get?_of_getOrNull hs (by simp), hmoment, haware⟩
  · rintro ⟨n, h⟩
    obtain ⟨hversion, hkeys⟩ := h.version
    obtain ⟨s, moment, hs, hmoment, haware⟩ := h.measured
    have hpolicy := h.policy
    rw [← hversion] at hkeys hpolicy
    exact ⟨(), hkeys, n.physical, h.physical, n.reserved, h.reserved, n.allocatable, h.allocatable, (), h.margin, n.policy,
      hpolicy, (), h.budget, (), h.consistent, s, Json.getOrNull_of_get? hs, moment, hmoment, haware⟩

/-- **A stored capacity is one whatever the order of its keys.** -/
theorem isCapacity_same {v w : Json} {n : Numbers} (h : w.sorted = v.sorted) (hv : IsCapacity v n) : IsCapacity w n := by
  obtain ⟨hversion, hkeys⟩ := hv.version
  obtain ⟨s, moment, hs, hmoment, haware⟩ := hv.measured
  have hinteger : (w.getOrNull "schema_version").asInt? = n.version := by
    rw [← Json.asInt?_sorted, Json.getOrNull_of_sorted h, Json.asInt?_sorted]
    exact hversion
  have hkeys' : (n.version = some 1 ∧ w.hasKeys legacyFields = true) ∨
      (n.version = some 2 ∧ w.hasKeys (legacyFields ++ ["cpu_policy"]) = true) := by
    rcases hkeys with ⟨h1, hkeys⟩ | ⟨h2, hkeys⟩
    · exact .inl ⟨h1, Json.hasKeys_of_sorted h hkeys⟩
    · exact .inr ⟨h2, Json.hasKeys_of_sorted h hkeys⟩
  exact { hv with version := ⟨hinteger, hkeys'⟩, physical := isGroup_same h hv.physical,
                  reserved := isGroup_same h hv.reserved, allocatable := isGroup_same h hv.allocatable,
                  policy := isPolicy_same h hv.policy,
                  measured := ⟨s, moment, Json.get?_scalar h rfl hs, hmoment, haware⟩ }

end Registration
end PickleInfra
