import PickleInfra.Registration.Image
import PickleInfra.Registration.Repeated

/-!
# `Registration.Sealed` — values do not change a statement

For each outline and each choice of the values that are missing there is one sequence of tokens, with holes where the
values are, and every text of the outline has it.
-/

namespace PickleInfra
namespace Registration

open Python JsonText Sql

/-! ## Scripts of an outline -/

/-- The tokens of the script are these, but for the contents of its values. -/
structure Sealed (T : FloatText) (repr : Json → String) (s : Script) (outer inner : List Slot) : Prop where
  tag : occurrences (tagText s.tag.toList) (s.text T repr) = 2
  tokens : ∃ outer' inner', Reads T repr s outer' inner' ∧ outer'.map Slot.mask = outer ∧ inner'.map Slot.mask = inner
  values : ∀ v, Part.hole (.json v) ∈ s.body ++ s.after → Valid T v → decoded T (encoded T v) = some v

section Outline

variable (T : FloatText) (repr : Json → String) {l : Outline}

theorem exists_sealed {s : Script} (hclosed : l.closed = true) (hfits : s.Fits l) : ∃ outer inner, Sealed T repr s outer inner ∧
    ∀ t : Script, t.Fits l → t.branch = s.branch → Sealed T repr t outer inner := by
  obtain ⟨m, outer, hm, houter⟩ := exists_scan_text T repr hfits hclosed
  obtain ⟨m', inner, hm', hinner⟩ := exists_scan_body T repr hfits hclosed
  have hsealed : ∀ t : Script, t.Fits l → t.branch = s.branch →
      Sealed T repr t (outer.map Slot.mask) (inner.map Slot.mask) := by
    intro t ht hbranch
    obtain ⟨n, outer', hn, houter'⟩ := exists_scan_text T repr ht hclosed
    obtain ⟨n', inner', hn', hinner'⟩ := exists_scan_body T repr ht hclosed
    obtain ⟨hmask, hmask'⟩ := masks_of_scan T repr ht hfits hbranch houter' hinner' houter hinner
    exact { tag := occurrences_tag T repr ht hclosed,
            tokens := ⟨outer', inner', reads_of_scan T repr ht hclosed houter' hn hinner' hn', hmask, hmask'⟩,
            values := fun v _ hv => decoded_encoded hv }
  exact ⟨_, _, hsealed s hfits rfl, hsealed⟩

/-- **One sequence of tokens for every choice of missing values.** -/
theorem sealed_of_outline (hclosed : l.closed = true) (branch : List Bool) : ∃ outer inner, ∀ s : Script, s.Fits l →
    s.branch = branch → Sealed T repr s outer inner := by
  by_cases hsome : ∃ s : Script, s.Fits l ∧ s.branch = branch
  · obtain ⟨s, hfits, hbranch⟩ := hsome
    obtain ⟨outer, inner, -, hall⟩ := exists_sealed T repr hclosed hfits
    exact ⟨outer, inner, fun t ht hsame => hall t ht (hsame.trans hbranch.symm)⟩
  · exact ⟨[], [], fun s hfits hbranch => absurd ⟨s, hfits, hbranch⟩ hsome⟩

end Outline

theorem Script.Fits.of_texts {before tag : List Char} {body after : List Part} {ks ks' : List Kind} (hbody : Spelled body ks)
    (hafter : Spelled after ks') (hplain : ∀ p ∈ body ++ after, p.IsPlain) :
    Script.Fits ⟨String.ofList before, String.ofList tag, body, after⟩ ⟨before, tag, ks, ks'⟩ :=
  ⟨rfl, rfl, hbody, hafter, hplain⟩

/-! ## Nodes -/

/-- The texts of a node that its statement has. -/
structure Config.PlainTexts (c : Config) : Prop where
  node : Plain c.node.toList
  poolName : Plain c.poolName.toList
  apiUrl : Plain c.apiUrl.toList
  bridge : Plain c.bridge.toList
  storage : Plain c.storage.toList

/-- The values that the statement has without a function around them are numbers. -/
structure Rows.Numeric (r : Rows) : Prop where
  memoryMb : IsNumber r.memoryMb
  allocatableThreads : IsNumber r.allocatableThreads
  allocatableDisk : IsNumber r.allocatableDisk
  cpuThreads : IsNumber r.cpuThreads
  diskCapacityGb : IsNumber r.diskCapacityGb

theorem plain_of_url {nfkc : List Char → List Char} {s message hostMessage : String} {u : Url.SplitResult} {x : Unit}
    (hsplit : Url.urlsplit nfkc s = some u) (hcheck : checkUrl message hostMessage u = .ok x)
    (hzero : Char.ofNat 0 ∉ s.toList) : Plain s.toList := by
  intro c hc
  constructor
  · rintro rfl
    exact not_dollar_of_checkUrl hsplit hcheck hc
  · intro hnat
    have hchar : c = Char.ofNat 0 := by rw [← hnat, Char.ofNat_toNat]
    exact hzero (hchar ▸ hc)

theorem Config.Valid.plainTexts {nfkc : List Char → List Char} {c : Config} (h : c.Valid nfkc)
    (hzero : Char.ofNat 0 ∉ c.apiUrl.toList) : c.PlainTexts where
  node := plain_of_isName h.node
  poolName := plain_of_isName h.poolName
  apiUrl := by
    obtain ⟨u, message, hostMessage, hsplit, hcheck⟩ := h.apiUrl
    exact plain_of_url hsplit hcheck hzero
  bridge := plain_of_isBridge h.bridge
  storage := plain_of_isName h.storage

set_option maxRecDepth 10000 in
/-- The outline of a node's statement. -/
theorem exists_outline : ∃ l : Outline, l.closed = true ∧ ∀ (c : Config) (r : Rows), c.PlainTexts → r.Numeric →
    (applyScript c r).Fits l := by
  apply Exists.intro
  apply And.intro
  rotate_left
  · intro c r hc hr
    obtain ⟨node, identity, pool, memoryMb, allocatableThreads, allocatableDisk, cpuThreads, diskCapacityGb, labels⟩ := r
    obtain ⟨⟨memory, rfl⟩, ⟨threads, rfl⟩, ⟨disk, rfl⟩, ⟨cpu, rfl⟩, ⟨capacity, rfl⟩⟩ := hr
    dsimp only [applyScript, identitySql]
    apply Script.Fits.of_texts
    · repeat constructor
    · repeat constructor
    · simp [Part.IsPlain, hc.node, hc.poolName, hc.apiUrl, hc.bridge, hc.storage]
  · decide +kernel

/-! ## Images -/

namespace Image

/-- The texts of an image that its statement has, and its version. -/
structure Config.PlainTexts (c : Config) : Prop where
  node : Plain c.node.toList
  name : Plain c.name.toList
  version : ∃ n : Nat, c.version = n

theorem plainTexts_of_fromDict {nfkc : List Char → List Char} {value : Json} {c : Config} (h : fromDict nfkc value = .ok c) :
    c.PlainTexts := by
  unfold fromDict columnInt at h
  simp only [bind_eq_ok] at h
  obtain ⟨_, _, node, hnode, cluster, _, storage, _, osFamily, _, hostname, _, name, hname, database, _, ssh, _,
    osVersion, _, displayName, _, notes, _, version, ⟨n, hversion, _, _, hn⟩, minDisk, _, vmid, _, _, _, mtu, _,
    publicId, _, existing, _, h⟩ := h
  cases hn
  obtain ⟨-, hnode⟩ := str_of_stringThat hnode
  obtain ⟨-, hname⟩ := str_of_stringThat hname
  have hnonneg : 0 ≤ version := Int.le_trans Int.one_nonneg (positiveInt_eq_ok.mp hversion).2
  cases publicId with
  | none => cases h
  | some publicId =>
      obtain ⟨url, _, h⟩ := bind_eq_ok.mp h
      obtain ⟨identifier, _, h⟩ := bind_eq_ok.mp h
      obtain ⟨socket, _, h⟩ := bind_eq_ok.mp h
      obtain ⟨manifest, _, h⟩ := bind_eq_ok.mp h
      cases h
      exact { node := plain_of_isName hnode, name := plain_of_fullmatchFirst hname (by decide) (by decide),
              version := ⟨version.toNat, (Int.toNat_of_nonneg hnonneg).symm⟩ }

set_option maxRecDepth 10000 in
/-- The outline of an image's statement. -/
theorem exists_outline : ∃ l : Outline, l.closed = true ∧ ∀ (c : Config) (r : Rows), c.PlainTexts →
    (applyScript c r).Fits l := by
  apply Exists.intro
  apply And.intro
  rotate_left
  · intro c r hc
    obtain ⟨n, hn⟩ := hc.version
    have htext : toString c.version = toString n := by
      rw [hn]
      rfl
    have hversion : Plain (Nat.toDigits 10 n) := by simpa using plain_toString n
    dsimp only [applyScript, identitySql, nodeScopedUniqueSql]
    rw [htext, hn]
    apply Script.Fits.of_texts
    · repeat constructor
    · repeat constructor
    · simp [Part.IsPlain, hc.node, hc.name, hversion]
  · decide +kernel

end Image

end Registration
end PickleInfra
