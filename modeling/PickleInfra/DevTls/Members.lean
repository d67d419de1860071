import PickleInfra.DevTls.Inspect

/-!
# `DevTls.Members` — the members `inspect_archive` accepts

An accepted archive has the nine members of a lineage (`lineageMembers`), in any order: the count and the
distinct names leave no room for another (`perm_lineageMembers`). The text of a live link is its prefix, a
number, and mostly `.pem`: the suffix is cut off where it is there, and not missed where it is not
(`linkSuffix_eq`). `inspectMembers_ok` says all of it at once.
-/

namespace PickleInfra
namespace DevTls

open Python

/-! ## Texts of links -/

/-- The text of a live link that names an archive file. -/
def linkText (lineage : String) (stem : Stem) (suffix : List Char) : String :=
  "../../archive/" ++ lineage ++ "/" ++ (stem.text ++ String.ofList suffix ++ ".pem")

theorem linkText_toList (lineage : String) (stem : Stem) (suffix : List Char) :
    (linkText lineage stem suffix).toList = linkPrefix lineage stem ++ (suffix ++ ".pem".toList) := by
  unfold linkText linkPrefix
  simp only [String.toList_append, String.toList_ofList, List.append_assoc]

/-- A text is the prefix with a number, then `.pem` or nothing. -/
def Numbered (lineage : String) (stem : Stem) (text : String) (suffix : List Char) : Prop :=
  Str.isdigit suffix = true ∧ (text = linkText lineage stem suffix ∨
    text.toList = linkPrefix lineage stem ++ suffix)

theorem isdigit_all {suffix : List Char} (h : Str.isdigit suffix = true) {c : Char} (hc : c ∈ suffix) :
    Str.digitRanges.any (fun r => r.1 ≤ c.toNat && c.toNat ≤ r.2) = true := by
  unfold Str.isdigit at h
  rw [Bool.and_eq_true, List.all_eq_true] at h
  exact h.2 c hc

theorem not_mem_isdigit {suffix : List Char} (h : Str.isdigit suffix = true) {c : Char}
    (hc : Str.digitRanges.any (fun r => r.1 ≤ c.toNat && c.toNat ≤ r.2) = false) : c ∉ suffix := by
  intro hmem
  rw [isdigit_all h hmem] at hc
  cases hc

/-- A number does not end in `.pem`. -/
theorem removesuffix_isdigit {suffix : List Char} (h : Str.isdigit suffix = true) :
    Str.removesuffix ".pem".toList suffix = suffix := by
  unfold Str.removesuffix
  refine if_neg fun hsuffix => ?_
  have hmem : 'm' ∈ suffix := (List.isSuffixOf_iff_suffix.mp hsuffix).subset (by decide)
  exact not_mem_isdigit h (by decide) hmem

theorem removesuffix_append (word s : List Char) : Str.removesuffix word (s ++ word) = s := by
  unfold Str.removesuffix
  rw [if_pos (List.isSuffixOf_iff_suffix.mpr (List.suffix_append s word)), List.length_append,
    Nat.add_sub_cancel, List.take_left]

theorem eq_or_of_removesuffix {word s rest : List Char} (h : Str.removesuffix word s = rest) :
    s = rest ++ word ∨ s = rest := by
  unfold Str.removesuffix at h
  split at h
  · next hsuffix =>
    obtain ⟨init, rfl⟩ := List.isSuffixOf_iff_suffix.mp hsuffix
    rw [List.length_append, Nat.add_sub_cancel, List.take_left] at h
    exact .inl (by rw [h])
  · exact .inr h

theorem removeprefix_append (word rest : List Char) : Str.removeprefix word (word ++ rest) = rest := by
  unfold Str.removeprefix
  rw [if_pos (List.isPrefixOf_iff_prefix.mpr (List.prefix_append word rest)), List.drop_left]

/-- The check of a link text: the prefix is there, and what is left is a number. -/
theorem linkSuffix_eq {lineage : String} {stem : Stem} {text : String} {suffix : List Char} :
    ((linkPrefix lineage stem).isPrefixOf text.toList = true ∧ Str.isdigit suffix = true ∧
      linkSuffix lineage stem text = suffix) ↔ Numbered lineage stem text suffix := by
  constructor
  · rintro ⟨hstart, hdigit, hsuffix⟩
    obtain ⟨rest, hrest⟩ := List.isPrefixOf_iff_prefix.mp hstart
    unfold linkSuffix at hsuffix
    rw [← hrest, removeprefix_append] at hsuffix
    refine ⟨hdigit, ?_⟩
    rcases eq_or_of_removesuffix hsuffix with h | h
    · left
      apply String.toList_injective
      rw [← hrest, linkText_toList, h]
    · exact .inr (by rw [← hrest, h])
  · rintro ⟨hdigit, rfl | htext⟩
    · unfold linkSuffix
      rw [linkText_toList, removeprefix_append, removesuffix_append]
      exact ⟨List.isPrefixOf_iff_prefix.mpr (List.prefix_append _ _), hdigit, rfl⟩
    · unfold linkSuffix
      rw [htext, removeprefix_append, removesuffix_isdigit hdigit]
      exact ⟨List.isPrefixOf_iff_prefix.mpr (List.prefix_append _ _), hdigit, rfl⟩

/-! ## The members of a lineage -/

/-- The renewal file, and for every stem the archive file and the live link. -/
def lineageMembers (lineage : String) (conf : List UInt8) (text : Stem → String) (suffix : Stem → List Char)
    (data : Stem → List UInt8) : List Member :=
  ⟨renewalName lineage, .file conf⟩ :: stems.flatMap fun s =>
    [⟨archiveName lineage s (suffix s), .file (data s)⟩, ⟨liveName lineage s, .link (text s)⟩]

section Names

variable {lineage : String}

theorem renewalName_ne_archiveName (s : Stem) (suffix : List Char) :
    renewalName lineage ≠ archiveName lineage s suffix := by
  intro h
  have := congrArg String.toList h
  simp [renewalName, archiveName, String.toList_append] at this

theorem renewalName_ne_liveName (s : Stem) : renewalName lineage ≠ liveName lineage s := by
  intro h
  have := congrArg String.toList h
  simp [renewalName, liveName, String.toList_append] at this

theorem archiveName_ne_liveName (s s' : Stem) (suffix : List Char) :
    archiveName lineage s suffix ≠ liveName lineage s' := by
  intro h
  have := congrArg String.toList h
  simp [archiveName, liveName, String.toList_append] at this

theorem archiveName_inj {s s' : Stem} {suffix suffix' : List Char}
    (h : archiveName lineage s suffix = archiveName lineage s' suffix') : s = s' := by
  have := congrArg String.toList h
  simp only [archiveName, String.toList_append, List.append_assoc, List.append_cancel_left_eq] at this
  cases s <;> cases s' <;> first | rfl | simp [Stem.text] at this

theorem liveName_inj {s s' : Stem} (h : liveName lineage s = liveName lineage s') : s = s' := by
  have := congrArg String.toList h
  simp only [liveName, String.toList_append, List.append_assoc, List.append_cancel_left_eq] at this
  cases s <;> cases s' <;> first | rfl | simp [Stem.text] at this

end Names

section Lineage

variable {lineage : String} {conf : List UInt8} {text : Stem → String} {suffix : Stem → List Char}
  {data : Stem → List UInt8}

theorem mem_lineageMembers {m : Member} : m ∈ lineageMembers lineage conf text suffix data ↔
    m = ⟨renewalName lineage, .file conf⟩ ∨
      ∃ s, m = ⟨archiveName lineage s (suffix s), .file (data s)⟩ ∨ m = ⟨liveName lineage s, .link (text s)⟩ := by
  unfold lineageMembers
  rw [List.mem_cons, List.mem_flatMap]
  refine or_congr_right ⟨?_, ?_⟩
  · rintro ⟨s, -, hm⟩
    exact ⟨s, List.mem_pair.mp hm⟩
  · rintro ⟨s, hm⟩
    exact ⟨s, mem_stems s, List.mem_pair.mpr hm⟩

theorem length_lineageMembers : (lineageMembers lineage conf text suffix data).length = 9 := rfl

theorem nodup_lineageMembers : ((lineageMembers lineage conf text suffix data).map Member.name).Nodup := by
  have hnames : (lineageMembers lineage conf text suffix data).map Member.name =
      renewalName lineage :: stems.flatMap fun s => [archiveName lineage s (suffix s), liveName lineage s] := rfl
  rw [hnames, List.nodup_cons, List.nodup_flatMap]
  refine ⟨?_, ?_, ?_⟩
  · intro hmem
    obtain ⟨s, -, hs⟩ := List.mem_flatMap.mp hmem
    rcases List.mem_pair.mp hs with hs | hs
    · exact renewalName_ne_archiveName _ _ hs
    · exact renewalName_ne_liveName _ hs
  · intro s _
    rw [List.nodup_cons, List.mem_singleton]
    exact ⟨archiveName_ne_liveName _ _ _, List.nodup_singleton _⟩
  · have hstems : stems.Nodup := by decide
    refine hstems.imp fun {a b} hne => ?_
    show List.Disjoint _ _
    intro name ha hb
    rcases List.mem_pair.mp ha with rfl | rfl <;> rcases List.mem_pair.mp hb with hb | hb
    · exact hne (archiveName_inj hb)
    · exact archiveName_ne_liveName _ _ _ hb
    · exact archiveName_ne_liveName _ _ _ hb.symm
    · exact hne (liveName_inj hb)

/-- Nine members of distinct names, with those of the lineage among them, are no others. -/
theorem perm_lineageMembers {members : List Member} (hlength : members.length = 9)
    (hmem : ∀ m ∈ lineageMembers lineage conf text suffix data, m ∈ members) :
    members.Perm (lineageMembers lineage conf text suffix data) := by
  have hnodup : (lineageMembers lineage conf text suffix data).Nodup := .of_map _ nodup_lineageMembers
  have hsub : (lineageMembers lineage conf text suffix data).Subperm members := List.subperm_of_subset hnodup hmem
  refine (hsub.perm_of_length_le ?_).symm
  rw [hlength, length_lineageMembers]

end Lineage

/-! ## What the checks look up -/

theorem getmember_mem {members : List Member} {name : String} {m : Member}
    (h : getmember members name = .ok m) : m ∈ members ∧ m.name = name := by
  unfold getmember at h
  split at h
  · next hfind =>
    cases h
    refine ⟨List.mem_reverse.mp (List.mem_of_find?_eq_some hfind), ?_⟩
    simpa using List.find?_some hfind
  · cases h

/-- Among distinct names the member of a name is found. -/
theorem getmember_of_mem {members : List Member} (hnodup : (members.map Member.name).Nodup) {m : Member}
    (hm : m ∈ members) : getmember members m.name = .ok m := by
  cases hfind : members.reverse.find? (fun n => n.name = m.name) with
  | none =>
      have := List.find?_eq_none.mp hfind m (List.mem_reverse.mpr hm)
      simp at this
  | some n =>
      have hget : getmember members m.name = .ok n := by
        unfold getmember
        rw [hfind]
      obtain ⟨hn, hname⟩ := getmember_mem hget
      rw [hget, List.inj_on_of_nodup_map hnodup hn hm hname]

theorem linked_ok {members : List Member} (hnodup : (members.map Member.name).Nodup) {lineage : String}
    {stem : Stem} {data : List UInt8} : linked members lineage stem = .ok data ↔
      ∃ text suffix, Numbered lineage stem text suffix ∧ ⟨liveName lineage stem, .link text⟩ ∈ members ∧
        ⟨archiveName lineage stem suffix, .file data⟩ ∈ members ∧ 0 < data.length ∧ data.length ≤ 1024 * 1024 := by
  unfold linked
  constructor
  · intro h
    simp only [bind_eq_ok] at h
    obtain ⟨⟨name, content⟩, hlink, h⟩ := h
    obtain ⟨hmem, rfl⟩ := getmember_mem hlink
    cases content with
    | link text =>
        dsimp only at h
        simp only [bind_eq_ok, refuseIf_eq_ok, exists_const, Bool.or_eq_false_iff, Bool.not_eq_false'] at h
        obtain ⟨⟨hstart, hdigit⟩, ⟨name, content⟩, hitem, h⟩ := h
        obtain ⟨hmem', rfl⟩ := getmember_mem hitem
        cases content with
        | file found =>
            dsimp only at h
            simp only [bind_eq_ok, refuseIf_eq_ok, exists_const, Except.ok.injEq, Bool.not_eq_false',
              Bool.and_eq_true, decide_eq_true_eq] at h
            obtain ⟨⟨hpos, hle⟩, rfl⟩ := h
            exact ⟨text, _, linkSuffix_eq.mp ⟨hstart, hdigit, rfl⟩, hmem, hmem', hpos, hle⟩
        | link _ => cases h
        | other => cases h
    | file _ => cases h
    | other => cases h
  · rintro ⟨text, suffix, hnumbered, hlink, hfile, hpos, hle⟩
    obtain ⟨hstart, hdigit, hsuffix⟩ := linkSuffix_eq.mpr hnumbered
    rw [getmember_of_mem hnodup hlink]
    show (do
      refuseIf (!(linkPrefix lineage stem).isPrefixOf text.toList ||
        !Str.isdigit (linkSuffix lineage stem text)) InspectError.unexpectedLink
      let item ← getmember members (archiveName lineage stem (linkSuffix lineage stem text))
      _) = _
    rw [hstart, hsuffix, hdigit, getmember_of_mem hnodup hfile]
    simp [refuseIf, bind, Except.bind, hpos, hle]

theorem record_ok {m : Member} (h : m.content ≠ .other) : ∃ r, record m = .ok r := by
  unfold record
  cases hc : m.content with
  | link target => exact ⟨_, rfl⟩
  | file data => exact ⟨_, rfl⟩
  | other => exact absurd hc h

theorem archiveDigest_ok {T : FloatText} {members : List Member} (h : ∀ m ∈ members, m.content ≠ .other) :
    ∃ digest, archiveDigest T members = .ok digest := by
  have hrecords : ∀ m ∈ byName members, ∃ r, record m = .ok r := fun m hm =>
    record_ok (h m ((List.perm_insertionSort _ members).mem_iff.mp hm))
  obtain ⟨records, hrecords⟩ := mapM_returns.mpr hrecords
  unfold archiveDigest
  rw [hrecords]
  exact ⟨_, rfl⟩

/-! ## What is accepted -/

/-- An archive of a lineage, in any order of its members, with files of a size the check allows. -/
structure Accepted (members : List Member) (lineage : String) (conf : List UInt8) (text : Stem → String)
    (suffix : Stem → List Char) (data : Stem → List UInt8) : Prop where
  perm : members.Perm (lineageMembers lineage conf text suffix data)
  numbered : ∀ s, Numbered lineage s (text s) (suffix s)
  nonempty : ∀ s, 0 < (data s).length
  bounded : ∀ s, (data s).length ≤ 1024 * 1024

section Inspect

variable {T : FloatText} {Raw : Type} {tar : Tarfile Raw} {raw : Raw} {lineage : String}

theorem Accepted.nodup {members : List Member} {conf : List UInt8} {text : Stem → String}
    {suffix : Stem → List Char} {data : Stem → List UInt8}
    (h : Accepted members lineage conf text suffix data) : (members.map Member.name).Nodup :=
  (h.perm.map Member.name).nodup_iff.mpr nodup_lineageMembers

theorem Accepted.content {members : List Member} {conf : List UInt8} {text : Stem → String}
    {suffix : Stem → List Char} {data : Stem → List UInt8}
    (h : Accepted members lineage conf text suffix data) : ∀ m ∈ members, m.content ≠ .other := by
  intro m hm
  rcases mem_lineageMembers.mp (h.perm.mem_iff.mp hm) with rfl | ⟨s, rfl | rfl⟩
  all_goals exact fun hc => by cases hc

/-- **The checks of `inspect_archive`**: which archives pass, and the bytes of which members are kept. -/
theorem inspectMembers_ok {material : Material} {digest : String} :
    inspectMembers T tar raw lineage = .ok (material, digest) ↔
      tar.size raw ≤ 2 * 1024 * 1024 ∧ ∃ members, tar.read raw = some members ∧
        archiveDigest T members = .ok digest ∧
        ∃ conf text suffix, Accepted members lineage conf text suffix material.get := by
  unfold inspectMembers
  constructor
  · intro h
    simp only [bind_eq_ok, refuseIf_eq_ok, exists_const, decide_eq_false_iff_not, not_lt] at h
    obtain ⟨hsize, h⟩ := h
    refine ⟨hsize, ?_⟩
    cases hread : tar.read raw with
    | none => rw [hread] at h; cases h
    | some members =>
        rw [hread] at h
        dsimp only at h
        simp only [bind_eq_ok, refuseIf_eq_ok, exists_const, Bool.or_eq_false_iff, decide_eq_false_iff_not,
          not_not, Bool.not_eq_false', decide_eq_true_eq, Except.ok.injEq, Prod.mk.injEq] at h
        obtain ⟨⟨hlength, hnodup⟩, -, ⟨name, content⟩, hrenewal, hreg, cert, hcert, chain, hchain, fullchain,
          hfullchain, privkey, hprivkey, _, hdigest, rfl, rfl⟩ := h
        obtain ⟨hmem, rfl⟩ := getmember_mem hrenewal
        cases content with
        | link _ => cases hreg
        | other => cases hreg
        | file conf =>
            refine ⟨members, rfl, hdigest, conf, ?_⟩
            -- every stem has a link and a file
            have hall : ∀ s, ∃ text suffix, Numbered lineage s text suffix ∧
                ⟨liveName lineage s, .link text⟩ ∈ members ∧
                ⟨archiveName lineage s suffix, .file (Material.get ⟨cert, chain, fullchain, privkey⟩ s)⟩ ∈ members ∧
                0 < (Material.get ⟨cert, chain, fullchain, privkey⟩ s).length ∧
                (Material.get ⟨cert, chain, fullchain, privkey⟩ s).length ≤ 1024 * 1024 := by
              intro s
              cases s with
              | cert => exact (linked_ok hnodup).mp hcert
              | chain => exact (linked_ok hnodup).mp hchain
              | fullchain => exact (linked_ok hnodup).mp hfullchain
              | privkey => exact (linked_ok hnodup).mp hprivkey
            choose text suffix hnumbered hlive harchive hpos hle using hall
            refine ⟨text, suffix, perm_lineageMembers hlength ?_, hnumbered, hpos, hle⟩
            intro m hm
            rcases mem_lineageMembers.mp hm with rfl | ⟨s, rfl | rfl⟩
            · exact hmem
            · exact harchive s
            · exact hlive s
  · rintro ⟨hsize, members, hread, hdigest, conf, text, suffix, h⟩
    have hnodup := h.nodup
    have hmem : ∀ m ∈ lineageMembers lineage conf text suffix material.get, m ∈ members :=
      fun m hm => h.perm.mem_iff.mpr hm
    have hrenewal := hmem _ (mem_lineageMembers.mpr (.inl rfl))
    have hlinked : ∀ s, linked members lineage s = .ok (material.get s) := fun s =>
      (linked_ok hnodup).mpr ⟨text s, suffix s, h.numbered s, hmem _ (mem_lineageMembers.mpr (.inr ⟨s, .inr rfl⟩)),
        hmem _ (mem_lineageMembers.mpr (.inr ⟨s, .inl rfl⟩)), h.nonempty s, h.bounded s⟩
    have hlength : members.length = 9 := h.perm.length_eq
    rw [hread]
    simp only [bind_eq_ok, refuseIf_eq_ok, exists_const, decide_eq_false_iff_not, not_lt]
    refine ⟨hsize, ?_⟩
    simp only [hlength, hnodup, Bool.or_eq_false_iff, ne_eq, not_true_eq_false, decide_false, decide_true,
      Bool.not_true, true_and]
    refine ⟨?_, _, getmember_of_mem hnodup hrenewal, rfl, _, hlinked .cert, _, hlinked .chain, _,
      hlinked .fullchain, _, hlinked .privkey, _, hdigest, rfl⟩
    rw [Bool.not_eq_false', List.any_eq_true]
    exact ⟨_, hrenewal, decide_eq_true rfl⟩

end Inspect

end DevTls
end PickleInfra
