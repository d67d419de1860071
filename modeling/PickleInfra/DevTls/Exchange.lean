import PickleInfra.DevTls.Agreement

/-!
# `DevTls.Exchange` — an exported lineage is accepted, and an accepted archive is a lineage
-/

namespace PickleInfra
namespace DevTls

open Python Posix JsonText

/-! ## An export is accepted -/

section Exported

variable {T : FloatText} {Raw : Type} {tar : Tarfile Raw} {links : Nat} {t : Tree} {path root : List String}
  {lineage : String} {digits : Stem → List Char} {data : Stem → List UInt8}

/-- The bytes of the files of a lineage. -/
def materialOf (data : Stem → List UInt8) : Material := ⟨data .cert, data .chain, data .fullchain, data .privkey⟩

@[simp] theorem materialOf_get (data : Stem → List UInt8) : (materialOf data).get = data := by
  funext s
  cases s <;> rfl

/-- What is exported passes the checks, with the bytes of the linked files, if these are not too large. -/
theorem exported_accepted (hwalk : walk t links [] path = some root) (htree : CertbotTree t root lineage)
    (hdirect : DirectLinks t root lineage digits data) {raw : Raw}
    (h : archive tar links t path lineage = .ok raw) (hsmall : ∀ s, (data s).length ≤ 1024 * 1024) :
    ∃ digest, inspectMembers T tar raw lineage = .ok (materialOf data, digest) := by
  obtain ⟨-, -, conf, -, -, hdata, rfl, hsize⟩ := (archive_direct hwalk htree hdirect).mp h
  have haccepted : Accepted (lineageMembers lineage conf (fun s => linkText lineage s (digits s)) digits data)
      lineage conf (fun s => linkText lineage s (digits s)) digits (materialOf data).get := by
    rw [materialOf_get]
    exact ⟨.refl _, fun s => ⟨isdigit_of_all (hdirect.number s).1 (hdirect.number s).2, .inl rfl⟩,
      fun s => (hdata s).1, hsmall⟩
  obtain ⟨digest, hdigest⟩ := archiveDigest_ok (T := T) haccepted.content
  exact ⟨digest, inspectMembers_ok.mpr ⟨hsize, _, tar.read_write _, hdigest, conf, _, _, haccepted⟩⟩

/-- With the commands succeeding, `inspect_archive` returns. -/
theorem inspectArchive_of_members {raw : Raw} {material : Material} {digest : String}
    (h : inspectMembers T tar raw lineage = .ok (material, digest))
    {run : List String → List UInt8 → Option (List UInt8)} {pub host till : List UInt8}
    (hcert : run ["openssl", "x509", "-pubkey", "-noout"] material.cert = some pub)
    (hkey : run ["openssl", "pkey", "-pubout"] material.privkey = some pub)
    (hhost : run ["openssl", "x509", "-checkhost", lineage, "-noout"] material.cert = some host)
    (htill : run ["openssl", "x509", "-checkend", "86400", "-noout"] material.cert = some till) :
    inspectArchive T tar run raw lineage =
      .ok { certificateSha256 := sha256 material.cert, archiveSha256 := digest } := by
  unfold inspectArchive command
  simp only [h, bind, Except.bind, hcert, hkey, hhost, htill, refuseIf, ne_eq, not_true_eq_false, decide_false,
    Bool.false_eq_true, if_false]

end Exported

/-! ## An accepted archive is a lineage -/

/-- A link text that passes and ends in `.pem` is the name of the file with its number. -/
theorem Numbered.eq_linkText {lineage : String} {s : Stem} {text : String} {suffix : List Char}
    (h : Numbered lineage s text suffix) (hpem : ".pem".toList <:+ text.toList) :
    text = linkText lineage s suffix := by
  rcases h.2 with htext | htext
  · exact htext
  · -- a number does not end in `.pem`
    have hne : suffix ≠ [] := by
      rintro rfl
      exact absurd h.1 (by decide)
    obtain ⟨init, last, rfl⟩ := List.eq_nil_or_concat suffix |>.resolve_left hne
    obtain ⟨before, hbefore⟩ := hpem
    have hlast : last = 'm' := by
      have := congrArg List.getLast? (hbefore.trans htext)
      rw [List.concat_eq_append, ← List.append_assoc, List.getLast?_concat] at this
      have hm : (before ++ ".pem".toList).getLast? = some 'm' := by
        show (before ++ (['.', 'p', 'e'] ++ ['m'])).getLast? = _
        rw [← List.append_assoc, List.getLast?_concat]
      rw [hm] at this
      exact (Option.some.inj this).symm
    have hmem : 'm' ∈ init.concat last := by
      rw [hlast, List.concat_eq_append]
      exact List.mem_append_right _ (List.mem_singleton_self _)
    exact absurd hmem (not_mem_isdigit h.1 (by decide))

/-- **Export and restore check agree.** -/
theorem export_restore_agree {Raw : Type} (T : FloatText) (tar : Tarfile Raw) :
    (∀ links t path root lineage digits data raw, walk t links [] path = some root →
      CertbotTree t root lineage → DirectLinks t root lineage digits data →
      archive tar links t path lineage = .ok raw → (∀ s, (data s).length ≤ 1024 * 1024) →
      ∃ material digest, inspectMembers T tar raw lineage = .ok (material, digest) ∧ material.get = data ∧
        ∀ run pub host till, run ["openssl", "x509", "-pubkey", "-noout"] (data .cert) = some pub →
          run ["openssl", "pkey", "-pubout"] (data .privkey) = some pub →
          run ["openssl", "x509", "-checkhost", lineage, "-noout"] (data .cert) = some host →
          run ["openssl", "x509", "-checkend", "86400", "-noout"] (data .cert) = some till →
          inspectArchive T tar run raw lineage =
            .ok { certificateSha256 := sha256 (data .cert), archiveSha256 := digest }) ∧
    (∀ raw lineage material digest, inspectMembers T tar raw lineage = .ok (material, digest) →
      ∃ members conf text suffix, tar.read raw = some members ∧
        members.Perm (lineageMembers lineage conf text suffix material.get) ∧
        (Text.IsName lineage → ∀ s, ".pem".toList <:+ (text s).toList → ∀ n,
          walk (restored members) (n + 1) [] (livePath lineage s) = some (archivePath lineage s (suffix s)) ∧
          restored members (archivePath lineage s (suffix s)) = some (.file (material.get s)))) ∧
    ∀ raw raw' lineage lineage' members members' material material' digest digest',
      inspectMembers T tar raw lineage = .ok (material, digest) →
      inspectMembers T tar raw' lineage' = .ok (material', digest') →
      tar.read raw = some members → tar.read raw' = some members' → NoCollision T members members' →
      (digest = digest' ↔ ∀ m, m ∈ members ↔ m ∈ members') := by
  refine ⟨?_, ?_, ?_⟩
  · intro links t path root lineage digits data raw hwalk htree hdirect h hsmall
    obtain ⟨digest, hdigest⟩ := exported_accepted (T := T) hwalk htree hdirect h hsmall
    exact ⟨_, digest, hdigest, materialOf_get data, fun run pub host till hcert hkey hhost htill =>
      inspectArchive_of_members hdigest hcert hkey hhost htill⟩
  · intro raw lineage material digest h
    obtain ⟨-, members, hread, -, conf, text, suffix, haccepted⟩ := inspectMembers_ok.mp h
    refine ⟨members, conf, text, suffix, hread, haccepted.perm, fun hname s hpem n => ?_⟩
    exact haccepted.restored_walk hname ((haccepted.numbered s).eq_linkText hpem) n
  · intro raw raw' lineage lineage' members members' material material' digest digest' h h' hread hread' hcollision
    obtain ⟨-, _, hread₁, hdigest, _, _, _, haccepted⟩ := inspectMembers_ok.mp h
    obtain ⟨-, _, hread₂, hdigest', _, _, _, haccepted'⟩ := inspectMembers_ok.mp h'
    rw [hread] at hread₁
    rw [hread'] at hread₂
    cases hread₁
    cases hread₂
    exact digest_iff haccepted.nodup haccepted'.nodup hdigest hdigest' hcollision

/-! ## Examples -/

/-- Of an accepted archive with the members of a lineage, the bytes are those of its files. -/
theorem Accepted.data_eq {lineage : String} {conf conf' : List UInt8} {text text' : Stem → String}
    {suffix suffix' : Stem → List Char} {data data' : Stem → List UInt8}
    (h : Accepted (lineageMembers lineage conf text suffix data) lineage conf' text' suffix' data') :
    data = data' := by
  funext s
  have hmem : ⟨archiveName lineage s (suffix' s), .file (data' s)⟩ ∈ lineageMembers lineage conf text suffix data :=
    h.perm.mem_iff.mpr (mem_lineageMembers.mpr (.inr ⟨s, .inl rfl⟩))
  rcases mem_lineageMembers.mp hmem with heq | ⟨s', heq | heq⟩
  · exact absurd (congrArg Member.name heq).symm (renewalName_ne_archiveName s _)
  · obtain rfl := archiveName_inj (congrArg Member.name heq)
    injection heq with _ hcontent
    injection hcontent with hdata
    exact hdata.symm
  · exact absurd (congrArg Member.name heq) (archiveName_ne_liveName s s' _)

/-- An archive of 512-byte blocks, filled up to a record of twenty. -/
def blockTar : Tarfile (List Member) where
  write := id
  read := some
  size members :=
    ((members.map fun m => match m.content with
      | .file data => 512 + (data.length + 511) / 512 * 512
      | _          => 512).sum + 1024 + 10239) / 10240 * 10240
  read_write _ := rfl

/-- The tree of the lineage `a`, with one number for all files. -/
def oneLineage (data : Stem → List UInt8) : Tree := fun path =>
  if path ∈ [["live"], ["live", "a"], ["archive"], ["archive", "a"], ["renewal"]] then some .dir
  else if path = ["renewal", "a.conf"] then some (.file [0])
  else match stems.find? (fun s => livePath "a" s = path), stems.find? (fun s => archivePath "a" s ['1'] = path) with
    | some s, _    => some (.link (linkText "a" s ['1']))
    | none, some s => some (.file (data s))
    | none, none   => none

section OneLineage

variable (data : Stem → List UInt8)

theorem certbotTree_oneLineage : CertbotTree (oneLineage data) [] "a" where
  base := .inl rfl
  name := ⟨by decide, by decide, by decide, by decide⟩
  live := rfl
  liveLineage := rfl
  archive := rfl
  archiveLineage := rfl

theorem directLinks_oneLineage : DirectLinks (oneLineage data) [] "a" (fun _ => ['1']) data where
  number _ := ⟨by decide, by decide⟩
  link s := by cases s <;> rfl
  file s := by cases s <;> rfl

/-- The archive of the lineage. -/
def oneArchive : List Member :=
  lineageMembers "a" [0] (fun s => linkText "a" s ['1']) (fun _ => ['1']) data

theorem archive_oneLineage (hdata : ∀ s, 0 < (data s).length ∧ (data s).length ≤ maximum)
    (hsize : blockTar.size (oneArchive data) ≤ maximum) :
    archive blockTar 1 (oneLineage data) [] "a" = .ok (oneArchive data) :=
  (archive_direct rfl (certbotTree_oneLineage data) (directLinks_oneLineage data)).mpr
    ⟨by decide, by decide, [0], rfl, ⟨by decide, by decide⟩, hdata, rfl, hsize⟩

end OneLineage

/-- Four small files. -/
def smallData : Stem → List UInt8 := fun _ => [0]

theorem length_smallData (s : Stem) : (smallData s).length = 1 := rfl

/-- The size of an archive depends on the lengths of its files. -/
theorem size_lineageMembers (lineage : String) (text : Stem → String) (suffix : Stem → List Char)
    (data : Stem → List UInt8) : blockTar.size (lineageMembers lineage [0] text suffix data) =
      (1024 + (stems.map fun s => 1024 + ((data s).length + 511) / 512 * 512).sum + 1024 + 10239) / 10240 * 10240 := by
  show ((1024 + _) + 1024 + 10239) / 10240 * 10240 = _
  simp only [stems, List.flatMap_cons, List.flatMap_nil, List.map_cons, List.map_nil, List.sum_cons, List.sum_nil,
    List.cons_append, List.nil_append, List.foldr_cons, List.foldr_nil]
  omega

theorem export_restore_agree_small :
    (∃ material digest, inspectMembers zeroText blockTar (oneArchive smallData) "a" = .ok (material, digest) ∧
      material.get = smallData) ∧
    walk (restored (oneArchive smallData)) 1 [] (livePath "a" .cert) = some (archivePath "a" .cert ['1']) ∧
    ∃ material digest, inspectMembers zeroText blockTar (oneArchive smallData).reverse "a" = .ok (material, digest) ∧
      inspectMembers zeroText blockTar (oneArchive smallData) "a" = .ok (material, digest) := by
  obtain ⟨hexport, hrestore, hdigest⟩ := export_restore_agree zeroText blockTar
  have harchive := archive_oneLineage smallData (fun s => by rw [length_smallData]; decide) (by decide +kernel)
  obtain ⟨material, digest, hmembers, hmaterial, -⟩ := hexport 1 _ [] [] "a" _ smallData _ rfl
    (certbotTree_oneLineage smallData) (directLinks_oneLineage smallData) harchive (fun s => by rw [length_smallData]; decide)
  have hsize := (inspectMembers_ok.mp hmembers).1
  obtain ⟨-, _, hread, hdigested, conf, text, suffix, haccepted⟩ := inspectMembers_ok.mp hmembers
  cases hread
  -- the same members in another order
  have hperm : (oneArchive smallData).reverse.Perm (oneArchive smallData) := List.reverse_perm _
  have hreversed : Accepted (oneArchive smallData).reverse "a" conf text suffix material.get :=
    { haccepted with perm := hperm.trans haccepted.perm }
  obtain ⟨digest', hdigested'⟩ := archiveDigest_ok (T := zeroText) hreversed.content
  have hmembers' : inspectMembers zeroText blockTar (oneArchive smallData).reverse "a" = .ok (material, digest') :=
    inspectMembers_ok.mpr ⟨by decide +kernel, _, rfl, hdigested', conf, text, suffix, hreversed⟩
  have hsame : ∀ m, m ∈ oneArchive smallData ↔ m ∈ (oneArchive smallData).reverse := fun m =>
    List.mem_reverse.symm
  have hcollision : NoCollision zeroText (oneArchive smallData) (oneArchive smallData).reverse := by
    have hfile : ∀ m ∈ oneArchive smallData, ∀ x, m.content = .file x → x = [0] := by
      intro m hm x hx
      rcases mem_lineageMembers.mp hm with rfl | ⟨s, rfl | rfl⟩ <;> cases hx <;> rfl
    refine ⟨fun m hm m' hm' x y hx hy _ => ?_, fun rs rs' hrs hrs' _ => ?_⟩
    · rw [hfile m hm x hx, hfile m' ((hsame m').mpr hm') y hy]
    · rw [byName_congr haccepted.nodup hreversed.nodup hsame, hrs'] at hrs
      rw [Except.ok.inj hrs]
  have heq : digest = digest' := (hdigest _ _ _ _ _ _ _ _ _ _ hmembers hmembers' rfl rfl hcollision).mpr hsame
  refine ⟨⟨material, digest, hmembers, hmaterial⟩, ?_, material, digest, heq ▸ hmembers', hmembers⟩
  decide +kernel

/-- A file of more than a mebibyte is exported and then refused, a link text without `.pem` is accepted and
    leads nowhere in the restored tree, and so does every link of a lineage `..`. -/
theorem export_restore_differ :
    (∃ data, DirectLinks (oneLineage data) [] "a" (fun _ => ['1']) data ∧ CertbotTree (oneLineage data) [] "a" ∧
      ∃ raw, archive blockTar 1 (oneLineage data) [] "a" = .ok raw ∧
        ∀ r, inspectMembers zeroText blockTar raw "a" ≠ .ok r) ∧
    (∃ raw material digest, inspectMembers zeroText blockTar raw "a" = .ok (material, digest) ∧
      walk (restored raw) 40 [] (livePath "a" .cert) = none) ∧
    ∃ raw material digest, inspectMembers zeroText blockTar raw ".." = .ok (material, digest) ∧
      ∀ s, walk (restored raw) 40 [] (livePath ".." s) = none := by
  have haccepted : ∀ (lineage : String) (text : Stem → String), (∀ s, Numbered lineage s (text s) ['1']) →
      ∃ digest, inspectMembers zeroText blockTar (lineageMembers lineage [0] text (fun _ => ['1']) smallData)
        lineage = .ok (materialOf smallData, digest) := by
    intro lineage text hnumbered
    have h : Accepted (lineageMembers lineage [0] text (fun _ => ['1']) smallData) lineage [0] text
        (fun _ => ['1']) (materialOf smallData).get := by
      rw [materialOf_get]
      exact ⟨.refl _, hnumbered, fun s => by rw [length_smallData]; decide,
        fun s => by rw [length_smallData]; decide⟩
    obtain ⟨digest, hdigest⟩ := archiveDigest_ok (T := zeroText) h.content
    have hsize : blockTar.size (lineageMembers lineage [0] text (fun _ => ['1']) smallData) ≤ maximum := by
      rw [size_lineageMembers]
      decide
    exact ⟨digest, inspectMembers_ok.mpr ⟨hsize, _, rfl, hdigest, _, _, _, h⟩⟩
  refine ⟨?_, ?_, ?_⟩
  · let data : Stem → List UInt8 := fun s =>
      if s = .fullchain then List.replicate (1024 * 1024 + 1) 0 else [0]
    have hdata : ∀ s, 0 < (data s).length ∧ (data s).length ≤ maximum := by
      intro s
      by_cases hs : s = .fullchain
      · have hlength : (data s).length = 1024 * 1024 + 1 := by
          show (if s = .fullchain then List.replicate (1024 * 1024 + 1) (0 : UInt8) else [0]).length = _
          rw [if_pos hs, List.length_replicate]
        rw [hlength]
        exact ⟨by decide, by decide⟩
      · have hsmall : data s = [0] := if_neg hs
        rw [hsmall]
        exact ⟨by decide, by decide⟩
    have hfullchain : (data .fullchain).length = 1024 * 1024 + 1 := List.length_replicate
    have hsize : blockTar.size (oneArchive data) ≤ maximum := by
      unfold oneArchive
      rw [size_lineageMembers]
      simp only [stems, List.map_cons, List.map_nil, List.sum_cons, List.sum_nil, hfullchain]
      decide
    refine ⟨data, directLinks_oneLineage data, certbotTree_oneLineage data, _,
      archive_oneLineage data hdata hsize, fun r h => ?_⟩
    obtain ⟨-, _, hread, -, conf, text, suffix, hr⟩ := inspectMembers_ok.mp h
    cases hread
    have hbounded := hr.bounded .fullchain
    rw [← hr.data_eq, hfullchain] at hbounded
    exact absurd hbounded (by decide)
  · obtain ⟨digest, h⟩ := haccepted "a" (fun s => "../../archive/a/" ++ s.text ++ "1") (fun s =>
      ⟨by decide, .inr (by cases s <;> decide)⟩)
    exact ⟨_, _, digest, h, by decide +kernel⟩
  · obtain ⟨digest, h⟩ := haccepted ".." (fun s => linkText ".." s ['1']) (fun s => ⟨by decide, .inl rfl⟩)
    exact ⟨_, _, digest, h, fun s => by cases s <;> decide +kernel⟩

end DevTls
end PickleInfra
