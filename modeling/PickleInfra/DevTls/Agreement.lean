import PickleInfra.DevTls.Members

/-!
# `DevTls.Agreement` — the export and the restore check agree

What `archive` writes passes the checks of `inspect_archive` (`exported_accepted`), what passes them is a
tree whose live links lead to the files that were checked (`restored_walk`), and the digest names the
members whatever their order (`digest_iff`). The two programs differ on large files, and a link text without
`.pem` is not noticed.
-/

namespace PickleInfra
namespace DevTls

open Python Posix

/-! ## The digest -/

section Digest

variable {T : FloatText}

theorem encode_inj {a b : List Char} (h : Utf8.encode a = Utf8.encode b) : a = b := by
  have ha := Utf8.fromUTF8?_eq.mpr (rfl : Utf8.encode a = Utf8.encode a)
  rw [h, Utf8.fromUTF8?_eq.mpr rfl] at ha
  exact (String.ofList_injective (Option.some.inj ha)).symm

/-- A record is a list of texts. -/
theorem record_valid {m : Member} {r : Json} (h : record m = .ok r) : JsonText.Valid T r := by
  have htexts : ∀ texts : List String, JsonText.Valid T (.list (texts.map Json.str)) := by
    intro texts
    rw [JsonText.valid_list]
    intro x hx
    obtain ⟨s, -, rfl⟩ := List.mem_map.mp hx
    rw [JsonText.Valid]
    trivial
  unfold record at h
  split at h
  · cases h
    exact htexts [_, "link", _]
  · cases h
    exact htexts [_, "file", _]
  · cases h

theorem recordsBytes_inj {rs rs' : List Json} (hrs : ∀ r ∈ rs, JsonText.Valid T r)
    (hrs' : ∀ r ∈ rs', JsonText.Valid T r) (h : recordsBytes T rs = recordsBytes T rs') : rs = rs' := by
  have hlist := JsonText.dumpsAscii_inj (JsonText.valid_list.mpr hrs) (JsonText.valid_list.mpr hrs') (encode_inj h)
  cases hlist
  rfl

/-- Members of one record are the same, unless the digests of their bytes collide. -/
theorem record_inj {m m' : Member} {r : Json} (hm : record m = .ok r) (hm' : record m' = .ok r)
    (hcollision : ∀ x y, m.content = .file x → m'.content = .file y → sha256 x = sha256 y → x = y) : m = m' := by
  obtain ⟨name, content⟩ := m
  obtain ⟨name', content'⟩ := m'
  rw [← hm] at hm'
  cases content with
  | other => cases hm
  | link target =>
      cases content' with
      | other => cases hm'
      | link target' =>
          simp only [record, Except.ok.injEq, Json.list.injEq, List.cons.injEq, Json.str.injEq] at hm'
          obtain ⟨rfl, -, rfl, -⟩ := hm'
          rfl
      | file data' =>
          simp only [record, Except.ok.injEq, Json.list.injEq, List.cons.injEq, Json.str.injEq] at hm'
          exact absurd hm'.2.1 (by decide)
  | file data =>
      cases content' with
      | other => cases hm'
      | link target' =>
          simp only [record, Except.ok.injEq, Json.list.injEq, List.cons.injEq, Json.str.injEq] at hm'
          exact absurd hm'.2.1 (by decide)
      | file data' =>
          simp only [record, Except.ok.injEq, Json.list.injEq, List.cons.injEq, Json.str.injEq] at hm'
          obtain ⟨rfl, -, hdata, -⟩ := hm'
          rw [hcollision data data' rfl rfl hdata.symm]

/-- The digests of the two archives collide nowhere: neither those of two files, nor the two that are
    compared in the end. -/
structure NoCollision (T : FloatText) (members members' : List Member) : Prop where
  files : ∀ m ∈ members, ∀ m' ∈ members', ∀ x y, m.content = .file x → m'.content = .file y →
    sha256 x = sha256 y → x = y
  records : ∀ rs rs', (byName members).mapM record = .ok rs → (byName members').mapM record = .ok rs' →
    sha256 (recordsBytes T rs) = sha256 (recordsBytes T rs') → recordsBytes T rs = recordsBytes T rs'

/-- The members of one archive are among those of the other. -/
theorem subset_of_records {members members' : List Member} {rs : List Json}
    (hrs : (byName members).mapM record = .ok rs) (hrs' : (byName members').mapM record = .ok rs)
    (hcollision : ∀ m ∈ members, ∀ m' ∈ members', ∀ x y, m.content = .file x → m'.content = .file y →
      sha256 x = sha256 y → x = y) : ∀ m ∈ members, m ∈ members' := by
  intro m hm
  obtain ⟨r, hr, hrecord⟩ := forall₂_left (mapM_eq_ok.mp hrs) m ((List.perm_insertionSort _ members).mem_iff.mpr hm)
  obtain ⟨m', hm', hrecord'⟩ := forall₂_right (mapM_eq_ok.mp hrs') r hr
  have hmem' : m' ∈ members' := (List.perm_insertionSort _ members').mem_iff.mp hm'
  have heq : m = m' := record_inj hrecord hrecord' (hcollision m hm m' hmem')
  rwa [heq]

/-- Members of distinct names are sorted the same, whatever their order was. -/
theorem byName_congr {members members' : List Member} (hnodup : (members.map Member.name).Nodup)
    (hnodup' : (members'.map Member.name).Nodup) (h : ∀ m, m ∈ members ↔ m ∈ members') :
    byName members = byName members' := by
  have hperm : members.Perm members' := (List.perm_ext_iff_of_nodup (.of_map _ hnodup) (.of_map _ hnodup')).mpr h
  have hsorted : (byName members).Perm (byName members') :=
    (List.perm_insertionSort _ members).trans (hperm.trans (List.perm_insertionSort _ members').symm)
  refine List.Perm.eq_of_pairwise ?_ (List.pairwise_insertionSort _ members)
    (List.pairwise_insertionSort _ members') hsorted
  intro a b ha hb hab hba
  have ha : a ∈ members := (List.perm_insertionSort _ members).mem_iff.mp ha
  have hb : b ∈ members := (h b).mpr ((List.perm_insertionSort _ members').mem_iff.mp hb)
  exact List.inj_on_of_nodup_map hnodup ha hb (le_antisymm hab hba)

theorem digest_iff {members members' : List Member} {digest digest' : String}
    (hnodup : (members.map Member.name).Nodup) (hnodup' : (members'.map Member.name).Nodup)
    (hdigest : archiveDigest T members = .ok digest) (hdigest' : archiveDigest T members' = .ok digest')
    (hcollision : NoCollision T members members') :
    digest = digest' ↔ ∀ m, m ∈ members ↔ m ∈ members' := by
  unfold archiveDigest at hdigest hdigest'
  simp only [bind_eq_ok, Except.ok.injEq] at hdigest hdigest'
  obtain ⟨rs, hrs, rfl⟩ := hdigest
  obtain ⟨rs', hrs', rfl⟩ := hdigest'
  constructor
  · intro h
    have hvalid : ∀ {ms : List Member} {rs : List Json}, (byName ms).mapM record = .ok rs →
        ∀ r ∈ rs, JsonText.Valid T r := by
      intro ms rs hrs r hr
      obtain ⟨m, -, hm⟩ := forall₂_right (mapM_eq_ok.mp hrs) r hr
      exact record_valid hm
    have heq := recordsBytes_inj (hvalid hrs) (hvalid hrs') (hcollision.records rs rs' hrs hrs' h)
    subst heq
    exact fun m => ⟨subset_of_records hrs hrs' hcollision.files m, subset_of_records hrs' hrs
      (fun m hm m' hm' x y hx hy hxy => (hcollision.files m' hm' m hm y x hy hx hxy.symm).symm) m⟩
  · intro h
    rw [byName_congr hnodup hnodup' h, hrs'] at hrs
    rw [Except.ok.inj hrs]

end Digest

/-! ## The restored tree -/

/-- The tree an archive is restored to: its members, and the directories they are in. -/
def restored (members : List Member) : Tree := fun path =>
  match members.find? (fun m => Text.parts m.name = path) with
  | some m =>
    match m.content with
    | .link text => some (.link text)
    | .file data => some (.file data)
    | .other     => none
  | none   => if members.any (fun m => path.isPrefixOf (Text.parts m.name)) then some .dir else none

/-- The names of an archive file and of a live link below the root. -/
def archivePath (lineage : String) (stem : Stem) (suffix : List Char) : List String :=
  ["archive", lineage, stem.text ++ String.ofList suffix ++ ".pem"]

def livePath (lineage : String) (stem : Stem) : List String := ["live", lineage, stem.text ++ ".pem"]

section Paths

variable {lineage : String}

theorem isName_pem {name : String} (hhead : ∃ c cs, name.toList = c :: cs ∧ c ≠ '.') (hslash : '/' ∉ name.toList) :
    Text.IsName name := by
  obtain ⟨c, cs, hname, hc⟩ := hhead
  refine ⟨?_, hslash, ?_, ?_⟩
  · rintro rfl
    cases hname
  · rintro rfl
    cases hname
    exact hc rfl
  · rintro rfl
    cases hname
    exact hc rfl

theorem stem_head (s : Stem) : ∃ c cs, s.text.toList = c :: cs ∧ c ≠ '.' := by
  cases s
  · exact ⟨'c', _, rfl, by decide⟩
  · exact ⟨'c', _, rfl, by decide⟩
  · exact ⟨'f', _, rfl, by decide⟩
  · exact ⟨'p', _, rfl, by decide⟩

theorem isName_numbered (s : Stem) {suffix : List Char} (hslash : '/' ∉ suffix) :
    Text.IsName (s.text ++ String.ofList suffix ++ ".pem") := by
  obtain ⟨c, cs, hstem, hc⟩ := stem_head s
  apply isName_pem
  · refine ⟨c, cs ++ (suffix ++ ".pem".toList), ?_, hc⟩
    rw [String.toList_append, String.toList_append, String.toList_ofList, hstem, List.append_assoc,
      List.cons_append]
  · rw [String.toList_append, String.toList_append, String.toList_ofList, List.mem_append, List.mem_append,
      not_or, not_or]
    refine ⟨⟨?_, hslash⟩, by decide⟩
    cases s <;> decide

theorem isName_stem (s : Stem) : Text.IsName (s.text ++ ".pem") := by
  have h := isName_numbered s (List.not_mem_nil : '/' ∉ [])
  have heq : s.text ++ String.ofList [] ++ ".pem" = s.text ++ ".pem" := by cases s <;> rfl
  rwa [heq] at h

theorem isName_conf (h : Text.IsName lineage) : Text.IsName (lineage ++ ".conf") := by
  have htoList : (lineage ++ ".conf").toList = lineage.toList ++ ['.', 'c', 'o', 'n', 'f'] := by
    rw [String.toList_append]
    rfl
  have hlength : 5 ≤ (lineage ++ ".conf").toList.length := by
    rw [htoList, List.length_append]
    exact Nat.le_add_left 5 _
  refine ⟨?_, ?_, ?_, ?_⟩
  · rintro heq
    rw [heq] at hlength
    exact absurd hlength (by decide)
  · rw [htoList, List.mem_append, not_or]
    exact ⟨h.noSlash, by decide⟩
  · rintro heq
    rw [heq] at hlength
    exact absurd hlength (by decide)
  · rintro heq
    rw [heq] at hlength
    exact absurd hlength (by decide)

theorem parts_renewalName (h : Text.IsName lineage) :
    Text.parts (renewalName lineage) = ["renewal", lineage ++ ".conf"] := by
  have heq : renewalName lineage = "renewal" ++ "/" ++ (lineage ++ ".conf") := by
    unfold renewalName
    rw [← String.append_assoc]
    rfl
  rw [heq, Text.parts_append, (isName_conf h).parts]
  rfl

theorem parts_archiveName (h : Text.IsName lineage) (s : Stem) {suffix : List Char} (hslash : '/' ∉ suffix) :
    Text.parts (archiveName lineage s suffix) = archivePath lineage s suffix := by
  have heq : archiveName lineage s suffix =
      "archive" ++ "/" ++ lineage ++ "/" ++ (s.text ++ String.ofList suffix ++ ".pem") := rfl
  rw [heq, Text.parts_append, Text.parts_append, (isName_numbered s hslash).parts, h.parts]
  rfl

theorem parts_liveName (h : Text.IsName lineage) (s : Stem) :
    Text.parts (liveName lineage s) = livePath lineage s := by
  have heq : liveName lineage s = "live" ++ "/" ++ lineage ++ "/" ++ (s.text ++ ".pem") := by
    unfold liveName
    rw [← String.append_assoc]
    rfl
  rw [heq, Text.parts_append, Text.parts_append, (isName_stem s).parts, h.parts]
  rfl

/-- A live link goes up twice, and down to the archive file. -/
theorem parts_linkText (h : Text.IsName lineage) (s : Stem) {suffix : List Char} (hslash : '/' ∉ suffix) :
    Text.parts (linkText lineage s suffix) = ".." :: ".." :: archivePath lineage s suffix := by
  have heq : linkText lineage s suffix =
      "../../archive" ++ "/" ++ lineage ++ "/" ++ (s.text ++ String.ofList suffix ++ ".pem") := rfl
  have hup : Text.parts "../../archive" = ["..", "..", "archive"] := by decide +kernel
  rw [heq, Text.parts_append, Text.parts_append, (isName_numbered s hslash).parts, h.parts, hup]
  rfl

theorem linkText_relative (s : Stem) (suffix : List Char) :
    (Text.Path.ofString (linkText lineage s suffix)).isAbsolute = false := by
  have hdot : ∃ cs, (linkText lineage s suffix).toList = '.' :: cs := by
    rw [linkText_toList]
    unfold linkPrefix
    rw [String.toList_append, String.toList_append, String.toList_append]
    exact ⟨_, rfl⟩
  obtain ⟨cs, hcs⟩ := hdot
  unfold Text.Path.isAbsolute Text.Path.ofString
  rw [hcs]
  rfl

end Paths

/-! ## Following a live link -/

/-- The directories of a lineage below the root: none of them is a link. -/
structure CertbotTree (t : Tree) (root : List String) (lineage : String) : Prop where
  base : root = [] ∨ t root = some .dir
  name : Text.IsName lineage
  live : t (root ++ ["live"]) = some .dir
  liveLineage : t (root ++ ["live", lineage]) = some .dir
  archive : t (root ++ ["archive"]) = some .dir
  archiveLineage : t (root ++ ["archive", lineage]) = some .dir

section Tree

variable {t : Tree} {root : List String} {lineage : String}

theorem dirs_two {a b : String} (ha : a ≠ "..") (hb : b ≠ "..") (h : t (root ++ [a]) = some .dir)
    (h' : t (root ++ [a, b]) = some .dir) : Dirs t root [a, b] := by
  refine ⟨ha, h, hb, ?_, trivial⟩
  rwa [List.append_assoc]

theorem CertbotTree.liveDirs (h : CertbotTree t root lineage) : Dirs t root ["live", lineage] :=
  dirs_two (by decide) h.name.notUp h.live h.liveLineage

theorem CertbotTree.archiveDirs (h : CertbotTree t root lineage) : Dirs t root ["archive", lineage] :=
  dirs_two (by decide) h.name.notUp h.archive h.archiveLineage

/-- A live link that names an archive file is resolved to it. -/
theorem CertbotTree.walk_live (h : CertbotTree t root lineage) (hroot : Dirs t [] root) {s : Stem}
    {suffix : List Char} {data : List UInt8} (hslash : '/' ∉ suffix)
    (hlink : t (root ++ livePath lineage s) = some (.link (linkText lineage s suffix)))
    (hfile : t (root ++ archivePath lineage s suffix) = some (.file data)) (n : Nat) :
    walk t (n + 1) [] (root ++ livePath lineage s) = some (root ++ archivePath lineage s suffix) := by
  have hlive : root ++ livePath lineage s = (root ++ ["live", lineage]) ++ [s.text ++ ".pem"] := by
    rw [List.append_assoc]
    rfl
  have harchive : root ++ archivePath lineage s suffix =
      (root ++ ["archive", lineage]) ++ [s.text ++ String.ofList suffix ++ ".pem"] := by
    rw [List.append_assoc]
    rfl
  have hup : (root ++ ["live", lineage]).dropLast.dropLast = root := by
    have hone : root ++ ["live", lineage] = (root ++ ["live"]) ++ [lineage] := by
      rw [List.append_assoc]
      rfl
    rw [hone, List.dropLast_concat, List.dropLast_concat]
  rw [harchive] at hfile
  rw [hlive] at hlink ⊢
  rw [walk_dirs (hroot.append h.liveDirs), List.nil_append,
    walk_link (isName_stem s).notUp hlink (linkText_relative s suffix), List.append_nil,
    parts_linkText h.name s hslash, walk_up, walk_up, hup]
  show walk t n root (["archive", lineage] ++ [s.text ++ String.ofList suffix ++ ".pem"]) = _
  rw [walk_dirs h.archiveDirs, walk_file (isName_numbered s hslash).notUp hfile, harchive]

end Tree

section Restored

variable {members : List Member} {lineage : String} {conf : List UInt8} {text : Stem → String}
  {suffix : Stem → List Char} {data : Stem → List UInt8}

theorem Accepted.noSlash (h : Accepted members lineage conf text suffix data) (s : Stem) : '/' ∉ suffix s :=
  not_mem_isdigit (h.numbered s).1 (by decide)

/-- The names of the members are read back from their parts. -/
theorem Accepted.name_eq (h : Accepted members lineage conf text suffix data) (hname : Text.IsName lineage) :
    ∀ m ∈ members, m.name = "/".intercalate (Text.parts m.name) := by
  intro m hm
  rcases mem_lineageMembers.mp (h.perm.mem_iff.mp hm) with rfl | ⟨s, rfl | rfl⟩
  · show renewalName lineage = _
    rw [parts_renewalName hname]
    show renewalName lineage = "renewal" ++ "/" ++ (lineage ++ ".conf")
    rw [← String.append_assoc]
    rfl
  · show archiveName lineage s (suffix s) = _
    rw [parts_archiveName hname s (h.noSlash s)]
    rfl
  · show liveName lineage s = _
    rw [parts_liveName hname s]
    show liveName lineage s = "live" ++ "/" ++ lineage ++ "/" ++ (s.text ++ ".pem")
    rw [← String.append_assoc]
    rfl

/-- A member is found in the restored tree at its path. -/
theorem Accepted.restored_member (h : Accepted members lineage conf text suffix data) (hname : Text.IsName lineage)
    {m : Member} (hm : m ∈ members) :
    members.find? (fun n => Text.parts n.name = Text.parts m.name) = some m := by
  cases hfind : members.find? (fun n => Text.parts n.name = Text.parts m.name) with
  | none =>
      have := List.find?_eq_none.mp hfind m hm
      simp at this
  | some n =>
      have hn := List.mem_of_find?_eq_some hfind
      have hparts : Text.parts n.name = Text.parts m.name := by simpa using List.find?_some hfind
      have hnames : n.name = m.name := by
        rw [h.name_eq hname n hn, h.name_eq hname m hm, hparts]
      rw [List.inj_on_of_nodup_map h.nodup hn hm hnames]

/-- A path that is the beginning of a member's, but no member's own, is a directory. -/
theorem Accepted.restored_dir (h : Accepted members lineage conf text suffix data) (hname : Text.IsName lineage)
    {path : List String} (hstart : ∃ m ∈ members, path <+: Text.parts m.name)
    (hshort : path.length < 2 ∨ path.length = 2 ∧ path.head? ≠ some "renewal") :
    restored members path = some .dir := by
  have hnone : members.find? (fun m => Text.parts m.name = path) = none := by
    rw [List.find?_eq_none]
    intro m hm
    rw [decide_eq_true_eq]
    rintro rfl
    rcases mem_lineageMembers.mp (h.perm.mem_iff.mp hm) with rfl | ⟨s, rfl | rfl⟩
    · dsimp only at hshort
      rw [parts_renewalName hname] at hshort
      rcases hshort with hlt | ⟨-, hhead⟩
      · exact absurd hlt (by simp)
      · exact hhead rfl
    · dsimp only at hshort
      rw [parts_archiveName hname s (h.noSlash s)] at hshort
      rcases hshort with hlt | ⟨heq, -⟩
      · exact absurd hlt (by simp [archivePath])
      · exact absurd heq (by simp [archivePath])
    · dsimp only at hshort
      rw [parts_liveName hname s] at hshort
      rcases hshort with hlt | ⟨heq, -⟩
      · exact absurd hlt (by simp [livePath])
      · exact absurd heq (by simp [livePath])
  obtain ⟨m, hm, hpre⟩ := hstart
  unfold restored
  rw [hnone]
  exact if_pos (List.any_eq_true.mpr ⟨m, hm, List.isPrefixOf_iff_prefix.mpr hpre⟩)

theorem Accepted.restored_tree (h : Accepted members lineage conf text suffix data)
    (hname : Text.IsName lineage) : CertbotTree (restored members) [] lineage := by
  have hlive : ⟨liveName lineage .cert, .link (text .cert)⟩ ∈ members :=
    h.perm.mem_iff.mpr (mem_lineageMembers.mpr (.inr ⟨.cert, .inr rfl⟩))
  have harchive : ⟨archiveName lineage .cert (suffix .cert), .file (data .cert)⟩ ∈ members :=
    h.perm.mem_iff.mpr (mem_lineageMembers.mpr (.inr ⟨.cert, .inl rfl⟩))
  have hlivePath := parts_liveName hname .cert
  have harchivePath := parts_archiveName hname .cert (h.noSlash .cert)
  refine ⟨.inl rfl, hname, ?_, ?_, ?_, ?_⟩
  · refine h.restored_dir hname ⟨_, hlive, ?_⟩ (.inl (by decide))
    rw [hlivePath]
    exact ⟨_, rfl⟩
  · refine h.restored_dir hname ⟨_, hlive, ?_⟩ (.inr ⟨rfl, fun hhead => ?_⟩)
    · rw [hlivePath]
      exact ⟨_, rfl⟩
    · exact absurd (Option.some.inj hhead) (by decide)
  · refine h.restored_dir hname ⟨_, harchive, ?_⟩ (.inl (by decide))
    rw [harchivePath]
    exact ⟨_, rfl⟩
  · refine h.restored_dir hname ⟨_, harchive, ?_⟩ (.inr ⟨rfl, fun hhead => ?_⟩)
    · rw [harchivePath]
      exact ⟨_, rfl⟩
    · exact absurd (Option.some.inj hhead) (by decide)

/-- A restored live link that ends in `.pem` leads to the file whose bytes were checked. -/
theorem Accepted.restored_walk (h : Accepted members lineage conf text suffix data) (hname : Text.IsName lineage)
    {s : Stem} (hpem : text s = linkText lineage s (suffix s)) (n : Nat) :
    walk (restored members) (n + 1) [] (livePath lineage s) = some (archivePath lineage s (suffix s)) ∧
      restored members (archivePath lineage s (suffix s)) = some (.file (data s)) := by
  have hfile : restored members (archivePath lineage s (suffix s)) = some (.file (data s)) := by
    have hm : ⟨archiveName lineage s (suffix s), .file (data s)⟩ ∈ members :=
      h.perm.mem_iff.mpr (mem_lineageMembers.mpr (.inr ⟨s, .inl rfl⟩))
    have hfind := h.restored_member hname hm
    unfold restored
    rw [← parts_archiveName hname s (h.noSlash s), hfind]
  have hlink : restored members (livePath lineage s) = some (.link (linkText lineage s (suffix s))) := by
    have hm : ⟨liveName lineage s, .link (text s)⟩ ∈ members :=
      h.perm.mem_iff.mpr (mem_lineageMembers.mpr (.inr ⟨s, .inr rfl⟩))
    have hfind := h.restored_member hname hm
    unfold restored
    rw [← parts_liveName hname s, hfind, ← hpem]
  have hroot : Dirs (restored members) [] [] := trivial
  exact ⟨(h.restored_tree hname).walk_live hroot (h.noSlash s) hlink hfile n, hfile⟩

end Restored

/-! ## The export -/

/-- The live links of a lineage name files in its archive, by a number. -/
structure DirectLinks (t : Tree) (root : List String) (lineage : String) (digits : Stem → List Char)
    (data : Stem → List UInt8) : Prop where
  number : ∀ s, digits s ≠ [] ∧ (digits s).all Text.isDigit = true
  link : ∀ s, t (root ++ livePath lineage s) = some (.link (linkText lineage s (digits s)))
  file : ∀ s, t (root ++ archivePath lineage s (digits s)) = some (.file (data s))

theorem isdigit_of_all {ds : List Char} (hne : ds ≠ []) (h : ds.all Text.isDigit = true) :
    Str.isdigit ds = true := by
  unfold Str.isdigit
  rw [Bool.and_eq_true, List.all_eq_true]
  refine ⟨by simpa using hne, fun c hc => ?_⟩
  have hdigit := List.all_eq_true.mp h c hc
  unfold Text.isDigit at hdigit
  rw [Bool.and_eq_true, decide_eq_true_eq, decide_eq_true_eq] at hdigit
  rw [List.any_eq_true]
  refine ⟨(0x30, 0x39), List.mem_cons_self .., ?_⟩
  rw [Bool.and_eq_true, decide_eq_true_eq, decide_eq_true_eq]
  exact hdigit

section Export

variable {Raw : Type} {tar : Tarfile Raw} {links : Nat} {t : Tree} {path root : List String} {lineage : String}
  {digits : Stem → List Char} {data : Stem → List UInt8}

theorem DirectLinks.noSlash (h : DirectLinks t root lineage digits data) (s : Stem) : '/' ∉ digits s :=
  not_mem_isdigit (isdigit_of_all (h.number s).1 (h.number s).2) (by decide)

/-- What is below a directory of the lineage, by its own node. -/
theorem lstat_below (hroot : Dirs t [] root) {a name : String}
    (ha : Dirs t root [a, lineage]) : lstat t links (root ++ [a, lineage, name]) = t (root ++ [a, lineage, name]) := by
  have hpath : root ++ [a, lineage, name] = (root ++ [a, lineage]) ++ [name] := by
    rw [List.append_assoc]
    rfl
  rw [hpath]
  exact lstat_dirs (hroot.append ha)

/-- The two files of a direct live link; without a link to follow there is an error. -/
theorem liveFiles_direct (htree : CertbotTree t root lineage) (hroot : Dirs t [] root)
    (h : DirectLinks t root lineage digits data) (s : Stem) (n : Nat) :
    liveFiles (n + 1) t root lineage s =
      .ok [(archiveName lineage s (digits s), false), (liveName lineage s, true)] := by
  have hparts : root ++ "live" :: (Text.parts lineage ++ [s.text ++ ".pem"]) = root ++ livePath lineage s := by
    rw [htree.name.parts]
    rfl
  have hsymlink : isSymlink (n + 1) t (root ++ livePath lineage s) = true := by
    unfold isSymlink
    rw [show lstat t (n + 1) (root ++ livePath lineage s) = _ from lstat_below hroot htree.liveDirs,
      show t (root ++ ["live", lineage, s.text ++ ".pem"]) = _ from h.link s]
  have htarget : resolve (n + 1) t (root ++ livePath lineage s) = .ok (root ++ archivePath lineage s (digits s)) := by
    unfold resolve
    rw [htree.walk_live hroot (h.noSlash s) (h.link s) (h.file s) n]
  have hdir : resolve (n + 1) t (root ++ "archive" :: Text.parts lineage) = .ok (root ++ ["archive", lineage]) := by
    have hwalk := @walk_dirs t (n + 1) [] _ (hroot.append htree.archiveDirs) []
    rw [List.append_nil, walk_nil] at hwalk
    unfold resolve
    rw [htree.name.parts, hwalk]
    rfl
  have hlast : (root ++ archivePath lineage s (digits s)).dropLast = root ++ ["archive", lineage] := by
    have hconcat : root ++ archivePath lineage s (digits s) =
        (root ++ ["archive", lineage]) ++ [s.text ++ String.ofList (digits s) ++ ".pem"] := by
      rw [List.append_assoc]
      rfl
    rw [hconcat, List.dropLast_concat]
  have hrelative : relativeTo root (root ++ archivePath lineage s (digits s)) =
      .ok (archiveName lineage s (digits s)) := by
    unfold relativeTo
    rw [if_pos (List.isPrefixOf_iff_prefix.mpr (List.prefix_append _ _)), List.drop_left]
    rfl
  unfold liveFiles
  dsimp only
  rw [hparts, hsymlink, htarget, hdir]
  simp only [bind, Except.bind, refuseIf, Bool.not_true, Bool.false_eq_true, if_false, hlast, hrelative,
    not_true_eq_false, decide_false, ne_eq]

theorem liveFiles_no_links (htree : CertbotTree t root lineage) (hroot : Dirs t [] root)
    (h : DirectLinks t root lineage digits data) (s : Stem) {files : List (String × Bool)} :
    liveFiles 0 t root lineage s ≠ .ok files := by
  have hparts : root ++ "live" :: (Text.parts lineage ++ [s.text ++ ".pem"]) =
      (root ++ ["live", lineage]) ++ [s.text ++ ".pem"] := by
    rw [htree.name.parts, List.append_assoc]
    rfl
  have hlink := h.link s
  have hpath : root ++ livePath lineage s = (root ++ ["live", lineage]) ++ [s.text ++ ".pem"] := by
    rw [List.append_assoc]
    rfl
  rw [hpath] at hlink
  have hwalk : walk t 0 [] ((root ++ ["live", lineage]) ++ [s.text ++ ".pem"]) = none := by
    rw [walk_dirs (hroot.append htree.liveDirs), List.nil_append, walk_link_zero (isName_stem s).notUp hlink]
  intro hfiles
  unfold liveFiles at hfiles
  dsimp only at hfiles
  rw [hparts] at hfiles
  simp only [bind_eq_ok, refuseIf_eq_ok, exists_const] at hfiles
  obtain ⟨-, target, htarget, -⟩ := hfiles
  unfold resolve at htarget
  rw [hwalk] at htarget
  cases htarget

theorem memberOf_file {name : String} {m : Member} : memberOf links t root (name, false) = .ok m ↔
    ∃ found, lstat t links (root ++ Text.parts name) = some (.file found) ∧ (0 < found.length ∧
      found.length ≤ maximum) ∧ m = ⟨name, .file found⟩ := by
  unfold memberOf
  dsimp only
  cases hnode : lstat t links (root ++ Text.parts name) with
  | none => simp
  | some node =>
      cases node with
      | dir => simp
      | link text => simp
      | file found =>
          simp only [bind_eq_ok, refuseIf_eq_ok, exists_const, Except.ok.injEq, Bool.or_eq_false_iff,
            decide_eq_false_iff_not, not_lt, Option.some.injEq, Node.file.injEq, exists_eq_left',
            List.isEmpty_eq_false_iff, List.length_pos_iff]
          exact and_congr_right fun _ => eq_comm

theorem memberOf_link {name : String} {m : Member} : memberOf links t root (name, true) = .ok m ↔
    ∃ text, lstat t links (root ++ Text.parts name) = some (.link text) ∧ m = ⟨name, .link text⟩ := by
  unfold memberOf
  dsimp only
  cases hnode : lstat t links (root ++ Text.parts name) with
  | none => simp
  | some node => cases node <;> simp [eq_comm]

/-- The files `archive` writes of a lineage with direct links, and the members they become. -/
theorem members_direct (htree : CertbotTree t root lineage) (hroot : Dirs t [] root)
    (h : DirectLinks t root lineage digits data) {members : List Member} :
    ((renewalName lineage, false) :: (stems.map fun s =>
        [(archiveName lineage s (digits s), false), (liveName lineage s, true)]).flatten).mapM
      (memberOf links t root) = .ok members ↔
      ∃ conf, lstat t links (root ++ Text.parts (renewalName lineage)) = some (.file conf) ∧
        (0 < conf.length ∧ conf.length ≤ maximum) ∧ (∀ s, 0 < (data s).length ∧ (data s).length ≤ maximum) ∧
        members = lineageMembers lineage conf (fun s => linkText lineage s (digits s)) digits data := by
  have hfile : ∀ s, lstat t links (root ++ Text.parts (archiveName lineage s (digits s))) =
      some (.file (data s)) := by
    intro s
    rw [parts_archiveName htree.name s (h.noSlash s), ← h.file s]
    exact lstat_below hroot htree.archiveDirs
  have hlink : ∀ s, lstat t links (root ++ Text.parts (liveName lineage s)) =
      some (.link (linkText lineage s (digits s))) := by
    intro s
    rw [parts_liveName htree.name s, ← h.link s]
    exact lstat_below hroot htree.liveDirs
  have hall : ∀ conf, lstat t links (root ++ Text.parts (renewalName lineage)) = some (.file conf) →
      0 < conf.length ∧ conf.length ≤ maximum → (∀ s, 0 < (data s).length ∧ (data s).length ≤ maximum) →
      ((renewalName lineage, false) :: (stems.map fun s =>
        [(archiveName lineage s (digits s), false), (liveName lineage s, true)]).flatten).mapM
        (memberOf links t root) =
          .ok (lineageMembers lineage conf (fun s => linkText lineage s (digits s)) digits data) := by
    intro conf hconf hsize hdata
    have ha : ∀ s, memberOf links t root (archiveName lineage s (digits s), false) =
        .ok ⟨archiveName lineage s (digits s), .file (data s)⟩ := fun s =>
      memberOf_file.mpr ⟨data s, hfile s, hdata s, rfl⟩
    have hl : ∀ s, memberOf links t root (liveName lineage s, true) =
        .ok ⟨liveName lineage s, .link (linkText lineage s (digits s))⟩ := fun s =>
      memberOf_link.mpr ⟨_, hlink s, rfl⟩
    rw [mapM_eq_ok]
    exact .cons (memberOf_file.mpr ⟨conf, hconf, hsize, rfl⟩)
      (.cons (ha .cert) (.cons (hl .cert) (.cons (ha .chain) (.cons (hl .chain) (.cons (ha .fullchain)
        (.cons (hl .fullchain) (.cons (ha .privkey) (.cons (hl .privkey) .nil))))))))
  constructor
  · intro hmembers
    have hreturns := mapM_returns.mp ⟨members, hmembers⟩
    obtain ⟨_, hconf⟩ := hreturns _ (List.mem_cons_self ..)
    obtain ⟨conf, hconf, hsize, -⟩ := memberOf_file.mp hconf
    have hdata : ∀ s, 0 < (data s).length ∧ (data s).length ≤ maximum := by
      intro s
      have hmem : (archiveName lineage s (digits s), false) ∈ (stems.map fun s =>
          [(archiveName lineage s (digits s), false), (liveName lineage s, true)]).flatten :=
        List.mem_flatten.mpr ⟨_, List.mem_map.mpr ⟨s, mem_stems s, rfl⟩, List.mem_cons_self ..⟩
      obtain ⟨_, hs⟩ := hreturns _ (List.mem_cons_of_mem _ hmem)
      obtain ⟨found, hfound, hsize, -⟩ := memberOf_file.mp hs
      rw [hfile s] at hfound
      cases hfound
      exact hsize
    refine ⟨conf, hconf, hsize, hdata, ?_⟩
    rw [hall conf hconf hsize hdata] at hmembers
    exact (Except.ok.inj hmembers).symm
  · rintro ⟨conf, hconf, hsize, hdata, rfl⟩
    exact hall conf hconf hsize hdata

/-- **What `archive` returns** for a lineage with direct links. -/
theorem archive_direct (hwalk : walk t links [] path = some root) (htree : CertbotTree t root lineage)
    (h : DirectLinks t root lineage digits data) {raw : Raw} :
    archive tar links t path lineage = .ok raw ↔ 0 < links ∧ lineage.toList.all lineageChar = true ∧
      ∃ conf, lstat t links (root ++ Text.parts (renewalName lineage)) = some (.file conf) ∧
        (0 < conf.length ∧ conf.length ≤ maximum) ∧ (∀ s, 0 < (data s).length ∧ (data s).length ≤ maximum) ∧
        raw = tar.write (lineageMembers lineage conf (fun s => linkText lineage s (digits s)) digits data) ∧
        tar.size raw ≤ maximum := by
  have hroot := dirs_of_walk hwalk htree.base
  have hresolve : resolve links t path = .ok root := by
    unfold resolve
    rw [hwalk]
  unfold archive
  simp only [bind_eq_ok, refuseIf_eq_ok, exists_const, hresolve, Except.ok.injEq, exists_eq_left',
    Bool.or_eq_false_iff, Bool.not_eq_false', decide_eq_false_iff_not, not_lt]
  cases links with
  | zero =>
      constructor
      · rintro ⟨-, live, hlive, -⟩
        obtain ⟨files, hfiles⟩ := mapM_returns.mp ⟨live, hlive⟩ .cert (mem_stems _)
        exact absurd hfiles (liveFiles_no_links htree hroot h .cert)
      · rintro ⟨hpos, -⟩
        exact absurd hpos (Nat.lt_irrefl 0)
  | succ n =>
      have hlive : stems.mapM (liveFiles (n + 1) t root lineage) = .ok (stems.map fun s =>
          [(archiveName lineage s (digits s), false), (liveName lineage s, true)]) := by
        rw [mapM_eq_ok, List.forall₂_map_right_iff, List.forall₂_same]
        exact fun s _ => liveFiles_direct htree hroot h s n
      simp only [hlive, Except.ok.injEq, exists_eq_left', members_direct htree hroot h]
      constructor
      · rintro ⟨⟨-, hchars⟩, members, ⟨conf, hconf, hsize, hdata, rfl⟩, hmax, rfl⟩
        exact ⟨Nat.succ_pos n, hchars, conf, hconf, hsize, hdata, rfl, hmax⟩
      · rintro ⟨-, hchars, conf, hconf, hsize, hdata, rfl, hmax⟩
        exact ⟨⟨htree.name.nonempty, hchars⟩, _, ⟨conf, hconf, hsize, hdata, rfl⟩, hmax, rfl⟩

end Export

end DevTls
end PickleInfra
