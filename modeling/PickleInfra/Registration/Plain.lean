import PickleInfra.Registration.Config

/-!
# `Registration.Plain` — the characters of what a configuration may hold

A value that is written into a text of SQL must not hold a dollar, which could end the text around it, and no zero
character. The patterns leave out both. A URL is checked through its parts only, and has no dollar all the same.
-/

namespace PickleInfra
namespace Registration

open Python Network

/-- Neither a dollar nor a zero character. -/
def Plain (cs : List Char) : Prop := ∀ c ∈ cs, c ≠ '$' ∧ c.toNat ≠ 0

theorem Plain.append {as bs : List Char} (ha : Plain as) (hb : Plain bs) : Plain (as ++ bs) := by
  intro c hc
  rcases List.mem_append.mp hc with h | h
  · exact ha c h
  · exact hb c h

/-- Every character is of a class that has neither. -/
theorem plain_of_all {cls : Char → Bool} {cs : List Char} (h : cs.all cls = true) (hdollar : cls '$' = false)
    (hzero : cls (Char.ofNat 0) = false) : Plain cs := by
  intro c hc
  have hcls := List.all_eq_true.mp h c hc
  constructor
  · rintro rfl
    rw [hdollar] at hcls
    cases hcls
  · intro h0
    have heq : c = Char.ofNat 0 := by rw [← Char.ofNat_toNat c, h0]
    rw [heq, hzero] at hcls
    cases hcls

/-! ## Patterns -/

theorem plain_of_fullmatchFirst {first cls : Char → Bool} {more : Nat} {s : String}
    (h : Text.fullmatchFirst first cls more s = true) (hdollar : (first '$' || cls '$') = false)
    (hzero : (first (Char.ofNat 0) || cls (Char.ofNat 0)) = false) : Plain s.toList := by
  unfold Text.fullmatchFirst at h
  split at h
  · cases h
  · next c cs hs =>
    rw [Bool.and_eq_true, Bool.and_eq_true] at h
    rw [hs]
    apply @plain_of_all (fun c => first c || cls c) (c :: cs) _ hdollar hzero
    rw [List.all_cons, h.1.1, Bool.true_or, Bool.true_and, List.all_eq_true]
    intro d hd
    rw [List.all_eq_true.mp h.1.2 d hd, Bool.or_true]

theorem plain_of_isName {s : String} (h : isName s = true) : Plain s.toList :=
  plain_of_fullmatchFirst h (by decide) (by decide)

theorem plain_of_isBridge {s : String} (h : isBridge s = true) : Plain s.toList :=
  plain_of_fullmatchFirst h (by decide) (by decide)

theorem plain_of_isCanonicalUuid {s : String} (h : Url.isCanonicalUuid s = true) : Plain s.toList := by
  unfold Url.isCanonicalUuid at h
  rw [Bool.and_eq_true] at h
  exact plain_of_all h.2 (by decide) (by decide)

theorem plain_toString (n : Nat) : Plain (toString n).toList := by
  rw [Nat.toString_eq_repr, Nat.toList_repr]
  exact plain_of_all (toDigits_isDigit n) (by decide) (by decide)

/-- What is joined is of the pieces or of the separator. -/
theorem mem_intercalate {sep : List Char} {c : Char} : ∀ {ls : List (List Char)}, c ∈ sep.intercalate ls →
    c ∈ sep ∨ ∃ l ∈ ls, c ∈ l
  | [], h           => absurd h List.not_mem_nil
  | [l], h          => .inr ⟨l, List.mem_singleton_self l, by rwa [List.intercalate_singleton] at h⟩
  | l :: l' :: ls, h => by
      rw [List.intercalate_cons_cons, List.append_assoc, List.mem_append, List.mem_append] at h
      rcases h with h | h | h
      · exact .inr ⟨l, List.mem_cons_self, h⟩
      · exact .inl h
      · rcases mem_intercalate h with hsep | ⟨x, hx, hc⟩
        · exact .inl hsep
        · exact .inr ⟨x, List.mem_cons_of_mem l hx, hc⟩

theorem plain_addressText (a : IPv4) : Plain (addressText a).toList := by
  have hjoin : ['.'].intercalate ((addressText a).toList.splitOn '.') = (addressText a).toList :=
    List.intercalate_splitOn '.'
  rw [splitOn_addressText] at hjoin
  intro c hc
  rw [← hjoin] at hc
  rcases mem_intercalate hc with hdot | ⟨l, hl, hc⟩
  · rw [List.mem_singleton.mp hdot]
    decide
  · obtain ⟨shift, -, rfl⟩ := List.mem_map.mp hl
    exact plain_toString _ c hc

theorem plain_subnet (n : Subnet) : Plain n.text.toList := by
  unfold Subnet.text
  rw [String.toList_append, String.toList_append]
  refine ((plain_addressText _).append ?_).append (plain_toString _)
  exact @plain_of_all (· = '/') _ (by decide) (by decide) (by decide)

/-! ## URLs -/

section Partition

variable {c x : Char} {cs : List Char}

theorem mem_partition (h : x ∈ cs) :
    x ∈ (Url.partition c cs).1 ∨ x = c ∨ (Url.partition c cs).2.1 = true ∧ x ∈ (Url.partition c cs).2.2 := by
  unfold Url.partition
  dsimp only
  have hsplit := List.takeWhile_append_dropWhile (p := (· ≠ c)) (l := cs)
  rw [← hsplit, List.mem_append] at h
  rcases h with h | h
  · exact .inl h
  · cases hdrop : cs.dropWhile (· ≠ c) with
    | nil         =>
        rw [hdrop] at h
        cases h
    | cons y rest =>
        rw [hdrop] at h hsplit
        have hy : y = c := by
          have hhead := List.head?_dropWhile_not (· ≠ c) cs
          rw [hdrop] at hhead
          simpa using hhead
        subst hy
        rcases List.mem_cons.mp h with rfl | h
        · exact .inr (.inl rfl)
        · refine .inr (.inr ⟨?_, h⟩)
          rw [List.contains_iff_mem, ← hsplit]
          exact List.mem_append_right _ List.mem_cons_self

theorem mem_rpartition (h : x ∈ cs) : x ∈ (Url.rpartition c cs).1 ∨ x = c ∨ x ∈ (Url.rpartition c cs).2.2 := by
  unfold Url.rpartition
  dsimp only
  split
  · rcases @mem_partition c x cs.reverse (List.mem_reverse.mpr h) with h | h | ⟨-, h⟩
    · exact .inr (.inr (List.mem_reverse.mpr h))
    · exact .inr (.inl h)
    · exact .inl (List.mem_reverse.mpr h)
  · exact .inr (.inr h)

theorem mem_of_rpartition (h : x ∈ (Url.rpartition c cs).2.2) : x ∈ cs := by
  unfold Url.rpartition Url.partition at h
  dsimp only at h
  split at h
  · exact List.mem_reverse.mp (List.takeWhile_subset _ (List.mem_reverse.mp h))
  · exact h

theorem not_mem_before_colon {port : List Char} (h : port = [] ∨ port.head? = some ':') :
    x ∉ (Url.partition ':' port).1 := by
  rcases h with rfl | h
  · exact List.not_mem_nil
  · cases port with
    | nil         => cases h
    | cons y rest =>
        obtain rfl := Option.some.inj h
        exact List.not_mem_nil

end Partition

/-- What `checkUrl` found. -/
structure UrlParts (u : Url.SplitResult) (host : List Char) : Prop where
  hostname : u.hostname = some host
  scheme : u.scheme = "https".toList
  port : u.port = some (some 8006)
  username : u.username = []
  password : u.password = []
  path : u.path = []
  query : u.query = []
  fragment : u.fragment = []
  labels : (host.splitOn '.').all isHostLabel = true

theorem parts_of_checkUrl {message hostMessage : String} {u : Url.SplitResult} {x : Unit}
    (h : checkUrl message hostMessage u = .ok x) : ∃ host, UrlParts u host := by
  unfold checkUrl at h
  split at h
  · cases h
  · next host hhost =>
    split at h
    · next hscheme =>
      split at h
      · cases h
      · next p hport =>
        obtain ⟨_, hparts, hlabels⟩ := bind_eq_ok.mp h
        simp only [require_eq_ok, Bool.and_eq_true, decide_eq_true_eq, List.isEmpty_iff] at hparts hlabels
        obtain ⟨⟨⟨⟨⟨rfl, husername⟩, hpassword⟩, hpath⟩, hquery⟩, hfragment⟩ := hparts
        exact ⟨host, hhost, hscheme, hport, husername, hpassword, hpath, hquery, hfragment, hlabels⟩
    · cases h

theorem not_dollar_of_labels {host : List Char} (h : (host.splitOn '.').all isHostLabel = true) :
    ∀ c ∈ host, c ≠ '$' ∧ c ≠ '%' := by
  intro c hc
  have hjoin : ['.'].intercalate (host.splitOn '.') = host := List.intercalate_splitOn '.'
  rw [← hjoin] at hc
  rcases mem_intercalate hc with hdot | ⟨label, hlabel, hc⟩
  · rw [List.mem_singleton.mp hdot]
    decide
  · have hall := List.all_eq_true.mp h label hlabel
    unfold isHostLabel at hall
    rw [Bool.and_eq_true, Bool.and_eq_true, Bool.and_eq_true, List.all_eq_true] at hall
    have hclass := hall.1.1.1 c hc
    constructor <;> rintro rfl <;> exact absurd hclass (by decide)

/-- The host, as it was written, before it is put in lower case. -/
theorem not_dollar_host {u : Url.SplitResult} {host : List Char} (h : UrlParts u host) : '$' ∉ u.hostinfo.1 := by
  intro hmem
  have hchars := not_dollar_of_labels h.labels
  have hhost := h.hostname
  unfold Url.SplitResult.hostname at hhost
  dsimp only at hhost
  split at hhost
  · cases hhost
  · have hhost := Option.some.inj hhost
    rcases @mem_partition '%' '$' _ hmem with hname | heq | ⟨hfound, -⟩
    · have hlower : '$' ∈ host := by
        rw [← hhost]
        exact List.mem_append_left _ (List.mem_map.mpr ⟨'$', hname, by decide⟩)
      exact (hchars '$' hlower).1 rfl
    · cases heq
    · have hpercent : '%' ∈ host := by
        rw [← hhost, hfound]
        exact List.mem_append_right _ (List.mem_cons_self)
      exact (hchars '%' hpercent).2 rfl

theorem not_dollar_port {u : Url.SplitResult} {host : List Char} (h : UrlParts u host) : '$' ∉ u.hostinfo.2 := by
  intro hmem
  have hport := h.port
  unfold Url.SplitResult.port at hport
  dsimp only at hport
  split at hport
  · cases hport
  · split at hport
    · next hdigits => exact absurd (List.all_eq_true.mp hdigits.1 '$' hmem) (by decide)
    · cases hport

/-- The netloc is the host and the port, with brackets, colons and at signs around them. -/
theorem not_dollar_netloc {u : Url.SplitResult} {host : List Char} (h : UrlParts u host)
    (hbracket : '[' ∈ u.netloc → Url.bracketedNetloc u.netloc = true) : '$' ∉ u.netloc := by
  intro hmem
  have hhost := not_dollar_host h
  have hport := not_dollar_port h
  rcases @mem_rpartition '@' '$' _ hmem with huser | heq | hinfo
  · rcases @mem_partition ':' '$' _ huser with hname | heq | ⟨-, hword⟩
    · have hname : '$' ∈ u.username := hname
      rw [h.username] at hname
      cases hname
    · cases heq
    · have hword : '$' ∈ u.password := hword
      rw [h.password] at hword
      cases hword
  · cases heq
  · unfold Url.SplitResult.hostinfo at hhost hport
    dsimp only at hhost hport
    split at hhost
    · next hfound =>
      rw [if_pos hfound] at hport
      have hopened : '[' ∈ u.netloc := mem_of_rpartition (List.contains_iff_mem.mp hfound)
      have hvalid := hbracket hopened
      unfold Url.bracketedNetloc at hvalid
      dsimp only at hvalid
      rw [if_pos hfound, Bool.and_eq_true, Bool.and_eq_true, Bool.or_eq_true, List.isEmpty_iff, List.isEmpty_iff,
        decide_eq_true_eq] at hvalid
      rcases @mem_partition '[' '$' _ hinfo with hbefore | heq | ⟨-, hbracketed⟩
      · exact absurd (hvalid.1.1 ▸ hbefore) List.not_mem_nil
      · cases heq
      · rcases @mem_partition ']' '$' _ hbracketed with hin | heq | ⟨-, hafter⟩
        · exact hhost hin
        · cases heq
        · rcases @mem_partition ':' '$' _ hafter with hbefore | heq | ⟨-, hdigits⟩
          · exact absurd hbefore (not_mem_before_colon hvalid.1.2)
          · cases heq
          · exact hport hdigits
    · next hfound =>
      rw [if_neg hfound] at hport
      rcases @mem_partition ':' '$' _ hinfo with hname | heq | ⟨-, hdigits⟩
      · exact hhost hname
      · cases heq
      · exact hport hdigits

theorem dollar_of_splitScheme {url scheme rest : List Char} (h : Url.splitScheme url = (scheme, rest))
    (hscheme : scheme ≠ []) (hmem : '$' ∈ url) : '$' ∈ rest := by
  unfold Url.splitScheme at h
  dsimp only at h
  split at h
  · next hfound =>
    rw [Bool.and_eq_true, Bool.and_eq_true] at hfound
    cases h
    rcases @mem_partition ':' '$' _ hmem with hbefore | heq | ⟨-, hafter⟩
    · exact absurd (List.all_eq_true.mp hfound.2 '$' hbefore) (by decide)
    · cases heq
    · exact hafter
  · cases h
    exact absurd rfl hscheme

theorem dollar_of_splitNetloc {url : List Char} (hslashes : url.take 2 = ['/', '/']) (hmem : '$' ∈ url) :
    '$' ∈ (Url.splitNetloc url).1 ∨ '$' ∈ (Url.splitNetloc url).2 := by
  unfold Url.splitNetloc
  dsimp only
  rw [← List.mem_append, List.takeWhile_append_dropWhile]
  rw [← List.take_append_drop 2 url, hslashes, List.mem_append] at hmem
  rcases hmem with hmem | hmem
  · exact absurd hmem (by decide)
  · exact hmem

theorem dollar_of_stripped {cs : List Char} (hmem : '$' ∈ cs) :
    '$' ∈ (cs.dropWhile fun c => decide (c.toNat ≤ 0x20)).filter fun c => !(['\t', '\r', '\n'].contains c) := by
  rw [← List.takeWhile_append_dropWhile (p := fun c => decide (c.toNat ≤ 0x20)) (l := cs), List.mem_append] at hmem
  rcases hmem with hmem | hmem
  · exact absurd (List.all_eq_true.mp List.all_takeWhile '$' hmem) (by decide)
  · exact List.mem_filter.mpr ⟨hmem, by decide⟩

/-- **The text of a URL that is accepted has no dollar.** -/
theorem not_dollar_of_checkUrl {nfkc : List Char → List Char} {s message hostMessage : String} {u : Url.SplitResult}
    {x : Unit} (hsplit : Url.urlsplit nfkc s = some u) (hcheck : checkUrl message hostMessage u = .ok x) :
    '$' ∉ s.toList := by
  intro hmem
  obtain ⟨host, h⟩ := parts_of_checkUrl hcheck
  have hstripped := dollar_of_stripped hmem
  unfold Url.urlsplit at hsplit
  dsimp only at hsplit
  generalize (s.toList.dropWhile fun c => decide (c.toNat ≤ 0x20)).filter _ = url at hsplit hstripped
  rcases hscheme : Url.splitScheme url with ⟨scheme, url₁⟩
  rw [hscheme] at hsplit
  dsimp only at hsplit
  rcases hnetloc : (if url₁.take 2 = ['/', '/'] then Url.splitNetloc url₁ else ([], url₁)) with ⟨netloc, url₂⟩
  rw [hnetloc] at hsplit
  dsimp only at hsplit
  split at hsplit
  · cases hsplit
  · next hchecks =>
    cases hsplit
    have hne : scheme ≠ [] := by
      rw [show scheme = "https".toList from h.scheme]
      decide
    have hrest := dollar_of_splitScheme hscheme hne hstripped
    have hbracket : '[' ∈ netloc → Url.bracketedNetloc netloc = true := by
      intro hopened
      have hcontains : netloc.contains '[' = true := List.contains_iff_mem.mpr hopened
      rw [Bool.not_eq_true, Bool.or_eq_false_iff, Bool.or_eq_false_iff, hcontains, Bool.true_and] at hchecks
      exact Bool.not_eq_false' .. ▸ hchecks.1.2
    have hplace : '$' ∈ netloc ∨ '$' ∈ url₂ := by
      split at hnetloc
      · next hslashes =>
        have hparts := dollar_of_splitNetloc hslashes hrest
        rwa [hnetloc] at hparts
      · cases hnetloc
        exact .inr hrest
    have hpath : (Url.partition '?' (Url.partition '#' url₂).1).1 = [] := h.path
    have hquery : (Url.partition '?' (Url.partition '#' url₂).1).2.2 = [] := h.query
    have hfragment : (Url.partition '#' url₂).2.2 = [] := h.fragment
    rcases hplace with hplace | hplace
    · exact not_dollar_netloc h hbracket hplace
    · rcases @mem_partition '#' '$' _ hplace with hbefore | heq | ⟨-, hin⟩
      · rcases @mem_partition '?' '$' _ hbefore with hin | heq | ⟨-, hin⟩
        · rw [hpath] at hin
          cases hin
        · cases heq
        · rw [hquery] at hin
          cases hin
      · cases heq
      · rw [hfragment] at hin
        cases hin

end Registration
end PickleInfra
