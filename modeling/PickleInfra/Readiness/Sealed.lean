import PickleInfra.Readiness.Apply
import PickleInfra.Registration.Sealed

/-!
# `Readiness.Sealed` — the statements of the four programs cannot be changed by data

The program decides the outline. What a document holds is inside the values of the statement, and the values that are
missing are the one choice that the tokens show.
-/

namespace PickleInfra
namespace Readiness

open Python JsonText Sql Network Registration

/-! ## IP pools -/

/-- The texts of a pool that its statement has. -/
structure IpPoolConfig.PlainTexts (c : IpPoolConfig) : Prop where
  name : Plain c.name.toList
  cidr : Plain c.cidr.toList
  gateway : Plain c.gateway.toList

theorem IpPoolConfig.plainTexts_of_fromDict {value : Json} {c : IpPoolConfig} (h : IpPoolConfig.fromDict value = .ok c) :
    c.PlainTexts := by
  unfold IpPoolConfig.fromDict at h
  simp only [bind_eq_ok] at h
  obtain ⟨_, _, name, hname, network, _, gateway, _, dns, _, _, _, database, _, existing, _, h⟩ := h
  cases h
  exact { name := plain_of_isName (str_of_stringThat hname).2, cidr := plain_subnet network,
          gateway := plain_addressText gateway }

set_option maxRecDepth 10000 in
/-- The outline of a pool's statement. -/
theorem exists_poolOutline : ∃ l : Outline, l.closed = true ∧ ∀ (c : IpPoolConfig) (r : PoolRows), c.PlainTexts →
    (ipPoolScript c r).Fits l := by
  apply Exists.intro
  apply And.intro
  rotate_left
  · intro c r hc
    dsimp only [ipPoolScript, identitySql]
    apply Script.Fits.of_texts
    · repeat constructor
    · repeat constructor
    · simp [Part.IsPlain, hc.name, hc.cidr, hc.gateway]
  · decide +kernel

/-! ## Nodes with a firewall -/

/-- The texts of a node that its statement has. -/
structure VmFirewallNodeConfig.PlainTexts (c : VmFirewallNodeConfig) : Prop where
  node : Plain c.node.toList
  nodePublicId : Plain c.nodePublicId.toList
  apiHost : Plain c.apiHost.toList
  bridge : Plain c.bridge.toList
  storage : Plain c.storage.toList

theorem isCanonicalUuid_of_canonicalUuid {label : String} {v : Json} {s : String} (h : canonicalUuid label v = .ok s) :
    Url.isCanonicalUuid s = true := by
  cases v with
  | str t =>
      unfold canonicalUuid at h
      dsimp only at h
      split at h
      · next ht =>
        cases h
        exact ht
      · cases h
  | null | bool | int | float | list | dict => cases h

theorem VmFirewallNodeConfig.plainTexts_of_fromDict {nfkc : List Char → List Char} {value : Json} {c : VmFirewallNodeConfig}
    (h : VmFirewallNodeConfig.fromDict nfkc value = .ok c) (hzero : Char.ofNat 0 ∉ c.apiHost.toList) : c.PlainTexts := by
  unfold VmFirewallNodeConfig.fromDict at h
  simp only [bind_eq_ok] at h
  obtain ⟨_, _, node, hnode, storage, hstorage, bridge, hbridge, url, hurl, mtu, _, id, hid, evidence, _, database, _, h⟩ := h
  cases h
  obtain ⟨-, u, hsplit, hcheck⟩ := str_of_nodeUrl nfkc hurl
  exact { node := plain_of_isName (str_of_stringThat hnode).2,
          nodePublicId := plain_of_isCanonicalUuid (isCanonicalUuid_of_canonicalUuid hid),
          apiHost := plain_of_url hsplit hcheck hzero,
          bridge := plain_of_isBridge (str_of_stringThat hbridge).2,
          storage := plain_of_isName (str_of_stringThat hstorage).2 }

set_option maxRecDepth 10000 in
/-- The outline of the statement of a node with a firewall. -/
theorem exists_nodeOutline : ∃ l : Outline, l.closed = true ∧ ∀ (c : VmFirewallNodeConfig) (r : NodeRows), c.PlainTexts →
    (vmFirewallNodeScript c r).Fits l := by
  apply Exists.intro
  apply And.intro
  rotate_left
  · intro c r hc
    dsimp only [vmFirewallNodeScript, identitySql]
    apply Script.Fits.of_texts
    · repeat constructor
    · repeat constructor
    · simp [Part.IsPlain, hc.node, hc.nodePublicId, hc.apiHost, hc.bridge, hc.storage]
  · decide +kernel

/-! ## The four programs -/

inductive Program where
  | node
  | image
  | pool
  | firewall
deriving DecidableEq

/-- What a program is given. -/
structure Request where
  program : Program
  config : Json
  snapshot : Json
  desired : Json

section Requests

variable (nfkc : List Char → List Char)

/-- The statement of a request. -/
def Request.script (r : Request) : Except RegistrationExn Script :=
  match r.program with
  | .node     => do applySql (← fromDict nfkc r.config) r.snapshot r.desired
  | .image    => do Image.applySql (← Image.fromDict nfkc r.config) r.snapshot r.desired
  | .pool     => do ipPoolApplySql (← IpPoolConfig.fromDict r.config) r.snapshot
  | .firewall => do vmFirewallNodeApplySql (← VmFirewallNodeConfig.fromDict nfkc r.config) r.snapshot r.desired

end Requests

/-- The field of the URL that the statement has. -/
def Program.urlField : Program → Option String
  | .node     => some "api_url"
  | .firewall => some "api_host"
  | _         => none

/-- The request is one that a preview makes, of a URL without zero characters. -/
structure Request.Regular (r : Request) : Prop where
  numeric : r.program = .node → ∀ rows, rowsOf r.snapshot r.desired = .ok rows → rows.Numeric
  url : ∀ field ∈ r.program.urlField, ∀ s, r.config.getOrNull field = .str s → Char.ofNat 0 ∉ s.toList

/-- A program has an outline. -/
theorem exists_programOutline (nfkc : List Char → List Char) (p : Program) : ∃ l : Outline, l.closed = true ∧ ∀ (r : Request) (s : Script),
    r.program = p → r.Regular → r.script nfkc = .ok s → s.Fits l := by
  cases p with
  | node =>
      obtain ⟨l, hclosed, hfits⟩ := Registration.exists_outline
      refine ⟨l, hclosed, fun r s hp hr h => ?_⟩
      unfold Request.script at h
      rw [hp] at h
      obtain ⟨c, hc, h⟩ := bind_eq_ok.mp h
      obtain ⟨rows, hrows, h⟩ := bind_eq_ok.mp h
      cases h
      obtain ⟨hattributes, hvalid⟩ := validate_spec (validate_of_fromDict hc)
      have hurl : r.config.getOrNull "api_url" = .str c.apiUrl := (congrArg Attributes.apiUrl hattributes).symm
      exact hfits c rows (hvalid.plainTexts (hr.url "api_url" (by rw [hp]; rfl) _ hurl)) (hr.numeric hp rows hrows)
  | image =>
      obtain ⟨l, hclosed, hfits⟩ := Image.exists_outline
      refine ⟨l, hclosed, fun r s hp _ h => ?_⟩
      unfold Request.script Image.applySql at h
      rw [hp] at h
      simp only [bind_eq_ok] at h
      obtain ⟨c, hc, identity, _, node, _, images, _, h⟩ := h
      cases h
      exact hfits c _ (Image.plainTexts_of_fromDict hc)
  | pool =>
      obtain ⟨l, hclosed, hfits⟩ := exists_poolOutline
      refine ⟨l, hclosed, fun r s hp _ h => ?_⟩
      unfold Request.script ipPoolApplySql at h
      rw [hp] at h
      simp only [bind_eq_ok] at h
      obtain ⟨c, hc, identity, _, pools, _, nodes, _, allocations, _, h⟩ := h
      cases h
      exact hfits c _ (IpPoolConfig.plainTexts_of_fromDict hc)
  | firewall =>
      obtain ⟨l, hclosed, hfits⟩ := exists_nodeOutline
      refine ⟨l, hclosed, fun r s hp hr h => ?_⟩
      unfold Request.script vmFirewallNodeApplySql at h
      rw [hp] at h
      simp only [bind_eq_ok] at h
      obtain ⟨c, hc, identity, _, node, _, labels, _, h⟩ := h
      cases h
      have hurl : r.config.getOrNull "api_host" = .str c.apiHost := by
        unfold VmFirewallNodeConfig.fromDict at hc
        simp only [bind_eq_ok] at hc
        obtain ⟨_, _, _, _, _, _, _, _, url, hurl, _, _, _, _, _, _, _, _, hc⟩ := hc
        cases hc
        exact (str_of_nodeUrl nfkc hurl).1
      exact hfits c _ (VmFirewallNodeConfig.plainTexts_of_fromDict hc (hr.url "api_host" (by rw [hp]; rfl) _ hurl))

/-! ## A small request -/

/-- A desired row of the small node, with a value for the threads that are left. -/
def smallDesiredOf (threads : Json) : Json :=
  .dict [("cpu_threads", .int 8), ("memory_mb", .int 3), ("disk_capacity_gb", .int 1),
    ("labels", .dict [("placement_capacity", .dict [("allocatable", .dict [("cpu_threads", threads), ("disk_gb", .int 1)])])])]

/-- A request for the small node. -/
def smallRequest (config desired : Json) : Request where
  program := .node
  config := config
  snapshot := smallSnapshot smallRow
  desired := desired

/-- The rows of the small node. -/
def smallRows (threads : Json) : Rows where
  node := smallRow
  identity := (smallSnapshot smallRow).getOrNull "identity"
  pool := (smallSnapshot smallRow).getOrNull "pool"
  memoryMb := .int 3
  allocatableThreads := threads
  allocatableDisk := .int 1
  cpuThreads := .int 8
  diskCapacityGb := .int 1
  labels := (smallDesiredOf threads).getOrNull "labels"

theorem rowsOf_small (threads : Json) : rowsOf (smallSnapshot smallRow) (smallDesiredOf threads) = .ok (smallRows threads) :=
  rfl

theorem fromDict_small : fromDict id (configDocument smallConfig) = .ok smallConfig :=
  fromDict_configDocument (show fromDict id smallValue = .ok smallConfig from rfl)

theorem script_small (threads : Json) : (smallRequest (configDocument smallConfig) (smallDesiredOf threads)).script id =
    .ok (applyScript smallConfig (smallRows threads)) := by
  exact bind_eq_ok.mpr ⟨smallConfig, fromDict_small, bind_eq_ok.mpr ⟨_, rowsOf_small threads, rfl⟩⟩

theorem smallRows_numeric (n : Nat) : (smallRows (.int n)).Numeric where
  memoryMb := ⟨3, rfl⟩
  allocatableThreads := ⟨n, rfl⟩
  allocatableDisk := ⟨1, rfl⟩
  cpuThreads := ⟨8, rfl⟩
  diskCapacityGb := ⟨1, rfl⟩

theorem smallRequest_regular (n : Nat) : (smallRequest (configDocument smallConfig) (smallDesiredOf (.int n))).Regular where
  numeric := by
    intro _ rows h
    cases (rowsOf_small (.int n)).symm.trans h
    exact smallRows_numeric n
  url := by
    intro field hfield s hs
    cases hfield
    cases hs
    decide

/-! ## Data cannot change a statement -/

/-- **Data cannot change a statement.** For a program and a choice of missing values there is one sequence of tokens,
    which every statement of the program has up to the contents of its values. -/
theorem statement_sealed (nfkc : List Char → List Char) (T : FloatText) (repr : Json → String) (p : Program)
    (branch : List Bool) : ∃ outer inner, ∀ (r : Request) (s : Script), r.program = p → r.Regular →
      r.script nfkc = .ok s → s.branch = branch → Sealed T repr s outer inner := by
  obtain ⟨l, hclosed, hfits⟩ := exists_programOutline nfkc p
  obtain ⟨outer, inner, hall⟩ := sealed_of_outline T repr hclosed branch
  exact ⟨outer, inner, fun r s hp hr h hbranch => hall s (hfits r s hp hr h) hbranch⟩

theorem statement_sealed_small : ∃ outer inner, Sealed zeroText (fun _ => "")
    (applyScript smallConfig (smallRows (.int 1))) outer inner := by
  obtain ⟨outer, inner, hall⟩ := statement_sealed id zeroText (fun _ => "") .node
    (applyScript smallConfig (smallRows (.int 1))).branch
  exact ⟨outer, inner, hall _ _ rfl (smallRequest_regular 1) (script_small _) rfl⟩

/-! ## What the statement takes as it is -/

/-- The configuration of the small node, with a zero character before its URL, which `urlsplit` takes off. -/
def zeroConfig : Registration.Config := { smallConfig with apiUrl := String.ofList (Char.ofNat 0 :: "https://n:8006".toList) }

/-- The small node's rows, with a number of threads in the text and `1 + 1` in the labels. -/
def mixedRows : Rows := { smallRows (.str "1 + 1") with allocatableThreads := .int 1 }

theorem mixedRows_numeric : mixedRows.Numeric := { smallRows_numeric 1 with }

/-- The threads are a part of their own. -/
theorem body_small (threads : Json) : (applyScript smallConfig { mixedRows with allocatableThreads := threads }).body =
    (applyScript smallConfig mixedRows).body.take 17 ++
      .hole (.raw threads) :: (applyScript smallConfig mixedRows).body.drop 18 := rfl

/-- **A text in the place of a number is read as what it is**, and not as one number. -/
theorem body_widened : ∃ one two,
    lex ((applyScript smallConfig (smallRows (.int 1))).bodyText zeroText fun _ => "") = some one ∧
    lex ((applyScript smallConfig (smallRows (.str "1 + 1"))).bodyText zeroText fun _ => "") = some two ∧
    two.length = one.length + 2 := by
  obtain ⟨l, hclosed, hfits⟩ := Registration.exists_outline
  have hplain : smallConfig.PlainTexts :=
    (validate_spec (validate_of_fromDict fromDict_small)).2.plainTexts (by decide)
  have hone := hfits smallConfig _ hplain (smallRows_numeric 1)
  have hmixed := hfits smallConfig _ hplain mixedRows_numeric
  obtain ⟨m₁, outer₁, hm₁, houter₁⟩ := exists_scan_text zeroText (fun _ => "") hone hclosed
  obtain ⟨n₁, inner₁, hn₁, hinner₁⟩ := exists_scan_body zeroText (fun _ => "") hone hclosed
  obtain ⟨m₂, outer₂, hm₂, houter₂⟩ := exists_scan_text zeroText (fun _ => "") hmixed hclosed
  obtain ⟨n₂, inner₂, hn₂, hinner₂⟩ := exists_scan_body zeroText (fun _ => "") hmixed hclosed
  -- with a number in its place the text has as many tokens as the first one
  have hmask := (masks_of_scan zeroText (fun _ => "") hone hmixed rfl houter₁ hinner₁ houter₂ hinner₂).2
  have hlength : inner₁.length = inner₂.length := by
    rw [← List.length_map (f := Slot.mask), hmask, List.length_map]
  have hrun : run .blank [] "1 + 1".toList = some (.number,
      [.number "1".toList, .operator "+".toList, .number "1".toList]) := by decide +kernel
  have hparts := body_small (.int 1)
  have hinner₂' := hinner₂
  rw [show (applyScript smallConfig mixedRows).body = _ from hparts, List.flatMap_append, List.flatMap_cons] at hinner₂'
  obtain ⟨wide, hwide, hwideLength⟩ := scan_widened (by decide : begins '1' = true) hrun hinner₂'
  have hbody : (applyScript smallConfig (smallRows (.str "1 + 1"))).body.flatMap (Part.pieces zeroText fun _ => "") = _ :=
    congrArg (List.flatMap (Part.pieces zeroText fun _ => "")) (body_small (.str "1 + 1"))
  rw [List.flatMap_append, List.flatMap_cons] at hbody
  have hscan : scan .blank ((applyScript smallConfig (smallRows (.str "1 + 1"))).body.flatMap
      (Part.pieces zeroText fun _ => "")) = some (n₂, wide) := by
    rw [hbody]
    exact hwide
  have hsafe : ∀ q ∈ (applyScript smallConfig (smallRows (.str "1 + 1"))).body.flatMap
      (Part.pieces zeroText fun _ => ""), q.Safe := by
    intro q hq
    obtain ⟨p, hp, hq⟩ := List.mem_flatMap.mp hq
    refine safe_pieces zeroText _ (p := p) ?_ q hq
    rw [show (applyScript smallConfig (smallRows (.str "1 + 1"))).body = _ from body_small (.str "1 + 1")] at hp
    rcases List.mem_append.mp hp with hp | hp
    · exact hmixed.plain p (List.mem_append_left _ (List.mem_of_mem_take hp))
    · rcases List.mem_cons.mp hp with rfl | hp
      · trivial
      · exact hmixed.plain p (List.mem_append_left _ (List.mem_of_mem_drop hp))
  refine ⟨_, wide.map Slot.token, (reads_of_scan zeroText (fun _ => "") hone hclosed houter₁ hm₁ hinner₁ hn₁).body, ?_, ?_⟩
  · have hlex := lex_render hsafe hscan hn₂
    rwa [render_flatMap] at hlex
  · rw [List.length_map, List.length_map, hlength]
    have hthree : ([.number "1".toList, .operator "+".toList, .number "1".toList] : Output).length = 3 := rfl
    omega

/-- A literal with a zero character is no text of SQL. -/
theorem lex_zero {T : FloatText} {repr : Json → String} {s : Script} {value : String}
    (h : Part.hole (.literal value) ∈ s.body) (hzero : Char.ofNat 0 ∈ value.toList) : lex (s.text T repr) = none := by
  have hquoted : Char.ofNat 0 ∈ quoted value.toList := by
    unfold quoted
    refine List.mem_cons_of_mem _ (List.mem_append_left _ (List.mem_flatMap.mpr ⟨_, hzero, ?_⟩))
    rw [if_neg (by decide)]
    exact List.mem_singleton_self _
  have hbody : Char.ofNat 0 ∈ s.bodyText T repr := List.mem_flatMap.mpr ⟨_, h, hquoted⟩
  have htext : Char.ofNat 0 ∈ s.text T repr := by
    unfold Script.text dollarQuoted
    simp [hbody]
  unfold lex
  rw [run_zero htext]
  rfl

theorem script_zero : (smallRequest (configDocument zeroConfig) (smallDesiredOf (.int 1))).script id =
    .ok (applyScript zeroConfig (smallRows (.int 1))) :=
  bind_eq_ok.mpr ⟨zeroConfig, rfl, bind_eq_ok.mpr ⟨_, rowsOf_small (.int 1), rfl⟩⟩

/-- **A desired row that is no preview changes the tokens**, and a URL with a zero character makes no text at all. -/
theorem statement_not_sealed :
    (∃ s₁ s₂ one two, (smallRequest (configDocument smallConfig) (smallDesiredOf (.int 1))).script id = .ok s₁ ∧
      (smallRequest (configDocument smallConfig) (smallDesiredOf (.str "1 + 1"))).script id = .ok s₂ ∧
      s₁.branch = s₂.branch ∧ lex (s₁.bodyText zeroText fun _ => "") = some one ∧
      lex (s₂.bodyText zeroText fun _ => "") = some two ∧ one.length ≠ two.length) ∧
    ∃ s, (smallRequest (configDocument zeroConfig) (smallDesiredOf (.int 1))).script id = .ok s ∧
      lex (s.text zeroText fun _ => "") = none := by
  obtain ⟨one, two, hone, htwo, hlength⟩ := body_widened
  refine ⟨⟨_, _, one, two, script_small _, script_small _, rfl, hone, htwo, by omega⟩, _, script_zero, ?_⟩
  exact @lex_zero _ _ _ zeroConfig.apiUrl (by simp [applyScript]) (by decide)

end Readiness
end PickleInfra
