import PickleInfra.Network.Plan

/-!
# `Network.Ingress` — what the forward chain admits from the uplink

A new packet from the uplink to a guest network passes eleven blocks of rules. Seven of them cannot
apply to it, whatever the configuration; the other four decide, and each is characterised by the flow it
is about.
-/

namespace PickleInfra
namespace Network

open Python FirstMatch

/-! ## Flows -/

/-- A flow redirected from one of the ports of the campus address to a service in `pinfra`. -/
structure Redirected (node : Node) (source destination : IPv4) (ports : List Nat) (p : Packet) :
    Prop where
  outIface : p.outIface = "pinfra"
  source : p.source = source
  destination : p.destination = destination
  protocol : p.protocol = .tcp
  port : p.dport ∈ ports
  origdst : p.ctorigdst = node.campus
  origport : p.ctorigdstport = p.dport

/-- A flow of the relay to a guest address. -/
structure RelayedToGuest (t : RelayTransit) (guests : Subnet) (p : Packet) : Prop where
  outIface : p.outIface = "pguest"
  source : p.source = t.source
  destination : guests.contains p.destination = true
  protocol : p.protocol = .tcp ∨ p.protocol = .udp

/-- A flow of the relay to the API. -/
structure RelayedToApi (t : RelayTransit) (p : Packet) : Prop where
  outIface : p.outIface = "pinfra"
  source : p.source = t.source
  destination : p.destination = t.apiDestination
  protocol : p.protocol = .tcp
  port : p.dport = 8080

/-- The declared flows from the uplink. -/
def Admitted (config : Config) (node : Node) (guests : Subnet) (p : Packet) : Prop :=
  (∃ t, config.relayTransit = some t ∧
    ((RelayedToGuest t guests p ∧ p.dport ≠ 22) ∨ RelayedToApi t p)) ∨
  (∃ i, config.interimIngress = some i ∧ Redirected node i.source i.destination ingressPorts p) ∨
  (∃ t, config.publicSshTransit = some t ∧ Redirected node t.source t.destination [2224] p)

/-! ## The blocks that decide -/

section Blocks

variable {config : Config} {node : Node} {active : Bool} {guests : Subnet} {p : Packet}

/-- A section's block applies if the node is active, the section is there, and one of its rules
    applies. -/
theorem exists_whenActive {S : Type} {section? : Option S} {rules : S → List Rule} :
    (∃ r ∈ whenActive active section? rules, r.applies p = true) ↔
      active = true ∧ ∃ s, section? = some s ∧ ∃ r ∈ rules s, r.applies p = true := by
  unfold whenActive
  cases active with
  | false => simp
  | true => cases section? <;> simp

theorem target_whenActive {S : Type} {section? : Option S} {rules : S → List Rule} {v : Target}
    (h : ∀ s, ∀ r ∈ rules s, r.target = v) : ∀ r ∈ whenActive active section? rules, r.target = v := by
  intro r hr
  unfold whenActive at hr
  split at hr
  · obtain ⟨s, -, hr⟩ := List.mem_flatMap.mp hr
    exact h s r hr
  · cases hr

theorem applies_relaySshForward (hin : p.inIface = config.uplink) {t : RelayTransit} :
    (∃ r ∈ relaySshForward config t guests, r.applies p = true) ↔
      RelayedToGuest t guests p ∧ p.dport = 22 := by
  simp only [relaySshForward, Rule.applies, Match.holds, hin, List.map_cons, List.map_nil,
    List.mem_cons, List.not_mem_nil, or_false, exists_eq_or_imp, exists_eq_left, List.all_cons,
    List.all_nil, Bool.and_true, Bool.and_eq_true, decide_eq_true_eq, true_and]
  constructor
  · rintro (⟨hout, hsource, hdest, hprotocol, hport⟩ | ⟨hout, hsource, hdest, hprotocol, hport⟩)
    · exact ⟨⟨hout, hsource, hdest, .inl hprotocol⟩, hport⟩
    · exact ⟨⟨hout, hsource, hdest, .inr hprotocol⟩, hport⟩
  · rintro ⟨⟨hout, hsource, hdest, hprotocol | hprotocol⟩, hport⟩
    · exact .inl ⟨hout, hsource, hdest, hprotocol, hport⟩
    · exact .inr ⟨hout, hsource, hdest, hprotocol, hport⟩

theorem applies_relayForward (hin : p.inIface = config.uplink) (hnew : p.ctstate = .new)
    {t : RelayTransit} :
    (∃ r ∈ relayForward config t guests, r.applies p = true) ↔
      RelayedToGuest t guests p ∨ RelayedToApi t p := by
  have hstate : [CtState.new].contains CtState.new = true := by decide
  simp only [relayForward, Rule.applies, Match.holds, hin, hnew, hstate, List.map_cons, List.map_nil,
    List.cons_append, List.nil_append, List.mem_cons, List.not_mem_nil, or_false, exists_eq_or_imp,
    exists_eq_left, List.all_cons, List.all_nil, Bool.and_true, Bool.and_eq_true, decide_eq_true_eq,
    true_and]
  constructor
  · rintro (⟨hout, hsource, hdest, hprotocol⟩ | ⟨hout, hsource, hdest, hprotocol⟩ |
      ⟨hout, hsource, hdest, hprotocol, hport⟩)
    · exact .inl ⟨hout, hsource, hdest, .inl hprotocol⟩
    · exact .inl ⟨hout, hsource, hdest, .inr hprotocol⟩
    · exact .inr ⟨hout, hsource, hdest, hprotocol, hport⟩
  · rintro (⟨hout, hsource, hdest, hprotocol | hprotocol⟩ | ⟨hout, hsource, hdest, hprotocol, hport⟩)
    · exact .inl ⟨hout, hsource, hdest, hprotocol⟩
    · exact .inr (.inl ⟨hout, hsource, hdest, hprotocol⟩)
    · exact .inr (.inr ⟨hout, hsource, hdest, hprotocol, hport⟩)

theorem applies_redirectedForward (hin : p.inIface = config.uplink) (hnew : p.ctstate = .new)
    {source destination : IPv4} {ports : List Nat} :
    (∃ r ∈ redirectedForward config node source destination ports, r.applies p = true) ↔
      Redirected node source destination ports p := by
  have hstate : [CtState.new].contains CtState.new = true := by decide
  simp only [redirectedForward, List.mem_map, exists_exists_and_eq_and, Rule.applies, Match.holds, hin,
    hnew, hstate, List.all_cons, List.all_nil, Bool.and_true, Bool.and_eq_true, decide_eq_true_eq,
    true_and]
  constructor
  · rintro ⟨port, hport, hout, hsource, hdest, hprotocol, rfl, horig, horigport⟩
    exact ⟨hout, hsource, hdest, hprotocol, hport, horig, horigport⟩
  · rintro ⟨hout, hsource, hdest, hprotocol, hport, horig, horigport⟩
    exact ⟨p.dport, hport, hout, hsource, hdest, hprotocol, rfl, horig, horigport⟩

/-! ## The blocks that cannot apply -/

/-- The names of the interfaces of a node. -/
def interfaces (config : Config) (node : Node) : List String :=
  config.uplink :: config.meshInterface :: "pguest" :: "pinfra" :: node.bmcInterface.toList

/-- Names differ where the rules compare them. -/
structure Distinct (config : Config) (node : Node) : Prop where
  uplinkMesh : config.uplink ≠ config.meshInterface
  uplinkGuest : config.uplink ≠ "pguest"
  uplinkInfra : config.uplink ≠ "pinfra"
  meshGuest : config.meshInterface ≠ "pguest"
  meshInfra : config.meshInterface ≠ "pinfra"
  bmc : ∀ nic, node.bmcInterface = some nic →
    nic ≠ config.uplink ∧ nic ≠ config.meshInterface ∧ nic ≠ "pguest" ∧ nic ≠ "pinfra"

theorem distinct_of_nodup (h : (interfaces config node).Nodup) : Distinct config node := by
  unfold interfaces at h
  simp only [List.nodup_cons, List.mem_cons, not_or, Option.mem_toList] at h
  obtain ⟨⟨hmesh, hguest, hinfra, hnic⟩, ⟨hmeshGuest, hmeshInfra, hmeshNic⟩, ⟨-, hguestNic⟩, hinfraNic,
    -⟩ := h
  refine ⟨hmesh, hguest, hinfra, hmeshGuest, hmeshInfra, fun nic hn => ⟨?_, ?_, ?_, ?_⟩⟩
  · rintro rfl; exact hnic hn
  · rintro rfl; exact hmeshNic hn
  · rintro rfl; exact hguestNic hn
  · rintro rfl; exact hinfraNic hn

/-- The guest networks are exactly the two. -/
theorem mem_vnets (hv : validateConfig config = true) {name : String} :
    name ∈ config.vnets.keys ↔ name = "pinfra" ∨ name = "pguest" := by
  simp only [validateConfig, Bool.and_eq_true, decide_eq_true_eq, List.contains_iff_mem] at hv
  obtain ⟨⟨⟨⟨⟨⟨⟨⟨⟨⟨⟨⟨⟨⟨⟨⟨-, hsize⟩, hinfra⟩, hguest⟩, -⟩, -⟩, -⟩, -⟩, -⟩, -⟩, -⟩, -⟩, -⟩, -⟩, -⟩, -⟩, -⟩ := hv
  have hlength : config.vnets.keys.length = 2 := (List.length_map _).trans hsize
  constructor
  · intro hm
    by_contra hne
    rw [not_or] at hne
    have hnodup : [name, "pinfra", "pguest"].Nodup := by simp [hne.1, hne.2]
    have hsub : [name, "pinfra", "pguest"] ⊆ config.vnets.keys := by
      intro x hx
      simp only [List.mem_cons, List.not_mem_nil, or_false] at hx
      rcases hx with rfl | rfl | rfl <;> assumption
    have hle := (List.subperm_of_subset hnodup hsub).length_le
    rw [hlength] at hle
    exact absurd (show 3 ≤ 2 from hle) (by decide)
  · rintro (rfl | rfl) <;> assumption

/-- A chain that ends in the final block drops what enters or leaves a guest network and no block
    before it decides. -/
theorem verdict_finalForward (hv : validateConfig config = true)
    (h : p.inIface = "pguest" ∨ p.inIface = "pinfra" ∨ p.outIface = "pguest" ∨ p.outIface = "pinfra") :
    verdict (finalForward config) p = some .drop := by
  have hmem : ∀ name, name = "pinfra" ∨ name = "pguest" → ∀ r : Rule,
      r = ⟨[.inIface name], .drop⟩ ∨ r = ⟨[.outIface name], .drop⟩ → r ∈ finalForward config := by
    intro name hname r hr
    refine List.mem_flatMap.mpr ⟨name, (mem_vnets hv).mpr hname, ?_⟩
    rcases hr with rfl | rfl <;> simp
  have htarget : ∀ r ∈ finalForward config, r.target = .drop := by
    intro r hr
    obtain ⟨name, -, hr⟩ := List.mem_flatMap.mp hr
    simp only [List.mem_cons, List.not_mem_nil, or_false] at hr
    rcases hr with rfl | rfl <;> rfl
  rcases h with h | h | h | h
  · exact verdict_eq_some htarget (hmem "pguest" (.inr rfl) _ (.inl rfl)) (by simp [Rule.applies, Match.holds, h])
  · exact verdict_eq_some htarget (hmem "pinfra" (.inl rfl) _ (.inl rfl)) (by simp [Rule.applies, Match.holds, h])
  · exact verdict_eq_some htarget (hmem "pguest" (.inr rfl) _ (.inr rfl)) (by simp [Rule.applies, Match.holds, h])
  · exact verdict_eq_some htarget (hmem "pinfra" (.inl rfl) _ (.inr rfl)) (by simp [Rule.applies, Match.holds, h])

/-- The management interface is another one. -/
theorem silent_bmcForward (h : ∀ nic, node.bmcInterface = some nic → p.inIface ≠ nic ∧ p.outIface ≠ nic) :
    ∀ r ∈ bmcForward node, r.applies p = false := by
  intro r hr
  obtain ⟨nic, hnic, hr⟩ := List.mem_flatMap.mp hr
  obtain ⟨hin, hout⟩ := h nic (Option.mem_toList.mp hnic)
  simp only [List.mem_cons, List.not_mem_nil, or_false] at hr
  rcases hr with rfl | rfl
  · simp [Rule.applies, Match.holds, hin]
  · simp [Rule.applies, Match.holds, hout]

theorem silent_sameForward (h : p.inIface ≠ p.outIface) :
    ∀ r ∈ sameForward, r.applies p = false := by
  intro r hr
  simp only [sameForward, List.mem_cons, List.not_mem_nil, or_false] at hr
  rcases hr with rfl | rfl
  · simp only [Rule.applies, Match.holds, List.all_cons, List.all_nil, Bool.and_true,
      Bool.and_eq_false_iff, decide_eq_false_iff_not]
    exact Decidable.not_and_iff_not_or_not.mp fun hc => h (hc.1.trans hc.2.symm)
  · simp only [Rule.applies, Match.holds, List.all_cons, List.all_nil, Bool.and_true,
      Bool.and_eq_false_iff, decide_eq_false_iff_not]
    exact Decidable.not_and_iff_not_or_not.mp fun hc => h (hc.1.trans hc.2.symm)

theorem silent_hostForward (h : p.inIface ≠ "pguest") :
    ∀ r ∈ hostForward config, r.applies p = false := by
  intro r hr
  obtain ⟨host, -, hr⟩ := List.mem_flatMap.mp hr
  simp only [List.mem_cons, List.not_mem_nil, or_false] at hr
  rcases hr with rfl | rfl <;> simp [Rule.applies, Match.holds, h]

/-- Nothing new passes the uplink block on its way in, and nothing at all on its way out while the node
    is inactive. -/
theorem silent_uplinkForward
    (hin : p.inIface = config.uplink → p.ctstate ≠ .established ∧ p.ctstate ≠ .related)
    (hout : active = true → p.outIface ≠ config.uplink) :
    ∀ r ∈ uplinkForward config active, r.applies p = false := by
  intro r hr
  obtain ⟨name, -, hr⟩ := List.mem_flatMap.mp hr
  rcases List.mem_cons.mp hr with rfl | hr
  · by_cases h : p.inIface = config.uplink
    · obtain ⟨hestablished, hrelated⟩ := hin h
      simp [Rule.applies, Match.holds, replies, hestablished, hrelated]
    · simp [Rule.applies, Match.holds, h]
  · cases active with
    | false => cases hr
    | true =>
        obtain rfl := List.mem_singleton.mp hr
        simp [Rule.applies, Match.holds, hout rfl]

theorem silent_serviceForward {services : List IPv4}
    (h : (p.inIface ≠ "pguest" ∧ p.inIface ≠ "pinfra") ∨
      (p.outIface ≠ "pguest" ∧ p.outIface ≠ "pinfra")) :
    ∀ r ∈ serviceForward services, r.applies p = false := by
  intro r hr
  rcases List.mem_cons.mp hr with rfl | hr
  · rcases h with ⟨h, -⟩ | ⟨-, h⟩ <;> simp [Rule.applies, Match.holds, h]
  · obtain ⟨a, -, rfl⟩ := List.mem_map.mp hr
    rcases h with ⟨-, h⟩ | ⟨h, -⟩ <;> simp [Rule.applies, Match.holds, h]

theorem silent_backupForward {b : BackupService} (hinfra : p.inIface ≠ "pinfra")
    (hmesh : p.inIface ≠ config.meshInterface) :
    ∀ r ∈ backupForward config b, r.applies p = false := by
  intro r hr
  simp only [backupForward, List.mem_cons, List.not_mem_nil, or_false] at hr
  rcases hr with rfl | rfl
  · simp [Rule.applies, Match.holds, hinfra]
  · simp [Rule.applies, Match.holds, hmesh]

theorem silent_whenActive {S : Type} {section? : Option S} {rules : S → List Rule}
    (h : ∀ s, ∀ r ∈ rules s, r.applies p = false) :
    ∀ r ∈ whenActive active section? rules, r.applies p = false := by
  intro r hr
  unfold whenActive at hr
  split at hr
  · obtain ⟨s, -, hr⟩ := List.mem_flatMap.mp hr
    exact h s r hr
  · cases hr

/-- A block of one target decides if one of its rules applies, and otherwise is skipped. -/
theorem verdict_block {block after : List Rule} {v : Target} (htarget : ∀ r ∈ block, r.target = v) :
    ((∃ r ∈ block, r.applies p = true) ∧ verdict (block ++ after) p = some v) ∨
      ((¬ ∃ r ∈ block, r.applies p = true) ∧ verdict (block ++ after) p = verdict after p) := by
  by_cases h : ∃ r ∈ block, r.applies p = true
  · obtain ⟨r, hr, happ⟩ := h
    exact .inl ⟨⟨r, hr, happ⟩, verdict_append_of_some (verdict_eq_some htarget hr happ)⟩
  · refine .inr ⟨h, verdict_append_of_none (verdict_eq_none fun r hr => ?_)⟩
    exact Bool.eq_false_iff.mpr fun happ => h ⟨r, hr, happ⟩

theorem verdict_skip {block after : List Rule} (h : ∀ r ∈ block, r.applies p = false) :
    verdict (block ++ after) p = verdict after p :=
  verdict_append_of_none (verdict_eq_none h)

/-! ## The chain -/

variable {services : List IPv4}

theorem sshPort (hv : validateConfig config = true) {t : PublicSshTransit}
    (ht : config.publicSshTransit = some t) : t.port = 2224 := by
  simp only [validateConfig, Bool.and_eq_true] at hv
  obtain ⟨⟨-, hssh⟩, -⟩ := hv
  rw [ht, Option.all_some, Config.sshOk] at hssh
  simp only [Bool.and_eq_true, decide_eq_true_eq] at hssh
  exact hssh.1.1.1.1

/-- **New packets from the uplink**: the declared flows return, on the active node, and everything else
    is dropped. -/
theorem forward_from_uplink (hv : validateConfig config = true) (hd : Distinct config node)
    (hin : p.inIface = config.uplink) (hout : p.outIface = "pguest" ∨ p.outIface = "pinfra")
    (hnew : p.ctstate = .new) :
    (active = true ∧ Admitted config node guests p →
      verdict (forwardRules config node active guests services) p = some .returns) ∧
    (¬ (active = true ∧ Admitted config node guests p) →
      verdict (forwardRules config node active guests services) p = some .drop) := by
  have hinGuest : p.inIface ≠ "pguest" := hin ▸ hd.uplinkGuest
  have hinInfra : p.inIface ≠ "pinfra" := hin ▸ hd.uplinkInfra
  have hinOut : p.inIface ≠ p.outIface := by
    rcases hout with h | h <;> rw [h] <;> assumption
  have hbmc : ∀ nic, node.bmcInterface = some nic → p.inIface ≠ nic ∧ p.outIface ≠ nic := by
    intro nic hnic
    obtain ⟨huplink, -, hguest, hinfra⟩ := hd.bmc nic hnic
    refine ⟨hin ▸ huplink.symm, ?_⟩
    rcases hout with h | h
    · exact h ▸ hguest.symm
    · exact h ▸ hinfra.symm
  have houtUplink : p.outIface ≠ config.uplink := fun h => hinOut (hin.trans h.symm)
  have hfinal : verdict (finalForward config) p = some .drop :=
    verdict_finalForward hv (.inr (.inr hout))
  -- the flows, one for each deciding block
  have hssh : (∃ r ∈ whenActive active config.relayTransit (fun t => relaySshForward config t guests),
      r.applies p = true) ↔ active = true ∧ ∃ t, config.relayTransit = some t ∧
        RelayedToGuest t guests p ∧ p.dport = 22 := by
    rw [exists_whenActive]
    simp only [applies_relaySshForward hin]
  have hrelay : (∃ r ∈ whenActive active config.relayTransit (fun t => relayForward config t guests),
      r.applies p = true) ↔ active = true ∧ ∃ t, config.relayTransit = some t ∧
        (RelayedToGuest t guests p ∨ RelayedToApi t p) := by
    rw [exists_whenActive]
    simp only [applies_relayForward hin hnew]
  have hingress : (∃ r ∈ whenActive active config.interimIngress
      (fun i => redirectedForward config node i.source i.destination ingressPorts),
      r.applies p = true) ↔ active = true ∧ ∃ i, config.interimIngress = some i ∧
        Redirected node i.source i.destination ingressPorts p := by
    rw [exists_whenActive]
    simp only [applies_redirectedForward hin hnew]
  have htransit : (∃ r ∈ whenActive active config.publicSshTransit
      (fun t => redirectedForward config node t.source t.destination [t.port]),
      r.applies p = true) ↔ active = true ∧ ∃ t, config.publicSshTransit = some t ∧
        Redirected node t.source t.destination [t.port] p := by
    rw [exists_whenActive]
    simp only [applies_redirectedForward hin hnew]
  -- the targets of the deciding blocks
  have tssh : ∀ r ∈ whenActive active config.relayTransit (fun t => relaySshForward config t guests),
      r.target = .drop := target_whenActive fun t r hr => by
    obtain ⟨protocol, -, rfl⟩ := List.mem_map.mp hr; rfl
  have tredirected : ∀ (source destination : IPv4) (ports : List Nat),
      ∀ r ∈ redirectedForward config node source destination ports, r.target = .returns := by
    intro source destination ports r hr
    obtain ⟨port, -, rfl⟩ := List.mem_map.mp hr; rfl
  have tingress : ∀ r ∈ whenActive active config.interimIngress
      (fun i => redirectedForward config node i.source i.destination ingressPorts),
      r.target = .returns :=
    target_whenActive fun i => tredirected i.source i.destination ingressPorts
  have ttransit : ∀ r ∈ whenActive active config.publicSshTransit
      (fun t => redirectedForward config node t.source t.destination [t.port]),
      r.target = .returns :=
    target_whenActive fun t => tredirected t.source t.destination [t.port]
  have trelay : ∀ r ∈ whenActive active config.relayTransit (fun t => relayForward config t guests),
      r.target = .returns := target_whenActive fun t r hr => by
    rcases List.mem_append.mp hr with hr | hr
    · obtain ⟨protocol, -, rfl⟩ := List.mem_map.mp hr; rfl
    · obtain rfl := List.mem_singleton.mp hr; rfl
  unfold forwardRules
  rw [verdict_skip (silent_bmcForward hbmc), verdict_skip (silent_sameForward hinOut),
    verdict_skip (silent_hostForward hinGuest)]
  rcases verdict_block (p := p) tssh with ⟨happ, hverdict⟩ | ⟨hnone, hverdict⟩
  · -- SSH to a guest is dropped, and it is no declared flow
    rw [hverdict]
    obtain ⟨-, t, ht, hguest, hport⟩ := hssh.mp happ
    have hnot : ¬ Admitted config node guests p := by
      rintro (⟨t', ht', ⟨-, hne⟩ | hapi⟩ | ⟨i, -, hi⟩ | ⟨t', -, ht'⟩)
      · exact hne hport
      · exact absurd (hguest.outIface.symm.trans hapi.outIface) (by decide)
      · exact absurd (hguest.outIface.symm.trans hi.outIface) (by decide)
      · exact absurd (hguest.outIface.symm.trans ht'.outIface) (by decide)
    exact ⟨fun h => absurd h.2 hnot, fun _ => rfl⟩
  have hnossh := mt hssh.mpr hnone
  rw [hverdict, verdict_skip (silent_uplinkForward (fun _ => by simp [hnew]) (fun _ => houtUplink))]
  rcases verdict_block (p := p) tingress with ⟨happ, hverdict⟩ | ⟨hnone, hverdict⟩
  · rw [hverdict]
    obtain ⟨hactive, hflow⟩ := hingress.mp happ
    exact ⟨fun _ => rfl, fun h => absurd ⟨hactive, .inr (.inl hflow)⟩ h⟩
  have hnoingress := mt hingress.mpr hnone
  rw [hverdict]
  rcases verdict_block (p := p) ttransit with ⟨happ, hverdict⟩ | ⟨hnone, hverdict⟩
  · rw [hverdict]
    obtain ⟨hactive, t, ht, hflow⟩ := htransit.mp happ
    rw [sshPort hv ht] at hflow
    exact ⟨fun _ => rfl, fun h => absurd ⟨hactive, .inr (.inr ⟨t, ht, hflow⟩)⟩ h⟩
  have hnotransit := mt htransit.mpr hnone
  rw [hverdict]
  rcases verdict_block (p := p) trelay with ⟨happ, hverdict⟩ | ⟨hnone, hverdict⟩
  · rw [hverdict]
    obtain ⟨hactive, t, ht, hflow⟩ := hrelay.mp happ
    refine ⟨fun _ => rfl, fun h => absurd ⟨hactive, .inl ⟨t, ht, ?_⟩⟩ h⟩
    rcases hflow with hguest | hapi
    · exact .inl ⟨hguest, fun hport => hnossh ⟨hactive, t, ht, hguest, hport⟩⟩
    · exact .inr hapi
  have hnorelay := mt hrelay.mpr hnone
  rw [hverdict, verdict_skip (silent_serviceForward (.inl ⟨hinGuest, hinInfra⟩)),
    verdict_skip (silent_whenActive fun b => silent_backupForward hinInfra (hin ▸ hd.uplinkMesh)), hfinal]
  refine ⟨?_, fun _ => rfl⟩
  rintro ⟨hactive, ⟨t, ht, ⟨hguest, -⟩ | hapi⟩ | hi | ⟨t, ht, hflow⟩⟩
  · exact absurd ⟨hactive, t, ht, .inl hguest⟩ hnorelay
  · exact absurd ⟨hactive, t, ht, .inr hapi⟩ hnorelay
  · exact absurd ⟨hactive, hi⟩ hnoingress
  · exact absurd ⟨hactive, t, ht, (sshPort hv ht).symm ▸ hflow⟩ hnotransit

/-- **Packets from a guest network to the uplink** are dropped while the node is inactive. -/
theorem forward_to_uplink (hv : validateConfig config = true) (hd : Distinct config node)
    (hin : p.inIface = "pguest" ∨ p.inIface = "pinfra") (hout : p.outIface = config.uplink) :
    verdict (forwardRules config node false guests services) p = some .drop := by
  have hinUplink : p.inIface ≠ config.uplink := by
    rcases hin with h | h
    · exact h ▸ hd.uplinkGuest.symm
    · exact h ▸ hd.uplinkInfra.symm
  have hbmc : ∀ nic, node.bmcInterface = some nic → p.inIface ≠ nic ∧ p.outIface ≠ nic := by
    intro nic hnic
    obtain ⟨huplink, -, hguest, hinfra⟩ := hd.bmc nic hnic
    refine ⟨?_, hout ▸ huplink.symm⟩
    rcases hin with h | h
    · exact h ▸ hguest.symm
    · exact h ▸ hinfra.symm
  have hhost : ∀ r ∈ hostForward config, r.target = .drop := by
    intro r hr
    obtain ⟨host, -, hr⟩ := List.mem_flatMap.mp hr
    simp only [List.mem_cons, List.not_mem_nil, or_false] at hr
    rcases hr with rfl | rfl <;> rfl
  unfold forwardRules
  rw [verdict_skip (silent_bmcForward hbmc),
    verdict_skip (silent_sameForward fun h => hinUplink (h.trans hout))]
  rcases verdict_block (p := p) hhost with ⟨-, hverdict⟩ | ⟨-, hverdict⟩
  · exact hverdict
  rw [hverdict]
  show verdict (uplinkForward config false ++ (serviceForward services ++ finalForward config)) p = _
  rw [verdict_skip (silent_uplinkForward (fun h => absurd h hinUplink) (fun h => absurd h (by decide))),
    verdict_skip (silent_serviceForward (.inr ⟨hout ▸ hd.uplinkGuest, hout ▸ hd.uplinkInfra⟩))]
  exact verdict_finalForward hv (hin.imp_right .inl)

end Blocks

/-! ## `firewall_plan` -/

/-- Two nodes: every node has a peer. -/
theorem exists_peer {config : Config} (hv : validateConfig config = true) (nodeName : String) :
    ∃ peer, (config.nodes.entries.find? (fun e => e.1 ≠ nodeName)).map Prod.snd = some peer := by
  have hsize : config.nodes.size = 2 := by
    simp only [validateConfig, Bool.and_eq_true, decide_eq_true_eq] at hv
    exact hv.1.1.1.1.1.1.1.1.1.1.1.1.1.1.1.1.1.2
  cases hf : config.nodes.entries.find? (fun e => e.1 ≠ nodeName) with
  | some e => exact ⟨e.2, rfl⟩
  | none =>
      have hsub : config.nodes.keys ⊆ [nodeName] := by
        intro name hname
        obtain ⟨e, he, rfl⟩ := List.mem_map.mp hname
        have hnot := List.find?_eq_none.mp hf e he
        simpa using hnot
      have hle := (List.subperm_of_subset config.nodes.nodup hsub).length_le
      have hlength : config.nodes.keys.length = 2 := (List.length_map _).trans hsize
      have hle : config.nodes.keys.length ≤ 1 := hle
      omega

/-- The filtering chains of a plan, in terms of its parameters. -/
structure Chains (config : Config) (node : Node) (active : Bool) (peer : Node) (api : IPv4)
    (services : List IPv4) (guests : Subnet) (plan : Plan) : Prop where
  raw : plan.iptables.raw = [⟨[.inIface config.meshInterface, .source peer.mesh] ++ localVxlan, .returns⟩,
    ⟨localVxlan, .drop⟩, ⟨[.inIfaceFrom "fwbr"], .ctZone 1⟩]
  input : plan.iptables.input = bmcInput node ++ guestInput api
    ++ (config.interimIngress.toList.flatMap (fun _ => redirectedInput node ingressPorts)
      ++ config.publicSshTransit.toList.flatMap (fun t => redirectedInput node [t.port]))
  forward : plan.iptables.forward = forwardRules config node active guests services
  raw6 : plan.ip6tables.raw = [⟨localVxlan, .drop⟩]
  input6 : plan.ip6tables.input =
    bmcInput node ++ config.vnets.keys.map (fun name => ⟨[.inIface name], .drop⟩)
  forward6 : plan.ip6tables.forward = bmcForward node ++ sameForward ++ finalForward config

/-- With the four services named, there is a plan for every node. -/
theorem firewallPlan_chains {config : Config} (hv : validateConfig config = true)
    (hservices : ∀ s ∈ ["api", "proxy", "sshgw", "relay"], s ∈ config.serviceSources.keys)
    {nodeName : String} {node : Node} (hnode : config.nodes.get? nodeName = some node)
    (mark : AcceptMark) (active : Bool) :
    ∃ plan pguest peer api services, firewallPlan config nodeName mark active = some plan ∧
      config.vnets.get? "pguest" = some pguest ∧
      (config.nodes.entries.find? (fun e => e.1 ≠ nodeName)).map Prod.snd = some peer ∧
      Chains config node active peer api services pguest.cidr plan := by
  have hservice : ∀ s ∈ ["api", "proxy", "sshgw", "relay"], ∃ a, serviceSource config s = some a :=
    fun s hs => Option.isSome_iff_exists.mp (config.serviceSources.get?_isSome_iff.mpr (hservices s hs))
  obtain ⟨api, hapi⟩ := hservice "api" (by simp)
  obtain ⟨proxy, hproxy⟩ := hservice "proxy" (by simp)
  obtain ⟨sshgw, hsshgw⟩ := hservice "sshgw" (by simp)
  obtain ⟨relay, hrelay⟩ := hservice "relay" (by simp)
  obtain ⟨pguest, hpguest⟩ := Option.isSome_iff_exists.mp
    (config.vnets.get?_isSome_iff.mpr ((mem_vnets hv).mpr (.inr rfl)))
  obtain ⟨peer, hpeer⟩ := exists_peer hv nodeName
  simp only [firewallPlan, hnode, hpeer, hapi, hproxy, hsshgw, hrelay, hpguest, Option.bind_eq_bind,
    Option.bind_some, Option.some.injEq]
  exact ⟨_, pguest, peer, api, [proxy, sshgw, relay], rfl, rfl, rfl, ⟨rfl, rfl, rfl, rfl, rfl, rfl⟩⟩

/-- **The firewall plan admits exactly the declared flows** from the uplink to the guest networks, on the
    active node only; and an inactive node lets nothing out of them. -/
theorem admits_declared_flows {config : Config} (hv : validateConfig config = true)
    (hservices : ∀ s ∈ ["api", "proxy", "sshgw", "relay"], s ∈ config.serviceSources.keys)
    {nodeName : String} {node : Node} (hnode : config.nodes.get? nodeName = some node)
    (hnames : (interfaces config node).Nodup) (mark : AcceptMark) (active : Bool) :
    ∃ plan pguest, firewallPlan config nodeName mark active = some plan ∧
      config.vnets.get? "pguest" = some pguest ∧
      (∀ p : Packet, p.inIface = config.uplink → p.outIface = "pguest" ∨ p.outIface = "pinfra" →
        p.ctstate = .new →
        (active = true ∧ Admitted config node pguest.cidr p →
          verdict plan.iptables.forward p = some .returns) ∧
        (¬ (active = true ∧ Admitted config node pguest.cidr p) →
          verdict plan.iptables.forward p = some .drop)) ∧
      (active = false → ∀ p : Packet, p.inIface = "pguest" ∨ p.inIface = "pinfra" →
        p.outIface = config.uplink → verdict plan.iptables.forward p = some .drop) := by
  obtain ⟨plan, pguest, peer, api, services, hplan, hpguest, -, hchains⟩ :=
    firewallPlan_chains hv hservices hnode mark active
  have hd := distinct_of_nodup hnames
  refine ⟨plan, pguest, hplan, hpguest, ?_, ?_⟩
  · intro p hin hout hnew
    rw [hchains.forward]
    exact forward_from_uplink hv hd hin hout hnew
  · rintro rfl p hin hout
    rw [hchains.forward]
    exact forward_to_uplink hv hd hin hout

/-! ## The production configuration, with every optional section -/

def subnet16 (base : IPv4) (h : base &&& hostmask 16 = 0) : Subnet := ⟨base, 16, by decide, h⟩

def demoNode : Node where
  campus := 0xc000021e#32
  mesh := 0x6440001e#32
  bmcInterface := some "nic1"
  bmcAddress := some 0xc6336402#32

def demoPeer : Node where
  campus := 0xc000021f#32
  mesh := 0x6440001f#32

def demoRelay : RelayTransit where
  source := 0x64400001#32
  apiDestination := 0x64410114#32

def demoConfig : Config where
  schema := 1
  cluster := "example-prod"
  zone := "prodvx"
  gatewayOwner := "pve-a"
  hostMtu := 1420
  guestMtu := 1370
  uplink := "vmbr0"
  meshInterface := "wt0"
  nodes := Dict.set (Dict.set .empty "pve-a" demoNode) "pve-b" demoPeer
  vnets := Dict.set (Dict.set .empty
    "pinfra" ⟨927000, subnet16 0x64410000#32 (by decide), 0x64410001#32⟩)
    "pguest" ⟨928000, subnet16 0x64420000#32 (by decide), 0x64420001#32⟩
  serviceSources := Dict.set (Dict.set (Dict.set (Dict.set .empty
    "api" 0x64410114#32) "proxy" 0x6441010a#32) "sshgw" 0x6441011e#32) "relay" 0x64400001#32
  relayTransit := some demoRelay

/-- A packet of the relay to a guest address. -/
def relayPacket (outIface : String) (dport : Nat) : Packet where
  inIface := "vmbr0"
  outIface := outIface
  physdevIn := ""
  source := 0x64400001#32
  destination := 0x64420105#32
  toLocal := false
  protocol := .tcp
  sport := 40000
  dport := dport
  echoRequest := false
  mark := 0#32
  ctstate := .new
  ctorigdst := 0x64420105#32
  ctorigdstport := dport

/-- The relay to a guest address and port 443 returns, when it leaves on the guests' interface. -/
theorem admits_declared_flows_relay :
    ∃ plan, firewallPlan demoConfig "pve-a" ⟨0x1bd20#32, 0xffffffff#32, 0x80000000#32⟩ true = some plan ∧
      verdict plan.iptables.forward (relayPacket "pguest" 443) = some .returns ∧
      verdict plan.iptables.forward (relayPacket "pguest" 22) = some .drop := by
  obtain ⟨plan, pguest, hplan, hpguest, hpackets, -⟩ :=
    @admits_declared_flows demoConfig (by decide +kernel) (by decide +kernel) "pve-a" demoNode rfl
      (by decide +kernel) ⟨0x1bd20#32, 0xffffffff#32, 0x80000000#32⟩ true
  obtain rfl : _ = pguest := Option.some.inj hpguest
  refine ⟨plan, hplan, (hpackets _ rfl (.inl rfl) rfl).1 ⟨rfl, .inl ⟨demoRelay, rfl, .inl ⟨?_, ?_⟩⟩⟩,
    (hpackets _ rfl (.inl rfl) rfl).2 ?_⟩
  · exact ⟨rfl, rfl, by decide +kernel, .inl rfl⟩
  · decide
  · rintro ⟨-, ⟨t, ht, ⟨-, hport⟩ | hapi⟩ | ⟨i, hi, -⟩ | ⟨t, ht, -⟩⟩
    · exact hport rfl
    · exact absurd hapi.outIface (by decide)
    · cases hi
    · cases ht

/-- The same packet towards the other guest network is dropped: the rules name the interface, not the
    address alone. -/
theorem wrong_interface_dropped :
    ∃ plan, firewallPlan demoConfig "pve-a" ⟨0x1bd20#32, 0xffffffff#32, 0x80000000#32⟩ true = some plan ∧
      validateConfig demoConfig = true ∧ (interfaces demoConfig demoNode).Nodup ∧
      (relayPacket "pinfra" 443).source = demoRelay.source ∧
      (∀ pguest, demoConfig.vnets.get? "pguest" = some pguest →
        pguest.cidr.contains (relayPacket "pinfra" 443).destination = true) ∧
      (relayPacket "pinfra" 443).protocol = .tcp ∧ (relayPacket "pinfra" 443).dport ≠ 22 ∧
      verdict plan.iptables.forward (relayPacket "pinfra" 443) = some .drop := by
  refine ⟨_, rfl, by decide +kernel, by decide +kernel, rfl, ?_, rfl, by decide, by decide +kernel⟩
  intro pguest hpguest
  obtain rfl := Option.some.inj hpguest
  decide +kernel

end Network
end PickleInfra
