import PickleInfra.Network.Ingress

/-!
# `Network.Guests` — what the forward chain does to packets of the guests

A packet from `pguest` to another interface passes the same eleven blocks. Three of them can decide: the
one of the hosts' addresses, the one of the uplink and the one between the guest networks. What they
leave over is dropped at the end, so the verdict is characterised exactly; the management interface is
closed by the first block, whatever the packet.
-/

namespace PickleInfra
namespace Network

open Python FirstMatch

section Guests

variable {config : Config} {node : Node} {active : Bool} {guests : Subnet} {services : List IPv4}
  {p : Packet}

/-! ## The management interface -/

theorem target_bmcForward : ∀ r ∈ bmcForward node, r.target = .drop := by
  intro r hr
  obtain ⟨nic, -, hr⟩ := List.mem_flatMap.mp hr
  simp only [List.mem_cons, List.not_mem_nil, or_false] at hr
  rcases hr with rfl | rfl <;> rfl

/-- The rule of `bmcForward` about what leaves on the management interface. -/
theorem mem_bmcForward {nic : String} (hnic : node.bmcInterface = some nic) :
    ⟨[.outIface nic], .drop⟩ ∈ bmcForward node := by
  refine List.mem_flatMap.mpr ⟨nic, Option.mem_toList.mpr hnic, ?_⟩
  exact List.mem_cons_of_mem _ (List.mem_singleton.mpr rfl)

/-- Nothing leaves on the management interface. -/
theorem verdict_toBmc {after : List Rule} {nic : String} (hnic : node.bmcInterface = some nic)
    (hout : p.outIface = nic) : verdict (bmcForward node ++ after) p = some .drop := by
  apply verdict_append_of_some
  apply verdict_eq_some target_bmcForward (mem_bmcForward hnic)
  simp [Rule.applies, Match.holds, hout]

theorem verdict6_toBmc {after : List Rule} {p : Packet6} {nic : String}
    (hnic : node.bmcInterface = some nic) (hout : p.outIface = nic) :
    verdict6 (bmcForward node ++ after) p = some .drop := by
  apply verdict_append_of_some
  apply verdict_eq_some target_bmcForward (mem_bmcForward hnic)
  simp [Rule.applies6, Match.holds6, hout]

/-! ## The blocks that can decide -/

/-- The destination is the campus or the mesh address of a node. -/
def ToHost (config : Config) (p : Packet) : Prop :=
  ∃ host ∈ config.nodes.values, p.destination = host.campus ∨ p.destination = host.mesh

theorem applies_hostForward (hin : p.inIface = "pguest") :
    (∃ r ∈ hostForward config, r.applies p = true) ↔ ToHost config p := by
  constructor
  · rintro ⟨r, hr, happ⟩
    obtain ⟨host, hhost, hr⟩ := List.mem_flatMap.mp hr
    refine ⟨host, hhost, ?_⟩
    simp only [List.mem_cons, List.not_mem_nil, or_false] at hr
    rcases hr with rfl | rfl
    · left
      simpa [Rule.applies, Match.holds, hin] using happ
    · right
      simpa [Rule.applies, Match.holds, hin] using happ
  · rintro ⟨host, hhost, hdest⟩
    rcases hdest with hdest | hdest
    · refine ⟨⟨[.inIface "pguest", .destination host.campus], .drop⟩, ?_, ?_⟩
      · exact List.mem_flatMap.mpr ⟨host, hhost, List.mem_cons_self⟩
      · simp [Rule.applies, Match.holds, hin, hdest]
    · refine ⟨⟨[.inIface "pguest", .destination host.mesh], .drop⟩, ?_, ?_⟩
      · exact List.mem_flatMap.mpr ⟨host, hhost, List.mem_cons_of_mem _ List.mem_cons_self⟩
      · simp [Rule.applies, Match.holds, hin, hdest]

theorem applies_uplinkForward (hv : validateConfig config = true) (hin : p.inIface = "pguest")
    (hne : p.inIface ≠ config.uplink) :
    (∃ r ∈ uplinkForward config active, r.applies p = true) ↔
      active = true ∧ p.outIface = config.uplink := by
  constructor
  · rintro ⟨r, hr, happ⟩
    obtain ⟨name, -, hr⟩ := List.mem_flatMap.mp hr
    rcases List.mem_cons.mp hr with rfl | hr
    · simp [Rule.applies, Match.holds, hne] at happ
    · cases active with
      | false => cases hr
      | true =>
          obtain rfl := List.mem_singleton.mp hr
          simp only [Rule.applies, Match.holds, List.all_cons, List.all_nil, Bool.and_true,
            Bool.and_eq_true, decide_eq_true_eq] at happ
          exact ⟨rfl, happ.2⟩
  · rintro ⟨rfl, hout⟩
    refine ⟨⟨[.inIface "pguest", .outIface config.uplink], .returns⟩, ?_, ?_⟩
    · refine List.mem_flatMap.mpr ⟨"pguest", (mem_vnets hv).mpr (.inr rfl), ?_⟩
      exact List.mem_cons_of_mem _ (List.mem_singleton.mpr rfl)
    · simp [Rule.applies, Match.holds, hin, hout]

theorem target_uplinkForward : ∀ r ∈ uplinkForward config active, r.target = .returns := by
  intro r hr
  obtain ⟨name, -, hr⟩ := List.mem_flatMap.mp hr
  rcases List.mem_cons.mp hr with rfl | hr
  · rfl
  · cases active with
    | false => cases hr
    | true => obtain rfl := List.mem_singleton.mp hr; rfl

/-- A reply, for the state of its connection. -/
def Packet.IsReply (p : Packet) : Prop := p.ctstate = .established ∨ p.ctstate = .related

theorem holds_replies : Match.holds p replies = true ↔ p.IsReply := by
  unfold replies Match.holds Packet.IsReply
  simp

theorem applies_serviceForward (hin : p.inIface = "pguest") :
    (∃ r ∈ serviceForward services, r.applies p = true) ↔ p.outIface = "pinfra" ∧ p.IsReply := by
  constructor
  · rintro ⟨r, hr, happ⟩
    rcases List.mem_cons.mp hr with rfl | hr
    · simp only [Rule.applies, List.all_cons, List.all_nil, Bool.and_true, Bool.and_eq_true,
        holds_replies] at happ
      exact ⟨by simpa [Match.holds] using happ.2.1, happ.2.2⟩
    · obtain ⟨a, -, rfl⟩ := List.mem_map.mp hr
      simp [Rule.applies, Match.holds, hin] at happ
  · rintro ⟨hout, hreply⟩
    refine ⟨_, List.mem_cons_self, ?_⟩
    simp only [Rule.applies, List.all_cons, List.all_nil, Bool.and_true, Bool.and_eq_true,
      holds_replies]
    exact ⟨by simp [Match.holds, hin], by simp [Match.holds, hout], hreply⟩

theorem target_serviceForward : ∀ r ∈ serviceForward services, r.target = .returns := by
  intro r hr
  rcases List.mem_cons.mp hr with rfl | hr
  · rfl
  · obtain ⟨a, -, rfl⟩ := List.mem_map.mp hr; rfl

/-! ## The blocks about the uplink -/

/-- Rules that all ask for the uplink are silent about packets from elsewhere. -/
theorem silent_fromUplink {rules : List Rule} (hne : p.inIface ≠ config.uplink)
    (h : ∀ r ∈ rules, .inIface config.uplink ∈ r.conds) : ∀ r ∈ rules, r.applies p = false := by
  intro r hr
  refine List.all_eq_false.mpr ⟨_, h r hr, ?_⟩
  simpa [Match.holds] using hne

theorem fromUplink_relaySshForward {t : RelayTransit} :
    ∀ r ∈ relaySshForward config t guests, .inIface config.uplink ∈ r.conds := by
  intro r hr
  obtain ⟨protocol, -, rfl⟩ := List.mem_map.mp hr
  exact List.mem_cons_self

theorem fromUplink_redirectedForward {source destination : IPv4} {ports : List Nat} :
    ∀ r ∈ redirectedForward config node source destination ports,
      .inIface config.uplink ∈ r.conds := by
  intro r hr
  obtain ⟨port, -, rfl⟩ := List.mem_map.mp hr
  exact List.mem_cons_self

theorem fromUplink_relayForward {t : RelayTransit} :
    ∀ r ∈ relayForward config t guests, .inIface config.uplink ∈ r.conds := by
  intro r hr
  rcases List.mem_append.mp hr with hr | hr
  · obtain ⟨protocol, -, rfl⟩ := List.mem_map.mp hr
    exact List.mem_cons_self
  · obtain rfl := List.mem_singleton.mp hr
    exact List.mem_cons_self

/-! ## The verdict -/

/-- What a guest may reach on another interface: through the uplink of the active node everything but the
    hosts, and with replies the other guest network. -/
def Reachable (config : Config) (active : Bool) (p : Packet) : Prop :=
  ¬ ToHost config p ∧
    ((active = true ∧ p.outIface = config.uplink) ∨ (p.outIface = "pinfra" ∧ p.IsReply))

/-- A packet from `pguest` to another interface returns if it may, and else is dropped. -/
theorem forward_from_guest (hv : validateConfig config = true) (hd : Distinct config node)
    (hin : p.inIface = "pguest") (hout : p.outIface ≠ "pguest") :
    (Reachable config active p →
      verdict (forwardRules config node active guests services) p = some .returns) ∧
    (¬ Reachable config active p →
      verdict (forwardRules config node active guests services) p = some .drop) := by
  have hinUplink : p.inIface ≠ config.uplink := hin ▸ hd.uplinkGuest.symm
  have hinInfra : p.inIface ≠ "pinfra" := hin ▸ by decide
  have hinMesh : p.inIface ≠ config.meshInterface := hin ▸ hd.meshGuest.symm
  have hhost : ∀ r ∈ hostForward config, r.target = .drop := by
    intro r hr
    obtain ⟨host, -, hr⟩ := List.mem_flatMap.mp hr
    simp only [List.mem_cons, List.not_mem_nil, or_false] at hr
    rcases hr with rfl | rfl <;> rfl
  unfold forwardRules
  by_cases hnic : ∃ nic, node.bmcInterface = some nic ∧ p.outIface = nic
  · -- the management interface is neither the uplink nor a guest network
    obtain ⟨nic, hbmc, hnic⟩ := hnic
    obtain ⟨huplink, -, -, hinfra⟩ := hd.bmc nic hbmc
    rw [verdict_toBmc hbmc hnic]
    refine ⟨?_, fun _ => rfl⟩
    rintro ⟨-, ⟨-, h⟩ | ⟨h, -⟩⟩
    · exact absurd (hnic.symm.trans h) huplink
    · exact absurd (hnic.symm.trans h) hinfra
  have hbmc : ∀ nic, node.bmcInterface = some nic → p.inIface ≠ nic ∧ p.outIface ≠ nic := by
    intro nic hbmc
    exact ⟨hin ▸ (hd.bmc nic hbmc).2.2.1.symm, fun h => hnic ⟨nic, hbmc, h⟩⟩
  rw [verdict_skip (silent_bmcForward hbmc),
    verdict_skip (silent_sameForward fun h => hout (h.symm.trans hin))]
  rcases verdict_block (p := p) hhost with ⟨happ, hverdict⟩ | ⟨hnone, hverdict⟩
  · rw [hverdict]
    have htoHost := (applies_hostForward hin).mp happ
    exact ⟨fun h => absurd htoHost h.1, fun _ => rfl⟩
  have hnohost := mt (applies_hostForward hin).mpr hnone
  rw [hverdict, verdict_skip (silent_whenActive fun t =>
    silent_fromUplink hinUplink fromUplink_relaySshForward)]
  rcases verdict_block (p := p) (@target_uplinkForward config active) with
    ⟨happ, hverdict⟩ | ⟨hnone, hverdict⟩
  · rw [hverdict]
    have hreach := (applies_uplinkForward hv hin hinUplink).mp happ
    exact ⟨fun _ => rfl, fun h => absurd ⟨hnohost, .inl hreach⟩ h⟩
  have hnouplink := mt (applies_uplinkForward hv hin hinUplink).mpr hnone
  rw [hverdict,
    verdict_skip (silent_whenActive fun i => silent_fromUplink hinUplink fromUplink_redirectedForward),
    verdict_skip (silent_whenActive fun t => silent_fromUplink hinUplink fromUplink_redirectedForward),
    verdict_skip (silent_whenActive fun t => silent_fromUplink hinUplink fromUplink_relayForward)]
  rcases verdict_block (p := p) (@target_serviceForward services) with
    ⟨happ, hverdict⟩ | ⟨hnone, hverdict⟩
  · rw [hverdict]
    have hreach := (applies_serviceForward hin).mp happ
    exact ⟨fun _ => rfl, fun h => absurd ⟨hnohost, .inr hreach⟩ h⟩
  have hnoreply := mt (applies_serviceForward hin).mpr hnone
  rw [hverdict, verdict_skip (silent_whenActive fun b => silent_backupForward hinInfra hinMesh),
    verdict_finalForward hv (.inl hin)]
  refine ⟨?_, fun _ => rfl⟩
  rintro ⟨-, h | h⟩
  · exact absurd h hnouplink
  · exact absurd h hnoreply

end Guests

/-- **Guests do not reach the hosts** at their campus and mesh addresses, and reach other interfaces only
    through the uplink of the active node or with replies. A management address is filtered by the
    interface alone; the management interface of the node itself forwards nothing. -/
theorem guests_kept_from_hosts {config : Config} (hv : validateConfig config = true)
    (hservices : ∀ s ∈ ["api", "proxy", "sshgw", "relay"], s ∈ config.serviceSources.keys)
    {nodeName : String} {node : Node} (hnode : config.nodes.get? nodeName = some node)
    (hnames : (interfaces config node).Nodup) (mark : AcceptMark) (active : Bool) :
    ∃ plan, firewallPlan config nodeName mark active = some plan ∧
      (∀ p : Packet, p.inIface = "pguest" → p.outIface ≠ "pguest" →
        (∀ host ∈ config.nodes.values, p.destination = host.campus ∨ p.destination = host.mesh →
          verdict plan.iptables.forward p = some .drop) ∧
        (∀ host ∈ config.nodes.values, host.bmcAddress = some p.destination →
          (verdict plan.iptables.forward p = some .drop ↔ ToHost config p ∨
            ¬ ((active = true ∧ p.outIface = config.uplink) ∨ (p.outIface = "pinfra" ∧ p.IsReply)))) ∧
        (p.outIface = "pinfra" → verdict plan.iptables.forward p = some .returns → p.IsReply) ∧
        (p.outIface = config.uplink → verdict plan.iptables.forward p = some .returns →
          active = true) ∧
        (p.outIface ≠ "pinfra" → p.outIface ≠ config.uplink →
          verdict plan.iptables.forward p = some .drop)) ∧
      (∀ p : Packet, node.bmcInterface = some p.outIface →
        verdict plan.iptables.forward p = some .drop) ∧
      (∀ p : Packet6, node.bmcInterface = some p.outIface →
        verdict6 plan.ip6tables.forward p = some .drop) := by
  obtain ⟨plan, pguest, peer, api, services, hplan, -, -, hchains⟩ :=
    firewallPlan_chains hv hservices hnode mark active
  have hd := distinct_of_nodup hnames
  have hverdict := fun p (hin : p.inIface = "pguest") (hout : p.outIface ≠ "pguest") =>
    @forward_from_guest config node active pguest.cidr services p hv hd hin hout
  refine ⟨plan, hplan, ?_, ?_, ?_⟩
  · intro p hin hout
    rw [hchains.forward]
    obtain ⟨hreturns, hdrop⟩ := hverdict p hin hout
    -- a verdict that returns is one of a packet that may pass
    have hreach : verdict (forwardRules config node active pguest.cidr services) p = some .returns →
        Reachable config active p := by
      intro h
      by_contra hnot
      exact absurd ((hdrop hnot).symm.trans h) (by decide)
    refine ⟨?_, ?_, ?_, ?_, ?_⟩
    · intro host hhost hdest
      exact hdrop fun h => h.1 ⟨host, hhost, hdest⟩
    · intro host hhost hbmc
      constructor
      · intro h
        by_contra hnot
        rw [not_or, not_not] at hnot
        exact absurd (h.symm.trans (hreturns hnot)) (by decide)
      · rintro (h | h)
        · exact hdrop fun hr => hr.1 h
        · exact hdrop fun hr => h hr.2
    · intro hinfra h
      rcases (hreach h).2 with ⟨-, huplink⟩ | ⟨-, hreply⟩
      · exact absurd (huplink.symm.trans hinfra) hd.uplinkInfra
      · exact hreply
    · intro huplink h
      rcases (hreach h).2 with ⟨hactive, -⟩ | ⟨hinfra, -⟩
      · exact hactive
      · exact absurd (huplink.symm.trans hinfra) hd.uplinkInfra
    · intro hinfra huplink
      apply hdrop
      rintro ⟨-, ⟨-, h⟩ | ⟨h, -⟩⟩
      · exact huplink h
      · exact hinfra h
  · intro p hnic
    rw [hchains.forward]
    exact verdict_toBmc hnic rfl
  · intro p hnic
    rw [hchains.forward6, List.append_assoc]
    exact verdict6_toBmc hnic rfl

/-- A packet of a guest on its way out, to the management address of the node itself. -/
def guestPacket (outIface : String) (destination : IPv4) : Packet where
  inIface := "pguest"
  outIface := outIface
  physdevIn := ""
  source := 0x64420105#32
  destination := destination
  toLocal := false
  protocol := .tcp
  sport := 40000
  dport := 443
  echoRequest := false
  mark := 0#32
  ctstate := .new
  ctorigdst := destination
  ctorigdstport := 443

/-- A guest's packet to the campus address of the peer is dropped. -/
theorem guests_kept_from_hosts_campus :
    ∃ plan, firewallPlan demoConfig "pve-a" ⟨0x1bd20#32, 0xffffffff#32, 0x80000000#32⟩ true = some plan ∧
      verdict plan.iptables.forward (guestPacket "vmbr0" demoPeer.campus) = some .drop := by
  obtain ⟨plan, hplan, hguest, -⟩ :=
    @guests_kept_from_hosts demoConfig (by decide +kernel) (by decide +kernel) "pve-a" demoNode rfl
      (by decide +kernel) ⟨0x1bd20#32, 0xffffffff#32, 0x80000000#32⟩ true
  refine ⟨plan, hplan, (hguest _ rfl (by decide)).1 demoPeer ?_ (.inl rfl)⟩
  exact List.mem_cons_of_mem _ List.mem_cons_self

/-- A management address is no address of a host's own: through the uplink it passes. -/
theorem bmc_address_passes_uplink :
    ∃ plan, firewallPlan demoConfig "pve-a" ⟨0x1bd20#32, 0xffffffff#32, 0x80000000#32⟩ true = some plan ∧
      validateConfig demoConfig = true ∧ (interfaces demoConfig demoNode).Nodup ∧
      (∀ s ∈ ["api", "proxy", "sshgw", "relay"], s ∈ demoConfig.serviceSources.keys) ∧
      (guestPacket "vmbr0" 0xc6336402#32).inIface = "pguest" ∧
      (guestPacket "vmbr0" 0xc6336402#32).outIface ≠ "pguest" ∧
      (∃ host ∈ demoConfig.nodes.values,
        host.bmcAddress = some (guestPacket "vmbr0" 0xc6336402#32).destination) ∧
      verdict plan.iptables.forward (guestPacket "vmbr0" 0xc6336402#32) = some .returns := by
  refine ⟨_, rfl, by decide +kernel, by decide +kernel, by decide +kernel, rfl, by decide +kernel, ?_,
    by decide +kernel⟩
  exact ⟨demoNode, List.mem_cons_self, rfl⟩

end Network
end PickleInfra
