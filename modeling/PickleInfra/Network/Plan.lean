import PickleInfra.Network.Config
import PickleInfra.Network.FirstMatch

/-!
# `Network.Plan` — `firewall_plan`, the owned chains of one node

A rule is the list of its matches in the order of the `iptables` arguments, and its target. The lists of
rules are built block by block in the order of the source. What a rule does to a packet is the meaning
`iptables` gives its arguments: all matches hold, and the first rule that applies decides the chain.
-/

namespace PickleInfra
namespace Network

open Python

/-! ## Packets and rules -/

inductive Protocol where
  | tcp
  | udp
  | icmp
  | other (number : Nat)
deriving DecidableEq, Repr

inductive CtState where
  | new
  | established
  | related
  | invalid
  | untracked
deriving DecidableEq, Repr

/-- What the matches read of an IPv4 packet in a hook. -/
structure Packet where
  inIface : String
  outIface : String
  physdevIn : String
  source : IPv4
  destination : IPv4
  toLocal : Bool
  protocol : Protocol
  sport : Nat
  dport : Nat
  echoRequest : Bool
  mark : BitVec 32
  ctstate : CtState
  ctorigdst : IPv4
  ctorigdstport : Nat

/-- One match of a rule. -/
inductive Match where
  | inIface (name : String)
  | inIfaceFrom (start : String)
  | outIface (name : String)
  | physdevIn (name : String)
  | source (a : IPv4)
  | sourceNet (n : Subnet)
  | destination (a : IPv4)
  | destinationNet (n : Subnet)
  | dstLocal
  | protocol (p : Protocol)
  | echoRequest
  | sport (port : Nat)
  | dport (port : Nat)
  | dports (ports : List Nat)
  | mark (value mask : BitVec 32)
  | ctstate (states : List CtState)
  | ctorigdst (a : IPv4)
  | ctorigdstport (port : Nat)

inductive Target where
  | returns
  | drop
  | ctZone (zone : Nat)
  | setXmark (value mask : BitVec 32)
  | masquerade
  | dnat (a : IPv4) (port : Nat)
deriving DecidableEq, Repr

structure Rule where
  conds : List Match
  target : Target

/-- The packet has what the match asks for. A port is read of TCP and UDP only. -/
def Match.holds (p : Packet) : Match → Bool
  | .inIface name      => p.inIface = name
  | .inIfaceFrom start => start.toList.isPrefixOf p.inIface.toList
  | .outIface name     => p.outIface = name
  | .physdevIn name    => p.physdevIn = name
  | .source a          => p.source = a
  | .sourceNet n       => n.contains p.source
  | .destination a     => p.destination = a
  | .destinationNet n  => n.contains p.destination
  | .dstLocal          => p.toLocal
  | .protocol x        => p.protocol = x
  | .echoRequest       => p.echoRequest
  | .sport port        => p.sport = port
  | .dport port        => p.dport = port
  | .dports ports      => ports.contains p.dport
  | .mark value mask   => p.mark &&& mask = value
  | .ctstate states    => states.contains p.ctstate
  | .ctorigdst a       => p.ctorigdst = a
  | .ctorigdstport n   => p.ctorigdstport = n

def Rule.applies (r : Rule) (p : Packet) : Bool := r.conds.all (Match.holds p)

/-- The verdict of a chain: `none` is its end. -/
abbrev verdict (rules : List Rule) (p : Packet) : Option Target :=
  FirstMatch.verdict Rule.applies Rule.target rules p

/-- What the matches read of an IPv6 packet in a hook. -/
structure Packet6 where
  inIface : String
  outIface : String
  physdevIn : String
  toLocal : Bool
  protocol : Protocol
  sport : Nat
  dport : Nat
  mark : BitVec 32
  ctstate : CtState
  ctorigdstport : Nat

/-- The same for IPv6. An IPv4 address and an ICMP type are no part of an IPv6 packet. -/
def Match.holds6 (p : Packet6) : Match → Bool
  | .inIface name      => p.inIface = name
  | .inIfaceFrom start => start.toList.isPrefixOf p.inIface.toList
  | .outIface name     => p.outIface = name
  | .physdevIn name    => p.physdevIn = name
  | .dstLocal          => p.toLocal
  | .protocol x        => p.protocol = x
  | .sport port        => p.sport = port
  | .dport port        => p.dport = port
  | .dports ports      => ports.contains p.dport
  | .mark value mask   => p.mark &&& mask = value
  | .ctstate states    => states.contains p.ctstate
  | .ctorigdstport n   => p.ctorigdstport = n
  | .source _ | .sourceNet _ | .destination _ | .destinationNet _ | .echoRequest | .ctorigdst _ => false

def Rule.applies6 (r : Rule) (p : Packet6) : Bool := r.conds.all (Match.holds6 p)

/-- The verdict of a chain of `ip6tables`. -/
abbrev verdict6 (rules : List Rule) (p : Packet6) : Option Target :=
  FirstMatch.verdict Rule.applies6 Rule.target rules p

/-- `ESTABLISHED,RELATED` -/
def replies : Match := .ctstate [.established, .related]

/-! ## The plan -/

/-- The chains of `iptables`; `dnat` is there only with an ingress section. -/
structure Chains4 where
  raw : List Rule
  mangle : List Rule
  input : List Rule
  forward : List Rule
  nat : List Rule
  dnat : Option (List Rule)

/-- The chains of `ip6tables`. -/
structure Chains6 where
  raw : List Rule
  mangle : List Rule
  input : List Rule
  forward : List Rule

structure Plan where
  iptables : Chains4
  ip6tables : Chains6

/-- `accept_mark`: the value, the mask and the mask of PVE. -/
structure AcceptMark where
  mark : BitVec 32
  mask : BitVec 32
  pveMask : BitVec 32

/-- `local_vxlan` -/
def localVxlan : List Match := [.protocol .udp, .dport 4789, .dstLocal]

/-- The two public ports of `interim_ingress`. -/
def ingressPorts : List Nat := [24080, 24443]

section Blocks

variable (config : Config) (node : Node) (mark : AcceptMark) (active : Bool)

/-- The `mangle` rules, alike for both families. -/
def mangleRules : List Rule :=
  config.vnets.keys.map fun vnet =>
    ⟨[.physdevIn ("vxlan_" ++ vnet), .mark mark.mark mark.mask], .setXmark 0 mark.mark⟩

/-- The `input` rules of the management interface. -/
def bmcInput : List Rule :=
  node.bmcInterface.toList.flatMap fun nic =>
    [⟨[.inIface nic, replies], .returns⟩, ⟨[.inIface nic], .drop⟩]

/-- The `forward` rules of the management interface. -/
def bmcForward : List Rule :=
  node.bmcInterface.toList.flatMap fun nic => [⟨[.inIface nic], .drop⟩, ⟨[.outIface nic], .drop⟩]

/-- The first `input` rules of the guest networks. -/
def guestInput (api : IPv4) : List Rule :=
  [⟨[.inIface "pguest", replies], .returns⟩,
   ⟨[.inIface "pguest", .protocol .icmp, .echoRequest], .returns⟩,
   ⟨[.inIface "pguest"], .drop⟩,
   ⟨[.inIface "pinfra", .source api, .protocol .tcp, .dport 8006], .returns⟩,
   ⟨[.inIface "pinfra", .protocol .tcp, .dports [22, 8006, 3128, 111]], .drop⟩]

/-- The ports that `input` refuses on the campus address, because they are redirected. -/
def redirectedInput (ports : List Nat) : List Rule :=
  ports.map fun port => ⟨[.destination node.campus, .protocol .tcp, .dport port], .drop⟩

/-- A redirection from outside to a guest. -/
def dnatRules (source destination : IPv4) (ports : List Nat) : List Rule :=
  ports.map fun port => ⟨[.inIface config.uplink, .source source, .destination node.campus,
    .protocol .tcp, .dport port], .dnat destination port⟩

/-- Traffic inside one guest network. -/
def sameForward : List Rule :=
  [⟨[.inIface "pguest", .outIface "pguest"], .returns⟩,
   ⟨[.inIface "pinfra", .outIface "pinfra"], .returns⟩]

/-- Guests never reach a host. -/
def hostForward : List Rule :=
  config.nodes.values.flatMap fun host =>
    [⟨[.inIface "pguest", .destination host.campus], .drop⟩,
     ⟨[.inIface "pguest", .destination host.mesh], .drop⟩]

/-- SSH to guests is not relayed. -/
def relaySshForward (t : RelayTransit) (guests : Subnet) : List Rule :=
  [Protocol.tcp, .udp].map fun protocol =>
    ⟨[.inIface config.uplink, .outIface "pguest", .source t.source, .destinationNet guests,
      .protocol protocol, .dport 22], .drop⟩

/-- Replies from the uplink, and with `active` what the guests start. -/
def uplinkForward : List Rule :=
  config.vnets.keys.flatMap fun name =>
    ⟨[.inIface config.uplink, .outIface name, replies], .returns⟩
      :: if active then [⟨[.inIface name, .outIface config.uplink], .returns⟩] else []

/-- A redirected flow, recognised by its original destination. -/
def redirectedForward (source destination : IPv4) (ports : List Nat) : List Rule :=
  ports.map fun port => ⟨[.inIface config.uplink, .outIface "pinfra", .source source,
    .destination destination, .protocol .tcp, .dport port, .ctstate [.new],
    .ctorigdst node.campus, .ctorigdstport port], .returns⟩

/-- What the relay may start. -/
def relayForward (t : RelayTransit) (guests : Subnet) : List Rule :=
  ([Protocol.tcp, .udp].map fun protocol =>
    ⟨[.inIface config.uplink, .outIface "pguest", .source t.source, .destinationNet guests,
      .protocol protocol, .ctstate [.new]], .returns⟩) ++
  [⟨[.inIface config.uplink, .outIface "pinfra", .source t.source, .destination t.apiDestination,
    .protocol .tcp, .dport 8080, .ctstate [.new]], .returns⟩]

/-- Between the guest networks: replies, and what the services start. -/
def serviceForward (services : List IPv4) : List Rule :=
  ⟨[.inIface "pguest", .outIface "pinfra", replies], .returns⟩
    :: services.map fun a => ⟨[.inIface "pinfra", .outIface "pguest", .source a], .returns⟩

def backupForward (b : BackupService) : List Rule :=
  [⟨[.inIface "pinfra", .outIface config.meshInterface, .source b.source, .destination b.destination,
    .protocol .tcp, .dport b.port], .returns⟩,
   ⟨[.inIface config.meshInterface, .outIface "pinfra", .source b.destination,
    .destination b.source, .protocol .tcp, .sport b.port, replies], .returns⟩]

/-- The end of `forward`: nothing else enters or leaves a guest network. -/
def finalForward : List Rule :=
  config.vnets.keys.flatMap fun name => [⟨[.inIface name], .drop⟩, ⟨[.outIface name], .drop⟩]

/-- The rules of a section that is there, and only on the active node. -/
def whenActive {S : Type} (active : Bool) (section? : Option S) (rules : S → List Rule) : List Rule :=
  if active then section?.toList.flatMap rules else []

/-- The `forward` chain of `iptables`. -/
def forwardRules (guests : Subnet) (services : List IPv4) : List Rule :=
  bmcForward node ++ (sameForward ++ (hostForward config
    ++ (whenActive active config.relayTransit (fun t => relaySshForward config t guests)
    ++ (uplinkForward config active
    ++ (whenActive active config.interimIngress
      (fun i => redirectedForward config node i.source i.destination ingressPorts)
    ++ (whenActive active config.publicSshTransit
      (fun t => redirectedForward config node t.source t.destination [t.port])
    ++ (whenActive active config.relayTransit (fun t => relayForward config t guests)
    ++ (serviceForward services
    ++ (whenActive active config.backupService (backupForward config)
    ++ finalForward config)))))))))

/-- The `nat` chain of `iptables`. -/
def natRules : List Rule :=
  (if active then config.vnets.values.map fun v =>
    ⟨[.sourceNet v.cidr, .outIface config.uplink], .masquerade⟩ else [])
  ++ whenActive active config.backupService fun b =>
    [⟨[.source b.source, .destination b.destination, .outIface config.meshInterface,
      .protocol .tcp, .dport b.port], .masquerade⟩]

end Blocks

/-- `config['service_sources'][name]` -/
def serviceSource (config : Config) (name : String) : Option IPv4 := config.serviceSources.get? name

/-- `firewall_plan`, for a node of the configuration. `none` is a `KeyError`. -/
def firewallPlan (config : Config) (nodeName : String) (mark : AcceptMark) (active : Bool) :
    Option Plan := do
  let node ← config.nodes.get? nodeName
  let peer ← (config.nodes.entries.find? (fun e => e.1 ≠ nodeName)).map Prod.snd
  let api ← serviceSource config "api"
  let proxy ← serviceSource config "proxy"
  let sshgw ← serviceSource config "sshgw"
  let relay ← serviceSource config "relay"
  let pguest ← config.vnets.get? "pguest"
  let redirects := config.interimIngress.toList.flatMap (fun _ => redirectedInput node ingressPorts)
    ++ config.publicSshTransit.toList.flatMap (fun t => redirectedInput node [t.port])
  let dnat := whenActive active config.interimIngress
      (fun i => dnatRules config node i.source i.destination ingressPorts)
    ++ whenActive active config.publicSshTransit
      (fun t => dnatRules config node t.source t.destination [t.port])
  some {
    iptables := {
      raw := [⟨[.inIface config.meshInterface, .source peer.mesh] ++ localVxlan, .returns⟩,
        ⟨localVxlan, .drop⟩, ⟨[.inIfaceFrom "fwbr"], .ctZone 1⟩]
      mangle := mangleRules config mark
      input := bmcInput node ++ guestInput api ++ redirects
      forward := forwardRules config node active pguest.cidr [proxy, sshgw, relay]
      nat := natRules config active
      dnat := if config.interimIngress.isSome || config.publicSshTransit.isSome then some dnat
        else none }
    ip6tables := {
      raw := [⟨localVxlan, .drop⟩]
      mangle := mangleRules config mark
      input := bmcInput node ++ config.vnets.keys.map (fun name => ⟨[.inIface name], .drop⟩)
      forward := bmcForward node ++ sameForward ++ finalForward config } }

end Network
end PickleInfra
