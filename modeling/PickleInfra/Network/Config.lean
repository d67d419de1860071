import PickleInfra.Python.Text
import PickleInfra.Python.Dict
import Mathlib.Data.BitVec

/-!
# `Network.Config` — the network configuration and `validate_config`

Addresses and networks are values here: `ipaddress.IPv4Address` and a strict `IPv4Network` have parsed
the texts, so the checks of `validate_config` on types and on canonical texts are the types below.
`validateConfig` is `true` exactly where the source returns.
-/

namespace PickleInfra
namespace Network

open Python

/-! ## Addresses -/

/-- `ipaddress.IPv4Address` -/
abbrev IPv4 := BitVec 32

/-- The bits of a network that name a host. -/
def hostmask (prefixlen : Nat) : IPv4 := BitVec.allOnes 32 >>> prefixlen

/-- `ipaddress.IPv4Network`, which is strict: the host bits of its address are zero. -/
structure Subnet where
  base : IPv4
  prefixlen : Nat
  le : prefixlen ≤ 32
  strict : base &&& hostmask prefixlen = 0

namespace Subnet

/-- `address in network` -/
def contains (n : Subnet) (a : IPv4) : Bool := a &&& ~~~ hostmask n.prefixlen = n.base

/-- `network_address` -/
def networkAddress (n : Subnet) : IPv4 := n.base

/-- `broadcast_address` -/
def broadcastAddress (n : Subnet) : IPv4 := n.base ||| hostmask n.prefixlen

/-- `network.overlaps(other)` -/
def overlaps (n other : Subnet) : Bool :=
  n.contains other.networkAddress || n.contains other.broadcastAddress
    || other.contains n.networkAddress || other.contains n.broadcastAddress

end Subnet

/-- `str(address)` -/
def addressText (a : IPv4) : String :=
  ".".intercalate ([24, 16, 8, 0].map fun shift => toString (a.toNat / 2 ^ shift % 256))

/-- `str(network)` -/
def Subnet.text (n : Subnet) : String := addressText n.base ++ "/" ++ toString n.prefixlen

/-- `is_unspecified or is_multicast or is_loopback or is_link_local or == 255.255.255.255` -/
def isSpecial (a : IPv4) : Bool :=
  a = 0x00000000#32 || a >>> 28 = 0xe#32 || a >>> 24 = 127#32 || a >>> 16 = 0xa9fe#32
    || a = 0xffffffff#32

/-! ## The configuration -/

/-- One of `config['nodes']`. A key that is missing and one that is empty are `none`. -/
structure Node where
  campus : IPv4
  mesh : IPv4
  bmcInterface : Option String := none
  bmcAddress : Option IPv4 := none

/-- The values of `campus`, `mesh` and `bmc_address` that are there. -/
def Node.addresses (n : Node) : List IPv4 := n.campus :: n.mesh :: n.bmcAddress.toList

structure VNet where
  vni : Int
  cidr : Subnet
  gateway : IPv4

structure BackupService where
  source : IPv4
  destination : IPv4
  port : Nat

structure InterimIngress where
  source : IPv4
  destination : IPv4

structure PublicSshTransit where
  source : IPv4
  destination : IPv4
  port : Nat

structure RelayTransit where
  source : IPv4
  apiDestination : IPv4

/-- The dictionary `validate_config` is given; its optional sections are `Option`s. -/
structure Config where
  schema : Int
  cluster : String
  zone : String
  gatewayOwner : String
  hostMtu : Int
  guestMtu : Int
  uplink : String
  meshInterface : String
  nodes : Dict String Node
  vnets : Dict String VNet
  serviceSources : Dict String IPv4
  backupService : Option BackupService := none
  interimIngress : Option InterimIngress := none
  publicSshTransit : Option PublicSshTransit := none
  relayTransit : Option RelayTransit := none

/-! ## `validate_config` -/

def isAlpha (c : Char) : Bool := Text.isLower c || Text.isUpper c

/-- `[a-zA-Z0-9_-]` -/
def isWord (c : Char) : Bool := isAlpha c || Text.isDigit c || c = '_' || c = '-'

/-- `[a-zA-Z][a-zA-Z0-9_-]{0,n}` -/
def isIdentifier (n : Nat) : String → Bool := Text.fullmatchFirst isAlpha isWord n

namespace Config

/-- The networks of the guests. -/
def networks (c : Config) : List Subnet := c.vnets.values.map VNet.cidr

/-- Every management address of every node. -/
def hostAddresses (c : Config) : List IPv4 := c.nodes.values.flatMap Node.addresses

def outsideGuests (c : Config) (a : IPv4) : Bool := c.networks.all (fun n => !n.contains a)

def notHost (c : Config) (a : IPv4) : Bool := !(c.hostAddresses.contains a)

/-- A source outside: no guest, no host, no special address. -/
def outsideSource (c : Config) (a : IPv4) : Bool := c.outsideGuests a && !isSpecial a && c.notHost a

/-- A guest address of `pinfra` other than its network, broadcast and gateway addresses. -/
def inInfra (c : Config) (a : IPv4) : Bool :=
  match c.vnets.get? "pinfra" with
  | none   => false
  | some v => v.cidr.contains a && a ≠ v.cidr.networkAddress && a ≠ v.cidr.broadcastAddress
      && a ≠ v.gateway

/-- `a == IPv4Address(config['service_sources'][name])` -/
def isService (c : Config) (name : String) (a : IPv4) : Bool := c.serviceSources.get? name = some a

def backupOk (c : Config) (b : BackupService) : Bool :=
  b.port = 8007 && c.inInfra b.source && c.outsideGuests b.destination && c.notHost b.destination

def ingressOk (c : Config) (i : InterimIngress) : Bool :=
  c.isService "proxy" i.destination && c.inInfra i.destination && i.source ≠ i.destination
    && c.outsideSource i.source

def sshOk (c : Config) (t : PublicSshTransit) : Bool :=
  t.port = 2224 && c.isService "sshgw" t.destination && c.inInfra t.destination
    && t.source ≠ t.destination && c.outsideSource t.source

def relayOk (c : Config) (t : RelayTransit) : Bool :=
  c.isService "relay" t.source && c.outsideSource t.source
    && c.isService "api" t.apiDestination && c.inInfra t.apiDestination

end Config

def VNet.valid (v : VNet) : Bool :=
  16 ≤ v.cidr.prefixlen && v.cidr.prefixlen ≤ 24 && v.cidr.contains v.gateway
    && 1 ≤ v.vni && v.vni ≤ 16777215

/-- No network overlaps one before it. -/
def disjoint : List Subnet → Bool
  | []      => true
  | n :: ns => ns.all (fun m => !m.overlaps n) && disjoint ns

/-- `validate_config` -/
def validateConfig (c : Config) : Bool :=
  c.schema = 1 && c.nodes.size = 2 && c.nodes.keys.contains c.gatewayOwner
    && c.vnets.size = 2 && c.vnets.keys.contains "pinfra" && c.vnets.keys.contains "pguest"
    && c.hostMtu = 1420 && c.guestMtu = 1370
    && (c.cluster :: c.zone :: c.uplink :: c.meshInterface :: c.nodes.keys).all (isIdentifier 30)
    && decide (c.nodes.values.flatMap (fun n => [n.campus, n.mesh])).Nodup
    && c.nodes.values.all (fun n =>
      n.bmcInterface.all (isIdentifier 14) && (n.bmcInterface.isNone || n.bmcAddress.isSome))
    && c.vnets.values.all VNet.valid && disjoint c.networks
    && c.hostAddresses.all c.outsideGuests
    && decide (c.vnets.values.map VNet.vni).Nodup
    && c.backupService.all c.backupOk && c.interimIngress.all c.ingressOk
    && c.publicSshTransit.all c.sshOk && c.relayTransit.all c.relayOk

end Network
end PickleInfra
