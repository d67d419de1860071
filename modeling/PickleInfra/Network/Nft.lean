import PickleInfra.Network.Plan

/-!
# `Network.Nft` — the part of the `nft` language that filters

A table of the family `inet` sees the packets of both families. Its base chains end with the first rule
that applies, and accept what no rule decides. An expression that reads the header of one protocol holds
of no other packet: `nft` adds the dependency itself. `text` is the concrete syntax.
-/

namespace PickleInfra
namespace Network

/-! ## The texts of values -/

def Protocol.name : Protocol → String
  | .tcp     => "tcp"
  | .udp     => "udp"
  | .icmp    => "icmp"
  | .other n => toString n

namespace Nft

/-! ## Packets -/

inductive Family where
  | ipv4
  | ipv6
deriving DecidableEq, Repr

def Family.name : Family → String
  | .ipv4 => "ipv4"
  | .ipv6 => "ipv6"

/-- A packet of either family. -/
inductive Datagram where
  | v4 (p : Packet)
  | v6 (p : Packet6)

namespace Datagram

def family : Datagram → Family
  | .v4 _ => .ipv4
  | .v6 _ => .ipv6

def inIface : Datagram → String
  | .v4 p => p.inIface
  | .v6 p => p.inIface

def outIface : Datagram → String
  | .v4 p => p.outIface
  | .v6 p => p.outIface

def protocol : Datagram → Protocol
  | .v4 p => p.protocol
  | .v6 p => p.protocol

def sport : Datagram → Nat
  | .v4 p => p.sport
  | .v6 p => p.sport

def dport : Datagram → Nat
  | .v4 p => p.dport
  | .v6 p => p.dport

def ctstate : Datagram → CtState
  | .v4 p => p.ctstate
  | .v6 p => p.ctstate

def ctorigdstport : Datagram → Nat
  | .v4 p => p.ctorigdstport
  | .v6 p => p.ctorigdstport

/-- What is read of an IPv4 header, or of the IPv4 connection. -/
def ip (d : Datagram) (read : Packet → Bool) : Bool :=
  match d with
  | .v4 p => read p
  | .v6 _ => false

end Datagram

/-! ## Rules -/

inductive Expr where
  | nfproto (f : Family)
  | iifname (name : String)
  | oifname (name : String)
  | saddr (a : IPv4)
  | saddrNet (n : Subnet)
  | daddr (a : IPv4)
  | daddrNet (n : Subnet)
  | l4proto (x : Protocol)
  | ctState (states : List CtState)
  | sport (x : Protocol) (ports : List Nat)
  | dport (x : Protocol) (ports : List Nat)
  | dportIs (x : Protocol) (port : Nat)
  | ctOriginalDaddr (a : IPv4)
  | ctOriginalProtoDst (port : Nat)
  | icmpEcho

inductive Verdict where
  | returns
  | drop
deriving DecidableEq, Repr

structure Rule where
  exprs : List Expr
  verdict : Verdict

def Expr.holds (d : Datagram) : Expr → Bool
  | .nfproto f               => d.family = f
  | .iifname name            => d.inIface = name
  | .oifname name            => d.outIface = name
  | .saddr a                 => d.ip fun p => p.source = a
  | .saddrNet n              => d.ip fun p => n.contains p.source
  | .daddr a                 => d.ip fun p => p.destination = a
  | .daddrNet n              => d.ip fun p => n.contains p.destination
  | .l4proto x               => d.protocol = x
  | .ctState states          => states.contains d.ctstate
  | .sport x ports           => d.protocol = x && ports.contains d.sport
  | .dport x ports           => d.protocol = x && ports.contains d.dport
  | .dportIs x port          => d.protocol = x && d.dport = port
  | .ctOriginalDaddr a       => d.ip fun p => p.ctorigdst = a
  | .ctOriginalProtoDst port => d.ctorigdstport = port
  | .icmpEcho                => d.ip fun p => p.protocol = .icmp && p.echoRequest

def Rule.applies (r : Rule) (d : Datagram) : Bool := r.exprs.all (Expr.holds d)

/-! ## Tables -/

inductive Hook where
  | input
  | forward
deriving DecidableEq, Repr

/-- A base chain of type `filter`. -/
structure Chain where
  hook : Hook
  priority : Int
  rules : List Rule

structure Table where
  name : String
  chains : List Chain

/-- What a base chain decides; without a decision its policy accepts. -/
def Chain.verdict (c : Chain) (d : Datagram) : Option Verdict :=
  FirstMatch.verdict Rule.applies Rule.verdict c.rules d

/-- A packet in a hook is dropped if a chain of the hook drops it. -/
def Table.drops (t : Table) (hook : Hook) (d : Datagram) : Bool :=
  t.chains.any fun c => c.hook = hook && c.verdict d = some .drop

/-! ## The concrete syntax -/

def CtState.word : CtState → String
  | .new         => "new"
  | .established => "established"
  | .related     => "related"
  | .invalid     => "invalid"
  | .untracked   => "untracked"

def quoted (name : String) : String := "\"" ++ name ++ "\""

/-- An anonymous set. -/
def set (elements : List String) : String := "\x7b " ++ ", ".intercalate elements ++ " \x7d"

def Expr.words : Expr → List String
  | .nfproto f               => ["meta nfproto", f.name]
  | .iifname name            => ["iifname", quoted name]
  | .oifname name            => ["oifname", quoted name]
  | .saddr a                 => ["ip saddr", addressText a]
  | .saddrNet n              => ["ip saddr", n.text]
  | .daddr a                 => ["ip daddr", addressText a]
  | .daddrNet n              => ["ip daddr", n.text]
  | .l4proto x               => ["meta l4proto", x.name]
  | .ctState states          => ["ct state", set (states.map CtState.word)]
  | .sport x ports           => [x.name, "sport", set (ports.map toString)]
  | .dport x ports           => [x.name, "dport", set (ports.map toString)]
  | .dportIs x port          => [x.name, "dport", toString port]
  | .ctOriginalDaddr a       => ["ct original ip daddr", addressText a]
  | .ctOriginalProtoDst port => ["ct original proto-dst", toString port]
  | .icmpEcho                => ["icmp type", "echo-request"]

def Verdict.word : Verdict → String
  | .returns => "return"
  | .drop    => "drop"

def Rule.words (r : Rule) : List String := r.exprs.flatMap Expr.words ++ ["counter", r.verdict.word]

def Rule.text (r : Rule) : String := " ".intercalate r.words

def Hook.word : Hook → String
  | .input   => "input"
  | .forward => "forward"

/-- A chain has the name of its hook. -/
def Chain.lines (c : Chain) : List String :=
  [" chain " ++ c.hook.word ++ " \x7b",
    "  type filter hook " ++ c.hook.word ++ " priority " ++ toString c.priority ++ "; policy accept;"]
  ++ c.rules.map (fun r => "  " ++ r.text) ++ [" \x7d"]

def Table.text (t : Table) : String :=
  "\n".intercalate (["table inet " ++ t.name ++ " \x7b"] ++ t.chains.flatMap Chain.lines ++ ["\x7d"]) ++ "\n"

end Nft
end Network
end PickleInfra
