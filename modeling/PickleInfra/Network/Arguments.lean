import PickleInfra.Network.Nft
import PickleInfra.Network.Ingress
import PickleInfra.Network.Texts
import PickleInfra.Python.Numeral

/-!
# `Network.Arguments` — the arguments of the rules, and `nft_guard_text`

`Rule.args` is a rule of the plan as the source writes it: the argument list of `iptables`.
`nft_filter_rule` reads such a list two at a time, an option and its value, and remembers the last
protocol. A failed assertion and an unexpected option are `none`.
-/

namespace PickleInfra
namespace Network

open Python

/-! ## Argument lists -/

/-- The name of a state in `--ctstate`. -/
def CtState.name : CtState → String
  | .new         => "NEW"
  | .established => "ESTABLISHED"
  | .related     => "RELATED"
  | .invalid     => "INVALID"
  | .untracked   => "UNTRACKED"

/-- `f"0x{n:x}"` -/
def hexText (n : BitVec 32) : String := "0x" ++ String.ofList (Nat.toDigits 16 n.toNat)

def Match.args : Match → List String
  | .inIface name      => ["-i", name]
  | .inIfaceFrom start => ["-i", start ++ "+"]
  | .outIface name     => ["-o", name]
  | .physdevIn name    => ["-m", "physdev", "--physdev-in", name]
  | .source a          => ["-s", addressText a]
  | .sourceNet n       => ["-s", n.text]
  | .destination a     => ["-d", addressText a]
  | .destinationNet n  => ["-d", n.text]
  | .dstLocal          => ["-m", "addrtype", "--dst-type", "LOCAL"]
  | .protocol x        => ["-p", x.name]
  | .echoRequest       => ["--icmp-type", "echo-request"]
  | .sport port        => ["--sport", toString port]
  | .dport port        => ["--dport", toString port]
  | .dports ports      => ["-m", "multiport", "--dports", ",".intercalate (ports.map toString)]
  | .mark value mask   => ["-m", "mark", "--mark", hexText value ++ "/" ++ hexText mask]
  | .ctstate states    => ["-m", "conntrack", "--ctstate", ",".intercalate (states.map CtState.name)]
  | .ctorigdst a       => ["--ctorigdst", addressText a]
  | .ctorigdstport n   => ["--ctorigdstport", toString n]

def Target.args : Target → List String
  | .returns              => ["-j", "RETURN"]
  | .drop                 => ["-j", "DROP"]
  | .ctZone zone          => ["-j", "CT", "--zone", toString zone]
  | .setXmark value mask  => ["-j", "MARK", "--set-xmark", hexText value ++ "/" ++ hexText mask]
  | .masquerade           => ["-j", "MASQUERADE"]
  | .dnat a port          => ["-j", "DNAT", "--to-destination", addressText a ++ ":" ++ toString port]

def Rule.args (r : Rule) : List String := r.conds.flatMap Match.args ++ r.target.args

/-! ## `nft_filter_rule` -/

/-- `value.lower()`, of ASCII. -/
def lower (value : String) : String := String.ofList (value.toList.map Char.toLower)

/-- `value.split(",")` -/
def splitComma (value : String) : List String := (value.toList.splitOn ',').map String.ofList

/-- An octet of `IPv4Address`: one to three digits, no leading zero, at most 255. -/
def isOctet (ds : List Char) : Bool :=
  ds.all Text.isDigit && 1 ≤ ds.length && ds.length ≤ 3 && (ds.length = 1 || ds.head? ≠ some '0')
    && digitsValue ds ≤ 255

/-- `ipaddress.IPv4Address(value)` returns. -/
def isAddress (value : String) : Bool :=
  let octets := value.toList.splitOn '.'
  octets.length = 4 && octets.all isOctet

/-- `value.isdecimal() and 1 <= int(value) <= 65535` -/
def isPort (value : String) : Bool :=
  !value.toList.isEmpty && value.toList.all Text.isDigit && 1 ≤ digitsValue value.toList
    && digitsValue value.toList ≤ 65535

/-- `protocol in ("tcp", "udp")` -/
def hasPorts (protocol : Option String) : Bool := protocol = some "tcp" || protocol = some "udp"

/-- One option and its value: the words they add, and the protocol from here on. -/
def nftOption (family : String) (protocol : Option String) (option value : String) :
    Option (List String × Option String) :=
  if option = "-m" then
    if value = "conntrack" || value = "multiport" then some ([], protocol) else none
  else if option = "-i" || option = "-o" then
    some ([if option = "-i" then "iifname" else "oifname", Nft.quoted value], protocol)
  else if option = "-s" || option = "-d" then
    some ([if option = "-s" then "ip saddr" else "ip daddr", value], protocol)
  else if option = "-p" then some (["meta l4proto", value], some value)
  else if option = "--ctstate" then some (["ct state", Nft.set (splitComma (lower value))], protocol)
  else if option = "--dport" || option = "--dports" then
    if hasPorts protocol then some ([protocol.getD "", "dport", Nft.set (splitComma value)], protocol)
    else none
  else if option = "--sport" then
    if hasPorts protocol then some ([protocol.getD "", "sport", Nft.set (splitComma value)], protocol)
    else none
  else if option = "--ctorigdst" then
    if family = "ipv4" && isAddress value then some (["ct original ip daddr", value], protocol)
    else none
  else if option = "--ctorigdstport" then
    if hasPorts protocol && isPort value then some (["ct original proto-dst", value], protocol)
    else none
  else if option = "--icmp-type" then
    if protocol = some "icmp" && value = "echo-request" then
      some (["icmp type", "echo-request"], protocol)
    else none
  else if option = "-j" then
    if value = "RETURN" || value = "DROP" then some (["counter", lower value], protocol) else none
  else none

/-- The loop of `nft_filter_rule`. -/
def nftWords (family : String) : Option String → List String → Option (List String)
  | _, []                        => some []
  | _, [_]                       => none
  | protocol, option :: value :: rest => do
    let (words, protocol) ← nftOption family protocol option value
    let more ← nftWords family protocol rest
    some (words ++ more)

/-- `nft_filter_rule` -/
def nftFilterRule (rule : List String) (family : String) : Option String := do
  let words ← nftWords family none rule
  some (" ".intercalate (["meta nfproto", family] ++ words))

/-! ## `nft_guard_text` -/

/-- The lines of one hook: the rules in front, and the rules of both families. -/
def guardChain (hook : String) (front : List String) (rules4 rules6 : List Rule) :
    Option (List String) := do
  let lines4 ← rules4.mapM fun r => nftFilterRule r.args "ipv4"
  let lines6 ← rules6.mapM fun r => nftFilterRule r.args "ipv6"
  some ([" chain " ++ hook ++ " \x7b",
      "  type filter hook " ++ hook ++ " priority -20; policy accept;"]
    ++ front ++ (lines4 ++ lines6).map ("  " ++ ·) ++ [" \x7d"])

/-- `nft_guard_text` -/
def nftGuardText (config : Config) (nodeName : String) (mark : AcceptMark) (active : Bool)
    (table : String) : Option String := do
  let plan ← firewallPlan config nodeName mark active
  let peer ← (config.nodes.entries.find? (fun e => e.1 ≠ nodeName)).map Prod.snd
  let input ← guardChain "input"
    ["  iifname " ++ Nft.quoted config.meshInterface ++ " ip saddr " ++ addressText peer.mesh
        ++ " udp dport 4789 counter return",
      "  udp dport 4789 counter drop"]
    plan.iptables.input plan.ip6tables.input
  let forward ← guardChain "forward" [] plan.iptables.forward plan.ip6tables.forward
  some ("\n".intercalate (["table inet " ++ table ++ " \x7b"] ++ input ++ forward ++ ["\x7d"]) ++ "\n")

end Network
end PickleInfra
