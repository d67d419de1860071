import PickleInfra.Python.Text

/-!
# `Python.Url` — `urllib.parse.urlsplit`, and UUID texts

A URL is split the way the language does it: controls and blanks before it are dropped, tabs and line ends in it
are removed, and the host and the port are read from what is left of the netloc. `none` stands for `ValueError`.
The compatibility normalisation that guards netlocs outside ASCII is a parameter.
-/

namespace PickleInfra
namespace Python
namespace Url

open Text

/-! ## Partitions -/

/-- `s.partition(c)`: before the first `c`, whether there is one, and after it. -/
def partition (c : Char) (cs : List Char) : List Char × Bool × List Char :=
  (cs.takeWhile (· ≠ c), cs.contains c, (cs.dropWhile (· ≠ c)).tail)

/-- `s.rpartition(c)`: before the last `c`, whether there is one, and after it. -/
def rpartition (c : Char) (cs : List Char) : List Char × Bool × List Char :=
  let (after, found, before) := partition c cs.reverse
  if found then (before.reverse, true, after.reverse) else ([], false, cs)

/-! ## Splitting -/

structure SplitResult where
  scheme : List Char
  netloc : List Char
  path : List Char
  query : List Char
  fragment : List Char
deriving DecidableEq, Repr

def isAsciiAlpha (c : Char) : Bool := isLower c || isUpper c

def asciiLower (c : Char) : Char := if isUpper c then Char.ofNat (c.toNat + 32) else c

/-- `scheme_chars` -/
def isSchemeChar (c : Char) : Bool := isAsciiAlpha c || isDigit c || c = '+' || c = '-' || c = '.'

/-- The text before a first colon if it is a scheme, and the rest. -/
def splitScheme (url : List Char) : List Char × List Char :=
  let (before, found, after) := partition ':' url
  if found && before.head?.any isAsciiAlpha && before.all isSchemeChar then (before.map asciiLower, after)
  else ([], url)

/-- `_check_bracketed_host`: an IPvFuture address. (An IPv6 address is refused by the callers, which allow no
    colon in a host.) -/
def bracketedHost (host : List Char) : Bool :=
  match host with
  | 'v' :: rest =>
    let (version, found, address) := partition '.' rest
    found && !version.isEmpty && version.all (fun c => isHex c || ('A' ≤ c && c ≤ 'F')) && !address.isEmpty
  | _           => false

/-- `_check_bracketed_netloc`: nothing stands before the bracket, and only a port after it. -/
def bracketedNetloc (netloc : List Char) : Bool :=
  let (before, found, bracketed) := partition '[' (rpartition '@' netloc).2.2
  if found then
    let (host, _, port) := partition ']' bracketed
    before.isEmpty && (port.isEmpty || port.head? = some ':') && bracketedHost host
  else bracketedHost (partition ':' (rpartition '@' netloc).2.2).1

/-- `_checknetloc`: the normal form of the netloc has no delimiter that the netloc did not have. -/
def checkNetloc (nfkc : List Char → List Char) (netloc : List Char) : Bool :=
  netloc.all (fun c => decide (c.toNat < 128)) ||
    let n := netloc.filter fun c => !(['@', ':', '#', '?'].contains c)
    decide (nfkc n = n) || !(nfkc n).any ['/', '?', '#', '@', ':'].contains

/-- `_splitnetloc` of a text that starts with two slashes. -/
def splitNetloc (url : List Char) : List Char × List Char :=
  let delimits := fun c => c = '/' || c = '?' || c = '#'
  ((url.drop 2).takeWhile fun c => !delimits c, (url.drop 2).dropWhile fun c => !delimits c)

/-- `urlsplit(url)` -/
def urlsplit (nfkc : List Char → List Char) (s : String) : Option SplitResult :=
  let url := (s.toList.dropWhile fun c => decide (c.toNat ≤ 0x20)).filter fun c => !(['\t', '\r', '\n'].contains c)
  let (scheme, url) := splitScheme url
  let (netloc, url) := if url.take 2 = ['/', '/'] then splitNetloc url else ([], url)
  let opened := netloc.contains '['
  let closed := netloc.contains ']'
  if opened != closed || (opened && !bracketedNetloc netloc) || !checkNetloc nfkc netloc then none
  else
    let (url, _, fragment) := partition '#' url
    let (path, _, query) := partition '?' url
    some { scheme, netloc, path, query, fragment }

/-! ## The parts of a netloc -/

namespace SplitResult

/-- `_hostinfo` -/
def hostinfo (r : SplitResult) : List Char × List Char :=
  let info := (rpartition '@' r.netloc).2.2
  let (_, found, bracketed) := partition '[' info
  if found then
    let (host, _, port) := partition ']' bracketed
    (host, (partition ':' port).2.2)
  else
    let (host, _, port) := partition ':' info
    (host, port)

/-- The lower case of the letters of a host name. The Kelvin sign is the one other character whose lower case is
    an ASCII letter. -/
def hostLower (c : Char) : Char := if c.toNat = 0x212a then 'k' else asciiLower c

/-- `url.hostname`, or `none` for `None`. -/
def hostname (r : SplitResult) : Option (List Char) :=
  let host := r.hostinfo.1
  if host.isEmpty then none
  else
    let (name, found, zone) := partition '%' host
    some (name.map hostLower ++ (if found then '%' :: zone else []))

/-- `url.port`: `none` where it raises, `some none` for `None`. -/
def port (r : SplitResult) : Option (Option Nat) :=
  let port := r.hostinfo.2
  if port.isEmpty then some none
  else if port.all isDigit ∧ Nat.ofDigitChars 10 port 0 ≤ 65535 then some (some (Nat.ofDigitChars 10 port 0))
  else none

/-- `url.username`, empty for `None`. -/
def username (r : SplitResult) : List Char := (partition ':' (rpartition '@' r.netloc).1).1

/-- `url.password`, empty for `None`. -/
def password (r : SplitResult) : List Char := (partition ':' (rpartition '@' r.netloc).1).2.2

end SplitResult

/-! ## UUID texts -/

/-- `str(uuid.UUID(value)) == value`: the form that `str` writes. -/
def isCanonicalUuid (s : String) : Bool :=
  (s.toList.splitOn '-').map List.length = [8, 4, 4, 4, 12] && s.toList.all fun c => isHex c || c = '-'

end Url
end Python
end PickleInfra
