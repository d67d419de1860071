import Mathlib.Data.Int.Bitwise
import PickleInfra.Python.Shlex
import PickleInfra.Python.Value

/-!
# `Network.Marks` — `parse_netbird_accept_mark`

The mark that NetBird accepts is read from the rules `iptables -S` prints, and the mask of PVE from its source.
Marks are the integers of the texts; nothing here bounds them.
-/

namespace PickleInfra
namespace Network

open Python

/-- `NetBirdMarkNotReady` is an `AssertionError` of its own. -/
inductive MarkExn where
  | assertion (message : String)
  | notReady (message : String)
  | valueError
  | indexError
deriving DecidableEq, Repr

/-- `assert condition, message` -/
def assertion (condition : Bool) (message : String) : Except MarkExn Unit :=
  if condition then .ok () else .error (.assertion message)

@[simp] theorem assertion_eq_ok {condition : Bool} {message : String} {u : Unit} :
    assertion condition message = .ok u ↔ condition = true := by
  cases condition <;> simp [assertion]

def literal (cs : List Char) : Except MarkExn Int :=
  match Shlex.intLiteral cs with
  | some n => .ok n
  | none   => .error .valueError

/-- A value and its mask, which is `0xffffffff` where none is written. -/
abbrev Mark := Int × Int

/-- `value, _, mask = token.partition("/")`, and the two integers. -/
def markOf (token : String) : Except MarkExn Mark := do
  let value ← literal (token.toList.takeWhile (· ≠ '/'))
  let mask := (token.toList.dropWhile (· ≠ '/')).tail
  return (value, ← literal (if mask.isEmpty then "0xffffffff".toList else mask))

/-- `shlex.split(line)` -/
def tokensOf (line : List Char) : Except MarkExn (List String) :=
  match Shlex.split line with
  | some tokens => .ok tokens
  | none        => .error .valueError

/-- `tokens[-2:]` -/
def lastTwo (tokens : List String) : List String := tokens.drop (tokens.length - 2)

/-- `tokens[tokens.index(option) + 1]`, where the option is there. -/
def argument (option : String) (tokens : List String) : Except MarkExn String :=
  match tokens.dropWhile (· ≠ option) with
  | _ :: value :: _ => .ok value
  | _               => .error .indexError

/-- The rules that accept a mark in `FORWARD`, by their number, and the marks of the ones of the known form. -/
def readFilter : Nat × List Mark → List Char → Except MarkExn (Nat × List Mark)
  | (lines, accepted), line => do
    let tokens ← tokensOf line
    let lines := if tokens.take 2 = ["-A", "FORWARD"] ∧ lastTwo tokens = ["-j", "ACCEPT"] ∧
      ("mark" ∈ tokens ∨ "--mark" ∈ tokens) then lines + 1 else lines
    if tokens.length = 8 ∧ tokens.take 5 = ["-A", "FORWARD", "-m", "mark", "--mark"] ∧
        lastTwo tokens = ["-j", "ACCEPT"] then
      return (lines, accepted.insert (← markOf (tokens.getD 5 "")))
    else return (lines, accepted)

/-- The marks that `NETBIRD-RT-PRE` sets. -/
def readMangle (setters : List Mark) (line : List Char) : Except MarkExn (List Mark) := do
  let tokens ← tokensOf line
  if tokens.take 2 ≠ ["-A", "NETBIRD-RT-PRE"] ∨ "--set-xmark" ∉ tokens then return setters
  else do
    assertion ("-i" ∈ tokens) "unknown NetBird ingress"
    assertion ((← argument "-i" tokens) = "wt0") "unknown NetBird ingress"
    assertion ("--dst-type" ∈ tokens) "NetBird routing marks are not permitted"
    assertion ((← argument "--dst-type" tokens) = "LOCAL") "NetBird routing marks are not permitted"
    return setters.insert (← markOf (← argument "--set-xmark" tokens))

def isHexDigit (c : Char) : Bool := Text.isHex c.toLower

/-- `0x[0-9a-fA-F]+` up to a character that ends it. -/
def hexUpTo (stop : Char) (cs : List Char) : Option (List Char × List Char) :=
  match cs with
  | '0' :: 'x' :: rest =>
    match rest.dropWhile isHexDigit with
    | c :: after => if c = stop ∧ (rest.takeWhile isHexDigit).isEmpty = false
      then some (rest.takeWhile isHexDigit, after) else none
    | []         => none
  | _                  => none

/-- `\$FWACCEPTMARK_ON\s*=\s*"(0x[0-9a-fA-F]+)/(0x[0-9a-fA-F]+)"` at the start: the digits of its second group. -/
def matchPve (cs : List Char) : Option (List Char) := do
  let name := "$FWACCEPTMARK_ON".toList
  if name.isPrefixOf cs then
    let rest ← Numeral.dropChar? '=' ((cs.drop name.length).dropWhile Str.isSpace)
    let rest ← Numeral.dropChar? '"' (rest.dropWhile Str.isSpace)
    let (_, rest) ← hexUpTo '/' rest
    let (mask, _) ← hexUpTo '"' rest
    return mask
  else none

/-- `re.search`: the first place that matches. -/
def searchPve : List Char → Option (List Char)
  | []      => none
  | c :: cs => (matchPve (c :: cs)).or (searchPve cs)

/-- The two checks of one mark. -/
def isKnownMark (m : Mark) : Bool := m.2 = 0xffffffff && m.1 ≠ 0

/-- `parse_netbird_accept_mark`: the value, the mask and the mask of PVE. -/
def parseNetbirdAcceptMark (filterRules mangleRules pveSource : List Char) : Except MarkExn (Int × Int × Nat) := do
  let (lines, accepted) ← (Str.splitlines filterRules).foldlM readFilter (0, [])
  assertion (lines = accepted.length) "unknown global accept mark layout"
  let setters ← (Str.splitlines mangleRules).foldlM readMangle []
  assertion (accepted.length ≤ 1) "ambiguous global accept mark"
  assertion (setters.length ≤ 1) "ambiguous NetBird mark setter"
  assertion ((accepted ++ setters).all isKnownMark) "unknown NetBird mark setter/mask"
  match searchPve pveSource with
  | none    => .error (.assertion "unknown PVE acceptance mark")
  | some ds => do
    let pveMask := ds.foldl (fun n c => 16 * n + Shlex.hexValue c) 0
    assertion ((accepted ++ setters).all fun m => m.1.land pveMask = 0) "NetBird and PVE mark bits overlap"
    match accepted with
    | []             => .error (.notReady "NetBird global accept mark is not ready")
    | candidate :: _ => do
      if setters.isEmpty then .error (.notReady "NetBird mark setter is not ready")
      else do
        assertion (setters = [candidate]) "unknown NetBird mark setter/mask"
        return (candidate.1, candidate.2, pveMask)

/-- What was returned has the known layout. -/
theorem parseNetbirdAcceptMark_spec {filterRules mangleRules pveSource : List Char} {value mask : Int} {pveMask : Nat}
    (h : parseNetbirdAcceptMark filterRules mangleRules pveSource = .ok (value, mask, pveMask)) :
    mask = 0xffffffff ∧ value ≠ 0 ∧ value.land pveMask = 0 := by
  unfold parseNetbirdAcceptMark at h
  simp only [bind_eq_ok, assertion_eq_ok] at h
  obtain ⟨⟨lines, accepted⟩, -, h⟩ := h
  obtain ⟨_, -, setters, -, _, -, _, -, _, hknown, h⟩ := h
  split at h
  · cases h
  · next ds hds =>
    obtain ⟨_, hoverlap, h⟩ := bind_eq_ok.mp h
    rw [assertion_eq_ok] at hoverlap
    cases accepted with
    | nil => cases h
    | cons candidate accepted =>
        dsimp only at h
        split at h
        · cases h
        · obtain ⟨_, -, h⟩ := bind_eq_ok.mp h
          cases h
          have hin : candidate ∈ candidate :: accepted ++ setters := List.mem_append_left _ List.mem_cons_self
          have hmark := List.all_eq_true.mp hknown candidate hin
          simp only [isKnownMark, ne_eq, decide_not, Bool.and_eq_true, decide_eq_true_eq, Bool.not_eq_true',
            decide_eq_false_iff_not] at hmark
          exact ⟨hmark.1, hmark.2, of_decide_eq_true (List.all_eq_true.mp hoverlap candidate hin)⟩

example : parseNetbirdAcceptMark "-A FORWARD -m mark --mark 0x1bd20 -j ACCEPT\n".toList
    "-A NETBIRD-RT-PRE -i wt0 -m addrtype --dst-type LOCAL -j MARK --set-xmark 0x1bd20/0xffffffff\n".toList
    "my $FWACCEPTMARK_ON = \"0x80000000/0x80000000\";".toList = .ok (0x1bd20, 0xffffffff, 0x80000000) := by
  decide +kernel

end Network
end PickleInfra
