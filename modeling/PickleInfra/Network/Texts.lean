import PickleInfra.Network.Config
import PickleInfra.Python.Padded
import PickleInfra.Python.Value

/-!
# `Network.Texts` — texts of IPv4 addresses and networks

`ipaddress.IPv4Address` and `IPv4Network` on values of JSON: a text is parsed, an integer is the address itself.
`none` stands for the `ValueError` they raise.
-/

namespace PickleInfra
namespace Network

open Python Text

/-! ## Addresses -/

/-- `_parse_octet`: at most three digits, without a leading zero. -/
def octet (cs : List Char) : Option Nat :=
  if cs ≠ [] ∧ cs.all isDigit = true ∧ cs.length ≤ 3 ∧ (cs.head? = some '0' → cs.length = 1) ∧ digitsValue cs ≤ 255
  then some (digitsValue cs)
  else none

/-- `_ip_int_from_string` -/
def addressOfText (cs : List Char) : Option IPv4 :=
  match (cs.splitOn '.').map octet with
  | [some a, some b, some c, some d] => some (BitVec.ofNat 32 (((a * 256 + b) * 256 + c) * 256 + d))
  | _                                => none

/-- `ipaddress.IPv4Address(value)` -/
def address : Json → Option IPv4
  | .int n  => if 0 ≤ n ∧ n < 2 ^ 32 then some (BitVec.ofInt 32 n) else none
  | .bool b => some (if b then 1 else 0)
  | .str s  => addressOfText s.toList
  | _       => none

/-! ## The text of an address -/

theorem dot_not_mem_toString (n : Nat) : '.' ∉ (toString n).toList := by
  intro h
  rw [Nat.toString_eq_repr, Nat.toList_repr] at h
  have hdigit := List.all_eq_true.mp (toDigits_isDigit n) '.' h
  exact absurd hdigit (by decide)

theorem splitOn_addressText (a : IPv4) : (addressText a).toList.splitOn '.' =
    [24, 16, 8, 0].map fun shift => (toString (a.toNat / 2 ^ shift % 256)).toList := by
  unfold addressText
  rw [String.toList_intercalate]
  show ((['.'] : List Char).intercalate _).splitOn '.' = _
  rw [List.splitOn_intercalate '.' ?_ (by simp)]
  · simp
  · intro cs hcs
    obtain ⟨s, hs, rfl⟩ := List.mem_map.mp hcs
    obtain ⟨shift, -, rfl⟩ := List.mem_map.mp hs
    exact dot_not_mem_toString _

theorem octet_toString {n : Nat} (h : n < 256) : octet (toString n).toList = some n := by
  have hall : ∀ i : Fin 256, octet (Nat.toDigits 10 i.val) = some i.val := by decide +kernel
  rw [Nat.toString_eq_repr, Nat.toList_repr]
  exact hall ⟨n, h⟩

/-- An address is read back from its text. -/
theorem address_addressText (a : IPv4) : address (.str (addressText a)) = some a := by
  have hoctet : ∀ shift, octet (toString (a.toNat / 2 ^ shift % 256)).toList = some (a.toNat / 2 ^ shift % 256) :=
    fun shift => octet_toString (Nat.mod_lt _ (by decide))
  have hlt := a.isLt
  unfold address addressOfText
  dsimp only
  rw [splitOn_addressText]
  simp only [List.map_cons, List.map_nil, hoctet]
  congr 1
  refine BitVec.eq_of_toNat_eq ?_
  rw [BitVec.toNat_ofNat]
  omega

/-! ## Networks -/

/-- The mask after the slash: a prefix length, a netmask or a hostmask. -/
def maskOfText (cs : List Char) : Option Nat :=
  if cs ≠ [] ∧ cs.all isDigit = true then if digitsValue cs ≤ 32 then some (digitsValue cs) else none
  else do
    let mask ← addressOfText cs
    ((List.range 33).find? fun p => mask = ~~~ hostmask p).or ((List.range 33).find? fun p => mask = hostmask p)

/-- An address with its mask, which is the whole address where there is no slash. -/
def interfaceOfText (s : String) : Option (IPv4 × Nat) :=
  match s.toList.splitOn '/' with
  | [a]    => (addressOfText a).map fun a => (a, 32)
  | [a, m] => do return (← addressOfText a, ← maskOfText m)
  | _      => none

def interface : Json → Option (IPv4 × Nat)
  | .str s => interfaceOfText s
  | v      => (address v).map fun a => (a, 32)

/-- `ipaddress.IPv4Network(value, strict=True)` -/
def network (v : Json) : Option Subnet :=
  match interface v with
  | some (base, prefixlen) =>
    if h : prefixlen ≤ 32 ∧ base &&& hostmask prefixlen = 0
    then some { base, prefixlen, le := h.1, strict := h.2 }
    else none
  | none                   => none

/-- `str(ipaddress.ip_interface(value).ip)` of an IPv4 interface. -/
def interfaceIp (v : Json) : Option String := (interface v).map fun i => addressText i.1

/-- `a in network and a not in (network.network_address, network.broadcast_address)` -/
def usable (n : Subnet) (a : IPv4) : Bool :=
  n.contains a && a != n.networkAddress && a != n.broadcastAddress

example : (network (.str "10.0.4.0/255.255.252.0")).map (·.prefixlen) = some 22 := by decide +kernel
example : (network (.str "10.0.4.1/22")).isNone = true := by decide +kernel
example : interfaceIp (.str "10.0.4.1/22") = some "10.0.4.1" := by decide +kernel

/-! ## Between two addresses of a network -/

/-- The number of its host bits. -/
def Subnet.hostBits (n : Subnet) : Nat := 32 - n.prefixlen

theorem toNat_netmask {n : Subnet} (a : IPv4) :
    (a &&& ~~~ hostmask n.prefixlen).toNat = a.toNat / 2 ^ n.hostBits * 2 ^ n.hostBits := by
  have hle := n.le
  have hshift : a &&& ~~~ hostmask n.prefixlen = a >>> n.hostBits <<< n.hostBits := by
    refine BitVec.eq_of_getLsbD_eq fun i hi => ?_
    simp only [hostmask, BitVec.getLsbD_and, BitVec.getLsbD_not, BitVec.getLsbD_ushiftRight, BitVec.getLsbD_allOnes,
      BitVec.getLsbD_shiftLeft, hi, decide_true, Bool.true_and]
    unfold Subnet.hostBits
    by_cases hbit : i < 32 - n.prefixlen
    · have hmask : n.prefixlen + i < 32 := by omega
      simp [hbit, hmask]
    · have hmask : ¬ n.prefixlen + i < 32 := by omega
      have hindex : 32 - n.prefixlen + (i - (32 - n.prefixlen)) = i := by omega
      simp [hbit, hmask, hindex]
  rw [hshift, BitVec.toNat_shiftLeft, BitVec.toNat_ushiftRight, Nat.shiftRight_eq_div_pow, Nat.shiftLeft_eq]
  exact Nat.mod_eq_of_lt (Nat.lt_of_le_of_lt (Nat.div_mul_le_self _ _) a.isLt)

theorem contains_iff {n : Subnet} {a : IPv4} :
    n.contains a = true ↔ a.toNat / 2 ^ n.hostBits * 2 ^ n.hostBits = n.base.toNat := by
  rw [← toNat_netmask]
  unfold Subnet.contains
  rw [decide_eq_true_eq, BitVec.toNat_inj]

theorem toNat_hostmask {n : Subnet} : (hostmask n.prefixlen).toNat = 2 ^ n.hostBits - 1 := by
  unfold hostmask Subnet.hostBits
  rw [BitVec.toNat_ushiftRight, BitVec.toNat_allOnes, Nat.shiftRight_eq_div_pow]
  have hpow : 2 ^ 32 = 2 ^ n.prefixlen * 2 ^ (32 - n.prefixlen) := by
    rw [← Nat.pow_add, Nat.add_sub_cancel' n.le]
  rw [hpow, Nat.mul_sub_div 0 _ _ (Nat.mul_pos (Nat.two_pow_pos _) (Nat.two_pow_pos _)), Nat.zero_div]

/-- The base is a member. -/
theorem base_eq_mul (n : Subnet) : n.base.toNat / 2 ^ n.hostBits * 2 ^ n.hostBits = n.base.toNat := by
  rw [← toNat_netmask]
  have hsplit : n.base &&& ~~~ hostmask n.prefixlen = n.base := by
    refine BitVec.eq_of_getLsbD_eq fun i hi => ?_
    have hstrict := congrArg (fun x => x.getLsbD i) n.strict
    simp only [BitVec.getLsbD_and] at hstrict
    simp only [BitVec.getLsbD_and, BitVec.getLsbD_not, hi, decide_true, Bool.true_and]
    cases hbase : n.base.getLsbD i with
    | false => rfl
    | true =>
        rw [hbase, Bool.true_and] at hstrict
        rw [hstrict]
        simp
  rw [hsplit]

theorem toNat_broadcast (n : Subnet) : n.broadcastAddress.toNat = n.base.toNat + (2 ^ n.hostBits - 1) := by
  have hlt : 2 ^ n.hostBits - 1 < 2 ^ n.hostBits := Nat.sub_lt (Nat.two_pow_pos _) (by decide)
  unfold Subnet.broadcastAddress
  rw [BitVec.toNat_or, toNat_hostmask, ← base_eq_mul, Nat.mul_comm]
  exact (Nat.two_pow_add_eq_or_of_lt hlt _).symm

/-- The addresses of a network are the ones from its own to its broadcast address. -/
theorem contains_iff_between {n : Subnet} {a : IPv4} :
    n.contains a = true ↔ n.networkAddress.toNat ≤ a.toNat ∧ a.toNat ≤ n.broadcastAddress.toNat := by
  have hpos := Nat.two_pow_pos n.hostBits
  have hdiv := Nat.div_add_mod' a.toNat (2 ^ n.hostBits)
  have hmod := Nat.mod_lt a.toNat hpos
  rw [contains_iff, toNat_broadcast]
  unfold Subnet.networkAddress
  constructor
  · intro h
    omega
  · rintro ⟨hlow, hhigh⟩
    rw [← base_eq_mul] at hlow hhigh ⊢
    have hquot : a.toNat / 2 ^ n.hostBits = n.base.toNat / 2 ^ n.hostBits := by
      refine Nat.le_antisymm ?_ ((Nat.le_div_iff_mul_le hpos).mpr hlow)
      refine Nat.le_of_lt_succ ((Nat.div_lt_iff_lt_mul hpos).mpr ?_)
      rw [Nat.succ_mul]
      omega
    rw [hquot]

/-- What lies between two usable addresses is usable. -/
theorem usable_between {n : Subnet} {first last a : IPv4} (hfirst : usable n first = true) (hlast : usable n last = true)
    (hle : first ≤ a) (hle' : a ≤ last) : usable n a = true := by
  simp only [usable, Bool.and_eq_true, bne_iff_ne, ne_eq, contains_iff_between, ← BitVec.toNat_inj] at *
  rw [BitVec.le_def] at hle hle'
  omega

end Network
end PickleInfra
