import PickleInfra.Network.Ingress
import PickleInfra.Network.Marks

/-!
# `Network.Bridge` — `install_l2_guard`, and what it does to marks

The guard is a table of the family `bridge`. The program writes its numbers from integers of any size; `nft` takes
constants of 32 bits and refuses a table with any other, and so does `iptables`.
-/

namespace PickleInfra
namespace Network

open Python

/-! ## The table -/

/-- A rule of the chain `prerouting`, over the numbers `C`. -/
inductive BridgeRule (C : Type) where
  /-- `iifname … meta mark & bits == value counter meta mark set meta mark & keep` -/
  | clear (iifname : String) (bits value keep : C)
  /-- `iifname … meta mark & bits != 0 counter drop` -/
  | drop (iifname : String) (bits : C)

/-- `mark_lines`, rule by rule. -/
def markRules (config : Config) (value mask : Int) (pveMask : Nat) : List (BridgeRule Int) :=
  let nonPve := mask.xor pveMask
  let clear := mask.xor value
  config.vnets.keys.flatMap fun name =>
    [.clear ("vxlan_" ++ name) nonPve value clear, .drop ("vxlan_" ++ name) nonPve]

/-- A constant of `meta mark`. -/
def constant (n : Int) : Option (BitVec 32) := if 0 ≤ n ∧ n < 2 ^ 32 then some (BitVec.ofInt 32 n) else none

def BridgeRule.load : BridgeRule Int → Option (BridgeRule (BitVec 32))
  | .clear iifname bits value keep => do return .clear iifname (← constant bits) (← constant value) (← constant keep)
  | .drop iifname bits             => do return .drop iifname (← constant bits)

/-- `install_l2_guard`, as far as marks go: the rules that `nft` loads, or `none` where it refuses the table. -/
def installL2Guard (config : Config) (value mask : Int) (pveMask : Nat) : Option (List (BridgeRule (BitVec 32))) :=
  (markRules config value mask pveMask).mapM BridgeRule.load

/-- A frame in `prerouting`. -/
structure BridgeFrame where
  iifname : String
  mark : BitVec 32
deriving DecidableEq, Repr

/-- A rule drops the frame, or passes it on with its mark. -/
def BridgeRule.run (f : BridgeFrame) : BridgeRule (BitVec 32) → Option BridgeFrame
  | .clear iifname bits value keep =>
    if f.iifname = iifname ∧ f.mark &&& bits = value then some { f with mark := f.mark &&& keep } else some f
  | .drop iifname bits             => if f.iifname = iifname ∧ f.mark &&& bits ≠ 0#32 then none else some f

/-- The chain, whose policy accepts. -/
def prerouting (rules : List (BridgeRule (BitVec 32))) (f : BridgeFrame) : Option BridgeFrame :=
  rules.foldlM BridgeRule.run f

/-! ## The rules of `mangle` -/

/-- `MARK --set-xmark`: the bits of the mask are cleared, and the value is combined with the rest. -/
def Target.xmark (m : BitVec 32) : Target → BitVec 32
  | .setXmark value mask => (m &&& ~~~mask) ^^^ value
  | _                    => m

/-- The mark after a chain of such rules. The packet is what the rules see of it under each mark. -/
def mangledMark {P : Type} (applies : Rule → P → Bool) (packet : BitVec 32 → P) (rules : List Rule) (m : BitVec 32) :
    BitVec 32 :=
  rules.foldl (fun m r => if applies r (packet m) then r.target.xmark m else m) m

/-! ## What the two rules of a network do -/

/-- The rules of one network, over constants of 32 bits. -/
def vnetRules (accept : AcceptMark) (name : String) : List (BridgeRule (BitVec 32)) :=
  [.clear ("vxlan_" ++ name) (~~~accept.pveMask) accept.mark (~~~accept.mark), .drop ("vxlan_" ++ name) (~~~accept.pveMask)]

/-- The frame with the bits of PVE alone, where the others are clear or exactly the accepted mark. -/
def guarded (accept : AcceptMark) (f : BridgeFrame) : Option BridgeFrame :=
  if f.mark &&& ~~~accept.pveMask = 0#32 ∨ f.mark &&& ~~~accept.pveMask = accept.mark
  then some { f with mark := f.mark &&& accept.pveMask } else none

section Bits

variable {m value pve : BitVec 32}

theorem and_not_add_and (m pve : BitVec 32) : (m &&& ~~~pve) ||| (m &&& pve) = m := by
  refine BitVec.eq_of_getLsbD_eq fun i hi => ?_
  simp only [BitVec.getLsbD_or, BitVec.getLsbD_and, BitVec.getLsbD_not, hi, decide_true, Bool.true_and]
  cases m.getLsbD i <;> cases pve.getLsbD i <;> rfl

theorem and_and_not (m pve : BitVec 32) : (m &&& pve) &&& ~~~pve = 0#32 := by
  rw [BitVec.and_assoc, BitVec.and_not_self]
  exact BitVec.and_zero

/-- A mark without other bits is the mask's part of it. -/
theorem eq_and_of_clear (h : m &&& ~~~pve = 0#32) : m = m &&& pve := by
  have hsplit := and_not_add_and m pve
  rw [h] at hsplit
  exact (BitVec.zero_or.symm.trans hsplit).symm

/-- Clearing all the other bits leaves the mask's part. -/
theorem and_not_of_exact (h : m &&& ~~~pve = value) : m &&& ~~~value = m &&& pve := by
  rw [← h]
  refine BitVec.eq_of_getLsbD_eq fun i hi => ?_
  simp only [BitVec.getLsbD_and, BitVec.getLsbD_not, hi, decide_true, Bool.true_and]
  cases m.getLsbD i <;> cases pve.getLsbD i <;> rfl

/-- No bit of the accepted mark is left. -/
theorem and_ne_of_disjoint (hdisjoint : value &&& pve = 0#32) (hne : value ≠ 0#32) : m &&& pve ≠ value := by
  intro h
  have hself : value &&& pve = value := by
    rw [← h, BitVec.and_assoc, BitVec.and_self]
  exact hne (hself.symm.trans hdisjoint)

end Bits

theorem bind_run_other {accept : AcceptMark} {name : String} {f : BridgeFrame} (h : f.iifname ≠ "vxlan_" ++ name) :
    prerouting (vnetRules accept name) f = some f := by
  unfold prerouting vnetRules
  simp [BridgeRule.run, h]

/-- The two rules of the network that the frame arrives on. -/
theorem prerouting_vnetRules {accept : AcceptMark} {name : String} {m : BitVec 32} :
    prerouting (vnetRules accept name) ⟨"vxlan_" ++ name, m⟩ = guarded accept ⟨"vxlan_" ++ name, m⟩ := by
  unfold prerouting vnetRules guarded
  simp only [List.foldlM_cons, List.foldlM_nil]
  by_cases hexact : m &&& ~~~accept.pveMask = accept.mark
  · have hkeep := and_not_of_exact hexact
    simp [BridgeRule.run, hexact, hkeep, and_and_not]
  · by_cases hclear : m &&& ~~~accept.pveMask = 0#32
    · rw [hclear] at hexact
      simp [BridgeRule.run, hexact, hclear, ← eq_and_of_clear hclear]
    · simp [BridgeRule.run, hexact, hclear]

/-- A guarded frame is guarded as it is. -/
theorem guarded_guarded {accept : AcceptMark} {f g : BridgeFrame} (h : guarded accept f = some g) :
    guarded accept g = some g := by
  unfold guarded at h ⊢
  split at h
  · cases h
    dsimp only
    rw [if_pos (.inl (and_and_not _ _)), BitVec.and_assoc, BitVec.and_self]
  · cases h

theorem iifname_of_guarded {accept : AcceptMark} {f g : BridgeFrame} (h : guarded accept f = some g) :
    g.iifname = f.iifname := by
  unfold guarded at h
  split at h
  · cases h; rfl
  · cases h

/-- Rules of networks the frame does not arrive on, and rules it has passed, change nothing. -/
theorem prerouting_flatMap {accept : AcceptMark} {vnet : String} :
    ∀ (names : List String) {f : BridgeFrame}, f.iifname = "vxlan_" ++ vnet →
      prerouting (names.flatMap (vnetRules accept)) f = if vnet ∈ names then guarded accept f else some f
  | [], _, _ => rfl
  | name :: names, f, hf => by
      have happend : prerouting ((name :: names).flatMap (vnetRules accept)) f =
          (prerouting (vnetRules accept name) f).bind fun g => prerouting (names.flatMap (vnetRules accept)) g := by
        unfold prerouting
        rw [List.flatMap_cons, List.foldlM_append]
        rfl
      rw [happend]
      by_cases hname : vnet = name
      · subst hname
        obtain ⟨iifname, m⟩ := f
        subst hf
        rw [prerouting_vnetRules, if_pos List.mem_cons_self]
        cases hg : guarded accept ⟨"vxlan_" ++ vnet, m⟩ with
        | none => rfl
        | some g =>
            rw [Option.bind_some, prerouting_flatMap names (iifname_of_guarded hg), guarded_guarded hg, ite_self]
      · have hother : f.iifname ≠ "vxlan_" ++ name := by
          rw [hf]
          exact fun h => hname (String.append_right_inj "vxlan_" |>.mp h)
        rw [bind_run_other hother, Option.bind_some, prerouting_flatMap names hf]
        simp only [List.mem_cons, hname, false_or]

/-! ## The rules that are loaded -/

theorem constant_eq_some {n : Int} {b : BitVec 32} : constant n = some b ↔ n = b.toNat := by
  unfold constant
  constructor
  · intro h
    split at h
    · next hn =>
      cases h
      rw [BitVec.toNat_ofInt]
      omega
    · cases h
  · rintro rfl
    have hb := b.isLt
    rw [if_pos (by omega)]
    congr 1
    exact BitVec.eq_of_toNat_eq (by rw [BitVec.toNat_ofInt]; omega)

/-- The bits outside a mask. -/
theorem xor_mask (b : BitVec 32) : Int.xor 0xffffffff (b.toNat : Int) = (~~~b).toNat := by
  have hxor : (BitVec.allOnes 32 ^^^ b).toNat = 0xffffffff ^^^ b.toNat := by
    rw [BitVec.toNat_xor]
    rfl
  rw [BitVec.allOnes_xor] at hxor
  rw [hxor]
  rfl

/-! ## The guard -/

theorem mapM_load_eq_none {rules : List (BridgeRule Int)} {r : BridgeRule Int} (hr : r ∈ rules) (h : r.load = none) :
    rules.mapM BridgeRule.load = none := by
  induction rules with
  | nil => exact absurd hr List.not_mem_nil
  | cons r' rules ih =>
      rw [List.mapM_cons]
      rcases List.mem_cons.mp hr with rfl | hr
      · rw [h]; rfl
      · rw [ih hr]
        cases r'.load <;> rfl

/-- The loaded rules are the ones of the networks, in their order. -/
theorem installL2Guard_eq_some {config : Config} {accept : AcceptMark} (hmask : accept.mask = BitVec.allOnes 32) :
    installL2Guard config accept.mark.toNat accept.mask.toNat accept.pveMask.toNat =
      some (config.vnets.keys.flatMap (vnetRules accept)) := by
  have hbits : Int.xor (accept.mask.toNat : Int) (accept.pveMask.toNat : Int) = (~~~accept.pveMask).toNat := by
    rw [hmask]
    exact xor_mask accept.pveMask
  have hkeep : Int.xor (accept.mask.toNat : Int) (accept.mark.toNat : Int) = (~~~accept.mark).toNat := by
    rw [hmask]
    exact xor_mask accept.mark
  unfold installL2Guard markRules
  dsimp only
  rw [hbits, hkeep]
  induction config.vnets.keys with
  | nil => rfl
  | cons name names ih =>
      rw [List.flatMap_cons, List.mapM_append, ih]
      simp only [List.mapM_cons, List.mapM_nil, BridgeRule.load, constant_eq_some.mpr rfl, List.flatMap_cons, vnetRules]
      rfl

/-- No rule of `mangle` changes a mark that does not match. -/
theorem mangledMark_of_ne {P : Type} {applies : Rule → P → Bool} {packet : BitVec 32 → P} {rules : List Rule} {m : BitVec 32}
    (h : ∀ r ∈ rules, applies r (packet m) = false) : mangledMark applies packet rules m = m := by
  unfold mangledMark
  induction rules with
  | nil => rfl
  | cons r rules ih =>
      obtain ⟨hr, hrules⟩ := List.forall_mem_cons.mp h
      rw [List.foldl_cons, hr]
      exact ih hrules

theorem mangleRules_apply_false {config : Config} {accept : AcceptMark} {r : Rule} (hr : r ∈ mangleRules config accept) :
    (∀ p : Packet, p.mark &&& accept.mask ≠ accept.mark → r.applies p = false) ∧
      ∀ p : Packet6, p.mark &&& accept.mask ≠ accept.mark → r.applies6 p = false := by
  obtain ⟨vnet, -, rfl⟩ := List.mem_map.mp hr
  constructor <;> intro p hp
  · simp [Rule.applies, Match.holds, hp]
  · simp [Rule.applies6, Match.holds6, hp]

theorem mangle_of_firewallPlan {config : Config} {nodeName : String} {accept : AcceptMark} {active : Bool} {plan : Plan}
    (h : firewallPlan config nodeName accept active = some plan) :
    plan.iptables.mangle = mangleRules config accept ∧ plan.ip6tables.mangle = mangleRules config accept := by
  unfold firewallPlan at h
  simp only [Option.bind_eq_bind, Option.bind_eq_some_iff, Option.some.injEq] at h
  obtain ⟨_, -, _, -, _, -, _, -, _, -, _, -, _, -, rfl⟩ := h
  exact ⟨rfl, rfl⟩

/-- **The mark guard strips only the NetBird accept mark.** With what `parse_netbird_accept_mark` returned and a PVE mask
    of 32 bits, the guard is loaded exactly when the value has 32 bits. A frame on the interface of a network then passes
    when the bits outside the mask of PVE are clear or exactly the value, with the bits of PVE alone, and is dropped
    otherwise; no mark that passes matches the accept mark, and the rules of `mangle` leave it as it is. -/
theorem mark_guard {filterRules mangle pveSource : List Char} {value mask : Int} {pveMask : Nat}
    (h : parseNetbirdAcceptMark filterRules mangle pveSource = .ok (value, mask, pveMask)) (hpve : pveMask < 2 ^ 32)
    (config : Config) :
    (0 ≤ value → value < 2 ^ 32 →
      ∃ accept : AcceptMark, (accept.mark.toNat : Int) = value ∧ (accept.mask.toNat : Int) = mask ∧
        accept.pveMask.toNat = pveMask ∧ ∃ guard, installL2Guard config value mask pveMask = some guard ∧
        ∀ vnet ∈ config.vnets.keys, ∀ m : BitVec 32,
          prerouting guard ⟨"vxlan_" ++ vnet, m⟩ = guarded accept ⟨"vxlan_" ++ vnet, m⟩ ∧
          (m &&& accept.pveMask) &&& accept.mask ≠ accept.mark ∧
          ∀ nodeName active plan, firewallPlan config nodeName accept active = some plan →
            (∀ p : Packet, mangledMark Rule.applies (fun m => { p with mark := m }) plan.iptables.mangle
              (m &&& accept.pveMask) = m &&& accept.pveMask) ∧
            ∀ p : Packet6, mangledMark Rule.applies6 (fun m => { p with mark := m }) plan.ip6tables.mangle
              (m &&& accept.pveMask) = m &&& accept.pveMask) ∧
    (¬ (0 ≤ value ∧ value < 2 ^ 32) → config.vnets.keys ≠ [] → installL2Guard config value mask pveMask = none) := by
  obtain ⟨rfl, hne, hdisjoint⟩ := parseNetbirdAcceptMark_spec h
  constructor
  · intro hlow hhigh
    obtain ⟨n, rfl⟩ := Int.eq_ofNat_of_zero_le hlow
    have hn : n < 2 ^ 32 := by omega
    have hvalue : (BitVec.ofNat 32 n).toNat = n := Nat.mod_eq_of_lt hn
    have hmask : (BitVec.ofNat 32 pveMask).toNat = pveMask := Nat.mod_eq_of_lt hpve
    let accept : AcceptMark := ⟨BitVec.ofNat 32 n, BitVec.allOnes 32, BitVec.ofNat 32 pveMask⟩
    have hand : accept.mark &&& accept.pveMask = 0#32 := by
      refine BitVec.eq_of_toNat_eq ?_
      rw [BitVec.toNat_and, hvalue, hmask]
      exact Int.ofNat.inj hdisjoint
    have hmark : accept.mark ≠ 0#32 := by
      intro hzero
      have htoNat := congrArg BitVec.toNat hzero
      rw [hvalue] at htoNat
      exact hne (congrArg Int.ofNat htoNat)
    refine ⟨accept, congrArg Int.ofNat hvalue, rfl, hmask, config.vnets.keys.flatMap (vnetRules accept), ?_, ?_⟩
    · have hload := @installL2Guard_eq_some config accept rfl
      rw [hvalue, hmask] at hload
      exact hload
    · intro vnet hvnet m
      have hpass : (m &&& accept.pveMask) &&& accept.mask ≠ accept.mark := by
        rw [show accept.mask = BitVec.allOnes 32 from rfl, BitVec.and_allOnes]
        exact and_ne_of_disjoint hand hmark
      refine ⟨?_, hpass, fun nodeName active plan hplan => ?_⟩
      · rw [prerouting_flatMap config.vnets.keys rfl, if_pos hvnet]
      · obtain ⟨hmangle, hmangle6⟩ := mangle_of_firewallPlan hplan
        rw [hmangle, hmangle6]
        exact ⟨fun p => mangledMark_of_ne fun r hr => (mangleRules_apply_false hr).1 _ hpass,
          fun p => mangledMark_of_ne fun r hr => (mangleRules_apply_false hr).2 _ hpass⟩
  · intro hbounds hvnets
    obtain ⟨name, names, hkeys⟩ := List.exists_cons_of_ne_nil hvnets
    -- the value itself is no constant of 32 bits
    have hconstant : constant value = none := if_neg hbounds
    have hload : BridgeRule.load (.clear ("vxlan_" ++ name) (Int.xor 0xffffffff pveMask) value (Int.xor 0xffffffff value)) =
        none := by
      unfold BridgeRule.load
      dsimp only
      rw [hconstant]
      cases constant (Int.xor 0xffffffff pveMask) <;> rfl
    refine mapM_load_eq_none ?_ hload
    unfold markRules
    rw [hkeys]
    exact List.mem_cons_self

theorem mark_guard_small :
    parseNetbirdAcceptMark "-A FORWARD -m mark --mark 0x1bd20 -j ACCEPT\n".toList
      "-A NETBIRD-RT-PRE -i wt0 -m addrtype --dst-type LOCAL -j MARK --set-xmark 0x1bd20/0xffffffff\n".toList
      "my $FWACCEPTMARK_ON = \"0x80000000/0x80000000\";".toList = .ok (0x1bd20, 0xffffffff, 0x80000000) ∧
    ∃ guard, installL2Guard demoConfig 0x1bd20 0xffffffff 0x80000000 = some guard ∧
      prerouting guard ⟨"vxlan_pguest", 0x8001bd20#32⟩ = some ⟨"vxlan_pguest", 0x80000000#32⟩ ∧
      prerouting guard ⟨"vxlan_pguest", 0x1bd21#32⟩ = none := by
  have hparse : parseNetbirdAcceptMark "-A FORWARD -m mark --mark 0x1bd20 -j ACCEPT\n".toList
      "-A NETBIRD-RT-PRE -i wt0 -m addrtype --dst-type LOCAL -j MARK --set-xmark 0x1bd20/0xffffffff\n".toList
      "my $FWACCEPTMARK_ON = \"0x80000000/0x80000000\";".toList = .ok (0x1bd20, 0xffffffff, 0x80000000) := by
    decide +kernel
  obtain ⟨accept, hmark, -, hpve, guard, hguard, hframes⟩ :=
    (mark_guard hparse (by decide) demoConfig).1 (by decide) (by decide)
  have hpass := (hframes "pguest" (by decide) 0x8001bd20#32).1
  have hdrop := (hframes "pguest" (by decide) 0x1bd21#32).1
  have hmark' : accept.mark = 0x1bd20#32 := BitVec.eq_of_toNat_eq (Int.ofNat.inj hmark)
  have hpve' : accept.pveMask = 0x80000000#32 := BitVec.eq_of_toNat_eq hpve
  unfold guarded at hpass hdrop
  rw [hmark', hpve'] at hpass hdrop
  exact ⟨hparse, guard, hguard, hpass, hdrop⟩

end Network
end PickleInfra
