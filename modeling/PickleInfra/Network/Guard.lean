import PickleInfra.Network.Arguments
import PickleInfra.Network.Guests

/-!
# `Network.Guard` — the guard table decides as the plan does

Every match of an owned filter rule has one expression of `nft` (`Match.expr`), and `nft_filter_rule`
writes the words of exactly these expressions (`nftFilterRule_args`). The expressions hold of the packets
the match holds of, as long as the protocol it depends on was asked for before. So a translated chain
decides packets of its family as the chain does and is silent about the others, and the two families
share a base chain.
-/

namespace PickleInfra
namespace Network

open Python FirstMatch

/-! ## Translation -/

/-- The protocol of a port. -/
def portsOf : Option Protocol → Option Protocol
  | some .tcp => some .tcp
  | some .udp => some .udp
  | _         => none

/-- The expression of a match, after a protocol was asked for. -/
def Match.expr (family : Nft.Family) (protocol : Option Protocol) : Match → Option Nft.Expr
  | .inIface name      => some (.iifname name)
  | .outIface name     => some (.oifname name)
  | .source a          => some (.saddr a)
  | .sourceNet n       => some (.saddrNet n)
  | .destination a     => some (.daddr a)
  | .destinationNet n  => some (.daddrNet n)
  | .protocol x        => some (.l4proto x)
  | .echoRequest       => if protocol = some .icmp then some .icmpEcho else none
  | .sport port        => (portsOf protocol).map fun x => .sport x [port]
  | .dport port        => (portsOf protocol).map fun x => .dport x [port]
  | .dports ports      => if ports = [] then none else (portsOf protocol).map fun x => .dport x ports
  | .ctstate states    => if states = [] then none else some (.ctState states)
  | .ctorigdst a       => if family = .ipv4 then some (.ctOriginalDaddr a) else none
  | .ctorigdstport n   =>
    if 1 ≤ n ∧ n ≤ 65535 then (portsOf protocol).map fun _ => .ctOriginalProtoDst n else none
  | .inIfaceFrom _ | .physdevIn _ | .dstLocal | .mark _ _ => none

/-- The protocol asked for after a match. -/
def Match.next (protocol : Option Protocol) : Match → Option Protocol
  | .protocol x => some x
  | _           => protocol

def exprs (family : Nft.Family) : Option Protocol → List Match → Option (List Nft.Expr)
  | _, []            => some []
  | protocol, m :: ms => do
    let e ← m.expr family protocol
    let es ← exprs family (m.next protocol) ms
    some (e :: es)

def Target.nft : Target → Option Nft.Verdict
  | .returns => some .returns
  | .drop    => some .drop
  | _        => none

/-- The rule of `nft` for a filter rule; `none` if a match or the target has no translation. -/
def Rule.nft (family : Nft.Family) (r : Rule) : Option Nft.Rule := do
  let es ← exprs family none r.conds
  let v ← r.target.nft
  some ⟨.nfproto family :: es, v⟩

def nftRules (family : Nft.Family) (rules : List Rule) : List Nft.Rule := rules.filterMap (Rule.nft family)

/-- The rules in front of the input rules: VXLAN of the peer returns, other VXLAN is dropped. -/
def vxlanRules (config : Config) (peer : Node) : List Nft.Rule :=
  [⟨[.iifname config.meshInterface, .saddr peer.mesh, .dportIs .udp 4789], .returns⟩,
   ⟨[.dportIs .udp 4789], .drop⟩]

/-- The table `nft_guard_text` writes. -/
def guardTable (config : Config) (peer : Node) (plan : Plan) (table : String) : Nft.Table where
  name := table
  chains :=
    [⟨.input, -20, vxlanRules config peer
        ++ (nftRules .ipv4 plan.iptables.input ++ nftRules .ipv6 plan.ip6tables.input)⟩,
     ⟨.forward, -20, nftRules .ipv4 plan.iptables.forward ++ nftRules .ipv6 plan.ip6tables.forward⟩]

/-! ## The words -/

theorem splitComma_join {parts : List String} (hne : parts ≠ []) (h : ∀ s ∈ parts, ',' ∉ s.toList) :
    splitComma (",".intercalate parts) = parts := by
  unfold splitComma
  rw [String.toList_intercalate]
  show ((([','] : List Char).intercalate (parts.map String.toList)).splitOn ',').map String.ofList = _
  rw [List.splitOn_intercalate ',' ?_ (by simpa using hne), List.map_map]
  · simp
  · intro cs hcs
    obtain ⟨s, hs, rfl⟩ := List.mem_map.mp hcs
    exact h s hs

theorem comma_not_mem_toString (n : Nat) : ',' ∉ (toString n).toList := by
  intro h
  rw [Nat.toString_eq_repr, Nat.toList_repr] at h
  have hdigit := List.all_eq_true.mp (toDigits_isDigit n) ',' h
  exact absurd hdigit (by decide)

theorem splitComma_toString (n : Nat) : splitComma (toString n) = [toString n] := by
  have h := @splitComma_join [toString n] (by simp) (by simpa using comma_not_mem_toString n)
  simpa using h

theorem splitComma_ports {ports : List Nat} (hne : ports ≠ []) :
    splitComma (",".intercalate (ports.map toString)) = ports.map toString := by
  apply splitComma_join (by simpa using hne)
  intro s hs
  obtain ⟨n, -, rfl⟩ := List.mem_map.mp hs
  exact comma_not_mem_toString n

/-- The names of states in lower case are the words of `nft`. -/
theorem lower_name (x : CtState) : lower x.name = Nft.CtState.word x := by
  cases x <;> decide +kernel

theorem lower_append (s t : String) : lower (s ++ t) = lower s ++ lower t := by
  unfold lower
  rw [String.toList_append, List.map_append, String.ofList_append]

theorem lower_names (states : List CtState) :
    lower (",".intercalate (states.map CtState.name))
      = ",".intercalate (states.map Nft.CtState.word) := by
  induction states with
  | nil => decide +kernel
  | cons x states ih =>
      cases states with
      | nil => simpa using lower_name x
      | cons y states =>
          have hcomma : lower "," = "," := by decide +kernel
          simp only [List.map_cons, String.intercalate_cons_cons] at ih ⊢
          rw [lower_append, lower_append, ih, lower_name, hcomma]

theorem splitComma_states {states : List CtState} (hne : states ≠ []) :
    splitComma (lower (",".intercalate (states.map CtState.name)))
      = states.map Nft.CtState.word := by
  rw [lower_names]
  apply splitComma_join (by simpa using hne)
  intro s hs
  obtain ⟨x, -, rfl⟩ := List.mem_map.mp hs
  cases x <;> decide +kernel

/-- Every octet is one. -/
theorem isOctet_toString {n : Nat} (h : n < 256) : isOctet (toString n).toList = true := by
  have hall : ∀ i : Fin 256, isOctet (Nat.toDigits 10 i.val) = true := by decide +kernel
  rw [Nat.toString_eq_repr, Nat.toList_repr]
  exact hall ⟨n, h⟩

/-- The text of an address is one. -/
theorem isAddress_text (a : IPv4) : isAddress (addressText a) = true := by
  unfold isAddress
  rw [splitOn_addressText]
  simp only [List.length_map, List.length_cons, List.length_nil, decide_true, Bool.true_and,
    List.all_map, List.all_eq_true]
  intro shift _
  exact isOctet_toString (Nat.mod_lt _ (by decide))

theorem isPort_toString {n : Nat} (h1 : 1 ≤ n) (h2 : n ≤ 65535) : isPort (toString n) = true := by
  have hvalue : digitsValue (Nat.toDigits 10 n) = n := by
    unfold digitsValue
    simp
  have hne : Nat.toDigits 10 n ≠ [] := by
    intro hnil
    rw [hnil] at hvalue
    exact absurd (show 0 = n from hvalue) (by omega)
  unfold isPort
  rw [Nat.toString_eq_repr, Nat.toList_repr, hvalue, toDigits_isDigit]
  simp [hne, h1, h2]

theorem portsOf_eq_some {protocol : Option Protocol} {x : Protocol} (h : portsOf protocol = some x) :
    protocol = some x ∧ hasPorts (some x.name) = true := by
  unfold portsOf at h
  split at h
  · cases h
    exact ⟨rfl, by decide⟩
  · cases h
    exact ⟨rfl, by decide⟩
  · cases h

theorem nftWords_cons {family : String} {protocol after : Option String} {option value : String}
    {words : List String} (h : nftOption family protocol option value = some (words, after))
    (rest : List String) :
    nftWords family protocol (option :: value :: rest) =
      (nftWords family after rest).map (words ++ ·) := by
  rw [nftWords, h]
  show (nftWords family after rest).bind (fun more => some (words ++ more)) = _
  cases nftWords family after rest <;> rfl

/-- A match adds the words of its expression. -/
theorem nftWords_match {family : Nft.Family} {protocol : Option Protocol} {m : Match} {e : Nft.Expr}
    (h : m.expr family protocol = some e) (rest : List String) :
    nftWords family.name (protocol.map Protocol.name) (m.args ++ rest) =
      (nftWords family.name ((m.next protocol).map Protocol.name) rest).map (e.words ++ ·) := by
  -- a module option adds nothing
  have hmodule : ∀ value, value = "conntrack" ∨ value = "multiport" → ∀ more,
      nftWords family.name (protocol.map Protocol.name) ("-m" :: value :: more) =
        nftWords family.name (protocol.map Protocol.name) more := by
    intro value hvalue more
    rw [@nftWords_cons _ _ (protocol.map Protocol.name) "-m" value [] ?_ more]
    · cases nftWords family.name (protocol.map Protocol.name) more <;> rfl
    · rcases hvalue with rfl | rfl <;> rfl
  cases m with
  | inIface name =>
      obtain rfl := Option.some.inj h
      exact nftWords_cons rfl rest
  | outIface name =>
      obtain rfl := Option.some.inj h
      exact nftWords_cons rfl rest
  | source a =>
      obtain rfl := Option.some.inj h
      exact nftWords_cons rfl rest
  | sourceNet n =>
      obtain rfl := Option.some.inj h
      exact nftWords_cons rfl rest
  | destination a =>
      obtain rfl := Option.some.inj h
      exact nftWords_cons rfl rest
  | destinationNet n =>
      obtain rfl := Option.some.inj h
      exact nftWords_cons rfl rest
  | protocol x =>
      obtain rfl := Option.some.inj h
      exact nftWords_cons rfl rest
  | echoRequest =>
      simp only [Match.expr] at h
      split at h
      · next hicmp =>
        obtain rfl := Option.some.inj h
        subst hicmp
        exact nftWords_cons rfl rest
      · cases h
  | sport port =>
      obtain ⟨x, hx, rfl⟩ := Option.map_eq_some_iff.mp h
      obtain ⟨rfl, hports⟩ := portsOf_eq_some hx
      apply nftWords_cons
      simp [nftOption, hports, splitComma_toString, Nft.Expr.words, Match.next, -Nat.toString_eq_repr]
  | dport port =>
      obtain ⟨x, hx, rfl⟩ := Option.map_eq_some_iff.mp h
      obtain ⟨rfl, hports⟩ := portsOf_eq_some hx
      apply nftWords_cons
      simp [nftOption, hports, splitComma_toString, Nft.Expr.words, Match.next, -Nat.toString_eq_repr]
  | dports ports =>
      simp only [Match.expr] at h
      split at h
      · cases h
      · next hne =>
        obtain ⟨x, hx, rfl⟩ := Option.map_eq_some_iff.mp h
        obtain ⟨rfl, hports⟩ := portsOf_eq_some hx
        show nftWords _ _ ("-m" :: "multiport" :: "--dports" :: _ :: rest) = _
        rw [hmodule "multiport" (.inr rfl)]
        apply nftWords_cons
        simp [nftOption, hports, splitComma_ports hne, Nft.Expr.words, Match.next]
  | ctstate states =>
      simp only [Match.expr] at h
      split at h
      · cases h
      · next hne =>
        obtain rfl := Option.some.inj h
        show nftWords _ _ ("-m" :: "conntrack" :: "--ctstate" :: _ :: rest) = _
        rw [hmodule "conntrack" (.inl rfl)]
        apply nftWords_cons
        simp [nftOption, splitComma_states hne, Nft.Expr.words, Match.next]
  | ctorigdst a =>
      simp only [Match.expr] at h
      split at h
      · next hfamily =>
        obtain rfl := Option.some.inj h
        subst hfamily
        apply nftWords_cons
        simp [nftOption, isAddress_text, Nft.Expr.words, Match.next, Nft.Family.name]
      · cases h
  | ctorigdstport n =>
      simp only [Match.expr] at h
      split at h
      · next hbounds =>
        obtain ⟨x, hx, rfl⟩ := Option.map_eq_some_iff.mp h
        obtain ⟨rfl, hports⟩ := portsOf_eq_some hx
        apply nftWords_cons
        simp [nftOption, hports, isPort_toString hbounds.1 hbounds.2, Nft.Expr.words, Match.next,
          -Nat.toString_eq_repr]
      · cases h
  | inIfaceFrom start => cases h
  | physdevIn name => cases h
  | dstLocal => cases h
  | mark value mask => cases h

theorem nftWords_conds {family : Nft.Family} {ms : List Match} :
    ∀ {protocol : Option Protocol} {es : List Nft.Expr}, exprs family protocol ms = some es →
      ∀ {target : Target} {v : Nft.Verdict}, target.nft = some v →
        nftWords family.name (protocol.map Protocol.name) (ms.flatMap Match.args ++ target.args) =
          some (es.flatMap Nft.Expr.words ++ ["counter", v.word]) := by
  induction ms with
  | nil =>
      intro protocol es h target v htarget
      obtain rfl := Option.some.inj h
      cases target with
      | returns =>
          obtain rfl := Option.some.inj htarget
          exact (nftWords_cons rfl []).trans (congrArg some (by decide +kernel))
      | drop =>
          obtain rfl := Option.some.inj htarget
          exact (nftWords_cons rfl []).trans (congrArg some (by decide +kernel))
      | ctZone zone => cases htarget
      | setXmark value mask => cases htarget
      | masquerade => cases htarget
      | dnat a port => cases htarget
  | cons m ms ih =>
      intro protocol es h target v htarget
      simp only [exprs, Option.bind_eq_bind, Option.bind_eq_some_iff, Option.some.injEq] at h
      obtain ⟨e, he, es', hes, rfl⟩ := h
      rw [List.flatMap_cons, List.append_assoc, nftWords_match he, ih hes htarget, List.flatMap_cons,
        List.append_assoc]
      rfl

/-- **`nft_filter_rule` writes the translation** of a rule that has one. -/
theorem nftFilterRule_args {family : Nft.Family} {r : Rule} {r' : Nft.Rule}
    (h : r.nft family = some r') : nftFilterRule r.args family.name = some r'.text := by
  simp only [Rule.nft, Option.bind_eq_bind, Option.bind_eq_some_iff, Option.some.injEq] at h
  obtain ⟨es, hes, v, hv, rfl⟩ := h
  have hwords := nftWords_conds hes hv
  unfold nftFilterRule Rule.args
  rw [show (none : Option String) = (none : Option Protocol).map Protocol.name from rfl, hwords]
  rfl

/-! ## The packets -/

/-- What a match says of a packet of either family. -/
def Match.holdsOf (d : Nft.Datagram) (m : Match) : Bool :=
  match d with
  | .v4 p => m.holds p
  | .v6 p => m.holds6 p

def Rule.appliesTo (r : Rule) (d : Nft.Datagram) : Bool := r.conds.all (Match.holdsOf d)

/-- The expression holds of the packets the match holds of, if the protocol asked for is theirs. -/
theorem expr_holds {family : Nft.Family} {protocol : Option Protocol} {m : Match} {e : Nft.Expr}
    {d : Nft.Datagram} (h : m.expr family protocol = some e)
    (hprotocol : ∀ x, protocol = some x → d.protocol = x) : e.holds d = m.holdsOf d := by
  have hports : ∀ {x}, portsOf protocol = some x → d.protocol = x :=
    fun hx => hprotocol _ (portsOf_eq_some hx).1
  cases m with
  | inIface name => obtain rfl := Option.some.inj h; cases d <;> rfl
  | outIface name => obtain rfl := Option.some.inj h; cases d <;> rfl
  | source a => obtain rfl := Option.some.inj h; cases d <;> rfl
  | sourceNet n => obtain rfl := Option.some.inj h; cases d <;> rfl
  | destination a => obtain rfl := Option.some.inj h; cases d <;> rfl
  | destinationNet n => obtain rfl := Option.some.inj h; cases d <;> rfl
  | protocol x => obtain rfl := Option.some.inj h; cases d <;> rfl
  | echoRequest =>
      simp only [Match.expr] at h
      split at h
      · next hicmp =>
        obtain rfl := Option.some.inj h
        have hd := hprotocol _ hicmp
        cases d with
        | v4 p =>
            have hp : p.protocol = .icmp := hd
            simp [Nft.Expr.holds, Nft.Datagram.ip, Match.holdsOf, Match.holds, hp]
        | v6 p => rfl
      · cases h
  | sport port =>
      obtain ⟨x, hx, rfl⟩ := Option.map_eq_some_iff.mp h
      have hd := hports hx
      cases d <;> simp [Nft.Expr.holds, hd, Nft.Datagram.sport, Match.holdsOf, Match.holds, Match.holds6]
  | dport port =>
      obtain ⟨x, hx, rfl⟩ := Option.map_eq_some_iff.mp h
      have hd := hports hx
      cases d <;> simp [Nft.Expr.holds, hd, Nft.Datagram.dport, Match.holdsOf, Match.holds, Match.holds6]
  | dports ports =>
      simp only [Match.expr] at h
      split at h
      · cases h
      · obtain ⟨x, hx, rfl⟩ := Option.map_eq_some_iff.mp h
        have hd := hports hx
        cases d <;> simp [Nft.Expr.holds, hd, Nft.Datagram.dport, Match.holdsOf, Match.holds, Match.holds6]
  | ctstate states =>
      simp only [Match.expr] at h
      split at h
      · cases h
      · obtain rfl := Option.some.inj h
        cases d <;> rfl
  | ctorigdst a =>
      simp only [Match.expr] at h
      split at h
      · obtain rfl := Option.some.inj h
        cases d <;> rfl
      · cases h
  | ctorigdstport n =>
      simp only [Match.expr] at h
      split at h
      · obtain ⟨x, hx, rfl⟩ := Option.map_eq_some_iff.mp h
        cases d <;> rfl
      · cases h
  | inIfaceFrom start => cases h
  | physdevIn name => cases h
  | dstLocal => cases h
  | mark value mask => cases h

theorem exprs_holds {family : Nft.Family} {d : Nft.Datagram} {ms : List Match} :
    ∀ {protocol : Option Protocol} {es : List Nft.Expr}, exprs family protocol ms = some es →
      (∀ x, protocol = some x → d.protocol = x) →
        es.all (Nft.Expr.holds d) = ms.all (Match.holdsOf d) := by
  induction ms with
  | nil =>
      intro protocol es h _
      obtain rfl := Option.some.inj h
      rfl
  | cons m ms ih =>
      intro protocol es h hprotocol
      simp only [exprs, Option.bind_eq_bind, Option.bind_eq_some_iff, Option.some.injEq] at h
      obtain ⟨e, he, es', hes, rfl⟩ := h
      rw [List.all_cons, List.all_cons, expr_holds he hprotocol]
      cases hm : m.holdsOf d with
      | false => rfl
      | true =>
          rw [Bool.true_and, Bool.true_and]
          apply ih hes
          -- a match that holds leaves the protocol it asked for
          intro x hx
          cases m
          case protocol y =>
            obtain rfl := Option.some.inj hx
            cases d with
            | v4 p => exact of_decide_eq_true hm
            | v6 p => exact of_decide_eq_true hm
          all_goals exact hprotocol x hx

/-- A translated rule applies to the packets of its family the rule applies to. -/
theorem nft_applies {family : Nft.Family} {r : Rule} {r' : Nft.Rule} {d : Nft.Datagram}
    (h : r.nft family = some r') :
    r'.applies d = (decide (d.family = family) && r.appliesTo d) ∧ r.target.nft = some r'.verdict := by
  simp only [Rule.nft, Option.bind_eq_bind, Option.bind_eq_some_iff, Option.some.injEq] at h
  obtain ⟨es, hes, v, hv, rfl⟩ := h
  refine ⟨?_, hv⟩
  show (decide (d.family = family) && es.all (Nft.Expr.holds d)) = _
  rw [exprs_holds hes (by simp)]
  rfl

/-! ## Chains -/

/-- Every rule has a translation. -/
def Translatable (family : Nft.Family) (rules : List Rule) : Prop :=
  ∀ r ∈ rules, ∃ r', r.nft family = some r'

theorem forall₂_nftRules {family : Nft.Family} {rules : List Rule} (h : Translatable family rules) :
    List.Forall₂ (fun r r' => r.nft family = some r') rules (nftRules family rules) := by
  induction rules with
  | nil => exact .nil
  | cons r rules ih =>
      obtain ⟨r', hr'⟩ := h r List.mem_cons_self
      unfold nftRules
      rw [List.filterMap_cons_some hr']
      exact .cons hr' (ih fun x hx => h x (List.mem_cons_of_mem _ hx))

/-- The lines of translatable rules are the texts of the translations. -/
theorem mapM_nftFilterRule {family : Nft.Family} {rules : List Rule} (h : Translatable family rules) :
    rules.mapM (fun r => nftFilterRule r.args family.name) =
      some ((nftRules family rules).map Nft.Rule.text) := by
  induction rules with
  | nil => rfl
  | cons r rules ih =>
      obtain ⟨r', hr'⟩ := h r List.mem_cons_self
      rw [List.mapM_cons, nftFilterRule_args hr', ih fun x hx => h x (List.mem_cons_of_mem _ hx)]
      unfold nftRules
      rw [List.filterMap_cons_some hr']
      rfl

/-- The verdict of `nft` for a target of a filter rule. -/
def Target.verdict (t : Target) : Nft.Verdict := if t = .drop then .drop else .returns

theorem verdict_of_nft {t : Target} {v : Nft.Verdict} (h : t.nft = some v) : v = t.verdict := by
  cases t with
  | returns => exact (Option.some.inj h).symm
  | drop => exact (Option.some.inj h).symm
  | ctZone zone => cases h
  | setXmark value mask => cases h
  | masquerade => cases h
  | dnat a port => cases h

theorem map_verdict_eq_drop {o : Option Target} : o.map Target.verdict = some .drop ↔ o = some .drop := by
  constructor
  · intro h
    obtain ⟨t, rfl, ht⟩ := Option.map_eq_some_iff.mp h
    unfold Target.verdict at ht
    split at ht
    · next hdrop => rw [hdrop]
    · cases ht
  · rintro rfl
    rfl

abbrev nftVerdict (rules : List Nft.Rule) (d : Nft.Datagram) : Option Nft.Verdict :=
  FirstMatch.verdict Nft.Rule.applies Nft.Rule.verdict rules d

theorem nftVerdict_skip {before after : List Nft.Rule} {d : Nft.Datagram}
    (h : nftVerdict before d = none) : nftVerdict (before ++ after) d = nftVerdict after d :=
  verdict_append_of_none h

theorem nftVerdict_final {before after : List Nft.Rule} {d : Nft.Datagram} {v : Nft.Verdict}
    (h : nftVerdict before d = some v) : nftVerdict (before ++ after) d = some v :=
  verdict_append_of_some h

/-- A translated chain drops what the chain drops of its family. -/
theorem nftRules_drops {family : Nft.Family} {rules : List Rule} {d : Nft.Datagram}
    (h : Translatable family rules) (hd : d.family = family) :
    nftVerdict (nftRules family rules) d = some .drop ↔
      FirstMatch.verdict Rule.appliesTo Rule.target rules d = some .drop := by
  have hcorrespond : nftVerdict (nftRules family rules) d =
      (FirstMatch.verdict Rule.appliesTo Rule.target rules d).map Target.verdict := by
    apply verdict_correspond
    apply (forall₂_nftRules h).imp
    intro r r' hr
    obtain ⟨happlies, htarget⟩ := @nft_applies _ _ _ d hr
    refine ⟨?_, verdict_of_nft htarget⟩
    rw [happlies, decide_eq_true hd, Bool.true_and]
  rw [hcorrespond, map_verdict_eq_drop]

/-- It is silent about the other family. -/
theorem nftRules_silent {family : Nft.Family} {rules : List Rule} {d : Nft.Datagram}
    (hd : d.family ≠ family) : nftVerdict (nftRules family rules) d = none := by
  apply verdict_eq_none
  intro r' hr'
  obtain ⟨r, -, hr⟩ := List.mem_filterMap.mp hr'
  rw [(@nft_applies _ _ _ d hr).1, decide_eq_false hd, Bool.false_and]

/-! ## The blocks of the plan -/

section Blocks

variable {family : Nft.Family} {config : Config} {node : Node} {active : Bool} {guests : Subnet}
  {services : List IPv4}

theorem translatable_append {before after : List Rule} (hbefore : Translatable family before)
    (hafter : Translatable family after) : Translatable family (before ++ after) := by
  intro r hr
  rcases List.mem_append.mp hr with hr | hr
  · exact hbefore r hr
  · exact hafter r hr

theorem translatable_flatMap {α : Type} {xs : List α} {rules : α → List Rule}
    (h : ∀ x ∈ xs, Translatable family (rules x)) : Translatable family (xs.flatMap rules) := by
  intro r hr
  obtain ⟨x, hx, hr⟩ := List.mem_flatMap.mp hr
  exact h x hx r hr

theorem translatable_map {α : Type} {xs : List α} {rule : α → Rule}
    (h : ∀ x ∈ xs, ∃ r', (rule x).nft family = some r') : Translatable family (xs.map rule) := by
  intro r hr
  obtain ⟨x, hx, rfl⟩ := List.mem_map.mp hr
  exact h x hx

theorem translatable_whenActive {S : Type} {section? : Option S} {rules : S → List Rule}
    (h : ∀ s, section? = some s → Translatable family (rules s)) :
    Translatable family (whenActive active section? rules) := by
  unfold whenActive
  split
  · exact translatable_flatMap fun s hs => h s (Option.mem_toList.mp hs)
  · exact fun r hr => absurd hr List.not_mem_nil

/-- Two rules, as most blocks have for one name. -/
theorem translatable_pair {r s : Rule} (hr : ∃ r', r.nft family = some r')
    (hs : ∃ s', s.nft family = some s') : Translatable family [r, s] := by
  intro x hx
  simp only [List.mem_cons, List.not_mem_nil, or_false] at hx
  rcases hx with rfl | rfl
  · exact hr
  · exact hs

theorem translatable_bmcInput : Translatable family (bmcInput node) :=
  translatable_flatMap fun _ _ => translatable_pair ⟨_, rfl⟩ ⟨_, rfl⟩

theorem translatable_bmcForward : Translatable family (bmcForward node) :=
  translatable_flatMap fun _ _ => translatable_pair ⟨_, rfl⟩ ⟨_, rfl⟩

theorem translatable_sameForward : Translatable family sameForward :=
  translatable_pair ⟨_, rfl⟩ ⟨_, rfl⟩

theorem translatable_hostForward : Translatable family (hostForward config) :=
  translatable_flatMap fun _ _ => translatable_pair ⟨_, rfl⟩ ⟨_, rfl⟩

theorem translatable_finalForward : Translatable family (finalForward config) :=
  translatable_flatMap fun _ _ => translatable_pair ⟨_, rfl⟩ ⟨_, rfl⟩

theorem translatable_guestInput {api : IPv4} : Translatable family (guestInput api) := by
  intro r hr
  simp only [guestInput, List.mem_cons, List.not_mem_nil, or_false] at hr
  rcases hr with rfl | rfl | rfl | rfl | rfl <;> exact ⟨_, rfl⟩

theorem translatable_redirectedInput {ports : List Nat} :
    Translatable family (redirectedInput node ports) :=
  translatable_map fun _ _ => ⟨_, rfl⟩

theorem translatable_relaySshForward {t : RelayTransit} :
    Translatable family (relaySshForward config t guests) := by
  apply translatable_map
  intro protocol hprotocol
  simp only [List.mem_cons, List.not_mem_nil, or_false] at hprotocol
  rcases hprotocol with rfl | rfl <;> exact ⟨_, rfl⟩

theorem translatable_uplinkForward : Translatable family (uplinkForward config active) := by
  apply translatable_flatMap
  intro name _ r hr
  rcases List.mem_cons.mp hr with rfl | hr
  · exact ⟨_, rfl⟩
  · cases active with
    | false => cases hr
    | true => obtain rfl := List.mem_singleton.mp hr; exact ⟨_, rfl⟩

/-- The original destination of a connection is translated for IPv4 only, and its port is checked. -/
theorem translatable_redirectedForward {source destination : IPv4} {ports : List Nat}
    (h : ∀ port ∈ ports, 1 ≤ port ∧ port ≤ 65535) :
    Translatable .ipv4 (redirectedForward config node source destination ports) := by
  apply translatable_map
  intro port hport
  apply Option.isSome_iff_exists.mp
  simp [Rule.nft, exprs, Match.expr, Match.next, portsOf, h port hport, Target.nft]

theorem translatable_relayForward {t : RelayTransit} :
    Translatable family (relayForward config t guests) := by
  apply translatable_append
  · apply translatable_map
    intro protocol _
    exact ⟨_, rfl⟩
  · intro r hr
    obtain rfl := List.mem_singleton.mp hr
    exact ⟨_, rfl⟩

theorem translatable_serviceForward : Translatable family (serviceForward services) := by
  intro r hr
  rcases List.mem_cons.mp hr with rfl | hr
  · exact ⟨_, rfl⟩
  · obtain ⟨a, -, rfl⟩ := List.mem_map.mp hr
    exact ⟨_, rfl⟩

theorem translatable_backupForward {b : BackupService} : Translatable family (backupForward config b) :=
  translatable_pair ⟨_, rfl⟩ ⟨_, rfl⟩

/-- The `forward` chain of `iptables` is translatable. -/
theorem translatable_forwardRules (hv : validateConfig config = true) :
    Translatable .ipv4 (forwardRules config node active guests services) := by
  have hingress : ∀ port ∈ ingressPorts, 1 ≤ port ∧ port ≤ 65535 := by decide
  apply translatable_append translatable_bmcForward
  apply translatable_append translatable_sameForward
  apply translatable_append translatable_hostForward
  apply translatable_append (translatable_whenActive fun _ _ => translatable_relaySshForward)
  apply translatable_append translatable_uplinkForward
  apply translatable_append
    (translatable_whenActive fun _ _ => translatable_redirectedForward hingress)
  apply translatable_append
  · apply translatable_whenActive
    intro t ht
    apply translatable_redirectedForward
    intro port hport
    rw [List.mem_singleton.mp hport, sshPort hv ht]
    omega
  apply translatable_append (translatable_whenActive fun _ _ => translatable_relayForward)
  apply translatable_append translatable_serviceForward
  apply translatable_append (translatable_whenActive fun _ _ => translatable_backupForward)
  exact translatable_finalForward

end Blocks

/-- The four filtering chains of a plan are translatable. -/
structure PlanTranslatable (plan : Plan) : Prop where
  input : Translatable .ipv4 plan.iptables.input
  forward : Translatable .ipv4 plan.iptables.forward
  input6 : Translatable .ipv6 plan.ip6tables.input
  forward6 : Translatable .ipv6 plan.ip6tables.forward

theorem planTranslatable {config : Config} {node peer : Node} {active : Bool} {api : IPv4}
    {services : List IPv4} {guests : Subnet} {plan : Plan} (hv : validateConfig config = true)
    (h : Chains config node active peer api services guests plan) : PlanTranslatable plan where
  input := by
    rw [h.input]
    apply translatable_append (translatable_append translatable_bmcInput translatable_guestInput)
    apply translatable_append
    · exact translatable_flatMap fun _ _ => translatable_redirectedInput
    · exact translatable_flatMap fun _ _ => translatable_redirectedInput
  forward := by
    rw [h.forward]
    exact translatable_forwardRules hv
  input6 := by
    rw [h.input6]
    exact translatable_append translatable_bmcInput (translatable_map fun _ _ => ⟨_, rfl⟩)
  forward6 := by
    rw [h.forward6]
    apply translatable_append (translatable_append translatable_bmcForward translatable_sameForward)
    exact translatable_finalForward

/-! ## The text -/

theorem guardChain_lines {hook : Nft.Hook} {front : List Nft.Rule} {rules4 rules6 : List Rule}
    (h4 : Translatable .ipv4 rules4) (h6 : Translatable .ipv6 rules6) :
    guardChain hook.word (front.map fun r => "  " ++ r.text) rules4 rules6 =
      some (Nft.Chain.lines ⟨hook, -20, front ++ (nftRules .ipv4 rules4 ++ nftRules .ipv6 rules6)⟩) := by
  have htype : "  type filter hook " ++ hook.word ++ " priority -20; policy accept;" =
      "  type filter hook " ++ hook.word ++ " priority " ++ toString (-20 : Int) ++ "; policy accept;" := by
    cases hook <;> decide +kernel
  unfold guardChain Nft.Chain.lines
  rw [show "ipv4" = Nft.Family.name .ipv4 from rfl, show "ipv6" = Nft.Family.name .ipv6 from rfl,
    mapM_nftFilterRule h4, mapM_nftFilterRule h6, htype]
  simp [Function.comp_def]

theorem vxlan_lines (config : Config) (peer : Node) :
    ["  iifname " ++ Nft.quoted config.meshInterface ++ " ip saddr " ++ addressText peer.mesh
        ++ " udp dport 4789 counter return",
      "  udp dport 4789 counter drop"] = (vxlanRules config peer).map fun r => "  " ++ r.text := by
  have hport : toString 4789 = "4789" := by decide +kernel
  have hiif : "  iifname " = "  " ++ ("iifname" ++ " ") := by decide +kernel
  have hsaddr : " ip saddr " = " " ++ ("ip saddr" ++ " ") := by decide +kernel
  have hreturn : " udp dport 4789 counter return" =
      " " ++ ("udp" ++ (" " ++ ("dport" ++ (" " ++ ("4789" ++ (" " ++ ("counter" ++ (" " ++ "return")))))))) := by
    decide +kernel
  have hdrop : "  udp dport 4789 counter drop" =
      "  " ++ ("udp" ++ (" " ++ ("dport" ++ (" " ++ ("4789" ++ (" " ++ ("counter" ++ (" " ++ "drop")))))))) := by
    decide +kernel
  simp only [vxlanRules, List.map_cons, List.map_nil, Nft.Rule.text, Nft.Rule.words,
    List.flatMap_cons, List.flatMap_nil, Nft.Expr.words, List.cons_append, List.nil_append,
    List.append_nil, String.intercalate_cons_cons, String.intercalate_singleton, hport, Protocol.name,
    Nft.Verdict.word]
  simp only [hiif, hsaddr, hreturn, hdrop, String.append_assoc]

/-- **`nft_guard_text` writes the guard table.** -/
theorem nftGuardText_eq {config : Config} {nodeName : String} {mark : AcceptMark} {active : Bool}
    {plan : Plan} {peer : Node} (hplan : firewallPlan config nodeName mark active = some plan)
    (hpeer : (config.nodes.entries.find? (fun e => e.1 ≠ nodeName)).map Prod.snd = some peer)
    (h : PlanTranslatable plan) (table : String) :
    nftGuardText config nodeName mark active table = some (guardTable config peer plan table).text := by
  have hinput := @guardChain_lines .input (vxlanRules config peer) _ _ h.input h.input6
  have hforward := @guardChain_lines .forward [] _ _ h.forward h.forward6
  rw [← vxlan_lines] at hinput
  simp only [nftGuardText, hplan, hpeer, Option.bind_eq_bind, Option.bind_some]
  rw [show "input" = Nft.Hook.word .input from rfl, hinput,
    show "forward" = Nft.Hook.word .forward from rfl]
  rw [List.map_nil] at hforward
  rw [hforward]
  simp [guardTable, Nft.Table.text]

/-! ## The hooks -/

theorem drops_input {config : Config} {peer : Node} {plan : Plan} {table : String} {d : Nft.Datagram} :
    (guardTable config peer plan table).drops .input d = true ↔
      nftVerdict (vxlanRules config peer
        ++ (nftRules .ipv4 plan.iptables.input ++ nftRules .ipv6 plan.ip6tables.input)) d
        = some .drop := by
  simp [guardTable, Nft.Table.drops, Nft.Chain.verdict]
  exact decide_eq_true_iff

theorem drops_forward {config : Config} {peer : Node} {plan : Plan} {table : String} {d : Nft.Datagram} :
    (guardTable config peer plan table).drops .forward d = true ↔
      nftVerdict (nftRules .ipv4 plan.iptables.forward ++ nftRules .ipv6 plan.ip6tables.forward) d
        = some .drop := by
  simp [guardTable, Nft.Table.drops, Nft.Chain.verdict]
  exact decide_eq_true_iff

/-- The two families of a base chain, one after the other: the chain of the packet's family decides. -/
theorem families_drop {rules4 rules6 : List Rule} (h4 : Translatable .ipv4 rules4)
    (h6 : Translatable .ipv6 rules6) (d : Nft.Datagram) :
    nftVerdict (nftRules .ipv4 rules4 ++ nftRules .ipv6 rules6) d = some .drop ↔
      (match d with
        | .v4 p => verdict rules4 p = some .drop
        | .v6 p => verdict6 rules6 p = some .drop) := by
  cases d with
  | v4 p =>
      have hfamily : (Nft.Datagram.v4 p).family ≠ .ipv6 := fun h => by cases h
      have hsilent := @nftRules_silent .ipv6 rules6 _ hfamily
      have hdrops : nftVerdict (nftRules .ipv4 rules4) (.v4 p) = some .drop ↔
          verdict rules4 p = some .drop := nftRules_drops h4 rfl
      show _ ↔ verdict rules4 p = some .drop
      rw [← hdrops]
      cases hv : nftVerdict (nftRules .ipv4 rules4) (.v4 p) with
      | none => rw [nftVerdict_skip hv, hsilent]
      | some v => rw [nftVerdict_final hv]
  | v6 p =>
      have hfamily : (Nft.Datagram.v6 p).family ≠ .ipv4 := fun h => by cases h
      rw [nftVerdict_skip (nftRules_silent hfamily)]
      exact nftRules_drops h6 rfl

/-- The rules in front decide the packets of the tunnel, and no others. -/
theorem verdict_vxlanRules {config : Config} {peer : Node} {d : Nft.Datagram} :
    nftVerdict (vxlanRules config peer) d =
      if d.protocol = .udp ∧ d.dport = 4789 then
        if d.inIface = config.meshInterface ∧ d.ip (fun p => p.source = peer.mesh) = true then
          some .returns
        else some .drop
      else none := by
  unfold nftVerdict vxlanRules
  rw [verdict_cons, verdict_cons, verdict_nil]
  simp only [Nft.Rule.applies, Nft.Expr.holds, List.all_cons, List.all_nil, Bool.and_true,
    Bool.and_eq_true, decide_eq_true_eq]
  by_cases hvxlan : d.protocol = .udp ∧ d.dport = 4789
  · simp [hvxlan]
  · simp [hvxlan]

section Plan

variable {config : Config} {node peer : Node} {active : Bool} {api : IPv4} {services : List IPv4}
  {guests : Subnet} {plan : Plan}

/-- The raw rules drop the tunnel's packets to the node that are not from its peer. -/
theorem raw_drops (h : Chains config node active peer api services guests plan) {p : Packet} :
    verdict plan.iptables.raw p = some .drop ↔
      p.toLocal = true ∧ (p.protocol = .udp ∧ p.dport = 4789) ∧
        ¬ (p.inIface = config.meshInterface ∧ p.source = peer.mesh) := by
  rw [h.raw]
  unfold verdict
  rw [verdict_cons, verdict_cons, verdict_cons, verdict_nil]
  simp only [Rule.applies, localVxlan, List.cons_append, List.nil_append, List.all_cons, List.all_nil,
    Match.holds, Bool.and_true, Bool.and_eq_true, decide_eq_true_eq]
  by_cases hlocal : p.toLocal = true
  · by_cases hvxlan : p.protocol = .udp ∧ p.dport = 4789
    · by_cases hpeer : p.inIface = config.meshInterface ∧ p.source = peer.mesh
      · simp [hlocal, hvxlan, hpeer]
      · rw [if_neg (fun hc => hpeer ⟨hc.1, hc.2.1⟩), if_pos ⟨hvxlan.1, hvxlan.2, hlocal⟩]
        exact ⟨fun _ => ⟨hlocal, hvxlan, hpeer⟩, fun _ => rfl⟩
    · rw [if_neg (fun hc => hvxlan ⟨hc.2.2.1, hc.2.2.2.1⟩), if_neg (fun hc => hvxlan ⟨hc.1, hc.2.1⟩)]
      refine ⟨fun hd => ?_, fun hd => absurd hd.2.1 hvxlan⟩
      split at hd <;> cases hd
  · rw [if_neg (fun hc => hlocal hc.2.2.2.2), if_neg (fun hc => hlocal hc.2.2)]
    refine ⟨fun hd => ?_, fun hd => absurd hd.1 hlocal⟩
    split at hd <;> cases hd

theorem raw6_drops (h : Chains config node active peer api services guests plan) {p : Packet6} :
    verdict6 plan.ip6tables.raw p = some .drop ↔
      p.toLocal = true ∧ p.protocol = .udp ∧ p.dport = 4789 := by
  rw [h.raw6]
  unfold verdict6
  rw [verdict_cons, verdict_nil]
  simp only [Rule.applies6, localVxlan, List.all_cons, List.all_nil, Match.holds6, Bool.and_true,
    Bool.and_eq_true, decide_eq_true_eq]
  by_cases hc : p.protocol = .udp ∧ p.dport = 4789 ∧ p.toLocal = true
  · rw [if_pos hc]
    exact ⟨fun _ => ⟨hc.2.2, hc.1, hc.2.1⟩, fun _ => rfl⟩
  · rw [if_neg hc]
    refine ⟨fun hd => ?_, fun hd => absurd ⟨hd.2.1, hd.2.2, hd.1⟩ hc⟩
    cases hd

/-- The input chain has nothing against the tunnel's packets on the mesh. -/
theorem input_passes_mesh (h : Chains config node active peer api services guests plan)
    (hd : Distinct config node) {p : Packet} (hmesh : p.inIface = config.meshInterface)
    (hudp : p.protocol = .udp) : verdict plan.iptables.input p = none := by
  apply verdict_eq_none
  intro r hr
  rw [h.input] at hr
  have hredirected : ∀ ports, r ∈ redirectedInput node ports → r.applies p = false := by
    intro ports hr
    obtain ⟨port, -, rfl⟩ := List.mem_map.mp hr
    simp [Rule.applies, Match.holds, hudp]
  rcases List.mem_append.mp hr with hr | hr
  · rcases List.mem_append.mp hr with hr | hr
    · obtain ⟨nic, hnic, hr⟩ := List.mem_flatMap.mp hr
      have hne : p.inIface ≠ nic := hmesh ▸ (hd.bmc nic (Option.mem_toList.mp hnic)).2.1.symm
      simp only [List.mem_cons, List.not_mem_nil, or_false] at hr
      rcases hr with rfl | rfl <;> simp [Rule.applies, Match.holds, hne]
    · have hguest : p.inIface ≠ "pguest" := hmesh ▸ hd.meshGuest
      have hinfra : p.inIface ≠ "pinfra" := hmesh ▸ hd.meshInfra
      simp only [guestInput, List.mem_cons, List.not_mem_nil, or_false] at hr
      rcases hr with rfl | rfl | rfl | rfl | rfl <;> simp [Rule.applies, Match.holds, hguest, hinfra]
  · rcases List.mem_append.mp hr with hr | hr
    · obtain ⟨i, -, hr⟩ := List.mem_flatMap.mp hr
      exact hredirected _ hr
    · obtain ⟨t, -, hr⟩ := List.mem_flatMap.mp hr
      exact hredirected _ hr

/-- In the input hook the rules in front do what the raw rules do, and the rest what the chain does. -/
theorem guard_input (h : Chains config node active peer api services guests plan)
    (ht : PlanTranslatable plan) (hd : Distinct config node) (table : String) {p : Packet}
    (hlocal : p.toLocal = true) :
    (guardTable config peer plan table).drops .input (.v4 p) = true ↔
      verdict plan.iptables.raw p = some .drop ∨ verdict plan.iptables.input p = some .drop := by
  rw [drops_input, raw_drops h]
  have hfront := @verdict_vxlanRules config peer (.v4 p)
  by_cases hvxlan : (Nft.Datagram.v4 p).protocol = .udp ∧ (Nft.Datagram.v4 p).dport = 4789
  · rw [if_pos hvxlan] at hfront
    by_cases hpeer : (Nft.Datagram.v4 p).inIface = config.meshInterface ∧
        (Nft.Datagram.v4 p).ip (fun p => p.source = peer.mesh) = true
    · -- the peer's tunnel: neither drops
      rw [if_pos hpeer] at hfront
      rw [nftVerdict_final hfront, input_passes_mesh h hd hpeer.1 hvxlan.1]
      constructor
      · intro hc
        cases hc
      · rintro (⟨-, -, hother⟩ | hc)
        · exact absurd ⟨hpeer.1, of_decide_eq_true hpeer.2⟩ hother
        · cases hc
    · -- any other tunnel: both drop
      rw [if_neg hpeer] at hfront
      rw [nftVerdict_final hfront]
      refine ⟨fun _ => .inl ⟨hlocal, hvxlan, fun hc => hpeer ?_⟩, fun _ => rfl⟩
      exact ⟨hc.1, decide_eq_true hc.2⟩
  · rw [if_neg hvxlan] at hfront
    rw [nftVerdict_skip hfront, families_drop ht.input ht.input6 (.v4 p)]
    exact ⟨.inr, fun hc => hc.elim (fun hr => absurd hr.2.1 hvxlan) id⟩

theorem guard_input6 (h : Chains config node active peer api services guests plan)
    (ht : PlanTranslatable plan) (table : String) {p : Packet6} (hlocal : p.toLocal = true) :
    (guardTable config peer plan table).drops .input (.v6 p) = true ↔
      verdict6 plan.ip6tables.raw p = some .drop ∨ verdict6 plan.ip6tables.input p = some .drop := by
  rw [drops_input, raw6_drops h]
  have hfront := @verdict_vxlanRules config peer (.v6 p)
  by_cases hvxlan : (Nft.Datagram.v6 p).protocol = .udp ∧ (Nft.Datagram.v6 p).dport = 4789
  · -- the exception for the peer reads an IPv4 address
    have hpeer : ¬ ((Nft.Datagram.v6 p).inIface = config.meshInterface ∧
        (Nft.Datagram.v6 p).ip (fun p => p.source = peer.mesh) = true) := fun hc => by cases hc.2
    rw [if_pos hvxlan, if_neg hpeer] at hfront
    rw [nftVerdict_final hfront]
    exact ⟨fun _ => .inl ⟨hlocal, hvxlan⟩, fun _ => rfl⟩
  · rw [if_neg hvxlan] at hfront
    rw [nftVerdict_skip hfront, families_drop ht.input ht.input6 (.v6 p)]
    exact ⟨.inr, fun hc => hc.elim (fun hr => absurd hr.2 hvxlan) id⟩

end Plan

/-- **The guard decides as the plan does.** Every filter rule has a translation, and the table that is
    written drops a packet in a hook exactly if the raw rules or the chain of the hook drop it. A packet
    in the input hook is addressed to the node, one in the forward hook is not. -/
theorem guard_equals_plan {config : Config} (hv : validateConfig config = true)
    (hservices : ∀ s ∈ ["api", "proxy", "sshgw", "relay"], s ∈ config.serviceSources.keys)
    {nodeName : String} {node : Node} (hnode : config.nodes.get? nodeName = some node)
    (hnames : (interfaces config node).Nodup) (mark : AcceptMark) (active : Bool) (table : String) :
    ∃ plan peer, firewallPlan config nodeName mark active = some plan ∧
      (∀ r ∈ plan.iptables.input ++ plan.iptables.forward, (nftFilterRule r.args "ipv4").isSome) ∧
      (∀ r ∈ plan.ip6tables.input ++ plan.ip6tables.forward, (nftFilterRule r.args "ipv6").isSome) ∧
      nftGuardText config nodeName mark active table = some (guardTable config peer plan table).text ∧
      (∀ p : Packet, p.toLocal = true →
        ((guardTable config peer plan table).drops .input (.v4 p) = true ↔
          verdict plan.iptables.raw p = some .drop ∨ verdict plan.iptables.input p = some .drop)) ∧
      (∀ p : Packet6, p.toLocal = true →
        ((guardTable config peer plan table).drops .input (.v6 p) = true ↔
          verdict6 plan.ip6tables.raw p = some .drop ∨ verdict6 plan.ip6tables.input p = some .drop)) ∧
      (∀ p : Packet, p.toLocal = false →
        ((guardTable config peer plan table).drops .forward (.v4 p) = true ↔
          verdict plan.iptables.raw p = some .drop ∨ verdict plan.iptables.forward p = some .drop)) ∧
      (∀ p : Packet6, p.toLocal = false →
        ((guardTable config peer plan table).drops .forward (.v6 p) = true ↔
          verdict6 plan.ip6tables.raw p = some .drop ∨
            verdict6 plan.ip6tables.forward p = some .drop)) := by
  obtain ⟨plan, pguest, peer, api, services, hplan, -, hpeer, hchains⟩ :=
    firewallPlan_chains hv hservices hnode mark active
  have hd := distinct_of_nodup hnames
  have ht := planTranslatable hv hchains
  have hdefined : ∀ (family : Nft.Family) (rules : List Rule), Translatable family rules →
      ∀ r ∈ rules, (nftFilterRule r.args family.name).isSome := by
    intro family rules htranslatable r hr
    obtain ⟨r', hr'⟩ := htranslatable r hr
    rw [nftFilterRule_args hr']
    rfl
  refine ⟨plan, peer, hplan, ?_, ?_, nftGuardText_eq hplan hpeer ht table, ?_, ?_, ?_, ?_⟩
  · exact hdefined .ipv4 _ (translatable_append ht.input ht.forward)
  · exact hdefined .ipv6 _ (translatable_append ht.input6 ht.forward6)
  · intro p hlocal
    exact guard_input hchains ht hd table hlocal
  · intro p hlocal
    exact guard_input6 hchains ht table hlocal
  · intro p hforward
    rw [drops_forward, raw_drops hchains, families_drop ht.forward ht.forward6 (.v4 p), hforward]
    simp
  · intro p hforward
    rw [drops_forward, raw6_drops hchains, families_drop ht.forward ht.forward6 (.v6 p), hforward]
    simp

/-- The peer's tunnel passes the input hook of both. -/
theorem guard_equals_plan_demo :
    ∃ plan peer, firewallPlan demoConfig "pve-a" ⟨0x1bd20#32, 0xffffffff#32, 0x80000000#32⟩ true = some plan ∧
      nftGuardText demoConfig "pve-a" ⟨0x1bd20#32, 0xffffffff#32, 0x80000000#32⟩ true "owned_guard"
        = some (guardTable demoConfig peer plan "owned_guard").text ∧
      ((guardTable demoConfig peer plan "owned_guard").drops .forward
          (.v4 (guestPacket "vmbr0" demoPeer.campus)) = true ↔
        verdict plan.iptables.raw (guestPacket "vmbr0" demoPeer.campus) = some .drop ∨
          verdict plan.iptables.forward (guestPacket "vmbr0" demoPeer.campus) = some .drop) := by
  obtain ⟨plan, peer, hplan, -, -, htext, -, -, hforward, -⟩ :=
    @guard_equals_plan demoConfig (by decide +kernel) (by decide +kernel) "pve-a" demoNode rfl
      (by decide +kernel) ⟨0x1bd20#32, 0xffffffff#32, 0x80000000#32⟩ true "owned_guard"
  exact ⟨plan, peer, hplan, htext, hforward _ rfl⟩

end Network
end PickleInfra
