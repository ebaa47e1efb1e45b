import TunnnejiTail.PacketFilter.Rules
import TunnnejiTail.PacketFilter.Filter

/-! What a filter rule says, read off its text, and when the filter decides the same. -/
namespace TunnnejiTail.PacketFilter
open Go Netip Packet List Proto

def rangeCovers (ends : Str × Str) (ip : Addr) : Bool :=
  (parseAddr ends.1).any fun lo => (parseAddr ends.2).any fun hi => inRange lo hi ip

def netsCover (arg : Str) (ip : Addr) : Bool :=
  if '/' ∈ arg then (parsePrefix arg).any (·.contains ip)
  else if arg.count '-'=1 then (cut '-' arg).any fun ends => rangeCovers ends ip
  else (parseAddr arg).any fun a => ip=a.withoutZone

/-- The addresses that an entry names; a star is all of them and a capability none. -/
def textCovers (arg : Str) (ip : Addr) : Bool :=
  if arg=['*'] then true
  else if (cutCap arg).isSome then false
  else netsCover arg ip

def FilterRule.Lists (r : FilterRule) (proto : Proto) : Prop :=
  if r.ipProto=[] then proto ∈ defaultProtos else (proto.toNat : ℤ) ∈ r.ipProto

def FilterRule.HasSource (r : FilterRule) (src : Addr) : Prop := ∃ s ∈ r.srcIPs, textCovers s src

/-- The rule names a capability that is granted to the source and satisfies P. -/
def FilterRule.HasCap (r : FilterRule) (hasCap : Option CapTestFunc) (P : NodeCapability → Prop)
    (src : Addr) : Prop :=
  ∃ s ∈ r.srcIPs, ∃ c, cutCap s=some c ∧ P c ∧ ∃ test, hasCap=some test ∧ test src c

def hasPorts (proto : Proto) : Bool := proto=.tcp || proto=.udp || proto=.sctp

def portsOpen (q : Parsed) (ports : PortRange) : Bool :=
  if hasPorts q.ipProto then ports.contains q.dst.port else ports=allPorts

def FilterRule.Opens (r : FilterRule) (q : Parsed) : Prop :=
  ∃ d ∈ r.dstPorts, textCovers d.ip q.dst.addr ∧ portsOpen q d.ports

def FilterRule.Admits (r : FilterRule) (hasCap : Option CapTestFunc) (q : Parsed) : Prop :=
  r.Lists q.ipProto ∧ (r.HasSource q.src.addr ∨ r.HasCap hasCap (fun _ => True) q.src.addr) ∧ r.Opens q

/-- The rule lets the packet in for its source address or, when the packet has ports, for a
capability with a name. -/
def FilterRule.AdmitsPlainly (r : FilterRule) (hasCap : Option CapTestFunc) (q : Parsed) : Prop :=
  r.Lists q.ipProto ∧ (r.HasSource q.src.addr ∨
    hasPorts q.ipProto ∧ r.HasCap hasCap (fun c => c≠[]) q.src.addr) ∧ r.Opens q

variable {hasCap : Option CapTestFunc}

lemma FilterRule.AdmitsPlainly.admits {r : FilterRule} {q : Parsed}
    (h : r.AdmitsPlainly hasCap q) : r.Admits hasCap q := by
  obtain ⟨hl,hs,ho⟩ := h
  refine ⟨hl,hs.imp_right fun hc => ?_,ho⟩
  obtain ⟨_,s,hs,c,hcut,_,htest⟩ := hc
  exact ⟨s,hs,c,hcut,trivial,htest⟩

section
variable {X : IPRanges} {ip : Addr} {keep : Addr → Bool}

lemma contains_zero_bits (h : InFamily keep ip) :
    [Prefix.v4 0 (bits4 0),Prefix.v6 0 (bits6 0)].any (·.contains ip)=true := by
  cases ip with
  | zero => cases h.valid
  | v4 a =>
    have ha : a >>> 32=0 := BitVec.ushiftRight_eq_zero (Nat.le_refl _)
    simp [Prefix.contains,bits4,ha]
  | v6 a zone =>
    have ha : a >>> 128=0 := BitVec.ushiftRight_eq_zero (Nat.le_refl _)
    have hz := h.noZone
    simp [Prefix.contains,bits6,ha,hz]

lemma contains_prefixFrom {a : Addr} (hz : ip.hasZone=false) (hv : ip.isValid) :
    (prefixFrom a a.bitLen).toList.any (·.contains ip)=decide (ip=a.withoutZone) := by
  cases a with
  | zero =>
    cases ip with
    | zero => cases hv
    | _ => rfl
  | v4 a =>
    have hp : prefixFrom (.v4 a) (Addr.v4 a).bitLen=some (.v4 a (bits4 32)) := rfl
    rw [hp,Option.toList_some,any_cons,any_nil,Bool.or_false]
    exact Prefix.contains_of_isSingleIP rfl hz
  | v6 a zone =>
    have hp : prefixFrom (.v6 a zone) (Addr.v6 a zone).bitLen=some (.v6 a (bits6 128)) := rfl
    rw [hp,Option.toList_some,any_cons,any_nil,Bool.or_false]
    exact Prefix.contains_of_isSingleIP rfl hz

variable {arg : Str} {nets : List Prefix}

lemma parseCIDR_covers (hp : parseCIDR arg=.ok nets) :
    nets.any (·.contains ip)=(parsePrefix arg).any (·.contains ip) := by
  unfold parseCIDR at hp
  cases hpfx : parsePrefix arg with
  | none =>
    rw [hpfx] at hp
    cases hp
  | some pfx =>
    rw [hpfx] at hp
    obtain ⟨_,hp⟩ := guard_eq_ok.mp hp
    cases hp
    simp

section
variable (hv : ip.isValid) (hz : ip.hasZone=false)
include hv hz

lemma parseRange_covers {lo hi : Str}
    (hp : parseRange X arg lo hi=.ok nets) : nets.any (·.contains ip)=rangeCovers (lo,hi) ip := by
  unfold parseRange at hp
  cases hlo : parseAddr lo with
  | none =>
    rw [hlo] at hp
    cases hp
  | some a =>
    cases hhi : parseAddr hi with
    | none =>
      rw [hlo,hhi] at hp
      cases hp
    | some b =>
      rw [hlo,hhi] at hp
      obtain ⟨hvalid,hp⟩ := guard_eq_ok.mp hp
      cases hp
      rw [X.prefixes_any a b ip (by simpa using hvalid) hv hz]
      simp [rangeCovers,hlo,hhi]

lemma parseSingle_covers (hp : parseSingle arg=.ok nets) :
    nets.any (·.contains ip)=(parseAddr arg).any fun a => ip=a.withoutZone := by
  unfold parseSingle at hp
  cases ha : parseAddr arg with
  | none =>
    rw [ha] at hp
    cases hp
  | some a =>
    rw [ha] at hp
    cases hp
    exact contains_prefixFrom hz hv

lemma parseNets_covers (hp : parseNets X arg=.ok nets) :
    nets.any (·.contains ip)=netsCover arg ip := by
  unfold parseNets at hp
  unfold netsCover
  split_ifs at hp ⊢ with hslash hdash
  · exact parseCIDR_covers hp
  · cases hcut : cut '-' arg with
    | none =>
      rw [hcut] at hp
      cases hp
    | some ends =>
      rw [hcut] at hp
      exact parseRange_covers hv hz hp
  · exact parseSingle_covers hv hz hp

end

lemma netsOf_covers (h : InFamily keep ip)
    (hp : Parses X arg) : (netsOf X arg).any (·.contains ip)=textCovers arg ip := by
  obtain ⟨r,hr⟩ := hp
  rw [netsOf,hr]
  unfold parseIPSet at hr
  split_ifs at hr with hstar
  · cases hr
    rw [textCovers,if_pos hstar]
    exact contains_zero_bits h
  · cases hcap : cutCap arg with
    | some c =>
      rw [hcap] at hr
      cases hr
      rw [textCovers,if_neg hstar,hcap]
      rfl
    | none =>
      rw [hcap] at hr
      obtain ⟨nets,hnets,rfl⟩ := map_eq_ok.mp hr
      rw [textCovers,if_neg hstar,hcap]
      exact parseNets_covers h.valid h.noZone hnets

lemma mem_capsOf {c : NodeCapability} : c ∈ capsOf X arg ↔ cutCap arg=some c ∧ c≠[] := by
  unfold capsOf parseIPSet
  by_cases hstar : arg=['*']
  · rw [if_pos hstar,hstar]
    simp [cutCap]
  · rw [if_neg hstar]
    cases hcap : cutCap arg with
    | some c' =>
      by_cases hc : c'=[]
      · simp [hc]
      · simp only [ne_eq,hc,not_false_eq_true,if_true,mem_singleton,Option.some.injEq]
        constructor
        · intro h
          exact ⟨h.symm,h ▸ hc⟩
        · intro h
          exact h.1.symm
    | none =>
      cases parseNets X arg with
      | error e => simp [Except.map]
      | ok nets => simp [Except.map]

lemma mem_protoOf {n : ℤ} {proto : Proto} : protoOf n=some proto ↔ n=(proto.toNat : ℤ) := by
  unfold protoOf
  have hlt := proto.toNat_lt
  split_ifs with h
  · rw [Option.some.injEq,← UInt8.toNat_inj,UInt8.toNat_ofNat']
    omega
  · simp only [false_iff]
    omega

lemma mem_ruleProtos {r : FilterRule} {proto : Proto} : proto ∈ ruleProtos r ↔ r.Lists proto := by
  unfold ruleProtos FilterRule.Lists
  simp only [length_eq_zero_iff]
  split_ifs with h
  · rfl
  · simp only [mem_filterMap,mem_protoOf,exists_eq_right]

variable {r : FilterRule} {keep : Addr → Bool}

lemma compiled_srcs (hr : Clean X r) (h : InFamily keep ip) :
    (compiled X r).srcs.any (·.contains ip) ↔ r.HasSource ip := by
  simp only [compiled,any_flatMap,any_eq_true,FilterRule.HasSource]
  apply exists_congr
  intro s
  apply and_congr_right
  intro hs
  rw [← netsOf_covers h (hr.1 s hs),any_eq_true]

lemma compiled_caps :
    capGranted hasCap ip (compiled X r).srcCaps ↔ r.HasCap hasCap (fun c => c≠[]) ip := by
  cases hasCap with
  | none => simp [capGranted,FilterRule.HasCap]
  | some test =>
    simp only [capGranted,compiled,any_flatMap,any_eq_true,FilterRule.HasCap,mem_capsOf,
      Option.some.injEq,exists_eq_left',and_assoc]

lemma compiled_dsts (hr : Clean X r) (h : InFamily keep ip) (P : PortRange → Bool) :
    ((compiled X r).dsts.any fun dst => dst.net.contains ip && P dst.ports) ↔
      ∃ d ∈ r.dstPorts, textCovers d.ip ip ∧ P d.ports := by
  simp only [compiled,any_flatMap,any_eq_true]
  apply exists_congr
  intro d
  apply and_congr_right
  intro hd
  rw [← netsOf_covers h (hr.2 d hd),any_eq_true,toDsts]
  simp only [mem_map,exists_exists_and_eq_and,Bool.and_eq_true]
  constructor
  · intro hex
    obtain ⟨net,hnet,hc,hP⟩ := hex
    exact ⟨⟨net,hnet,hc⟩,hP⟩
  · intro hex
    obtain ⟨⟨net,hnet,hc⟩,hP⟩ := hex
    exact ⟨net,hnet,hc,hP⟩

end

/-- The packets that the rules alone decide about: a TCP packet that opens a connection, UDP,
SCTP and the protocols without ports other than ICMP and TSMP. -/
structure Governed (q : Parsed) : Prop where
  notICMP : q.ipProto≠icmpOf q
  notTSMP : q.ipProto≠Proto.tsmp
  opensTCP : q.ipProto=Proto.tcp → q.isTCPSyn

def ruleMatch (T : BartLite) (ms : List Match) (hasCap : Option CapTestFunc) (q : Parsed) : Bool :=
  if hasPorts q.ipProto then matchPorts T ms q hasCap else matchProtoAndIPsOnlyIfAllPorts T ms q

section
variable {T : BartLite} {X : IPRanges} {pf : List FilterRule} {capTest : Option CapTestFunc}
  {localNets : Option IPSet} {f : Filter} {q : Parsed}

lemma get_new (t : Tuple) : FlowCache.new.get t=(none,FlowCache.new) := rfl

lemma governed_accept_iff (hq : Governed q) (ms : List Match) (isLocal : Bool) :
    (Filter.runInFamily T (fun _ => isLocal) (icmpOf q) ms capTest .new q).1=.accept ↔
      isLocal ∧ ruleMatch T ms capTest q := by
  rw [Filter.runInFamily,if_neg hq.notICMP,ruleMatch]
  cases isLocal with
  | false => simp
  | true =>
    by_cases htcp : q.ipProto=tcp
    · have hp : hasPorts q.ipProto=true := by rw [htcp]; rfl
      rw [if_pos htcp,hq.opensTCP htcp,hp]
      simp [verdict_eq_accept]
    · by_cases hudp : q.ipProto=udp ∨ q.ipProto=sctp
      · have hp : hasPorts q.ipProto=true := by
          obtain h | h := hudp
          · rw [h]; rfl
          · rw [h]; rfl
        rw [if_neg htcp,if_pos hudp,get_new,hp]
        simp [Filter.flowVerdict,verdict_eq_accept]
      · have hp : hasPorts q.ipProto=false := by
          rw [not_or] at hudp
          simp [hasPorts,htcp,hudp.1,hudp.2]
        rw [if_neg htcp,if_neg hudp,if_neg hq.notTSMP,hp]
        simp [verdict_eq_accept]

lemma ruleMatch_compiled (hclean : ∀ r ∈ pf, Clean X r) (h : Framed q) :
    ruleMatch T (matchesFamily (pf.map (compiled X)) (family q)) capTest q ↔ ∃ r ∈ pf, r.AdmitsPlainly capTest q := by
  have hs := h.src_inFamily
  have hd := h.dst_inFamily
  unfold ruleMatch
  split_ifs with hports
  · rw [matchPorts_matchesFamily T _ capTest hs hd,any_map,any_eq_true]
    apply exists_congr
    intro r
    apply and_congr_right
    intro hr
    rw [Function.comp_apply,Bool.and_eq_true,Bool.and_eq_true,contains_iff_mem,
      compiled_dsts (hclean r hr) hd fun ports => ports.contains q.dst.port,Match.admitsSrc,
      Bool.or_eq_true,compiled_srcs (hclean r hr) hs,compiled_caps,and_assoc]
    simp [FilterRule.AdmitsPlainly,FilterRule.Opens,portsOpen,hports,compiled,mem_ruleProtos]
  · rw [matchProtoAndIPsOnlyIfAllPorts_matchesFamily T _ hs hd,any_map,any_eq_true]
    apply exists_congr
    intro r
    apply and_congr_right
    intro hr
    have hdsts := compiled_dsts (hclean r hr) hd fun ports => decide (ports=allPorts)
    simp only [Bool.and_comm (Prefix.contains _ _)] at hdsts
    rw [Function.comp_apply,Bool.and_eq_true,Bool.and_eq_true,contains_iff_mem,hdsts,
      compiled_srcs (hclean r hr) hs,and_assoc]
    simp [FilterRule.AdmitsPlainly,FilterRule.Opens,portsOpen,hports,compiled,mem_ruleProtos]

/-- The filter accepts what the rules say, read naively, exactly when no packet needs a
capability that the matcher of its protocol does not look at. -/
theorem filter_means_rules_iff {ms : List Match} {b : Bytes} {q0 : Parsed}
    (hrules : matchesFromFilterRules X pf=(ms,none)) (hf : f.Built T ms capTest localNets)
    (hdec : q0.decode b=.ok q) (hq : Governed q) (hpre : (f.pre q).1=.noVerdict) (hhook : f.hooked q=false) :
    ((f.runIn T .new q).1=.accept ↔ inLocal localNets q.dst.addr ∧ ∃ r ∈ pf, r.Admits capTest q) ↔
      (inLocal localNets q.dst.addr → (∃ r ∈ pf, r.Admits capTest q) → ∃ r ∈ pf, r.AdmitsPlainly capTest q) := by
  obtain ⟨rfl,hclean⟩ := matchesFromFilterRules_ok hrules
  have hknown : q.ipProto≠Proto.unknown := by
    intro hu
    rw [Filter.pre,if_pos hu] at hpre
    split_ifs at hpre
  have hfrag : q.ipProto≠Proto.fragment := by
    intro hfr
    rw [Filter.pre,if_pos hfr] at hpre
    split_ifs at hpre
  have h := framed_of_decode hdec hknown
  rw [runIn_accept_iff hf h hfrag,hpre,hhook,governed_accept_iff hq,ruleMatch_compiled hclean h]
  simp only [true_and,Bool.false_eq_true,or_false]
  constructor
  · intro hiff hloc hadm
    exact (hiff.mpr ⟨hloc,hadm⟩).2
  · intro hcond
    constructor
    · intro hacc
      obtain ⟨hloc,r,hr,hadm⟩ := hacc
      exact ⟨hloc,r,hr,hadm.admits⟩
    · intro hadm
      exact ⟨hadm.1,hcond hadm.1 hadm.2⟩

end

def greRule (src : Str) : FilterRule where
  srcIPs := [src]
  srcBits := []
  dstPorts := [⟨['1','0','.','0','.','0','.','1'],none,allPorts⟩]
  ipProto := [47]

def greBytes : Bytes := [0x45,0,0,24,0,0,0,0,64,47,0,0,10,0,0,9,10,0,0,1,0,0,8,0]

def greParsed : Parsed where
  b := greBytes
  subofs := 20
  length := 24
  ipVersion := 4
  ipProto := .gre
  src := ⟨.v4 0x0a000009,0⟩
  dst := ⟨.v4 0x0a000001,0⟩

def oneHost : Option IPSet := some (IPSet.of [.v4 0x0a000001 (bits4 32)])

def greFilter (src : Str) : Filter :=
  new BartLite.scan (matchesFromFilterRules .scan [greRule src]).1 hasC oneHost none 0

lemma gre_governed : Governed greParsed := ⟨by decide,by decide,fun h => absurd h (by decide)⟩

lemma gre_opens (src : Str) : (greRule src).Lists greParsed.ipProto ∧ (greRule src).Opens greParsed :=
  ⟨show (47 : ℤ) ∈ [47] from mem_singleton.mpr rfl,_,mem_singleton.mpr rfl,by decide,by decide⟩

theorem filter_means_rules_for_listed_source : (matchesFromFilterRules .scan [greRule ['*']]).2=none ∧
      (((greFilter ['*']).runIn BartLite.scan .new greParsed).1=.accept ↔
        inLocal oneHost greParsed.dst.addr ∧ ∃ r ∈ [greRule ['*']], r.Admits hasC greParsed) := by
  have hdec : Parsed.decode {} greBytes=.ok greParsed := rfl
  have hrules : matchesFromFilterRules .scan [greRule ['*']] =
      ((matchesFromFilterRules .scan [greRule ['*']]).1,none) := rfl
  refine ⟨rfl,(filter_means_rules_iff hrules (built_new none 0) hdec gre_governed (by decide) rfl).mpr
    fun _ _ => ⟨_,mem_singleton.mpr rfl,(gre_opens _).1,.inl ?_,(gre_opens _).2⟩⟩
  exact ⟨_,mem_singleton.mpr rfl,rfl⟩

/-- The rule names a capability that the source has, and the packet is dropped. -/
theorem portless_capability_dropped : (matchesFromFilterRules .scan [greRule ['c','a','p',':','c']]).2=none ∧
      Parsed.decode {} greBytes=.ok greParsed ∧ Governed greParsed ∧
      ((greFilter ['c','a','p',':','c']).pre greParsed).1=.noVerdict ∧ inLocal oneHost greParsed.dst.addr ∧
      (greRule ['c','a','p',':','c']).Admits hasC greParsed ∧
      ((greFilter ['c','a','p',':','c']).runIn BartLite.scan .new greParsed).1=.drop := by
  refine ⟨rfl,rfl,gre_governed,by decide,by decide,⟨(gre_opens _).1,.inr ?_,(gre_opens _).2⟩, by decide⟩
  exact ⟨_,mem_singleton.mpr rfl,['c'],rfl,trivial,_,rfl,rfl⟩

end TunnnejiTail.PacketFilter
