import TunnnejiTail.PacketFilter.Match
import TunnnejiTail.Net.Parse
import TunnnejiTail.Go.Loops

/-! The conversion of the control server's filter rules into matches. -/
namespace TunnnejiTail.Netip
open Go

namespace Addr

def bitLen : Addr → ℤ
  | zero => 0
  | v4 _ => 32
  | v6 _ _ => 128

def withoutZone : Addr → Addr
  | v6 a _ => v6 a []
  | ip => ip

/-- Both addresses are of one family and the first is not above the second. -/
def le : Addr → Addr → Bool
  | v4 a,v4 b => a≤b
  | v6 a _,v6 b _ => a≤b
  | _,_ => false

end Addr

def Prefix.masked : Prefix → Prefix
  | .v4 a bits => .v4 ((a >>> (32-bits.val)) <<< (32-bits.val)) bits
  | .v6 a bits => .v6 ((a >>> (128-bits.val)) <<< (128-bits.val)) bits

end TunnnejiTail.Netip

namespace TunnnejiTail.PacketFilter
open Go Netip Packet

def inRange (lo hi ip : Addr) : Bool := lo.withoutZone.le ip && ip.le hi.withoutZone

/-- The methods of a range of go4.org/netipx, by its bounds. A range is valid if the bounds are addresses of one
family in ascending order, whatever their zones; its prefixes cover it and nothing else. -/
structure IPRanges where
  isValid : Addr → Addr → Bool
  prefixes : Addr → Addr → List Prefix
  isValid_eq : ∀ lo hi : Addr, isValid lo hi=lo.le hi
  prefixes_any : ∀ lo hi ip : Addr, isValid lo hi → ip.isValid → ip.hasZone=false →
    (prefixes lo hi).any (·.contains ip)=inRange lo hi ip

def IPRanges.singles (lo hi : Addr) : List Prefix :=
  match lo,hi with
  | .v4 a,.v4 b => (List.range (b.toNat+1-a.toNat)).map fun i => .v4 (BitVec.ofNat 32 (a.toNat+i)) (bits4 32)
  | .v6 a _,.v6 b _ =>
    (List.range (b.toNat+1-a.toNat)).map fun i => .v6 (BitVec.ofNat 128 (a.toNat+i)) (bits6 128)
  | _,_ => []

lemma exists_lt_range {w a b x : ℕ} (hb : b<2^w) : (∃ i<b+1-a, x=(a+i) % 2^w) ↔ a≤x ∧ x≤b := by
  constructor
  · intro h
    obtain ⟨i,hi,hx⟩ := h
    rw [Nat.mod_eq_of_lt (by omega)] at hx
    omega
  · intro h
    refine ⟨x-a,by omega,?_⟩
    rw [Nat.mod_eq_of_lt (by omega)]
    omega

lemma IPRanges.singles_any (lo hi ip : Addr) (hv : lo.le hi) (hip : ip.isValid)
    (hz : ip.hasZone=false) : (singles lo hi).any (·.contains ip)=inRange lo hi ip := by
  cases lo with
  | zero => cases hv
  | v4 a =>
    cases hi with
    | v4 b =>
      rw [singles,List.any_map,Bool.eq_iff_iff,List.any_eq_true]
      simp only [Function.comp_apply,Prefix.contains_of_isSingleIP (p := .v4 _ (bits4 32)) rfl hz,
        List.mem_range,Prefix.addr]
      cases ip with
      | v4 x =>
        simp [inRange,Addr.withoutZone,Addr.le,BitVec.le_def,← BitVec.toNat_inj]
        exact exists_lt_range b.isLt
      | _ => simp [inRange,Addr.withoutZone,Addr.le]
    | _ => cases hv
  | v6 a zone =>
    cases hi with
    | v6 b zone' =>
      rw [singles,List.any_map,Bool.eq_iff_iff,List.any_eq_true]
      simp only [Function.comp_apply,Prefix.contains_of_isSingleIP (p := .v6 _ (bits6 128)) rfl hz,
        List.mem_range,Prefix.addr]
      cases ip with
      | v6 x z =>
        have hx : z=[] := by simpa [Addr.hasZone] using hz
        simp [hx,inRange,Addr.withoutZone,Addr.le,BitVec.le_def,← BitVec.toNat_inj]
        exact exists_lt_range b.isLt
      | _ => simp [inRange,Addr.withoutZone,Addr.le]
    | _ => cases hv

def IPRanges.scan : IPRanges := ⟨Addr.le,IPRanges.singles,fun _ _ => rfl,IPRanges.singles_any⟩

inductive RuleError
  | badPrefix (arg : Str)
  | nonNetworkBits (p : Prefix)
  | badAddr (arg : Str)
  | invalidRange (arg : Str)
  | invalidAddr (arg : Str)
  | unexpectedSrcBits
  | unexpectedDstBits
  | unexpectedCapability (c : NodeCapability)
  deriving DecidableEq

def cutCap (arg : Str) : Option NodeCapability :=
  match arg with
  | 'c' :: 'a' :: 'p' :: ':'::c => some c
  | _ => none

def parseCIDR (arg : Str) : Except RuleError (List Prefix) :=
  match parsePrefix arg with
  | none => .error (.badPrefix arg)
  | some pfx => if pfx≠pfx.masked then .error (.nonNetworkBits pfx) else .ok [pfx]

def parseRange (X : IPRanges) (arg ip1s ip2s : Str) : Except RuleError (List Prefix) :=
  match parseAddr ip1s with
  | none => .error (.badAddr ip1s)
  | some ip1 =>
    match parseAddr ip2s with
    | none => .error (.badAddr ip2s)
    | some ip2 => if !X.isValid ip1 ip2 then .error (.invalidRange arg) else .ok (X.prefixes ip1 ip2)

def parseSingle (arg : Str) : Except RuleError (List Prefix) :=
  match parseAddr arg with
  | none => .error (.invalidAddr arg)
  | some ip => .ok (prefixFrom ip ip.bitLen).toList

/-- The forms of an entry other than a capability. -/
def parseNets (X : IPRanges) (arg : Str) : Except RuleError (List Prefix) :=
  if '/' ∈ arg then parseCIDR arg
  else if arg.count '-'=1 then
    match cut '-' arg with
    | none => .error (.invalidRange arg)
    | some (ip1s,ip2s) => parseRange X arg ip1s ip2s
  else parseSingle arg

def parseIPSet (X : IPRanges) (arg : Str) : Except RuleError (List Prefix × NodeCapability) :=
  if arg=['*'] then .ok ([.v4 0 (bits4 0),.v6 0 (bits6 0)],[])
  else match cutCap arg with
    | some c => .ok ([],c)
    | none => (parseNets X arg).map fun nets => (nets,[])

structure RulePortRange where
  ip : Str
  bits : Option ℤ
  ports : PortRange
  deriving DecidableEq

structure FilterRule where
  srcIPs : List Str
  srcBits : List ℤ
  dstPorts : List RulePortRange
  ipProto : List ℤ
  deriving DecidableEq

def defaultProtos : List Proto := [.tcp,.udp,.icmpv4,.icmpv6]

def protoOf (n : ℤ) : Option Proto := if 0≤n ∧ n≤0xff then some (UInt8.ofNat n.toNat) else none

def ruleProtos (r : FilterRule) : List Proto :=
  if r.ipProto.length=0 then defaultProtos else r.ipProto.filterMap protoOf

/-- The sources collected so far, with the first error of the whole conversion. -/
structure SrcAcc where
  srcs : List Prefix
  caps : List NodeCapability
  err : Option RuleError

def srcStep (X : IPRanges) (acc : SrcAcc) (s : Str) : SrcAcc :=
  match parseIPSet X s with
  | .error e => { acc with err := acc.err.or (some e) }
  | .ok (nets,c) => { acc with
      srcs := acc.srcs++nets
      caps := if c≠[] then acc.caps++[c] else acc.caps }

def toDsts (ports : PortRange) (nets : List Prefix) : List NetPortRange :=
  nets.map fun net => ⟨net,ports⟩

def dstStep (X : IPRanges) (acc : List NetPortRange × Option RuleError) (d : RulePortRange) :
    Except RuleError (List NetPortRange × Option RuleError) :=
  if d.bits≠none then .error .unexpectedDstBits
  else match parseIPSet X d.ip with
    | .error e => .ok (acc.1,acc.2.or (some e))
    | .ok (nets,c) =>
      if c≠[] then .ok (acc.1,some (.unexpectedCapability c))
      else .ok (acc.1++toDsts d.ports nets,acc.2)

def ruleStep (X : IPRanges) (acc : List Match × Option RuleError) (r : FilterRule) :
    Except RuleError (List Match × Option RuleError) :=
  if 0 < r.srcBits.length then .error .unexpectedSrcBits
  else do
    let src := r.srcIPs.foldl (srcStep X) ⟨[],[],acc.2⟩
    let (dsts,err) ← r.dstPorts.foldlM (dstStep X) ([],src.err)
    return (acc.1++[⟨ruleProtos r,src.srcs,src.caps,dsts⟩],err)

def matchesFromFilterRules (X : IPRanges) (pf : List FilterRule) : List Match × Option RuleError :=
  match pf.foldlM (ruleStep X) ([],none) with
  | .error e => ([],some e)
  | .ok r => r

section
variable (X : IPRanges)

def netsOf (s : Str) : List Prefix :=
  match parseIPSet X s with
  | .error _ => []
  | .ok (nets,_) => nets

def capsOf (s : Str) : List NodeCapability :=
  match parseIPSet X s with
  | .error _ => []
  | .ok (_,c) => if c≠[] then [c] else []

def Parses (s : Str) : Prop := ∃ r, parseIPSet X s=.ok r

def compiled (r : FilterRule) : Match where
  ipProto := ruleProtos r
  srcs := r.srcIPs.flatMap (netsOf X)
  srcCaps := r.srcIPs.flatMap (capsOf X)
  dsts := r.dstPorts.flatMap fun d => toDsts d.ports (netsOf X d.ip)

variable {X}

lemma srcStep_err {acc : SrcAcc} {s : Str} (h : (srcStep X acc s).err=none) :
    Parses X s ∧ srcStep X acc s=⟨acc.srcs++netsOf X s,acc.caps++capsOf X s,none⟩ ∧ acc.err=none := by
  unfold srcStep at h ⊢
  cases hp : parseIPSet X s with
  | error e =>
    rw [hp] at h
    cases hacc : acc.err with
    | none => simp [hacc] at h
    | some e' => simp [hacc] at h
  | ok r =>
    rw [hp] at h
    refine ⟨⟨r,hp⟩,?_,h⟩
    have herr : acc.err=none := h
    simp only [netsOf,capsOf,hp,herr]
    split_ifs <;> simp

lemma srcLoop_of_ok {l : List Str} {acc : SrcAcc} (h : (l.foldl (srcStep X) acc).err=none) :
    (∀ s ∈ l, Parses X s) ∧ acc.err=none ∧
      l.foldl (srcStep X) acc=⟨acc.srcs++l.flatMap (netsOf X),acc.caps++l.flatMap (capsOf X),none⟩ := by
  induction l generalizing acc with
  | nil =>
    refine ⟨by simp,h,?_⟩
    have herr : acc.err=none := h
    cases acc
    simpa using herr
  | cons s l ih =>
    obtain ⟨hl,hacc',heq⟩ := ih h
    obtain ⟨hs,hstep,hacc⟩ := srcStep_err hacc'
    refine ⟨List.forall_mem_cons.mpr ⟨hs,hl⟩,hacc,?_⟩
    rw [List.foldl_cons,heq,hstep]
    simp

lemma dstStep_ok {acc acc' : List NetPortRange × Option RuleError} {d : RulePortRange}
    (h : dstStep X acc d=.ok acc') (herr : acc'.2=none) :
    Parses X d.ip ∧ acc'=(acc.1++toDsts d.ports (netsOf X d.ip),none) ∧ acc.2=none := by
  unfold dstStep at h
  split_ifs at h with hbits
  cases hp : parseIPSet X d.ip with
  | error e =>
    rw [hp] at h
    cases h
    cases hacc : acc.2 with
    | none => simp [hacc] at herr
    | some e' => simp [hacc] at herr
  | ok r =>
    rw [hp] at h
    refine ⟨⟨r,hp⟩,?_⟩
    simp only at h
    split_ifs at h with hc
    · cases h
      cases herr
    · cases h
      refine ⟨?_,herr⟩
      rw [netsOf,hp]
      exact Prod.ext rfl herr

lemma dstLoop_of_ok {l : List RulePortRange} {err : Option RuleError}
    {res : List NetPortRange × Option RuleError}
    (h : l.foldlM (dstStep X) ([],err)=.ok res) (herr : res.2=none) : (∀ d ∈ l, Parses X d.ip) ∧ err=none ∧
      res.1=l.flatMap fun d => toDsts d.ports (netsOf X d.ip) := by
  have hinv := foldlM_invariant (fun done t => t.2=none → (∀ d ∈ done, Parses X d.ip) ∧
    err=none ∧ t.1=done.flatMap fun d => toDsts d.ports (netsOf X d.ip))
    (fun h => ⟨by simp,h,rfl⟩) (fun done t d t' ih hstep herr' => ?_) h
  · exact hinv herr
  · obtain ⟨hd,rfl,ht⟩ := dstStep_ok hstep herr'
    obtain ⟨hdone,he,hdsts⟩ := ih ht
    refine ⟨?_,he,?_⟩
    · intro d' hd'
      obtain hd' | hd' := List.mem_append.mp hd'
      · exact hdone d' hd'
      · rw [List.mem_singleton.mp hd']
        exact hd
    · simp [hdsts]

def Clean (X : IPRanges) (r : FilterRule) : Prop :=
  (∀ s ∈ r.srcIPs, Parses X s) ∧ ∀ d ∈ r.dstPorts, Parses X d.ip

lemma ruleStep_ok {acc acc' : List Match × Option RuleError} {r : FilterRule}
    (h : ruleStep X acc r=.ok acc') (herr : acc'.2=none) :
    Clean X r ∧ acc'.1=acc.1++[compiled X r] ∧ acc.2=none := by
  unfold ruleStep at h
  split_ifs at h with hbits
  obtain ⟨res,hdst,hres⟩ := bind_eq_ok.mp h
  cases hres
  obtain ⟨hds,hsrcerr,hdsts⟩ := dstLoop_of_ok hdst herr
  obtain ⟨hss,hacc,hsrc⟩ := srcLoop_of_ok hsrcerr
  refine ⟨⟨hss,hds⟩,?_,hacc⟩
  rw [hsrc,hdsts]
  rfl

lemma matchesFromFilterRules_ok {pf : List FilterRule} {ms : List Match}
    (h : matchesFromFilterRules X pf=(ms,none)) : ms=pf.map (compiled X) ∧ ∀ r ∈ pf, Clean X r := by
  unfold matchesFromFilterRules at h
  cases hfold : pf.foldlM (ruleStep X) ([],none) with
  | error e =>
    rw [hfold] at h
    cases h
  | ok res =>
    rw [hfold] at h
    cases h
    refine foldlM_invariant (fun done t => t.2=none → t.1=done.map (compiled X) ∧
      ∀ r ∈ done, Clean X r) (fun _ => ⟨rfl,by simp⟩) (fun done t r t' ih hstep herr => ?_) hfold rfl
    obtain ⟨hr,hms,ht⟩ := ruleStep_ok hstep herr
    obtain ⟨hdone,hclean⟩ := ih ht
    refine ⟨by simp [hms,hdone],?_⟩
    intro r' hr'
    obtain hr' | hr' := List.mem_append.mp hr'
    · exact hclean r' hr'
    · rw [List.mem_singleton.mp hr']
      exact hr

end

end TunnnejiTail.PacketFilter
