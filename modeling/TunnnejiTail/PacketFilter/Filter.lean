import TunnnejiTail.PacketFilter.Match
import TunnnejiTail.Go.Lru
import TunnnejiTail.Packet.Fields

/-! The stateful packet filter. The flow cache is passed in and out; a filter names the state
it belongs to, which it may share with the filter it replaces. Logging is left out. -/
namespace TunnnejiTail.PacketFilter
open Go Netip Packet

/-- The key of a flow: addresses in their 16-byte form. -/
structure Tuple where
  src : BitVec 128
  dst : BitVec 128
  srcPort : UInt16
  dstPort : UInt16
  proto : Proto
  deriving DecidableEq

def makeTuple (proto : Proto) (src dst : AddrPort) : Tuple :=
  ⟨src.addr.as16,dst.addr.as16,src.port,dst.port,proto⟩

def lruMax : ℕ := 512

abbrev FlowCache := Lru Tuple Unit

def FlowCache.new : FlowCache := Lru.empty lruMax

inductive Response
  | drop
  | dropSilently
  | accept
  | noVerdict
  deriving DecidableEq

def Response.isDrop (r : Response) : Bool := r=.drop || r=.dropSilently

inductive DropReason
  | acl
  | multicast
  | linkLocalUnicast
  | tooShort
  | unknownProtocol
  deriving DecidableEq

abbrev PacketMatch := Parsed → Bool

/-- A set of addresses, with the prefixes that it lists for itself. -/
structure IPSet where
  contains : Addr → Bool
  prefixes : List Prefix
  prefixes_any : ∀ ip : Addr, ip.isValid → ip.hasZone=false → prefixes.any (·.contains ip)=contains ip

lemma any_contains_eq_loop (ps : List Prefix) (ip : Addr) (_ : ip.isValid)
    (_ : ip.hasZone=false) : ps.any (·.contains ip)=prefixContainsLoop ps ip := rfl

def IPSet.of (ps : List Prefix) : IPSet := ⟨prefixContainsLoop ps,ps,any_contains_eq_loop ps⟩

structure Filter where
  local4 : Addr → Bool
  local6 : Addr → Bool
  srcIPHasCap : Option CapTestFunc
  matches4 : List Match
  matches6 : List Match
  state : ℕ
  shieldsUp : Bool
  ingressAllowHooks : List PacketMatch
  linkLocalAllowHooks : List PacketMatch

def localIn (T : BartLite) (localNets : Option IPSet) (keep : Addr → Bool) : Addr → Bool :=
  match localNets with
  | none => fun _ => false
  | some nets => newContainsIPFunc T (nets.prefixes.filter fun p => keep p.addr)

def stateOf (shareStateWith : Option Filter) (fresh : ℕ) : ℕ :=
  match shareStateWith with
  | some f => f.state
  | none => fresh

def new (T : BartLite) (ms : List Match) (capTest : Option CapTestFunc) (localNets : Option IPSet)
    (shareStateWith : Option Filter) (fresh : ℕ) : Filter where
  local4 := localIn T localNets Addr.is4
  local6 := localIn T localNets fun ip => !ip.is4
  srcIPHasCap := capTest
  matches4 := matchesFamily ms Addr.is4
  matches6 := matchesFamily ms Addr.is6
  state := stateOf shareStateWith fresh
  shieldsUp := false
  ingressAllowHooks := []
  linkLocalAllowHooks := []

def newShieldsUpFilter (T : BartLite) (localNets : Option IPSet) (shareStateWith : Option Filter)
    (fresh : ℕ) : Filter :=
  { new T [] none localNets (shareStateWith.filter (·.shieldsUp)) fresh with shieldsUp := true }

def newAllowNone (T : BartLite) (fresh : ℕ) : Filter := new T [] none (some (IPSet.of [])) none fresh

def gcpDNSAddr : Addr := .v4 0xa9fea9fe

namespace Filter

def withHooks (f : Filter) (ingress linkLocal : List PacketMatch) : Filter :=
  { f with ingressAllowHooks := ingress, linkLocalAllowHooks := linkLocal }

def isAllowedLinkLocal (f : Filter) (q : Parsed) : Bool :=
  q.dst.addr=gcpDNSAddr || f.linkLocalAllowHooks.any fun pm => pm q

/-- The checks that are the same in both directions. -/
def pre (f : Filter) (q : Parsed) : Response × Option DropReason :=
  if q.b.length=0 then (.accept,none)
  else if q.b.length<20 then (.drop,some .tooShort)
  else if q.ipProto=.unknown then (.drop,some .unknownProtocol)
  else if q.dst.addr.isMulticast then (.drop,some .multicast)
  else if q.dst.addr.isLinkLocalUnicast && !f.isAllowedLinkLocal q then
    (.drop,some .linkLocalUnicast)
  else if q.ipProto=.fragment then (.accept,none)
  else (.noVerdict,none)

def verdict (matched : Bool) : Response := if matched then .accept else .noVerdict

/-- A flow that is found in the cache is accepted without a look at the rules. -/
def flowVerdict (looked : Option Unit × FlowCache) (matched : Bool) : Response × FlowCache :=
  (if looked.1.isSome then .accept else verdict matched,looked.2)

/-- The common part of runIn4 and runIn6, which differ in the local addresses, the ICMP
protocol and the rules they look at. -/
def runInFamily (T : BartLite) (loc : Addr → Bool) (icmp : Proto) (ms : List Match)
    (hasCap : Option CapTestFunc) (lru : FlowCache) (q : Parsed) : Response × FlowCache :=
  if !loc q.dst.addr then (.noVerdict,lru)
  else if q.ipProto=icmp then
    if q.isEchoResponse || q.isError then (.accept,lru)
    else (verdict (matchIPsOnly T ms q hasCap),lru)
  else if q.ipProto=.tcp then
    if !q.isTCPSyn then (.accept,lru) else (verdict (matchPorts T ms q hasCap),lru)
  else if q.ipProto=.udp ∨ q.ipProto=.sctp then
    flowVerdict (lru.get (makeTuple q.ipProto q.src q.dst)) (matchPorts T ms q hasCap)
  else if q.ipProto=.tsmp then (.accept,lru)
  else (verdict (matchProtoAndIPsOnlyIfAllPorts T ms q),lru)

def runIn4 (T : BartLite) (f : Filter) (lru : FlowCache) (q : Parsed) : Response × FlowCache :=
  runInFamily T f.local4 .icmpv4 f.matches4 f.srcIPHasCap lru q

def runIn6 (T : BartLite) (f : Filter) (lru : FlowCache) (q : Parsed) : Response × FlowCache :=
  runInFamily T f.local6 .icmpv6 f.matches6 f.srcIPHasCap lru q

def runInVersion (T : BartLite) (f : Filter) (lru : FlowCache) (q : Parsed) : Response × FlowCache :=
  if q.ipVersion=4 then f.runIn4 T lru q
  else if q.ipVersion=6 then f.runIn6 T lru q
  else (.drop,lru)

def settle (f : Filter) (q : Parsed) : Response → Response
  | .noVerdict => if f.ingressAllowHooks.any fun pm => pm q then .accept else .drop
  | r => r

def runIn (T : BartLite) (f : Filter) (lru : FlowCache) (q : Parsed) : Response × FlowCache :=
  match (f.pre q).1 with
  | .accept => (.accept,lru)
  | .drop => (.drop,lru)
  | _ => (f.settle q (f.runInVersion T lru q).1,(f.runInVersion T lru q).2)

def updateOutboundFlowState (lru : FlowCache) (q : Parsed) : FlowCache :=
  if q.ipProto=.udp ∨ q.ipProto=.sctp then lru.add (makeTuple q.ipProto q.dst q.src) () else lru

def runOut (f : Filter) (lru : FlowCache) (q : Parsed) :
    (Response × Option DropReason) × FlowCache :=
  match f.pre q with
  | (.accept,reason) => ((.accept,reason),lru)
  | (.drop,reason) => ((.drop,reason),lru)
  | _ => ((.accept,none),updateOutboundFlowState lru q)

end Filter

/-- A packet whose addresses are of its IP version and whose protocol is known. -/
structure Framed (q : Parsed) : Prop where
  known : q.ipProto≠Proto.unknown
  long : 20≤q.b.length
  families : q.ipVersion=4 ∧ (∃ a, q.src.addr=.v4 a) ∧ (∃ a, q.dst.addr=.v4 a) ∨
    q.ipVersion=6 ∧ (∃ a, q.src.addr=.v6 a []) ∧ (∃ a, q.dst.addr=.v6 a [])

lemma framed_of_decode {q0 q : Parsed} {b : Bytes} (h : q0.decode b=.ok q)
    (hp : q.ipProto≠Proto.unknown) : Framed q := by
  obtain ⟨hb,hcases⟩ := (q0.decode_returns b).elim h
  obtain ⟨h4,hlen,_⟩ | ⟨h6,hlen,_⟩ | ⟨_,hu,_⟩ := hcases
  · have hle : totalLen4 b≤b.length := by
      by_contra hn
      apply hp
      rw [h4.ipProto,proto4,if_pos (.inl (by omega))]
    exact ⟨hp,by rw [hb]; omega,.inl ⟨h4.ipVersion,⟨_,h4.src hle⟩,⟨_,h4.dst hle⟩⟩⟩
  · have hle : totalLen6 b≤b.length := by
      by_contra hn
      apply hp
      rw [h6.ipProto,proto6,if_pos (by omega)]
    exact ⟨hp,by rw [hb]; omega,.inr ⟨h6.ipVersion,⟨_,h6.src hle⟩,⟨_,h6.dst hle⟩⟩⟩
  · exact absurd hu hp

def family (q : Parsed) : Addr → Bool := if q.ipVersion=4 then Addr.is4 else Addr.is6

def icmpOf (q : Parsed) : Proto := if q.ipVersion=4 then .icmpv4 else .icmpv6

def inLocal (localNets : Option IPSet) (ip : Addr) : Bool :=
  match localNets with
  | none => false
  | some nets => nets.contains ip

lemma localIn_eq (T : BartLite) (localNets : Option IPSet) {keep : Addr → Bool} {ip : Addr}
    (h : InFamily keep ip) : localIn T localNets keep ip=inLocal localNets ip := by
  cases localNets with
  | none => rfl
  | some nets =>
    rw [localIn,newContainsIPFunc_eq T _ h.valid h.noZone]
    exact (any_filter_keep nets.prefixes id _ h fun _ hp => hp).trans
      (nets.prefixes_any ip h.valid h.noZone)

lemma inFamily_not_is4 (a : BitVec 128) : InFamily (fun ip => !ip.is4) (.v6 a []) := by
  refine ⟨rfl,rfl,fun p hp => ?_⟩
  cases p with
  | v4 => cases hp
  | v6 => rfl

namespace Framed
variable {q : Parsed}

lemma src_inFamily (h : Framed q) : InFamily (family q) q.src.addr := by
  obtain ⟨hv,⟨a,ha⟩,_⟩ | ⟨hv,⟨a,ha⟩,_⟩ := h.families
  · rw [family,if_pos hv,ha]
    exact inFamily_v4 a
  · rw [family,hv,ha]
    exact inFamily_v6 a

lemma dst_inFamily (h : Framed q) : InFamily (family q) q.dst.addr := by
  obtain ⟨hv,_,a,ha⟩ | ⟨hv,_,a,ha⟩ := h.families
  · rw [family,if_pos hv,ha]
    exact inFamily_v4 a
  · rw [family,hv,ha]
    exact inFamily_v6 a

end Framed

/-- The fields that New computes from the rules, the capability test and the local set. -/
structure Filter.Built (T : BartLite) (ms : List Match) (capTest : Option CapTestFunc)
    (localNets : Option IPSet) (f : Filter) : Prop where
  local4 : f.local4=localIn T localNets Addr.is4
  local6 : f.local6=localIn T localNets fun ip => !ip.is4
  matches4 : f.matches4=matchesFamily ms Addr.is4
  matches6 : f.matches6=matchesFamily ms Addr.is6
  srcIPHasCap : f.srcIPHasCap=capTest

section
variable {T : BartLite} {ms : List Match} {capTest : Option CapTestFunc} {localNets : Option IPSet}
  {f : Filter} {lru : FlowCache} {q : Parsed}

lemma built_new (share : Option Filter) (fresh : ℕ) :
    (new T ms capTest localNets share fresh).Built T ms capTest localNets := ⟨rfl,rfl,rfl,rfl,rfl⟩

lemma Filter.Built.withHooks (h : f.Built T ms capTest localNets) (ingress linkLocal : List PacketMatch) :
    (f.withHooks ingress linkLocal).Built T ms capTest localNets :=
  ⟨h.local4,h.local6,h.matches4,h.matches6,h.srcIPHasCap⟩

lemma runInVersion_eq (hf : f.Built T ms capTest localNets) (h : Framed q) : f.runInVersion T lru q =
      Filter.runInFamily T (fun _ => inLocal localNets q.dst.addr) (icmpOf q)
        (matchesFamily ms (family q)) capTest lru q := by
  obtain ⟨hv,_,a,ha⟩ | ⟨hv,_,a,ha⟩ := h.families
  · have hloc : localIn T localNets Addr.is4 q.dst.addr=inLocal localNets q.dst.addr :=
      localIn_eq T localNets (ha ▸ inFamily_v4 a)
    rw [Filter.runInVersion,if_pos hv,family,if_pos hv,icmpOf,if_pos hv]
    simp only [Filter.runIn4,hf.local4,hf.matches4,hf.srcIPHasCap,Filter.runInFamily,hloc]
  · have hloc : localIn T localNets (fun ip => !ip.is4) q.dst.addr=inLocal localNets q.dst.addr :=
      localIn_eq T localNets (ha ▸ inFamily_not_is4 a)
    have h4 : q.ipVersion≠4 := by rw [hv]; decide
    rw [Filter.runInVersion,if_neg h4,if_pos hv,family,if_neg h4,icmpOf,if_neg h4]
    simp only [Filter.runIn6,hf.local6,hf.matches6,hf.srcIPHasCap,Filter.runInFamily,hloc]

lemma pre_eq (f : Filter) (h : Framed q) (hfrag : q.ipProto≠Proto.fragment) :
    (f.pre q).1=.drop ∨ f.pre q=(.noVerdict,none) := by
  have h0 : q.b.length≠0 := by have hlong := h.long; omega
  have h20 : ¬q.b.length<20 := by have hlong := h.long; omega
  rw [Filter.pre,if_neg h0,if_neg h20,if_neg h.known]
  split_ifs
  · exact .inl rfl
  · exact .inl rfl
  · exact .inr rfl

def Filter.hooked (f : Filter) (q : Parsed) : Bool := f.ingressAllowHooks.any fun pm => pm q

lemma settle_eq_accept {r : Response} : f.settle q r=.accept ↔ r=.accept ∨ r=.noVerdict ∧ f.hooked q := by
  cases r with
  | noVerdict =>
    change (if f.hooked q then Response.accept else .drop)=.accept ↔ _
    split_ifs with h
    · simp [h]
    · simp [h]
  | _ => simp [Filter.settle]

lemma verdict_eq_accept {c : Bool} : Filter.verdict c=.accept ↔ c := by
  cases c <;> simp [Filter.verdict]

lemma runInFamily_verdict (loc : Addr → Bool) (icmp : Proto) (ms : List Match)
    (hasCap : Option CapTestFunc) : (Filter.runInFamily T loc icmp ms hasCap lru q).1=.accept ∨
      (Filter.runInFamily T loc icmp ms hasCap lru q).1=.noVerdict := by
  have hverdict (c : Bool) : Filter.verdict c=.accept ∨ Filter.verdict c=.noVerdict := by
    cases c
    · exact .inr rfl
    · exact .inl rfl
  unfold Filter.runInFamily
  split_ifs
  · exact .inr rfl
  · exact .inl rfl
  · exact hverdict _
  · exact .inl rfl
  · exact hverdict _
  · rw [Filter.flowVerdict]
    split_ifs
    · exact .inl rfl
    · exact hverdict _
  · exact .inl rfl
  · exact hverdict _

/-- RunIn accepts a packet that is no fragment exactly when it passes the pre-check and the
rules of its family or a hook accept it. -/
theorem runIn_accept_iff (hf : f.Built T ms capTest localNets) (h : Framed q)
    (hfrag : q.ipProto≠Proto.fragment) : (f.runIn T lru q).1=.accept ↔ (f.pre q).1=.noVerdict ∧
      ((Filter.runInFamily T (fun _ => inLocal localNets q.dst.addr) (icmpOf q)
        (matchesFamily ms (family q)) capTest lru q).1=.accept ∨ f.hooked q) := by
  obtain hpre | hpre := pre_eq f h hfrag
  · rw [Filter.runIn,hpre]
    simp
  · rw [Filter.runIn,hpre]
    simp only [true_and,runInVersion_eq hf h,settle_eq_accept]
    have hor := @runInFamily_verdict T lru q (fun _ => inLocal localNets q.dst.addr) (icmpOf q)
      (matchesFamily ms (family q)) capTest
    constructor
    · intro h'
      exact h'.imp_right And.right
    · intro h'
      by_cases hacc : (Filter.runInFamily T (fun _ => inLocal localNets q.dst.addr) (icmpOf q)
          (matchesFamily ms (family q)) capTest lru q).1=.accept
      · exact .inl hacc
      · exact .inr ⟨hor.resolve_left hacc,h'.resolve_left hacc⟩

end

/-- Every source has the capability `c`, and no other. -/
def hasC : Option CapTestFunc := some fun _ c => c=['c']

end TunnnejiTail.PacketFilter
