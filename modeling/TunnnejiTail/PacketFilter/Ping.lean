import TunnnejiTail.PacketFilter.Filter

/-! Which ICMP requests the filter lets in. A source listed by address is matched together
with the destination; a capability of the source is looked up for all destinations at once. -/
namespace TunnnejiTail.PacketFilter
open Go Netip Packet List Proto

/-- Something is open for the source at the destination: one match admits the source and has
a destination that contains the address. -/
def OpenFor (ms : List Match) (hasCap : Option CapTestFunc) (src dst : Addr) : Prop :=
  ∃ m ∈ ms, m.coversDst dst ∧ m.admitsSrc hasCap src

/-- The source holds a capability of some match that has a destination of the family. -/
def CapSomewhere (ms : List Match) (hasCap : Option CapTestFunc) (keep : Addr → Bool)
    (src : Addr) : Prop :=
  ∃ m ∈ ms, capGranted hasCap src m.srcCaps ∧ m.hasDst keep

structure IsICMPRequest (q : Parsed) : Prop where
  icmp : q.ipProto=Proto.icmpv4 ∨ q.ipProto=Proto.icmpv6
  notResponse : q.isEchoResponse=false
  notError : q.isError=false

section
variable {T : BartLite} {ms : List Match} {capTest : Option CapTestFunc} {localNets : Option IPSet}
  {f : Filter} {lru : FlowCache} {q : Parsed}

lemma not_fragment_of_icmp (hq : IsICMPRequest q) : q.ipProto≠fragment := by
  obtain h | h := hq.icmp
  · rw [h]; decide
  · rw [h]; decide

lemma admitsSrc_of_srcs {m : Match} {src : Addr} (h : m.srcs.any (·.contains src)) :
    m.admitsSrc capTest src := by
  rw [Match.admitsSrc,h,Bool.true_or]

lemma icmp_accept_iff (h : Framed q) (hq : IsICMPRequest q) (hown : q.ipProto=icmpOf q) (isLocal : Bool) :
    (Filter.runInFamily T (fun _ => isLocal) (icmpOf q) (matchesFamily ms (family q)) capTest
      lru q).1=.accept ↔ isLocal ∧ ((∃ m ∈ ms, m.srcs.any (·.contains q.src.addr) ∧ m.coversDst q.dst.addr) ∨
          CapSomewhere ms capTest (family q) q.src.addr) := by
  rw [Filter.runInFamily,if_pos hown,hq.notResponse,hq.notError]
  cases isLocal with
  | false => simp
  | true =>
    simp [verdict_eq_accept,matchIPsOnly_matchesFamily T ms capTest h.src_inFamily h.dst_inFamily, CapSomewhere]

lemma openFor_of_portless (h : Framed q)
    (hm : matchProtoAndIPsOnlyIfAllPorts T (matchesFamily ms (family q)) q) :
    OpenFor ms capTest q.src.addr q.dst.addr := by
  rw [matchProtoAndIPsOnlyIfAllPorts_matchesFamily T ms h.src_inFamily h.dst_inFamily, any_eq_true] at hm
  obtain ⟨m,hmem,hm⟩ := hm
  rw [Bool.and_eq_true,Bool.and_eq_true] at hm
  obtain ⟨⟨_,hsrc⟩,hdsts⟩ := hm
  obtain ⟨dst,hdst,hd⟩ := any_eq_true.mp hdsts
  exact ⟨m,hmem,any_eq_true.mpr ⟨dst,hdst,(Bool.and_eq_true_iff.mp hd).2⟩, admitsSrc_of_srcs hsrc⟩

lemma runInFamily_foreign_icmp (hq : IsICMPRequest q) (hown : q.ipProto≠icmpOf q) (isLocal : Bool) :
    (Filter.runInFamily T (fun _ => isLocal) (icmpOf q) (matchesFamily ms (family q)) capTest
      lru q).1=.accept ↔ isLocal ∧ matchProtoAndIPsOnlyIfAllPorts T (matchesFamily ms (family q)) q := by
  have hother : q.ipProto≠tcp ∧ ¬(q.ipProto=udp ∨ q.ipProto=sctp) ∧ q.ipProto≠tsmp := by
    obtain h | h := hq.icmp
    · rw [h]; decide
    · rw [h]; decide
  rw [Filter.runInFamily,if_neg hown,if_neg hother.1,if_neg hother.2.1,if_neg hother.2.2]
  cases isLocal with
  | false => simp
  | true => simp [verdict_eq_accept]

/-- The inputs on which RunIn may accept an ICMP request with nothing open for it: a hook
accepts the packet, or its source holds a capability of some match, whatever that match is
for, and the destination is local. -/
def Unbound (ms : List Match) (capTest : Option CapTestFunc) (localNets : Option IPSet) (f : Filter)
    (q : Parsed) : Prop :=
  (f.pre q).1=.noVerdict ∧ (f.hooked q ∨ inLocal localNets q.dst.addr ∧ q.ipProto=icmpOf q ∧
    CapSomewhere ms capTest (family q) q.src.addr)

section
variable (hf : f.Built T ms capTest localNets) (h : Framed q) (hq : IsICMPRequest q)
include hf h hq

lemma openFor_or_unbound (hacc : (f.runIn T lru q).1=.accept) :
    OpenFor ms capTest q.src.addr q.dst.addr ∨ Unbound ms capTest localNets f q := by
  obtain ⟨hpre,hrun | hhook⟩ := (runIn_accept_iff hf h (not_fragment_of_icmp hq)).mp hacc
  · by_cases hown : q.ipProto=icmpOf q
    · obtain ⟨hloc,⟨m,hm,hsrc,hdst⟩ | hcap⟩ := (icmp_accept_iff h hq hown _).mp hrun
      · exact .inl ⟨m,hm,hdst,admitsSrc_of_srcs hsrc⟩
      · exact .inr ⟨hpre,.inr ⟨hloc,hown,hcap⟩⟩
    · exact .inl (openFor_of_portless h ((runInFamily_foreign_icmp hq hown _).mp hrun).2)
  · exact .inr ⟨hpre,.inl hhook⟩

lemma accept_of_unbound (hu : Unbound ms capTest localNets f q) : (f.runIn T lru q).1=.accept := by
  rw [runIn_accept_iff hf h (not_fragment_of_icmp hq)]
  refine ⟨hu.1,?_⟩
  obtain hhook | ⟨hloc,hown,hcap⟩ := hu.2
  · exact .inr hhook
  · exact .inl ((icmp_accept_iff h hq hown _).mpr ⟨hloc,.inr hcap⟩)

end

/-- An accepted ICMP request finds something open at its destination, exactly when that
much is given for the packets that a hook or a capability lets in anywhere. -/
theorem ping_needs_open_iff (hf : f.Built T ms capTest localNets) (h : Framed q) (hq : IsICMPRequest q) :
    ((f.runIn T lru q).1=.accept → OpenFor ms capTest q.src.addr q.dst.addr) ↔
      (Unbound ms capTest localNets f q → OpenFor ms capTest q.src.addr q.dst.addr) := by
  constructor
  · intro hopen hu
    exact hopen (accept_of_unbound hf h hq hu)
  · intro hcond hacc
    exact (openFor_or_unbound hf h hq hacc).elim id hcond

end

/-- One port of 10.0.0.1 is open for whoever has the capability. -/
def sshMatch : Match where
  ipProto := [.tcp]
  srcs := []
  srcCaps := [['c']]
  dsts := [⟨.v4 0x0a000001 (bits4 32),⟨22,22⟩⟩]

def subnet10 : IPSet := IPSet.of [.v4 0x0a000000 (bits4 24)]

def echoTo (last : UInt8) : Bytes :=
  [0x45,0,0,28,0,0,0,0,64,1,0,0,10,0,0,9,10,0,0,last,8,0,0,0,0,1,0,1]

def echoParsed (last : UInt8) : Parsed where
  b := echoTo last
  subofs := 20
  dataofs := 24
  length := 28
  ipVersion := 4
  ipProto := .icmpv4
  src := ⟨.v4 0x0a000009,0⟩
  dst := ⟨.v4 (BitVec.ofNat 32 (0x0a000000+last.toNat)),0⟩

def sshFilter : Filter := new BartLite.scan [sshMatch] hasC (some subnet10) none 0

theorem ping_needs_open_at_ssh_host : (Parsed.decode {} (echoTo 1)=.ok (echoParsed 1) ∧
      (sshFilter.runIn BartLite.scan .new (echoParsed 1)).1=.accept) ∧
      (((sshFilter.runIn BartLite.scan .new (echoParsed 1)).1=.accept →
        OpenFor [sshMatch] hasC (echoParsed 1).src.addr (echoParsed 1).dst.addr) ↔
      (Unbound [sshMatch] hasC (some subnet10) sshFilter (echoParsed 1) →
        OpenFor [sshMatch] hasC (echoParsed 1).src.addr (echoParsed 1).dst.addr)) :=
  ⟨by decide,ping_needs_open_iff (built_new none 0)
    ⟨by decide,by decide,.inl ⟨rfl,⟨_,rfl⟩,⟨_,rfl⟩⟩⟩ ⟨.inl rfl,by decide,by decide⟩⟩

/-- A peer with the capability for 10.0.0.1:22 pings 10.0.0.2, where nothing is open. -/
theorem ping_accepted_with_nothing_open :
    Parsed.decode {} (echoTo 2)=.ok (echoParsed 2) ∧ IsICMPRequest (echoParsed 2) ∧
      (sshFilter.runIn BartLite.scan .new (echoParsed 2)).1=.accept ∧
      ¬OpenFor [sshMatch] hasC (echoParsed 2).src.addr (echoParsed 2).dst.addr := by
  refine ⟨by decide,⟨.inl rfl,by decide,by decide⟩,by decide,?_⟩
  intro h
  obtain ⟨m,hm,hdst,_⟩ := h
  rw [mem_singleton.mp hm] at hdst
  exact absurd hdst (by decide)

end TunnnejiTail.PacketFilter
