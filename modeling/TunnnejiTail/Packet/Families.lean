import TunnnejiTail.Packet.Fields

/-! The same payload in an IPv4 and in an IPv6 packet. The two decoders read it alike but for
the first fragment of a TSMP message, which only decode4 refuses. -/
namespace TunnnejiTail.Packet
open Go List

def moreFrags6 (b : Bytes) : Bool := word b 42 &&& 1≠0

/-- An IPv4 packet without options that carries a payload. -/
structure Carries4 (b : Bytes) (proto : Proto) (fragOfs : UInt16) (moreFrags : Bool)
    (payload : Bytes) : Prop where
  version : byteAt b 0=0x45
  header : 20≤b.length
  length : totalLen4 b=b.length
  proto : byteAt b 9=proto
  fragOfs : fragOfs4 b=fragOfs
  moreFrags : moreFrags4 b=moreFrags
  payload : b.drop 20=payload

/-- An IPv6 packet that carries a payload, behind a Fragment header if it is a fragment. -/
structure Carries6 (b : Bytes) (proto : Proto) (fragOfs : UInt16) (moreFrags : Bool)
    (payload : Bytes) : Prop where
  version : byteAt b 0 >>> 4=6
  header : 40≤b.length
  length : totalLen6 b=b.length
  whole : ¬(fragOfs≠0 ∨ moreFrags) → byteAt b 6=proto ∧ b.drop 40=payload
  fragment : fragOfs≠0 ∨ moreFrags → byteAt b 6=Proto.ip6FragHeader ∧ 48≤b.length ∧
    byteAt b 40=proto ∧ fragOfs6 b=fragOfs ∧ moreFrags6 b=moreFrags ∧ b.drop 48=payload

structure SameReading (q q' : Parsed) : Prop where
  ipProto : q.ipProto=q'.ipProto
  srcPort : q.src.port=q'.src.port
  dstPort : q.dst.port=q'.dst.port
  tcpFlags : q.tcpFlags=q'.tcpFlags

namespace Parsed

/-- A packet whose first bytes are its sub-protocol header, or a later fragment. -/
def readFragment (q : Parsed) (fragOfs : UInt16) (unreadable : Bool) (icmp : Proto)
    (payload : Bytes) : Parsed :=
  if fragOfs=0 then q.readOrUnknown unreadable icmp payload
  else q.withProto (laterProto fragOfs.toNat)

lemma readFragment_same (q : Parsed) (fragOfs : UInt16) (unreadable : Bool) (icmp : Proto)
    (payload : Bytes) : Same q (q.readFragment fragOfs unreadable icmp payload) := by
  rw [readFragment]
  split_ifs
  · exact (q.readOrUnknown_sub unreadable icmp payload).1
  · exact .withProto q _

lemma readFragment_ipProto (q : Parsed) {fragOfs : UInt16} (h0 : fragOfs=0) (icmp : Proto)
    (payload : Bytes) : (q.readFragment fragOfs false icmp payload).ipProto=q.ipProto := by
  rw [readFragment,if_pos h0]
  exact q.readSub_ipProto icmp payload

end Parsed

namespace SameReading
variable {q q' : Parsed}

lemma withProto (h : SameReading q q') (proto : Proto) :
    SameReading (q.withProto proto) (q'.withProto proto) := ⟨rfl,h.srcPort,h.dstPort,h.tcpFlags⟩

variable (h : SameReading q q') {icmp icmp' : Proto} (hi : q.ipProto≠icmp) (hi' : q.ipProto≠icmp')
include h hi hi'

lemma readSub (sub : Bytes) : SameReading (q.readSub icmp sub) (q'.readSub icmp' sub) := by
  rw [Parsed.readSub,Parsed.readSub,← h.ipProto,if_neg hi,if_neg hi']
  split_ifs
  · exact ⟨h.ipProto,rfl,rfl,rfl⟩
  · exact ⟨h.ipProto,rfl,rfl,h.tcpFlags⟩
  · exact ⟨h.ipProto,rfl,rfl,h.tcpFlags⟩
  · exact ⟨rfl,h.srcPort,h.dstPort,h.tcpFlags⟩
  · exact h

lemma readFragment (fragOfs : UInt16) (unreadable : Bool) (payload : Bytes) :
    SameReading (q.readFragment fragOfs unreadable icmp payload)
      (q'.readFragment fragOfs unreadable icmp' payload) := by
  rw [Parsed.readFragment,Parsed.readFragment,Parsed.readOrUnknown,Parsed.readOrUnknown]
  split_ifs
  · exact h.withProto _
  · exact h.readSub hi hi' payload
  · exact h.withProto _

end SameReading

section
variable {b payload : Bytes} {proto : Proto} {fragOfs : UInt16} {moreFrags : Bool}

lemma Carries4.decode (h : Carries4 b proto fragOfs moreFrags payload) (q : Parsed) :
    q.decode b=.ok ((q.framed4 b).readFragment fragOfs
      (unreadable4 proto payload.length moreFrags) .icmpv4 payload) := by
  have hv : byteAt b 0 >>> 4=4 := by
    rw [h.version]
    decide
  have hhdr : headerLen4 b=20 := by
    rw [headerLen4,h.version]
    decide
  have hlong : ¬totalLen4 b<20 := by
    have hlen := h.length
    have hheader := h.header
    omega
  have hproto : (q.framed4 b).ipProto=proto := h.proto
  rw [q.decode_eq_read4 h.header hv (Nat.le_of_eq h.length),Parsed.read4,hhdr,if_neg hlong,h.fragOfs,h.moreFrags,
    h.payload,← length_drop,h.payload,hproto]
  rfl

/-- The frame of an IPv6 packet, with a Fragment header stepped over. -/
def Parsed.framed6At (q : Parsed) (b : Bytes) (proto : Proto) (subofs : ℕ) : Parsed :=
  { q.framed6 b with subofs := subofs, ipProto := proto }

lemma Carries6.decode_fragment (h : Carries6 b proto fragOfs moreFrags payload)
    (hf : fragOfs≠0 ∨ moreFrags) (q : Parsed) : q.decode b=.ok ((q.framed6At b proto 48).readFragment fragOfs
      (unreadable6 proto payload.length) .icmpv6 payload) := by
  obtain ⟨hnext,h48,hproto,hofs,-,hpayload⟩ := h.fragment hf
  rw [q.decode_eq_read6 h.header h.version (Nat.le_of_eq h.length),Parsed.read6,if_pos hnext,
    if_neg (Nat.not_lt.mpr h48),hofs,hproto,← length_drop,hpayload,Parsed.readFragment]
  split_ifs <;> rfl

lemma Carries6.decode_whole (h : Carries6 b proto fragOfs moreFrags payload)
    (hf : ¬(fragOfs≠0 ∨ moreFrags)) (hproto : proto≠.ip6FragHeader) (q : Parsed) :
    q.decode b=.ok ((q.framed6At b proto 40).readFragment fragOfs
      (unreadable6 proto payload.length) .icmpv6 payload) := by
  obtain ⟨hnext,hpayload⟩ := h.whole hf
  have h0 : fragOfs=0 := by
    by_contra hne
    exact hf (.inl hne)
  have hframe : q.framed6At b proto 40=q.framed6 b := by
    rw [Parsed.framed6At,← hnext]
    rfl
  rw [q.decode_eq_read6 h.header h.version (Nat.le_of_eq h.length),Parsed.read6,hnext,if_neg hproto,
    ← length_drop,hpayload,Parsed.readFragment,if_pos h0,hframe]

lemma Same.transport {q q' : Parsed} (h : Same q q') : q'.transport=q.transport := by
  rw [Parsed.transport,Parsed.transport,h.b,h.subofs]

lemma Carries4.transport (h : Carries4 b proto fragOfs moreFrags payload) (q : Parsed) :
    (q.framed4 b).transport=.ok payload := by
  have hhdr : (q.framed4 b).subofs=20 := by
    change headerLen4 b=20
    rw [headerLen4,h.version]
    decide
  rw [Parsed.transport,hhdr,← h.payload]
  exact sliceFrom_of_le h.header

lemma unreadable4_eq {n : ℕ} (h4 : proto≠.icmpv4) (h6 : proto≠.icmpv6) (hi : proto≠.igmp) :
    unreadable4 proto n moreFrags=(proto == .tsmp && moreFrags || unreadable6 proto n) := by
  have hmin : minHeader4 proto=minHeader6 proto := by
    rw [minHeader4,minHeader6,if_neg h4,if_neg hi,if_neg h6]
  rw [unreadable4,unreadable6,hmin]
  cases proto == .fragment <;> cases proto == .tsmp && moreFrags <;> rfl

lemma laterProto_cases (n : ℕ) : laterProto n=.unknown ∨ laterProto n=.fragment := by
  rw [laterProto]
  split_ifs
  · exact .inl rfl
  · exact .inr rfl

lemma readFragment_ne_tsmp {q : Parsed} {unreadable : Bool} {icmp : Proto}
    (h : fragOfs≠0 ∨ unreadable ∨ q.ipProto≠.tsmp) :
    (q.readFragment fragOfs unreadable icmp payload).ipProto≠.tsmp := by
  rw [Parsed.readFragment,Parsed.readOrUnknown]
  split_ifs with h0 hu
  · exact fun heq => by cases heq
  · rw [q.readSub_ipProto]
    exact (h.resolve_left (fun hne => hne h0)).resolve_left hu
  · change laterProto fragOfs.toNat≠_
    rcases laterProto_cases fragOfs.toNat with hl | hl <;> rw [hl] <;> decide

end

/-- Both decoders return, agree on all but the addresses and report no fragmented TSMP. -/
def DecodedAlike (q : Parsed) (b4 b6 : Bytes) (fragmented : Prop) : Prop :=
  ∃ q4 q6, q.decode b4=.ok q4 ∧ q.decode b6=.ok q6 ∧ SameReading q4 q6 ∧
    (∃ sub, q4.transport=.ok sub ∧ q6.transport=.ok sub) ∧
    (fragmented → q4.ipProto≠.tsmp ∧ q6.ipProto≠.tsmp)

lemma Parsed.readFragment_congr (q : Parsed) {fragOfs : UInt16} {unreadable unreadable' : Bool}
    (h : fragOfs=0 → unreadable=unreadable') (icmp : Proto) (payload : Bytes) :
    q.readFragment fragOfs unreadable icmp payload = q.readFragment fragOfs unreadable' icmp payload := by
  rw [readFragment,readFragment]
  split_ifs with h0
  · rw [h h0]
  · rfl

section
variable {b4 b6 payload : Bytes} {proto : Proto} {fragOfs : UInt16} {moreFrags : Bool}

lemma Carries6.decode (h6 : Carries6 b6 proto fragOfs moreFrags payload)
    (hwhole : ¬(proto=.ip6FragHeader ∧ ¬(fragOfs≠0 ∨ moreFrags))) (q : Parsed) :
    ∃ subofs, q.decode b6=.ok ((q.framed6At b6 proto subofs).readFragment fragOfs
      (unreadable6 proto payload.length) .icmpv6 payload) ∧
      (q.framed6At b6 proto subofs).transport=.ok payload := by
  by_cases hf : fragOfs≠0 ∨ moreFrags
  · obtain ⟨-,h48,-,-,-,hpayload⟩ := h6.fragment hf
    refine ⟨48,h6.decode_fragment hf q,?_⟩
    rw [← hpayload]
    exact sliceFrom_of_le h48
  · have hproto : proto≠.ip6FragHeader := fun h => hwhole ⟨h,hf⟩
    refine ⟨40,h6.decode_whole hf hproto q,?_⟩
    rw [← (h6.whole hf).2]
    exact sliceFrom_of_le h6.header

/-- A whole packet of the protocol number of the Fragment header is read as a fragment by
decode6. -/
theorem Carries6.fragmentHeader_misread
    (h6 : Carries6 b6 .ip6FragHeader fragOfs moreFrags payload) (hf : ¬(fragOfs≠0 ∨ moreFrags))
    {q q6 : Parsed} (h : q.decode b6=.ok q6) : ¬(q6.ipProto=.ip6FragHeader ∧ q6.transport=.ok payload) := by
  obtain ⟨hnext,hpayload⟩ := h6.whole hf
  rw [q.decode_eq_read6 h6.header h6.version (Nat.le_of_eq h6.length),Parsed.read6,if_pos hnext] at h
  rintro ⟨hproto,htransport⟩
  by_cases h48 : b6.length<48
  · rw [if_pos h48] at h
    cases h
    cases hproto
  · rw [if_neg h48] at h
    by_cases h0 : fragOfs6 b6=0
    · rw [if_pos h0] at h
      cases h
      rw [(Parsed.readOrUnknown_sub ..).1.transport] at htransport
      have hdrop : Except.ok (b6.drop 48)=Except.ok payload :=
        (sliceFrom_of_le (Nat.le_of_not_lt h48)).symm.trans htransport
      have hlen := congrArg List.length (Except.ok.inj hdrop)
      rw [← hpayload,length_drop,length_drop] at hlen
      omega
    · rw [if_neg h0] at h
      cases h
      have hlater : laterProto (fragOfs6 b6).toNat=.ip6FragHeader := hproto
      rcases laterProto_cases (fragOfs6 b6).toNat with hl | hl
      · cases hl.symm.trans hlater
      · cases hl.symm.trans hlater

/-- decode4 and decode6 agree on a payload exactly when it is not the first of several
fragments of a TSMP message, nor a whole packet of the Fragment header's own number. -/
theorem decoders_agree_iff (h4 : Carries4 b4 proto fragOfs moreFrags payload)
    (h6 : Carries6 b6 proto fragOfs moreFrags payload)
    (hproto : proto≠.icmpv4 ∧ proto≠.icmpv6 ∧ proto≠.igmp) (q : Parsed) :
    DecodedAlike q b4 b6 (fragOfs≠0 ∨ moreFrags) ↔ ¬(proto=.tsmp ∧ fragOfs=0 ∧ moreFrags ∧ minTSMPSize≤payload.length) ∧
      ¬(proto=.ip6FragHeader ∧ ¬(fragOfs≠0 ∨ moreFrags)) := by
  obtain ⟨hi4,hi6,higmp⟩ := hproto
  constructor
  · rintro ⟨q4,q6,hd4,hd6,hsame,⟨sub,ht4,ht6⟩,htsmp⟩
    refine ⟨?_,?_⟩
    · rintro ⟨rfl,rfl,rfl,hlen⟩
      obtain ⟨subofs,hd6',-⟩ := h6.decode (by simp) q
      have hread : unreadable6 .tsmp payload.length=false :=
        decide_eq_false (Nat.not_lt.mpr hlen)
      cases hd6.symm.trans hd6'
      refine (htsmp (.inr rfl)).2 ?_
      rw [hread,Parsed.readFragment_ipProto _ rfl]
      rfl
    · rintro ⟨rfl,hf⟩
      have hd4' := h4.decode q
      have hread : unreadable4 .ip6FragHeader payload.length moreFrags=false :=
        decide_eq_false (Nat.not_lt_zero payload.length)
      have h0 : fragOfs=0 := by
        by_contra hne
        exact hf (.inl hne)
      cases hd4.symm.trans hd4'
      refine h6.fragmentHeader_misread hf hd6 ⟨?_,?_⟩
      · rw [← hsame.ipProto,hread,Parsed.readFragment_ipProto _ h0]
        exact h4.proto
      · rw [ht6,← ht4,(Parsed.readFragment_same ..).transport]
        exact h4.transport q
  · rintro ⟨hnt,hnw⟩
    obtain ⟨subofs,hd6,ht6⟩ := h6.decode hnw q
    -- a first fragment of TSMP that is left is too short for both decoders
    have hshort : fragOfs=0 → moreFrags → proto=.tsmp → unreadable6 proto payload.length := by
      rintro h0 hm rfl
      exact decide_eq_true (Nat.lt_of_not_le fun hlen => hnt ⟨rfl,h0,hm,hlen⟩)
    have hunread : fragOfs=0 → unreadable4 proto payload.length moreFrags=unreadable6 proto payload.length := by
      intro h0
      rw [unreadable4_eq hi4 hi6 higmp]
      by_cases htm : proto=.tsmp ∧ moreFrags
      · rw [hshort h0 htm.2 htm.1,Bool.or_true]
      · have hfalse : (proto == .tsmp && moreFrags)=false := by simpa using htm
        rw [hfalse,Bool.false_or]
    have hne : fragOfs≠0 ∨ moreFrags → fragOfs≠0 ∨ unreadable6 proto payload.length ∨ proto≠.tsmp := by
      intro hf
      by_cases h0 : fragOfs=0
      · by_cases ht : proto=.tsmp
        · exact .inr (.inl (hshort h0 (hf.resolve_left fun hne => hne h0) ht))
        · exact .inr (.inr ht)
      · exact .inl h0
    refine ⟨_,_,h4.decode q,hd6,?_,⟨payload,?_,?_⟩,fun hf => ⟨?_,?_⟩⟩
    · rw [Parsed.readFragment_congr _ hunread]
      have hbase : SameReading (q.framed4 b4) (q.framed6At b6 proto subofs) :=
        ⟨h4.proto,rfl,rfl,rfl⟩
      refine hbase.readFragment ?_ ?_ _ _ _
      · rwa [← h4.proto] at hi4
      · rwa [← h4.proto] at hi6
    · rw [(Parsed.readFragment_same ..).transport]
      exact h4.transport q
    · rw [(Parsed.readFragment_same ..).transport,ht6]
    · rw [Parsed.readFragment_congr _ hunread]
      refine readFragment_ne_tsmp ?_
      rw [show (q.framed4 b4).ipProto=proto from h4.proto]
      exact hne hf
    · exact readFragment_ne_tsmp (hne hf)

end

def packet4 (proto : Proto) (flags : UInt8) (payload : Bytes) : Bytes :=
  [0x45,0,0,UInt8.ofNat (20+payload.length),0,0,flags,0,64,proto,0,0,100,64,0,1,100,64,0,2]++payload

def packet6 (proto : Proto) (payload : Bytes) : Bytes :=
  [0x60,0,0,0,0,UInt8.ofNat payload.length,proto,64]++(List.replicate 15 0++[1]) ++ (List.replicate 15 0++[2])++payload

def datagram : Bytes := [0x0f,0xa0,0x13,0x88,0,8,0,0]

theorem decoders_agree_datagram :
    DecodedAlike {} (packet4 .udp 0 datagram) (packet6 .udp datagram) ((0 : UInt16)≠0 ∨ false) ∧
      ((Parsed.decode {} (packet4 .udp 0 datagram)).map fun q => (q.src.port,q.dst.port)) = .ok (4000,5000) := by
  have h4 : Carries4 (packet4 .udp 0 datagram) .udp 0 false datagram := by
    constructor <;> decide
  have h6 : Carries6 (packet6 .udp datagram) .udp 0 false datagram := by
    refine ⟨by decide,by decide,by decide,fun _ => ⟨by decide,by decide⟩,fun h => ?_⟩
    exact absurd h (by decide)
  exact ⟨(decoders_agree_iff h4 h6 (by decide) {}).mpr ⟨by decide,by decide⟩,by decide⟩

/-- The first of several fragments of a TSMP message: decode4 gives up, decode6 reports TSMP. -/
theorem fragmented_tsmp_reported : Carries4 (packet4 .tsmp 0x20 datagram) .tsmp 0 true datagram ∧
      Carries6 (packet6 .ip6FragHeader ([99,0,0,1,0,0,0,0]++datagram)) .tsmp 0 true datagram ∧
      (Parsed.decode {} (packet4 .tsmp 0x20 datagram)).map Parsed.ipProto=.ok .unknown ∧
      (Parsed.decode {} (packet6 .ip6FragHeader ([99,0,0,1,0,0,0,0]++datagram))).map
        Parsed.ipProto=.ok .tsmp := by
  refine ⟨?_,?_,by decide,by decide⟩
  · constructor <;> decide
  · refine ⟨by decide,by decide,by decide,fun h => ?_,fun _ => by decide⟩
    exact absurd (.inr rfl) h

end TunnnejiTail.Packet
