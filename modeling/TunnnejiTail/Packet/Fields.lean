import TunnnejiTail.Packet.Decode

/-! Decode as a function of the bytes and of what the Parsed held before: which fields each
protocol overwrites, and which stay as the packet before left them. -/
namespace TunnnejiTail.Packet
open Go List

def tcpDataOffset (sub : Bytes) : ℕ := ((byteAt sub 12 &&& 0xF0) >>> 2).toNat

namespace Parsed

def withWords (q : Parsed) (sub : Bytes) : Parsed :=
  { q with
    src := withPort q.src (word sub 0)
    dst := withPort q.dst (word sub 2) }

/-- The fields that a complete sub-protocol header overwrites; icmp is the ICMP of the family. -/
def readSub (q : Parsed) (icmp : Proto) (sub : Bytes) : Parsed :=
  if q.ipProto=icmp then { q with
    src := withPort q.src 0
    dst := withPort q.dst 0
    dataofs := q.subofs+4 }
  else if q.ipProto=.tcp then { q.withWords sub with
    tcpFlags := byteAt sub 13
    dataofs := q.subofs+tcpDataOffset sub }
  else if q.ipProto=.udp then { q.withWords sub with dataofs := q.subofs+8 }
  else if q.ipProto=.sctp then q.withWords sub
  else if q.ipProto=.tsmp then { q with dataofs := q.subofs }
  else q

def readOrUnknown (q : Parsed) (unreadable : Bool) (icmp : Proto) (sub : Bytes) : Parsed :=
  if unreadable then q.withProto .unknown else q.readSub icmp sub

variable {q : Parsed}

lemma withPorts_eq {sub : Bytes} (h : 4 ≤ sub.length) : q.withPorts sub=.ok (q.withWords sub) := by
  rw [withPorts,uint16At_of_lt (by omega),uint16At_of_lt (by omega)]
  rfl

section
variable (q : Parsed) (sub : Bytes)

lemma decodeTCP_eq : q.decodeTCP sub =
    .ok (if sub.length<tcpHeaderLength then q.withProto .unknown else { q.withWords sub with
        tcpFlags := byteAt sub 13
        dataofs := q.subofs+tcpDataOffset sub }) := by
  rw [decodeTCP]
  by_cases h : sub.length<tcpHeaderLength
  · rw [if_pos h,if_pos h]
  · have hlen : 20 ≤ sub.length := Nat.le_of_not_lt h
    rw [if_neg h,if_neg h,withPorts_eq (by omega),index_of_lt (by omega),index_of_lt (by omega)]
    rfl

lemma decodeUDP_eq : q.decodeUDP sub = .ok (if sub.length<udpHeaderLength then q.withProto .unknown
      else { q.withWords sub with dataofs := q.subofs+8 }) := by
  rw [decodeUDP]
  by_cases h : sub.length<udpHeaderLength
  · rw [if_pos h,if_pos h]
  · have hlen : 8 ≤ sub.length := Nat.le_of_not_lt h
    rw [if_neg h,if_neg h,withPorts_eq (by omega)]
    rfl

lemma decodeSCTP_eq : q.decodeSCTP sub =
    .ok (if sub.length < sctpHeaderLength then q.withProto .unknown else q.withWords sub) := by
  rw [decodeSCTP]
  by_cases h : sub.length < sctpHeaderLength
  · rw [if_pos h,if_pos h]
  · have hlen : 12 ≤ sub.length := Nat.le_of_not_lt h
    rw [if_neg h,if_neg h,withPorts_eq (by omega)]

lemma readOrUnknown_short (n k : ℕ) (icmp : Proto) :
    q.readOrUnknown (decide (n<k)) icmp sub = if n<k then q.withProto .unknown else q.readSub icmp sub := by
  simp only [readOrUnknown,decide_eq_true_eq]

end

/-- The protocols with ports, which both families read alike. -/
lemma decodePorts_eq {sub : Bytes} {icmp : Proto} {u : Bool} {rest : Except Fault Parsed}
    (h1 : q.ipProto≠icmp) (htcp : q.ipProto=.tcp → u=decide (sub.length<20))
    (hudp : q.ipProto=.udp → u=decide (sub.length<8)) (hsctp : q.ipProto=.sctp → u=decide (sub.length<12))
    (hrest : q.ipProto≠.tcp → q.ipProto≠.udp → q.ipProto≠.sctp → rest=.ok (q.readOrUnknown u icmp sub)) :
    (if q.ipProto=.tcp then q.decodeTCP sub else if q.ipProto=.udp then q.decodeUDP sub
      else if q.ipProto=.sctp then q.decodeSCTP sub else rest)=.ok (q.readOrUnknown u icmp sub) := by
  by_cases h3 : q.ipProto=.tcp
  · rw [if_pos h3,htcp h3,readOrUnknown_short,readSub,if_neg h1,if_pos h3,decodeTCP_eq]
    rfl
  by_cases h4 : q.ipProto=.udp
  · rw [if_neg h3,if_pos h4,hudp h4,readOrUnknown_short,readSub,if_neg h1,if_neg h3,if_pos h4,decodeUDP_eq]
    rfl
  by_cases h5 : q.ipProto=.sctp
  · rw [if_neg h3,if_neg h4,if_pos h5,hsctp h5,readOrUnknown_short,readSub,if_neg h1,if_neg h3,if_neg h4,
      if_pos h5,decodeSCTP_eq]
    rfl
  rw [if_neg h3,if_neg h4,if_neg h5]
  exact hrest h3 h4 h5

lemma decode4First_eq (q : Parsed) (sub : Bytes) (moreFrags : Bool) : q.decode4First sub moreFrags =
      .ok (q.readOrUnknown (unreadable4 q.ipProto sub.length moreFrags) .icmpv4 sub) := by
  have hs {k : ℕ} (h : unreadable4 q.ipProto sub.length moreFrags=decide (sub.length<k)) :
      q.readOrUnknown (unreadable4 q.ipProto sub.length moreFrags) .icmpv4 sub =
        if sub.length<k then q.withProto .unknown else q.readSub .icmpv4 sub := by
    rw [h,readOrUnknown_short]
  rw [decode4First]
  by_cases h1 : q.ipProto=.icmpv4
  · rw [hs (k := 4) (by rw [h1]; rfl),readSub,if_pos h1,if_pos h1]
    rfl
  by_cases h2 : q.ipProto=.igmp
  · rw [hs (k := 8) (by rw [h2]; rfl),readSub,h2]
    rfl
  rw [if_neg h1,if_neg h2]
  refine decodePorts_eq h1 (fun h => by rw [h]; rfl) (fun h => by rw [h]; rfl) (fun h => by rw [h]; rfl)
    fun h3 h4 h5 => ?_
  by_cases h6 : q.ipProto=.tsmp
  · cases moreFrags with
    | true =>
      rw [if_pos h6,h6]
      rfl
    | false =>
      rw [hs (k := 7) (by rw [h6]; rfl),readSub,if_neg h1,if_neg h3,if_neg h4,if_neg h5,if_pos h6, if_pos h6]
      rfl
  by_cases h7 : q.ipProto=.fragment
  · rw [if_neg h6,if_pos h7,h7]
    rfl
  · have hread : unreadable4 q.ipProto sub.length moreFrags=false := by
      simp [unreadable4,minHeader4,h1,h2,h3,h4,h5,h6,h7]
    rw [if_neg h6,if_neg h7,hread,readOrUnknown,readSub,if_neg h1,if_neg h3,if_neg h4,if_neg h5, if_neg h6]
    rfl

variable {b : Bytes}

lemma decode6Sub_eq (h : q.subofs≤b.length) :
    q.decode6Sub b=.ok (q.readOrUnknown (unreadable6 q.ipProto (b.length-q.subofs)) .icmpv6 (b.drop q.subofs)) := by
  rw [decode6Sub,sliceFrom_of_le h,← length_drop]
  generalize b.drop q.subofs=sub
  have hs {k : ℕ} (h : unreadable6 q.ipProto sub.length=decide (sub.length<k)) :
      q.readOrUnknown (unreadable6 q.ipProto sub.length) .icmpv6 sub =
        if sub.length<k then q.withProto .unknown else q.readSub .icmpv6 sub := by
    rw [h,readOrUnknown_short]
  by_cases h1 : q.ipProto=.icmpv6
  · rw [hs (k := 4) (by rw [h1]; rfl),readSub,if_pos h1]
    exact if_pos h1
  refine (if_neg h1).trans (decodePorts_eq h1 (fun h => by rw [h]; rfl) (fun h => by rw [h]; rfl)
    (fun h => by rw [h]; rfl) fun h3 h4 h5 => ?_)
  by_cases h6 : q.ipProto=.tsmp
  · rw [hs (k := 7) (by rw [h6]; rfl),readSub,if_neg h1,if_neg h3,if_neg h4,if_neg h5,if_pos h6,if_pos h6]
    rfl
  by_cases h7 : q.ipProto=.fragment
  · rw [if_neg h6,if_pos h7,h7]
    rfl
  · have hread : unreadable6 q.ipProto sub.length=false := by
      simp [unreadable6,minHeader6,h1,h3,h4,h5,h6,h7]
    rw [if_neg h6,if_neg h7,hread,readOrUnknown,readSub,if_neg h1,if_neg h3,if_neg h4,if_neg h5,if_neg h6]
    rfl

/-- What the fixed IPv4 header overwrites. -/
def framed4 (q : Parsed) (b : Bytes) : Parsed :=
  { q with
    b := b
    ipVersion := 4
    ipProto := byteAt b 9
    length := totalLen4 b
    src := withIP q.src (.v4 (src4 b))
    dst := withIP q.dst (.v4 (dst4 b))
    subofs := headerLen4 b }

def read4 (q : Parsed) (b : Bytes) : Parsed :=
  if totalLen4 b<headerLen4 b then q.withProto .unknown
  else if fragOfs4 b=0 then
    q.readOrUnknown (unreadable4 q.ipProto (b.length-headerLen4 b) (moreFrags4 b)) .icmpv4
      (b.drop (headerLen4 b))
  else q.withProto (laterProto (fragOfs4 b).toNat)

lemma decode4Sub_eq (h8 : 8≤b.length) (hle : totalLen4 b≤b.length)
    (hlen : q.length=totalLen4 b) (hofs : q.subofs=headerLen4 b) : q.decode4Sub b=.ok (q.read4 b) := by
  rw [decode4Sub,read4,hlen,hofs]
  by_cases hshort : totalLen4 b<headerLen4 b
  · rw [if_pos hshort,if_pos hshort]
  · rw [if_neg hshort,if_neg hshort,sliceFrom_of_le (by omega),uint16At_of_lt (by omega)]
    by_cases h0 : fragOfs4 b=0
    · refine (if_pos h0).trans ?_
      rw [decode4First_eq,length_drop,if_pos h0]
      rfl
    · refine (if_neg h0).trans ?_
      rw [if_neg h0]
      rfl

lemma decode4_eq (h20 : 20≤b.length) (hle : totalLen4 b≤b.length)
    (hb : q.b=b) (hv : q.ipVersion=4) : q.decode4 b=.ok ((q.framed4 b).read4 b) := by
  rw [decode4,if_neg (by rw [ip4HeaderLength]; omega),index_of_lt (by omega), uint16At_of_lt (by omega)]
  refine (if_neg (Nat.not_lt.mpr hle)).trans ?_
  rw [addr4At_of_le (by omega),addr4At_of_le (by omega),index_of_lt (by omega)]
  have hframed : { q with
      ipProto := byteAt b 9
      length := totalLen4 b
      src := withIP q.src (.v4 (src4 b))
      dst := withIP q.dst (.v4 (dst4 b))
      subofs := headerLen4 b } = q.framed4 b := by
    cases q
    cases hb
    cases hv
    rfl
  rw [← hframed]
  exact decode4Sub_eq (by omega) hle rfl rfl

lemma decode_eq_read4 (q : Parsed) (h20 : 20≤b.length) (hv : byteAt b 0 >>> 4=4)
    (hle : totalLen4 b≤b.length) : q.decode b=.ok ((q.framed4 b).read4 b) := by
  obtain ⟨b0,rest,rfl⟩ := exists_cons_of_length_pos (by omega : 0<b.length)
  exact (if_pos hv).trans (decode4_eq h20 hle rfl hv)

/-- What the fixed IPv6 header overwrites. -/
def framed6 (q : Parsed) (b : Bytes) : Parsed :=
  { q with
    b := b
    ipVersion := 6
    ipProto := byteAt b 6
    length := totalLen6 b
    src := withIP q.src (.v6 (src6 b) [])
    dst := withIP q.dst (.v6 (dst6 b) [])
    subofs := 40 }

/-- What decode6 does after the fixed header. -/
def read6 (q : Parsed) (b : Bytes) : Parsed :=
  if byteAt b 6=Proto.ip6FragHeader then
    if b.length<48 then q.withProto .unknown
    else if fragOfs6 b=0 then
      { q with subofs := 48, ipProto := byteAt b 40 }.readOrUnknown
        (unreadable6 (byteAt b 40) (b.length-48)) .icmpv6 (b.drop 48)
    else { q with subofs := 48, ipProto := laterProto (fragOfs6 b).toNat }
  else q.readOrUnknown (unreadable6 (byteAt b 6) (b.length-40)) .icmpv6 (b.drop 40)

lemma decode6Fragment_eq (hs : q.subofs=40) : q.decode6Fragment b =
    .ok (if b.length<48 then (q.withProto .unknown,false)
      else if fragOfs6 b=0 then ({ q with subofs := 48, ipProto := byteAt b 40 },true)
      else ({ q with subofs := 48, ipProto := laterProto (fragOfs6 b).toNat },false)) := by
  have h48 : q.subofs+ip6FragHeaderLength=48 := by rw [hs]; rfl
  rw [decode6Fragment,h48]
  by_cases h : b.length<48
  · rw [if_pos h,if_pos h]
  · have hlen : (b.drop q.subofs).length=b.length-40 := by rw [length_drop,hs]
    rw [if_neg h,if_neg h,sliceFrom_of_le (by omega)]
    have hnext : index (b.drop q.subofs) 0=.ok (byteAt b 40) := by
      rw [index_of_lt (by omega),byteAt_drop,hs]
    have hflags : uint16At (b.drop q.subofs) 2=.ok (word b 42) := by
      rw [uint16At_of_lt (by omega),byteAt_drop,byteAt_drop,hs]
      rfl
    simp only [bind,Except.bind,hnext,hflags]
    exact congrArg Except.ok (ite_congr rfl (fun _ => rfl) fun _ => rfl)

lemma decode6_eq (h40 : 40≤b.length) (hle : totalLen6 b≤b.length)
    (hb : q.b=b) (hv : q.ipVersion=6) : q.decode6 b=.ok ((q.framed6 b).read6 b) := by
  rw [decode6,if_neg (by rw [ip6HeaderLength]; omega),index_of_lt (by omega), uint16At_of_lt (by omega)]
  refine (if_neg (Nat.not_lt.mpr hle)).trans ?_
  rw [addr16At_of_le (by omega),addr16At_of_le (by omega)]
  have hframed : { q with
      ipProto := byteAt b 6
      length := totalLen6 b
      src := withIP q.src (.v6 (src6 b) [])
      dst := withIP q.dst (.v6 (dst6 b) [])
      subofs := 40 } = q.framed6 b := by
    cases q
    cases hb
    cases hv
    rfl
  rw [← hframed,read6]
  by_cases hfrag : byteAt b 6=Proto.ip6FragHeader
  · refine (if_pos hfrag).trans ?_
    rw [if_pos hfrag,decode6Fragment_eq rfl]
    by_cases h48 : b.length<48
    · rw [if_pos h48,if_pos h48]
      rfl
    rw [if_neg h48,if_neg h48]
    by_cases h0 : fragOfs6 b=0
    · rw [if_pos h0,if_pos h0]
      exact decode6Sub_eq (Nat.le_of_not_lt h48)
    · rw [if_neg h0,if_neg h0]
      rfl
  · refine (if_neg hfrag).trans ?_
    rw [if_neg hfrag]
    exact decode6Sub_eq h40

lemma decode_eq_read6 (q : Parsed) (h40 : 40≤b.length) (hv : byteAt b 0 >>> 4=6)
    (hle : totalLen6 b≤b.length) : q.decode b=.ok ((q.framed6 b).read6 b) := by
  obtain ⟨b0,rest,rfl⟩ := exists_cons_of_length_pos (by omega : 0<b.length)
  have hv' : b0 >>> 4=6 := hv
  have h4 : b0 >>> 4≠4 := by
    rw [hv']
    decide
  exact (if_neg h4).trans ((if_pos hv).trans (decode6_eq h40 hle rfl hv))

lemma readSub_same (q : Parsed) (icmp : Proto) (sub : Bytes) : Same q (q.readSub icmp sub) := by
  rw [readSub]
  split_ifs <;> exact ⟨rfl,rfl,rfl,rfl,rfl,rfl⟩

lemma readSub_ipProto (q : Parsed) (icmp : Proto) (sub : Bytes) :
    (q.readSub icmp sub).ipProto=q.ipProto := by
  rw [readSub]
  split_ifs <;> rfl

lemma readOrUnknown_sub (q : Parsed) (unreadable : Bool) (icmp : Proto) (sub : Bytes) :
    SubDecoded q (keptProto unreadable q.ipProto) (q.readOrUnknown unreadable icmp sub) := by
  cases unreadable
  · exact ⟨q.readSub_same icmp sub,q.readSub_ipProto icmp sub⟩
  · exact ⟨.withProto q _,rfl⟩

lemma decoded4_read (hle : totalLen4 b≤b.length) : Decoded4 b ((q.framed4 b).read4 b) := by
  have hcut : ¬b.length<totalLen4 b := Nat.not_lt.mpr hle
  have hsub : SubDecoded (q.framed4 b) (proto4 b) ((q.framed4 b).read4 b) := by
    rw [proto4,read4]
    simp only [hcut,false_or]
    split_ifs
    · exact ⟨.withProto _ _,rfl⟩
    · exact readOrUnknown_sub ..
    · exact ⟨.withProto _ _,rfl⟩
  exact ⟨hsub.1.b,hsub.1.ipVersion,hsub.1.length,hsub.2,fun _ => hsub.1.src,fun _ => hsub.1.dst, fun _ => hsub.1.subofs⟩

lemma decode4_returns (h20 : 20≤b.length) (hb : q.b=b) (hv : q.ipVersion=4) :
    Returns (q.decode4 b) (Decoded4 b) := by
  by_cases hle : totalLen4 b≤b.length
  · exact ⟨_,decode4_eq h20 hle hb hv,decoded4_read hle⟩
  · have hcut : b.length<totalLen4 b := Nat.lt_of_not_le hle
    rw [decode4,if_neg (by rw [ip4HeaderLength]; omega),index_of_lt (by omega),uint16At_of_lt (by omega)]
    refine ⟨_,if_pos hcut,hb,hv,rfl,?_,fun h => (hle h).elim,fun h => (hle h).elim,fun h => (hle h).elim⟩
    rw [proto4,if_pos (.inl hcut)]
    rfl

lemma decoded6_read (hle : totalLen6 b≤b.length) : Decoded6 b ((q.framed6 b).read6 b) := by
  obtain ⟨ofs,hofs⟩ : ∃ ofs, ofs=if leadsFragment b then 48 else 40 := ⟨_,rfl⟩
  have hsub : SubDecoded { q.framed6 b with subofs := ofs } (proto6 b) ((q.framed6 b).read6 b) := by
    rw [proto6,read6,if_neg (Nat.not_lt.mpr hle)]
    split_ifs with hfrag h48 h0
    · obtain rfl : ofs=40 := by simp [hofs,leadsFragment,h48]
      exact ⟨.withProto _ _,rfl⟩
    · obtain rfl : ofs=48 := by simp [hofs,leadsFragment,hfrag,Nat.le_of_not_lt h48]
      obtain ⟨hsame,hproto⟩ := readOrUnknown_sub { q.framed6 b with subofs := 48, ipProto := byteAt b 40 }
        (unreadable6 (byteAt b 40) (b.length-48)) .icmpv6 (b.drop 48)
      exact ⟨⟨hsame.b,hsame.subofs,hsame.length,hsame.ipVersion,hsame.src,hsame.dst⟩,hproto⟩
    · obtain rfl : ofs=48 := by simp [hofs,leadsFragment,hfrag,Nat.le_of_not_lt h48]
      exact ⟨⟨rfl,rfl,rfl,rfl,rfl,rfl⟩,rfl⟩
    · obtain rfl : ofs=40 := by simp [hofs,leadsFragment,hfrag]
      exact readOrUnknown_sub ..
  exact ⟨hsub.1.b,hsub.1.ipVersion,hsub.1.length,hsub.2,fun _ => hsub.1.src,fun _ => hsub.1.dst,
    fun _ => hsub.1.subofs.trans hofs⟩

lemma decode6_returns (h40 : 40≤b.length) (hb : q.b=b) (hv : q.ipVersion=6) :
    Returns (q.decode6 b) (Decoded6 b) := by
  by_cases hle : totalLen6 b≤b.length
  · exact ⟨_,decode6_eq h40 hle hb hv,decoded6_read hle⟩
  · have hcut : b.length<totalLen6 b := Nat.lt_of_not_le hle
    rw [decode6,if_neg (by rw [ip6HeaderLength]; omega),index_of_lt (by omega),uint16At_of_lt (by omega)]
    refine ⟨_,if_pos hcut,hb,hv,rfl,?_,fun h => (hle h).elim,fun h => (hle h).elim,fun h => (hle h).elim⟩
    rw [proto6,if_pos hcut]
    rfl

lemma decode_returns (q : Parsed) (b : Bytes) : Returns (q.decode b) fun q' =>
    q'.b=b ∧ (Decoded4 b q' ∧ 20≤b.length ∧ byteAt b 0 >>> 4=4 ∨ Decoded6 b q' ∧ 40≤b.length ∧ byteAt b 0 >>> 4=6 ∨
      q'.ipVersion=0 ∧ q'.ipProto=.unknown ∧ ¬(20≤b.length ∧ byteAt b 0 >>> 4=4) ∧
        ¬(40≤b.length ∧ byteAt b 0 >>> 4=6)) := by
  cases b with
  | nil => exact .ok ⟨rfl,.inr (.inr ⟨rfl,rfl,by simp,by simp⟩)⟩
  | cons b0 rest =>
    have hb0 : byteAt (b0::rest) 0=b0 := rfl
    rw [hb0]
    refine Returns.ite (fun h4 => ?_) fun h4 => Returns.ite (fun h6 => ?_) fun h6 => .ok ?_
    · have h4' : b0 >>> 4=4 := h4
      by_cases hlen : 20≤(b0::rest).length
      · exact (decode4_returns hlen rfl h4).mono fun q' hq' => ⟨hq'.buffer,.inl ⟨hq',hlen,h4'⟩⟩
      · rw [decode4,if_pos (by rw [ip4HeaderLength]; omega)]
        refine .ok ⟨rfl,.inr (.inr ⟨rfl,rfl,fun h => hlen h.1,fun h => ?_⟩)⟩
        rw [h4'] at h
        cases h.2
    · have h6' : b0 >>> 4=6 := h6
      by_cases hlen : 40≤(b0::rest).length
      · exact (decode6_returns hlen rfl h6).mono fun q' hq' =>
          ⟨hq'.buffer,.inr (.inl ⟨hq',hlen,h6'⟩)⟩
      · rw [decode6,if_pos (by rw [ip6HeaderLength]; omega)]
        refine .ok ⟨rfl,.inr (.inr ⟨rfl,rfl,fun h => ?_,fun h => hlen h.1⟩)⟩
        rw [h6'] at h
        cases h.2
    · exact ⟨rfl,.inr (.inr ⟨rfl,rfl,fun h => h4 h.2,fun h => h6 h.2⟩)⟩

end Parsed

end TunnnejiTail.Packet
