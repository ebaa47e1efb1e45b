import TunnnejiTail.Packet.Outgoing

/-! Decode of what Generate returns: the protocol, the addresses, the ports, the payload and the
TSMP messages come back, as far as they are on the wire. -/
namespace TunnnejiTail.Packet
open Go Netip List IPHeader Parsed TailscaleRejectedHeader

variable {n : ℕ}

lemma toNat_ofNat_of_le (h : n≤65535) : (UInt16.ofNat n).toNat=n := by
  rw [UInt16.toNat_ofNat']
  exact Nat.mod_eq_of_lt (by omega)

section
variable {rest : Bytes}

lemma IP4Header.carries (h : IP4Header) (s d : BitVec 32) (hmax : 20+rest.length≤65535) :
    Carries4 (h.wire s d (20+rest.length)++rest) h.ipProto 0 false rest := by
  have hlen : (h.wire s d (20+rest.length)++rest).length=20+rest.length := by
    rw [length_append,h.length_wire]
  have hword : word (h.wire s d (20+rest.length)++rest) 2=UInt16.ofNat (20+rest.length) :=
    uint16Of_bytes _
  have hfrag : word (h.wire s d (20+rest.length)++rest) 6=0 := uint16Of_bytes 0
  refine ⟨rfl,by omega,?_,rfl,?_,?_,drop_left' (h.length_wire _ _ _)⟩
  · rw [totalLen4,hword,toNat_ofNat_of_le hmax,hlen]
  · rw [fragOfs4,hfrag]
    decide
  · rw [moreFrags4,hfrag]
    decide

lemma IP4Header.addrs (h : IP4Header) (s d : BitVec 32) (n : ℕ) (rest : Bytes) :
    src4 (h.wire s d n++rest)=s ∧ dst4 (h.wire s d n++rest)=d := by
  constructor
  · have hwin : window (h.wire s d n++rest) 12 4=beBytes 4 s.toNat := by
      rw [wire,bytes,append_assoc]
      exact window_between rfl (length_beBytes 4 _)
    exact (congrArg (fun v => BitVec.ofNat 32 (beNat v)) hwin).trans
      (ofNat_beNat_beBytes (by decide) s)
  · have hwin : window (h.wire s d n++rest) 16 4=beBytes 4 d.toNat := by
      exact window_between (by simp [before]) (length_beBytes 4 _)
    exact (congrArg (fun v => BitVec.ofNat 32 (beNat v)) hwin).trans
      (ofNat_beNat_beBytes (by decide) d)

lemma IP6Header.carries (h : IP6Header) (hmax : 40+rest.length≤65535) :
    Carries6 (h.bytes rest.length++rest) h.ipProto 0 false rest := by
  have hlen : (h.bytes rest.length++rest).length=40+rest.length := by
    rw [length_append,h.length_bytes]
  have hword : word (h.bytes rest.length++rest) 4=UInt16.ofNat rest.length :=
    uint16Of_bytes _
  have hfirst : byteAt (h.bytes rest.length++rest) 0=0x60 := rfl
  refine ⟨?_,by omega,?_,fun _ => ⟨rfl,drop_left' (h.length_bytes _)⟩,fun hf => ?_⟩
  · rw [hfirst]
    decide
  · rw [totalLen6,hword,toNat_ofNat_of_le (by omega),hlen,ip6HeaderLength,Nat.add_comm]
  · exact absurd hf (by decide)

lemma IP6Header.addrs (h : IP6Header) (n : ℕ) (rest : Bytes) :
    src6 (h.bytes n++rest)=h.src.as16 ∧ dst6 (h.bytes n++rest)=h.dst.as16 := by
  constructor
  · have hwin : window (h.bytes n++rest) 8 16=as16 h.src := by
      rw [bytes,append_assoc]
      exact window_between (by simp) (length_beBytes 16 _)
    exact (congrArg (fun v => BitVec.ofNat 128 (beNat v)) hwin).trans
      (ofNat_beNat_beBytes (by decide) _)
  · have hwin : window (h.bytes n++rest) 24 16=as16 h.dst := by
      rw [bytes]
      exact window_between (by simp [as16]) (length_beBytes 16 _)
    exact (congrArg (fun v => BitVec.ofNat 128 (beNat v)) hwin).trans
      (ofNat_beNat_beBytes (by decide) _)

end

/-- A Parsed with the IP header read: what is behind it is rest. -/
structure Framed (h : IPHeader) (rest : Bytes) (q : Parsed) : Prop where
  b : q.b=h.wire rest.length++rest
  length : q.length=q.b.length
  ipVersion : q.ipVersion=if h.len=20 then 4 else 6
  ipProto : q.ipProto=h.proto
  src : q.src.addr=h.src
  dst : q.dst.addr=h.dst
  subofs : q.subofs=h.len

namespace IPHeader

def icmp : IPHeader → Proto
  | v4 _ => .icmpv4
  | v6 _ => .icmpv6

lemma icmp_cases (h : IPHeader) : h.icmp=.icmpv4 ∨ h.icmp=.icmpv6 := by
  cases h with
  | v4 h => exact .inl rfl
  | v6 h => exact .inr rfl

def minBehind : IPHeader → ℕ
  | v4 h => minHeader4 h.ipProto
  | v6 h => minHeader6 h.ipProto

variable {h : IPHeader}

lemma minBehind_tsmp (ht : h.proto=.tsmp) {n : ℕ} (hn : 7≤n) : h.minBehind≤n := by
  cases h with
  | v4 h =>
    have ht : h.ipProto=.tsmp := ht
    rw [minBehind,ht]
    exact hn
  | v6 h =>
    have ht : h.ipProto=.tsmp := ht
    rw [minBehind,ht]
    exact hn

lemma decode_eq (hp : h.Plain) {rest : Bytes} (hmax : h.len+rest.length≤65535)
    (hne : h.proto≠.ip6FragHeader ∧ h.proto≠.fragment) (hmin : h.minBehind ≤ rest.length)
    (q0 : Parsed) : ∃ q, Framed h rest q ∧ q0.decode (h.wire rest.length++rest)=.ok (q.readSub h.icmp rest) := by
  cases h with
  | v4 h =>
    obtain ⟨⟨s,hs⟩,⟨d,hd⟩⟩ := hp
    have hwire : (v4 h).wire rest.length=h.wire s d (20+rest.length) := by
      rw [wire,hs,hd]
      rfl
    have hcarry := h.carries s d hmax
    have haddrs := h.addrs s d (20+rest.length) rest
    have hread : unreadable4 h.ipProto rest.length false=false := by
      have hne : h.ipProto≠.fragment := hne.2
      have hmin : ¬rest.length < minHeader4 h.ipProto := Nat.not_lt.mpr hmin
      simp [unreadable4,hne,hmin]
    have hofs : headerLen4 (h.wire s d (20+rest.length)++rest)=20 := by
      rw [headerLen4,hcarry.version]
      decide
    rw [hwire,hcarry.decode q0,hread]
    refine ⟨q0.framed4 (h.wire s d (20+rest.length)++rest),?_,rfl⟩
    refine ⟨by rw [hwire]; rfl,hcarry.length,rfl,hcarry.proto,?_,?_,hofs⟩
    · exact (congrArg Addr.v4 haddrs.1).trans hs.symm
    · exact (congrArg Addr.v4 haddrs.2).trans hd.symm
  | v6 h =>
    obtain ⟨⟨s,hs⟩,⟨d,hd⟩⟩ := hp
    have hcarry := h.carries hmax
    have haddrs := h.addrs rest.length rest
    have hread : unreadable6 h.ipProto rest.length=false := by
      have hne : h.ipProto≠.fragment := hne.2
      have hmin : ¬rest.length < minHeader6 h.ipProto := Nat.not_lt.mpr hmin
      simp [unreadable6,hne,hmin]
    rw [wire,hcarry.decode_whole (by decide) hne.1 q0,hread]
    refine ⟨q0.framed6At (h.bytes rest.length++rest) h.ipProto 40,?_,rfl⟩
    refine ⟨rfl,hcarry.length,rfl,rfl,?_,?_,rfl⟩
    · refine (congrArg (Addr.v6 · []) haddrs.1).trans ?_
      rw [src,hs]
      rfl
    · refine (congrArg (Addr.v6 · []) haddrs.2).trans ?_
      rw [dst,hd]
      rfl

end IPHeader

variable {q : Parsed} {rest : Bytes}

lemma payload_of_dataofs {front : Bytes} {k : ℕ} (hb : q.b=front++rest)
    (hlen : q.length=q.b.length) (hk : k ≤ rest.length) (hofs : q.dataofs=front.length+k) :
    q.payload=.ok (rest.drop k) := by
  have hall : q.b.length=front.length+rest.length := by
    rw [hb,length_append]
  rw [Parsed.payload,if_neg (by omega),slice_of_le (by omega) (by omega),hlen,take_length,hb,
    hofs,drop_length_add_append]

namespace Framed
variable {h : IPHeader} {rest : Bytes} {q : Parsed} (hq : Framed h rest q)
include hq

lemma payload {q' : Parsed} (hsame : Same q q') {k : ℕ} (hk : k ≤ rest.length)
    (hofs : q'.dataofs=q.subofs+k) : q'.payload=.ok (rest.drop k) := by
  refine payload_of_dataofs (hsame.b.trans hq.b) (by rw [hsame.length,hsame.b,hq.length]) hk ?_
  rw [hofs,hq.subofs,h.length_wire]

variable {c : UInt16} {payload : Bytes}

lemma udp {srcPort dstPort : UInt16} {n : ℕ} (hudp : h.proto=.udp)
    (hrest : rest=udpBytes srcPort dstPort n c++payload) : (q.readSub h.icmp rest).ipProto=.udp ∧
      (q.readSub h.icmp rest).src=⟨h.src,srcPort⟩ ∧ (q.readSub h.icmp rest).dst=⟨h.dst,dstPort⟩ ∧
      (q.readSub h.icmp rest).payload=.ok payload := by
  have hproto : q.ipProto=.udp := hq.ipProto.trans hudp
  have hicmp : q.ipProto≠h.icmp := by
    rw [hproto]
    obtain hi | hi := h.icmp_cases <;> rw [hi] <;> decide
  have htcp : q.ipProto≠.tcp := by
    rw [hproto]
    decide
  have hlen : 8 ≤ rest.length := by
    rw [hrest,length_append,length_udpBytes]
    exact Nat.le_add_right ..
  have hpayload := hq.payload (q.readSub_same h.icmp rest) hlen
  have hread : q.readSub h.icmp rest = { q.withWords rest with dataofs := q.subofs+8 } := by
    rw [readSub,if_neg hicmp,if_neg htcp,if_pos hproto]
  rw [hread] at hpayload ⊢
  have hsrc : word rest 0=srcPort := by
    rw [hrest]
    exact uint16Of_bytes srcPort
  have hdst : word rest 2=dstPort := by
    rw [hrest]
    exact uint16Of_bytes dstPort
  refine ⟨hproto,?_,?_,?_⟩
  · rw [← hq.src,← hsrc]
    rfl
  · rw [← hq.dst,← hdst]
    rfl
  · rw [hpayload rfl,hrest,drop_left' (length_udpBytes _ _ _ _)]

lemma icmp {t code : UInt8} (hicmp : h.proto=h.icmp)
    (hrest : rest=icmpBytes t code c++payload) : (q.readSub h.icmp rest).ipProto=h.icmp ∧
      (q.readSub h.icmp rest).src=⟨h.src,0⟩ ∧ (q.readSub h.icmp rest).dst=⟨h.dst,0⟩ ∧
      (q.readSub h.icmp rest).payload=.ok payload := by
  have hproto : q.ipProto=h.icmp := hq.ipProto.trans hicmp
  have hlen : 4 ≤ rest.length := by
    rw [hrest,length_append,length_icmpBytes]
    exact Nat.le_add_right ..
  have hpayload := hq.payload (q.readSub_same h.icmp rest) hlen
  have hread : q.readSub h.icmp rest = { q with
      src := withPort q.src 0
      dst := withPort q.dst 0
      dataofs := q.subofs+4 } := by
    rw [readSub,if_pos hproto]
  rw [hread] at hpayload ⊢
  refine ⟨hproto,?_,?_,?_⟩
  · rw [← hq.src]
    rfl
  · rw [← hq.dst]
    rfl
  · rw [hpayload rfl,hrest,drop_left' (length_icmpBytes _ _ _)]

lemma tsmp (htsmp : h.proto=.tsmp) :
    (q.readSub h.icmp rest).ipProto=.tsmp ∧ (q.readSub h.icmp rest).src.addr=h.src ∧
      (q.readSub h.icmp rest).dst.addr=h.dst ∧ (q.readSub h.icmp rest).payload=.ok rest := by
  have hproto : q.ipProto=.tsmp := hq.ipProto.trans htsmp
  have hsame := q.readSub_same h.icmp rest
  have hpayload := hq.payload hsame (Nat.zero_le _)
  have hicmp : q.ipProto≠h.icmp := by
    rw [hproto]
    obtain hi | hi := h.icmp_cases <;> rw [hi] <;> decide
  have hread : q.readSub h.icmp rest = { q with dataofs := q.subofs } := by
    rw [readSub,if_neg hicmp,hproto]
    rfl
  refine ⟨(q.readSub_ipProto _ _).trans hproto,hsame.src.trans hq.src,hsame.dst.trans hq.dst,?_⟩
  exact hpayload (by rw [hread,Nat.add_zero])

end Framed

namespace Parsed

variable {q : Parsed}

lemma asTSMP_eq {t : UInt8} {p : Bytes} (hp : q.payload=.ok p)
    (ht : byteAt p 0=t) {n : ℕ} (hn : n≤p.length) (hpos : 0<n) : q.asTSMP t n=.ok (some p) := by
  rw [asTSMP]
  refine bind_of_ok hp ?_
  rw [if_neg (by omega)]
  refine bind_of_ok (index_of_lt (by omega)) ?_
  rw [ht,if_neg (by simp)]
  rfl

lemma asTSMPPong_eq (hproto : q.ipProto=.tsmp) {h : TSMPPongReply}
    (hdata : h.data.length=8) (hp : q.payload=.ok h.message) :
    q.asTSMPPong=.ok (some (h.data,h.peerAPIPort)) := by
  have hlen : h.message.length=11 := by
    simp [TSMPPongReply.message,hdata]
  have hslice : slice h.message 1 9=.ok h.data := by
    rw [slice_of_le (by omega) (by omega)]
    exact congrArg Except.ok (window_between (a := [tsmpTypePong]) rfl hdata)
  have hword : word h.message 9=h.peerAPIPort := by
    have hwin : window h.message 9 2=uint16Bytes h.peerAPIPort := by
      rw [TSMPPongReply.message,← append_nil ([tsmpTypePong]++h.data++uint16Bytes h.peerAPIPort)]
      exact window_between (by simp [hdata]) (length_uint16Bytes _)
    rw [← UInt16.toNat_inj,← onesSum_uint16Bytes,← window_two (by omega),hwin,onesSum_uint16Bytes]
  have hport : pongPort h.message=.ok h.peerAPIPort := by
    rw [pongPort,if_pos (by omega),uint16At_of_lt (by omega)]
    exact congrArg Except.ok hword
  rw [asTSMPPong,if_neg (by simp [hproto])]
  refine bind_of_ok (asTSMP_eq hp rfl (by omega) (by omega)) ?_
  exact bind_of_ok hslice (bind_of_ok hport rfl)

/-- What AsTailscaleRejectedHeader makes of a message: the flow is that of the packet, turned
round. -/
theorem asTailscaleRejectedHeader_eq {h : TailscaleRejectedHeader}
    (hp : q.payload=.ok h.message) : q.asTailscaleRejectedHeader=.ok (some { h with
      ipSrc := q.src.addr
      ipDst := q.dst.addr
      src := ⟨q.dst.addr,h.src.port⟩
      dst := ⟨q.src.addr,h.dst.port⟩ }) := by
  have hlen : 7≤h.message.length := by
    rw [h.length_message]
    exact Nat.le_add_right ..
  have hsrc : uint16At h.message 3=.ok h.src.port := by
    exact congrArg Except.ok (uint16Of_bytes _)
  have hdst : uint16At h.message 5=.ok h.dst.port := by
    exact congrArg Except.ok (uint16Of_bytes _)
  have hflags : rejectFlags h.message=.ok (if h.maybeBroken then 1 else 0) := by
    cases hb : h.maybeBroken with
    | true =>
      have h8 : h.message.length=8 := by
        rw [h.length_message,hb]
        rfl
      rw [rejectFlags,if_pos (by omega),index_of_lt (by omega),TailscaleRejectedHeader.message,hb]
      rfl
    | false =>
      have h7 : h.message.length=7 := by
        rw [h.length_message,hb]
        rfl
      rw [rejectFlags,if_neg (by omega)]
      rfl
  rw [asTailscaleRejectedHeader]
  refine bind_of_ok (asTSMP_eq hp rfl hlen (by omega)) ?_
  refine bind_of_ok (index_of_lt (by omega)) ?_
  refine bind_of_ok (index_of_lt (by omega)) ?_
  refine bind_of_ok hsrc (bind_of_ok hdst (bind_of_ok hflags ?_))
  have hbroken : decide ((if h.maybeBroken then (1 : UInt8) else 0) &&& 1≠0)=h.maybeBroken := by
    cases h.maybeBroken <;> decide
  rw [hbroken]
  rfl

lemma asTSMPDiscoAdvertisement_eq (hproto : q.ipProto=.tsmp)
    {ka : TSMPDiscoKeyAdvertisement} (hkey : ka.key.length=32) (hp : q.payload=.ok ka.message) :
    q.asTSMPDiscoAdvertisement=.ok (some ⟨q.src.addr,q.dst.addr,ka.key⟩) := by
  have hlen : ka.message.length=33 := by
    rw [TSMPDiscoKeyAdvertisement.message,length_append,hkey]
    rfl
  have hslice : slice ka.message 1 33=.ok ka.key := by
    rw [slice_of_le (by omega) (by omega),← hlen,take_length]
    rfl
  rw [asTSMPDiscoAdvertisement,if_neg (by simp [hproto])]
  refine bind_of_ok (asTSMP_eq hp rfl (by omega) (by omega)) ?_
  exact bind_of_ok hslice rfl

end Parsed

namespace Outgoing

/-- What is on the wire: addresses of the family, without zones, a packet that fits, and a
rejection of the flow that the packet answers. -/
def Recoverable : Outgoing → Prop
  | udp4 h payload => Plain4 h.ip.src ∧ Plain4 h.ip.dst ∧ 28+payload.length≤65535
  | udp6 h payload => Plain6 h.ip.src ∧ Plain6 h.ip.dst ∧ 48+payload.length≤65535
  | icmp4 h payload => Plain4 h.ip.src ∧ Plain4 h.ip.dst ∧ 24+payload.length≤65535
  | icmp6 h payload => Plain6 h.ip.src ∧ Plain6 h.ip.dst ∧ 44+payload.length≤65535
  | pong h => h.ipHeader.Plain ∧ h.ipHeader.proto=.tsmp ∧ h.data.length=8
  | rejected h => h.OneFamily ∧ h.src.addr=h.ipDst ∧ h.dst.addr=h.ipSrc
  | disco ka => ka.ipHeader.Plain ∧ ka.key.length=32

/-- The Parsed has what was put into the packet. -/
def ReadBack : Outgoing → Parsed → Prop
  | udp4 h payload,q => q.ipVersion=4 ∧ q.ipProto=.udp ∧ q.src=⟨h.ip.src,h.srcPort⟩ ∧
    q.dst=⟨h.ip.dst,h.dstPort⟩ ∧ q.payload=.ok payload
  | udp6 h payload,q => q.ipVersion=6 ∧ q.ipProto=.udp ∧ q.src=⟨h.ip.src,h.srcPort⟩ ∧
    q.dst=⟨h.ip.dst,h.dstPort⟩ ∧ q.payload=.ok payload
  | icmp4 h payload,q => q.ipVersion=4 ∧ q.ipProto=.icmpv4 ∧ q.src=⟨h.ip.src,0⟩ ∧
    q.dst=⟨h.ip.dst,0⟩ ∧ q.payload=.ok payload
  | icmp6 h payload,q => q.ipVersion=6 ∧ q.ipProto=.icmpv6 ∧ q.src=⟨h.ip.src,0⟩ ∧
    q.dst=⟨h.ip.dst,0⟩ ∧ q.payload=.ok payload
  | pong h,q => q.ipProto=.tsmp ∧ q.src.addr=h.ipHeader.src ∧ q.dst.addr=h.ipHeader.dst ∧
    q.asTSMPPong=.ok (some (h.data,h.peerAPIPort))
  | rejected h,q => q.ipProto=.tsmp ∧ q.src.addr=h.ipSrc ∧ q.dst.addr=h.ipDst ∧ q.asTailscaleRejectedHeader=.ok (some h)
  | disco ka,q => q.ipProto=.tsmp ∧ q.src.addr=ka.src ∧ q.dst.addr=ka.dst ∧ q.asTSMPDiscoAdvertisement=.ok (some ka)

end Outgoing

variable {h : IPHeader}

lemma IPHeader.exists_decode {e : Except Fault Bytes}
    (he : e=.ok (h.wire n++rest)) (hn : rest.length=n) (hp : h.Plain) (hmax : h.len+n≤65535)
    {p : Proto} (hproto : h.proto=p) (hne : p≠.ip6FragHeader ∧ p≠.fragment) (hmin : h.minBehind≤n)
    (q0 : Parsed) {P : Parsed → Prop} (hread : ∀ q, Framed h rest q → P (q.readSub h.icmp rest)) :
    ∃ b q, e=.ok b ∧ q0.decode b=.ok q ∧ P q := by
  subst hn hproto
  obtain ⟨q,hq,hdec⟩ := decode_eq hp hmax hne hmin q0
  exact ⟨_,_,he,hdec,hread q hq⟩

lemma Framed.version (hq : Framed h rest q) :
    (q.readSub h.icmp rest).ipVersion=if h.len=20 then 4 else 6 :=
  (q.readSub_same h.icmp rest).ipVersion.trans hq.ipVersion

section
variable (q0 : Parsed) {payload : Bytes}

lemma UDP4Header.recovered {h : UDP4Header} (hr : (Outgoing.udp4 h payload).Recoverable) :
    ∃ b q, (Outgoing.udp4 h payload).generate=.ok b ∧ q0.decode b=.ok q ∧ (Outgoing.udp4 h payload).ReadBack q := by
  obtain ⟨hs,hd,hmax⟩ := hr
  have hgen := h.generate_eq hmax hs.eq_addrBits4 hd.eq_addrBits4
  rw [Nat.add_assoc 20 8] at hgen
  refine exists_decode (h := .v4 (h.ip.withProto .udp)) hgen ?_ ⟨hs,hd⟩ ?_ (p := .udp) rfl (by decide) ?_ q0
    fun q hq => ⟨hq.version,hq.udp rfl rfl⟩
  · rw [length_append,length_udpBytes]
  · rw [← Nat.add_assoc]
    exact hmax
  · exact Nat.le_add_right 8 _

lemma UDP6Header.recovered {h : UDP6Header} (hr : (Outgoing.udp6 h payload).Recoverable) :
    ∃ b q, (Outgoing.udp6 h payload).generate=.ok b ∧ q0.decode b=.ok q ∧ (Outgoing.udp6 h payload).ReadBack q := by
  obtain ⟨hs,hd,hmax⟩ := hr
  refine exists_decode (h := .v6 (h.ip.withProto .udp)) (h.generate_eq hmax) ?_ ⟨hs,hd⟩ ?_
    (p := .udp) rfl (by decide) ?_ q0 fun q hq => ⟨hq.version,hq.udp rfl rfl⟩
  · rw [length_append,length_udpBytes]
  · rw [← Nat.add_assoc]
    exact hmax
  · exact Nat.le_add_right 8 _

lemma ICMP4Header.recovered {h : ICMP4Header} (hr : (Outgoing.icmp4 h payload).Recoverable) :
    ∃ b q, (Outgoing.icmp4 h payload).generate=.ok b ∧ q0.decode b=.ok q ∧ (Outgoing.icmp4 h payload).ReadBack q := by
  obtain ⟨hs,hd,hmax⟩ := hr
  have hgen := h.generate_eq hmax hs.eq_addrBits4 hd.eq_addrBits4
  rw [Nat.add_assoc 20 4] at hgen
  refine exists_decode (h := .v4 (h.ip.withProto .icmpv4)) hgen ?_ ⟨hs,hd⟩ ?_ (p := .icmpv4) rfl (by decide) ?_ q0
    fun q hq => ⟨hq.version,hq.icmp rfl rfl⟩
  · rw [length_append,length_icmpBytes]
  · rw [← Nat.add_assoc]
    exact hmax
  · exact Nat.le_add_right 4 _

lemma ICMP6Header.recovered {h : ICMP6Header} (hr : (Outgoing.icmp6 h payload).Recoverable) :
    ∃ b q, (Outgoing.icmp6 h payload).generate=.ok b ∧ q0.decode b=.ok q ∧ (Outgoing.icmp6 h payload).ReadBack q := by
  obtain ⟨hs,hd,hmax⟩ := hr
  refine exists_decode (h := .v6 (h.ip.withProto .icmpv6)) (h.generate_eq hmax) ?_ ⟨hs,hd⟩ ?_
    (p := .icmpv6) rfl (by decide) ?_ q0 fun q hq => ⟨hq.version,hq.icmp rfl rfl⟩
  · rw [length_append,length_icmpBytes]
  · rw [← Nat.add_assoc]
    exact hmax
  · exact Nat.le_add_right 4 _

lemma TSMPPongReply.recovered {h : TSMPPongReply} (hr : (Outgoing.pong h).Recoverable) :
    ∃ b q, (Outgoing.pong h).generate=.ok b ∧ q0.decode b=.ok q ∧ (Outgoing.pong h).ReadBack q := by
  obtain ⟨hp,htsmp,hdata⟩ := hr
  have hlen := h.ipHeader.len_le
  refine exists_decode (h.generate_eq hp hdata) ?_ hp (by omega) htsmp (by decide)
    (IPHeader.minBehind_tsmp htsmp (by decide)) q0 fun q hq => ?_
  · simp [message,hdata]
  · obtain ⟨hproto,hsrc,hdst,hpayload⟩ := hq.tsmp htsmp
    exact ⟨hproto,hsrc,hdst,Parsed.asTSMPPong_eq hproto hdata hpayload⟩

lemma TailscaleRejectedHeader.recovered {h : TailscaleRejectedHeader} (hfam : h.OneFamily) :
    ∃ b q, (Outgoing.rejected h).generate=.ok b ∧ q0.decode b=.ok q ∧ q.ipProto=.tsmp ∧
      q.src.addr=h.ipSrc ∧ q.dst.addr=h.ipDst ∧ q.asTailscaleRejectedHeader=.ok (some { h with
        src := ⟨h.ipDst,h.src.port⟩
        dst := ⟨h.ipSrc,h.dst.port⟩ }) := by
  have hflag : (if h.maybeBroken then 1 else 0)≤1 := by
    cases h.maybeBroken <;> decide
  have hlen := h.ipHeader.len_le
  have hmessage := h.length_message
  obtain ⟨htsmp,hs,hd⟩ : h.ipHeader.proto=.tsmp ∧ h.ipHeader.src=h.ipSrc ∧ h.ipHeader.dst=h.ipDst := by
    rw [ipHeader]
    split_ifs
    · exact ⟨rfl,rfl,rfl⟩
    · exact ⟨rfl,rfl,rfl⟩
  refine exists_decode (generate_eq hfam) rfl (plain_ipHeader hfam) (by omega) htsmp
    (by decide) (IPHeader.minBehind_tsmp htsmp (by omega)) q0 fun q hq => ?_
  obtain ⟨hproto,hsrc,hdst,hpayload⟩ := hq.tsmp htsmp
  have hback := Parsed.asTailscaleRejectedHeader_eq hpayload
  rw [hsrc,hdst,hs,hd] at hback
  exact ⟨hproto,hsrc.trans hs,hdst.trans hd,hback⟩

lemma TSMPDiscoKeyAdvertisement.recovered {ka : TSMPDiscoKeyAdvertisement}
    (hr : (Outgoing.disco ka).Recoverable) : ∃ b q, (Outgoing.disco ka).generate=.ok b ∧
      q0.decode b=.ok q ∧ (Outgoing.disco ka).ReadBack q := by
  obtain ⟨hp,hkey⟩ := hr
  have hlen := ka.ipHeader.len_le
  have hmessage : ka.message.length=33 := by
    rw [message,length_append,hkey]
    rfl
  obtain ⟨htsmp,hs,hd⟩ : ka.ipHeader.proto=.tsmp ∧ ka.ipHeader.src=ka.src ∧ ka.ipHeader.dst=ka.dst := by
    rw [ipHeader]
    split_ifs
    · exact ⟨rfl,rfl,rfl⟩
    · exact ⟨rfl,rfl,rfl⟩
  refine exists_decode (generate_eq hp hkey) rfl hp (by omega) htsmp (by decide)
    (IPHeader.minBehind_tsmp htsmp (by omega)) q0 fun q hq => ?_
  obtain ⟨hproto,hsrc,hdst,hpayload⟩ := hq.tsmp htsmp
  have hback := Parsed.asTSMPDiscoAdvertisement_eq hproto hkey hpayload
  rw [hsrc,hdst,hs,hd] at hback
  exact ⟨hproto,hsrc.trans hs,hdst.trans hd,hback⟩

end

/-- Decode of what Generate returns has what was put in, whatever the Parsed held before. -/
theorem generated_recovered {o : Outgoing} (h : o.Recoverable) (q0 : Parsed) :
    ∃ b q, o.generate=.ok b ∧ q0.decode b=.ok q ∧ o.ReadBack q := by
  cases o with
  | udp4 h' payload => exact UDP4Header.recovered q0 h
  | udp6 h' payload => exact UDP6Header.recovered q0 h
  | icmp4 h' payload => exact ICMP4Header.recovered q0 h
  | icmp6 h' payload => exact ICMP6Header.recovered q0 h
  | pong h' => exact TSMPPongReply.recovered q0 h
  | rejected h' =>
    obtain ⟨hfam,hsrc,hdst⟩ := h
    obtain ⟨b,q,hgen,hdec,hproto,hs,hd,hback⟩ := TailscaleRejectedHeader.recovered q0 hfam
    refine ⟨b,q,hgen,hdec,hproto,hs,hd,hback.trans (congrArg (Except.ok ∘ some) ?_)⟩
    obtain ⟨ipSrc,ipDst,⟨srcAddr,srcPort⟩,⟨dstAddr,dstPort⟩,proto,reason,maybeBroken⟩ := h'
    cases hsrc
    cases hdst
    rfl
  | disco ka => exact TSMPDiscoKeyAdvertisement.recovered q0 h

/-- A rejection of a flow from 100.64.0.2 to 100.64.0.1, sent back from there. -/
def someRejection (src : AddrPort) : TailscaleRejectedHeader :=
  { ipSrc := .v4 0x64400001
    ipDst := .v4 0x64400002
    src := src
    dst := ⟨.v4 0x64400001,22⟩
    proto := .tcp
    reason := rejectedDueToACLs }

theorem generated_recovered_rejection :
    ∃ b q, (Outgoing.rejected (someRejection ⟨.v4 0x64400002,4000⟩)).generate=.ok b ∧ Parsed.decode {} b=.ok q ∧
      q.asTailscaleRejectedHeader=.ok (some (someRejection ⟨.v4 0x64400002,4000⟩)) := by
  have hr : (Outgoing.rejected (someRejection ⟨.v4 0x64400002,4000⟩)).Recoverable :=
    ⟨.inl ⟨⟨_,rfl⟩,⟨_,rfl⟩,⟨_,rfl⟩⟩,rfl,rfl⟩
  obtain ⟨b,q,hgen,hdec,-,-,-,hback⟩ := generated_recovered hr {}
  exact ⟨b,q,hgen,hdec,hback⟩

/-- A rejected flow from another address than the one the packet goes to comes back with that. -/
theorem rejected_flow_not_recovered :
    ∃ b q r, (Outgoing.rejected (someRejection ⟨.v4 0x0a000001,4000⟩)).generate=.ok b ∧
      Parsed.decode {} b=.ok q ∧ q.asTailscaleRejectedHeader=.ok (some r) ∧
      r≠someRejection ⟨.v4 0x0a000001,4000⟩ ∧ r.src=⟨.v4 0x64400002,4000⟩ := by
  have hfam : (someRejection ⟨.v4 0x0a000001,4000⟩).OneFamily := .inl ⟨⟨_,rfl⟩,⟨_,rfl⟩,⟨_,rfl⟩⟩
  obtain ⟨b,q,hgen,hdec,-,-,-,hback⟩ := TailscaleRejectedHeader.recovered {} hfam
  exact ⟨b,q,_,hgen,hdec,hback,by decide,rfl⟩

end TunnnejiTail.Packet
