import TunnnejiTail.Packet.Marshal

/-! The whole packets that Generate returns for the headers of the package, and for a disco key
advertisement. -/
namespace TunnnejiTail.Packet
open Go Netip List

namespace TSMPDiscoKeyAdvertisement

def ipHeader (ka : TSMPDiscoKeyAdvertisement) : IPHeader :=
  if ka.src.is4 then .v4 ⟨.tsmp,0,ka.src,ka.dst⟩ else .v6 ⟨.tsmp,0,ka.src,ka.dst⟩

/-- Marshal of a disco key advertisement, which returns a whole packet. -/
def marshal (ka : TSMPDiscoKeyAdvertisement) : Except Fault Bytes :=
  generate ka.ipHeader.len ka.ipHeader.marshal .ok ([tsmpTypeDiscoAdvertisement]++ka.key)

end TSMPDiscoKeyAdvertisement

/-- A packet to send: a header with a payload, or a TSMP message. -/
inductive Outgoing
  | udp4 (h : UDP4Header) (payload : Bytes)
  | udp6 (h : UDP6Header) (payload : Bytes)
  | icmp4 (h : ICMP4Header) (payload : Bytes)
  | icmp6 (h : ICMP6Header) (payload : Bytes)
  | pong (h : TSMPPongReply)
  | rejected (h : TailscaleRejectedHeader)
  | disco (ka : TSMPDiscoKeyAdvertisement)

namespace Outgoing

/-- Generate, with the checksum that only ICMP6Header writes afterwards. -/
def generate : Outgoing → Except Fault Bytes
  | udp4 h payload => Packet.generate UDP4Header.len h.marshal .ok payload
  | udp6 h payload => Packet.generate UDP6Header.len h.marshal .ok payload
  | icmp4 h payload => Packet.generate ICMP4Header.len h.marshal .ok payload
  | icmp6 h payload => Packet.generate ICMP6Header.len h.marshal h.writeChecksum payload
  | pong h => Packet.generate h.len h.marshal .ok []
  | rejected h => Packet.generate h.len h.marshal .ok []
  | disco ka => ka.marshal

end Outgoing

lemma generate_eq {n : ℕ} {marshal : Bytes → Except Fault Marshaled}
    {writeChecksum : Bytes → Except Fault Bytes} {payload b : Bytes} {e : Option MarshalError}
    (h : marshal (replicate n 0++payload)=.ok (b,e)) :
    generate n marshal writeChecksum payload=writeChecksum b :=
  bind_of_ok h rfl

lemma checkLength_replicate {n : ℕ} {payload : Bytes} (hmax : n+payload.length≤65535)
    (k : Except Fault Marshaled) : checkLength n (replicate n 0++payload) k=k := by
  refine checkLength_of_le ?_ ?_ k
  · rw [length_append,length_replicate]
    exact Nat.le_add_right ..
  · rwa [length_append,length_replicate]

section
variable {payload : Bytes} {s d : BitVec 32}

lemma UDP4Header.generate_eq {h : UDP4Header} (hmax : 28+payload.length≤65535)
    (hs : h.ip.src=.v4 s) (hd : h.ip.dst=.v4 d) : (Outgoing.udp4 h payload).generate =
      .ok ((h.ip.withProto .udp).wire s d (28+payload.length) ++
        (udpBytes h.srcPort h.dstPort (8+payload.length) (h.sum s d payload)++payload)) :=
  Packet.generate_eq (h.marshal_eq length_replicate hmax hs hd)

lemma UDP6Header.generate_eq {h : UDP6Header} (hmax : 48+payload.length≤65535) :
    (Outgoing.udp6 h payload).generate = .ok ((h.ip.withProto .udp).bytes (8+payload.length) ++
        (udpBytes h.srcPort h.dstPort (8+payload.length) (h.sum payload)++payload)) :=
  Packet.generate_eq (h.marshal_eq length_replicate hmax)

def icmpBytes (t code : UInt8) (c : UInt16) : Bytes := [t]++[code]++uint16Bytes c

@[simp] lemma length_icmpBytes (t code : UInt8) (c : UInt16) : (icmpBytes t code c).length=4 := rfl

def ICMP4Header.sum (h : ICMP4Header) (s d : BitVec 32) (payload : Bytes) : UInt16 :=
  ip4Checksum ((h.ip.withProto .icmpv4).wire s d (24+payload.length) ++ (icmpBytes h.icmpType h.code 0++payload))

def ICMP6Header.sum (h : ICMP6Header) (payload : Bytes) : UInt16 :=
  icmp6Checksum (icmpBytes h.icmpType h.code 0) (as16 h.ip.src) (as16 h.ip.dst) payload

lemma putUint16At_icmpBytes {before after : Bytes} {ofs : ℕ} (hofs : before.length+2=ofs)
    (t code : UInt8) (c : UInt16) : putUint16At (before++(icmpBytes t code 0++after)) ofs c =
      .ok (before++(icmpBytes t code c++after)) := by
  have hsplit (w : UInt16) : before++(icmpBytes t code w++after) = before++[t,code]++uint16Bytes w++after := by
    rw [append_assoc,append_assoc]
    rfl
  rw [hsplit,hsplit]
  refine copyAt_between ?_ (length_uint16Bytes c) _ (length_uint16Bytes 0)
  rw [length_append]
  exact hofs

lemma replicate_split (m n : ℕ) (payload : Bytes) :
    replicate (m+n) 0++payload=replicate m 0++(replicate n 0++payload) := by
  rw [← append_assoc,replicate_append_replicate]

lemma ICMP4Header.generate_eq {h : ICMP4Header} (hmax : 24+payload.length≤65535)
    (hs : h.ip.src=.v4 s) (hd : h.ip.dst=.v4 d) : (Outgoing.icmp4 h payload).generate =
      .ok ((h.ip.withProto .icmpv4).wire s d (24+payload.length) ++
        (icmpBytes h.icmpType h.code (h.sum s d payload)++payload)) := by
  have hbody : (replicate 4 0++payload).length=4+payload.length := by
    rw [length_append,length_replicate]
  have hrest : (icmpBytes h.icmpType h.code 0++payload).length=4+payload.length := by
    rw [length_append,length_icmpBytes]
  have hip := IP4Header.marshal_eq (h := h.ip.withProto .icmpv4) (f := replicate 20 0)
    (r := icmpBytes h.icmpType h.code 0++payload) (by rfl) (by omega) hs hd
  rw [hrest,← Nat.add_assoc] at hip
  have hmarshal : h.marshal (replicate ICMP4Header.len 0++payload) =
      .ok ((h.ip.withProto .icmpv4).wire s d (24+payload.length) ++
        (icmpBytes h.icmpType h.code (h.sum s d payload)++payload),none) := by
    rw [marshal,checkLength_replicate (n := len) hmax,len,replicate_split]
    refine bind_of_ok (setAt_behind (i := 0) (d := []) (b := replicate 4 0++payload) (by rfl) rfl (by omega) rfl) ?_
    refine bind_of_ok (setAt_behind (i := 1) (b := replicate 4 0++payload) (by rfl) rfl (by omega) rfl) ?_
    refine bind_of_ok (a := ((h.ip.withProto .icmpv4).wire s d (24+payload.length) ++
      (icmpBytes h.icmpType h.code 0++payload),none)) hip ?_
    exact bind_of_ok (putUint16At_icmpBytes (by rw [IP4Header.length_wire]) _ _ _) rfl
  exact Packet.generate_eq hmarshal

lemma ICMP6Header.generate_eq {h : ICMP6Header} (hmax : 44+payload.length≤65535) :
    (Outgoing.icmp6 h payload).generate = .ok ((h.ip.withProto .icmpv6).bytes (4+payload.length) ++
        (icmpBytes h.icmpType h.code (h.sum payload)++payload)) := by
  have h40 := (h.ip.withProto .icmpv6).length_bytes (4+payload.length)
  have hrest : (replicate 4 0++payload).length=4+payload.length := by
    rw [length_append,length_replicate]
  have hip := IP6Header.marshal_eq (h := h.ip.withProto .icmpv6) (f := replicate 40 0)
    (r := replicate 4 0++payload) (by rfl) (by omega)
  rw [hrest] at hip
  have hmarshal : h.marshal (replicate ICMP6Header.len 0++payload) =
      .ok ((h.ip.withProto .icmpv6).bytes (4+payload.length) ++ (icmpBytes h.icmpType h.code 0++payload),none) := by
    rw [marshal,checkLength_replicate (n := len) hmax,len,replicate_split]
    refine bind_of_ok hip ?_
    have hfirst := setAt_behind (i := 0) (d := []) (b := replicate 4 0++payload)
      (x := h.icmpType) h40 rfl (by omega) rfl
    refine bind_of_ok hfirst ?_
    refine bind_of_ok (setAt_behind (i := 1) (b := replicate 4 0++payload) h40 rfl (by omega) rfl) ?_
    refine bind_of_ok (setAt_behind (i := 2) (b := replicate 4 0++payload) h40 rfl (by omega) rfl) ?_
    refine bind_of_ok (setAt_behind (i := 3) (b := replicate 4 0++payload) h40 rfl (by omega) rfl) ?_
    rfl
  have hheader : slice ((h.ip.withProto .icmpv6).bytes (4+payload.length) ++
      (icmpBytes h.icmpType h.code 0++payload)) 40 len=.ok (icmpBytes h.icmpType h.code 0) := by
    rw [slice_of_le (by decide) (by simp [len,ip6HeaderLength,icmp6HeaderLength]; omega),
      ← append_assoc,take_left' (by rw [length_append,h40,length_icmpBytes]; rfl),
      drop_left' h40]
  have hpayload : sliceFrom ((h.ip.withProto .icmpv6).bytes (4+payload.length) ++
      (icmpBytes h.icmpType h.code 0++payload)) len=.ok payload := by
    rw [← append_assoc]
    exact sliceFrom_append (by rw [length_append,h40,length_icmpBytes]; rfl)
  have hsum : h.writeChecksum ((h.ip.withProto .icmpv6).bytes (4+payload.length) ++
      (icmpBytes h.icmpType h.code 0++payload)) =
      .ok ((h.ip.withProto .icmpv6).bytes (4+payload.length) ++
        (icmpBytes h.icmpType h.code (h.sum payload)++payload)) := by
    rw [writeChecksum,hheader,hpayload]
    exact putUint16At_icmpBytes (by rw [h40]) _ _ _
  exact (Packet.generate_eq hmarshal).trans hsum

end

/-- An address as the header of its family can hold it: an IPv6 address has no zone. -/
def Plain4 (ip : Addr) : Prop := ∃ a, ip=.v4 a

def Plain6 (ip : Addr) : Prop := ∃ a, ip=.v6 a []

def addrBits4 : Addr → BitVec 32
  | .v4 a => a
  | _ => 0

lemma Plain4.eq_addrBits4 {ip : Addr} (h : Plain4 ip) : ip=.v4 (addrBits4 ip) := by
  obtain ⟨a,rfl⟩ := h
  rfl

namespace IPHeader

def proto : IPHeader → Proto
  | v4 h => h.ipProto
  | v6 h => h.ipProto

def src : IPHeader → Addr
  | v4 h => h.src
  | v6 h => h.src

def dst : IPHeader → Addr
  | v4 h => h.dst
  | v6 h => h.dst

def Plain : IPHeader → Prop
  | v4 h => Plain4 h.src ∧ Plain4 h.dst
  | v6 h => Plain6 h.src ∧ Plain6 h.dst

def wire : IPHeader → ℕ → Bytes
  | v4 h,n => h.wire (addrBits4 h.src) (addrBits4 h.dst) (20+n)
  | v6 h,n => h.bytes n

lemma len_le (h : IPHeader) : h.len≤40 := by
  cases h with
  | v4 h => exact (by decide : 20≤40)
  | v6 h => exact Nat.le_refl 40

lemma length_wire (h : IPHeader) (n : ℕ) : (h.wire n).length=h.len := by
  cases h with
  | v4 h => exact h.length_wire _ _ _
  | v6 h => exact h.length_bytes n

lemma marshal_eq {h : IPHeader} (hp : h.Plain) {f r : Bytes} (hf : f.length=h.len)
    (hmax : h.len+r.length≤65535) : h.marshal (f++r)=.ok (h.wire r.length++r,none) := by
  cases h with
  | v4 h => exact IP4Header.marshal_eq hf hmax hp.1.eq_addrBits4 hp.2.eq_addrBits4
  | v6 h => exact IP6Header.marshal_eq hf hmax

end IPHeader

def TSMPPongReply.message (h : TSMPPongReply) : Bytes :=
  [tsmpTypePong]++h.data++uint16Bytes h.peerAPIPort

lemma TSMPPongReply.generate_eq {h : TSMPPongReply} (hp : h.ipHeader.Plain) (hdata : h.data.length=8) :
    (Outgoing.pong h).generate=.ok (h.ipHeader.wire 11++h.message) := by
  have hlen := h.ipHeader.len_le
  have hw := h.ipHeader.length_wire 11
  have hip := IPHeader.marshal_eq hp (f := replicate h.ipHeader.len 0)
    (r := replicate 11 0) length_replicate (by rw [length_replicate]; omega)
  rw [length_replicate,replicate_append_replicate] at hip
  have hmarshal : h.marshal (replicate h.len 0++[]) = .ok (h.ipHeader.wire 11++h.message,none) := by
    rw [append_nil,marshal,if_neg (by rw [length_replicate]; exact Nat.lt_irrefl _)]
    refine bind_of_ok hip ?_
    have hfirst := setAt_behind (i := 0) (d := []) (b := replicate 11 0)
      (x := tsmpTypePong) hw rfl (by decide) rfl
    refine bind_of_ok hfirst ?_
    refine bind_of_ok (copyAt_behind (i := 1) (b := replicate 11 0) hw rfl hdata (by decide)
      rfl) ?_
    refine bind_of_ok (copyAt_behind (i := 9) (b := replicate 11 0) hw (by simp [hdata])
      (length_uint16Bytes _) (by decide) rfl) ?_
    have hnil : (replicate 11 (0 : UInt8)).drop (9+2)=[] := rfl
    rw [hnil,append_nil]
    rfl
  exact Packet.generate_eq hmarshal

namespace TailscaleRejectedHeader

def message (h : TailscaleRejectedHeader) : Bytes :=
  [tsmpTypeRejectedConn]++[h.proto]++[h.reason]++uint16Bytes h.src.port ++
    uint16Bytes h.dst.port++if h.maybeBroken then [1] else []

lemma writeMessage_eq {h : TailscaleRejectedHeader} {front : Bytes} {ofs : ℕ} (hf : front.length=ofs) :
    h.writeMessage ofs (front++replicate (7+if h.maybeBroken then 1 else 0) 0) = .ok (front++h.message,none) := by
  generalize hb : replicate (7+if h.maybeBroken then 1 else 0) (0 : UInt8)=b
  have hlen : b.length=7+if h.maybeBroken then 1 else 0 := by
    rw [← hb,length_replicate]
  have hfirst := setAt_behind (i := 0) (d := []) (b := b) (x := tsmpTypeRejectedConn) hf rfl
    (by omega) rfl
  rw [writeMessage]
  refine bind_of_ok hfirst ?_
  refine bind_of_ok (setAt_behind (i := 1) (b := b) hf rfl (by omega) rfl) ?_
  refine bind_of_ok (setAt_behind (i := 2) (b := b) hf rfl (by omega) rfl) ?_
  refine bind_of_ok (copyAt_behind (i := 3) (b := b) hf rfl (length_uint16Bytes _) (by omega)
    rfl) ?_
  refine bind_of_ok (copyAt_behind (i := 5) (b := b) hf rfl (length_uint16Bytes _) (by omega)
    rfl) ?_
  cases hbroken : h.maybeBroken with
  | true =>
    have h8 : b.length=8 := by
      rw [hlen,if_pos hbroken]
    have hnil : b.drop 8=[] := drop_eq_nil_of_le (by omega)
    rw [writeFlags,if_pos hbroken]
    refine bind_of_ok (setAt_behind (i := 7) (b := b) hf rfl (by omega) rfl) ?_
    rw [hnil,append_nil,message,if_pos hbroken]
    rfl
  | false =>
    have h7 : b.length=7 := by
      rw [hlen,hbroken]
      rfl
    have hnil : b.drop (5+2)=[] := drop_eq_nil_of_le (by omega)
    rw [writeFlags,hnil,append_nil,message,hbroken]
    rfl

def ipHeader (h : TailscaleRejectedHeader) : IPHeader :=
  if h.ipSrc.is4 then .v4 ⟨.tsmp,0,h.ipSrc,h.ipDst⟩ else .v6 ⟨.tsmp,0,h.ipSrc,h.ipDst⟩

lemma length_message (h : TailscaleRejectedHeader) : h.message.length=7+if h.maybeBroken then 1 else 0 := by
  rw [message,length_append]
  cases h.maybeBroken <;> rfl

def OneFamily (h : TailscaleRejectedHeader) : Prop :=
  Plain4 h.ipSrc ∧ Plain4 h.ipDst ∧ Plain4 h.src.addr ∨ Plain6 h.ipSrc ∧ Plain6 h.ipDst ∧ Plain6 h.src.addr

section
variable {h : TailscaleRejectedHeader} (hfam : h.OneFamily)
include hfam

lemma marshal_eq_ipHeader (buf : Bytes) : h.marshal buf=checkLength h.len buf
    (h.ipHeader.marshal buf >>= fun r => h.writeMessage h.ipHeader.len r.1) := by
  obtain ⟨⟨s,hs⟩,-,a,ha⟩ | ⟨⟨s,hs⟩,-,a,ha⟩ := hfam
  · rw [marshal,ipHeader,ha,hs]
    rfl
  · rw [marshal,ipHeader,ha,hs]
    rfl

lemma plain_ipHeader : h.ipHeader.Plain := by
  obtain ⟨⟨s,hs⟩,hd,-⟩ | ⟨⟨s,hs⟩,hd,-⟩ := hfam
  · rw [ipHeader,hs]
    exact ⟨⟨s,rfl⟩,hd⟩
  · rw [ipHeader,hs]
    exact ⟨⟨s,rfl⟩,hd⟩

lemma len_eq : h.len=h.ipHeader.len+(7+if h.maybeBroken then 1 else 0) := by
  obtain ⟨⟨s,hs⟩,-⟩ | ⟨⟨s,hs⟩,-⟩ := hfam
  · rw [len,ipHeader,hs,Nat.add_comm 7,Nat.add_assoc]
    rfl
  · rw [len,ipHeader,hs,Nat.add_comm 7,Nat.add_assoc]
    rfl

lemma generate_eq : (Outgoing.rejected h).generate=.ok (h.ipHeader.wire h.message.length++h.message) := by
  have hflag : (if h.maybeBroken then 1 else 0)≤1 := by
    cases h.maybeBroken <;> decide
  have hlen := h.ipHeader.len_le
  have hbound : h.ipHeader.len+(7+if h.maybeBroken then 1 else 0)≤65535 := by omega
  have hip := IPHeader.marshal_eq (plain_ipHeader hfam)
    (f := replicate h.ipHeader.len 0)
    (r := replicate (7+if h.maybeBroken then 1 else 0) 0) length_replicate
    (by rwa [length_replicate])
  rw [length_replicate] at hip
  have hmarshal : h.marshal (replicate h.len 0++[]) = .ok (h.ipHeader.wire h.message.length++h.message,none) := by
    rw [marshal_eq_ipHeader hfam,len_eq hfam,checkLength_replicate hbound,append_nil,
      ← replicate_append_replicate,h.length_message]
    refine bind_of_ok hip ?_
    exact writeMessage_eq (h.ipHeader.length_wire _)
  exact Packet.generate_eq hmarshal

end

end TailscaleRejectedHeader

def TSMPDiscoKeyAdvertisement.message (ka : TSMPDiscoKeyAdvertisement) : Bytes :=
  [tsmpTypeDiscoAdvertisement]++ka.key

lemma TSMPDiscoKeyAdvertisement.generate_eq {ka : TSMPDiscoKeyAdvertisement}
    (hp : ka.ipHeader.Plain) (hkey : ka.key.length=32) :
    (Outgoing.disco ka).generate=.ok (ka.ipHeader.wire ka.message.length++ka.message) := by
  have hlen := ka.ipHeader.len_le
  have hmessage : ka.message.length=33 := by
    rw [message,length_append,hkey]
    rfl
  have hip := IPHeader.marshal_eq hp (f := replicate ka.ipHeader.len 0)
    (r := ka.message) length_replicate (by omega)
  exact Packet.generate_eq hip

end TunnnejiTail.Packet
