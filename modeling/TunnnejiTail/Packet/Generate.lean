import TunnnejiTail.Go.Splice
import TunnnejiTail.Packet.Checksum

/-! The packets that the node makes itself: echo replies and TSMP messages. A failed Marshal
leaves the rest of the buffer as it was, and Generate does not look at its error. -/
namespace TunnnejiTail.Packet
open Go Netip List

def maxPacketLength : ℕ := 65535

inductive MarshalError
  | smallBuffer
  | largePacket
  | wrongFamily
  | bogusSrc
  deriving DecidableEq

abbrev Marshaled := Bytes × Option MarshalError

structure IP4Header where
  ipProto : Proto
  ipid : UInt16
  src : Addr
  dst : Addr
  deriving DecidableEq

structure IP6Header where
  ipProto : Proto
  ipid : UInt32
  src : Addr
  dst : Addr
  deriving DecidableEq

def checkLength (len : ℕ) (buf : Bytes) (k : Except Fault Marshaled) : Except Fault Marshaled :=
  if buf.length<len then .ok (buf,some .smallBuffer)
  else if buf.length > maxPacketLength then .ok (buf,some .largePacket)
  else k

namespace IP4Header

/-- The fields of an IPv4 header, with its checksum last. -/
def write (h : IP4Header) (buf src dst : Bytes) : Except Fault Bytes := do
  let length := buf.length
  let buf ← setAt buf 0 ((0x40 : UInt8) ||| UInt8.ofNat (ip4HeaderLength/4))
  let buf ← setAt buf 1 0
  let buf ← putUint16At buf 2 (UInt16.ofNat length)
  let buf ← putUint16At buf 4 h.ipid
  let buf ← putUint16At buf 6 0
  let buf ← setAt buf 8 64
  let buf ← setAt buf 9 h.ipProto
  let buf ← putUint16At buf 10 0
  let buf ← copyAt buf 12 src
  let buf ← copyAt buf 16 dst
  let header ← slice buf 0 20
  putUint16At buf 10 (ip4Checksum header)

def marshal (h : IP4Header) (buf : Bytes) : Except Fault Marshaled :=
  checkLength ip4HeaderLength buf <|
    if !h.src.is4 || !h.dst.is4 then .ok (buf,some .wrongFamily)
    else do
      let src ← as4 h.src
      let dst ← as4 h.dst
      let buf ← h.write buf src dst
      return (buf,none)

def toResponse (h : IP4Header) : IP4Header := { h with src := h.dst, dst := h.src, ipid := ~~~h.ipid }

end IP4Header

namespace IP6Header

def write (h : IP6Header) (buf : Bytes) : Except Fault Bytes := do
  let length := buf.length-ip6HeaderLength
  let buf ← copyAt buf 0 (beBytes 4 (h.ipid &&& 0x000FFFFF).toNat)
  let buf ← setAt buf 0 0x60
  let buf ← putUint16At buf 4 (UInt16.ofNat length)
  let buf ← setAt buf 6 h.ipProto
  let buf ← setAt buf 7 64
  let buf ← copyAt buf 8 (as16 h.src)
  copyAt buf 24 (as16 h.dst)

def marshal (h : IP6Header) (buf : Bytes) : Except Fault Marshaled :=
  checkLength ip6HeaderLength buf do
    let buf ← h.write buf
    return (buf,none)

def toResponse (h : IP6Header) : IP6Header :=
  { h with src := h.dst, dst := h.src, ipid := ~~~h.ipid &&& 0x000FFFFF }

end IP6Header

/-- Generate: the header in front of the payload, then the checksum over both. -/
def generate (len : ℕ) (marshal : Bytes → Except Fault Marshaled)
    (writeChecksum : Bytes → Except Fault Bytes) (payload : Bytes) : Except Fault Bytes := do
  let (buf,_) ← marshal (List.replicate len 0++payload)
  writeChecksum buf

structure ICMP4Header where
  ip : IP4Header
  icmpType : UInt8
  code : UInt8
  deriving DecidableEq

structure ICMP6Header where
  ip : IP6Header
  icmpType : UInt8
  code : UInt8
  deriving DecidableEq

namespace ICMP4Header

def len : ℕ := ip4HeaderLength+icmp4HeaderLength

def marshal (h : ICMP4Header) (buf : Bytes) : Except Fault Marshaled :=
  checkLength len buf do
    let buf ← setAt buf 20 h.icmpType
    let buf ← setAt buf 21 h.code
    let (buf,_) ← { h.ip with ipProto := .icmpv4 }.marshal buf
    let buf ← putUint16At buf 22 (ip4Checksum buf)
    return (buf,none)

def toResponse (h : ICMP4Header) : ICMP4Header := ⟨h.ip.toResponse,0x00,0⟩

end ICMP4Header

namespace ICMP6Header

def len : ℕ := ip6HeaderLength+icmp6HeaderLength

def marshal (h : ICMP6Header) (buf : Bytes) : Except Fault Marshaled :=
  checkLength len buf do
    let (buf,_) ← { h.ip with ipProto := .icmpv6 }.marshal buf
    let buf ← setAt buf 40 h.icmpType
    let buf ← setAt buf 41 h.code
    let buf ← setAt buf 42 0
    let buf ← setAt buf 43 0
    return (buf,none)

def toResponse (h : ICMP6Header) : ICMP6Header := ⟨h.ip.toResponse,129,0⟩

def writeChecksum (h : ICMP6Header) (p : Bytes) : Except Fault Bytes := do
  let header ← slice p 40 len
  let payload ← sliceFrom p len
  putUint16At p 42 (icmp6Checksum header (as16 h.ip.src) (as16 h.ip.dst) payload)

end ICMP6Header

namespace Parsed

def ip4Header (q : Parsed) : Except Fault IP4Header :=
  if q.ipVersion≠4 then .error .panicked
  else do
    let ipid ← uint16At q.b 4
    return ⟨q.ipProto,ipid,q.src.addr,q.dst.addr⟩

/-- The flow label of the header is the low 20 bits of its first word. -/
def ip6Header (q : Parsed) : Except Fault IP6Header :=
  if q.ipVersion≠6 then .error .panicked
  else do
    let first ← slice q.b 0 4
    return ⟨q.ipProto,UInt32.ofNat (beNat first) &&& 0x000FFFFF,q.src.addr,q.dst.addr⟩

def icmp4Header (q : Parsed) : Except Fault ICMP4Header := do
  let ip ← q.ip4Header
  let t ← index q.b q.subofs
  let code ← index q.b (q.subofs+1)
  return ⟨ip,t,code⟩

def icmp6Header (q : Parsed) : Except Fault ICMP6Header := do
  let ip ← q.ip6Header
  let t ← index q.b q.subofs
  let code ← index q.b (q.subofs+1)
  return ⟨ip,t,code⟩

end Parsed

def tsmpTypeRejectedConn : UInt8 := 0x21
def tsmpTypePing : UInt8 := 0x70
def tsmpTypePong : UInt8 := 0x6f
def tsmpTypeDiscoAdvertisement : UInt8 := 0x61

def rejectedDueToACLs : UInt8 := 0x41
def rejectedDueToShieldsUp : UInt8 := 0x53
def rejectedDueToUnknownAppConnectorTransitIP : UInt8 := 0x54

structure TSMPDiscoKeyAdvertisement where
  src : Addr
  dst : Addr
  key : Bytes
  deriving DecidableEq

structure TailscaleRejectedHeader where
  ipSrc : Addr
  ipDst : Addr
  src : AddrPort
  dst : AddrPort
  proto : Proto
  reason : UInt8
  maybeBroken : Bool := false
  deriving DecidableEq

namespace TailscaleRejectedHeader

def ipLen (ip : Addr) : ℕ := if ip.is4 then ip4HeaderLength else if ip.is6 then ip6HeaderLength else 0

def len (h : TailscaleRejectedHeader) : ℕ := 7+ipLen h.ipSrc+if h.maybeBroken then 1 else 0

def writeFlags (h : TailscaleRejectedHeader) (ofs : ℕ) (buf : Bytes) : Except Fault Bytes :=
  if h.maybeBroken then setAt buf ofs 1 else .ok buf

/-- The message, with the IP header of the given length before it. -/
def writeMessage (h : TailscaleRejectedHeader) (ofs : ℕ) (buf : Bytes) : Except Fault Marshaled := do
  let buf ← setAt buf ofs tsmpTypeRejectedConn
  let buf ← setAt buf (ofs+1) h.proto
  let buf ← setAt buf (ofs+2) h.reason
  let buf ← putUint16At buf (ofs+3) h.src.port
  let buf ← putUint16At buf (ofs+5) h.dst.port
  let buf ← h.writeFlags (ofs+7) buf
  return (buf,none)

def marshal (h : TailscaleRejectedHeader) (buf : Bytes) : Except Fault Marshaled :=
  checkLength h.len buf <|
    if h.src.addr.is4 then do
      let (buf,_) ← (⟨.tsmp,0,h.ipSrc,h.ipDst⟩ : IP4Header).marshal buf
      h.writeMessage ip4HeaderLength buf
    else if h.src.addr.is6 then do
      let (buf,_) ← (⟨.tsmp,0,h.ipSrc,h.ipDst⟩ : IP6Header).marshal buf
      h.writeMessage ip6HeaderLength buf
    else .ok (buf,some .bogusSrc)

end TailscaleRejectedHeader

inductive IPHeader
  | v4 (h : IP4Header)
  | v6 (h : IP6Header)

namespace IPHeader

def len : IPHeader → ℕ
  | v4 _ => ip4HeaderLength
  | v6 _ => ip6HeaderLength

def marshal : IPHeader → Bytes → Except Fault Marshaled
  | v4 h => h.marshal
  | v6 h => h.marshal

end IPHeader

structure TSMPPongReply where
  ipHeader : IPHeader
  data : Bytes
  peerAPIPort : UInt16

namespace TSMPPongReply

def len (h : TSMPPongReply) : ℕ := h.ipHeader.len+11

def writeMessage (h : TSMPPongReply) (buf : Bytes) : Except Fault Marshaled := do
  let buf ← setAt buf h.ipHeader.len tsmpTypePong
  let buf ← copyAt buf (h.ipHeader.len+1) h.data
  let buf ← putUint16At buf (h.ipHeader.len+9) h.peerAPIPort
  return (buf,none)

def marshal (h : TSMPPongReply) (buf : Bytes) : Except Fault Marshaled :=
  if buf.length<h.len then .ok (buf,some .smallBuffer)
  else do
    let (buf,err) ← h.ipHeader.marshal buf
    match err with
    | some e => return (buf,some e)
    | none => h.writeMessage buf

end TSMPPongReply

namespace Parsed

/-- The payload, when it is a TSMP message of the type with at least n bytes. -/
def asTSMP (q : Parsed) (t : UInt8) (n : ℕ) : Except Fault (Option Bytes) := do
  let p ← q.payload
  if p.length<n then return none
  else do
    let t' ← index p 0
    return if t'≠t then none else some p

/-- The eight bytes to copy back. -/
def asTSMPPing (q : Parsed) : Except Fault (Option Bytes) :=
  if q.ipProto≠.tsmp then .ok none
  else do
    match ← q.asTSMP tsmpTypePing 9 with
    | none => return none
    | some p => do
      let data ← slice p 1 9
      return some data

def pongPort (p : Bytes) : Except Fault UInt16 := if 11≤p.length then uint16At p 9 else .ok 0

def rejectFlags (p : Bytes) : Except Fault UInt8 := if 7<p.length then index p 7 else .ok 0

/-- The data of a pong and the port of the peer API, zero when it is not there. -/
def asTSMPPong (q : Parsed) : Except Fault (Option (Bytes × UInt16)) :=
  if q.ipProto≠.tsmp then .ok none
  else do
    match ← q.asTSMP tsmpTypePong 9 with
    | none => return none
    | some p => do
      let data ← slice p 1 9
      let port ← pongPort p
      return some (data,port)

def asTSMPDiscoAdvertisement (q : Parsed) : Except Fault (Option TSMPDiscoKeyAdvertisement) :=
  if q.ipProto≠.tsmp then .ok none
  else do
    match ← q.asTSMP tsmpTypeDiscoAdvertisement 33 with
    | none => return none
    | some p => do
      let key ← slice p 1 33
      return some ⟨q.src.addr,q.dst.addr,key⟩

def asTailscaleRejectedHeader (q : Parsed) : Except Fault (Option TailscaleRejectedHeader) := do
  match ← q.asTSMP tsmpTypeRejectedConn 7 with
  | none => return none
  | some p => do
    let proto ← index p 1
    let reason ← index p 2
    let srcPort ← uint16At p 3
    let dstPort ← uint16At p 5
    let flags ← rejectFlags p
    return some ⟨q.src.addr,q.dst.addr,⟨q.dst.addr,srcPort⟩,⟨q.src.addr,dstPort⟩,proto,reason, flags &&& 1≠0⟩

end Parsed

def KeepsLength (buf : Bytes) (r : Marshaled) : Prop := r.1.length=buf.length

variable {len : ℕ} {buf : Bytes}

lemma checkLength_returns {k : Except Fault Marshaled}
    (hk : len≤buf.length → Returns k (KeepsLength buf)) : Returns (checkLength len buf k) (KeepsLength buf) :=
  .ite (fun _ => .ok rfl) fun h => .ite (fun _ => .ok rfl) fun _ => hk (Nat.le_of_not_lt h)

lemma as4_returns {ip : Addr} (h : ip.is4) : Returns (as4 ip) fun v => v.length=4 := by
  cases ip with
  | v4 a => exact .ok (length_beBytes 4 _)
  | _ => cases h

def IP4Header.before (h : IP4Header) (n : ℕ) : Bytes :=
  [0x45,0]++uint16Bytes (UInt16.ofNat n)++uint16Bytes h.ipid++uint16Bytes 0++[64,h.ipProto]

def IP4Header.bytes (h : IP4Header) (n : ℕ) (c : UInt16) (src dst : Bytes) : Bytes :=
  h.before n++uint16Bytes c++src++dst

def IP6Header.bytes (h : IP6Header) (n : ℕ) : Bytes :=
  [0x60]++(beBytes 4 (h.ipid &&& 0x000FFFFF).toNat).drop 1++uint16Bytes (UInt16.ofNat n) ++
    [h.ipProto,64]++as16 h.src++as16 h.dst

lemma IP4Header.write_eq (h : IP4Header) {src dst : Bytes} (h20 : 20≤buf.length)
    (hs : src.length=4) (hd : dst.length=4) : h.write buf src dst =
      .ok (h.bytes buf.length (ip4Checksum (h.bytes buf.length 0 src dst)) src dst ++ buf.drop 20) := by
  have hlen (c : UInt16) : (h.bytes buf.length c src dst).length=20 := by
    simp [bytes,before,hs,hd]
  rw [write]
  refine bind_of_ok (setAt_next (i := 0) (b := buf) (d := []) rfl (by omega)) ?_
  refine bind_of_ok (setAt_next (b := buf) (by rfl) (by omega)) ?_
  refine bind_of_ok (copyAt_next (b := buf) (by rfl) (length_uint16Bytes _) (by omega)) ?_
  refine bind_of_ok (copyAt_next (b := buf) (by rfl) (length_uint16Bytes _) (by omega)) ?_
  refine bind_of_ok (copyAt_next (b := buf) (by rfl) (length_uint16Bytes _) (by omega)) ?_
  refine bind_of_ok (setAt_next (b := buf) (by rfl) (by omega)) ?_
  refine bind_of_ok (setAt_next (b := buf) (by rfl) (by omega)) ?_
  refine bind_of_ok (copyAt_next (b := buf) (by rfl) (length_uint16Bytes _) (by omega)) ?_
  refine bind_of_ok (copyAt_next (b := buf) (by rfl) hs (by omega)) ?_
  refine bind_of_ok (copyAt_next (b := buf) (by simp [hs]) hd (by omega)) ?_
  have hslice : slice (h.bytes buf.length 0 src dst++buf.drop 20) 0 20 = .ok (h.bytes buf.length 0 src dst) := by
    rw [slice_of_le (by omega) (by rw [length_append,hlen]; omega),drop_zero, take_left' (hlen 0)]
  refine bind_of_ok hslice ?_
  have hsplit (c : UInt16) : h.bytes buf.length c src dst++buf.drop 20 =
      h.before buf.length++uint16Bytes c++(src++dst++buf.drop 20) := by
    simp only [bytes,append_assoc]
  rw [hsplit]
  refine (?_ : copyAt (h.bytes buf.length 0 src dst++buf.drop 20) 10 _=_)
  rw [hsplit]
  exact copyAt_between rfl (length_uint16Bytes _) _ (length_uint16Bytes 0)

lemma IP6Header.write_eq (h : IP6Header) (h40 : 40≤buf.length) :
    h.write buf=.ok (h.bytes (buf.length-40)++buf.drop 40) := by
  have h16 (ip : Addr) : (as16 ip).length=16 := length_beBytes 16 _
  have h4 := length_beBytes 4 (h.ipid &&& 0x000FFFFF).toNat
  obtain ⟨x,rest,hid⟩ := exists_cons_of_length_pos
    (by omega : 0<(beBytes 4 (h.ipid &&& 0x000FFFFF).toNat).length)
  have h3 : rest.length=3 := by
    rw [hid,length_cons] at h4
    omega
  have hcopy : copyAt buf 0 (x::rest)=.ok (([]++(x::rest))++buf.drop (0+4)) :=
    copyAt_next (i := 0) (d := []) rfl (by rw [length_cons,h3]) (by omega)
  have hset : setAt ((x::rest)++buf.drop 4) 0 0x60=.ok (([0x60]++rest)++buf.drop 4) :=
    if_pos (by simp)
  rw [write,bytes,hid]
  refine bind_of_ok hcopy (bind_of_ok hset ?_)
  refine bind_of_ok (copyAt_next (b := buf) (by simp [h3]) (length_uint16Bytes _) (by omega)) ?_
  refine bind_of_ok (setAt_next (b := buf) (by simp [h3]) (by omega)) ?_
  refine bind_of_ok (setAt_next (b := buf) (by simp [h3]) (by omega)) ?_
  refine bind_of_ok (copyAt_next (b := buf) (by simp [h3]) (h16 _) (by omega)) ?_
  refine (copyAt_next (b := buf) (by simp [h3,h16]) (h16 _) (by omega)).trans ?_
  simp [ip6HeaderLength]

@[simp] lemma IP6Header.length_bytes (h : IP6Header) (n : ℕ) : (h.bytes n).length=40 := by
  simp [bytes,as16]

lemma IP4Header.marshal_returns (h : IP4Header) (buf : Bytes) :
    Returns (h.marshal buf) (KeepsLength buf) := by
  refine checkLength_returns fun h20 => .ite (fun _ => .ok rfl) fun hf => ?_
  have hf' : h.src.is4 ∧ h.dst.is4 := by simpa using hf
  refine (as4_returns hf'.1).bind fun src hs => ?_
  refine (as4_returns hf'.2).bind fun dst hd => ?_
  have hlen : 20≤buf.length := h20
  refine ⟨_,bind_of_ok (h.write_eq hlen hs hd) rfl,?_⟩
  simp [KeepsLength,bytes,before,hs,hd]
  omega

lemma IP6Header.marshal_returns (h : IP6Header) (buf : Bytes) :
    Returns (h.marshal buf) (KeepsLength buf) := by
  refine checkLength_returns fun h40 => ?_
  have hlen : 40≤buf.length := h40
  refine ⟨_,bind_of_ok (h.write_eq hlen) rfl,?_⟩
  simp [KeepsLength]
  omega

lemma ICMP4Header.marshal_returns (h : ICMP4Header) (buf : Bytes) :
    Returns (h.marshal buf) (KeepsLength buf) := by
  refine checkLength_returns fun h24 => ?_
  have hlen : 24≤buf.length := h24
  refine (setAt_returns (by omega)).bind fun b1 h1 => ?_
  refine (setAt_returns (by omega)).bind fun b2 h2 => ?_
  refine (IP4Header.marshal_returns _ _).bind fun r hr => ?_
  have hr' : r.1.length=b2.length := hr
  refine (putUint16At_returns (by omega)).bind fun b3 h3 => .ok ?_
  exact h3.trans (hr'.trans (h2.trans h1))

lemma ICMP6Header.marshal_returns (h : ICMP6Header) (buf : Bytes) :
    Returns (h.marshal buf) (KeepsLength buf) := by
  refine checkLength_returns fun h44 => ?_
  have hlen : 44≤buf.length := h44
  refine (IP6Header.marshal_returns _ _).bind fun r hr => ?_
  have hr' : r.1.length=buf.length := hr
  refine (setAt_returns (by omega)).bind fun b1 h1 => ?_
  refine (setAt_returns (by omega)).bind fun b2 h2 => ?_
  refine (setAt_returns (by omega)).bind fun b3 h3 => ?_
  refine (setAt_returns (by omega)).bind fun b4 h4 => .ok ?_
  exact h4.trans (h3.trans (h2.trans (h1.trans hr')))

lemma ICMP6Header.writeChecksum_returns {h : ICMP6Header} {p : Bytes} (h44 : 44≤p.length) :
    Returns (h.writeChecksum p) fun b => b.length=p.length := by
  have hlen : ICMP6Header.len=44 := rfl
  refine (Returns.of_eq (slice_of_le (by omega) (by omega))).bind fun _ _ => ?_
  refine (Returns.of_eq (sliceFrom_of_le (by omega))).bind fun _ _ => ?_
  exact putUint16At_returns (by omega)

lemma generate_returns {marshal : Bytes → Except Fault Marshaled}
    {writeChecksum : Bytes → Except Fault Bytes} {payload : Bytes} {P : Bytes → Prop}
    (hm : ∀ buf, Returns (marshal buf) (KeepsLength buf))
    (hc : ∀ buf : Bytes, buf.length=len+payload.length → Returns (writeChecksum buf) P) :
    Returns (generate len marshal writeChecksum payload) P :=
  (hm _).bind fun r hr => hc r.1 (by
    rw [show r.1.length=_ from hr,length_append,length_replicate])

variable {h : TailscaleRejectedHeader}

lemma TailscaleRejectedHeader.writeMessage_returns {ofs : ℕ}
    (hlen : ofs+7+(if h.maybeBroken then 1 else 0)≤buf.length) :
    Returns (h.writeMessage ofs buf) (KeepsLength buf) := by
  refine (setAt_returns (by omega)).bind fun b1 h1 => ?_
  refine (setAt_returns (by omega)).bind fun b2 h2 => ?_
  refine (setAt_returns (by omega)).bind fun b3 h3 => ?_
  refine (putUint16At_returns (by omega)).bind fun b4 h4 => ?_
  refine (putUint16At_returns (by omega)).bind fun b5 h5 => ?_
  have hflags : Returns (h.writeFlags (ofs+7) b5) fun b => b.length=b5.length := by
    refine .ite (fun hb => setAt_returns ?_) fun _ => .ok rfl
    rw [if_pos hb] at hlen
    omega
  refine hflags.bind fun b6 h6 => .ok ?_
  exact h6.trans (h5.trans (h4.trans (h3.trans (h2.trans h1))))

lemma TailscaleRejectedHeader.marshal_returns
    (h4 : h.src.addr.is4 → h.ipSrc.is4) (h6 : h.src.addr.is6 → h.ipSrc.is6) (buf : Bytes) :
    Returns (h.marshal buf) (KeepsLength buf) := by
  refine checkLength_returns fun hlen => .ite (fun hs4 => ?_) fun hs4 =>
    .ite (fun hs6 => ?_) fun hs6 => .ok rfl
  · refine (IP4Header.marshal_returns _ _).bind fun r hr => ?_
    have hr' : r.1.length=buf.length := hr
    have hip : ipLen h.ipSrc=20 := if_pos (h4 hs4)
    rw [len,hip] at hlen
    refine (writeMessage_returns ?_).mono fun r' h' => h'.trans hr'
    rw [hr',ip4HeaderLength]
    omega
  · refine (IP6Header.marshal_returns _ _).bind fun r hr => ?_
    have hr' : r.1.length=buf.length := hr
    have hip : ipLen h.ipSrc=40 := by
      have h6' := h6 hs6
      cases hs : h.ipSrc with
      | v6 => rfl
      | _ => rw [hs] at h6'; cases h6'
    rw [len,hip] at hlen
    refine (writeMessage_returns ?_).mono fun r' h' => h'.trans hr'
    rw [hr',ip6HeaderLength]
    omega

lemma IPHeader.marshal_returns (h : IPHeader) (buf : Bytes) :
    Returns (h.marshal buf) (KeepsLength buf) := by
  cases h with
  | v4 h => exact h.marshal_returns buf
  | v6 h => exact h.marshal_returns buf

lemma TSMPPongReply.marshal_returns {h : TSMPPongReply} (hdata : h.data.length=8) (buf : Bytes) :
    Returns (h.marshal buf) (KeepsLength buf) := by
  refine .ite (fun _ => .ok rfl) fun hlen => ?_
  rw [len] at hlen
  refine (h.ipHeader.marshal_returns buf).bind fun r hr => ?_
  obtain ⟨b,err⟩ := r
  have hr' : b.length=buf.length := hr
  cases err with
  | some e => exact .ok hr
  | none =>
    refine (setAt_returns (by omega)).bind fun b1 h1 => ?_
    refine (copyAt_returns (by omega)).bind fun b2 h2 => ?_
    refine (putUint16At_returns (by omega)).bind fun b3 h3 => .ok ?_
    exact h3.trans (h2.trans (h1.trans hr'))

namespace Parsed

variable {q : Parsed} (hq : q.length=q.b.length)
include hq

lemma payload_returns : Returns q.payload := by
  refine .guard trivial fun hn => ?_
  rw [not_or] at hn
  exact ⟨_,slice_of_le (by omega) (by omega),trivial⟩

lemma bind_asTSMP_returns {t : UInt8} {n : ℕ} (hn : 0<n) {α : Type}
    {f : Option Bytes → Except Fault α} {P : α → Prop} (hnone : Returns (f none) P)
    (hsome : ∀ p, n≤p.length → Returns (f (some p)) P) : Returns (q.asTSMP t n >>= f) P := by
  refine Returns.bind (P := fun r => ∀ p, r=some p → n≤p.length) ?_ fun r hr => ?_
  · refine (payload_returns hq).bind fun p _ => .ite (fun _ => .ok fun _ h => nomatch h) fun hlen => ?_
    refine (Returns.of_eq (index_of_lt (by omega))).bind fun t' _ => .ok fun p' hp' => ?_
    split_ifs at hp'
    cases hp'
    omega
  · cases r with
    | none => exact hnone
    | some p => exact hsome p (hr p rfl)

lemma asTSMPPing_returns :
    Returns q.asTSMPPing fun r => ∀ data, r=some data → data.length=8 := by
  refine .ite (fun _ => .ok fun _ h => nomatch h) fun _ => ?_
  refine bind_asTSMP_returns hq (by omega) (.ok fun _ h => nomatch h) fun p hp => ?_
  refine (Returns.of_eq (slice_of_le (by omega) hp)).bind fun data hdata => .ok fun d hd => ?_
  cases hd
  rw [hdata,length_drop,length_take]
  omega

lemma asTSMPPong_returns : Returns q.asTSMPPong := by
  refine .guard trivial fun _ => ?_
  refine bind_asTSMP_returns hq (by omega) (.ok trivial) fun p hp => ?_
  refine (Returns.of_eq (slice_of_le (by omega) hp)).bind fun data hdata => ?_
  have hport : Returns (pongPort p) :=
    .ite (fun h11 => ⟨_,uint16At_of_lt (by omega),trivial⟩) fun _ => .ok trivial
  exact hport.bind fun _ _ => .ok trivial

lemma asTSMPDiscoAdvertisement_returns :
    Returns q.asTSMPDiscoAdvertisement := by
  refine .guard trivial fun _ => ?_
  refine bind_asTSMP_returns hq (by omega) (.ok trivial) fun p hp => ?_
  exact (Returns.of_eq (slice_of_le (by omega) hp)).bind fun _ _ => .ok trivial

lemma asTailscaleRejectedHeader_returns :
    Returns q.asTailscaleRejectedHeader := by
  refine bind_asTSMP_returns hq (by omega) (.ok trivial) fun p hp => ?_
  refine (Returns.of_eq (index_of_lt (by omega))).bind fun _ _ => ?_
  refine (Returns.of_eq (index_of_lt (by omega))).bind fun _ _ => ?_
  refine (Returns.of_eq (uint16At_of_lt (by omega))).bind fun _ _ => ?_
  refine (Returns.of_eq (uint16At_of_lt (by omega))).bind fun _ _ => ?_
  have hflags : Returns (rejectFlags p) :=
    .ite (fun h7 => ⟨_,index_of_lt h7,trivial⟩) fun _ => .ok trivial
  exact hflags.bind fun _ _ => .ok trivial

end Parsed

end TunnnejiTail.Packet
