import TunnnejiTail.Packet.Generate
import TunnnejiTail.Packet.Rewrite

/-! The bytes that Marshal writes: an IP header in front of whatever the buffer holds behind it,
and the UDP headers. -/
namespace TunnnejiTail.Packet
open Go Netip List

def IP4Header.withProto (h : IP4Header) (proto : Proto) : IP4Header := { h with ipProto := proto }
def IP6Header.withProto (h : IP6Header) (proto : Proto) : IP6Header := { h with ipProto := proto }

def ip4PseudoHeaderOffset : ℕ := 8

/-- marshalPseudo of the IPv4 header: the pseudo header ends where the header does. -/
def IP4Header.marshalPseudo (h : IP4Header) (buf : Bytes) : Except Fault Marshaled :=
  checkLength ip4HeaderLength buf do
    let length := buf.length-ip4HeaderLength
    let src ← as4 h.src
    let dst ← as4 h.dst
    let buf ← copyAt buf 8 src
    let buf ← copyAt buf 12 dst
    let buf ← setAt buf 16 0
    let buf ← setAt buf 17 h.ipProto
    let buf ← putUint16At buf 18 (UInt16.ofNat length)
    return (buf,none)

def IP6Header.marshalPseudo (h : IP6Header) (buf : Bytes) (proto : Proto) : Except Fault Marshaled :=
  checkLength ip6HeaderLength buf do
    let length := buf.length-ip6HeaderLength
    let buf ← copyAt buf 0 (as16 h.src)
    let buf ← copyAt buf 16 (as16 h.dst)
    let buf ← copyAt buf 32 (beBytes 4 length)
    let buf ← setAt buf 36 0
    let buf ← setAt buf 37 0
    let buf ← setAt buf 38 0
    let buf ← setAt buf 39 proto
    return (buf,none)

structure UDP4Header where
  ip : IP4Header
  srcPort : UInt16
  dstPort : UInt16
  deriving DecidableEq

structure UDP6Header where
  ip : IP6Header
  srcPort : UInt16
  dstPort : UInt16
  deriving DecidableEq

def writeUDP (buf : Bytes) (ofs : ℕ) (srcPort dstPort : UInt16) : Except Fault Bytes := do
  let length := buf.length-ofs
  let buf ← putUint16At buf ofs srcPort
  let buf ← putUint16At buf (ofs+2) dstPort
  let buf ← putUint16At buf (ofs+4) (UInt16.ofNat length)
  putUint16At buf (ofs+6) 0

namespace UDP4Header

def len : ℕ := ip4HeaderLength+udpHeaderLength

/-- The errors of the IP header are dropped. -/
def marshal (h : UDP4Header) (buf : Bytes) : Except Fault Marshaled :=
  checkLength len buf do
    let ip := h.ip.withProto .udp
    let buf ← writeUDP buf ip4HeaderLength h.srcPort h.dstPort
    let (buf,_) ← ip.marshalPseudo buf
    let covered ← sliceFrom buf ip4PseudoHeaderOffset
    let buf ← putUint16At buf 26 (ip4Checksum covered)
    let (buf,_) ← ip.marshal buf
    return (buf,none)

end UDP4Header

namespace UDP6Header

def len : ℕ := ip6HeaderLength+udpHeaderLength

def marshal (h : UDP6Header) (buf : Bytes) : Except Fault Marshaled :=
  checkLength len buf do
    let ip := h.ip.withProto .udp
    let buf ← writeUDP buf ip6HeaderLength h.srcPort h.dstPort
    let (buf,_) ← ip.marshalPseudo buf .udp
    let buf ← putUint16At buf 46 (ip4Checksum buf)
    let (buf,_) ← ip.marshal buf
    return (buf,none)

end UDP6Header

lemma checkLength_of_le {n : ℕ} {buf : Bytes} (h : n≤buf.length) (hmax : buf.length≤65535)
    (k : Except Fault Marshaled) : checkLength n buf k=k := by
  rw [checkLength,if_neg (Nat.not_lt.mpr h)]
  exact if_neg (Nat.not_lt.mpr hmax)

def IP4Header.wire (h : IP4Header) (s d : BitVec 32) (n : ℕ) : Bytes :=
  h.bytes n (ip4Checksum (h.bytes n 0 (beBytes 4 s.toNat) (beBytes 4 d.toNat)))
    (beBytes 4 s.toNat) (beBytes 4 d.toNat)

@[simp] lemma IP4Header.length_wire (h : IP4Header) (s d : BitVec 32) (n : ℕ) :
    (h.wire s d n).length=20 := by
  simp [wire,bytes,before]

section
variable {f r : Bytes}

lemma IP4Header.marshal_eq {h : IP4Header} (hf : f.length=20)
    (hmax : 20+r.length≤65535) {s d : BitVec 32} (hs : h.src=.v4 s) (hd : h.dst=.v4 d) :
    h.marshal (f++r)=.ok (h.wire s d (20+r.length)++r,none) := by
  have hlen : (f++r).length=20+r.length := by
    rw [length_append,hf]
  have hwrite : h.write (f++r) (beBytes 4 s.toNat) (beBytes 4 d.toNat)=_ :=
    h.write_eq (by omega) (length_beBytes 4 _) (length_beBytes 4 _)
  rw [hlen,drop_left' hf] at hwrite
  rw [marshal,checkLength_of_le (n := ip4HeaderLength) (by rw [hlen]; exact Nat.le_add_right ..)
    (by omega),hs,hd,if_neg (by simp [Addr.is4]),as4_v4,as4_v4]
  exact bind_of_ok hwrite rfl

lemma IP6Header.marshal_eq {h : IP6Header} (hf : f.length=40) (hmax : 40+r.length≤65535) :
    h.marshal (f++r)=.ok (h.bytes r.length++r,none) := by
  have hlen : (f++r).length=40+r.length := by
    rw [length_append,hf]
  have hwrite : h.write (f++r)=_ := h.write_eq (by omega)
  rw [hlen,Nat.add_sub_cancel_left,drop_left' hf] at hwrite
  rw [marshal,checkLength_of_le (n := ip6HeaderLength) (by rw [hlen]; exact Nat.le_add_right ..) (by omega)]
  exact bind_of_ok hwrite rfl

end

def udpBytes (srcPort dstPort : UInt16) (n : ℕ) (c : UInt16) : Bytes :=
  uint16Bytes srcPort++uint16Bytes dstPort++uint16Bytes (UInt16.ofNat n)++uint16Bytes c

variable (srcPort dstPort : UInt16) (n : ℕ) (c : UInt16) {ofs : ℕ}

@[simp] lemma length_udpBytes : (udpBytes srcPort dstPort n c).length=8 := rfl

lemma writeUDP_eq {buf : Bytes} (h : ofs+8≤buf.length) :
    writeUDP buf ofs srcPort dstPort =
      .ok (buf.take ofs++udpBytes srcPort dstPort (buf.length-ofs) 0++buf.drop (ofs+8)) := by
  have htake : (buf.take ofs).length=ofs := by
    rw [length_take]
    omega
  have hfirst : putUint16At buf ofs srcPort = .ok (buf.take ofs++uint16Bytes srcPort++buf.drop (ofs+2)) := by
    have hnext := copyAt_next (b := buf) htake (length_uint16Bytes srcPort) (by omega)
    rwa [take_append_drop] at hnext
  rw [writeUDP]
  refine bind_of_ok hfirst ?_
  refine bind_of_ok (copyAt_next (b := buf) (by simp [htake]) (length_uint16Bytes _) (by omega)) ?_
  refine bind_of_ok (copyAt_next (b := buf) (by simp [htake]) (length_uint16Bytes _) (by omega)) ?_
  refine (copyAt_next (b := buf) (by simp [htake]) (length_uint16Bytes _) (by omega)).trans ?_
  simp only [udpBytes,append_assoc]

lemma writeUDP_header {header payload : Bytes} (hlen : header.length=ofs+8) :
    writeUDP (header++payload) ofs srcPort dstPort =
      .ok (header.take ofs++(udpBytes srcPort dstPort (8+payload.length) 0++payload)) := by
  have hall : (header++payload).length=ofs+8+payload.length := by
    rw [length_append,hlen]
  have hsub : ofs+8+payload.length-ofs=8+payload.length := by omega
  rw [writeUDP_eq _ _ (by omega),hall,hsub,take_append_of_le_length (by omega),drop_left' hlen, append_assoc]

lemma length_datagram (payload : Bytes) :
    (udpBytes srcPort dstPort n c++payload).length=8+payload.length := by
  rw [length_append,length_udpBytes]

def IP4Header.pseudo (h : IP4Header) (s d : BitVec 32) (n : ℕ) : Bytes :=
  beBytes 4 s.toNat++beBytes 4 d.toNat++[0]++[h.ipProto]++uint16Bytes (UInt16.ofNat n)

def IP6Header.pseudo (h : IP6Header) (proto : Proto) (n : ℕ) : Bytes :=
  as16 h.src++as16 h.dst++beBytes 4 n++[0]++[0]++[0]++[proto]

@[simp] lemma IP4Header.length_pseudo (h : IP4Header) (s d : BitVec 32) (n : ℕ) :
    (h.pseudo s d n).length=12 := by
  simp [pseudo]

@[simp] lemma IP6Header.length_pseudo (h : IP6Header) (proto : Proto) (n : ℕ) :
    (h.pseudo proto n).length=40 := by
  simp [pseudo,as16]

section
variable {f r : Bytes}

lemma IP4Header.marshalPseudo_eq {h : IP4Header} (hf : f.length=20)
    (hmax : 20+r.length≤65535) {s d : BitVec 32} (hs : h.src=.v4 s) (hd : h.dst=.v4 d) :
    h.marshalPseudo (f++r) = .ok (f.take 8++(h.pseudo s d r.length++r),none) := by
  have hlen : (f++r).length=20+r.length := by
    rw [length_append,hf]
  have htake : (f.take 8).length=8 := by
    rw [length_take]
    omega
  have hfirst : copyAt (f++r) 8 (beBytes 4 s.toNat) = .ok (f.take 8++beBytes 4 s.toNat++(f++r).drop (8+4)) := by
    have hnext := copyAt_next (b := f++r) htake (length_beBytes 4 s.toNat) (by omega)
    have htake8 : (f++r).take 8=f.take 8 := take_append_of_le_length (by omega)
    have hjoin : f.take 8++(f++r).drop 8=f++r := by
      rw [← htake8,take_append_drop]
    rwa [hjoin] at hnext
  rw [marshalPseudo,checkLength_of_le (n := ip4HeaderLength)
    (by rw [hlen]; exact Nat.le_add_right ..) (by omega),hs,hd,as4_v4,as4_v4]
  refine bind_of_ok hfirst ?_
  refine bind_of_ok (copyAt_next (b := f++r) (by simp [htake]) (length_beBytes _ _) (by omega)) ?_
  refine bind_of_ok (setAt_next (b := f++r) (by simp [htake]) (by omega)) ?_
  refine bind_of_ok (setAt_next (b := f++r) (by simp [htake]) (by omega)) ?_
  refine bind_of_ok (copyAt_next (b := f++r) (by simp [htake]) (length_uint16Bytes _) (by omega)) ?_
  rw [drop_left' hf]
  simp only [pseudo,append_assoc,hlen,ip4HeaderLength,Nat.add_sub_cancel_left]
  rfl

lemma IP6Header.marshalPseudo_eq {h : IP6Header} (hf : f.length=40)
    (hmax : 40+r.length≤65535) (proto : Proto) :
    h.marshalPseudo (f++r) proto=.ok (h.pseudo proto r.length++r,none) := by
  have hlen : (f++r).length=40+r.length := by
    rw [length_append,hf]
  have h16 (ip : Addr) : (as16 ip).length=16 := length_beBytes 16 _
  rw [marshalPseudo,checkLength_of_le (n := ip6HeaderLength) (by rw [hlen]; exact Nat.le_add_right ..) (by omega)]
  refine bind_of_ok (copyAt_next (i := 0) (b := f++r) (d := []) rfl (h16 _) (by omega)) ?_
  refine bind_of_ok (copyAt_next (b := f++r) (by simp [h16]) (h16 _) (by omega)) ?_
  refine bind_of_ok (copyAt_next (b := f++r) (by simp [h16]) (length_beBytes _ _) (by omega)) ?_
  refine bind_of_ok (setAt_next (b := f++r) (by simp [h16]) (by omega)) ?_
  refine bind_of_ok (setAt_next (b := f++r) (by simp [h16]) (by omega)) ?_
  refine bind_of_ok (setAt_next (b := f++r) (by simp [h16]) (by omega)) ?_
  refine bind_of_ok (setAt_next (b := f++r) (by simp [h16]) (by omega)) ?_
  rw [drop_left' hf,hlen,ip6HeaderLength,Nat.add_sub_cancel_left]
  rfl

end

lemma sliceFrom_append {a c : Bytes} {i : ℕ} (ha : a.length=i) : sliceFrom (a++c) i=.ok c := by
  rw [sliceFrom_of_le (by rw [length_append]; omega),drop_left' ha]

lemma putUint16At_udpBytes {before after : Bytes} (hofs : before.length+6=ofs) :
    putUint16At (before++(udpBytes srcPort dstPort n 0++after)) ofs c =
      .ok (before++(udpBytes srcPort dstPort n c++after)) := by
  have hsplit (w : UInt16) : before++(udpBytes srcPort dstPort n w++after) =
      before++(uint16Bytes srcPort++(uint16Bytes dstPort++uint16Bytes (UInt16.ofNat n))) ++ uint16Bytes w++after := by
    simp only [udpBytes,append_assoc]
  rw [hsplit,hsplit]
  refine copyAt_between ?_ (length_uint16Bytes c) _ (length_uint16Bytes 0)
  simp only [length_append,length_uint16Bytes]
  omega

/-- The checksum of a UDP packet over IPv4, over the pseudo header and the datagram. -/
def UDP4Header.sum (h : UDP4Header) (s d : BitVec 32) (payload : Bytes) : UInt16 :=
  ip4Checksum ((h.ip.withProto .udp).pseudo s d (8+payload.length) ++
    (udpBytes h.srcPort h.dstPort (8+payload.length) 0++payload))

def UDP6Header.sum (h : UDP6Header) (payload : Bytes) : UInt16 :=
  ip4Checksum ((h.ip.withProto .udp).pseudo .udp (8+payload.length) ++
    (udpBytes h.srcPort h.dstPort (8+payload.length) 0++payload))

section
variable {header payload : Bytes}

lemma UDP4Header.marshal_eq {h : UDP4Header} (hlen : header.length=28)
    (hmax : 28+payload.length≤65535) {s d : BitVec 32} (hs : h.ip.src=.v4 s)
    (hd : h.ip.dst=.v4 d) : h.marshal (header++payload) = .ok ((h.ip.withProto .udp).wire s d (28+payload.length) ++
        (udpBytes h.srcPort h.dstPort (8+payload.length) (h.sum s d payload)++payload),none) := by
  have hall : (header++payload).length=28+payload.length := by
    rw [length_append,hlen]
  have hfront : (header.take 20).length=20 := by
    rw [length_take]
    omega
  have hpseudo := IP4Header.marshalPseudo_eq (h := h.ip.withProto .udp) hfront
    (r := udpBytes h.srcPort h.dstPort (8+payload.length) 0++payload)
    (by rw [length_datagram]; omega) hs hd
  have hbehind : ((header.take 20).take 8 ++ (h.ip.withProto .udp).pseudo s d (8+payload.length)).length=20 := by
    rw [length_append,IP4Header.length_pseudo,length_take,hfront]
    rfl
  rw [length_datagram] at hpseudo
  have hslice : sliceFrom ((header.take 20).take 8 ++ ((h.ip.withProto .udp).pseudo s d (8+payload.length) ++
        (udpBytes h.srcPort h.dstPort (8+payload.length) 0++payload))) ip4PseudoHeaderOffset=.ok _ :=
    sliceFrom_append (by rw [length_take,hfront]; rfl)
  have hput (c : UInt16) : putUint16At ((header.take 20).take 8 ++
      ((h.ip.withProto .udp).pseudo s d (8+payload.length) ++
        (udpBytes h.srcPort h.dstPort (8+payload.length) 0++payload))) 26 c =
      .ok ((header.take 20).take 8++(h.ip.withProto .udp).pseudo s d (8+payload.length) ++
        (udpBytes h.srcPort h.dstPort (8+payload.length) c++payload)) := by
    rw [← append_assoc]
    exact putUint16At_udpBytes _ _ _ _ (by rw [hbehind])
  have hip (c : UInt16) := IP4Header.marshal_eq (h := h.ip.withProto .udp) hbehind
    (r := udpBytes h.srcPort h.dstPort (8+payload.length) c++payload) (by rw [length_datagram]; omega)
    hs hd
  simp only [length_datagram,← Nat.add_assoc] at hip
  rw [marshal,checkLength_of_le (n := UDP4Header.len) (by rw [hall]; exact Nat.le_add_right ..) (by omega)]
  refine bind_of_ok (writeUDP_header _ _ (by exact hlen)) (bind_of_ok hpseudo (bind_of_ok hslice ?_))
  refine bind_of_ok (hput _) (bind_of_ok (hip _) ?_)
  rfl

lemma UDP6Header.marshal_eq {h : UDP6Header} (hlen : header.length=48)
    (hmax : 48+payload.length≤65535) : h.marshal (header++payload) =
      .ok ((h.ip.withProto .udp).bytes (8+payload.length) ++
        (udpBytes h.srcPort h.dstPort (8+payload.length) (h.sum payload)++payload),none) := by
  have hall : (header++payload).length=48+payload.length := by
    rw [length_append,hlen]
  have hfront : (header.take 40).length=40 := by
    rw [length_take]
    omega
  have hpseudo := IP6Header.marshalPseudo_eq (h := h.ip.withProto .udp) hfront
    (r := udpBytes h.srcPort h.dstPort (8+payload.length) 0++payload)
    (by rw [length_datagram]; omega) .udp
  rw [length_datagram] at hpseudo
  rw [marshal,checkLength_of_le (n := UDP6Header.len) (by rw [hall]; exact Nat.le_add_right ..) (by omega)]
  refine bind_of_ok (writeUDP_header _ _ (by exact hlen)) (bind_of_ok hpseudo ?_)
  refine bind_of_ok (putUint16At_udpBytes _ _ _ _ (by rw [IP6Header.length_pseudo])) ?_
  refine bind_of_ok (IP6Header.marshal_eq (IP6Header.length_pseudo _ _ _) (by rw [length_datagram]; omega)) ?_
  rw [length_datagram]
  rfl

end

end TunnnejiTail.Packet
