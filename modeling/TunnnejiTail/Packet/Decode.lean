import TunnnejiTail.Packet.Parsed

/-! What Decode makes of a packet, in terms of its bytes. Decode never reads out of range,
whatever the Parsed held before. -/
namespace TunnnejiTail.Packet
open Go

/-- The fields of a Parsed that the sub-protocol part of Decode leaves alone. -/
structure Same (q q' : Parsed) : Prop where
  b : q'.b=q.b
  subofs : q'.subofs=q.subofs
  length : q'.length=q.length
  ipVersion : q'.ipVersion=q.ipVersion
  src : q'.src.addr=q.src.addr
  dst : q'.dst.addr=q.dst.addr

lemma Same.withProto (q : Parsed) (proto : Proto) : Same q (q.withProto proto) :=
  ⟨rfl,rfl,rfl,rfl,rfl,rfl⟩

/-- The result of decoding a sub-protocol: the protocol number is kept or becomes unknown. -/
def SubDecoded (q : Parsed) (proto : Proto) (q' : Parsed) : Prop := Same q q' ∧ q'.ipProto=proto

/-- The bytes that decode4 asks for before it reads a sub-protocol. -/
def minHeader4 (proto : Proto) : ℕ :=
  if proto=.icmpv4 then icmp4HeaderLength
  else if proto=.igmp then igmpHeaderLength
  else if proto=.tcp then tcpHeaderLength
  else if proto=.udp then udpHeaderLength
  else if proto=.sctp then sctpHeaderLength
  else if proto=.tsmp then minTSMPSize
  else 0

def minHeader6 (proto : Proto) : ℕ :=
  if proto=.icmpv6 then icmp6HeaderLength
  else if proto=.tcp then tcpHeaderLength
  else if proto=.udp then udpHeaderLength
  else if proto=.sctp then sctpHeaderLength
  else if proto=.tsmp then minTSMPSize
  else 0

def unreadable4 (proto : Proto) (n : ℕ) (moreFrags : Bool) : Bool :=
  proto == .fragment || (proto == .tsmp && moreFrags) || n < minHeader4 proto

def unreadable6 (proto : Proto) (n : ℕ) : Bool := proto == .fragment || n < minHeader6 proto

def keptProto (short : Bool) (proto : Proto) : Proto := if short then .unknown else proto

def word (b : Bytes) (i : ℕ) : UInt16 := uint16Of (byteAt b i) (byteAt b (i+1))

def headerLen4 (b : Bytes) : ℕ := ((byteAt b 0 &&& 0x0F) <<< 2).toNat
def totalLen4 (b : Bytes) : ℕ := (word b 2).toNat
def fragOfs4 (b : Bytes) : UInt16 := word b 6 &&& 0x1FFF
def moreFrags4 (b : Bytes) : Bool := word b 6 &&& 0x2000≠0
def src4 (b : Bytes) : BitVec 32 := BitVec.ofNat 32 (beNat ((b.take 16).drop 12))
def dst4 (b : Bytes) : BitVec 32 := BitVec.ofNat 32 (beNat ((b.take 20).drop 16))

def laterProto (fragOfs : ℕ) : Proto := if fragOfs < minFragBlks then .unknown else .fragment

def proto4 (b : Bytes) : Proto :=
  if b.length<totalLen4 b ∨ totalLen4 b<headerLen4 b then .unknown
  else if fragOfs4 b=0 then
    keptProto (unreadable4 (byteAt b 9) (b.length-headerLen4 b) (moreFrags4 b)) (byteAt b 9)
  else laterProto (fragOfs4 b).toNat

/-- What Decode returns for an IPv4 packet with a whole fixed header. -/
structure Decoded4 (b : Bytes) (q : Parsed) : Prop where
  buffer : q.b=b
  ipVersion : q.ipVersion=4
  length : q.length=totalLen4 b
  ipProto : q.ipProto=proto4 b
  src : totalLen4 b≤b.length → q.src.addr=.v4 (src4 b)
  dst : totalLen4 b≤b.length → q.dst.addr=.v4 (dst4 b)
  subofs : totalLen4 b≤b.length → q.subofs=headerLen4 b

lemma addr4At_of_le {b : Bytes} {i : ℕ} (h : i+4≤b.length) :
    addr4At b i=.ok (.v4 (BitVec.ofNat 32 (beNat ((b.take (i+4)).drop i)))) := by
  rw [addr4At,slice_of_le (by omega) h]
  rfl

lemma addr16At_of_le {b : Bytes} {i : ℕ} (h : i+16≤b.length) :
    addr16At b i=.ok (.v6 (BitVec.ofNat 128 (beNat ((b.take (i+16)).drop i))) []) := by
  rw [addr16At,slice_of_le (by omega) h]
  rfl

def totalLen6 (b : Bytes) : ℕ := (word b 4).toNat+ip6HeaderLength
def fragOfs6 (b : Bytes) : UInt16 := word b 42 >>> 3
def src6 (b : Bytes) : BitVec 128 := BitVec.ofNat 128 (beNat ((b.take 24).drop 8))
def dst6 (b : Bytes) : BitVec 128 := BitVec.ofNat 128 (beNat ((b.take 40).drop 24))

/-- Whether the first header after the fixed one is a whole Fragment header. -/
def leadsFragment (b : Bytes) : Bool := byteAt b 6=Proto.ip6FragHeader && 48≤b.length

/-- The protocol that Decode finds in an IPv6 packet. -/
def proto6 (b : Bytes) : Proto :=
  if b.length<totalLen6 b then .unknown
  else if byteAt b 6=Proto.ip6FragHeader then
    if b.length<48 then .unknown
    else if fragOfs6 b=0 then keptProto (unreadable6 (byteAt b 40) (b.length-48)) (byteAt b 40)
    else laterProto (fragOfs6 b).toNat
  else keptProto (unreadable6 (byteAt b 6) (b.length-40)) (byteAt b 6)

/-- What Decode returns for an IPv6 packet with a whole fixed header. -/
structure Decoded6 (b : Bytes) (q : Parsed) : Prop where
  buffer : q.b=b
  ipVersion : q.ipVersion=6
  length : q.length=totalLen6 b
  ipProto : q.ipProto=proto6 b
  src : totalLen6 b≤b.length → q.src.addr=.v6 (src6 b) []
  dst : totalLen6 b≤b.length → q.dst.addr=.v6 (dst6 b) []
  subofs : totalLen6 b≤b.length → q.subofs=if leadsFragment b then 48 else 40

end TunnnejiTail.Packet
