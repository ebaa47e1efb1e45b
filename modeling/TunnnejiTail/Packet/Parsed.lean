import TunnnejiTail.Go.Bytes
import TunnnejiTail.Net.Netip

/-! The minimal packet decoder. A Parsed is reused from packet to packet: whatever Decode does
not write keeps the value it had for the packet before. -/
namespace TunnnejiTail.Packet
open Go Netip

/-- An IP protocol number, or one of the special values unknown and fragment. -/
abbrev Proto := UInt8

namespace Proto

def unknown : Proto := 0x00
def icmpv4 : Proto := 0x01
def igmp : Proto := 0x02
def icmpv6 : Proto := 0x3a
def tcp : Proto := 0x06
def udp : Proto := 0x11
def dccp : Proto := 0x21
def gre : Proto := 0x2f
def sctp : Proto := 0x84
def tsmp : Proto := 99
def fragment : Proto := 0xff

def ip6FragHeader : Proto := 44

end Proto

def ip4HeaderLength : ℕ := 20
def ip6HeaderLength : ℕ := 40
def ip6FragHeaderLength : ℕ := 8
def icmp4HeaderLength : ℕ := 4
def icmp6HeaderLength : ℕ := 4
def igmpHeaderLength : ℕ := 8
def tcpHeaderLength : ℕ := 20
def udpHeaderLength : ℕ := 8
def sctpHeaderLength : ℕ := 12
def minTSMPSize : ℕ := 7
def minFragBlks : ℕ := (60+20)/8

def tcpSyn : UInt8 := 0x02
def tcpSynAck : UInt8 := 0x12

structure Parsed where
  b : Bytes := []
  subofs : ℕ := 0
  dataofs : ℕ := 0
  length : ℕ := 0
  ipVersion : UInt8 := 0
  ipProto : Proto := Proto.unknown
  src : AddrPort := ⟨.zero,0⟩
  dst : AddrPort := ⟨.zero,0⟩
  tcpFlags : UInt8 := 0
  deriving DecidableEq

def withIP (ap : AddrPort) (ip : Addr) : AddrPort := { ap with addr := ip }

def withPort (ap : AddrPort) (port : UInt16) : AddrPort := { ap with port := port }

def addr4At (b : Bytes) (i : ℕ) : Except Fault Addr := do
  let v ← slice b i (i+4)
  return .v4 (BitVec.ofNat 32 (beNat v))

/-- The IPv6 address in the sixteen bytes at i; it never has a zone. -/
def addr16At (b : Bytes) (i : ℕ) : Except Fault Addr := do
  let v ← slice b i (i+16)
  return .v6 (BitVec.ofNat 128 (beNat v)) []

namespace Parsed

def withProto (q : Parsed) (proto : Proto) : Parsed := { q with ipProto := proto }

def withPorts (q : Parsed) (sub : Bytes) : Except Fault Parsed := do
  let srcPort ← uint16At sub 0
  let dstPort ← uint16At sub 2
  return { q with
    src := withPort q.src srcPort
    dst := withPort q.dst dstPort }

def decodeICMP (q : Parsed) (sub : Bytes) (headerLength : ℕ) : Parsed :=
  if sub.length<headerLength then q.withProto .unknown
  else { q with
    src := withPort q.src 0
    dst := withPort q.dst 0
    dataofs := q.subofs+headerLength }

def decodeTCP (q : Parsed) (sub : Bytes) : Except Fault Parsed :=
  if sub.length<tcpHeaderLength then .ok (q.withProto .unknown)
  else do
    let q ← q.withPorts sub
    let flags ← index sub 13
    let ofs ← index sub 12
    return { q with
      tcpFlags := flags
      dataofs := q.subofs+((ofs &&& 0xF0) >>> 2).toNat }

def decodeUDP (q : Parsed) (sub : Bytes) : Except Fault Parsed :=
  if sub.length<udpHeaderLength then .ok (q.withProto .unknown)
  else do
    let q ← q.withPorts sub
    return { q with dataofs := q.subofs+udpHeaderLength }

def decodeSCTP (q : Parsed) (sub : Bytes) : Except Fault Parsed :=
  if sub.length < sctpHeaderLength then .ok (q.withProto .unknown) else q.withPorts sub

def decodeTSMP (q : Parsed) (sub : Bytes) : Parsed :=
  if sub.length < minTSMPSize then q.withProto .unknown else { q with dataofs := q.subofs }

/-- The sub-protocols of an unfragmented IPv4 packet or of a first fragment. -/
def decode4First (q : Parsed) (sub : Bytes) (moreFrags : Bool) : Except Fault Parsed :=
  if q.ipProto=.icmpv4 then .ok (q.decodeICMP sub icmp4HeaderLength)
  else if q.ipProto=.igmp then
    .ok (if sub.length < igmpHeaderLength then q.withProto .unknown else q)
  else if q.ipProto=.tcp then q.decodeTCP sub
  else if q.ipProto=.udp then q.decodeUDP sub
  else if q.ipProto=.sctp then q.decodeSCTP sub
  else if q.ipProto=.tsmp then
    .ok (if moreFrags then q.withProto .unknown else q.decodeTSMP sub)
  else if q.ipProto=.fragment then .ok (q.withProto .unknown)
  else .ok q

/-- A fragment other than the first; low offsets could lie within a transport header. -/
def decodeLater (q : Parsed) (fragOfs : ℕ) : Parsed :=
  q.withProto (if fragOfs < minFragBlks then .unknown else .fragment)

def decode4Sub (q : Parsed) (b : Bytes) : Except Fault Parsed :=
  if q.length<q.subofs then .ok (q.withProto .unknown)
  else do
    let sub ← sliceFrom b q.subofs
    let fragFlags ← uint16At b 6
    let moreFrags := fragFlags &&& 0x2000≠0
    let fragOfs := fragFlags &&& 0x1FFF
    if fragOfs=0 then q.decode4First sub moreFrags else return q.decodeLater fragOfs.toNat

def decode4Header (q : Parsed) (b : Bytes) : Except Fault Parsed :=
  if b.length<q.length then .ok (q.withProto .unknown)
  else do
    let src ← addr4At b 12
    let dst ← addr4At b 16
    let b0 ← index b 0
    decode4Sub { q with
      src := withIP q.src src
      dst := withIP q.dst dst
      subofs := ((b0 &&& 0x0F) <<< 2).toNat } b

def decode4 (q : Parsed) (b : Bytes) : Except Fault Parsed :=
  if b.length < ip4HeaderLength then .ok { q with ipVersion := 0, ipProto := .unknown }
  else do
    let proto ← index b 9
    let length ← uint16At b 2
    decode4Header { q with ipProto := proto, length := length.toNat } b

/-- The sub-protocols of IPv6. -/
def decode6Sub (q : Parsed) (b : Bytes) : Except Fault Parsed := do
  let sub ← sliceFrom b q.subofs
  if q.ipProto=.icmpv6 then .ok (q.decodeICMP sub icmp6HeaderLength)
  else if q.ipProto=.tcp then q.decodeTCP sub
  else if q.ipProto=.udp then q.decodeUDP sub
  else if q.ipProto=.sctp then q.decodeSCTP sub
  else if q.ipProto=.tsmp then .ok (q.decodeTSMP sub)
  else if q.ipProto=.fragment then .ok (q.withProto .unknown)
  else .ok q

/-- decode6Fragment, with whether to continue with the sub-protocol. -/
def decode6Fragment (q : Parsed) (b : Bytes) : Except Fault (Parsed × Bool) :=
  if b.length<q.subofs+ip6FragHeaderLength then .ok (q.withProto .unknown,false)
  else do
    let frag ← sliceFrom b q.subofs
    let nextHdr ← index frag 0
    let fragFlags ← uint16At frag 2
    let fragOfs := fragFlags >>> 3
    let q := { q with subofs := q.subofs+ip6FragHeaderLength }
    return if fragOfs=0 then (q.withProto nextHdr,true) else (q.decodeLater fragOfs.toNat,false)

def decode6Header (q : Parsed) (b : Bytes) : Except Fault Parsed :=
  if b.length<q.length then .ok (q.withProto .unknown)
  else do
    let src ← addr16At b 8
    let dst ← addr16At b 24
    let q := { q with
      src := withIP q.src src
      dst := withIP q.dst dst
      subofs := 40 }
    if q.ipProto=.ip6FragHeader then do
      let (q,continueDecode) ← q.decode6Fragment b
      if continueDecode then q.decode6Sub b else return q
    else q.decode6Sub b

def decode6 (q : Parsed) (b : Bytes) : Except Fault Parsed :=
  if b.length < ip6HeaderLength then .ok { q with ipVersion := 0, ipProto := .unknown }
  else do
    let proto ← index b 6
    let length ← uint16At b 4
    decode6Header { q with ipProto := proto, length := length.toNat+ip6HeaderLength } b

def decode (q : Parsed) (b : Bytes) : Except Fault Parsed :=
  match b with
  | [] => .ok { q with b := b, ipVersion := 0, ipProto := .unknown }
  | b0::_ =>
    let q : Parsed := { q with b := b, ipVersion := b0 >>> 4 }
    if q.ipVersion=4 then q.decode4 b
    else if q.ipVersion=6 then q.decode6 b
    else .ok { q with ipVersion := 0, ipProto := .unknown }

def payload (q : Parsed) : Except Fault Bytes :=
  if q.length > q.b.length ∨ q.dataofs > q.b.length then .ok [] else slice q.b q.dataofs q.length

def transport (q : Parsed) : Except Fault Bytes := sliceFrom q.b q.subofs

/-- The type and code bytes of an ICMP message, when the packet holds eight bytes of it. -/
def icmpTypeCode (q : Parsed) : Option (UInt8 × UInt8) :=
  if h : q.subofs+8≤q.b.length then some (q.b[q.subofs],q.b[q.subofs+1]) else none

def isError (q : Parsed) : Bool :=
  match q.icmpTypeCode with
  | none => false
  | some (t,_) =>
    if q.ipProto=.icmpv4 then t=0x03 || t=0x0b || t=0x12
    else if q.ipProto=.icmpv6 then t=1 || t=2 || t=3 || t=4
    else false

def isEchoRequest (q : Parsed) : Bool :=
  if q.ipProto=.icmpv4 then q.icmpTypeCode=some (0x08,0)
  else if q.ipProto=.icmpv6 then q.icmpTypeCode=some (128,0)
  else false

def isEchoResponse (q : Parsed) : Bool :=
  if q.ipProto=.icmpv4 then q.icmpTypeCode=some (0x00,0)
  else if q.ipProto=.icmpv6 then q.icmpTypeCode=some (129,0)
  else false

def isTCPSyn (q : Parsed) : Bool := q.tcpFlags &&& tcpSynAck=tcpSyn

end Parsed

end TunnnejiTail.Packet
