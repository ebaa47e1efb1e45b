import TunnnejiTail.Disco.Message
import TunnnejiTail.Packet.Geneve

/-! Telling apart the packets of a UDP socket: STUN, disco and WireGuard, the latter two also behind a Geneve
header. -/
namespace TunnnejiTail

namespace Stun
open Go Netip

def magicCookie : Bytes := [0x21,0x12,0xa4,0x42]

def is (b : Bytes) : Bool := 20≤b.length && byteAt b 0 &&& 0xc0 == 0 && (b.drop 4).take 4 == magicCookie

def request (crc : Bytes → UInt32) (tID : Disco.TxID) : Bytes :=
  let b := [0,1]++beBytes 2 20++magicCookie++tID.bytes++(beBytes 2 0x8022++beBytes 2 8++
    [0x74,0x61,0x69,0x6c,0x6e,0x6f,0x64,0x65])
  b++(beBytes 2 0x8028++beBytes 2 4++beBytes 4 (crc b ^^^ 0x5354554e).toNat)

/-- The address of a response with its bytes crossed with the cookie and the ID. -/
def xorMapped (tID : Disco.TxID) (fam : UInt8) (port : UInt16) (ip : Bytes) : Bytes :=
  [1,1]++beBytes 2 (8+ip.length)++magicCookie++tID.bytes++(beBytes 2 0x20++beBytes 2 (4+ip.length)++[0,fam]++
    beBytes 2 (port ^^^ 0x2112).toNat++List.zipWith (· ^^^ ·) ip (magicCookie++tID.bytes))

def response (txID : Disco.TxID) (addrPort : AddrPort) : Bytes :=
  match addrPort.addr with
  | .v4 a => xorMapped txID 1 addrPort.port (beBytes 4 a.toNat)
  | .v6 a _ => xorMapped txID 2 addrPort.port (beBytes 16 a.toNat)
  | .zero => []

end Stun

namespace Magicsock.Classify
open Go Netip Packet

def discoMagic : Bytes := [0x54,0x53,0xf0,0x9f,0x92,0xac]

inductive PacketLooksLike
  | wireGuard
  | stunBinding
  | disco
  deriving DecidableEq

def looksLikeDisco (msg : Bytes) : Bool := 38 ≤ msg.length && msg.take 6 == discoMagic

def packetLooksLike (msg : Bytes) : PacketLooksLike × Bool :=
  let naked := if looksLikeDisco msg then (.disco,false) else (.wireGuard,false)
  let protocol := uint16Of (byteAt msg 2) (byteAt msg 3)
  if Stun.is msg && byteAt msg 1 == 1 then (.stunBinding,false)
  else if 8 ≤ msg.length && byteAt msg 0 &&& 0xc0 == 0 && byteAt msg 1 &&& 0x3f == 0 && byteAt msg 7 == 0 then
    if protocol=geneveProtocolDisco then
      if looksLikeDisco (msg.drop 8) then (.disco,true) else (.wireGuard,false)
    else if protocol=geneveProtocolWireGuard then (.wireGuard,true)
    else naked
  else naked

/-- What receiveIP reports to wireguard-go: the bytes of the buffer up to the size, and whether there was a
Geneve header. The packet is moved to the front of the buffer. -/
def receiveIP (havePrivateKey : Bool) (b : Bytes) : Option (Bytes × Bool) :=
  let (pt,isGeneveEncap) := packetLooksLike b
  let vni := if isGeneveEncap then (GeneveHeader.decode b).toOption.bind GeneveHeader.vni else none
  if isGeneveEncap && (GeneveHeader.decode b).toOption.isNone then none
  else if pt=.wireGuard && havePrivateKey then
    let moved := b.drop 8++b.drop (b.length-8)
    if vni.isSome then some (moved.take (b.length-8),isGeneveEncap) else some (b,isGeneveEncap)
  else none

structure IsDisco (msg : Bytes) : Prop where
  magic : msg.take 6=discoMagic
  long : 38 ≤ msg.length

def IsWireGuard (msg : Bytes) : Prop := ∃ t ∈ [1,2,3,4], ∃ rest, msg=[t,0,0,0]++rest

def header (protocol : UInt16) (vni : BitVec 24) (control : Bool) : GeneveHeader := ⟨0,protocol,some vni,control⟩

variable {msg : Bytes}

lemma encode_header (protocol : UInt16) (vni : BitVec 24) (control : Bool) :
    ∃ x y z, (header protocol vni control).encode =
      .ok ([0,if control then 0x80 else 0]++uint16Bytes protocol++[x,y,z,0]) :=
  ⟨_,_,_,rfl⟩

lemma looksLike_stun {t n : UInt8} (ht : t=0 ∨ t=1) (tID : Disco.TxID) (m : UInt8) (rest : Bytes) :
    packetLooksLike ([t,1]++[m,n]++Stun.magicCookie++tID.bytes++rest)=(.stunBinding,false) := by
  have hlong : 20≤([t,1]++[m,n]++Stun.magicCookie++tID.bytes++rest).length := by
    simp [Stun.magicCookie,tID.size]
  have hcookie : (([t,1]++[m,n]++Stun.magicCookie++tID.bytes++rest).drop 4).take 4=Stun.magicCookie := by
    simp [Stun.magicCookie]
  have htop : byteAt ([t,1]++[m,n]++Stun.magicCookie++tID.bytes++rest) 0 &&& 0xc0=0 := by
    have hzero : (0 : UInt8) &&& 0xc0=0 ∧ (1 : UInt8) &&& 0xc0=0 := by decide
    obtain rfl | rfl := ht
    · exact hzero.1
    · exact hzero.2
  have hone : byteAt ([t,1]++[m,n]++Stun.magicCookie++tID.bytes++rest) 1=1 := rfl
  have his : Stun.is ([t,1]++[m,n]++Stun.magicCookie++tID.bytes++rest)=true := by
    rw [Stun.is,hcookie,htop,decide_eq_true hlong]
    rfl
  rw [packetLooksLike,his,hone]
  rfl

lemma looksLike_disco (h : IsDisco msg) : packetLooksLike msg=(.disco,false) := by
  have hmagic : looksLikeDisco msg=true := by simp [looksLikeDisco,h.magic,h.long]
  have hfirst : byteAt msg 0=0x54 := by
    have hget : (msg.take 6)[0]? = some 0x54 := by rw [h.magic]; rfl
    rw [List.getElem?_take_of_lt (by decide)] at hget
    rw [byteAt,List.getD_eq_getElem?_getD,hget]
    rfl
  have htop : ((0x54 : UInt8) &&& 0xc0 == 0)=false := by decide
  rw [packetLooksLike,Stun.is,hmagic,hfirst,htop]
  simp

lemma looksLike_geneve_disco (h : IsDisco msg) (control : Bool) (x y z : UInt8) :
    packetLooksLike ([0,if control then 0x80 else 0]++uint16Bytes geneveProtocolDisco++[x,y,z,0]++msg)=(.disco,true) := by
  have hmagic : looksLikeDisco msg=true := by simp [looksLikeDisco,h.magic,h.long]
  have hflag : (0x80 : UInt8) &&& 0x3f=0 := by decide
  cases control <;>
    simp [packetLooksLike,Stun.is,Stun.magicCookie,byteAt,uint16Bytes,geneveProtocolDisco,uint16Of,hmagic,hflag]

lemma looksLike_wireGuard (h : IsWireGuard msg) : packetLooksLike msg=(.wireGuard,false) := by
  obtain ⟨t,ht,rest,rfl⟩ := h
  have hdisco : looksLikeDisco (t::0::0::0::rest)=false := by
    simp [looksLikeDisco,discoMagic]
  simp [packetLooksLike,byteAt,uint16Of,geneveProtocolDisco,geneveProtocolWireGuard,hdisco]

lemma looksLike_geneve_wireGuard (control : Bool) (x y z : UInt8) :
    packetLooksLike ([0,if control then 0x80 else 0]++uint16Bytes geneveProtocolWireGuard++[x,y,z,0]++msg)
      = (.wireGuard,true) := by
  have hflag : (0x80 : UInt8) &&& 0x3f=0 := by decide
  cases control <;>
    simp [packetLooksLike,Stun.is,Stun.magicCookie,byteAt,uint16Bytes,geneveProtocolDisco,geneveProtocolWireGuard,
      uint16Of,hflag]

lemma receiveIP_geneve {h : Bytes} (hlen : h.length=8) (hpt : packetLooksLike (h++msg)=(.wireGuard,true)) :
    receiveIP true (h++msg)=some (msg,true) := by
  have hlong : ¬(h++msg).length<8 := by simp [hlen]
  have hsize : (h++msg).length-8=msg.length := by simp [hlen]
  have hdrop : (h++msg).drop 8=msg := List.drop_left' hlen
  rw [receiveIP,hpt,GeneveHeader.decode,GeneveHeader.decodeInto,if_neg hlong,hsize,hdrop]
  exact congrArg (fun m => some (m,true)) List.take_left

/-- Each kind is told apart as it is, and wireguard-go gets the WireGuard message alone. -/
theorem packets_told_apart (crc : Bytes → UInt32) (tID : Disco.TxID) :
    packetLooksLike (Stun.request crc tID)=(.stunBinding,false) ∧
    (∀ ap : AddrPort, ap.addr.isValid=true → packetLooksLike (Stun.response tID ap)=(.stunBinding,false)) ∧
    (∀ msg, IsDisco msg → packetLooksLike msg=(.disco,false) ∧ ∀ vni control, ∃ h,
      (header geneveProtocolDisco vni control).encode=.ok h ∧ packetLooksLike (h++msg)=(.disco,true)) ∧
    ∀ msg, IsWireGuard msg → packetLooksLike msg=(.wireGuard,false) ∧ receiveIP true msg=some (msg,false) ∧
      ∀ vni control, ∃ h, (header geneveProtocolWireGuard vni control).encode=.ok h ∧
        packetLooksLike (h++msg)=(.wireGuard,true) ∧ receiveIP true (h++msg)=some (msg,true) := by
  refine ⟨?_,?_,?_,?_⟩
  · rw [Stun.request]
    rw [List.append_assoc]
    exact looksLike_stun (.inl rfl) tID _ _
  · rintro ⟨ip,port⟩ hv
    cases ip with
    | zero => cases hv
    | v4 a => exact looksLike_stun (.inr rfl) tID _ _
    | v6 a zone => exact looksLike_stun (.inr rfl) tID _ _
  · intro msg h
    refine ⟨looksLike_disco h,fun vni control => ?_⟩
    obtain ⟨x,y,z,hencode⟩ := encode_header geneveProtocolDisco vni control
    exact ⟨_,hencode,looksLike_geneve_disco h control x y z⟩
  · intro msg h
    refine ⟨looksLike_wireGuard h,?_,fun vni control => ?_⟩
    · rw [receiveIP,looksLike_wireGuard h]
      rfl
    · obtain ⟨x,y,z,hencode⟩ := encode_header geneveProtocolWireGuard vni control
      refine ⟨_,hencode,looksLike_geneve_wireGuard control x y z,?_⟩
      exact receiveIP_geneve rfl (looksLike_geneve_wireGuard control x y z)

end Magicsock.Classify

end TunnnejiTail
