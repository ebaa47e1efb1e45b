import TunnnejiTail.Go.Cursor
import TunnnejiTail.Net.Netip
import TunnnejiTail.Types.Key

/-! The messages of the disco protocol, how AppendMarshal writes them and how Parse reads them. -/
namespace TunnnejiTail.Disco
open Go Netip TunnnejiTail.Types

structure TxID where
  bytes : Bytes
  size : bytes.length=12
  deriving DecidableEq

def TxID.ofSlice (p : Bytes) : TxID :=
  ⟨p.take 12++List.replicate (12-p.length) 0,by
    rw [List.length_append,List.length_take,List.length_replicate]
    omega⟩

structure BindUDPRelayEndpointCommon where
  vni : UInt32
  generation : UInt32
  remoteKey : DiscoPublic
  challenge : Raw32
  deriving DecidableEq

structure UDPRelayEndpoint where
  serverDisco : DiscoPublic
  clientDisco : DiscoPublic × DiscoPublic
  lamportID : UInt64
  vni : UInt32
  bindLifetime : Int64
  steadyStateLifetime : Int64
  addrPorts : List AddrPort
  deriving DecidableEq

inductive Message
  | ping (txID : TxID) (nodeKey : NodePublic) (padding : ℤ)
  | pong (txID : TxID) (src : AddrPort)
  | callMeMaybe (myNumber : List AddrPort)
  | bindUDPRelayEndpoint (common : BindUDPRelayEndpointCommon)
  | bindUDPRelayEndpointChallenge (common : BindUDPRelayEndpointCommon)
  | bindUDPRelayEndpointAnswer (common : BindUDPRelayEndpointCommon)
  | callMeMaybeVia (endpoint : UDPRelayEndpoint)
  | allocateUDPRelayEndpointRequest (clientDisco : DiscoPublic × DiscoPublic) (generation : UInt32)
  | allocateUDPRelayEndpointResponse (generation : UInt32) (endpoint : UDPRelayEndpoint)
  deriving DecidableEq

def typePing : UInt8 := 1
def typePong : UInt8 := 2
def typeCallMeMaybe : UInt8 := 3
def typeBindUDPRelayEndpoint : UInt8 := 4
def typeBindUDPRelayEndpointChallenge : UInt8 := 5
def typeBindUDPRelayEndpointAnswer : UInt8 := 6
def typeCallMeMaybeVia : UInt8 := 7
def typeAllocateUDPRelayEndpointRequest : UInt8 := 8
def typeAllocateUDPRelayEndpointResponse : UInt8 := 9

def v0 : UInt8 := 0
def epLength : ℕ := 18
def pongLen : ℕ := 30
def bindUDPRelayEndpointCommonLen : ℕ := 72
def allocateUDPRelayEndpointRequestLen : ℕ := 68
def udpRelayEndpointLenMinusAddrPorts : ℕ := 124

/-! Writing -/

/-- The header behind b and the zeroed data behind that; making a slice of negative length panics. -/
def appendMsgHeader (b : Bytes) (t ver : UInt8) (dataLen : ℤ) : Except Fault (Bytes × Cursor) :=
  if dataLen+2<0 then .error .panicked
  else if dataLen+2<2 then .error .indexOutOfRange
  else .ok (b++[t,ver],⟨[],List.replicate dataLen.toNat 0⟩)

def putAddrPort (ipp : AddrPort) (p : Cursor) : Except Fault Cursor := do
  let p ← (p.copy (beBytes 16 ipp.addr.as16.toNat)).putUintAt 16 2 ipp.port.toNat
  p.advance epLength

def putKey (k : Raw32) (p : Cursor) : Except Fault Cursor := (p.copy k.bytes).advance 32

namespace BindUDPRelayEndpointCommon

def encode (spare : ℕ) (m : BindUDPRelayEndpointCommon) (b : Cursor) : Except Fault Cursor := do
  let b ← b.putUint 4 m.vni.toNat
  let b ← b.advance 4
  let b ← b.putUint 4 m.generation.toNat
  let b ← b.advance 4
  let b ← (b.appendTo spare m.remoteKey.bytes).advance 32
  return b.copy m.challenge.bytes

end BindUDPRelayEndpointCommon

namespace UDPRelayEndpoint

def encode (m : UDPRelayEndpoint) (b : Cursor) : Except Fault Cursor := do
  let b ← putKey m.serverDisco b
  let b ← putKey m.clientDisco.1 b
  let b ← putKey m.clientDisco.2 b
  let b ← b.putUint 8 m.lamportID.toNat
  let b ← b.advance 8
  let b ← b.putUint 4 m.vni.toNat
  let b ← b.advance 4
  let b ← b.putUint 8 m.bindLifetime.toUInt64.toNat
  let b ← b.advance 8
  let b ← b.putUint 8 m.steadyStateLifetime.toUInt64.toNat
  let b ← b.advance 8
  m.addrPorts.foldlM (fun b ipp => putAddrPort ipp b) b

end UDPRelayEndpoint

/-- What stands behind the header. Only a ping may have less room than it needs, if its padding is
negative; its key then goes to the spare capacity of the buffer, or to a new one and is lost. -/
def Message.encode (spare : ℕ) (d : Cursor) : Message → Except Fault Cursor
  | .ping txID nodeKey _ => do
    let n := min txID.bytes.length d.rest.length
    let d ← (d.copy txID.bytes).advance n
    return if nodeKey.isZero then d else d.appendTo spare nodeKey.bytes
  | .pong txID src => do
    let d ← (d.copy txID.bytes).advance 12
    let d ← (d.copy (beBytes 16 src.addr.as16.toNat)).advance 16
    d.putUint 2 src.port.toNat
  | .callMeMaybe myNumber => myNumber.foldlM (fun p ipp => putAddrPort ipp p) d
  | .bindUDPRelayEndpoint common => common.encode spare d
  | .bindUDPRelayEndpointChallenge common => common.encode spare d
  | .bindUDPRelayEndpointAnswer common => common.encode spare d
  | .callMeMaybeVia endpoint => endpoint.encode d
  | .allocateUDPRelayEndpointRequest clientDisco generation => do
    let p ← putKey clientDisco.1 d
    let p ← putKey clientDisco.2 p
    p.putUint 4 generation.toNat
  | .allocateUDPRelayEndpointResponse generation endpoint => do
    let d ← d.putUint 4 generation.toNat
    let d ← d.advance 4
    endpoint.encode d

def Message.type : Message → UInt8
  | .ping .. => typePing
  | .pong .. => typePong
  | .callMeMaybe .. => typeCallMeMaybe
  | .bindUDPRelayEndpoint .. => typeBindUDPRelayEndpoint
  | .bindUDPRelayEndpointChallenge .. => typeBindUDPRelayEndpointChallenge
  | .bindUDPRelayEndpointAnswer .. => typeBindUDPRelayEndpointAnswer
  | .callMeMaybeVia .. => typeCallMeMaybeVia
  | .allocateUDPRelayEndpointRequest .. => typeAllocateUDPRelayEndpointRequest
  | .allocateUDPRelayEndpointResponse .. => typeAllocateUDPRelayEndpointResponse

def Message.dataLen : Message → ℤ
  | .ping _ nodeKey padding => (if nodeKey.isZero then 12 else 12+32)+padding
  | .pong .. => pongLen
  | .callMeMaybe myNumber => epLength*myNumber.length
  | .bindUDPRelayEndpoint .. => bindUDPRelayEndpointCommonLen
  | .bindUDPRelayEndpointChallenge .. => bindUDPRelayEndpointCommonLen
  | .bindUDPRelayEndpointAnswer .. => bindUDPRelayEndpointCommonLen
  | .callMeMaybeVia endpoint => udpRelayEndpointLenMinusAddrPorts+epLength*endpoint.addrPorts.length
  | .allocateUDPRelayEndpointRequest .. => allocateUDPRelayEndpointRequestLen
  | .allocateUDPRelayEndpointResponse _ endpoint =>
    4+udpRelayEndpointLenMinusAddrPorts+epLength*endpoint.addrPorts.length

def Message.appendMarshal (spare : ℕ) (m : Message) (b : Bytes) : Except Fault Bytes := do
  let (head,d) ← appendMsgHeader b m.type v0 m.dataLen
  let d ← m.encode spare d
  return head++d.bytes

/-! Reading -/

inductive Err
  | short
  | unknownType (t : UInt8)
  deriving DecidableEq

structure Parsed where
  msg : Option Message
  err : Option Err
  deriving DecidableEq

def raw32 (b : Bytes) : Except Fault Raw32 := do
  let v ← slice b 0 32
  if h : v.length=32 then .ok ⟨v,h⟩ else .error .panicked

/-- copy into an array of 16 bytes, read as an address and unmapped. -/
def addrFrom16 (p : Bytes) : Addr :=
  (Addr.v6 (BitVec.ofNat 128 (beNat (p.take 16++List.replicate (16-p.length) 0))) []).unmap

/-- The loop over the addresses; each round takes 18 bytes, so that as many rounds as bytes are enough. -/
def readAddrPortsLoop : ℕ → Bytes → List AddrPort → Except Fault (List AddrPort)
  | _,[],acc => .ok acc
  | 0,_::_,_ => .error .panicked
  | fuel+1,x::p,acc => do
    let port ← beUint 2 (← slice (x::p) 16 18)
    let rest ← sliceFrom (x::p) epLength
    readAddrPortsLoop fuel rest (acc++[⟨addrFrom16 (x::p),UInt16.ofNat port⟩])

def readAddrPorts (p : Bytes) : Except Fault (List AddrPort) := readAddrPortsLoop p.length p []

def parsePing (p : Bytes) : Except Fault Parsed :=
  if p.length<12 then .ok ⟨none,some .short⟩
  else do
    let txID := TxID.ofSlice p
    let rest ← sliceFrom p (min 12 p.length)
    if 32 ≤ rest.length then do
      let nodeKey ← raw32 rest
      return ⟨some (.ping txID nodeKey (p.length-12-32)),none⟩
    else return ⟨some (.ping txID (.fill 0) (p.length-12)),none⟩

def parsePong (p : Bytes) : Except Fault Parsed :=
  if p.length<pongLen then .ok ⟨none,some .short⟩
  else do
    let txID := TxID.ofSlice p
    let p ← sliceFrom p 12
    let srcIP := addrFrom16 (← slice p 0 16)
    let p ← sliceFrom p 16
    let port ← beUint 2 p
    return ⟨some (.pong txID ⟨srcIP,UInt16.ofNat port⟩),none⟩

def parseCallMeMaybe (ver : UInt8) (p : Bytes) : Except Fault Parsed :=
  if p.length%epLength≠0 ∨ ver≠0 ∨ p.length=0 then .ok ⟨some (.callMeMaybe []),none⟩
  else do return ⟨some (.callMeMaybe (← readAddrPorts p)),none⟩

namespace BindUDPRelayEndpointCommon

def decode (b : Bytes) : Except Fault (Option BindUDPRelayEndpointCommon) :=
  if b.length<bindUDPRelayEndpointCommonLen then .ok none
  else do
    let vni ← beUint 4 b
    let b ← sliceFrom b 4
    let generation ← beUint 4 b
    let b ← sliceFrom b 4
    let remoteKey ← raw32 b
    let b ← sliceFrom b 32
    let challenge ← raw32 b
    return some ⟨UInt32.ofNat vni,UInt32.ofNat generation,remoteKey,challenge⟩

end BindUDPRelayEndpointCommon

def parseBind (msg : BindUDPRelayEndpointCommon → Message) (p : Bytes) : Except Fault Parsed := do
  match ← BindUDPRelayEndpointCommon.decode p with
  | none => return ⟨none,some .short⟩
  | some common => return ⟨some (msg common),none⟩

def parseBindUDPRelayEndpoint : Bytes → Except Fault Parsed := parseBind .bindUDPRelayEndpoint

def parseBindUDPRelayEndpointChallenge : Bytes → Except Fault Parsed := parseBind .bindUDPRelayEndpointChallenge

def parseBindUDPRelayEndpointAnswer : Bytes → Except Fault Parsed := parseBind .bindUDPRelayEndpointAnswer

def parseAllocateUDPRelayEndpointRequest (ver : UInt8) (p : Bytes) : Except Fault Parsed :=
  let m : Message := .allocateUDPRelayEndpointRequest (.fill 0,.fill 0) 0
  if ver≠0 then .ok ⟨some m,none⟩
  else if p.length<allocateUDPRelayEndpointRequestLen then .ok ⟨some m,some .short⟩
  else do
    let disco0 ← raw32 p
    let p ← sliceFrom p 32
    let disco1 ← raw32 p
    let p ← sliceFrom p 32
    let generation ← beUint 4 p
    return ⟨some (.allocateUDPRelayEndpointRequest (disco0,disco1) (UInt32.ofNat generation)),none⟩

namespace UDPRelayEndpoint

def zero : UDPRelayEndpoint := ⟨.fill 0,(.fill 0,.fill 0),0,0,0,0,[]⟩

/-- The capacity of the list is computed from the length; a negative one would panic. -/
def decode (b : Bytes) : Except Fault (Option UDPRelayEndpoint) :=
  if b.length<udpRelayEndpointLenMinusAddrPorts+epLength ∨
      (b.length-udpRelayEndpointLenMinusAddrPorts)%epLength≠0 then .ok none
  else do
    let serverDisco ← raw32 b
    let b ← sliceFrom b 32
    let clientDisco0 ← raw32 b
    let b ← sliceFrom b 32
    let clientDisco1 ← raw32 b
    let b ← sliceFrom b 32
    let lamportID ← beUint 8 (← slice b 0 8)
    let b ← sliceFrom b 8
    let vni ← beUint 4 (← slice b 0 4)
    let b ← sliceFrom b 4
    let bindLifetime ← beUint 8 (← slice b 0 8)
    let b ← sliceFrom b 8
    let steadyStateLifetime ← beUint 8 (← slice b 0 8)
    let b ← sliceFrom b 8
    if b.length<udpRelayEndpointLenMinusAddrPorts/epLength then .error .panicked else
    let ports ← readAddrPorts b
    return some ⟨serverDisco,(clientDisco0,clientDisco1),UInt64.ofNat lamportID,UInt32.ofNat vni,
      (UInt64.ofNat bindLifetime).toInt64,(UInt64.ofNat steadyStateLifetime).toInt64,ports⟩

end UDPRelayEndpoint

def parseAllocateUDPRelayEndpointResponse (ver : UInt8) (p : Bytes) : Except Fault Parsed :=
  if ver≠0 then .ok ⟨some (.allocateUDPRelayEndpointResponse 0 .zero),none⟩
  else if p.length<4 then .ok ⟨some (.allocateUDPRelayEndpointResponse 0 .zero),some .short⟩
  else do
    let generation ← beUint 4 p
    match ← UDPRelayEndpoint.decode (← sliceFrom p 4) with
    | none => return ⟨some (.allocateUDPRelayEndpointResponse (UInt32.ofNat generation) .zero),some .short⟩
    | some endpoint => return ⟨some (.allocateUDPRelayEndpointResponse (UInt32.ofNat generation) endpoint),none⟩

def parseCallMeMaybeVia (ver : UInt8) (p : Bytes) : Except Fault Parsed :=
  if ver≠0 then .ok ⟨some (.callMeMaybeVia .zero),none⟩
  else do
    match ← UDPRelayEndpoint.decode p with
    | none => return ⟨some (.callMeMaybeVia .zero),some .short⟩
    | some endpoint => return ⟨some (.callMeMaybeVia endpoint),none⟩

/-- The dispatch of Parse on the type of a message. -/
def parseAs (t ver : UInt8) (p : Bytes) : Except Fault Parsed :=
  if t=typePing then parsePing p
  else if t=typePong then parsePong p
  else if t=typeCallMeMaybe then parseCallMeMaybe ver p
  else if t=typeBindUDPRelayEndpoint then parseBindUDPRelayEndpoint p
  else if t=typeBindUDPRelayEndpointChallenge then parseBindUDPRelayEndpointChallenge p
  else if t=typeBindUDPRelayEndpointAnswer then parseBindUDPRelayEndpointAnswer p
  else if t=typeCallMeMaybeVia then parseCallMeMaybeVia ver p
  else if t=typeAllocateUDPRelayEndpointRequest then parseAllocateUDPRelayEndpointRequest ver p
  else if t=typeAllocateUDPRelayEndpointResponse then parseAllocateUDPRelayEndpointResponse ver p
  else .ok ⟨none,some (.unknownType t)⟩

def parse (p : Bytes) : Except Fault Parsed :=
  if p.length<2 then .ok ⟨none,some .short⟩
  else do
    let t ← index p 0
    let ver ← index p 1
    parseAs t ver (← sliceFrom p 2)

end TunnnejiTail.Disco
