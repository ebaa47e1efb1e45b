import TunnnejiTail.Gro.Offload
import TunnnejiTail.Netstack.InjectInbound
import TunnnejiTail.Tstun.PeerConfig

/-! The receive path of the TUN wrapper: every packet of a batch is decoded, has its
destination translated and is filtered, and goes to netstack or to the device. Sending and
callbacks are events. Packet capture, metrics and logging are left out. -/
namespace TunnnejiTail.Tstun
open Go Netip Packet PacketFilter Netstack Gro

/-- What the processing of packets does besides returning. -/
inductive WriteEvent
  | injectOutbound (pkt : Bytes)
  | discoKeyAdvertisement (src : Addr) (key : Bytes)
  | tsmpPongReceived (data : Bytes) (peerAPIPort : UInt16)
  | unmappedTransitIP (rj : TailscaleRejectedHeader)
  | userPing (pingIP : Addr) (pong : Bytes)
  | networkPacket (pkt : PacketBuffer)

def WriteEvent.isNotice : WriteEvent → Bool
  | .discoKeyAdvertisement _ _ => true
  | .tsmpPongReceived _ _ => true
  | .unmappedTransitIP _ => true
  | _ => false

structure Wrapper (Handler : Type) where
  disableFilter : Bool
  disableTSMPRejected : Bool
  peerConfig : Option PeerConfigTable
  filter : Option Filter
  jailedFilter : Option Filter
  peerAPIPort : Option (Addr → UInt16 × Bool)
  discoKey : Bytes
  trackOpen : Bool
  appConnector : Option (Parsed → Response)
  ns : Option (PacketImpl Handler)
  dispatcher : Bool

/-- What packets change: the flow caches by filter state, and the pings of the engine that
still wait for their answer. -/
structure Shared where
  caches : ℕ → FlowCache
  echoCallbacks : List ℕ

/-- A packet that was handled: the response, the Parsed as it is left behind, and the effects. -/
structure Handled where
  response : Response
  q : Parsed
  shared : Shared
  events : List WriteEvent

/-- The identifier and sequence number of an echo response, at a fixed offset. -/
def echoIDSeq (q : Parsed) : ℕ :=
  if q.ipProto=.icmpv4 then
    if q.b.length < ip4HeaderLength+icmp4HeaderLength+4 then 0
    else beNat ((q.b.drop 24).take 4).reverse
  else if q.ipProto=.icmpv6 then
    if q.b.length < ip6HeaderLength+icmp6HeaderLength+4 then 0
    else beNat ((q.b.drop 44).take 4).reverse
  else 0

def discoMagic : Bytes := [0x54,0x53,0xf0,0x9f,0x92,0xac]

def looksLikeDiscoWrapper (p : Bytes) : Bool := 6+32+24≤p.length && p.take 6=discoMagic

/-- trackOpenPreFilterIn; the table of pending flows it keeps does not affect the packet. -/
def trackOpenPreFilterIn (q : Parsed) : Except Fault Response :=
  if q.ipProto=.tsmp then do
    match ← q.asTailscaleRejectedHeader with
    | none => return .accept
    | some rh =>
      return if rh.reason=rejectedDueToUnknownAppConnectorTransitIP then .accept else .dropSilently
  else .ok .accept

def TSMPPongReply.generate (h : TSMPPongReply) : Except Fault Bytes :=
  Packet.generate h.len h.marshal .ok []

/-- The TSMP messages that are only noted: a disco key, a pong or a rejection. -/
def noticeTSMP (q : Parsed) : Except Fault (Option Response × List WriteEvent) := do
  match ← q.asTSMPDiscoAdvertisement with
  | some ka => return (some .dropSilently,[.discoKeyAdvertisement ka.src ka.key])
  | none => do
    match ← q.asTSMPPong with
    | some (data,port) => return (none,[.tsmpPongReceived data port])
    | none => do
      match ← q.asTailscaleRejectedHeader with
      | some rj => return (none,if rj.reason=rejectedDueToUnknownAppConnectorTransitIP then
          [.unmappedTransitIP rj] else [])
      | none => return (none,[])

namespace Wrapper
variable {Handler : Type}

def injectOutboundPong (W : Wrapper Handler) (q : Parsed) (data : Bytes) :
    Except Fault (List WriteEvent) :=
  let port := match W.peerAPIPort with
    | some f => (f q.dst.addr).1
    | none => 0
  if q.ipVersion=4 then do
    let h4 ← q.ip4Header
    let pkt ← TSMPPongReply.generate ⟨.v4 h4.toResponse,data,port⟩
    return [.injectOutbound pkt]
  else if q.ipVersion=6 then do
    let h6 ← q.ip6Header
    let pkt ← TSMPPongReply.generate ⟨.v6 h6.toResponse,data,port⟩
    return [.injectOutbound pkt]
  else .ok []

/-- The TSMP messages, with the response when it is settled by them. -/
def handleTSMP (W : Wrapper Handler) (q : Parsed) : Except Fault (Option Response × List WriteEvent) :=
  if q.ipProto=.tsmp then do
    match ← q.asTSMPPing with
    | some data => do
      let events ← W.injectOutboundPong q data
      return (some .dropSilently,events)
    | none => noticeTSMP q
  else .ok (none,[])

def isSelfDisco (W : Wrapper Handler) (q : Parsed) : Except Fault Bool :=
  if q.ipProto≠.udp then .ok false
  else do
    let pkt ← q.payload
    return looksLikeDiscoWrapper pkt && (pkt.drop 6).take 32=W.discoKey

def preFilter (W : Wrapper Handler) (q : Parsed) : Except Fault Response :=
  if W.trackOpen then trackOpenPreFilterIn q else .ok .accept

/-- A packet that opens a connection to the peer API passes whatever the filter says. -/
def isPeerAPI (W : Wrapper Handler) (q : Parsed) : Bool :=
  q.ipProto=.tcp && q.tcpFlags &&& tcpSyn≠0 &&
    match W.peerAPIPort with
    | none => false
    | some f => (f q.dst.addr).2 && (f q.dst.addr).1=q.dst.port

/-- The rejection for a packet that the filter drops. -/
def rejection (filt : Filter) (q : Parsed) : TailscaleRejectedHeader where
  ipSrc := q.dst.addr
  ipDst := q.src.addr
  src := q.src
  dst := q.dst
  proto := q.ipProto
  reason := if filt.shieldsUp then rejectedDueToShieldsUp else rejectedDueToACLs
  maybeBroken := false

def sendRejection (W : Wrapper Handler) (filt : Filter) (q : Parsed) :
    Except Fault (List WriteEvent) :=
  if q.ipVersion=4 ∧ q.ipProto=.tcp ∧ q.tcpFlags &&& tcpSyn≠0 ∧ !W.disableTSMPRejected then do
    let pkt ← generate (rejection filt q).len (rejection filt q).marshal .ok []
    return [.injectOutbound pkt]
  else .ok []

/-- What the link endpoint makes of a packet from injectInbound. -/
def handOver (L : Library) (W : Wrapper Handler) (q : Parsed) :
    List InboundEvent → Except Fault (Parsed × List WriteEvent)
  | [.delivered _] =>
    if W.dispatcher then do
      let (q,pkt) ← rxChecksumOffload L q
      return (q,pkt.toList.map .networkPacket)
    else .ok (q,[])
  | [.userPing pingIP pong] => .ok (q,[.userPing pingIP pong])
  | _ => .ok (q,[])

def toNetstack (L : Library) (W : Wrapper Handler) (q : Parsed) (s : Shared) : Except Fault Handled :=
  match W.ns with
  | none => .ok ⟨.accept,q,s,[]⟩
  | some ns => do
    let (res,inbound) ← ns.injectInbound q
    let (q,events) ← W.handOver L q inbound
    return ⟨if res.isDrop then res else .accept,q,s,events⟩

def taken (W : Wrapper Handler) (q : Parsed) : Option Response :=
  match W.appConnector with
  | none => none
  | some f => if (f q).isDrop then some (f q) else none

def filterFor (W : Wrapper Handler) (q : Parsed) : Option Filter :=
  if inboundPacketIsJailed W.peerConfig q then W.jailedFilter else W.filter

/-- From the filter on. -/
def filtered (T : BartLite) (L : Library) (W : Wrapper Handler) (q : Parsed) (s : Shared) :
    Except Fault Handled :=
  match W.filterFor q with
  | none => .ok ⟨.drop,q,s,[]⟩
  | some filt =>
    let (outcome,lru) := filt.runIn T (s.caches filt.state) q
    let s := { s with caches := Function.update s.caches filt.state lru }
    if outcome≠.accept ∧ W.isPeerAPI q=false then do
      let events ← W.sendRejection filt q
      return ⟨.drop,q,s,events⟩
    else match W.taken q with
      | some res => .ok ⟨res,q,s,[]⟩
      | none => W.toNetstack L q s

/-- The checks between the TSMP messages and the filter. -/
def checked (T : BartLite) (L : Library) (W : Wrapper Handler) (q : Parsed) (s : Shared) :
    Except Fault Handled :=
  if q.isEchoResponse ∧ echoIDSeq q ∈ s.echoCallbacks then
    .ok ⟨.dropSilently,q,{ s with echoCallbacks := s.echoCallbacks.erase (echoIDSeq q) },[]⟩
  else do
    let selfDisco ← W.isSelfDisco q
    if selfDisco then return ⟨.dropSilently,q,s,[]⟩
    else do
      let res ← W.preFilter q
      if res.isDrop then return ⟨res,q,s,[]⟩ else W.filtered T L q s

def filterPacketInboundFromWireGuard (T : BartLite) (L : Library) (W : Wrapper Handler) (q : Parsed)
    (s : Shared) : Except Fault Handled := do
  match ← W.handleTSMP q with
  | (some res,events) => return ⟨res,q,s,events⟩
  | (none,events) => do
    let h ← W.checked T L q s
    return { h with events := events++h.events }

end Wrapper

/-- The state of the loop in Write: the pooled Parsed, what packets change, the packets that go
on to the device and the events so far. -/
structure Batch where
  q : Parsed
  shared : Shared
  buffs : List Bytes
  events : List WriteEvent

def Batch.add (st : Batch) (h : Handled) : Batch where
  q := h.q
  shared := h.shared
  buffs := if h.response=.accept then st.buffs++[h.q.b] else st.buffs
  events := st.events++h.events

namespace Wrapper
variable {Handler : Type}

def writeOne (T : BartLite) (L : Library) (W : Wrapper Handler) (st : Batch) (buff : Bytes) :
    Except Fault Batch := do
  let q ← st.q.decode buff
  let q ← dnat W.peerConfig q
  if W.disableFilter then return { st with q := q, buffs := st.buffs++[q.b] }
  else do
    let h ← W.filterPacketInboundFromWireGuard T L q st.shared
    return st.add h

def write (T : BartLite) (L : Library) (W : Wrapper Handler) (st : Batch) (buffs : List Bytes) :
    Except Fault Batch := buffs.foldlM (W.writeOne T L) st

end Wrapper

end TunnnejiTail.Tstun
