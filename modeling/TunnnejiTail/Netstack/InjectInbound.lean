import TunnnejiTail.Netstack.Impl
import TunnnejiTail.Packet.Generate
import TunnnejiTail.PacketFilter.Filter

/-! Packets from a peer on their way into netstack. An echo request is dropped or answered by
a ping of its own before the stack sees it; everything else is delivered to the stack. -/
namespace TunnnejiTail.Netstack
open Go Netip Packet PacketFilter Parsed

/-- The fields of Impl that only the packet path reads. -/
structure PacketImpl (Handler : Type) extends Impl Handler where
  ready : Bool
  ctxDone : Bool
  dropICMP : Bool
  processLocalIPs : Bool
  processSubnets : Bool
  shouldInterceptTCPPort : UInt16 → Bool

/-- What becomes of a packet: it is delivered to the link endpoint, or a ping is started with
the answer to send when it works. -/
inductive InboundEvent
  | delivered (q : Parsed)
  | userPing (pingIP : Addr) (pong : Bytes)
  deriving DecidableEq

/-- The answer to an echo request. -/
def pongFor (q : Parsed) : Except Fault Bytes :=
  if q.dst.addr.is4 then do
    let h ← q.icmp4Header
    let payload ← q.payload
    generate ICMP4Header.len h.toResponse.marshal .ok payload
  else if q.dst.addr.is6 then do
    let h ← q.icmp6Header
    let payload ← q.payload
    generate ICMP6Header.len h.toResponse.marshal h.toResponse.writeChecksum payload
  else .ok []

namespace PacketImpl
variable {Handler : Type}

def shouldProcessInbound (ns : PacketImpl Handler) (q : Parsed) : Bool :=
  let isLocal := ns.isLocalIP q.dst.addr
  (ns.lb.isSome && q.ipProto=.tcp && isLocal && ns.shouldInterceptTCPPort q.dst.port) ||
    (ns.processLocalIPs && isLocal) || (ns.processSubnets && !isLocal)

def shouldHandlePing (ns : PacketImpl Handler) (q : Parsed) : Option Addr :=
  if !q.isEchoRequest then none
  else if viaRange.contains q.dst.addr then some (unmapVia q.dst.addr)
  else if !ns.processSubnets then none
  else if isTailscaleIP q.dst.addr then none
  else some q.dst.addr

def injectInbound (ns : PacketImpl Handler) (q : Parsed) :
    Except Fault (Response × List InboundEvent) :=
  if !ns.ready || ns.ctxDone then .ok (.dropSilently,[])
  else if !ns.shouldProcessInbound q then .ok (.accept,[])
  else if ns.dropICMP && q.isEchoRequest then .ok (.dropSilently,[])
  else match ns.shouldHandlePing q with
    | some pingIP => do
      let pong ← pongFor q
      return (.dropSilently,[.userPing pingIP pong])
    | none => .ok (.dropSilently,[.delivered q])

end PacketImpl

def IsPing (proto t : UInt8) : Prop :=
  proto=Proto.icmpv4 ∧ t=8 ∨ proto=Proto.icmpv6 ∧ t=128

/-- An IPv4 packet with any header length, unfragmented or a first fragment, with a ping. -/
structure Ping4 (b : Bytes) : Prop where
  version : byteAt b 0 >>> 4=4
  long : 20≤b.length
  total : totalLen4 b≤b.length
  header : headerLen4 b≤totalLen4 b
  first : fragOfs4 b=0
  message : headerLen4 b+4≤b.length
  ping : IsPing (byteAt b 9) (byteAt b (headerLen4 b))

/-- The protocol after the IPv6 header and a leading Fragment header. -/
def nextHeader6 (b : Bytes) : Proto := if leadsFragment b then byteAt b 40 else byteAt b 6

def transportOfs6 (b : Bytes) : ℕ := if leadsFragment b then 48 else 40

/-- An IPv6 packet, with or without a leading Fragment header, with a ping. -/
structure Ping6 (b : Bytes) : Prop where
  version : byteAt b 0 >>> 4=6
  long : 40≤b.length
  total : totalLen6 b≤b.length
  fragment : leadsFragment b → fragOfs6 b=0
  message : transportOfs6 b+4≤b.length
  ping : IsPing (nextHeader6 b) (byteAt b (transportOfs6 b))

def icmpOfs (b : Bytes) : ℕ := if byteAt b 0 >>> 4=4 then headerLen4 b else transportOfs6 b

def icmpProto (b : Bytes) : Proto := if byteAt b 0 >>> 4=4 then byteAt b 9 else nextHeader6 b

variable {proto t : UInt8}

lemma keptProto_ping4 (h : IsPing proto t) {n : ℕ} (hn : 4≤n) (more : Bool) :
    keptProto (unreadable4 proto n more) proto=proto := by
  have hs : unreadable4 proto n more=false := by
    obtain ⟨rfl,_⟩ | ⟨rfl,_⟩ := h
    · have hlt : ¬n<4 := by omega
      change (decide (n<4))=false
      simpa using hlt
    · change (decide (n<0))=false
      simp
  rw [hs]
  rfl

lemma keptProto_ping6 (h : IsPing proto t) {n : ℕ} (hn : 4≤n) :
    keptProto (unreadable6 proto n) proto=proto := by
  have hs : unreadable6 proto n=false := by
    obtain ⟨rfl,_⟩ | ⟨rfl,_⟩ := h
    · change (decide (n<0))=false
      simp
    · have hlt : ¬n<4 := by omega
      change (decide (n<4))=false
      simpa using hlt
  rw [hs]
  rfl

lemma decode_ping {q0 q : Parsed} {b : Bytes} (hdec : q0.decode b=.ok q) (hb : Ping4 b ∨ Ping6 b) :
    q.b=b ∧ q.ipProto=icmpProto b ∧ q.subofs=icmpOfs b ∧ icmpOfs b+4≤b.length ∧
      IsPing (icmpProto b) (byteAt b (icmpOfs b)) := by
  obtain ⟨hbuf,hcases⟩ := (q0.decode_returns b).elim hdec
  obtain h | h := hb
  · obtain ⟨h4,_⟩ | ⟨_,_,h6⟩ | ⟨_,_,hn,_⟩ := hcases
    · have hv := h.version
      have hp : proto4 b=byteAt b 9 := by
        have htotal := h.total
        have hheader := h.header
        have hmessage := h.message
        rw [proto4,if_neg (by omega),if_pos h.first]
        exact keptProto_ping4 h.ping (by omega) _
      rw [icmpProto,icmpOfs,if_pos hv,if_pos hv]
      exact ⟨hbuf,h4.ipProto.trans hp,h4.subofs h.total,h.message,h.ping⟩
    · rw [h.version] at h6
      cases h6
    · exact absurd ⟨h.long,h.version⟩ hn
  · obtain ⟨_,_,h4⟩ | ⟨h6,_⟩ | ⟨_,_,_,hn⟩ := hcases
    · rw [h.version] at h4
      cases h4
    · have hv : ¬byteAt b 0 >>> 4=4 := by
        rw [h.version]
        decide
      have htotal : ¬b.length<totalLen6 b := Nat.not_lt.mpr h.total
      have hping := h.ping
      have hmessage := h.message
      rw [icmpProto,icmpOfs,if_neg hv,if_neg hv]
      refine ⟨hbuf,h6.ipProto.trans ?_,h6.subofs h.total,hmessage,hping⟩
      rw [proto6,if_neg htotal]
      by_cases hl : leadsFragment b
      · have hfrag := Bool.and_eq_true_iff.mp hl
        rw [nextHeader6,if_pos hl] at hping ⊢
        rw [transportOfs6,if_pos hl] at hmessage
        rw [if_pos (of_decide_eq_true hfrag.1),if_neg (by omega),if_pos (h.fragment hl)]
        exact keptProto_ping6 hping (by omega)
      · rw [nextHeader6,if_neg hl] at hping ⊢
        rw [transportOfs6,if_neg hl] at hmessage
        have hne : ¬byteAt b 6=Proto.ip6FragHeader := by
          obtain ⟨h1,_⟩ | ⟨h1,_⟩ := hping
          · rw [h1]
            decide
          · rw [h1]
            decide
        rw [if_neg hne]
        exact keptProto_ping6 hping (by omega)
    · exact absurd ⟨h.long,h.version⟩ hn

lemma isEchoRequest_ping {q : Parsed} {b : Bytes} {ofs : ℕ} (hbuf : q.b=b)
    (hofs : q.subofs=ofs) (hping : IsPing q.ipProto (byteAt b ofs)) :
    q.isEchoRequest ↔ byteAt b (ofs+1)=0 ∧ ofs+8≤b.length := by
  subst hbuf hofs
  have hcode : ∀ t, byteAt q.b q.subofs=t → (q.icmpTypeCode=some (t,0) ↔
      byteAt q.b (q.subofs+1)=0 ∧ q.subofs+8≤q.b.length) := by
    intro t ht
    unfold icmpTypeCode
    split_ifs with h8
    · rw [getElem_eq_byteAt,getElem_eq_byteAt,ht]
      simp [h8]
    · simp [h8]
  obtain ⟨hp,ht⟩ | ⟨hp,ht⟩ := hping
  · rw [isEchoRequest,if_pos hp,decide_eq_true_eq]
    exact hcode 8 ht
  · have hn : ¬q.ipProto=Proto.icmpv4 := by
      rw [hp]
      decide
    rw [isEchoRequest,if_neg hn,if_pos hp,decide_eq_true_eq]
    exact hcode 128 ht

section
variable {Handler : Type} {ns : PacketImpl Handler} {q : Parsed}

lemma injectInbound_delivers (hready : ns.ready) (hctx : ns.ctxDone=false)
    (hproc : ns.shouldProcessInbound q) (hn : q.isEchoRequest=false) :
    ns.injectInbound q=.ok (.dropSilently,[.delivered q]) := by
  rw [PacketImpl.injectInbound,hready,hctx,hproc,hn,Bool.and_false]
  simp [PacketImpl.shouldHandlePing,hn]

/-- With DropICMP a ping is dropped without a trace exactly when netstack is closed, or
processes the packet and finds code zero and a whole echo header in it. -/
theorem ping_dropped_iff {q0 : Parsed} {b : Bytes} (hready : ns.ready) (hdrop : ns.dropICMP)
    (hdec : q0.decode b=.ok q) (hb : Ping4 b ∨ Ping6 b) :
    ns.injectInbound q=.ok (.dropSilently,[]) ↔ ns.ctxDone ∨
      ns.shouldProcessInbound q ∧ byteAt b (icmpOfs b+1)=0 ∧ icmpOfs b+8≤b.length := by
  obtain ⟨hbuf,hproto,hofs,_,hping⟩ := decode_ping hdec hb
  rw [← hproto] at hping
  rw [← isEchoRequest_ping hbuf hofs hping]
  cases hctx : ns.ctxDone with
  | true => simp [PacketImpl.injectInbound,hctx]
  | false =>
    cases hproc : ns.shouldProcessInbound q with
    | false => simp [PacketImpl.injectInbound,hready,hctx,hproc]
    | true =>
      cases hecho : q.isEchoRequest with
      | true => simp [PacketImpl.injectInbound,hready,hctx,hproc,hdrop,hecho]
      | false =>
        rw [injectInbound_delivers hready hctx hproc hecho]
        simp

end

/-- A netstack that takes all packets and drops pings; its address is 100.64.0.1. -/
def stealthStack : PacketImpl Unit where
  tables := {}
  stealthDrop := true
  isLocalIP := fun ip => ip=.v4 0x64400001#32
  lb := some fun _ _ => none
  ready := true
  ctxDone := false
  dropICMP := true
  processLocalIPs := true
  processSubnets := true
  shouldInterceptTCPPort := fun _ => false

/-- An echo request of the given code from 100.64.0.2 to 100.64.0.1. -/
def pingBytes (code : UInt8) : Bytes :=
  [0x45,0,0,28,0,0,0,0,64,1,0,0,100,64,0,2,100,64,0,1,8,code,0,0,0,1,0,1]

def pingParsed (code : UInt8) : Parsed where
  b := pingBytes code
  subofs := 20
  dataofs := 24
  length := 28
  ipVersion := 4
  ipProto := .icmpv4
  src := ⟨.v4 0x64400002#32,0⟩
  dst := ⟨.v4 0x64400001#32,0⟩

theorem ping_dropped_code_zero : stealthStack.injectInbound (pingParsed 0)=.ok (.dropSilently,[]) :=
  (ping_dropped_iff rfl rfl (show Parsed.decode {} (pingBytes 0)=.ok (pingParsed 0) from rfl)
    (.inl ⟨rfl,by decide,by decide,by decide,rfl,by decide,.inl ⟨rfl,by decide⟩⟩)).mpr
    (.inr ⟨rfl,by decide,by decide⟩)

/-- A ping with code 1 goes to the stack. -/
theorem ping_with_code_delivered : stealthStack.ready ∧ stealthStack.dropICMP ∧ Ping4 (pingBytes 1) ∧
      Parsed.decode {} (pingBytes 1)=.ok (pingParsed 1) ∧
      stealthStack.injectInbound (pingParsed 1)=.ok (.dropSilently,[.delivered (pingParsed 1)]) :=
  ⟨rfl,rfl,⟨rfl,by decide,by decide,by decide,rfl,by decide,.inl ⟨rfl,by decide⟩⟩,rfl,rfl⟩

end TunnnejiTail.Netstack
