import TunnnejiTail.Netstack.Completion
import TunnnejiTail.Netstack.Endpoints
import TunnnejiTail.Tstun.Crash

/-! Signs of life in stealth mode. The stack behind the link endpoint says nothing by itself;
which packets lead it to call the handlers is left open. -/
namespace TunnnejiTail.Tstun
open Go Netip Packet PacketFilter Netstack Gro List Wrapper PacketImpl Parsed UDPEvent

/-- A call of the TCP or the UDP handler, with the results of what it calls. -/
inductive Request
  | tcp (r : TransportEndpointID) (out : TCPOutcome)
  | udp (r : TransportEndpointID) (out : UDPOutcome)

section
variable {Handler : Type}

namespace Request

/-- A reset is sent, or a connection is accepted, or datagrams are copied to a backend. -/
def Answered (ns : Impl Handler) : Request → Prop
  | tcp r out => ∃ e ∈ acceptTCP ns r out, e.isComplete
  | udp r out => ∃ e ∈ acceptUDP ns r out, e.isCopy

/-- A request for one of the node's own addresses at a port that is not served. -/
def Unserved (ns : Impl Handler) : Request → Prop
  | tcp r _ => ns.isLocalIP r.localIP ∧ handlerFor ns r=none
  | udp r _ => (∀ p ∈ forwarded r, ns.isLocalIP p.2.addr) ∧ ns.tables.serveTargets.lookup r.localPort=none

/-- The unserved requests that are answered in stealth mode all the same. For TCP the source
address is invalid, or the destination is not a Tailscale address and no whitelist stops the
source. For UDP nothing but a service address, the whitelist or a failing call stops it. -/
def Exposed (ns : Impl Handler) : Request → Prop
  | tcp r _ => r.clientRemoteIP.isValid=false ∨ isServiceIP r.dialIP=false ∧ r.isTailscaleIP=false ∧
        (ns.lb.isSome → sourceAllowed ns.tables r.localPort r.clientRemoteIP)
  | udp r out => out.createEndpoint ∧ ∃ p ∈ forwarded r,
      sourceAllowed ns.tables p.2.port p.1.addr ∧ (out.listenUDP ∨ out.listenUDPAgain) ∧ out.registerIPPortIdentity

end Request

variable {ns : Impl Handler}

lemma isComplete_mem_acceptTCP {r : TransportEndpointID} {out : TCPOutcome} :
    (∃ e ∈ acceptTCP ns r out, e.isComplete) ↔ ¬SilentDrop ns r := by
  have hcount := completions_acceptTCP ns r out
  rw [← countP_pos_iff]
  rw [completions] at hcount
  rw [hcount]
  split_ifs with h
  · simp [h]
  · simp [h]

@[simp] lemma isCopy_listenUDP (addr : AddrPort) (ok : Bool) :
    (listenUDP addr ok).isCopy=false := rfl

@[simp] lemma isCopy_createEndpoint : createEndpoint.isCopy=false := rfl

@[simp] lemma isCopy_closeEndpoint : closeEndpoint.isCopy=false := rfl

variable {dst : AddrPort} {out : UDPOutcome}

lemma isCopy_mem_proxyUDP {b : Backend} :
    (∃ e ∈ proxyUDP ns dst b out, e.isCopy) ↔ (b.isLocal → out.registerIPPortIdentity) := by
  cases hl : b.isLocal <;> cases hr : out.registerIPPortIdentity <;>
    simp [proxyUDP,hl,hr,isCopy]

variable {src : AddrPort}

lemma isCopy_mem_forwardUDP :
    (∃ e ∈ forwardUDP ns src dst out, e.isCopy) ↔
      sourceAllowed ns.tables dst.port src.addr ∧ (out.listenUDP ∨ out.listenUDPAgain) ∧
        ((backendFor ns src dst).isLocal → out.registerIPPortIdentity) := by
  have hproxy : (∃ e ∈ proxyUDP ns dst (backendFor ns src dst) out, e.isCopy) ↔ _ :=
    isCopy_mem_proxyUDP
  cases ha : sourceAllowed ns.tables dst.port src.addr with
  | false => simp [forwardUDP,ha]
  | true =>
    cases h1 : out.listenUDP with
    | true => simp [forwardUDP,ha,h1,hproxy]
    | false =>
      cases h2 : out.listenUDPAgain with
      | true => simp [forwardUDP,ha,h1,h2,hproxy]
      | false => simp [forwardUDP,ha,h1,h2]

lemma isLocal_backendFor (h : ns.isLocalIP dst.addr) :
    (backendFor ns src dst).isLocal := by
  unfold backendFor
  split
  · rfl
  · rw [if_pos h]

lemma Request.answered_iff {req : Request} (hstealth : ns.stealthDrop)
    (h : req.Unserved ns) : req.Answered ns ↔ req.Exposed ns := by
  cases req with
  | tcp r out =>
    rw [Answered,isComplete_mem_acceptTCP,SilentDrop,Exposed,h.2,hstealth]
    cases r.clientRemoteIP.isValid <;> cases isServiceIP r.dialIP <;> cases r.isTailscaleIP <;>
      simp
  | udp r out =>
    rw [Answered,acceptUDP_eq,Exposed]
    cases hc : out.createEndpoint with
    | false => simp
    | true =>
      cases hf : forwarded r with
      | none => simp
      | some p =>
        obtain ⟨src,dst⟩ := p
        have hlocal : (backendFor ns src dst).isLocal := isLocal_backendFor (h.1 _ hf)
        have hcopy : (∃ e ∈ forwardUDP ns src dst out, e.isCopy) ↔ _ := isCopy_mem_forwardUDP
        simp [hcopy,hlocal]

/-- What an event sends back, where the stack may hand a packet to a handler. -/
def WriteEvent.Sends (stack : PacketBuffer → Option Request) (ns : Impl Handler) : WriteEvent → Prop
  | .injectOutbound _ => True
  | .userPing _ _ => True
  | .networkPacket pkt => ∃ req ∈ stack pkt, req.Answered ns
  | _ => False

def Sending (stack : PacketBuffer → Option Request) (ns : Impl Handler) (es : List WriteEvent) : Prop :=
  ∃ e ∈ es, e.Sends stack ns

variable {stack : PacketBuffer → Option Request}

lemma sending_nil : ¬Sending stack ns [] := by
  simp [Sending]

lemma sending_append
    {es es' : List WriteEvent} : Sending stack ns (es++es') ↔ Sending stack ns es ∨ Sending stack ns es' := by
  simp [Sending,or_and_right,exists_or]

/-- A packet that the netstack takes in, with the buffer it becomes. -/
structure Delivers (L : Library) (W : Wrapper Handler) (ns : PacketImpl Handler) (q : Parsed)
    (pkt : PacketBuffer) : Prop where
  ready : ns.ready
  ctx : ns.ctxDone=false
  processed : ns.shouldProcessInbound q
  echo : q.isEchoRequest=false
  dispatcher : W.dispatcher
  offload : ∃ q', rxChecksumOffload L q=.ok (q',some pkt)

def Rejected (T : BartLite) (W : Wrapper Handler) (s : Shared) (q : Parsed) : Prop :=
  (q.ipVersion=4 ∧ q.ipProto=.tcp ∧ q.tcpFlags &&& tcpSyn≠0 ∧ !W.disableTSMPRejected) ∧ W.isPeerAPI q=false ∧
      ∃ filt ∈ W.filterFor q, (filt.runIn T (s.caches filt.state) q).1≠.accept

def Admitted (T : BartLite) (W : Wrapper Handler) (s : Shared) (q : Parsed) : Prop :=
  W.taken q=none ∧ ∃ filt ∈ W.filterFor q,
    (filt.runIn T (s.caches filt.state) q).1=.accept ∨ W.isPeerAPI q

structure Reaches (W : Wrapper Handler) (s : Shared) (q : Parsed) : Prop where
  tsmp : ∃ es, W.handleTSMP q=.ok (none,es)
  callback : ¬(q.isEchoResponse ∧ echoIDSeq q ∈ s.echoCallbacks)
  selfDisco : W.isSelfDisco q=.ok false
  pre : ∃ res, W.preFilter q=.ok res ∧ res.isDrop=false

def TSMPPing (q : Parsed) : Prop := ∃ data, q.asTSMPPing=.ok (some data)

variable {T : BartLite} {L : Library} {W : Wrapper Handler} {ns : PacketImpl Handler}
  {q : Parsed} {s : Shared} (stack : PacketBuffer → Option Request)

lemma injectInbound_dropICMP (hdrop : ns.dropICMP) : Returns (ns.injectInbound q) fun r =>
    r.2=[.delivered q] ∧ ns.ready ∧ ns.ctxDone=false ∧ ns.shouldProcessInbound q ∧ q.isEchoRequest=false ∨
      r.2=[] ∧ ¬(ns.ready ∧ ns.ctxDone=false ∧ ns.shouldProcessInbound q ∧ q.isEchoRequest=false) := by
  cases hr : ns.ready with
  | false => exact ⟨(.dropSilently,[]),by simp [injectInbound,hr],by simp⟩
  | true =>
    cases hc : ns.ctxDone with
    | true => exact ⟨(.dropSilently,[]),by simp [injectInbound,hc],by simp⟩
    | false =>
      cases hp : ns.shouldProcessInbound q with
      | false => exact ⟨(.accept,[]),by simp [injectInbound,hr,hc,hp],by simp⟩
      | true =>
        cases he : q.isEchoRequest with
        | true =>
          exact ⟨(.dropSilently,[]),by simp [injectInbound,hr,hc,hp,hdrop,he],by simp⟩
        | false => exact ⟨_,injectInbound_delivers hr hc hp he,by simp⟩

lemma toNetstack_sends (hns : W.ns=some ns) (hdrop : ns.dropICMP) :
    Returns (W.toNetstack L q s) fun h => (Sending stack ns.toImpl h.events ↔
      ∃ pkt, Delivers L W ns q pkt ∧ ∃ req ∈ stack pkt, req.Answered ns.toImpl) := by
  rw [toNetstack,hns]
  refine (injectInbound_dropICMP hdrop).bind fun r hr => ?_
  obtain ⟨res,inbound⟩ := r
  obtain ⟨hin,h1,h2,h3,h4⟩ | ⟨hin,hn⟩ := hr
  · obtain rfl : inbound=[.delivered q] := hin
    cases hd : W.dispatcher with
    | false =>
      refine ⟨_,by simp only [handOver,hd]; rfl,iff_of_false sending_nil ?_⟩
      rintro ⟨pkt,h,_⟩
      rw [h.dispatcher] at hd
      cases hd
    | true =>
      obtain ⟨⟨q',pkt⟩,hrx,_⟩ := rxChecksumOffload_safe L q
      refine ⟨⟨_,q',s,pkt.toList.map .networkPacket⟩,by simp only [handOver,hd,hrx]; rfl,?_⟩
      cases pkt with
      | none =>
        refine iff_of_false sending_nil ?_
        rintro ⟨pkt,h,_⟩
        obtain ⟨_,hrx'⟩ := h.offload
        cases hrx.symm.trans hrx'
      | some pkt =>
        constructor
        · rintro ⟨e,he,hs⟩
          cases mem_singleton.mp he
          exact ⟨pkt,⟨h1,h2,h3,h4,hd,q',hrx⟩,hs⟩
        · rintro ⟨pkt',h,hs⟩
          obtain ⟨_,hrx'⟩ := h.offload
          cases hrx.symm.trans hrx'
          exact ⟨_,mem_singleton_self _,hs⟩
  · obtain rfl : inbound=[] := hin
    refine ⟨_,rfl,iff_of_false sending_nil ?_⟩
    rintro ⟨pkt,h,_⟩
    exact hn ⟨h.ready,h.ctx,h.processed,h.echo⟩

lemma sendRejection_sends (ns : Impl Handler)
    (filt : Filter) (hq : Sane q) : Returns (W.sendRejection filt q) fun es =>
      (Sending stack ns es ↔ q.ipVersion=4 ∧ q.ipProto=.tcp ∧ q.tcpFlags &&& tcpSyn≠0 ∧ !W.disableTSMPRejected) := by
  obtain ⟨es,hes,_⟩ := sendRejection_returns W filt hq
  refine ⟨es,hes,?_⟩
  by_cases hc : q.ipVersion=4 ∧ q.ipProto=.tcp ∧ q.tcpFlags &&& tcpSyn≠0 ∧ !W.disableTSMPRejected
  · rw [sendRejection,if_pos hc] at hes
    cases hg : generate (rejection filt q).len (rejection filt q).marshal .ok [] with
    | error e =>
      rw [hg] at hes
      cases hes
    | ok pkt =>
      rw [hg] at hes
      cases hes
      exact iff_of_true ⟨_,mem_singleton_self _,trivial⟩ hc
  · rw [sendRejection,if_neg hc] at hes
    cases hes
    exact iff_of_false sending_nil hc

lemma filtered_sends (hns : W.ns=some ns) (hdrop : ns.dropICMP) (hq : Sane q) :
    Returns (W.filtered T L q s) fun h => (Sending stack ns.toImpl h.events ↔ Rejected T W s q ∨ Admitted T W s q ∧
        ∃ pkt, Delivers L W ns q pkt ∧ ∃ req ∈ stack pkt, req.Answered ns.toImpl) := by
  unfold Wrapper.filtered Rejected Admitted
  cases W.filterFor q with
  | none => exact .ok (by simp [sending_nil])
  | some filt =>
    simp only [Option.mem_some_iff,exists_eq_left']
    refine .ite (fun hpass => ?_) fun hpass => ?_
    · refine (sendRejection_sends stack ns.toImpl filt hq).bind fun es hes => .ok ?_
      rw [hes]
      simp [hpass.1,hpass.2]
    · have hpass' : (filt.runIn T (s.caches filt.state) q).1=.accept ∨ W.isPeerAPI q := by
        by_contra hn
        rw [not_or,Bool.not_eq_true] at hn
        exact hpass hn
      cases ht : W.taken q with
      | some res =>
        refine .ok (iff_of_false sending_nil ?_)
        rintro (⟨_,h1,h2⟩ | ⟨⟨h,_⟩,_⟩)
        · exact hpass ⟨h2,h1⟩
        · cases h
      | none =>
        refine (toNetstack_sends stack hns hdrop).mono fun h hh => hh.trans ?_
        constructor
        · exact fun h => .inr ⟨⟨rfl,hpass'⟩,h⟩
        · rintro (⟨_,h1,h2⟩ | ⟨_,h⟩)
          · exact absurd ⟨h2,h1⟩ hpass
          · exact h

lemma reaches_of_tcp (hp : q.ipProto=.tcp) : Reaches W s q := by
  have h1 : ¬q.ipProto=Proto.tsmp := by rw [hp]; decide
  have h2 : ¬q.ipProto=Proto.icmpv4 := by rw [hp]; decide
  have h3 : ¬q.ipProto=Proto.icmpv6 := by rw [hp]; decide
  have h4 : q.ipProto≠Proto.udp := by rw [hp]; decide
  refine ⟨⟨[],if_neg h1⟩,fun h => ?_,if_pos h4,.accept,?_,rfl⟩
  · rw [isEchoResponse,if_neg h2,if_neg h3] at h
    exact Bool.false_ne_true h.1
  · rw [preFilter,trackOpenPreFilterIn,if_neg h1,ite_self]

lemma checked_sends (hns : W.ns=some ns) (hdrop : ns.dropICMP) (hq : Sane q)
    (htsmp : ∃ es, W.handleTSMP q=.ok (none,es)) :
    Returns (W.checked T L q s) fun h => (Sending stack ns.toImpl h.events ↔
      Rejected T W s q ∨ Reaches W s q ∧ Admitted T W s q ∧
        ∃ pkt, Delivers L W ns q pkt ∧ ∃ req ∈ stack pkt, req.Answered ns.toImpl) := by
  have hstop : ∀ {h : Handled}, ¬Reaches W s q → h.events=[] →
      (Sending stack ns.toImpl h.events ↔ Rejected T W s q ∨ Reaches W s q ∧ Admitted T W s q ∧
        ∃ pkt, Delivers L W ns q pkt ∧ ∃ req ∈ stack pkt, req.Answered ns.toImpl) := by
    intro h hn he
    rw [he]
    refine iff_of_false sending_nil ?_
    rintro (hr | ⟨hr,_⟩)
    · exact hn (reaches_of_tcp hr.1.2.1)
    · exact hn hr
  refine .ite (fun hcb => .ok (hstop (fun h => h.callback hcb) rfl)) fun hcb => ?_
  obtain ⟨disco,hdisco,_⟩ := isSelfDisco_returns W hq
  rw [hdisco]
  refine Returns.ite (c := disco=true) (fun hd => .ok (hstop (fun h => ?_) rfl)) fun hd => ?_
  · rw [hd,h.selfDisco] at hdisco
    cases hdisco
  · rw [Bool.not_eq_true] at hd
    subst hd
    obtain ⟨res,hres,_⟩ := preFilter_returns W hq
    rw [hres]
    refine Returns.ite (c := res.isDrop=true) (fun hd => .ok (hstop (fun h => ?_) rfl)) fun hd => ?_
    · obtain ⟨res',hres',hd'⟩ := h.pre
      cases hres.symm.trans hres'
      rw [hd] at hd'
      cases hd'
    · have hreach : Reaches W s q := ⟨htsmp,hcb,hdisco,res,hres,Bool.eq_false_iff.mpr hd⟩
      refine (filtered_sends stack hns hdrop hq).mono fun h hh => hh.trans ?_
      simp [hreach]

lemma handleTSMP_sends (ns : Impl Handler) (hq : Sane q) :
    Returns (W.handleTSMP q) fun r => (Sending stack ns r.2 ↔ TSMPPing q) ∧ (TSMPPing q → r.1=some .dropSilently) := by
  by_cases hp : q.ipProto=.tsmp
  · rw [handleTSMP,if_pos hp]
    obtain ⟨ping,hping,hlen⟩ := asTSMPPing_returns hq.length
    cases ping with
    | some data =>
      rw [hping]
      refine (injectOutboundPong_returns W hq (hlen data rfl)).bind fun es hes => ?_
      obtain ⟨pkt,rfl⟩ := hes
      exact .ok ⟨iff_of_true ⟨_,mem_singleton_self _,trivial⟩ ⟨data,hping⟩,fun _ => rfl⟩
    | none =>
      rw [hping]
      have hn : ¬TSMPPing q := by
        rintro ⟨data,h⟩
        cases hping.symm.trans h
      refine (noticeTSMP_returns hq).mono fun r hr => ⟨iff_of_false ?_ hn,fun h => absurd h hn⟩
      rintro ⟨e,he,hs⟩
      have hnotice := hr e he
      cases e with
      | injectOutbound | userPing | networkPacket => cases hnotice
      | _ => exact hs
  · refine ⟨(none,[]),if_neg hp,iff_of_false sending_nil ?_,?_⟩
    · rintro ⟨data,h⟩
      rw [asTSMPPing,if_pos hp] at h
      cases h
    · rintro ⟨data,h⟩
      rw [asTSMPPing,if_pos hp] at h
      cases h

lemma filterPacketInboundFromWireGuard_sends (hns : W.ns=some ns) (hdrop : ns.dropICMP)
    (hq : Sane q) : Returns (W.filterPacketInboundFromWireGuard T L q s) fun h =>
      (Sending stack ns.toImpl h.events ↔ TSMPPing q ∨ Rejected T W s q ∨ Reaches W s q ∧ Admitted T W s q ∧
          ∃ pkt, Delivers L W ns q pkt ∧ ∃ req ∈ stack pkt, req.Answered ns.toImpl) := by
  obtain ⟨⟨stop,events⟩,htsmp,hsend,hping⟩ := handleTSMP_sends (W := W) stack ns.toImpl hq
  rw [filterPacketInboundFromWireGuard,htsmp]
  cases stop with
  | some res =>
    refine .ok (hsend.trans ⟨.inl,?_⟩)
    rintro (h | h | ⟨⟨⟨_,h⟩,_⟩,_⟩)
    · exact h
    · obtain ⟨_,h⟩ := (reaches_of_tcp h.1.2.1 : Reaches W s q).tsmp
      cases htsmp.symm.trans h
    · cases htsmp.symm.trans h
  | none =>
    refine (checked_sends stack hns hdrop hq ⟨events,htsmp⟩).bind fun h hh => .ok ?_
    rw [sending_append,hsend,hh]

lemma sane_of_dnat {q0 q' : Parsed} {b : Bytes} (hb : Received b) (hdec : q0.decode b=.ok q)
    (hnat : dnat W.peerConfig q=.ok q') : Sane q' := by
  obtain ⟨_,hq⟩ := (q0.decode_returns b).elim hdec
  obtain ⟨hv,h20,ht⟩ | ⟨hv,h40,ht⟩ := hb
  · obtain ⟨h4,_⟩ | ⟨_,_,h6⟩ | ⟨_,_,hn,_⟩ := hq
    · obtain ⟨_,hret⟩ | ⟨_,herr⟩ := dnat_v4 W h4 h20 ht hv
      · exact hret.elim hnat
      · rw [herr] at hnat
        cases hnat
    · rw [hv] at h6
      cases h6
    · exact absurd ⟨h20,hv⟩ hn
  · obtain ⟨_,_,h4⟩ | ⟨h6,_⟩ | ⟨_,_,_,hn⟩ := hq
    · rw [hv] at h4
      cases h4
    · exact (dnat_v6 W h6 h40 ht).elim hnat
    · exact absurd ⟨h40,hv⟩ hn

variable {stack}

/-- A node in stealth mode sends nothing back for a packet exactly when the packet is no TSMP
ping, the filter does not drop it with a rejection, and the stack does not make a request of it
that is exposed. Every request is for an unserved port of the node. -/
theorem stealth_silent_iff {q0 q' : Parsed} {b : Bytes} (hns : W.ns=some ns)
    (hdrop : ns.dropICMP) (hstealth : ns.stealthDrop)
    (hstack : ∀ pkt, ∀ req ∈ stack pkt, req.Unserved ns.toImpl) (hb : Received b)
    (hdec : q0.decode b=.ok q) (hnat : dnat W.peerConfig q=.ok q') :
    Returns (W.writeOne T L ⟨q0,s,[],[]⟩ b) (fun st => ¬Sending stack ns.toImpl st.events) ↔
      (W.disableFilter=false → ¬TSMPPing q' ∧ ¬Rejected T W s q' ∧ (Reaches W s q' → Admitted T W s q' →
          ∀ pkt, Delivers L W ns q' pkt → ∀ req ∈ stack pkt, ¬req.Exposed ns.toImpl)) := by
  rw [writeOne,hdec]
  change Returns (dnat W.peerConfig q >>= _) _ ↔ _
  rw [hnat]
  cases hf : W.disableFilter with
  | true => exact iff_of_true (.ok sending_nil) fun h => by cases h
  | false =>
    have hq := sane_of_dnat hb hdec hnat
    obtain ⟨h,hret,hsend⟩ :=
      filterPacketInboundFromWireGuard_sends (T := T) (L := L) (s := s) stack hns hdrop hq
    have hanswer : ∀ pkt, (∃ req ∈ stack pkt, req.Answered ns.toImpl) ↔
        ∃ req ∈ stack pkt, req.Exposed ns.toImpl := fun pkt =>
      exists_congr fun req => and_congr_right fun hreq =>
        Request.answered_iff hstealth (hstack pkt req hreq)
    have hwrite : (do
        let h ← W.filterPacketInboundFromWireGuard T L q' s
        return (⟨q0,s,[],[]⟩ : Batch).add h)=.ok ((⟨q0,s,[],[]⟩ : Batch).add h) := by
      rw [hret]
      rfl
    have hevents : ((⟨q0,s,[],[]⟩ : Batch).add h).events=h.events := rfl
    change Returns (do
        let h ← W.filterPacketInboundFromWireGuard T L q' s
        return (⟨q0,s,[],[]⟩ : Batch).add h) _ ↔ _
    rw [hwrite]
    simp only [hanswer] at hsend
    constructor
    · intro h
      have hsilent := h.elim rfl
      rw [hevents,hsend,not_or,not_or] at hsilent
      refine fun _ => ⟨hsilent.1,hsilent.2.1,fun hr ha pkt hd req hreq he => ?_⟩
      exact hsilent.2.2 ⟨hr,ha,pkt,hd,req,hreq,he⟩
    · intro h
      obtain ⟨h1,h2,h3⟩ := h rfl
      refine .ok ?_
      rw [hevents,hsend,not_or,not_or]
      refine ⟨h1,h2,?_⟩
      rintro ⟨hr,ha,pkt,hd,req,hreq,he⟩
      exact h3 hr ha pkt hd req hreq he

end

/-- A node in stealth mode whose filter drops everything. -/
def stealthWrapper : Wrapper Unit where
  disableFilter := false
  disableTSMPRejected := false
  peerConfig := none
  filter := some (newAllowNone .scan 0)
  jailedFilter := some (newAllowNone .scan 0)
  peerAPIPort := none
  discoKey := []
  trackOpen := true
  appConnector := none
  ns := some stealthStack
  dispatcher := true

def freshShared : Shared := ⟨fun _ => FlowCache.new,[]⟩

/-- A packet from 100.64.0.2 to 100.64.0.1 with the given protocol and the first byte of nine
after the header. -/
def probeBytes (proto : Proto) (first : UInt8) : Bytes :=
  [0x45,0,0,29,0,0,0,0,64,proto,0,0,100,64,0,2,100,64,0,1,first,53,0,53,0,9,0,0,1]

def udpProbe : Parsed where
  b := probeBytes .udp 0
  subofs := 20
  dataofs := 28
  length := 29
  ipVersion := 4
  ipProto := .udp
  src := ⟨.v4 0x64400002#32,53⟩
  dst := ⟨.v4 0x64400001#32,53⟩

theorem stealth_silent_for_udp :
    Returns (stealthWrapper.writeOne .scan .plain ⟨{},freshShared,[],[]⟩ (probeBytes .udp 0))
      fun st => ¬Sending (fun _ => none) stealthStack.toImpl st.events := by
  have hdec : Parsed.decode {} (probeBytes .udp 0)=.ok udpProbe := rfl
  have hnone (req : Request) : req ∉ (none : Option Request) := Option.not_mem_none req
  refine (stealth_silent_iff rfl rfl rfl (fun _ req h => absurd h (hnone req))
    (.inl ⟨rfl,by decide,rfl⟩) hdec rfl).mpr fun _ => ⟨?_,fun h => ?_,fun _ _ _ _ req h =>
      absurd h (hnone req)⟩
  · rintro ⟨data,h⟩
    cases h
  · exact absurd h.1.2.1 (by decide)

/-- A TSMP ping is answered. -/
theorem stealth_answers_tsmp_ping :
    stealthStack.dropICMP ∧ stealthStack.stealthDrop ∧ Received (probeBytes .tsmp 0x70) ∧
      ∃ st pkt, stealthWrapper.writeOne .scan .plain ⟨{},freshShared,[],[]⟩ (probeBytes .tsmp 0x70) =
        .ok st ∧ st.events=[.injectOutbound pkt] :=
  ⟨rfl,rfl,.inl ⟨rfl,by decide,rfl⟩,_,_,rfl,rfl⟩

end TunnnejiTail.Tstun
