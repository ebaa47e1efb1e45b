import TunnnejiTail.Netstack.Completion
import TunnnejiTail.Netstack.Endpoints

/-! Reference counts of subnet addresses. The wrapped protocol handlers count a flow up for
the address it arrives at; acceptTCP and forwardUDP count it down as the last thing they do,
under conditions of their own. -/
namespace TunnnejiTail.Netstack
open Go Netip List AList Option TransportEndpointID

abbrev SubnetCounts := GoMap Addr ℤ

namespace SubnetCounts

def conns (m : SubnetCounts) (ip : Addr) : ℤ := (m.lookup ip).getD 0

def addSubnetAddress (m : SubnetCounts) (ip : Addr) : SubnetCounts := m.insert ip (m.conns ip + 1)

def removeSubnetAddress (m : SubnetCounts) (ip : Addr) : SubnetCounts :=
  let m' : SubnetCounts := m.insert ip (m.conns ip - 1)
  if m'.conns ip=0 then m'.erase ip else m'

lemma conns_empty (ip : Addr) : (∅ : SubnetCounts).conns ip=0 := rfl

section
variable (m : SubnetCounts)

lemma conns_addSubnetAddress (ip ip' : Addr) :
    (m.addSubnetAddress ip).conns ip'=m.conns ip' + if ip=ip' then 1 else 0 := by
  by_cases h : ip=ip'
  · subst h
    simp [addSubnetAddress,conns]
  · simp [addSubnetAddress,conns,h,lookup_insert_ne (Ne.symm h)]

lemma conns_removeSubnetAddress (ip ip' : Addr) :
    (m.removeSubnetAddress ip).conns ip'=m.conns ip' - if ip=ip' then 1 else 0 := by
  rw [removeSubnetAddress]
  by_cases h : ip=ip'
  · subst h
    have hread : conns (m.insert ip (m.conns ip - 1)) ip=m.conns ip - 1 := by simp [conns]
    rw [if_pos rfl]
    split_ifs with h0
    · rw [← hread,h0]
      simp [conns]
    · exact hread
  · split_ifs <;> simp [conns,lookup_insert_ne (Ne.symm h),lookup_erase_ne (Ne.symm h)]

variable (l : List Addr) (ip : Addr)

lemma conns_added :
    (l.foldl addSubnetAddress m).conns ip=m.conns ip + l.count ip := by
  induction l generalizing m with
  | nil => simp
  | cons x xs ih =>
    rw [foldl_cons,ih,conns_addSubnetAddress,count_cons]
    by_cases h : x=ip
    · simp only [h,beq_self_eq_true,if_true]
      omega
    · simp only [h,beq_iff_eq,if_false]
      omega

lemma conns_removed :
    (l.foldl removeSubnetAddress m).conns ip=m.conns ip - l.count ip := by
  induction l generalizing m with
  | nil => simp
  | cons x xs ih =>
    rw [foldl_cons,ih,conns_removeSubnetAddress,count_cons]
    by_cases h : x=ip
    · simp only [h,beq_self_eq_true,if_true]
      omega
    · simp only [h,beq_iff_eq,if_false]
      omega

end

def Counts (m : SubnetCounts) (n : Addr → ℕ) : Prop :=
  ∀ ip, m.lookup ip=if n ip=0 then none else some (n ip : ℤ)

variable {m : SubnetCounts} {n : Addr → ℕ}

lemma Counts.conns (h : m.Counts n) (ip : Addr) : m.conns ip=n ip := by
  rw [SubnetCounts.conns,h ip]
  split_ifs with h0
  · simp [h0]
  · rfl

variable {n' : Addr → ℕ} {ip : Addr}

lemma Counts.add (h : m.Counts n)
    (hip : n' ip=n ip + 1) (hne : ∀ ip', ip'≠ip → n' ip'=n ip') : (m.addSubnetAddress ip).Counts n' := by
  intro ip'
  by_cases he : ip'=ip
  · subst he
    rw [addSubnetAddress,lookup_insert,h.conns,hip,if_neg (Nat.succ_ne_zero _)]
    rfl
  · rw [addSubnetAddress,lookup_insert_ne he,h ip',hne ip' he]

lemma Counts.remove (h : m.Counts n)
    (hip : n ip=n' ip + 1) (hne : ∀ ip', ip'≠ip → n' ip'=n ip') : (m.removeSubnetAddress ip).Counts n' := by
  have hvalue : m.conns ip - 1=n' ip := by
    rw [h.conns,hip]
    omega
  intro ip'
  have hread : SubnetCounts.conns (m.insert ip (n' ip : ℤ)) ip=n' ip := by
    simp [SubnetCounts.conns]
  rw [removeSubnetAddress,hvalue]
  simp only [hread,Nat.cast_eq_zero]
  by_cases he : ip'=ip
  · subst he
    by_cases h0 : n' ip'=0
    · rw [if_pos h0,if_pos h0,lookup_erase]
    · rw [if_neg h0,if_neg h0,lookup_insert]
  · rw [hne ip' he,← h ip']
    split_ifs
    · rw [lookup_erase_ne he,lookup_insert_ne he]
    · rw [lookup_insert_ne he]

end SubnetCounts

section
variable {Handler : Type}

def TCPEvent.removedAddress : TCPEvent Handler → Option Addr
  | .removeSubnetAddress ip => some ip
  | _ => none

def UDPEvent.removedAddress : UDPEvent → Option Addr
  | .removeSubnetAddress ip => some ip
  | _ => none

/-- A packet for which the stack has no endpoint. A TCP packet is `dropped` when the forwarder
does not hand it to acceptTCP: it is no SYN, repeats one in flight or is over their limit. -/
inductive Arrival (Handler : Type)
  | tcp (i : Inbound Handler)
  | udp (d : Datagram Handler)
  | dropped (ns : Impl Handler) (request : TransportEndpointID)

/-- The UDP flows that forwardUDP counts down: local by address or by serve target, and with
every call on the way successful. -/
def CountsDown (d : Datagram Handler) : Prop :=
  d.out.createEndpoint ∧ ∃ p ∈ forwarded d.request,
    sourceAllowed d.ns.tables p.2.port p.1.addr ∧ (d.out.listenUDP ∨ d.out.listenUDPAgain) ∧
      d.out.registerIPPortIdentity ∧
      ((d.ns.tables.serveTargets.lookup p.2.port).isSome ∨ d.ns.isLocalIP p.2.addr)

instance (d : Datagram Handler) : Decidable (CountsDown d) :=
  inferInstanceAs (Decidable (_ ∧ ∃ p ∈ forwarded d.request, _))

namespace Arrival

def ns : Arrival Handler → Impl Handler
  | tcp i => i.ns
  | udp d => d.ns
  | dropped ns _ => ns

def request : Arrival Handler → TransportEndpointID
  | tcp i => i.request
  | udp d => d.request
  | dropped _ request => request

/-- The flow that the packet opens, if any. -/
def opened : Arrival Handler → List (Arrival Handler)
  | dropped _ _ => []
  | a => [a]

/-- wrapTCPProtocolHandler and wrapUDPProtocolHandler: the address that is counted up, if
any, before the forwarder sees the packet. -/
def registered (a : Arrival Handler) : Option Addr :=
  if a.ns.isLocalIP a.request.localIP then none else some a.request.localIP

def removals : Arrival Handler → List Addr
  | tcp i => i.trace.filterMap TCPEvent.removedAddress
  | udp d => d.trace.filterMap UDPEvent.removedAddress
  | dropped _ _ => []

/-- A TCP flow is counted up and down alike when it is not to a via address and the node's
own addresses are the Tailscale addresses; a UDP flow to an own address must fail before its
packets are copied, and any other must be served under the address it was counted up for; a
TCP packet that the forwarder drops must be to an own address. -/
def Balanced (a : Arrival Handler) : Prop :=
  match a with
  | tcp i =>
    if i.ns.isLocalIP i.request.localIP then
      i.request.clientRemoteIP.isValid=false ∨ i.request.isTailscaleIP
    else i.request.clientRemoteIP.isValid ∧ isTailscaleIP i.request.localIP=false ∧
      viaRange.contains i.request.localIP=false
  | udp d =>
    if d.ns.isLocalIP d.request.localIP then ¬CountsDown d
    else CountsDown d ∧ ∀ p ∈ forwarded d.request, p.2.addr=d.request.localIP
  | dropped ns request => ns.isLocalIP request.localIP

end Arrival

variable (ns : Impl Handler)

lemma removedAddress_runHandler (out : TCPOutcome) (port : UInt16)
    (h : Handler) : (runHandler ns out port h).filterMap TCPEvent.removedAddress=[] := by
  unfold runHandler getConnOrReset
  cases out.createEndpoint with
  | false => rfl
  | true =>
    cases ns.tables.passwordForPort.lookup port with
    | none => rfl
    | some password => cases out.newEncryptedTCPConn <;> rfl

lemma removedAddress_forwardTCP (out : TCPOutcome) (dialAddr : AddrPort) (isLocal : Bool) :
    (forwardTCP out dialAddr isLocal : Bool × List (TCPEvent Handler)).2.filterMap
      TCPEvent.removedAddress=[] := by
  unfold forwardTCP getConnOrReset
  cases out.dial <;> cases isLocal <;> cases out.registerIPPortIdentity <;>
    cases out.createEndpoint <;> rfl

lemma removedAddress_unhandledTCP (r : TransportEndpointID)
    (out : TCPOutcome) : (unhandledTCP ns r out).filterMap TCPEvent.removedAddress=[] := by
  have hforward := @removedAddress_forwardTCP Handler out ⟨r.dialIP,r.localPort⟩
    (ns.isLocalIP r.localIP)
  unfold unhandledTCP
  split_ifs
  · rfl
  · rfl
  · rfl
  · rfl
  · generalize forwardTCP out ⟨r.dialIP,r.localPort⟩ (ns.isLocalIP r.localIP)=result at hforward
    obtain ⟨handled,events⟩ := result
    cases handled with
    | true => exact hforward
    | false =>
      change (events++[TCPEvent.complete true]).filterMap TCPEvent.removedAddress=[]
      rw [filterMap_append,hforward]
      rfl

lemma removals_tcp (i : Inbound Handler) : (Arrival.tcp i).removals =
    if i.request.clientRemoteIP.isValid ∧ i.request.isTailscaleIP=false then [i.request.dialIP] else [] := by
  have hdeferred : (deferredTCP i.request : List (TCPEvent Handler)).filterMap
      TCPEvent.removedAddress=if i.request.isTailscaleIP=false then [i.request.dialIP] else [] := by
    cases h : i.request.isTailscaleIP <;> simp [deferredTCP,h,TCPEvent.removedAddress]
  rw [Arrival.removals,Inbound.trace,acceptTCP]
  cases hv : i.request.clientRemoteIP.isValid with
  | false => simp [TCPEvent.removedAddress]
  | true =>
    simp only [Bool.not_true,Bool.false_eq_true,if_false,true_and]
    rw [← hdeferred]
    split_ifs
    · rfl
    · rfl
    · cases handlerFor i.ns i.request with
      | none => simp only [filterMap_append,removedAddress_unhandledTCP,nil_append]
      | some h => simp only [filterMap_append,removedAddress_runHandler,nil_append]

lemma removedAddress_proxyUDP (dstAddr : AddrPort) (b : Backend)
    (out : UDPOutcome) : (proxyUDP ns dstAddr b out).filterMap UDPEvent.removedAddress =
      if b.isLocal ∧ out.registerIPPortIdentity then [dstAddr.addr] else [] := by
  cases hl : b.isLocal <;> cases hr : out.registerIPPortIdentity <;>
    simp [proxyUDP,hl,hr,UDPEvent.removedAddress,filterMap_cons]

lemma backendFor_isLocal_iff (clientAddr dstAddr : AddrPort) :
    (backendFor ns clientAddr dstAddr).isLocal ↔
      (ns.tables.serveTargets.lookup dstAddr.port).isSome ∨ ns.isLocalIP dstAddr.addr := by
  rw [backendFor]
  cases ns.tables.serveTargets.lookup dstAddr.port with
  | some target => simp
  | none =>
    split_ifs with h1 h2 <;> simp [h1]

lemma removedAddress_forwardUDP (clientAddr dstAddr : AddrPort) (out : UDPOutcome) :
    (forwardUDP ns clientAddr dstAddr out).filterMap UDPEvent.removedAddress =
      if sourceAllowed ns.tables dstAddr.port clientAddr.addr ∧ (out.listenUDP ∨ out.listenUDPAgain) ∧
          (backendFor ns clientAddr dstAddr).isLocal ∧ out.registerIPPortIdentity
      then [dstAddr.addr] else [] := by
  have hproxy := removedAddress_proxyUDP ns dstAddr (backendFor ns clientAddr dstAddr) out
  rw [forwardUDP]
  split_ifs <;> simp_all [UDPEvent.removedAddress,filterMap_cons]

lemma removals_udp (d : Datagram Handler) : (Arrival.udp d).removals =
    if CountsDown d then ((forwarded d.request).map fun p => p.2.addr).toList else [] := by
  rw [Arrival.removals,Datagram.trace,acceptUDP_eq]
  cases hc : d.out.createEndpoint with
  | false => simp [CountsDown,hc]
  | true =>
    cases hf : forwarded d.request with
    | none => simp [CountsDown,hf,UDPEvent.removedAddress]
    | some p =>
      have hcounts : CountsDown d ↔ sourceAllowed d.ns.tables p.2.port p.1.addr ∧
          (d.out.listenUDP ∨ d.out.listenUDPAgain) ∧
          (backendFor d.ns p.1 p.2).isLocal ∧ d.out.registerIPPortIdentity := by
        rw [backendFor_isLocal_iff,CountsDown,hc,hf]
        simp [and_comm]
      change (forwardUDP d.ns p.1 p.2 d.out).filterMap UDPEvent.removedAddress=_
      rw [removedAddress_forwardUDP]
      exact if_congr hcounts.symm rfl rfl

namespace Arrival

lemma removals_eq_iff (a : Arrival Handler) : a.removals=a.registered.toList ↔ a.Balanced := by
  cases a with
  | tcp i =>
    rw [removals_tcp,Balanced,registered,ns,request]
    have hdial : viaRange.contains i.request.localIP=false → i.request.dialIP=i.request.localIP :=
      fun h => by simp [dialIP,unmapVia,h]
    have hvia : viaRange.contains i.request.localIP → i.request.dialIP≠i.request.localIP := by
      intro h he
      rw [dialIP,unmapVia,if_pos h] at he
      rw [← he] at h
      cases h
    cases hl : i.ns.isLocalIP i.request.localIP <;>
      cases hv : i.request.clientRemoteIP.isValid <;>
      cases hc : viaRange.contains i.request.localIP <;>
      cases ht : Netstack.isTailscaleIP i.request.localIP <;>
      simp_all [TransportEndpointID.isTailscaleIP]
  | udp d =>
    rw [removals_udp,Balanced,registered,ns,request]
    cases hl : d.ns.isLocalIP d.request.localIP <;> by_cases hd : CountsDown d
    · obtain ⟨-,p,hp,-⟩ := id hd
      simp [hd,mem_def.mp hp]
    · simp [hd]
    · obtain ⟨-,p,hp,-⟩ := id hd
      simp [hd,mem_def.mp hp]
    · simp [hd]
  | dropped ns r => cases h : ns.isLocalIP r.localIP <;> simp [removals,registered,Balanced,Arrival.ns,request,h]

end Arrival

structure Subnets (Handler : Type) where
  counts : SubnetCounts
  flows : List (Arrival Handler)

namespace Subnets

def holders (s : Subnets Handler) (ip : Addr) : ℕ :=
  s.flows.countP fun a => a.registered=some ip

/-- Every count is the number of open flows registered for the address, and there is no
entry without such a flow. -/
def Exact (s : Subnets Handler) : Prop := s.counts.Counts s.holders

end Subnets

namespace Subnets

def arrive (s : Subnets Handler) (a : Arrival Handler) : Subnets Handler :=
  ⟨a.registered.toList.foldl SubnetCounts.addSubnetAddress s.counts,s.flows++a.opened⟩

end Subnets

/-- Packets of a kind arrive, with the address counted up before the forwarder sees them, and
the flows they open end in any order; counting down is the last thing a flow does. -/
inductive SubnetStep (P : Arrival Handler → Prop) : Subnets Handler → Subnets Handler → Prop
  | arrive (s : Subnets Handler) (a : Arrival Handler) (h : a.request.localIP.isValid) (hp : P a) :
    SubnetStep P s (s.arrive a)
  | terminate (counts : SubnetCounts) (before after : List (Arrival Handler)) (a : Arrival Handler) :
    SubnetStep P ⟨counts,before++a::after⟩
      ⟨a.removals.foldl SubnetCounts.removeSubnetAddress counts,before++after⟩

namespace Subnets

lemma holders_arrive (s : Subnets Handler) (m : SubnetCounts) (a : Arrival Handler) (ip : Addr) :
    holders ⟨m,s.flows++[a]⟩ ip=s.holders ip + if a.registered=some ip then 1 else 0 := by
  simp [holders,countP_append,countP_cons]

lemma holders_terminate (m m' : SubnetCounts) (before after : List (Arrival Handler))
    (a : Arrival Handler) (ip : Addr) : holders ⟨m,before++a::after⟩ ip =
      holders ⟨m',before++after⟩ ip + if a.registered=some ip then 1 else 0 := by
  simp [holders,countP_append,countP_cons,Nat.add_assoc]

lemma Exact.register {s : Subnets Handler} (h : s.Exact) (a : Arrival Handler) :
    Exact ⟨a.registered.toList.foldl SubnetCounts.addSubnetAddress s.counts,s.flows++[a]⟩ := by
  cases hr : a.registered with
  | none =>
    have hsame : holders ⟨s.counts,s.flows++[a]⟩=s.holders := by
      funext ip
      simp [holders_arrive,hr]
    exact Eq.mpr (congrArg (SubnetCounts.Counts s.counts) hsame) h
  | some ip =>
    refine SubnetCounts.Counts.add h ?_ fun ip' hne => ?_
    · rw [holders_arrive,if_pos hr]
    · rw [holders_arrive,hr,if_neg fun he => hne (some.inj he).symm,Nat.add_zero]

lemma Exact.terminate {counts : SubnetCounts} {before after : List (Arrival Handler)}
    {a : Arrival Handler} (h : Exact ⟨counts,before++a::after⟩) (hb : a.Balanced) :
    Exact ⟨a.removals.foldl SubnetCounts.removeSubnetAddress counts,before++after⟩ := by
  rw [a.removals_eq_iff.mpr hb]
  cases hr : a.registered with
  | none =>
    have hsame : holders ⟨counts,before++a::after⟩=holders ⟨counts,before++after⟩ := by
      funext ip
      simp [holders_terminate counts counts,hr]
    exact Eq.mp (congrArg (SubnetCounts.Counts counts) hsame) h
  | some ip =>
    refine SubnetCounts.Counts.remove h ?_ fun ip' hne => ?_
    · rw [holders_terminate,if_pos hr]
    · rw [holders_terminate counts,hr,if_neg fun he => hne (some.inj he).symm,Nat.add_zero]

lemma Exact.arrive {s : Subnets Handler} (h : s.Exact) {a : Arrival Handler} (hb : a.Balanced) :
    (s.arrive a).Exact := by
  cases a with
  | tcp i => exact h.register _
  | udp d => exact h.register _
  | dropped ns r =>
    -- no flow is open for the packet, so it must not have been counted up
    have hnone : (Arrival.dropped ns r).registered=none := if_pos hb
    rw [Subnets.arrive,hnone,Arrival.opened,append_nil]
    exact h

/-- A packet that arrives where nothing is open, once its flow has ended. -/
def alone (a : Arrival Handler) : Subnets Handler :=
  ⟨a.removals.foldl SubnetCounts.removeSubnetAddress (a.registered.toList.foldl SubnetCounts.addSubnetAddress ∅),[]⟩

lemma exact_empty : Exact (⟨∅,[]⟩ : Subnets Handler) := fun ip => by simp [holders]

lemma exact_alone_iff (a : Arrival Handler) : (alone a).Exact ↔ a.Balanced := by
  refine ⟨fun h => a.removals_eq_iff.mp ?_,fun h => ?_⟩
  · have hcount : ∀ ip, a.removals.count ip=a.registered.toList.count ip := by
      intro ip
      have hzero : (alone a).counts.conns ip=0 := h.conns ip
      rw [alone,SubnetCounts.conns_removed,SubnetCounts.conns_added,SubnetCounts.conns_empty] at hzero
      omega
    have hperm := perm_iff_count.mpr hcount
    cases hr : a.registered with
    | none =>
      rw [hr] at hperm
      exact perm_nil.mp hperm
    | some ip =>
      rw [hr] at hperm
      exact perm_singleton.mp hperm
  · have harrive : Exact ⟨a.registered.toList.foldl SubnetCounts.addSubnetAddress ∅,[]++a::[]⟩ :=
      exact_empty.register a
    exact harrive.terminate h

end Subnets

/-- A packet keeps the counts exact exactly when it is balanced; and in every run of balanced
packets, in every state, the count of an address is the number of open flows registered for
it, with no entry for an address without such a flow. -/
theorem subnet_counts_exact : (∀ a : Arrival Handler, (Subnets.alone a).Exact ↔ a.Balanced) ∧
    ∀ s : Subnets Handler, Relation.ReflTransGen (SubnetStep Arrival.Balanced) ⟨∅,[]⟩ s → s.Exact := by
  refine ⟨Subnets.exact_alone_iff,fun s hreach => ?_⟩
  have hinv := reachable_invariant
    (I := fun s : Subnets Handler => s.Exact ∧ ∀ a ∈ s.flows, a.Balanced) hreach
    ⟨Subnets.exact_empty,by simp⟩ fun s s' hs hi => ?_
  · exact hinv.1
  · cases hs with
    | arrive s a _ hb =>
      refine ⟨hi.1.arrive hb,forall_mem_append.mpr ⟨hi.2,?_⟩⟩
      cases a with
      | tcp i => exact forall_mem_singleton.mpr hb
      | udp d => exact forall_mem_singleton.mpr hb
      | dropped ns r => simp [Arrival.opened]
    | terminate counts before after a =>
      have hflows := forall_mem_append.mp hi.2
      have hcons := forall_mem_cons.mp hflows.2
      exact ⟨hi.1.terminate hcons.1,forall_mem_append.mpr ⟨hflows.1,hcons.2⟩⟩

end

def subnetConnection : Inbound Unit where
  ns := filteredPort80
  request := ⟨443,.len4 0x0a010203#32,4000,.len4 0x64400002#32⟩
  out := ⟨true,true,true,true⟩

theorem subnet_counts_exact_connection : Arrival.Balanced (.tcp subnetConnection) ∧
      (Subnets.arrive ⟨∅,[]⟩ (.tcp subnetConnection)).Exact := by
  have hb : Arrival.Balanced (.tcp subnetConnection) := by
    exact ⟨by decide,by decide,by decide⟩
  exact ⟨hb,subnet_counts_exact.2 _ (.single (.arrive _ _ rfl hb))⟩

/-- A datagram to a port of the node's own address, with every call successful. -/
def ownDatagram : Datagram Unit where
  ns := filteredPort80
  request := ⟨5000,.len4 0x64400001#32,4000,.len4 0x64400002#32⟩
  out := ⟨true,true,true,true⟩

/-- The flow was never counted up, and counting it down leaves minus one behind. -/
theorem own_datagram_counts_below_zero :
    ∃ s : Subnets Unit, Relation.ReflTransGen (SubnetStep fun _ => True) ⟨∅,[]⟩ s ∧
      s.flows=[] ∧ s.counts.lookup (.v4 0x64400001#32)=some (-1) ∧ ¬s.Exact := by
  have hlookup : (Subnets.alone (.udp ownDatagram)).counts.lookup (.v4 0x64400001#32)=some (-1) := by
    decide +kernel
  refine ⟨Subnets.alone (.udp ownDatagram),?_,rfl,hlookup,fun h => ?_⟩
  · exact (Relation.ReflTransGen.single (.arrive _ (.udp ownDatagram) rfl trivial)).tail
      (.terminate _ [] [] _)
  · have hnone := h (.v4 0x64400001#32)
    rw [hlookup] at hnone
    cases hnone

end TunnnejiTail.Netstack
