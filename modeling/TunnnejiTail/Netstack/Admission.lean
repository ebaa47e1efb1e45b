import TunnnejiTail.Netstack.Effects

/-! Admission on a server port. The whitelist under a port is that of the entry stored there
last, so over all orders of the range any of the entries sharing the port may decide. -/
namespace TunnnejiTail.Netstack
open Go Netip Cli

def serving {Handler : Type} (o : MapOrder) (lookupHost : Resolver) (g : TunnelGroup)
    (isLocalIP : Addr → Bool) (lb : AddrPort → AddrPort → Option Handler) : Impl Handler where
  tables := portTables o lookupHost g.ports
  stealthDrop := g.dropICMP
  isLocalIP := isLocalIP
  lb := some lb

/-- The server entries stored under a port that have a whitelist. -/
structure Guards (ports : GoMap Str PortEntry) (p : UInt16) (pe : PortEntry) : Prop where
  stored : ∃ k, ports.lookup k=some pe
  server : pe.isServer
  port : pe.key=p
  listed : pe.accept≠[]

section
variable {ports : GoMap Str PortEntry} {p : UInt16} {pe : PortEntry}

lemma Guards.acceptValue (h : Guards ports p pe) : pe.acceptValue=some pe.accept := by
  simp [PortEntry.acceptValue,h.server,h.listed]

lemma guards_of_acceptValue {o : MapOrder} {accept : List Prefix}
    (hmem : pe ∈ rangeEntries o ports) (hkey : pe.key=p) (hv : pe.acceptValue=some accept) :
    Guards ports p pe ∧ pe.accept=accept := by
  rw [PortEntry.acceptValue] at hv
  split_ifs at hv with h
  exact ⟨⟨mem_rangeEntries.mp hmem,h.1,hkey,h.2⟩,Option.some.inj hv⟩

lemma sourceAllowed_cases (ports : GoMap Str PortEntry) (o : MapOrder) (lookupHost : Resolver)
    (p : UInt16) : (∃ pe, Guards ports p pe ∧ sourceAllowed (portTables o lookupHost ports) p =
      fun src => pe.accept.any (·.contains src)) ∨ (∀ pe, ¬Guards ports p pe) ∧
      sourceAllowed (portTables o lookupHost ports) p=fun _ => true := by
  cases hl : (portTables o lookupHost ports).allowedIPsForPort.lookup p with
  | none =>
    refine .inr ⟨fun pe hg => ?_,?_⟩
    · rw [portTables_allowedIPs] at hl
      have hnone := lookup_fill_eq_none.mp hl pe (mem_rangeEntries.mpr hg.stored) hg.port
      rw [hg.acceptValue] at hnone
      cases hnone
    · funext src
      simp [sourceAllowed,hl]
  | some accept =>
    have hf := hl
    rw [portTables_allowedIPs] at hf
    obtain ⟨pe,hmem,hkey,hv⟩ := exists_of_lookup_fill hf
    obtain ⟨hg,rfl⟩ := guards_of_acceptValue hmem hkey hv
    refine .inl ⟨pe,hg,?_⟩
    funext src
    simp [sourceAllowed,hl]

lemma Guards.exists_order (h : Guards ports p pe) :
    ∃ o, ∀ lookupHost, sourceAllowed (portTables o lookupHost ports) p = fun src => pe.accept.any (·.contains src) := by
  obtain ⟨k,hk⟩ := h.stored
  obtain ⟨o,before,hlast⟩ := exists_rangeEntries_last hk
  refine ⟨o,fun lookupHost => ?_⟩
  funext src
  rw [sourceAllowed,portTables_allowedIPs,hlast,← h.port,lookup_fill_last h.acceptValue]

lemma forall_sourceAllowed (ports : GoMap Str PortEntry) (p : UInt16) {P : (Addr → Bool) → Prop} :
    (∀ o lookupHost, P (sourceAllowed (portTables o lookupHost ports) p)) ↔
      (∀ pe, Guards ports p pe → P fun src => pe.accept.any (·.contains src)) ∧
        ((∀ pe, ¬Guards ports p pe) → P fun _ => true) := by
  constructor
  · intro h
    refine ⟨fun pe hg => ?_,fun hnone => ?_⟩
    · obtain ⟨o,ho⟩ := hg.exists_order
      rw [← ho fun _ => none]
      exact h o _
    · have hdec := h .asStored fun _ => none
      obtain ⟨pe,hg,-⟩ | ⟨-,ht⟩ := sourceAllowed_cases ports .asStored (fun _ => none) p
      · exact absurd hg (hnone pe)
      · rwa [ht] at hdec
  · intro h o lookupHost
    obtain ⟨hguard,hopen⟩ := h
    obtain ⟨pe,hg,hdec⟩ | ⟨hnone,ht⟩ := sourceAllowed_cases ports o lookupHost p
    · rw [hdec]
      exact hguard pe hg
    · rw [ht]
      exact hopen hnone

/-- Some entry stored under the port has a list, and every such list decides as given. -/
def GuardsDecide (ports : GoMap Str PortEntry) (p : UInt16) (src : Addr) (listed : Prop) : Prop :=
  (∃ pe, Guards ports p pe) ∧ ∀ pe, Guards ports p pe → (pe.accept.any (·.contains src) ↔ listed)

lemma forall_not_sourceAllowed {src : Addr} :
    (∀ o lookupHost, sourceAllowed (portTables o lookupHost ports) p src=false) ↔ GuardsDecide ports p src False := by
  rw [forall_sourceAllowed ports p (P := fun allows => allows src=false),GuardsDecide,and_comm]
  simp only [Bool.true_eq_false,imp_false,iff_false,Bool.not_eq_true,not_forall,not_not]

end

namespace TransportEndpointID

def addrFromSlice : TcpipAddress → Addr
  | .len4 a => .v4 a
  | .len16 a => .v6 a []
  | .other => .zero

def src (r : TransportEndpointID) : Addr := addrFromSlice r.remoteAddress

def dst (r : TransportEndpointID) : Addr := addrFromSlice r.localAddress

/-- A flow between two addresses, to none of the service addresses. -/
structure Addressed (r : TransportEndpointID) : Prop where
  src_valid : r.src.isValid
  dst_valid : r.dst.isValid
  dst_service : isServiceIP r.dst=false
  dial_service : isServiceIP r.dialIP=false

variable (r : TransportEndpointID)

lemma clientRemoteIP_eq : r.clientRemoteIP=r.src.unmap := by
  rw [clientRemoteIP,src]
  cases r.remoteAddress <;> rfl

lemma clientRemoteIP_isValid : r.clientRemoteIP.isValid=r.src.isValid := by
  rw [clientRemoteIP_eq]
  cases r.src with
  | zero => rfl
  | v4 a => rfl
  | v6 a zone =>
    rw [Addr.unmap]
    split_ifs <;> rfl

lemma forwarded_eq :
    forwarded r=if r.src.isValid ∧ r.dst.isValid ∧ isServiceIP r.dst=false then
      some (⟨r.src,r.remotePort⟩,⟨r.dst,r.localPort⟩) else none := by
  rw [src,dst,forwarded]
  cases r.localAddress <;> cases r.remoteAddress <;>
    simp only [addrFromSlice,ipPortOfNetstackAddr,Addr.isValid,Bool.false_eq_true,false_and,
      and_false,if_false,true_and]
  all_goals cases isServiceIP _ <;> rfl

lemma Addressed.forwarded_eq {r : TransportEndpointID} (h : r.Addressed) :
    forwarded r=some (⟨r.src,r.remotePort⟩,⟨r.dst,r.localPort⟩) := by
  rw [TransportEndpointID.forwarded_eq,if_pos ⟨h.src_valid,h.dst_valid,h.dst_service⟩]

end TransportEndpointID

section
variable {Handler : Type} {o : MapOrder} {lookupHost : Resolver} {g : TunnelGroup} {isLocalIP : Addr → Bool}
  {lb : AddrPort → AddrPort → Option Handler} {r : TransportEndpointID} (hr : r.Addressed)
include hr

lemma passes_serving : Passes (serving o lookupHost g isLocalIP lb) r ↔
      sourceAllowed (portTables o lookupHost g.ports) r.localPort r.src.unmap := by
  rw [Passes,r.clientRemoteIP_isValid,r.clientRemoteIP_eq]
  simp [serving,hr.src_valid,hr.dial_service]

lemma admitsTCP_serving
    (hlb : (lb ⟨r.clientRemoteIP,r.remotePort⟩ ⟨r.localIP,r.localPort⟩).isSome) :
    AdmitsTCP (serving o lookupHost g isLocalIP lb) r ↔
      sourceAllowed (portTables o lookupHost g.ports) r.localPort r.src.unmap := by
  rw [admitsTCP_iff,passes_serving hr]
  exact and_iff_left hlb

lemma admitsUDP_serving : AdmitsUDP (serving o lookupHost g isLocalIP lb) r ↔
      sourceAllowed (portTables o lookupHost g.ports) r.localPort r.src := by
  rw [admitsUDP_iff,hr.forwarded_eq]
  simp [serving]

end

def fromOutside : TransportEndpointID := ⟨80,.len4 0x64400001#32,40000,.len4 0x64400002#32⟩

lemma fromOutside_addressed : fromOutside.Addressed := by
  refine ⟨?_,?_,?_,?_⟩ <;> decide

end TunnnejiTail.Netstack
