import TunnnejiTail.Go.Tasks
import TunnnejiTail.Netstack.UDP

/-! Resources of UDP flows. A flow that is neither rejected nor fails on the way arms the
idle timer, whose callback releases everything; the early exits of forwardUDP release
nothing. -/
namespace TunnnejiTail.Netstack
open Go Netip List Bool

variable {Handler : Type} {res : Resources}

structure Resources where
  endpoint : Bool := false
  backend : Bool := false
  identity : Bool := false
  timer : Bool := false
  deriving DecidableEq

namespace Resources

def apply (res : Resources) : UDPEvent → Resources
  | .createEndpoint => { res with endpoint := true }
  | .closeEndpoint => { res with endpoint := false }
  | .listenUDP _ ok => { res with backend := res.backend || ok }
  | .closeBackend => { res with backend := false }
  | .register ok => { res with identity := res.identity || ok }
  | .unregister => { res with identity := false }
  | .armTimer _ => { res with timer := true }
  | .copyPackets _ _ => res
  | .removeSubnetAddress _ => res

def after (trace : List UDPEvent) : Resources := trace.foldl apply {}

def fire (isLocal : Bool) (res : Resources) : Resources :=
  (timerCallback isLocal).foldl apply { res with timer := false }

def Released (res : Resources) : Prop :=
  res.endpoint=false ∧ res.backend=false ∧ res.identity=false

/-- Nothing is open, or the timer is armed and its callback closes everything. -/
def Settled (isLocal : Bool) (res : Resources) : Prop :=
  res.Released ∨ res.timer=true ∧ (res.fire isLocal).Released

instance (res : Resources) : Decidable res.Released := inferInstanceAs (Decidable (_ ∧ _ ∧ _))

instance (isLocal : Bool) (res : Resources) : Decidable (res.Settled isLocal) :=
  inferInstanceAs (Decidable (_ ∨ _ ∧ _))

end Resources

section

def isLocalFlow (ns : Impl Handler) (r : TransportEndpointID) : Bool :=
  match forwarded r with
  | some (srcAddr,dstAddr) => (backendFor ns srcAddr dstAddr).isLocal
  | none => false

/-- The flows that return early: a source that is not on the whitelist, no backend socket on
either attempt, or a local flow whose identity could not be registered. -/
def Leaks (ns : Impl Handler) (r : TransportEndpointID) (out : UDPOutcome) : Prop :=
  out.createEndpoint ∧ ∃ p ∈ forwarded r,
    sourceAllowed ns.tables p.2.port p.1.addr=false ∨ (out.listenUDP=false ∧ out.listenUDPAgain=false) ∨
      ((backendFor ns p.1 p.2).isLocal ∧ out.registerIPPortIdentity=false)

variable (ns : Impl Handler)

lemma proxyUDP_settled_iff (dstAddr : AddrPort) (b : Backend) (out : UDPOutcome) :
    Resources.Settled b.isLocal ((proxyUDP ns dstAddr b out).foldl Resources.apply
      ⟨true,true,false,false⟩) ↔ ¬(b.isLocal ∧ out.registerIPPortIdentity=false) := by
  cases hl : b.isLocal <;> cases hr : out.registerIPPortIdentity <;>
    simp [proxyUDP,hl,hr,Resources.apply,Resources.Settled,Resources.Released,Resources.fire, timerCallback]

lemma forwardUDP_settled_iff (srcAddr dstAddr : AddrPort) (out : UDPOutcome) :
    Resources.Settled (backendFor ns srcAddr dstAddr).isLocal
      ((forwardUDP ns srcAddr dstAddr out).foldl Resources.apply ⟨true,false,false,false⟩) ↔
    ¬(sourceAllowed ns.tables dstAddr.port srcAddr.addr=false ∨ (out.listenUDP=false ∧ out.listenUDPAgain=false) ∨
      ((backendFor ns srcAddr dstAddr).isLocal ∧ out.registerIPPortIdentity=false)) := by
  have hproxy := proxyUDP_settled_iff ns dstAddr (backendFor ns srcAddr dstAddr) out
  cases ha : sourceAllowed ns.tables dstAddr.port srcAddr.addr with
  | false => simp [forwardUDP,ha,Resources.Settled,Resources.Released]
  | true =>
    cases h1 : out.listenUDP with
    | true => simpa [forwardUDP,ha,h1,Resources.apply] using hproxy
    | false =>
      cases h2 : out.listenUDPAgain with
      | true => simpa [forwardUDP,ha,h1,h2,Resources.apply] using hproxy
      | false =>
        simp [forwardUDP,ha,h1,h2,Resources.apply,Resources.Settled,Resources.Released]

lemma acceptUDP_settled_iff (r : TransportEndpointID) (out : UDPOutcome) :
    (Resources.after (acceptUDP ns r out)).Settled (isLocalFlow ns r) ↔ ¬Leaks ns r out := by
  rw [acceptUDP_eq,isLocalFlow,Leaks,Resources.after]
  cases hc : out.createEndpoint with
  | false => simp [Resources.Settled,Resources.Released]
  | true =>
    cases hf : forwarded r with
    | none => simp [Resources.apply,Resources.Settled,Resources.Released]
    | some p => simpa [Resources.apply] using forwardUDP_settled_iff ns p.1 p.2 out

end

namespace UDPEvent

def isArm : UDPEvent → Bool
  | armTimer _ => true
  | _ => false

def isCopy : UDPEvent → Bool
  | copyPackets _ _ => true
  | _ => false

def isNeutral : UDPEvent → Bool
  | copyPackets _ _ => true
  | removeSubnetAddress _ => true
  | _ => false

end UDPEvent

/-- Before the timer is armed no packets are copied, and afterwards only neutral events follow. -/
def wellOrdered : Bool → List UDPEvent → Bool
  | _,[] => true
  | true,e::rest => e.isNeutral && wellOrdered true rest
  | false,e::rest => !e.isCopy && wellOrdered e.isArm rest

lemma wellOrdered_proxyUDP (ns : Impl Handler) (dstAddr : AddrPort) (b : Backend)
    (out : UDPOutcome) : wellOrdered false (proxyUDP ns dstAddr b out)=true := by
  cases hl : b.isLocal <;> cases hr : out.registerIPPortIdentity <;>
    simp [proxyUDP,hl,hr,wellOrdered,UDPEvent.isArm,UDPEvent.isCopy,UDPEvent.isNeutral]

lemma wellOrdered_acceptUDP (ns : Impl Handler) (r : TransportEndpointID) (out : UDPOutcome) :
    wellOrdered false (acceptUDP ns r out)=true := by
  rw [acceptUDP_eq]
  cases hc : out.createEndpoint with
  | false => rfl
  | true =>
    cases hf : forwarded r with
    | none => rfl
    | some p =>
      have hproxy := wellOrdered_proxyUDP ns p.2 (backendFor ns p.1 p.2) out
      cases ha : sourceAllowed ns.tables p.2.port p.1.addr <;> cases h1 : out.listenUDP <;>
        cases h2 : out.listenUDPAgain <;>
        simp [forwardUDP,ha,h1,h2,wellOrdered,UDPEvent.isArm,UDPEvent.isCopy,hproxy]

namespace Resources

lemma apply_of_isNeutral {e : UDPEvent} (h : e.isNeutral) (res : Resources) : res.apply e=res := by
  cases e <;> first | rfl | cases h

lemma foldl_of_wellOrdered {rest : List UDPEvent} (h : wellOrdered true rest) (res : Resources) :
    rest.foldl apply res=res := by
  induction rest with
  | nil => rfl
  | cons e rest ih =>
    rw [wellOrdered,and_eq_true] at h
    rw [foldl_cons,apply_of_isNeutral h.1,ih h.2]

lemma after_append (done : List UDPEvent) (e : UDPEvent) : after (done++[e])=(after done).apply e := by
  simp [after]

lemma timer_after (done : List UDPEvent) : (after done).timer=done.any UDPEvent.isArm := by
  induction done using List.reverseRecOn with
  | nil => rfl
  | append_singleton done e ih =>
    rw [after_append,any_append,← ih]
    cases e <;> simp [apply,UDPEvent.isArm]

variable {isLocal : Bool}

lemma Settled.fire (h : res.Settled isLocal) :
    (res.fire isLocal).Settled isLocal := by
  left
  cases h with
  | inl h =>
    obtain ⟨h1,h2,h3⟩ := h
    cases isLocal <;> simp [Resources.fire,timerCallback,apply,Released,h3]
  | inr h => exact h.2

def rearm (res : Resources) : Resources := { res with timer := true }

lemma Settled.rearm (h : res.Settled isLocal) :
    res.rearm.Settled isLocal := by
  cases h with
  | inl h => exact .inl h
  | inr h => exact .inr ⟨rfl,h.2⟩

end Resources

section

/-- An inbound flow: the netstack at that time and the results of the calls made for it. -/
structure Datagram (Handler : Type) where
  ns : Impl Handler
  request : TransportEndpointID
  out : UDPOutcome

namespace Datagram

def trace (d : Datagram Handler) : List UDPEvent := acceptUDP d.ns d.request d.out

def isLocal (d : Datagram Handler) : Bool := isLocalFlow d.ns d.request

def Leaks (d : Datagram Handler) : Prop := Netstack.Leaks d.ns d.request d.out

end Datagram

structure Flow (Handler : Type) where
  task : Task (Datagram Handler) UDPEvent
  res : Resources

/-- Flows start, run side by side, extend their timers by copying packets and time out. -/
inductive FlowStep : List (Flow Handler) → List (Flow Handler) → Prop
  | start (fs : List (Flow Handler)) (d : Datagram Handler) :
    FlowStep fs (fs++[⟨.start d d.trace,{}⟩])
  | exec (before after : List (Flow Handler)) (d : Datagram Handler) (done : List UDPEvent)
      (e : UDPEvent) (rest : List UDPEvent) (res : Resources) :
    FlowStep (before++⟨⟨d,done,e::rest⟩,res⟩::after)
      (before++⟨⟨d,done++[e],rest⟩,res.apply e⟩::after)
  | extend (before after : List (Flow Handler)) (t : Task (Datagram Handler) UDPEvent)
      (res : Resources) (h : t.done.any UDPEvent.isCopy) :
    FlowStep (before++⟨t,res⟩::after) (before++⟨t,res.rearm⟩::after)
  | timeout (before after : List (Flow Handler)) (t : Task (Datagram Handler) UDPEvent)
      (res : Resources) (h : res.timer) :
    FlowStep (before++⟨t,res⟩::after) (before++⟨t,res.fire t.id.isLocal⟩::after)

/-- What holds of every flow at every time: until the timer is armed its resources are those
of its events, and from then on it is settled. -/
structure FlowInv (f : Flow Handler) : Prop where
  trace : f.task.trace=f.task.id.trace
  ordered : wellOrdered (f.task.done.any UDPEvent.isArm) f.task.pending
  unarmed : f.task.done.any UDPEvent.isArm=false →
    f.res=Resources.after f.task.done ∧ f.task.done.any UDPEvent.isCopy=false
  armed : f.task.done.any UDPEvent.isArm → ¬f.task.id.Leaks → f.res.Settled f.task.id.isLocal

lemma FlowInv.start (d : Datagram Handler) : FlowInv ⟨.start d d.trace,{}⟩ where
  trace := rfl
  ordered := wellOrdered_acceptUDP d.ns d.request d.out
  unarmed := fun _ => ⟨rfl,rfl⟩
  armed := fun h => by cases h

lemma FlowInv.exec {d : Datagram Handler} {done : List UDPEvent} {e : UDPEvent}
    {rest : List UDPEvent} (h : FlowInv ⟨⟨d,done,e::rest⟩,res⟩) :
    FlowInv ⟨⟨d,done++[e],rest⟩,res.apply e⟩ := by
  have htrace : done++[e]++rest=d.trace := by simpa [Task.trace] using h.trace
  cases harm : done.any UDPEvent.isArm with
  | true =>
    have hord : wellOrdered true (e::rest) := by simpa [harm] using h.ordered
    rw [wellOrdered,and_eq_true] at hord
    refine ⟨htrace,?_,?_,?_⟩
    · simpa [any_append,harm] using hord.2
    · intro hfalse
      simp [any_append,harm] at hfalse
    · intro _ hleak
      rw [Resources.apply_of_isNeutral hord.1]
      exact h.armed harm hleak
  | false =>
    obtain ⟨hres,hcopy⟩ := h.unarmed harm
    have hord : wellOrdered false (e::rest) := by simpa [harm] using h.ordered
    rw [wellOrdered,and_eq_true,not_eq_true'] at hord
    have hafter : res.apply e=Resources.after (done++[e]) := by
      rw [Resources.after_append]
      exact congrArg (·.apply e) hres
    have hany : (done++[e]).any UDPEvent.isArm=e.isArm := by simp [any_append,harm]
    refine ⟨htrace,?_,?_,?_⟩
    · rw [hany]
      exact hord.2
    · intro _
      exact ⟨hafter,by simp [any_append,hcopy,hord.1]⟩
    · intro he hleak
      rw [hany] at he
      rw [he] at hord
      have hsettled := (acceptUDP_settled_iff d.ns d.request d.out).mpr hleak
      change (Resources.after d.trace).Settled _ at hsettled
      rw [← htrace,Resources.after,foldl_append, Resources.foldl_of_wellOrdered hord.2] at hsettled
      rw [hafter]
      exact hsettled

variable {t : Task (Datagram Handler) UDPEvent}

lemma FlowInv.extend
    (h : FlowInv ⟨t,res⟩) (hc : t.done.any UDPEvent.isCopy) : FlowInv ⟨t,res.rearm⟩ := by
  have harm : t.done.any UDPEvent.isArm := by
    cases harm : t.done.any UDPEvent.isArm with
    | true => rfl
    | false => cases hc.symm.trans (h.unarmed harm).2
  refine ⟨h.trace,h.ordered,fun hfalse => ?_,fun _ hleak => (h.armed harm hleak).rearm⟩
  cases harm.symm.trans hfalse

lemma FlowInv.timeout
    (h : FlowInv ⟨t,res⟩) (ht : res.timer) : FlowInv ⟨t,res.fire t.id.isLocal⟩ := by
  have harm : t.done.any UDPEvent.isArm := by
    cases harm : t.done.any UDPEvent.isArm with
    | true => rfl
    | false =>
      have hres : res=Resources.after t.done := (h.unarmed harm).1
      rw [hres,Resources.timer_after,harm] at ht
      cases ht
  refine ⟨h.trace,h.ordered,fun hfalse => ?_,fun _ hleak => (h.armed harm hleak).fire⟩
  cases harm.symm.trans hfalse

lemma flowInv_of_reachable {fs : List (Flow Handler)}
    (h : Relation.ReflTransGen FlowStep [] fs) : ∀ f ∈ fs, FlowInv f := by
  refine reachable_invariant (I := fun fs : List (Flow Handler) => ∀ f ∈ fs, FlowInv f) h
    (by simp) fun a b hs hi => ?_
  cases hs with
  | start fs d => exact forall_mem_append.mpr ⟨hi,forall_mem_singleton.mpr (.start d)⟩
  | exec before after d done e rest res => exact forall_mem_replace hi fun hf => hf.exec
  | extend before after t res hc => exact forall_mem_replace hi fun hf => hf.extend hc
  | timeout before after t res ht => exact forall_mem_replace hi fun hf => hf.timeout ht

/-- A flow releases what it opened, or leaves a timer that will, exactly when it does not
leak; and in every run without leaking flows, whatever is open once a flow has returned or
armed its timer is open with an armed timer that closes it. -/
theorem no_udp_endpoint_leaked : (∀ (ns : Impl Handler) r out,
      (Resources.after (acceptUDP ns r out)).Settled (isLocalFlow ns r) ↔ ¬Leaks ns r out) ∧
    ∀ fs : List (Flow Handler), Relation.ReflTransGen FlowStep [] fs → (∀ f ∈ fs, ¬f.task.id.Leaks) →
      ∀ f ∈ fs, f.task.pending=[] ∨ f.task.done.any UDPEvent.isArm → f.res.Settled f.task.id.isLocal := by
  refine ⟨acceptUDP_settled_iff,fun fs hreach hnone f hf hend => ?_⟩
  have hinv := flowInv_of_reachable hreach f hf
  cases harm : f.task.done.any UDPEvent.isArm with
  | true => exact hinv.armed harm (hnone f hf)
  | false =>
    have hpending : f.task.pending=[] := by simpa [harm] using hend
    have htrace := hinv.trace
    rw [Task.trace,hpending,append_nil] at htrace
    rw [(hinv.unarmed harm).1,htrace]
    exact (acceptUDP_settled_iff _ _ _).mpr (hnone f hf)

end

def outsideDatagram : Datagram Unit where
  ns := filteredPort80
  request := ⟨80,.len4 0x64400001#32,4000,.len4 0x64400002#32⟩
  out := ⟨true,true,true,true⟩

/-- The rejected flow has returned, its endpoint is open and no timer is armed. -/
theorem rejected_flow_keeps_endpoint :
    ¬(Resources.after outsideDatagram.trace).Settled outsideDatagram.isLocal ∧
      ∃ fs : List (Flow Unit), Relation.ReflTransGen FlowStep [] fs ∧
        ∃ f ∈ fs, f.task.pending=[] ∧ f.res=⟨true,false,false,false⟩ := by
  have htrace : outsideDatagram.trace=[.createEndpoint] := by decide +kernel
  refine ⟨by rw [htrace]; decide +kernel, [⟨⟨outsideDatagram,[.createEndpoint],[]⟩,⟨true,false,false,false⟩⟩],?_,_,
    mem_singleton.mpr rfl,rfl,rfl⟩
  have hstart : FlowStep [] [⟨.start outsideDatagram outsideDatagram.trace,{}⟩] := .start [] _
  rw [htrace] at hstart
  exact (Relation.ReflTransGen.single hstart).tail (.exec [] [] outsideDatagram [] _ [] {})

end TunnnejiTail.Netstack
