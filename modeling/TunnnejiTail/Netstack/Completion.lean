import TunnnejiTail.Go.Tasks
import TunnnejiTail.Netstack.TCP

/-! Completion of forwarded TCP requests. acceptTCP completes a request exactly once except
where it drops it silently; the forwarder keeps a request in flight until it is completed, so
its table holds the running handlers and the requests that were dropped. -/
namespace TunnnejiTail.Netstack
open Go Netip List

section
variable {Handler : Type}

def TCPEvent.isComplete : TCPEvent Handler → Bool
  | .complete _ => true
  | _ => false

def completions (trace : List (TCPEvent Handler)) : ℕ := trace.countP TCPEvent.isComplete

@[simp] lemma completions_append (a b : List (TCPEvent Handler)) :
    completions (a++b)=completions a + completions b := countP_append

@[simp] lemma completions_nil : completions ([] : List (TCPEvent Handler))=0 := rfl

@[simp] lemma completions_cons (e : TCPEvent Handler) (t : List (TCPEvent Handler)) :
    completions (e::t)=completions t + if e.isComplete then 1 else 0 := countP_cons

/-- The requests that are dropped without an answer: DNS to a service address, a source that
is not on the whitelist, and in stealth mode a Tailscale address without a handler. -/
def SilentDrop (ns : Impl Handler) (r : TransportEndpointID) : Prop :=
  r.clientRemoteIP.isValid ∧ ((isServiceIP r.dialIP ∧ r.localPort=53) ∨
      (ns.lb.isSome ∧ sourceAllowed ns.tables r.localPort r.clientRemoteIP=false) ∨
      (handlerFor ns r=none ∧ ns.stealthDrop ∧ (isServiceIP r.dialIP ∨ r.isTailscaleIP)))

instance (ns : Impl Handler) (r : TransportEndpointID) : Decidable (SilentDrop ns r) :=
  inferInstanceAs (Decidable (_ ∧ (_ ∨ _ ∨ _)))

variable (ns : Impl Handler)

lemma completions_runHandler (out : TCPOutcome) (port : UInt16)
    (h : Handler) : completions (runHandler ns out port h)=1 := by
  cases hc : out.createEndpoint with
  | false => simp [runHandler,getConnOrReset,hc,TCPEvent.isComplete]
  | true =>
    cases hp : ns.tables.passwordForPort.lookup port with
    | none => simp [runHandler,getConnOrReset,hc,hp,TCPEvent.isComplete]
    | some password =>
      cases he : out.newEncryptedTCPConn <;>
        simp [runHandler,getConnOrReset,hc,hp,he,TCPEvent.isComplete]

lemma completions_forwardTCP (out : TCPOutcome) (dialAddr : AddrPort) (isLocal : Bool) :
    completions (forwardTCP out dialAddr isLocal : Bool × List (TCPEvent Handler)).2 =
      if (forwardTCP out dialAddr isLocal : Bool × List (TCPEvent Handler)).1 then 1 else 0 := by
  cases hd : out.dial with
  | false => simp [forwardTCP,hd,TCPEvent.isComplete]
  | true =>
    cases isLocal with
    | false =>
      cases hc : out.createEndpoint <;>
        simp [forwardTCP,getConnOrReset,hd,hc,TCPEvent.isComplete]
    | true =>
      cases hr : out.registerIPPortIdentity with
      | false => simp [forwardTCP,hd,hr,TCPEvent.isComplete]
      | true =>
        cases hc : out.createEndpoint <;>
          simp [forwardTCP,getConnOrReset,hd,hr,hc,TCPEvent.isComplete]

section
variable (r : TransportEndpointID)

lemma completions_unhandledTCP
    (out : TCPOutcome) : completions (unhandledTCP ns r out) =
      if ns.stealthDrop ∧ (isServiceIP r.dialIP ∨ r.isTailscaleIP) then 0 else 1 := by
  cases hs : isServiceIP r.dialIP with
  | true => cases hd : ns.stealthDrop <;> simp [unhandledTCP,hs,hd,TCPEvent.isComplete]
  | false =>
    cases ht : r.isTailscaleIP with
    | true => cases hd : ns.stealthDrop <;> simp [unhandledTCP,hs,ht,hd,TCPEvent.isComplete]
    | false =>
      have hforward : completions (forwardTCP out ⟨r.dialIP,r.localPort⟩
        (ns.isLocalIP r.localIP) : Bool × List (TCPEvent Handler)).2=_ :=
        completions_forwardTCP out _ _
      cases hh : (forwardTCP out ⟨r.dialIP,r.localPort⟩ (ns.isLocalIP r.localIP) : Bool × List (TCPEvent Handler)).1 <;>
        simp [unhandledTCP,hs,ht,hh,hforward,TCPEvent.isComplete]

lemma completions_deferredTCP :
    completions (deferredTCP r : List (TCPEvent Handler))=0 := by
  cases ht : r.isTailscaleIP <;> simp [deferredTCP,ht,TCPEvent.isComplete]

lemma completions_acceptTCP (out : TCPOutcome) :
    completions (acceptTCP ns r out)=if SilentDrop ns r then 0 else 1 := by
  have hdefer : completions (deferredTCP r : List (TCPEvent Handler))=0 :=
    completions_deferredTCP r
  cases hv : r.clientRemoteIP.isValid with
  | false => simp [acceptTCP,SilentDrop,hv,TCPEvent.isComplete]
  | true =>
    by_cases hdns : isServiceIP r.dialIP ∧ r.localPort=53
    · simp [acceptTCP,SilentDrop,hv,hdns,hdefer]
    · by_cases hlist : ns.lb.isSome ∧ sourceAllowed ns.tables r.localPort r.clientRemoteIP=false
      · simp [acceptTCP,SilentDrop,hv,hdns,hlist,hdefer]
      · cases hh : handlerFor ns r with
        | some h =>
          have hrun := completions_runHandler ns out r.localPort h
          simp [acceptTCP,SilentDrop,hv,hdns,hlist,hh,hdefer,hrun]
        | none =>
          have hun := completions_unhandledTCP ns r out
          simp [acceptTCP,SilentDrop,hv,hdns,hlist,hh,hdefer,hun]

end

/-- A request as the forwarder hands it over: the netstack at that time and the results of
the calls that its handler makes. -/
structure Inbound (Handler : Type) where
  ns : Impl Handler
  request : TransportEndpointID
  out : TCPOutcome

def Inbound.trace (i : Inbound Handler) : List (TCPEvent Handler) := acceptTCP i.ns i.request i.out

abbrev Forwarder (Handler : Type) := List (Task (Inbound Handler) (TCPEvent Handler))

def inFlight (ts : Forwarder Handler) : Forwarder Handler := ts.filter (completions ·.done=0)

/-- The forwarder starts a handler for a new request, unless the table is full, and the
handlers run side by side. -/
inductive ForwarderStep (maxInFlight : ℕ) : Forwarder Handler → Forwarder Handler → Prop
  | accept (ts : Forwarder Handler) (i : Inbound Handler) (h : (inFlight ts).length < maxInFlight) :
    ForwarderStep maxInFlight ts (ts++[.start i i.trace])
  | drop (ts : Forwarder Handler) (i : Inbound Handler) (h : maxInFlight≤(inFlight ts).length) :
    ForwarderStep maxInFlight ts ts
  | exec (ts ts' : Forwarder Handler) (h : Task.Exec ts ts') : ForwarderStep maxInFlight ts ts'

section
variable {maxInFlight : ℕ} {ts : Forwarder Handler} (h : Relation.ReflTransGen (ForwarderStep maxInFlight) [] ts)
include h

lemma forwarder_trace : ∀ t ∈ ts, t.trace=t.id.trace := by
  refine reachable_invariant (I := fun ts : Forwarder Handler => ∀ t ∈ ts, t.trace=t.id.trace) h
    (by simp) ?_
  intro ts ts' hs hi
  cases hs with
  | accept i _ => exact forall_mem_append.mpr ⟨hi,forall_mem_singleton.mpr rfl⟩
  | drop i _ => exact hi
  | exec _ he => exact he.forall_trace (P := fun i tr => tr=Inbound.trace i) hi

lemma silentDrop_of_inFlight {t}
    (ht : t ∈ inFlight ts) (hr : t.pending=[]) : SilentDrop t.id.ns t.id.request := by
  obtain ⟨hmem,hc⟩ := mem_filter.mp ht
  have htr := forwarder_trace h t hmem
  rw [Task.trace,hr,append_nil,Inbound.trace] at htr
  have hcount := completions_acceptTCP t.id.ns t.id.request t.id.out
  rw [← htr,of_decide_eq_true hc] at hcount
  by_contra hs
  rw [if_neg hs] at hcount
  cases hcount

end

/-- A request is completed exactly once unless it is dropped silently; and in every run
without such requests the forwarder's table holds running handlers only, so that it is empty
once they have returned. -/
theorem requests_completed_once :
    (∀ (ns : Impl Handler) r out, completions (acceptTCP ns r out)=1 ↔ ¬SilentDrop ns r) ∧
    ∀ (maxInFlight : ℕ) (ts : Forwarder Handler), Relation.ReflTransGen (ForwarderStep maxInFlight) [] ts →
      (∀ t ∈ ts, ¬SilentDrop t.id.ns t.id.request) →
      (∀ t ∈ inFlight ts, t.pending≠[]) ∧ ((∀ t ∈ ts, t.pending=[]) → inFlight ts=[]) := by
  refine ⟨fun ns r out => ?_,fun maxInFlight ts hreach hnone => ?_⟩
  · rw [completions_acceptTCP]
    by_cases hs : SilentDrop ns r <;> simp [hs]
  · have hrunning : ∀ t ∈ inFlight ts, t.pending≠[] := fun t ht hr =>
      hnone t (mem_of_mem_filter ht) (silentDrop_of_inFlight hreach ht hr)
    refine ⟨hrunning,fun hall => eq_nil_iff_forall_not_mem.mpr fun t ht => ?_⟩
    exact hrunning t ht (hall t (mem_of_mem_filter ht))

end

def outsideRequest : Inbound Unit where
  ns := filteredPort80
  request := ⟨80,.len4 0x64400001#32,4000,.len4 0x64400002#32⟩
  out := ⟨true,true,true,true⟩

/-- The request is never completed: its handler has returned and the table stays full. -/
theorem rejected_request_stays_in_flight : completions outsideRequest.trace=0 ∧
      ∃ ts, Relation.ReflTransGen (ForwarderStep 1) [] ts ∧ (∀ t ∈ ts, t.pending=[]) ∧
        (inFlight ts : Forwarder Unit).length=1 := by
  have htrace : outsideRequest.trace=[] := by decide +kernel
  refine ⟨by rw [htrace]; rfl,[.start outsideRequest []],?_,by simp [Task.start],by rfl⟩
  have hstep : ForwarderStep 1 [] [.start outsideRequest outsideRequest.trace] :=
    .accept [] outsideRequest (by decide)
  rw [htrace] at hstep
  exact .single hstep

end TunnnejiTail.Netstack
