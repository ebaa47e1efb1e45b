import TunnnejiTail.Cli.RunTunnel

/-! The serveTarget behind a TCPForward handler: which addresses it dials, over any history
of its cache, and how the system dialer reads them. -/
namespace TunnnejiTail.Ipn
open Go Netip Cli Addr

structure ServeTarget where
  host : Str
  port : Str := []
  cur : Str := []
  deriving DecidableEq

/-- What the resolver, the probes and the dialer answer at one time. -/
structure Network where
  lookup : Resolver
  probe : Str → Bool
  systemDial : Str → Bool

def newServeTarget (hostport : Str) : ServeTarget :=
  match splitHostPort hostport with
  | none => { host := hostport }
  | some (host,port) => { host := host,port := port }

structure DialResult where
  conn : Option Str
  target : Str
  dialled : List Str
  next : ServeTarget

namespace ServeTarget

def pin (st : ServeTarget) (a : Str) : Str × ServeTarget := (a,{ st with cur := a })

def addr (net : Network) (st : ServeTarget) : Str × ServeTarget :=
  if st.cur≠[] then (st.cur,st)
  else if st.port=[] then (st.host,st)
  else if (parseIP st.host).isSome then st.pin (joinHostPort st.host st.port)
  else match net.lookup st.host with
    | none => (joinHostPort st.host st.port,st)
    | some [] => (joinHostPort st.host st.port,st)
    | some (ip::ips) =>
      match (ip::ips).find? fun ip => net.probe (joinHostPort ip st.port) with
      | some ip => st.pin (joinHostPort ip st.port)
      | none => st.pin (joinHostPort ip st.port)

def invalidate (st : ServeTarget) : ServeTarget := { st with cur := [] }

/-- dial; the network may have changed when the second address is computed. -/
def dial (net net' : Network) (st : ServeTarget) : DialResult :=
  let (target,st1) := st.addr net
  if net.systemDial target then ⟨some target,target,[target],st1⟩
  else
    let (t2,st2) := st1.invalidate.addr net'
    if t2≠target then
      if net'.systemDial t2 then ⟨some t2,t2,[target,t2],st2⟩
      else ⟨none,target,[target,t2],st2⟩
    else ⟨none,target,[target],st2⟩

/-- The states of the target of a back end, over any calls of any connections. -/
inductive Reachable (hostport : Str) : ServeTarget → Prop
  | new : Reachable hostport (newServeTarget hostport)
  | addr {st} (net : Network) : Reachable hostport st → Reachable hostport (st.addr net).2
  | invalidate {st} : Reachable hostport st → Reachable hostport st.invalidate

structure Literal (host port : Str) (st : ServeTarget) : Prop where
  host_eq : st.host=host
  port_eq : st.port=port
  cur_eq : st.cur=[] ∨ st.cur=joinHostPort host port

section
variable {host port : Str} {st : ServeTarget}

lemma Literal.addr (hip : (parseIP host).isSome) (hport : port≠[])
    (h : Literal host port st) (net : Network) :
    (st.addr net).1=joinHostPort host port ∧ Literal host port (st.addr net).2 := by
  obtain ⟨rfl,rfl,hcur⟩ := h
  rw [ServeTarget.addr]
  by_cases hc : st.cur=[]
  · simp only [hc,hport,hip,ne_eq,not_true_eq_false,if_false,if_true,pin]
    exact ⟨trivial,rfl,rfl,.inr rfl⟩
  · simp only [hc,ne_eq,not_false_eq_true,if_true]
    exact ⟨hcur.resolve_left hc,rfl,rfl,hcur⟩

lemma Literal.invalidate (h : Literal host port st) :
    Literal host port st.invalidate := ⟨h.host_eq,h.port_eq,.inl rfl⟩

variable (hip : (parseIP host).isSome) (hport : port≠[])
include hip hport

lemma Literal.dialled
    (h : Literal host port st) (net net' : Network) :
    (st.dial net net').dialled=[joinHostPort host port] := by
  obtain ⟨h1,hst⟩ := h.addr hip hport net
  obtain ⟨h2,-⟩ := hst.invalidate.addr hip hport net'
  simp only [dial,h1,h2,ne_eq,not_true_eq_false,if_false]
  split_ifs <;> rfl

lemma Reachable.literal {hostport : Str}
    (hs : splitHostPort hostport=some (host,port))
    (h : Reachable hostport st) : Literal host port st := by
  induction h with
  | new =>
    rw [newServeTarget,hs]
    exact ⟨rfl,rfl,.inl rfl⟩
  | addr net _ ih => exact (ih.addr hip hport net).2
  | invalidate _ ih => exact ih.invalidate

end

end ServeTarget

def ipAddr (ip : BitVec 128) : Addr :=
  match to4 ip with
  | some a => .v4 a
  | none => .v6 ip []

lemma ipAddr_injective : Function.Injective ipAddr := by
  intro ip ip' h
  unfold ipAddr to4 at h
  split_ifs at h with h1 h2 h2
  · rw [eq_mapped h1,eq_mapped h2]
    exact congrArg mapped (v4.inj h)
  · exact (v6.inj h).1

def dialPort (port : Str) : Option UInt16 :=
  (atoi port).bind fun n => if 0≤n ∧ n≤65535 then some (uint16 n) else none

/-- How the system dialer reads an address; names are left to its resolver. -/
def dialAddr (resolve : Str → Option Addr) (s : Str) : Option AddrPort :=
  (splitHostPort s).bind fun (host,port) =>
    (((parseIP host).map ipAddr).or (resolve host)).bind fun ip =>
      (dialPort port).map fun p => ⟨ip,p⟩

lemma dialPort_itoa (n : ℤ) : dialPort (itoa n)=if 0≤n ∧ n≤65535 then some (uint16 n) else none := by
  rw [dialPort,atoi_itoa]
  have hmax : (maxInt : ℤ)=2^63-1 := by decide
  split_ifs with h1 h2
  · simp [h2]
  · simp [h2]
  · omega
  · rfl

lemma itoa_port_ok (n : ℤ) : ∀ c ∈ itoa n, c ≠ ':' ∧ c ≠ '[' ∧ c ≠ ']' := by
  intro c hc
  refine ⟨?_,?_,?_⟩ <;> rintro rfl
  · exact not_mem_itoa (by decide) (by decide) hc
  · exact not_mem_itoa (by decide) (by decide) hc
  · exact not_mem_itoa (by decide) (by decide) hc

lemma dialAddr_joinHostPort (resolve : Str → Option Addr) {host : Str} (n : ℤ)
    (hh : ∀ c ∈ host, c ≠ '[' ∧ c ≠ ']') : dialAddr resolve (joinHostPort host (itoa n)) =
      (((parseIP host).map ipAddr).or (resolve host)).bind fun ip =>
        if 0≤n ∧ n≤65535 then some ⟨ip,uint16 n⟩ else none := by
  rw [dialAddr,splitHostPort_joinHostPort (itoa_port_ok n) hh,Option.bind_some]
  dsimp only
  rw [dialPort_itoa]
  congr 1
  funext ip
  split_ifs <;> rfl

section
variable {pe : PortEntry}

lemma tcpForward_eq (pe : PortEntry) : pe.tcpForward=pe.targetAddr ++ ':'::itoa pe.targetPort := by
  simp [PortEntry.tcpForward]

variable {ip : BitVec 128}

lemma splitHostPort_tcpForward (hip : pe.targetAddr=formatIP ip) :
    splitHostPort pe.tcpForward=some (ipString ip,itoa pe.targetPort) := by
  rw [tcpForward_eq,hip]
  unfold formatIP
  cases h4 : to4 ip with
  | none =>
    have h := splitHostPort_bracketed (itoa_port_ok pe.targetPort)
      fun c (hc : c ∈ ipString ip) => not_bracket_of_mem_ipString hc
    simpa using h
  | some a =>
    have hs : ipString ip=string4 a := by rw [ipString,h4]
    refine splitHostPort_plain (itoa_port_ok _) fun c hc => ⟨?_,not_bracket_of_mem_ipString hc⟩
    rintro rfl
    rw [hs] at hc
    exact not_mem_string4 (by decide) (by decide) hc

lemma dialAddr_of_literal (hip : pe.targetAddr=formatIP ip)
    {st : ServeTarget} (hst : ServeTarget.Reachable pe.tcpForward st) (net net' : Network)
    (resolve : Str → Option Addr) : ∀ s ∈ (st.dial net net').dialled, dialAddr resolve s =
      if 0≤pe.targetPort ∧ pe.targetPort≤65535 then some ⟨ipAddr ip,uint16 pe.targetPort⟩ else none := by
  have hparse : (parseIP (ipString ip)).isSome := by simp [parseIP_ipString]
  have hlit := hst.literal hparse (itoa_ne_nil _) (splitHostPort_tcpForward hip)
  rw [hlit.dialled hparse (itoa_ne_nil _)]
  intro s hs
  rw [List.mem_singleton.mp hs,
    dialAddr_joinHostPort resolve _ fun c hc => not_bracket_of_mem_ipString hc,parseIP_ipString]
  rfl

lemma exists_unresolved (hno : parseIP (trimBrackets pe.targetAddr)=none) :
    ∃ net, ∃ s ∈ ((newServeTarget pe.tcpForward).dial net net).dialled, dialAddr (fun _ => none) s=none := by
  refine ⟨⟨fun _ => none,fun _ => false,fun _ => true⟩,
    ((newServeTarget pe.tcpForward).addr ⟨fun _ => none,fun _ => false,fun _ => true⟩).1,
    by simp [ServeTarget.dial],?_⟩
  cases hsplit : splitHostPort pe.tcpForward with
  | none => simp [newServeTarget,hsplit,ServeTarget.addr,dialAddr]
  | some q =>
    obtain ⟨host,port⟩ := q
    have hcolon : ':' ∉ itoa pe.targetPort := fun h => (itoa_port_ok _ _ h).1 rfl
    rw [tcpForward_eq] at hsplit
    obtain ⟨rfl,hplain,hbefore⟩ := splitHostPort_append hcolon hsplit
    have hhost : trimBrackets pe.targetAddr=host := by
      cases hbefore with
      | inl h =>
        rw [h]
        exact trimBrackets_of_not_mem fun hc => (hplain _ hc).1 rfl
      | inr h => rw [h,trimBrackets_bracketed]
    rw [hhost] at hno
    have haddr : ((newServeTarget pe.tcpForward).addr
        ⟨fun _ => none,fun _ => false,fun _ => true⟩).1=joinHostPort host (itoa pe.targetPort) := by
      simp [newServeTarget,tcpForward_eq,hsplit,ServeTarget.addr,itoa_ne_nil,hno]
    rw [haddr,dialAddr_joinHostPort _ _ hplain,hno]
    rfl

end

end TunnnejiTail.Ipn
