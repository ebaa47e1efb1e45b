import TunnnejiTail.Netstack.UDP

/-! What the handlers can do to the outside: for each kind of event, the requests that some
results of the calls lead to it. -/
namespace TunnnejiTail.Netstack
open Go Netip Option TCPEvent UDPEvent

section
variable {Handler : Type} {ns : Impl Handler} {r : TransportEndpointID}

def Passes (ns : Impl Handler) (r : TransportEndpointID) : Prop :=
  r.clientRemoteIP.isValid ∧ ¬(isServiceIP r.dialIP ∧ r.localPort=53) ∧
    (ns.lb.isSome → sourceAllowed ns.tables r.localPort r.clientRemoteIP)

def dispatchTCP (ns : Impl Handler) (r : TransportEndpointID) (out : TCPOutcome) :
    List (TCPEvent Handler) :=
  match handlerFor ns r with
  | some h => runHandler ns out r.localPort h
  | none => unhandledTCP ns r out

lemma acceptTCP_of_passes (h : Passes ns r) (out : TCPOutcome) :
    acceptTCP ns r out=dispatchTCP ns r out++deferredTCP r := by
  obtain ⟨hvalid,hdns,hallowed⟩ := h
  have hdns' : (isServiceIP r.dialIP && decide (r.localPort=53))=false := by simpa using hdns
  have hreject : (ns.lb.isSome && !sourceAllowed ns.tables r.localPort r.clientRemoteIP)=false := by
    simpa using hallowed
  simp only [acceptTCP,dispatchTCP,hvalid,hdns',hreject,Bool.not_true,Bool.false_eq_true,if_false]
  cases handlerFor ns r <;> rfl

lemma acceptTCP_of_not_passes (h : ¬Passes ns r) (out : TCPOutcome) :
    acceptTCP ns r out=[.complete true] ∨ acceptTCP ns r out=deferredTCP r := by
  rw [acceptTCP]
  split_ifs with hvalid hdns hreject
  · exact .inl rfl
  · exact .inr rfl
  · exact .inr rfl
  · exact absurd ⟨by simpa using hvalid,by simpa using hdns,by simpa using hreject⟩ h

variable {out : TCPOutcome}

/-- Other than completing the request and giving back an address, acceptTCP does what follows
the handler lookup, and only for requests that pass. -/
theorem mem_acceptTCP {e : TCPEvent Handler} (hc : e≠.complete true) (ha : e≠.removeSubnetAddress r.dialIP) :
    e ∈ acceptTCP ns r out ↔ Passes ns r ∧ e ∈ dispatchTCP ns r out := by
  have hdefer : e ∉ deferredTCP r := by
    rw [deferredTCP]
    split_ifs
    · exact List.not_mem_nil
    · simpa using ha
  by_cases hp : Passes ns r
  · rw [acceptTCP_of_passes hp,List.mem_append]
    simp only [hp,hdefer,or_false,true_and]
  · simp only [hp,false_and,iff_false]
    cases acceptTCP_of_not_passes hp out with
    | inl he => simpa [he] using hc
    | inr he => rwa [he]

variable {h : Handler} {password : Option Str}

lemma handle_mem_runHandler {port : UInt16} {h' : Handler} :
    (∃ out, handle h password ∈ runHandler ns out port h') ↔ h=h' ∧ password=ns.tables.passwordForPort.lookup port := by
  constructor
  · rintro ⟨out,hmem⟩
    revert hmem
    simp only [runHandler,getConnOrReset]
    cases ns.tables.passwordForPort.lookup port <;> split_ifs <;> simp
  · rintro ⟨rfl,hpw⟩
    refine ⟨⟨true,true,true,true⟩,?_⟩
    rw [hpw]
    simp only [runHandler,getConnOrReset]
    cases ns.tables.passwordForPort.lookup port <;> simp

lemma handle_not_mem_unhandledTCP : handle h password ∉ unhandledTCP ns r out := by
  simp only [unhandledTCP,forwardTCP,getConnOrReset]
  split_ifs <;> simp

lemma handle_mem_acceptTCP : (∃ out, handle h password ∈ acceptTCP ns r out) ↔
      Passes ns r ∧ handlerFor ns r=some h ∧ password=ns.tables.passwordForPort.lookup r.localPort := by
  simp only [mem_acceptTCP (e := handle h password) (by simp) (by simp), exists_and_left,dispatchTCP]
  refine and_congr_right fun _ => ?_
  cases hh : handlerFor ns r with
  | none => simp [handle_not_mem_unhandledTCP]
  | some h' =>
    simp only [handle_mem_runHandler,Option.some.injEq]
    exact and_congr_left' eq_comm

variable {addr : AddrPort}

lemma dial_not_mem_runHandler {port : UInt16} : dial addr ∉ runHandler ns out port h := by
  simp only [runHandler,getConnOrReset]
  cases ns.tables.passwordForPort.lookup port <;> split_ifs <;> simp

lemma dial_mem_unhandledTCP : (∃ out, dial addr ∈ unhandledTCP ns r out) ↔
      isServiceIP r.dialIP=false ∧ r.isTailscaleIP=false ∧ addr=⟨r.dialIP,r.localPort⟩ := by
  cases hs : isServiceIP r.dialIP with
  | true =>
    simp only [unhandledTCP,hs,if_true]
    split_ifs <;> simp
  | false =>
    cases ht : r.isTailscaleIP with
    | true =>
      simp only [unhandledTCP,hs,ht,if_true,Bool.false_eq_true,if_false]
      split_ifs <;> simp
    | false =>
      constructor
      · rintro ⟨out,hmem⟩
        revert hmem
        simp only [unhandledTCP,hs,ht,Bool.false_eq_true,if_false,forwardTCP,getConnOrReset]
        split_ifs <;> simp
      · rintro ⟨-,-,rfl⟩
        exact ⟨⟨true,true,false,true⟩,by simp [unhandledTCP,hs,ht,forwardTCP]⟩

/-- A backend is dialled for the requests that pass, have no handler and are for neither a
service address nor a Tailscale address. -/
theorem dial_mem_acceptTCP : (∃ out, dial addr ∈ acceptTCP ns r out) ↔
      Passes ns r ∧ handlerFor ns r=none ∧ isServiceIP r.dialIP=false ∧
        r.isTailscaleIP=false ∧ addr=⟨r.dialIP,r.localPort⟩ := by
  simp only [mem_acceptTCP (e := dial addr) (by simp) (by simp), exists_and_left,dispatchTCP]
  refine and_congr_right fun _ => ?_
  cases hh : handlerFor ns r with
  | none => simp [dial_mem_unhandledTCP]
  | some h' => simp [dial_not_mem_runHandler]

lemma listen_mem_acceptUDP : (∃ out addr ok, listenUDP addr ok ∈ acceptUDP ns r out) ↔
      ∃ p ∈ forwarded r, sourceAllowed ns.tables p.2.port p.1.addr := by
  simp only [acceptUDP_eq]
  cases hf : forwarded r with
  | none =>
    simp only [mem_def,reduceCtorEq,false_and,exists_false,iff_false]
    rintro ⟨out,addr,ok,hmem⟩
    split_ifs at hmem <;> simp at hmem
  | some p =>
    simp only [mem_def,Option.some.injEq,exists_eq_left']
    cases ha : sourceAllowed ns.tables p.2.port p.1.addr with
    | false =>
      simp only [Bool.false_eq_true,iff_false]
      rintro ⟨out,addr,ok,hmem⟩
      split_ifs at hmem <;> simp [forwardUDP,ha] at hmem
    | true =>
      simp only [iff_true]
      refine ⟨⟨true,true,true,true⟩,(backendFor ns p.1 p.2).listenAddr,true,?_⟩
      simp [forwardUDP,ha]

variable {remote : AddrPort}

lemma copy_mem_proxyUDP {dstAddr : AddrPort} {b : Backend} {out : UDPOutcome}
    (h : copyPackets remote password ∈ proxyUDP ns dstAddr b out) :
    remote=b.remoteAddr ∧ password=ns.tables.passwordForPort.lookup dstAddr.port := by
  revert h
  rw [proxyUDP]
  split_ifs <;> simp

lemma copy_mem_forwardUDP {srcAddr dstAddr : AddrPort} : (∃ out : UDPOutcome, out.createEndpoint=true ∧
      copyPackets remote password ∈ forwardUDP ns srcAddr dstAddr out) ↔
      sourceAllowed ns.tables dstAddr.port srcAddr.addr ∧ remote=(backendFor ns srcAddr dstAddr).remoteAddr ∧
        password=ns.tables.passwordForPort.lookup dstAddr.port := by
  constructor
  · rintro ⟨out,-,hmem⟩
    rw [forwardUDP] at hmem
    split_ifs at hmem with ha h1 h2
    · exact absurd hmem List.not_mem_nil
    · exact ⟨by simpa using ha,copy_mem_proxyUDP (by simpa using hmem)⟩
    · exact ⟨by simpa using ha,copy_mem_proxyUDP (by simpa using hmem)⟩
    · simp at hmem
  · rintro ⟨ha,rfl,rfl⟩
    exact ⟨⟨true,true,true,true⟩,rfl,by simp [forwardUDP,ha,proxyUDP]⟩

lemma copy_mem_acceptUDP : (∃ out, copyPackets remote password ∈ acceptUDP ns r out) ↔
      ∃ p ∈ forwarded r, sourceAllowed ns.tables p.2.port p.1.addr ∧
        remote=(backendFor ns p.1 p.2).remoteAddr ∧ password=ns.tables.passwordForPort.lookup p.2.port := by
  simp only [acceptUDP_eq]
  cases hf : forwarded r with
  | none =>
    simp only [mem_def,reduceCtorEq,false_and,exists_false,iff_false]
    rintro ⟨out,hmem⟩
    split_ifs at hmem <;> simp at hmem
  | some p =>
    simp only [mem_def,Option.some.injEq,exists_eq_left']
    rw [← copy_mem_forwardUDP]
    refine exists_congr fun out => ?_
    cases hc : out.createEndpoint <;> simp

def AdmitsTCP (ns : Impl Handler) (r : TransportEndpointID) : Prop :=
  ∃ out h password, TCPEvent.handle h password ∈ acceptTCP ns r out

/-- The packets of a flow are copied to a backend under some results of the calls. -/
def AdmitsUDP (ns : Impl Handler) (r : TransportEndpointID) : Prop :=
  ∃ out remote password, UDPEvent.copyPackets remote password ∈ acceptUDP ns r out

lemma admitsTCP_iff : AdmitsTCP ns r ↔ Passes ns r ∧ (handlerFor ns r).isSome := by
  constructor
  · rintro ⟨out,h,password,hmem⟩
    obtain ⟨hp,hh,-⟩ := handle_mem_acceptTCP.mp ⟨out,hmem⟩
    exact ⟨hp,by simp [hh]⟩
  · rintro ⟨hp,hh⟩
    obtain ⟨h,hh⟩ := isSome_iff_exists.mp hh
    obtain ⟨out,hmem⟩ := handle_mem_acceptTCP.mpr ⟨hp,hh,rfl⟩
    exact ⟨out,h,_,hmem⟩

lemma admitsUDP_iff : AdmitsUDP ns r ↔ ∃ p ∈ forwarded r, sourceAllowed ns.tables p.2.port p.1.addr := by
  constructor
  · rintro ⟨out,remote,password,hmem⟩
    obtain ⟨p,hp,ha,-⟩ := copy_mem_acceptUDP.mp ⟨out,hmem⟩
    exact ⟨p,hp,ha⟩
  · rintro ⟨p,hp,ha⟩
    obtain ⟨out,hmem⟩ := copy_mem_acceptUDP.mpr ⟨p,hp,ha,rfl,rfl⟩
    exact ⟨out,_,_,hmem⟩

end

end TunnnejiTail.Netstack
