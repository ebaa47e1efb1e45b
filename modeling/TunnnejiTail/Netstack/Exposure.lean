import TunnnejiTail.Netstack.Admission

/-! Which ports of the node lead to a backend on the host. TCP without a handler stops at the
node's own addresses; UDP without a configured target goes on to loopback. -/
namespace TunnnejiTail.Netstack
open Go Netip Cli TransportEndpointID

variable {Handler : Type} {isLocalIP : Addr → Bool} {r : TransportEndpointID}

def Listening (ports : GoMap Str PortEntry) (p : UInt16) : Prop :=
  ∃ k pe, ports.lookup k=some pe ∧ pe.isServer ∧ pe.listenPort=p.toNat

def Stored (ports : GoMap Str PortEntry) (p : UInt16) : Prop :=
  ∃ k pe, ports.lookup k=some pe ∧ pe.isServer ∧ pe.key=p

lemma serveConfigTCP_isSome (o : MapOrder) (ports : GoMap Str PortEntry) (p : UInt16) :
    ((serveConfigTCP o ports).lookup p).isSome ↔ Stored ports p := by
  constructor
  · intro h
    obtain ⟨forward,hf⟩ := Option.isSome_iff_exists.mp h
    obtain ⟨k,pe,hk,hs,hkey,-⟩ := exists_of_serveConfigTCP hf
    exact ⟨k,pe,hk,hs,hkey⟩
  · intro hstored
    obtain ⟨k,pe,hk,hs,hkey⟩ := hstored
    by_contra hnone
    rw [Option.not_isSome_iff_eq_none,serveConfigTCP_eq,lookup_fill_eq_none] at hnone
    have hv := hnone pe (mem_rangeEntries.mpr ⟨k,hk⟩) hkey
    rw [forwardValue_eq_some.mpr ⟨hs,rfl⟩] at hv
    cases hv

def ServesOnly (ports : GoMap Str PortEntry) (lb : AddrPort → AddrPort → Option Handler) : Prop :=
  ∀ src dst, (lb src dst).isSome → ∃ o, ((serveConfigTCP o ports).lookup dst.port).isSome

def ExposesTCP (ns : Impl Handler) (r : TransportEndpointID) : Prop :=
  AdmitsTCP ns r ∨ ∃ out addr, TCPEvent.dial addr ∈ acceptTCP ns r out

def ExposesUDP (ns : Impl Handler) (r : TransportEndpointID) : Prop :=
  ∃ out addr ok, UDPEvent.listenUDP addr ok ∈ acceptUDP ns r out

lemma exposesTCP_iff {ns : Impl Handler} {r : TransportEndpointID} : ExposesTCP ns r ↔ Passes ns r ∧
      ((handlerFor ns r).isSome ∨ isServiceIP r.dialIP=false ∧ r.isTailscaleIP=false) := by
  have hdial : (∃ out addr, TCPEvent.dial addr ∈ acceptTCP ns r out) ↔
      Passes ns r ∧ handlerFor ns r=none ∧ isServiceIP r.dialIP=false ∧ r.isTailscaleIP=false := by
    rw [exists_comm]
    simp only [dial_mem_acceptTCP,exists_and_left,exists_eq,and_true]
  rw [ExposesTCP,admitsTCP_iff,hdial,← and_or_left]
  refine and_congr_right fun _ => ?_
  cases handlerFor ns r <;> simp

def ToOwnAddress (isLocalIP : Addr → Bool) (r : TransportEndpointID) : Prop :=
  isLocalIP r.dst ∧ isTailscaleIP r.dst

lemma contains_v6_toNat {a x : BitVec 128} {bits : Fin 129} {zone : Str}
    (h : (Prefix.v6 a bits).contains (.v6 x zone)) :
    x.toNat / 2^(128-bits.val)=a.toNat / 2^(128-bits.val) := by
  rw [Prefix.contains,Bool.and_eq_true,beq_iff_eq,BitVec.ushiftRight_xor_distrib] at h
  have hnat := congrArg BitVec.toNat (BitVec.xor_eq_zero_iff.mp h.2)
  rwa [BitVec.toNat_ushiftRight,BitVec.toNat_ushiftRight,Nat.shiftRight_eq_div_pow, Nat.shiftRight_eq_div_pow] at hnat

lemma unmap_of_isTailscaleIP {ip : Addr} (h : isTailscaleIP ip) : ip.unmap=ip := by
  cases ip with
  | zero => rfl
  | v4 a => rfl
  | v6 a zone =>
    have hnat := contains_v6_toNat (show tailscaleULARange.contains (.v6 a zone) from h)
    refine Addr.unmap_of_not_is4In6 ?_
    simp only [Addr.is4In6,beq_eq_false_iff_ne]
    intro hmapped
    have hula : (0xfd7a115ca1e000000000000000000000#128).toNat / 2^(128-(48 : Fin 129).val) =
        0xfd7a115ca1e0 := by decide
    rw [hula] at hnat
    have hbits : 128-(48 : Fin 129).val=80 := by decide
    rw [hbits] at hnat
    omega

section
variable (hown : ToOwnAddress isLocalIP r)
include hown

lemma ToOwnAddress.localIP_eq : r.localIP=r.dst := by
  have hun : r.localIP=r.dst.unmap := by
    rw [localIP,TransportEndpointID.dst]
    cases r.localAddress <;> rfl
  rw [hun,unmap_of_isTailscaleIP hown.2]

lemma ToOwnAddress.dst_isValid : r.dst.isValid := by
  cases hd : r.dst with
  | zero => simp [ToOwnAddress,hd,isTailscaleIP,Addr.is4,tailscaleULARange,Prefix.contains] at hown
  | v4 a => rfl
  | v6 a zone => rfl

lemma ToOwnAddress.isTailscaleIP_eq_false : r.isTailscaleIP=false ↔ viaRange.contains r.dst := by
  rw [TransportEndpointID.isTailscaleIP,hown.localIP_eq,hown.2]
  simp

end

/-- Over all backends that serve only the configured ports, a request has no handler exactly
when nothing is stored under its port. -/
theorem forall_servesOnly_iff (ports : GoMap Str PortEntry) (src dst : AddrPort) (P : Prop) :
    (∀ (Handler : Type) (lb : AddrPort → AddrPort → Option Handler), ServesOnly ports lb →
      ¬((lb src dst).isSome ∨ P)) ↔ ¬Stored ports dst.port ∧ ¬P := by
  constructor
  · intro h
    refine ⟨fun hstored => ?_,fun hP => h Unit (fun _ _ => none) (fun _ _ hs => ?_) (.inr hP)⟩
    · have hsome := (serveConfigTCP_isSome .asStored ports dst.port).mpr hstored
      refine h Str (fun _ dst => (serveConfigTCP .asStored ports).lookup dst.port) ?_ (.inl hsome)
      exact fun _ _ hs => ⟨.asStored,hs⟩
    · cases hs
  · intro hno Handler lb hlb hor
    obtain ⟨hstored,hP⟩ := hno
    cases hor with
    | inl hs =>
      obtain ⟨o,ho⟩ := hlb _ _ hs
      exact hstored ((serveConfigTCP_isSome o ports dst.port).mp ho)
    | inr hp => exact hP hp

/-- A conclusion follows whenever a flow is read, allowed and taken, under every order and
backend, exactly when it holds anyway, or the flow is not read, or it is always rejected, or no
backend takes it. -/
theorem forall_serving_iff (ports : GoMap Str PortEntry) (p : UInt16) (src : Addr) (L read : Prop)
    (takes : ∀ Handler : Type, (AddrPort → AddrPort → Option Handler) → Prop) :
    (∀ o lookupHost (Handler : Type) (lb : AddrPort → AddrPort → Option Handler), ServesOnly ports lb →
      read ∧ sourceAllowed (portTables o lookupHost ports) p src ∧ takes Handler lb → L) ↔
    L ∨ ¬read ∨ GuardsDecide ports p src False ∨
      ∀ (Handler : Type) (lb : AddrPort → AddrPort → Option Handler), ServesOnly ports lb → ¬takes Handler lb := by
  rw [← forall_not_sourceAllowed]
  constructor
  · intro h
    by_contra hno
    simp only [not_or,not_not,not_forall,Bool.not_eq_false] at hno
    obtain ⟨hL,hread,⟨o,lookupHost,hallowed⟩,Handler,lb,hlb,htakes⟩ := hno
    exact hL (h o lookupHost Handler lb hlb ⟨hread,hallowed,htakes⟩)
  · intro hcase o lookupHost Handler lb hlb hflow
    obtain ⟨hread,hallowed,htakes⟩ := hflow
    obtain hL | hno | hreject | hnone := hcase
    · exact hL
    · exact absurd hread hno
    · rw [hreject o lookupHost] at hallowed
      cases hallowed
    · exact absurd htakes (hnone Handler lb hlb)

section
variable {o : MapOrder} {lookupHost : Resolver} {g : TunnelGroup}
  {lb : AddrPort → AddrPort → Option Handler} (hown : ToOwnAddress isLocalIP r)
include hown

lemma exposesTCP_serving : ExposesTCP (serving o lookupHost g isLocalIP lb) r ↔
    (r.src.isValid ∧ ¬(isServiceIP r.dialIP ∧ r.localPort=53)) ∧
      sourceAllowed (portTables o lookupHost g.ports) r.localPort r.src.unmap ∧
      ((lb ⟨r.clientRemoteIP,r.remotePort⟩ ⟨r.localIP,r.localPort⟩).isSome ∨
        isServiceIP r.dialIP=false ∧ viaRange.contains r.dst) := by
  rw [exposesTCP_iff,Passes,r.clientRemoteIP_isValid,r.clientRemoteIP_eq,
    hown.isTailscaleIP_eq_false,and_assoc,and_assoc,and_assoc]
  simp [serving,handlerFor,clientRemoteIP_eq]

lemma exposesUDP_serving : ExposesUDP (serving o lookupHost g isLocalIP lb) r ↔
    (r.src.isValid ∧ isServiceIP r.dst=false) ∧ sourceAllowed (portTables o lookupHost g.ports) r.localPort r.src := by
  rw [ExposesUDP,listen_mem_acceptUDP,r.forwarded_eq]
  simp [serving,hown.dst_isValid]

end

/-- A flow to one of the node's addresses opens something only on a port that a server entry
listens on, under every order of the range and with every backend that serves only the
configured ports, exactly in the following cases. -/
theorem only_mapped_exposed_iff (g : TunnelGroup) {isLocalIP : Addr → Bool}
    {r : TransportEndpointID} (hown : ToOwnAddress isLocalIP r) :
    ((∀ o lookupHost (Handler : Type) (lb : AddrPort → AddrPort → Option Handler),
        ServesOnly g.ports lb → ExposesTCP (serving o lookupHost g isLocalIP lb) r →
          Listening g.ports r.localPort) ↔ Listening g.ports r.localPort ∨
        ¬(r.src.isValid ∧ ¬(isServiceIP r.dialIP ∧ r.localPort=53)) ∨
        GuardsDecide g.ports r.localPort r.src.unmap False ∨ ¬Stored g.ports r.localPort ∧
          ¬(isServiceIP r.dialIP=false ∧ viaRange.contains r.dst)) ∧
    ((∀ o lookupHost (Handler : Type) (lb : AddrPort → AddrPort → Option Handler),
        ServesOnly g.ports lb → ExposesUDP (serving o lookupHost g isLocalIP lb) r → Listening g.ports r.localPort) ↔
      Listening g.ports r.localPort ∨ ¬(r.src.isValid ∧ isServiceIP r.dst=false) ∨
        GuardsDecide g.ports r.localPort r.src False) := by
  simp only [exposesTCP_serving hown,exposesUDP_serving hown]
  refine ⟨?_,?_⟩
  · rw [forall_serving_iff,← forall_servesOnly_iff g.ports ⟨r.clientRemoteIP,r.remotePort⟩ ⟨r.localIP,r.localPort⟩]
  · have hudp := forall_serving_iff g.ports r.localPort r.src (Listening g.ports r.localPort)
      (r.src.isValid ∧ isServiceIP r.dst=false) (fun _ _ => True)
    have hserves : ¬∀ (Handler : Type) (lb : AddrPort → AddrPort → Option Handler),
        ServesOnly g.ports lb → ¬True :=
      fun h => h Unit (fun _ _ => none) (fun _ _ hs => by cases hs) trivial
    simpa only [and_true,hserves,or_false] using hudp

def onlyPort80 : List Str := ["-K","k","-S","80:127.0.0.1"]

def isNode (ip : Addr) : Bool := ip=.v4 0x64400001#32

def toPort5353 : TransportEndpointID := ⟨5353,.len4 0x64400001#32,40000,.len4 0x64400002#32⟩

theorem only_mapped_exposed_iff_tcp :
    ∃ built, ∃ g : TunnelGroup, parseNumbered .noFiles onlyPort80=.ok built ∧ (-1,g) ∈ built ∧
      ToOwnAddress isNode toPort5353 ∧
      ∀ o lookupHost (Handler : Type) (lb : AddrPort → AddrPort → Option Handler),
        ServesOnly g.ports lb → ExposesTCP (serving o lookupHost g isNode lb) toPort5353 →
          Listening g.ports toPort5353.localPort := by
  have heval : observe (fun g => (rangeEntries .asStored g.ports).map (·.key)) .noFiles
      onlyPort80=.ok [(-1,[80])] := by decide +kernel
  obtain ⟨built,g,hb,hg,hkeys⟩ := exists_group_of_observe heval List.mem_cons_self
  have hown : ToOwnAddress isNode toPort5353 := ⟨by decide,by decide⟩
  have hstored : ¬Stored g.ports toPort5353.localPort := by
    intro hstored
    obtain ⟨k,pe,hk,-,hkey⟩ := hstored
    have hmem := map_mem_rangeEntries (·.key) .asStored hk
    rw [hkeys,hkey] at hmem
    exact absurd hmem (by decide)
  exact ⟨built,g,hb,hg,hown, (only_mapped_exposed_iff g hown).1.mpr (.inr (.inr (.inr ⟨hstored,by decide⟩)))⟩

/-- The same flow over UDP is forwarded to port 5353 of loopback. -/
theorem unmapped_udp_reaches_loopback :
    ∃ built, ∃ g : TunnelGroup, parseNumbered .noFiles onlyPort80=.ok built ∧ (-1,g) ∈ built ∧
      ToOwnAddress isNode toPort5353 ∧ ¬Listening g.ports toPort5353.localPort ∧
      acceptUDP (serving .asStored (fun _ => none) g isNode fun _ _ => (none : Option Unit))
        toPort5353 ⟨true,true,true,true⟩ =
        [.createEndpoint,.listenUDP ⟨ipv4Loopback,40000⟩ true,.register true,.armTimer 120,
          .copyPackets ⟨ipv4Loopback,5353⟩ none,.removeSubnetAddress (.v4 0x64400001#32)] := by
  have heval : observe (fun g => ((rangeEntries .asStored g.ports).map (·.listenPort),
      acceptUDP (serving .asStored (fun _ => none) g isNode fun _ _ => (none : Option Unit))
        toPort5353 ⟨true,true,true,true⟩)) .noFiles onlyPort80 =
      .ok [(-1,[80],[.createEndpoint,.listenUDP ⟨ipv4Loopback,40000⟩ true,.register true,
        .armTimer 120,.copyPackets ⟨ipv4Loopback,5353⟩ none,
        .removeSubnetAddress (.v4 0x64400001#32)])] := by decide +kernel
  obtain ⟨built,g,hb,hg,hgroup⟩ := exists_group_of_observe heval List.mem_cons_self
  obtain ⟨hports,htrace⟩ := Prod.mk.inj hgroup
  refine ⟨built,g,hb,hg,⟨by decide,by decide⟩,fun hlisten => ?_,htrace⟩
  obtain ⟨k,pe,hk,-,hport⟩ := hlisten
  have hmem := map_mem_rangeEntries (·.listenPort) .asStored hk
  rw [hports,hport] at hmem
  exact absurd hmem (by decide)

end TunnnejiTail.Netstack
