import TunnnejiTail.Ipn.ServeTarget
import TunnnejiTail.Netstack.Exposure

/-! TCP and UDP on one server port. TCP goes through the serve config and its serveTarget,
UDP through the table of targets, which has no entry for an IPv6 literal. -/
namespace TunnnejiTail.Netstack
open Go Netip Cli Ipn Option PortEntry

variable {pe : PortEntry} {lookupHost : Resolver}

/-- The handler lookup of the serve config: the TCPForward string of the port. -/
def serveHandler (o : MapOrder) (ports : GoMap Str PortEntry) (_ dst : AddrPort) : Option Str :=
  (serveConfigTCP o ports).lookup dst.port

/-- Over any history of its cache, a back end dials one address only. -/
def DialsOnly (forward : Str) (remote : AddrPort) : Prop :=
  ∀ st, ServeTarget.Reachable forward st → ∀ net net' resolve,
    ∀ s ∈ (st.dial net net').dialled, dialAddr resolve s=some remote

/-- A TCP and a UDP flow with the same ends are both admitted, and then to the same target,
or both not. -/
def Agrees (ns : Impl Str) (r : TransportEndpointID) : Prop :=
  (AdmitsTCP ns r ↔ AdmitsUDP ns r) ∧ ∀ forward password remote password',
      (∃ out, TCPEvent.handle forward password ∈ acceptTCP ns r out) →
      (∃ out, UDPEvent.copyPackets remote password' ∈ acceptUDP ns r out) → DialsOnly forward remote

def udpTarget (t : Tables) (p : UInt16) : AddrPort :=
  (t.serveTargets.lookup p).getD ⟨ipv4Loopback,p⟩

lemma dialsOnly_tcpForward {remote : AddrPort}
    (htarget : (∃ ip, pe.targetAddr=formatIP ip) ∨ parseIP (trimBrackets pe.targetAddr)=none) :
    DialsOnly pe.tcpForward remote ↔ ∃ ip, pe.targetAddr=formatIP ip ∧
      (0≤pe.targetPort ∧ pe.targetPort≤65535) ∧ remote=⟨ipAddr ip,uint16 pe.targetPort⟩ := by
  constructor
  · intro h
    cases htarget with
    | inr hno =>
      obtain ⟨net,s,hs,hnone⟩ := exists_unresolved hno
      have hsome := h _ .new net net (fun _ => none) s hs
      rw [hnone] at hsome
      cases hsome
    | inl hip =>
      obtain ⟨ip,hip⟩ := hip
      let net : Network := ⟨fun _ => none,fun _ => false,fun _ => true⟩
      have hfirst : ((newServeTarget pe.tcpForward).addr net).1 ∈
          ((newServeTarget pe.tcpForward).dial net net).dialled := by
        simp [ServeTarget.dial,net]
      have hsome := h _ .new net net (fun _ => none) _ hfirst
      rw [dialAddr_of_literal hip .new net net _ _ hfirst] at hsome
      split_ifs at hsome with hfits
      exact ⟨ip,hip,hfits,(Option.some.inj hsome).symm⟩
  · intro hliteral st hst net net' resolve s hs
    obtain ⟨ip,hip,hfits,hremote⟩ := hliteral
    rw [dialAddr_of_literal hip hst net net' resolve s hs,if_pos hfits,hremote]

variable {ip : BitVec 128}

lemma serveTarget_of_literal (hip : pe.targetAddr=formatIP ip) (lookupHost : Resolver) :
    pe.serveTarget lookupHost=(to4 ip).map fun a => ⟨.v4 a,uint16 pe.targetPort⟩ := by
  rw [serveTarget,hip,resolveHost_formatIP,parseAddr_formatIP,map_map]
  rfl

section
variable {o o' : MapOrder} {g : TunnelGroup} {isLocalIP : Addr → Bool} {r : TransportEndpointID}

lemma agrees_serving (hr : r.Addressed) (hlocal : isLocalIP r.dst) (hstored : Stored g.ports r.localPort) :
    Agrees (serving o lookupHost g isLocalIP (serveHandler o' g.ports)) r ↔
      (sourceAllowed (portTables o lookupHost g.ports) r.localPort r.src.unmap ↔
        sourceAllowed (portTables o lookupHost g.ports) r.localPort r.src) ∧
      (sourceAllowed (portTables o lookupHost g.ports) r.localPort r.src.unmap →
        sourceAllowed (portTables o lookupHost g.ports) r.localPort r.src →
        ∀ forward, (serveConfigTCP o' g.ports).lookup r.localPort=some forward →
          DialsOnly forward (udpTarget (portTables o lookupHost g.ports) r.localPort)) := by
  have hlb := (serveConfigTCP_isSome o' g.ports r.localPort).mpr hstored
  have hremote : (backendFor (serving o lookupHost g isLocalIP (serveHandler o' g.ports))
      ⟨r.src,r.remotePort⟩ ⟨r.dst,r.localPort⟩).remoteAddr =
        udpTarget (portTables o lookupHost g.ports) r.localPort := by
    rw [backendFor,udpTarget]
    cases ht : (portTables o lookupHost g.ports).serveTargets.lookup r.localPort with
    | none => simp [serving,ht,hlocal]
    | some target => simp [serving,ht]
  rw [Agrees,admitsTCP_serving hr hlb,admitsUDP_serving hr]
  refine and_congr_right fun _ => ?_
  simp only [handle_mem_acceptTCP,copy_mem_acceptUDP,passes_serving hr,hr.forwarded_eq]
  constructor
  · intro h htcp hudp forward hf
    rw [← hremote]
    exact h forward _ _ _ ⟨htcp,hf,rfl⟩ ⟨_,rfl,hudp,rfl,rfl⟩
  · intro h forward password remote password' hhandle hcopy
    obtain ⟨htcp,hf,-⟩ := hhandle
    obtain ⟨q,hq,hudp,hrem,-⟩ := hcopy
    cases hq
    rw [hrem,hremote]
    exact h htcp hudp forward hf

end

def OneTarget (ports : GoMap Str PortEntry) (pe : PortEntry) : Prop :=
  ∀ k e, ports.lookup k=some e → e.isServer → e.key=pe.key → e.targetAddr=pe.targetAddr ∧ e.targetPort=pe.targetPort

section
variable {o : MapOrder} {ports : GoMap Str PortEntry}

lemma udpTarget_of_oneTarget {k : Str} (hk : ports.lookup k=some pe) (hs : pe.isServer)
    (hone : OneTarget ports pe) (hip : pe.targetAddr=formatIP ip) :
    (portTables o lookupHost ports).serveTargets.lookup pe.key =
      (to4 ip).map fun a => ⟨.v4 a,uint16 pe.targetPort⟩ := by
  have hvalue : ∀ e ∈ rangeEntries o ports, e.key=pe.key → e.isServer →
      e.targetValue lookupHost=(to4 ip).map fun a => ⟨.v4 a,uint16 pe.targetPort⟩ := by
    intro e hmem hkey he
    obtain ⟨k',hk'⟩ := mem_rangeEntries.mp hmem
    obtain ⟨haddr,hport⟩ := hone k' e hk' he hkey
    rw [targetValue,if_pos he,serveTarget_of_literal (haddr.trans hip),hport]
  rw [portTables_targets]
  have hown := hvalue pe (mem_rangeEntries.mpr ⟨k,hk⟩) rfl hs
  cases h4 : (to4 ip).map fun a => (⟨.v4 a,uint16 pe.targetPort⟩ : AddrPort) with
  | none =>
    refine lookup_fill_eq_none.mpr fun e hmem hkey => ?_
    by_cases he : e.isServer
    · rw [hvalue e hmem hkey he,h4]
    · simp [targetValue,he]
  | some target =>
    refine lookup_fill_unique (mem_rangeEntries.mpr ⟨k,hk⟩) (hown.trans h4) fun e hmem hkey w hw => ?_
    by_cases he : e.isServer
    · rw [hvalue e hmem hkey he,h4] at hw
      exact (Option.some.inj hw).symm
    · simp [targetValue,he] at hw

lemma forward_of_oneTarget (hone : OneTarget ports pe) {forward : Str}
    (h : (serveConfigTCP o ports).lookup pe.key=some forward) : forward=pe.tcpForward := by
  obtain ⟨k,e,hk,he,hkey,rfl⟩ := exists_of_serveConfigTCP h
  obtain ⟨haddr,hport⟩ := hone k e hk he hkey
  rw [tcpForward,tcpForward,haddr,hport]

lemma exists_order_forward {k : Str} (hk : ports.lookup k=some pe) (hs : pe.isServer) :
    ∃ o, (serveConfigTCP o ports).lookup pe.key=some pe.tcpForward := by
  obtain ⟨o,before,hlast⟩ := exists_rangeEntries_last hk
  refine ⟨o,?_⟩
  rw [serveConfigTCP_eq,hlast]
  exact lookup_fill_last (forwardValue_eq_some.mpr ⟨hs,rfl⟩) _

end

lemma uint16_inj {n m : ℤ} (hn : 0≤n ∧ n≤65535) (hm : 0 ≤ m ∧ m≤65535) (h : uint16 n=uint16 m) : n=m := by
  have hmod := uint16_eq_iff.mp h
  omega

/-- If all entries under a port dial one address, they have one target, an IPv4 literal with a
valid port. -/
theorem oneTarget_of_dialsOnly {ports : GoMap Str PortEntry} {k : Str} {pe : PortEntry}
    (o : MapOrder) (lookupHost : Resolver) (htarget : ∀ k e, ports.lookup k=some e →
      (∃ ip, e.targetAddr=formatIP ip) ∨ parseIP (trimBrackets e.targetAddr)=none)
    (hk : ports.lookup k=some pe) (hs : pe.isServer) {ip : BitVec 128} (hip : pe.targetAddr=formatIP ip)
    (hdials : ∀ k e, ports.lookup k=some e → e.isServer → e.key=pe.key →
      DialsOnly e.tcpForward (udpTarget (portTables o lookupHost ports) pe.key)) :
    (to4 ip).isSome ∧ (0≤pe.targetPort ∧ pe.targetPort≤65535) ∧ OneTarget ports pe := by
  obtain ⟨ip',hip',hfits,hremote⟩ := (dialsOnly_tcpForward (htarget k pe hk)).mp (hdials k pe hk hs rfl)
  obtain rfl : ip'=ip := formatIP_injective (hip'.symm.trans hip)
  have hone : OneTarget ports pe := by
    intro k' e hk' he hkey
    obtain ⟨ip1,hip1,hfits1,hremote1⟩ :=
      (dialsOnly_tcpForward (htarget k' e hk')).mp (hdials k' e hk' he hkey)
    obtain ⟨haddr,hport⟩ := AddrPort.mk.inj (hremote1.symm.trans hremote)
    rw [hip1,hip,ipAddr_injective haddr]
    exact ⟨rfl,uint16_inj hfits1 hfits hport⟩
  refine ⟨?_,hfits,hone⟩
  by_contra h4
  rw [not_isSome_iff_eq_none] at h4
  rw [udpTarget,udpTarget_of_oneTarget hk hs hone hip,h4] at hremote
  have haddr := congrArg AddrPort.addr hremote
  simp [ipAddr,h4,ipv4Loopback] at haddr

/-- TCP and UDP agree on the port of an entry with a literal target, under every order and
resolver, exactly when the lists under the port treat the source and its unmapped form alike
and either reject it, or the port has one target, an IPv4 literal with a valid port. -/
theorem tcp_udp_agree_iff {env : Env} {args : List Str} {built : List (ℤ × TunnelGroup)}
    (h : parseNumbered env args=.ok built) {n : ℤ} {g : TunnelGroup} (hg : (n,g) ∈ built)
    {k : Str} {pe : PortEntry} (hk : g.ports.lookup k=some pe) (hs : pe.isServer)
    {ip : BitVec 128} (hip : pe.targetAddr=formatIP ip) {isLocalIP : Addr → Bool}
    {r : TransportEndpointID} (hr : r.Addressed) (hlocal : isLocalIP r.dst) (hport : r.localPort=pe.key) :
    (∀ o o' lookupHost, Agrees (serving o lookupHost g isLocalIP (serveHandler o' g.ports)) r) ↔
    (∀ e, Guards g.ports pe.key e → (e.accept.any (·.contains r.src.unmap) ↔ e.accept.any (·.contains r.src))) ∧
    (GuardsDecide g.ports pe.key r.src False ∨
      (to4 ip).isSome ∧ (0≤pe.targetPort ∧ pe.targetPort≤65535) ∧ OneTarget g.ports pe) := by
  obtain ⟨st,ha⟩ := exists_accepted h
  have hstored : Stored g.ports r.localPort := ⟨k,pe,hk,hs,hport.symm⟩
  have htarget : ∀ k e, g.ports.lookup k=some e →
      (∃ ip, e.targetAddr=formatIP ip) ∨ parseIP (trimBrackets e.targetAddr)=none :=
    fun _ _ hk' => (ha.groupBuilt hg).target_cases hk'
  have hsame := forall_sourceAllowed g.ports pe.key
    (P := fun allows => allows r.src.unmap=true ↔ allows r.src=true)
  simp only [agrees_serving hr hlocal hstored,hport]
  constructor
  · intro hall
    refine ⟨(hsame.mp fun o lookupHost => (hall o .asStored lookupHost).1).1,?_⟩
    by_contra hno
    simp only [not_or] at hno
    obtain ⟨hguard,htgt⟩ := hno
    rw [← forall_not_sourceAllowed] at hguard
    simp only [not_forall,Bool.not_eq_false] at hguard
    obtain ⟨o,lookupHost,hallowed⟩ := hguard
    refine htgt (oneTarget_of_dialsOnly o lookupHost htarget hk hs hip fun k' e hk' he hkey => ?_)
    obtain ⟨o',ho'⟩ := exists_order_forward hk' he
    obtain ⟨hiff,hdials⟩ := hall o o' lookupHost
    rw [hkey,← hport] at ho'
    exact hdials (hiff.mpr hallowed) hallowed _ ho'
  · intro hcond o o' lookupHost
    obtain ⟨hguards,hcase⟩ := hcond
    have hiff := hsame.mpr ⟨hguards,fun _ => Iff.rfl⟩ o lookupHost
    refine ⟨hiff,fun htcp hudp forward hf => ?_⟩
    cases hcase with
    | inl hreject =>
      rw [forall_not_sourceAllowed.mpr hreject o lookupHost] at hudp
      cases hudp
    | inr hcase =>
      obtain ⟨h4,hfits,hone⟩ := hcase
      rw [hport] at hf
      rw [forward_of_oneTarget hone hf,dialsOnly_tcpForward (htarget k pe hk)]
      obtain ⟨a,ha4⟩ := isSome_iff_exists.mp h4
      refine ⟨ip,hip,hfits,?_⟩
      rw [udpTarget,udpTarget_of_oneTarget hk hs hone hip,ipAddr,ha4]
      rfl

def literalTarget (host : Str) : List Str := ["-K","k","-S","80:" ++ host ++ ":8080"]

theorem tcp_udp_agree_iff_ipv4 :
    ∃ built, ∃ g : TunnelGroup, parseNumbered .noFiles (literalTarget "10.0.0.1")=.ok built ∧
      (-1,g) ∈ built ∧ ∀ o o' lookupHost,
        Agrees (serving o lookupHost g isNode (serveHandler o' g.ports)) fromOutside := by
  have heval : observe (fun g => (g.ports.lookup (portsKey .server "" 80),
      rangeEntries .asStored g.ports)) .noFiles (literalTarget "10.0.0.1") =
      .ok [(-1,some ⟨true,80,"10.0.0.1",8080,[],[]⟩,[⟨true,80,"10.0.0.1",8080,[],[]⟩])] := by
    decide +kernel
  obtain ⟨built,g,hb,hg,hgroup⟩ := exists_group_of_observe heval List.mem_cons_self
  obtain ⟨hk,hentries⟩ := Prod.mk.inj hgroup
  have honly : ∀ k e, g.ports.lookup k=some e → e=⟨true,80,"10.0.0.1",8080,[],[]⟩ := by
    intro k e he
    have hmem := mem_rangeEntries (o := .asStored).mpr ⟨k,he⟩
    rw [hentries] at hmem
    exact List.mem_singleton.mp hmem
  refine ⟨built,g,hb,hg,?_⟩
  have hip : ("10.0.0.1" : Str)=formatIP 0xffff0a000001#128 := by decide
  refine (tcp_udp_agree_iff hb hg hk rfl hip fromOutside_addressed (by decide) (by decide)).mpr
    ⟨fun e hguard => ?_,.inr ⟨by decide,by decide,?_⟩⟩
  · obtain ⟨k,he⟩ := hguard.stored
    rw [honly k e he]
    simp
  · intro k e he _ _
    rw [honly k e he]
    exact ⟨rfl,rfl⟩

/-- The netstack of a group on the node, with the entries in stored order and no resolver. -/
def nodeServing (g : TunnelGroup) : Impl Str :=
  serving .asStored (fun _ => none) g isNode (serveHandler .asStored g.ports)

/-- An IPv6 literal is dialled over TCP, and UDP goes to loopback at the listen port. -/
theorem ipv6_target_lost_for_udp :
    ∃ built, ∃ g : TunnelGroup, parseNumbered .noFiles (literalTarget "[::1]")=.ok built ∧ (-1,g) ∈ built ∧
      g.ports.lookup (portsKey .server "" 80)=some ⟨true,80,formatIP 1,8080,[],[]⟩ ∧
      acceptTCP (nodeServing g) fromOutside ⟨true,true,true,true⟩ = [.complete false,.handle "[::1]:8080" none] ∧
      dialAddr (fun _ => none) "[::1]:8080" = some ⟨.v6 1 [],8080⟩ ∧
      acceptUDP (nodeServing g) fromOutside ⟨true,true,true,true⟩ =
        [.createEndpoint,.listenUDP ⟨ipv4Loopback,40000⟩ true,.register true,.armTimer 120,
          .copyPackets ⟨ipv4Loopback,80⟩ none,.removeSubnetAddress (.v4 0x64400001#32)] ∧
      ¬Agrees (nodeServing g) fromOutside := by
  have heval : observe (fun g => decide (g.ports.lookup (portsKey .server "" 80)=some ⟨true,80,formatIP 1,8080,[],[]⟩ ∧
        acceptTCP (nodeServing g) fromOutside ⟨true,true,true,true⟩ = [.complete false,.handle "[::1]:8080" none] ∧
        acceptUDP (nodeServing g) fromOutside ⟨true,true,true,true⟩ =
          [.createEndpoint,.listenUDP ⟨ipv4Loopback,40000⟩ true,.register true,.armTimer 120,
            .copyPackets ⟨ipv4Loopback,80⟩ none,.removeSubnetAddress (.v4 0x64400001#32)]))
      .noFiles (literalTarget "[::1]")=.ok [(-1,true)] := by decide +kernel
  obtain ⟨built,g,hb,hg,hgroup⟩ := exists_group_of_observe heval List.mem_cons_self
  obtain ⟨hk,htcp,hudp⟩ := of_decide_eq_true hgroup
  have hdial : dialAddr (fun _ => none) "[::1]:8080" = some ⟨.v6 1 [],8080⟩ := by decide +kernel
  refine ⟨built,g,hb,hg,hk,htcp,hdial,hudp,fun hagrees => ?_⟩
  have hhandle : TCPEvent.handle ("[::1]:8080" : Str) none ∈
      acceptTCP (nodeServing g) fromOutside ⟨true,true,true,true⟩ := by
    rw [htcp]
    decide
  have hcopy : UDPEvent.copyPackets ⟨ipv4Loopback,80⟩ none ∈
      acceptUDP (nodeServing g) fromOutside ⟨true,true,true,true⟩ := by
    rw [hudp]
    decide
  have hdials := hagrees.2 _ _ _ _ ⟨_,hhandle⟩ ⟨_,hcopy⟩
  let net : Network := ⟨fun _ => none,fun _ => false,fun _ => true⟩
  have hsame := hdials _ .new net net (fun _ => none) "[::1]:8080" (by decide +kernel)
  rw [hdial] at hsame
  exact absurd hsame (by decide)

end TunnnejiTail.Netstack
