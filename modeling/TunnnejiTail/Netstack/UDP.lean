import TunnnejiTail.Netstack.TCP

/-! acceptUDP and forwardUDP as lists of events, with the results of their calls given. The
goroutine of forwardUDP continues the events of acceptUDP. -/
namespace TunnnejiTail.Netstack
open Go Netip

structure UDPOutcome where
  createEndpoint : Bool
  listenUDP : Bool
  listenUDPAgain : Bool
  registerIPPortIdentity : Bool
  deriving DecidableEq

inductive UDPEvent
  | createEndpoint
  | closeEndpoint
  | listenUDP (addr : AddrPort) (ok : Bool)
  | closeBackend
  | register (ok : Bool)
  | unregister
  | armTimer (seconds : ℕ)
  | copyPackets (remote : AddrPort) (password : Option Str)
  | removeSubnetAddress (ip : Addr)
  deriving DecidableEq

structure Backend where
  remoteAddr : AddrPort
  listenAddr : AddrPort
  isLocal : Bool
  deriving DecidableEq

section
variable {Handler : Type}

/-- A configured target first, then loopback for the node's own and for loopback addresses,
and any other address itself. -/
def backendFor (ns : Impl Handler) (clientAddr dstAddr : AddrPort) : Backend :=
  match ns.tables.serveTargets.lookup dstAddr.port with
  | some target => ⟨target,⟨ipv4Loopback,clientAddr.port⟩,true⟩
  | none =>
    if ns.isLocalIP dstAddr.addr then
      ⟨⟨ipv4Loopback,dstAddr.port⟩,⟨ipv4Loopback,clientAddr.port⟩,true⟩
    else if dstAddr.addr=ipv4Loopback ∨ dstAddr.addr=ipv6Loopback then
      ⟨dstAddr,⟨dstAddr.addr,clientAddr.port⟩,false⟩
    else
      let dst := unmapVia dstAddr.addr
      ⟨⟨dst,dstAddr.port⟩,⟨if dst.is4 then .v4 0 else .v6 0 [],clientAddr.port⟩,false⟩

/-- The second half of forwardUDP, with the backend socket open. -/
def proxyUDP (ns : Impl Handler) (dstAddr : AddrPort) (b : Backend) (out : UDPOutcome) :
    List UDPEvent :=
  if b.isLocal && !out.registerIPPortIdentity then [.register false]
  else
    (if b.isLocal then [.register true] else []) ++
    [.armTimer (if dstAddr.port=53 then 30 else 120),
      .copyPackets b.remoteAddr (ns.tables.passwordForPort.lookup dstAddr.port)] ++
    (if b.isLocal then [.removeSubnetAddress dstAddr.addr] else [])

def forwardUDP (ns : Impl Handler) (clientAddr dstAddr : AddrPort) (out : UDPOutcome) :
    List UDPEvent :=
  let b := backendFor ns clientAddr dstAddr
  if !sourceAllowed ns.tables dstAddr.port clientAddr.addr then []
  else if out.listenUDP then .listenUDP b.listenAddr true::proxyUDP ns dstAddr b out
  else if out.listenUDPAgain then
    .listenUDP b.listenAddr false::.listenUDP ⟨b.listenAddr.addr,0⟩ true ::
      proxyUDP ns dstAddr b out
  else [.listenUDP b.listenAddr false,.listenUDP ⟨b.listenAddr.addr,0⟩ false]

def acceptUDP (ns : Impl Handler) (r : TransportEndpointID) (out : UDPOutcome) : List UDPEvent :=
  if !out.createEndpoint then []
  else match ipPortOfNetstackAddr r.localAddress r.localPort,
      ipPortOfNetstackAddr r.remoteAddress r.remotePort with
    | some dstAddr,some srcAddr =>
      if isServiceIP dstAddr.addr then [.createEndpoint,.closeEndpoint]
      else .createEndpoint::forwardUDP ns srcAddr dstAddr out
    | _,_ => [.createEndpoint,.closeEndpoint]

/-- The source and destination of a flow that forwardUDP gets to see. -/
def forwarded (r : TransportEndpointID) : Option (AddrPort × AddrPort) :=
  match ipPortOfNetstackAddr r.localAddress r.localPort,
      ipPortOfNetstackAddr r.remoteAddress r.remotePort with
  | some dstAddr,some srcAddr => if isServiceIP dstAddr.addr then none else some (srcAddr,dstAddr)
  | _,_ => none

lemma acceptUDP_eq (ns : Impl Handler) (r : TransportEndpointID) (out : UDPOutcome) :
    acceptUDP ns r out=if out.createEndpoint=false then [] else match forwarded r with
      | some (srcAddr,dstAddr) => .createEndpoint::forwardUDP ns srcAddr dstAddr out
      | none => [.createEndpoint,.closeEndpoint] := by
  rw [acceptUDP,forwarded]
  cases hc : out.createEndpoint with
  | false => simp
  | true =>
    cases ipPortOfNetstackAddr r.localAddress r.localPort with
    | none => rfl
    | some dstAddr =>
      cases ipPortOfNetstackAddr r.remoteAddress r.remotePort with
      | none => rfl
      | some srcAddr => cases hs : isServiceIP dstAddr.addr <;> simp [hs]

end

/-- The callback of the idle timer; it closes over isLocal and the two sockets. -/
def timerCallback (isLocal : Bool) : List UDPEvent :=
  (if isLocal then [.unregister] else [])++[.closeEndpoint,.closeBackend]

end TunnnejiTail.Netstack
