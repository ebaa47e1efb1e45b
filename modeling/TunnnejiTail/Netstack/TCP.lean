import TunnnejiTail.Netstack.Impl

/-! acceptTCP and forwardTCP. What the code does to the outside is recorded as a list of
events in the order in which they happen; the results of the calls it makes are given. -/
namespace TunnnejiTail.Netstack
open Go Netip Cli

structure TransportEndpointID where
  localPort : UInt16
  localAddress : TcpipAddress
  remotePort : UInt16
  remoteAddress : TcpipAddress
  deriving DecidableEq

namespace TransportEndpointID

def clientRemoteIP (r : TransportEndpointID) : Addr := netaddrIPFromNetstackIP r.remoteAddress

def localIP (r : TransportEndpointID) : Addr := netaddrIPFromNetstackIP r.localAddress

/-- The address to dial: a via address stands for the IPv4 address in it. -/
def dialIP (r : TransportEndpointID) : Addr := unmapVia r.localIP

def isTailscaleIP (r : TransportEndpointID) : Bool :=
  Netstack.isTailscaleIP r.localIP && !viaRange.contains r.localIP

end TransportEndpointID

structure TCPOutcome where
  createEndpoint : Bool
  newEncryptedTCPConn : Bool
  dial : Bool
  registerIPPortIdentity : Bool
  deriving DecidableEq

inductive TCPEvent (Handler : Type)
  | complete (sendReset : Bool)
  | handle (h : Handler) (password : Option Str)
  | closeClient
  | dial (addr : AddrPort)
  | register
  | unregister
  | copyUntilClosed
  | closeBackend
  | removeSubnetAddress (ip : Addr)
  deriving DecidableEq

section
variable {Handler : Type}

/-- Connect or reset: whether there is a connection, and the completion of the request. -/
def getConnOrReset (out : TCPOutcome) : Bool × List (TCPEvent Handler) :=
  if out.createEndpoint then (true,[.complete false]) else (false,[.complete true])

/-- forwardTCP: whether the request was handled, and its events. -/
def forwardTCP (out : TCPOutcome) (dialAddr : AddrPort) (isLocal : Bool) :
    Bool × List (TCPEvent Handler) :=
  if !out.dial then (false,[.dial dialAddr])
  else if isLocal && !out.registerIPPortIdentity then (false,[.dial dialAddr,.closeBackend])
  else
    let registered := if isLocal then [.register] else []
    let unregistered := if isLocal then [.unregister] else []
    let (connected,completed) := getConnOrReset out
    let copied := if connected then [.copyUntilClosed,.closeClient] else []
    (true,[.dial dialAddr]++registered++completed++copied++unregistered++[.closeBackend])

/-- A handler runs on the connection, wrapped when the port has a password. -/
def runHandler (ns : Impl Handler) (out : TCPOutcome) (port : UInt16) (h : Handler) :
    List (TCPEvent Handler) :=
  let (connected,completed) := getConnOrReset out
  if !connected then completed
  else completed++match ns.tables.passwordForPort.lookup port with
    | some password =>
      if out.newEncryptedTCPConn then [.handle h (some password)] else [.closeClient]
    | none => [.handle h none]

/-- The handler that the backend, if there is one, has for a request. -/
def handlerFor (ns : Impl Handler) (r : TransportEndpointID) : Option Handler :=
  ns.lb.bind fun tcpHandlerForDst =>
    tcpHandlerForDst ⟨r.clientRemoteIP,r.remotePort⟩ ⟨r.localIP,r.localPort⟩

/-- What acceptTCP does with a request that no handler takes. -/
def unhandledTCP (ns : Impl Handler) (r : TransportEndpointID) (out : TCPOutcome) :
    List (TCPEvent Handler) :=
  if isServiceIP r.dialIP then if ns.stealthDrop then [] else [.complete true]
  else if r.isTailscaleIP then if ns.stealthDrop then [] else [.complete true]
  else
    let (handled,events) := forwardTCP out ⟨r.dialIP,r.localPort⟩ (ns.isLocalIP r.localIP)
    if handled then events else events++[.complete true]

/-- The deferred call: the address was added before the handshake for a subnet address. -/
def deferredTCP (r : TransportEndpointID) : List (TCPEvent Handler) :=
  if r.isTailscaleIP then [] else [.removeSubnetAddress r.dialIP]

def acceptTCP (ns : Impl Handler) (r : TransportEndpointID) (out : TCPOutcome) :
    List (TCPEvent Handler) :=
  if !r.clientRemoteIP.isValid then [.complete true]
  else if isServiceIP r.dialIP && r.localPort=53 then deferredTCP r
  else if ns.lb.isSome && !sourceAllowed ns.tables r.localPort r.clientRemoteIP then deferredTCP r
  else match handlerFor ns r with
    | some h => runHandler ns out r.localPort h++deferredTCP r
    | none => unhandledTCP ns r out++deferredTCP r

end

end TunnnejiTail.Netstack
