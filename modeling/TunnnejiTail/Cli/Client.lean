import TunnnejiTail.Cli.Build

/-! The client side: handleConn for one local TCP connection, and the round of handleUDP for
one local datagram with the table of sessions it keeps. Results of the calls are given. -/
namespace TunnnejiTail.Cli
open Go Netip

/-- The filter loop of handleConn and handleUDP: an entry without a list admits everybody. -/
def clientAllows (accept : List Prefix) (src : Addr) : Bool :=
  if accept≠[] then accept.any (·.contains src) else true

def clientTarget (lookupHost : Str → Option (List Str)) (pe : PortEntry) : Str :=
  resolveHost lookupHost pe.targetAddr ++ ":" ++ itoa pe.targetPort

structure ConnOutcome where
  dial : Bool
  newChacha20Writer : Bool
  newChacha20Reader : Bool
  deriving DecidableEq

inductive ConnEvent
  | dial (target : Str)
  | copy (password : Str)
  | closeRemote
  | closeLocal
  deriving DecidableEq

/-- handleConn; a remote address of another type than net.TCPAddr skips the filter. -/
def handleConn (lookupHost : Str → Option (List Str)) (pe : PortEntry) (remoteAddr : Option Addr)
    (out : ConnOutcome) : List ConnEvent :=
  let target := clientTarget lookupHost pe
  let found := match remoteAddr with
    | some srcIP => clientAllows pe.accept srcIP
    | none => true
  if !found then [.closeLocal]
  else if !out.dial then [.dial target,.closeLocal]
  else if pe.password≠[] ∧ !(out.newChacha20Writer && out.newChacha20Reader) then
    [.dial target,.closeRemote,.closeLocal]
  else [.dial target,.copy pe.password,.closeRemote,.closeLocal]

def udpZone : Addr → Str
  | .v6 _ zone => zone
  | _ => []

/-- The text of a net.UDPAddr; it does not tell an IPv4 address from its IPv6 form. -/
def udpAddrString (a : AddrPort) : Str :=
  let ip : Str := if a.addr=.zero then [] else ipString a.addr.as16
  let zone := udpZone a.addr
  joinHostPort (if zone≠[] then ip ++ '%'::zone else ip) (itoa a.port.toNat)

structure UDPSession where
  remote : ℕ
  localAddr : AddrPort
  encrypted : Bool
  deriving DecidableEq

structure DatagramOutcome where
  dial : Option ℕ
  encrypt : Bool
  write : Bool
  deriving DecidableEq

inductive DatagramEvent
  | dial (target : Str)
  | udpRemoteToLocal (remote : ℕ)
  | write (remote : ℕ)
  | closeRemote (remote : ℕ)
  deriving DecidableEq

/-- The end of a round: the datagram is written to its session; a failed write ends it. -/
def writeDatagram (pe : PortEntry) (sessions : GoMap Str UDPSession) (src : AddrPort)
    (sess : UDPSession) (out : DatagramOutcome) : GoMap Str UDPSession × List DatagramEvent :=
  if pe.password≠[] ∧ !out.encrypt then (sessions,[])
  else if out.write then (sessions,[.write sess.remote])
  else (sessions.erase (udpAddrString src),[.write sess.remote,.closeRemote sess.remote])

/-- One round of the loop of handleUDP. -/
def handleDatagram (lookupHost : Str → Option (List Str)) (pe : PortEntry)
    (sessions : GoMap Str UDPSession) (src : AddrPort) (out : DatagramOutcome) :
    GoMap Str UDPSession × List DatagramEvent :=
  if !clientAllows pe.accept src.addr then (sessions,[])
  else match sessions.lookup (udpAddrString src) with
    | some sess => writeDatagram pe sessions src sess out
    | none =>
      match out.dial with
      | none => (sessions,[.dial (clientTarget lookupHost pe)])
      | some remote =>
        let sess : UDPSession := ⟨remote,src,pe.password≠[]⟩
        let (sessions',events) :=
          writeDatagram pe (sessions.insert (udpAddrString src) sess) src sess out
        (sessions',.dial (clientTarget lookupHost pe)::.udpRemoteToLocal remote::events)

def AdmitsConn (lookupHost : Str → Option (List Str)) (pe : PortEntry) (src : Addr) : Prop :=
  ∃ out password, ConnEvent.copy password ∈ handleConn lookupHost pe (some src) out

/-- A datagram is written into the VPN under some results of the calls. -/
def AdmitsDatagram (lookupHost : Str → Option (List Str)) (pe : PortEntry)
    (sessions : GoMap Str UDPSession) (src : AddrPort) : Prop :=
  ∃ out remote, DatagramEvent.write remote ∈ (handleDatagram lookupHost pe sessions src out).2

section
variable {lookupHost : Str → Option (List Str)} {pe : PortEntry}

lemma admitsConn_iff {src : Addr} : AdmitsConn lookupHost pe src ↔ clientAllows pe.accept src := by
  refine ⟨fun hadmits => ?_,fun ha => ?_⟩
  · obtain ⟨out,password,hmem⟩ := hadmits
    by_contra ha
    rw [Bool.not_eq_true] at ha
    simp [handleConn,ha] at hmem
  · exact ⟨⟨true,true,true⟩,pe.password,by simp [handleConn,ha]⟩

lemma admitsDatagram_iff {sessions : GoMap Str UDPSession} {src : AddrPort} :
    AdmitsDatagram lookupHost pe sessions src ↔ clientAllows pe.accept src.addr := by
  refine ⟨fun hadmits => ?_,fun ha => ?_⟩
  · obtain ⟨out,remote,hmem⟩ := hadmits
    by_contra ha
    rw [Bool.not_eq_true] at ha
    simp [handleDatagram,ha] at hmem
  · cases hs : sessions.lookup (udpAddrString src) with
    | some sess =>
      refine ⟨⟨none,true,true⟩,sess.remote,?_⟩
      simp [handleDatagram,ha,hs,writeDatagram]
    | none =>
      refine ⟨⟨some 0,true,true⟩,0,?_⟩
      simp [handleDatagram,ha,hs,writeDatagram]

end

end TunnnejiTail.Cli
