import TunnnejiTail.Cli.RunTunnel

/-! The state of the netstack that its TCP and UDP handlers read, and the address ranges
they compare with. A netstack address is a byte string; the handlers read lengths 4 and 16. -/
namespace TunnnejiTail.Netstack
open Go Netip Cli

inductive TcpipAddress
  | len4 (a : BitVec 32)
  | len16 (a : BitVec 128)
  | other
  deriving DecidableEq

/-- The reading of addresses for TCP: IPv4-mapped addresses are unmapped. -/
def netaddrIPFromNetstackIP : TcpipAddress → Addr
  | .len4 a => .v4 a
  | .len16 a => (Addr.v6 a []).unmap
  | .other => .zero

/-- The reading of addresses for UDP, which leaves mapped addresses as they are. -/
def ipPortOfNetstackAddr (a : TcpipAddress) (port : UInt16) : Option AddrPort :=
  match a with
  | .len4 a => some ⟨.v4 a,port⟩
  | .len16 a => some ⟨.v6 a [],port⟩
  | .other => none

def cgnatRange : Prefix := .v4 0x64400000#32 10
def chromeOSVMRange : Prefix := .v4 0x64735c00#32 23
def tailscaleULARange : Prefix := .v6 0xfd7a115ca1e000000000000000000000#128 48
def viaRange : Prefix := .v6 0xfd7a115ca1e00b1a0000000000000000#128 64
def serviceIP : Addr := .v4 0x64646464#32
def serviceIPv6 : Addr := .v6 0xfd7a115ca1e000000000000000000053#128 []
def ipv4Loopback : Addr := .v4 0x7f000001#32
def ipv6Loopback : Addr := .v6 1#128 []

example : parsePrefix "100.64.0.0/10" = some cgnatRange := by decide
example : parsePrefix "fd7a:115c:a1e0:b1a::/64" = some viaRange := by decide
example : parseAddr "fd7a:115c:a1e0::53" = some serviceIPv6 := by decide

def isTailscaleIP (ip : Addr) : Bool :=
  if ip.is4 then cgnatRange.contains ip && !chromeOSVMRange.contains ip
  else tailscaleULARange.contains ip

def unmapVia (ip : Addr) : Addr := if viaRange.contains ip then .v4 (ip.as16.setWidth 32) else ip

def isServiceIP (ip : Addr) : Bool := ip=serviceIP || ip=serviceIPv6

/-- The fields of Impl that the handlers read. The LocalBackend is the handler lookup of
TCPHandlerForDst; its handlers are left abstract. -/
structure Impl (Handler : Type) where
  tables : Tables
  stealthDrop : Bool
  isLocalIP : Addr → Bool
  lb : Option (AddrPort → AddrPort → Option Handler)

def sourceAllowed (t : Tables) (port : UInt16) (src : Addr) : Bool :=
  match t.allowedIPsForPort.lookup port with
  | some allowed => allowed.any (·.contains src)
  | none => true

def filteredPort80 : Impl Unit where
  tables := { allowedIPsForPort := (∅ : GoMap UInt16 _).insert 80 [.v4 0x0a000000#32 8] }
  stealthDrop := false
  isLocalIP := fun ip => ip=.v4 0x64400001#32
  lb := some fun _ _ => some ()

end TunnnejiTail.Netstack
