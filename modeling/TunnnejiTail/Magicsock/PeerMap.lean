import TunnnejiTail.Go.Heap
import TunnnejiTail.Magicsock.Endpoint

/-! The index of endpoints by node key, node ID and address. Its maps share pointers to one record for
each peer, which in turn points to the endpoint, so the records and the endpoints are kept in memory. -/
namespace TunnnejiTail.Magicsock
open Go Netip Netmap TunnnejiTail.Types

structure EpAddr where
  ap : AddrPort
  vni : Option (BitVec 24) := none
  deriving DecidableEq

structure PeerInfo where
  ep : Ref
  epAddrs : List EpAddr
  deriving Inhabited

/-- Sets are lists without an order. -/
structure PeerMap where
  endpoints : Heap Endpoint := .empty
  infos : Heap PeerInfo := .empty
  byNodeKey : GoMap NodePublic Ref := ∅
  byEpAddr : GoMap EpAddr Ref := ∅
  byNodeID : GoMap NodeID Ref := ∅
  relayEpAddrByNodeKey : GoMap NodePublic EpAddr := ∅
  nodesOfDisco : GoMap DiscoPublic (List NodePublic) := ∅

/-- DevPanicf panics in tests and unstable builds and does nothing otherwise. -/
def devPanicf {α : Type} (dev : Bool) (a : α) : Except Fault α := if dev then .error .panicked else .ok a

namespace PeerMap
variable (m : PeerMap)

def endpoint (e : Ref) : Endpoint := m.endpoints.get e

def info (r : Ref) : PeerInfo := m.infos.get r

def setEndpoint (e : Ref) (ep : Endpoint) : PeerMap := { m with endpoints := m.endpoints.set e ep }

def epOf (r : Ref) : Endpoint := m.endpoint (m.info r).ep

def nodeCount (dev : Bool) : Except Fault ℕ :=
  if m.byNodeKey.entries.length≠m.byNodeID.entries.length then devPanicf dev m.byNodeKey.entries.length
  else .ok m.byNodeKey.entries.length

def knownPeerDiscoKey (dk : DiscoPublic) : Bool := (m.nodesOfDisco.lookup dk).isSome

def endpointForNodeKey (nk : NodePublic) : Option Ref :=
  if nk.isZero then none else (m.byNodeKey.lookup nk).map fun r => (m.info r).ep

def endpointForNodeID (nodeID : NodeID) : Option Ref := (m.byNodeID.lookup nodeID).map fun r => (m.info r).ep

def endpointForEpAddr (addr : EpAddr) : Option Ref := (m.byEpAddr.lookup addr).map fun r => (m.info r).ep

/-- One step of a loop over the endpoints. What the loop has deleted before it gets there is not
visited. -/
def visit (f : PeerMap → Ref → PeerMap) (e : NodePublic × Ref) : PeerMap :=
  match m.byNodeKey.lookup e.1 with
  | some r => f m (m.info r).ep
  | none => m

def forEachEndpoint (o : MapOrder) (f : PeerMap → Ref → PeerMap) : PeerMap :=
  (range o m.byNodeKey).foldl (fun m e => m.visit f e) m

def dropDisco (dk : DiscoPublic) (nk : NodePublic) : PeerMap :=
  match m.nodesOfDisco.lookup dk with
  | some s => { m with nodesOfDisco := m.nodesOfDisco.insert dk (s.filter fun k => k≠nk) }
  | none => m

def addDisco (dk : DiscoPublic) (nk : NodePublic) : PeerMap :=
  { m with nodesOfDisco := m.nodesOfDisco.insert dk (((m.nodesOfDisco.lookup dk).getD []).insert nk) }

def setEpAddrs (r : Ref) (f : List EpAddr → List EpAddr) : PeerMap :=
  { m with infos := m.infos.set r { m.info r with epAddrs := f (m.info r).epAddrs } }

def unlink (addr : EpAddr) (r : Ref) : PeerMap :=
  { m.setEpAddrs r fun l => l.filter fun a => a≠addr with byEpAddr := m.byEpAddr.erase addr }

def link (addr : EpAddr) (r : Ref) : PeerMap :=
  { m.setEpAddrs r fun l => l.insert addr with byEpAddr := m.byEpAddr.insert addr r }

/-- The first half of setNodeKeyForEpAddr: whoever has the address loses it. -/
def releaseEpAddr (addr : EpAddr) : PeerMap :=
  match m.byEpAddr.lookup addr with
  | none => m
  | some r =>
    let relay := if addr.vni.isSome then m.relayEpAddrByNodeKey.erase (m.epOf r).publicKey
      else m.relayEpAddrByNodeKey
    { m.unlink addr r with relayEpAddrByNodeKey := relay }

def replaceRelay (addr : EpAddr) (nk : NodePublic) (r : Ref) : PeerMap :=
  let m :=
    match m.relayEpAddrByNodeKey.lookup nk with
    | none => m
    | some relay => m.unlink relay r
  { m with relayEpAddrByNodeKey := m.relayEpAddrByNodeKey.insert nk addr }

def takeEpAddr (addr : EpAddr) (nk : NodePublic) (r : Ref) : PeerMap :=
  (if addr.vni.isSome then m.replaceRelay addr nk r else m).link addr r

def setNodeKeyForEpAddr (addr : EpAddr) (nk : NodePublic) : PeerMap :=
  let m := m.releaseEpAddr addr
  match m.byNodeKey.lookup nk with
  | some r => m.takeEpAddr addr nk r
  | none => m

/-- The record for an endpoint's key, found or made, becomes that for its ID. -/
def register (e : Ref) : PeerMap :=
  let ep := m.endpoint e
  match m.byNodeKey.lookup ep.publicKey with
  | some r => { m with byNodeID := m.byNodeID.insert ep.nodeID r }
  | none => { m with
      infos := m.infos.alloc ⟨e,[]⟩
      byNodeKey := m.byNodeKey.insert ep.publicKey m.infos.next
      byNodeID := m.byNodeID.insert ep.nodeID m.infos.next }

/-- The maps by disco key and by address follow a change of an endpoint. One that is not WireGuard-only
must have a disco key, for its pointer is followed. -/
def relabel (o : MapOrder) (ep : Endpoint) (oldDiscoKey : DiscoPublic) : Except Fault PeerMap :=
  let m := if ep.disco≠some oldDiscoKey then m.dropDisco oldDiscoKey ep.publicKey else m
  if ep.isWireguardOnly then
    .ok ((range o ep.endpointState).foldl (fun m c => m.setNodeKeyForEpAddr ⟨c.1,none⟩ ep.publicKey) m)
  else
    match ep.disco with
    | none => .error .panicked
    | some dk => .ok (m.addDisco dk ep.publicKey)

def upsertEndpoint (o : MapOrder) (e : Ref) (oldDiscoKey : DiscoPublic) : Except Fault PeerMap :=
  let ep := m.endpoint e
  if ep.nodeID=0 then .error .panicked else (m.register e).relabel o ep oldDiscoKey

def dropNodeID (e : Ref) : PeerMap :=
  match m.byNodeID.lookup (m.endpoint e).nodeID with
  | some was =>
    if (m.info was).ep=e then { m with byNodeID := m.byNodeID.erase (m.endpoint e).nodeID } else m
  | none => m

/-- An endpoint goes out of all maps but that of disco keys. -/
def removeRecord (e : Ref) : PeerMap :=
  let ep := m.endpoint e
  let pi := m.byNodeKey.lookup ep.publicKey
  let m := { m with byNodeKey := m.byNodeKey.erase ep.publicKey }
  let m := m.dropNodeID e
  match pi with
  | none => m
  | some r => { m with
      byEpAddr := (m.info r).epAddrs.foldl (fun t a => t.erase a) m.byEpAddr
      relayEpAddrByNodeKey := m.relayEpAddrByNodeKey.erase ep.publicKey }

def deleteEndpoint (e : Ref) : PeerMap :=
  let m :=
    match (m.endpoint e).disco with
    | some dk => m.dropDisco dk (m.endpoint e).publicKey
    | none => m
  m.removeRecord e

end PeerMap

end TunnnejiTail.Magicsock
