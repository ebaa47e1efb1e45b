import TunnnejiTail.Magicsock.PeerMap

/-! The peers of a connection: whole network maps, single peers and the changes that come in between. The
flags, the build, the time and the orders of map iteration are arguments. The relay manager, the metrics,
the logging and the goroutines that are started are left out. -/
namespace TunnnejiTail.Magicsock
open Go Netmap TunnnejiTail.Types

/-- What a call finds around it: a test or an unstable build, an order for maps, the clock and the
flags. -/
structure Env where
  dev : Bool
  order : MapOrder
  now : Time
  flags : DebugFlags

/-- Of the disco keys with a shared secret only the keys are kept. -/
structure Conn where
  closed : Bool := false
  peerMap : PeerMap := {}
  peersByID : GoMap NodeID Node := ∅
  lastFlags : DebugFlags := ⟨false,false⟩
  derpRoute : GoMap NodePublic ℤ := ∅
  peerLastDerp : GoMap NodePublic ℤ := ∅
  discoInfo : List DiscoPublic := []

def wanted (n : Node) : Bool := !(n.discoKey.isZero && !n.isWireGuardOnly)

lemma skip_eq (n : Node) : (n.discoKey.isZero && !n.isWireGuardOnly)=!wanted n := (Bool.not_not _).symm

section
variable (env : Env)

/-- The end of upsertPeerLocked, for a node without an endpoint. -/
def addPeer (m : PeerMap) (n : Node) : Except Fault PeerMap :=
  match m.endpointForNodeKey n.key with
  | some _ => devPanicf env.dev m
  | none =>
    if n.discoKey.isZero && !n.isWireGuardOnly then .ok m
    else
      let ep := Endpoint.create env.order env.now n env.flags
      let m' := { m with endpoints := m.endpoints.alloc ep }
      m'.upsertEndpoint env.order m.endpoints.next (.fill 0)

def upsertPeerLocked (m : PeerMap) (n : Node) : Except Fault PeerMap :=
  if n.id=0 then devPanicf env.dev m
  else if n.key.isZero then devPanicf env.dev m
  else
    match m.endpointForNodeID n.id with
    | none => addPeer env m n
    | some e =>
      let ep := m.endpoint e
      if ep.publicKey≠n.key then addPeer env (m.deleteEndpoint e) n
      else if n.discoKey.isZero && !n.isWireGuardOnly then .ok (m.deleteEndpoint e)
      else
        let m := m.setEndpoint e (ep.updateFromNode env.order env.now n env.flags)
        m.upsertEndpoint env.order e ep.discoKey

namespace Conn
variable (c : Conn)

def forgetRoute (k : NodePublic) : Conn :=
  { c with derpRoute := c.derpRoute.erase k,peerLastDerp := c.peerLastDerp.erase k }

def sameAsBefore (peers : List Node) : Bool :=
  decide (c.lastFlags=env.flags) && decide (peers.length=c.peersByID.entries.length) && peers.all fun n =>
      match c.peersByID.lookup n.id with
      | some prev => prev.equal n
      | none => false

def evict (keep : List NodePublic) (m : PeerMap) (e : Ref) : PeerMap :=
  if (m.endpoint e).publicKey ∈ keep then m else m.deleteEndpoint e

def cleanUp (m : PeerMap) (keep : List NodePublic) : PeerMap := m.forEachEndpoint env.order (evict keep)

/-- The routes to peers that are gone or have a new key are forgotten. -/
def forgetRoutes (newPeers : GoMap NodeID Node) : Conn :=
  (range env.order c.peersByID).foldl (fun c e =>
    match newPeers.lookup e.1 with
    | some n => if n.key≠e.2.key then c.forgetRoute e.2.key else c
    | none => c.forgetRoute e.2.key) c

/-- UpdateNodes, and whether the peers changed. -/
def updateNodes (peers : List Node) : Except Fault (Conn × Bool) :=
  if c.closed then .ok (c,false)
  else if c.sameAsBefore env peers then .ok (c,false)
  else do
    let m ← peers.foldlM (upsertPeerLocked env) c.peerMap
    let newPeers := fill Node.id some peers ∅
    let c := c.forgetRoutes env newPeers
    let count ← m.nodeCount env.dev
    let m := if count≠newPeers.entries.length
      then cleanUp env m (newPeers.entries.map fun e => e.2.key) else m
    let discoInfo := c.discoInfo.filter m.knownPeerDiscoKey
    return ({ c with
      lastFlags := env.flags
      peerMap := m
      peersByID := newPeers
      discoInfo := discoInfo },true)

def setNetworkMap (peers : List Node) : Except Fault Conn := (c.updateNodes env peers).map Prod.fst

def forgetOldKey (n : Node) : Conn :=
  match c.peersByID.lookup n.id with
  | some prev => if prev.key≠n.key then c.forgetRoute prev.key else c
  | none => c

def upsertPeer (n : Node) : Except Fault Conn :=
  if c.closed then .ok c
  else if n.id=0 then devPanicf env.dev c
  else do
    let m ← upsertPeerLocked env c.peerMap n
    return { c.forgetOldKey n with peersByID := c.peersByID.insert n.id n,peerMap := m }

def removeEndpoint (m : PeerMap) (nid : NodeID) : PeerMap :=
  match m.endpointForNodeID nid with
  | some e => m.deleteEndpoint e
  | none => m

def removePeer (nid : NodeID) : Conn :=
  if c.closed then c
  else
    match c.peersByID.lookup nid with
    | none => c
    | some prev =>
      let c := ({ c with peersByID := c.peersByID.erase nid } : Conn).forgetRoute prev.key
      let m := removeEndpoint c.peerMap nid
      let discoInfo := if !prev.discoKey.isZero && !m.knownPeerDiscoKey prev.discoKey
        then c.discoInfo.filter fun k => k≠prev.discoKey else c.discoInfo
      { c with peerMap := m,discoInfo := discoInfo }

/-- One mutation of UpdateNetmapDelta. -/
def mutate (c : Conn) (mu : NodeMutation) : Conn :=
  match c.peerMap.endpointForNodeID mu.nodeIDBeingMutated with
  | none => c
  | some e =>
    let ep := c.peerMap.endpoint e
    let put := fun ep : Endpoint => ({ c with peerMap := c.peerMap.setEndpoint e ep } : Conn)
    match mu with
    | .derpHome _ region => put (ep.setDERPHome (Endpoint.uint16 region))
    | .endpoints _ eps => put (ep.setEndpointsLocked env.order env.now eps.elems)
    | _ => c

def updateNetmapDelta (muts : List NodeMutation) : Conn := muts.foldl (mutate env) c

def handleDiscoKeyAdvertisement (node : Node) (key : DiscoPublic) : Except Fault Conn :=
  match c.peerMap.endpointForNodeKey node.key with
  | none => .ok c
  | some e =>
    let ep := c.peerMap.endpoint e
    if ep.discoKey=key then .ok c
    else do
      let m ← (c.peerMap.setEndpoint e (ep.updateDiscoKey key)).upsertEndpoint env.order e ep.discoKey
      return { c with peerMap := m,discoInfo := c.discoInfo.insert key }

/-- Disco traffic changes the candidates of an endpoint, in whatever way. -/
def setCandidates (nk : NodePublic) (candidates : Candidates) : Conn :=
  match c.peerMap.endpointForNodeKey nk with
  | none => c
  | some e =>
    let ep := c.peerMap.endpoint e
    { c with peerMap := c.peerMap.setEndpoint e { ep with endpointState := candidates } }

end Conn

end

end TunnnejiTail.Magicsock
