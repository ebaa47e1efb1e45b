import TunnnejiTail.Netmap.NodeBackend
import TunnnejiTail.Netmap.TailnetLock

/-! How the local backend handles a delta: the mutations pass tailnet lock, go to the node backend
and to magicsock, and the rest of the client is told. -/
namespace TunnnejiTail.Netmap
open Go Netip Tka

def NodeBackend.nodeByID (nb : NodeBackend) (id : NodeID) : Option Node :=
  match nb.netMap.bind NetworkMap.selfNode with
  | some self => if self.id=id then some self else nb.peers.lookup id
  | none => nb.peers.lookup id

/-- The masquerade addresses are compared as pointers, which two nodes share only if they are nil. -/
def peerRouteConfigChanged (old new : Node) : Bool :=
  old.key≠new.key || old.discoKey≠new.discoKey ||
  old.allowedIPs.elems≠new.allowedIPs.elems || old.expired≠new.expired ||
  old.isJailed≠new.isJailed || old.isWireGuardOnly≠new.isWireGuardOnly ||
  old.selfNodeV4MasqAddrForThisPeer.isSome || new.selfNodeV4MasqAddrForThisPeer.isSome ||
  old.selfNodeV6MasqAddrForThisPeer.isSome || new.selfNodeV6MasqAddrForThisPeer.isSome

def netmapDeltaNeedsAuthReconfig (cn : NodeBackend) (muts : List NodeMutation) : Bool :=
  muts.any fun m =>
    match m with
    | .upsert n => (cn.nodeByID n.id).any fun old => peerRouteConfigChanged old n
    | _ => false

def Node.isExitNode (n : Node) : Bool :=
  n.allowedIPs.elems.contains (.v4 0 (bits4 0)) || n.allowedIPs.elems.contains (.v6 0 (bits6 0))

def mutationsAreWorthyOfRecalculatingSuggestedExitNode (muts : List NodeMutation) (cn : NodeBackend)
    (sid : Str) : Bool :=
  muts.any fun m => (cn.nodeByID m.nodeIDBeingMutated).any fun n =>
    (sid≠[] && n.stableID=sid) || (n.isExitNode &&
      match m with
      | .online _ _ => true
      | _ => false)

def mutationsAreWorthyOfTellingIPNBus (muts : List NodeMutation) : Bool :=
  muts.any fun m =>
    match m with
    | .lastSeen _ _ => true
    | .online _ _ => true
    | _ => false

/-- Change the patch of a node, which is added if it is missing. -/
def editPatch (ordered : List PeerChange) (nid : NodeID) (f : PeerChange → PeerChange) :
    List PeerChange :=
  if ordered.any fun pc => pc.nodeID=nid
  then ordered.map fun pc => if pc.nodeID=nid then f pc else pc
  else ordered++[f { nodeID := nid }]

def ipnBusPeerChangedPatchFromNodeMutations (muts : List NodeMutation) : List PeerChange :=
  muts.foldl (fun ordered m =>
    match m with
    | .upsert _ => ordered
    | .remove _ => ordered
    | .online nid v => editPatch ordered nid fun pc => { pc with online := some v }
    | .lastSeen nid t => editPatch ordered nid fun pc => { pc with lastSeen := some t }
    | .derpHome nid region => editPatch ordered nid fun pc => { pc with derpRegion := region }
    | .endpoints nid eps => editPatch ordered nid fun pc => { pc with endpoints := eps }) []

structure Notify where
  peersChanged : List Node
  peersRemoved : List NodeID
  peerChangedPatch : List PeerChange
  netMap : Option NetworkMap

/-- What the backend asks of magicsock, the engine, the netmap cache and the IPN bus. -/
inductive Effect
  | upsertPeer (n : Node)
  | removePeer (id : NodeID)
  | updateMagicsock (muts : List NodeMutation)
  | setSelfNode (self : Option Node)
  | authReconfig
  | refreshExitNode
  | suggestExitNode
  | writePeerDelta (update : List Node) (remove : List Str)
  | send (n : Notify)

/-- Besides the node backend and tailnet lock: the preferences that are read, whether the self node may
cache netmaps, and whether the platform is still sent whole netmaps. -/
structure LocalBackend where
  cn : NodeBackend
  tka : Option TkaState
  autoExitNode : Str
  exitNodeID : Str
  lastSuggestedExitNode : Str
  cachesNetworkMaps : Bool
  goosGetsLegacyNetmapNotify : Bool

namespace LocalBackend
variable (S : Scheme Bytes) (o : MapOrder) (b : LocalBackend)

def dispatch : NodeMutation → Option Effect
  | .upsert n => some (.upsertPeer n)
  | .remove id => some (.removePeer id)
  | _ => none

def peersUpsertedOrRemoved (muts : List NodeMutation) : Bool := muts.any fun m => !m.perField

def reconfigure (cn : NodeBackend) (needsAuthReconfig : Bool) (muts : List NodeMutation) : List Effect :=
  if needsAuthReconfig || peersUpsertedOrRemoved muts then
    (if peersUpsertedOrRemoved muts
      then ((cn.netMapWithPeers o).toList.map fun nm => .setSelfNode nm.selfNode) else []) ++
    [.authReconfig]
  else []

def exitNodeLost (cn : NodeBackend) (muts : List NodeMutation) : Bool :=
  b.autoExitNode≠[] && muts.any fun m =>
    match m with
    | .online nid false => (cn.nodeByID nid).any fun n => n.stableID=b.exitNodeID
    | _ => false

/-- The peers that the netmap cache is told of. -/
def cacheDelta (cn : NodeBackend) (muts : List NodeMutation) : List Effect :=
  if b.cachesNetworkMaps then
    let removed := muts.filterMap fun m =>
      match m with
      | .remove nid => some nid
      | _ => none
    let updated := muts.filterMap fun m =>
      match m with
      | .remove _ => none
      | m => some m.nodeIDBeingMutated
    [.writePeerDelta ((o.shuffle updated.dedup).filterMap cn.nodeByID)
      (((o.shuffle removed.dedup).filterMap cn.nodeByID).map Node.stableID)]
  else []

def notifyDelta (cn : NodeBackend) (muts : List NodeMutation) : List Effect :=
  if peersUpsertedOrRemoved muts || mutationsAreWorthyOfTellingIPNBus muts then
    [.send {
      peersChanged := muts.filterMap fun m =>
        match m with
        | .upsert n => some n
        | _ => none
      peersRemoved := muts.filterMap fun m =>
        match m with
        | .remove nid => some nid
        | _ => none
      peerChangedPatch := ipnBusPeerChangedPatchFromNodeMutations muts
      netMap := if b.goosGetsLegacyNetmapNotify then cn.netMapWithPeers o else none }]
  else []

variable [Unicode]

/-- Whether the delta was handled, the backend after it and what was asked of others. The result of the
node backend is not looked at. -/
def updateNetmapDelta (muts : List NodeMutation) : Bool × LocalBackend × List Effect :=
  let (muts,tka) := tkaFilterDeltaMutsLocked S b.tka muts
  let needsAuthReconfig := netmapDeltaNeedsAuthReconfig b.cn muts
  let (_,cn) := b.cn.updateNetmapDelta o muts
  let effects := muts.filterMap dispatch++[.updateMagicsock muts] ++ reconfigure o cn needsAuthReconfig muts ++
    (if b.exitNodeLost cn muts then [.refreshExitNode] else []) ++
    (if cn.netMap.isSome && mutationsAreWorthyOfRecalculatingSuggestedExitNode muts cn
      b.lastSuggestedExitNode then [.suggestExitNode] else [])
  let b' := { b with cn := cn,tka := tka }
  match cn.netMap with
  | none => (true,b',effects)
  | some _ => (true,b',effects++b.cacheDelta o cn muts++b.notifyDelta o cn muts)

lemma updateNetmapDelta_eq (muts : List NodeMutation) :
    (b.updateNetmapDelta S o muts).1=true ∧ (b.updateNetmapDelta S o muts).2.1.cn
      = (b.cn.updateNetmapDelta o (tkaFilterDeltaMutsLocked S b.tka muts).1).2 := by
  rw [updateNetmapDelta]
  dsimp only
  split <;> exact ⟨rfl,rfl⟩

end LocalBackend

end TunnnejiTail.Netmap
