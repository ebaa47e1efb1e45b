import TunnnejiTail.Netmap.NodeMut
import TunnnejiTail.PacketFilter.IPSet

/-! The node backend: the current netmap, the peers with the deltas since then applied to them,
and the indexes of nodes by address, key and name. -/
namespace TunnnejiTail.Netmap
open Go Netip TunnnejiTail.Types List NodeMutation Peers

def trimSuffix (s suffix : Str) : Str :=
  if suffix.isSuffixOf s then s.take (s.length-suffix.length) else s

def trimPrefix (s pre : Str) : Str := if pre.isPrefixOf s then s.drop pre.length else s

def trimDots (s : Str) : Str := ((s.dropWhile (· = '.')).reverse.dropWhile (· = '.')).reverse

def magicDNSSuffixOfNodeName (nodeName : Str) : Str :=
  let name := trimDots nodeName
  match cut '.' name with
  | some (_,rest) => rest
  | none => name

namespace Dnsname

def hasSuffix (name suffix : Str) : Bool :=
  let name := Netmap.trimSuffix name ['.']
  let suffix := trimPrefix (Netmap.trimSuffix suffix ['.']) ['.']
  let nameBase := Netmap.trimSuffix name suffix
  nameBase.length<name.length && ['.'].isSuffixOf nameBase

def trimSuffix (name suffix : Str) : Str :=
  let name := if hasSuffix name suffix
    then Netmap.trimSuffix (Netmap.trimSuffix name ['.']) (trimDots suffix) else name
  Netmap.trimSuffix name ['.']

end Dnsname

structure NetworkMap where
  selfNode : Option Node
  peers : List Node

/-- The self node and the peers, in the order in which the indexes are filled. -/
def NetworkMap.nodes (nm : NetworkMap) : List Node := nm.selfNode.toList++nm.peers

def NetworkMap.magicDNSSuffix (nm : Option NetworkMap) : Str :=
  magicDNSSuffixOfNodeName (((nm.bind NetworkMap.selfNode).map Node.name).getD [])

abbrev Index (κ : Type) := GoMap κ NodeID

namespace Index
variable {κ : Type} [DecidableEq κ]

def add (idx : Index κ) (keys : List κ) (id : NodeID) : Index κ :=
  keys.foldl (fun m k => m.insert k id) idx

def remove (idx : Index κ) (keys : List κ) : Index κ := keys.foldl (fun m k => m.erase k) idx

def zeroed (idx : Index κ) : Index κ :=
  ⟨idx.entries.map fun e => ⟨e.1,0⟩,by
    have hk : (idx.entries.map fun e : (_ : κ) × NodeID => (⟨e.1,0⟩ : (_ : κ) × NodeID)).keys
        = idx.entries.keys := by simp [List.keys]
    rw [List.NodupKeys,hk]
    exact idx.nodupKeys⟩

def nonzero (idx : Index κ) : Index κ :=
  ⟨idx.entries.filter fun e => e.2≠0,idx.nodupKeys.sublist filter_sublist⟩

end Index

/-- mapx.RepopulateNonzero, for a populate function that writes the keys of some nodes. -/
def repopulateNonzero {κ : Type} [DecidableEq κ] (idx : Index κ) (keysOf : Node → List κ)
    (nodes : List Node) : Index κ :=
  (nodes.foldl (fun m n => m.add (keysOf n) n.id) idx.zeroed).nonzero

/-- unicode.ToLower; what is known of it here is that it lowers the ASCII letters. -/
class Unicode where
  toLower : Char → Char
  toLower_ascii : ∀ c, c.toNat<128 → toLower c=c.toLower

/-- The case of the ASCII letters, and no other. -/
abbrev Unicode.ascii : Unicode := ⟨Char.toLower,fun _ _ => rfl⟩

namespace Node

def addrKeys (n : Node) : List Addr := (n.addresses.elems.filter Prefix.isSingleIP).map Prefix.addr

/-- The full and, if the name has the netmap's suffix, the short name; nothing for no name. -/
def nameKeys [Unicode] (nm : Option NetworkMap) (name : Str) : List Str :=
  if name=[] then []
  else
    let canon := (trimSuffix name ['.']).map Unicode.toLower
    let suffix := NetworkMap.magicDNSSuffix nm
    canon::if Dnsname.hasSuffix canon suffix then [Dnsname.trimSuffix canon suffix] else []

end Node

structure NodeBackend where
  netMap : Option NetworkMap
  peers : Peers
  nodeByAddr : Index Addr
  nodeByKey : Index NodePublic
  nodeByWGString : Index Str
  nodeByName : Index Str

namespace NodeBackend

def new : NodeBackend := ⟨none,.empty,∅,∅,∅,∅⟩

variable [Unicode]

/-- updateNodeByAddrLocked, updateNodeByKeyLocked, updateNodeByNameLocked and updatePeersLocked. -/
def setNetMap (nb : NodeBackend) : Option NetworkMap → NodeBackend
  | none => ⟨none,.empty,∅,∅,∅,∅⟩
  | some nm => {
      netMap := some nm
      peers := nm.peers.foldl Peers.put .empty
      nodeByAddr := repopulateNonzero nb.nodeByAddr Node.addrKeys nm.nodes
      nodeByKey := repopulateNonzero nb.nodeByKey (fun n => [n.key]) nm.nodes
      nodeByWGString := repopulateNonzero nb.nodeByWGString
        (fun n => [n.key.wireGuardGoString]) nm.nodes
      nodeByName := repopulateNonzero nb.nodeByName
        (fun n => Node.nameKeys (some nm) n.name) nm.nodes }

def ofPeer (n : Node) : NodeBackend := new.setNetMap (some ⟨none,[n]⟩)

def netMapWithPeers (o : MapOrder) (nb : NodeBackend) : Option NetworkMap :=
  nb.netMap.map fun nm => { nm with
    peers := sortStable Node.id ((range o nb.peers.nodes).map Prod.snd) }

/-- A peer is inserted or replaced. -/
def upsert (nb : NodeBackend) (n : Node) : NodeBackend :=
  { nb with
    peers := nb.peers.put n
    nodeByAddr := nb.nodeByAddr.add n.addrKeys n.id
    nodeByKey := nb.nodeByKey.add [n.key] n.id
    nodeByWGString := nb.nodeByWGString.add [n.key.wireGuardGoString] n.id
    nodeByName := nb.nodeByName.add (Node.nameKeys nb.netMap n.name) n.id }

/-- A peer is removed, if there is one. -/
def remove (nb : NodeBackend) (nid : NodeID) : NodeBackend :=
  match nb.peers.lookup nid with
  | none => nb
  | some old => { nb with
      peers := nb.peers.delete nid
      nodeByAddr := nb.nodeByAddr.remove old.addrKeys
      nodeByKey := nb.nodeByKey.remove [old.key]
      nodeByWGString := nb.nodeByWGString.remove [old.key.wireGuardGoString]
      nodeByName := nb.nodeByName.remove (Node.nameKeys nb.netMap old.name) }

structure DeltaLoop where
  nb : NodeBackend
  mutableNodes : Peers

/-- One mutation. A per-field mutation of a peer that is not there ends the call; what was done
to the backend stays, what was done to the mutable nodes is lost. -/
def deltaStep (s : DeltaLoop) (m : NodeMutation) : Except NodeBackend DeltaLoop :=
  match m with
  | .upsert n => .ok { s with nb := s.nb.upsert n }
  | .remove nid => .ok { s with nb := s.nb.remove nid }
  | m =>
    match (s.mutableNodes.lookup m.nodeIDBeingMutated).or (s.nb.peers.lookup m.nodeIDBeingMutated) with
    | none => .error s.nb
    | some n => .ok { s with mutableNodes := s.mutableNodes.put (m.apply n) }

/-- UpdateNetmapDelta of the node backend; the order is that of the last loop. -/
def updateNetmapDelta (o : MapOrder) (nb : NodeBackend) (muts : List NodeMutation) :
    Bool × NodeBackend :=
  match nb.netMap with
  | none => (false,nb)
  | some _ =>
    match muts.foldlM deltaStep ⟨nb,.empty⟩ with
    | .error nb => (false,nb)
    | .ok s => (true,{ s.nb with
        peers := (range o s.mutableNodes.nodes).foldl (fun P c => P.put c.2) s.nb.peers })

@[simp] lemma upsert_peers (nb : NodeBackend) (n : Node) : (nb.upsert n).peers=nb.peers.put n := rfl

lemma lookup_remove (nb : NodeBackend) (j id : NodeID) :
    (nb.remove j).peers.lookup id=if j=id then none else nb.peers.lookup id := by
  rw [remove]
  cases hj : nb.peers.lookup j with
  | some n => exact lookup_delete ..
  | none =>
    by_cases h : j=id
    · rw [if_pos h,← h,hj]
    · rw [if_neg h]

/-- What the loop holds about one node: the peer and its mutable copy. -/
def DeltaLoop.view (s : DeltaLoop) (id : NodeID) : Option Node × Option Node :=
  (s.nb.peers.lookup id,s.mutableNodes.lookup id)

/-- What a mutation does to what the loop holds about its node. -/
def deltaAct (b : Option Node × Option Node) (m : NodeMutation) : Option (Option Node × Option Node) :=
  match m with
  | .upsert n => some (some n,b.2)
  | .remove _ => some (none,b.2)
  | m => (b.2.or b.1).map fun n => (b.1,some (m.apply n))

lemma deltaStep_cases (s : DeltaLoop) (m : NodeMutation) :
    (∃ n, m=.upsert n ∧ deltaStep s m=.ok { s with nb := s.nb.upsert n }) ∨
    (∃ nid, m=.remove nid ∧ deltaStep s m=.ok { s with nb := s.nb.remove nid }) ∨
    (m.perField=true ∧ (s.view m.nodeIDBeingMutated).2.or (s.view m.nodeIDBeingMutated).1=none ∧
      deltaStep s m=.error s.nb) ∨
    ∃ n, m.perField=true ∧ (s.view m.nodeIDBeingMutated).2.or (s.view m.nodeIDBeingMutated).1=some n ∧
      deltaStep s m=.ok { s with mutableNodes := s.mutableNodes.put (m.apply n) } := by
  have hfield (h : deltaStep s m=match (s.mutableNodes.lookup m.nodeIDBeingMutated).or
      (s.nb.peers.lookup m.nodeIDBeingMutated) with
        | none => .error s.nb
        | some n => .ok { s with mutableNodes := s.mutableNodes.put (m.apply n) }) :
      ((s.view m.nodeIDBeingMutated).2.or (s.view m.nodeIDBeingMutated).1=none ∧ deltaStep s m=.error s.nb) ∨
      ∃ n, (s.view m.nodeIDBeingMutated).2.or (s.view m.nodeIDBeingMutated).1=some n ∧
        deltaStep s m=.ok { s with mutableNodes := s.mutableNodes.put (m.apply n) } := by
    rw [h]
    change (_=none ∧ _) ∨ ∃ n, (s.mutableNodes.lookup _).or (s.nb.peers.lookup _)=some n ∧ _
    cases hn : (s.mutableNodes.lookup m.nodeIDBeingMutated).or
      (s.nb.peers.lookup m.nodeIDBeingMutated) with
    | none => exact .inl ⟨hn,rfl⟩
    | some n => exact .inr ⟨n,rfl,rfl⟩
  cases m with
  | upsert n => exact .inl ⟨n,rfl,rfl⟩
  | remove nid => exact .inr (.inl ⟨nid,rfl,rfl⟩)
  | derpHome nid region => simpa [perField] using hfield rfl
  | endpoints nid eps => simpa [perField] using hfield rfl
  | online nid v => simpa [perField] using hfield rfl
  | lastSeen nid t => simpa [perField] using hfield rfl

omit [Unicode] in
lemma deltaAct_of_perField {m : NodeMutation} (h : m.perField=true) (b : Option Node × Option Node) :
    deltaAct b m=(b.2.or b.1).map fun n => (b.1,some (m.apply n)) := by
  cases m with
  | upsert n => cases h
  | remove nid => cases h
  | _ => rfl

lemma deltaStep_keyed : KeyedStep DeltaLoop.view nodeIDBeingMutated deltaStep deltaAct := by
  have hid {s : DeltaLoop} {k : NodeID} {n : Node} (h : (s.view k).2.or (s.view k).1=some n) :
      n.id=k := by
    cases hm : (s.view k).2 with
    | some n' =>
      rw [hm] at h
      cases h
      exact id_of_lookup hm
    | none =>
      rw [hm] at h
      exact id_of_lookup h
  constructor
  · intro s m s' hs
    rcases deltaStep_cases s m with ⟨n,rfl,h⟩ | ⟨nid,rfl,h⟩ | ⟨-,-,h⟩ | ⟨n,hf,hn,h⟩
    · rw [h] at hs
      cases hs
      simp [deltaAct,DeltaLoop.view,nodeIDBeingMutated,lookup_put]
    · rw [h] at hs
      cases hs
      simp [deltaAct,DeltaLoop.view,nodeIDBeingMutated,lookup_remove]
    · rw [h] at hs
      cases hs
    · rw [h] at hs
      cases hs
      rw [deltaAct_of_perField hf,hn]
      simp [DeltaLoop.view,lookup_put,hid hn]
  · intro s m s' hs k hk
    rcases deltaStep_cases s m with ⟨n,rfl,h⟩ | ⟨nid,rfl,h⟩ | ⟨-,-,h⟩ | ⟨n,hf,hn,h⟩
    · rw [h] at hs
      cases hs
      have hk' : n.id≠k := hk
      simp [DeltaLoop.view,lookup_put,hk']
    · rw [h] at hs
      cases hs
      have hk' : nid≠k := hk
      simp [DeltaLoop.view,lookup_remove,hk']
    · rw [h] at hs
      cases hs
    · rw [h] at hs
      cases hs
      simp [DeltaLoop.view,lookup_put,hid hn,hk]
  · intro s m e hs
    rcases deltaStep_cases s m with ⟨n,rfl,h⟩ | ⟨nid,rfl,h⟩ | ⟨hf,hn,-⟩ | ⟨n,hf,hn,h⟩
    · rw [h] at hs
      cases hs
    · rw [h] at hs
      cases hs
    · rw [deltaAct_of_perField hf,hn]
      rfl
    · rw [h] at hs
      cases hs

omit [Unicode] in
lemma lookup_writeBack (o : MapOrder) (Q P : Peers) (id : NodeID) :
    ((range o Q.nodes).foldl (fun P c => P.put c.2) P).lookup id=(Q.lookup id).or (P.lookup id) := by
  have hput : ∀ (l : List (NodeID × Node)) (P : Peers), (∀ c ∈ l, c.2.id=c.1) →
      (l.foldl (fun P c => P.put c.2) P).lookup id
        = ((forKey Prod.fst id l).map Prod.snd).getLast?.or (P.lookup id) := by
    intro l
    induction l with
    | nil => exact fun P _ => rfl
    | cons c l ih =>
      intro P hl
      have hc := hl c mem_cons_self
      rw [foldl_cons,ih _ fun d hd => hl d (mem_cons_of_mem c hd),lookup_put, forKey_cons,hc]
      by_cases hk : c.1=id
      · rw [if_pos hk,if_pos hk,map_cons,getLast?_cons]
        cases ((forKey Prod.fst id l).map Prod.snd).getLast? <;> rfl
      · rw [if_neg hk,if_neg hk]
  rw [hput _ P,forKey_range]
  · change _=(Q.nodes.lookup id).or _
    cases Q.nodes.lookup id <;> rfl
  · intro c hc
    obtain ⟨j,n⟩ := c
    exact Q.keyed ((mem_range o Q.nodes j n).mp hc)

variable {muts : List NodeMutation}

lemma lookup_of_foldlM_ok {o : MapOrder} {nb : NodeBackend} {s : DeltaLoop}
    (hnm : nb.netMap.isSome) (hs : muts.foldlM deltaStep ⟨nb,.empty⟩=.ok s) (id : NodeID) :
    (nb.updateNetmapDelta o muts).2.peers.lookup id=(s.view id).2.or (s.view id).1 := by
  obtain ⟨nm,hnm⟩ := Option.isSome_iff_exists.mp hnm
  rw [updateNetmapDelta,hnm,hs]
  exact lookup_writeBack ..

lemma lookup_of_foldlM_error {o : MapOrder} {nb nb' : NodeBackend}
    (hnm : nb.netMap.isSome) (hs : muts.foldlM deltaStep ⟨nb,.empty⟩=.error nb') :
    nb.updateNetmapDelta o muts=(false,nb') := by
  obtain ⟨nm,hnm⟩ := Option.isSome_iff_exists.mp hnm
  rw [updateNetmapDelta,hnm,hs]

end NodeBackend

end TunnnejiTail.Netmap
