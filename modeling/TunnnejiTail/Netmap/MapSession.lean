import TunnnejiTail.Netmap.NodeMut

/-! How a map session keeps its peers up to date with the responses of the control server. -/
namespace TunnnejiTail.Netmap
open Go Netip TunnnejiTail.Types List Option

structure UpdateStats where
  allNew : Bool := false
  added : ℕ := 0
  removed : ℕ := 0
  changed : ℕ := 0
  deriving DecidableEq

structure PeersUpdate where
  peers : Peers
  stats : UpdateStats

/-- The patch of one node in the last loop of updatePeersStateFromResponse. -/
def PeerChange.applyTo (pc : PeerChange) (n : Node) : Node :=
  { n with
    homeDERP := if pc.derpRegion≠0 then pc.derpRegion else n.homeDERP
    cap := if pc.cap≠0 then pc.cap else n.cap
    endpoints := pc.endpoints.or n.endpoints
    key := pc.key.getD n.key
    discoKey := pc.discoKey.getD n.discoKey
    online := pc.online.or n.online
    lastSeen := pc.lastSeen.or n.lastSeen
    keyExpiry := pc.keyExpiry.getD n.keyExpiry
    keySignature := pc.keySignature.or n.keySignature
    capMap := pc.capMap.or n.capMap }

namespace PeersUpdate

def put (s : PeersUpdate) (n : Node) : PeersUpdate :=
  let peers := s.peers.put n
  if peers.nodes.entries.length=s.peers.nodes.entries.length
  then ⟨peers,{ s.stats with changed := s.stats.changed+1 }⟩
  else ⟨peers,{ s.stats with added := s.stats.added+1 }⟩

def remove (s : PeersUpdate) (id : NodeID) : PeersUpdate :=
  match s.peers.lookup id with
  | some _ => ⟨s.peers.delete id,{ s.stats with removed := s.stats.removed+1 }⟩
  | none => s

/-- Replace the node under an ID, if there is one, by a changed copy with the same ID. -/
def modify (s : PeersUpdate) (id : NodeID) (f : Node → Node) : PeersUpdate :=
  match s.peers.lookup id with
  | some n => ⟨s.peers.put (f n),{ s.stats with changed := s.stats.changed+1 }⟩
  | none => s

variable (s : PeersUpdate)

@[simp] lemma lookup_put (n : Node) (id : NodeID) :
    (s.put n).peers.lookup id=if n.id=id then some n else s.peers.lookup id := by
  rw [put,← Peers.lookup_put]
  split <;> rfl

@[simp] lemma lookup_remove (j id : NodeID) :
    (s.remove j).peers.lookup id=if j=id then none else s.peers.lookup id := by
  rw [remove]
  cases hj : s.peers.lookup j with
  | some n => exact Peers.lookup_delete ..
  | none =>
    by_cases h : j=id
    · rw [if_pos h,← h,hj]
    · rw [if_neg h]

lemma lookup_modify (j id : NodeID) {f : Node → Node} (hf : ∀ n, (f n).id=n.id) :
    (s.modify j f).peers.lookup id = if j=id then (s.peers.lookup id).map f else s.peers.lookup id := by
  rw [modify]
  cases hj : s.peers.lookup j with
  | some n =>
    rw [Peers.lookup_put,hf,Peers.id_of_lookup hj]
    by_cases h : j=id
    · rw [if_pos h,if_pos h,← h,hj]
      rfl
    · rw [if_neg h,if_neg h]
  | none =>
    by_cases h : j=id
    · rw [if_pos h,← h,hj]
      rfl
    · rw [if_neg h]

end PeersUpdate

def Node.setSeen (clock : Time) (seen : Bool) (n : Node) : Node :=
  { n with lastSeen := if seen then some clock else none }

def Node.setOnline (v : Bool) (n : Node) : Node := { n with online := some v }

/-- The full peer list replaces all peers; the order is that of the loop that deletes. -/
def PeersUpdate.replaceAll (o : MapOrder) (s : PeersUpdate) (peers : List Node) : PeersUpdate :=
  let s := peers.foldl PeersUpdate.put { s with stats := { s.stats with allNew := true } }
  (range o s.peers.nodes).foldl
    (fun s c => if (peers.map Node.id).contains c.1 then s else s.remove c.1) s

/-- The delta part of a response. -/
def PeersUpdate.applyDelta (o o' : MapOrder) (clock : Time) (s : PeersUpdate) (resp : MapResponse) :
    PeersUpdate :=
  let s := resp.peersRemoved.foldl PeersUpdate.remove s
  let s := resp.peersChanged.elems.foldl PeersUpdate.put s
  let s := (range o resp.peerSeenChange).foldl (fun s c => s.modify c.1 (Node.setSeen clock c.2)) s
  let s := (range o' resp.onlineChange).foldl (fun s c => s.modify c.1 (Node.setOnline c.2)) s
  resp.peersChangedPatch.foldl (fun s pc => s.modify pc.nodeID pc.applyTo) s

def updatePeersStateFromResponse (o o' o'' : MapOrder) (clock : Time) (peers : Peers)
    (resp : MapResponse) : PeersUpdate :=
  if 0 < resp.peers.elems.length then (PeersUpdate.mk peers {}).replaceAll o resp.peers.elems
  else (PeersUpdate.mk peers {}).applyDelta o' o'' clock resp

/-- New values for some of the fields that patches can set. -/
@[ext] structure Assign where
  homeDERP : Option ℤ := none
  cap : Option ℤ := none
  endpoints : Option (Slice AddrPort) := none
  key : Option NodePublic := none
  discoKey : Option DiscoPublic := none
  online : Option (Option Bool) := none
  lastSeen : Option (Option Time) := none
  keyExpiry : Option Time := none
  keySignature : Option (Slice UInt8) := none
  capMap : Option CapMap := none

namespace Assign

/-- Set the fields that are given. -/
def set (a : Assign) (n : Node) : Node :=
  { n with
    homeDERP := a.homeDERP.getD n.homeDERP
    cap := a.cap.getD n.cap
    endpoints := a.endpoints.getD n.endpoints
    key := a.key.getD n.key
    discoKey := a.discoKey.getD n.discoKey
    online := a.online.getD n.online
    lastSeen := a.lastSeen.getD n.lastSeen
    keyExpiry := a.keyExpiry.getD n.keyExpiry
    keySignature := a.keySignature.getD n.keySignature
    capMap := a.capMap.getD n.capMap }

/-- First a, then b. -/
def andThen (a b : Assign) : Assign where
  homeDERP := b.homeDERP.or a.homeDERP
  cap := b.cap.or a.cap
  endpoints := b.endpoints.or a.endpoints
  key := b.key.or a.key
  discoKey := b.discoKey.or a.discoKey
  online := b.online.or a.online
  lastSeen := b.lastSeen.or a.lastSeen
  keyExpiry := b.keyExpiry.or a.keyExpiry
  keySignature := b.keySignature.or a.keySignature
  capMap := b.capMap.or a.capMap

lemma getD_or {β : Type} (x y : Option β) (b : β) : (x.or y).getD b=x.getD (y.getD b) := by
  cases x <;> rfl

@[simp] lemma set_set (a b : Assign) (n : Node) : b.set (a.set n)=(a.andThen b).set n := by
  simp only [set,andThen,getD_or]

def all (l : List Assign) : Assign := l.foldl andThen {}

lemma foldl_set (l : List Assign) (n : Node) : l.foldl (fun n a => a.set n) n=(all l).set n := by
  have h : ∀ a, l.foldl (fun n a => a.set n) (Assign.set a n)=(l.foldl andThen a).set n := by
    induction l with
    | nil => exact fun a => rfl
    | cons b l ih =>
      intro a
      rw [foldl_cons,foldl_cons,set_set,ih]
  exact h {}

variable {β : Type} (f : Assign → Option β) (hf : ∀ a b, f (andThen a b)=(f b).or (f a)) {l : List Assign}
include hf

lemma foldl_component (a : Assign) :
    f (l.foldl andThen a)=(l.filterMap f).getLast?.or (f a) := by
  induction l generalizing a with
  | nil => rfl
  | cons b l ih =>
    rw [foldl_cons,ih,hf,filterMap_cons]
    cases hb : f b with
    | none => rfl
    | some v =>
      simp only [getLast?_cons]
      cases (l.filterMap f).getLast? <;> rfl

lemma all_component (h0 : f {} = none) : f (all l)=(l.filterMap f).getLast? := by
  rw [all,foldl_component f hf,h0,or_none]

end Assign

/-- What a patch assigns; zero and nil values assign nothing. -/
def PeerChange.assign (pc : PeerChange) : Assign where
  homeDERP := if pc.derpRegion=0 then none else some pc.derpRegion
  cap := if pc.cap=0 then none else some pc.cap
  endpoints := pc.endpoints.map some
  key := pc.key
  discoKey := pc.discoKey
  online := pc.online.map some
  lastSeen := pc.lastSeen.map some
  keyExpiry := pc.keyExpiry
  keySignature := pc.keySignature.map some
  capMap := pc.capMap.map some

lemma PeerChange.applyTo_eq_set (pc : PeerChange) (n : Node) : pc.applyTo n=pc.assign.set n := by
  have hor {β : Type} (x : Option β) (y : Option β) : x.or y=(x.map some).getD y := by
    cases x <;> rfl
  have hite (r : ℤ) (d : ℤ) : (if r≠0 then r else d)=(if r=0 then none else some r).getD d := by
    by_cases h : r=0 <;> simp [h]
  simp only [applyTo,Assign.set,assign,hite,hor]

/-- The node an ID has once the removals and the changed peers of a response are applied. -/
def MapResponse.base (resp : MapResponse) (P : Peers) (id : NodeID) : Option Node :=
  (forKey Node.id id resp.peersChanged.elems).getLast?.or
    (if id ∈ resp.peersRemoved then none else P.lookup id)

def MapResponse.edit (resp : MapResponse) (clock : Time) (id : NodeID) (n : Node) : Node :=
  let n := (resp.peerSeenChange.lookup id).elim n fun seen => n.setSeen clock seen
  let n := (resp.onlineChange.lookup id).elim n fun v => n.setOnline v
  (forKey PeerChange.nodeID id resp.peersChangedPatch).foldl (fun n pc => pc.applyTo n) n

/-- What OnlineChange and PeerSeenChange assign, in the session's order. -/
def MapResponse.changeAssign (resp : MapResponse) (clock : Time) (id : NodeID) : Assign where
  lastSeen := (resp.peerSeenChange.lookup id).map fun seen => if seen then some clock else none
  online := (resp.onlineChange.lookup id).map some

def MapResponse.patchAssign (resp : MapResponse) (id : NodeID) : Assign :=
  Assign.all ((forKey PeerChange.nodeID id resp.peersChangedPatch).map PeerChange.assign)

lemma MapResponse.edit_eq_set (resp : MapResponse) (clock : Time) (id : NodeID) (n : Node) :
    resp.edit clock id n=((resp.changeAssign clock id).andThen (resp.patchAssign id)).set n := by
  have hchange : ((resp.onlineChange.lookup id).elim
      ((resp.peerSeenChange.lookup id).elim n fun seen => n.setSeen clock seen)
      fun v => ((resp.peerSeenChange.lookup id).elim n fun seen => n.setSeen clock seen).setOnline v)
      = (resp.changeAssign clock id).set n := by
    cases hs : resp.peerSeenChange.lookup id <;> cases ho : resp.onlineChange.lookup id <;>
      simp [changeAssign,hs,ho,Assign.set,Node.setSeen,Node.setOnline]
  rw [edit,hchange,patchAssign,← Assign.set_set,← Assign.foldl_set,foldl_map]
  simp only [PeerChange.applyTo_eq_set]

lemma lookup_foldl_range {ν : Type} (o : MapOrder) (m : GoMap NodeID ν) (f : ν → Node → Node)
    (hf : ∀ v n, (f v n).id=n.id) (s : PeersUpdate) (id : NodeID) :
    ((range o m).foldl (fun s c => s.modify c.1 (f c.2)) s).peers.lookup id
      = (s.peers.lookup id).map fun n => (m.lookup id).elim n fun v => f v n := by
  have hview := foldl_view Prod.fst (fun s : PeersUpdate => s.peers.lookup)
    (fun v c => v.map (f c.2)) (fun s c k => s.lookup_modify c.1 k (hf c.2)) (range o m) s id
  rw [hview,forKey_range,foldl_map_option]
  cases m.lookup id <;> rfl

lemma lookup_applyDelta (o o' : MapOrder) (clock : Time) (s : PeersUpdate) (resp : MapResponse)
    (id : NodeID) : (s.applyDelta o o' clock resp).peers.lookup id
      = (resp.base s.peers id).map (resp.edit clock id) := by
  have hremoved : (resp.peersRemoved.foldl PeersUpdate.remove s).peers.lookup id
      = if id ∈ resp.peersRemoved then none else s.peers.lookup id := by
    have hview := foldl_view (fun j : NodeID => j) (fun s : PeersUpdate => s.peers.lookup)
      (fun _ _ => none) (fun s j k => s.lookup_remove j k) resp.peersRemoved s id
    rw [hview,foldl_const_none]
    by_cases hid : id ∈ resp.peersRemoved
    · rw [if_pos hid,if_neg fun hnil => forKey_eq_nil.mp hnil id hid rfl]
    · have hnil : forKey (fun j : NodeID => j) id resp.peersRemoved=[] :=
        forKey_eq_nil.mpr fun j hj he => hid (he ▸ hj)
      rw [if_neg hid,if_pos hnil]
  have hchanged (s : PeersUpdate) : (resp.peersChanged.elems.foldl PeersUpdate.put s).peers.lookup id
      = (forKey Node.id id resp.peersChanged.elems).getLast?.or (s.peers.lookup id) := by
    have hview := foldl_view Node.id (fun s : PeersUpdate => s.peers.lookup)
      (fun _ n => some n) (fun s n k => s.lookup_put n k) resp.peersChanged.elems s id
    rw [hview,foldl_replace]
  have hpatched (s : PeersUpdate) :
      (resp.peersChangedPatch.foldl (fun s pc => s.modify pc.nodeID pc.applyTo) s).peers.lookup id
      = (s.peers.lookup id).map fun n =>
        (forKey PeerChange.nodeID id resp.peersChangedPatch).foldl (fun n pc => pc.applyTo n) n := by
    have hview := foldl_view PeerChange.nodeID (fun s : PeersUpdate => s.peers.lookup)
      (fun v pc => v.map pc.applyTo) (fun s pc k => s.lookup_modify pc.nodeID k fun _ => rfl) resp.peersChangedPatch s id
    rw [hview,foldl_map_option]
  rw [PeersUpdate.applyDelta,hpatched,lookup_foldl_range o' _ Node.setOnline fun _ _ => rfl,
    lookup_foldl_range o _ (Node.setSeen clock) fun _ _ => rfl,hchanged,hremoved,Option.map_map,
    Option.map_map]
  rfl

lemma lookup_updatePeersState {o o' o'' : MapOrder} {clock : Time} {P : Peers} {resp : MapResponse}
    (h : resp.peers.elems=[]) (id : NodeID) :
    (updatePeersStateFromResponse o o' o'' clock P resp).peers.lookup id
      = (resp.base P id).map (resp.edit clock id) := by
  rw [updatePeersStateFromResponse,if_neg (by rw [h]; exact Nat.lt_irrefl 0)]
  exact lookup_applyDelta ..

end TunnnejiTail.Netmap
