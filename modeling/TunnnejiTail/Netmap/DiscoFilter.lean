import TunnnejiTail.Netmap.Patchify

/-! What a map session does about the disco key of a peer that it has heard of since. A patch with such a
key is rejected as a whole; in a full peer list the key and LastSeen are those of the session. -/
namespace TunnnejiTail.Netmap
open Go TunnnejiTail.Types List Assign MapResponse

/-- A response of the control server, or a disco key learnt over TSMP. -/
inductive Update
  | control (resp : MapResponse)
  | tsmp (id : NodeID) (key : NodePublic) (discoKey : DiscoPublic) (lastSeen : Time) (online : Bool)

namespace Update

/-- The response that updateDiscoForNode makes of a key. -/
def response : Update → MapResponse
  | control resp => resp
  | tsmp id key discoKey lastSeen online =>
    { peersChangedPatch := [{
        nodeID := id
        key := some key
        lastSeen := some lastSeen
        online := some online
        discoKey := some discoKey }] }

def viaTSMP : Update → Bool
  | control _ => false
  | tsmp .. => true

end Update

namespace Peers
variable (P : Peers) (viaTSMP : Bool)

def known (existing : Node) (discoKey : DiscoPublic) : Bool :=
  viaTSMP && existing.online.getD false && discoKey=existing.discoKey

/-- Whether removeUnwantedDiscoUpdates accepts a change. -/
def accepts (change : PeerChange) : Bool :=
  match change.discoKey,change.online,change.lastSeen with
  | some discoKey,some online,some lastSeen =>
    match P.lookup change.nodeID with
    | none => true
    | some existing =>
      if known viaTSMP existing discoKey then false
      else if online then true
      else existing.lastSeen.all fun t => t<lastSeen
  | _,_,_ => true

def removeUnwantedDiscoUpdates (resp : MapResponse) : MapResponse :=
  { resp with peersChangedPatch := filterInPlace (P.accepts viaTSMP) resp.peersChangedPatch }

/-- The disco key and LastSeen of the session that a full peer list is to keep. -/
def newer (peer : Node) : Option (DiscoPublic × Time) :=
  if peer.discoKey.isZero then none
  else match P.lookup peer.id with
    | none => none
    | some existing =>
      if existing.discoKey=peer.discoKey then none
      else if peer.online=some true then none
      else match existing.lastSeen with
        | none => none
        | some t => if peer.lastSeen.any (t < ·) then none else some (existing.discoKey,t)

def keepNewer (peer : Node) : Node :=
  match P.newer peer with
  | some (discoKey,t) => { peer with discoKey := discoKey,lastSeen := some t }
  | none => peer

def removeUnwantedDiscoUpdatesFromFullNetmapUpdate (resp : MapResponse) : MapResponse :=
  { resp with peers := resp.peers.map fun l => l.map P.keepNewer }

def filtered (resp : MapResponse) : MapResponse :=
  P.removeUnwantedDiscoUpdatesFromFullNetmapUpdate (P.removeUnwantedDiscoUpdates viaTSMP resp)

@[simp] lemma legacyDERPString_keepNewer (peer : Node) :
    (P.keepNewer peer).legacyDERPString=peer.legacyDERPString := by
  rw [keepNewer]
  split <;> rfl

@[simp] lemma id_keepNewer (peer : Node) : (P.keepNewer peer).id=peer.id := by
  rw [keepNewer]
  split <;> rfl

lemma peers_filtered (resp : MapResponse) :
    (P.filtered viaTSMP resp).peers.elems=resp.peers.elems.map P.keepNewer := by
  change Slice.elems (resp.peers.map _)=_
  cases resp.peers <;> rfl

lemma patches_filtered (resp : MapResponse) :
    (P.filtered viaTSMP resp).peersChangedPatch=resp.peersChangedPatch.filter (P.accepts viaTSMP) :=
  filterInPlace_eq ..

end Peers

namespace SessionPeers
variable (o o' o'' : MapOrder) (clock : Time) (S : SessionPeers) (u : Update)

def patched : MapResponse := S.peers.patchified u.response.upgrade

lemma patchifyPeersChanged_patched : patchifyPeersChanged S.peers u.response.upgrade=.ok (S.patched u) :=
  patchifyPeersChanged_ok S.upgraded fun _ => u.response.upgraded_peersChanged

lemma upgraded_filtered {resp : MapResponse} (h : patchifyPeersChanged S.peers u.response.upgrade=.ok resp)
    {id : NodeID} {n : Node} (hn : (updatePeersStateFromResponse o o' o'' clock S.peers
      (S.peers.filtered u.viaTSMP resp)).peers.lookup id=some n) : n.legacyDERPString=[] := by
  obtain rfl := Except.ok.inj ((S.patchifyPeersChanged_patched u).symm.trans h)
  refine upgraded_update S.upgraded (fun m hm => ?_) (fun m hm => ?_) o o' o'' clock hn
  · change m ∈ (S.peers.patchified u.response.upgrade).peersChanged.elems at hm
    rw [Peers.peersChanged_patchified] at hm
    exact u.response.upgraded_peersChanged (mem_of_mem_filter hm)
  · rw [Peers.peers_filtered] at hm
    obtain ⟨peer,hpeer,rfl⟩ := mem_map.mp hm
    rw [Peers.legacyDERPString_keepNewer]
    exact u.response.upgraded_peers hpeer

/-- The peers in handleNonKeepAliveMapResponse. -/
def handleUpdate : Except Fault SessionPeers :=
  match h : patchifyPeersChanged S.peers u.response.upgrade with
  | .ok resp =>
    if u.viaTSMP && (S.peers.removeUnwantedDiscoUpdates u.viaTSMP resp).peersChangedPatch.length=0 then .ok S
    else .ok
      { peers := (updatePeersStateFromResponse o o' o'' clock S.peers (S.peers.filtered u.viaTSMP resp)).peers
        upgraded := S.upgraded_filtered o o' o'' clock u h }
  | .error e => .error e

/-- An update never panics, and the peers after it are those of the filtered response, also when it is not
applied because nothing is left of it. -/
theorem handleUpdate_spec : ∃ S', S.handleUpdate o o' o'' clock u=.ok S' ∧ ∀ id, S'.peers.lookup id =
    (updatePeersStateFromResponse o o' o'' clock S.peers (S.peers.filtered u.viaTSMP (S.patched u))).peers.lookup id := by
  rw [handleUpdate]
  split
  case h_2 e he => cases he.symm.trans (S.patchifyPeersChanged_patched u)
  case h_1 resp h =>
    obtain rfl := Except.ok.inj ((S.patchifyPeersChanged_patched u).symm.trans h)
    split
    case isFalse => exact ⟨_,rfl,fun _ => rfl⟩
    case isTrue hdrop =>
      refine ⟨S,rfl,fun id => ?_⟩
      cases u with
      | control resp => cases hdrop
      | tsmp id' key discoKey lastSeen online =>
        have hpatch : (S.peers.filtered true (S.patched (.tsmp id' key discoKey lastSeen online))).peersChangedPatch=[] :=
          length_eq_zero_iff.mp (of_decide_eq_true (Bool.and_eq_true_iff.mp hdrop).2)
        have hedit (n : Node) :
            (S.peers.filtered true (S.patched (.tsmp id' key discoKey lastSeen online))).edit clock id n=n := by
          rw [MapResponse.edit,hpatch]
          rfl
        rw [lookup_updatePeersState (Peers.peers_filtered ..)]
        rw [Update.viaTSMP,funext hedit]
        exact Option.map_id'.symm

end SessionPeers

namespace Peers
variable (P : Peers) (viaTSMP : Bool)

/-- A change without its disco key if that is outdated. A key over TSMP that the peer has already is not a
change. -/
def strip (change : PeerChange) : Option PeerChange :=
  if P.accepts viaTSMP change then some change
  else if change.discoKey.any fun k => (P.lookup change.nodeID).any fun existing => known viaTSMP existing k then none
  else some { change with discoKey := none }

/-- A peer of a full list without its disco key if that is outdated. -/
def keepKey (peer : Node) : Node :=
  match P.newer peer with
  | some (discoKey,t) => { peer with discoKey := discoKey,lastSeen := peer.lastSeen.or (some t) }
  | none => peer

def stripped (resp : MapResponse) : MapResponse :=
  { resp with
    peers := resp.peers.map fun l => l.map P.keepKey
    peersChangedPatch := resp.peersChangedPatch.filterMap (P.strip viaTSMP) }

/-- The patches of a node that are applied, and what all of them say but for outdated disco keys. -/
def acceptedAssign (ps : List PeerChange) : Assign := .all ((ps.filter (P.accepts viaTSMP)).map PeerChange.assign)

def strippedAssign (ps : List PeerChange) : Assign := .all ((ps.filterMap (P.strip viaTSMP)).map PeerChange.assign)

end Peers

/-- The values that all patches give to a node are those of the accepted ones, or the node's own. -/
@[mk_iff] structure Assign.Given (accepted all : Assign) (n : Node) : Prop where
  key : ∀ v ∈ all.key, accepted.key.getD n.key=v
  keyExpiry : ∀ v ∈ all.keyExpiry, accepted.keyExpiry.getD n.keyExpiry=v
  keySignature : ∀ v ∈ all.keySignature, accepted.keySignature.getD n.keySignature=v
  endpoints : ∀ v ∈ all.endpoints, accepted.endpoints.getD n.endpoints=v
  homeDERP : ∀ v ∈ all.homeDERP, accepted.homeDERP.getD n.homeDERP=v
  cap : ∀ v ∈ all.cap, accepted.cap.getD n.cap=v
  lastSeen : ∀ v ∈ all.lastSeen, accepted.lastSeen.getD n.lastSeen=v
  online : ∀ v ∈ all.online, accepted.online.getD n.online=v
  capMap : ∀ v ∈ all.capMap, accepted.capMap.getD n.capMap=v

section
variable (P : Peers) (viaTSMP : Bool) (ps : List PeerChange)

lemma accepted_component {β : Type} (f : Assign → Option β) (h0 : f {} = none)
    (hf : ∀ a b, f (andThen a b)=(f b).or (f a)) (h : f (P.strippedAssign viaTSMP ps)=none) :
    f (P.acceptedAssign viaTSMP ps)=none := by
  rw [Peers.acceptedAssign,all_component f hf h0,getLast?_eq_none_iff] at *
  rw [Peers.strippedAssign,all_component f hf h0,getLast?_eq_none_iff] at h
  simp only [filterMap_eq_nil_iff,mem_map,mem_filterMap,mem_filter,forall_exists_index,and_imp] at h ⊢
  rintro a c hc haccepts rfl
  exact h _ c c hc (by rw [Peers.strip,if_pos haccepts]) rfl

lemma discoKey_stripped : (P.strippedAssign viaTSMP ps).discoKey=(P.acceptedAssign viaTSMP ps).discoKey := by
  rw [Peers.acceptedAssign,Peers.strippedAssign,all_component Assign.discoKey (fun _ _ => rfl) rfl,
    all_component Assign.discoKey (fun _ _ => rfl) rfl]
  rw [filterMap_map,filterMap_map,filterMap_filterMap,filterMap_filter]
  refine congrArg List.getLast? (filterMap_congr fun c _ => ?_)
  rw [Peers.strip]
  cases P.accepts viaTSMP c
  · simp only [Bool.false_eq_true,↓reduceIte]
    split <;> rfl
  · rfl

lemma accepted_set_iff (n : Node) : (P.acceptedAssign viaTSMP ps).set n=(P.strippedAssign viaTSMP ps).set n ↔
    (P.acceptedAssign viaTSMP ps).Given (P.strippedAssign viaTSMP ps) n := by
  have hfield {β : Type} (f : Assign → Option β) (h0 : f {} = none)
      (hf : ∀ a b, f (andThen a b)=(f b).or (f a)) (v : β) :
      (f (P.acceptedAssign viaTSMP ps)).getD v=(f (P.strippedAssign viaTSMP ps)).getD v ↔
        ∀ x ∈ f (P.strippedAssign viaTSMP ps), (f (P.acceptedAssign viaTSMP ps)).getD v=x := by
    cases h : f (P.strippedAssign viaTSMP ps) with
    | none => simp [accepted_component P viaTSMP ps f h0 hf h]
    | some x => simp
  rw [given_iff,← hfield Assign.key rfl fun _ _ => rfl, ← hfield Assign.keyExpiry rfl fun _ _ => rfl,
    ← hfield Assign.keySignature rfl fun _ _ => rfl,
    ← hfield Assign.endpoints rfl fun _ _ => rfl,
    ← hfield Assign.homeDERP rfl fun _ _ => rfl,
    ← hfield Assign.cap rfl fun _ _ => rfl,
    ← hfield Assign.lastSeen rfl fun _ _ => rfl,
    ← hfield Assign.online rfl fun _ _ => rfl,
    ← hfield Assign.capMap rfl fun _ _ => rfl]
  simp only [Assign.set,Node.mk.injEq,true_and,and_true,discoKey_stripped]

end

/-- In a full list, LastSeen of a peer with an outdated key is the session's; otherwise the values that the
patches of each node give are those of the accepted ones, or what the node has without the patches. -/
def SessionPeers.Spares (S : SessionPeers) (clock : Time) (u : Update) : Prop :=
  if 0<(S.patched u).peers.elems.length then
    ∀ id, ∀ peer ∈ (forKey Node.id id (S.patched u).peers.elems).getLast?, ∀ x ∈ S.peers.newer peer,
      ∀ t ∈ peer.lastSeen, t=x.2
  else ∀ id n, (S.patched u).base S.peers id=some n →
    (S.peers.acceptedAssign u.viaTSMP (forKey PeerChange.nodeID id (S.patched u).peersChangedPatch)).Given
      (S.peers.strippedAssign u.viaTSMP (forKey PeerChange.nodeID id (S.patched u).peersChangedPatch))
      (((S.patched u).changeAssign clock id).set n)

section
variable (P : Peers) (viaTSMP : Bool)

lemma keepNewer_eq_iff (peer : Node) :
    P.keepNewer peer=P.keepKey peer ↔ ∀ x ∈ P.newer peer, ∀ t ∈ peer.lastSeen, t=x.2 := by
  rw [Peers.keepNewer,Peers.keepKey]
  cases P.newer peer with
  | none => simp
  | some x => cases peer.lastSeen <;> simp [eq_comm]

lemma id_keepKey (peer : Node) : (P.keepKey peer).id=peer.id := by
  rw [Peers.keepKey]
  split <;> rfl

lemma nodeID_strip {c c' : PeerChange} (h : P.strip viaTSMP c=some c') : c'.nodeID=c.nodeID := by
  rw [Peers.strip] at h
  split at h
  · cases h
    rfl
  · split at h
    · cases h
    · cases h
      rfl

end

/-- An update loses nothing but outdated disco keys exactly when it spares the rest. -/
theorem handleUpdate_spares_iff (o o' o'' : MapOrder) (clock : Time) (S : SessionPeers) (u : Update) :
    ∃ S', S.handleUpdate o o' o'' clock u=.ok S' ∧
      ((∀ id, S'.peers.lookup id=(updatePeersStateFromResponse o o' o'' clock S.peers
        (S.peers.stripped u.viaTSMP (S.patched u))).peers.lookup id) ↔ S.Spares clock u) := by
  obtain ⟨S',hS',hlookup⟩ := S.handleUpdate_spec o o' o'' clock u
  refine ⟨S',hS',?_⟩
  simp only [hlookup]
  have hpeers : (S.peers.stripped u.viaTSMP (S.patched u)).peers.elems=(S.patched u).peers.elems.map S.peers.keepKey := by
    change Slice.elems ((S.patched u).peers.map _)=_
    cases (S.patched u).peers <;> rfl
  rw [SessionPeers.Spares]
  split
  case isTrue hfull =>
    refine forall_congr' fun id => ?_
    rw [updatePeersStateFromResponse,updatePeersStateFromResponse,Peers.peers_filtered,hpeers,length_map,
      length_map,if_pos hfull,if_pos hfull,lookup_replaceAll,lookup_replaceAll,
      forKey_map fun n _ => S.peers.id_keepNewer n,
      forKey_map fun n _ => id_keepKey S.peers n,List.getLast?_map,List.getLast?_map]
    cases (forKey Node.id id (S.patched u).peers.elems).getLast? with
    | none => simp
    | some peer => simpa using keepNewer_eq_iff S.peers peer
  case isFalse hdelta =>
    have hnil : (S.patched u).peers.elems=[] := eq_nil_of_length_eq_zero (Nat.eq_zero_of_not_pos hdelta)
    refine forall_congr' fun id => ?_
    rw [lookup_updatePeersState (by rw [Peers.peers_filtered,hnil]; rfl),
      lookup_updatePeersState (by rw [hpeers,hnil]; rfl)]
    change ((S.patched u).base S.peers id).map _=((S.patched u).base S.peers id).map _ ↔ _
    cases (S.patched u).base S.peers id with
    | none => simp
    | some n =>
      simp only [Option.map_some,Option.some.injEq,forall_eq']
      rw [edit_eq_set,edit_eq_set,← Assign.set_set,← Assign.set_set,← accepted_set_iff]
      have haccepted : (S.peers.filtered u.viaTSMP (S.patched u)).patchAssign id =
          S.peers.acceptedAssign u.viaTSMP (forKey PeerChange.nodeID id (S.patched u).peersChangedPatch) := by
        rw [patchAssign,Peers.patches_filtered,Peers.acceptedAssign,forKey,forKey,filter_comm]
      have hstripped : (S.peers.stripped u.viaTSMP (S.patched u)).patchAssign id =
          S.peers.strippedAssign u.viaTSMP (forKey PeerChange.nodeID id (S.patched u).peersChangedPatch) := by
        rw [patchAssign,Peers.strippedAssign,← forKey_filterMap fun c _ c' h => nodeID_strip S.peers u.viaTSMP h]
        rfl
      rw [haccepted,hstripped]
      rfl

/-- The new home DERP region of a peer is dropped together with an outdated disco key. -/
theorem handleUpdate_drops_home :
    let S := SessionPeers.ofPeer { Node.zero with id := 1,homeDERP := 5,lastSeen := some 100 } rfl
    let u := Update.control { peersChangedPatch := [{
      nodeID := 1,derpRegion := 7,discoKey := some (.fill 2),online := some false,lastSeen := some 50 }] }
    ((S.handleUpdate .asStored .asStored .asStored 0 u).toOption.bind fun S' =>
        (S'.peers.lookup 1).map Node.homeDERP)=some 5 ∧
      ((updatePeersStateFromResponse .asStored .asStored .asStored 0 S.peers
        (S.peers.stripped u.viaTSMP (S.patched u))).peers.lookup 1).map Node.homeDERP=some 7 := by
  decide +kernel

end TunnnejiTail.Netmap
