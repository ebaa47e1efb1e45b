import TunnnejiTail.Go.Keyed
import TunnnejiTail.Netmap.Node

/-! The discrete mutations that a map response stands for. -/
namespace TunnnejiTail.Netmap
open Go Netip List Option

inductive NodeMutation
  | derpHome (nodeID : NodeID) (derpRegion : ℤ)
  | endpoints (nodeID : NodeID) (endpoints : Slice AddrPort)
  | online (nodeID : NodeID) (online : Bool)
  | lastSeen (nodeID : NodeID) (lastSeen : Time)
  | upsert (node : Node)
  | remove (nodeID : NodeID)
  deriving DecidableEq

namespace NodeMutation

def nodeIDBeingMutated : NodeMutation → NodeID
  | derpHome id _ => id
  | endpoints id _ => id
  | online id _ => id
  | lastSeen id _ => id
  | upsert n => n.id
  | remove id => id

/-- Apply does nothing for upserts and removals. -/
def apply : NodeMutation → Node → Node
  | derpHome _ region,n => { n with homeDERP := region }
  | endpoints _ eps,n => { n with endpoints := eps }
  | online _ v,n => { n with online := some v }
  | lastSeen _ t,n => { n with lastSeen := some t }
  | upsert _,n => n
  | remove _,n => n

/-- A mutation of a field of a node, as opposed to the insertion or the removal of a node. -/
def perField : NodeMutation → Bool
  | upsert _ => false
  | remove _ => false
  | _ => true

@[simp] lemma apply_id (m : NodeMutation) (n : Node) : (m.apply n).id=n.id := by
  cases m <;> rfl

end NodeMutation

namespace Peers

def act (b : Option Node) : NodeMutation → Option Node
  | .upsert n => some n
  | .remove _ => none
  | m => b.map m.apply

variable {m : NodeMutation}

lemma act_of_perField (h : m.perField=true) (b : Option Node) :
    act b m=b.map m.apply := by
  cases m with
  | upsert n => cases h
  | remove nid => cases h
  | _ => rfl

/-- A mutation of a set of peers. One of a field of a node that is not there does nothing. -/
def mutate (P : Peers) (m : NodeMutation) : Peers :=
  match act (P.lookup m.nodeIDBeingMutated) m with
  | some n => P.put n
  | none => P.delete m.nodeIDBeingMutated

lemma id_of_act {P : Peers} {n : Node}
    (h : act (P.lookup m.nodeIDBeingMutated) m=some n) : n.id=m.nodeIDBeingMutated := by
  have hfield (h : (P.lookup m.nodeIDBeingMutated).map m.apply=some n) :
      n.id=m.nodeIDBeingMutated := by
    obtain ⟨n',hn',rfl⟩ := map_eq_some_iff.mp h
    rw [NodeMutation.apply_id,id_of_lookup hn']
  cases m with
  | upsert n' =>
    cases h
    rfl
  | remove nid => cases h
  | _ => exact hfield h

variable (P : Peers)

lemma lookup_mutate (m : NodeMutation) (id : NodeID) : (P.mutate m).lookup id
      = if m.nodeIDBeingMutated=id then act (P.lookup id) m else P.lookup id := by
  by_cases hid : m.nodeIDBeingMutated=id
  · subst hid
    rw [if_pos rfl,mutate]
    cases h : act (P.lookup m.nodeIDBeingMutated) m with
    | some n => exact (lookup_put ..).trans (if_pos (id_of_act h))
    | none => exact (lookup_delete ..).trans (if_pos rfl)
  · rw [if_neg hid,mutate]
    cases h : act (P.lookup m.nodeIDBeingMutated) m with
    | some n => exact (lookup_put ..).trans (if_neg fun he => hid ((id_of_act h).symm.trans he))
    | none => exact (lookup_delete ..).trans (if_neg hid)

def mutateAll (P : Peers) (muts : List NodeMutation) : Peers := muts.foldl mutate P

lemma lookup_mutateAll (muts : List NodeMutation) (id : NodeID) : (P.mutateAll muts).lookup id
      = (forKey NodeMutation.nodeIDBeingMutated id muts).foldl act (P.lookup id) :=
  foldl_view NodeMutation.nodeIDBeingMutated Peers.lookup act lookup_mutate muts P id

/-- The peers of a netmap, as a set. The later of two with one ID counts. -/
def ofList (l : List Node) : Peers := l.foldl put .empty

lemma lookup_ofList (l : List Node) (id : NodeID) :
    (ofList l).lookup id=(forKey Node.id id l).getLast? := by
  rw [ofList,foldl_view Node.id Peers.lookup (fun _ n => some n) (fun P n k => P.lookup_put n k) l .empty,
    foldl_replace,lookup_empty,or_none]

def list (P : Peers) : List Node := sortStable Node.id ((range .asStored P.nodes).map Prod.snd)

variable (id : NodeID)

lemma forKey_list : forKey Node.id id P.list=(P.lookup id).toList := by
  have hkeyed : ∀ c ∈ range .asStored P.nodes, (Node.id c.2=id ↔ c.1=id) := by
    rintro ⟨j,n⟩ hc
    rw [P.keyed ((mem_range .asStored P.nodes j n).mp hc)]
  have hfor : forKey Node.id id ((range .asStored P.nodes).map Prod.snd)
      = (forKey Prod.fst id (range .asStored P.nodes)).map Prod.snd := by
    rw [forKey,List.filter_map,forKey]
    exact congrArg _ (filter_congr fun c hc => decide_eq_decide.mpr (hkeyed c hc))
  rw [list,forKey_sortStable,hfor,forKey_range,List.map_map]
  exact List.map_id _

@[simp] lemma lookup_ofList_list : (ofList P.list).lookup id=P.lookup id := by
  rw [lookup_ofList,forKey_list]
  cases P.lookup id <;> rfl

lemma lookup_ofList_filter (q : Node → Bool) :
    (ofList (P.list.filter q)).lookup id=(P.lookup id).filter q := by
  have hfor : forKey Node.id id (P.list.filter q)=(forKey Node.id id P.list).filter q := by
    rw [forKey,forKey,filter_comm]
  rw [lookup_ofList,hfor,forKey_list]
  cases P.lookup id with
  | none => rfl
  | some n => cases hq : q n <;> simp [hq,Option.filter]

end Peers

/-- The fields of PeerChange in the order of the struct. -/
inductive PeerChangeField
  | nodeID
  | derpRegion
  | cap
  | capMap
  | endpoints
  | key
  | keySignature
  | discoKey
  | online
  | lastSeen
  | keyExpiry
  deriving DecidableEq

def peerChangeFields : List PeerChangeField :=
  [.nodeID,.derpRegion,.cap,.capMap,.endpoints,.key,.keySignature,.discoKey,.online,.lastSeen,.keyExpiry]

namespace PeerChange

def isZero (p : PeerChange) : PeerChangeField → Bool
  | .nodeID => p.nodeID=0
  | .derpRegion => p.derpRegion=0
  | .cap => p.cap=0
  | .capMap => p.capMap.isNone
  | .endpoints => p.endpoints.isNone
  | .key => p.key.isNone
  | .keySignature => p.keySignature.isNone
  | .discoKey => p.discoKey.isNone
  | .online => p.online.isNone
  | .lastSeen => p.lastSeen.isNone
  | .keyExpiry => p.keyExpiry.isNone

/-- The mutations for one field that is set; none for a field without a mutation type. -/
def ofField (p : PeerChange) : PeerChangeField → Option (List NodeMutation)
  | .nodeID => some []
  | .derpRegion => some [.derpHome p.nodeID p.derpRegion]
  | .endpoints => some [.endpoints p.nodeID p.endpoints]
  | .online => some (p.online.toList.map (.online p.nodeID))
  | .lastSeen => some (p.lastSeen.toList.map (.lastSeen p.nodeID))
  | _ => none

end PeerChange

def PeerChange.appendField (p : PeerChange) (ret : List NodeMutation) (f : PeerChangeField) :
    Option (List NodeMutation) :=
  if p.isZero f then some ret else (p.ofField f).map (ret++·)

def nodeMutationsFromPatch (p : PeerChange) : Option (List NodeMutation) :=
  if p.nodeID=0 then none else peerChangeFields.foldlM p.appendField []

def mapResponseContainsNonPatchFields (res : MapResponse) : Bool :=
  res.node.isSome || res.derpMap || res.dnsConfig || !res.domain.isEmpty ||
  !res.collectServices.isEmpty || res.health || res.displayMessages || res.sshPolicy ||
  res.tkaInfo || !res.domainDataPlaneAuditLogID.isEmpty || res.debug || res.controlDialPlan ||
  res.clientVersion || res.peers.isSome || !res.deprecatedDefaultAutoUpdate.isEmpty

/-- The mutations of a response before they are sorted, given those of its patches. -/
def unsortedMutations (o o' : MapOrder) (res : MapResponse) (now : Time)
    (patches : List (List NodeMutation)) : List NodeMutation :=
  res.peersRemoved.map .remove++res.peersChanged.elems.map .upsert++patches.flatten ++
  (range o res.onlineChange).map (fun c => .online c.1 c.2) ++
  ((range o' res.peerSeenChange).filter fun c => c.2).map fun c => .lastSeen c.1 now

def mutationsFromMapResponse (o o' : MapOrder) (clock : Time) (res : MapResponse) (now : Time) :
    Option (List NodeMutation) :=
  let now := if now=0 then clock else now
  if mapResponseContainsNonPatchFields res then none
  else (res.peersChangedPatch.mapM nodeMutationsFromPatch).map fun patches =>
    sortStable NodeMutation.nodeIDBeingMutated (unsortedMutations o o' res now patches)

namespace PeerChange

/-- Only the fields that have a mutation type are set. -/
structure Supported (p : PeerChange) : Prop where
  nodeID : p.nodeID≠0
  cap : p.cap=0
  capMap : p.capMap=none
  key : p.key=none
  keySignature : p.keySignature=none
  discoKey : p.discoKey=none
  keyExpiry : p.keyExpiry=none

def mutations (p : PeerChange) : List NodeMutation :=
  (if p.derpRegion=0 then [] else [.derpHome p.nodeID p.derpRegion]) ++
  (if p.endpoints=none then [] else [.endpoints p.nodeID p.endpoints]) ++
  p.online.toList.map (.online p.nodeID)++p.lastSeen.toList.map (.lastSeen p.nodeID)

lemma forall_mem_mutations {p : PeerChange} {m : NodeMutation} (h : m ∈ p.mutations) :
    m.nodeIDBeingMutated=p.nodeID ∧ m.perField=true := by
  simp only [mutations,List.mem_append,List.mem_map] at h
  rcases h with ((h | h) | ⟨v,-,rfl⟩) | ⟨t,-,rfl⟩
  · split at h
    · cases h
    · cases mem_singleton.mp h
      exact ⟨rfl,rfl⟩
  · split at h
    · cases h
    · cases mem_singleton.mp h
      exact ⟨rfl,rfl⟩
  · exact ⟨rfl,rfl⟩
  · exact ⟨rfl,rfl⟩

end PeerChange

variable {p : PeerChange}

lemma PeerChange.isZero_or_ofField {l : List PeerChangeField}
    {ret ms : List NodeMutation} (h : l.foldlM p.appendField ret=some ms) :
    ∀ f ∈ l, p.isZero f=true ∨ (p.ofField f).isSome=true := by
  induction l generalizing ret with
  | nil => exact fun f hf => absurd hf not_mem_nil
  | cons f l ih =>
    rw [foldlM_cons] at h
    obtain ⟨ret',hf,hl⟩ := bind_eq_some_iff.mp h
    intro g hg
    rcases mem_cons.mp hg with rfl | hg
    · rw [appendField] at hf
      by_cases hz : p.isZero g=true
      · exact .inl hz
      · rw [if_neg hz] at hf
        obtain ⟨ms',hms,-⟩ := map_eq_some_iff.mp hf
        exact .inr (by rw [hms]; rfl)
    · exact ih hl g hg

lemma PeerChange.Supported.foldlM_fields (h : p.Supported) :
    peerChangeFields.foldlM p.appendField []=some p.mutations := by
  obtain ⟨id,derp,cap,capMap,eps,key,sig,disco,online,seen,expiry⟩ := p
  obtain ⟨hid,hcap,hcapMap,hkey,hsig,hdisco,hexpiry⟩ := h
  subst hcap hcapMap hkey hsig hdisco hexpiry
  by_cases hd : derp=0 <;> cases eps <;> cases online <;> cases seen <;>
    simp [peerChangeFields,appendField,isZero,ofField,mutations,hid,hd]

lemma of_nodeMutationsFromPatch {ms : List NodeMutation} (h : nodeMutationsFromPatch p=some ms) :
    p.Supported ∧ ms=p.mutations := by
  rw [nodeMutationsFromPatch] at h
  by_cases hid : p.nodeID=0
  · rw [if_pos hid] at h
    cases h
  · rw [if_neg hid] at h
    have hf := PeerChange.isZero_or_ofField h
    have hs : p.Supported := by
      constructor
      · exact hid
      · simpa [PeerChange.isZero,PeerChange.ofField] using hf .cap (by decide)
      · simpa [PeerChange.isZero,PeerChange.ofField] using hf .capMap (by decide)
      · simpa [PeerChange.isZero,PeerChange.ofField] using hf .key (by decide)
      · simpa [PeerChange.isZero,PeerChange.ofField] using hf .keySignature (by decide)
      · simpa [PeerChange.isZero,PeerChange.ofField] using hf .discoKey (by decide)
      · simpa [PeerChange.isZero,PeerChange.ofField] using hf .keyExpiry (by decide)
    exact ⟨hs,Option.some.inj (h.symm.trans hs.foldlM_fields)⟩

def MapResponse.membership (res : MapResponse) (id : NodeID) : List NodeMutation :=
  (res.peersRemoved.filter fun j => j=id).map .remove ++
  (forKey Node.id id res.peersChanged.elems).map .upsert

def MapResponse.fieldMutations (res : MapResponse) (now : Time) (id : NodeID) : List NodeMutation :=
  (forKey PeerChange.nodeID id res.peersChangedPatch).flatMap PeerChange.mutations ++
  (res.onlineChange.lookup id).toList.map (.online id) ++
  if res.peerSeenChange.lookup id=some true then [.lastSeen id now] else []

namespace MapResponse
variable {res : MapResponse} {now : Time} {id : NodeID} {m : NodeMutation}

lemma perField_of_mem_membership (h : m ∈ res.membership id) : m.perField=false := by
  simp only [membership,List.mem_append,List.mem_map] at h
  rcases h with ⟨j,-,rfl⟩ | ⟨n,-,rfl⟩ <;> rfl

lemma perField_of_mem_fieldMutations (h : m ∈ res.fieldMutations now id) : m.perField=true := by
  simp only [fieldMutations,List.mem_append,List.mem_flatMap,List.mem_map] at h
  rcases h with (⟨p,-,hm⟩ | ⟨v,-,rfl⟩) | h
  · exact (PeerChange.forall_mem_mutations hm).2
  · rfl
  · split at h
    · cases mem_singleton.mp h
      rfl
    · cases h

end MapResponse

lemma forKey_flatMap_mutations (ps : List PeerChange) (id : NodeID) :
    forKey NodeMutation.nodeIDBeingMutated id (ps.flatMap PeerChange.mutations)
      = (forKey PeerChange.nodeID id ps).flatMap PeerChange.mutations := by
  induction ps with
  | nil => rfl
  | cons p ps ih =>
    rw [flatMap_cons,forKey_append,ih,forKey_cons]
    by_cases hp : p.nodeID=id
    · rw [if_pos hp,flatMap_cons,forKey_eq_self]
      exact fun m hm => (PeerChange.forall_mem_mutations hm).1.trans hp
    · have hnil : forKey NodeMutation.nodeIDBeingMutated id p.mutations=[] :=
        forKey_eq_nil.mpr fun m hm he => hp ((PeerChange.forall_mem_mutations hm).1.symm.trans he)
      rw [if_neg hp,hnil,nil_append]

lemma forKey_unsortedMutations (o o' : MapOrder) (res : MapResponse) (now : Time) (id : NodeID) :
    forKey NodeMutation.nodeIDBeingMutated id
        (unsortedMutations o o' res now (res.peersChangedPatch.map PeerChange.mutations))
      = res.membership id++res.fieldMutations now id := by
  have hseen : forKey NodeMutation.nodeIDBeingMutated id
      (((range o' res.peerSeenChange).filter fun c => c.2).map fun c => .lastSeen c.1 now)
      = if res.peerSeenChange.lookup id=some true then [.lastSeen id now] else [] := by
    have hcomm : forKey Prod.fst id ((range o' res.peerSeenChange).filter fun c => c.2)
        = (forKey Prod.fst id (range o' res.peerSeenChange)).filter fun c => c.2 :=
      filter_comm ..
    have hmap : forKey NodeMutation.nodeIDBeingMutated id
        (((range o' res.peerSeenChange).filter fun c => c.2).map fun c => .lastSeen c.1 now)
        = (forKey Prod.fst id ((range o' res.peerSeenChange).filter fun c => c.2)).map
          fun c => .lastSeen c.1 now := List.filter_map ..
    rw [hmap,hcomm,forKey_range]
    rcases res.peerSeenChange.lookup id with _ | _ | _ <;> simp
  have honline : forKey NodeMutation.nodeIDBeingMutated id
      ((range o res.onlineChange).map fun c => .online c.1 c.2)
      = (res.onlineChange.lookup id).toList.map (.online id) := by
    have hmap : forKey NodeMutation.nodeIDBeingMutated id
        ((range o res.onlineChange).map fun c => .online c.1 c.2)
        = (forKey Prod.fst id (range o res.onlineChange)).map fun c => .online c.1 c.2 :=
      List.filter_map ..
    rw [hmap,forKey_range,List.map_map]
    rfl
  have hremoved : forKey NodeMutation.nodeIDBeingMutated id (res.peersRemoved.map .remove)
      = (res.peersRemoved.filter fun j => j=id).map .remove := List.filter_map ..
  have hchanged : forKey NodeMutation.nodeIDBeingMutated id (res.peersChanged.elems.map .upsert)
      = (forKey Node.id id res.peersChanged.elems).map .upsert := List.filter_map ..
  rw [unsortedMutations,← flatMap_def]
  simp only [forKey_append,hremoved,hchanged,forKey_flatMap_mutations,honline,hseen,
    MapResponse.membership,MapResponse.fieldMutations,append_assoc]

lemma mapM_nodeMutationsFromPatch {ps : List PeerChange} {patches : List (List NodeMutation)}
    (h : ps.mapM nodeMutationsFromPatch=some patches) :
    (∀ p ∈ ps, p.Supported) ∧ patches=ps.map PeerChange.mutations := by
  induction ps generalizing patches with
  | nil =>
    cases h
    exact ⟨fun p hp => absurd hp not_mem_nil,rfl⟩
  | cons p ps ih =>
    rw [mapM_cons] at h
    obtain ⟨ms,hms,h⟩ := bind_eq_some_iff.mp h
    obtain ⟨rest,hrest,h⟩ := bind_eq_some_iff.mp h
    cases h
    obtain ⟨hs,rfl⟩ := of_nodeMutationsFromPatch hms
    obtain ⟨hall,rfl⟩ := ih hrest
    exact ⟨forall_mem_cons.mpr ⟨hs,hall⟩,rfl⟩

lemma mutationsFromMapResponse_eq_some {o o' : MapOrder} {clock now : Time} {res : MapResponse}
    {muts : List NodeMutation} (h : mutationsFromMapResponse o o' clock res now=some muts) :
    res.peers=none ∧ (∀ p ∈ res.peersChangedPatch, p.Supported) ∧
      muts=sortStable NodeMutation.nodeIDBeingMutated (unsortedMutations o o' res
        (if now=0 then clock else now) (res.peersChangedPatch.map PeerChange.mutations)) := by
  rw [mutationsFromMapResponse] at h
  by_cases hn : mapResponseContainsNonPatchFields res=true
  · rw [if_pos hn] at h
    cases h
  rw [if_neg hn] at h
  obtain ⟨patches,hp,rfl⟩ := map_eq_some_iff.mp h
  have hpeers : res.peers=none := by
    simp only [mapResponseContainsNonPatchFields,Bool.or_eq_true,not_or] at hn
    simpa using hn.1.2
  obtain ⟨hs,rfl⟩ := mapM_nodeMutationsFromPatch hp
  exact ⟨hpeers,hs,rfl⟩

end TunnnejiTail.Netmap
