import TunnnejiTail.Netmap.MapSession
import TunnnejiTail.Netmap.NodeBackend

/-! One response is read twice: the session applies it to its own peers, and the backend applies
the mutations made from it. Here is when the two end with the same peers. -/
namespace TunnnejiTail.Netmap
open Go NodeBackend List Option Assign NodeMutation

def PeerChange.newDERP (p : PeerChange) : Option ℤ :=
  if p.derpRegion=0 then none else some p.derpRegion

namespace MapResponse

def patched {β : Type} (res : MapResponse) (f : PeerChange → Option β) (id : NodeID) : Option β :=
  ((forKey PeerChange.nodeID id res.peersChangedPatch).filterMap f).getLast?

/-- Some patch of the node sets something, or it is said to be online, offline or seen now. -/
def Touches (res : MapResponse) (id : NodeID) : Prop :=
  (∃ p ∈ res.peersChangedPatch, p.nodeID=id ∧ (p.derpRegion≠0 ∨ p.endpoints≠none ∨ p.online≠none ∨ p.lastSeen≠none)) ∨
  res.onlineChange.lookup id≠none ∨ res.peerSeenChange.lookup id=some true

/-- The maps of a response do not say something else of a node than its patches do, and no node
that has a time is said to be gone. -/
structure Agrees (res : MapResponse) (clock : Time) (id : NodeID) (n : Node) : Prop where
  online : ∀ v w, res.onlineChange.lookup id=some v → res.patched PeerChange.online id=some w → w=v
  seen : ∀ t, res.peerSeenChange.lookup id=some true → res.patched PeerChange.lastSeen id=some t → t=clock
  gone : res.peerSeenChange.lookup id=some false → res.patched PeerChange.lastSeen id=none → n.lastSeen=none

/-- What a response says of a node: its patches, else the two maps, else nothing. -/
def outcome (res : MapResponse) (clock : Time) (id : NodeID) (n : Node) : Node :=
  { n with
    homeDERP := (res.patched PeerChange.newDERP id).getD n.homeDERP
    endpoints := (res.patched PeerChange.endpoints id).or n.endpoints
    online := (res.patched PeerChange.online id).or ((res.onlineChange.lookup id).or n.online)
    lastSeen := match res.patched PeerChange.lastSeen id,res.peerSeenChange.lookup id with
      | some t,_ => some t
      | none,some true => some clock
      | none,some false => none
      | none,none => n.lastSeen }

end MapResponse

lemma PeerChange.Supported.foldl_mutations {p : PeerChange} (h : p.Supported) (n : Node) :
    p.mutations.foldl (fun n m => m.apply n) n=p.assign.set n := by
  obtain ⟨id,derp,cap,capMap,eps,key,sig,disco,online,seen,expiry⟩ := p
  obtain ⟨-,hcap,hcapMap,hkey,hsig,hdisco,hexpiry⟩ := h
  subst hcap hcapMap hkey hsig hdisco hexpiry
  by_cases hd : derp=0 <;> cases eps <;> cases online <;> cases seen <;>
    simp [mutations,assign,hd,apply,Assign.set]

section
variable {res : MapResponse} {clock : Time} {id : NodeID}

lemma MapResponse.patchAssign_component {β γ : Type} (f : Assign → Option β) (g : PeerChange → Option γ)
    (h : γ → β) (h0 : f {} = none) (hf : ∀ a b, f (andThen a b)=(f b).or (f a))
    (hg : ∀ p : PeerChange, f p.assign=(g p).map h) : f (res.patchAssign id)=(res.patched g id).map h := by
  rw [patchAssign,all_component f hf h0,filterMap_map,patched,← getLast?_map, map_filterMap]
  congr 2
  funext p
  exact hg p

lemma MapResponse.patchAssign_homeDERP :
    (res.patchAssign id).homeDERP=res.patched PeerChange.newDERP id := by
  rw [patchAssign_component Assign.homeDERP PeerChange.newDERP (fun r => r) rfl (fun _ _ => rfl)
    fun p => Option.map_id'.symm,Option.map_id']

lemma MapResponse.patchAssign_endpoints :
    (res.patchAssign id).endpoints=(res.patched PeerChange.endpoints id).map some :=
  patchAssign_component Assign.endpoints _ some rfl (fun _ _ => rfl) fun _ => rfl

lemma MapResponse.patchAssign_online :
    (res.patchAssign id).online=(res.patched PeerChange.online id).map some :=
  patchAssign_component Assign.online _ some rfl (fun _ _ => rfl) fun _ => rfl

lemma MapResponse.patchAssign_lastSeen :
    (res.patchAssign id).lastSeen=(res.patched PeerChange.lastSeen id).map some :=
  patchAssign_component Assign.lastSeen _ some rfl (fun _ _ => rfl) fun _ => rfl

variable (hs : ∀ p ∈ res.peersChangedPatch, p.Supported)
include hs

lemma MapResponse.patchAssign_eq :
    res.patchAssign id = {
      homeDERP := (res.patchAssign id).homeDERP
      endpoints := (res.patchAssign id).endpoints
      online := (res.patchAssign id).online
      lastSeen := (res.patchAssign id).lastSeen } := by
  have hnone {β : Type} (f : Assign → Option β) (h0 : f {} = none)
      (hf : ∀ a b, f (andThen a b)=(f b).or (f a))
      (hp : ∀ p : PeerChange, p.Supported → f p.assign=none) : f (res.patchAssign id)=none := by
    rw [patchAssign,all_component f hf h0,getLast?_eq_none_iff,filterMap_eq_nil_iff]
    intro a ha
    obtain ⟨p,hmem,rfl⟩ := List.mem_map.mp ha
    exact hp p (hs p (mem_forKey.mp hmem).1)
  have hcap := hnone Assign.cap rfl (fun _ _ => rfl) fun p h => by simp [PeerChange.assign,h.cap]
  have hkey := hnone Assign.key rfl (fun _ _ => rfl) fun p h => h.key
  have hdisco := hnone discoKey rfl (fun _ _ => rfl) fun p h => h.discoKey
  have hexpiry := hnone keyExpiry rfl (fun _ _ => rfl) fun p h => h.keyExpiry
  have hsig := hnone keySignature rfl (fun _ _ => rfl) fun p h => by
    simp [PeerChange.assign,h.keySignature]
  have hcapMap := hnone Assign.capMap rfl (fun _ _ => rfl) fun p h => by
    simp [PeerChange.assign,h.capMap]
  generalize res.patchAssign id=a at *
  obtain ⟨a1,a2,a3,a4,a5,a6,a7,a8,a9,a10⟩ := a
  subst hcap hkey hdisco hexpiry hsig hcapMap
  rfl

lemma MapResponse.edit_eq_outcome (n : Node) :
    res.edit clock id n=res.outcome clock id n := by
  rw [edit_eq_set,patchAssign_eq hs,patchAssign_homeDERP,patchAssign_endpoints,
    patchAssign_online,patchAssign_lastSeen,outcome]
  simp only [Assign.set,andThen,changeAssign,or_none,getD_none]
  congr 1
  · cases res.patched PeerChange.endpoints id <;> rfl
  · cases res.patched PeerChange.lastSeen id with
    | some t => rfl
    | none => rcases res.peerSeenChange.lookup id with _ | _ | _ <;> rfl
  · cases res.patched PeerChange.online id with
    | some v => rfl
    | none => cases res.onlineChange.lookup id <;> rfl

lemma foldl_fieldMutations (n : Node) :
    (res.fieldMutations clock id).foldl (fun n m => m.apply n) n=((res.patchAssign id).andThen {
      online := (res.onlineChange.lookup id).map some
      lastSeen := if res.peerSeenChange.lookup id=some true then some (some clock) else none }).set n := by
  have hpatches : ((forKey PeerChange.nodeID id res.peersChangedPatch).flatMap
      PeerChange.mutations).foldl (fun n m => m.apply n) n=(res.patchAssign id).set n := by
    have hall : ∀ p ∈ forKey PeerChange.nodeID id res.peersChangedPatch, p.Supported :=
      fun p hp => hs p (mem_forKey.mp hp).1
    rw [MapResponse.patchAssign,← foldl_set,foldl_map]
    generalize forKey PeerChange.nodeID id res.peersChangedPatch=ps at hall
    induction ps generalizing n with
    | nil => rfl
    | cons p ps ih =>
      rw [flatMap_cons,foldl_append,(hall p mem_cons_self).foldl_mutations,
        ih _ fun q hq => hall q (mem_cons_of_mem p hq)]
      rfl
  rw [MapResponse.fieldMutations,foldl_append,foldl_append,hpatches,← Assign.set_set]
  cases res.onlineChange.lookup id <;> by_cases hseen : res.peerSeenChange.lookup id=some true <;>
    simp [hseen,apply,Assign.set]

lemma edit_eq_foldl_iff (n : Node) :
    (res.fieldMutations clock id).foldl (fun n m => m.apply n) n=res.edit clock id n ↔ res.Agrees clock id n := by
  rw [foldl_fieldMutations hs,MapResponse.edit_eq_outcome hs,MapResponse.patchAssign_eq hs,
    MapResponse.patchAssign_homeDERP,MapResponse.patchAssign_endpoints,
    MapResponse.patchAssign_online,MapResponse.patchAssign_lastSeen]
  constructor
  · intro h
    have honline := congrArg Node.online h
    have hseen := congrArg Node.lastSeen h
    simp only [Assign.set,andThen,MapResponse.outcome] at honline hseen
    constructor
    · intro v w hv hw
      rw [hv,hw] at honline
      simpa using honline.symm
    · intro t ht hp
      rw [ht,hp] at hseen
      simpa using hseen.symm
    · intro hf hp
      rw [hf,hp] at hseen
      simpa using hseen
  · intro h
    obtain ⟨honline,hseen,hgone⟩ := h
    simp only [Assign.set,andThen,MapResponse.outcome,none_or,getD_none]
    congr 1
    · cases res.patched PeerChange.endpoints id <;> rfl
    · cases hp : res.patched PeerChange.lastSeen id with
      | some t =>
        by_cases hs : res.peerSeenChange.lookup id=some true
        · simp [hs,hseen t hs hp]
        · simp [hs]
      | none =>
        rcases hs : res.peerSeenChange.lookup id with _ | _ | _
        · rfl
        · simpa using hgone hs hp
        · rfl
    · cases hp : res.patched PeerChange.online id with
      | some w =>
        cases ho : res.onlineChange.lookup id with
        | none => rfl
        | some v => simp [honline v w ho hp]
      | none => cases res.onlineChange.lookup id <;> rfl

omit hs in
lemma touches_iff : res.Touches id ↔ res.fieldMutations clock id≠[] := by
  have hpatch (p : PeerChange) : p.mutations≠[] ↔
      (p.derpRegion≠0 ∨ p.endpoints≠none ∨ p.online≠none ∨ p.lastSeen≠none) := by
    by_cases hd : p.derpRegion=0 <;> cases he : p.endpoints <;> cases ho : p.online <;>
      cases hs : p.lastSeen <;> simp [PeerChange.mutations,hd,he,ho,hs]
  have hpatches : (forKey PeerChange.nodeID id res.peersChangedPatch).flatMap PeerChange.mutations≠[]
      ↔ ∃ p ∈ res.peersChangedPatch, p.nodeID=id ∧
        (p.derpRegion≠0 ∨ p.endpoints≠none ∨ p.online≠none ∨ p.lastSeen≠none) := by
    simp only [ne_eq,flatMap_eq_nil_iff,not_forall,mem_forKey,exists_prop,and_assoc]
    simp only [← ne_eq,hpatch]
  rw [MapResponse.Touches,← hpatches,MapResponse.fieldMutations]
  cases res.onlineChange.lookup id <;> by_cases hs : res.peerSeenChange.lookup id=some true <;>
    simp [hs]

end

lemma foldlM_membership (res : MapResponse) (P : Peers) (id : NodeID) (m : Option Node) :
    (res.membership id).foldlM deltaAct (P.lookup id,m)=some (res.base P id,m) := by
  have hremoved : ∀ (l : List NodeID) (p : Option Node), (l.map NodeMutation.remove).foldlM deltaAct (p,m)
      = some (if l=[] then p else none,m) := by
    intro l
    induction l with
    | nil => exact fun p => rfl
    | cons j l ih =>
      intro p
      change (l.map NodeMutation.remove).foldlM deltaAct (none,m)=_
      rw [ih]
      simp
  have hchanged : ∀ (l : List Node) (p : Option Node), (l.map NodeMutation.upsert).foldlM deltaAct (p,m)
      = some (l.getLast?.or p,m) := by
    intro l
    induction l with
    | nil => exact fun p => rfl
    | cons n l ih =>
      intro p
      change (l.map NodeMutation.upsert).foldlM deltaAct (some n,m)=_
      rw [ih,getLast?_cons]
      cases l.getLast? <;> rfl
  have hnil : (res.peersRemoved.filter fun j => j=id)=[] ↔ id ∉ res.peersRemoved := by
    simp only [filter_eq_nil_iff,decide_eq_true_eq]
    exact ⟨fun h hid => h id hid rfl,fun h j hj he => h (he ▸ hj)⟩
  rw [MapResponse.membership,foldlM_append,hremoved]
  change ((forKey Node.id id res.peersChanged.elems).map NodeMutation.upsert).foldlM deltaAct _=_
  rw [hchanged,MapResponse.base]
  by_cases hid : id ∈ res.peersRemoved
  · rw [if_neg fun h => hnil.mp h hid,if_pos hid]
  · rw [if_pos (hnil.mpr hid),if_neg hid]

lemma foldlM_perField {F : List NodeMutation} (hF : ∀ m ∈ F, m.perField=true) (p : Option Node) :
    F.foldlM deltaAct (p,none)=if F=[] then some (p,none)
      else p.map fun n => (some n,some (F.foldl (fun n m => m.apply n) n)) := by
  have hcopy : ∀ (F : List NodeMutation) (c : Node), (∀ m ∈ F, m.perField=true) →
      F.foldlM deltaAct (p,some c)=some (p,some (F.foldl (fun n m => m.apply n) c)) := by
    intro F
    induction F with
    | nil => exact fun c _ => rfl
    | cons m F ih =>
      intro c hF
      rw [foldlM_cons,deltaAct_of_perField (hF m mem_cons_self)]
      exact ih _ fun m' hm => hF m' (mem_cons_of_mem m hm)
  cases F with
  | nil => rfl
  | cons m F =>
    rw [foldlM_cons,deltaAct_of_perField (hF m mem_cons_self),if_neg (cons_ne_nil m F)]
    cases p with
    | none => rfl
    | some n => exact hcopy F _ fun m' hm => hF m' (mem_cons_of_mem m hm)

lemma foldlM_forNode (res : MapResponse) (clock : Time) (P : Peers) (id : NodeID) :
    (res.membership id++res.fieldMutations clock id).foldlM deltaAct (P.lookup id,none)
      = if res.fieldMutations clock id=[] then some (res.base P id,none) else (res.base P id).map fun n =>
          (some n,some ((res.fieldMutations clock id).foldl (fun n m => m.apply n) n)) := by
  rw [foldlM_append,foldlM_membership]
  exact foldlM_perField (fun m hm => MapResponse.perField_of_mem_fieldMutations hm) _

/-- The backend ends with the session's peers under this condition: every node the response
touches is there and the response agrees with itself; or else the response comes to nothing but
the insertions and removals up to the first node it cannot find. -/
def MapResponse.Carried (res : MapResponse) (clock : Time) (P : Peers) : Prop :=
  ((∀ id, res.Touches id → res.base P id≠none) ∧ ∀ id n, res.base P id=some n → res.Agrees clock id n) ∨
  ∃ u, res.Touches u ∧ res.base P u=none ∧ (∀ v<u, res.Touches v → res.base P v≠none) ∧
    ∀ id, (if id≤u then res.base P id else P.lookup id)=(res.base P id).map (res.outcome clock id)

section
variable [Unicode] {res : MapResponse} {clock : Time} {nb : NodeBackend} {o o' : MapOrder}
  {muts : List NodeMutation}

omit [Unicode] in
lemma forKey_muts (h : mutationsFromMapResponse o o' clock res clock=some muts) (id : NodeID) :
    forKey nodeIDBeingMutated id muts=res.membership id++res.fieldMutations clock id := by
  obtain ⟨-,-,rfl⟩ := mutationsFromMapResponse_eq_some h
  rw [forKey_sortStable,ite_self,forKey_unsortedMutations]

lemma lookup_delta_of_known (o'' : MapOrder)
    (h : mutationsFromMapResponse o o' clock res clock=some muts) (hnm : nb.netMap.isSome)
    (hknown : ∀ id, res.Touches id → res.base nb.peers id≠none) (id : NodeID) :
    (nb.updateNetmapDelta o'' muts).2.peers.lookup id = (res.base nb.peers id).map fun n =>
        (res.fieldMutations clock id).foldl (fun n m => m.apply n) n := by
  have hrun (k : NodeID) := foldlM_forNode res clock nb.peers k
  obtain ⟨s,hs⟩ := deltaStep_keyed.exists_ok (l := muts) (s := ⟨nb,.empty⟩) (by
    intro k hk
    have hk' : (forKey nodeIDBeingMutated k muts).foldlM deltaAct
      (nb.peers.lookup k,none)=none := hk
    rw [forKey_muts h,hrun] at hk'
    split at hk'
    · cases hk'
    · rename_i hf
      exact hknown k (touches_iff.mpr hf) (map_eq_none_iff.mp hk'))
  have hview : (forKey nodeIDBeingMutated id muts).foldlM deltaAct
      (nb.peers.lookup id,none)=some (s.view id) := deltaStep_keyed.foldlM_ok hs id
  rw [forKey_muts h,hrun] at hview
  rw [lookup_of_foldlM_ok hnm hs id]
  split at hview
  · rename_i hf
    rw [← some.inj hview,hf]
    simp
  · obtain ⟨n,hn,hview⟩ := map_eq_some_iff.mp hview
    rw [← hview,hn]
    rfl

omit [Unicode] in
lemma exists_of_split {S F A B : List NodeMutation} {m : NodeMutation} (h : A++m::B=S++F)
    (hS : ∀ x ∈ S, x.perField=false) (hm : m.perField=true) : ∃ F1, A=S++F1 ∧ F=F1++m::B := by
  rcases append_eq_append_iff.mp h with ⟨c,hc,hF⟩ | ⟨F1,hA,hF⟩
  · cases c with
    | nil => exact ⟨[],by simpa using hc.symm,by simpa using hF.symm⟩
    | cons x c =>
      obtain ⟨rfl,-⟩ := List.cons.inj hF
      have hx := hS m (hc ▸ mem_append_right A mem_cons_self)
      rw [hm] at hx
      cases hx
  · exact ⟨F1,hA,hF⟩

lemma lookup_delta_of_unknown (o'' : MapOrder)
    (h : mutationsFromMapResponse o o' clock res clock=some muts) (hnm : nb.netMap.isSome)
    (hunknown : ∃ id, res.Touches id ∧ res.base nb.peers id=none) :
    ∃ u, res.Touches u ∧ res.base nb.peers u=none ∧ (∀ v<u, res.Touches v → res.base nb.peers v≠none) ∧
      ∀ id, (nb.updateNetmapDelta o'' muts).2.peers.lookup id
        = if id≤u then res.base nb.peers id else nb.peers.lookup id := by
  cases hrun : muts.foldlM deltaStep ⟨nb,.empty⟩ with
  | ok s =>
    obtain ⟨id,ht,hnone⟩ := hunknown
    have hview : (forKey nodeIDBeingMutated id muts).foldlM deltaAct
        (nb.peers.lookup id,none)=some (s.view id) := deltaStep_keyed.foldlM_ok hrun id
    rw [forKey_muts h,foldlM_forNode,if_neg (touches_iff.mp ht),hnone] at hview
    cases hview
  | error nb' =>
    obtain ⟨before,m,after,t,hsplit,hb,he⟩ := exists_of_foldlM_error hrun
    have hview (k : NodeID) : (forKey nodeIDBeingMutated k before).foldlM deltaAct
        (nb.peers.lookup k,none)=some (t.view k) := deltaStep_keyed.foldlM_ok hb k
    obtain ⟨hm,hnone,rfl⟩ : m.perField=true ∧ (t.view m.nodeIDBeingMutated).2.or
        (t.view m.nodeIDBeingMutated).1=none ∧ t.nb=nb' := by
      rcases deltaStep_cases t m with ⟨n,-,h⟩ | ⟨nid,-,h⟩ | ⟨hm,hn,h⟩ | ⟨n,-,-,h⟩
      · cases h.symm.trans he
      · cases h.symm.trans he
      · cases h.symm.trans he
        exact ⟨hm,hn,rfl⟩
      · cases h.symm.trans he
    generalize hu : m.nodeIDBeingMutated=u at hnone
    have hfor := forKey_muts h u
    rw [hsplit,forKey_append,forKey_cons,if_pos hu] at hfor
    obtain ⟨F1,hA,hF⟩ := exists_of_split hfor
      (fun x hx => MapResponse.perField_of_mem_membership hx) hm
    have hF1 : ∀ x ∈ F1, x.perField=true := fun x hx =>
      MapResponse.perField_of_mem_fieldMutations (hF ▸ mem_append_left _ hx)
    obtain ⟨hbase,hviewu⟩ : res.base nb.peers u=none ∧ t.view u=(none,none) := by
      have hvu := hview u
      rw [hA,foldlM_append,foldlM_membership] at hvu
      change F1.foldlM deltaAct (res.base nb.peers u,none)=_ at hvu
      rw [foldlM_perField hF1] at hvu
      split at hvu
      · rw [← some.inj hvu,none_or] at hnone
        have hbase : res.base nb.peers u=none := hnone
        exact ⟨hbase,by rw [← some.inj hvu,hbase]⟩
      · obtain ⟨n,-,hvu⟩ := map_eq_some_iff.mp hvu
        rw [← hvu] at hnone
        cases hnone
    have hsorted : (before++m::after).Pairwise fun a b => a.nodeIDBeingMutated≤b.nodeIDBeingMutated := by
      rw [← hsplit]
      obtain ⟨-,-,rfl⟩ := mutationsFromMapResponse_eq_some h
      exact sortStable_pairwise _
    have hlt (k : NodeID) (hk : k<u) : (res.Touches k → res.base nb.peers k≠none) ∧
        (t.view k).1=res.base nb.peers k := by
      have hvk := hview k
      rw [(forKey_of_sorted hsorted).1 (hu ▸ hk),← hsplit,forKey_muts h,foldlM_forNode] at hvk
      split at hvk
      · rename_i hf
        exact ⟨fun ht => absurd hf (touches_iff.mp ht),by rw [← some.inj hvk]⟩
      · obtain ⟨n,hn,hvk⟩ := map_eq_some_iff.mp hvk
        exact ⟨fun _ => by rw [hn]; exact some_ne_none n,by rw [← hvk,hn]⟩
    refine ⟨u,touches_iff.mpr (by rw [hF]; simp),hbase,fun v hv => (hlt v hv).1,fun id => ?_⟩
    rw [lookup_of_foldlM_error hnm hrun]
    change (t.view id).1=_
    rcases lt_trichotomy id u with hid | rfl | hid
    · rw [if_pos hid.le,(hlt id hid).2]
    · rw [if_pos le_rfl,hviewu,hbase]
    · have hvk := hview id
      rw [(forKey_of_sorted hsorted).2 (hu ▸ hid)] at hvk
      rw [if_neg (not_le.mpr hid),← some.inj hvk]

omit [Unicode] in
lemma MapResponse.base_congr {P Q : Peers} (res : MapResponse) (h : ∀ id, P.lookup id=Q.lookup id)
    (id : NodeID) : res.base P id=res.base Q id := by
  rw [base,base,h]

/-- The mutations made from a response bring a backend that has the session's peers to what the
session has after the response exactly if the response is carried. -/
theorem delta_eq_session_iff {P : Peers} {o'' o1 o2 o3 : MapOrder}
    (hP : ∀ id, nb.peers.lookup id=P.lookup id) (hnm : nb.netMap.isSome)
    (h : mutationsFromMapResponse o o' clock res clock=some muts) :
    (∀ id, (nb.updateNetmapDelta o'' muts).2.peers.lookup id
      = (updatePeersStateFromResponse o1 o2 o3 clock P res).peers.lookup id) ↔ res.Carried clock P := by
  obtain ⟨hpeers,hs,-⟩ := mutationsFromMapResponse_eq_some h
  have hsession (id : NodeID) : (updatePeersStateFromResponse o1 o2 o3 clock P res).peers.lookup id
      = (res.base P id).map (res.outcome clock id) := by
    rw [lookup_updatePeersState (by rw [hpeers]; rfl)]
    exact Option.map_congr fun n _ => MapResponse.edit_eq_outcome hs n
  have hbase := res.base_congr hP
  by_cases hknown : ∀ id, res.Touches id → res.base P id≠none
  · have hdelta (id : NodeID) := lookup_delta_of_known o'' h hnm
      (fun id ht => hbase id ▸ hknown id ht) id
    constructor
    · intro heq
      refine .inl ⟨hknown,fun id n hn => ?_⟩
      have hid := heq id
      rw [hdelta,hbase,hsession,hn] at hid
      rw [← edit_eq_foldl_iff hs,MapResponse.edit_eq_outcome hs]
      exact some.inj hid
    · rintro (⟨-,hagree⟩ | ⟨u,ht,hu,-⟩) id
      · rw [hdelta,hbase,hsession]
        refine Option.map_congr fun n hn => ?_
        rw [← MapResponse.edit_eq_outcome hs]
        exact (edit_eq_foldl_iff hs n).mpr (hagree id n hn)
      · exact absurd hu (hknown u ht)
  · simp only [not_forall,not_not] at hknown
    obtain ⟨id0,ht0,hn0⟩ := hknown
    obtain ⟨u,ht,hu,hmin,hdelta⟩ := lookup_delta_of_unknown o'' h hnm
      ⟨id0,ht0,by rw [hbase,hn0]⟩
    simp only [hbase,hP] at hu hmin hdelta
    constructor
    · intro heq
      refine .inr ⟨u,ht,hu,hmin,fun id => ?_⟩
      rw [← hdelta,heq,hsession]
    · rintro (⟨hknown,-⟩ | ⟨v,htv,hv,hminv,heq⟩) id
      · exact absurd hn0 (hknown id0 ht0)
      · obtain rfl : v=u := by
          rcases lt_trichotomy v u with hlt | heq | hlt
          · exact absurd hv (hmin v hlt htv)
          · exact heq
          · exact absurd hu (hminv u hlt ht)
        rw [hdelta,heq,hsession]

end

attribute [local instance] Unicode.ascii

def seenNode : Node := { Node.zero with id := 1,lastSeen := some 3 }

def nowOnline : MapResponse := { peersChangedPatch := [{ nodeID := 1,online := some true }] }

theorem delta_eq_session_nowOnline :
    mutationsFromMapResponse .asStored .asStored 5 nowOnline 5=some [.online 1 true] ∧
      ∀ id, ((ofPeer seenNode).updateNetmapDelta .asStored [.online 1 true]).2.peers.lookup id
        = (updatePeersStateFromResponse .asStored .asStored .asStored 5 (ofPeer seenNode).peers
          nowOnline).peers.lookup id := by
  have hcarried : nowOnline.Carried 5 (ofPeer seenNode).peers := by
    refine .inl ⟨fun id ht => ?_,fun id n _ => ?_⟩
    · rcases ht with ⟨p,hp,rfl,-⟩ | ht | ht
      · cases mem_singleton.mp hp
        decide
      · exact absurd (AList.lookup_empty id) ht
      · cases (AList.lookup_empty id).symm.trans ht
    · constructor
      · intro v w hv _
        cases (AList.lookup_empty id).symm.trans hv
      · intro t ht _
        cases (AList.lookup_empty id).symm.trans ht
      · intro hf _
        cases (AList.lookup_empty id).symm.trans hf
  have hmuts : mutationsFromMapResponse .asStored .asStored 5 nowOnline 5=some [.online 1 true] := rfl
  exact ⟨hmuts,(delta_eq_session_iff (fun _ => rfl) rfl hmuts).mpr hcarried⟩

/-- A node that is said to be gone keeps the time it was seen in the backend and loses it in the
session. -/
theorem delta_ne_session_gone :
    let res : MapResponse := { peerSeenChange := AList.singleton 1 false }
    let nb := ofPeer seenNode
    ∃ muts, mutationsFromMapResponse .asStored .asStored 5 res 5=some muts ∧
      (nb.updateNetmapDelta .asStored muts).2.peers.lookup 1
        ≠ (updatePeersStateFromResponse .asStored .asStored .asStored 5 nb.peers res).peers.lookup 1 :=
  ⟨_,rfl,by decide⟩

end TunnnejiTail.Netmap
