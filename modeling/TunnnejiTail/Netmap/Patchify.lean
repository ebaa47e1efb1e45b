import TunnnejiTail.Netmap.PeerChangeDiff

/-! Whether a changed peer may be turned into a patch. The patch is applied at the end of the
response, after the removals and the response's own changes of the node, and it has no way to say
that a value became zero or nil. -/
namespace TunnnejiTail.Netmap
open Go List Option

namespace Assign

lemma andThen_assoc (a b c : Assign) : (a.andThen b).andThen c=a.andThen (b.andThen c) := by
  simp only [andThen,Option.or_assoc]

lemma andThen_all (a : Assign) (l : List Assign) : a.andThen (all l)=l.foldl andThen a := by
  have h : ∀ b, a.andThen (l.foldl andThen b)=l.foldl andThen (a.andThen b) := by
    induction l with
    | nil => exact fun b => rfl
    | cons c l ih =>
      intro b
      rw [foldl_cons,foldl_cons,ih,andThen_assoc]
  exact h {}

end Assign

section
variable (P : Peers)

/-- An entry of PeersChanged stays one if its node is unknown or differs in a field that no patch can
set. -/
def Peers.keeps (n : Node) : Bool := (P.lookup n.id).elim true fun w => !w.patchable n

/-- The patch that an entry of a known node is turned into, if there is a difference. -/
def Peers.patchOf (n : Node) : Option PeerChange :=
  (P.lookup n.id).bind fun w => (peerChangeDiff w n).toOption.join

/-- The changes of a known node that the entries turned into patches carry. -/
def Peers.carried (id : NodeID) (l : List Node) : List Assign :=
  (P.lookup id).elim [] fun w => ((forKey Node.id id l).filter w.patchable).map w.carried

lemma Peers.carried_cons (id : NodeID) (n : Node) (l : List Node) :
    P.carried id (n::l)=P.carried id [n]++P.carried id l := by
  have hfor : forKey Node.id id (n::l)=forKey Node.id id [n]++forKey Node.id id l :=
    forKey_append [n] l
  rw [carried,carried,carried,hfor]
  cases P.lookup id <;> simp

lemma Peers.carried_singleton_of_ne {id : NodeID} {n : Node} (h : n.id≠id) : P.carried id [n]=[] := by
  rw [carried,forKey_cons,if_neg h]
  cases P.lookup id <;> rfl

def Peers.CarriedBy (ps : List PeerChange) (l : List Node) : Prop :=
  ∀ id a, ((forKey PeerChange.nodeID id ps).map PeerChange.assign).foldl Assign.andThen a
    = (P.carried id l).foldl Assign.andThen a

end

section
variable {P : Peers} (hP : ∀ {id w}, P.lookup id=some w → w.legacyDERPString=[])
include hP

variable {n : Node}

lemma Peers.patchOf_eq (hn : n.legacyDERPString=[]) {w : Node} (hw : P.lookup n.id=some w) :
    (w.patchable n=true → peerChangeDiff w n=.ok (P.patchOf n) ∧
      ((P.patchOf n).map PeerChange.assign).getD {} = w.carried n ∧ ∀ p ∈ P.patchOf n, p.nodeID=n.id) ∧
    (w.patchable n=false → P.patchOf n=none) := by
  rw [Peers.patchOf,hw,bind_some]
  constructor
  · intro hpatch
    obtain ⟨r,hr,hassign,hid⟩ := peerChangeDiff_of_patchable (hP hw) hn hpatch
    rw [hr]
    exact ⟨rfl,hassign,hid⟩
  · intro hpatch
    obtain ⟨f,hf⟩ := peerChangeDiff_of_not_patchable (hP hw) hn hpatch
    rw [hf]
    rfl

lemma patchifyStep_eq (acc : List Node × List PeerChange) (hn : n.legacyDERPString=[]) :
    patchifyStep P acc n=.ok (acc.1++[n].filter P.keeps,acc.2++(P.patchOf n).toList) := by
  rw [patchifyStep]
  cases hw : P.lookup n.id with
  | none => simp [Peers.keeps,Peers.patchOf,hw]
  | some w =>
    obtain ⟨hpatched,hkept⟩ := P.patchOf_eq hP hn hw
    cases hpatch : w.patchable n with
    | true =>
      have hdiff := (hpatched hpatch).1
      cases hp : P.patchOf n <;> rw [hp] at hdiff <;> simp [hdiff,Peers.keeps,hw,hpatch]
    | false =>
      obtain ⟨f,hf⟩ := peerChangeDiff_of_not_patchable (hP hw) hn hpatch
      simp [hf,hkept hpatch,Peers.keeps,hw,hpatch]

lemma carriedBy_patchOf (hn : n.legacyDERPString=[]) : P.CarriedBy (P.patchOf n).toList [n] := by
  intro id a
  cases hw : P.lookup n.id with
  | none =>
    by_cases hid : n.id=id
    · subst hid
      simp [Peers.carried,Peers.patchOf,hw]
    · simp [P.carried_singleton_of_ne hid,Peers.patchOf,hw]
  | some w =>
    obtain ⟨hpatched,hkept⟩ := P.patchOf_eq hP hn hw
    by_cases hid : n.id=id
    · subst hid
      cases hpatch : w.patchable n with
      | true =>
        obtain ⟨-,hassign,hid⟩ := hpatched hpatch
        have hcarried : P.carried n.id [n]=[w.carried n] := by
          simp [Peers.carried,hw,forKey_cons,hpatch]
        rw [hcarried,← hassign]
        cases hp : P.patchOf n with
        | none => rfl
        | some p => simp [forKey_cons,hid p hp]
      | false => simp [hkept hpatch,Peers.carried,hw,forKey_cons,hpatch]
    · rw [P.carried_singleton_of_ne hid]
      cases hp : P.patchOf n with
      | none => rfl
      | some p =>
        cases hpatch : w.patchable n with
        | true => simp [forKey_cons,(hpatched hpatch).2.2 p hp,hid]
        | false => cases hp.symm.trans (hkept hpatch)

variable (l : List Node) (hl : ∀ n ∈ l, n.legacyDERPString=[])
include hl

lemma foldlM_patchifyStep
    (acc : List Node × List PeerChange) :
    l.foldlM (patchifyStep P) acc=.ok (acc.1++l.filter P.keeps,acc.2++l.filterMap P.patchOf) := by
  induction l generalizing acc with
  | nil => simp [pure,Except.pure]
  | cons n l ih =>
    rw [foldlM_cons,patchifyStep_eq hP acc (hl n mem_cons_self)]
    refine (ih (fun m hm => hl m (mem_cons_of_mem n hm)) _).trans ?_
    rw [append_assoc,append_assoc,← filter_append,filterMap_cons]
    cases P.patchOf n <;> rfl

lemma carriedBy_filterMap_patchOf :
    P.CarriedBy (l.filterMap P.patchOf) l := by
  induction l with
  | nil =>
    intro id a
    cases hw : P.lookup id <;> simp [Peers.carried,hw]
  | cons n l ih =>
    intro id a
    have hcons : (n::l).filterMap P.patchOf=(P.patchOf n).toList++l.filterMap P.patchOf := by
      rw [filterMap_cons]
      cases P.patchOf n <;> rfl
    rw [hcons,forKey_append,map_append,foldl_append,P.carried_cons,foldl_append,
      carriedBy_patchOf hP (hl n mem_cons_self),ih fun m hm => hl m (mem_cons_of_mem n hm)]

end

/-- The peers of a session. Every response is upgraded before it is applied, so no node has a legacy
DERP string. -/
structure SessionPeers where
  peers : Peers
  upgraded : ∀ {id n}, peers.lookup id=some n → n.legacyDERPString=[]

@[simp] lemma legacyDERPString_edit (resp : MapResponse) (clock : Time) (id : NodeID) (n : Node) :
    (resp.edit clock id n).legacyDERPString=n.legacyDERPString := by
  rw [MapResponse.edit_eq_set]
  rfl

section
variable (o : MapOrder) (s : PeersUpdate) (id : NodeID)

lemma lookup_deleteOthers (ids : List NodeID) :
    ((range o s.peers.nodes).foldl (fun s c => if ids.contains c.1 then s else s.remove c.1) s).peers.lookup
      id=if id ∈ ids then s.peers.lookup id else none := by
  refine (foldl_view Prod.fst (fun s : PeersUpdate => s.peers.lookup)
    (fun v c => if ids.contains c.1 then v else none) (fun s c k => ?_) _ s id).trans ?_
  · cases hc : ids.contains c.1 <;> simp
  · rw [forKey_range]
    change ((s.peers.lookup id).toList.map _).foldl _ _=_
    cases s.peers.lookup id <;> by_cases hid : id ∈ ids <;> simp [hid]

lemma lookup_replaceAll (peers : List Node) :
    (s.replaceAll o peers).peers.lookup id=(forKey Node.id id peers).getLast? := by
  rw [PeersUpdate.replaceAll,lookup_deleteOthers,
    foldl_view Node.id (fun s : PeersUpdate => s.peers.lookup) (fun _ n => some n)
      (fun s n k => s.lookup_put n k) peers _ id,foldl_replace]
  by_cases hid : id ∈ peers.map Node.id
  · obtain ⟨n,hn,hid'⟩ := List.mem_map.mp hid
    have hne : forKey Node.id id peers≠[] := ne_nil_of_mem (mem_forKey.mpr ⟨hn,hid'⟩)
    rw [if_pos hid,getLast?_eq_some_getLast hne]
    rfl
  · have hnil : forKey Node.id id peers=[] :=
      forKey_eq_nil.mpr fun n hn he => hid (he ▸ List.mem_map_of_mem hn)
    rw [if_neg hid,hnil]
    rfl

end

variable {P : Peers} {resp : MapResponse} {n : Node}

lemma legacyDERPString_of_upgraded {nodes : Slice Node}
    (h : n ∈ Slice.elems (nodes.map fun l => l.map upgradeNode)) : n.legacyDERPString=[] := by
  cases nodes with
  | none => cases h
  | some l =>
    obtain ⟨m,-,rfl⟩ := List.mem_map.mp h
    rfl

lemma MapResponse.upgraded_peers (resp : MapResponse) (h : n ∈ resp.upgrade.peers.elems) :
    n.legacyDERPString=[] := legacyDERPString_of_upgraded h

lemma MapResponse.upgraded_peersChanged (resp : MapResponse)
    (h : n ∈ resp.upgrade.peersChanged.elems) : n.legacyDERPString=[] := legacyDERPString_of_upgraded h

def Peers.patchified (P : Peers) (resp : MapResponse) : MapResponse :=
  { resp with
    peersChanged := if (resp.peersChanged.elems.filter P.keeps).length=0 then none
      else some (resp.peersChanged.elems.filter P.keeps)
    peersChangedPatch := resp.peersChangedPatch++resp.peersChanged.elems.filterMap P.patchOf }

@[simp] lemma Peers.peersChanged_patchified (P : Peers) (resp : MapResponse) :
    (P.patchified resp).peersChanged.elems=resp.peersChanged.elems.filter P.keeps := by
  rw [patchified]
  cases resp.peersChanged.elems.filter P.keeps <;> rfl

section
variable (hP : ∀ {id n}, P.lookup id=some n → n.legacyDERPString=[])
  (hchanged : ∀ n ∈ resp.peersChanged.elems, n.legacyDERPString=[])
include hP hchanged

lemma upgraded_update (hpeers : ∀ n ∈ resp.peers.elems, n.legacyDERPString=[]) (o o' o'' : MapOrder)
    (clock : Time) {id : NodeID}
    (hn : (updatePeersStateFromResponse o o' o'' clock P resp).peers.lookup id=some n) :
    n.legacyDERPString=[] := by
  by_cases hfull : resp.peers.elems=[]
  · rw [lookup_updatePeersState hfull] at hn
    obtain ⟨m,hm,rfl⟩ := map_eq_some_iff.mp hn
    rw [legacyDERPString_edit]
    rcases or_eq_some_iff.mp hm with hm | ⟨-,hm⟩
    · exact hchanged m (mem_forKey.mp (mem_of_getLast? hm)).1
    · split at hm
      · cases hm
      · exact hP hm
  · rw [updatePeersStateFromResponse,if_pos (length_pos_of_ne_nil hfull),lookup_replaceAll] at hn
    exact hpeers n (mem_forKey.mp (mem_of_getLast? hn)).1

lemma patchifyPeersChanged_ok :
    patchifyPeersChanged P resp=.ok (P.patchified resp) := by
  rw [patchifyPeersChanged,foldlM_patchifyStep hP _ hchanged]
  rfl

lemma patchifyPeersChanged_eq :
    ∃ resp', patchifyPeersChanged P resp=.ok resp' ∧ resp'.peers=resp.peers ∧
      resp'.peersRemoved=resp.peersRemoved ∧ resp'.peersChanged.elems=resp.peersChanged.elems.filter P.keeps ∧
      (∀ clock, resp'.changeAssign clock=resp.changeAssign clock) ∧ ∀ id, resp'.patchAssign id
        = (resp.patchAssign id).andThen (Assign.all (P.carried id resp.peersChanged.elems)) := by
  refine ⟨_,patchifyPeersChanged_ok hP hchanged,rfl,rfl,P.peersChanged_patchified resp,fun _ => rfl,fun id => ?_⟩
  rw [Peers.patchified,MapResponse.patchAssign,forKey_append,map_append,Assign.all,foldl_append,
    carriedBy_filterMap_patchOf hP _ hchanged]
  exact (Assign.andThen_all ..).symm

end

namespace SessionPeers
variable (o o' o'' : MapOrder) (clock : Time) (S : SessionPeers) (resp : MapResponse)

def handleUnpatched : SessionPeers where
  peers := (updatePeersStateFromResponse o o' o'' clock S.peers resp.upgrade).peers
  upgraded := upgraded_update S.upgraded (fun _ => resp.upgraded_peersChanged)
    (fun _ => resp.upgraded_peers) o o' o'' clock

variable {resp' : MapResponse} (h : patchifyPeersChanged S.peers resp.upgrade=.ok resp')
include h

lemma upgraded_patchified {id : NodeID} {n : Node}
    (hn : (updatePeersStateFromResponse o o' o'' clock S.peers resp').peers.lookup id=some n) :
    n.legacyDERPString=[] := by
  obtain ⟨r,hr,hpeers,-,hchanged,-⟩ := patchifyPeersChanged_eq S.upgraded
    fun _ => resp.upgraded_peersChanged
  obtain rfl : r=resp' := Except.ok.inj (hr.symm.trans h)
  refine upgraded_update S.upgraded (fun m hm => ?_) (fun m hm => ?_) o o' o'' clock hn
  · rw [hchanged] at hm
    exact resp.upgraded_peersChanged (mem_of_mem_filter hm)
  · exact resp.upgraded_peers (hpeers ▸ hm)

/-- A response handled as handleNonKeepAliveMapResponse does, without disco keys to reject. -/
def handle : Except Fault SessionPeers :=
  match h : patchifyPeersChanged S.peers resp.upgrade with
  | .ok resp' => .ok
    { peers := (updatePeersStateFromResponse o o' o'' clock S.peers resp').peers
      upgraded := S.upgraded_patchified o o' o'' clock resp h }
  | .error e => .error e

lemma exists_handle_eq :
    ∃ S', S.handle o o' o'' clock resp=.ok S' ∧
      S'.peers=(updatePeersStateFromResponse o o' o'' clock S.peers resp').peers := by
  rw [handle]
  split
  · next r hr =>
    obtain rfl : r=resp' := Except.ok.inj (hr.symm.trans h)
    exact ⟨_,rfl,rfl⟩
  · next e he => cases he.symm.trans h

end SessionPeers

def Slice.Same {α : Type} (a b : Slice α) : Prop := a.elems=b.elems

lemma Slice.Same.refl {α : Type} (a : Slice α) : a.Same a := rfl

def CapMap.Same (a b : CapMap) : Prop := ∀ c, (a.get c).map Slice.elems=(b.get c).map Slice.elems

lemma CapMap.Same.refl (a : CapMap) : a.Same a := fun _ => rfl

/-- The same peer in every field but the computed names, DataPlaneAuditLogID and Capabilities. Slices
and maps are the same if their elements are. -/
@[mk_iff] structure SamePeer (a b : Node) : Prop where
  fixed : a.patchable b=true
  homeDERP : a.homeDERP=b.homeDERP
  cap : a.cap=b.cap
  endpoints : Slice.Same a.endpoints b.endpoints
  key : a.key=b.key
  discoKey : a.discoKey=b.discoKey
  online : a.online=b.online
  lastSeen : a.lastSeen=b.lastSeen
  keyExpiry : a.keyExpiry=b.keyExpiry
  keySignature : Slice.Same a.keySignature b.keySignature
  capMap : CapMap.Same a.capMap b.capMap

lemma Node.patchable_refl (n : Node) : n.patchable n=true := by
  refine patchable_iff.mpr fun f => ?_
  cases f <;> simp [NodeField.fixedSame]

lemma SamePeer.refl (n : Node) : SamePeer n n :=
  ⟨n.patchable_refl,rfl,rfl,rfl,rfl,rfl,rfl,rfl,rfl,rfl,fun _ => rfl⟩

lemma rel_samePeer_refl (x : Option Node) : Option.Rel SamePeer x x := by
  cases x with
  | none => exact .none
  | some n => exact .some (SamePeer.refl n)

lemma Node.patchable_set (A B : Assign) (a b : Node) : (A.set a).patchable (B.set b)=a.patchable b := by
  have h (f : NodeField) : f.fixedSame (A.set a) (B.set b)=f.fixedSame a b := by cases f <;> rfl
  simp only [patchable,h]

/-- A field whose entry became a patch. A value that is carried is set last, so it has to be the one
that the rest of the response leaves; otherwise the field has to be as it was, unless the rest of the
response sets it. -/
def Survives {β : Type} (same : β → β → Prop) (before after : β) (rest carried : Option β) : Prop :=
  match carried with
  | some v => same v (rest.getD after)
  | none => rest=none → same before after

lemma survives_iff {β : Type} {same : β → β → Prop} (hrefl : ∀ v, same v v) (before after : β)
    (rest carried : Option β) :
    same (carried.getD (rest.getD before)) (rest.getD after) ↔ Survives same before after rest carried := by
  cases carried with
  | some v => rfl
  | none => cases rest <;> simp [Survives,hrefl]

/-- What a node is after its entries became patches agrees with what the last entry makes of it. -/
@[mk_iff] structure AllSurvive (before after : Node) (rest carried : Assign) : Prop where
  fixed : before.patchable after=true
  homeDERP : Survives Eq before.homeDERP after.homeDERP rest.homeDERP carried.homeDERP
  cap : Survives Eq before.cap after.cap rest.cap carried.cap
  endpoints : Survives Slice.Same before.endpoints after.endpoints rest.endpoints carried.endpoints
  key : Survives Eq before.key after.key rest.key carried.key
  discoKey : Survives Eq before.discoKey after.discoKey rest.discoKey carried.discoKey
  online : Survives Eq before.online after.online rest.online carried.online
  lastSeen : Survives Eq before.lastSeen after.lastSeen rest.lastSeen carried.lastSeen
  keyExpiry : Survives Eq before.keyExpiry after.keyExpiry rest.keyExpiry carried.keyExpiry
  keySignature : Survives Slice.Same before.keySignature after.keySignature rest.keySignature
    carried.keySignature
  capMap : Survives CapMap.Same before.capMap after.capMap rest.capMap carried.capMap

lemma samePeer_set_iff (before after : Node) (rest carried : Assign) :
    SamePeer ((rest.andThen carried).set before) (rest.set after) ↔ AllSurvive before after rest carried := by
  rw [samePeer_iff,allSurvive_iff,Node.patchable_set]
  simp only [← survives_iff Eq.refl,← survives_iff Slice.Same.refl,← survives_iff CapMap.Same.refl,
    Assign.set,Assign.andThen,Assign.getD_or]

section
variable (resp : MapResponse) (clock : Time) (P : Peers)

/-- The entries of a node in PeersChanged that can be turned into patches may be: the last of its
other entries, or else the session's copy if it is not removed, is one on which everything survives. -/
def MapResponse.Patchifiable (id : NodeID) : Prop :=
  let entries := forKey Node.id id resp.peersChanged.elems
  ∀ w, P.lookup id=some w → (∃ n ∈ entries, w.patchable n=true) →
    ∃ before last, (entries.filter fun n => !w.patchable n).getLast?.or
        (if id ∈ resp.peersRemoved then none else some w)=some before ∧
      entries.getLast? = some last ∧
      AllSurvive before last ((resp.changeAssign clock id).andThen (resp.patchAssign id))
        (Assign.all ((entries.filter w.patchable).map w.carried))

variable {resp P} {id : NodeID}

lemma forKey_filter_keeps {w : Node} (hw : P.lookup id=some w) (l : List Node) :
    forKey Node.id id (l.filter P.keeps)=(forKey Node.id id l).filter fun n => !w.patchable n := by
  rw [forKey,forKey,List.filter_filter,List.filter_filter]
  refine List.filter_congr fun n _ => ?_
  by_cases hn : n.id=id <;> simp [hn,Peers.keeps,hw]

lemma forKey_filter_keeps_of_none (hw : P.lookup id=none) (l : List Node) :
    forKey Node.id id (l.filter P.keeps)=forKey Node.id id l := by
  rw [forKey,forKey,List.filter_filter]
  refine List.filter_congr fun n _ => ?_
  by_cases hn : n.id=id <;> simp [hn,Peers.keeps,hw]

lemma rel_edit_iff {resp' : MapResponse} (hremoved : resp'.peersRemoved=resp.peersRemoved)
    (hchanged : resp'.peersChanged.elems=resp.peersChanged.elems.filter P.keeps)
    (hchange : ∀ clock, resp'.changeAssign clock=resp.changeAssign clock) (hpatch : ∀ id, resp'.patchAssign id
      = (resp.patchAssign id).andThen (Assign.all (P.carried id resp.peersChanged.elems))) (id : NodeID) :
    Option.Rel SamePeer ((resp'.base P id).map (resp'.edit clock id))
        ((resp.base P id).map (resp.edit clock id)) ↔ resp.Patchifiable clock P id := by
  have hedit : resp'.edit clock id=((((resp.changeAssign clock id).andThen (resp.patchAssign id)).andThen
      (Assign.all (P.carried id resp.peersChanged.elems)))).set := by
    funext n
    rw [MapResponse.edit_eq_set,hchange,hpatch,Assign.andThen_assoc]
  have hedit' : resp.edit clock id
      = ((resp.changeAssign clock id).andThen (resp.patchAssign id)).set := by
    funext n
    rw [MapResponse.edit_eq_set]
  rw [hedit,hedit',MapResponse.base,MapResponse.base,hchanged,hremoved]
  cases hw : P.lookup id with
  | none =>
    rw [forKey_filter_keeps_of_none hw,Peers.carried,hw]
    exact iff_of_true (rel_samePeer_refl _) fun w hw' => by cases hw.symm.trans hw'
  | some w =>
    rw [forKey_filter_keeps hw,Peers.carried,hw,elim_some]
    set entries := forKey Node.id id resp.peersChanged.elems with hentries
    by_cases hex : ∃ n ∈ entries, w.patchable n=true
    · obtain ⟨last,hlast⟩ : ∃ last, entries.getLast? = some last := by
        obtain ⟨n,hn,-⟩ := hex
        exact ⟨_,getLast?_eq_some_getLast (ne_nil_of_mem hn)⟩
      rw [hlast,some_or,Option.map_some]
      constructor
      · intro hrel w' hw' _
        obtain rfl : w=w' := some.inj (hw.symm.trans hw')
        cases hbefore : (entries.filter fun n => !w.patchable n).getLast?.or
            (if id ∈ resp.peersRemoved then none else some w) with
        | none =>
          rw [hbefore] at hrel
          cases hrel
        | some before =>
          rw [hbefore] at hrel
          cases hrel with
          | some hsame => exact ⟨before,last,rfl,hlast,(samePeer_set_iff ..).mp hsame⟩
      · intro h
        obtain ⟨before,last',hbefore,hlast',hsurvive⟩ := h w hw hex
        obtain rfl : last=last' := some.inj (hlast.symm.trans hlast')
        rw [hbefore]
        exact .some ((samePeer_set_iff ..).mpr hsurvive)
    · have hkept : entries.filter (fun n => !w.patchable n)=entries := by simpa using hex
      have hpatched : entries.filter w.patchable=[] := by simpa using hex
      rw [hkept,hpatched]
      refine iff_of_true (rel_samePeer_refl _) fun w' hw' hex' => ?_
      obtain rfl : w=w' := some.inj (hw.symm.trans hw')
      exact absurd hex' hex

end

/-- Both ways to handle a response leave the same peers exactly if it is a full peer list or every
entry that is turned into a patch may be. -/
theorem handle_same_iff (o1 o2 o3 o4 o5 o6 : MapOrder) (clock : Time) (S : SessionPeers)
    (resp : MapResponse) :
    (∃ S', S.handle o1 o2 o3 clock resp=.ok S' ∧ ∀ id, Option.Rel SamePeer (S'.peers.lookup id)
        ((S.handleUnpatched o4 o5 o6 clock resp).peers.lookup id))
      ↔ resp.peers.elems≠[] ∨ ∀ id, resp.upgrade.Patchifiable clock S.peers id := by
  obtain ⟨resp',hresp',hpeers,hremoved,hchanged,hchange,hpatch⟩ :=
    patchifyPeersChanged_eq S.upgraded fun _ => resp.upgraded_peersChanged
  have hfull : resp.peers.elems=[] ↔ resp.upgrade.peers.elems=[] := by
    cases hp : resp.peers <;> simp [MapResponse.upgrade,hp,Slice.elems]
  obtain ⟨S',hS',hafter⟩ := S.exists_handle_eq o1 o2 o3 clock resp hresp'
  simp only [hS',Except.ok.injEq,exists_eq_left',hafter,SessionPeers.handleUnpatched]
  by_cases hp : resp.peers.elems=[]
  · rw [or_iff_right (not_not.mpr hp)]
    refine forall_congr' fun id => ?_
    rw [lookup_updatePeersState (by rw [hpeers]; exact hfull.mp hp),
      lookup_updatePeersState (hfull.mp hp),rel_edit_iff clock hremoved hchanged hchange hpatch]
  · refine iff_of_true (fun id => ?_) (.inl hp)
    have hpos := length_pos_of_ne_nil fun h => hp (hfull.mpr h)
    rw [updatePeersStateFromResponse,updatePeersStateFromResponse,hpeers,if_pos hpos,if_pos hpos,
      lookup_replaceAll,lookup_replaceAll]
    exact rel_samePeer_refl _

/-- The peers of a session with one node. -/
def SessionPeers.ofPeer (n : Node) (h : n.legacyDERPString=[]) : SessionPeers where
  peers := Peers.empty.put n
  upgraded := by
    intro id m hm
    rw [Peers.lookup_put,Peers.lookup_empty] at hm
    split at hm
    · cases hm
      exact h
    · cases hm

/-- A peer that no longer has a home DERP region keeps it if the change is made a patch. -/
theorem handle_loses_noHome :
    let S := SessionPeers.ofPeer { Node.zero with id := 1,homeDERP := 5 } rfl
    let resp : MapResponse := { peersChanged := some [{ Node.zero with id := 1 }] }
    ((S.handle .asStored .asStored .asStored 0 resp).toOption.bind fun S' =>
        (S'.peers.lookup 1).map Node.homeDERP)=some 5 ∧
      ((S.handleUnpatched .asStored .asStored .asStored 0 resp).peers.lookup 1).map Node.homeDERP
        = some 0 := by
  decide

end TunnnejiTail.Netmap
