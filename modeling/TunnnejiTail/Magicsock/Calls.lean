import TunnnejiTail.Magicsock.Pass

/-! What the calls of a connection do to its peers and to the table of their endpoints. -/
namespace TunnnejiTail.Magicsock
open Go Netmap TunnnejiTail.Types List Function PeerMap

def Endpoint.identity (ep : Endpoint) : NodeID × NodePublic × Bool := (ep.nodeID,ep.publicKey,ep.isWireguardOnly)

lemma PeerMap.Consistent.keysDistinct {m : PeerMap} (hm : m.Consistent) : Table.KeysDistinct m.table :=
  fun _ _ _ _ hi hj hkey => hm.table_inj hi hj hkey

section
variable {peers : List Node} (hpeers : WellFormed peers)
include hpeers

lemma WellFormed.lookup_fill {n : Node} (hn : n ∈ peers) :
    (fill Node.id some peers (∅ : GoMap NodeID Node)).lookup n.id=some n := by
  refine lookup_fill_owner hn fun p hp hid => Or.inl ?_
  exact inj_on_of_nodup_map hpeers.ids hp hn hid

lemma WellFormed.values_fill :
    ((fill Node.id some peers (∅ : GoMap NodeID Node)).entries.map Sigma.snd).Perm peers := by
  have h : ((fill Node.id some peers (∅ : GoMap NodeID Node)).entries.map Sigma.snd).Perm (peers.filterMap some) :=
    values_fill_perm hpeers.ids
  rwa [filterMap_some] at h

lemma WellFormed.length_fill :
    (fill Node.id some peers (∅ : GoMap NodeID Node)).entries.length=peers.length := by
  rw [← hpeers.values_fill.length_eq,length_map]

lemma WellFormed.mem_keep {k : NodePublic} :
    k ∈ (fill Node.id some peers (∅ : GoMap NodeID Node)).entries.map (fun e => e.2.key) ↔ k ∈ peers.map Node.key := by
  have h := hpeers.values_fill.map Node.key
  rw [map_map] at h
  exact h.mem_iff

end

namespace Conn
variable (env : Env) {c : Conn}

lemma kept_forgetRoutes (newPeers : GoMap NodeID Node) :
    (c.forgetRoutes env newPeers).closed=c.closed ∧ (c.forgetRoutes env newPeers).discoInfo=c.discoInfo := by
  rw [forgetRoutes]
  refine foldlRecOn _ _ (motive := fun c' : Conn => c'.closed=c.closed ∧ c'.discoInfo=c.discoInfo)
    ⟨rfl,rfl⟩ fun c' hc' e _ => ?_
  split
  · split <;> exact hc'
  · exact hc'

variable (hc : c.peerMap.Consistent) (hopen : c.closed=false)
include hopen

variable {peers : List Node}

lemma setNetworkMap_same (hsame : c.sameAsBefore env peers=true) :
    c.setNetworkMap env peers=.ok c := by
  rw [setNetworkMap,updateNodes,hopen,hsame]
  rfl

include hc

lemma setNetworkMap_eq (hslow : c.sameAsBefore env peers=false)
    (hpeers : WellFormed peers) :
    (Table.NoPanic env c.peerMap.table peers → ∃ c' t, c.setNetworkMap env peers=.ok c' ∧
      c'.closed=false ∧ c'.peerMap.Consistent ∧ c'.peersByID=fill Node.id some peers ∅ ∧
      Table.After env c.peerMap.table peers t ∧ ∃ l, PeerMap.Rows t l ∧ c'.peerMap.table =
        if l.length≠peers.length then fun i => (t i).filter fun ep => decide (ep.publicKey ∈ peers.map Node.key)
        else t) ∧
    (¬Table.NoPanic env c.peerMap.table peers → c.setNetworkMap env peers=.error .panicked) := by
  have hrefines := Refines.foldlM (fun m n hm => refines_upsertPeerLocked (n := n) hm env) hc peers
  obtain ⟨hok,herr⟩ := Table.foldlM_upsert env hc.keysDistinct hpeers
  rw [setNetworkMap,updateNodes,hopen,hslow]
  constructor
  · intro hno
    obtain ⟨t,ht,hafter⟩ := hok hno
    rw [ht] at hrefines
    obtain ⟨m,hm,rfl⟩ := map_eq_ok.mp hrefines.1
    have hcons := hrefines.2 m hm
    have hcount := hcons.nodeCount_eq m.rows_byNodeID env.dev
    have hclean := hcons.cleanUp env ((fill Node.id some peers (∅ : GoMap NodeID Node)).entries.map fun e => e.2.key)
    simp only [hpeers.mem_keep] at hclean
    simp only [hm,bind,Except.bind,hcount,hpeers.length_fill]
    refine ⟨_,m.table,rfl,(kept_forgetRoutes ..).1.trans hopen,?_,rfl,hafter,_,m.rows_byNodeID,?_⟩
    · change (if m.byNodeID.keys.length≠peers.length then _ else m).Consistent
      split
      · exact hclean.1
      · exact hcons
    · change (if m.byNodeID.keys.length≠peers.length then _ else m).table=_
      split
      · exact hclean.2
      · rfl
  · intro hpanic
    have hfold : peers.foldlM (upsertPeerLocked env) c.peerMap=.error .panicked := by
      have h := hrefines.1
      rw [herr hpanic] at h
      cases hx : peers.foldlM (upsertPeerLocked env) c.peerMap with
      | error e =>
        rw [hx] at h
        cases h
        rfl
      | ok m =>
        rw [hx] at h
        cases h
    simp only [hfold]
    rfl

lemma exists_upsertPeer {n : Node} (hid : n.id≠0) {t : Table} (ht : Table.upsert env c.peerMap.table n=.ok t) :
    ∃ c', c.upsertPeer env n=.ok c' ∧ c'.closed=false ∧ c'.peerMap.Consistent ∧
      c'.peersByID=c.peersByID.insert n.id n ∧ c'.peerMap.table=t := by
  obtain ⟨hmap,hcons⟩ := refines_upsertPeerLocked (n := n) hc env
  have hclosed : (c.forgetOldKey n).closed=false := by
    rw [forgetOldKey]
    split
    · split <;> exact hopen
    · exact hopen
  rw [← hmap] at ht
  rw [upsertPeer,hopen,if_neg Bool.false_ne_true,if_neg hid]
  cases hm : upsertPeerLocked env c.peerMap n with
  | error e =>
    rw [hm] at ht
    cases ht
  | ok m =>
    rw [hm] at ht
    cases ht
    exact ⟨_,rfl,hclosed,hcons m hm,rfl,rfl⟩

lemma removePeer_eq (nid : NodeID) :
    (c.removePeer nid).closed=false ∧ (c.removePeer nid).peerMap.Consistent ∧
    (c.peersByID.lookup nid=none → c.removePeer nid=c) ∧
    ∀ prev, c.peersByID.lookup nid=some prev → (c.removePeer nid).peersByID=c.peersByID.erase nid ∧
      (c.removePeer nid).peerMap.table=Function.update c.peerMap.table nid none := by
  rw [removePeer,if_neg (by rw [hopen]; exact Bool.false_ne_true)]
  cases hprev : c.peersByID.lookup nid with
  | none =>
    refine ⟨hopen,hc,fun _ => rfl,fun prev h => ?_⟩
    cases h
  | some prev =>
    have hdelete : PeerMap.Consistent (removeEndpoint c.peerMap nid) ∧
        PeerMap.table (removeEndpoint c.peerMap nid)=Function.update c.peerMap.table nid none := by
      rw [removeEndpoint]
      cases he : c.peerMap.endpointForNodeID nid with
      | none =>
        have hnone : c.peerMap.table nid=none := table_eq_none_iff.mpr (Option.map_eq_none_iff.mp he)
        refine ⟨hc,?_⟩
        rw [← hnone,update_eq_self]
      | some e =>
        obtain ⟨r,hr,rfl,rfl,-⟩ := hc.of_endpointForNodeID he
        exact hc.deleteEndpoint hr
    refine ⟨hopen,hdelete.1,fun h => ?_,fun _ _ => ⟨rfl,hdelete.2⟩⟩
    cases h

end Conn

namespace Conn
variable {c c' : Conn}

/-- A call that leaves the peers and who their endpoints are for as they are. -/
structure Quiet (c c' : Conn) : Prop where
  closed : c'.closed=c.closed
  peersByID : c'.peersByID=c.peersByID
  consistent : c'.peerMap.Consistent
  identity : ∀ i, (c'.peerMap.table i).map Endpoint.identity=(c.peerMap.table i).map Endpoint.identity

lemma Quiet.refl (hc : c.peerMap.Consistent) : Quiet c c := ⟨rfl,rfl,hc,fun _ => rfl⟩

lemma Quiet.trans {c'' : Conn} (h : Quiet c c') (h' : Quiet c' c'') : Quiet c c'' :=
  ⟨h'.closed.trans h.closed,h'.peersByID.trans h.peersByID,h'.consistent, fun i => (h'.identity i).trans (h.identity i)⟩

lemma identity_update {t : Table} {i : NodeID} {ep ep' : Endpoint} (hi : t i=some ep)
    (hid : ep'.identity=ep.identity) (j : NodeID) :
    (Function.update t i (some ep') j).map Endpoint.identity=(t j).map Endpoint.identity := by
  by_cases hj : j=i
  · subst hj
    rw [update_self,hi,Option.map_some,Option.map_some,hid]
  · rw [update_of_ne hj]

section
variable (hc : c.peerMap.Consistent)
include hc

lemma quiet_setEndpoint {r : Ref} (hr : c.peerMap.Live r) {ep : Endpoint}
    (hid : ep.identity=(c.peerMap.epOf r).identity)
    (hdisco : ep.isWireguardOnly=false → ep.discoKey.isZero=false) :
    Quiet c { c with peerMap := c.peerMap.setEndpoint (c.peerMap.info r).ep ep } := by
  obtain ⟨hnodeID,hrest⟩ := Prod.mk.inj hid
  obtain ⟨hkey,hwg⟩ := Prod.mk.inj hrest
  have hsound := hc.indexed.sound hr
  obtain ⟨hcons,htable,-⟩ := hc.setEndpoint hr hnodeID hkey
    ⟨hnodeID ▸ hsound.nodeID,hkey ▸ hsound.publicKey,hdisco⟩
  refine ⟨rfl,rfl,hcons,fun i => ?_⟩
  rw [htable]
  exact identity_update (hc.table_eq_some_iff.mpr ⟨r,hr,rfl,rfl⟩) hid i

lemma quiet_mutate (env : Env) (mu : NodeMutation) : Quiet c (c.mutate env mu) := by
  rw [mutate]
  cases he : c.peerMap.endpointForNodeID mu.nodeIDBeingMutated with
  | none => exact Quiet.refl hc
  | some e =>
    obtain ⟨r,hr,rfl,-,-⟩ := hc.of_endpointForNodeID he
    have hdisco := (hc.indexed.sound hr).disco
    cases mu with
    | derpHome nid region => exact quiet_setEndpoint hc hr rfl hdisco
    | endpoints nid eps => exact quiet_setEndpoint hc hr rfl hdisco
    | _ => exact Quiet.refl hc

lemma quiet_updateNetmapDelta (env : Env) (muts : List NodeMutation) :
    Quiet c (c.updateNetmapDelta env muts) := by
  refine foldlRecOn muts _ (motive := fun c' : Conn => Quiet c c') (Quiet.refl hc) ?_
  intro c' hc' mu _
  exact hc'.trans (quiet_mutate hc'.consistent env mu)

end

lemma live_of_endpointForNodeKey {m : PeerMap} (hm : m.Consistent) {k : NodePublic} {e : Ref}
    (he : m.endpointForNodeKey k=some e) : ∃ r, m.Live r ∧ (m.info r).ep=e ∧ (m.epOf r).publicKey=k := by
  rw [endpointForNodeKey] at he
  split at he
  · cases he
  · obtain ⟨r,hr,rfl⟩ := Option.map_eq_some_iff.mp he
    exact ⟨r,hm.live hr,rfl,(hm.indexed.key hr).1⟩

variable (hc : c.peerMap.Consistent)
include hc

lemma quiet_setCandidates (k : NodePublic) (candidates : Candidates) :
    Quiet c (c.setCandidates k candidates) := by
  rw [setCandidates]
  cases he : c.peerMap.endpointForNodeKey k with
  | none => exact Quiet.refl hc
  | some e =>
    obtain ⟨r,hr,rfl,-⟩ := live_of_endpointForNodeKey hc he
    exact quiet_setEndpoint hc hr rfl (hc.indexed.sound hr).disco

lemma quiet_setNodeKeyForEpAddr (addr : EpAddr) (nk : NodePublic) :
    Quiet c { c with peerMap := c.peerMap.setNodeKeyForEpAddr addr nk } := by
  refine ⟨rfl,rfl,hc.setNodeKeyForEpAddr addr nk,fun i => ?_⟩
  rw [(same_setNodeKeyForEpAddr c.peerMap addr nk).table]

lemma upsertEndpoint_updateDiscoKey {r : Ref} (hr : c.peerMap.Live r)
    {key : DiscoPublic} (hkey : (c.peerMap.epOf r).isWireguardOnly=false → key.isZero=false) (env : Env)
    (old : DiscoPublic) :
    ∃ m, (c.peerMap.setEndpoint (c.peerMap.info r).ep ((c.peerMap.epOf r).updateDiscoKey key)).upsertEndpoint
        env.order (c.peerMap.info r).ep old=.ok m ∧ Quiet c { c with peerMap := m } := by
  have hdisco : ((c.peerMap.epOf r).updateDiscoKey key).isWireguardOnly=false →
      ((c.peerMap.epOf r).updateDiscoKey key).discoKey.isZero=false := by
    rw [Endpoint.discoKey_updateDiscoKey]
    exact hkey
  have hsound := hc.indexed.sound hr
  have hsound' : ((c.peerMap.epOf r).updateDiscoKey key).Sound := ⟨hsound.nodeID,hsound.publicKey,hdisco⟩
  have hid : ((c.peerMap.epOf r).updateDiscoKey key).identity=(c.peerMap.epOf r).identity := rfl
  obtain ⟨hcons,-,hlive⟩ := hc.setEndpoint hr (congrArg Prod.fst hid) (congrArg (fun x => x.2.1) hid) hsound'
  obtain ⟨m,hm,hcons',htable⟩ := hcons.upsertEndpoint hlive env.order old
  have hquiet := quiet_setEndpoint hc hr hid hdisco
  refine ⟨m,hm,rfl,rfl,hcons',fun i => ?_⟩
  rw [htable]
  exact hquiet.identity i

/-- A disco key that comes over TSMP is taken over, unless it is zero and would leave the endpoint
without one. -/
theorem handleDiscoKeyAdvertisement_eq (env : Env) (node : Node)
    (key : DiscoPublic) :
    (∀ c', c.handleDiscoKeyAdvertisement env node key=.ok c' → Quiet c c') ∧
    (key.isZero=false → ∃ c', c.handleDiscoKeyAdvertisement env node key=.ok c') := by
  rw [handleDiscoKeyAdvertisement]
  cases he : c.peerMap.endpointForNodeKey node.key with
  | none =>
    refine ⟨fun c' h => ?_,fun _ => ⟨c,rfl⟩⟩
    cases h
    exact Quiet.refl hc
  | some e =>
    obtain ⟨r,hr,rfl,-⟩ := live_of_endpointForNodeKey hc he
    by_cases hsame : (c.peerMap.endpoint (c.peerMap.info r).ep).discoKey=key
    · simp only [if_pos hsame]
      refine ⟨fun c' h => ?_,fun _ => ⟨c,rfl⟩⟩
      cases h
      exact Quiet.refl hc
    · simp only [if_neg hsame]
      by_cases hkey : (c.peerMap.epOf r).isWireguardOnly=false → key.isZero=false
      · obtain ⟨m,hm,hquiet⟩ := upsertEndpoint_updateDiscoKey hc hr hkey env (c.peerMap.epOf r).discoKey
        have hrun : (c.peerMap.setEndpoint (c.peerMap.info r).ep
            ((c.peerMap.endpoint (c.peerMap.info r).ep).updateDiscoKey key)).upsertEndpoint env.order
            (c.peerMap.info r).ep (c.peerMap.endpoint (c.peerMap.info r).ep).discoKey=.ok m := hm
        rw [hrun]
        refine ⟨fun c' h => ?_,fun _ => ⟨_,rfl⟩⟩
        cases h
        exact ⟨hquiet.closed,hquiet.peersByID,hquiet.consistent,hquiet.identity⟩
      · rw [Classical.not_imp,Bool.not_eq_false] at hkey
        have hget : (c.peerMap.setEndpoint (c.peerMap.info r).ep
            ((c.peerMap.endpoint (c.peerMap.info r).ep).updateDiscoKey key)).endpoint (c.peerMap.info r).ep
              = (c.peerMap.epOf r).updateDiscoKey key := Heap.get_set ..
        have hdisco : ((c.peerMap.epOf r).updateDiscoKey key).disco=none := if_pos hkey.2
        rw [upsertEndpoint_error (by rw [hget]; exact hkey.1) (by rw [hget]; exact hdisco)]
        refine ⟨fun c' h => ?_,fun h => ?_⟩
        · cases h
        · cases h.symm.trans hkey.2

end Conn

end TunnnejiTail.Magicsock
