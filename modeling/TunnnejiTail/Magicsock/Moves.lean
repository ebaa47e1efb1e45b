import TunnnejiTail.Go.Tasks
import TunnnejiTail.Magicsock.Calls

/-! The changes that every call makes to a peerMap, one after the other: an endpoint goes, is changed, or
comes in, or an address changes hands. What all of them keep is kept in every run. -/
namespace TunnnejiTail.Magicsock
open Go Netmap TunnnejiTail.Types Option Endpoint

/-- A record is deleted; its endpoint is changed and taken in again, or changed in place; a new endpoint
is taken in; an address is given to a node. -/
inductive Move
  | delete (r : Ref)
  | renew (o : MapOrder) (r : Ref) (ep : Endpoint)
  | change (r : Ref) (ep : Endpoint)
  | insert (o : MapOrder) (ep : Endpoint)
  | address (addr : EpAddr) (nk : NodePublic)

namespace Move

def run (m : PeerMap) : Move → Except Fault PeerMap
  | delete r => .ok (m.deleteEndpoint (m.info r).ep)
  | renew o r ep => (m.setEndpoint (m.info r).ep ep).upsertEndpoint o (m.info r).ep (m.epOf r).discoKey
  | change r ep => .ok (m.setEndpoint (m.info r).ep ep)
  | insert o ep => ({ m with endpoints := m.endpoints.alloc ep } : PeerMap).upsertEndpoint o m.endpoints.next (.fill 0)
  | address addr nk => .ok (m.setNodeKeyForEpAddr addr nk)

/-- What the calls see to: only records that are in use are deleted or changed, an endpoint stays that of
its node, and a new one is for a new node. -/
def Allowed (m : PeerMap) : Move → Prop
  | delete r => m.Live r
  | renew _ r ep => m.Live r ∧ ep.identity=(m.epOf r).identity ∧
    (ep.isWireguardOnly=false → ep.discoKey.isZero=true → ep.disco=none)
  | change r ep => m.Live r ∧ ep.identity=(m.epOf r).identity ∧ ep.disco=(m.epOf r).disco
  | insert _ ep => ep.Sound ∧ m.byNodeKey.lookup ep.publicKey=none ∧ m.byNodeID.lookup ep.nodeID=none
  | address _ _ => True

def table (m : PeerMap) : Move → Table
  | delete r => Function.update m.table (m.epOf r).nodeID none
  | renew _ r ep => Function.update m.table (m.epOf r).nodeID (some ep)
  | change r ep => Function.update m.table (m.epOf r).nodeID (some ep)
  | insert _ ep => Function.update m.table ep.nodeID (some ep)
  | address _ _ => m.table

end Move

namespace PeerMap
variable {m m' : PeerMap}

def Moves : PeerMap → PeerMap → Prop :=
  Relation.ReflTransGen fun a b => ∃ mv : Move, mv.Allowed a ∧ mv.run a=.ok b

lemma Moves.of_move (mv : Move) (h : mv.Allowed m) (hrun : mv.run m=.ok m') : Moves m m' :=
  .single ⟨mv,h,hrun⟩

section
variable (hm : m.Consistent)
include hm

lemma Consistent.move {mv : Move} (h : mv.Allowed m) (hrun : mv.run m=.ok m') :
    m'.Consistent ∧ m'.table=mv.table m := by
  have hsound {r : Ref} {ep : Endpoint} (hr : m.Live r) (hid : ep.identity=(m.epOf r).identity)
      (hdisco : ep.isWireguardOnly=false → ep.discoKey.isZero=false) :
      ep.nodeID=(m.epOf r).nodeID ∧ ep.publicKey=(m.epOf r).publicKey ∧ ep.Sound := by
    obtain ⟨hnodeID,hrest⟩ := Prod.mk.inj hid
    have hr := hm.indexed.sound hr
    have hkey := (Prod.mk.inj hrest).1
    exact ⟨hnodeID,hkey,hnodeID ▸ hr.nodeID,hkey ▸ hr.publicKey,hdisco⟩
  cases mv with
  | delete r =>
    cases hrun
    exact hm.deleteEndpoint h
  | renew o r ep =>
    obtain ⟨hr,hid,hzero⟩ := h
    have hdisco : ep.isWireguardOnly=false → ep.discoKey.isZero=false := by
      intro hwg
      refine Bool.not_eq_true _ ▸ fun hz => ?_
      have hget : (m.setEndpoint (m.info r).ep ep).endpoint (m.info r).ep=ep := Heap.get_set ..
      have herror := upsertEndpoint_error (m := m.setEndpoint (m.info r).ep ep) (e := (m.info r).ep)
        (by rw [hget]; exact hwg) (by rw [hget]; exact hzero hwg hz) o (m.epOf r).discoKey
      cases herror.symm.trans hrun
    obtain ⟨hnodeID,hkey,hep⟩ := hsound hr hid hdisco
    obtain ⟨hcons,htable,hlive⟩ := hm.setEndpoint hr hnodeID hkey hep
    obtain ⟨m1,hm1,hcons',htable'⟩ := hcons.upsertEndpoint hlive o (m.epOf r).discoKey
    cases hm1.symm.trans hrun
    exact ⟨hcons',htable'.trans htable⟩
  | change r ep =>
    obtain ⟨hr,hid,hsame⟩ := h
    cases hrun
    have hwg : ep.isWireguardOnly=(m.epOf r).isWireguardOnly := congrArg (fun x => x.2.2) hid
    have hdisco : ep.isWireguardOnly=false → ep.discoKey.isZero=false := by
      rw [hwg,discoKey,hsame]
      exact (hm.indexed.sound hr).disco
    obtain ⟨hnodeID,hkey,hep⟩ := hsound hr hid hdisco
    obtain ⟨hcons,htable,-⟩ := hm.setEndpoint hr hnodeID hkey hep
    exact ⟨hcons,htable⟩
  | insert o ep =>
    obtain ⟨hep,hkey,hid⟩ := h
    obtain ⟨m1,hm1,hcons,htable⟩ := hm.insertEndpoint hep hkey hid o (.fill 0)
    cases hm1.symm.trans hrun
    exact ⟨hcons,htable⟩
  | address addr nk =>
    cases hrun
    exact ⟨hm.setNodeKeyForEpAddr addr nk,(same_setNodeKeyForEpAddr m addr nk).table⟩

lemma Consistent.moves (h : Moves m m') : m'.Consistent :=
  reachable_invariant h hm fun _ _ ⟨_,hallowed,hrun⟩ ha => (ha.move hallowed hrun).1

end

lemma eq_of_devPanicf {α : Type} {dev : Bool} {a b : α} (h : devPanicf dev a=.ok b) : a=b := by
  rw [devPanicf] at h
  split at h
  · cases h
  · exact Except.ok.inj h

section
variable (env : Env) {n : Node}

lemma moves_addPeer (hid : n.id≠0) (hkey : n.key.isZero=false) (hnone : m.byNodeID.lookup n.id=none)
    (h : addPeer env m n=.ok m') : Moves m m' := by
  rw [addPeer,endpointForNodeKey,if_neg (by rw [hkey]; exact Bool.false_ne_true)] at h
  cases hk : m.byNodeKey.lookup n.key with
  | some r =>
    rw [hk] at h
    cases eq_of_devPanicf h
    exact .refl
  | none =>
    rw [hk] at h
    by_cases hw : wanted n=true
    · have hsame := create_same env.order env.now n env.flags
      refine .of_move (.insert env.order (create env.order env.now n env.flags))
        ⟨sound_create env hid hkey hw,by rw [hsame.2.1]; exact hk,by rw [hsame.1]; exact hnone⟩ ?_
      simp only [map_none,skip_eq,hw] at h
      exact h
    · simp only [map_none,skip_eq,hw] at h
      cases h
      exact .refl

variable (hm : m.Consistent)
include hm

lemma moves_upsertPeerLocked (h : upsertPeerLocked env m n=.ok m') : Moves m m' := by
  rw [upsertPeerLocked] at h
  by_cases hid : n.id=0
  · rw [if_pos hid] at h
    cases eq_of_devPanicf h
    exact .refl
  by_cases hkey : n.key.isZero=true
  · rw [if_neg hid,if_pos hkey] at h
    cases eq_of_devPanicf h
    exact .refl
  rw [if_neg hid,if_neg hkey] at h
  have hkey : n.key.isZero=false := Bool.not_eq_true _ ▸ hkey
  cases he : m.endpointForNodeID n.id with
  | none =>
    rw [he] at h
    exact moves_addPeer env hid hkey (map_eq_none_iff.mp he) h
  | some e =>
    rw [he] at h
    obtain ⟨r,hr,rfl,hrid,-⟩ := hm.of_endpointForNodeID he
    have hdelete : Moves m (m.deleteEndpoint (m.info r).ep) := .of_move (.delete r) hr rfl
    dsimp only at h
    split at h
    · refine hdelete.trans (moves_addPeer env hid hkey ?_ h)
      rw [← table_eq_none_iff,(hm.deleteEndpoint hr).2,← hrid,Function.update_self]
    · split at h
      · cases h
        exact hdelete
      · have hsame := updateFromNode_same env.order env.now (m.epOf r) n env.flags
        refine .of_move (.renew env.order r ((m.epOf r).updateFromNode env.order env.now n env.flags))
          ⟨hr,by rw [identity,hsame.1,hsame.2.1,hsame.2.2]; rfl,fun hwg hz => ?_⟩ h
        rw [discoKey_updateFromNode] at hz
        exact disco_updateFromNode _ _ _ _ _ ((hm.indexed.sound hr).disco (hsame.2.2 ▸ hwg)) hz

lemma moves_foldlM {peers : List Node}
    (h : peers.foldlM (upsertPeerLocked env) m=.ok m') : Moves m m' := by
  induction peers generalizing m with
  | nil =>
    cases h
    exact .refl
  | cons n peers ih =>
    rw [List.foldlM_cons] at h
    obtain ⟨m1,hm1,h⟩ := bind_eq_ok.mp h
    have hmoves := moves_upsertPeerLocked env hm hm1
    exact hmoves.trans (ih (hm.moves hmoves) h)

lemma moves_cleanUp (keep : List NodePublic) : Moves m (Conn.cleanUp env m keep) := by
  refine List.foldlRecOn (range env.order m.byNodeKey) _ (motive := fun m' => Moves m m') .refl ?_
  intro m' hm' e _
  have hcons := hm.moves hm'
  rw [visit]
  cases hr : m'.byNodeKey.lookup e.1 with
  | none => exact hm'
  | some r =>
    simp only [Conn.evict]
    split
    · exact hm'
    · exact hm'.trans (Moves.of_move (.delete r) (hcons.live hr) rfl)

end

end PeerMap

end TunnnejiTail.Magicsock
