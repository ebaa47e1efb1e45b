import TunnnejiTail.Netmap.Indexes

/-! AppendMatchingPeers walks the peers of the last full netmap and looks each of them up among the
current ones. Peers that a delta added since then are not in that list. -/
namespace TunnnejiTail.Netmap
open Go List Option Peers

namespace NodeBackend
variable {nb : NodeBackend}

def listed (nb : NodeBackend) : List Node := (nb.netMap.map NetworkMap.peers).getD []

def appendMatchingPeers (nb : NodeBackend) (base : List Node) (pred : Node → Bool) : List Node :=
  nb.listed.foldl
    (fun ret peer =>
      match nb.peers.lookup peer.id with
      | some peer => if pred peer then ret++[peer] else ret
      | none => ret)
    base

/-- The base, followed by the current peers that satisfy the predicate, each once. -/
def MatchesExactly (nb : NodeBackend) (base : List Node) (pred : Node → Bool) : Prop :=
  ∃ l, nb.appendMatchingPeers base pred=base++l ∧ ∀ n, l.count n=if pred n ∧ nb.peers.lookup n.id=some n then 1 else 0

def ListedOnce (nb : NodeBackend) : Prop :=
  ∀ id, (nb.peers.lookup id).isSome → (nb.listed.map Node.id).count id=1

lemma appendMatchingPeers_eq (nb : NodeBackend) (base : List Node) (pred : Node → Bool) :
    nb.appendMatchingPeers base pred = base++nb.listed.filterMap fun peer => (nb.peers.lookup peer.id).filter pred := by
  rw [appendMatchingPeers]
  induction nb.listed generalizing base with
  | nil => simp
  | cons peer peers ih =>
    rw [foldl_cons,ih,filterMap_cons]
    cases nb.peers.lookup peer.id with
    | none => rfl
    | some m => by_cases hm : pred m <;> simp [Option.filter,hm]

lemma count_appended (nb : NodeBackend) (pred : Node → Bool) (n : Node) :
    (nb.listed.filterMap fun peer => (nb.peers.lookup peer.id).filter pred).count n =
      if pred n ∧ nb.peers.lookup n.id=some n then (nb.listed.map Node.id).count n.id else 0 := by
  have hfound {id : NodeID} : (nb.peers.lookup id).filter pred=some n ↔
      (pred n ∧ nb.peers.lookup n.id=some n) ∧ id=n.id := by
    rw [filter_eq_some_iff]
    constructor
    · rintro ⟨hn,hpred⟩
      have hid := id_of_lookup hn
      exact ⟨⟨hpred,hid ▸ hn⟩,hid.symm⟩
    · rintro ⟨⟨hpred,hn⟩,rfl⟩
      exact ⟨hn,hpred⟩
  rw [count_filterMap,count_eq_countP,countP_map]
  split_ifs with hn
  · exact countP_congr fun peer _ => by simp [hfound,hn]
  · exact countP_eq_zero.mpr fun peer _ => by simp [hfound,hn]

lemma matchesExactly_iff : (∀ base pred, nb.MatchesExactly base pred) ↔ nb.ListedOnce := by
  constructor
  · intro h id hid
    obtain ⟨n,hn⟩ := isSome_iff_exists.mp hid
    have hcurrent : (true : Bool) ∧ nb.peers.lookup n.id=some n := ⟨rfl,id_of_lookup hn ▸ hn⟩
    obtain ⟨l,hl,hone⟩ := h [] fun _ => true
    have hcount := nb.count_appended (fun _ => true) n
    rw [← append_cancel_left (hl.symm.trans (nb.appendMatchingPeers_eq [] _)),hone,if_pos hcurrent,
      if_pos hcurrent,id_of_lookup hn] at hcount
    exact hcount.symm
  · intro h base pred
    refine ⟨_,nb.appendMatchingPeers_eq base pred,fun n => (nb.count_appended pred n).trans ?_⟩
    by_cases hn : pred n ∧ nb.peers.lookup n.id=some n
    · rw [if_pos hn,if_pos hn,h n.id (by rw [hn.2]; rfl)]
    · rw [if_neg hn,if_neg hn]

section
variable [Unicode]

/-- The backend after a call, also after a delta that was not handled. -/
def Call.after (nb : NodeBackend) : Call → NodeBackend
  | .setNetMap nm => nb.setNetMap nm
  | .updateNetmapDelta o muts => (nb.updateNetmapDelta o muts).2

/-- Netmaps with different IDs, and deltas that add no peer that the last netmap does not list. -/
def Call.KeepsListed (nb : NodeBackend) : Call → Prop
  | .setNetMap nm => ∀ nm' ∈ nm, (nm'.peers.map Node.id).Nodup
  | .updateNetmapDelta _ muts => ∀ n, .upsert n ∈ muts → n.id ∈ nb.listed.map Node.id

/-- The nodes that a loop over mutations holds are in a list of IDs. -/
structure DeltaLoop.Within (L : List NodeID) (nm : Option NetworkMap) (s : DeltaLoop) : Prop where
  netMap : s.nb.netMap=nm
  peers : ∀ id, (s.nb.peers.lookup id).isSome → id ∈ L
  mutable : ∀ id, (s.mutableNodes.lookup id).isSome → id ∈ L

section
variable {L : List NodeID} {nm : Option NetworkMap} {s : DeltaLoop}

lemma DeltaLoop.Within.step (h : s.Within L nm) {m : NodeMutation} (hm : ∀ n, m=.upsert n → n.id ∈ L) :
    (∃ s', deltaStep s m=.ok s' ∧ s'.Within L nm) ∨ deltaStep s m=.error s.nb := by
  rcases deltaStep_cases s m with ⟨n,rfl,hs⟩ | ⟨nid,rfl,hs⟩ | ⟨-,-,hs⟩ | ⟨n,hf,hn,hs⟩
  · refine .inl ⟨_,hs,h.netMap,fun id hid => ?_,h.mutable⟩
    change ((s.nb.peers.put n).lookup id).isSome at hid
    rw [Peers.lookup_put] at hid
    split_ifs at hid with he
    · exact he ▸ hm n rfl
    · exact h.peers id hid
  · refine .inl ⟨_,hs,(netMap_remove s.nb nid).trans h.netMap,fun id hid => ?_,h.mutable⟩
    rw [lookup_remove] at hid
    split_ifs at hid with he
    · cases hid
    · exact h.peers id hid
  · exact .inr hs
  · refine .inl ⟨_,hs,h.netMap,h.peers,fun id hid => ?_⟩
    rw [Peers.lookup_put,NodeMutation.apply_id] at hid
    split_ifs at hid with he
    · rcases or_eq_some_iff.mp hn with hn | ⟨-,hn⟩
      · exact h.mutable id (by rw [← he,id_of_lookup hn]; exact isSome_of_mem hn)
      · exact h.peers id (by rw [← he,id_of_lookup hn]; exact isSome_of_mem hn)
    · exact h.mutable id hid

lemma DeltaLoop.Within.loop {muts : List NodeMutation} (h : s.Within L nm)
    (hm : ∀ n, .upsert n ∈ muts → n.id ∈ L) :
    ∃ s', s'.Within L nm ∧ (muts.foldlM deltaStep s=.ok s' ∨ muts.foldlM deltaStep s=.error s'.nb) := by
  induction muts generalizing s with
  | nil => exact ⟨s,h,.inl rfl⟩
  | cons m muts ih =>
    rw [foldlM_cons]
    rcases h.step fun n he => hm n (he ▸ mem_cons_self) with ⟨s',hs,hwithin⟩ | hs
    · rw [hs]
      exact ih hwithin fun n hn => hm n (mem_cons_of_mem m hn)
    · rw [hs]
      exact ⟨s,h,.inr rfl⟩

end

def Listing (nb : NodeBackend) : Prop :=
  (nb.listed.map Node.id).Nodup ∧ ∀ id, (nb.peers.lookup id).isSome → id ∈ nb.listed.map Node.id

omit [Unicode] in
lemma Listing.listedOnce (h : nb.Listing) : nb.ListedOnce := fun id hid =>
  count_eq_one_of_mem h.1 (h.2 id hid)

lemma Listing.call (h : nb.Listing) {c : Call} (hc : c.KeepsListed nb) : (c.after nb).Listing := by
  cases c with
  | setNetMap nm =>
    cases nm with
    | none => exact ⟨nodup_nil,fun id hid => by cases hid⟩
    | some nm =>
      refine ⟨hc nm rfl,fun id hid => ?_⟩
      obtain ⟨n,hn⟩ := isSome_iff_exists.mp hid
      obtain ⟨hmem,rfl⟩ := (lookup_setNetMap (hc nm rfl) nb id n).mp hn
      exact List.mem_map_of_mem hmem
  | updateNetmapDelta o muts =>
    have hstart : DeltaLoop.Within (nb.listed.map Node.id) nb.netMap ⟨nb,.empty⟩ :=
      ⟨rfl,h.2,fun id hid => by simp at hid⟩
    obtain ⟨s,hs,hloop⟩ := hstart.loop hc
    have hafter : (Call.after nb (.updateNetmapDelta o muts)).netMap=nb.netMap ∧
        ∀ id, ((Call.after nb (.updateNetmapDelta o muts)).peers.lookup id).isSome → id ∈ nb.listed.map Node.id := by
      rw [Call.after,updateNetmapDelta]
      cases hnm : nb.netMap with
      | none => exact ⟨hnm,h.2⟩
      | some nm =>
        rcases hloop with hok | herror
        · rw [hok]
          refine ⟨hs.netMap.trans hnm,fun id hid => ?_⟩
          rw [lookup_writeBack,isSome_or,Bool.or_eq_true] at hid
          rcases hid with hid | hid
          · exact hs.mutable id hid
          · exact hs.peers id hid
        · rw [herror]
          exact ⟨hs.netMap.trans hnm,hs.peers⟩
    rw [Listing,listed,hafter.1]
    exact ⟨h.1,hafter.2⟩

/-- AppendMatchingPeers is exact where every current peer is listed once, and so after any calls that
keep it so. -/
theorem appendMatchingPeers_exact (nb : NodeBackend) :
    ((∀ base pred, nb.MatchesExactly base pred) ↔ nb.ListedOnce) ∧
    (Relation.ReflTransGen (fun a b => ∃ c : Call, c.KeepsListed a ∧ c.after a=b) new nb →
      ∀ base pred, nb.MatchesExactly base pred) := by
  refine ⟨matchesExactly_iff,fun h => matchesExactly_iff.mpr (Listing.listedOnce ?_)⟩
  refine reachable_invariant h ⟨nodup_nil,fun id hid => ?_⟩ fun a b hstep ha => ?_
  · cases hid
  · obtain ⟨c,hc,rfl⟩ := hstep
    exact ha.call hc

end

attribute [local instance] Unicode.ascii

/-- Of two peers one is removed and the other is now online. -/
theorem appendMatchingPeers_exact_delta :
    let nm : NetworkMap := ⟨none,[nodeAt [1],{ nodeAt [2] with id := 2 }]⟩
    let nb := ((new.setNetMap (some nm)).updateNetmapDelta .asStored [.remove 2,.online 1 true]).2
    ((∀ base pred, nb.MatchesExactly base pred) ↔ nb.ListedOnce) ∧
      (nb.MatchesExactly [] fun n => n.online.isSome) ∧ nb.appendMatchingPeers [] (fun n => n.online.isSome)
        = [{ nodeAt [1] with online := some true }] := by
  intro nm nb
  refine ⟨(appendMatchingPeers_exact nb).1,(appendMatchingPeers_exact nb).2 (.tail (.single
    ⟨.setNetMap (some nm),?_,rfl⟩) ⟨.updateNetmapDelta .asStored [.remove 2,.online 1 true],?_,rfl⟩) [] _,rfl⟩
  · intro nm' hnm
    cases hnm
    decide
  · intro n hn
    simp at hn

/-- A delta adds a peer, and it is not found. -/
theorem appendMatchingPeers_not_exact :
    let r := (new.setNetMap (some ⟨none,[]⟩)).updateNetmapDelta .asStored [.upsert (nodeAt [1])]
    r.1=true ∧ r.2.peers.lookup 1=some (nodeAt [1]) ∧ r.2.appendMatchingPeers [] (fun _ => true)=[] ∧
      ¬r.2.MatchesExactly [] fun _ => true := by
  refine ⟨rfl,rfl,rfl,?_⟩
  rintro ⟨l,hl,hone⟩
  have hl : l=[] := hl.symm
  have hcount := hone (nodeAt [1])
  rw [hl,if_pos ⟨rfl,rfl⟩] at hcount
  cases hcount

end NodeBackend

end TunnnejiTail.Netmap
