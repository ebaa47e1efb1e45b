import TunnnejiTail.Go.Index
import TunnnejiTail.Go.Tasks
import TunnnejiTail.Netmap.NodeBackend

/-! The indexes of the node backend over its whole life. They are filled by SetNetMap and then kept by
the deltas; an exact index is the one that a fresh backend makes of the current nodes. -/
namespace TunnnejiTail.Netmap
open Go Netip TunnnejiTail.Types List Option Function AList Peers

variable {P : NodeID → Option Node} {touched : List NodeID} {muts : List NodeMutation}

inductive IndexKey
  | addr (a : Addr)
  | key (k : NodePublic)
  | wgString (s : Str)
  | name (s : Str)
  deriving DecidableEq

/-- Membership by the equality that the indexes use, for every type of keys. -/
def decidableMem {κ : Type} [DecidableEq κ] (k : κ) (l : List κ) : Decidable (k ∈ l) := inferInstance

namespace Node
variable [Unicode]

def HasKey (nm : Option NetworkMap) (n : Node) : IndexKey → Prop
  | .addr a => a ∈ n.addrKeys
  | .key k => k ∈ [n.key]
  | .wgString s => s ∈ [n.key.wireGuardGoString]
  | .name s => s ∈ nameKeys nm n.name

instance instDecidableHasKey (nm : Option NetworkMap) (n : Node) : DecidablePred (n.HasKey nm)
  | .addr a => decidableMem a n.addrKeys
  | .key k => decidableMem k [n.key]
  | .wgString s => decidableMem s [n.key.wireGuardGoString]
  | .name s => decidableMem s (nameKeys nm n.name)

def indexedID (n : Node) : Option NodeID := if n.id=0 then none else some n.id

end Node

namespace Index
variable {κ : Type} [DecidableEq κ] (idx : Index κ)

lemma lookup_add (keys : List κ) (id : NodeID) (k : κ) :
    (idx.add keys id).lookup k=if k ∈ keys then some id else idx.lookup k := by
  induction keys generalizing idx with
  | nil => rfl
  | cons j keys ih =>
    have hstep : idx.add (j::keys) id=Index.add (idx.insert j id) keys id := rfl
    rw [hstep,ih]
    by_cases hk : k=j
    · subst hk
      simp
    · simp [hk,lookup_insert_ne hk]

lemma lookup_remove (keys : List κ) (k : κ) :
    (idx.remove keys).lookup k=if k ∈ keys then none else idx.lookup k := lookup_foldl_erase keys idx k

lemma lookup_zeroed (k : κ) : idx.zeroed.lookup k=(idx.lookup k).map fun _ => 0 := by
  refine ext fun v => ?_
  rw [← mem_def,mem_lookup_iff,map_eq_some_iff]
  simp only [zeroed,List.mem_map,Sigma.mk.injEq,heq_eq_eq]
  constructor
  · rintro ⟨⟨j,id⟩,he,rfl,rfl⟩
    exact ⟨id,AList.mem_lookup_iff.mpr he,rfl⟩
  · rintro ⟨id,hid,rfl⟩
    exact ⟨⟨k,id⟩,AList.mem_lookup_iff.mp hid,rfl,rfl⟩

lemma lookup_nonzero (k : κ) :
    idx.nonzero.lookup k=(idx.lookup k).filter fun id => id≠0 := by
  refine ext fun v => ?_
  rw [← mem_def,mem_lookup_iff,filter_eq_some_iff,nonzero,mem_filter, ← mem_lookup_iff]
  rfl

end Index

lemma lookup_repopulateNonzero {κ : Type} [DecidableEq κ] (idx : Index κ) (keysOf : Node → List κ)
    (nodes : List Node) (k : κ) : (repopulateNonzero idx keysOf nodes).lookup k
      = (nodes.filter fun n => k ∈ keysOf n).getLast?.bind Node.indexedID := by
  have hfill (idx : Index κ) : (nodes.foldl (fun m n => Index.add m (keysOf n) n.id) idx).lookup k
      = ((nodes.filter fun n => k ∈ keysOf n).getLast?.map Node.id).or (idx.lookup k) := by
    induction nodes generalizing idx with
    | nil => rfl
    | cons n nodes ih =>
      rw [foldl_cons,ih,Index.lookup_add]
      by_cases hk : k ∈ keysOf n
      · rw [if_pos hk,filter_cons_of_pos (by simpa using hk),getLast?_cons]
        cases (nodes.filter fun n => k ∈ keysOf n).getLast? <;> rfl
      · rw [if_neg hk,filter_cons_of_neg (by simpa using hk)]
  rw [repopulateNonzero,Index.lookup_nonzero,hfill,Index.lookup_zeroed]
  cases (nodes.filter fun n => k ∈ keysOf n).getLast? with
  | none => cases idx.lookup k <;> rfl
  | some n => by_cases h0 : n.id=0 <;> simp [Node.indexedID,h0]

section
variable [Unicode]

namespace NodeBackend

def find (nb : NodeBackend) : IndexKey → Option NodeID
  | .addr a => nb.nodeByAddr.lookup a
  | .key k => nb.nodeByKey.lookup k
  | .wgString s => nb.nodeByWGString.lookup s
  | .name s => nb.nodeByName.lookup s

lemma find_upsert (nb : NodeBackend) (n : Node) (k : IndexKey) :
    (nb.upsert n).find k=if n.HasKey nb.netMap k then some n.id else nb.find k := by
  cases k with
  | addr a => exact Index.lookup_add nb.nodeByAddr n.addrKeys n.id a
  | key k => exact Index.lookup_add nb.nodeByKey [n.key] n.id k
  | wgString s => exact Index.lookup_add nb.nodeByWGString [n.key.wireGuardGoString] n.id s
  | name s => exact Index.lookup_add nb.nodeByName (Node.nameKeys nb.netMap n.name) n.id s

variable {nb : NodeBackend}

lemma find_remove {id : NodeID} {old : Node} (h : nb.peers.lookup id=some old)
    (k : IndexKey) : (nb.remove id).find k=if old.HasKey nb.netMap k then none else nb.find k := by
  rw [remove,h]
  cases k with
  | addr a => exact Index.lookup_remove nb.nodeByAddr old.addrKeys a
  | key k => exact Index.lookup_remove nb.nodeByKey [old.key] k
  | wgString s => exact Index.lookup_remove nb.nodeByWGString [old.key.wireGuardGoString] s
  | name s => exact Index.lookup_remove nb.nodeByName (Node.nameKeys nb.netMap old.name) s

lemma find_setNetMap (nb : NodeBackend) (nm : NetworkMap) (k : IndexKey) : (nb.setNetMap (some nm)).find k
      = (nm.nodes.filter fun n => n.HasKey (some nm) k).getLast?.bind Node.indexedID := by
  cases k with
  | addr a => exact lookup_repopulateNonzero nb.nodeByAddr Node.addrKeys nm.nodes a
  | key k => exact lookup_repopulateNonzero nb.nodeByKey (fun n => [n.key]) nm.nodes k
  | wgString s =>
    exact lookup_repopulateNonzero nb.nodeByWGString (fun n => [n.key.wireGuardGoString]) nm.nodes s
  | name s =>
    exact lookup_repopulateNonzero nb.nodeByName (fun n => Node.nameKeys (some nm) n.name) nm.nodes s

/-- The places of the current nodes: one for the self node and one for each peer. -/
def slot (nb : NodeBackend) : Option NodeID → Option Node
  | none => nb.netMap.bind NetworkMap.selfNode
  | some id => nb.peers.lookup id

/-- The indexes are those that a fresh backend makes of the current nodes. -/
def Exact (nb : NodeBackend) : Prop :=
  ∀ o, nb.find=(new.setNetMap (nb.netMapWithPeers o)).find

structure Indexed (nb : NodeBackend) : Prop where
  unshared : Unshared (Node.HasKey nb.netMap) nb.slot
  index : IndexOf (Node.HasKey nb.netMap) Node.indexedID nb.slot nb.find
  noPeers : nb.netMap=none → ∀ id, nb.peers.lookup id=none

omit [Unicode] in
lemma mem_nodes_iff {nm : NetworkMap} (hnm : nb.netMap=some nm) (o : MapOrder)
    (n : Node) : n ∈ nm.selfNode.toList++sortStable Node.id ((range o nb.peers.nodes).map Prod.snd)
      ↔ ∃ s, nb.slot s=some n := by
  have hpeers : n ∈ sortStable Node.id ((range o nb.peers.nodes).map Prod.snd)
      ↔ ∃ id, nb.peers.lookup id=some n := by
    rw [sortStable,(perm_insertionSort _ _).mem_iff]
    constructor
    · intro h
      obtain ⟨⟨id,m⟩,hm,rfl⟩ := List.mem_map.mp h
      exact ⟨id,(mem_range o nb.peers.nodes id m).mp hm⟩
    · rintro ⟨id,hid⟩
      exact List.mem_map.mpr ⟨(id,n),(mem_range o nb.peers.nodes id n).mpr hid,rfl⟩
  rw [mem_append,mem_toList,hpeers]
  constructor
  · rintro (hself | ⟨id,hid⟩)
    · exact ⟨none,by rw [slot,hnm]; exact hself⟩
    · exact ⟨some id,hid⟩
  · rintro ⟨s,hs⟩
    cases s with
    | none => exact .inl (by rw [slot,hnm] at hs; exact hs)
    | some id => exact .inr ⟨id,hs⟩

lemma Indexed.exact (h : nb.Indexed) : nb.Exact := by
  intro o
  refine h.index.unique ?_
  cases hnm : nb.netMap with
  | none =>
    have hslot (s : Option NodeID) : nb.slot s=none := by
      cases s with
      | none => rw [slot,hnm]; rfl
      | some id => exact h.noPeers hnm id
    intro k id
    refine iff_of_false (fun hk => ?_) ?_
    · rw [netMapWithPeers,hnm] at hk
      cases k <;> cases hk
    · rintro ⟨s,n,hs,-⟩
      cases (hslot s).symm.trans hs
  | some nm =>
    have hun := h.unshared
    rw [hnm] at hun
    rw [netMapWithPeers,hnm]
    intro k id
    rw [Option.map_some,find_setNetMap]
    exact IndexOf.ofList hun (mem_nodes_iff hnm o) k id

lemma indexed_new : new.Indexed where
  unshared := by
    intro s t n m k hs
    cases s <;> cases hs
  index := by
    intro k id
    refine iff_of_false (fun hk => by cases k <;> cases hk) ?_
    rintro ⟨s,n,hs,-⟩
    cases s <;> cases hs
  noPeers := fun _ _ => rfl

end NodeBackend

/-- A netmap whose peers have different IDs and whose nodes have no address, key, WireGuard string or
name in common. -/
structure NetworkMap.Apart (nm : NetworkMap) : Prop where
  ids : (nm.peers.map Node.id).Nodup
  keys : nm.nodes.Pairwise fun a b => ∀ k, a.HasKey (some nm) k → ¬b.HasKey (some nm) k

namespace NodeBackend

variable {nm : NetworkMap}

lemma lookup_setNetMap (h : (nm.peers.map Node.id).Nodup) (nb : NodeBackend) (id : NodeID) (n : Node) :
    (nb.setNetMap (some nm)).peers.lookup id=some n ↔ n ∈ nm.peers ∧ n.id=id := by
  have hlast : (nb.setNetMap (some nm)).peers.lookup id=(forKey Node.id id nm.peers).getLast? :=
    lookup_ofList nm.peers id
  rw [hlast]
  constructor
  · exact fun hn => mem_forKey.mp (mem_of_getLast? hn)
  · intro hn
    have hne : forKey Node.id id nm.peers≠[] := ne_nil_of_mem (mem_forKey.mpr hn)
    obtain ⟨hmem,hid⟩ := mem_forKey.mp (getLast_mem hne)
    rw [getLast?_eq_some_getLast hne, inj_on_of_nodup_map h hmem hn.1 (hid.trans hn.2.symm)]

lemma indexed_setNetMap (h : nm.Apart) (nb : NodeBackend) : (nb.setNetMap (some nm)).Indexed := by
  obtain ⟨hids,hkeys⟩ := h
  obtain ⟨-,hpeers,hself⟩ := pairwise_append.mp hkeys
  have hslot (s : Option NodeID) (n : Node) : (nb.setNetMap (some nm)).slot s=some n ↔
      (s=none ∧ nm.selfNode=some n) ∨ (s=some n.id ∧ n ∈ nm.peers) := by
    cases s with
    | none =>
      change nm.selfNode=some n ↔ _
      simp
    | some id =>
      change (nb.setNetMap (some nm)).peers.lookup id=some n ↔ _
      rw [lookup_setNetMap hids]
      simp [and_comm,eq_comm]
  have hun : Unshared (Node.HasKey (some nm)) (nb.setNetMap (some nm)).slot := by
    intro s t n m k hs ht hn hm
    rw [hslot] at hs ht
    rcases hs with ⟨rfl,hs⟩ | ⟨rfl,hs⟩ <;> rcases ht with ⟨rfl,ht⟩ | ⟨rfl,ht⟩
    · rfl
    · exact absurd hm (hself n (mem_toList.mpr hs) m ht k hn)
    · exact absurd hn (hself m (mem_toList.mpr ht) n hs k hm)
    · by_cases he : n=m
      · rw [he]
      · have : Std.Symm fun a b : Node => ∀ k, a.HasKey (some nm) k → ¬b.HasKey (some nm) k :=
          ⟨fun a b hab k hb ha => hab k ha hb⟩
        exact absurd hm (hpeers.forall hs ht he k hn)
  refine ⟨hun,fun k id => ?_,fun hnm => by cases hnm⟩
  rw [find_setNetMap]
  refine IndexOf.ofList hun (fun n => ?_) k id
  simp only [NetworkMap.nodes,mem_append,mem_toList,hslot]
  simp [exists_or]

/-- A node that may be put among the peers: it has the keys of the peer it replaces and none of
another node. -/
structure Takes (nm : Option NetworkMap) (P : NodeID → Option Node) (n : Node) : Prop where
  id : n.id≠0
  replaced : ∀ old, P n.id=some old → ∀ k, old.HasKey nm k → n.HasKey nm k
  self : ∀ self, nm.bind NetworkMap.selfNode=some self → ∀ k, self.HasKey nm k → ¬n.HasKey nm k
  others : ∀ id m, id≠n.id → P id=some m → ∀ k, m.HasKey nm k → ¬n.HasKey nm k

/-- A list of mutations that the indexes can follow, for the peers and the nodes that were changed in
place so far. -/
def CarefulDelta (nm : Option NetworkMap) :
    (NodeID → Option Node) → List NodeID → List NodeMutation → Prop
  | _,_,[] => True
  | P,touched,.upsert n::muts => n.id ∉ touched ∧ Takes nm P n ∧
    CarefulDelta nm (Function.update P n.id (some n)) touched muts
  | P,touched,.remove id::muts => id ∉ touched ∧ CarefulDelta nm (Function.update P id none) touched muts
  | P,touched,m::muts => CarefulDelta nm P (m.nodeIDBeingMutated::touched) muts

def SameKeys (a b : Node) : Prop :=
  a.id=b.id ∧ a.key=b.key ∧ a.name=b.name ∧ a.addresses=b.addresses

variable {m : NodeMutation}

omit [Unicode] in
lemma sameKeys_apply (h : m.perField=true) (n : Node) : SameKeys (m.apply n) n := by
  cases m with
  | upsert n => cases h
  | remove nid => cases h
  | _ => exact ⟨rfl,rfl,rfl,rfl⟩

omit [Unicode] in
lemma SameKeys.refl (a : Node) : SameKeys a a := ⟨rfl,rfl,rfl,rfl⟩

variable {a b : Node}

omit [Unicode] in
lemma SameKeys.trans {c : Node} (h : SameKeys a b) (h' : SameKeys b c) : SameKeys a c :=
  ⟨h.1.trans h'.1,h.2.1.trans h'.2.1,h.2.2.1.trans h'.2.2.1,h.2.2.2.trans h'.2.2.2⟩

lemma SameKeys.hasKey (h : SameKeys a b) (nm : Option NetworkMap) :
    a.HasKey nm=b.HasKey nm := by
  obtain ⟨-,hkey,hname,haddr⟩ := h
  funext k
  cases k <;> simp only [Node.HasKey,Node.addrKeys,hkey,hname,haddr]

omit [Unicode] in
lemma SameKeys.indexedID (h : SameKeys a b) : a.indexedID=b.indexedID := by
  rw [Node.indexedID,Node.indexedID,h.1]

/-- The loop over the mutations, in the middle. -/
structure Following (nm : Option NetworkMap) (P : NodeID → Option Node) (touched : List NodeID)
    (s : DeltaLoop) : Prop where
  indexed : s.nb.Indexed
  netMap : s.nb.netMap=nm
  peers : s.nb.peers.lookup=P
  copies : ∀ id n', s.mutableNodes.lookup id=some n' → id ∈ touched ∧ ∃ n, P id=some n ∧ SameKeys n' n

lemma lookup_upsert_eq (nb : NodeBackend) (n : Node) :
    (nb.upsert n).peers.lookup=Function.update nb.peers.lookup n.id (some n) := by
  funext id
  rw [upsert_peers,lookup_put,update_apply]
  simp only [eq_comm]

lemma lookup_remove_eq (nb : NodeBackend) (id : NodeID) :
    (nb.remove id).peers.lookup=Function.update nb.peers.lookup id none := by
  funext j
  rw [lookup_remove,update_apply]
  simp only [eq_comm]

@[simp] lemma netMap_remove (nb : NodeBackend) (id : NodeID) : (nb.remove id).netMap=nb.netMap := by
  rw [remove]
  split <;> rfl

variable {nb nb' : NodeBackend}

omit [Unicode] in
lemma slot_eq_update (hnm : nb'.netMap=nb.netMap) {id : NodeID}
    {v : Option Node} (h : nb'.peers.lookup=Function.update nb.peers.lookup id v) :
    nb'.slot=Function.update nb.slot (some id) v := by
  funext s
  cases s with
  | none =>
    rw [update_of_ne (by simp),slot,slot,hnm]
  | some j =>
    change nb'.peers.lookup j=_
    rw [h,update_apply,update_apply]
    simp only [Option.some.injEq]
    rfl

lemma Indexed.upsert (h : nb.Indexed) (hnm : nb.netMap.isSome) {n : Node}
    (ht : Takes nb.netMap nb.peers.lookup n) : (nb.upsert n).Indexed := by
  have hfree (t : Option NodeID) (m : Node) (k : IndexKey) (hne : t≠some n.id)
      (hm : nb.slot t=some m) (hk : m.HasKey nb.netMap k) : ¬n.HasKey nb.netMap k := by
    cases t with
    | none => exact ht.self m hm k hk
    | some id => exact ht.others id m (fun hid => hne (congrArg some hid)) hm k hk
  have hslot : (nb.upsert n).slot=Function.update nb.slot (some n.id) (some n) :=
    slot_eq_update (show (nb.upsert n).netMap=nb.netMap from rfl) (nb.lookup_upsert_eq n)
  constructor
  · rw [hslot]
    exact h.unshared.put hfree
  · have hfind : (nb.upsert n).find=fun k => if n.HasKey nb.netMap k then some n.id else nb.find k :=
      funext fun k => find_upsert nb n k
    rw [hslot,hfind]
    exact h.index.put (if_neg ht.id) hfree fun old k hold => ht.replaced old hold k
  · intro hnone
    rw [show nb.netMap=none from hnone] at hnm
    cases hnm

lemma Indexed.remove (h : nb.Indexed) (id : NodeID) : (nb.remove id).Indexed := by
  cases hold : nb.peers.lookup id with
  | none =>
    have hsame : nb.remove id=nb := by rw [NodeBackend.remove,hold]
    rw [hsame]
    exact h
  | some old =>
    have hslot : (nb.remove id).slot=Function.update nb.slot (some id) none :=
      slot_eq_update (nb.netMap_remove id) (nb.lookup_remove_eq id)
    constructor
    · rw [hslot,netMap_remove]
      exact h.unshared.erase
    · have hfind : (nb.remove id).find=fun k => if old.HasKey nb.netMap k then none else nb.find k :=
        funext fun k => find_remove hold k
      rw [hslot,netMap_remove,hfind]
      exact h.index.erase h.unshared hold
    · intro hnone j
      rw [netMap_remove] at hnone
      rw [lookup_remove,h.noPeers hnone,ite_self]

variable {nm : Option NetworkMap}

lemma carefulDelta_perField (hf : m.perField=true)
    (h : CarefulDelta nm P touched (m::muts)) : CarefulDelta nm P (m.nodeIDBeingMutated::touched) muts := by
  cases m with
  | upsert n => cases hf
  | remove nid => cases hf
  | _ => exact h

section
variable {nm : Option NetworkMap} (hnm : nm.isSome) {s s' : DeltaLoop}
include hnm

lemma Following.step {m : NodeMutation} (h : Following nm P touched s)
    (hm : CarefulDelta nm P touched (m::muts)) (hs : deltaStep s m=.ok s') :
    ∃ P' touched', Following nm P' touched' s' ∧ CarefulDelta nm P' touched' muts := by
  obtain ⟨hindexed,hnetMap,hpeers,hcopies⟩ := h
  have hcopies' {id : NodeID} (hid : id ∉ touched) (v : Option Node) : ∀ j n',
      s.mutableNodes.lookup j=some n' →
      j ∈ touched ∧ ∃ n, Function.update P id v j=some n ∧ SameKeys n' n := by
    intro j n' hn'
    obtain ⟨hj,n,hn,hsame⟩ := hcopies j n' hn'
    refine ⟨hj,n,?_,hsame⟩
    rw [update_of_ne fun he : j=id => hid (he ▸ hj)]
    exact hn
  rcases deltaStep_cases s m with ⟨n,rfl,he⟩ | ⟨nid,rfl,he⟩ | ⟨-,-,he⟩ | ⟨n,hf,hn,he⟩
  · rw [he] at hs
    cases hs
    obtain ⟨htouched,htakes,hrest⟩ := hm
    refine ⟨_,touched,⟨?_,hnetMap,?_,hcopies' htouched _⟩,hrest⟩
    · exact hindexed.upsert (hnetMap ▸ hnm) (by rw [hnetMap,hpeers]; exact htakes)
    · rw [lookup_upsert_eq,hpeers]
  · rw [he] at hs
    cases hs
    obtain ⟨htouched,hrest⟩ := hm
    refine ⟨_,touched,⟨hindexed.remove nid,?_,?_,hcopies' htouched _⟩,hrest⟩
    · rw [netMap_remove,hnetMap]
    · rw [lookup_remove_eq,hpeers]
  · rw [he] at hs
    cases hs
  · rw [he] at hs
    cases hs
    refine ⟨P,_,⟨hindexed,hnetMap,hpeers,fun id n' hn' => ?_⟩,carefulDelta_perField hf hm⟩
    have hP : ∃ n0, P m.nodeIDBeingMutated=some n0 ∧ SameKeys n n0 := by
      rw [← hpeers]
      rcases or_eq_some_iff.mp hn with hn | ⟨-,hn⟩
      · obtain ⟨-,n0,hn0,hsame⟩ := hcopies _ n hn
        exact ⟨n0,hpeers ▸ hn0,hsame⟩
      · exact ⟨n,hn,SameKeys.refl n⟩
    obtain ⟨n0,hn0,hsame⟩ := hP
    have hput : (s.mutableNodes.put (m.apply n)).lookup id=some n' := hn'
    rw [lookup_put] at hput
    split at hput
    · next hid =>
      cases hput
      have hsame' := (sameKeys_apply hf n).trans hsame
      have hm : m.nodeIDBeingMutated=id := by
        rw [← hid,hsame'.1]
        exact (id_of_lookup (hpeers ▸ hn0 : s.nb.peers.lookup _=some n0)).symm
      subst hm
      exact ⟨mem_cons_self,n0,hn0,hsame'⟩
    · obtain ⟨hid,h⟩ := hcopies id n' hput
      exact ⟨mem_cons_of_mem _ hid,h⟩

lemma Following.loop (h : Following nm P touched s)
    (hm : CarefulDelta nm P touched muts) (hs : muts.foldlM deltaStep s=.ok s') :
    ∃ P' touched', Following nm P' touched' s' := by
  induction muts generalizing P touched s with
  | nil =>
    cases hs
    exact ⟨P,touched,h⟩
  | cons m muts ih =>
    obtain ⟨t,ht,hs⟩ := foldlM_cons_ok.mp hs
    obtain ⟨P',touched',h',hm'⟩ := h.step hnm hm ht
    exact ih h' hm' hs

end

lemma Following.writeBack
    {s : DeltaLoop} (h : Following nm P touched s) (hnm : nb.netMap=s.nb.netMap) (hfind : nb.find=s.nb.find)
    (hpeers : ∀ id, nb.peers.lookup id=(s.mutableNodes.lookup id).or (s.nb.peers.lookup id)) :
    nb.Indexed := by
  have hsame (t : Option NodeID) :
      (nb.slot t).map (fun n => (Node.HasKey s.nb.netMap n,n.indexedID))
        = (s.nb.slot t).map fun n => (Node.HasKey s.nb.netMap n,n.indexedID) := by
    cases t with
    | none => rw [slot,slot,hnm]
    | some id =>
      change (nb.peers.lookup id).map _=(s.nb.peers.lookup id).map _
      rw [hpeers]
      cases hcopy : s.mutableNodes.lookup id with
      | none => rfl
      | some n' =>
        obtain ⟨-,n,hn,hsame⟩ := h.copies id n' hcopy
        rw [h.peers,hn,some_or,Option.map_some,Option.map_some,hsame.hasKey,hsame.indexedID]
  refine ⟨?_,?_,fun hnone id => ?_⟩
  · rw [hnm]
    exact h.indexed.unshared.congr hsame
  · rw [hnm,hfind]
    exact h.indexed.index.congr hsame
  · have hslot := hsame (some id)
    change (nb.peers.lookup id).map _=(s.nb.peers.lookup id).map _ at hslot
    rw [h.indexed.noPeers (hnm ▸ hnone)] at hslot
    exact map_eq_none_iff.mp hslot

lemma Indexed.updateNetmapDelta (h : nb.Indexed) {o : MapOrder}
    (hc : CarefulDelta nb.netMap nb.peers.lookup [] muts) (hhandled : (nb.updateNetmapDelta o muts).1=true) :
    (nb.updateNetmapDelta o muts).2.Indexed := by
  cases hnm : nb.netMap with
  | none =>
    rw [NodeBackend.updateNetmapDelta,hnm] at hhandled
    cases hhandled
  | some nm =>
    cases hs : muts.foldlM deltaStep ⟨nb,.empty⟩ with
    | error nb' =>
      rw [lookup_of_foldlM_error (by rw [hnm]; rfl) hs] at hhandled
      cases hhandled
    | ok s =>
      have hstart : Following nb.netMap nb.peers.lookup [] ⟨nb,.empty⟩ :=
        ⟨h,rfl,rfl,fun id n' hn' => by cases (Peers.lookup_empty id).symm.trans hn'⟩
      obtain ⟨P,touched,hs'⟩ := hstart.loop (by rw [hnm]; rfl) hc hs
      rw [NodeBackend.updateNetmapDelta,hnm,hs]
      exact hs'.writeBack rfl rfl fun id => lookup_writeBack ..

inductive Call
  | setNetMap (nm : Option NetworkMap)
  | updateNetmapDelta (o : MapOrder) (muts : List NodeMutation)

/-- The backend after a call; a delta that is not handled is no call. -/
def Call.run (nb : NodeBackend) : Call → Option NodeBackend
  | .setNetMap nm => some (nb.setNetMap nm)
  | .updateNetmapDelta o muts =>
    match nb.updateNetmapDelta o muts with
    | (true,nb') => some nb'
    | (false,_) => none

def Call.Careful (nb : NodeBackend) : Call → Prop
  | .setNetMap nm => ∀ nm' ∈ nm, NetworkMap.Apart nm'
  | .updateNetmapDelta _ muts => CarefulDelta nb.netMap nb.peers.lookup [] muts

lemma Indexed.call (h : nb.Indexed) {c : Call} (hc : c.Careful nb)
    (hrun : c.run nb=some nb') : nb'.Indexed := by
  cases c with
  | setNetMap nm =>
    cases hrun
    cases nm with
    | none => exact indexed_new
    | some nm => exact indexed_setNetMap (hc nm rfl) nb
  | updateNetmapDelta o muts =>
    rw [Call.run] at hrun
    split at hrun
    · next nb1 he =>
      cases hrun
      have hdelta := h.updateNetmapDelta (o := o) hc (by rw [he])
      rwa [he] at hdelta
    · cases hrun

/-- After any careful calls on a new backend the indexes are exact. -/
theorem indexes_exact {nb : NodeBackend}
    (h : Relation.ReflTransGen (fun a b => ∃ c : Call, c.Careful a ∧ c.run a=some b) new nb) : nb.Exact := by
  have hindexed : nb.Indexed := reachable_invariant h indexed_new fun a b hstep ha => by
    obtain ⟨c,hc,hrun⟩ := hstep
    exact ha.call hc hrun
  exact hindexed.exact

end NodeBackend

end

namespace NodeBackend
attribute [local instance] Unicode.ascii

def nodeAt (l : List (BitVec 32)) : Node :=
  { Node.zero with id := 1,addresses := some (l.map fun a => .v4 a (bits4 32)) }

lemma apart_nodeAt (l : List (BitVec 32)) : NetworkMap.Apart ⟨none,[nodeAt l]⟩ :=
  ⟨nodup_singleton _,pairwise_singleton _ _⟩

theorem indexes_exact_second_address :
    let nb := ((ofPeer (nodeAt [1])).updateNetmapDelta .asStored [.upsert (nodeAt [1,2])]).2
    nb.Exact ∧ nb.find (.addr (.v4 2))=some 1 := by
  have htakes : Takes (some ⟨none,[nodeAt [1]]⟩) (ofPeer (nodeAt [1])).peers.lookup (nodeAt [1,2]) := by
    refine ⟨by decide,fun old hold k hk => ?_,fun self hself => ?_,fun id m hid hm => ?_⟩
    · cases hold
      cases k with
      | addr a => exact mem_of_mem_take (i := 1) hk
      | key k => exact hk
      | wgString s => exact hk
      | name s => exact hk
    · cases hself
    · have hne : (nodeAt [1]).id≠id := fun he => hid he.symm
      change (Peers.empty.put (nodeAt [1])).lookup id=some m at hm
      rw [Peers.lookup_put,if_neg hne,Peers.lookup_empty] at hm
      cases hm
  refine ⟨indexes_exact (.tail (.single ⟨.setNetMap (some ⟨none,[nodeAt [1]]⟩),?_,rfl⟩)
    ⟨.updateNetmapDelta .asStored [.upsert (nodeAt [1,2])],?_,rfl⟩),by decide⟩
  · intro nm hnm
    cases hnm
    exact apart_nodeAt [1]
  · exact ⟨by simp,htakes,trivial⟩

/-- A peer that moves to another address is still found under the first one. -/
theorem moved_peer_found :
    let nb := ofPeer (nodeAt [1])
    let r := nb.updateNetmapDelta .asStored [.upsert (nodeAt [2])]
    r.1=true ∧ nb.Indexed ∧ Unshared (Node.HasKey r.2.netMap) r.2.slot ∧
      r.2.find (.addr (.v4 1))=some 1 ∧ ¬r.2.Exact := by
  have hslot {s : Option NodeID} {n : Node} (hs : ((ofPeer (nodeAt [1])).updateNetmapDelta .asStored
      [.upsert (nodeAt [2])]).2.slot s=some n) : s=some 1 := by
    cases s with
    | none => cases hs
    | some id =>
      change ((Peers.empty.put (nodeAt [1])).put (nodeAt [2])).lookup id=some n at hs
      rw [Peers.lookup_put,Peers.lookup_put,Peers.lookup_empty] at hs
      by_cases hid : (1 : NodeID)=id
      · rw [hid]
      · have hne (l : List (BitVec 32)) : (nodeAt l).id≠id := hid
        rw [if_neg (hne _),if_neg (hne _)] at hs
        cases hs
  refine ⟨by decide,indexed_setNetMap (apart_nodeAt [1]) new,fun s t n m k hs ht _ _ => ?_,by decide, fun h => ?_⟩
  · rw [hslot hs,hslot ht]
  · have hfresh := congrFun (h .asStored) (.addr (.v4 1))
    revert hfresh
    decide

end NodeBackend

end TunnnejiTail.Netmap
