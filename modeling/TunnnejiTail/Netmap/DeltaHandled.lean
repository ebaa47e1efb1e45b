import TunnnejiTail.Netmap.LocalBackend
import TunnnejiTail.Netmap.LockFilter

/-! Which deltas the local backend applies completely. It reports every delta as handled, but the node
backend gives up at the first change of a field of a peer it does not have, and writes its copies of
patched nodes over the peers at the end. -/
namespace TunnnejiTail.Netmap
open Go Tka List Option NodeMutation Peers

/-- The loop gives up at a mutation: it changes a field of a node that no mutation before it patched
and that is not among the peers. -/
def StopsAt (P : Peers) (pre : List NodeMutation) (m : NodeMutation) : Prop :=
  m.perField=true ∧
  (∀ m' ∈ pre, m'.perField=true → m'.nodeIDBeingMutated≠m.nodeIDBeingMutated) ∧
  (P.mutateAll pre).lookup m.nodeIDBeingMutated=none

def NeverStops (P : Peers) (muts : List NodeMutation) : Prop :=
  ∀ pre m post, muts=pre++m::post → ¬StopsAt P pre m

def structural (muts : List NodeMutation) : List NodeMutation := muts.filter fun m => !m.perField

def patchedBy (muts : List NodeMutation) (n : Node) : Node :=
  (muts.filter NodeMutation.perField).foldl (fun n m => m.apply n) n

/-- A node that is patched is neither inserted nor removed later in the list, or that makes no
difference. -/
def PatchesLast (P : Peers) (muts : List NodeMutation) : Prop :=
  ∀ pre m post n, muts=pre++m::post → m.perField=true →
    (∀ m' ∈ pre, m'.perField=true → m'.nodeIDBeingMutated≠m.nodeIDBeingMutated) →
    (P.mutateAll pre).lookup m.nodeIDBeingMutated=some n →
    (∀ m' ∈ post, m'.nodeIDBeingMutated=m.nodeIDBeingMutated → m'.perField=true) ∨
    (P.mutateAll muts).lookup m.nodeIDBeingMutated=some
      (patchedBy (forKey NodeMutation.nodeIDBeingMutated m.nodeIDBeingMutated (m::post)) n)

namespace NodeBackend
variable {id : NodeID}

lemma structural_cons (m : NodeMutation) (l : List NodeMutation) :
    structural (m::l)=if m.perField then structural l else m::structural l := by
  cases h : m.perField <;> simp [structural,h]

variable {l : List NodeMutation}

lemma foldlM_deltaAct {b b' : Option Node × Option Node}
    (h : l.foldlM deltaAct b=some b') : b'.1=(structural l).foldl act b.1 ∧
      (b'.2=none ↔ b.2=none ∧ ∀ m ∈ l, m.perField=false) ∧ ∀ c, b.2=some c → b'.2=some (patchedBy l c) := by
  induction l generalizing b with
  | nil =>
    cases h
    exact ⟨rfl,by simp,fun c hc => hc⟩
  | cons m l ih =>
    rw [foldlM_cons] at h
    obtain ⟨t,ht,hl⟩ := bind_eq_some_iff.mp h
    obtain ⟨hp,hnone,hsome⟩ := ih hl
    rw [structural_cons]
    cases hm : m.perField with
    | true =>
      rw [deltaAct_of_perField hm] at ht
      obtain ⟨n,hn,rfl⟩ := map_eq_some_iff.mp ht
      refine ⟨hp,?_,fun c hc => ?_⟩
      · rw [hnone]
        simp [hm]
      · rw [hc] at hn
        cases hn
        rw [hsome _ rfl,patchedBy,patchedBy,filter_cons_of_pos hm,foldl_cons]
    | false =>
      have hstep : t.1=act b.1 m ∧ t.2=b.2 := by
        cases m with
        | upsert n =>
          cases ht
          exact ⟨rfl,rfl⟩
        | remove nid =>
          cases ht
          exact ⟨rfl,rfl⟩
        | _ => cases hm
      refine ⟨?_,?_,fun c hc => ?_⟩
      · rw [hp,hstep.1]
        rfl
      · rw [hnone,hstep.2]
        simp [hm]
      · rw [hsome c (hstep.2.trans hc),patchedBy,patchedBy,filter_cons_of_neg (by simp [hm])]

lemma forKey_structural (l : List NodeMutation) : forKey nodeIDBeingMutated id (structural l)
      = structural (forKey nodeIDBeingMutated id l) := by
  rw [forKey,structural,structural,forKey,filter_comm]

section
variable [Unicode] {nb : NodeBackend} {muts : List NodeMutation} {s : DeltaLoop}

lemma view_of_ok (hs : muts.foldlM deltaStep ⟨nb,.empty⟩=.ok s) (id : NodeID) :
    (s.view id).1=(nb.peers.mutateAll (structural muts)).lookup id ∧ ((s.view id).2=none ↔
        ∀ m ∈ muts, m.perField=true → m.nodeIDBeingMutated≠id) := by
  have hact := deltaStep_keyed.foldlM_ok hs id
  obtain ⟨hp,hnone,-⟩ := foldlM_deltaAct hact
  rw [lookup_mutateAll,forKey_structural]
  refine ⟨hp,hnone.trans ?_⟩
  change empty.lookup id=none ∧ _ ↔ _
  simp only [Peers.lookup_empty,true_and,mem_forKey,and_imp]
  refine forall₂_congr fun m hm => ?_
  cases m.perField <;> simp

omit [Unicode] in
lemma lookup_structural (h : ∀ m ∈ muts, m.perField=true → m.nodeIDBeingMutated≠id) (P : Peers) :
    (P.mutateAll (structural muts)).lookup id=(P.mutateAll muts).lookup id := by
  rw [lookup_mutateAll,lookup_mutateAll,forKey_structural,structural, filter_eq_self.mpr]
  intro m hm
  obtain ⟨hmem,hid⟩ := mem_forKey.mp hm
  cases hf : m.perField with
  | false => rfl
  | true => exact absurd hid (h m hmem hf)

variable {m : NodeMutation}

lemma deltaStep_eq_error_iff {e : NodeBackend} (hs : muts.foldlM deltaStep ⟨nb,.empty⟩=.ok s) :
    deltaStep s m=.error e ↔ StopsAt nb.peers muts m ∧ e=s.nb := by
  obtain ⟨hp,hnone⟩ := view_of_ok hs m.nodeIDBeingMutated
  have hstop : StopsAt nb.peers muts m ↔ m.perField=true ∧
      (s.view m.nodeIDBeingMutated).2.or (s.view m.nodeIDBeingMutated).1=none := by
    rw [StopsAt,or_eq_none_iff,hnone,hp]
    refine and_congr_right fun _ => and_congr_right fun h => ?_
    rw [lookup_structural h]
  rw [hstop]
  rcases deltaStep_cases s m with ⟨n,rfl,h⟩ | ⟨nid,rfl,h⟩ | ⟨hf,hn,h⟩ | ⟨n,hf,hn,h⟩
  · rw [h]
    simp [perField]
  · rw [h]
    simp [perField]
  · rw [h]
    simp [hf,hn,eq_comm]
  · rw [h]
    simp [hn]

lemma exists_ok_iff (nb : NodeBackend) (muts : List NodeMutation) :
    (∃ s, muts.foldlM deltaStep ⟨nb,.empty⟩=.ok s) ↔ NeverStops nb.peers muts := by
  constructor
  · rintro ⟨s,hs⟩ pre m post rfl hstop
    rw [foldlM_append] at hs
    obtain ⟨t,ht,hpost⟩ := bind_eq_ok.mp hs
    obtain ⟨t',ht',-⟩ := foldlM_cons_ok.mp hpost
    cases ht'.symm.trans ((deltaStep_eq_error_iff ht).mpr ⟨hstop,rfl⟩)
  · intro h
    cases hs : muts.foldlM deltaStep ⟨nb,.empty⟩ with
    | ok s => exact ⟨s,rfl⟩
    | error e =>
      obtain ⟨pre,m,post,t,hsplit,ht,hm⟩ := exists_of_foldlM_error hs
      exact absurd ((deltaStep_eq_error_iff ht).mp hm).1 (h pre m post hsplit)

lemma exists_stop (h : ¬NeverStops nb.peers muts) : ∃ pre m post, muts=pre++m::post ∧
    NeverStops nb.peers pre ∧ StopsAt nb.peers pre m := by
  cases hs : muts.foldlM deltaStep ⟨nb,.empty⟩ with
  | ok s => exact absurd ((exists_ok_iff nb muts).mp ⟨s,hs⟩) h
  | error e =>
    obtain ⟨pre,m,post,t,hsplit,ht,hm⟩ := exists_of_foldlM_error hs
    exact ⟨pre,m,post,hsplit,(exists_ok_iff nb pre).mp ⟨t,ht⟩,((deltaStep_eq_error_iff ht).mp hm).1⟩

variable {pre post : List NodeMutation}

lemma lookup_of_stop (hnm : nb.netMap.isSome)
    (hnever : NeverStops nb.peers pre) (hstop : StopsAt nb.peers pre m) (o : MapOrder) (id : NodeID) :
    (nb.updateNetmapDelta o (pre++m::post)).2.peers.lookup id
      = (nb.peers.mutateAll (structural pre)).lookup id := by
  obtain ⟨t,ht⟩ := (exists_ok_iff nb pre).mpr hnever
  have hm := (deltaStep_eq_error_iff ht).mpr ⟨hstop,rfl⟩
  have herror : (pre++m::post).foldlM deltaStep ⟨nb,.empty⟩=.error t.nb := by
    rw [foldlM_append,ht]
    change List.foldlM deltaStep t (m::post)=_
    rw [foldlM_cons,hm]
    rfl
  rw [lookup_of_foldlM_error hnm herror]
  exact (view_of_ok ht id).1

/-- The peers after a loop that ended: a node that was patched is the one before its first patch, with
all its patches. -/
theorem lookup_of_ok {n : Node} (hnm : nb.netMap.isSome)
    (hnever : NeverStops nb.peers (pre++m::post)) (hm : m.perField=true)
    (hfirst : ∀ m' ∈ pre, m'.perField=true → m'.nodeIDBeingMutated≠m.nodeIDBeingMutated)
    (hn : (nb.peers.mutateAll pre).lookup m.nodeIDBeingMutated=some n) (o : MapOrder) :
    (nb.updateNetmapDelta o (pre++m::post)).2.peers.lookup m.nodeIDBeingMutated=some
      (patchedBy (forKey nodeIDBeingMutated m.nodeIDBeingMutated (m::post)) n) := by
  obtain ⟨s,hs⟩ := (exists_ok_iff nb _).mpr hnever
  rw [lookup_of_foldlM_ok hnm hs _]
  rw [foldlM_append] at hs
  obtain ⟨t,ht,hpost⟩ := bind_eq_ok.mp hs
  obtain ⟨hp,hnone⟩ := view_of_ok ht m.nodeIDBeingMutated
  rw [lookup_structural hfirst,hn] at hp
  have hview : t.view m.nodeIDBeingMutated=(some n,none) := Prod.ext hp (hnone.mpr hfirst)
  have hact := deltaStep_keyed.foldlM_ok hpost m.nodeIDBeingMutated
  rw [forKey_cons,if_pos rfl,hview,foldlM_cons,deltaAct_of_perField hm] at hact
  obtain ⟨-,-,hsome⟩ := foldlM_deltaAct hact
  rw [hsome _ rfl,forKey_cons,if_pos rfl,patchedBy,patchedBy,filter_cons_of_pos hm,foldl_cons]
  rfl

lemma lookup_of_unpatched (hnm : nb.netMap.isSome) (hnever : NeverStops nb.peers muts)
    (h : ∀ m ∈ muts, m.perField=true → m.nodeIDBeingMutated≠id) (o : MapOrder) :
    (nb.updateNetmapDelta o muts).2.peers.lookup id=(nb.peers.mutateAll muts).lookup id := by
  obtain ⟨s,hs⟩ := (exists_ok_iff nb _).mpr hnever
  obtain ⟨hp,hnone⟩ := view_of_ok hs id
  rw [lookup_of_foldlM_ok hnm hs _,hnone.mpr h,hp,lookup_structural h]
  rfl

omit [Unicode] in
lemma foldl_act_of_perField (h : ∀ m ∈ l, m.perField=true) (n : Node) :
    l.foldl act (some n)=some (patchedBy l n) := by
  induction l generalizing n with
  | nil => rfl
  | cons m l ih =>
    have hm := h m mem_cons_self
    rw [foldl_cons,act_of_perField hm]
    refine (ih (fun m' hm' => h m' (mem_cons_of_mem m hm')) (m.apply n)).trans ?_
    rw [patchedBy,patchedBy,filter_cons_of_pos hm,foldl_cons]

omit [Unicode] in
lemma lookup_mutateAll_split {n : Node} {P : Peers}
    (hn : (P.mutateAll pre).lookup m.nodeIDBeingMutated=some n) (hm : m.perField=true)
    (hpost : ∀ m' ∈ post, m'.nodeIDBeingMutated=m.nodeIDBeingMutated → m'.perField=true) :
    (P.mutateAll (pre++m::post)).lookup m.nodeIDBeingMutated=some
      (patchedBy (forKey nodeIDBeingMutated m.nodeIDBeingMutated (m::post)) n) := by
  rw [lookup_mutateAll,forKey_append,foldl_append,← lookup_mutateAll,hn]
  refine foldl_act_of_perField (fun m' hm' => ?_) n
  obtain ⟨hmem,hid⟩ := mem_forKey.mp hm'
  rcases mem_cons.mp hmem with rfl | hmem
  · exact hm
  · exact hpost m' hmem hid

omit [Unicode] in
lemma exists_first_patch (h : ¬∀ m ∈ muts, m.perField=true → m.nodeIDBeingMutated≠id) :
    ∃ pre m post, muts=pre++m::post ∧ m.perField=true ∧ m.nodeIDBeingMutated=id ∧
      ∀ m' ∈ pre, m'.perField=true → m'.nodeIDBeingMutated≠m.nodeIDBeingMutated := by
  cases hfind : muts.find? fun m => m.perField && decide (m.nodeIDBeingMutated=id) with
  | none =>
    refine absurd (fun m hm hf hid => ?_) h
    have hno := find?_eq_none.mp hfind m hm
    simp [hf,hid] at hno
  | some m =>
    obtain ⟨hm,pre,post,hsplit,hpre⟩ := find?_eq_some_iff_append.mp hfind
    obtain ⟨hf,hid⟩ := Bool.and_eq_true_iff.mp hm
    have hid := of_decide_eq_true hid
    refine ⟨pre,m,post,hsplit,hf,hid,fun m' hm' hf' he => ?_⟩
    have hno := hpre m' hm'
    simp [hf',he,hid] at hno

lemma lookup_eq_iff_of_never (hnm : nb.netMap.isSome) (hnever : NeverStops nb.peers muts) (o : MapOrder) :
    (∀ id, (nb.updateNetmapDelta o muts).2.peers.lookup id=(nb.peers.mutateAll muts).lookup id) ↔
      PatchesLast nb.peers muts := by
  constructor
  · rintro h pre m post n rfl hm hfirst hn
    right
    rw [← h,lookup_of_ok hnm hnever hm hfirst hn]
  · intro h id
    by_cases hun : ∀ m ∈ muts, m.perField=true → m.nodeIDBeingMutated≠id
    · exact lookup_of_unpatched hnm hnever hun o
    obtain ⟨pre,m,post,rfl,hm,rfl,hfirst⟩ := exists_first_patch hun
    obtain ⟨n,hn⟩ := ne_none_iff_exists'.mp fun hnone => hnever pre m post rfl ⟨hm,hfirst,hnone⟩
    rw [lookup_of_ok hnm hnever hm hfirst hn]
    rcases h pre m post n rfl hm hfirst hn with hpost | hsame
    · exact (lookup_mutateAll_split hn hm hpost).symm
    · exact hsame.symm

end

end NodeBackend

/-- The list is applied: there is a netmap, the loop does not give up and patches come last; or what is
not applied would make no difference. -/
def Deliverable (nb : NodeBackend) (muts : List NodeMutation) : Prop :=
  (nb.netMap=none ∧ ∀ id, (nb.peers.mutateAll muts).lookup id=nb.peers.lookup id) ∨
  (nb.netMap.isSome ∧ NeverStops nb.peers muts ∧ PatchesLast nb.peers muts) ∨
  (nb.netMap.isSome ∧ ∃ pre m post, muts=pre++m::post ∧ NeverStops nb.peers pre ∧ StopsAt nb.peers pre m ∧
    ∀ id, (nb.peers.mutateAll muts).lookup id=(nb.peers.mutateAll (structural pre)).lookup id)

namespace NodeBackend

lemma lookup_updateNetmapDelta_iff [Unicode] (nb : NodeBackend) (o : MapOrder) (muts : List NodeMutation) :
    (∀ id, (nb.updateNetmapDelta o muts).2.peers.lookup id=(nb.peers.mutateAll muts).lookup id) ↔
      Deliverable nb muts := by
  cases hnm : nb.netMap with
  | none =>
    have hsame : (nb.updateNetmapDelta o muts).2=nb := by rw [updateNetmapDelta,hnm]
    rw [hsame]
    simp [Deliverable,hnm,eq_comm]
  | some nm =>
    have hsome : nb.netMap.isSome := by rw [hnm]; rfl
    by_cases hnever : NeverStops nb.peers muts
    · rw [lookup_eq_iff_of_never hsome hnever]
      constructor
      · exact fun h => .inr (.inl ⟨hsome,hnever,h⟩)
      · rintro (⟨hnone,-⟩ | ⟨-,-,h⟩ | ⟨-,pre,m,post,rfl,-,hstop,-⟩)
        · cases hnone.symm.trans hnm
        · exact h
        · exact absurd hstop (hnever pre m post rfl)
    · constructor
      · intro h
        obtain ⟨pre,m,post,rfl,hpre,hstop⟩ := exists_stop hnever
        refine .inr (.inr ⟨hsome,pre,m,post,rfl,hpre,hstop,fun id => ?_⟩)
        rw [← h,lookup_of_stop hsome hpre hstop]
      · rintro (⟨hnone,-⟩ | ⟨-,h,-⟩ | ⟨-,pre,m,post,rfl,hpre,hstop,h⟩) id
        · cases hnone.symm.trans hnm
        · exact absurd h hnever
        · rw [h,lookup_of_stop hsome hpre hstop]

end NodeBackend

/-- A delta that is reported as handled was applied exactly if it can be delivered. -/
theorem LocalBackend.handled_iff [Unicode] (S : Scheme Bytes) (o : MapOrder) (b : LocalBackend)
    (muts : List NodeMutation) : ((b.updateNetmapDelta S o muts).1=false ∨
      ∀ id, (b.updateNetmapDelta S o muts).2.1.cn.peers.lookup id
        = (b.cn.peers.mutateAll (tkaFilterDeltaMutsLocked S b.tka muts).1).lookup id) ↔
    Deliverable b.cn (tkaFilterDeltaMutsLocked S b.tka muts).1 := by
  obtain ⟨htrue,hcn⟩ := updateNetmapDelta_eq S o b muts
  rw [htrue,hcn,← NodeBackend.lookup_updateNetmapDelta_iff b.cn o]
  simp

attribute [local instance] Unicode.ascii

/-- A backend that has one peer, node 2. -/
def onePeerBackend : LocalBackend where
  cn := .ofPeer { Node.zero with id := 2 }
  tka := none
  autoExitNode := []
  exitNodeID := []
  lastSuggestedExitNode := []
  cachesNetworkMaps := false
  goosGetsLegacyNetmapNotify := false

/-- A delta says that node 1, which the backend does not have, and node 2 are online. -/
theorem LocalBackend.online_dropped :
    let muts : List NodeMutation := [.online 1 true,.online 2 true]
    let r := onePeerBackend.updateNetmapDelta shortScheme .asStored muts
    r.1=true ∧ (r.2.1.cn.peers.lookup 2).map Node.online=some none ∧
      ((onePeerBackend.cn.peers.mutateAll (tkaFilterDeltaMutsLocked shortScheme none muts).1).lookup 2).map
        Node.online=some (some true) := by
  decide

end TunnnejiTail.Netmap
