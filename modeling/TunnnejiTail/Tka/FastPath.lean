import TunnnejiTail.Tka.Runs
import Mathlib.Data.List.Chain

/-! Inform takes a short cut when the updates follow the head. When it ends up with the same head and the
same state as opening the store anew. -/
namespace TunnnejiTail.Tka
open Go TunnnejiTail.Types List Option Store

variable {X : Primitives} {p q : AUM × State} {us : List AUM} {storage : Store X} {a : Authority}
  {A : Set AUM} {rank : AUM → ℕ} {updates : List AUM}

section

def HeadChain (storage : Store X) (head : AUM) (updates : List AUM) : Prop :=
  (∀ u ∈ updates, storage.aum (X.hash u)=none) ∧ (head::updates).IsChain fun a b => b.parent=some (X.hash a)

/-- No stored message has the last update as its parent, and one that has an earlier update or the head as
its parent is beaten by the update that follows. -/
def Undisturbed (storage : Store X) : AUM → State → List AUM → Prop
  | a,_,[] => ∀ c ∈ storage.stored, ¬ storage.names c (X.hash a)
  | a,st,u::us => (∀ c ∈ storage.stored, storage.names c (X.hash a) → Beats X st u c) ∧
      ∀ st', st.applyVerifiedAUM X u=.ok st' → Undisturbed storage u st' us

inductive Builds (X : Primitives) : AUM × State → List AUM → AUM × State → Prop
  | nil (p : AUM × State) : Builds X p [] p
  | cons {p q : AUM × State} {u : AUM} {st : State} {us : List AUM}
      (hprev : u.prevAUMHash.getD []=(X.hash p.1).bytes) (happly : p.2.applyVerifiedAUM X u=.ok st)
      (h : Builds X (u,st) us q) : Builds X p (u::us) q

lemma Builds.snoc (h : Builds X p us q) {u : AUM} {st : State}
    (hprev : u.prevAUMHash.getD []=(X.hash q.1).bytes) (happly : q.2.applyVerifiedAUM X u=.ok st) :
    Builds X p (us++[u]) (u,st) := by
  induction h with
  | nil p => exact .cons hprev happly (.nil _)
  | cons hprev' happly' _ ih => exact .cons hprev' happly' (ih hprev happly)

lemma Builds.getLast (h : Builds X p us q) : (p.1::us).getLast? = some q.1 := by
  induction h with
  | nil p => rfl
  | cons _ _ _ ih => exact ih

/-- What the loop over the updates knows. -/
structure InformLoop.Tracks (storage : Store X) (a : Authority) (done : List AUM) (s : InformLoop) : Prop where
  stateAt : ∀ {h st}, s.stateAt.lookup h=some st → st.lastAUMHash=some h ∧
    ((storage.aum h).isSome ∨ ∃ v ∈ s.toCommit, X.hash v=h)
  toCommit : ∀ u, u ∈ s.toCommit ↔ u ∈ done ∧ storage.aum (X.hash u)=none
  parents : ∀ u ∈ s.toCommit, ∃ p, u.prevAUMHash.getD []=p.bytes ∧
    ((storage.aum p).isSome ∨ ∃ v ∈ s.toCommit, X.hash v=p)
  headChain : s.isHeadChain=true ↔ HeadChain storage a.head done
  builds : s.isHeadChain=true → ∃ q, Builds X (a.head,a.state) done q ∧ s.prevHash=X.hash q.1 ∧
    s.stateAt.lookup s.prevHash=some q.2

lemma headChain_snoc {head : AUM} {u : AUM} :
    HeadChain storage head (us++[u]) ↔ HeadChain storage head us ∧ storage.aum (X.hash u)=none ∧
      ∀ b, (head::us).getLast? = some b → u.parent=some (X.hash b) := by
  rw [HeadChain,HeadChain,← cons_append,isChain_append]
  simp only [mem_append,mem_singleton,or_imp,forall_and,forall_eq,head?_cons,
    mem_def,Option.some.injEq,isChain_singleton,true_and]
  constructor
  · rintro ⟨⟨hold,hnew⟩,hchain,hlink⟩
    exact ⟨⟨hold,hchain⟩,hnew,fun b hb => hlink b hb u rfl⟩
  · rintro ⟨⟨hold,hchain⟩,hnew,hlink⟩
    refine ⟨⟨hold,hnew⟩,hchain,fun b hb c hc => ?_⟩
    subst hc
    exact hlink b hb

variable {o : MapOrder} {done : List AUM} {s : InformLoop}

lemma InformLoop.Tracks.stateBefore (hs : s.Tracks storage a done) {parent : AUMHash} {st : State}
    (h : stateBefore o storage s parent=.ok st) : st.lastAUMHash=some parent ∧
      ((storage.aum parent).isSome ∨ ∃ v ∈ s.toCommit, X.hash v=parent) := by
  rw [Tka.stateBefore] at h
  split at h
  · next st' hst' =>
    cases h
    exact hs.stateAt hst'
  · obtain ⟨⟨b,hb⟩,hlast⟩ := computeStateAt_eq_ok h
    exact ⟨hlast,.inl (isSome_iff_exists.mpr ⟨b,hb⟩)⟩

lemma InformLoop.Tracks.step {s' : InformLoop} {e : AUM × ℕ} (hs : s.Tracks storage a done)
    (h : informStep o storage s e=.ok s') : s'.Tracks storage a (done++[e.1]) := by
  obtain ⟨u,i⟩ := e
  rcases informStep_eq_ok h with ⟨hknown,rfl⟩ | ⟨parent,st,next,hunknown,hparent,hst,-,hnext,rfl⟩
  · have hnot : storage.aum (X.hash u)≠none := isSome_iff_ne_none.mp hknown
    refine ⟨hs.stateAt,fun v => ?_,hs.parents,?_,fun h => by cases h⟩
    · rw [hs.toCommit]
      refine and_congr_left fun hv => ?_
      rw [mem_append,mem_singleton]
      refine (or_iff_left ?_).symm
      rintro rfl
      exact hnot hv
    · rw [headChain_snoc]
      exact iff_of_false Bool.false_ne_true fun h => hnot h.2.1
  obtain ⟨hlast,hplace⟩ := hs.stateBefore hst
  obtain ⟨hlast',hprev⟩ := State.applyVerifiedAUM_eq_ok X hnext
  have hprev := hprev parent hlast
  have hgrow {p : AUMHash} (h : (storage.aum p).isSome ∨ ∃ v ∈ s.toCommit, X.hash v=p) :
      (storage.aum p).isSome ∨ ∃ v ∈ s.toCommit++[u], X.hash v=p :=
    h.imp_right fun hv => by
      obtain ⟨v,hv,hvp⟩ := hv
      exact ⟨v,mem_append_left _ hv,hvp⟩
  refine ⟨?_,?_,?_,?_,?_⟩
  · intro j stj hj
    rcases of_lookup_insert hj with ⟨rfl,rfl⟩ | ⟨-,hj⟩
    · exact ⟨hlast',.inr ⟨u,mem_append_right _ mem_cons_self,rfl⟩⟩
    rcases of_lookup_insert hj with ⟨rfl,rfl⟩ | ⟨-,hj⟩
    · exact ⟨hlast,hgrow hplace⟩
    exact ⟨(hs.stateAt hj).1,hgrow (hs.stateAt hj).2⟩
  · intro v
    rw [mem_append,mem_append,mem_singleton,hs.toCommit,or_and_right]
    refine or_congr_right (iff_self_and.mpr ?_)
    rintro rfl
    exact hunknown
  · intro v hv
    rcases mem_append.mp hv with hv | hv
    · obtain ⟨p,hp,hpl⟩ := hs.parents v hv
      exact ⟨p,hp,hgrow hpl⟩
    · rw [mem_singleton.mp hv]
      exact ⟨parent,hprev,hgrow hplace⟩
  · rw [headChain_snoc,← hs.headChain,Bool.and_eq_true,decide_eq_true_iff]
    refine and_congr_right fun hchain => ?_
    obtain ⟨q,hq,hqh,-⟩ := hs.builds hchain
    rw [hq.getLast,hparent,hqh]
    simp [hunknown]
  · intro hchain
    obtain ⟨hchain,hp⟩ := Bool.and_eq_true_iff.mp hchain
    obtain ⟨q,hq,hqh,hqs⟩ := hs.builds hchain
    have hp := of_decide_eq_true hp
    have hstq : st=q.2 := by
      rw [Tka.stateBefore,hp,hqs] at hst
      exact (Except.ok.inj hst).symm
    refine ⟨(u,next),hq.snoc ?_ (hstq ▸ hnext),rfl,AList.lookup_insert _⟩
    rw [hprev,hp,hqh]

variable (hlast : a.state.lastAUMHash=some (X.hash a.head)) (hhead : (storage.aum (X.hash a.head)).isSome)
include hlast hhead

lemma InformLoop.Tracks.init :
    InformLoop.Tracks storage a []
      ⟨(∅ : GoMap AUMHash State).insert (X.hash a.head) a.state,[],X.hash a.head,true⟩ := by
  refine ⟨?_,by simp,by simp,?_,fun _ => ⟨_,.nil _,rfl,AList.lookup_insert _⟩⟩
  · intro h st hst
    rcases of_lookup_insert hst with ⟨rfl,rfl⟩ | ⟨-,hst⟩
    · exact ⟨hlast,.inl hhead⟩
    · cases hst
  · simp [HeadChain]

lemma tracks_of_beforeCommit {updates : List AUM}
    (h : beforeCommit o a storage updates=.ok s) : s.Tracks storage a updates := by
  rw [beforeCommit,hlast] at h
  split at h
  · cases h
  · next heq _ => cases heq
  · next head u heq _ =>
    cases heq
    have hloop := foldlM_invariant (fun done s => s.Tracks storage a (done.map Prod.fst))
      (InformLoop.Tracks.init hlast hhead) (fun done t e t' ht hstep => by
        rw [map_append]
        exact ht.step hstep) h
    rwa [zipIdx_map_fst] at hloop

end

section
variable {C : Chonk} (hC : C.Reads X A storage.names)
include hC

section
variable (h : Builds X p us q) (hp : p.1 ∈ A) (hus : ∀ u ∈ us, u ∈ A)
include h hp hus

lemma Builds.walk_back : walk C.back us.length q.1=some p.1 ∧ q.1 ∈ A := by
  induction h with
  | nil p => exact ⟨rfl,hp⟩
  | cons hprev _ _ ih =>
    obtain ⟨hw,hq⟩ := ih (hus _ mem_cons_self) fun v hv => hus v (mem_cons_of_mem _ hv)
    refine ⟨walk_succ_eq_some_last.mpr ⟨_,hw,hC.back_eq_some.mpr ⟨hp,?_⟩⟩,hq⟩
    exact parent_of_bytes hprev

lemma Builds.exists_walk_back : ∀ v ∈ us, ∃ n<us.length, walk C.back n q.1=some v := by
  induction h with
  | nil p => exact forall_mem_nil _
  | cons hprev _ h ih =>
    have hu := hus _ mem_cons_self
    have hrest := fun v hv => hus v (mem_cons_of_mem _ hv)
    refine forall_mem_cons.mpr ⟨⟨_,Nat.lt_succ_self _,(h.walk_back hC hu hrest).1⟩,fun v hv => ?_⟩
    obtain ⟨n,hn,hw⟩ := ih hu hrest v hv
    exact ⟨n,hn.trans (Nat.lt_succ_self _),hw⟩

end

omit hC in
lemma Builds.parent_mem (h : Builds X p us q) : ∀ v ∈ us, ∃ w ∈ p.1::us, v.parent=some (X.hash w) := by
  induction h with
  | nil p => exact forall_mem_nil _
  | @cons p q u st us hprev _ h ih =>
    refine forall_mem_cons.mpr ⟨⟨p.1,mem_cons_self,parent_of_bytes hprev⟩,fun v hv => ?_⟩
    obtain ⟨w,hw,hp⟩ := ih v hv
    exact ⟨w,mem_cons_of_mem _ hw,hp⟩

variable (hrank : Ranked X A rank)
include hrank

lemma Builds.walk_back_of_parent (h : Builds X p us q) (hp : p.1 ∈ A)
    (hus : ∀ u ∈ us, u ∈ A) {v : AUM} (hv : ∃ n, walk C.back n q.1=some v)
    (hpar : v.parent=some (X.hash p.1)) : ∃ n, us.length=n+1 ∧ walk C.back n q.1=some v := by
  obtain ⟨hback,hq⟩ := h.walk_back hC hp hus
  obtain ⟨n,hn⟩ := hv
  have hn' := walk_succ_eq_some_last.mpr ⟨v,hn,hC.back_eq_some.mpr ⟨hp,hpar⟩⟩
  exact ⟨n,walk_injective (hC.rank_back hrank) hq hback hn',hn⟩

variable {all : List AUM} (hA : ∀ b, b ∈ A ↔ b ∈ storage.stored ∨ b ∈ all)
  (hnew : ∀ u ∈ all, u ∉ storage.stored)
include hA hnew

/-- The way forward leads over the updates to the last one exactly if nothing that is stored is in the way. -/
theorem Builds.forward_iff {s : SliceSort} (h : Builds X p us q)
    (hp : p.1 ∈ A) (hus : ∀ u ∈ us, u ∈ all) (hall : ∀ v ∈ all, ∃ n, walk C.back n q.1=some v) :
    (∃ n, walk (C.forward X s) n p=some q ∧ C.childAUMs (X.hash q.1)=[]) ↔ Undisturbed storage p.1 p.2 us := by
  have hin {u : AUM} (hu : u ∈ all) : u ∈ A := (hA u).mpr (.inr hu)
  induction h with
  | nil p =>
    rw [hC.childAUMs_eq_nil,Undisturbed]
    constructor
    · rintro ⟨-,-,hnone⟩ c hc
      exact hnone c ((hA c).mpr (.inl hc))
    · intro hnone
      refine ⟨0,rfl,fun b hb hnames => ?_⟩
      rcases (hA b).mp hb with hb | hb
      · exact hnone b hb hnames
      · obtain ⟨n,hn,-⟩ := (Builds.nil p).walk_back_of_parent hC hrank hp (forall_mem_nil _) (hall b hb)
          (parent_of_names hnames)
        cases hn
  | @cons p q u st us hprev happly h ih =>
    have hu := hus u mem_cons_self
    have hrest : ∀ v ∈ us, v ∈ all := fun v hv => hus v (mem_cons_of_mem u hv)
    obtain ⟨hback,hq⟩ := h.walk_back hC (hin hu) fun v hv => hin (hrest v hv)
    have hback' := walk_succ_eq_some_last.mpr ⟨u,hback,hC.back_eq_some.mpr ⟨hp,parent_of_bytes hprev⟩⟩
    have ih := ih (hin hu) hrest hall
    rw [Undisturbed]
    constructor
    · rintro ⟨n,hw,hend⟩
      cases n with
      | zero =>
        cases hw
        cases walk_injective (hC.rank_back hrank) hq hback' (walk_zero _ _)
      | succ n =>
        obtain ⟨x,hx,hw⟩ := walk_succ_eq_some.mp hw
        obtain ⟨hxA,hnames,hbeats,happly'⟩ := hC.forward_iff.mp hx
        have hxback := (hC.walk_back_of_forward hxA hw).1
        have hxback' := walk_succ_eq_some_last.mpr
          ⟨x.1,hxback,hC.back_eq_some.mpr ⟨hp,parent_of_names hnames⟩⟩
        cases walk_injective (hC.rank_back hrank) hq hback' hxback'
        cases hback.symm.trans hxback
        cases happly.symm.trans happly'
        refine ⟨fun c hc hcn => hbeats c ((hA c).mpr (.inl hc)) hcn ?_,fun st' hst' => ?_⟩
        · rintro rfl
          exact hnew _ hu hc
        · cases happly.symm.trans hst'
          exact ih.mp ⟨_,hw,hend⟩
    · rintro ⟨hbeats,hthen⟩
      obtain ⟨n,hw,hend⟩ := ih.mpr (hthen st happly)
      refine ⟨n+1,(walk_succ_of ?_ n).trans hw,hend⟩
      refine hC.forward_iff.mpr ⟨hin hu,storage.names_of_bytes hprev,fun b hb hnames hne => ?_,happly⟩
      rcases (hA b).mp hb with hb | hb
      · exact hbeats b hb hnames
      · obtain ⟨n,hn,hbn⟩ := (Builds.cons hprev happly h).walk_back_of_parent hC hrank hp
          (fun v hv => hin (hus v hv)) (hall b hb) (parent_of_names hnames)
        cases hn
        exact absurd (some.inj (hbn.symm.trans hback)) hne

end

section
variable {C C' : Chonk} (hC : C.Reads X storage.stored storage.names) (hC' : C'.Reads X A storage.names)
  (hrank : Ranked X A rank)
  (hA : ∀ b, b ∈ A ↔ b ∈ storage.stored ∨ b ∈ updates) (hnew : ∀ u ∈ updates, u ∉ storage.stored)
  (hbuilds : Builds X p updates q) {r : AUM} (hr : r ∈ storage.stored) (hback : C.back r=none)
  {s s' : SliceSort} {maxIter : ℕ} (hreaches : C.Reaches X s maxIter r p)
include hC hC' hrank hA hnew hbuilds hr hback hreaches

omit hnew in
lemma Builds.back_root : C'.back r=none := by
  have hsub {b : AUM} (hb : b ∈ storage.stored) : b ∈ A := (hA b).mpr (.inl hb)
  have hpA := (hC.head_of_reaches hr hback hreaches).1
  obtain ⟨st,path,-,n,-,hw,-⟩ := hreaches
  have hupd : ∀ u ∈ updates, u ∈ A := fun u hu => (hA u).mpr (.inr hu)
  cases hv : C'.back r with
  | none => rfl
  | some v =>
    exfalso
    obtain ⟨hvA,hp⟩ := hC'.back_eq_some.mp hv
    rcases (hA v).mp hvA with hvS | hvU
    · cases hback.symm.trans (hC.back_eq_some.mpr ⟨hvS,hp⟩)
    · obtain ⟨j,hj,hjv⟩ := hbuilds.exists_walk_back hC' (hsub hpA) hupd v hvU
      obtain ⟨hpw,hq⟩ := hbuilds.walk_back hC' (hsub hpA) hupd
      have hrw := hC.walk_back_mono hC' (fun b hb => hsub hb) (hC.walk_back_of_forward hr hw).1
      have hvw := walk_succ_eq_some_last.mpr ⟨r,(walk_trans hpw n).trans hrw,hv⟩
      have := walk_injective (hC'.rank_back hrank) hq hjv hvw
      omega

lemma Builds.reaches_iff (hwithin : C'.Within maxIter) {l : List AUM} (hl : ∀ a ∈ A, a ∈ l) :
    C'.Reaches X s' maxIter r q ↔ Undisturbed storage p.1 p.2 updates := by
  have hroot := hbuilds.back_root hC hC' hrank hA hr hback hreaches
  have hsub {b : AUM} (hb : b ∈ storage.stored) : b ∈ A := (hA b).mpr (.inl hb)
  have hpA := (hC.head_of_reaches hr hback hreaches).1
  have hupd : ∀ u ∈ updates, u ∈ A := fun u hu => (hA u).mpr (.inr hu)
  have hall : ∀ v ∈ updates, ∃ n, walk C'.back n q.1=some v := by
    intro v hv
    obtain ⟨n,-,hn⟩ := hbuilds.exists_walk_back hC' (hsub hpA) hupd v hv
    exact ⟨n,hn⟩
  rw [← hbuilds.forward_iff hC' hrank hA hnew (hsub hpA) (fun u hu => hu) hall (s := s')]
  obtain ⟨st,path,hpath,n,hn,hw,hend⟩ := hreaches
  have hpath' := (walkBack_eq_of_none hback hroot maxIter (maxIter+1)).symm.trans hpath
  -- Up to the old head the branches are picked as before: no update has a parent there.
  have hw' : walk (C'.forward X s') n (r,st)=some p := by
    refine walk_mono (P := fun p : AUM × State => p.1 ∈ storage.stored) (fun {x y} hx hy => ?_) hr hw
    obtain ⟨hyA,hnames,hbeats,happly⟩ := hC.forward_iff.mp hy
    refine ⟨hyA,hC'.forward_iff.mpr ⟨hsub hyA,hnames,fun b hb hbn hne => ?_,happly⟩⟩
    rcases (hA b).mp hb with hb | hb
    · exact hbeats b hb hbn hne
    · exfalso
      obtain ⟨w,hwm,hwp⟩ := hbuilds.parent_mem b hb
      have hxw : X.hash x.1=X.hash w := some.inj ((parent_of_names hbn).symm.trans hwp)
      rcases mem_cons.mp hwm with rfl | hwm
      · rw [hxw] at hnames
        exact hC.childAUMs_eq_nil.mp hend _ hyA hnames
      · cases hC'.injOn (hsub hx) (hupd w hwm) hxw
        exact hnew _ hwm hx
  constructor
  · rintro ⟨st',path',hst',k,-,hk,hkend⟩
    cases hpath'.symm.trans hst'
    have hnone : C'.forward X s' q=none := by
      refine eq_none_iff_forall_ne_some.mpr fun x hx => ?_
      exact hC'.childAUMs_eq_nil.mp hkend _ (hC'.forward_iff.mp hx).1 (hC'.forward_iff.mp hx).2.1
    obtain ⟨m,-,hm,-⟩ := Ends.rest (f := C'.forward X s') ⟨hk,hnone⟩ hw'
    exact ⟨m,hm,hkend⟩
  · rintro ⟨m,hm,hmend⟩
    have htotal := (walk_trans hw' m).trans hm
    obtain ⟨hqback,hq⟩ := hC'.walk_back_of_forward (hsub hr) htotal
    obtain ⟨b,hb,j,hj⟩ := hC'.exists_head hrank hl hq
    obtain ⟨k,hk,r',hr'⟩ := hwithin b hb
    obtain ⟨i,hi,-⟩ := hr'.rest ((walk_trans hj (n+m)).trans hqback)
    exact ⟨st,path,hpath',n+m,by omega,htotal,hmend⟩

end

/-- In the store with the updates the remembered message selects a chain, no chain is too long to be
scanned, and if the updates follow the head then no message that was stored before is in the way. -/
structure ReopensAlike (o : MapOrder) (a : Authority) (storage : Store X) (updates : List AUM) : Prop where
  selects : ((storage.commitVerifiedAUMs updates).chonk o).Selects X storage.lastActiveAncestor
  within : ((storage.commitVerifiedAUMs updates).chonk o).Within maxScanIterations
  undisturbed : HeadChain storage a.head updates → Undisturbed storage a.head a.state updates

variable {o o' : MapOrder}

lemma exists_openStore_iff {s : SliceSort} {q : AUM × State} :
    (∃ a, openStore s o o' storage=.ok a ∧ a.head=q.1 ∧ a.state=q.2) ↔
      ∃ c, computeActiveChain X s o' (storage.chonk o) storage.lastActiveAncestor maxScanIterations=.ok c ∧
        c.head=q.1 ∧ c.state=q.2 := by
  constructor
  · rintro ⟨a,ha,hq⟩
    obtain ⟨c,hc,rfl⟩ := map_eq_ok.mp ha
    exact ⟨c,mapError_eq_ok.mp hc,hq⟩
  · rintro ⟨c,hc,hq⟩
    exact ⟨_,map_eq_ok.mpr ⟨c,mapError_eq_ok.mpr hc,rfl⟩,hq⟩

section
variable {U : Set AUM} (hU : Set.InjOn X.hash U) (hs : storage.Filled U) (hupdates : ∀ u ∈ updates, u ∈ U)
  {s : InformLoop} (htracks : s.Tracks storage a updates)
include hU hs hupdates htracks

lemma InformLoop.Tracks.mem_stored {b : AUM} : b ∈ (storage.commitVerifiedAUMs s.toCommit).stored ↔
    b ∈ storage.stored ∨ b ∈ updates := by
  have hkept := hs.kept hU
  rw [mem_stored_commitVerifiedAUMs hU hs fun u hu => hupdates u ((htracks.toCommit u).mp hu).1, htracks.toCommit]
  constructor
  · exact fun h => h.imp_right And.left
  · rintro (hb | hb)
    · exact .inl hb
    · cases hu : storage.aum (X.hash b) with
      | none => exact .inr ⟨hb,rfl⟩
      | some b' =>
        rw [hU (hupdates b hb) (hkept.sound hu).2 (hkept.sound hu).1.symm]
        exact .inl ⟨_,hu⟩

lemma InformLoop.Tracks.closed : ∀ u ∈ (storage.commitVerifiedAUMs s.toCommit).stored, u ∉ storage.stored →
    ∃ v ∈ (storage.commitVerifiedAUMs s.toCommit).stored, u.parent=some (X.hash v) := by
  have hkept := hs.kept hU
  have hmem {b : AUM} := htracks.mem_stored hU hs hupdates (b := b)
  intro u hu hnot
  have huU : u ∈ updates := (hmem.mp hu).resolve_left hnot
  have hcommit : u ∈ s.toCommit := by
    refine (htracks.toCommit u).mpr ⟨huU,?_⟩
    cases hb : storage.aum (X.hash u) with
    | none => rfl
    | some b =>
      rw [hU (hkept.sound hb).2 (hupdates u huU) (hkept.sound hb).1] at hb
      exact absurd ⟨_,hb⟩ hnot
  obtain ⟨p,hp,hplace⟩ := htracks.parents u hcommit
  rcases hplace with hp' | ⟨v,hv,rfl⟩
  · obtain ⟨v,hv⟩ := isSome_iff_exists.mp hp'
    obtain ⟨rfl,-⟩ := hkept.sound hv
    exact ⟨v,hmem.mpr (.inl ⟨_,hv⟩),parent_of_bytes hp⟩
  · exact ⟨v,hmem.mpr (.inr ((htracks.toCommit v).mp hv).1),parent_of_bytes hp⟩

lemma InformLoop.Tracks.reads (o : MapOrder) : ((storage.commitVerifiedAUMs s.toCommit).chonk o).Reads X
    (storage.commitVerifiedAUMs s.toCommit).stored storage.names := by
  rw [← storage.names_commitVerifiedAUMs s.toCommit]
  refine ((hs.commitVerifiedAUMs fun u hu => ?_).kept hU).reads o
  exact hupdates u ((htracks.toCommit u).mp hu).1

lemma InformLoop.Tracks.reads_updates (o : MapOrder) : ((storage.commitVerifiedAUMs updates).chonk o).Reads X
    (storage.commitVerifiedAUMs s.toCommit).stored storage.names := by
  have hsame : (storage.commitVerifiedAUMs s.toCommit).stored=(storage.commitVerifiedAUMs updates).stored := by
    refine Set.ext fun b => ?_
    rw [htracks.mem_stored hU hs hupdates,mem_stored_commitVerifiedAUMs hU hs hupdates]
  rw [hsame,← storage.names_commitVerifiedAUMs updates]
  exact ((hs.commitVerifiedAUMs hupdates).kept hU).reads o

end

lemma filled_forkStore : (forkStore (.mem {}) []).Filled forks :=
  .setLast (.commit .mem (Or.inl rfl)) (.fill 1)

lemma stored_forkStore {c : AUM} (hc : c ∈ (forkStore (.mem {}) []).stored) : c=fork .checkpoint := by
  obtain ⟨h,hc⟩ := hc
  rw [forkStore,map_nil,commitVerifiedAUMs,foldl_nil,aum_setLastActiveAncestor,
    commitVerifiedAUMs,foldl_cons,foldl_nil,aum_commit] at hc
  split at hc
  · exact (some.inj hc).symm
  · cases hc

def byNumber : Primitives :=
  { byKind with hash := fun a => .fill (a.votes.getD 0+(a.state.map State.stateID1).getD 0).toUInt8 }

def firstOf (n : UInt64) : AUM :=
  { fork .checkpoint with state := (fork .checkpoint).state.map fun st => { st with stateID1 := n } }

def nextTo (p : UInt8) (n : UInt64) : AUM :=
  { fork .noOp with prevAUMHash := some (Raw32.fill p).bytes,votes := some n }

/-- A chain of three messages of which the second is remembered, and a chain of its own. -/
def twoChains : Store byNumber :=
  (Store.commitVerifiedAUMs (.mem {}) [firstOf 1,nextTo 1 2,nextTo 2 3,firstOf 5]).setLastActiveAncestor (.fill 2)

end TunnnejiTail.Tka
