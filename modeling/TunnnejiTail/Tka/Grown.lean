import TunnnejiTail.Tka.StateAt

/-! What an authority goes through from its bootstrap on, as long as nothing is taken out of its store.
Everything in the store is verified, and the authority is where the fork choice leads. -/
namespace TunnnejiTail.Tka
open Go List Option

/-- An authority and its store, which was empty when it was bootstrapped. A call that fails leaves the
authority as it was. -/
inductive Grown (X : Primitives) (U : Set AUM) (B : AUM) : Store X → Authority → Prop
  | bootstrap {storage storage' : Store X} (hempty : storage=.mem {} ∨ storage=.fs .empty) (hB : B ∈ U)
      {sorter : SliceSort} {o o' : MapOrder} {a : Authority}
      (h : bootstrap sorter o o' storage B=(storage',.ok a)) : Grown X U B storage' a
  | inform {storage : Store X} {a : Authority} (h : Grown X U B storage a) {updates : List AUM}
      (hupdates : ∀ u ∈ updates, u ∈ U) (sorter : SliceSort) (o o' : MapOrder) :
    Grown X U B (informIdempotent sorter o o' a storage updates).1
      ((informIdempotent sorter o o' a storage updates).2.toOption.getD a)
  | reopen {storage : Store X} {a a' : Authority} (h : Grown X U B storage a) {sorter : SliceSort}
      {o o' : MapOrder} (hopen : openStore sorter o o' storage=.ok a') : Grown X U B storage a'

/-- What holds of an authority and its store. -/
structure Rooted (X : Primitives) (U : Set AUM) (B : AUM) (storage : Store X) (a : Authority) : Prop where
  filled : storage.Filled U
  grounded : Grounded X U B B storage.stored
  last : storage.lastActiveAncestor=some (X.hash B)
  head : a.head ∈ storage.stored
  verified : Verified X U B a.head a.state
  oldest : a.oldestAncestor=B
  synced : ∀ o st, (storage.chonk o).Within maxScanIterations → Verified X U B B st →
    (forkRule X).Leads storage.stored (B,st) (a.head,a.state)

structure InformLoop.Verifies (X : Primitives) (U : Set AUM) (B : AUM) (s : InformLoop) : Prop where
  stateAt : ∀ {h st}, s.stateAt.lookup h=some st → ∃ b, X.hash b=h ∧ Verified X U B b st
  toCommit : ∀ u ∈ s.toCommit, ∃ st, Verified X U B u st

section
variable {X : Primitives} {U : Set AUM} {B : AUM} (hU : Set.InjOn X.hash U) {rank : AUM → ℕ}
  (hrank : Ranked X U rank)

section
include hrank

lemma Builds.rank_lt {p q : AUM × State} {us : List AUM} (h : Builds X p us q) (hp : p.1 ∈ U)
    (hus : ∀ u ∈ us, u ∈ U) : ∀ v ∈ us, rank p.1 < rank v := by
  induction h with
  | nil p => exact forall_mem_nil _
  | @cons p q u st us hprev _ _ ih =>
    have hu := hus u mem_cons_self
    have hlt := hrank u hu p.1 hp (parent_of_bytes hprev)
    refine forall_mem_cons.mpr ⟨hlt,fun v hv => hlt.trans ?_⟩
    exact ih hu (fun w hw => hus w (mem_cons_of_mem u hw)) v hv

include hU

variable {A : Set AUM}

lemma Builds.leads {p q r : AUM × State} {us : List AUM} (h : Builds X p us q) (hAU : A ⊆ U)
    (hclosed : (forkRule X).Closed A U) (hr : r.1 ∈ A) (hleads : (forkRule X).Leads A r p)
    (hus : ∀ u ∈ us, u ∈ U) (hnew : ∀ u ∈ us, u ∉ A) : (forkRule X).Leads (A ∪ {v | v ∈ us}) r q := by
  induction h generalizing A with
  | nil p =>
    have hset : A ∪ {v | v ∈ ([] : List AUM)} = A := by simp
    rw [hset]
    exact hleads
  | @cons p q u st us hprev happly h ih =>
    have hu := hus u mem_cons_self
    have hp := hleads.mem hr
    have hpar := parent_of_bytes hprev
    have hrest : ∀ v ∈ us, v ∈ U := fun v hv => hus v (mem_cons_of_mem u hv)
    have hone : ∀ a ∈ U, (forkRule X).follows u a → a=p.1 :=
      fun a ha hf => hU ha (hAU hp) (some.inj (hf.symm.trans hpar))
    have hset : A ∪ {v | v ∈ u::us} = insert u A ∪ {v | v ∈ us} := by
      refine Set.ext fun b => ?_
      simp only [Set.mem_union,Set.mem_insert_iff,Set.mem_ofPred_eq,mem_cons]
      exact or_left_comm.trans (or_assoc.symm)
    rw [hset]
    refine ih (Set.insert_subset hu hAU) ?_ (.inr hr) ?_ hrest fun v hv => ?_
    · rintro b (rfl | hb) a ha hf
      · rw [hone a ha hf]
        exact .inr hp
      · exact .inr (hclosed b hb a ha hf)
    · refine hleads.insert hr hpar happly (fun a ha => hone a (hAU ha)) ?_
      rintro b (rfl | hb) hf
      · exact lt_irrefl _ (hrank b hu b hu hf)
      · exact hnew u mem_cons_self (hclosed b hb u hu hf)
    · rintro (rfl | hvA)
      · exact lt_irrefl _ (h.rank_lt hrank hu hrest v hv)
      · exact hnew v (mem_cons_of_mem u hv) hvA

lemma Grounded.closed_follows (hA : Grounded X U B B A) :
    (forkRule X).Closed A {a | ∃ st, Verified X U B a st} := by
  rintro b hb a ⟨st,ha⟩ hf
  by_cases hbB : b=B
  · subst hbB
    exact absurd hf (ha.not_parent_root hrank)
  · obtain ⟨c,hc,hp⟩ := hA.closed b hb hbB
    rw [← hU (hA.mem hc) ha.mem (some.inj (hp.symm.trans hf))]
    exact hc

section
variable {A : Set AUM} (hA : Grounded X U B B A) {storage : Store X} {o : MapOrder}
  (hC : (storage.chonk o).Reads X A storage.names)
include hA hC

lemma InformLoop.Verifies.stateBefore {s : InformLoop} (hs : s.Verifies X U B) {parent : AUMHash}
    {st : State} (h : stateBefore o storage s parent=.ok st) :
    ∃ b, X.hash b=parent ∧ Verified X U B b st := by
  rw [Tka.stateBefore] at h
  split at h
  · next st' hst' =>
    cases h
    exact hs.stateAt hst'
  · obtain ⟨⟨b,hb⟩,-⟩ := computeStateAt_eq_ok h
    obtain ⟨hbA,rfl⟩ := (hC.aum_eq_some parent b).mp hb
    exact ⟨b,rfl,hA.verified_of_computeStateAt hU hrank hC hbA h⟩

lemma InformLoop.Verifies.step {s s' : InformLoop} (hs : s.Verifies X U B) {e : AUM × ℕ} (he : e.1 ∈ U)
    (h : informStep o storage s e=.ok s') : s'.Verifies X U B := by
  rcases informStep_eq_ok h with ⟨-,rfl⟩ | ⟨parent,st,next,-,-,hst,hverify,hnext,rfl⟩
  · exact ⟨hs.stateAt,hs.toCommit⟩
  obtain ⟨b,rfl,hbst⟩ := hs.stateBefore hU hrank hA hC hst
  have hu := Verified.step hbst he hverify hnext
  refine ⟨fun {j stj} hj => ?_,fun v hv => ?_⟩
  · rcases of_lookup_insert hj with ⟨rfl,rfl⟩ | ⟨-,hj⟩
    · exact ⟨e.1,rfl,hu⟩
    rcases of_lookup_insert hj with ⟨rfl,rfl⟩ | ⟨-,hj⟩
    · exact ⟨b,rfl,hbst⟩
    · exact hs.stateAt hj
  · rcases mem_append.mp hv with hv | hv
    · exact hs.toCommit v hv
    · rw [mem_singleton.mp hv]
      exact ⟨next,hu⟩

omit hU hrank hA hC in
lemma verifies_init {a : Authority} (ha : Verified X U B a.head a.state) : InformLoop.Verifies X U B
    ⟨(∅ : GoMap AUMHash State).insert (X.hash a.head) a.state,[],X.hash a.head,true⟩ := by
  refine ⟨fun {j stj} hj => ?_,forall_mem_nil _⟩
  rcases of_lookup_insert hj with ⟨rfl,rfl⟩ | ⟨-,hj⟩
  · exact ⟨a.head,rfl,ha⟩
  · cases hj

lemma verifies_of_beforeCommit {a : Authority} (ha : Verified X U B a.head a.state) {updates : List AUM}
    (hupdates : ∀ u ∈ updates, u ∈ U) {s : InformLoop} (h : beforeCommit o a storage updates=.ok s) :
    s.Verifies X U B := by
  rw [beforeCommit,ha.lastAUMHash] at h
  split at h
  · cases h
  · next heq _ => cases heq
  · next head u heq _ =>
    cases heq
    refine foldlM_invariant (fun done s => (∀ e ∈ done, e.1 ∈ U) → s.Verifies X U B)
      (fun _ => verifies_init ha) ?_
      h fun e he => hupdates e.1 (fst_mem_of_mem_zipIdx he)
    intro done t e t' ht hstep hdone
    refine InformLoop.Verifies.step hU hrank hA hC ?_ (hdone e (mem_append_right _ mem_cons_self)) hstep
    exact ht fun d hd => hdone d (mem_append_left _ hd)

end

section
variable {storage : Store X} (hfilled : storage.Filled U) (hA : Grounded X U B B storage.stored)
include hfilled hA

lemma rooted_of_active (hlast : storage.lastActiveAncestor=some (X.hash B))
    {s : SliceSort} {o o' : MapOrder} {last : Option AUMHash} {c : Chain}
    (h : computeActiveChain X s o' (storage.chonk o) last maxScanIterations=.ok c) :
    Rooted X U B storage ⟨c.head,c.oldest,c.state⟩ := by
  have hC := (hfilled.kept hU).reads o
  obtain ⟨l,hl⟩ := storage.exists_list_stored
  obtain ⟨stB,hB⟩ := hA.verified B hA.root
  obtain ⟨-,hleads⟩ := (hA.active_iff hU hrank hC hl hB (q := (c.head,c.state)) (by decide)).mp ⟨c,h,rfl,rfl⟩
  obtain ⟨hhead,hmem⟩ := hA.verified_of_leads hU hrank hB hA.root hleads
  refine ⟨hfilled,hA,hlast,hmem,hhead,hA.oldest_eq hrank hC h,fun o st _ hst => ?_⟩
  rw [hst.unique hU hrank hB]
  exact hleads

lemma Grounded.exists_active {o : MapOrder}
    (hwithin : (storage.chonk o).Within maxScanIterations) (s : SliceSort) (o' : MapOrder)
    (last : Option AUMHash) :
    ∃ c, computeActiveChain X s o' (storage.chonk o) last maxScanIterations=.ok c := by
  have hC := (hfilled.kept hU).reads o
  obtain ⟨l,hl⟩ := storage.exists_list_stored
  obtain ⟨stB,hB⟩ := hA.verified B hA.root
  obtain ⟨e,he⟩ := hA.exists_leads hU hrank hC s hl (p := (B,stB)) hB hA.root
  obtain ⟨c,hc,-⟩ := (hA.active_iff hU hrank hC hl hB (by decide)).mpr ⟨hwithin,he⟩
  exact ⟨c,hc⟩

end

variable {storage : Store X}

omit hrank in
lemma Grounded.of_commit (hfilled : storage.Filled U)
    (hA : Grounded X U B B storage.stored) {a : Authority} {updates : List AUM}
    (hupdates : ∀ u ∈ updates, u ∈ U) {s : InformLoop} (htracks : s.Tracks storage a updates)
    (hverifies : s.Verifies X U B) : Grounded X U B B (storage.commitVerifiedAUMs s.toCommit).stored := by
  have hmem {b : AUM} := Store.mem_stored_commitVerifiedAUMs hU hfilled
    (fun u hu => hupdates u ((htracks.toCommit u).mp hu).1) (b := b)
  refine ⟨fun b hb => (hmem.mp hb).elim (hA.verified b) (hverifies.toCommit b),hmem.mpr (.inl hA.root),
    hA.checkpoint,fun b hb hne => ?_⟩
  by_cases hold : b ∈ storage.stored
  · obtain ⟨c,hc,hp⟩ := hA.closed b hold hne
    exact ⟨c,hmem.mpr (.inl hc),hp⟩
  · exact htracks.closed hU hfilled hupdates b hb hold

section
variable {storage storage' : Store X} (hA : Grounded X U B B storage.stored)
  (hA' : Grounded X U B B storage'.stored) (hfilled : storage.Filled U) (hfilled' : storage'.Filled U)
  {o o' : MapOrder}
include hA hA' hfilled hfilled'

lemma Grounded.walk_back_transfer {k : ℕ} {b : AUM} (hb : b ∈ storage.stored)
    (h : walk (storage'.chonk o').back k b=some B) : walk (storage.chonk o).back k b=some B := by
  have hC := (hfilled.kept hU).reads o
  have hC' := (hfilled'.kept hU).reads o'
  induction k generalizing b with
  | zero => exact h
  | succ k ih =>
    obtain ⟨c,hc,h⟩ := walk_succ_eq_some.mp h
    obtain ⟨hcA,hp⟩ := hC'.back_eq_some.mp hc
    have hbB : b≠B := by
      rintro rfl
      exact hA'.not_parent_root hrank hcA hp
    obtain ⟨d,hd,hp'⟩ := hA.closed b hb hbB
    cases hU (hA'.mem hcA) (hA.mem hd) (some.inj (hp.symm.trans hp'))
    exact (walk_succ_of (hC.back_eq_some.mpr ⟨hd,hp⟩) k).trans (ih hd h)

lemma Grounded.within_anti (hsub : storage.stored ⊆ storage'.stored) {maxIter : ℕ}
    (hwithin : (storage'.chonk o').Within maxIter) : (storage.chonk o).Within maxIter := by
  obtain ⟨l,hl⟩ := storage.exists_list_stored
  obtain ⟨l',hl'⟩ := storage'.exists_list_stored
  rw [hA.within_iff hrank ((hfilled.kept hU).reads o) hl]
  intro b hb
  obtain ⟨k,hk,hw⟩ := (hA'.within_iff hrank ((hfilled'.kept hU).reads o') hl').mp hwithin b (hsub hb)
  exact ⟨k,hk,hA.walk_back_transfer hU hrank hA' hfilled hfilled' hb hw⟩

end

lemma Rooted.inform {a : Authority} (h : Rooted X U B storage a) {updates : List AUM}
    (hupdates : ∀ u ∈ updates, u ∈ U) (sorter : SliceSort) (o o' : MapOrder) :
    Rooted X U B (informIdempotent sorter o o' a storage updates).1
      ((informIdempotent sorter o o' a storage updates).2.toOption.getD a) := by
  have hkept := h.filled.kept hU
  have hC := hkept.reads o
  cases hbefore : beforeCommit o a storage updates with
  | error e =>
    rw [informIdempotent_of_error hbefore]
    exact h
  | ok s =>
    have hknown : (storage.aum (X.hash a.head)).isSome := isSome_iff_exists.mpr ⟨_,hkept.aum_hash h.head⟩
    have htracks := tracks_of_beforeCommit h.verified.lastAUMHash hknown hbefore
    have hverifies := verifies_of_beforeCommit hU hrank h.grounded hC h.verified hupdates hbefore
    have hfilled' := h.filled.commitVerifiedAUMs fun u hu => hupdates u ((htracks.toCommit u).mp hu).1
    have hA' := h.grounded.of_commit hU h.filled hupdates htracks hverifies
    have hlast' := (storage.lastActiveAncestor_commitVerifiedAUMs s.toCommit).trans h.last
    have hmem {b : AUM} := htracks.mem_stored hU h.filled hupdates (b := b)
    have hsub : storage.stored ⊆ (storage.commitVerifiedAUMs s.toCommit).stored := fun b hb => hmem.mpr (.inl hb)
    obtain ⟨last,hlast,hinform⟩ := informIdempotent_of_ok sorter o' hbefore
    rw [hinform]
    by_cases hchain : s.isHeadChain=true
    · rw [if_pos hchain]
      obtain ⟨q,hq,hqh,hqs⟩ := htracks.builds hchain
      have hlastq : last=q.1 := by
        have hqlast := hq.getLast
        rw [getLast?_cons,hlast,getD_some] at hqlast
        exact some.inj hqlast
      have hin := mem_of_getLast? hlast
      have hverified : Verified X U B q.1 q.2 := by
        obtain ⟨b,hb,hbst⟩ := hverifies.stateAt hqs
        rw [hlastq] at hin
        rwa [← hU hbst.mem (hupdates _ hin) (hb.trans hqh)]
      change Rooted X U B _ ⟨last,a.oldestAncestor,(s.stateAt.lookup s.prevHash).getD .zero⟩
      rw [hqs,hlastq,getD_some]
      refine ⟨hfilled',hA',hlast',hmem.mpr (.inr (hlastq ▸ hin)),hverified,h.oldest,fun o1 st hwithin hst => ?_⟩
      have hset : (storage.commitVerifiedAUMs s.toCommit).stored=storage.stored ∪ {v | v ∈ updates} :=
        Set.ext fun b => hmem
      have hall : ∀ u ∈ updates, ∃ st, Verified X U B u st :=
        fun u hu => hA'.verified u (hmem.mpr (.inr hu))
      have hinj : Set.InjOn X.hash {a | ∃ st, Verified X U B a st} := by
        rintro b ⟨_,hb⟩ c ⟨_,hc⟩
        exact hU hb.mem hc.mem
      have hlt : ∀ b ∈ {a | ∃ st, Verified X U B a st}, ∀ c ∈ {a | ∃ st, Verified X U B a st},
          b.parent=some (X.hash c) → rank c < rank b := by
        rintro b ⟨_,hb⟩ c ⟨_,hc⟩
        exact hrank b hb.mem c hc.mem
      rw [hset]
      refine hq.leads hinj hlt h.grounded.verified (h.grounded.closed_follows hU hrank) h.grounded.root ?_ hall ?_
      · exact h.synced o1 st
          (h.grounded.within_anti hU hrank hA' h.filled hfilled' hsub hwithin) hst
      · intro u hu hold
        cases ((htracks.headChain.mp hchain).1 u hu).symm.trans (hkept.aum_hash hold)
    · rw [if_neg hchain]
      cases hactive : computeActiveChain X sorter o' ((storage.commitVerifiedAUMs s.toCommit).chonk o)
          (some (X.hash a.oldestAncestor)) maxScanIterations with
      | ok c => exact rooted_of_active hU hrank hfilled' hA' hlast' hactive
      | error e =>
        refine ⟨hfilled',hA',hlast',hsub h.head,h.verified,h.oldest,fun o1 st hwithin hst => ?_⟩
        have hC1 := (hfilled'.kept hU).reads o1
        have hC2 := (hfilled'.kept hU).reads o
        obtain ⟨c,hc⟩ := hA'.exists_active hU hrank hfilled' ((hC1.within_congr hC2).mp hwithin) sorter o'
          (some (X.hash a.oldestAncestor))
        cases hactive.symm.trans hc

lemma rooted_of_openStore (hfilled : storage.Filled U)
    (hA : Grounded X U B B storage.stored) (hlast : storage.lastActiveAncestor=some (X.hash B))
    {s : SliceSort} {o o' : MapOrder} {a : Authority} (h : openStore s o o' storage=.ok a) :
    Rooted X U B storage a := by
  obtain ⟨c,hc,rfl⟩ := map_eq_ok.mp h
  exact rooted_of_active hU hrank hfilled hA hlast (mapError_eq_ok.mp hc)

omit hU hrank in
lemma checkBootstrap_eq_ok {o : MapOrder} (h : checkBootstrap o storage B=.ok ()) :
    B.messageKind=.checkpoint ∧ ∃ st, B.state=some st ∧ aumVerify X B st true=.ok () := by
  rw [checkBootstrap] at h
  obtain ⟨-,h⟩ := guard_eq_ok.mp h
  obtain ⟨hkind,h⟩ := guard_eq_ok.mp h
  split at h
  · cases h
  · next st hst => exact ⟨not_not.mp hkind,st,hst,mapError_eq_ok.mp h⟩

omit hU hrank in
lemma grounded_singleton (hB : B ∈ U) {o : MapOrder}
    (h : checkBootstrap o storage B=.ok ()) (hA : ∀ b, b ∈ A ↔ b=B) : Grounded X U B B A := by
  obtain ⟨hkind,st,hst,hverify⟩ := checkBootstrap_eq_ok h
  refine ⟨fun b hb => ?_,(hA B).mpr rfl,hkind,fun b hb hne => absurd ((hA b).mp hb) hne⟩
  rw [(hA b).mp hb]
  exact ⟨_,.root hB hkind hst hverify⟩

lemma Grown.rooted {a : Authority} (h : Grown X U B storage a) :
    Rooted X U B storage a := by
  induction h with
  | @bootstrap storage storage' hempty hB sorter o o' a h =>
    have hfilled : storage.Filled U := by
      rcases hempty with rfl | rfl
      · exact .mem
      · exact .fs
    have hnone : ∀ b, b ∉ storage.stored := by
      rintro b ⟨j,hj⟩
      rcases hempty with rfl | rfl <;> cases hj
    rw [Tka.bootstrap] at h
    split at h
    · cases h
    · next hcheck =>
      obtain ⟨rfl,hopen⟩ := Prod.mk.inj h
      refine rooted_of_openStore hU hrank (.setLast (hfilled.commit hB) _) (grounded_singleton hB hcheck ?_) ?_ hopen
      · intro b
        have hmem := Store.mem_stored_commit hU (hfilled.kept hU) hB (b := b)
        rw [or_iff_right (hnone b)] at hmem
        exact (exists_congr fun j => by rw [Store.aum_setLastActiveAncestor]).trans hmem
      · cases storage <;> rfl
  | inform h hupdates sorter o o' ih => exact ih.inform hU hrank hupdates sorter o o'
  | reopen h hopen ih => exact rooted_of_openStore hU hrank ih.filled ih.grounded ih.last hopen

end

end

end TunnnejiTail.Tka
