import TunnnejiTail.Tka.Missing

/-! Two authorities that start from the same message and exchange what the other one is missing end up with
the same head and the same state. One that restarts, or is told what it knows, stays where it is. -/
namespace TunnnejiTail.Tka
open Go List

section
variable {X : Primitives} {U : Set AUM} {B : AUM} (hU : Set.InjOn X.hash U) {rank : AUM → ℕ}
  (hrank : Ranked X U rank) {st : State}

lemma grounded_verified (hB : Verified X U B B st) (hkind : B.messageKind=.checkpoint) :
    Grounded X U B B {a | ∃ st, Verified X U B a st} := by
  refine ⟨fun a ha => ha,⟨st,hB⟩,hkind,fun a ha hne => ?_⟩
  obtain ⟨st',ha⟩ := ha
  rcases ha.parent with he | ⟨p,stp,hp,-,-,hprev⟩
  · exact absurd he hne
  · exact ⟨p,⟨stp,hp⟩,parent_of_bytes hprev⟩

section
variable {storage : Store X} {a : Authority} (h : Rooted X U B storage a)
include hU hrank h

lemma Rooted.syncOffer_eq_ok (o : MapOrder) : ∃ offer, a.syncOffer X (storage.chonk o)=.ok offer ∧
    offer.head=X.hash a.head ∧ X.hash B ∈ offer.ancestors ∧
    ∀ j ∈ offer.ancestors, ∃ b ∈ storage.stored, X.hash b=j := by
  have hC := (h.filled.kept hU).reads o
  refine ⟨_,by rw [Authority.syncOffer,h.verified.lastAUMHash],rfl,?_,fun j hj => ?_⟩
  · rw [h.oldest]
    exact mem_append_right _ mem_cons_self
  · rcases mem_append.mp hj with hj | hj
    · rw [h.oldest] at hj
      exact (h.grounded.mem_offerLoop hU hrank hC h.head hj).resolve_left not_mem_nil
    · rw [mem_singleton.mp hj,h.oldest]
      exact ⟨B,h.grounded.root,rfl⟩

variable {o : MapOrder}

lemma Rooted.depth (hwithin : (storage.chonk o).Within maxScanIterations) :
    ∀ b ∈ storage.stored, ∃ k < maxSyncIter, walk (storage.chonk o).back k b=some B := by
  obtain ⟨l,hl⟩ := storage.exists_list_stored
  exact (h.grounded.within_iff hrank ((h.filled.kept hU).reads o) hl).mp hwithin

/-- What is sent to an authority that has the bootstrap message: the messages that build on one that both
have, up to the head. -/
theorem Rooted.missingAUMs_eq_ok (hcopy : ∀ b ∈ U, B.prevAUMHash.getD []≠[] →
      copyOver (X.hash B) (B.prevAUMHash.getD [])=X.hash b → rank b < rank B)
    (hwithin : (storage.chonk o).Within maxScanIterations) (s : SliceSort) {A : Set AUM} (hA : A ⊆ U)
    {offer : SyncOffer} {H : AUM} (hH : H ∈ A) (hhead : offer.head=X.hash H)
    (hroot : X.hash B ∈ offer.ancestors) (hanc : ∀ j ∈ offer.ancestors, ∃ b ∈ A, X.hash b=j) :
    ∃ us t st, a.missingAUMs X s (storage.chonk o) offer=.ok us ∧ t ∈ A ∧ Verified X U B t st ∧
      Builds X (t,st) us (a.head,a.state) ∧ ∀ u ∈ us, u ∈ storage.stored := by
  have hC := (h.filled.kept hU).reads o
  have hdepth := h.depth hU hrank hwithin
  obtain ⟨l,hl⟩ := storage.exists_list_stored
  obtain ⟨stB,hB⟩ := h.grounded.verified B h.grounded.root
  have hleads := h.synced o stB hwithin hB
  obtain ⟨own,hown,hownHead,-⟩ := h.syncOffer_eq_ok hU hrank o
  have hmem {b c : AUM} (hb : b ∈ storage.stored) (hc : c ∈ A) (he : X.hash b=X.hash c) : b=c :=
    hU (h.grounded.mem hb) (hA hc) he
  rw [Authority.missingAUMs,hown]
  change ∃ us t st, ((computeSyncIntersection X s (storage.chonk o) own offer).mapError _ >>= _)=_ ∧ _
  rw [computeSyncIntersection,hownHead,hhead]
  by_cases hsame : X.hash H=X.hash a.head
  · rw [if_pos hsame]
    refine ⟨[],a.head,a.state,rfl,?_,h.verified,.nil _,forall_mem_nil _⟩
    rw [hmem h.head hH hsame.symm]
    exact hH
  · rw [if_neg hsame]
    by_cases hfound : ((storage.chonk o).aum (X.hash H)).isSome ∧
        findHead X (storage.chonk o) (X.hash H) maxSyncHeadIntersectionIter (X.hash a.head)=true
    · rw [if_pos hfound]
      obtain ⟨k,c,hk,hc⟩ := h.grounded.of_findHead hU hrank hC hcopy h.head hfound.2
      have hcA := hC.mem_of_walk h.head hk
      obtain ⟨st,hst,hfrom⟩ := h.grounded.leads_of_ancestor hU hrank hC hB hleads hk
      obtain ⟨us,hus,hbuilds,hin⟩ := h.grounded.listFrom_eq_ok hU hrank hC hdepth s hcA hst hfrom
      rw [hc] at hus
      exact ⟨us,c,st,hus,hmem hcA hH hc ▸ hH,hst,hbuilds,hin⟩
    · rw [if_neg hfound]
      obtain ⟨b,hb,st,hfind,hbanc,hst,hfrom⟩ :=
        h.grounded.findTail_eq_ok hU hrank hC hB hleads hdepth s hl hroot
      obtain ⟨us,hus,hbuilds,hin⟩ := h.grounded.listFrom_eq_ok hU hrank hC hdepth s hb hst hfrom
      obtain ⟨c,hc,hcb⟩ := hanc _ hbanc
      rw [hfind]
      exact ⟨us,b,st,hus,hmem hb hc hcb.symm ▸ hc,hst,hbuilds,hin⟩

variable {o : MapOrder} (hdepth : ∀ b ∈ storage.stored, ∃ k < maxScanIterations, walk (storage.chonk o).back k b=some B)
include hdepth

variable {s : InformLoop} {p : AUM × State} (hs : s.Verifies X U B) (hp : Verified X U B p.1 p.2)
  (hknown : p.1 ∈ storage.stored ∨ (s.stateAt.lookup (X.hash p.1)).isSome)

include hs hp hknown in
lemma Rooted.exists_informStep {u : AUM} (hu : ∃ st, Verified X U B u st) (hpar : u.parent=some (X.hash p.1)) (i : ℕ) :
    ∃ s', informStep o storage s (u,i)=.ok s' ∧ (u ∈ storage.stored ∨ (s'.stateAt.lookup (X.hash u)).isSome) := by
  have hkept := h.filled.kept hU
  have hC := hkept.reads o
  obtain ⟨stB,hB⟩ := h.grounded.verified B h.grounded.root
  rw [informStep]
  by_cases hstored : (storage.aum (X.hash u)).isSome
  · rw [if_pos hstored]
    obtain ⟨b,hb⟩ := Option.isSome_iff_exists.mp hstored
    obtain ⟨stu,hu⟩ := hu
    refine ⟨_,rfl,.inl ?_⟩
    rw [← hU (hkept.sound hb).2 hu.mem (hkept.sound hb).1]
    exact ⟨_,hb⟩
  · have hbefore : stateBefore o storage s (X.hash p.1)=.ok p.2 := by
      rw [stateBefore]
      cases hlook : s.stateAt.lookup (X.hash p.1) with
      | some st =>
        obtain ⟨b,hb,hbst⟩ := hs.stateAt hlook
        cases hU hbst.mem hp.mem hb
        exact congrArg _ (hbst.unique hU hrank hp)
      | none =>
        have hpA : p.1 ∈ storage.stored := by
          rw [hlook] at hknown
          exact hknown.resolve_right Bool.false_ne_true
        obtain ⟨k,hk,hkB⟩ := hdepth p.1 hpA
        obtain ⟨st,hst⟩ := h.grounded.exists_computeStateAt hU hrank hC hpA hkB hk
        cases (h.grounded.verified_of_computeStateAt hU hrank hC hpA hst).unique hU hrank hp
        exact hst
    obtain ⟨st',-,hverify,happly,-⟩ :=
      (grounded_verified hB h.grounded.checkpoint).apply hU hrank hp hu hpar
    rw [if_neg hstored,hpar]
    refine ⟨_,bind_eq_ok.mpr ⟨p.2,mapError_eq_ok.mpr hbefore,bind_eq_ok.mpr ⟨(),?_,bind_eq_ok.mpr
      ⟨st',mapError_eq_ok.mpr (mapError_eq_ok.mpr happly),rfl⟩⟩⟩,.inr ?_⟩
    · exact mapError_eq_ok.mpr (mapError_eq_ok.mpr hverify)
    · rw [AList.lookup_insert]
      rfl

variable {q : AUM × State} {us : List AUM} (hall : ∀ u ∈ us, ∃ st, Verified X U B u st)
include hall

include hs hp hknown in
lemma Rooted.exists_informLoop (hus : Builds X p us q) (i : ℕ) :
    ∃ s', (us.zipIdx i).foldlM (informStep o storage) s=.ok s' := by
  induction hus generalizing s i with
  | nil p => exact ⟨s,rfl⟩
  | @cons p q u st us hprev happly hus ih =>
    have hpar := parent_of_bytes hprev
    have hu := hall u mem_cons_self
    have hC := (h.filled.kept hU).reads o
    obtain ⟨stB,hB⟩ := h.grounded.verified B h.grounded.root
    obtain ⟨st',hst',-,happly',-⟩ :=
      (grounded_verified hB h.grounded.checkpoint).apply hU hrank hp hu hpar
    cases happly.symm.trans happly'
    obtain ⟨s',hstep,hknown'⟩ := h.exists_informStep hU hrank hdepth hs hp hknown hu hpar i
    have hs' := hs.step hU hrank h.grounded hC hst'.mem hstep
    obtain ⟨s'',hrest⟩ := ih hs' hst' hknown' (fun v hv => hall v (mem_cons_of_mem u hv)) (i+1)
    exact ⟨s'',foldlM_cons_ok.mpr ⟨s',hstep,hrest⟩⟩

lemma Rooted.exists_beforeCommit {t : AUM}
    (hus : Builds X (t,st) us q) (hne : us≠[]) (ht : t ∈ storage.stored) (hst : Verified X U B t st) :
    ∃ s, beforeCommit o a storage us=.ok s := by
  rw [beforeCommit,h.verified.lastAUMHash]
  cases hlast : us.getLast? with
  | none => exact absurd (getLast?_eq_none_iff.mp hlast) hne
  | some last =>
    exact h.exists_informLoop hU hrank hdepth (verifies_init h.verified) hst (.inl ht) hall hus 0

end

section
variable {storage : Store X} {a : Authority} (h : Rooted X U B storage a)
include hU hrank h

variable {o o' : MapOrder} {storage' : Store X} {a' : Authority}

lemma Rooted.exists_informMissing (hwithin : (storage.chonk o).Within maxScanIterations)
    (h' : Rooted X U B storage' a')
    (hwithin' : (storage'.chonk o').Within maxScanIterations) {us : List AUM} {t : AUM}
    (hus : Builds X (t,st) us (a'.head,a'.state)) (ht : t ∈ storage.stored) (hst : Verified X U B t st)
    (hin : ∀ u ∈ us, u ∈ storage'.stored) (s : SliceSort) (o1 : MapOrder) :
    ∃ a1, (informMissing s o o1 a storage us).2=.ok a1 ∧ Rooted X U B (informMissing s o o1 a storage us).1 a1 ∧
      (∀ b, b ∈ (informMissing s o o1 a storage us).1.stored ↔ b ∈ storage.stored ∨ b ∈ us) ∧
      ((informMissing s o o1 a storage us).1.chonk o).Within maxScanIterations := by
  rw [informMissing]
  by_cases hlen : 0<us.length
  · rw [if_pos hlen]
    have hupdates : ∀ u ∈ us, u ∈ U := fun u hu => h'.grounded.mem (hin u hu)
    obtain ⟨x,hbefore⟩ := h.exists_beforeCommit hU hrank (h.depth hU hrank hwithin)
      (fun u hu => h'.grounded.verified u (hin u hu)) hus (ne_nil_of_length_pos hlen) ht hst
    have hrooted := h.inform hU hrank hupdates s o o1
    obtain ⟨last,-,hinform⟩ := informIdempotent_of_ok s o1 hbefore
    have hknown : (storage.aum (X.hash a.head)).isSome :=
      Option.isSome_iff_exists.mpr ⟨_,(h.filled.kept hU).aum_hash h.head⟩
    have htracks := tracks_of_beforeCommit h.verified.lastAUMHash hknown hbefore
    rw [hinform] at hrooted ⊢
    have hmem {b : AUM} := htracks.mem_stored hU h.filled hupdates (b := b)
    have hwithin1 : ((storage.commitVerifiedAUMs x.toCommit).chonk o).Within maxScanIterations := by
      obtain ⟨l,hl⟩ := (storage.commitVerifiedAUMs x.toCommit).exists_list_stored
      refine (hrooted.grounded.within_iff hrank ((hrooted.filled.kept hU).reads o) hl).mpr fun b hb => ?_
      rcases hmem.mp hb with hold | hnew
      · obtain ⟨k,hk,hw⟩ := h.depth hU hrank hwithin b hold
        exact ⟨k,hk,hrooted.grounded.walk_back_transfer hU hrank h.grounded hrooted.filled h.filled hb hw⟩
      · obtain ⟨k,hk,hw⟩ := h'.depth hU hrank hwithin' b (hin b hnew)
        exact ⟨k,hk,hrooted.grounded.walk_back_transfer hU hrank h'.grounded hrooted.filled h'.filled hb hw⟩
    by_cases hchain : x.isHeadChain=true
    · rw [if_pos hchain] at hrooted ⊢
      exact ⟨_,rfl,hrooted,fun b => hmem,hwithin1⟩
    · rw [if_neg hchain] at hrooted ⊢
      obtain ⟨c,hc⟩ := hrooted.grounded.exists_active hU hrank hrooted.filled hwithin1 s o1
        (some (X.hash a.oldestAncestor))
      rw [hc] at hrooted ⊢
      exact ⟨_,rfl,hrooted,fun b => hmem,hwithin1⟩
  · rw [if_neg hlen]
    refine ⟨a,rfl,h,fun b => ?_,hwithin⟩
    rw [length_eq_zero_iff.mp (Nat.eq_zero_of_not_pos hlen)]
    simp

variable {stB : State} (hwithin : (storage.chonk o).Within maxScanIterations) (hB : Verified X U B B stB)
include hwithin hB

lemma Rooted.eq_of_leads {A : Set AUM}
    (hsub : storage.stored ⊆ A) (hA : ∀ b ∈ A, ∃ st, Verified X U B b st) {e : AUM × State}
    (he : (forkRule X).Leads A (B,stB) e) (hmem : e.1 ∈ storage.stored) : (a.head,a.state)=e := by
  have hleads := he.anti (P := fun p : AUM × State => ∃ st, Verified X U B p.1 st) hsub
    (fun {p q} hp hstep => ⟨hA q.1 hstep.mem,fun hq =>
      h.grounded.closed_follows hU hrank q.1 hq p.1 hp hstep.follows⟩) ⟨stB,hB⟩ hmem
  exact (h.synced o stB hwithin hB).unique (forkRule_lawful X) hleads.2

lemma Rooted.leads_union (h' : Rooted X U B storage' a')
    (hwithin' : (storage'.chonk o').Within maxScanIterations) :
    (forkRule X).Leads (storage.stored ∪ storage'.stored) (B,stB) (a.head,a.state) ∨
      (forkRule X).Leads (storage.stored ∪ storage'.stored) (B,stB) (a'.head,a'.state) := by
  refine (h.synced o stB hwithin hB).union (forkRule_lawful X) (P := fun p : AUM × State => Verified X U B p.1 p.2)
    (fun b hb c hc => h.grounded.closed_follows hU hrank b hb c (h'.grounded.verified c hc))
    (fun b hb c hc => h'.grounded.closed_follows hU hrank b hb c (h.grounded.verified c hc))
    (fun hp hstep => h.grounded.verified_of_step hU hrank hp hstep) (fun {p q q'} hp hstep hstep' hne => ?_)
    (h'.synced o' stB hwithin' hB) hB
  obtain ⟨st,hq⟩ := h.grounded.verified q.1 hstep.mem
  obtain ⟨st',hq'⟩ := h'.grounded.verified q'.1 hstep'.mem
  exact Beats.total (hp.exists_weight hq) (hp.exists_weight hq') fun he => hne (hU hq.mem hq'.mem he)

end

end

lemma Builds.mem_of_last {X : Primitives} {t : AUM} {st : State} {q : AUM × State} {us : List AUM}
    (h : Builds X (t,st) us q) : q.1=t ∨ q.1 ∈ us :=
  mem_cons.mp (mem_of_getLast? h.getLast)

lemma informLoop_of_stored {X : Primitives} {storage : Store X} {l : List (AUM × ℕ)}
    (hl : ∀ e ∈ l, (storage.aum (X.hash e.1)).isSome) (o : MapOrder) (s : InformLoop) :
    l.foldlM (informStep o storage) s=.ok { s with isHeadChain := s.isHeadChain && l.isEmpty } := by
  induction l generalizing s with
  | nil => simp [pure,Except.pure]
  | cons e l ih =>
    obtain ⟨he,hl⟩ := forall_mem_cons.mp hl
    rw [foldlM_cons,informStep,if_pos he]
    exact (ih hl _).trans (by simp)

section
variable {X : Primitives} {U : Set AUM} (hU : Set.InjOn X.hash U) {rank : AUM → ℕ} (hrank : Ranked X U rank) {B : AUM}
  {storage : Store X} {a : Authority} (h : Grown X U B storage a) {o : MapOrder}
  (hwithin : (storage.chonk o).Within maxScanIterations) (s : SliceSort) (o' : MapOrder)
include hU hrank h hwithin

lemma Grown.active (last : Option AUMHash) (w : String) :
    ((computeActiveChain X s o' (storage.chonk o) last maxScanIterations).mapError (Halt.wrap w)).map
      (fun c => (⟨c.head,c.oldest,c.state⟩ : Authority))=.ok a := by
  have hr := h.rooted hU hrank
  obtain ⟨st,hB⟩ := hr.grounded.verified B hr.grounded.root
  obtain ⟨c,hc⟩ := hr.grounded.exists_active hU hrank hr.filled hwithin s o' last
  have hr' := rooted_of_active hU hrank hr.filled hr.grounded hr.last hc
  have heq := (hr'.synced o st hwithin hB).unique (forkRule_lawful X) (hr.synced o st hwithin hB)
  rw [hc]
  obtain ⟨head,oldest,state⟩ := a
  cases heq
  cases hr'.oldest.trans hr.oldest.symm
  rfl

omit s o'
end

lemma acyclicCopies_forks : AcyclicCopies byKind forks := by
  refine ⟨fun a => if a.messageKind=.checkpoint then 0 else 1,?_⟩
  rintro a (rfl | rfl | rfl) b (rfl | rfl | rfl) hab <;> first | decide | (revert hab; decide)

set_option maxRecDepth 40000 in
lemma grown_forkStore {empty : Store byKind} (hempty : empty=.mem {} ∨ empty=.fs .empty)
    {kind : AUMKind} (hkind : kind=.noOp ∨ kind=.invalid) :
    ∃ a, Grown byKind forks (fork .checkpoint) (forkStore empty [kind]) a ∧
      ((forkStore empty [kind]).chonk .asStored).Within maxScanIterations ∧ a.head=fork kind := by
  obtain ⟨a,ha,hstore,hhead,hheads,hback⟩ : ∃ a, bootstrap .insertion .asStored .asStored empty (fork .checkpoint)
        = (forkStore empty [],.ok a) ∧
      (informIdempotent .insertion .asStored .asStored a (forkStore empty []) [fork kind]).1
        = forkStore empty [kind] ∧
      ((informIdempotent .insertion .asStored .asStored a (forkStore empty []) [fork kind]).2.toOption.getD a).head
        = fork kind ∧
      ((forkStore empty [kind]).chonk .asStored).heads=[fork kind] ∧
      Ends ((forkStore empty [kind]).chonk .asStored).back 1 (fork kind) (fork .checkpoint) := by
    rcases hempty with rfl | rfl <;> rcases hkind with rfl | rfl <;> exact ⟨_,rfl,rfl,rfl,by decide,rfl,rfl⟩
  have hupdates : ∀ u ∈ [fork kind], u ∈ forks := by
    rcases hkind with rfl | rfl <;> simp [forks]
  have hgrown := (Grown.bootstrap (U := forks) hempty (.inl rfl) ha).inform hupdates .insertion .asStored .asStored
  rw [hstore] at hgrown
  refine ⟨_,hgrown,?_,hhead⟩
  rw [Chonk.Within,hheads]
  intro b hb
  cases mem_singleton.mp hb
  exact ⟨1,by decide,_,hback⟩

end TunnnejiTail.Tka
