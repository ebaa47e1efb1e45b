import TunnnejiTail.Tka.Verified

/-! Stores whose messages all come from one checkpoint. The way forward through such a store is a fork
choice, and it never fails within the limits. -/
namespace TunnnejiTail.Tka
open Go Consensus TunnnejiTail.Types Store

variable {X : Primitives} {U : Set AUM} {B R : AUM} {A : Set AUM} {rank : AUM → ℕ} {C : Chonk}
  {s : SliceSort}

def forkRule (X : Primitives) : Rule AUM State where
  follows b a := b.parent=some (X.hash a)
  apply st a st' := st.applyVerifiedAUM X a=.ok st'
  beats st a b := Beats X st a b

lemma forkRule_lawful (X : Primitives) : (forkRule X).Lawful where
  asymm h := h.asymm
  trans {st a b c} h h' := by
    obtain ⟨w,v,hw,hv,hless⟩ := h
    obtain ⟨v',u,hv',hu,hless'⟩ := h'
    cases hv.symm.trans hv'
    refine ⟨w,u,hw,hu,(forkLess_iff X _ _).mpr ?_⟩
    exact ((forkLess_iff X _ _).mp hless).trans ((forkLess_iff X _ _).mp hless')
  apply_unique h h' := Except.ok.inj (h.symm.trans h')

variable {st : State}

lemma Beats.total {X : Primitives} {a b : AUM} (ha : ∃ w, a.weight st=.ok w)
    (hb : ∃ w, b.weight st=.ok w) (hne : X.hash a≠X.hash b) : Beats X st a b ∨ Beats X st b a := by
  obtain ⟨w,hw⟩ := ha
  obtain ⟨v,hv⟩ := hb
  have hkey : forkKey X (a,w)≠forkKey X (b,v) := by
    intro he
    exact hne (Raw32.ext_toNat (congrArg (fun k => (ofLex (ofLex k).2).2) he))
  rcases lt_or_gt_of_ne hkey with h | h
  · exact .inl ⟨w,v,hw,hv,(forkLess_iff X _ _).mpr h⟩
  · exact .inr ⟨v,w,hv,hw,(forkLess_iff X _ _).mpr h⟩

/-- Messages that were verified from a bootstrap message on and that all come from a checkpoint. -/
structure Grounded (X : Primitives) (U : Set AUM) (B R : AUM) (A : Set AUM) : Prop where
  verified : ∀ a ∈ A, ∃ st, Verified X U B a st
  root : R ∈ A
  checkpoint : R.messageKind=.checkpoint
  closed : ∀ a ∈ A, a≠R → ∃ b ∈ A, a.parent=some (X.hash b)

section
variable (hA : Grounded X U B R A) (hU : Set.InjOn X.hash U) (hrank : Ranked X U rank)
include hA

variable {a : AUM}

lemma Grounded.mem (ha : a ∈ A) : a ∈ U := by
  obtain ⟨st,h⟩ := hA.verified a ha
  exact h.mem

include hU in
lemma Grounded.injOn : Set.InjOn X.hash A := fun _ ha _ hb => hU (hA.mem ha) (hA.mem hb)

include hrank

lemma Grounded.rank_lt : Ranked X A rank :=
  fun a ha b hb => hrank a (hA.mem ha) b (hA.mem hb)

lemma Grounded.root_le (ha : a ∈ A) : rank R ≤ rank a := by
  induction hr : rank a using Nat.strong_induction_on generalizing a with
  | _ r ih =>
    by_cases haR : a=R
    · rw [← hr,haR]
    · obtain ⟨b,hb,hp⟩ := hA.closed a ha haR
      have hlt := hA.rank_lt hrank a ha b hb hp
      exact (ih (rank b) (hr ▸ hlt) hb rfl).trans (hr ▸ hlt).le

lemma Grounded.not_parent_root (ha : a ∈ A) : R.parent≠some (X.hash a) :=
  fun hp => absurd (hA.root_le hrank ha) (not_le.mpr (hA.rank_lt hrank R hA.root a ha hp))

include hU

lemma Grounded.apply {a b : AUM} (ha : Verified X U B a st) (hb : b ∈ A)
    (hp : b.parent=some (X.hash a)) : ∃ st', Verified X U B b st' ∧ aumVerify X b st false=.ok () ∧
      st.applyVerifiedAUM X b=.ok st' ∧ b.prevAUMHash.getD []=(X.hash a).bytes := by
  obtain ⟨st',hst'⟩ := hA.verified b hb
  rcases hst'.parent with rfl | ⟨p,stp,hp',hverify,happly,hprev⟩
  · exact absurd hp (ha.not_parent_root hrank)
  · cases hU ha.mem hp'.mem (Option.some.inj (hp.symm.trans (parent_of_bytes hprev)))
    cases ha.unique hU hrank hp'
    exact ⟨st',hst',hverify,happly,hprev⟩

end

section
variable (hA : Grounded X U B R A) (hrank : Ranked X U rank) {names : AUM → AUMHash → Prop}
  (hC : C.Reads X A names)
include hA

lemma Grounded.walkBack_root (hR : Verified X U B R st) (maxIter n : ℕ) :
    walkBack X C maxIter (n+1) R=.ok (st,[R]) := by
  obtain ⟨s,hs,rfl⟩ := hR.checkpoint hA.checkpoint
  rw [walkBack,if_pos hA.checkpoint,hs]

include hrank hC

lemma Grounded.back_root : C.back R=none := by
  refine Option.eq_none_iff_forall_ne_some.mpr fun b hb => ?_
  obtain ⟨hbA,hp⟩ := hC.back_eq_some.mp hb
  exact hA.not_parent_root hrank hbA hp

lemma Grounded.exists_ends {a : AUM} (ha : a ∈ A) : ∃ n, Ends C.back n a R := by
  induction hr : rank a using Nat.strong_induction_on generalizing a with
  | _ r ih =>
    by_cases haR : a=R
    · exact ⟨0,congrArg some haR,hA.back_root hrank hC⟩
    · obtain ⟨b,hb,hp⟩ := hA.closed a ha haR
      obtain ⟨n,hn⟩ := ih (rank b) (hr ▸ hA.rank_lt hrank a ha b hb hp) hb rfl
      exact ⟨1+n,hn.trans ((walk_one _ a).trans (hC.back_eq_some.mpr ⟨hb,hp⟩))⟩

lemma Grounded.eq_root {a r : AUM} (ha : a ∈ A) (h : C.Oldest a r) : r=R := by
  obtain ⟨n,hn⟩ := hA.exists_ends hrank hC ha
  exact h.unique ⟨n,hn⟩

lemma Grounded.within_iff {l : List AUM} (hl : ∀ a ∈ A, a ∈ l) {maxIter : ℕ} :
    C.Within maxIter ↔ ∀ a ∈ A, ∃ k < maxIter, walk C.back k a=some R := by
  constructor
  · intro h a ha
    obtain ⟨b,hb,n,hn⟩ := hC.exists_head (hA.rank_lt hrank) hl ha
    obtain ⟨k,hk,r,hr⟩ := h b hb
    obtain ⟨j,hj,hends⟩ := hr.rest hn
    cases hA.eq_root hrank hC ha ⟨j,hends⟩
    exact ⟨j,by omega,hends.1⟩
  · intro h a ha
    obtain ⟨k,hk,hw⟩ := h a ((hC.mem_heads a).mp ha).1
    exact ⟨k,hk,R,hw,hA.back_root hrank hC⟩

lemma Grounded.oldest_eq {o : MapOrder} {last : Option AUMHash} {maxIter : ℕ} {c : Chain}
    (h : computeActiveChain X s o C last maxIter=.ok c) : c.oldest=R := by
  obtain ⟨-,-,-,hcA,hback,-⟩ := hC.of_active h
  exact hA.eq_root hrank hC hcA ⟨0,rfl,hback⟩

end

section
variable (hA : Grounded X U B R A) (hU : Set.InjOn X.hash U) (hrank : Ranked X U rank) {storage : Store X}
  (hC : C.Reads X A storage.names) {p q e : AUM × State}
include hA hU hrank hC

omit hC in
lemma Grounded.names_iff (storage : Store X) {a b : AUM} (ha : a ∈ A) (hb : b ∈ A) :
    storage.names b (X.hash a) ↔ b.parent=some (X.hash a) := by
  constructor
  · exact parent_of_names
  · intro hp
    obtain ⟨st,hst⟩ := hA.verified a ha
    obtain ⟨-,-,-,-,hprev⟩ := hA.apply hU hrank hst hb hp
    exact storage.names_of_bytes hprev

lemma Grounded.forward_iff (hp : p.1 ∈ A) : C.forward X s p=some q ↔ (forkRule X).Step A p q := by
  rw [hC.forward_iff]
  constructor
  · rintro ⟨hq,hnames,hbeats,happly⟩
    refine ⟨hq,parent_of_names hnames,fun b hb hf => ?_,happly⟩
    exact hbeats b hb ((hA.names_iff hU hrank storage hp hb).mpr hf)
  · rintro ⟨hq,hf,hbeats,happly⟩
    refine ⟨hq,(hA.names_iff hU hrank storage hp hq).mpr hf,fun b hb hn => ?_,happly⟩
    exact hbeats b hb (parent_of_names hn)

lemma Grounded.childAUMs_eq_nil (hp : p.1 ∈ A) :
    C.childAUMs (X.hash p.1)=[] ↔ ∀ b ∈ A, ¬ (forkRule X).follows b p.1 := by
  rw [hC.childAUMs_eq_nil]
  exact forall₂_congr fun b hb => not_congr (hA.names_iff hU hrank storage hp hb)

omit hC in
lemma Grounded.verified_of_step (hp : Verified X U B p.1 p.2) (h : (forkRule X).Step A p q) :
    Verified X U B q.1 q.2 := by
  obtain ⟨st',hst',-,happly,-⟩ := hA.apply hU hrank hp h.mem h.follows
  cases happly.symm.trans h.apply
  exact hst'

omit hC in
lemma Grounded.verified_of_leads (hp : Verified X U B p.1 p.2) (hpA : p.1 ∈ A)
    (h : (forkRule X).Leads A p e) : Verified X U B e.1 e.2 ∧ e.1 ∈ A := by
  induction h with
  | stop => exact ⟨hp,hpA⟩
  | go hstep _ ih => exact ih (hA.verified_of_step hU hrank hp hstep) hstep.mem

lemma Grounded.exists_step (s : SliceSort) (hp : Verified X U B p.1 p.2) (hpA : p.1 ∈ A)
    (hchild : ¬ ∀ b ∈ A, ¬ (forkRule X).follows b p.1) : ∃ q, (forkRule X).Step A p q := by
  have hmem := hC.mem_childAUMs (X.hash p.1)
  obtain ⟨a,ha⟩ : ∃ a, pickNextAUM X s p.2 (C.childAUMs (X.hash p.1))=.ok a := by
    rw [← hA.childAUMs_eq_nil hU hrank hC hpA] at hchild
    have hweight : ∀ b ∈ C.childAUMs (X.hash p.1), ∃ w, b.weight p.2=.ok w := by
      intro b hb
      obtain ⟨st,hst⟩ := hA.verified b ((hmem b).mp hb).1
      exact hp.exists_weight hst
    by_cases hlen : 2≤(C.childAUMs (X.hash p.1)).length
    · obtain ⟨r,hr⟩ := exists_weighed hweight
      rw [pickNextAUM_of_length X hlen]
      cases hhead : (s.sort (forkLess X) r).head? with
      | none =>
        obtain ⟨b,hb⟩ := List.exists_mem_of_ne_nil _ hchild
        obtain ⟨c,hc,-⟩ := ok_of_mapM_ok hr hb
        have hc := (s.perm (forkLess X) r).mem_iff.mpr hc
        rw [List.head?_eq_none_iff.mp hhead] at hc
        cases hc
      | some c =>
        refine ⟨c.1,bind_eq_ok.mpr ⟨r,hr,?_⟩⟩
        rw [hhead]
        rfl
    · match hl : C.childAUMs (X.hash p.1) with
      | [] => exact absurd hl hchild
      | [b] => exact ⟨b,rfl⟩
      | _::_::_ =>
        rw [hl] at hlen
        simp at hlen
  obtain ⟨haA,hn⟩ := (hmem a).mp (mem_of_pickNextAUM X ha)
  obtain ⟨st',-,-,happly,-⟩ := hA.apply hU hrank hp haA (parent_of_names hn)
  exact ⟨(a,st'),(hA.forward_iff hU hrank hC hpA).mp (forward_eq_some.mpr ⟨ha,happly⟩)⟩

lemma Grounded.exists_leads (s : SliceSort) {l : List AUM} (hl : ∀ a ∈ A, a ∈ l)
    (hp : Verified X U B p.1 p.2) (hpA : p.1 ∈ A) : ∃ e, (forkRule X).Leads A p e := by
  obtain ⟨N,hN⟩ := exists_rank_le rank hl
  induction hd : N-rank p.1 using Nat.strong_induction_on generalizing p with
  | _ d ih =>
    by_cases hchild : ∀ b ∈ A, ¬ (forkRule X).follows b p.1
    · exact ⟨p,.stop hchild⟩
    · obtain ⟨q,hq⟩ := hA.exists_step hU hrank hC s hp hpA hchild
      have hlt := hA.rank_lt hrank q.1 hq.mem p.1 hpA hq.follows
      have hle := hN q.1 hq.mem
      obtain ⟨e,he⟩ := ih (N-rank q.1) (by omega) (hA.verified_of_step hU hrank hp hq) hq.mem rfl
      exact ⟨e,.go hq he⟩

lemma Grounded.walk_of_leads (hpA : p.1 ∈ A) (h : (forkRule X).Leads A p e) :
    ∃ n, walk (C.forward X s) n p=some e ∧ C.childAUMs (X.hash e.1)=[] := by
  induction h with
  | stop hnone => exact ⟨0,rfl,(hA.childAUMs_eq_nil hU hrank hC hpA).mpr hnone⟩
  | go hstep _ ih =>
    obtain ⟨n,hn,hend⟩ := ih hstep.mem
    exact ⟨n+1,(walk_succ_of ((hA.forward_iff hU hrank hC hpA).mpr hstep) n).trans hn,hend⟩

lemma Grounded.leads_of_walk (hpA : p.1 ∈ A) {n : ℕ} (hn : walk (C.forward X s) n p=some e)
    (hend : C.childAUMs (X.hash e.1)=[]) : (forkRule X).Leads A p e := by
  induction n generalizing p with
  | zero =>
    cases hn
    exact .stop ((hA.childAUMs_eq_nil hU hrank hC hpA).mp hend)
  | succ n ih =>
    obtain ⟨q,hq,hn⟩ := walk_succ_eq_some.mp hn
    have hstep := (hA.forward_iff hU hrank hC hpA).mp hq
    exact .go hstep (ih hstep.mem hn)

/-- Within the limits the active chain is found, and it is the one that the fork choice leads along. -/
theorem Grounded.active_iff {l : List AUM} (hl : ∀ a ∈ A, a ∈ l) {st : State} (hR : Verified X U B R st)
    {o : MapOrder} {last : Option AUMHash} {maxIter : ℕ} (hpos : 0 < maxIter) :
    (∃ c, computeActiveChain X s o C last maxIter=.ok c ∧ c.head=q.1 ∧ c.state=q.2) ↔
      C.Within maxIter ∧ (forkRule X).Leads A (R,st) q := by
  have hback := hA.back_root hrank hC
  have hheadA {a : AUM} (ha : a ∈ C.heads) : a ∈ A := ((hC.mem_heads a).mp ha).1
  have hheads : C.heads≠[] := by
    obtain ⟨b,hb,-⟩ := hC.exists_head (hA.rank_lt hrank) hl hA.root
    exact List.ne_nil_of_mem hb
  have hselects : C.Selects X last := by
    refine .inl fun a ha b hb r r' hr hr' => ?_
    rw [hA.eq_root hrank hC (hheadA ha) hr,hA.eq_root hrank hC (hheadA hb) hr']
  have hroot (chains : List Chain) (k : AUMHash)
      (hchains : computeChainCandidates X s C last maxIter=.ok chains)
      (hk : computeActiveAncestor X o chains=.ok k) : k=X.hash R := by
    have hc := computeChainCandidates_eq_ok hchains
    obtain ⟨⟨d,hd,rfl⟩,-⟩ := (computeActiveAncestor_eq_ok hC hc).mp hk
    obtain ⟨j,-,hj⟩ := hc.oldest d hd
    rw [hA.eq_root hrank hC (hheadA ((hc.mem_heads _).mpr ⟨d,hd,rfl⟩)) ⟨j,hj⟩]
  rw [hC.active_iff hheads hA.root hback hroot hpos]
  refine and_congr_right fun hwithin => ?_
  rw [and_iff_right hselects]
  constructor
  · rintro ⟨st',path,hst',k,-,hw,hend⟩
    cases (hA.walkBack_root hR maxIter maxIter).symm.trans hst'
    exact hA.leads_of_walk hU hrank hC hA.root hw hend
  · intro h
    obtain ⟨n,hn,hend⟩ := hA.walk_of_leads hU hrank hC (s := s) hA.root h
    obtain ⟨hqback,hq⟩ := hC.walk_back_of_forward hA.root hn
    obtain ⟨k,hk,hkR⟩ := (hA.within_iff hrank hC hl).mp hwithin q.1 hq
    cases walk_injective (hC.rank_back (hA.rank_lt hrank)) hq hqback hkR
    exact ⟨st,[R],hA.walkBack_root hR maxIter maxIter,n,hk,hn,hend⟩

end

end TunnnejiTail.Tka
