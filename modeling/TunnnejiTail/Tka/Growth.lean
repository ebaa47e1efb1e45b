import TunnnejiTail.Tka.Forward

/-! What the active chain of a store is, whichever way the store lists its messages, and what is left of it
when messages are added. -/
namespace TunnnejiTail.Tka
open Go

variable {X : Primitives} {maxIter : ℕ}

def Chonk.Within (C : Chonk) (maxIter : ℕ) : Prop := ∀ a ∈ C.heads, ∃ k < maxIter, ∃ r, Ends C.back k a r

/-- From an oldest message the way forward leads to a message without children, and to its state. -/
def Chonk.Reaches (X : Primitives) (s : SliceSort) (C : Chonk) (maxIter : ℕ) (r : AUM) (q : AUM × State) :
    Prop :=
  ∃ st path, walkBack X C maxIter (maxIter+1) r=.ok (st,path) ∧
    ∃ k < maxIter, walk (C.forward X s) k (r,st)=some q ∧ C.childAUMs (X.hash q.1)=[]

section
variable {C : Chonk} {A : Set AUM} {names : AUM → AUMHash → Prop} (hC : C.Reads X A names) {s : SliceSort}
include hC

variable {p q : AUM × State}

lemma Chonk.Reads.forward_iff : C.forward X s p=some q ↔
    q.1 ∈ A ∧ names q.1 (X.hash p.1) ∧ (∀ b ∈ A, names b (X.hash p.1) → b≠q.1 → Beats X p.2 q.1 b) ∧
      p.2.applyVerifiedAUM X q.1=.ok q.2 := by
  have hmem := hC.mem_childAUMs (X.hash p.1)
  rw [forward_eq_some,pickNextAUM_eq_ok (hC.nodup_childAUMs _) fun a ha b hb =>
    hC.injOn ((hmem a).mp ha).1 ((hmem b).mp hb).1]
  simp only [hmem,and_assoc,and_imp]

lemma Chonk.Reads.childAUMs_eq_nil {p : AUMHash} : C.childAUMs p=[] ↔ ∀ b ∈ A, ¬ names b p := by
  simp only [List.eq_nil_iff_forall_not_mem,hC.mem_childAUMs,not_and]

variable {last : Option AUMHash}

omit hC in
lemma within_of_candidates {chains : List Chain}
    (h : computeChainCandidates X s C last maxIter=.ok chains) : C.Within maxIter := by
  have hchains := computeChainCandidates_eq_ok h
  intro a ha
  obtain ⟨c,hc,rfl⟩ := (hchains.mem_heads a).mp ha
  obtain ⟨k,hk,he⟩ := hchains.oldest c hc
  exact ⟨k,hk,c.oldest,he⟩

variable {o : MapOrder} {r : AUM}

lemma Chonk.Reads.active_iff (hheads : C.heads≠[])
    (hr : r ∈ A) (hback : C.back r=none)
    (hroot : ∀ chains k, computeChainCandidates X s C last maxIter=.ok chains →
      computeActiveAncestor X o chains=.ok k → k=X.hash r) (hpos : 0 < maxIter) :
    (∃ c, computeActiveChain X s o C last maxIter=.ok c ∧ c.head=q.1 ∧ c.state=q.2) ↔
      C.Within maxIter ∧ C.Selects X last ∧ C.Reaches X s maxIter r q := by
  have haum : C.aum (X.hash r)=some r := (hC.aum_eq_some _ r).mpr ⟨hr,rfl⟩
  have hstate {st : State} : computeStateAt X C maxIter (X.hash r)=.ok st ↔ _ :=
    computeStateAt_of_none haum hback hpos
  constructor
  · rintro ⟨c,hc,hhead,hst⟩
    obtain ⟨chains,k,st,hchains,-,hk,-,hstk,hff,-⟩ := computeActiveChain_iff.mp hc
    obtain rfl := hroot chains k hchains hk
    obtain ⟨path,hpath⟩ := hstate.mp hstk
    obtain ⟨h,a,hh,ha,n,hn,hw,hend⟩ := fastForward_iff.mp hff
    cases (lastAUMHash_of_walkBack hback hpath).symm.trans hh
    cases haum.symm.trans ha
    rw [hhead,hst] at hw
    rw [hhead] at hend
    refine ⟨within_of_candidates hchains,?_,st,path,hpath,n,hn,hw,hend⟩
    exact (exists_ancestor_iff hC (computeChainCandidates_eq_ok hchains) hheads o).mp ⟨_,hk⟩
  · rintro ⟨hwithin,hselects,st,path,hpath,n,hn,hw,hend⟩
    obtain ⟨chains,hchains⟩ := exists_candidates (X := X) s last hpos hwithin
    have hc := computeChainCandidates_eq_ok hchains
    obtain ⟨k,hk⟩ := (exists_ancestor_iff hC hc hheads o).mpr hselects
    obtain rfl := hroot chains k hchains hk
    refine ⟨⟨r,q.1,q.2,false⟩,computeActiveChain_iff.mpr ⟨chains,_,st,hchains,?_,hk,haum,
      hstate.mpr ⟨path,hpath⟩,?_,rfl⟩,rfl,rfl⟩
    · rintro rfl
      obtain ⟨a,ha⟩ := List.exists_mem_of_ne_nil _ hheads
      obtain ⟨c,hc',-⟩ := (hc.mem_heads a).mp ha
      cases hc'
    · exact fastForward_iff.mpr ⟨_,r,lastAUMHash_of_walkBack hback hpath,haum,n,hn,hw,hend⟩

lemma Chonk.Reads.of_active {c : Chain}
    (h : computeActiveChain X s o C last maxIter=.ok c) :
    ∃ chains, computeChainCandidates X s C last maxIter=.ok chains ∧
      computeActiveAncestor X o chains=.ok (X.hash c.oldest) ∧ c.oldest ∈ A ∧ C.back c.oldest=none ∧
      C.Reaches X s maxIter c.oldest (c.head,c.state) := by
  obtain ⟨chains,k,st,hchains,-,hk,hold,hst,hff,-⟩ := computeActiveChain_iff.mp h
  have hc := computeChainCandidates_eq_ok hchains
  obtain ⟨hA,rfl⟩ := (hC.aum_eq_some k _).mp hold
  obtain ⟨⟨d,hd,he⟩,-⟩ := (computeActiveAncestor_eq_ok hC hc).mp hk
  obtain ⟨j,hj,hends⟩ := hc.oldest d hd
  have hhead := hC.head_mem hc hd
  have hdc : d.oldest=c.oldest := hC.injOn (hC.mem_of_walk hhead hends.1) hA he
  have hback : C.back c.oldest=none := hdc ▸ hends.2
  have hpos : 0 < maxIter := (Nat.zero_le j).trans_lt hj
  obtain ⟨path,hpath⟩ := (computeStateAt_of_none hold hback hpos).mp hst
  obtain ⟨h,a,hh,ha,n,hn,hw,hend⟩ := fastForward_iff.mp hff
  cases (lastAUMHash_of_walkBack hback hpath).symm.trans hh
  cases hold.symm.trans ha
  exact ⟨chains,hchains,hk,hA,hback,st,path,hpath,n,hn,hw,hend⟩

omit hC in
lemma lastAUMHash_of_walk {n : ℕ} (h : walk (C.forward X s) n p=some q)
    (hp : p.2.lastAUMHash=some (X.hash p.1)) : q.2.lastAUMHash=some (X.hash q.1) :=
  walk_induction (P := fun p : AUM × State => p.2.lastAUMHash=some (X.hash p.1))
    (fun _ hb => lastAUMHash_of_forward hb) h hp

lemma Chonk.Reads.head_of_reaches (hr : r ∈ A) (hback : C.back r=none)
    (h : C.Reaches X s maxIter r q) : q.1 ∈ A ∧ q.2.lastAUMHash=some (X.hash q.1) := by
  obtain ⟨st,path,hpath,n,-,hw,-⟩ := h
  exact ⟨(hC.walk_back_of_forward hr hw).2,lastAUMHash_of_walk hw (lastAUMHash_of_walkBack hback hpath)⟩

end

section
variable {C C' : Chonk} {A : Set AUM} {names : AUM → AUMHash → Prop} (hC : C.Reads X A names)
  (hC' : C'.Reads X A names)
include hC hC'

lemma Chonk.Reads.back_congr : C.back=C'.back := by
  funext a
  refine Option.ext fun b => ?_
  rw [hC.back_eq_some,hC'.back_eq_some]

lemma Chonk.Reads.mem_heads_congr (a : AUM) : a ∈ C.heads ↔ a ∈ C'.heads := by
  rw [hC.mem_heads,hC'.mem_heads]

lemma Chonk.Reads.forward_congr (s s' : SliceSort) : C.forward X s=C'.forward X s' := by
  funext p
  refine Option.ext fun q => ?_
  rw [hC.forward_iff,hC'.forward_iff]

lemma Chonk.Reads.within_congr : C.Within maxIter ↔ C'.Within maxIter := by
  simp only [Within,hC.mem_heads_congr hC',hC.back_congr hC']

lemma Chonk.Reads.selects_congr {last : Option AUMHash} : C.Selects X last ↔ C'.Selects X last := by
  simp only [Selects,Oldest,Passes,hC.mem_heads_congr hC',hC.back_congr hC']

lemma Chonk.Reads.reaches_congr {s s' : SliceSort} {r : AUM} (hr : C.back r=none)
    {q : AUM × State} : C.Reaches X s maxIter r q ↔ C'.Reaches X s' maxIter r q := by
  simp only [Reaches,walkBack_eq_of_none hr (hC.back_congr hC' ▸ hr),hC.forward_congr hC' s s',
    hC.childAUMs_eq_nil,hC'.childAUMs_eq_nil]

end

section
variable {C C' : Chonk} {A A' : Set AUM} {names names' : AUM → AUMHash → Prop} (hC : C.Reads X A names)
  (hC' : C'.Reads X A' names') (hsub : A ⊆ A')
include hC hC' hsub

variable {a b : AUM}

lemma Chonk.Reads.back_mono (h : C.back a=some b) : C'.back a=some b := by
  obtain ⟨hb,hp⟩ := hC.back_eq_some.mp h
  exact hC'.back_eq_some.mpr ⟨hsub hb,hp⟩

lemma Chonk.Reads.walk_back_mono {n : ℕ} (h : walk C.back n a=some b) :
    walk C'.back n a=some b :=
  walk_mono (P := fun _ => True) (fun _ hb => ⟨trivial,hC.back_mono hC' hsub hb⟩) trivial h

end

section
variable {C C' : Chonk} {A A' : Set AUM} {names : AUM → AUMHash → Prop} (hC : C.Reads X A names)
  (hC' : C'.Reads X A' names) (hsub : A ⊆ A')
include hC hC' hsub

variable {rank : AUM → ℕ} (hrank : Ranked X A' rank)
  (hclosed : ∀ u ∈ A', u ∉ A → ∃ v ∈ A', u.parent=some (X.hash v))
include hrank hclosed

omit hC hsub in
lemma Chonk.Reads.exists_old {a : AUM} (ha : a ∈ A') : ∃ n, ∃ b ∈ A, walk C'.back n a=some b := by
  induction hr : rank a using Nat.strong_induction_on generalizing a with
  | _ r ih =>
    by_cases haA : a ∈ A
    · exact ⟨0,a,haA,rfl⟩
    · obtain ⟨v,hv,hp⟩ := hclosed a ha haA
      obtain ⟨n,b,hb,hn⟩ := ih (rank v) (hr ▸ hrank a ha v hv hp) hv rfl
      exact ⟨n+1,b,hb,(walk_succ_of (hC'.back_eq_some.mpr ⟨hv,hp⟩) n).trans hn⟩

lemma ancestor_of_growth {l l' : List AUM} (hl : ∀ a ∈ A, a ∈ l) (hl' : ∀ a ∈ A', a ∈ l')
    {last : Option AUMHash} {maxIter : ℕ} {chains chains' : List Chain}
    (hchains : Candidates X C last maxIter chains) (hchains' : Candidates X C' last maxIter chains')
    {o o' : MapOrder} {r r' : AUM} (hrA : r ∈ A) (hk : computeActiveAncestor X o chains=.ok (X.hash r))
    {k : AUMHash} (hk' : computeActiveAncestor X o' chains'=.ok k) (hr' : C'.Oldest r r') : k=X.hash r' := by
  have hrankA : Ranked X A rank :=
    fun a ha b hb => hrank a (hsub ha) b (hsub hb)
  have hvia {n : ℕ} {a : AUM} (h : walk C'.back n a=some r) : C'.Oldest a r' := by
    obtain ⟨m,hm⟩ := hr'
    exact ⟨n+m,hm.trans h⟩
  by_cases hstored : ∃ b ∈ A, last=some (X.hash b)
  · obtain ⟨b,hb,hlast⟩ := hstored
    obtain ⟨r0,n,hn⟩ := hC.exists_oldest hrankA hb
    have he := ancestor_of_stored hC hrankA hl hchains hb hlast ⟨n,hn⟩ hk
    cases hC.injOn hrA (hC.mem_of_walk hb hn.1) he
    refine ancestor_of_stored hC' hrank hl' hchains' (hsub hb) hlast ?_ hk'
    exact hvia (hC.walk_back_mono hC' hsub hn.1)
  · have hin {c : Chain} := hC.head_mem hchains (c := c)
    have hall : ∀ c ∈ chains, X.hash c.oldest=X.hash r := by
      obtain ⟨-,hall | ⟨c,hc,-,⟨n,b,hw,hb⟩,-⟩⟩ := (computeActiveAncestor_eq_ok hC hchains).mp hk
      · exact hall
      · exact absurd ⟨b,hC.mem_of_walk (hin hc) hw,hb⟩ hstored
    have hold {a : AUM} (ha : a ∈ A) : ∃ n, walk C'.back n a=some r := by
      obtain ⟨b,hb,n,hn⟩ := hC.exists_head hrankA hl ha
      obtain ⟨c,hc,rfl⟩ := (hchains.mem_heads b).mp hb
      obtain ⟨j,-,hj⟩ := hchains.oldest c hc
      cases hC.injOn (hC.mem_of_walk (hin hc) hj.1) hrA (hall c hc)
      obtain ⟨m,-,hm⟩ := hj.rest hn
      exact ⟨m,hC.walk_back_mono hC' hsub hm.1⟩
    obtain ⟨⟨c,hc,rfl⟩,-⟩ := (computeActiveAncestor_eq_ok hC' hchains').mp hk'
    have hhead := hC'.head_mem hchains' hc
    obtain ⟨n,b,hb,hn⟩ := hC'.exists_old hrank hclosed hhead
    obtain ⟨m,hm⟩ := hold hb
    obtain ⟨j,-,hj⟩ := hchains'.oldest c hc
    rw [Chonk.Oldest.unique ⟨j,hj⟩ (hvia ((walk_trans hn m).trans hm))]

end

end TunnnejiTail.Tka
