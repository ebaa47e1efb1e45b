import TunnnejiTail.Tka.Ancestor

/-! The way forward over the forks, step by step. -/
namespace TunnnejiTail.Tka
open Go TunnnejiTail.Types List Option

variable {s : SliceSort} {st : State} {l : List AUM} {p q : AUM × State} {maxIter : ℕ}

def Beats (X : Primitives) (st : State) (a b : AUM) : Prop :=
  ∃ w w', a.weight st=.ok w ∧ b.weight st=.ok w' ∧ forkLess X (a,w) (b,w')=true

section
variable {X : Primitives} {a : AUM}

lemma Beats.asymm {b : AUM} (h : Beats X st a b) : ¬ Beats X st b a := by
  rintro ⟨v,v',hv,hv',hless'⟩
  obtain ⟨w,w',hw,hw',hless⟩ := h
  cases hw.symm.trans hv'
  cases hw'.symm.trans hv
  exact lt_asymm ((forkLess_iff X _ _).mp hless) ((forkLess_iff X _ _).mp hless')

lemma exists_weighed (h : ∀ a ∈ l, ∃ w, a.weight st=.ok w) :
    ∃ r, (l.mapM fun a => (a.weight st).map fun w => (a,w))=.ok r := by
  cases hr : l.mapM fun a => (a.weight st).map fun w => (a,w) with
  | ok r => exact ⟨r,rfl⟩
  | error e =>
    obtain ⟨a,ha,he⟩ := exists_of_mapM_error hr
    obtain ⟨w,hw⟩ := h a ha
    rw [hw] at he
    cases he

lemma pickNextAUM_eq_ok (hnodup : l.Nodup)
    (hinj : ∀ a ∈ l, ∀ b ∈ l, X.hash a=X.hash b → a=b) :
    pickNextAUM X s st l=.ok a ↔ a ∈ l ∧ ∀ b ∈ l, b≠a → Beats X st a b := by
  by_cases hlen : 2≤l.length
  · rw [pickNextAUM_of_length X hlen]
    have hhead {r : List (AUM × UInt64)} (hr : (l.mapM fun a => (a.weight st).map fun w => (a,w))=.ok r)
        {c : AUM × UInt64} (hc : (s.sort (forkLess X) r).head? = some c) :
        c.1 ∈ l ∧ ∀ b ∈ l, b≠c.1 → Beats X st c.1 b := by
      have hmem {e : AUM × UInt64} := (s.perm (forkLess X) r).mem_iff (a := e)
      obtain ⟨a,ha,hac⟩ := (mem_mapM_ok hr c).mp (hmem.mp (mem_of_head? hc))
      obtain ⟨w,hw,rfl⟩ := map_eq_ok.mp hac
      refine ⟨ha,fun b hb hne => ?_⟩
      obtain ⟨w',hw'⟩ : ∃ w', b.weight st=.ok w' := by
        obtain ⟨e,-,he⟩ := ok_of_mapM_ok hr hb
        obtain ⟨w',hw',-⟩ := map_eq_ok.mp he
        exact ⟨w',hw'⟩
      have hbr : (b,w') ∈ s.sort (forkLess X) r :=
        hmem.mpr ((mem_mapM_ok hr _).mpr ⟨b,hb,map_eq_ok.mpr ⟨w',hw',rfl⟩⟩)
      have hle : forkKey X (a,w)≤forkKey X (b,w') := by
        have hsorted := s.sorted (forkKey X) (forkLess_iff X) r
        obtain ⟨t,ht⟩ := head?_eq_some_iff.mp hc
        rw [ht] at hsorted hbr
        rcases mem_cons.mp hbr with he | hbt
        · rw [he]
        · exact rel_of_pairwise_cons hsorted hbt
      refine ⟨w,w',hw,hw',(forkLess_iff X _ _).mpr (lt_of_le_of_ne hle fun he => hne ?_)⟩
      refine (hinj a ha b hb (Raw32.ext_toNat ?_)).symm
      exact congrArg (fun k => (ofLex (ofLex k).2).2) he
    constructor
    · intro h
      obtain ⟨r,hr,h⟩ := bind_eq_ok.mp h
      cases hc : (s.sort (forkLess X) r).head? with
      | none =>
        rw [hc] at h
        cases h
      | some c =>
        rw [hc] at h
        cases h
        exact hhead hr hc
    · rintro ⟨ha,hall⟩
      obtain ⟨r,hr⟩ : ∃ r, (l.mapM fun a => (a.weight st).map fun w => (a,w))=.ok r := by
        refine exists_weighed fun b hb => ?_
        by_cases hba : b=a
        · obtain ⟨c,hc,hca⟩ : ∃ c ∈ l, c≠a := by
            by_contra hno
            push Not at hno
            have hrep := eq_replicate_of_mem hno
            rw [hrep,nodup_replicate] at hnodup
            omega
          obtain ⟨w,-,hw,-⟩ := hall c hc hca
          exact ⟨w,hba ▸ hw⟩
        · obtain ⟨-,w,-,hw,-⟩ := hall b hb hba
          exact ⟨w,hw⟩
      refine bind_eq_ok.mpr ⟨r,hr,?_⟩
      cases hc : (s.sort (forkLess X) r).head? with
      | none =>
        obtain ⟨e,he,-⟩ := ok_of_mapM_ok hr ha
        have hmem := (s.perm (forkLess X) r).mem_iff.mpr he
        rw [head?_eq_none_iff.mp hc] at hmem
        cases hmem
      | some c =>
        obtain ⟨hcl,hcall⟩ := hhead hr hc
        by_cases hca : c.1=a
        · exact congrArg Except.ok hca
        · exact absurd (hcall a ha (Ne.symm hca)) (hall c.1 hcl hca).asymm
  · match l with
    | [] => simp [pickNextAUM]
    | [b] =>
      simp only [pickNextAUM,Except.ok.injEq,mem_singleton]
      constructor
      · rintro rfl
        exact ⟨rfl,fun b hb hne => absurd hb hne⟩
      · exact fun h => h.1.symm
    | _::_::_ => simp at hlen

end

section
variable (X : Primitives) (C : Chonk) (advancer : State → List AUM → Except Halt (Option (AUM × State)))

/-- Where an advancer leads from a message and its state, if it does not fail. -/
def advanced (p : AUM × State) : Option (AUM × State) :=
  (advancer p.2 (C.childAUMs (X.hash p.1))).toOption.join

def Chonk.forward (s : SliceSort) : AUM × State → Option (AUM × State) := advanced X C (advanceByPrimary X s)

end

section
variable {X : Primitives} {C : Chonk} {advancer : State → List AUM → Except Halt (Option (AUM × State))}

lemma advanced_eq_some :
    advanced X C advancer p=some q ↔ advancer p.2 (C.childAUMs (X.hash p.1))=.ok (some q) := by
  rw [advanced,join_eq_some_iff,toOption_eq_some]

lemma advanceLoop_eq_ok {done : AUM → State → Bool} {maxIter n : ℕ} :
    advanceLoop X C advancer done maxIter n p.1 p.2=.ok q ↔ ∃ k<n, walk (advanced X C advancer) k p=some q ∧
        (∀ j<k, ∀ r, walk (advanced X C advancer) j p=some r → done r.1 r.2=false) ∧ (done q.1 q.2=true ∨
          done q.1 q.2=false ∧ advancer q.2 (C.childAUMs (X.hash q.1))=.ok none) := by
  induction n generalizing p with
  | zero => simp [advanceLoop,failWith]
  | succ n ih =>
    rw [advanceLoop]
    by_cases hdone : done p.1 p.2=true
    · rw [if_pos hdone]
      constructor
      · intro h
        cases h
        exact ⟨0,n.succ_pos,rfl,fun j hj => absurd hj (Nat.not_lt_zero j),.inl hdone⟩
      · rintro ⟨k,-,hw,hbefore,-⟩
        cases k with
        | zero =>
          cases hw
          rfl
        | succ k => cases (hbefore 0 k.succ_pos p rfl).symm.trans hdone
    · have hnot : done p.1 p.2=false := Bool.eq_false_iff.mpr hdone
      rw [if_neg hdone]
      constructor
      · intro h
        obtain ⟨next,hnext,h⟩ := bind_eq_ok.mp h
        have hnext := mapError_eq_ok.mp hnext
        cases next with
        | none =>
          cases h
          exact ⟨0,n.succ_pos,rfl,fun j hj => absurd hj (Nat.not_lt_zero j),.inr ⟨hnot,hnext⟩⟩
        | some p' =>
          obtain ⟨k,hk,hw,hbefore,hend⟩ := ih.mp h
          have hstep := walk_succ_of (advanced_eq_some.mpr hnext)
          refine ⟨k+1,by omega,(hstep k).trans hw,fun j hj r hr => ?_,hend⟩
          cases j with
          | zero =>
            cases hr
            exact hnot
          | succ j => exact hbefore j (by omega) r ((hstep j).symm.trans hr)
      · rintro ⟨k,hk,hw,hbefore,hend⟩
        cases k with
        | zero =>
          cases hw
          obtain hd | ⟨-,hnone⟩ := hend
          · exact absurd hd hdone
          · rw [hnone]
            rfl
        | succ k =>
          obtain ⟨p',hp',hw⟩ := walk_succ_eq_some.mp hw
          rw [advanced_eq_some.mp hp']
          refine ih.mpr ⟨k,by omega,hw,fun j hj r hr => ?_,hend⟩
          exact hbefore (j+1) (by omega) r ((walk_succ_of hp' j).trans hr)

end

section
variable {X : Primitives} {C : Chonk}

lemma advanceByPrimary_eq_none : advanceByPrimary X s st l=.ok none ↔ l=[] := by
  cases l with
  | nil => simp [advanceByPrimary]
  | cons a l =>
    refine iff_of_false (fun h => ?_) (cons_ne_nil a l)
    obtain ⟨b,-,h⟩ := bind_eq_ok.mp h
    obtain ⟨st',-,h⟩ := bind_eq_ok.mp h
    cases h

lemma advanceByPrimary_eq_some {st' : State} {a : AUM} :
    advanceByPrimary X s st l=.ok (some (a,st')) ↔ pickNextAUM X s st l=.ok a ∧ st.applyVerifiedAUM X a=.ok st' := by
  cases l with
  | nil => simp [advanceByPrimary,pickNextAUM]
  | cons b l =>
    constructor
    · intro h
      obtain ⟨a',ha',h⟩ := bind_eq_ok.mp h
      obtain ⟨st'',hst,h⟩ := bind_eq_ok.mp h
      cases h
      exact ⟨mapError_eq_ok.mp ha',mapError_eq_ok.mp (mapError_eq_ok.mp hst)⟩
    · rintro ⟨ha,hst⟩
      refine bind_eq_ok.mpr ⟨a,mapError_eq_ok.mpr ha,bind_eq_ok.mpr ⟨st',?_,rfl⟩⟩
      exact mapError_eq_ok.mpr (mapError_eq_ok.mpr hst)

lemma forward_eq_some : C.forward X s p=some q ↔
    pickNextAUM X s p.2 (C.childAUMs (X.hash p.1))=.ok q.1 ∧ p.2.applyVerifiedAUM X q.1=.ok q.2 := by
  rw [Chonk.forward,advanced_eq_some]
  exact advanceByPrimary_eq_some

lemma fastForward_iff : fastForward X s C maxIter st=.ok q ↔ ∃ h a, st.lastAUMHash=some h ∧ C.aum h=some a ∧
      ∃ k < maxIter, walk (C.forward X s) k (a,st)=some q ∧ C.childAUMs (X.hash q.1)=[] := by
  rw [fastForward,fastForwardWithAdvancer]
  cases st.lastAUMHash with
  | none => simp [failWith]
  | some h =>
    dsimp only
    cases hh : C.aum h with
    | none => simp [hh]
    | some a =>
      rw [advanceLoop_eq_ok (p := (a,st))]
      constructor
      · rintro ⟨k,hk,hw,-,hend⟩
        obtain hd | ⟨-,hnone⟩ := hend
        · cases hd
        · exact ⟨h,a,rfl,hh,k,hk,hw,advanceByPrimary_eq_none.mp hnone⟩
      · rintro ⟨h',a',hh',ha',k,hk,hw,hend⟩
        cases hh'
        cases hh.symm.trans ha'
        exact ⟨k,hk,hw,fun _ _ _ _ => rfl,.inr ⟨rfl,advanceByPrimary_eq_none.mpr hend⟩⟩

lemma computeActiveChain_iff {o : MapOrder} {last : Option AUMHash} {c : Chain} :
    computeActiveChain X s o C last maxIter=.ok c ↔
      ∃ chains k st, computeChainCandidates X s C last maxIter=.ok chains ∧ chains≠[] ∧
        computeActiveAncestor X o chains=.ok k ∧ C.aum k=some c.oldest ∧
        computeStateAt X C maxIter k=.ok st ∧ fastForward X s C maxIter st=.ok (c.head,c.state) ∧
        c.chainsThroughActive=false := by
  constructor
  · intro h
    obtain ⟨chains,hchains,h⟩ := bind_eq_ok.mp h
    obtain ⟨hlen,h⟩ := guard_eq_ok.mp h
    obtain ⟨k,hk,h⟩ := bind_eq_ok.mp h
    split at h
    · cases h
    · next oldest hold =>
      obtain ⟨st,hst,h⟩ := bind_eq_ok.mp h
      obtain ⟨⟨head,st'⟩,hff,h⟩ := bind_eq_ok.mp h
      cases h
      exact ⟨chains,k,st,mapError_eq_ok.mp hchains,fun hnil => hlen (hnil ▸ rfl),mapError_eq_ok.mp hk,hold,
        mapError_eq_ok.mp hst,mapError_eq_ok.mp hff,rfl⟩
  · rintro ⟨chains,k,st,hchains,hne,hk,hold,hst,hff,hflag⟩
    refine bind_eq_ok.mpr ⟨chains,mapError_eq_ok.mpr hchains,guard_eq_ok.mpr ⟨?_,?_⟩⟩
    · exact fun hlen => hne (length_eq_zero_iff.mp hlen)
    refine bind_eq_ok.mpr ⟨k,mapError_eq_ok.mpr hk,?_⟩
    rw [hold]
    refine bind_eq_ok.mpr ⟨st,mapError_eq_ok.mpr hst,bind_eq_ok.mpr ⟨_,mapError_eq_ok.mpr hff,?_⟩⟩
    cases c
    cases hflag
    rfl

lemma mem_of_forward (h : C.forward X s p=some q) : q.1 ∈ C.childAUMs (X.hash p.1) :=
  mem_of_pickNextAUM X (forward_eq_some.mp h).1

lemma lastAUMHash_of_forward (h : C.forward X s p=some q) : q.2.lastAUMHash=some (X.hash q.1) :=
  (State.applyVerifiedAUM_eq_ok X (forward_eq_some.mp h).2).1

end

section
variable {X : Primitives} {C C' : Chonk} {A : Set AUM} {names : AUM → AUMHash → Prop} {n : ℕ}

lemma Chonk.Reads.walk_back_of_forward (hC : C.Reads X A names) {p q : AUM × State} (hp : p.1 ∈ A)
    (h : walk (C.forward X s) n p=some q) : walk C.back n q.1=some p.1 ∧ q.1 ∈ A := by
  induction n generalizing p with
  | zero =>
    cases h
    exact ⟨rfl,hp⟩
  | succ n ih =>
    obtain ⟨p',hp',h⟩ := walk_succ_eq_some.mp h
    obtain ⟨hmem,hnames⟩ := (hC.mem_childAUMs _ _).mp (mem_of_forward hp')
    obtain ⟨hback,hq⟩ := ih hmem h
    refine ⟨walk_succ_eq_some_last.mpr ⟨p'.1,hback,?_⟩,hq⟩
    exact hC.back_eq_some.mpr ⟨hp,hC.parent_of_names _ _ hnames⟩

variable {r : AUM}

lemma walkBack_eq_of_none (hr : C.back r=none) (hr' : C'.back r=none) (maxIter n : ℕ) :
    walkBack X C maxIter n r=walkBack X C' maxIter n r := by
  cases n with
  | zero => rfl
  | succ n =>
    rw [walkBack,walkBack]
    rw [Chonk.back] at hr hr'
    cases hp : r.parent with
    | none => rfl
    | some p =>
      rw [hp] at hr hr'
      simp only [bind_some] at hr hr'
      dsimp only
      rw [hr,hr']

lemma lastAUMHash_of_walkBack (hr : C.back r=none)
    {path : List AUM} (h : walkBack X C maxIter n r=.ok (st,path)) : st.lastAUMHash=some (X.hash r) := by
  cases n with
  | zero => cases h
  | succ n =>
    rw [walkBack] at h
    split at h
    · split at h
      · cases h
      · cases h
        rfl
    · split at h
      · split at h
        · obtain ⟨st',hst',he⟩ := map_eq_ok.mp h
          cases he
          exact (State.applyVerifiedAUM_eq_ok X (mapError_eq_ok.mp (mapError_eq_ok.mp hst'))).1
        · cases h
      · next p hp =>
        rw [Chonk.back,hp,bind_some] at hr
        rw [hr] at h
        cases h

lemma computeStateAt_of_none (haum : C.aum (X.hash r)=some r) (hr : C.back r=none) (hpos : 0 < maxIter) :
    computeStateAt X C maxIter (X.hash r)=.ok st ↔ ∃ path, walkBack X C maxIter (maxIter+1) r=.ok (st,path) := by
  have hff {start : State} (hstart : start.lastAUMHash=some (X.hash r))
      (adv : State → List AUM → Except Halt (Option (AUM × State))) :
      fastForwardWithAdvancer X C maxIter start adv (fun curs _ => decide (X.hash curs=X.hash r))
        = .ok (r,start) := by
    rw [fastForwardWithAdvancer,hstart]
    dsimp only
    rw [haum]
    exact (advanceLoop_eq_ok (p := (r,start))).mpr ⟨0,hpos,rfl,fun j hj => absurd hj (Nat.not_lt_zero j),
      .inl (decide_eq_true rfl)⟩
  rw [computeStateAt,haum]
  constructor
  · intro h
    obtain ⟨⟨start,path⟩,hw,h⟩ := bind_eq_ok.mp h
    obtain ⟨⟨a,st'⟩,hloop,h⟩ := bind_eq_ok.mp h
    obtain ⟨-,h⟩ := guard_eq_ok.mp h
    cases h
    cases (hff (lastAUMHash_of_walkBack hr hw) _).symm.trans hloop
    exact ⟨path,hw⟩
  · rintro ⟨path,hw⟩
    have hlast := lastAUMHash_of_walkBack hr hw
    refine bind_eq_ok.mpr ⟨(st,path),hw,bind_eq_ok.mpr ⟨(r,st),hff hlast _,?_⟩⟩
    exact guard_eq_ok.mpr ⟨not_not.mpr hlast,rfl⟩

end

end TunnnejiTail.Tka
