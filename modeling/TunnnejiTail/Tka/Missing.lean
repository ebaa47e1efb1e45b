import TunnnejiTail.Tka.Grown
import TunnnejiTail.Tka.Sync

/-! What an authority offers, and what it sends: the messages from one that both ends have to its head. -/
namespace TunnnejiTail.Tka
open Go TunnnejiTail.Types List Option Nat

/-- No message comes after itself, whichever way its parent's digest is read: copied into an array of its
own, or copied over the digest of the message. -/
def AcyclicCopies (X : Primitives) (U : Set AUM) : Prop :=
  ∃ rank : AUM → ℕ, ∀ a ∈ U, ∀ b ∈ U, (a.parent=some (X.hash b) ∨
    a.prevAUMHash.getD []≠[] ∧ copyOver (X.hash a) (a.prevAUMHash.getD [])=X.hash b) → rank b < rank a

lemma copyOver_bytes (dst h : Raw32) : copyOver dst h.bytes=h := by
  have hbytes : h.bytes.take 32++dst.bytes.drop h.bytes.length=h.bytes := by
    rw [take_of_length_le h.size.le,drop_of_length_le (by rw [h.size,dst.size]),append_nil]
  cases h
  simp only [copyOver,hbytes]

lemma copyOver_nil (dst : Raw32) : copyOver dst []=dst := by
  cases dst
  simp [copyOver]

section
variable {X : Primitives} {C : Chonk} {s : SliceSort} {p e : AUM × State}

lemma advanceLoop_until (done : AUM → State → Bool) (maxIter : ℕ) {m n : ℕ}
    (hw : walk (C.forward X s) m p=some e) (hend : C.childAUMs (X.hash e.1)=[]) (hn : m<n) :
    ∃ k r, walk (C.forward X s) k p=some r ∧ (done r.1 r.2=true ∨ r=e) ∧
      advanceLoop X C (advanceByPrimary X s) done maxIter n p.1 p.2=.ok r := by
  induction m generalizing p n with
  | zero =>
    cases hw
    refine ⟨0,_,rfl,.inr rfl,?_⟩
    obtain ⟨n,rfl⟩ := exists_eq_succ_of_ne_zero hn.ne'
    rw [advanceLoop]
    split
    · rfl
    · rw [hend]
      rfl
  | succ m ih =>
    obtain ⟨n,rfl⟩ := exists_eq_succ_of_ne_zero (zero_lt_of_lt hn).ne'
    by_cases hdone : done p.1 p.2=true
    · refine ⟨0,p,rfl,.inl hdone,?_⟩
      rw [advanceLoop,if_pos hdone]
    · obtain ⟨p',hp',hw⟩ := walk_succ_eq_some.mp hw
      obtain ⟨k,r,hk,hr,hloop⟩ := ih hw (lt_of_succ_lt_succ hn)
      refine ⟨k+1,r,(walk_succ_of hp' k).trans hk,hr,?_⟩
      rw [advanceLoop,if_neg hdone,advanced_eq_some.mp hp']
      exact hloop

lemma forward_eq_none (hend : C.childAUMs (X.hash e.1)=[]) : C.forward X s e=none := by
  refine eq_none_iff_forall_ne_some.mpr fun q hq => ?_
  have hmem := mem_of_forward hq
  rw [hend] at hmem
  cases hmem

end

section
variable {X : Primitives} {U : Set AUM} {B : AUM} {A : Set AUM} (hA : Grounded X U B B A)
  (hU : Set.InjOn X.hash U) {rank : AUM → ℕ}
  (hrank : Ranked X U rank) {storage : Store X} {C : Chonk}
  (hC : C.Reads X A storage.names) {s : SliceSort}
include hA hU hrank

variable {b : AUM}

lemma Grounded.exists_copyOver (hb : b ∈ A) (hne : b≠B) :
    ∃ c ∈ A, b.parent=some (X.hash c) ∧ ∀ dst, copyOver dst (b.prevAUMHash.getD [])=X.hash c := by
  obtain ⟨c,hc,hp⟩ := hA.closed b hb hne
  obtain ⟨st,hst⟩ := hA.verified c hc
  obtain ⟨-,-,-,-,hprev⟩ := hA.apply hU hrank hst hb hp
  exact ⟨c,hc,hp,fun dst => hprev ▸ copyOver_bytes dst (X.hash c)⟩

include hC

lemma Grounded.mem_offerLoop {n i skip : ℕ} (hb : b ∈ A) {out : List AUMHash} {h : AUMHash}
    (hmem : h ∈ offerLoop X C (X.hash B) n i skip (X.hash b) out) : h ∈ out ∨ ∃ c ∈ A, X.hash c=h := by
  induction n generalizing i skip b out with
  | zero => exact .inl hmem
  | succ n ih =>
    have hout {listed : Bool} (hmem : h ∈ if listed then out++[X.hash b] else out) :
        h ∈ out ∨ ∃ c ∈ A, X.hash c=h := by
      split at hmem
      · rcases mem_append.mp hmem with hmem | hmem
        · exact .inl hmem
        · exact .inr ⟨b,hb,(mem_singleton.mp hmem).symm⟩
      · exact .inl hmem
    rw [offerLoop,(hC.aum_eq_some _ b).mpr ⟨hb,rfl⟩] at hmem
    dsimp only at hmem
    split at hmem
    · exact hout hmem
    · next hne =>
      obtain ⟨c,hc,-,hcopy⟩ := hA.exists_copyOver hU hrank hb fun he => hne (congrArg X.hash he)
      rw [hcopy] at hmem
      rcases ih hc hmem with hmem | hmem
      · exact hout hmem
      · exact .inr hmem

lemma Grounded.of_findHead (hcopy : ∀ b ∈ U, B.prevAUMHash.getD []≠[] →
      copyOver (X.hash B) (B.prevAUMHash.getD [])=X.hash b → rank b < rank B)
    {r : AUMHash} {n : ℕ} (hb : b ∈ A) (h : findHead X C r n (X.hash b)=true) :
    ∃ k c, walk C.back k b=some c ∧ X.hash c=r := by
  induction n generalizing b with
  | zero => cases h
  | succ n ih =>
    rw [findHead,(hC.aum_eq_some _ b).mpr ⟨hb,rfl⟩] at h
    dsimp only at h
    split at h
    · next he => exact ⟨0,b,rfl,he⟩
    · by_cases hbB : b=B
      · subst hbB
        by_cases hprev : b.prevAUMHash.getD []=[]
        · rw [hprev,copyOver_nil] at h
          exact ih hb h
        · cases n with
          | zero => cases h
          | succ n =>
            rw [findHead] at h
            split at h
            · cases h
            · next m hm =>
              obtain ⟨hmA,he⟩ := (hC.aum_eq_some _ m).mp hm
              exact absurd (hA.root_le hrank hmA) (not_le.mpr (hcopy m (hA.mem hmA) hprev he.symm))
      · obtain ⟨c,hc,hp,hcopy'⟩ := hA.exists_copyOver hU hrank hb hbB
        rw [hcopy'] at h
        obtain ⟨k,d,hk,hd⟩ := ih hc h
        exact ⟨k+1,d,(walk_succ_of (hC.back_eq_some.mpr ⟨hc,hp⟩) k).trans hk,hd⟩

variable {k : ℕ}

lemma Grounded.eq_of_walk {p q e : AUM × State} (hpA : p.1 ∈ A) (he : (forkRule X).Leads A p e)
    (hk : walk (C.forward X s) k p=some q) (hq : ∀ b ∈ A, ¬ (forkRule X).follows b q.1) : q=e := by
  obtain ⟨m,hm,hend⟩ := hA.walk_of_leads hU hrank hC (s := s) hpA he
  have hqA := (hC.walk_back_of_forward hpA hk).2
  have hqend := (hA.childAUMs_eq_nil hU hrank hC hqA).mpr hq
  exact (Ends.unique ⟨hk,forward_eq_none hqend⟩ ⟨hm,forward_eq_none hend⟩).2

variable {H : AUM} {S stB : State} (hB : Verified X U B B stB) (hleads : (forkRule X).Leads A (B,stB) (H,S))
include hB hleads

lemma Grounded.leads_of_ancestor (hb : walk C.back k H=some b) :
    ∃ st, Verified X U B b st ∧ (forkRule X).Leads A (b,st) (H,S) := by
  obtain ⟨N,hN,hend⟩ := hA.walk_of_leads hU hrank hC (s := .insertion) hA.root hleads
  obtain ⟨hback,-⟩ := hC.walk_back_of_forward hA.root hN
  obtain ⟨j,hj,-⟩ := Ends.rest (f := C.back) ⟨hback,hA.back_root hrank hC⟩ hb
  rw [hj,Nat.add_comm k j,walk_add] at hN
  obtain ⟨p,hp,hpk⟩ := bind_eq_some_iff.mp hN
  have hpA := (hC.walk_back_of_forward hA.root hp).2
  have hpb : p.1=b := Option.some.inj ((hC.walk_back_of_forward hpA hpk).1.symm.trans hb)
  have hverified : Verified X U B p.1 p.2 ∧ p.1 ∈ A := by
    refine walk_induction (P := fun p : AUM × State => Verified X U B p.1 p.2 ∧ p.1 ∈ A) (fun {x y} hx hy => ?_)
      hp ⟨hB,hA.root⟩
    have hstep := (hA.forward_iff hU hrank hC hx.2).mp hy
    exact ⟨hA.verified_of_step hU hrank hx.1 hstep,hstep.mem⟩
  rw [← hpb]
  exact ⟨p.2,hverified.1,hA.leads_of_walk hU hrank hC hpA hpk hend⟩

variable (hdepth : ∀ a ∈ A, ∃ k < maxSyncIter, walk C.back k a=some B)
include hdepth

omit hU hB hleads in
lemma Grounded.length_lt {a b : AUM} (ha : a ∈ A) (h : walk C.back k a=some b) :
    k < maxSyncIter := by
  obtain ⟨j,hj,hw⟩ := hdepth a ha
  obtain ⟨i,hi,-⟩ := Ends.rest (f := C.back) ⟨hw,hA.back_root hrank hC⟩ h
  omega

lemma Grounded.findTail_eq_ok (s : SliceSort) {l : List AUM} (hl : ∀ a ∈ A, a ∈ l) {ancestors : List AUMHash}
    (hanc : X.hash B ∈ ancestors) : ∃ b ∈ A, ∃ st,
      findTail X s C (X.hash H) ancestors=.ok { tailIntersection := some (X.hash b) } ∧
      X.hash b ∈ ancestors ∧ Verified X U B b st ∧ (forkRule X).Leads A (b,st) (H,S) := by
  induction ancestors with
  | nil => cases hanc
  | cons h rest ih =>
    have hrest (hne : h≠X.hash B) (heq : findTail X s C (X.hash H) (h::rest)=findTail X s C (X.hash H) rest) :
        ∃ b ∈ A, ∃ st, findTail X s C (X.hash H) (h::rest)=.ok { tailIntersection := some (X.hash b) } ∧
          X.hash b ∈ h::rest ∧ Verified X U B b st ∧ (forkRule X).Leads A (b,st) (H,S) := by
      obtain ⟨b,hb,st,hfind,hin,hrest⟩ := ih ((mem_cons.mp hanc).resolve_left (Ne.symm hne))
      exact ⟨b,hb,st,heq.trans hfind,mem_cons_of_mem h hin,hrest⟩
    by_cases hstored : ∃ b ∈ A, X.hash b=h
    · obtain ⟨b,hb,rfl⟩ := hstored
      obtain ⟨k,hk,hkB⟩ := hdepth b hb
      obtain ⟨st,hst⟩ := hA.exists_computeStateAt hU hrank hC hb hkB hk
      have hverified := hA.verified_of_computeStateAt hU hrank hC hb hst
      obtain ⟨e,he⟩ := hA.exists_leads hU hrank hC s hl (p := (b,st)) hverified hb
      obtain ⟨m,hm,hend⟩ := hA.walk_of_leads hU hrank hC (s := s) hb he
      obtain ⟨hmback,heA⟩ := hC.walk_back_of_forward hb hm
      have hlt := hA.length_lt hrank hC hdepth heA hmback
      obtain ⟨j,r,hj,hr,hloop⟩ := advanceLoop_until (fun curs _ => decide (X.hash curs=X.hash H)) maxSyncIter
        hm hend hlt
      have hff : fastForwardWithAdvancer X C maxSyncIter st (advanceByPrimary X s)
          (fun curs _ => decide (X.hash curs=X.hash H))=.ok r := by
        rw [fastForwardWithAdvancer,hverified.lastAUMHash]
        dsimp only
        rw [(hC.aum_eq_some _ b).mpr ⟨hb,rfl⟩]
        exact hloop
      have hfind : findTail X s C (X.hash H) (X.hash b::rest)=if X.hash r.1=X.hash H then
          .ok { tailIntersection := some (X.hash b) } else findTail X s C (X.hash H) rest := by
        rw [findTail,hst]
        dsimp only
        rw [hff]
        rfl
      by_cases hrH : X.hash r.1=X.hash H
      · have hrA := (hC.walk_back_of_forward hb hj).2
        have hr1 : r.1=H := hC.injOn hrA (hleads.mem hA.root) hrH
        have hre := hA.eq_of_walk hU hrank hC hb he hj (hr1 ▸ hleads.none)
        have heS : e=(H,S) := by
          have hev := (hA.verified_of_leads hU hrank (p := (b,st)) hverified hb he).1
          have hHv := (hA.verified_of_leads hU hrank (p := (B,stB)) hB hA.root hleads).1
          rw [← hre] at hev ⊢
          exact Prod.ext hr1 ((hr1 ▸ hev).unique hU hrank hHv)
        rw [hfind,if_pos hrH]
        exact ⟨b,hb,st,rfl,mem_cons_self,hverified,heS ▸ he⟩
      · refine hrest (fun hbB => hrH ?_) (hfind.trans (if_neg hrH))
        -- From the bootstrap message the way forward does lead to the head.
        cases hC.injOn hb hA.root hbB
        cases hverified.unique hU hrank hB
        rcases hr with hdone | rfl
        · exact of_decide_eq_true hdone
        · rw [he.unique (forkRule_lawful X) hleads]
    · refine hrest (fun he => hstored ⟨B,hA.root,he.symm⟩) ?_
      have hnone : C.aum h=none := by
        refine eq_none_iff_forall_ne_some.mpr fun b hb => hstored ?_
        obtain ⟨hbA,hbh⟩ := (hC.aum_eq_some h b).mp hb
        exact ⟨b,hbA,hbh⟩
      rw [findTail,computeStateAt,hnone]

omit hB hleads hdepth in
lemma Grounded.listLoop_eq_ok {p e : AUM × State} (hp : Verified X U B p.1 p.2) (hpA : p.1 ∈ A)
    (h : (forkRule X).Leads A p e) (start : AUMHash) : ∃ us, Builds X p us e ∧ (∀ u ∈ us, u ∈ A) ∧
      ∀ n out, us.length<n → listLoop X s C start n p.1 p.2 out
        = .ok (out++(p.1::us).filter fun u => decide (X.hash u≠start)) := by
  induction h with
  | @stop p hnone =>
    refine ⟨[],.nil p,forall_mem_nil _,fun n out hn => ?_⟩
    obtain ⟨n,rfl⟩ := exists_eq_succ_of_ne_zero hn.ne'
    rw [listLoop,(hA.childAUMs_eq_nil hU hrank hC hpA).mpr hnone]
    by_cases hs : X.hash p.1=start <;> simp [hs,advanceByPrimary] <;> rfl
  | @go p q e hstep h ih =>
    obtain ⟨us,hus,hin,hloop⟩ := ih (hA.verified_of_step hU hrank hp hstep) hstep.mem
    obtain ⟨-,-,-,-,hprev⟩ := hA.apply hU hrank hp hstep.mem hstep.follows
    refine ⟨q.1::us,.cons hprev hstep.apply hus,forall_mem_cons.mpr ⟨hstep.mem,hin⟩,fun n out hn => ?_⟩
    obtain ⟨n,rfl⟩ := exists_eq_succ_of_ne_zero (zero_lt_of_lt hn).ne'
    have hforward := (hA.forward_iff hU hrank hC (s := s) hpA).mpr hstep
    rw [listLoop,advanced_eq_some.mp hforward]
    refine (hloop n _ (by simpa using hn)).trans ?_
    by_cases hs : X.hash p.1=start <;> simp [hs]

omit hB hleads in
lemma Grounded.listFrom_eq_ok (s : SliceSort) (hb : b ∈ A) {st : State} (hst : Verified X U B b st)
    (h : (forkRule X).Leads A (b,st) (H,S)) :
    ∃ us, listFrom X s C (X.hash b)=.ok us ∧ Builds X (b,st) us (H,S) ∧ ∀ u ∈ us, u ∈ A := by
  obtain ⟨us,hus,hin,hloop⟩ := hA.listLoop_eq_ok hU hrank hC (s := s) (p := (b,st)) hst hb h (X.hash b)
  obtain ⟨hback,hH⟩ := hus.walk_back hC hb hin
  have hfilter : ((b::us).filter fun u => decide (X.hash u≠X.hash b))=us := by
    rw [filter_cons_of_neg (by simp)]
    refine filter_eq_self.mpr fun u hu => decide_eq_true fun he => ?_
    have hlt := hus.rank_lt hrank (hA.mem hb) (fun u hu => hA.mem (hin u hu)) u hu
    rw [hC.injOn (hin u hu) hb he] at hlt
    exact lt_irrefl _ hlt
  obtain ⟨k,hk,hkB⟩ := hdepth b hb
  obtain ⟨st',hst'⟩ := hA.exists_computeStateAt hU hrank hC hb hkB hk
  cases (hA.verified_of_computeStateAt hU hrank hC hb hst').unique hU hrank hst
  refine ⟨us,bind_eq_ok.mpr ⟨st,hst',?_⟩,hus,hin⟩
  rw [hst.lastAUMHash]
  dsimp only
  rw [(hC.aum_eq_some _ b).mpr ⟨hb,rfl⟩]
  exact (hloop _ _ (hA.length_lt hrank hC hdepth hH hback)).trans (by rw [hfilter,nil_append])

end

end TunnnejiTail.Tka
