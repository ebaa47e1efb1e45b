import TunnnejiTail.Go.Walk
import TunnnejiTail.Tka.Filled

/-! The chains that a store has, and which of them the remembered message selects. -/
namespace TunnnejiTail.Tka
open Go List Function

section
variable (X : Primitives) (C : Chonk)

def Chonk.back (a : AUM) : Option AUM := a.parent.bind C.aum

def Chonk.Oldest (a r : AUM) : Prop := ∃ n, Ends C.back n a r

def Chonk.Passes (last : Option AUMHash) (a : AUM) : Prop :=
  ∃ n b, walk C.back (n+1) a=some b ∧ last=some (X.hash b)

def digest (a : AUM) : List ℕ := (X.hash a).bytes.map UInt8.toNat

/-- What the rounds of computeChainCandidates do to one candidate. -/
structure Finished (last : Option AUMHash) (n : ℕ) (c c' : Chain) : Prop where
  head : c'.head=c.head
  state : c'.state=c.state
  oldest : ∃ k<n, Ends C.back k c.oldest c'.oldest
  through : c'.chainsThroughActive=true ↔ c.chainsThroughActive=true ∨ C.Passes X last c.oldest

end

section
variable {X : Primitives} {C : Chonk} {last : Option AUMHash} {c c' d d' : Chain}

lemma stepBack_of_none (h : C.back c.oldest=none) : stepBack X C last c=(c,false) := by
  rw [Chonk.back] at h
  rw [stepBack,h]

lemma stepBack_of_some {b : AUM} (h : C.back c.oldest=some b) : stepBack X C last c
    = (⟨b,c.head,c.state,c.chainsThroughActive || decide (last=some (X.hash b))⟩,true) := by
  rw [Chonk.back] at h
  rw [stepBack,h]

lemma not_passes_of_none {a : AUM} (h : C.back a=none) : ¬ C.Passes X last a := by
  rintro ⟨n,b,hw,-⟩
  obtain ⟨b',hb',-⟩ := walk_succ_eq_some.mp hw
  cases h.symm.trans hb'

lemma passes_of_some {a b : AUM} (h : C.back a=some b) :
    C.Passes X last a ↔ last=some (X.hash b) ∨ C.Passes X last b := by
  constructor
  · rintro ⟨n,d,hw,hd⟩
    rw [walk_succ_of h] at hw
    cases n with
    | zero =>
      cases hw
      exact .inl hd
    | succ n => exact .inr ⟨n,d,hw,hd⟩
  · rintro (hb | ⟨n,d,hw,hd⟩)
    · exact ⟨0,b,(walk_succ_of h 0).trans rfl,hb⟩
    · exact ⟨n+1,d,(walk_succ_of h (n+1)).trans hw,hd⟩

lemma finished_of_none {n : ℕ} (h : C.back c.oldest=none) (hn : 0<n) : Finished X C last n c c' ↔ c'=c := by
  constructor
  · rintro ⟨hhead,hstate,⟨k,-,hk⟩,hthrough⟩
    obtain ⟨-,holdest⟩ := hk.unique ⟨walk_zero _ _,h⟩
    have hflag : c'.chainsThroughActive=c.chainsThroughActive := by
      rw [Bool.eq_iff_iff,hthrough]
      exact or_iff_left (not_passes_of_none h)
    cases c'
    cases c
    simp only [Chain.mk.injEq]
    exact ⟨holdest,hhead,hstate,hflag⟩
  · rintro rfl
    exact ⟨rfl,rfl,⟨0,hn,rfl,h⟩,(or_iff_left (not_passes_of_none h)).symm⟩

lemma finished_of_some {n : ℕ} {b : AUM} (h : C.back c.oldest=some b) :
    Finished X C last (n+1) c c' ↔ Finished X C last n (stepBack X C last c).1 c' := by
  have hends : (∃ k<n+1, Ends C.back k c.oldest c'.oldest) ↔ ∃ k<n, Ends C.back k b c'.oldest := by
    constructor
    · rintro ⟨k,hk,he⟩
      obtain ⟨j,rfl,hj⟩ := he.rest ((walk_one _ _).trans h)
      exact ⟨j,by omega,hj⟩
    · rintro ⟨k,hk,he⟩
      exact ⟨1+k,by omega,he.trans ((walk_one _ _).trans h)⟩
  have hor : (c.chainsThroughActive=true ∨ C.Passes X last c.oldest) ↔
      ((c.chainsThroughActive || decide (last=some (X.hash b)))=true ∨ C.Passes X last b) := by
    rw [passes_of_some h,Bool.or_eq_true,decide_eq_true_iff,or_assoc]
  rw [stepBack_of_some h]
  constructor
  · rintro ⟨hhead,hstate,holdest,hthrough⟩
    exact ⟨hhead,hstate,hends.mp holdest,hthrough.trans hor⟩
  · rintro ⟨hhead,hstate,holdest,hthrough⟩
    exact ⟨hhead,hstate,hends.mpr holdest,hthrough.trans hor.symm⟩

lemma Finished.mono {m n : ℕ} (h : Finished X C last m c c') (hmn : m≤n) : Finished X C last n c c' := by
  obtain ⟨k,hk,he⟩ := h.oldest
  exact ⟨h.head,h.state,⟨k,by omega,he⟩,h.through⟩

lemma extendBack_iff {maxIter n : ℕ} {cs cs' : List Chain} (hn : 0<n) :
    extendBack X C last maxIter n cs=.ok cs' ↔ Forall₂ (Finished X C last n) cs cs' := by
  induction n generalizing cs with
  | zero => cases hn
  | succ n ih =>
    rw [extendBack]
    by_cases hmoved : (cs.map (stepBack X C last)).any Prod.snd=true
    · rw [if_pos hmoved]
      constructor
      · intro h
        have hn : 0<n := by
          cases n with
          | zero => cases h
          | succ n => exact n.succ_pos
        have hrest := (ih hn).mp h
        rw [map_map,forall₂_map_left_iff] at hrest
        refine hrest.imp fun c c' hc => ?_
        cases hb : C.back c.oldest with
        | none =>
          rw [comp_apply,stepBack_of_none hb] at hc
          exact hc.mono n.le_succ
        | some b => exact (finished_of_some hb).mpr hc
      · intro h
        have hn : 0<n := by
          obtain ⟨m,hm,hm'⟩ := any_eq_true.mp hmoved
          obtain ⟨c,hc,rfl⟩ := mem_map.mp hm
          cases hb : C.back c.oldest with
          | none =>
            rw [stepBack_of_none hb] at hm'
            cases hm'
          | some b =>
            obtain ⟨i,hi,rfl⟩ := List.getElem_of_mem hc
            obtain ⟨k,hk,-⟩ := ((finished_of_some hb).mp (h.get hi (h.length_eq ▸ hi))).oldest
            omega
        rw [ih hn,map_map,forall₂_map_left_iff]
        refine h.imp fun c c' hc => ?_
        cases hb : C.back c.oldest with
        | none =>
          rw [comp_apply,stepBack_of_none hb]
          exact (finished_of_none hb hn).mpr ((finished_of_none hb n.succ_pos).mp hc)
        | some b => exact (finished_of_some hb).mp hc
    · rw [if_neg hmoved]
      have hnone : ∀ c ∈ cs, C.back c.oldest=none := by
        intro c hc
        cases hb : C.back c.oldest with
        | none => rfl
        | some b =>
          refine absurd (any_eq_true.mpr ⟨_,mem_map_of_mem hc,?_⟩) hmoved
          rw [stepBack_of_some hb]
      have hstill : (cs.map (stepBack X C last)).map Prod.fst=cs := by
        rw [map_map]
        refine (map_congr_left fun c hc => ?_).trans (map_id cs)
        rw [comp_apply,stepBack_of_none (hnone c hc),id]
      rw [hstill,Except.ok.injEq,← forall₂_eq_eq_eq]
      constructor
      · intro h
        refine ((forall₂_and_left _ _).mpr ⟨hnone,h⟩).imp fun c c' hc => ?_
        exact (finished_of_none hc.1 n.succ_pos).mpr hc.2.symm
      · intro h
        refine ((forall₂_and_left _ _).mpr ⟨hnone,h⟩).imp fun c c' hc => ?_
        exact ((finished_of_none hc.1 n.succ_pos).mp hc.2).symm

end

def Chain.start (a : AUM) : Chain := { oldest := a,head := a }

section
variable {X : Primitives} {C : Chonk} {last : Option AUMHash} {maxIter : ℕ}

lemma computeChainCandidates_iff (s : SliceSort) (last : Option AUMHash) (hpos : 0 < maxIter) : ∃ heads :
    List AUM,
    heads.Perm C.heads ∧ heads.Pairwise (fun a b => digest X a≤digest X b) ∧
    ∀ {chains}, computeChainCandidates X s C last maxIter=.ok chains ↔
      Forall₂ (fun a c => Finished X C last maxIter (.start a) c) heads chains := by
  obtain ⟨cs,hdef⟩ : ∃ cs, s.sort (fun i j : Chain =>
    bytesLess (X.hash i.oldest).bytes (X.hash j.oldest).bytes) (C.heads.map Chain.start)=cs := ⟨_,rfl⟩
  have hperm : cs.Perm (C.heads.map Chain.start) := hdef ▸ s.perm _ _
  have hsorted : cs.Pairwise fun c d => digest X c.oldest≤digest X d.oldest :=
    hdef ▸ s.sorted (fun c : Chain => digest X c.oldest) (fun _ _ => bytesLess_iff) _
  have hcompute {chains : List Chain} : computeChainCandidates X s C last maxIter=.ok chains ↔
      Forall₂ (Finished X C last maxIter) cs chains := by
    rw [← hdef]
    exact extendBack_iff hpos
  have hcs : (cs.map Chain.oldest).map Chain.start=cs := by
    rw [map_map]
    refine (map_congr_left fun c hc => ?_).trans (map_id cs)
    obtain ⟨a,-,rfl⟩ := mem_map.mp (hperm.mem_iff.mp hc)
    rfl
  refine ⟨cs.map Chain.oldest,?_,pairwise_map.mpr hsorted,?_⟩
  · refine (hperm.map Chain.oldest).trans ?_
    rw [map_map]
    exact (map_id C.heads).symm ▸ Perm.refl _
  · intro chains
    rw [hcompute,← forall₂_map_left_iff (f := Chain.start),hcs]

/-- The candidates, in the order of the digests of their heads. -/
structure Candidates (X : Primitives) (C : Chonk) (last : Option AUMHash) (maxIter : ℕ)
    (chains : List Chain) : Prop where
  sorted : chains.Pairwise fun c d => digest X c.head≤digest X d.head
  mem_heads : ∀ a, a ∈ C.heads ↔ ∃ c ∈ chains, c.head=a
  oldest : ∀ c ∈ chains, ∃ k < maxIter, Ends C.back k c.head c.oldest
  through : ∀ c ∈ chains, c.chainsThroughActive=true ↔ C.Passes X last c.head

lemma computeChainCandidates_eq_ok {s : SliceSort} {chains : List Chain}
    (h : computeChainCandidates X s C last maxIter=.ok chains) : Candidates X C last maxIter chains := by
  have hpos : 0 < maxIter := by
    cases maxIter with
    | zero => cases h
    | succ n => exact n.succ_pos
  obtain ⟨heads,hperm,hsorted,hiff⟩ := computeChainCandidates_iff (X := X) (C := C) s last hpos
  have hall := hiff.mp h
  have hheads : heads=chains.map Chain.head := by
    rw [← forall₂_eq_eq_eq,forall₂_map_right_iff]
    exact hall.imp fun a c hc => hc.head.symm
  have hfinished : ∀ c ∈ chains, Finished X C last maxIter (.start c.head) c := by
    rw [hheads,forall₂_map_left_iff,forall₂_same] at hall
    exact hall
  refine ⟨?_,?_,fun c hc => (hfinished c hc).oldest,fun c hc => ?_⟩
  · rw [hheads,pairwise_map] at hsorted
    exact hsorted
  · intro a
    rw [← hperm.mem_iff,hheads,mem_map]
  · rw [(hfinished c hc).through]
    exact or_iff_right Bool.false_ne_true

lemma exists_candidates (s : SliceSort) (last : Option AUMHash) (hpos : 0 < maxIter)
    (h : ∀ a ∈ C.heads, ∃ k < maxIter, ∃ r, Ends C.back k a r) :
    ∃ chains, computeChainCandidates X s C last maxIter=.ok chains := by
  obtain ⟨heads,hperm,-,hiff⟩ := computeChainCandidates_iff (X := X) (C := C) s last hpos
  simp only [hiff]
  have hone : ∀ a ∈ heads, ∃ c, Finished X C last maxIter (.start a) c := by
    intro a ha
    obtain ⟨k,hk,r,hr⟩ := h a (hperm.mem_iff.mp ha)
    classical
    refine ⟨⟨r,a,.zero,decide (C.Passes X last a)⟩,rfl,rfl,⟨k,hk,hr⟩,?_⟩
    exact decide_eq_true_iff.trans (or_iff_right Bool.false_ne_true).symm
  clear hperm hiff
  induction heads with
  | nil => exact ⟨[],.nil⟩
  | cons a heads ih =>
    obtain ⟨c,hc⟩ := hone a mem_cons_self
    obtain ⟨chains,hchains⟩ := ih fun b hb => hone b (mem_cons_of_mem a hb)
    exact ⟨c::chains,.cons hc hchains⟩

end

end TunnnejiTail.Tka
