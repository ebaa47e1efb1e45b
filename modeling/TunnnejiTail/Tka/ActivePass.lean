import TunnnejiTail.Tka.Compact
import TunnnejiTail.Tka.StateAt

/-! The passes of a compaction that mark the young messages, the active chain and the descendants. -/
namespace TunnnejiTail.Tka
open Go List AList RetainState

section
variable (X : Primitives) (C : Chonk)

def Passed (a : AUM) (n : ℕ) : Set AUMHash := {h | ∃ i<n, ∃ x, walk C.back i a=some x ∧ X.hash x=h}

def Named (a : AUM) : Set AUMHash := {h | ∃ i x, walk C.back i a=some x ∧ x.parent=some h}

end

section
variable {X : Primitives} {C : Chonk} {a b : AUM}

lemma passed_one : Passed X C a 1 = {X.hash a} := by
  refine Set.ext fun h => ⟨?_,?_⟩
  · rintro ⟨i,hi,x,hx,rfl⟩
    cases Nat.lt_one_iff.mp hi
    cases hx
    rfl
  · rintro rfl
    exact ⟨0,Nat.one_pos,a,rfl,rfl⟩

lemma passed_succ (hb : C.back a=some b) (n : ℕ) :
    Passed X C a (n+1)=insert (X.hash a) (Passed X C b n) := by
  refine Set.ext fun h => ⟨?_,?_⟩
  · rintro ⟨i,hi,x,hx,rfl⟩
    cases i with
    | zero =>
      cases hx
      exact .inl rfl
    | succ i => exact .inr ⟨i,by omega,x,(walk_succ_of hb i).symm.trans hx,rfl⟩
  · rintro (rfl | ⟨i,hi,x,hx,rfl⟩)
    · exact ⟨0,n.succ_pos,a,rfl,rfl⟩
    · exact ⟨i+1,by omega,x,(walk_succ_of hb i).trans hx,rfl⟩

lemma passed_add {n : ℕ} (hb : walk C.back n a=some b) (m : ℕ) :
    Passed X C a n ∪ Passed X C b m=Passed X C a (n+m) := by
  refine Set.ext fun h => ⟨?_,?_⟩
  · rintro (⟨i,hi,x,hx,rfl⟩ | ⟨i,hi,x,hx,rfl⟩)
    · exact ⟨i,by omega,x,hx,rfl⟩
    · exact ⟨n+i,by omega,x,(walk_trans hb i).trans hx,rfl⟩
  · rintro ⟨i,hi,x,hx,rfl⟩
    by_cases hin : i<n
    · exact .inl ⟨i,hin,x,hx,rfl⟩
    · obtain ⟨j,rfl⟩ := Nat.exists_eq_add_of_le (Nat.le_of_not_lt hin)
      exact .inr ⟨j,by omega,x,(walk_trans hb j).symm.trans hx,rfl⟩

lemma named_of_none (ha : a.parent=none) : Named C a=∅ := by
  refine Set.eq_empty_iff_forall_notMem.mpr ?_
  rintro h ⟨i,x,hx,hp⟩
  cases i with
  | zero =>
    cases hx
    cases ha.symm.trans hp
  | succ i =>
    obtain ⟨y,hy,-⟩ := walk_succ_eq_some.mp hx
    rw [Chonk.back,ha] at hy
    cases hy

variable {h : AUMHash} (ha : a.parent=some h)
include ha

lemma named_of_some (hback : C.back a=none) : Named C a = {h} := by
  refine Set.ext fun j => ⟨?_,?_⟩
  · rintro ⟨i,x,hx,hp⟩
    cases i with
    | zero =>
      cases hx
      exact Option.some.inj (hp.symm.trans ha)
    | succ i =>
      obtain ⟨y,hy,-⟩ := walk_succ_eq_some.mp hx
      cases hback.symm.trans hy
  · rintro rfl
    exact ⟨0,a,rfl,ha⟩

lemma named_succ (hb : C.back a=some b) :
    Named C a=insert h (Named C b) := by
  refine Set.ext fun j => ⟨?_,?_⟩
  · rintro ⟨i,x,hx,hp⟩
    cases i with
    | zero =>
      cases hx
      exact .inl (Option.some.inj (hp.symm.trans ha))
    | succ i => exact .inr ⟨i,x,(walk_succ_of hb i).symm.trans hx,hp⟩
  · rintro (rfl | ⟨i,x,hx,hp⟩)
    · exact ⟨0,a,rfl,ha⟩
    · exact ⟨i+1,x,(walk_succ_of hb i).trans hx,hp⟩

lemma back_of_parent : C.back a=C.aum h := by
  rw [Chonk.back,ha]
  rfl

end

section
variable {X : Primitives} {C : Chonk} {v v' : Verdict} {n : ℕ} {a : AUM}

lemma of_markMinChain {r : AUMHash ⊕ AUM} (h : markMinChain X C n v a=(v',r)) :
    (∃ m c, Ends C.back m a c ∧ r=.inl (X.hash c) ∧ Marks .setActive (Passed X C a (m+1)) v v') ∨
      ∃ b, walk C.back n a=some b ∧ r=.inr b ∧ Marks .setActive (Passed X C a n) v v' := by
  have hidem (w : RetainState) : w.setActive.setActive=w.setActive := rfl
  induction n generalizing v a with
  | zero =>
    cases h
    refine .inr ⟨a,rfl,rfl,?_⟩
    have hnone : Passed X C a 0=∅ := Set.eq_empty_iff_forall_notMem.mpr (by rintro j ⟨i,hi,-⟩; cases hi)
    rw [hnone]
    exact .refl _ _
  | succ n ih =>
    rw [markMinChain] at h
    have hmark := marks_mark setActive v (X.hash a)
    cases hp : a.parent with
    | none =>
      rw [hp] at h
      cases h
      refine .inl ⟨0,a,⟨rfl,by rw [Chonk.back,hp]; rfl⟩,rfl,?_⟩
      rw [passed_one]
      exact hmark
    | some p =>
      rw [hp] at h
      dsimp only at h
      cases hb : C.aum p with
      | none =>
        rw [hb] at h
        cases h
        refine .inl ⟨0,a,⟨rfl,(back_of_parent hp).trans hb⟩,rfl,?_⟩
        rw [passed_one]
        exact hmark
      | some b =>
        rw [hb] at h
        have hback := (back_of_parent hp).trans hb
        rcases ih h with ⟨m,c,hm,rfl,hrest⟩ | ⟨c,hc,rfl,hrest⟩
        · refine .inl ⟨m+1,c,⟨(walk_succ_of hback m).trans hm.1,hm.2⟩,rfl,?_⟩
          rw [passed_succ hback]
          exact hmark.trans hidem hrest
        · refine .inr ⟨c,(walk_succ_of hback n).trans hc,rfl,?_⟩
          rw [passed_succ hback]
          exact hmark.trans hidem hrest

lemma marks_of_markCandidates (h : markCandidates C n v a=.ok v') :
    Marks .setCandidate (Named C a) v v' := by
  have hidem (w : RetainState) : w.setCandidate.setCandidate=w.setCandidate := rfl
  induction n generalizing v a with
  | zero => cases h
  | succ n ih =>
    rw [markCandidates] at h
    cases hp : a.parent with
    | none =>
      rw [hp] at h
      cases h
      rw [named_of_none hp]
      exact .refl _ _
    | some p =>
      rw [hp] at h
      dsimp only at h
      have hmark := marks_mark setCandidate v p
      cases hb : C.aum p with
      | none =>
        rw [hb] at h
        cases h
        rw [named_of_some hp ((back_of_parent hp).trans hb)]
        exact hmark
      | some b =>
        rw [hb] at h
        rw [named_succ hp ((back_of_parent hp).trans hb)]
        exact hmark.trans hidem (ih h)

lemma marks_of_markYoung {commitTime : AUMHash → Option ℤ} {minTime : ℤ} {l : List AUMHash}
    (h : l.foldlM (markYoung commitTime minTime) v=.ok v') :
    ∃ S : Set AUMHash, (∀ j ∈ S, j ∈ l) ∧ Marks .setYoung S v v' := by
  have hidem (w : RetainState) : w.setYoung.setYoung=w.setYoung := rfl
  induction l generalizing v with
  | nil =>
    cases h
    exact ⟨∅,fun j hj => absurd hj (Set.notMem_empty j),.refl _ _⟩
  | cons k l ih =>
    obtain ⟨w,hw,h⟩ := foldlM_cons_ok.mp h
    obtain ⟨S,hS,hmarks⟩ := ih h
    rw [markYoung] at hw
    split at hw
    · cases hw
    · cases hw
      split at hmarks
      · refine ⟨{k} ∪ S,?_,(marks_mark setYoung v k).trans hidem hmarks⟩
        rintro j (rfl | hj)
        · exact mem_cons_self
        · exact mem_cons_of_mem k (hS j hj)
      · exact ⟨S,fun j hj => mem_cons_of_mem k (hS j hj),hmarks⟩

lemma mem_of_retained {j : AUMHash} (h : (entry v j).retained=true) : j ∈ v := by
  refine mem_of_entry fun he => ?_
  rw [he] at h
  cases h

lemma marks_of_markDescendantAUMs {o : MapOrder} {P : AUMHash → Prop}
    (hleaf : ∀ j, (entry v j).leaf=false) (hP : ∀ j, (entry v j).retained=true → P j)
    (hchild : ∀ j, ∀ a ∈ C.childAUMs j, P (X.hash a)) (h : markDescendantAUMs X C n o v=.ok v') :
    ∃ S : Set AUMHash, Marks .setLeaf S v v' ∧ (∀ j ∈ S, P j) ∧ (∀ j, (entry v j).retained=true → j ∈ S) ∧
      ∀ j ∈ S, ∀ a ∈ C.childAUMs j, X.hash a ∈ S := by
  have hidem (w : RetainState) : w.setLeaf.setLeaf=w.setLeaf := rfl
  have hscan := scanAll_invariant (motive := fun pending w => ∃ S : Set AUMHash, Marks .setLeaf S v w ∧
      (∀ j, j ∈ S ∨ j ∈ pending → P j) ∧ (∀ j, (entry v j).retained=true → j ∈ S ∨ j ∈ pending) ∧
      ∀ j ∈ S, ∀ a ∈ C.childAUMs j, X.hash a ∈ S ∨ X.hash a ∈ pending) ?_ ?_ h
  · obtain ⟨S,hmarks,hSP,hall,hclosed⟩ := hscan
    refine ⟨S,hmarks,fun j hj => hSP j (.inl hj),fun j hj => ?_,fun j hj a ha => ?_⟩
    · exact (hall j hj).resolve_right not_mem_nil
    · exact (hclosed j hj a ha).resolve_right not_mem_nil
  · rintro k pending w w' added ⟨S,hmarks,hSP,hall,hclosed⟩ hvisit
    rw [markDescendant] at hvisit
    split at hvisit
    · next hk =>
      cases hvisit
      have hkS : k ∈ S := by
        refine ((hmarks.flag leaf (fun _ => rfl) k).mp hk).resolve_right ?_
        rw [hleaf k]
        exact Bool.false_ne_true
      have hdrop {j : AUMHash} (hj : j ∈ S ∨ j ∈ k::pending) : j ∈ S ∨ j ∈ pending++[] := by
        rw [append_nil]
        rcases hj with hj | hj
        · exact .inl hj
        · rcases mem_cons.mp hj with rfl | hj
          · exact .inl hkS
          · exact .inr hj
      refine ⟨S,hmarks,fun j hj => hSP j ?_,fun j hj => hdrop (hall j hj),fun j hj a ha => hdrop (hclosed j hj a ha)⟩
      rw [append_nil] at hj
      exact hj.imp_right (mem_cons_of_mem k)
    · cases hvisit
      have hmove {j : AUMHash} (hj : j ∈ S ∨ j ∈ k::pending) :
          j ∈ insert k S ∨ j ∈ pending++(C.childAUMs k).map X.hash := by
        rcases hj with hj | hj
        · exact .inl (.inr hj)
        · rcases mem_cons.mp hj with rfl | hj
          · exact .inl (.inl rfl)
          · exact .inr (mem_append_left _ hj)
      refine ⟨insert k S,hmarks.insert hidem k,fun j hj => ?_,fun j hj => hmove (hall j hj),fun j hj a ha => ?_⟩
      · rcases hj with (rfl | hj) | hj
        · exact hSP j (.inr mem_cons_self)
        · exact hSP j (.inl hj)
        · rcases mem_append.mp hj with hj | hj
          · exact hSP j (.inr (mem_cons_of_mem k hj))
          · obtain ⟨a,ha,rfl⟩ := mem_map.mp hj
            exact hchild k a ha
      · rcases hj with rfl | hj
        · exact .inr (mem_append_right _ (mem_map_of_mem ha))
        · exact hmove (hclosed j hj a ha)
  · refine ⟨∅,.refl _ v,fun j hj => ?_,fun j hj => .inr ?_,fun j hj => absurd hj (Set.notMem_empty j)⟩
    · exact hP j ((mem_keys_filter o _).mp (hj.resolve_left (Set.notMem_empty j))).2
    · exact (mem_keys_filter o _).mpr ⟨mem_of_retained hj,hj⟩

end

lemma Store.Kept.mem_allAUMs {X : Primitives} {U : Set AUM} {s : Store X} (hs : s.Kept U) (o : MapOrder)
    (h : AUMHash) : h ∈ s.allAUMs o ↔ ∃ a ∈ s.stored, X.hash a=h := by
  have hstored : (∃ a ∈ s.stored, X.hash a=h) ↔ ∃ a, s.aum h=some a := by
    constructor
    · rintro ⟨a,ha,rfl⟩
      exact ⟨a,hs.aum_hash ha⟩
    · rintro ⟨a,ha⟩
      exact ⟨a,⟨h,ha⟩,(hs.sound ha).1⟩
  cases s with
  | mem c =>
    rw [hstored]
    change h ∈ (range o c.aums).map Prod.fst ↔ ∃ a, c.aums.lookup h=some a
    rw [mem_map]
    constructor
    · rintro ⟨⟨h,a⟩,hm,rfl⟩
      exact ⟨a,(mem_range o c.aums h a).mp hm⟩
    · rintro ⟨a,ha⟩
      exact ⟨(h,a),(mem_range o c.aums h a).mpr ha,rfl⟩
  | fs c =>
    change h ∈ (c.scan o).map X.hash ↔ _
    rw [mem_map]
    exact exists_congr fun a => and_congr_left' (c.mem_scan o a)

lemma entry_start (l : List AUMHash) (h : AUMHash) :
    entry (l.foldl (fun m h => m.insert h {}) (∅ : Verdict)) h = {} ∧
      (h ∈ l.foldl (fun m h => m.insert h {}) (∅ : Verdict) ↔ h ∈ l) := by
  have hloop (l : List AUMHash) (m : Verdict) (hm : entry m h = {}) :
      entry (l.foldl (fun m h => m.insert h {}) m) h = {} ∧
        (h ∈ l.foldl (fun m h => m.insert h {}) m ↔ h ∈ l ∨ h ∈ m) := by
    induction l generalizing m with
    | nil => simp [hm]
    | cons k l ih =>
      have hk : entry (m.insert k {}) h = {} := by
        by_cases he : h=k
        · rw [entry,he,lookup_insert]
          rfl
        · rw [entry,lookup_insert_ne he]
          exact hm
      obtain ⟨hentry,hmem⟩ := ih (m.insert k {}) hk
      refine ⟨hentry,hmem.trans ?_⟩
      rw [mem_insert,mem_cons,← or_assoc,or_comm (a := h ∈ l)]
  obtain ⟨hentry,hmem⟩ := hloop l ∅ rfl
  refine ⟨hentry,hmem.trans (or_iff_left ?_)⟩
  exact notMem_empty h

/-- What is known before the scan for ancestors: the chain from the head to a checkpoint is marked as
active, what comes before the checkpoint is marked as a candidate, and the descendants of what is retained
are retained. -/
structure Prepared (X : Primitives) (C : Chonk) (A : Set AUM) (H : AUM) (v : Verdict) (k : ℕ) (c : AUM) : Prop where
  chain : walk C.back k H=some c
  checkpoint : c.messageKind=.checkpoint
  mem : ∀ a ∈ A, X.hash a ∈ v
  stored : ∀ h, (entry v h).retained=true → ∃ a ∈ A, X.hash a=h
  active : ∀ h, (entry v h).active=true ↔ h ∈ Passed X C H (k+1)
  candidate : ∀ h, (entry v h).candidate=true → h ∈ Named C c
  candidates : C.back c≠none → ∀ h ∈ Named C c, (entry v h).candidate=true
  ancestor : ∀ h, (entry v h).ancestor=false
  descendants : ∀ a ∈ A, (entry v (X.hash a)).retained=true → ∀ b ∈ A, b.parent=some (X.hash a) →
    (entry v (X.hash b)).retained=true

section
variable {X : Primitives} {U : Set AUM} {B : AUM} {A : Set AUM} (hA : Grounded X U B B A) {storage : Store X}
  {C : Chonk} (hC : C.Reads X A storage.names)
include hA hC

variable {v v' : Verdict}

lemma Grounded.of_markToTarget {n : ℕ} {a c : AUM} (ha : a ∈ A)
    (h : markToTarget X C n v a=.ok (v',c)) : ∃ m, walk C.back m a=some c ∧ c.messageKind=.checkpoint ∧
      Marks .setActive (Passed X C a (m+1)) v v' := by
  have hidem (w : RetainState) : w.setActive.setActive=w.setActive := rfl
  induction n generalizing v a with
  | zero => cases h
  | succ n ih =>
    rw [markToTarget] at h
    have hmark := marks_mark setActive v (X.hash a)
    split at h
    · next hstop =>
      cases h
      refine ⟨0,rfl,hstop.1,?_⟩
      rw [passed_one]
      exact hmark
    · next hgo =>
      cases hp : a.parent with
      | none =>
        exfalso
        refine hgo ⟨?_,.inr hp⟩
        by_cases haB : a=B
        · rw [haB]
          exact hA.checkpoint
        · obtain ⟨b,-,hb⟩ := hA.closed a ha haB
          cases hp.symm.trans hb
      | some p =>
        rw [hp,Option.getD_some] at h
        dsimp only at h
        split at h
        · cases h
        · next b hb =>
          have hback := (back_of_parent hp).trans hb
          obtain ⟨m,hm,hkind,hrest⟩ := ih (hC.back_eq_some.mp hback).1 h
          refine ⟨m+1,(walk_succ_of hback m).trans hm,hkind,?_⟩
          rw [passed_succ hback]
          exact hmark.trans hidem hrest

variable {fuel : ℕ} {minChain : ℤ} {H : AUM} {j : AUMHash}

/-- The active chain is marked up to a checkpoint. What comes before it is marked unless there is nothing. -/
theorem Grounded.of_markActiveChain (hH : H ∈ A)
    (h : markActiveChain X C fuel v minChain (X.hash H)=.ok (v',j)) :
    ∃ k c w, walk C.back k H=some c ∧ c.messageKind=.checkpoint ∧ j=X.hash c ∧
      Marks .setActive (Passed X C H (k+1)) v w ∧
      (C.back c=none ∧ v'=w ∨ Marks .setCandidate (Named C c) w v') := by
  have hidem (w : RetainState) : w.setActive.setActive=w.setActive := rfl
  rw [markActiveChain,(hC.aum_eq_some _ H).mpr ⟨hH,rfl⟩] at h
  dsimp only at h
  obtain ⟨⟨w,r⟩,hr⟩ : ∃ r, markMinChain X C minChain.toNat v H=r := ⟨_,rfl⟩
  rw [hr] at h
  rcases of_markMinChain hr with ⟨m,c,hm,rfl,hmarks⟩ | ⟨b,hb,rfl,hmarks⟩
  · cases h
    have hcB : c=B := by
      by_contra hne
      obtain ⟨b,hb,hp⟩ := hA.closed c (hC.mem_of_walk hH hm.1) hne
      cases hm.2.symm.trans (hC.back_eq_some.mpr ⟨hb,hp⟩)
    exact ⟨m,c,_,hm.1,hcB ▸ hA.checkpoint,rfl,hmarks,.inl ⟨hm.2,rfl⟩⟩
  · obtain ⟨⟨w',c⟩,hc,h⟩ := bind_eq_ok.mp h
    obtain ⟨w'',hw,h⟩ := bind_eq_ok.mp h
    cases h
    obtain ⟨m,hm,hkind,hrest⟩ := hA.of_markToTarget hC (hC.mem_of_walk hH hb) hc
    refine ⟨minChain.toNat+m,c,w',(walk_trans hb m).trans hm,hkind,rfl,?_,.inr (marks_of_markCandidates hw)⟩
    rw [Nat.add_assoc,← passed_add hb]
    exact hmarks.trans hidem hrest

variable (hU : Set.InjOn X.hash U) {rank : AUM → ℕ}
  (hrank : Ranked X U rank)
include hU hrank

lemma Grounded.prepared {l : List AUMHash} (hl : ∀ h, h ∈ l ↔ ∃ a ∈ A, X.hash a=h)
    {o o' : MapOrder} {commitTime : AUMHash → Option ℤ} {now minAge : ℤ} {v1 v2 v3 : Verdict}
    (hH : H ∈ A)
    (h1 : markYoungAUMs o commitTime now minAge (l.foldl (fun m h => m.insert h {}) ∅)=.ok v1)
    (h2 : markActiveChain X C fuel v1 minChain (X.hash H)=.ok (v2,j))
    (h3 : markDescendantAUMs X C fuel o' v2=.ok v3) : ∃ k c, j=X.hash c ∧ Prepared X C A H v3 k c := by
  obtain ⟨v0,hv0⟩ : ∃ v0 : Verdict, l.foldl (fun m h => m.insert h {}) ∅ = v0 := ⟨_,rfl⟩
  have hstart (h : AUMHash) : entry v0 h = {} ∧ (h ∈ v0 ↔ h ∈ l) := hv0 ▸ entry_start l h
  rw [hv0] at h1
  obtain ⟨S,hS,hyoung⟩ := marks_of_markYoung h1
  obtain ⟨k,c,w,hk,hkind,hj,hactive,hcandidate⟩ := hA.of_markActiveChain hC hH h2
  have hin : ∀ h ∈ S, ∃ a ∈ A, X.hash a=h := by
    intro h hh
    obtain ⟨⟨h,x⟩,hx,rfl⟩ := mem_map.mp (hS h hh)
    exact (hl _).mp ((hstart _).2.mp ((mem_keys_range o v0 _ _).mp hx).1)
  have hpassed : ∀ h ∈ Passed X C H (k+1), ∃ a ∈ A, X.hash a=h := by
    rintro h ⟨i,-,x,hx,rfl⟩
    exact ⟨x,hC.mem_of_walk hH hx,rfl⟩
  have hw (h : AUMHash) : (entry w h).leaf=false ∧ (entry w h).ancestor=false ∧
      (entry w h).candidate=false ∧ ((entry w h).active=true ↔ h ∈ Passed X C H (k+1)) ∧
      ((entry w h).young=true ↔ h ∈ S) ∧ (h ∈ w ↔ h ∈ l ∨ h ∈ S ∨ h ∈ Passed X C H (k+1)) := by
    refine ⟨?_,?_,?_,?_,?_,?_⟩
    · rw [hactive.field leaf fun _ => rfl,hyoung.field leaf fun _ => rfl, (hstart h).1]
    · rw [hactive.field RetainState.ancestor fun _ => rfl, hyoung.field RetainState.ancestor fun _ => rfl,(hstart h).1]
    · rw [hactive.field RetainState.candidate fun _ => rfl,
        hyoung.field RetainState.candidate fun _ => rfl,(hstart h).1]
    · rw [hactive.flag RetainState.active (fun _ => rfl), hyoung.field RetainState.active fun _ => rfl,(hstart h).1]
      simp
    · rw [hactive.field young fun _ => rfl, hyoung.flag young (fun _ => rfl),(hstart h).1]
      simp
    · rw [hactive.mem,hyoung.mem,(hstart h).2,or_assoc]
  have hret (x : RetainState) : x.retained=true ↔ x.active=true ∨ x.young=true ∨ x.leaf=true ∨ x.ancestor=true := by
    simp [retained,or_assoc]
  have hv2 (h : AUMHash) : (entry v2 h).active=(entry w h).active ∧ (entry v2 h).young=(entry w h).young ∧
      (entry v2 h).leaf=(entry w h).leaf ∧ (entry v2 h).ancestor=(entry w h).ancestor ∧
      ((entry v2 h).candidate=true → h ∈ Named C c) ∧
      (C.back c≠none → h ∈ Named C c → (entry v2 h).candidate=true) ∧ (h ∈ w → h ∈ v2) := by
    rcases hcandidate with ⟨hnone,rfl⟩ | hmarks
    · refine ⟨rfl,rfl,rfl,rfl,fun hc => ?_,fun hne => absurd hnone hne,id⟩
      cases (hw h).2.2.1.symm.trans hc
    · refine ⟨hmarks.field RetainState.active (fun _ => rfl) h, hmarks.field young (fun _ => rfl) h,
        hmarks.field leaf (fun _ => rfl) h,
        hmarks.field RetainState.ancestor (fun _ => rfl) h,fun hc => ?_,fun _ hn => ?_,fun hh => ?_⟩
      · refine ((hmarks.flag RetainState.candidate (fun _ => rfl) h).mp hc).resolve_right fun hc => ?_
        cases (hw h).2.2.1.symm.trans hc
      · exact (hmarks.flag RetainState.candidate (fun _ => rfl) h).mpr (.inl hn)
      · exact (hmarks.mem h).mpr (.inl hh)
  have hstored2 (h : AUMHash) (hh : (entry v2 h).retained=true) : ∃ a ∈ A, X.hash a=h := by
    obtain ⟨ha,hy,hlf,han,-⟩ := hv2 h
    obtain ⟨hlf',han',-,ha',hy',-⟩ := hw h
    rw [hret,ha,hy,hlf,han,hlf',han',ha',hy'] at hh
    rcases hh with hh | hh | hh | hh
    · exact hpassed h hh
    · exact hin h hh
    · cases hh
    · cases hh
  obtain ⟨T,hleaf,hT,hall,hclosed⟩ := marks_of_markDescendantAUMs
    (fun h => (hv2 h).2.2.1.trans (hw h).1) hstored2
    (fun h a ha => ⟨a,((hC.mem_childAUMs h a).mp ha).1,rfl⟩) h3
  have hret3 (h : AUMHash) : (entry v3 h).retained=true ↔ h ∈ T := by
    constructor
    · intro hh
      by_contra hnot
      rw [hleaf.outside h hnot] at hh
      exact hnot (hall h hh)
    · intro hh
      rw [hret,hleaf.inside h hh]
      exact .inr (.inr (.inl rfl))
  refine ⟨k,c,hj,hk,hkind,?_,?_,?_,?_,?_,?_,?_⟩
  · intro a ha
    refine (hleaf.mem _).mpr (.inl ((hv2 _).2.2.2.2.2.2 ?_))
    exact (hw _).2.2.2.2.2.mpr (.inl ((hl _).mpr ⟨a,ha,rfl⟩))
  · exact fun h hh => hT h ((hret3 h).mp hh)
  · intro h
    rw [hleaf.field RetainState.active (fun _ => rfl),(hv2 h).1]
    exact (hw h).2.2.2.1
  · intro h hh
    rw [hleaf.field RetainState.candidate (fun _ => rfl)] at hh
    exact (hv2 h).2.2.2.2.1 hh
  · intro hne h hh
    rw [hleaf.field RetainState.candidate (fun _ => rfl)]
    exact (hv2 h).2.2.2.2.2.1 hne hh
  · intro h
    rw [hleaf.field RetainState.ancestor (fun _ => rfl),(hv2 h).2.2.2.1]
    exact (hw h).2.1
  · intro a ha hh b hb hp
    rw [hret3] at hh ⊢
    exact hclosed _ hh b ((hC.mem_childAUMs _ b).mpr ⟨hb,(hA.names_iff hU hrank storage ha hb).mpr hp⟩)

end

end TunnnejiTail.Tka
