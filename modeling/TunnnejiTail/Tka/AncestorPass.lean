import TunnnejiTail.Tka.ActivePass

/-! The pass of a compaction that goes back from everything that is retained. It may move the ancestor
back, and then the active chain from the new one on is retained as well. -/
namespace TunnnejiTail.Tka
open Go List Option Bool Nat RetainState

variable {X : Primitives} {U : Set AUM} {B : AUM} {A : Set AUM} {rank : AUM → ℕ} {storage : Store X}
  {C : Chonk} {H : AUM} {v : Verdict} {k : ℕ} {pending : List AUMHash} {s : AncestorScan} {S : Set AUMHash}
  {i : ℕ} {h : AUMHash}

/-- The digests of the messages strictly between two places on the way back. -/
def Between (X : Primitives) (C : Chonk) (H : AUM) (k m : ℕ) : Set AUMHash :=
  {h | ∃ i, k < i ∧ i < m ∧ ∃ x, walk C.back i H=some x ∧ X.hash x=h}

lemma between_self {X : Primitives} {C : Chonk} {H : AUM} (k : ℕ) : Between X C H k (k+1)=∅ := by
  refine Set.eq_empty_iff_forall_notMem.mpr ?_
  rintro h ⟨i,hki,him,-⟩
  omega

lemma between_succ {X : Primitives} {C : Chonk} {H x : AUM} {k m : ℕ} (hkm : k < m)
    (hx : walk C.back m H=some x) : Between X C H k (m+1)=insert (X.hash x) (Between X C H k m) := by
  refine Set.ext fun h => ⟨?_,?_⟩
  · rintro ⟨i,hki,him,y,hy,rfl⟩
    by_cases hi : i=m
    · subst hi
      cases hx.symm.trans hy
      exact .inl rfl
    · exact .inr ⟨i,hki,by omega,y,hy,rfl⟩
  · rintro (rfl | ⟨i,hki,him,y,hy,rfl⟩)
    · exact ⟨m,hkm,lt_succ_self m,x,hx,rfl⟩
    · exact ⟨i,hki,by omega,y,hy,rfl⟩

lemma setAncestor_idem (w : RetainState) : w.setAncestor.setAncestor=w.setAncestor := rfl

variable {S : Set AUMHash}

lemma retained_iff {v w : Verdict} (h : Marks .setAncestor S v w) (j : AUMHash) :
    (entry w j).retained=true ↔ (entry v j).retained=true ∨ j ∈ S := by
  by_cases hj : j ∈ S
  · rw [h.inside j hj]
    simp [setAncestor,RetainState.retained,hj]
  · rw [h.outside j hj]
    simp [hj]

variable (hA : Grounded X U B B A) (hU : Set.InjOn X.hash U) (hrank : Ranked X U rank)
  (hC : C.Reads X A storage.names) (hH : H ∈ A)

section
variable {c : AUM} (hv : Prepared X C A H v k c)
include hA hU hrank hC hH hv

omit hA hU hrank hH in
lemma Prepared.exists_place {a : AUM} (ha : a ∈ A) (h : (entry v (X.hash a)).candidate=true) :
    ∃ i, k < i ∧ walk C.back i H=some a := by
  obtain ⟨i,z,hz,hp⟩ := hv.candidate _ h
  refine ⟨k+i+1,by omega,walk_succ_eq_some_last.mpr ⟨z,(walk_trans hv.chain i).trans hz,?_⟩⟩
  exact hC.back_eq_some.mpr ⟨ha,hp⟩

omit hA hU hrank hH in
lemma Prepared.candidate_of_place {i : ℕ} {a : AUM} (hi : k < i) (ha : walk C.back i H=some a) :
    (entry v (X.hash a)).candidate=true := by
  obtain ⟨j,rfl⟩ := Nat.exists_eq_add_of_lt hi
  obtain ⟨z,hz,hback⟩ := walk_succ_eq_some_last.mp ha
  have hzc : walk C.back j c=some z := (walk_trans hv.chain j).symm.trans hz
  refine hv.candidates ?_ _ ⟨j,z,hzc,(hC.back_eq_some.mp hback).2⟩
  cases j with
  | zero =>
    cases hzc
    rw [hback]
    exact some_ne_none a
  | succ j =>
    obtain ⟨y,hy,-⟩ := walk_succ_eq_some.mp hzc
    rw [hy]
    exact some_ne_none y

lemma Prepared.marks_of_childLoop {n : ℕ} {w w' : Verdict} (hw : Marks .setAncestor S v w)
    {m : ℕ} (hm : k < m) {y : AUM} (hy : walk C.back m H=some y)
    (h : childLoop X C n w (X.hash y)=.ok w') : Marks .setAncestor (Between X C H k m) w w' := by
  induction n generalizing w S m y with
  | zero => cases h
  | succ n ih =>
    obtain ⟨m,rfl⟩ := exists_eq_succ_of_ne_zero (zero_lt_of_lt hm).ne'
    obtain ⟨x,hx,hback⟩ := walk_succ_eq_some_last.mp hy
    have hyA := hC.mem_of_walk hH hy
    have hxA := hC.mem_of_walk hH hx
    have hflags (j : AUMHash) : (entry w j).candidate=(entry v j).candidate ∧ (entry w j).active=(entry v j).active :=
      ⟨hw.field RetainState.candidate (fun _ => rfl) j,hw.field RetainState.active (fun _ => rfl) j⟩
    have hinj {i i' : ℕ} {z : AUM} := walk_injective (m := i) (n := i') (b := z)
      (hC.rank_back (hA.rank_lt hrank)) hH
    have hfound {a : AUM} (ha : a ∈ C.childAUMs (X.hash y))
        (hcand : (entry v (X.hash a)).candidate=true) : a=x ∧ k < m := by
      obtain ⟨haA,hnames⟩ := (hC.mem_childAUMs _ a).mp ha
      obtain ⟨i,hi,hwalk⟩ := hv.exists_place hC haA hcand
      have hnext := walk_succ_eq_some_last.mpr ⟨a,hwalk,hC.back_eq_some.mpr ⟨hyA,Store.parent_of_names hnames⟩⟩
      have he : i=m := Nat.succ.inj (hinj hnext hy)
      subst he
      exact ⟨some.inj (hwalk.symm.trans hx),hi⟩
    rw [childLoop] at h
    split at h
    · next hnone =>
      cases h
      have hkm : ¬ k < m := by
        intro hkm
        have hcand := hv.candidate_of_place hC hkm hx
        have hactive : (entry v (X.hash x)).active=false := by
          rw [← not_eq_true,hv.active]
          rintro ⟨i,hi,z,hz,he⟩
          cases hC.injOn (hC.mem_of_walk hH hz) hxA he
          have := hinj hz hx
          omega
        have hchild := (hC.mem_childAUMs (X.hash y) x).mpr
          ⟨hxA,(hA.names_iff hU hrank storage hyA hxA).mpr (hC.back_eq_some.mp hback).2⟩
        refine find?_eq_none.mp hnone x hchild ?_
        rw [(hflags _).1,(hflags _).2,hcand,hactive]
        rfl
      have he : m=k := by omega
      rw [he,between_self]
      exact .refl _ _
    · next a ha =>
      have hcand := (and_eq_true_iff.mp (find?_some ha :)).1
      rw [(hflags _).1] at hcand
      obtain ⟨rfl,hkm⟩ := hfound (mem_of_find?_eq_some ha) hcand
      have hrest := ih (hw.insert setAncestor_idem (X.hash a)) hkm hx h
      rw [between_succ hkm hx]
      exact (marks_mark setAncestor w (X.hash a)).trans setAncestor_idem hrest

end

def Kept (v : Verdict) (S : Set AUMHash) (h : AUMHash) : Prop := (entry v h).retained=true ∨ h ∈ S

lemma Kept.mono {v : Verdict} {S T : Set AUMHash} {h : AUMHash} (hST : S ⊆ T) (hh : Kept v S h) : Kept v T h :=
  hh.imp_right (hST ·)

/-- What the scan keeps as long as its ancestor is stored. The ancestor is on the active chain, and the
chain is retained up to it. Every message that is marked is the ancestor, or its parent is retained or
still to be visited. -/
structure Scanned (X : Primitives) (C : Chonk) (A : Set AUM) (H : AUM) (v : Verdict) (k : ℕ) (c : AUM)
    (pending : List AUMHash) (s : AncestorScan) (S : Set AUMHash) (i : ℕ) (d : AUM) : Prop where
  marks : Marks .setAncestor S v s.verdict
  chain : walk C.back i H=some d
  ancestor : X.hash d=s.candidateAncestor
  le : k ≤ i
  still : s.didAdjustCandidateAncestor=false → i=k
  path : ∀ j ≤ i, ∀ x, walk C.back j H=some x → Kept v S (X.hash x)
  stored : ∀ h ∈ S, ∃ a ∈ A, X.hash a=h
  parents : ∀ a ∈ A, X.hash a ∈ S → a=d ∨ ∃ p, a.parent=some p ∧ (Kept v S p ∨ p ∈ pending)
  visited : ∀ h ∈ pending, h ∈ S ∨ h≠X.hash c ∧ ((entry v h).retained=true ∨ (entry v h).candidate=false)
  all : ∀ h, (entry v h).retained=true → h ∈ S ∨ h=X.hash c ∨ h ∈ pending

/-- The ancestor was moved to before everything that is stored. The pass is going to fail. -/
structure Strayed (X : Primitives) (C : Chonk) (A : Set AUM) (s : AncestorScan) : Prop where
  adjusted : s.didAdjustCandidateAncestor=true
  ancestor : C.aum s.candidateAncestor=none
  all : ∀ a ∈ A, (entry s.verdict (X.hash a)).retained=true

section

lemma exists_marks_of_childLoop {n : ℕ} {w w' : Verdict} {p : AUMHash} (h : childLoop X C n w p=.ok w') :
    ∃ S, Marks .setAncestor S w w' := by
  induction n generalizing w p with
  | zero => cases h
  | succ n ih =>
    rw [childLoop] at h
    split at h
    · cases h
      exact ⟨∅,.refl _ _⟩
    · next a ha =>
      obtain ⟨S,hS⟩ := ih h
      exact ⟨_,(marks_mark setAncestor w (X.hash a)).trans setAncestor_idem hS⟩

section
variable {n : ℕ} {s s' : AncestorScan} {h : AUMHash} {added : List AUMHash}
  (hvisit : scanAncestor X C n s h=.ok (s',added))
include hvisit

lemma of_scanAncestor :
    ((entry s.verdict h).ancestor=true ∧ s'=s ∧ added=[]) ∨
    (entry s.verdict h).ancestor=false ∧ ∃ a p, C.aum h=some a ∧ a.parent=some p ∧
      ((entry (mark .setAncestor s.verdict h) p).retained=true ∧
          s' = { s with verdict := mark .setAncestor s.verdict h } ∧ added=[] ∨
        (entry (mark .setAncestor s.verdict h) p).retained=false ∧
          (entry (mark .setAncestor s.verdict h) p).candidate=true ∧ added=[p] ∧
          (∃ w, childLoop X C n (mark .setAncestor (mark .setAncestor s.verdict h) p) p=.ok w ∧ s'=⟨w,p,true⟩) ∨
        (entry (mark .setAncestor s.verdict h) p).retained=false ∧
          (entry (mark .setAncestor s.verdict h) p).candidate=false ∧
          s' = { s with verdict := mark .setAncestor s.verdict h } ∧ added=[p]) := by
  rw [scanAncestor] at hvisit
  split at hvisit
  · next hdone =>
    cases hvisit
    exact .inl ⟨hdone,rfl,rfl⟩
  · next hnew =>
    refine .inr ⟨eq_false_iff.mpr hnew,?_⟩
    dsimp only at hvisit
    split at hvisit
    · cases hvisit
    · next a ha =>
      split at hvisit
      · cases hvisit
      · next p hp =>
        refine ⟨a,p,ha,hp,?_⟩
        split at hvisit
        · next hret =>
          cases hvisit
          exact .inl ⟨hret,rfl,rfl⟩
        · next hret =>
          have hret := eq_false_iff.mpr hret
          split at hvisit
          · next hcand =>
            obtain ⟨w,hw,hvisit⟩ := bind_eq_ok.mp hvisit
            cases hvisit
            exact .inr (.inl ⟨hret,hcand,rfl,w,hw,rfl⟩)
          · next hcand =>
            cases hvisit
            exact .inr (.inr ⟨hret,eq_false_iff.mpr hcand,rfl,rfl⟩)

lemma Strayed.visit {A : Set AUM} {names : AUM → AUMHash → Prop} (hC : C.Reads X A names)
    (hs : Strayed X C A s) : Strayed X C A s' := by
  have hall (a : AUM) (ha : a ∈ A) : (entry (mark .setAncestor s.verdict h) (X.hash a)).retained=true :=
    (retained_iff (marks_mark setAncestor s.verdict h) _).mpr (.inl (hs.all a ha))
  rcases of_scanAncestor hvisit with ⟨-,rfl,-⟩ | ⟨-,a,p,ha,hp,hcases⟩
  · exact hs
  · rcases hcases with ⟨-,rfl,-⟩ | ⟨hret,-,-,w,hw,rfl⟩ | ⟨-,-,rfl,-⟩
    · exact ⟨hs.adjusted,hs.ancestor,hall⟩
    · obtain ⟨S,hS⟩ := exists_marks_of_childLoop hw
      refine ⟨rfl,eq_none_iff_forall_ne_some.mpr fun b hb => ?_,fun b hb => (retained_iff hS _).mpr (.inl ?_)⟩
      · obtain ⟨hbA,rfl⟩ := (hC.aum_eq_some p b).mp hb
        exact eq_false_iff.mp hret (hall b hbA)
      · exact (retained_iff (marks_mark setAncestor _ p) _).mpr (.inl (hall b hb))
    · exact ⟨hs.adjusted,hs.ancestor,hall⟩

end

variable {c d : AUM} (hs : Scanned X C A H v k c (h::pending) s S i d)
include hs

lemma Scanned.drop (hh : h ∈ S) :
    Scanned X C A H v k c pending s S i d := by
  refine { hs with parents := fun a ha haS => ?_, visited := fun j hj => ?_, all := fun j hj => ?_ }
  · refine (hs.parents a ha haS).imp_right ?_
    rintro ⟨p,hp,hpp⟩
    refine ⟨p,hp,?_⟩
    rcases hpp with hpp | hpp
    · exact .inl hpp
    · rcases mem_cons.mp hpp with rfl | hpp
      · exact .inl (.inr hh)
      · exact .inr hpp
  · exact hs.visited j (mem_cons_of_mem h hj)
  · rcases hs.all j hj with hj | hj | hj
    · exact .inl hj
    · exact .inr (.inl hj)
    · rcases mem_cons.mp hj with rfl | hj
      · exact .inl hh
      · exact .inr (.inr hj)

variable {added : List AUMHash}

lemma Scanned.grow {s' : AncestorScan} {T : Set AUMHash}
    {i' : ℕ} {d' : AUM} (hST : S ⊆ T) (hh : h ∈ T)
    (hmarks : Marks .setAncestor T v s'.verdict) (hchain : walk C.back i' H=some d')
    (hancestor : X.hash d'=s'.candidateAncestor) (hle : k ≤ i')
    (hstill : s'.didAdjustCandidateAncestor=false → i'=k)
    (hpath : ∀ j ≤ i', ∀ x, walk C.back j H=some x → Kept v T (X.hash x))
    (hstored : ∀ h ∈ T, h ∉ S → ∃ a ∈ A, X.hash a=h)
    (hparents : ∀ a ∈ A, X.hash a ∈ T → X.hash a ∉ S ∨ a=d → a=d' ∨
      ∃ p, a.parent=some p ∧ (Kept v T p ∨ p ∈ added)) (hadded : ∀ j ∈ added, j ∈ T ∨
      j≠X.hash c ∧ ((entry v j).retained=true ∨ (entry v j).candidate=false)) :
    Scanned X C A H v k c (pending++added) s' T i' d' := by
  refine ⟨hmarks,hchain,hancestor,hle,hstill,hpath,fun j hj => ?_,fun a ha haT => ?_,fun j hj => ?_,fun j hj => ?_⟩
  · by_cases hjS : j ∈ S
    · exact hs.stored j hjS
    · exact hstored j hj hjS
  · have hnew (hcase : X.hash a ∉ S ∨ a=d) :
        a=d' ∨ ∃ p, a.parent=some p ∧ (Kept v T p ∨ p ∈ pending++added) := by
      refine (hparents a ha haT hcase).imp_right (Exists.imp fun p hp => hp.imp_right (Or.imp_right ?_))
      exact mem_append_right pending
    by_cases haS : X.hash a ∈ S
    · rcases hs.parents a ha haS with had | ⟨p,hp,hpp⟩
      · exact hnew (.inr had)
      · refine .inr ⟨p,hp,?_⟩
        rcases hpp with hpp | hpp
        · exact .inl (hpp.mono hST)
        · rcases mem_cons.mp hpp with rfl | hpp
          · exact .inl (.inr hh)
          · exact .inr (mem_append_left added hpp)
    · exact hnew (.inl haS)
  · rcases mem_append.mp hj with hj | hj
    · exact (hs.visited j (mem_cons_of_mem h hj)).imp_left (hST ·)
    · exact hadded j hj
  · rcases hs.all j hj with hj | hj | hj
    · exact .inl (hST hj)
    · exact .inr (.inl hj)
    · rcases mem_cons.mp hj with rfl | hj
      · exact .inl hh
      · exact .inr (.inr (mem_append_left added hj))

lemma Scanned.next (hinj : Set.InjOn X.hash A) {a : AUM}
    (ha : a ∈ A) (hah : X.hash a=h) {p : AUMHash} (hp : a.parent=some p)
    (hkept : Kept v (insert h S) p ∨ p ∈ added)
    (hadded : ∀ j ∈ added, j≠X.hash c ∧ ((entry v j).retained=true ∨ (entry v j).candidate=false)) :
    Scanned X C A H v k c (pending++added) { s with verdict := mark .setAncestor s.verdict h } (insert h S) i d := by
  refine hs.grow (Set.subset_insert h S) (Set.mem_insert h S) (hs.marks.insert setAncestor_idem h) hs.chain
    hs.ancestor hs.le hs.still (fun j hj x hx => (hs.path j hj x hx).mono (Set.subset_insert h S)) ?_ ?_
    fun j hj => .inr (hadded j hj)
  · rintro j (rfl | hj) hjS
    · exact ⟨a,ha,hah⟩
    · exact absurd hj hjS
  · rintro b hb hbT (hbS | hbd)
    · have hba : b=a := hinj hb ha ((hbT.resolve_right hbS).trans hah.symm)
      rw [hba]
      exact .inr ⟨p,hp,hkept⟩
    · exact .inl hbd

end

section
variable {c : AUM} (hv : Prepared X C A H v k c) {d : AUM}

include hv in
lemma Prepared.retained_of_place {j : ℕ} (hj : j≤k) {x : AUM} (hx : walk C.back j H=some x) :
    (entry v (X.hash x)).retained=true := by
  have hactive := (hv.active (X.hash x)).mpr ⟨j,lt_succ_of_le hj,x,hx,rfl⟩
  rw [RetainState.retained,hactive]
  rfl

section
include hA

variable {a : AUM}

omit hA in
lemma Chonk.Reads.aum_hash (hC : C.Reads X A storage.names) (ha : a ∈ A) : C.aum (X.hash a)=some a :=
  (hC.aum_eq_some _ a).mpr ⟨ha,rfl⟩

lemma Grounded.eq_root_of_none (hC : C.Reads X A storage.names) (ha : a ∈ A) {p : AUMHash}
    (hp : a.parent=some p) (hnone : C.aum p=none) : a=B := by
  by_contra hne
  obtain ⟨b,hb,hpb⟩ := hA.closed a ha hne
  rw [some.inj (hp.symm.trans hpb),hC.aum_hash hb] at hnone
  cases hnone

include hrank hv in
lemma Prepared.retained_of_root (hB : (entry v (X.hash B)).retained=true) (ha : a ∈ A) :
    (entry v (X.hash a)).retained=true := by
  induction hr : rank a using Nat.strong_induction_on generalizing a with
  | _ r ih =>
    by_cases haB : a=B
    · rw [haB]
      exact hB
    · obtain ⟨b,hb,hp⟩ := hA.closed a ha haB
      exact hv.descendants b hb (ih (rank b) (hr ▸ hA.rank_lt hrank a ha b hb hp) hb rfl) a ha hp

end

include hA hU hrank hC hH hv

section
variable (hs : Scanned X C A H v k c (h::pending) s S i d) {n : ℕ}
include hs

lemma Scanned.move {a : AUM} (ha : a ∈ A) (hah : X.hash a=h)
    {y : AUM} (hp : a.parent=some (X.hash y)) (hyA : y ∈ A)
    (hret : (entry (mark .setAncestor s.verdict h) (X.hash y)).retained=false)
    (hcand : (entry v (X.hash y)).candidate=true) {w : Verdict}
    (hw : childLoop X C n (mark .setAncestor (mark .setAncestor s.verdict h) (X.hash y)) (X.hash y)=.ok w) :
    ∃ T m, Scanned X C A H v k c (pending++[X.hash y]) ⟨w,X.hash y,true⟩ T m y := by
  obtain ⟨m,hm,hy⟩ := hv.exists_place hC hyA hcand
  have hmarks := (hs.marks.insert setAncestor_idem h).insert setAncestor_idem (X.hash y)
  have hloop := hv.marks_of_childLoop hA hU hrank hC hH hmarks hm hy hw
  have him : i < m := by
    by_contra hle
    refine eq_false_iff.mp hret ((retained_iff (hs.marks.insert setAncestor_idem h) _).mpr ?_)
    exact (hs.path m (not_lt.mp hle) y hy).mono (Set.subset_insert h S)
  obtain ⟨T,hT⟩ : ∃ T, T=insert (X.hash y) (insert h S) ∪ Between X C H k m := ⟨_,rfl⟩
  have hyT : X.hash y ∈ T := hT ▸ .inl (.inl rfl)
  have hhT : h ∈ T := hT ▸ .inl (.inr (.inl rfl))
  have hpath : ∀ j ≤ m, ∀ x, walk C.back j H=some x → Kept v T (X.hash x) := by
    intro j hj x hx
    by_cases hjk : j≤k
    · exact .inl (hv.retained_of_place hjk hx)
    · rcases hj.lt_or_eq with hjm | rfl
      · exact .inr (hT ▸ .inr ⟨j,not_le.mp hjk,hjm,x,hx,rfl⟩)
      · cases hy.symm.trans hx
        exact .inr hyT
  have hnext : ∀ j < m, ∀ x, walk C.back j H=some x → ∃ p, x.parent=some p ∧ Kept v T p := by
    intro j hj x hx
    obtain ⟨l,rfl⟩ := Nat.exists_eq_add_of_lt hj
    rw [Nat.add_assoc,walk_trans hx] at hy
    obtain ⟨z,hz,-⟩ := walk_succ_eq_some.mp hy
    exact ⟨X.hash z,(hC.back_eq_some.mp hz).2,hpath (j+1) (by omega) z (walk_succ_eq_some_last.mpr ⟨x,hx,hz⟩)⟩
  have hsub : S ⊆ T := fun j hj => hT ▸ .inl (.inr (.inr hj))
  refine ⟨T,m,hs.grow hsub hhT (hT ▸ hmarks.trans setAncestor_idem hloop) hy rfl hm.le
    (fun hfalse => by cases hfalse) hpath ?_ ?_ ?_⟩
  · intro j hj hjS
    rw [hT] at hj
    rcases hj with (rfl | rfl | hj) | ⟨_,-,-,x,hx,rfl⟩
    · exact ⟨y,hyA,rfl⟩
    · exact ⟨a,ha,hah⟩
    · exact absurd hj hjS
    · exact ⟨x,hC.mem_of_walk hH hx,rfl⟩
  · rintro b hb hbT hcase
    have hchain (j : ℕ) (hj : j < m) (hwalk : walk C.back j H=some b) :
        b=y ∨ ∃ p, b.parent=some p ∧ (Kept v T p ∨ p ∈ [X.hash y]) := by
      obtain ⟨p,hbp,hkept⟩ := hnext j hj b hwalk
      exact .inr ⟨p,hbp,.inl hkept⟩
    rcases hcase with hbS | rfl
    · rw [hT] at hbT
      rcases hbT with (hby | hbh | hj) | ⟨j,-,hj,x,hx,he⟩
      · exact .inl (hC.injOn hb hyA hby)
      · rw [hC.injOn hb ha (hbh.trans hah.symm)]
        exact .inr ⟨X.hash y,hp,.inl (.inr hyT)⟩
      · exact absurd hj hbS
      · rw [← hC.injOn (hC.mem_of_walk hH hx) hb he] at hchain ⊢
        exact hchain j hj hx
    · exact hchain i him hs.chain
  · intro j hj
    rw [List.mem_singleton.mp hj]
    exact .inl hyT

lemma Scanned.visit {s' : AncestorScan}
    {added : List AUMHash} (hvisit : scanAncestor X C n s h=.ok (s',added)) :
    (∃ T m e, Scanned X C A H v k c (pending++added) s' T m e) ∨ Strayed X C A s' := by
  have hmarks := hs.marks.insert setAncestor_idem h
  have hflag := hs.marks.flag RetainState.ancestor (fun _ => rfl) h
  rw [hv.ancestor,or_iff_left Bool.false_ne_true] at hflag
  rcases of_scanAncestor hvisit with ⟨hdone,rfl,rfl⟩ | ⟨hnew,a,p,ha,hp,hcases⟩
  · rw [append_nil]
    exact .inl ⟨S,i,d,hs.drop (hflag.mp hdone)⟩
  · obtain ⟨haA,hah⟩ := (hC.aum_eq_some h a).mp ha
    have hhS : h ∉ S := fun hh => eq_false_iff.mp hnew (hflag.mpr hh)
    obtain ⟨hhc,hdesc⟩ := (hs.visited h mem_cons_self).resolve_left hhS
    rcases hcases with ⟨hret,rfl,rfl⟩ | ⟨hret,hcand,rfl,w,hw,rfl⟩ | ⟨hret,hcand,rfl,rfl⟩
    · refine .inl ⟨_,i,d,hs.next hC.injOn haA hah hp (.inl ((retained_iff hmarks p).mp hret)) ?_⟩
      exact forall_mem_nil _
    · rw [hmarks.field RetainState.candidate fun _ => rfl] at hcand
      cases hy : C.aum p with
      | some y =>
        obtain ⟨hyA,rfl⟩ := (hC.aum_eq_some p y).mp hy
        obtain ⟨T,m,hT⟩ := hs.move hA hU hrank hC hH hv haA hah hp hyA hret hcand hw
        exact .inl ⟨T,m,y,hT⟩
      | none =>
        -- The parent is not stored, so that the first message was visited. It is before the checkpoint and
        -- was retained before the scan.
        obtain ⟨j,z,hz,hzp⟩ := hv.candidate p hcand
        have hzH := (walk_trans hv.chain j).trans hz
        have hzB := hA.eq_root_of_none hC (hC.mem_of_walk hH hzH) hzp hy
        have haB := hA.eq_root_of_none hC haA hp hy
        have hj : j≠0 := by
          rintro rfl
          cases hz
          exact hhc (by rw [← hah,haB,hzB])
        have hB : (entry v (X.hash B)).retained=true := by
          rw [← haB,hah]
          refine hdesc.resolve_right fun hfalse => ?_
          rw [← hah,haB,← hzB,hv.candidate_of_place hC (by omega) hzH] at hfalse
          cases hfalse
        obtain ⟨T,hT⟩ := exists_marks_of_childLoop hw
        refine .inr ⟨rfl,hy,fun b hb => (retained_iff hT _).mpr (.inl ?_)⟩
        exact (retained_iff (hmarks.insert setAncestor_idem p) _).mpr
          (.inl (hv.retained_of_root hA hrank hB hb))
    · refine .inl ⟨_,i,d,hs.next hC.injOn haA hah hp (.inr (mem_singleton_self p)) fun j hj => ?_⟩
      rw [List.mem_singleton.mp hj]
      rw [hmarks.field RetainState.candidate fun _ => rfl] at hcand
      refine ⟨?_,.inr hcand⟩
      rintro rfl
      refine eq_false_iff.mp hret ((retained_iff hmarks _).mpr (.inl ?_))
      exact hv.retained_of_place le_rfl hv.chain

end

omit hA hU hrank hC hH in
lemma Prepared.scanned (o : MapOrder) : Scanned X C A H v k c
    (((range o v).filter fun e => e.2.retained && decide (e.1≠X.hash c)).map Prod.fst) ⟨v,X.hash c,false⟩ ∅ k c := by
  refine ⟨.refl _ _,hv.chain,rfl,le_rfl,fun _ => rfl,fun j hj x hx => .inl (hv.retained_of_place hj hx),
    fun j hj => absurd hj (Set.notMem_empty j),fun a _ ha => absurd ha (Set.notMem_empty _),fun j hj => .inr ?_,
    fun j hj => .inr ?_⟩
  · obtain ⟨hret,hne⟩ := and_eq_true_iff.mp ((mem_keys_filter o _).mp hj).2
    exact ⟨of_decide_eq_true hne,.inl hret⟩
  · by_cases hjc : j=X.hash c
    · exact .inl hjc
    · have hcond := and_eq_true_iff.mpr ⟨hj,decide_eq_true hjc⟩
      exact .inr ((mem_keys_filter o _).mpr ⟨mem_of_retained hj,hcond⟩)

end

/-- What the passes of a compaction decide: a checkpoint on the active chain such that the chain from there
on is retained, and with every other message that is retained its parent. -/
structure Settled (X : Primitives) (C : Chonk) (A : Set AUM) (H : AUM) (v : Verdict) (i : ℕ) (N : AUM) : Prop where
  chain : walk C.back i H=some N
  checkpoint : N.messageKind=.checkpoint
  path : ∀ j ≤ i, ∀ x, walk C.back j H=some x → (entry v (X.hash x)).retained=true
  closed : ∀ a ∈ A, (entry v (X.hash a)).retained=true → a≠N →
    ∃ b ∈ A, a.parent=some (X.hash b) ∧ (entry v (X.hash b)).retained=true
  mem : ∀ a ∈ A, X.hash a ∈ v

section

lemma of_walkToCheckpoint {n : ℕ} {v v' : Verdict} {a : AUM} {j : AUMHash}
    (h : walkToCheckpoint X C n v a=.ok (v',j)) : ∃ m N, walk C.back m a=some N ∧
      N.messageKind=.checkpoint ∧ j=X.hash N ∧ Marks .setActive (Passed X C a (m+1)) v v' := by
  have hidem (w : RetainState) : w.setActive.setActive=w.setActive := rfl
  induction n generalizing v a with
  | zero => cases h
  | succ n ih =>
    rw [walkToCheckpoint] at h
    have hmark := marks_mark setActive v (X.hash a)
    split at h
    · next hkind =>
      cases h
      refine ⟨0,a,rfl,hkind,rfl,?_⟩
      rw [passed_one]
      exact hmark
    · cases hp : a.parent with
      | none =>
        rw [hp] at h
        cases h
      | some p =>
        rw [hp] at h
        dsimp only at h
        cases hb : C.aum p with
        | none =>
          rw [hb] at h
          cases h
        | some b =>
          rw [hb] at h
          have hback := (back_of_parent hp).trans hb
          obtain ⟨m,N,hm,hkind,hj,hrest⟩ := ih h
          refine ⟨m+1,N,(walk_succ_of hback m).trans hm,hkind,hj,?_⟩
          rw [passed_succ hback]
          exact hmark.trans hidem hrest

variable {names : AUM → AUMHash → Prop} (hC : C.Reads X A names) (hH : H ∈ A) {c : AUM}
  (hv : Prepared X C A H v k c) {d : AUM}
include hC hH hv

variable (hs : Scanned X C A H v k c [] s S i d)
include hs

lemma Scanned.closed {a : AUM} (ha : a ∈ A) (hret : Kept v S (X.hash a))
    (had : a≠d) : ∃ b ∈ A, a.parent=some (X.hash b) ∧ Kept v S (X.hash b) := by
  have hstored {p : AUMHash} (hp : a.parent=some p) (hkept : Kept v S p) :
      ∃ b ∈ A, a.parent=some (X.hash b) ∧ Kept v S (X.hash b) := by
    obtain ⟨b,hb,rfl⟩ := hkept.elim (hv.stored p) (hs.stored p)
    exact ⟨b,hb,hp,hkept⟩
  have hin (haS : X.hash a ∈ S) : ∃ b ∈ A, a.parent=some (X.hash b) ∧ Kept v S (X.hash b) := by
    obtain ⟨p,hp,hkept⟩ := (hs.parents a ha haS).resolve_left had
    exact hstored hp (hkept.resolve_right not_mem_nil)
  rcases hret with hret | haS
  · rcases hs.all _ hret with haS | hac | hnil
    · exact hin haS
    · -- The checkpoint that the scan began with. The ancestor has moved, and its parent is on the way.
      cases hC.injOn ha (hC.mem_of_walk hH hv.chain) hac
      have hki : k < i := by
        refine hs.le.lt_of_ne ?_
        rintro rfl
        exact had (some.inj (hv.chain.symm.trans hs.chain))
      obtain ⟨l,rfl⟩ := Nat.exists_eq_add_of_lt hki
      have hd := hs.chain
      rw [Nat.add_assoc,walk_trans hv.chain] at hd
      obtain ⟨z,hz,-⟩ := walk_succ_eq_some.mp hd
      exact hstored (hC.back_eq_some.mp hz).2 (hs.path (k+1) (by omega) z (walk_succ_eq_some_last.mpr ⟨c,hv.chain,hz⟩))
    · cases hnil
  · exact hin haS

lemma Scanned.settled
    (hstill : s.didAdjustCandidateAncestor=false) : Settled X C A H s.verdict i d := by
  refine ⟨hs.chain,?_,fun j hj x hx => ?_,fun a ha hret had => ?_,fun a ha => ?_⟩
  · cases hs.still hstill
    cases hv.chain.symm.trans hs.chain
    exact hv.checkpoint
  · exact (retained_iff hs.marks _).mpr (hs.path j hj x hx)
  · obtain ⟨b,hb,hp,hkept⟩ := hs.closed hC hH hv ha ((retained_iff hs.marks _).mp hret) had
    exact ⟨b,hb,hp,(retained_iff hs.marks _).mpr hkept⟩
  · exact (hs.marks.mem _).mpr (.inl (hv.mem a ha))

lemma Scanned.settled_of_walkToCheckpoint {n : ℕ} {v' : Verdict}
    {j : AUMHash} (h : walkToCheckpoint X C n s.verdict d=.ok (v',j)) :
    ∃ m N, j=X.hash N ∧ Settled X C A H v' m N := by
  obtain ⟨m,N,hm,hkind,rfl,hmarks⟩ := of_walkToCheckpoint h
  have hret (j : AUMHash) : (entry v' j).retained=true ↔ j ∈ Passed X C d (m+1) ∨ Kept v S j := by
    rw [hmarks.flag RetainState.retained (fun w => by simp [setActive,RetainState.retained]),
      retained_iff hs.marks,Kept]
  refine ⟨i+m,N,rfl,(walk_trans hs.chain m).trans hm,hkind,fun j hj x hx => (hret _).mpr ?_,fun a ha hreta haN => ?_,
    fun a ha => ?_⟩
  · by_cases hji : j ≤ i
    · exact .inr (hs.path j hji x hx)
    · obtain ⟨l,rfl⟩ := Nat.exists_eq_add_of_lt (not_le.mp hji)
      rw [Nat.add_assoc,walk_trans hs.chain] at hx
      exact .inl ⟨l+1,by omega,x,hx,rfl⟩
  · have hpassed {l : ℕ} (hl : l < m+1) (hwalk : walk C.back l d=some a) :
        ∃ b ∈ A, a.parent=some (X.hash b) ∧ (entry v' (X.hash b)).retained=true := by
      have hlm : l < m := by
        refine (le_of_lt_succ hl).lt_of_ne ?_
        rintro rfl
        exact haN (some.inj (hwalk.symm.trans hm))
      obtain ⟨r,rfl⟩ := Nat.exists_eq_add_of_lt hlm
      rw [Nat.add_assoc,walk_trans hwalk] at hm
      obtain ⟨z,hz,-⟩ := walk_succ_eq_some.mp hm
      obtain ⟨hzA,hp⟩ := hC.back_eq_some.mp hz
      exact ⟨z,hzA,hp,(hret _).mpr (.inl ⟨l+1,by omega,z,walk_succ_eq_some_last.mpr ⟨a,hwalk,hz⟩,rfl⟩)⟩
    rcases (hret _).mp hreta with ⟨l,hl,x,hx,he⟩ | hkept
    · cases hC.injOn (hC.mem_of_walk (hC.mem_of_walk hH hs.chain) hx) ha he
      exact hpassed hl hx
    · by_cases had : a=d
      · exact hpassed m.succ_pos (congrArg some had.symm)
      · obtain ⟨b,hb,hp,hkept⟩ := hs.closed hC hH hv ha hkept had
        exact ⟨b,hb,hp,(hret _).mpr (.inr hkept)⟩
  · exact (hmarks.mem _).mpr (.inl ((hs.marks.mem _).mpr (.inl (hv.mem a ha))))

end

section
include hA hU hrank hC hH

variable {fuel : ℕ} {j : AUMHash}

lemma Prepared.settled {v v' : Verdict} {k : ℕ} {c : AUM} (hv : Prepared X C A H v k c)
    {o : MapOrder} (h : markAncestorIntersectionAUMs X C fuel o v (X.hash c)=.ok (v',j)) :
    ∃ i N, j=X.hash N ∧ Settled X C A H v' i N := by
  rw [markAncestorIntersectionAUMs] at h
  obtain ⟨s,hscan,h⟩ := bind_eq_ok.mp h
  have hs := scanAll_invariant (motive := fun pending s =>
      (∃ T m e, Scanned X C A H v k c pending s T m e) ∨ Strayed X C A s) ?_ (.inl ⟨∅,k,c,hv.scanned o⟩) hscan
  · rcases hs with ⟨T,m,e,hs⟩ | hs
    · split at h
      · rw [← hs.ancestor,hC.aum_hash (hC.mem_of_walk hH hs.chain)] at h
        exact hs.settled_of_walkToCheckpoint hC hH hv h
      · next hstill =>
        cases h
        exact ⟨m,e,hs.ancestor.symm,hs.settled hC hH hv (eq_false_iff.mpr hstill)⟩
    · rw [if_pos hs.adjusted,hs.ancestor] at h
      cases h
  · rintro j pending s s' added (⟨T,m,e,hs⟩ | hs) hvisit
    · exact hs.visit hA hU hrank hC hH hv hvisit
    · exact .inr (hs.visit hvisit hC)

lemma Grounded.settled {os : CompactOrders} {commitTime : AUMHash → Option ℤ} {now : ℤ}
    {opts : CompactionOptions} {v : Verdict}
    (hl : ∀ h, h ∈ storage.allAUMs os.storage ↔ ∃ a ∈ A, X.hash a=h) (hC' : storage.chonk os.storage=C)
    (h : compactVerdict fuel os commitTime now storage (X.hash H) opts=.ok (v,j)) :
    ∃ i N, j=X.hash N ∧ Settled X C A H v i N := by
  rw [compactVerdict,hC'] at h
  dsimp only at h
  split at h
  · cases h
  · split at h
    · cases h
    · obtain ⟨v1,h1,h⟩ := bind_eq_ok.mp h
      obtain ⟨⟨v2,j2⟩,h2,h⟩ := bind_eq_ok.mp h
      obtain ⟨v3,h3,h⟩ := bind_eq_ok.mp h
      obtain ⟨k,c,rfl,hv⟩ := hA.prepared hC hU hrank hl hH (mapError_eq_ok.mp h1) (mapError_eq_ok.mp h2)
        (mapError_eq_ok.mp h3)
      exact hv.settled hA hU hrank hC hH (mapError_eq_ok.mp h)

end

end TunnnejiTail.Tka
