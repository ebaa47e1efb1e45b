import TunnnejiTail.Go.Keyed
import TunnnejiTail.Tka.Chain
import Mathlib.Data.List.Lex
import Mathlib.Data.Prod.Lex
import Mathlib.Logic.Relation

/-! Stores with the same messages lead to the same chain. A fork is resolved by a linear order on its
branches, and no other choice depends on the order in which a store lists its messages. -/
namespace TunnnejiTail.Tka
open Go TunnnejiTail.Types List Bool

variable {A : Set AUM}

structure Chonk.Holds (X : Primitives) (C : Chonk) (A : Set AUM) : Prop where
  aum_eq_some : ∀ h a, C.aum h=some a ↔ a ∈ A ∧ X.hash a=h
  nodup_childAUMs : ∀ b ∈ A, (C.childAUMs (X.hash b)).Nodup
  mem_childAUMs : ∀ b ∈ A, ∀ a, a ∈ C.childAUMs (X.hash b) ↔ a ∈ A ∧ a.parent=some (X.hash b)
  nodup_heads : C.heads.Nodup
  mem_heads : ∀ a, a ∈ C.heads ↔ a ∈ A ∧ ∀ b ∈ A, b.parent≠some (X.hash a)

lemma bytesLess_iff {a b : Bytes} : bytesLess a b=true ↔ a.map UInt8.toNat<b.map UInt8.toNat := by
  induction a generalizing b with
  | nil => cases b <;> simp [bytesLess]
  | cons x a ih =>
    cases b with
    | nil => simp [bytesLess]
    | cons y b =>
      rw [bytesLess,or_eq_true,and_eq_true,ih,map_cons,map_cons,cons_lt_cons_iff]
      simp [UInt8.lt_iff_toNat_lt,UInt8.toNat_inj]

lemma Raw32.ext_toNat {h h' : Raw32} (he : h.bytes.map UInt8.toNat=h'.bytes.map UInt8.toNat) : h=h' := by
  have hb : h.bytes=h'.bytes := map_injective_iff.mpr (fun _ _ => UInt8.toNat_inj.mp) he
  cases h
  cases h'
  cases hb
  rfl

section
variable (X : Primitives)

/-- The order by which a fork is resolved: more weight first, then a removal, then the digest. -/
def forkKey (c : AUM × UInt64) : Lex (ℕᵒᵈ × Lex (Bool × List ℕ)) :=
  toLex (OrderDual.toDual c.2.toNat, toLex (decide (c.1.messageKind≠.removeKey),(X.hash c.1).bytes.map UInt8.toNat))

lemma forkLess_iff (j i : AUM × UInt64) : forkLess X j i=true ↔ forkKey X j<forkKey X i := by
  rw [forkLess,forkKey,forkKey,Prod.Lex.toLex_lt_toLex]
  simp only [OrderDual.toDual_lt_toDual,Prod.Lex.toLex_lt_toLex,EmbeddingLike.apply_eq_iff_eq, UInt64.toNat_inj]
  by_cases hw : i.2=j.2
  · rw [if_neg (not_not.mpr hw),hw]
    by_cases hj : j.1.messageKind=.removeKey
    · by_cases hi : i.1.messageKind=.removeKey
      · simp [hj,hi,bytesLess_iff]
      · simp [hj,hi]
    · by_cases hi : i.1.messageKind=.removeKey
      · simp [hj,hi,Ne.symm hj]
      · simp [hj,hi,bytesLess_iff]
  · rw [if_pos hw]
    simp [Ne.symm hw,UInt64.lt_iff_toNat_lt]

lemma weight_eq_error {a : AUM} {st : State} {e : Fault} (h : a.weight st=.error e) : e=.panicked := by
  have hstep {acc : UInt64 × List KeyID} {sig : Signature} (h : AUM.weightStep st acc sig=.error e) :
      e=.panicked := by
    rw [AUM.weightStep] at h
    split at h
    · cases h
      rfl
    · split at h
      · cases h
      · cases h
        rfl
      · split at h <;> cases h
  rw [AUM.weight] at h
  cases hl : a.signatures.foldlM (AUM.weightStep st) (0,[]) with
  | ok acc =>
    rw [hl] at h
    cases h
  | error e' =>
    rw [hl] at h
    cases h
    obtain ⟨-,sig,-,t,-,-,ht⟩ := exists_of_foldlM_error hl
    exact hstep ht

lemma pickNextAUM_of_length {s : SliceSort} {st : State} {l : List AUM} (h : 2≤l.length) :
    pickNextAUM X s st l=(l.mapM fun a => (a.weight st).map fun w => (a,w)) >>= fun weighed =>
      (s.sort (forkLess X) weighed).head?.elim (.error .panicked) fun first => .ok first.1 := by
  match l with
  | [] => cases h
  | [_] => exact absurd h (by simp)
  | _::_::_ => rfl

lemma pickNextAUM_eq (s s' : SliceSort) (st : State) {l l' : List AUM} (hl : l.Perm l')
    (hinj : ∀ a ∈ l, ∀ b ∈ l, X.hash a=X.hash b → a=b) : pickNextAUM X s st l=pickNextAUM X s' st l' := by
  by_cases hlen : 2≤l.length
  · rw [pickNextAUM_of_length X hlen,pickNextAUM_of_length X (hl.length_eq ▸ hlen)]
    have hfail (a : AUM) (e : Fault) (h : (a.weight st).map (fun w => (a,w))=.error e) :
        e=.panicked := by
      cases ha : a.weight st with
      | ok w =>
        rw [ha] at h
        cases h
      | error e' =>
        rw [ha] at h
        cases h
        exact weight_eq_error ha
    rcases mapM_perm hfail hl with ⟨r,r',hr,hr',hperm⟩ | ⟨hr,hr'⟩
    · have hkey : ∀ c ∈ r, ∀ d ∈ r, forkKey X c=forkKey X d → c=d := by
        intro c hc d hd he
        obtain ⟨a,ha,hac⟩ := (mem_mapM_ok hr c).mp hc
        obtain ⟨b,hb,hbd⟩ := (mem_mapM_ok hr d).mp hd
        obtain ⟨w,hw,rfl⟩ := map_eq_ok.mp hac
        obtain ⟨w',hw',rfl⟩ := map_eq_ok.mp hbd
        have hhash : X.hash a=X.hash b :=
          Raw32.ext_toNat (congrArg (fun k => (ofLex (ofLex k).2).2) he)
        cases hinj a ha b hb hhash
        cases hw.symm.trans hw'
        rfl
      rw [hr,hr']
      refine congrArg (fun c : List (AUM × UInt64) => c.head?.elim _ _) ?_
      exact SliceSort.sort_eq_sort (forkKey X) (forkLess_iff X) s s' hperm hkey
    · rw [hr,hr']
      rfl
  · match l with
    | [] =>
      cases nil_perm.mp hl
      rfl
    | [a] =>
      cases singleton_perm.mp hl
      rfl
    | _::_::_ => simp at hlen

end

section
variable (X : Primitives) {s s' : SliceSort} {st st' : State} {l l' : List AUM} {a : AUM}

lemma mem_of_pickNextAUM (h : pickNextAUM X s st l=.ok a) : a ∈ l := by
  match l with
  | [] => cases h
  | [b] =>
    cases h
    exact mem_singleton_self _
  | b::c::l =>
    obtain ⟨weighed,hw,h⟩ := bind_eq_ok.mp h
    cases hhead : (s.sort (forkLess X) weighed).head? with
    | none =>
      rw [hhead] at h
      cases h
    | some first =>
      rw [hhead] at h
      cases h
      obtain ⟨a,ha,hfirst⟩ := (mem_mapM_ok hw first).mp ((s.perm _ _).mem_iff.mp (mem_of_head? hhead))
      obtain ⟨w,-,rfl⟩ := map_eq_ok.mp hfirst
      exact ha

lemma mem_of_advanceByPrimary (h : advanceByPrimary X s st l=.ok (some (a,st'))) : a ∈ l := by
  match l with
  | [] => cases h
  | b::l =>
    obtain ⟨a',ha',h⟩ := bind_eq_ok.mp h
    obtain ⟨st'',-,h⟩ := bind_eq_ok.mp h
    cases h
    exact mem_of_pickNextAUM X (mapError_eq_ok.mp ha')

lemma advanceByPrimary_eq (s s' : SliceSort) (st : State) (hl : l.Perm l')
    (hinj : ∀ a ∈ l, ∀ b ∈ l, X.hash a=X.hash b → a=b) :
    advanceByPrimary X s st l=advanceByPrimary X s' st l' := by
  match l,l' with
  | [],l' =>
    cases nil_perm.mp hl
    rfl
  | b::l,[] => cases hl.length_eq
  | b::l,b'::l' => rw [advanceByPrimary,advanceByPrimary,pickNextAUM_eq X s s' st hl hinj]

variable {path : List AUMHash}

lemma advanceByPath_eq (st : State) (hl : l.Perm l')
    (hone : ∀ a ∈ l, ∀ b ∈ l, X.hash a ∈ path → X.hash b ∈ path → a=b) :
    advanceByPath X path st l=advanceByPath X path st l' := by
  have hfind : (l.find? fun c => decide (X.hash c ∈ path))=l'.find? fun c => decide (X.hash c ∈ path) := by
    cases hf : l.find? fun c => decide (X.hash c ∈ path) with
    | none =>
      refine (find?_eq_none.mpr fun c hc => ?_).symm
      exact find?_eq_none.mp hf c (hl.mem_iff.mpr hc)
    | some c =>
      have hc := mem_of_find?_eq_some hf
      have hcp : X.hash c ∈ path := by simpa using find?_some hf
      cases hf' : l'.find? fun c => decide (X.hash c ∈ path) with
      | none => exact absurd (decide_eq_true hcp) (find?_eq_none.mp hf' c (hl.mem_iff.mp hc))
      | some c' =>
        have hc' := hl.mem_iff.mpr (mem_of_find?_eq_some hf')
        rw [hone c hc c' hc' hcp (by simpa using find?_some hf')]
  rw [advanceByPath,advanceByPath,hfind]

lemma mem_of_advanceByPath (h : advanceByPath X path st l=.ok (some (a,st'))) :
    a ∈ l := by
  rw [advanceByPath] at h
  split at h
  · cases h
  · next c hc =>
    obtain ⟨st'',-,he⟩ := map_eq_ok.mp h
    cases he
    exact mem_of_find?_eq_some hc

end

section
variable {X : Primitives} {C C' : Chonk} (hC : C.Holds X A) (hC' : C'.Holds X A)
include hC

omit hC in
lemma injOn_of_aum (h : ∀ j a, C.aum j=some a ↔ a ∈ A ∧ X.hash a=j) : Set.InjOn X.hash A := by
  intro a ha b hb he
  have ha' := (h (X.hash a) a).mpr ⟨ha,rfl⟩
  have hb' := (h (X.hash a) b).mpr ⟨hb,he.symm⟩
  exact Option.some.inj (ha'.symm.trans hb')

lemma Chonk.Holds.injOn : Set.InjOn X.hash A := injOn_of_aum hC.aum_eq_some

include hC'

lemma Chonk.Holds.aum_eq : C.aum=C'.aum := by
  funext h
  refine Option.ext fun a => ?_
  rw [hC.aum_eq_some,hC'.aum_eq_some]

lemma Chonk.Holds.heads_perm : C.heads.Perm C'.heads := by
  rw [perm_ext_iff_of_nodup hC.nodup_heads hC'.nodup_heads]
  intro a
  rw [hC.mem_heads,hC'.mem_heads]

lemma Chonk.Holds.childAUMs_perm {b : AUM} (hb : b ∈ A) :
    (C.childAUMs (X.hash b)).Perm (C'.childAUMs (X.hash b)) := by
  rw [perm_ext_iff_of_nodup (hC.nodup_childAUMs b hb) (hC'.nodup_childAUMs b hb)]
  intro a
  rw [hC.mem_childAUMs b hb,hC'.mem_childAUMs b hb]

lemma computeChainCandidates_eq (s s' : SliceSort) (last : Option AUMHash) (maxIter : ℕ) :
    computeChainCandidates X s C last maxIter=computeChainCandidates X s' C' last maxIter := by
  have hback : stepBack X C=stepBack X C' := by
    funext last c
    rw [stepBack,stepBack,hC.aum_eq hC']
  have hextend (n : ℕ) (cs : List Chain) :
      extendBack X C last maxIter n cs=extendBack X C' last maxIter n cs := by
    induction n generalizing cs with
    | zero => rfl
    | succ n ih =>
      rw [extendBack,extendBack,hback]
      simp only [ih]
  rw [computeChainCandidates,computeChainCandidates,hextend]
  refine congrArg _ (SliceSort.sort_eq_sort (fun c : Chain => (X.hash c.oldest).bytes.map UInt8.toNat)
    (fun a b => bytesLess_iff) s s' ((hC.heads_perm hC').map _) ?_)
  intro c hc d hd he
  obtain ⟨a,ha,rfl⟩ := mem_map.mp hc
  obtain ⟨b,hb,rfl⟩ := mem_map.mp hd
  cases hC.injOn ((hC.mem_heads a).mp ha).1 ((hC.mem_heads b).mp hb).1 (Raw32.ext_toNat he)
  rfl

end

section
variable {X : Primitives} {C : Chonk} (hC : C.Holds X A) {last : Option AUMHash}

def Back (C : Chonk) (a b : AUM) : Prop := a.parent.bind C.aum=some b

/-- A chain that is marked reached its oldest message by way of the active one. -/
def ThroughActive (X : Primitives) (A : Set AUM) (C : Chonk) (last : Option AUMHash) (c : Chain) : Prop :=
  c.chainsThroughActive=true → ∃ a ∈ A, last=some (X.hash a) ∧ Relation.ReflTransGen (Back C) a c.oldest

include hC

lemma Chonk.Holds.mem_of_back {a b : AUM} (h : Back C a b) : b ∈ A := by
  obtain ⟨p,-,hb⟩ := Option.bind_eq_some_iff.mp h
  exact ((hC.aum_eq_some p b).mp hb).1

lemma throughActive_stepBack {c : Chain} (h : ThroughActive X A C last c) :
    ThroughActive X A C last (stepBack X C last c).1 := by
  rw [stepBack]
  cases hb : c.oldest.parent.bind C.aum with
  | none => exact h
  | some b =>
    intro hmark
    rcases or_eq_true_iff.mp hmark with hc | hlast
    · obtain ⟨a,ha,hal,hback⟩ := h hc
      exact ⟨a,ha,hal,hback.tail hb⟩
    · exact ⟨b,hC.mem_of_back hb,of_decide_eq_true hlast,.refl⟩

lemma extendBack_eq_ok {maxIter n : ℕ} {cs cs' : List Chain}
    (h : extendBack X C last maxIter n cs=.ok cs') (hcs : ∀ c ∈ cs, ThroughActive X A C last c) :
    ∀ c ∈ cs', ThroughActive X A C last c ∧ c.oldest.parent.bind C.aum=none := by
  induction n generalizing cs with
  | zero => cases h
  | succ n ih =>
    rw [extendBack] at h
    have hstep : ∀ c ∈ (cs.map (stepBack X C last)).map Prod.fst, ThroughActive X A C last c := by
      intro c hc
      rw [map_map] at hc
      obtain ⟨c',hc',rfl⟩ := mem_map.mp hc
      exact throughActive_stepBack hC (hcs c' hc')
    split at h
    · exact ih h hstep
    · next hmoved =>
      cases h
      intro c hc
      refine ⟨hstep c hc,?_⟩
      rw [map_map] at hc
      obtain ⟨c',hc',rfl⟩ := mem_map.mp hc
      have hstill : (stepBack X C last c').2=false := by
        rw [← not_eq_true]
        exact fun h => hmoved (any_eq_true.mpr ⟨_,mem_map_of_mem hc',h⟩)
      change (stepBack X C last c').1.oldest.parent.bind C.aum=none
      rw [stepBack] at hstill ⊢
      cases hb : c'.oldest.parent.bind C.aum with
      | none => exact hb
      | some b =>
        rw [hb] at hstill
        cases hstill

lemma oldest_eq_of_marked {c c' : Chain} (hc : ThroughActive X A C last c)
    (hc' : ThroughActive X A C last c') (hend : c.oldest.parent.bind C.aum=none)
    (hend' : c'.oldest.parent.bind C.aum=none) (hmark : c.chainsThroughActive=true)
    (hmark' : c'.chainsThroughActive=true) : c.oldest=c'.oldest := by
  obtain ⟨a,ha,hal,hback⟩ := hc hmark
  obtain ⟨a',ha',hal',hback'⟩ := hc' hmark'
  cases hC.injOn ha ha' (Option.some.inj (hal.symm.trans hal'))
  have hunique : Relator.RightUnique (Back C) := fun _ _ _ h h' => Option.some.inj (h.symm.trans h')
  rcases hback.total_of_right_unique hunique hback' with h | h
  · rcases h.cases_head with h | ⟨b,hb,-⟩
    · exact h
    · cases hend.symm.trans hb
  · rcases h.cases_head with h | ⟨b,hb,-⟩
    · exact h.symm
    · cases hend'.symm.trans hb

omit hC in
lemma lookup_markAncestors_eq (chains : List Chain) (k : AUMHash) : (markAncestors X chains).lookup k
    = ((forKey (fun c : Chain => X.hash c.oldest) k chains).map Chain.chainsThroughActive).getLast? := by
  rw [markAncestors,foldl_view (fun c : Chain => X.hash c.oldest)
    (fun (m : GoMap AUMHash Bool) k => m.lookup k) (fun _ c => some c.chainsThroughActive)]
  · rw [AList.lookup_empty,← foldl_map,foldl_replace,Option.or_none]
  · intro m c j
    exact (lookup_insert_ite ..).trans (if_congr eq_comm rfl rfl)

variable {chains : List Chain}

omit hC in
lemma lookup_markAncestors {k : AUMHash} {v : Bool}
    (h : (markAncestors X chains).lookup k=some v) :
    ∃ c ∈ chains, X.hash c.oldest=k ∧ c.chainsThroughActive=v := by
  rw [lookup_markAncestors_eq] at h
  obtain ⟨c,hc,hv⟩ := mem_map.mp (mem_of_getLast? h)
  obtain ⟨hmem,hk⟩ := mem_forKey.mp hc
  exact ⟨c,hmem,hk,hv⟩

omit hC in
lemma pickAncestor_of_length {l : List (AUMHash × Bool)} (h : l.length≠1) : pickAncestor l
    = (l.find? fun e => e.2).elim (failWith "multiple distinct chains") fun e => .ok e.1 := by
  match l with
  | [] => rfl
  | [_] => exact absurd rfl h
  | _::_::_ => rfl

omit hC in
lemma pickAncestor_range {m : GoMap AUMHash Bool}
    (h : ∀ k k', m.lookup k=some true → m.lookup k'=some true → k=k') (o o' : MapOrder) :
    pickAncestor (range o m)=pickAncestor (range o' m) := by
  have hperm : (range o m).Perm (range o' m) :=
    ((o.perm m.entries).trans (o'.perm m.entries).symm).map _
  by_cases hlen : (range o m).length=1
  · obtain ⟨e,he⟩ := length_eq_one_iff.mp hlen
    rw [he] at hperm ⊢
    rw [singleton_perm.mp hperm]
  · rw [pickAncestor_of_length hlen,pickAncestor_of_length (hperm.length_eq ▸ hlen)]
    have hiff : ((range o m).find? fun e => e.2)=none ↔ ((range o' m).find? fun e => e.2)=none := by
      simp only [find?_eq_none,hperm.mem_iff]
    cases hfind : (range o m).find? fun e => e.2 with
    | none => rw [hiff.mp hfind]
    | some e =>
      cases hfind' : (range o' m).find? fun e => e.2 with
      | none => cases hfind.symm.trans (hiff.mpr hfind')
      | some e' =>
        have hmarked {o : MapOrder} {e : AUMHash × Bool} (h : ((range o m).find? fun e => e.2)=some e) :
            m.lookup e.1=some true := by
          refine (mem_range o m e.1 true).mp ?_
          have hv := find?_some h
          rw [← hv]
          exact mem_of_find?_eq_some h
        exact congrArg Except.ok (h e.1 e'.1 (hmarked hfind) (hmarked hfind'))

lemma computeActiveAncestor_eq (s : SliceSort) {maxIter : ℕ}
    (h : computeChainCandidates X s C last maxIter=.ok chains) (o o' : MapOrder) :
    computeActiveAncestor X o chains=computeActiveAncestor X o' chains := by
  have hchains := extendBack_eq_ok hC h (fun c hc => ?_)
  · refine pickAncestor_range (fun k k' hk hk' => ?_) o o'
    obtain ⟨c,hc,rfl,hmark⟩ := lookup_markAncestors hk
    obtain ⟨c',hc',rfl,hmark'⟩ := lookup_markAncestors hk'
    rw [oldest_eq_of_marked hC (hchains c hc).1 (hchains c' hc').1 (hchains c hc).2 (hchains c' hc').2 hmark hmark']
  · obtain ⟨a,-,rfl⟩ := mem_map.mp ((s.perm ..).mem_iff.mp hc)
    exact fun h => absurd h Bool.false_ne_true

end

/-- A rank that grows from each AUM to its children. -/
def Ranked (X : Primitives) (A : Set AUM) (rank : AUM → ℕ) : Prop :=
  ∀ a ∈ A, ∀ b ∈ A, a.parent=some (X.hash b) → rank b < rank a

/-- No message is among its own ancestors: it would have to contain a digest of itself. -/
def Acyclic (X : Primitives) (A : Set AUM) : Prop :=
  ∃ rank, Ranked X A rank

lemma walkBack_eq_ok {X : Primitives} {C : Chonk} (hC : C.Holds X A) {rank : AUM → ℕ}
    (hrank : Ranked X A rank) {maxIter n : ℕ} {curs : AUM}
    {st : State} {path : List AUM} (h : walkBack X C maxIter n curs=.ok (st,path)) (hcurs : curs ∈ A) :
    (∀ a ∈ path, a ∈ A ∧ rank a ≤ rank curs) ∧ ∀ p ∈ A, ∀ a ∈ path, ∀ b ∈ path,
      a.parent=some (X.hash p) → b.parent=some (X.hash p) → a=b := by
  induction n generalizing curs path with
  | zero => cases h
  | succ n ih =>
    have hone {path : List AUM} (h : path=[curs]) : (∀ a ∈ path, a ∈ A ∧ rank a ≤ rank curs) ∧
        ∀ p ∈ A, ∀ a ∈ path, ∀ b ∈ path, a.parent=some (X.hash p) → b.parent=some (X.hash p) → a=b := by
      subst h
      simp [hcurs]
    rw [walkBack] at h
    split at h
    · split at h
      · cases h
      · cases h
        exact hone rfl
    · split at h
      · split at h
        · obtain ⟨st',-,he⟩ := map_eq_ok.mp h
          cases he
          exact hone rfl
        · cases h
      · next parent hparent =>
        split at h
        · cases h
        · next b hb =>
          obtain ⟨⟨st',path'⟩,hw,he⟩ := map_eq_ok.mp h
          cases he
          obtain ⟨hbA,rfl⟩ := (hC.aum_eq_some parent b).mp hb
          obtain ⟨hpath,hunique⟩ := ih hw hbA
          have hlt := hrank curs hcurs b hbA hparent
          have hnot : ∀ p ∈ A, curs.parent=some (X.hash p) → ∀ a ∈ path', a.parent≠some (X.hash p) := by
            intro p hp hpc a ha hpa
            cases hC.injOn hbA hp (Option.some.inj (hparent.symm.trans hpc))
            exact absurd (hpath a ha).2 (not_le.mpr (hrank a (hpath a ha).1 b hbA hpa))
          refine ⟨forall_mem_cons.mpr ⟨⟨hcurs,le_rfl⟩,fun a ha => ?_⟩,?_⟩
          · exact ⟨(hpath a ha).1,(hpath a ha).2.trans hlt.le⟩
          · intro p hp a ha a' ha' hpa hpa'
            rcases mem_cons.mp ha with rfl | hin
            · rcases mem_cons.mp ha' with rfl | hin'
              · rfl
              · exact absurd hpa' (hnot p hp hpa a' hin')
            · rcases mem_cons.mp ha' with rfl | hin'
              · exact absurd hpa (hnot p hp hpa' a hin)
              · exact hunique p hp a hin a' hin' hpa hpa'

lemma computeStateAt_eq_ok {X : Primitives} {C : Chonk} {maxIter : ℕ} {h : AUMHash} {st : State}
    (hst : computeStateAt X C maxIter h=.ok st) : (∃ a, C.aum h=some a) ∧ st.lastAUMHash=some h := by
  rw [computeStateAt] at hst
  split at hst
  · cases hst
  · next a ha =>
    obtain ⟨r,-,hst⟩ := bind_eq_ok.mp hst
    obtain ⟨r',-,hst⟩ := bind_eq_ok.mp hst
    obtain ⟨hlast,hst⟩ := guard_eq_ok.mp hst
    cases hst
    exact ⟨⟨a,ha⟩,not_not.mp hlast⟩

section
variable {X : Primitives} {C C' : Chonk} (hC : C.Holds X A) (hC' : C'.Holds X A)
include hC hC'

lemma fastForwardWithAdvancer_eq
    {advancer advancer' : State → List AUM → Except Halt (Option (AUM × State))}
    (hadv : ∀ st, ∀ b ∈ A, advancer st (C.childAUMs (X.hash b))=advancer' st (C'.childAUMs (X.hash b)))
    (hmem : ∀ st l a st', advancer st l=.ok (some (a,st')) → a ∈ l) (maxIter : ℕ) (st : State)
    (done : AUM → State → Bool) : fastForwardWithAdvancer X C maxIter st advancer done
      = fastForwardWithAdvancer X C' maxIter st advancer' done := by
  have hloop (n : ℕ) (curs : AUM) (hcurs : curs ∈ A) (st : State) :
      advanceLoop X C advancer done maxIter n curs st=advanceLoop X C' advancer' done maxIter n curs st := by
    induction n generalizing curs st with
    | zero => rfl
    | succ n ih =>
      rw [advanceLoop,advanceLoop,← hadv st curs hcurs]
      cases hnext : advancer st (C.childAUMs (X.hash curs)) with
      | error e => rfl
      | ok next =>
        cases next with
        | none => rfl
        | some r =>
          obtain ⟨a,st'⟩ := r
          have ha : a ∈ A := ((hC.mem_childAUMs curs hcurs a).mp (hmem _ _ _ _ hnext)).1
          exact congrArg _ (ih a ha st')
  rw [fastForwardWithAdvancer,fastForwardWithAdvancer,hC.aum_eq hC']
  cases st.lastAUMHash with
  | none => rfl
  | some h =>
    dsimp only
    cases hh : C'.aum h with
    | none => rfl
    | some a => exact hloop maxIter a ((hC'.aum_eq_some h a).mp hh).1 st

lemma fastForward_eq (s s' : SliceSort) (maxIter : ℕ) (st : State) :
    fastForward X s C maxIter st=fastForward X s' C' maxIter st := by
  refine fastForwardWithAdvancer_eq hC hC' (fun st b hb => ?_) (fun st l a st' h => ?_) maxIter st _
  · refine advanceByPrimary_eq X s s' st (hC.childAUMs_perm hC' hb) fun a ha a' ha' => ?_
    exact hC.injOn ((hC.mem_childAUMs b hb a).mp ha).1 ((hC.mem_childAUMs b hb a').mp ha').1
  · exact mem_of_advanceByPrimary X h

lemma computeStateAt_eq (hacyclic : Acyclic X A) (maxIter : ℕ) (h : AUMHash) :
    computeStateAt X C maxIter h=computeStateAt X C' maxIter h := by
  obtain ⟨rank,hrank⟩ := hacyclic
  have hwalk (n : ℕ) (curs : AUM) : walkBack X C maxIter n curs=walkBack X C' maxIter n curs := by
    induction n generalizing curs with
    | zero => rfl
    | succ n ih =>
      rw [walkBack,walkBack,hC.aum_eq hC']
      simp only [ih]
  rw [computeStateAt,computeStateAt,hC.aum_eq hC']
  cases htop : C'.aum h with
  | none => rfl
  | some top =>
    have hA : top ∈ A := ((hC'.aum_eq_some h top).mp htop).1
    dsimp only
    rw [← hwalk]
    cases hw : walkBack X C maxIter (maxIter+1) top with
    | error e => rfl
    | ok r =>
      obtain ⟨start,path⟩ := r
      obtain ⟨hpath,hunique⟩ := walkBack_eq_ok hC hrank hw hA
      have hff (done : AUM → State → Bool) :
          fastForwardWithAdvancer X C maxIter start (advanceByPath X (path.map X.hash)) done
            = fastForwardWithAdvancer X C' maxIter start (advanceByPath X (path.map X.hash)) done := by
        refine fastForwardWithAdvancer_eq hC hC' (fun st b hb => ?_)
          (fun st l a st' h => mem_of_advanceByPath X h) maxIter start done
        refine advanceByPath_eq X st (hC.childAUMs_perm hC' hb) fun a ha a' ha' hp hp' => ?_
        obtain ⟨haA,hab⟩ := (hC.mem_childAUMs b hb a).mp ha
        obtain ⟨haA',hab'⟩ := (hC.mem_childAUMs b hb a').mp ha'
        obtain ⟨x,hx,hxa⟩ := mem_map.mp hp
        obtain ⟨x',hx',hxa'⟩ := mem_map.mp hp'
        have hxa := hC.injOn (hpath x hx).1 haA hxa
        have hxa' := hC.injOn (hpath x' hx').1 haA' hxa'
        exact hunique b hb a (hxa ▸ hx) a' (hxa' ▸ hx') hab hab'
      change (fastForwardWithAdvancer X C maxIter start (advanceByPath X (path.map X.hash)) _ >>= _)
        = fastForwardWithAdvancer X C' maxIter start (advanceByPath X (path.map X.hash)) _ >>= _
      rw [hff]

lemma computeActiveChain_eq (hacyclic : Acyclic X A) (s s' : SliceSort) (o o' : MapOrder)
    (last : Option AUMHash) (maxIter : ℕ) :
    computeActiveChain X s o C last maxIter=computeActiveChain X s' o' C' last maxIter := by
  rw [computeActiveChain,computeActiveChain,← computeChainCandidates_eq hC hC' s s',hC.aum_eq hC']
  cases hchains : computeChainCandidates X s C last maxIter with
  | error e => rfl
  | ok chains =>
    have hanc := computeActiveAncestor_eq hC s hchains o o'
    simp only [Except.mapError,bind,Except.bind,hanc,computeStateAt_eq hC hC' hacyclic, fastForward_eq hC hC' s s']

end

end TunnnejiTail.Tka
