import TunnnejiTail.Tka.FastPath
import TunnnejiTail.Tka.Grounded

/-! The state at a stored message is computed from the last checkpoint before it, along the messages that
lead back there. It is the state that the message was verified with. -/
namespace TunnnejiTail.Tka
open Go List

variable {X : Primitives} {storage : Store X} {C : Chonk} {A : Set AUM} {rank : AUM → ℕ}

section
variable (hC : C.Reads X A storage.names) (hrank : Ranked X A rank) {path : List AUMHash}
include hC hrank

variable {p q : AUM × State} {us : List AUM} (hp : p.1 ∈ A)
  (hpath : ∀ x ∈ A, X.hash x ∈ path → ∃ n, walk C.back n q.1=some x)
include hp hpath

lemma Builds.find_path {u : AUM} {st : State}
    (hprev : u.prevAUMHash.getD []=(X.hash p.1).bytes) (happly : p.2.applyVerifiedAUM X u=.ok st)
    (h : Builds X (u,st) us q) (hus : ∀ v ∈ u::us, v ∈ A) (hu : X.hash u ∈ path) :
    advanceByPath X path p.2 (C.childAUMs (X.hash p.1))=.ok (some (u,st)) := by
  have hmem := hC.mem_childAUMs (X.hash p.1)
  have huc := (hmem u).mpr ⟨hus u mem_cons_self,storage.names_of_bytes hprev⟩
  have hwalk := (h.walk_back hC (hus u mem_cons_self) fun v hv => hus v (mem_cons_of_mem u hv)).1
  have hfind : ((C.childAUMs (X.hash p.1)).find? fun c => decide (X.hash c ∈ path))=some u := by
    cases hf : (C.childAUMs (X.hash p.1)).find? fun c => decide (X.hash c ∈ path) with
    | none => exact absurd (decide_eq_true hu) (find?_eq_none.mp hf u huc)
    | some x =>
      obtain ⟨hxA,hnames⟩ := (hmem x).mp (mem_of_find?_eq_some hf)
      have hxp := hpath x hxA (of_decide_eq_true (find?_some hf :))
      obtain ⟨n,hn,hw⟩ := (Builds.cons hprev happly h).walk_back_of_parent hC hrank hp hus hxp
        (Store.parent_of_names hnames)
      cases hn
      exact hw.symm.trans hwalk
  rw [advanceByPath,hfind]
  exact map_eq_ok.mpr ⟨st,mapError_eq_ok.mpr (mapError_eq_ok.mpr happly),rfl⟩

lemma Builds.advanceLoop_path (h : Builds X p us q)
    (hus : ∀ v ∈ us, v ∈ A ∧ X.hash v ∈ path) (maxIter n : ℕ) :
    advanceLoop X C (advanceByPath X path) (fun curs _ => decide (X.hash curs=X.hash q.1)) maxIter n p.1 p.2
      = if us.length<n then .ok q
        else failWith ("iteration limit exceeded (" ++ toString maxIter ++ ")") := by
  induction h generalizing n with
  | nil p =>
    cases n with
    | zero => rfl
    | succ n =>
      rw [advanceLoop,if_pos (decide_eq_true rfl),if_pos (by simp)]
  | @cons p q u st us hprev happly h ih =>
    have hmem : ∀ v ∈ u::us, v ∈ A := fun v hv => (hus v hv).1
    cases n with
    | zero => rfl
    | succ n =>
      have hnot : X.hash p.1≠X.hash q.1 := by
        intro he
        obtain ⟨hw,hq⟩ := (Builds.cons hprev happly h).walk_back hC hp hmem
        rw [hC.injOn hp hq he] at hw
        cases walk_injective (hC.rank_back hrank) hq hw (walk_zero _ _)
      have hu := hus u mem_cons_self
      rw [advanceLoop,if_neg (by simpa using hnot), h.find_path hC hrank hp hpath hprev happly hmem hu.2]
      refine (ih hu.1 hpath (fun v hv => hus v (mem_cons_of_mem u hv)) n).trans ?_
      simp only [length_cons,Nat.add_lt_add_iff_right]

end

section
variable {U : Set AUM} {B R : AUM} (hA : Grounded X U B R A) (hU : Set.InjOn X.hash U)
  (hrank : Ranked X U rank) (hC : C.Reads X A storage.names) {maxIter : ℕ} {a : AUM} (ha : a ∈ A)
include hA hU hrank hC ha

variable {n : ℕ} {start : State} {path : List AUM}

/-- The way back ends at a checkpoint with its state, and the messages on the way build on one another. -/
theorem Grounded.of_walkBack
    (h : walkBack X C maxIter n a=.ok (start,path)) : ∃ c us st, path.reverse=c::us ∧
      (∀ v ∈ path, v ∈ A) ∧ Verified X U B c start ∧ Builds X (c,start) us (a,st) ∧ Verified X U B a st := by
  obtain ⟨st,hst⟩ := hA.verified a ha
  induction n generalizing a path st with
  | zero => cases h
  | succ n ih =>
    rw [walkBack] at h
    by_cases hkind : a.messageKind=.checkpoint
    · obtain ⟨s,hs,rfl⟩ := hst.checkpoint hkind
      rw [if_pos hkind,hs] at h
      cases h
      exact ⟨a,[],_,rfl,by simp [ha],hst,.nil _,hst⟩
    · have hne : a≠R := fun he => hkind (he ▸ hA.checkpoint)
      obtain ⟨b,hb,hp⟩ := hA.closed a ha hne
      rw [if_neg hkind,hp] at h
      dsimp only at h
      rw [(hC.aum_eq_some _ b).mpr ⟨hb,rfl⟩] at h
      obtain ⟨⟨start',path'⟩,hw,he⟩ := map_eq_ok.mp h
      cases he
      obtain ⟨stb,hstb⟩ := hA.verified b hb
      obtain ⟨c,us,stb',hrev,hin,hc,hbuilds,hstb'⟩ := ih hb hw stb hstb
      obtain ⟨st',hst',-,happly,hprev⟩ := hA.apply hU hrank hstb' ha hp
      refine ⟨c,us++[a],st',?_,forall_mem_cons.mpr ⟨ha,hin⟩,hc,hbuilds.snoc hprev happly,hst'⟩
      rw [reverse_cons,hrev]
      rfl

variable {k : ℕ}

omit hU hrank in
lemma Grounded.exists_walkBack (hk : walk C.back k a=some R) (hn : k<n) :
    ∃ start path, walkBack X C maxIter n a=.ok (start,path) ∧ path.length≤k+1 := by
  induction n generalizing a k with
  | zero => cases hn
  | succ n ih =>
    rw [walkBack]
    by_cases hkind : a.messageKind=.checkpoint
    · obtain ⟨st,hst⟩ := hA.verified a ha
      obtain ⟨s,hs,rfl⟩ := hst.checkpoint hkind
      rw [if_pos hkind,hs]
      exact ⟨_,_,rfl,by simp⟩
    · cases k with
      | zero =>
        cases hk
        exact absurd hA.checkpoint hkind
      | succ k =>
        obtain ⟨b,hb,hk⟩ := walk_succ_eq_some.mp hk
        obtain ⟨hbA,hp⟩ := hC.back_eq_some.mp hb
        obtain ⟨start,path,hw,hlen⟩ := ih hbA hk (by omega)
        rw [if_neg hkind,hp]
        dsimp only
        rw [(hC.aum_eq_some _ b).mpr ⟨hbA,rfl⟩]
        dsimp only
        rw [hw]
        exact ⟨start,a::path,rfl,by simpa using hlen⟩

lemma Grounded.computeStateAt_of_walkBack
    (h : walkBack X C maxIter (maxIter+1) a=.ok (start,path)) : ∃ st, Verified X U B a st ∧
      computeStateAt X C maxIter (X.hash a)=if path.length ≤ maxIter then .ok st
        else failWith ("iteration limit exceeded (" ++ toString maxIter ++ ")") := by
  obtain ⟨c,us,st,hrev,hin,hc,hbuilds,hst⟩ := hA.of_walkBack hU hrank hC ha h
  refine ⟨st,hst,?_⟩
  have hmem (x : AUM) : x ∈ path ↔ x=c ∨ x ∈ us := by
    rw [← mem_reverse,hrev,mem_cons]
  have hcA := hin c ((hmem c).mpr (.inl rfl))
  have hus : ∀ v ∈ us, v ∈ A := fun v hv => hin v ((hmem v).mpr (.inr hv))
  have hback : ∀ x ∈ A, X.hash x ∈ path.map X.hash → ∃ n, walk C.back n a=some x := by
    intro x hx hxp
    obtain ⟨y,hy,he⟩ := mem_map.mp hxp
    cases hC.injOn (hin y hy) hx he
    rcases (hmem _).mp hy with rfl | hy
    · exact ⟨_,(hbuilds.walk_back hC hcA hus).1⟩
    · obtain ⟨n,-,hn⟩ := hbuilds.exists_walk_back hC hcA hus _ hy
      exact ⟨n,hn⟩
  have hloop := hbuilds.advanceLoop_path hC (hA.rank_lt hrank) hcA hback
    (fun v hv => ⟨hus v hv,mem_map_of_mem ((hmem v).mpr (.inr hv))⟩) maxIter maxIter
  have hlen : us.length < maxIter ↔ path.length ≤ maxIter := by
    rw [← path.length_reverse,hrev,length_cons]
    rfl
  rw [computeStateAt,(hC.aum_eq_some _ a).mpr ⟨ha,rfl⟩]
  dsimp only
  rw [h]
  change (fastForwardWithAdvancer X C maxIter start _ _ >>= _)=_
  rw [fastForwardWithAdvancer,hc.lastAUMHash]
  dsimp only
  rw [(hC.aum_eq_some _ c).mpr ⟨hcA,rfl⟩]
  dsimp only
  rw [hloop]
  by_cases hle : path.length ≤ maxIter
  · rw [if_pos (hlen.mpr hle),if_pos hle]
    exact guard_eq_ok.mpr ⟨not_not.mpr hst.lastAUMHash,rfl⟩
  · rw [if_neg (mt hlen.mp hle),if_neg hle]
    rfl

lemma Grounded.verified_of_computeStateAt {st : State}
    (h : computeStateAt X C maxIter (X.hash a)=.ok st) : Verified X U B a st := by
  have hw : ∃ r, walkBack X C maxIter (maxIter+1) a=.ok r := by
    rw [computeStateAt,(hC.aum_eq_some _ a).mpr ⟨ha,rfl⟩] at h
    obtain ⟨r,hr,-⟩ := bind_eq_ok.mp h
    exact ⟨r,hr⟩
  obtain ⟨⟨start,path⟩,hw⟩ := hw
  obtain ⟨st',hst',he⟩ := hA.computeStateAt_of_walkBack hU hrank hC ha hw
  rw [h] at he
  split at he
  · cases he
    exact hst'
  · cases he

lemma Grounded.exists_computeStateAt (hk : walk C.back k a=some R) (hn : k < maxIter) :
    ∃ st, computeStateAt X C maxIter (X.hash a)=.ok st := by
  obtain ⟨start,path,hw,hlen⟩ := hA.exists_walkBack hC ha hk (hn.trans (Nat.lt_succ_self maxIter))
  obtain ⟨st,-,he⟩ := hA.computeStateAt_of_walkBack hU hrank hC ha hw
  rw [if_pos (by omega)] at he
  exact ⟨st,he⟩

end

end TunnnejiTail.Tka
