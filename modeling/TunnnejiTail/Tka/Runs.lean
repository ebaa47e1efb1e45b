import TunnnejiTail.Tka.Growth

/-! What a node goes through from its bootstrap on keeps its store sound, so the nodes whose stores hold
the same messages agree on the active chain. -/
namespace TunnnejiTail.Tka
open Go TunnnejiTail.Types List Option Store

variable {X : Primitives} {U : Set AUM} {rank : AUM → ℕ} {B : AUM} {storage : Store X}

/-- What a node may have gone through: its store was empty when it was bootstrapped, and then came any
calls, which may have failed. All messages are from a given set. -/
inductive Run (X : Primitives) (U : Set AUM) (B : AUM) : Store X → Option Authority → Prop
  | bootstrap {storage : Store X} (hempty : storage=.mem {} ∨ storage=.fs .empty) (hB : B ∈ U)
      (sorter : SliceSort) (o o' : MapOrder) :
    Run X U B (bootstrap sorter o o' storage B).1 (bootstrap sorter o o' storage B).2.toOption
  | inform {storage : Store X} {a : Authority} (h : Run X U B storage (some a)) {updates : List AUM}
      (hupdates : ∀ u ∈ updates, u ∈ U) (sorter : SliceSort) (o o' : MapOrder) :
    Run X U B (informIdempotent sorter o o' a storage updates).1
      (some ((informIdempotent sorter o o' a storage updates).2.toOption.getD a))
  | reopen {storage : Store X} {a : Option Authority} (h : Run X U B storage a) (sorter : SliceSort)
      (o o' : MapOrder) :
    Run X U B storage ((openStore sorter o o' storage).toOption.or a)
  | purge {storage : Store X} {a : Option Authority} (h : Run X U B storage a) (l : List AUMHash) :
    Run X U B (storage.purgeAUMs l) a
  | setLast {storage : Store X} {a : Option Authority} (h : Run X U B storage a) (j : AUMHash) :
    Run X U B (storage.setLastActiveAncestor j) a

def State.Placed (X : Primitives) (U : Set AUM) (rank : AUM → ℕ) (B : AUM) (st : State) : Prop :=
  ∀ h, st.lastAUMHash=some h → ∃ a ∈ U, X.hash a=h ∧ rank B ≤ rank a

section
variable (hs : storage.Good U rank B)
include hs

variable {sorter : SliceSort} {o o' : MapOrder}

lemma placed_computeActiveChain {last : Option AUMHash}
    {maxIter : ℕ} {c : Chain} (h : computeActiveChain X sorter o' (storage.chonk o) last maxIter=.ok c) :
    c.state.Placed X U rank B := by
  have hC := hs.reads o
  obtain ⟨-,-,-,holdest,hback,hreaches⟩ := hC.of_active h
  obtain ⟨⟨j,hj⟩,hlast⟩ := hC.head_of_reaches holdest hback hreaches
  intro k hk
  obtain ⟨-,hsound⟩ := hs.sound hj
  exact ⟨c.head,hsound.mem,some.inj (hlast.symm.trans hk),hsound.le⟩

lemma placed_openStore {a : Authority}
    (h : openStore sorter o o' storage=.ok a) : a.state.Placed X U rank B := by
  obtain ⟨c,hc,rfl⟩ := map_eq_ok.mp h
  exact placed_computeActiveChain hs (mapError_eq_ok.mp hc)

lemma placed_stateBefore {s : InformLoop} {parent : AUMHash} {st : State}
    (hloop : ∀ {h st}, s.stateAt.lookup h=some st → st.lastAUMHash=some h ∧ st.Placed X U rank B)
    (h : stateBefore o storage s parent=.ok st) : st.lastAUMHash=some parent ∧ st.Placed X U rank B := by
  rw [stateBefore] at h
  split at h
  · next st' hst' =>
    cases h
    exact hloop hst'
  · obtain ⟨⟨a,ha⟩,hlast⟩ := computeStateAt_eq_ok h
    obtain ⟨⟨j,hj⟩,hhash⟩ := ((hs.reads o).aum_eq_some parent a).mp ha
    refine ⟨hlast,fun k hk => ?_⟩
    obtain ⟨-,hsound⟩ := hs.sound hj
    exact ⟨a,hsound.mem,hhash.trans (some.inj (hlast.symm.trans hk)),hsound.le⟩

end

structure InformLoop.Good (X : Primitives) (U : Set AUM) (rank : AUM → ℕ) (B : AUM) (s : InformLoop) :
    Prop where
  stateAt : ∀ {h st}, s.stateAt.lookup h=some st → st.lastAUMHash=some h ∧ st.Placed X U rank B
  toCommit : ∀ a ∈ s.toCommit, Sound U rank B a
  prevHash : ∃ st, s.stateAt.lookup s.prevHash=some st

section

variable {a : AUM} {st : State}

lemma checkParent_eq_ok (h : checkParent X a st=.ok ()) :
    ∃ p, a.parent=some p ∧ st.lastAUMHash=some p := by
  rw [checkParent] at h
  split at h
  · cases h
  · cases h
  · next p last hp hlast =>
    obtain ⟨heq,-⟩ := guard_eq_ok.mp h
    exact ⟨p,hp,by rw [hlast,not_not.mp heq]⟩

lemma checkParent_of_aumVerify (h : aumVerify X a st false=.ok ()) :
    checkParent X a st=.ok () := by
  obtain ⟨⟨⟩,-,h⟩ := bind_eq_ok.mp h
  obtain ⟨⟨⟩,hp,-⟩ := bind_eq_ok.mp h
  exact hp

lemma sound_of_verified
    (hrank : Ranked X U rank) (ha : a ∈ U)
    {st' : State} (hst : st.Placed X U rank B) (hverify : aumVerify X a st false=.ok ())
    (happly : st.applyVerifiedAUM X a=.ok st') : Sound U rank B a := by
  obtain ⟨p,hp,hlast⟩ := checkParent_eq_ok (checkParent_of_aumVerify hverify)
  obtain ⟨b,hb,rfl,hle⟩ := hst p hlast
  refine ⟨ha,hle.trans (hrank a ha b hb hp).le,Or.inr fun q hq => ?_⟩
  exact (State.applyVerifiedAUM_eq_ok X happly).2 q (hlast.trans (hp.symm.trans hq))

variable {s s' : InformLoop}

lemma informStep_eq_ok {o : MapOrder} {e : AUM × ℕ} (h : informStep o storage s e=.ok s') :
    ((storage.aum (X.hash e.1)).isSome ∧ s'={ s with isHeadChain := false }) ∨
    ∃ parent st next, storage.aum (X.hash e.1)=none ∧ e.1.parent=some parent ∧
      stateBefore o storage s parent=.ok st ∧ aumVerify X e.1 st false=.ok () ∧
      st.applyVerifiedAUM X e.1=.ok next ∧
      s'=⟨(s.stateAt.insert parent st).insert (X.hash e.1) next,s.toCommit++[e.1],X.hash e.1,
        s.isHeadChain && decide (parent=s.prevHash)⟩ := by
  rw [informStep] at h
  split at h
  · next hknown =>
    cases h
    exact .inl ⟨hknown,rfl⟩
  next hnew =>
  split at h
  · cases h
  next parent hparent =>
  obtain ⟨st,hst,h⟩ := bind_eq_ok.mp h
  obtain ⟨⟨⟩,hverify,h⟩ := bind_eq_ok.mp h
  obtain ⟨next,hnext,h⟩ := bind_eq_ok.mp h
  cases h
  exact .inr ⟨parent,st,next,not_isSome_iff_eq_none.mp hnew,hparent,mapError_eq_ok.mp hst,
    mapError_eq_ok.mp (mapError_eq_ok.mp hverify),mapError_eq_ok.mp (mapError_eq_ok.mp hnext),rfl⟩

section
variable {o : MapOrder} {a : Authority} {updates : List AUM}

lemma informIdempotent_of_error {o' : MapOrder} {sorter : SliceSort} {e : Halt}
    (h : beforeCommit o a storage updates=.error e) :
    informIdempotent sorter o o' a storage updates=(storage,.error e) := by
  rw [informIdempotent,h]

lemma informLoop_of_ok (h : beforeCommit o a storage updates=.ok s) : ∃ head, a.state.lastAUMHash=some head ∧
    updates.zipIdx.foldlM (informStep o storage)
      ⟨(∅ : GoMap AUMHash State).insert head a.state,[],head,true⟩=.ok s := by
  rw [beforeCommit] at h
  split at h
  · cases h
  · cases h
  · next head _ hhead _ => exact ⟨head,hhead,h⟩

lemma informIdempotent_of_ok (sorter : SliceSort) (o' : MapOrder) (h : beforeCommit o a storage updates=.ok s) :
    ∃ last, updates.getLast? = some last ∧ informIdempotent sorter o o' a storage updates
      = (storage.commitVerifiedAUMs s.toCommit,
        if s.isHeadChain then .ok ⟨last,a.oldestAncestor,(s.stateAt.lookup s.prevHash).getD .zero⟩
        else ((computeActiveChain X sorter o' ((storage.commitVerifiedAUMs s.toCommit).chonk o)
          (some (X.hash a.oldestAncestor)) maxScanIterations).mapError
            (Halt.wrap "recomputing active chain")).map fun c => ⟨c.head,c.oldest,c.state⟩) := by
  cases hlast : updates.getLast? with
  | none =>
    rw [beforeCommit,hlast] at h
    cases h
  | some last =>
    rw [informIdempotent,h,hlast]
    exact ⟨last,rfl,rfl⟩

end

lemma InformLoop.Good.step (hrank : Ranked X U rank)
    (hs : storage.Good U rank B) {o : MapOrder} {e : AUM × ℕ} (he : e.1 ∈ U)
    (hgood : s.Good X U rank B) (h : informStep o storage s e=.ok s') : s'.Good X U rank B := by
  rcases informStep_eq_ok h with ⟨-,rfl⟩ | ⟨parent,st,next,-,hparent,hst,hverify,hnext,rfl⟩
  · exact ⟨hgood.stateAt,hgood.toCommit,hgood.prevHash⟩
  have hplaced := placed_stateBefore hs hgood.stateAt hst
  have hsound := sound_of_verified hrank he hplaced.2 hverify hnext
  have hlast := (State.applyVerifiedAUM_eq_ok X hnext).1
  refine ⟨?_,?_,⟨next,AList.lookup_insert _⟩⟩
  · intro j stj hj
    rcases of_lookup_insert hj with ⟨rfl,rfl⟩ | ⟨-,hj⟩
    · exact ⟨hlast,fun k hk => ⟨e.1,hsound.mem,some.inj (hlast.symm.trans hk),hsound.le⟩⟩
    rcases of_lookup_insert hj with ⟨rfl,rfl⟩ | ⟨-,hj⟩
    · exact hplaced
    · exact hgood.stateAt hj
  · intro a ha
    rcases mem_append.mp ha with ha | ha
    · exact hgood.toCommit a ha
    · exact mem_singleton.mp ha ▸ hsound

section
variable (hU : Set.InjOn X.hash U)
  (hrank : Ranked X U rank) (hs : storage.Good U rank B)
include hU hs

lemma good_bootstrap (hB : B ∈ U) (sorter : SliceSort) (o o' : MapOrder) :
    (bootstrap sorter o o' storage B).1.Good U rank B ∧
      ∀ a, (bootstrap sorter o o' storage B).2=.ok a → a.state.Placed X U rank B := by
  rw [bootstrap]
  split
  · exact ⟨hs,fun _ h => by cases h⟩
  · have hsound : ∀ a ∈ [B], Sound U rank B a := by
      intro a ha
      obtain rfl := mem_singleton.mp ha
      exact ⟨hB,le_rfl,Or.inl rfl⟩
    have hgood := (hs.commitVerifiedAUMs hU hsound).setLastActiveAncestor (X.hash B)
    exact ⟨hgood,fun a ha => placed_openStore hgood ha⟩

include hrank

lemma good_informIdempotent {a : Authority} (ha : a.state.Placed X U rank B) {updates : List AUM}
    (hupdates : ∀ u ∈ updates, u ∈ U) (sorter : SliceSort) (o o' : MapOrder) :
    (informIdempotent sorter o o' a storage updates).1.Good U rank B ∧
      ∀ a', (informIdempotent sorter o o' a storage updates).2=.ok a' → a'.state.Placed X U rank B := by
  cases hbefore : beforeCommit o a storage updates with
  | error e =>
    rw [informIdempotent_of_error hbefore]
    exact ⟨hs,fun _ h => by cases h⟩
  | ok s =>
  obtain ⟨head,hhead,hloop⟩ := informLoop_of_ok hbefore
  have hfirst : InformLoop.Good X U rank B ⟨(∅ : GoMap AUMHash State).insert head a.state,[],head,true⟩ := by
    refine ⟨?_,forall_mem_nil _,⟨a.state,AList.lookup_insert _⟩⟩
    intro j st hj
    rcases of_lookup_insert hj with ⟨rfl,rfl⟩ | ⟨-,hj⟩
    · exact ⟨hhead,ha⟩
    · cases hj
  have hgood : s.Good X U rank B := by
    refine foldlM_invariant (fun done s => (∀ e ∈ done, e.1 ∈ U) → s.Good X U rank B) (fun _ => hfirst) ?_
      hloop fun e he => hupdates e.1 (fst_mem_of_mem_zipIdx he)
    intro done t e t' ht hstep hdone
    refine InformLoop.Good.step hrank hs (hdone e (mem_append_right _ mem_cons_self)) ?_ hstep
    exact ht fun d hd => hdone d (mem_append_left _ hd)
  have hstore := hs.commitVerifiedAUMs hU hgood.toCommit
  rw [informIdempotent,hbefore]
  dsimp only
  split
  · refine ⟨hstore,fun a' ha' => ?_⟩
    cases ha'
    obtain ⟨st,hst⟩ := hgood.prevHash
    simp only [hst,getD_some]
    exact (hgood.stateAt hst).2
  · refine ⟨hstore,fun a' ha' => ?_⟩
    obtain ⟨c,hc,rfl⟩ := map_eq_ok.mp ha'
    exact placed_computeActiveChain hstore (mapError_eq_ok.mp hc)

end

lemma Run.good (hU : Set.InjOn X.hash U)
    (hrank : Ranked X U rank) {a : Option Authority}
    (h : Run X U B storage a) :
    storage.Good U rank B ∧ ∀ auth, a=some auth → auth.state.Placed X U rank B := by
  induction h with
  | bootstrap hempty hB sorter o o' =>
    obtain ⟨hgood,hplaced⟩ := good_bootstrap hU (.empty hempty) hB sorter o o'
    exact ⟨hgood,fun auth h => hplaced auth (toOption_eq_some.mp h)⟩
  | @inform storage a h updates hupdates sorter o o' ih =>
    obtain ⟨hgood,hplaced⟩ := good_informIdempotent hU hrank ih.1 (ih.2 a rfl) hupdates sorter o o'
    refine ⟨hgood,fun auth h => ?_⟩
    cases hres : (informIdempotent sorter o o' a storage updates).2 with
    | error e =>
      rw [hres] at h
      exact ih.2 auth h
    | ok a' =>
      rw [hres] at h
      cases h
      exact hplaced a' hres
  | @reopen storage a h sorter o o' ih =>
    refine ⟨ih.1,fun auth h => ?_⟩
    cases hres : openStore sorter o o' storage with
    | error e =>
      rw [hres] at h
      exact ih.2 auth h
    | ok a' =>
      rw [hres] at h
      cases h
      exact placed_openStore ih.1 hres
  | purge h l ih => exact ⟨ih.1.purgeAUMs l,ih.2⟩
  | setLast h j ih =>
    exact ⟨ih.1.setLastActiveAncestor j,ih.2⟩

end

/-- Digests and signatures that tell kinds apart. -/
def byKind : Primitives where
  hash a :=
    match a.messageKind with
    | .checkpoint => .fill 1
    | .noOp => .fill 2
    | _ => .fill 3
  sigHash _ := []
  verifyConsensus _ _ _ := true
  v _ := ""
  x _ := ""
  lowerX _ := ""
  plusV _ := ""

def fork (kind : AUMKind) : AUM where
  messageKind := kind
  prevAUMHash := if kind=.checkpoint then none else some (Raw32.fill 1).bytes
  state := if kind=.checkpoint then some ⟨none,some [List.replicate 32 0],
    some [⟨.key25519,1,(Raw32.fill 4).bytes,none⟩],1,2⟩ else none
  signatures := [⟨(Raw32.fill 4).bytes,List.replicate 64 0⟩]

def forks : Set AUM := {fork .checkpoint,fork .noOp,fork .invalid}

def forkStore (empty : Store byKind) (kinds : List AUMKind) : Store byKind :=
  ((empty.commitVerifiedAUMs [fork .checkpoint]).setLastActiveAncestor (.fill 1)).commitVerifiedAUMs
    (kinds.map fork)

set_option maxRecDepth 40000 in
lemma run_forkStore {empty : Store byKind} (hempty : empty=.mem {} ∨ empty=.fs .empty)
    {kinds : List AUMKind} (hkinds : kinds=[.noOp,.invalid] ∨ kinds=[.invalid,.noOp]) :
    ∃ a, Run byKind forks (fork .checkpoint) (forkStore empty kinds) a := by
  obtain ⟨a,ha,hstore⟩ : ∃ a,
      (bootstrap .insertion .asStored .asStored empty (fork .checkpoint)).2.toOption=some a ∧
      (informIdempotent .insertion .asStored .asStored a
        (bootstrap .insertion .asStored .asStored empty (fork .checkpoint)).1 (kinds.map fork)).1
          = forkStore empty kinds := by
    rcases hempty with rfl | rfl <;> rcases hkinds with rfl | rfl <;> exact ⟨_,rfl,rfl⟩
  have hstart := Run.bootstrap (U := forks) hempty (Or.inl rfl) .insertion .asStored .asStored
  rw [ha] at hstart
  have hupdates : ∀ u ∈ kinds.map fork, u ∈ forks := by
    rcases hkinds with rfl | rfl <;> simp [forks]
  have hrun := Run.inform hstart hupdates .insertion .asStored .asStored
  rw [hstore] at hrun
  exact ⟨_,hrun⟩

lemma injOn_forks : Set.InjOn byKind.hash forks := by
  rintro a (rfl | rfl | rfl) b (rfl | rfl | rfl) hab <;> first | rfl | (revert hab; decide)

lemma acyclic_forks : Acyclic byKind forks := by
  refine ⟨fun a => if a.messageKind=.checkpoint then 0 else 1,?_⟩
  rintro a (rfl | rfl | rfl) b (rfl | rfl | rfl) hab <;> first | decide | (revert hab; decide)

lemma aum_forkStore (j : AUMHash) : (forkStore (.mem {}) [.noOp,.invalid]).aum j
    = (forkStore (.fs .empty) [.invalid,.noOp]).aum j := by
  have hne : byKind.hash (fork .noOp)≠byKind.hash (fork .invalid) := by decide
  simp only [forkStore,Store.commitVerifiedAUMs,map_cons,map_nil,foldl_cons,foldl_nil,
    aum_commit,aum_setLastActiveAncestor]
  by_cases hj : j=byKind.hash (fork .noOp)
  · rw [if_pos hj,if_neg (hj ▸ hne),if_pos hj]
  · rw [if_neg hj,if_neg hj]
    rfl

end TunnnejiTail.Tka
