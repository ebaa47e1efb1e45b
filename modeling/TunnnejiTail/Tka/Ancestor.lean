import TunnnejiTail.Tka.Candidates

/-! Which chain the remembered message selects. -/
namespace TunnnejiTail.Tka
open Go TunnnejiTail.Types List Option

/-- All chains begin with the same message; or of the heads with the same oldest ancestor as the remembered
message, the one with the greatest digest comes after it. -/
def Chonk.Selects (X : Primitives) (C : Chonk) (last : Option AUMHash) : Prop :=
  (∀ a ∈ C.heads, ∀ b ∈ C.heads, ∀ r r', C.Oldest a r → C.Oldest b r' → r=r') ∨
  ∃ a ∈ C.heads, C.Passes X last a ∧ ∀ b ∈ C.heads, (∃ r, C.Oldest a r ∧ C.Oldest b r) → digest X b≤digest X a

lemma pickAncestor_eq_ok {m : GoMap AUMHash Bool} {o : MapOrder} {k : AUMHash}
    (h : ∀ k k', m.lookup k=some true → m.lookup k'=some true → k=k') : pickAncestor (range o m)=.ok k ↔
      (∃ v, m.lookup k=some v) ∧ ((∀ k' v, m.lookup k'=some v → k'=k) ∨ m.lookup k=some true) := by
  have hmem (e : AUMHash × Bool) : e ∈ range o m ↔ m.lookup e.1=some e.2 := mem_range o m e.1 e.2
  by_cases hlen : (range o m).length=1
  · obtain ⟨e,he⟩ := length_eq_one_iff.mp hlen
    simp only [he,mem_singleton] at hmem
    have hone (k' : AUMHash) (v : Bool) (hk' : m.lookup k'=some v) : k'=e.1 :=
      congrArg Prod.fst ((hmem (k',v)).mpr hk')
    rw [he]
    constructor
    · intro hk
      cases hk
      exact ⟨⟨e.2,(hmem e).mp rfl⟩,.inl hone⟩
    · rintro ⟨⟨v,hv⟩,-⟩
      rw [hone k v hv]
      rfl
  · rw [pickAncestor_of_length hlen]
    constructor
    · intro hk
      cases hfind : (range o m).find? fun e => e.2 with
      | none =>
        rw [hfind] at hk
        cases hk
      | some e =>
        rw [hfind] at hk
        cases hk
        have hv : e.2=true := find?_some hfind
        have hmarked := (hmem e).mp (mem_of_find?_eq_some hfind)
        exact ⟨⟨e.2,hmarked⟩,.inr (hv ▸ hmarked)⟩
    · rintro ⟨⟨v,hv⟩,hall | hmarked⟩
      · refine absurd (le_antisymm ?_ ?_) hlen
        · have hpair := range_pairwise o m
          match hr : range o m with
          | [] => exact Nat.zero_le 1
          | [_] => exact le_rfl
          | e::e'::l =>
            rw [hr] at hpair hmem
            refine absurd ?_ (rel_of_pairwise_cons hpair mem_cons_self)
            exact (hall e.1 e.2 ((hmem e).mp mem_cons_self)).trans
              (hall e'.1 e'.2 ((hmem e').mp (mem_cons_of_mem e mem_cons_self))).symm
        · exact length_pos_of_mem ((hmem (k,v)).mpr hv)
      · cases hfind : (range o m).find? fun e => e.2 with
        | none =>
          exact absurd rfl (find?_eq_none.mp hfind (k,true) ((hmem (k,true)).mpr hmarked))
        | some e =>
          have hv : e.2=true := find?_some hfind
          have he := (hmem e).mp (mem_of_find?_eq_some hfind)
          exact congrArg Except.ok (h e.1 k (hv ▸ he) hmarked)

lemma exists_rank_le (rank : AUM → ℕ) {A : Set AUM} {l : List AUM} (hl : ∀ a ∈ A, a ∈ l) :
    ∃ N, ∀ a ∈ A, rank a≤N := by
  refine ⟨(l.map rank).foldr max 0,fun a ha => ?_⟩
  have ha := hl a ha
  clear hl
  induction l with
  | nil => cases ha
  | cons c l ih =>
    rcases mem_cons.mp ha with rfl | ha
    · exact le_max_left _ _
    · exact (ih ha).trans (le_max_right _ _)

section
variable {X : Primitives} {C : Chonk} {A : Set AUM} {names : AUM → AUMHash → Prop}
  (hC : C.Reads X A names) {last : Option AUMHash} {maxIter : ℕ} {chains : List Chain}
include hC

lemma Chonk.Reads.injOn : Set.InjOn X.hash A := injOn_of_aum hC.aum_eq_some

variable {a b : AUM}

lemma Chonk.Reads.back_eq_some : C.back a=some b ↔ b ∈ A ∧ a.parent=some (X.hash b) := by
  rw [Chonk.back,bind_eq_some_iff]
  constructor
  · rintro ⟨p,hp,hb⟩
    obtain ⟨hbA,rfl⟩ := (hC.aum_eq_some p b).mp hb
    exact ⟨hbA,hp⟩
  · rintro ⟨hb,hp⟩
    exact ⟨X.hash b,hp,(hC.aum_eq_some _ b).mpr ⟨hb,rfl⟩⟩

lemma Chonk.Reads.mem_of_walk {n : ℕ} (ha : a ∈ A) (h : walk C.back n a=some b) : b ∈ A :=
  walk_induction (P := (· ∈ A)) (fun _ hb => (hC.back_eq_some.mp hb).1) h ha

lemma Chonk.Reads.head_mem (hchains : Candidates X C last maxIter chains) {c : Chain} (hc : c ∈ chains) :
    c.head ∈ A :=
  ((hC.mem_heads _).mp ((hchains.mem_heads _).mpr ⟨c,hc,rfl⟩)).1

variable {k : AUMHash}

lemma lookup_markAncestors_iff (hchains : Candidates X C last maxIter chains) {v : Bool} :
    (markAncestors X chains).lookup k=some v ↔ ∃ c ∈ chains, X.hash c.oldest=k ∧ c.chainsThroughActive=v ∧
        ∀ d ∈ chains, X.hash d.oldest=k → digest X d.head≤digest X c.head := by
  have hlast {c : Chain} (hc : (forKey (fun c : Chain => X.hash c.oldest) k chains).getLast? = some c) :
      c ∈ chains ∧ X.hash c.oldest=k ∧ ∀ d ∈ chains, X.hash d.oldest=k → digest X d.head≤digest X c.head := by
    obtain ⟨hmem,hk⟩ := mem_forKey.mp (mem_of_getLast? hc)
    refine ⟨hmem,hk,fun d hd hdk => ?_⟩
    obtain ⟨l,hl⟩ := getLast?_eq_some_iff.mp hc
    have hpair : (l++[c]).Pairwise fun c d => digest X c.head≤digest X d.head :=
      hl ▸ hchains.sorted.filter _
    have hd : d ∈ l++[c] := hl ▸ mem_forKey.mpr ⟨hd,hdk⟩
    rcases mem_append.mp hd with hd | hd
    · exact (pairwise_append.mp hpair).2.2 d hd c mem_cons_self
    · rw [mem_singleton.mp hd]
  rw [lookup_markAncestors_eq,getLast?_map]
  constructor
  · intro h
    obtain ⟨c,hc,rfl⟩ := map_eq_some_iff.mp h
    obtain ⟨hmem,hk,hmax⟩ := hlast hc
    exact ⟨c,hmem,hk,rfl,hmax⟩
  · rintro ⟨c,hmem,hk,rfl,hmax⟩
    cases hd : (forKey (fun c : Chain => X.hash c.oldest) k chains).getLast? with
    | none => exact absurd hk (forKey_eq_nil.mp (getLast?_eq_none_iff.mp hd) c hmem)
    | some d =>
      obtain ⟨hdmem,hdk,hdmax⟩ := hlast hd
      have hhead : d.head=c.head := by
        refine hC.injOn (hC.head_mem hchains hdmem) (hC.head_mem hchains hmem) (Raw32.ext_toNat ?_)
        exact le_antisymm (hmax d hdmem hdk) (hdmax c hmem hk)
      refine congrArg some (Bool.eq_iff_iff.mpr ?_)
      rw [hchains.through d hdmem,hchains.through c hmem,hhead]

variable {r : AUM}

lemma Chonk.Reads.oldest_of_passes (ha : a ∈ A) (hb : b ∈ A) (hr : C.Oldest b r)
    (h : C.Passes X (some (X.hash b)) a) : C.Oldest a r := by
  obtain ⟨n,b',hw,he⟩ := h
  cases hC.injOn hb (hC.mem_of_walk ha hw) (Option.some.inj he)
  obtain ⟨k,hk⟩ := hr
  exact ⟨n+1+k,hk.trans hw⟩

omit hC in
lemma Chonk.Oldest.unique {r' : AUM} (h : C.Oldest a r) (h' : C.Oldest a r') : r=r' := by
  obtain ⟨n,hn⟩ := h
  obtain ⟨m,hm⟩ := h'
  exact (hn.unique hm).2

variable {o : MapOrder}

lemma computeActiveAncestor_eq_ok (hchains : Candidates X C last maxIter chains) :
    computeActiveAncestor X o chains=.ok k ↔ (∃ c ∈ chains, X.hash c.oldest=k) ∧ ((∀ c ∈ chains, X.hash c.oldest=k) ∨
        ∃ c ∈ chains, X.hash c.oldest=k ∧ C.Passes X last c.head ∧
          ∀ d ∈ chains, X.hash d.oldest=k → digest X d.head≤digest X c.head) := by
  have hlookup {k : AUMHash} {v : Bool} := lookup_markAncestors_iff hC hchains (k := k) (v := v)
  have hin {c : Chain} := hC.head_mem hchains (c := c)
  have hsome (k : AUMHash) : (∃ v, (markAncestors X chains).lookup k=some v) ↔ ∃ c ∈ chains, X.hash c.oldest=k := by
    constructor
    · rintro ⟨v,hv⟩
      obtain ⟨c,hc,hk,-⟩ := lookup_markAncestors hv
      exact ⟨c,hc,hk⟩
    · rintro ⟨c,hc,hk⟩
      rw [← isSome_iff_exists,lookup_markAncestors_eq,getLast?_isSome]
      exact ne_nil_of_mem (List.mem_map_of_mem (mem_forKey.mpr ⟨hc,hk⟩))
  have hmarked : ∀ k k', (markAncestors X chains).lookup k=some true →
      (markAncestors X chains).lookup k'=some true → k=k' := by
    intro k k' hk hk'
    obtain ⟨c,hc,rfl,hct,-⟩ := hlookup.mp hk
    obtain ⟨d,hd,rfl,hdt,-⟩ := hlookup.mp hk'
    obtain ⟨n,b,hw,hb⟩ := (hchains.through c hc).mp hct
    have hbA := hC.mem_of_walk (hin hc) hw
    obtain ⟨j,-,hj⟩ := hchains.oldest c hc
    obtain ⟨i,-,hi⟩ := hchains.oldest d hd
    obtain ⟨m,-,hm⟩ := hj.rest hw
    have hold := hC.oldest_of_passes (hin hd) hbA ⟨m,hm⟩ (hb ▸ (hchains.through d hd).mp hdt)
    rw [hold.unique ⟨i,hi⟩]
  rw [computeActiveAncestor,pickAncestor_eq_ok hmarked,hsome]
  refine and_congr_right fun _ => or_congr ?_ ?_
  · constructor
    · intro h c hc
      obtain ⟨v,hv⟩ := (hsome _).mpr ⟨c,hc,rfl⟩
      exact h _ v hv
    · intro h k' v hv
      obtain ⟨c,hc,rfl,-⟩ := lookup_markAncestors hv
      exact h c hc
  · rw [hlookup]
    refine exists_congr fun c => and_congr_right fun hc => and_congr_right fun _ => ?_
    rw [hchains.through c hc]

lemma exists_ancestor_iff (hchains : Candidates X C last maxIter chains) (hheads : C.heads≠[])
    (o : MapOrder) : (∃ k, computeActiveAncestor X o chains=.ok k) ↔ C.Selects X last := by
  have hin {c : Chain} (hc : c ∈ chains) : c.head ∈ C.heads := (hchains.mem_heads _).mpr ⟨c,hc,rfl⟩
  have hmem {c : Chain} (hc : c ∈ chains) : c.oldest ∈ A := by
    obtain ⟨j,-,hj⟩ := hchains.oldest c hc
    exact hC.mem_of_walk ((hC.mem_heads _).mp (hin hc)).1 hj.1
  have hold {c : Chain} (hc : c ∈ chains) : C.Oldest c.head c.oldest := by
    obtain ⟨j,-,hj⟩ := hchains.oldest c hc
    exact ⟨j,hj⟩
  simp only [computeActiveAncestor_eq_ok hC hchains]
  constructor
  · rintro ⟨k,-,hall | ⟨c,hc,rfl,hpass,hmax⟩⟩
    · left
      intro a ha b hb r r' hr hr'
      obtain ⟨c,hc,rfl⟩ := (hchains.mem_heads a).mp ha
      obtain ⟨d,hd,rfl⟩ := (hchains.mem_heads b).mp hb
      rw [hr.unique (hold hc),hr'.unique (hold hd)]
      exact hC.injOn (hmem hc) (hmem hd) ((hall c hc).trans (hall d hd).symm)
    · right
      refine ⟨c.head,hin hc,hpass,?_⟩
      rintro b hb ⟨r,hr,hr'⟩
      obtain ⟨d,hd,rfl⟩ := (hchains.mem_heads b).mp hb
      refine hmax d hd ?_
      rw [← hr'.unique (hold hd),hr.unique (hold hc)]
  · rintro (hall | ⟨a,ha,hpass,hmax⟩)
    · obtain ⟨a,ha⟩ := exists_mem_of_ne_nil _ hheads
      obtain ⟨c,hc,-⟩ := (hchains.mem_heads a).mp ha
      refine ⟨X.hash c.oldest,⟨c,hc,rfl⟩,.inl fun d hd => ?_⟩
      rw [hall d.head (hin hd) c.head (hin hc) _ _ (hold hd) (hold hc)]
    · obtain ⟨c,hc,rfl⟩ := (hchains.mem_heads a).mp ha
      refine ⟨X.hash c.oldest,⟨c,hc,rfl⟩,.inr ⟨c,hc,rfl,hpass,fun d hd he => ?_⟩⟩
      refine hmax d.head (hin hd) ⟨c.oldest,hold hc,?_⟩
      rw [← hC.injOn (hmem hd) (hmem hc) he]
      exact hold hd

variable {rank : AUM → ℕ} (hrank : Ranked X A rank)
include hrank

lemma Chonk.Reads.rank_back (ha : a ∈ A) (hb : C.back a=some b) : b ∈ A ∧ rank b < rank a := by
  obtain ⟨hbA,hp⟩ := hC.back_eq_some.mp hb
  exact ⟨hbA,hrank a ha b hbA hp⟩

lemma Chonk.Reads.exists_oldest (ha : a ∈ A) : ∃ r, C.Oldest a r := by
  obtain ⟨n,r,hr⟩ := exists_ends (hC.rank_back hrank) ha
  exact ⟨r,n,hr⟩

variable {l : List AUM}

lemma Chonk.Reads.exists_head (hl : ∀ a ∈ A, a ∈ l) (ha : a ∈ A) :
    ∃ b ∈ C.heads, ∃ n, walk C.back n b=some a := by
  obtain ⟨N,hN⟩ := exists_rank_le rank hl
  induction hd : N-rank a using Nat.strong_induction_on generalizing a with
  | _ d ih =>
    by_cases hhead : a ∈ C.heads
    · exact ⟨a,hhead,0,rfl⟩
    · obtain ⟨b,hb,hp⟩ : ∃ b ∈ A, b.parent=some (X.hash a) := by
        by_contra hnone
        refine hhead ((hC.mem_heads a).mpr ⟨ha,fun b hb hp => hnone ⟨b,hb,hp⟩⟩)
      have hlt := hrank b hb a ha hp
      have hle := hN b hb
      obtain ⟨h,hh,n,hn⟩ := ih (N-rank b) (by omega) hb rfl
      refine ⟨h,hh,n+1,walk_succ_eq_some_last.mpr ⟨b,hn,?_⟩⟩
      exact hC.back_eq_some.mpr ⟨ha,hp⟩

lemma ancestor_of_stored (hl : ∀ a ∈ A, a ∈ l) (hchains : Candidates X C last maxIter chains) (ha : a ∈ A)
    (hlast : last=some (X.hash a)) (hr : C.Oldest a r)
    (hk : computeActiveAncestor X o chains=.ok k) : k=X.hash r := by
  subst hlast
  have hold {c : Chain} (hcm : c ∈ chains) (h : C.Oldest c.head r) : c.oldest=r := by
    obtain ⟨j,-,hj⟩ := hchains.oldest c hcm
    exact Chonk.Oldest.unique ⟨j,hj⟩ h
  obtain ⟨-,hall | ⟨c,hcm,rfl,hpass,-⟩⟩ := (computeActiveAncestor_eq_ok hC hchains).mp hk
  · obtain ⟨b,hb,n,hn⟩ := hC.exists_head hrank hl ha
    obtain ⟨d,hd,rfl⟩ := (hchains.mem_heads b).mp hb
    obtain ⟨m,hm⟩ := hr
    rw [← hall d hd,hold hd ⟨n+m,hm.trans hn⟩]
  · have hhead := ((hC.mem_heads _).mp ((hchains.mem_heads _).mpr ⟨c,hcm,rfl⟩)).1
    rw [hold hcm (hC.oldest_of_passes hhead ha hr hpass)]

end

/-- The remembered message selects the chain: when it is stored and no chain is too long then the oldest
stored ancestor of the remembered message is found exactly if it is the only oldest one or if of the heads above it
the one with the greatest digest comes after the remembered message. -/
theorem Store.Filled.ancestor_iff {X : Primitives} {U : Set AUM} (hU : Set.InjOn X.hash U)
    (hacyclic : Acyclic X U) {storage : Store X} (hs : storage.Filled U) {lastKnownOldest : AUMHash} {a : AUM}
    (ha : storage.aum lastKnownOldest=some a) {sorter : SliceSort} {o : MapOrder} {maxIter : ℕ}
    {chains : List Chain}
    (hchains : computeChainCandidates X sorter (storage.chonk o) (some lastKnownOldest) maxIter=.ok chains)
    (o' : MapOrder) : ∃ r, (storage.chonk o).Oldest a r ∧ (computeActiveAncestor X o' chains=.ok (X.hash r) ↔
        (storage.chonk o).Selects X (some lastKnownOldest)) := by
  obtain ⟨rank,hrank⟩ := hacyclic
  have hkept := hs.kept hU
  have hC := hkept.reads o
  have hrank : ∀ a ∈ storage.stored, ∀ b ∈ storage.stored, a.parent=some (X.hash b) → rank b < rank a :=
    fun a ha b hb => hrank a (hkept.mem_of_stored ha) b (hkept.mem_of_stored hb)
  have hc := computeChainCandidates_eq_ok hchains
  have haA : a ∈ storage.stored := ⟨_,ha⟩
  obtain rfl := (hkept.sound ha).1
  obtain ⟨r,hr⟩ := hC.exists_oldest hrank haA
  obtain ⟨l,hl⟩ := storage.exists_list_stored
  obtain ⟨b,hb,-⟩ := hC.exists_head hrank hl haA
  refine ⟨r,hr,?_⟩
  rw [← exists_ancestor_iff hC hc (ne_nil_of_mem hb) o']
  constructor
  · exact fun h => ⟨_,h⟩
  · rintro ⟨k,hk⟩
    rw [hk,ancestor_of_stored hC hrank hl hc haA rfl hr hk]

/-- Digests that only look at the votes. -/
def byVotes : Primitives where
  hash a := .fill (a.votes.getD 0).toUInt8
  sigHash _ := []
  verifyConsensus _ _ _ := true
  v _ := ""
  x _ := ""
  lowerX _ := ""
  plusV _ := ""

/-- A message with a number, after another one or the first of its chain. -/
def numbered (n : UInt64) (after : Option UInt8) : AUM where
  messageKind := .noOp
  prevAUMHash := after.map fun p => (Raw32.fill p).bytes
  votes := some n

/-- A chain of three messages, a fork before its second one, and a message of its own. -/
def threeAndFork : Set AUM :=
  {numbered 1 none,numbered 2 (some 1),numbered 3 (some 2),numbered 4 (some 1),numbered 5 none}

lemma injOn_threeAndFork : Set.InjOn byVotes.hash threeAndFork := by
  rintro a (rfl | rfl | rfl | rfl | rfl) b (rfl | rfl | rfl | rfl | rfl) hab <;>
    first | rfl | (revert hab; decide)

lemma acyclic_threeAndFork : Acyclic byVotes threeAndFork := by
  refine ⟨fun a => (a.votes.getD 0).toNat,?_⟩
  rintro a (rfl | rfl | rfl | rfl | rfl) b (rfl | rfl | rfl | rfl | rfl) hab <;>
    first | decide | (revert hab; decide)

def threeAndOne : Store byVotes :=
  Store.commitVerifiedAUMs (.mem {}) [numbered 1 none,numbered 2 (some 1),numbered 3 (some 2),numbered 5 none]

lemma filled_threeAndOne : threeAndOne.Filled threeAndFork := by
  refine .commit (.commit (.commit (.commit .mem ?_) ?_) ?_) ?_ <;> simp [threeAndFork]

set_option maxRecDepth 20000 in
/-- The chain is found by its second message. -/
theorem Store.Filled.ancestor_second : ∃ chains,
    computeChainCandidates byVotes .insertion (threeAndOne.chonk .asStored) (some (.fill 2)) 2000=.ok chains ∧
      computeActiveAncestor byVotes .asStored chains=.ok (.fill 1) := by
  obtain ⟨chains,hchains⟩ : ∃ chains, computeChainCandidates byVotes .insertion
      (threeAndOne.chonk .asStored) (some (.fill 2)) 2000=.ok chains := ⟨_,rfl⟩
  obtain ⟨r,hr,hiff⟩ := Store.Filled.ancestor_iff injOn_threeAndFork acyclic_threeAndFork filled_threeAndOne
    (a := numbered 2 (some 1)) rfl hchains .asStored
  have hone : (threeAndOne.chonk .asStored).Oldest (numbered 2 (some 1)) (numbered 1 none) := ⟨1,rfl,rfl⟩
  have hheads : (threeAndOne.chonk .asStored).heads=[numbered 5 none,numbered 3 (some 2)] := by decide
  rw [hr.unique hone] at hiff
  refine ⟨chains,hchains,hiff.mpr (.inr ⟨numbered 3 (some 2),?_,⟨0,numbered 2 (some 1),rfl,rfl⟩,?_⟩)⟩
  · rw [hheads]
    exact mem_cons_of_mem _ mem_cons_self
  · rw [hheads]
    rintro b hb ⟨r,hr,hr'⟩
    rcases mem_cons.mp hb with rfl | hb
    · have h1 : r=numbered 1 none := hr.unique ⟨2,rfl,rfl⟩
      have h5 : r=numbered 5 none := hr'.unique ⟨0,rfl,rfl⟩
      exact absurd (h1.symm.trans h5) (by decide)
    · rw [mem_singleton.mp hb]

set_option maxRecDepth 20000 in
/-- No ancestor is found when a fork that leaves the chain before the remembered message has a greater
digest than its head, and none when the remembered message is itself the head. -/
theorem remembered_not_found :
    (∃ chains, computeChainCandidates byVotes .insertion
        ((threeAndOne.commit (numbered 4 (some 1))).chonk .asStored) (some (.fill 2)) 2000=.ok chains ∧
      computeActiveAncestor byVotes .asStored chains=failWith "multiple distinct chains") ∧
    ∃ chains, computeChainCandidates byVotes .insertion (threeAndOne.chonk .asStored) (some (.fill 3)) 2000
        = .ok chains ∧
      computeActiveAncestor byVotes .asStored chains=failWith "multiple distinct chains" :=
  ⟨⟨_,rfl,by decide⟩,⟨_,rfl,by decide⟩⟩

end TunnnejiTail.Tka
