import TunnnejiTail.Tka.AncestorPass
import TunnnejiTail.Tka.Grown

/-! What a compaction leaves: the messages that come from a checkpoint on the active chain. The fork choice
goes on from the checkpoint as it did before. -/
namespace TunnnejiTail.Tka
open Go TunnnejiTail.Types List Option

variable {X : Primitives} {U : Set AUM} {B : AUM} {rank : AUM → ℕ} {N : AUM} {st : State}

namespace Store

variable {s s' : Store X} {h : AUMHash}

lemma aum_purge (hs : s.purge h=some s') (j : AUMHash) :
    s'.aum j=if j=h then none else s.aum j := by
  cases s with
  | mem c =>
    cases hs
    change (c.aums.erase h).lookup j=if j=h then none else c.aums.lookup j
    by_cases hj : j=h
    · rw [if_pos hj,hj,AList.lookup_erase]
    · rw [if_neg hj,AList.lookup_erase_ne hj]
  | fs c =>
    obtain ⟨c',hc',rfl⟩ := map_eq_some_iff.mp hs
    change c'.aum j=if j=h then none else c.aum j
    rw [FS.purge] at hc'
    split at hc'
    · cases hc'
    · next info hinfo =>
      split at hc'
      · next hgone =>
        cases hc'
        by_cases hj : j=h
        · rw [if_pos hj,hj,FS.aum,hinfo]
          dsimp only
          rcases hgone with hnone | hpurged
          · rw [isNone_iff_eq_none.mp hnone,ite_self]
          · rw [if_pos hpurged]
        · rw [if_neg hj]
      · cases hc'
        rw [FS.aum,FS.write,FS.aum]
        rw [lookup_insert_ite]
        split_ifs <;> rfl

lemma aum_purgeAUMs {i : ℕ} {l : List AUMHash} (h : s.purgeError i l=none) (j : AUMHash) :
    (s.purgeAUMs l).aum j=if j ∈ l then none else s.aum j := by
  induction l generalizing s i with
  | nil =>
    rw [purgeAUMs,if_neg not_mem_nil]
  | cons k l ih =>
    rw [purgeError] at h
    rw [purgeAUMs]
    cases hs : s.purge k with
    | none =>
      rw [hs] at h
      cases h
    | some s' =>
      rw [hs] at h
      rw [ih h,aum_purge hs]
      by_cases hjl : j ∈ l
      · rw [if_pos hjl,if_pos (mem_cons_of_mem k hjl)]
      · by_cases hjk : j=k
        · rw [if_neg hjl,if_pos hjk,if_pos (mem_cons.mpr (.inl hjk))]
        · rw [if_neg hjl,if_neg hjk,if_neg fun hj => (mem_cons.mp hj).elim hjk hjl]

lemma Filled.purgeAUMs (hs : s.Filled U) (l : List AUMHash) : (s.purgeAUMs l).Filled U := by
  induction l generalizing s with
  | nil => exact hs
  | cons h l ih =>
    rw [Store.purgeAUMs]
    cases hp : s.purge h with
    | none => exact hs
    | some s' => exact ih (hs.purge hp)

lemma lastActiveAncestor_purge (hs : s.purge h=some s') :
    s'.lastActiveAncestor=s.lastActiveAncestor := by
  cases s with
  | mem c =>
    cases hs
    rfl
  | fs c =>
    obtain ⟨c',hc',rfl⟩ := map_eq_some_iff.mp hs
    rw [FS.purge] at hc'
    split at hc'
    · cases hc'
    · split at hc' <;> cases hc' <;> rfl

lemma lastActiveAncestor_purgeAUMs (s : Store X) (l : List AUMHash) :
    (s.purgeAUMs l).lastActiveAncestor=s.lastActiveAncestor := by
  induction l generalizing s with
  | nil => rfl
  | cons h l ih =>
    rw [purgeAUMs]
    cases hp : s.purge h with
    | none => rfl
    | some s' => exact (ih s').trans (lastActiveAncestor_purge hp)

end Store

section
variable {A : Set AUM} (hA : Grounded X U B B A) (hU : Set.InjOn X.hash U)
  (hrank : Ranked X U rank) {names : AUM → AUMHash → Prop}
  {C : Chonk} (hC : C.Reads X A names)
include hA hU hrank hC

variable {e : AUM × State} {i : ℕ}

lemma Grounded.exists_leads_from {p : AUM × State} (h : (forkRule X).Leads A p e) (hp : Verified X U B p.1 p.2)
    (hpA : p.1 ∈ A) (hN : walk C.back i e.1=some N) :
    (∃ st, Verified X U B N st ∧ (forkRule X).Leads A (N,st) e) ∨ ∃ j, walk C.back (j+1) p.1=some N := by
  induction h with
  | @stop p hnone =>
    cases i with
    | zero =>
      cases hN
      exact .inl ⟨p.2,hp,.stop hnone⟩
    | succ i => exact .inr ⟨i,hN⟩
  | @go p q e hstep h ih =>
    rcases ih (hA.verified_of_step hU hrank hp hstep) hstep.mem hN with hfound | ⟨j,hj⟩
    · exact .inl hfound
    · rw [walk_succ_of (hC.back_eq_some.mpr ⟨hpA,hstep.follows⟩)] at hj
      cases j with
      | zero =>
        cases hj
        exact .inl ⟨p.2,hp,.go hstep h⟩
      | succ j => exact .inr ⟨j,hj⟩

lemma Grounded.leads_from (hB : Verified X U B B st)
    (h : (forkRule X).Leads A (B,st) e) (hN : walk C.back i e.1=some N) :
    ∃ st', Verified X U B N st' ∧ (forkRule X).Leads A (N,st') e := by
  refine (hA.exists_leads_from hU hrank hC h hB hA.root hN).resolve_right ?_
  rintro ⟨j,hj⟩
  obtain ⟨b,hb,-⟩ := walk_succ_eq_some.mp hj
  cases (hA.back_root hrank hC).symm.trans hb

omit hC in
lemma Grounded.leads_anti {A' : Set AUM} (hA' : Grounded X U B N A') (hsub : A' ⊆ A)
    (h : (forkRule X).Leads A (N,st) e) (he : e.1 ∈ A') : (forkRule X).Leads A' (N,st) e := by
  refine (h.anti (P := fun p => p.1 ∈ A ∧ rank N ≤ rank p.1) hsub ?_ ⟨hsub hA'.root,le_rfl⟩ he).2
  intro p q hp hstep
  have hlt := hA.rank_lt hrank q.1 hstep.mem p.1 hp.1 hstep.follows
  refine ⟨⟨hstep.mem,hp.2.trans hlt.le⟩,fun hq => ?_⟩
  obtain ⟨b,hb,hpb⟩ := hA'.closed q.1 hq fun he => absurd (he ▸ hlt) (not_lt.mpr hp.2)
  rw [← hA.injOn hU (hsub hb) hp.1 (Option.some.inj (hpb.symm.trans hstep.follows))]
  exact hb

end

lemma Chonk.Reads.mem_of_walk_mono {A A' : Set AUM} {names names' : AUM → AUMHash → Prop} {C C' : Chonk}
    (hC : C.Reads X A names) (hC' : C'.Reads X A' names') (hsub : A' ⊆ A) {k : ℕ} {a b : AUM} (ha : a ∈ A')
    (h : walk C'.back k a=some b) {j : ℕ} (hj : j≤k) {x : AUM} (hx : walk C.back j a=some x) : x ∈ A' := by
  obtain ⟨l,rfl⟩ := Nat.exists_eq_add_of_le hj
  rw [walk_add] at h
  obtain ⟨y,hy,-⟩ := bind_eq_some_iff.mp h
  cases hx.symm.trans (hC'.walk_back_mono hC hsub hy)
  exact hC'.mem_of_walk ha hy

section
variable (hU : Set.InjOn X.hash U) (hrank : Ranked X U rank)
  {storage storage' : Store X}
include hU

/-- What is left of the store. -/
structure Compacted (X : Primitives) (U : Set AUM) (B : AUM) (storage storage' : Store X) (H : AUM) (k : ℕ) (N : AUM) :
    Prop where
  filled : storage'.Filled U
  grounded : Grounded X U B N storage'.stored
  sub : storage'.stored ⊆ storage.stored
  last : storage'.lastActiveAncestor=some (X.hash N)
  chain : walk (storage.chonk .asStored).back k H=some N
  path : ∀ j≤k, ∀ x, walk (storage.chonk .asStored).back j H=some x → x ∈ storage'.stored

include hrank

lemma Rooted.compacted {a : Authority} (h : Rooted X U B storage a) {fuel : ℕ} {os : CompactOrders}
    {commitTime : AUMHash → Option ℤ} {now : ℤ} {opts : CompactionOptions} {last : AUMHash}
    (hcompact : compact fuel os commitTime now storage (X.hash a.head) opts=(storage',.ok last)) :
    ∃ k N, last=X.hash N ∧ Compacted X U B storage storage' a.head k N := by
  have hkept := h.filled.kept hU
  have hC := hkept.reads os.storage
  rw [compact] at hcompact
  split at hcompact
  · cases hcompact
  · next v j hverdict =>
    obtain ⟨hstorage,hlast⟩ := Prod.mk.inj hcompact
    split at hlast
    · next hpurge =>
      cases hlast
      obtain ⟨k,N,rfl,hv⟩ := h.grounded.settled hU hrank hC h.head (fun j => hkept.mem_allAUMs os.storage j) rfl
        hverdict
      have hdelete (a : AUM) (ha : a ∈ storage.stored) :
          X.hash a ∈ ((range os.delete v).filter fun e => !e.2.retained).map Prod.fst ↔
            ¬ (entry v (X.hash a)).retained=true := by
        rw [mem_keys_filter,and_iff_right (hv.mem a ha)]
        simp
      have hmem (a : AUM) : a ∈ storage'.stored ↔ a ∈ storage.stored ∧ (entry v (X.hash a)).retained=true := by
        have haum (j : AUMHash) := Store.aum_purgeAUMs hpurge j
        simp only [hstorage,Store.aum_setLastActiveAncestor] at haum
        constructor
        · rintro ⟨j,hj⟩
          rw [haum] at hj
          split at hj
          · cases hj
          · next hnot =>
            have ha : a ∈ storage.stored := ⟨j,hj⟩
            refine ⟨ha,not_not.mp fun hret => hnot ?_⟩
            rw [← (hkept.sound hj).1]
            exact (hdelete a ha).mpr hret
        · rintro ⟨ha,hret⟩
          refine ⟨X.hash a,?_⟩
          rw [haum,if_neg fun hdel => (hdelete a ha).mp hdel hret]
          exact hkept.aum_hash ha
      refine ⟨k,N,rfl,?_,?_,fun a ha => ((hmem a).mp ha).1,?_,hv.chain,fun j hj x hx => ?_⟩
      · rw [← hstorage]
        exact (h.filled.setLast _).purgeAUMs _
      · refine ⟨fun b hb => h.grounded.verified b ((hmem b).mp hb).1,?_,hv.checkpoint,fun b hb hne => ?_⟩
        · exact (hmem N).mpr ⟨hC.mem_of_walk h.head hv.chain,hv.path k le_rfl N hv.chain⟩
        · obtain ⟨hbA,hret⟩ := (hmem b).mp hb
          obtain ⟨c,hc,hp,hretc⟩ := hv.closed b hbA hret hne
          exact ⟨c,(hmem c).mpr ⟨hc,hretc⟩,hp⟩
      · rw [← hstorage,Store.lastActiveAncestor_purgeAUMs]
        cases storage <;> rfl
      · exact (hmem x).mpr ⟨hC.mem_of_walk h.head hx,hv.path j hj x hx⟩
    · cases hlast

variable {a : Authority} (h : Rooted X U B storage a) {k : ℕ}
  (hc : Compacted X U B storage storage' a.head k N)
include h hc

lemma Compacted.exists_walk {b : AUM} (hb : b ∈ storage'.stored) :
    ∃ k, walk (storage.chonk .asStored).back k b=some N ∧
      ∀ j≤k, ∀ x, walk (storage.chonk .asStored).back j b=some x → x ∈ storage'.stored := by
  have hC := (h.filled.kept hU).reads .asStored
  have hC' := (hc.filled.kept hU).reads .asStored
  obtain ⟨k,hk,-⟩ := hc.grounded.exists_ends hrank hC' hb
  exact ⟨k,hC'.walk_back_mono hC hc.sub hk,fun j hj x hx => hC.mem_of_walk_mono hC' hc.sub hb hk hj hx⟩

variable {o o' : MapOrder}

lemma Compacted.within {maxIter : ℕ} (hwithin : (storage.chonk o).Within maxIter) :
    (storage'.chonk o').Within maxIter := by
  have hC := (h.filled.kept hU).reads o
  have hC' := (hc.filled.kept hU).reads o'
  obtain ⟨l,hl⟩ := storage.exists_list_stored
  obtain ⟨l',hl'⟩ := storage'.exists_list_stored
  rw [hc.grounded.within_iff hrank hC' hl']
  intro b hb
  obtain ⟨k,hk,hw⟩ := (h.grounded.within_iff hrank hC hl).mp hwithin b (hc.sub hb)
  obtain ⟨j,hj,-⟩ := hc.grounded.exists_ends hrank hC' hb
  obtain ⟨i,rfl,-⟩ := Ends.rest ⟨hw,h.grounded.back_root hrank hC⟩ (hC'.walk_back_mono hC hc.sub hj)
  exact ⟨j,by omega,hj⟩

lemma Compacted.exists_leads (hB : Verified X U B B st)
    (hleads : (forkRule X).Leads storage.stored (B,st) (a.head,a.state)) :
    ∃ st', Verified X U B N st' ∧ (forkRule X).Leads storage'.stored (N,st') (a.head,a.state) := by
  have hC := (h.filled.kept hU).reads .asStored
  obtain ⟨st',hst',hN⟩ := h.grounded.leads_from hU hrank hC hB hleads hc.chain
  exact ⟨st',hst',h.grounded.leads_anti hU hrank hc.grounded hc.sub hN (hc.path 0 k.zero_le a.head rfl)⟩

variable {s : SliceSort}

section
variable (hB : Verified X U B B st) (hleads : (forkRule X).Leads storage.stored (B,st) (a.head,a.state))
include hB hleads

lemma Compacted.openStore_iff :
    (∃ a', openStore s o o' storage'=.ok a') ↔ (storage'.chonk o).Within maxScanIterations := by
  have hC' := (hc.filled.kept hU).reads o
  obtain ⟨l,hl⟩ := storage'.exists_list_stored
  obtain ⟨st',hst',hN⟩ := hc.exists_leads hU hrank h hB hleads
  constructor
  · rintro ⟨a',ha'⟩
    obtain ⟨c,hactive,-⟩ := map_eq_ok.mp ha'
    exact ((hc.grounded.active_iff hU hrank hC' hl hst' (q := (c.head,c.state)) (by decide)).mp
      ⟨c,mapError_eq_ok.mp hactive,rfl,rfl⟩).1
  · intro hwithin
    obtain ⟨c,hactive,-⟩ := (hc.grounded.active_iff hU hrank hC' hl hst' (by decide)).mpr ⟨hwithin,hN⟩
    exact ⟨_,map_eq_ok.mpr ⟨c,mapError_eq_ok.mpr hactive,rfl⟩⟩

lemma Compacted.eq_of_openStore
    {a' : Authority} (ha' : openStore s o o' storage'=.ok a') : a'.head=a.head ∧ a'.state=a.state := by
  have hC' := (hc.filled.kept hU).reads o
  obtain ⟨l,hl⟩ := storage'.exists_list_stored
  obtain ⟨st',hst',hN⟩ := hc.exists_leads hU hrank h hB hleads
  obtain ⟨c,hactive,rfl⟩ := map_eq_ok.mp ha'
  obtain ⟨-,hleads'⟩ := (hc.grounded.active_iff hU hrank hC' hl hst' (q := (c.head,c.state)) (by decide)).mp
    ⟨c,mapError_eq_ok.mp hactive,rfl,rfl⟩
  exact Prod.mk.inj (hleads'.unique (forkRule_lawful X) hN)

end

omit hc in
lemma Rooted.of_openStore {a0 : Authority}
    (hopen : openStore s o o' storage=.ok a0) : (storage.chonk o).Within maxScanIterations ∧
      a0.head=a.head ∧ a0.state=a.state ∧ ∃ st, Verified X U B B st ∧
        (forkRule X).Leads storage.stored (B,st) (a.head,a.state) := by
  have hC := (h.filled.kept hU).reads o
  obtain ⟨l,hl⟩ := storage.exists_list_stored
  obtain ⟨stB,hB⟩ := h.grounded.verified B h.grounded.root
  obtain ⟨c,hactive,rfl⟩ := map_eq_ok.mp hopen
  obtain ⟨hwithin,hleads⟩ := (h.grounded.active_iff hU hrank hC hl hB (q := (c.head,c.state)) (by decide)).mp
    ⟨c,mapError_eq_ok.mp hactive,rfl,rfl⟩
  have hsynced := h.synced o stB hwithin hB
  obtain ⟨hhead,hstate⟩ := Prod.mk.inj (hleads.unique (forkRule_lawful X) hsynced)
  exact ⟨hwithin,hhead,hstate,stB,hB,hsynced⟩

end

/-- Digests that tell the first message, a checkpoint after it and other messages apart. -/
def bySuccession : Primitives :=
  { byKind with hash := fun a => .fill (if a.prevAUMHash=none then 1 else if a.messageKind=.checkpoint then 2 else 3) }

def succession : ℕ → AUM
  | 0 => fork .checkpoint
  | 1 => { fork .checkpoint with prevAUMHash := some (Raw32.fill 1).bytes }
  | _ => { fork .noOp with prevAUMHash := some (Raw32.fill 2).bytes }

def successions : Set AUM := {succession 0,succession 1,succession 2}

lemma injOn_successions : Set.InjOn bySuccession.hash successions := by
  rintro a (rfl | rfl | rfl) b (rfl | rfl | rfl) hab <;> first | rfl | (revert hab; decide)

lemma acyclic_successions : Acyclic bySuccession successions := by
  refine ⟨fun a => if a.prevAUMHash=none then 0 else if a.messageKind=.checkpoint then 1 else 2,?_⟩
  rintro a (rfl | rfl | rfl) b (rfl | rfl | rfl) hab <;> first | decide | (revert hab; decide)

set_option maxRecDepth 40000 in
lemma grown_successions : ∃ storage a, Grown bySuccession successions (succession 0) storage a ∧
    ∃ storage', compact 5 ⟨.asStored,.asStored,.asStored,.asStored,.asStored⟩ (fun _ => some 0) 100 storage
      (bySuccession.hash a.head) ⟨1,1⟩=(storage',.ok (.fill 2)) ∧
      storage'.aum (.fill 1)=none ∧ storage'.aum (.fill 3)=some (succession 2) := by
  have hboot : ∃ storage a, bootstrap .insertion .asStored .asStored (.mem {} : Store bySuccession) (succession 0)
        = (storage,.ok a) ∧ ∃ a', (informIdempotent .insertion .asStored .asStored a storage
          [succession 1,succession 2]).2=.ok a' ∧
        ∃ storage', compact 5 ⟨.asStored,.asStored,.asStored,.asStored,.asStored⟩ (fun _ => some 0) 100
          (informIdempotent .insertion .asStored .asStored a storage [succession 1,succession 2]).1
          (bySuccession.hash a'.head) ⟨1,1⟩=(storage',.ok (.fill 2)) ∧
          storage'.aum (.fill 1)=none ∧ storage'.aum (.fill 3)=some (succession 2) :=
    ⟨_,_,rfl,_,rfl,_,rfl,rfl,rfl⟩
  obtain ⟨storage,a,ha,a',ha',hcompact⟩ := hboot
  have hupdates : ∀ u ∈ [succession 1,succession 2], u ∈ successions := by
    simp [successions]
  have hgrown := (Grown.bootstrap (U := successions) (.inl rfl) (.inl rfl) ha).inform hupdates .insertion .asStored
    .asStored
  rw [ha'] at hgrown
  exact ⟨_,a',hgrown,hcompact⟩

end TunnnejiTail.Tka
