import TunnnejiTail.Tka.Chonk
import TunnnejiTail.Tka.Consensus

/-! The stores that an authority fills answer as they should, whichever kind they are and however they
were filled. -/
namespace TunnnejiTail.Tka
open Go List AList AUM

/-- The index of a store in memory has exactly the children of every message. -/
structure Mem.Indexed (c : Mem) : Prop where
  nodup : ∀ p, (c.children p).Nodup
  mem : ∀ p h, h ∈ c.children p ↔ ∃ a, c.aums.lookup h=some a ∧ a.parent=some p

/-- What a store with certain messages answers. Which messages are listed as the children of one is up to
the kind of store, but they all have it as their parent. -/
structure Chonk.Reads (X : Primitives) (C : Chonk) (A : Set AUM) (names : AUM → AUMHash → Prop) : Prop where
  aum_eq_some : ∀ h a, C.aum h=some a ↔ a ∈ A ∧ X.hash a=h
  nodup_childAUMs : ∀ p, (C.childAUMs p).Nodup
  mem_childAUMs : ∀ p a, a ∈ C.childAUMs p ↔ a ∈ A ∧ names a p
  parent_of_names : ∀ a p, names a p → a.parent=some p
  nodup_heads : C.heads.Nodup
  mem_heads : ∀ a, a ∈ C.heads ↔ a ∈ A ∧ ∀ b ∈ A, b.parent≠some (X.hash a)

variable {X : Primitives}

lemma Chonk.Reads.holds {C : Chonk} {A : Set AUM} {names : AUM → AUMHash → Prop}
    (h : C.Reads X A names) (hnames : ∀ a ∈ A, ∀ b ∈ A, a.parent=some (X.hash b) → names a (X.hash b)) :
    C.Holds X A := by
  refine ⟨h.aum_eq_some,fun b _ => h.nodup_childAUMs _,fun b hb a => ?_,h.nodup_heads,h.mem_heads⟩
  rw [h.mem_childAUMs]
  exact and_congr_right fun ha => ⟨h.parent_of_names a _,hnames a ha b hb⟩

def Store.stored {X : Primitives} (s : Store X) : Set AUM := {a | ∃ h, s.aum h=some a}

/-- Which messages are listed as the children of one: in memory the parent's digest may have been cut off
or filled up, in a directory it has to be written out. -/
def Store.names {X : Primitives} (s : Store X) (a : AUM) (p : AUMHash) : Prop :=
  match s with
  | .mem _ => a.parent=some p
  | .fs _ => a.prevAUMHash.getD []=p.bytes

variable {a : AUM} {p : AUMHash}

lemma parent_of_bytes (h : a.prevAUMHash.getD []=p.bytes) : a.parent=some p := by
  rw [parent,h,copy32_bytes]
  exact if_pos (by rw [p.size]; decide)

lemma Store.parent_of_names {s : Store X} (h : s.names a p) : a.parent=some p := by
  cases s with
  | mem c => exact h
  | fs c => exact parent_of_bytes h

lemma Store.names_of_bytes (s : Store X) (h : a.prevAUMHash.getD []=p.bytes) : s.names a p := by
  cases s with
  | mem c => exact parent_of_bytes h
  | fs c => exact h

/-- Every message is from the set and is kept under its digest, and the index of a store in memory has
exactly the children of every message. -/
structure Store.Kept {X : Primitives} (U : Set AUM) (s : Store X) : Prop where
  sound : ∀ {h a}, s.aum h=some a → X.hash a=h ∧ a ∈ U
  indexed : ∀ {c}, s=.mem c → c.Indexed

section
variable (U : Set AUM) (rank : AUM → ℕ) (B : AUM)

/-- A message that was committed after the bootstrap one: it names its parent in full. -/
structure Sound (a : AUM) : Prop where
  mem : a ∈ U
  le : rank B ≤ rank a
  names : a=B ∨ ∀ p, a.parent=some p → a.prevAUMHash.getD []=p.bytes

abbrev Store.Good {X : Primitives} (s : Store X) : Prop := s.Kept {a | Sound U rank B a}

end

section
variable {X : Primitives} {U : Set AUM} {rank : AUM → ℕ} {B : AUM}

section
variable (c : Mem) (p j : AUMHash) (aums : GoMap AUMHash AUM) (last : Option AUMHash)

lemma Mem.children_insert (l : List AUMHash) :
    Mem.children ⟨aums,c.parentIndex.insert p l,last⟩ j=if j=p then l else c.children j := by
  rw [children,lookup_insert_ite]
  split <;> rfl

lemma Mem.children_erase :
    Mem.children ⟨aums,c.parentIndex.erase p,last⟩ j=if j=p then [] else c.children j := by
  by_cases hj : j=p
  · rw [if_pos hj,hj,children,lookup_erase]
    rfl
  · rw [if_neg hj,children,lookup_erase_ne hj]
    rfl

end

lemma Mem.aums_commit (c : Mem) (a : AUM) : (c.commit X a).aums=c.aums.insert (X.hash a) a := by
  rw [commit]
  split
  · rfl
  · split <;> rfl

/-- What is stored under the digest of a message before it is committed is the message itself. -/
theorem Mem.Indexed.commit {c : Mem} (hc : c.Indexed) {a : AUM}
    (hsame : ∀ a', c.aums.lookup (X.hash a)=some a' → a'=a) : (c.commit X a).Indexed := by
  have hlookup (h : AUMHash) : (c.commit X a).aums.lookup h
      = if h=X.hash a then some a else c.aums.lookup h := by
    rw [aums_commit,lookup_insert_ite]
  have hchildren (p : AUMHash) : (c.commit X a).children p
      = if a.parent=some p ∧ X.hash a ∉ c.children p then c.children p++[X.hash a] else c.children p := by
    rw [Mem.commit]
    cases hp : a.parent with
    | none => exact (if_neg (by simp)).symm
    | some q =>
      change Mem.children (if X.hash a ∈ c.children q then _ else _) p=_
      by_cases hq : X.hash a ∈ c.children q
      · rw [if_pos hq,if_neg]
        · rfl
        · rintro ⟨he,hn⟩
          cases he
          exact hn hq
      · rw [if_neg hq]
        refine (c.children_insert q p _ _ _).trans ?_
        by_cases hpq : p=q
        · rw [if_pos hpq,hpq,if_pos ⟨rfl,hq⟩]
          rfl
        · rw [if_neg hpq,if_neg fun h => hpq (Option.some.inj h.1).symm]
  have hmem (p h : AUMHash) : h ∈ (c.commit X a).children p ↔ h ∈ c.children p ∨ a.parent=some p ∧ h=X.hash a := by
    rw [hchildren]
    by_cases hp : a.parent=some p <;> by_cases hin : X.hash a ∈ c.children p <;> simp [hp,hin]
    exact fun he => he ▸ hin
  constructor
  · intro p
    rw [hchildren]
    split
    · next hn => exact nodup_append_comm.mp (nodup_cons.mpr ⟨hn.2,hc.nodup p⟩)
    · exact hc.nodup p
  · intro p h
    rw [hmem,hlookup]
    by_cases hh : h=X.hash a
    · subst hh
      rw [if_pos rfl,hc.mem]
      constructor
      · rintro (⟨a',ha',hp⟩ | ⟨hp,-⟩)
        · exact ⟨a,rfl,hsame a' ha' ▸ hp⟩
        · exact ⟨a,rfl,hp⟩
      · rintro ⟨a',ha',hp⟩
        cases ha'
        exact .inr ⟨hp,rfl⟩
    · rw [if_neg hh,hc.mem]
      exact or_iff_left fun h => hh h.2

lemma Mem.Indexed.purge {c : Mem} (hc : c.Indexed) (h : AUMHash) : (c.purge h).Indexed := by
  have hchildren (p : AUMHash) : (c.purge h).children p=(c.children p).filter fun j => decide (h≠j) := by
    have hself (hn : (c.aums.lookup h).bind parent≠some p) :
        ((c.children p).filter fun j => decide (h≠j))=c.children p := by
      refine filter_eq_self.mpr fun j hj => decide_eq_true fun he => hn ?_
      obtain ⟨a,ha,hp⟩ := (hc.mem p j).mp hj
      rw [he,ha]
      exact hp
    rw [Mem.purge]
    cases hq : (c.aums.lookup h).bind parent with
    | none =>
      rw [hself (by rw [hq]; simp)]
      rfl
    | some q =>
      dsimp only
      have hsplit (l : List AUMHash) (hl : p=q → l=(c.children p).filter fun j => decide (h≠j)) :
          (if p=q then l else c.children p)=(c.children p).filter fun j => decide (h≠j) := by
        by_cases hpq : p=q
        · rw [if_pos hpq,hl hpq]
        · rw [if_neg hpq,hself (by rw [hq]; exact fun he => hpq (Option.some.inj he).symm)]
      by_cases hrest : ((c.children q).filter fun j => decide (h≠j)).length=0
      · rw [if_pos hrest]
        refine (c.children_erase q p _ _).trans (hsplit [] ?_)
        rintro rfl
        exact (length_eq_zero_iff.mp hrest).symm
      · rw [if_neg hrest]
        refine (c.children_insert q p _ _ _).trans (hsplit _ ?_)
        rintro rfl
        rfl
  have hlookup (j : AUMHash) : (c.purge h).aums.lookup j=if j=h then none else c.aums.lookup j := by
    change (c.aums.erase h).lookup j=_
    by_cases hj : j=h
    · rw [if_pos hj,hj,lookup_erase]
    · rw [if_neg hj,lookup_erase_ne hj]
  constructor
  · intro p
    rw [hchildren]
    exact (hc.nodup p).filter _
  · intro p j
    rw [hchildren,hlookup,mem_filter,hc.mem]
    by_cases hj : j=h
    · simp [hj]
    · simp [hj,Ne.symm hj]

lemma Mem.Indexed.reads {c : Mem} (hindex : c.Indexed)
    (hkey : ∀ {h a}, c.aums.lookup h=some a → X.hash a=h) (o : MapOrder) :
    ((Store.mem c : Store X).chonk o).Reads X (Store.mem c : Store X).stored (Store.mem c : Store X).names := by
  constructor
  · intro h a
    constructor
    · exact fun ha => ⟨⟨h,ha⟩,hkey ha⟩
    · rintro ⟨⟨j,hj⟩,rfl⟩
      rwa [hkey hj]
  · intro p
    refine (hindex.nodup p).map_on fun e he e' he' h => ?_
    obtain ⟨a,ha,-⟩ := (hindex.mem p e).mp he
    obtain ⟨a',ha',-⟩ := (hindex.mem p e').mp he'
    rw [ha,ha'] at h
    cases h
    exact (hkey ha).symm.trans (hkey ha')
  · intro p a
    change a ∈ (c.children p).map _ ↔ _
    rw [mem_map]
    constructor
    · rintro ⟨e,he,rfl⟩
      obtain ⟨a,ha,hp⟩ := (hindex.mem p e).mp he
      rw [ha]
      exact ⟨⟨e,ha⟩,hp⟩
    · rintro ⟨⟨h,ha⟩,hp⟩
      have ha : c.aums.lookup h=some a := ha
      refine ⟨h,(hindex.mem p h).mpr ⟨a,ha,hp⟩,?_⟩
      rw [ha]
      rfl
  · exact fun a p h => Store.parent_of_names h
  · refine List.Nodup.filter _ (pairwise_map.mpr ?_)
    refine (range_pairwise o c.aums).imp_of_mem ?_
    rintro ⟨h,a⟩ ⟨h',a'⟩ hm hm' hne rfl
    exact hne ((hkey ((mem_range o c.aums h a).mp hm)).symm.trans (hkey ((mem_range o c.aums h' a).mp hm')))
  · intro a
    change a ∈ ((range o c.aums).map Prod.snd).filter _ ↔ _
    rw [mem_filter,mem_map,decide_eq_true_iff,length_eq_zero_iff]
    refine and_congr ⟨?_,?_⟩ ?_
    · rintro ⟨⟨h,a⟩,hm,rfl⟩
      exact ⟨h,(mem_range o c.aums h a).mp hm⟩
    · rintro ⟨h,ha⟩
      exact ⟨(h,a),(mem_range o c.aums h a).mpr ha,rfl⟩
    · rw [eq_nil_iff_forall_not_mem]
      constructor
      · rintro h b ⟨j,hb⟩ hp
        exact h j ((hindex.mem _ j).mpr ⟨b,hb,hp⟩)
      · intro h j hj
        obtain ⟨b,hb,hp⟩ := (hindex.mem _ j).mp hj
        exact h b ⟨j,hb⟩ hp

namespace FS
variable (c : FS X) (o : MapOrder)

lemma mem_scan (a : AUM) : a ∈ c.scan o ↔ ∃ h, c.aum h=some a := by
  rw [scan,mem_filterMap]
  constructor
  · rintro ⟨⟨h,info⟩,hm,ha⟩
    refine ⟨h,?_⟩
    rw [aum,(mem_range o c.files h info).mp hm]
    exact ha
  · rintro ⟨h,ha⟩
    rw [aum] at ha
    split at ha
    · cases ha
    · next info hinfo => exact ⟨(h,info),(mem_range o c.files h info).mpr hinfo,ha⟩

lemma aum_of_scan {h : AUMHash} {info : FsHashInfo} {a : AUM} (hm : (h,info) ∈ range o c.files)
    (ha : (if info.purged then none else info.aum)=some a) : X.hash a=h := by
  split at ha
  · cases ha
  · exact c.named ((mem_range o c.files h info).mp hm) ha

lemma nodup_scan : (c.scan o).Nodup := by
  refine pairwise_filterMap.mpr ((range_pairwise o c.files).imp_of_mem ?_)
  rintro ⟨h,info⟩ ⟨h',info'⟩ hm hm' hne a ha a' ha' rfl
  exact hne ((c.aum_of_scan o hm ha).symm.trans (c.aum_of_scan o hm' ha'))

lemma heads_eq : c.heads o
    = (c.scan o).filter fun a => decide (X.hash a ∉ (c.scan o).filterMap parent) := by
  have haum : ∀ a ∈ c.scan o, c.aum (X.hash a)=some a := by
    intro a ha
    obtain ⟨⟨h,info⟩,hm,ha'⟩ := mem_filterMap.mp ha
    rw [c.aum_of_scan o hm ha',aum,(mem_range o c.files h info).mp hm]
    exact ha'
  have hparents : ((c.allAUMs o).filterMap fun h => (c.aum h).bind parent)
      = (c.scan o).filterMap parent := by
    rw [allAUMs,filterMap_map]
    exact filterMap_congr fun a ha => by simp [haum a ha]
  rw [heads,hparents,allAUMs,filter_map,filterMap_map]
  refine (filterMap_congr fun a ha => ?_).trans filterMap_some
  exact haum a (mem_filter.mp ha).1

lemma hash_of_aum {h : AUMHash} {a : AUM} (ha : c.aum h=some a) : X.hash a=h := by
  rw [aum] at ha
  split at ha
  · cases ha
  · next info hinfo =>
    split at ha
    · cases ha
    · exact c.named hinfo ha

lemma reads : ((Store.fs c).chonk o).Reads X (Store.fs c).stored (Store.fs c).names := by
  constructor
  · intro h a
    constructor
    · exact fun ha => ⟨⟨h,ha⟩,c.hash_of_aum ha⟩
    · rintro ⟨⟨j,hj⟩,rfl⟩
      rwa [c.hash_of_aum hj]
  · intro p
    exact (c.nodup_scan o).filter _
  · intro p a
    change a ∈ (c.scan o).filter _ ↔ _
    rw [mem_filter,c.mem_scan,decide_eq_true_iff]
    rfl
  · exact fun a p h => Store.parent_of_names h
  · change (c.heads o).Nodup
    rw [c.heads_eq]
    exact (c.nodup_scan o).filter _
  · intro a
    change a ∈ c.heads o ↔ _
    rw [c.heads_eq,mem_filter,c.mem_scan,decide_eq_true_iff,mem_filterMap]
    refine and_congr_right fun _ => ?_
    constructor
    · exact fun h b hb hp => h ⟨b,(c.mem_scan o b).mpr hb,hp⟩
    · rintro h ⟨b,hb,hp⟩
      exact h b ((c.mem_scan o b).mp hb) hp

end FS

namespace Store

lemma aum_commit (s : Store X) (a : AUM) (h : AUMHash) :
    (s.commit a).aum h=if h=X.hash a then some a else s.aum h := by
  cases s with
  | mem c =>
    change (c.commit X a).aums.lookup h=if h=X.hash a then some a else c.aums.lookup h
    rw [Mem.aums_commit,lookup_insert_ite]
  | fs c =>
    change (c.commit a).aum h=if h=X.hash a then some a else c.aum h
    rw [FS.aum,FS.aum,FS.commit,FS.write,lookup_insert_ite]
    split_ifs <;> rfl

lemma aum_of_purge {s s' : Store X} {h j : AUMHash} {a : AUM} (hs : s.purge h=some s')
    (ha : s'.aum j=some a) : s.aum j=some a := by
  cases s with
  | mem c =>
    cases hs
    change (c.aums.erase h).lookup j=some a at ha
    by_cases hj : j=h
    · rw [hj,lookup_erase] at ha
      cases ha
    · rwa [lookup_erase_ne hj] at ha
  | fs c =>
    obtain ⟨c',hc',rfl⟩ := Option.map_eq_some_iff.mp hs
    rw [FS.purge] at hc'
    split at hc'
    · cases hc'
    · next info hinfo =>
      split at hc'
      · cases hc'
        exact ha
      · cases hc'
        change FS.aum _ j=some a at ha
        rw [FS.aum,FS.write] at ha
        by_cases hj : j=h
        · rw [hj,lookup_insert] at ha
          cases ha
        · rwa [lookup_insert_ne hj] at ha

lemma aum_setLastActiveAncestor (s : Store X) (h j : AUMHash) :
    (s.setLastActiveAncestor h).aum j=s.aum j := by
  cases s <;> rfl

namespace Kept
variable {s : Store X}

lemma empty (hempty : s=.mem {} ∨ s=.fs .empty) : s.Kept U := by
  rcases hempty with rfl | rfl
  · constructor
    · intro h a ha
      cases ha
    · intro c hc
      cases hc
      exact ⟨fun p => nodup_nil,fun p h => by simp [Mem.children]⟩
  · constructor
    · intro h a ha
      cases ha
    · intro c hc
      cases hc

variable (hs : s.Kept U)
include hs

lemma commit (hU : Set.InjOn X.hash U) {a : AUM} (ha : a ∈ U) : (s.commit a).Kept U := by
  constructor
  · intro h b hb
    rw [aum_commit] at hb
    by_cases hh : h=X.hash a
    · rw [if_pos hh] at hb
      cases hb
      exact ⟨hh.symm,ha⟩
    · rw [if_neg hh] at hb
      exact hs.sound hb
  · intro c' hc'
    cases s with
    | fs c => cases hc'
    | mem c =>
      cases hc'
      refine (hs.indexed rfl).commit fun b hb => ?_
      obtain ⟨he,hbU⟩ := hs.sound (show (Store.mem c : Store X).aum (X.hash a)=some b from hb)
      exact hU hbU ha he

lemma setLastActiveAncestor (h : AUMHash) : (s.setLastActiveAncestor h).Kept U := by
  constructor
  · intro j a ha
    rw [aum_setLastActiveAncestor] at ha
    exact hs.sound ha
  · intro c' hc'
    cases s with
    | fs c => cases hc'
    | mem c =>
      cases hc'
      have hc := hs.indexed rfl
      exact ⟨hc.nodup,hc.mem⟩

lemma purge {s' : Store X} {h : AUMHash} (hp : s.purge h=some s') : s'.Kept U := by
  constructor
  · intro j a ha
    exact hs.sound (aum_of_purge hp ha)
  · intro c' hc'
    cases s with
    | fs c =>
      obtain ⟨c'',-,rfl⟩ := Option.map_eq_some_iff.mp hp
      cases hc'
    | mem c =>
      cases hp
      cases hc'
      exact (hs.indexed rfl).purge h

lemma reads (o : MapOrder) : (s.chonk o).Reads X s.stored s.names := by
  cases s with
  | mem c => exact (hs.indexed rfl).reads (fun ha => (hs.sound ha).1) o
  | fs c => exact c.reads o

end Kept

variable {s : Store X}

namespace Good

lemma commitVerifiedAUMs (hs : s.Good U rank B) (hU : Set.InjOn X.hash U)
    {l : List AUM} (hl : ∀ a ∈ l, Sound U rank B a) : (s.commitVerifiedAUMs l).Good U rank B := by
  induction l generalizing s with
  | nil => exact hs
  | cons a l ih =>
    have hcommit := hs.commit (hU.mono fun b hb => hb.mem) (hl a mem_cons_self)
    exact ih hcommit fun b hb => hl b (mem_cons_of_mem a hb)

lemma purgeAUMs (hs : s.Good U rank B) (l : List AUMHash) : (s.purgeAUMs l).Good U rank B := by
  induction l generalizing s with
  | nil => exact hs
  | cons h l ih =>
    rw [Store.purgeAUMs]
    cases hp : s.purge h with
    | none => exact hs
    | some s' => exact ih (hs.purge hp)

variable (hs : s.Good U rank B) (hrank : Ranked X U rank)
include hs hrank

lemma bytes_of_parent {h j : AUMHash} {a b : AUM} (ha : s.aum h=some a) (hb : s.aum j=some b)
    (hp : a.parent=some (X.hash b)) : a.prevAUMHash.getD []=(X.hash b).bytes := by
  obtain ⟨-,hsa⟩ := hs.sound ha
  obtain ⟨-,hsb⟩ := hs.sound hb
  rcases hsa.names with rfl | hnames
  · exact absurd hsb.le (not_le.mpr (hrank a hsa.mem b hsb.mem hp))
  · exact hnames _ hp

lemma holds (o : MapOrder) : (s.chonk o).Holds X {a | ∃ h, s.aum h=some a} := by
  refine (hs.reads o).holds fun a ha b hb hp => ?_
  obtain ⟨h,ha⟩ := ha
  obtain ⟨j,hb⟩ := hb
  exact s.names_of_bytes (hs.bytes_of_parent hrank ha hb hp)

end Good

end Store

end

end TunnnejiTail.Tka
