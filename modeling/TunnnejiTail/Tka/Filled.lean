import TunnnejiTail.Tka.Storage

/-! Stores with any messages at all, put in and taken out in any order, and what reading them gives. -/
namespace TunnnejiTail.Tka
open Go List

inductive Store.Filled {X : Primitives} (U : Set AUM) : Store X → Prop
  | mem : Filled U (.mem {})
  | fs : Filled U (.fs .empty)
  | commit {s : Store X} (h : Filled U s) {a : AUM} (ha : a ∈ U) : Filled U (s.commit a)
  | purge {s s' : Store X} (h : Filled U s) {j : AUMHash} (hp : s.purge j=some s') : Filled U s'
  | setLast {s : Store X} (h : Filled U s) (j : AUMHash) : Filled U (s.setLastActiveAncestor j)

namespace Store
variable {X : Primitives} {U : Set AUM} {s : Store X}

lemma Filled.kept (hU : Set.InjOn X.hash U) (hs : s.Filled U) : s.Kept U := by
  induction hs with
  | mem => exact .empty (.inl rfl)
  | fs => exact .empty (.inr rfl)
  | commit _ ha ih => exact ih.commit hU ha
  | purge _ hp ih => exact ih.purge hp
  | setLast _ j ih => exact ih.setLastActiveAncestor j

namespace Kept
variable {s : Store X} (hs : s.Kept U)
include hs

variable {a : AUM}

lemma mem_of_stored (ha : a ∈ s.stored) : a ∈ U := by
  obtain ⟨h,ha⟩ := ha
  exact (hs.sound ha).2

lemma aum_hash (ha : a ∈ s.stored) : s.aum (X.hash a)=some a := by
  obtain ⟨h,ha⟩ := ha
  rwa [(hs.sound ha).1]

end Kept

variable {b : AUM}

lemma mem_stored_commit (hU : Set.InjOn X.hash U) (hs : s.Kept U) {a : AUM} (ha : a ∈ U) : b ∈
    (s.commit a).stored ↔ b ∈ s.stored ∨ b=a := by
  constructor
  · rintro ⟨h,hb⟩
    rw [aum_commit] at hb
    split at hb
    · cases hb
      exact .inr rfl
    · exact .inl ⟨h,hb⟩
  · rintro (⟨h,hb⟩ | rfl)
    · refine ⟨h,?_⟩
      rw [aum_commit]
      split
      · next hh => rw [hU ha (hs.sound hb).2 ((hs.sound hb).1.trans hh).symm]
      · exact hb
    · exact ⟨X.hash b,by rw [aum_commit,if_pos rfl]⟩

lemma names_commit (s : Store X) (a : AUM) : (s.commit a).names=s.names := by
  cases s <;> rfl

variable {l : List AUM}

lemma Filled.commitVerifiedAUMs (hs : s.Filled U) (hl : ∀ a ∈ l, a ∈ U) :
    (s.commitVerifiedAUMs l).Filled U := by
  induction l generalizing s with
  | nil => exact hs
  | cons a l ih => exact ih (hs.commit (hl a mem_cons_self)) fun b hb => hl b (mem_cons_of_mem a hb)

lemma mem_stored_commitVerifiedAUMs (hU : Set.InjOn X.hash U) (hs : s.Filled U) (hl : ∀ a ∈ l, a ∈ U) :
    b ∈ (s.commitVerifiedAUMs l).stored ↔ b ∈ s.stored ∨ b ∈ l := by
  induction l generalizing s with
  | nil => simp [commitVerifiedAUMs]
  | cons a l ih =>
    have ha := hl a mem_cons_self
    refine (ih (hs.commit ha) fun b hb => hl b (mem_cons_of_mem a hb)).trans ?_
    rw [mem_stored_commit hU (hs.kept hU) ha,mem_cons,or_assoc]

variable (s : Store X)

lemma names_commitVerifiedAUMs (l : List AUM) : (s.commitVerifiedAUMs l).names=s.names := by
  induction l generalizing s with
  | nil => rfl
  | cons a l ih => exact (ih (s.commit a)).trans (s.names_commit a)

lemma lastActiveAncestor_commitVerifiedAUMs (l : List AUM) :
    (s.commitVerifiedAUMs l).lastActiveAncestor=s.lastActiveAncestor := by
  have hcommit (s : Store X) (a : AUM) : (s.commit a).lastActiveAncestor=s.lastActiveAncestor := by
    cases s with
    | mem c =>
      change (c.commit X a).lastActiveAncestor=c.lastActiveAncestor
      rw [Mem.commit]
      split
      · rfl
      · split <;> rfl
    | fs c => rfl
  induction l generalizing s with
  | nil => rfl
  | cons a l ih => exact (ih (s.commit a)).trans (hcommit s a)

lemma exists_list_stored : ∃ l : List AUM, ∀ a ∈ s.stored, a ∈ l := by
  cases s with
  | mem c =>
    refine ⟨(range .asStored c.aums).map Prod.snd,?_⟩
    rintro a ⟨h,ha⟩
    exact mem_map.mpr ⟨(h,a),(mem_range .asStored c.aums h a).mpr ha,rfl⟩
  | fs c => exact ⟨c.scan .asStored,fun a ha => (c.mem_scan .asStored a).mpr ha⟩

end Store

end TunnnejiTail.Tka
