import Mathlib.Data.List.Basic
import Mathlib.Logic.Function.Basic
import Mathlib.Tactic.Common

/-! An index of a table: each key leads to the value that has it. No key belongs to the values of
two slots, and the index is kept while values are put into slots and taken out of them. A value
without a name is not indexed. -/
namespace TunnnejiTail.Go
open List Option Function

section
variable {σ ν κ ι : Type} {keys : ν → κ → Prop} {name : ν → Option ι} {table : σ → Option ν}
  {find : κ → Option ι}

def Unshared (keys : ν → κ → Prop) (table : σ → Option ν) : Prop :=
  ∀ s t n m k, table s=some n → table t=some m → keys n k → keys m k → s=t

def IndexOf (keys : ν → κ → Prop) (name : ν → Option ι) (table : σ → Option ν) (find : κ → Option ι) :
    Prop :=
  ∀ k id, find k=some id ↔ ∃ s n, table s=some n ∧ keys n k ∧ name n=some id

lemma IndexOf.unique {find' : κ → Option ι} (h : IndexOf keys name table find)
    (h' : IndexOf keys name table find') : find=find' := by
  funext k
  refine Option.ext fun id => ?_
  rw [h k id,h' k id]

lemma IndexOf.ofList [∀ n, DecidablePred (keys n)] {l : List ν} (hun : Unshared keys table)
    (hl : ∀ n, n ∈ l ↔ ∃ s, table s=some n) :
    IndexOf keys name table fun k => (l.filter fun n => keys n k).getLast?.bind name := by
  intro k id
  change (l.filter fun n => keys n k).getLast?.bind name=some id ↔ _
  constructor
  · intro h
    obtain ⟨n,hn,hid⟩ := bind_eq_some_iff.mp h
    obtain ⟨hmem,hk⟩ := mem_filter.mp (mem_of_getLast? hn)
    obtain ⟨s,hs⟩ := (hl n).mp hmem
    exact ⟨s,n,hs,of_decide_eq_true hk,hid⟩
  · rintro ⟨s,n,hs,hk,hid⟩
    have hne : (l.filter fun n => keys n k)≠[] :=
      ne_nil_of_mem (mem_filter.mpr ⟨(hl n).mpr ⟨s,hs⟩,decide_eq_true hk⟩)
    obtain ⟨hmem,hk'⟩ := mem_filter.mp (getLast_mem hne)
    obtain ⟨t,ht⟩ := (hl _).mp hmem
    obtain rfl := hun s t n _ k hs ht hk (of_decide_eq_true hk')
    rw [getLast?_eq_some_getLast hne,← Option.some.inj (hs.symm.trans ht)]
    exact hid

section
variable {table' : σ → Option ν}
  (h : ∀ s, (table' s).map (fun n => (keys n,name n))=(table s).map fun n => (keys n,name n))
include h

lemma IndexOf.congr
    (hi : IndexOf keys name table find) : IndexOf keys name table' find := by
  have hread (table : σ → Option ν) (k : κ) (id : ι) :
      (∃ s n, table s=some n ∧ keys n k ∧ name n=some id)
        ↔ ∃ s p, (table s).map (fun n => (keys n,name n))=some p ∧ p.1 k ∧ p.2=some id := by
    simp [map_eq_some_iff]
  intro k id
  rw [hi k id,hread,hread]
  simp only [h]

lemma Unshared.congr
    (hu : Unshared keys table) : Unshared keys table' := by
  have hback {s : σ} {n : ν} (hs : table' s=some n) : ∃ n', table s=some n' ∧ keys n'=keys n := by
    have he := h s
    rw [hs] at he
    obtain ⟨n',hn',hp⟩ := map_eq_some_iff.mp he.symm
    exact ⟨n',hn',congrArg Prod.fst hp⟩
  intro s t n m k hs ht hn hm
  obtain ⟨n',hn',hkn⟩ := hback hs
  obtain ⟨m',hm',hkm⟩ := hback ht
  exact hu s t n' m' k hn' hm' (hkn ▸ hn) (hkm ▸ hm)

end

variable [DecidableEq σ] {s : σ} {n : ν}

lemma Unshared.put (hu : Unshared keys table)
    (hfree : ∀ t m k, t≠s → table t=some m → keys m k → ¬keys n k) :
    Unshared keys (Function.update table s (some n)) := by
  intro t t' m m' k ht ht' hm hm'
  by_cases hs : t=s <;> by_cases hs' : t'=s
  · rw [hs,hs']
  · subst hs
    rw [update_self] at ht
    rw [update_of_ne hs'] at ht'
    cases ht
    exact absurd hm (hfree t' m' k hs' ht' hm')
  · subst hs'
    rw [update_self] at ht'
    rw [update_of_ne hs] at ht
    cases ht'
    exact absurd hm' (hfree t m k hs ht hm)
  · rw [update_of_ne hs] at ht
    rw [update_of_ne hs'] at ht'
    exact hu t t' m m' k ht ht' hm hm'

/-- A value is put into a slot under its name. Its keys are free and include those of the value
before it. -/
theorem IndexOf.put [DecidablePred (keys n)] (hi : IndexOf keys name table find) {id : ι}
    (hname : name n=some id) (hfree : ∀ t m k, t≠s → table t=some m → keys m k → ¬keys n k)
    (hold : ∀ old k, table s=some old → keys old k → keys n k) :
    IndexOf keys name (Function.update table s (some n)) fun k => if keys n k then some id else find k := by
  intro k j
  change (if keys n k then some id else find k)=some j ↔ _
  by_cases hk : keys n k
  · rw [if_pos hk]
    constructor
    · intro h
      cases h
      exact ⟨s,n,update_self ..,hk,hname⟩
    · rintro ⟨t,m,ht,hm,hj⟩
      by_cases hs : t=s
      · subst hs
        rw [update_self] at ht
        cases ht
        exact hname.symm.trans hj
      · rw [update_of_ne hs] at ht
        exact absurd hk (hfree t m k hs ht hm)
  · rw [if_neg hk,hi k j]
    refine exists_congr fun t => exists_congr fun m => ?_
    by_cases hs : t=s
    · subst hs
      rw [update_self]
      constructor
      · rintro ⟨ht,hm,-⟩
        exact absurd (hold m k ht hm) hk
      · rintro ⟨ht,hm,-⟩
        cases ht
        exact absurd hm hk
    · rw [update_of_ne hs]

lemma Unshared.erase (hu : Unshared keys table) : Unshared keys (Function.update table s none) := by
  have hmem {t : σ} {m : ν} (ht : Function.update table s none t=some m) : table t=some m := by
    by_cases hs : t=s
    · subst hs
      rw [update_self] at ht
      cases ht
    · rwa [update_of_ne hs] at ht
  exact fun t t' m m' k ht ht' => hu t t' m m' k (hmem ht) (hmem ht')

lemma IndexOf.erase [DecidablePred (keys n)] (hu : Unshared keys table)
    (hi : IndexOf keys name table find) (hs : table s=some n) :
    IndexOf keys name (Function.update table s none) fun k => if keys n k then none else find k := by
  intro k j
  change (if keys n k then none else find k)=some j ↔ _
  by_cases hk : keys n k
  · rw [if_pos hk]
    refine iff_of_false (fun h => by cases h) ?_
    rintro ⟨t,m,ht,hm,-⟩
    by_cases hts : t=s
    · subst hts
      rw [update_self] at ht
      cases ht
    · rw [update_of_ne hts] at ht
      exact hts (hu t s m n k ht hs hm hk)
  · rw [if_neg hk,hi k j]
    refine exists_congr fun t => exists_congr fun m => ?_
    by_cases hts : t=s
    · subst hts
      rw [update_self,hs]
      refine iff_of_false ?_ (fun h => by cases h.1)
      rintro ⟨hm,hm',-⟩
      cases hm
      exact hk hm'
    · rw [update_of_ne hts]

end

end TunnnejiTail.Go
