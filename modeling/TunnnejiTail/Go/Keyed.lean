import TunnnejiTail.Go.Loops
import TunnnejiTail.Go.Maps
import Mathlib.Data.List.Sort
import Mathlib.Order.Defs.LinearOrder

/-! Loops whose steps each concern one key. What such a loop leaves under a key depends only
on the steps for that key, so a loop over a table is understood one key at a time. A stable
sort by the key does not touch the steps of any one key. -/
namespace TunnnejiTail.Go
open List

section
variable {σ ω κ β ε : Type} [DecidableEq κ] {keyOf : ω → κ} {k : κ}

def forKey (keyOf : ω → κ) (k : κ) (l : List ω) : List ω := l.filter fun o => keyOf o=k

@[simp] lemma forKey_nil : forKey keyOf k []=[] := rfl

lemma forKey_cons (o : ω) (l : List ω) :
    forKey keyOf k (o::l)=if keyOf o=k then o::forKey keyOf k l else forKey keyOf k l := by
  simp [forKey,filter_cons]

@[simp] lemma forKey_append (l l' : List ω) :
    forKey keyOf k (l++l')=forKey keyOf k l++forKey keyOf k l' := filter_append ..

variable {l : List ω}

lemma mem_forKey {o : ω} : o ∈ forKey keyOf k l ↔ o ∈ l ∧ keyOf o=k := by
  simp [forKey]

lemma forKey_eq_nil : forKey keyOf k l=[] ↔ ∀ o ∈ l, keyOf o≠k := by
  simp [forKey]

lemma forKey_eq_self (h : ∀ o ∈ l, keyOf o=k) : forKey keyOf k l=l := by
  simpa [forKey,filter_eq_self] using h

lemma forKey_filterMap {ω' : Type} {keyOf' : ω' → κ} {f : ω → Option ω'}
    (hf : ∀ o ∈ l, ∀ o' ∈ f o, keyOf' o'=keyOf o) :
    forKey keyOf' k (l.filterMap f)=(forKey keyOf k l).filterMap f := by
  rw [forKey,forKey,filter_filterMap,filterMap_filter]
  refine filterMap_congr fun o ho => ?_
  cases hfo : f o with
  | none => simp
  | some o' => by_cases hk : keyOf o=k <;> simp [Option.filter,hf o ho o' hfo,hk]

lemma forKey_map {ω' : Type} {keyOf' : ω' → κ} {f : ω → ω'} (hf : ∀ o ∈ l, keyOf' (f o)=keyOf o) :
    forKey keyOf' k (l.map f)=(forKey keyOf k l).map f := by
  have h := forKey_filterMap (k := k) (l := l) (f := some ∘ f) fun o ho o' ho' => Option.some.inj ho' ▸ hf o ho
  simpa [filterMap_eq_map] using h

lemma foldl_view (keyOf : ω → κ) (view : σ → κ → β) {step : σ → ω → σ} (act : β → ω → β)
    (hstep : ∀ s o k, view (step s o) k=if keyOf o=k then act (view s k) o else view s k)
    (l : List ω) (s : σ) (k : κ) : view (l.foldl step s) k=(forKey keyOf k l).foldl act (view s k) := by
  induction l generalizing s with
  | nil => rfl
  | cons o l ih =>
    rw [foldl_cons,ih,hstep,forKey_cons]
    by_cases hk : keyOf o=k
    · rw [if_pos hk,if_pos hk,foldl_cons]
    · rw [if_neg hk,if_neg hk]

/-- A step that can fail and that concerns one key: act says what it does to what is kept under
that key, and is undefined exactly where the step fails. -/
structure KeyedStep (view : σ → κ → β) (keyOf : ω → κ) (step : σ → ω → Except ε σ)
    (act : β → ω → Option β) : Prop where
  ok : ∀ {s o s'}, step s o=.ok s' → act (view s (keyOf o)) o=some (view s' (keyOf o))
  frame : ∀ {s o s'}, step s o=.ok s' → ∀ k, keyOf o≠k → view s' k=view s k
  error : ∀ {s o e}, step s o=.error e → act (view s (keyOf o)) o=none

variable {view : σ → κ → β} {step : σ → ω → Except ε σ} {act : β → ω → Option β} {s : σ}

lemma KeyedStep.foldlM_ok (h : KeyedStep view keyOf step act) {s' : σ}
    (hl : l.foldlM step s=.ok s') (k : κ) : (forKey keyOf k l).foldlM act (view s k)=some (view s' k) := by
  induction l generalizing s with
  | nil =>
    cases hl
    rfl
  | cons o l ih =>
    obtain ⟨t,ht,hl⟩ := foldlM_cons_ok.mp hl
    rw [forKey_cons]
    by_cases hk : keyOf o=k
    · subst hk
      rw [if_pos rfl,foldlM_cons,h.ok ht]
      exact ih hl
    · rw [if_neg hk,← h.frame ht k hk]
      exact ih hl

lemma exists_of_foldlM_error {e : ε} (hl : l.foldlM step s=.error e) :
    ∃ before o after t, l=before++o::after ∧ before.foldlM step s=.ok t ∧ step t o=.error e := by
  induction l generalizing s with
  | nil => cases hl
  | cons o l ih =>
    cases ht : step s o with
    | error e' =>
      rw [foldlM_cons,ht] at hl
      cases hl
      exact ⟨[],o,l,s,rfl,rfl,ht⟩
    | ok t =>
      rw [foldlM_cons,ht] at hl
      obtain ⟨before,o',after,t',rfl,hb,he⟩ := ih hl
      exact ⟨o::before,o',after,t',rfl,foldlM_cons_ok.mpr ⟨t,ht,hb⟩,he⟩

lemma KeyedStep.foldlM_error (h : KeyedStep view keyOf step act) {e : ε} (hl : l.foldlM step s=.error e) :
    ∃ k, (forKey keyOf k l).foldlM act (view s k)=none := by
  obtain ⟨before,o,after,t,rfl,hb,he⟩ := exists_of_foldlM_error hl
  refine ⟨keyOf o,?_⟩
  rw [forKey_append,foldlM_append,h.foldlM_ok hb,forKey_cons,if_pos rfl]
  simp [foldlM_cons,h.error he]

lemma KeyedStep.exists_ok (h : KeyedStep view keyOf step act)
    (hk : ∀ k, (forKey keyOf k l).foldlM act (view s k)≠none) : ∃ s', l.foldlM step s=.ok s' := by
  cases hl : l.foldlM step s with
  | ok s' => exact ⟨s',rfl⟩
  | error e =>
    obtain ⟨k,hn⟩ := h.foldlM_error hl
    exact absurd hn (hk k)

end

section
variable {β ω : Type} (v : Option β)

lemma foldl_map_option (f : ω → β → β) (l : List ω) :
    l.foldl (fun v x => v.map (f x)) v=v.map fun b => l.foldl (fun b x => f x b) b := by
  induction l generalizing v with
  | nil => simp
  | cons x l ih => rw [foldl_cons,ih,Option.map_map]; rfl

lemma foldl_const_none (l : List ω) :
    l.foldl (fun _ _ => none) v=if l=[] then v else none := by
  induction l generalizing v with
  | nil => rfl
  | cons x l ih => simp [ih]

lemma foldl_replace (l : List β) : l.foldl (fun _ x => some x) v=l.getLast?.or v := by
  induction l generalizing v with
  | nil => rfl
  | cons x l ih =>
    rw [foldl_cons,ih,getLast?_cons]
    cases l.getLast? <;> rfl

end

section
variable {κ ν : Type} [DecidableEq κ] (o : MapOrder)

omit [DecidableEq κ] in
lemma range_pairwise (m : GoMap κ ν) : (range o m).Pairwise fun e e' => e.1≠e'.1 := by
  have hnodup : ((o.shuffle m.entries).map Sigma.fst).Nodup :=
    ((o.perm m.entries).map Sigma.fst).nodup_iff.mpr m.nodupKeys
  exact pairwise_map.mpr (pairwise_map.mp hnodup)

lemma forKey_range (m : GoMap κ ν) (k : κ) :
    forKey Prod.fst k (range o m)=(m.lookup k).toList.map fun v => (k,v) := by
  have hperm : (range o m).Perm (m.entries.map fun e => (e.1,e.2)) := (o.perm m.entries).map _
  have hfor := hperm.filter fun p => decide (p.1=k)
  cases hm : m.lookup k with
  | none =>
    refine forKey_eq_nil.mpr fun p hp he => ?_
    obtain ⟨j,v⟩ := p
    have hj := (mem_range o m j v).mp hp
    rw [show j=k from he,hm] at hj
    cases hj
  | some v =>
    have hrest : forKey Prod.fst k ((m.entries.kerase k).map fun e => (e.1,e.2))=[] := by
      refine forKey_eq_nil.mpr fun p hp he => ?_
      obtain ⟨e,hmem,rfl⟩ := mem_map.mp hp
      have hk : e.1 ∈ (m.entries.kerase k).keys := mem_keys_of_mem hmem
      rw [show e.1=k from he] at hk
      exact notMem_keys_kerase k m.nodupKeys hk
    have hone := hfor.trans (((entries_perm_cons hm).map fun e => (e.1,e.2)).filter _)
    rw [map_cons,filter_cons_of_pos (by simp)] at hone
    change (forKey Prod.fst k (range o m)).Perm ((k,v)::forKey Prod.fst k _) at hone
    rw [hrest] at hone
    exact perm_singleton.mp hone

def updateAll (o : MapOrder) (f : ν → ν) (m : GoMap κ ν) : GoMap κ ν :=
  (range o m).foldl (fun s e => s.insert e.1 (f e.2)) m

lemma lookup_updateAll (f : ν → ν) (m : GoMap κ ν) (k : κ) :
    (updateAll o f m).lookup k=(m.lookup k).map f := by
  have hstep (s : GoMap κ ν) (e : κ × ν) (j : κ) :
      (s.insert e.1 (f e.2)).lookup j=if e.1=j then some (f e.2) else s.lookup j :=
    (lookup_insert_ite ..).trans (if_congr eq_comm rfl rfl)
  have hview := foldl_view Prod.fst (fun (s : GoMap κ ν) j => s.lookup j) (fun _ e => some (f e.2)) hstep
    (range o m) m k
  rw [updateAll,hview,forKey_range]
  cases m.lookup k <;> rfl

def deleteWhere (o : MapOrder) (p : κ → ν → Bool) (m : GoMap κ ν) : GoMap κ ν :=
  (range o m).foldl (fun s e => if p e.1 e.2 then s.erase e.1 else s) m

lemma lookup_deleteWhere (p : κ → ν → Bool) (m : GoMap κ ν) (k : κ) :
    (deleteWhere o p m).lookup k=(m.lookup k).filter fun v => !p k v := by
  have hstep (s : GoMap κ ν) (e : κ × ν) (j : κ) :
      (if p e.1 e.2 then s.erase e.1 else s).lookup j
        = if e.1=j then (if p e.1 e.2 then none else s.lookup j) else s.lookup j := by
    by_cases hj : e.1=j
    · rw [if_pos hj]
      by_cases hp : p e.1 e.2
      · rw [if_pos hp,if_pos hp,← hj,AList.lookup_erase]
      · rw [if_neg hp,if_neg hp]
    · rw [if_neg hj]
      by_cases hp : p e.1 e.2
      · rw [if_pos hp,AList.lookup_erase_ne (Ne.symm hj)]
      · rw [if_neg hp]
  have hview := foldl_view Prod.fst (fun (s : GoMap κ ν) j => s.lookup j)
    (fun v e => if p e.1 e.2 then none else v) hstep (range o m) m k
  rw [deleteWhere,hview,forKey_range]
  cases m.lookup k with
  | none => rfl
  | some v =>
    cases hp : p k v <;> simp [Option.filter,hp]

end

section
variable {ω κ : Type} [LinearOrder κ] {keyOf : ω → κ}

def sortStable (keyOf : ω → κ) (l : List ω) : List ω :=
  l.insertionSort fun a b => keyOf a≤keyOf b

section
variable (l : List ω)

lemma sortStable_perm : (sortStable keyOf l).Perm l := perm_insertionSort ..

lemma forKey_orderedInsert (k : κ) (o : ω) :
    forKey keyOf k (l.orderedInsert (fun a b => keyOf a≤keyOf b) o)=forKey keyOf k (o::l) := by
  induction l with
  | nil => rfl
  | cons b l ih =>
    rw [orderedInsert_cons]
    by_cases hob : keyOf o≤keyOf b
    · rw [if_pos hob]
    · rw [if_neg hob,forKey_cons,ih]
      simp only [forKey_cons]
      by_cases ho : keyOf o=k
      · rw [if_neg fun hb : keyOf b=k => hob (le_of_eq (ho.trans hb.symm))]
        by_cases hb : keyOf b=k
        · exact absurd (le_of_eq (ho.trans hb.symm)) hob
        · rw [if_neg hb]
      · simp only [if_neg ho]

@[simp] lemma forKey_sortStable (k : κ) :
    forKey keyOf k (sortStable keyOf l)=forKey keyOf k l := by
  induction l with
  | nil => rfl
  | cons o l ih =>
    have hi : sortStable keyOf (o::l)
        = (sortStable keyOf l).orderedInsert (fun a b => keyOf a≤keyOf b) o := rfl
    rw [hi,forKey_orderedInsert,forKey_cons,forKey_cons,ih]

lemma sortStable_pairwise : (sortStable keyOf l).Pairwise fun a b => keyOf a≤keyOf b := by
  exact pairwise_insertionSort _ l

end

/-- Past a sorted loop's step only later keys and its own are left, before it only earlier ones and
its own. -/
theorem forKey_of_sorted {before after : List ω} {o : ω}
    (hs : (before++o::after).Pairwise fun a b => keyOf a≤keyOf b) {k : κ} :
    (k<keyOf o → forKey keyOf k before=forKey keyOf k (before++o::after)) ∧ (keyOf o<k → forKey keyOf k before=[]) := by
  obtain ⟨-,ha,hb⟩ := pairwise_append.mp hs
  constructor
  · intro hk
    have hrest : forKey keyOf k (o::after)=[] := by
      refine forKey_eq_nil.mpr fun b hmem he => ?_
      rcases mem_cons.mp hmem with rfl | hmem
      · exact absurd he hk.ne'
      · exact absurd (he ▸ rel_of_pairwise_cons ha hmem) hk.not_ge
    rw [forKey_append,hrest,append_nil]
  · intro hk
    refine forKey_eq_nil.mpr fun b hmem he => ?_
    exact absurd (he ▸ hb b hmem o mem_cons_self) hk.not_ge

end

end TunnnejiTail.Go
