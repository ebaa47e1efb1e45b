import Mathlib.Data.List.AList
import Mathlib.Data.List.Rotate
import Mathlib.Data.Int.Notation
import Mathlib.Tactic.Common

/-! Go maps as association lists without repeated keys. A nil map reads like the empty
one. A range statement visits the pairs in an order the runtime chooses, so every loop
over a map takes that order as an argument and results are stated for all of them. -/
namespace TunnnejiTail.Go
open List Option AList

abbrev GoMap (κ ν : Type) := AList fun _ : κ => ν

/-- The order the runtime picks for one execution of a range statement. -/
structure MapOrder where
  shuffle : {α : Type} → List α → List α
  perm : ∀ {α : Type} (l : List α), (shuffle l).Perm l

namespace MapOrder

def asStored : MapOrder := ⟨fun l => l,fun l => List.Perm.refl l⟩

def startingAt (n : ℕ) : MapOrder := ⟨fun l => l.rotate n,fun l => l.rotate_perm n⟩

lemma exists_visited_last {α : Type} {l : List α} {x : α} (h : x ∈ l) :
    ∃ (o : MapOrder) (before : List α), o.shuffle l=before++[x] := by
  obtain ⟨a,b,rfl⟩ := append_of_mem h
  refine ⟨startingAt (a.length+1),b++a,?_⟩
  have hl : a++x::b=(a++[x])++b := by simp
  change (a++x::b).rotate (a.length+1)=_
  rw [hl,show a.length+1=(a++[x]).length by simp,rotate_append_length_eq]
  simp

end MapOrder

section
variable {κ ν α : Type}

def range (o : MapOrder) (m : GoMap κ ν) : List (κ × ν) :=
  (o.shuffle m.entries).map fun e => (e.1,e.2)

@[simp] lemma mem_range [DecidableEq κ] (o : MapOrder) (m : GoMap κ ν) (k : κ) (v : ν) :
    (k,v) ∈ range o m ↔ m.lookup k=some v := by
  have hm : ∀ e : (_ : κ) × ν, e ∈ o.shuffle m.entries ↔ e ∈ m.entries :=
    fun e => (o.perm m.entries).mem_iff
  constructor
  · intro h
    obtain ⟨⟨k',v'⟩,he,heq⟩ := List.mem_map.mp h
    cases heq
    exact mem_lookup_iff.mpr ((hm _).mp he)
  · intro h
    exact List.mem_map.mpr ⟨⟨k,v⟩,(hm _).mpr (mem_lookup_iff.mp h),rfl⟩

lemma lookup_insert_ite [DecidableEq κ] (m : GoMap κ ν) (k j : κ) (v : ν) :
    (m.insert k v).lookup j=if j=k then some v else m.lookup j := by
  by_cases hj : j=k
  · rw [if_pos hj,hj,lookup_insert]
  · rw [if_neg hj,lookup_insert_ne hj]

lemma of_lookup_insert [DecidableEq κ] {m : GoMap κ ν} {k j : κ} {v w : ν}
    (h : (m.insert k v).lookup j=some w) : j=k ∧ w=v ∨ j≠k ∧ m.lookup j=some w := by
  rw [lookup_insert_ite] at h
  split at h
  · next hj => exact .inl ⟨hj,(some.inj h).symm⟩
  · next hj => exact .inr ⟨hj,h⟩

lemma lookup_range [DecidableEq κ] [BEq κ] [LawfulBEq κ] (o : MapOrder) (m : GoMap κ ν) (k : κ) :
    (range o m).lookup k=m.lookup k := by
  cases hl : (range o m).lookup k with
  | none =>
    cases hm : m.lookup k with
    | none => rfl
    | some v =>
      have hmem := (mem_range o m k v).mpr hm
      have hne := lookup_eq_none_iff.mp hl (k,v) hmem
      simp at hne
  | some v =>
    obtain ⟨a,b,hab,-⟩ := lookup_eq_some_iff.mp hl
    have hmem : (k,v) ∈ range o m := by simp [hab]
    exact ((mem_range o m k v).mp hmem).symm

lemma length_entries_eq_keys (m : GoMap κ ν) : m.entries.length=m.keys.length := by
  rw [AList.keys,List.keys,length_map]

variable [DecidableEq κ] {m : GoMap κ ν} {v : ν}

lemma lookup_erase_eq_some {k0 : κ} (h : m.lookup k0=some v)
    (honly : ∀ k, m.lookup k=some v → k=k0) (k : κ) (v' : ν) :
    (m.erase k0).lookup k=some v' ↔ m.lookup k=some v' ∧ v'≠v := by
  by_cases hk : k=k0
  · rw [hk,lookup_erase,h]
    exact iff_of_false (fun h => by cases h) fun h => h.2 (some.inj h.1).symm
  · rw [lookup_erase_ne hk]
    refine ⟨fun hv' => ⟨hv',?_⟩,fun hv' => hv'.1⟩
    intro heq
    exact hk (honly k (heq ▸ hv'))

lemma lookup_foldl_erase (l : List κ) (m : GoMap κ ν) (k : κ) :
    (l.foldl (fun m j => m.erase j) m).lookup k=if k ∈ l then none else m.lookup k := by
  induction l generalizing m with
  | nil => rfl
  | cons j l ih =>
    rw [foldl_cons,ih]
    by_cases hk : k=j
    · subst hk
      simp [lookup_erase]
    · simp [hk,lookup_erase_ne hk]

/-- Store val x under key x for each x of a loop, skipping those without a value. -/
def fill (key : α → κ) (val : α → Option ν) (l : List α) (m : GoMap κ ν) : GoMap κ ν :=
  l.foldl (fun m x => match val x with
    | some v => m.insert (key x) v
    | none => m) m

lemma fill_append (key : α → κ) (val : α → Option ν) (l : List α) (x : α) (m : GoMap κ ν) :
    fill key val (l++[x]) m=match val x with
      | some v => (fill key val l m).insert (key x) v
      | none => fill key val l m := by
  simp [fill]

variable {key : α → κ} {val : α → Option ν}

lemma foldl_eq_fill {σ : Type} (table : σ → GoMap κ ν) {step : σ → α → σ}
    (hstep : ∀ s x, table (step s x)=fill key val [x] (table s))
    (l : List α) (s : σ) : table (l.foldl step s)=fill key val l (table s) := by
  induction l generalizing s with
  | nil => rfl
  | cons x xs ih =>
    rw [foldl_cons,ih,hstep]
    rfl

/-- The values a filling loop writes under k, in the order of the writes. -/
def writes (key : α → κ) (val : α → Option ν) (l : List α) (k : κ) : List ν :=
  l.filterMap fun x => if key x=k then val x else none

section
variable (key : α → κ) (val : α → Option ν) (l : List α) (k : κ)

lemma lookup_fill (m : GoMap κ ν) :
    (fill key val l m).lookup k=(writes key val l k).getLast?.or (m.lookup k) := by
  induction l generalizing m with
  | nil => simp [fill,writes]
  | cons x xs ih =>
    have hstep : fill key val (x::xs) m=fill key val xs (match val x with
      | some v => m.insert (key x) v
      | none => m) := rfl
    rw [hstep,ih]
    cases hv : val x with
    | none => simp [writes,hv]
    | some v =>
      by_cases hk : key x=k
      · subst k
        simp only [writes,filterMap_cons,hv,if_true,lookup_insert]
        cases hw : filterMap (fun y => if key y=key x then val y else none) xs with
        | nil => simp
        | cons a as => simp [getLast?_cons]
      · simp [writes,hk,lookup_insert_ne (Ne.symm hk)]

lemma mem_writes (v : ν) :
    v ∈ writes key val l k ↔ ∃ x ∈ l, key x=k ∧ val x=some v := by
  simp [writes,mem_filterMap]

end

variable {l : List α} {k : κ}

lemma exists_of_lookup_fill (h : (fill key val l (∅ : GoMap κ ν)).lookup k=some v) :
    ∃ x ∈ l, key x=k ∧ val x=some v := by
  rw [lookup_fill] at h
  simp only [AList.lookup_empty,or_none] at h
  exact (mem_writes key val l k v).mp (mem_of_getLast? h)

lemma lookup_fill_eq_none :
    (fill key val l (∅ : GoMap κ ν)).lookup k=none ↔ ∀ x ∈ l, key x=k → val x=none := by
  rw [lookup_fill]
  simp only [AList.lookup_empty,or_none,getLast?_eq_none_iff,writes, filterMap_eq_nil_iff,ite_eq_right_iff]

variable {x : α}

section
variable (hx : x ∈ l) (hv : val x=some v) (hu : ∀ y ∈ l, key y=key x → ∀ w, val y=some w → w=v)
include hx hv hu

lemma lookup_fill_unique :
    (fill key val l (∅ : GoMap κ ν)).lookup (key x)=some v := by
  cases hl : (fill key val l (∅ : GoMap κ ν)).lookup (key x) with
  | none =>
    have hnone := lookup_fill_eq_none.mp hl x hx rfl
    cases hv.symm.trans hnone
  | some w =>
    obtain ⟨y,hy,hk,hw⟩ := exists_of_lookup_fill hl
    rw [hu y hy hk w hw]

lemma lookup_fill_append_unique {before : List α} (m : GoMap κ ν) :
    (fill key val (before++l) m).lookup (key x)=some v := by
  have hwrites : writes key val (before++l) (key x) =
      writes key val before (key x)++writes key val l (key x) := filterMap_append
  have hmem : v ∈ writes key val l (key x) := (mem_writes key val l _ v).mpr ⟨x,hx,rfl,hv⟩
  have hlast : (writes key val l (key x)).getLast? = some v := by
    rw [getLast?_eq_some_getLast (ne_nil_of_mem hmem)]
    obtain ⟨y,hy,hk,hw⟩ := (mem_writes key val l _ _).mp
      (getLast_mem (ne_nil_of_mem hmem))
    rw [hu y hy hk _ hw]
  rw [lookup_fill,hwrites,getLast?_append,hlast]
  rfl

end

lemma lookup_fill_perm {l' : List α} (h : l.Perm l') (hk : (l.map key).Nodup) (k : κ) :
    (fill key val l (∅ : GoMap κ ν)).lookup k=(fill key val l' (∅ : GoMap κ ν)).lookup k := by
  cases hl : (fill key val l (∅ : GoMap κ ν)).lookup k with
  | none =>
    refine (lookup_fill_eq_none.mpr fun x hx => ?_).symm
    exact lookup_fill_eq_none.mp hl x (h.mem_iff.mpr hx)
  | some v =>
    obtain ⟨x,hx,rfl,hv⟩ := exists_of_lookup_fill hl
    refine (lookup_fill_unique (h.mem_iff.mp hx) hv fun y hy hkey w hw => ?_).symm
    rw [inj_on_of_nodup_map hk (h.mem_iff.mpr hy) hx hkey,hv] at hw
    exact (some.inj hw).symm

lemma lookup_fill_owner (hx : x ∈ l) (hu : ∀ y ∈ l, key y=key x → y=x ∨ val y=none) :
    (fill key val l (∅ : GoMap κ ν)).lookup (key x)=val x := by
  cases hv : val x with
  | none =>
    refine lookup_fill_eq_none.mpr fun y hy hk => ?_
    cases hu y hy hk with
    | inl h => rw [h,hv]
    | inr h => exact h
  | some v =>
    refine lookup_fill_unique hx hv fun y hy hk w hw => ?_
    cases hu y hy hk with
    | inl h =>
      rw [h,hv] at hw
      exact (some.inj hw).symm
    | inr h => cases h.symm.trans hw

lemma lookup_fill_last (hv : val x=some v) (m : GoMap κ ν) :
    (fill key val (l++[x]) m).lookup (key x)=some v := by
  simp [fill,foldl_append,hv]

lemma entries_perm_cons (h : m.lookup k=some v) : m.entries.Perm (⟨k,v⟩::m.entries.kerase k) := by
  have hk : k ∈ m.entries.keys := mem_keys_of_mem (mem_lookup_iff.mp h)
  obtain ⟨v',l1,l2,-,he,hk'⟩ := exists_of_kerase hk
  have hv : m.lookup k=some v' := mem_lookup_iff.mpr (by rw [he]; simp)
  cases h.symm.trans hv
  rw [hk']
  nth_rewrite 1 [he]
  exact perm_middle

lemma flatMap_insert_append {β : Type} (f : κ → α → β) (m : GoMap κ (List α)) (k : κ) (x : α) :
    ((m.insert k ((m.lookup k).getD []++[x])).entries.flatMap fun e => e.2.map (f e.1)).Perm
      ((m.entries.flatMap fun e => e.2.map (f e.1))++[f k x]) := by
  rw [entries_insert,flatMap_cons]
  cases h : m.lookup k with
  | none =>
    have hk : k ∉ m.entries.keys := lookup_eq_none.mp h
    rw [kerase_of_notMem_keys hk]
    exact perm_append_comm
  | some xs =>
    refine Perm.trans ?_ (((entries_perm_cons h).flatMap_right _).append_right _).symm
    simp only [getD_some,map_append,map_cons,map_nil,flatMap_cons, append_assoc]
    exact (perm_append_comm).append_left _

section
variable (key : α → κ) (val : α → Option ν) (l : List α)

lemma keys_fill_subset :
    (fill key val l (∅ : GoMap κ ν)).keys ⊆ l.map key := by
  intro k hk
  obtain ⟨v,hv⟩ := isSome_iff_exists.mp (lookup_isSome.mpr hk)
  obtain ⟨x,hx,hkx,-⟩ := exists_of_lookup_fill hv
  exact List.mem_map.mpr ⟨x,hx,hkx⟩

lemma length_fill_le :
    (fill key val l (∅ : GoMap κ ν)).entries.length≤l.length := by
  have hsub := subperm_of_subset (fill key val l (∅ : GoMap κ ν)).keys_nodup
    (keys_fill_subset key val l)
  rw [length_entries_eq_keys]
  simpa using hsub.length_le

end

lemma nodup_of_length_fill
    (h : (fill key val l (∅ : GoMap κ ν)).entries.length=l.length) : (l.map key).Nodup := by
  have hn := (fill key val l (∅ : GoMap κ ν)).keys_nodup
  have hsub := subperm_of_subset hn (keys_fill_subset key val l)
  have hperm := hsub.perm_of_length_le (by rw [length_map,← h,length_entries_eq_keys])
  exact hperm.nodup_iff.mp hn

lemma values_fill_perm (hk : (l.map key).Nodup) :
    ((fill key val l (∅ : GoMap κ ν)).entries.map Sigma.snd).Perm (l.filterMap val) := by
  induction l using reverseRecOn with
  | nil => simp [fill]
  | append_singleton l x ih =>
    rw [map_append,nodup_append] at hk
    rw [fill_append,filterMap_append]
    cases hv : val x with
    | none => simpa [hv] using ih hk.1
    | some v =>
      have hnew : key x ∉ fill key val l (∅ : GoMap κ ν) := fun hmem =>
        hk.2.2 _ (keys_fill_subset key val l hmem) _ (by simp) rfl
      rw [entries_insert_of_notMem hnew]
      simp only [map_cons,filterMap_cons,hv,filterMap_nil]
      exact (perm_append_singleton v _).symm.trans ((ih hk.1).append_right [v])

end

end TunnnejiTail.Go
