import TunnnejiTail.Go.Maps
import Mathlib.Data.Set.Insert

/-! Marks on the entries of a map. A loop that marks some keys is described by the set of the keys. -/
namespace TunnnejiTail.Go
open AList

section
variable {κ σ : Type} [DecidableEq κ] [Inhabited σ]

def entry (m : GoMap κ σ) (k : κ) : σ := (m.lookup k).getD default

def mark (f : σ → σ) (m : GoMap κ σ) (k : κ) : GoMap κ σ := m.insert k (f (entry m k))

/-- The second map is the first one with the entries of certain keys marked. -/
structure Marks (f : σ → σ) (S : Set κ) (m m' : GoMap κ σ) : Prop where
  inside : ∀ k ∈ S, entry m' k=f (entry m k)
  outside : ∀ k, k ∉ S → entry m' k=entry m k
  mem : ∀ k, k ∈ m' ↔ k ∈ m ∨ k ∈ S

lemma mem_of_entry {m : GoMap κ σ} {k : κ} (h : entry m k≠default) : k ∈ m := by
  by_contra hk
  rw [entry,lookup_eq_none.mpr hk] at h
  exact h rfl

lemma mem_keys_range (o : MapOrder) (m : GoMap κ σ) (k : κ) (v : σ) :
    (k,v) ∈ range o m ↔ k ∈ m ∧ entry m k=v := by
  rw [mem_range,entry]
  constructor
  · intro h
    refine ⟨lookup_isSome.mp (by rw [h]; rfl),?_⟩
    rw [h]
    rfl
  · rintro ⟨hk,rfl⟩
    obtain ⟨w,hw⟩ := Option.isSome_iff_exists.mp (lookup_isSome.mpr hk)
    rw [hw]
    rfl

lemma mem_keys_filter (o : MapOrder) {m : GoMap κ σ} {k : κ} (p : κ × σ → Bool) :
    k ∈ ((range o m).filter p).map Prod.fst ↔ k ∈ m ∧ p (k,entry m k)=true := by
  constructor
  · intro h
    obtain ⟨⟨k,v⟩,hv,rfl⟩ := List.mem_map.mp h
    obtain ⟨hrange,hp⟩ := List.mem_filter.mp hv
    obtain ⟨hk,rfl⟩ := (mem_keys_range o m _ _).mp hrange
    exact ⟨hk,hp⟩
  · rintro ⟨hk,hp⟩
    exact List.mem_map.mpr ⟨(k,entry m k),List.mem_filter.mpr ⟨(mem_keys_range o m _ _).mpr ⟨hk,rfl⟩,hp⟩,rfl⟩

variable {f : σ → σ} {S T : Set κ} {m m' m'' : GoMap κ σ}

lemma Marks.refl (f : σ → σ) (m : GoMap κ σ) : Marks f ∅ m m :=
  ⟨fun _ hk => absurd hk (Set.notMem_empty _),fun _ _ => rfl,fun k => by simp⟩

lemma marks_mark (f : σ → σ) (m : GoMap κ σ) (k : κ) : Marks f {k} m (mark f m k) := by
  refine ⟨fun j hj => ?_,fun j hj => ?_,fun j => ?_⟩
  · rw [Set.mem_singleton_iff.mp hj,entry,mark,lookup_insert]
    rfl
  · rw [entry,mark,lookup_insert_ne hj]
    rfl
  · rw [mark,mem_insert,Set.mem_singleton_iff,or_comm]

variable (h : Marks f S m m')
include h

lemma Marks.trans (hf : ∀ v, f (f v)=f v) (h' : Marks f T m' m'') :
    Marks f (S ∪ T) m m'' := by
  refine ⟨fun k hk => ?_,fun k hk => ?_,fun k => ?_⟩
  · by_cases hT : k ∈ T
    · rw [h'.inside k hT]
      by_cases hS : k ∈ S
      · rw [h.inside k hS,hf]
      · rw [h.outside k hS]
    · rw [h'.outside k hT,h.inside k (hk.resolve_right hT)]
  · rw [h'.outside k fun hT => hk (.inr hT),h.outside k fun hS => hk (.inl hS)]
  · rw [h'.mem,h.mem,Set.mem_union,or_assoc]

lemma Marks.insert (hf : ∀ v, f (f v)=f v) (k : κ) :
    Marks f (insert k S) m (mark f m' k) := by
  rw [Set.insert_eq,Set.union_comm]
  exact h.trans hf (marks_mark f m' k)

lemma Marks.field {β : Type} (p : σ → β) (hp : ∀ v, p (f v)=p v) (k : κ) :
    p (entry m' k)=p (entry m k) := by
  by_cases hk : k ∈ S
  · rw [h.inside k hk,hp]
  · rw [h.outside k hk]

lemma Marks.flag (p : σ → Bool) (hp : ∀ v, p (f v)=true) (k : κ) :
    p (entry m' k)=true ↔ k ∈ S ∨ p (entry m k)=true := by
  by_cases hk : k ∈ S
  · rw [h.inside k hk,hp]
    simp [hk]
  · rw [h.outside k hk,or_iff_right hk]

end

end TunnnejiTail.Go
