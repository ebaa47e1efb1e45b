import Mathlib.Data.List.Sort
import Mathlib.Order.Defs.LinearOrder

/-! sort.Slice. Nothing is said of the order of equal elements, so the sorting is an argument, and a
list whose elements have different keys has only one sorted form. -/
namespace TunnnejiTail.Go

/-- Some sorting function. It gives a sorted list if the comparison is that of keys in a linear
order. -/
structure SliceSort where
  sort : {α : Type} → (α → α → Bool) → List α → List α
  perm : ∀ {α : Type} (less : α → α → Bool) (l : List α), (sort less l).Perm l
  sorted : ∀ {α κ : Type} [LinearOrder κ] (key : α → κ) {less : α → α → Bool},
    (∀ a b, less a b=true ↔ key a<key b) → ∀ l, (sort less l).Pairwise fun a b => key a≤key b

namespace SliceSort

/-- Insertion sort. -/
def insertion : SliceSort where
  sort less l := l.insertionSort fun a b => less b a=false
  perm less l := List.perm_insertionSort _ l
  sorted {α κ} _ key less hless l := by
    have hle : (fun a b => less b a=false)=fun a b => key a≤key b := by
      funext a b
      rw [← Bool.not_eq_true,hless,not_lt]
    have : Std.Total fun a b => less b a=false := by
      rw [hle]
      exact ⟨fun a b => le_total _ _⟩
    have : IsTrans α fun a b => less b a=false := by
      rw [hle]
      exact ⟨fun a b c => le_trans⟩
    exact (List.pairwise_insertionSort (fun a b => less b a=false) l).imp fun {a b} h =>
      (congrFun (congrFun hle a) b).mp h

lemma sort_eq_sort {α κ : Type} [LinearOrder κ] (key : α → κ) {less : α → α → Bool}
    (hless : ∀ a b, less a b=true ↔ key a<key b) (s s' : SliceSort) {l l' : List α}
    (hl : l.Perm l') (hkey : ∀ a ∈ l, ∀ b ∈ l, key a=key b → a=b) : s.sort less l=s'.sort less l' := by
  have hmem {a : α} (ha : a ∈ s.sort less l) : a ∈ l := (s.perm less l).mem_iff.mp ha
  have hmem' {a : α} (ha : a ∈ s'.sort less l') : a ∈ l :=
    hl.mem_iff.mpr ((s'.perm less l').mem_iff.mp ha)
  refine List.Perm.eq_of_pairwise (fun a b ha hb h h' => ?_) (s.sorted key hless l)
    (s'.sorted key hless l') ((s.perm less l).trans (hl.trans (s'.perm less l').symm))
  exact hkey a (hmem ha) b (hmem' hb) (le_antisymm h h')

end SliceSort

end TunnnejiTail.Go
