import Mathlib.Logic.Function.Basic
import Mathlib.Tactic.Common

/-! Memory for the values of one type. A pointer is the number of the cell it was allocated as, so two
pointers are equal when they are to the same cell. -/
namespace TunnnejiTail.Go
open Function

abbrev Ref := ℕ

structure Heap (α : Type) where
  next : Ref
  cell : Ref → α

namespace Heap
variable {α : Type}

def empty [Inhabited α] : Heap α := ⟨0,fun _ => default⟩

def get (h : Heap α) (r : Ref) : α := h.cell r

def set (h : Heap α) (r : Ref) (a : α) : Heap α := ⟨h.next,Function.update h.cell r a⟩

def alloc (h : Heap α) (a : α) : Heap α := ⟨h.next+1,Function.update h.cell h.next a⟩

variable (h : Heap α)

@[simp] lemma get_set (r : Ref) (a : α) : (h.set r a).get r=a := update_self ..

lemma get_set_ne {r r' : Ref} (hne : r'≠r) (a : α) : (h.set r a).get r'=h.get r' :=
  update_of_ne hne ..

@[simp] lemma get_alloc (a : α) : (h.alloc a).get h.next=a := update_self ..

lemma get_alloc_ne {r : Ref} (hr : r≠h.next) (a : α) : (h.alloc a).get r=h.get r :=
  update_of_ne hr ..

lemma map_get_set {β : Type} (f : α → β) (h : Heap α) {r : Ref} {a : α} (hf : f a=f (h.get r)) (r' : Ref) :
    f ((h.set r a).get r')=f (h.get r') := by
  by_cases hr : r'=r
  · subst hr
    rw [get_set,hf]
  · rw [get_set_ne h hr]

end Heap

end TunnnejiTail.Go
