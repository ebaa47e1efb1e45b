import Mathlib.Data.List.Basic
import Mathlib.Logic.Relation
import Mathlib.Tactic.Common

/-! Goroutines that run side by side. A task is what it was started for, the events it has
produced and those still to come; a pool of tasks moves by one event of one task at a time,
so a run of the pool is any interleaving. -/
namespace TunnnejiTail.Go

lemma reachable_invariant {σ : Type} {step : σ → σ → Prop} {I : σ → Prop} {s s' : σ}
    (h : Relation.ReflTransGen step s s') (h0 : I s) (hstep : ∀ a b, step a b → I a → I b) : I s' := by
  induction h with
  | refl => exact h0
  | tail _ hs ih => exact hstep _ _ hs ih

/-- Replacing one member of a list keeps what holds of all of them if it holds of the new one. -/
theorem forall_mem_replace {α : Type} {P : α → Prop} {before after : List α} {x y : α}
    (h : ∀ z ∈ before++x::after, P z) (hy : P x → P y) : ∀ z ∈ before++y::after, P z := by
  rw [List.forall_mem_append,List.forall_mem_cons] at h ⊢
  exact ⟨h.1,hy h.2.1,h.2.2⟩

structure Task (ι ε : Type) where
  id : ι
  done : List ε
  pending : List ε

namespace Task
variable {ι ε : Type}

def start (i : ι) (trace : List ε) : Task ι ε := ⟨i,[],trace⟩

def trace (t : Task ι ε) : List ε := t.done++t.pending

inductive Exec : List (Task ι ε) → List (Task ι ε) → Prop
  | run (before after : List (Task ι ε)) (i : ι) (done : List ε) (e : ε) (rest : List ε) :
    Exec (before++⟨i,done,e::rest⟩::after) (before++⟨i,done++[e],rest⟩::after)

lemma Exec.forall_trace {ts ts' : List (Task ι ε)} (h : Exec ts ts') {P : ι → List ε → Prop}
    (hp : ∀ t ∈ ts, P t.id t.trace) : ∀ t ∈ ts', P t.id t.trace := by
  cases h with
  | run before after i done e rest =>
    refine forall_mem_replace (P := fun t : Task ι ε => P t.id t.trace) hp fun hrun => ?_
    simpa [trace] using hrun

end Task

end TunnnejiTail.Go
