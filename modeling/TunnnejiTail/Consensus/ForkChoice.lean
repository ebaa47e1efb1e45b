import Mathlib.Data.Set.Insert
import Mathlib.Tactic.Common

/-! Fork choice. Blocks follow one another, every block has at most one that it follows, and a block
changes the state it is applied to. Where several known blocks follow the same one, an order that may
depend on the state picks one of them. -/
namespace TunnnejiTail.Consensus

/-- What follows what, what a block does to a state, and which of two blocks is preferred. -/
structure Rule (α σ : Type) where
  follows : α → α → Prop
  apply : σ → α → σ → Prop
  beats : σ → α → α → Prop

namespace Rule
variable {α σ : Type} (R : Rule α σ) (A : Set α)

structure Step (p q : α × σ) : Prop where
  mem : q.1 ∈ A
  follows : R.follows q.1 p.1
  beats : ∀ b ∈ A, R.follows b p.1 → b≠q.1 → R.beats p.2 q.1 b
  apply : R.apply p.2 q.1 q.2

inductive Leads : α × σ → α × σ → Prop
  | stop {p : α × σ} (h : ∀ b ∈ A, ¬ R.follows b p.1) : Leads p p
  | go {p q e : α × σ} (hstep : R.Step A p q) (h : Leads q e) : Leads p e

def Closed (known : Set α) : Prop := ∀ b ∈ A, ∀ a ∈ known, R.follows b a → a ∈ A

end Rule

/-- An order that tells the blocks that follow one block apart, and a state that a block leads to. -/
structure Rule.Lawful {α σ : Type} (R : Rule α σ) : Prop where
  asymm : ∀ {st a b}, R.beats st a b → ¬ R.beats st b a
  trans : ∀ {st a b c}, R.beats st a b → R.beats st b c → R.beats st a c
  apply_unique : ∀ {st a st1 st2}, R.apply st a st1 → R.apply st a st2 → st1=st2

section
variable {α σ : Type} {R : Rule α σ} (hR : R.Lawful) {A A' : Set α} {p q e : α × σ}

lemma Rule.Step.anti (h : R.Step A p q) (hsub : A' ⊆ A) (hq : q.1 ∈ A') : R.Step A' p q :=
  ⟨hq,h.follows,fun b hb => h.beats b (hsub hb),h.apply⟩

lemma Rule.Step.of_union (h : R.Step A p q) (h' : ∀ b ∈ A', R.follows b p.1 → b≠q.1 → R.beats p.2 q.1 b) :
    R.Step (A ∪ A') p q :=
  ⟨.inl h.mem,h.follows,fun b hb => hb.elim (h.beats b) (h' b),h.apply⟩

include hR in
lemma Rule.Step.unique {q' : α × σ} (h : R.Step A p q) (h' : R.Step A p q') : q=q' := by
  have he : q.1=q'.1 := by
    by_contra hne
    exact hR.asymm (h.beats _ h'.mem h'.follows (Ne.symm hne)) (h'.beats _ h.mem h.follows hne)
  exact Prod.ext he (hR.apply_unique (he ▸ h.apply) h'.apply)

variable (h : R.Leads A p e)
include h

include hR in
lemma Rule.Leads.unique {e' : α × σ} (h' : R.Leads A p e') : e=e' := by
  induction h with
  | stop hnone =>
    cases h' with
    | stop _ => rfl
    | go hstep _ => exact absurd hstep.follows (hnone _ hstep.mem)
  | go hstep _ ih =>
    cases h' with
    | stop hnone => exact absurd hstep.follows (hnone _ hstep.mem)
    | go hstep' h' =>
      cases hstep.unique hR hstep'
      exact ih h'

lemma Rule.Leads.none : ∀ b ∈ A, ¬ R.follows b e.1 := by
  induction h with
  | stop hnone => exact hnone
  | go _ _ ih => exact ih

lemma Rule.Leads.mem (hp : p.1 ∈ A) : e.1 ∈ A := by
  induction h with
  | stop => exact hp
  | go hstep _ ih => exact ih hstep.mem

lemma Rule.Leads.insert {u : α} {st : σ} (hp : p.1 ∈ A) (hf : R.follows u e.1)
    (happly : R.apply e.2 u st) (hone : ∀ a ∈ A, R.follows u a → a=e.1)
    (hnone : ∀ b ∈ insert u A, ¬ R.follows b u) : R.Leads (insert u A) p (u,st) := by
  induction h with
  | stop hlast =>
    refine .go ⟨Set.mem_insert u A,hf,fun b hb hfb hne => ?_,happly⟩ (.stop hnone)
    exact absurd hfb (hlast b (hb.resolve_left hne))
  | go hstep h ih =>
    refine .go ⟨.inr hstep.mem,hstep.follows,fun b hb hfb hne => ?_,hstep.apply⟩ (ih hstep.mem hf happly hone)
    rcases hb with rfl | hb
    · exact absurd (hone _ hp hfb ▸ hstep.follows) (h.none _ hstep.mem)
    · exact hstep.beats b hb hfb hne

/-- With fewer blocks the way is the same, if they have its last block and with each block of the way
the one before. -/
theorem Rule.Leads.anti {P : α × σ → Prop} (hsub : A' ⊆ A)
    (hback : ∀ {p q}, P p → R.Step A p q → P q ∧ (q.1 ∈ A' → p.1 ∈ A')) (hp : P p) (he : e.1 ∈ A') :
    p.1 ∈ A' ∧ R.Leads A' p e := by
  induction h with
  | stop hnone => exact ⟨he,.stop fun b hb => hnone b (hsub hb)⟩
  | go hstep _ ih =>
    obtain ⟨hq,hmem⟩ := hback hp hstep
    obtain ⟨hqA,hleads⟩ := ih hq he
    exact ⟨hmem hqA,.go (hstep.anti hsub hqA) hleads⟩

lemma Rule.Leads.union_of_none (hclosed : R.Closed A' A)
    (hnone : ∀ b ∈ A', ¬ R.follows b p.1) : R.Leads (A ∪ A') p e := by
  induction h with
  | stop hnone' => exact .stop fun b hb => hb.elim (hnone' b) (hnone b)
  | go hstep _ ih =>
    refine .go (hstep.of_union fun b hb hf => absurd hf (hnone b hb)) (ih fun b hb hf => ?_)
    exact hnone _ (hclosed b hb _ hstep.mem hf) hstep.follows

include hR in
/-- Two sets of blocks with a common origin: all blocks together lead where one of the two sets leads. -/
theorem Rule.Leads.union {P : α × σ → Prop} (hclosed : R.Closed A A') (hclosed' : R.Closed A' A)
    (hstep : ∀ {p q}, P p → R.Step A p q → P q)
    (htotal : ∀ {p q q'}, P p → R.Step A p q → R.Step A' p q' → q.1≠q'.1 → R.beats p.2 q.1 q'.1 ∨ R.beats p.2 q'.1 q.1)
    {e' : α × σ} (h' : R.Leads A' p e') (hp : P p) :
    R.Leads (A ∪ A') p e ∨ R.Leads (A ∪ A') p e' := by
  -- The branch that wins is not known to the other side, so from there on nothing is in its way.
  have hwins {A A' : Set α} {p q q' e : α × σ} (hclosed' : R.Closed A' A) (hs : R.Step A p q)
      (hs' : R.Step A' p q') (hne : q.1≠q'.1) (hbeats : R.beats p.2 q.1 q'.1) (h : R.Leads A q e) :
      R.Leads (A ∪ A') p e := by
    have hnot : q.1 ∉ A' := fun hq => hR.asymm hbeats (hs'.beats q.1 hq hs.follows hne)
    refine .go (hs.of_union fun b hb hf hbq => ?_) (h.union_of_none hclosed' fun b hb hf => ?_)
    · by_cases hb' : b=q'.1
      · rw [hb']
        exact hbeats
      · exact hR.trans hbeats (hs'.beats b hb hf hb')
    · exact hnot (hclosed' b hb q.1 hs.mem hf)
  induction h with
  | stop hnone =>
    rw [Set.union_comm]
    exact .inr (h'.union_of_none hclosed hnone)
  | @go p q e hs h ih =>
    cases h' with
    | stop hnone => exact .inl ((Rule.Leads.go hs h).union_of_none hclosed' hnone)
    | @go _ q' _ hs' h' =>
      by_cases hne : q.1=q'.1
      · have hq : q=q' := Prod.ext hne (hR.apply_unique (hne ▸ hs.apply) hs'.apply)
        subst hq
        have hboth := hs.of_union hs'.beats
        exact (ih h' (hstep hp hs)).imp (.go hboth) (.go hboth)
      · rcases htotal hp hs hs' hne with hbeats | hbeats
        · exact .inl (hwins hclosed' hs hs' hne hbeats h)
        · rw [Set.union_comm]
          exact .inr (hwins hclosed hs' hs (Ne.symm hne) hbeats h')

end

end TunnnejiTail.Consensus
