import Mathlib.Data.Option.Basic
import Mathlib.Data.Nat.Basic
import Mathlib.Tactic.Common

/-! Walks along a partial function, such as the one from an entry of a table to its parent. -/
namespace TunnnejiTail.Go

section
variable {α : Type} (f : α → Option α)

def walk : ℕ → α → Option α
  | 0,a => some a
  | n+1,a => (f a).bind (walk n)

def Ends (n : ℕ) (a b : α) : Prop := walk f n a=some b ∧ f b=none

@[simp] lemma walk_zero (a : α) : walk f 0 a=some a := rfl

lemma walk_add (m n : ℕ) (a : α) : walk f (m+n) a=(walk f m a).bind (walk f n) := by
  induction m generalizing a with
  | zero => simp
  | succ m ih =>
    rw [Nat.succ_add,walk,walk,Option.bind_assoc]
    exact congrArg _ (funext ih)

lemma walk_one (a : α) : walk f 1 a=f a := by
  rw [walk]
  cases f a <;> rfl

end

section
variable {α : Type} {f : α → Option α} {m n : ℕ} {a b c : α}

lemma walk_succ_of (h : f a=some b) (n : ℕ) : walk f (n+1) a=walk f n b := by
  rw [walk,h]
  rfl

lemma walk_succ_eq_some : walk f (n+1) a=some c ↔ ∃ b, f a=some b ∧ walk f n b=some c := by
  rw [walk,Option.bind_eq_some_iff]

lemma walk_succ_eq_some_last : walk f (n+1) a=some c ↔ ∃ b, walk f n a=some b ∧ f b=some c := by
  rw [walk_add,Option.bind_eq_some_iff]
  simp only [walk_one]

lemma walk_trans (h : walk f m a=some b) (n : ℕ) : walk f (m+n) a=walk f n b := by
  rw [walk_add,h]
  rfl

lemma Ends.rest (h : Ends f n a c) (hb : walk f m a=some b) : ∃ k, n=m+k ∧ Ends f k b c := by
  induction m generalizing n a with
  | zero =>
    cases hb
    exact ⟨n,(Nat.zero_add n).symm,h⟩
  | succ m ih =>
    obtain ⟨a',ha',hb⟩ := walk_succ_eq_some.mp hb
    cases n with
    | zero =>
      obtain ⟨hw,hend⟩ := h
      cases hw
      cases ha'.symm.trans hend
    | succ n =>
      obtain ⟨k,rfl,hk⟩ := ih ⟨(walk_succ_of ha' n).symm.trans h.1,h.2⟩ hb
      exact ⟨k,by omega,hk⟩

lemma Ends.trans (h : walk f m a=some b) (hc : Ends f n b c) : Ends f (m+n) a c :=
  ⟨(walk_trans h n).trans hc.1,hc.2⟩

lemma Ends.unique (h : Ends f m a b) (h' : Ends f n a c) : m=n ∧ b=c := by
  obtain ⟨k,rfl,hk⟩ := h'.rest h.1
  cases k with
  | zero =>
    cases hk.1
    exact ⟨rfl,rfl⟩
  | succ k =>
    obtain ⟨d,hd,-⟩ := walk_succ_eq_some.mp hk.1
    cases hd.symm.trans h.2

variable {P : α → Prop}

lemma walk_induction (hstep : ∀ {a b}, P a → f a=some b → P b)
    (h : walk f n a=some b) (ha : P a) : P b := by
  induction n generalizing a with
  | zero =>
    cases h
    exact ha
  | succ n ih =>
    obtain ⟨a',ha',h⟩ := walk_succ_eq_some.mp h
    exact ih h (hstep ha ha')

lemma walk_mono {g : α → Option α} (hfg : ∀ {a b}, P a → f a=some b → P b ∧ g a=some b)
    (ha : P a) (h : walk f n a=some b) : walk g n a=some b := by
  induction n generalizing a with
  | zero => exact h
  | succ n ih =>
    obtain ⟨a',ha',h⟩ := walk_succ_eq_some.mp h
    obtain ⟨hp,hg⟩ := hfg ha ha'
    exact walk_succ_eq_some.mpr ⟨a',hg,ih hp h⟩

variable {P : α → Prop} {rank : α → ℕ} (hstep : ∀ {a b}, P a → f a=some b → P b ∧ rank b < rank a)
include hstep

lemma rank_of_walk (ha : P a) (h : walk f n a=some b) : P b ∧ rank b+n ≤ rank a := by
  induction n generalizing a with
  | zero =>
    cases h
    exact ⟨ha,le_rfl⟩
  | succ n ih =>
    obtain ⟨a',ha',h⟩ := walk_succ_eq_some.mp h
    obtain ⟨hp,hlt⟩ := hstep ha ha'
    obtain ⟨hb,hle⟩ := ih hp h
    exact ⟨hb,by omega⟩

lemma walk_injective (ha : P a) (h : walk f m a=some b) (h' : walk f n a=some b) : m=n := by
  have hnot {m k : ℕ} (h : walk f m a=some b) (h' : walk f (m+k) a=some b) : k=0 := by
    rw [walk_trans h] at h'
    have hle := (rank_of_walk hstep (rank_of_walk hstep ha h).1 h').2
    omega
  rcases Nat.le_total m n with hle | hle
  · obtain ⟨k,rfl⟩ := Nat.exists_eq_add_of_le hle
    rw [hnot h h',Nat.add_zero]
  · obtain ⟨k,rfl⟩ := Nat.exists_eq_add_of_le hle
    rw [hnot h' h,Nat.add_zero]

lemma exists_ends (ha : P a) : ∃ n b, Ends f n a b := by
  induction hr : rank a using Nat.strong_induction_on generalizing a with
  | _ r ih =>
    cases hb : f a with
    | none => exact ⟨0,a,rfl,hb⟩
    | some b =>
      obtain ⟨hp,hlt⟩ := hstep ha hb
      obtain ⟨n,c,hc⟩ := ih (rank b) (hr ▸ hlt) hp rfl
      exact ⟨1+n,c,hc.trans ((walk_one f a).trans hb)⟩

end

end TunnnejiTail.Go
