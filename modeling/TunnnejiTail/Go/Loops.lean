import Mathlib.Data.List.Basic
import Mathlib.Tactic.Common

/-! Code that can fail with an error: what an accepted run of a guard, of List.foldlM or of
List.mapM in Except says about its steps. A loop that filters a slice in its own array. -/
namespace TunnnejiTail.Go
open List
variable {ε σ α β : Type} {x : Except ε α} {f : α → Except ε β}

lemma bind_eq_ok {b : β} : (x >>= f)=.ok b ↔ ∃ a, x=.ok a ∧ f a=.ok b := by
  cases x with
  | error e =>
    constructor
    · intro h
      cases h
    · rintro ⟨a,ha,-⟩
      cases ha
  | ok a =>
    constructor
    · exact fun h => ⟨a,rfl,h⟩
    · rintro ⟨a',ha,h⟩
      cases ha
      exact h

lemma map_eq_ok {f : α → β} {b : β} : x.map f=.ok b ↔ ∃ a, x=.ok a ∧ f a=b := by
  cases x with
  | error e => simp [Except.map]
  | ok a => simp [Except.map]

variable {e : ε} {a : α}

lemma guard_eq_ok {c : Prop} [Decidable c] : (if c then .error e else x)=.ok a ↔ ¬c ∧ x=.ok a := by
  by_cases hc : c <;> simp [hc]

lemma ite_eq_ok {c : Prop} [Decidable c] : (if c then x else .error e)=.ok a ↔ c ∧ x=.ok a := by
  by_cases hc : c <;> simp [hc]

lemma mapError_eq_ok {ε' : Type} {f : ε → ε'} : x.mapError f=.ok a ↔ x=.ok a := by
  cases x <;> simp [Except.mapError]

lemma toOption_eq_some : x.toOption=some a ↔ x=.ok a := by
  cases x <;> simp [Except.toOption]

lemma foldlM_cons_ok {f : σ → α → Except ε σ} {s s' : σ} {x : α} {xs : List α} :
    (x::xs).foldlM f s=.ok s' ↔ ∃ t, f s x=.ok t ∧ xs.foldlM f t=.ok s' := by
  rw [foldlM_cons]
  exact bind_eq_ok

variable {l : List α}

/-- Invariant rule: what holds before the loop and is carried over each accepted step holds
after it. The invariant may speak of the elements already visited. -/
theorem foldlM_invariant {f : σ → α → Except ε σ} (motive : List α → σ → Prop) {s s' : σ} (h0 : motive [] s)
    (hstep : ∀ done t x t', motive done t → f t x=.ok t' → motive (done++[x]) t')
    (h : l.foldlM f s=.ok s') : motive l s' := by
  have key : ∀ (rest done : List α) (t : σ), motive done t → rest.foldlM f t=.ok s' → motive (done++rest) s' := by
    intro rest
    induction rest with
    | nil =>
      intro done t hm ht
      cases ht
      simpa using hm
    | cons x xs ih =>
      intro done t hm ht
      obtain ⟨t',hx,hxs⟩ := foldlM_cons_ok.mp ht
      have hm' := ih (done++[x]) t' (hstep done t x t' hm hx) hxs
      simpa using hm'
  exact key l [] s h0 h

variable {l' : List β}

lemma mapM_ok (h : l.mapM f=.ok l') : Forall₂ (fun a b => f a=.ok b) l l' := by
  induction l generalizing l' with
  | nil =>
    cases h
    exact .nil
  | cons x xs ih =>
    rw [mapM_cons] at h
    obtain ⟨b,hb,h⟩ := bind_eq_ok.mp h
    obtain ⟨bs,hbs,h⟩ := bind_eq_ok.mp h
    cases h
    exact .cons hb (ih hbs)

lemma map_eq_of_mapM_ok {γ : Type} {p : α → γ} {q : β → γ}
    (hpq : ∀ a b, f a=.ok b → q b=p a) (h : l.mapM f=.ok l') : l'.map q=l.map p := by
  have hf := mapM_ok h
  clear h
  induction hf with
  | nil => rfl
  | cons hab _ ih => rw [map_cons,map_cons,hpq _ _ hab,ih]

lemma mem_mapM_ok (h : l.mapM f=.ok l') (b : β) : b ∈ l' ↔ ∃ a ∈ l, f a=.ok b := by
  have hf := mapM_ok h
  clear h
  induction hf with
  | nil => simp
  | cons hab _ ih =>
    constructor
    · intro hb
      cases hb with
      | head => exact ⟨_,mem_cons_self,hab⟩
      | tail _ hb =>
        obtain ⟨a,ha,hfa⟩ := ih.mp hb
        exact ⟨a,mem_cons_of_mem _ ha,hfa⟩
    · rintro ⟨a,ha,hfa⟩
      cases ha with
      | head =>
        cases hfa.symm.trans hab
        exact mem_cons_self
      | tail _ ha => exact mem_cons_of_mem _ (ih.mpr ⟨a,ha,hfa⟩)

lemma ok_of_mapM_ok (h : l.mapM f=.ok l') (ha : a ∈ l) : ∃ b ∈ l', f a=.ok b := by
  have hf := mapM_ok h
  clear h
  induction hf with
  | nil => cases ha
  | cons hab _ ih =>
    cases ha with
    | head => exact ⟨_,mem_cons_self,hab⟩
    | tail _ ha =>
      obtain ⟨b,hb,hfb⟩ := ih ha
      exact ⟨b,mem_cons_of_mem _ hb,hfb⟩

lemma exists_of_mapM_error (h : l.mapM f=.error e) : ∃ a ∈ l, f a=.error e := by
  induction l with
  | nil => cases h
  | cons a l ih =>
    rw [mapM_cons] at h
    cases ha : f a with
    | error e' =>
      rw [ha] at h
      cases h
      exact ⟨a,mem_cons_self,ha⟩
    | ok b =>
      rw [ha] at h
      cases hl : l.mapM f with
      | ok bs =>
        rw [hl] at h
        cases h
      | error e' =>
        rw [hl] at h
        cases h
        obtain ⟨a',ha',he⟩ := ih hl
        exact ⟨a',mem_cons_of_mem a ha',he⟩

lemma exists_mapM_ok (h : ∀ a ∈ l, ∃ b, f a=.ok b) : ∃ l', l.mapM f=.ok l' := by
  cases hl : l.mapM f with
  | ok l' => exact ⟨l',rfl⟩
  | error e =>
    obtain ⟨a,ha,he⟩ := exists_of_mapM_error hl
    obtain ⟨b,hb⟩ := h a ha
    cases hb.symm.trans he

lemma mapM_perm (he : ∀ a e', f a=.error e' → e'=e) {l' : List α} (h : l.Perm l') :
    (∃ r r', l.mapM f=.ok r ∧ l'.mapM f=.ok r' ∧ r.Perm r') ∨ l.mapM f=.error e ∧ l'.mapM f=.error e := by
  induction h with
  | nil => exact .inl ⟨[],[],rfl,rfl,.nil⟩
  | @cons a l l' _ ih =>
    rw [mapM_cons,mapM_cons]
    cases ha : f a with
    | error e' =>
      cases he a e' ha
      exact .inr ⟨rfl,rfl⟩
    | ok b =>
      rcases ih with ⟨r,r',hr,hr',hperm⟩ | ⟨hr,hr'⟩
      · rw [hr,hr']
        exact .inl ⟨b::r,b::r',rfl,rfl,hperm.cons b⟩
      · rw [hr,hr']
        exact .inr ⟨rfl,rfl⟩
  | swap a a' l =>
    simp only [mapM_cons]
    cases ha : f a with
    | error e' =>
      cases he a e' ha
      cases ha' : f a' with
      | error e' =>
        cases he a' e' ha'
        exact .inr ⟨rfl,rfl⟩
      | ok b' => exact .inr ⟨rfl,rfl⟩
    | ok b =>
      cases ha' : f a' with
      | error e' =>
        cases he a' e' ha'
        exact .inr ⟨rfl,rfl⟩
      | ok b' =>
        cases hl : l.mapM f with
        | ok r => exact .inl ⟨b'::b::r,b::b'::r,rfl,rfl,.swap ..⟩
        | error e' =>
          obtain ⟨a'',-,he''⟩ := exists_of_mapM_error hl
          cases he a'' e' he''
          exact .inr ⟨rfl,rfl⟩
  | trans _ _ ih ih' =>
    rcases ih with ⟨r,r',hr,hr',hperm⟩ | ⟨hr,hr'⟩
    · rcases ih' with ⟨t,t',ht,ht',hperm'⟩ | ⟨ht,-⟩
      · cases hr'.symm.trans ht
        exact .inl ⟨r,t',hr,ht',hperm.trans hperm'⟩
      · cases hr'.symm.trans ht
    · rcases ih' with ⟨t,t',ht,-,-⟩ | ⟨-,ht'⟩
      · cases hr'.symm.trans ht
      · exact .inr ⟨hr,ht'⟩

section
variable {α : Type} (keep : α → Bool)

/-- One round of a loop that appends what it keeps of a slice to the start of the slice itself. -/
def filterStep (r : List α × ℕ) (i : ℕ) : List α × ℕ :=
  match r.1[i]? with
  | some a => if keep a then (r.1.set r.2 a,r.2+1) else r
  | none => r

def filterInPlace (s : List α) : List α :=
  let r := (List.range' 0 s.length).foldl (filterStep keep) (s,0)
  r.1.take r.2

lemma filterInPlace_eq (s : List α) : filterInPlace keep s=s.filter keep := by
  -- the array is what was kept, what was read since and what is still to be read
  have hloop : ∀ rest kept gap : List α,
      let r := (range' (kept.length+gap.length) rest.length).foldl (filterStep keep)
        (kept++gap++rest,kept.length)
      r.1.take r.2=kept++rest.filter keep := by
    intro rest
    induction rest with
    | nil => simp
    | cons a rest ih =>
      intro kept gap
      have hread : (kept++gap++a::rest)[kept.length+gap.length]? = some a := by simp
      rw [length_cons,List.range'_succ,foldl_cons,filterStep,hread]
      cases hkeep : keep a with
      | false =>
        have := ih kept (gap++[a])
        simpa [hkeep,Nat.add_assoc] using this
      | true =>
        cases gap with
        | nil =>
          have := ih (kept++[a]) []
          simpa [hkeep] using this
        | cons g gs =>
          have := ih (kept++[a]) (gs++[a])
          simpa [hkeep,Nat.add_assoc,Nat.add_comm 1] using this
  exact hloop s [] []

end

end TunnnejiTail.Go
