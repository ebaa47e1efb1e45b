import TunnnejiTail.Consensus.ForkChoice
import TunnnejiTail.Tka.Growth

/-! Messages that were verified one after another from a bootstrap message on: what their states are like,
and that the branches of a fork can always be weighed. -/
namespace TunnnejiTail.Tka
open Go List AUM

def State.Keyed (st : State) : Prop := ∀ k ∈ st.trusted, k.kind=.key25519

lemma firstErr_eq_ok {α : Type} {f : α → Option Err} {l : List α} (h : firstErr f l=.ok ()) :
    ∀ a ∈ l, f a=none := by
  rw [firstErr] at h
  split at h
  · cases h
  · next hnone => exact findSome?_eq_none_iff.mp hnone

lemma Key.kind_of_staticValidate {k : Key} (h : k.staticValidate=.ok ()) : k.kind=.key25519 := by
  rw [staticValidate] at h
  obtain ⟨-,h⟩ := guard_eq_ok.mp h
  obtain ⟨-,h⟩ := guard_eq_ok.mp h
  obtain ⟨-,h⟩ := guard_eq_ok.mp h
  split at h
  · next hkind => exact hkind
  · cases h

lemma State.keyed_of_checkpoint {s : State} (h : s.staticValidateCheckpoint=.ok ()) : s.Keyed := by
  rw [staticValidateCheckpoint] at h
  obtain ⟨-,h⟩ := guard_eq_ok.mp h
  obtain ⟨-,h⟩ := guard_eq_ok.mp h
  obtain ⟨-,h⟩ := guard_eq_ok.mp h
  obtain ⟨⟨⟩,-,h⟩ := bind_eq_ok.mp h
  obtain ⟨-,h⟩ := guard_eq_ok.mp h
  obtain ⟨-,h⟩ := guard_eq_ok.mp h
  obtain ⟨⟨⟩,hkeys,-⟩ := bind_eq_ok.mp h
  intro k hk
  obtain ⟨i,hi⟩ := mem_iff_getElem?.mp hk
  have hbad := firstErr_eq_ok hkeys (k,i) (mk_mem_zipIdx_iff_getElem?.mpr hi)
  rw [badKey] at hbad
  split at hbad
  · next hok => exact Key.kind_of_staticValidate hok
  · cases hbad

variable {st : State}

lemma State.Keyed.getKey (h : st.Keyed) {id : KeyID} {e : Err} (he : st.getKey id=.error e) :
    e=.noSuchKey := by
  rw [State.getKey] at he
  rw [Keyed] at h
  generalize st.trusted=keys at h he
  induction keys with
  | nil =>
    cases he
    rfl
  | cons k keys ih =>
    have hk : k.id=.ok k.pub := by rw [Key.id,h k mem_cons_self]
    rw [findKey,hk] at he
    change (if k.pub=id then _ else _)=_ at he
    split at he
    · cases he
    · exact ih (fun k' hk' => h k' (mem_cons_of_mem k hk')) he

variable {a : AUM}

lemma AUM.exists_weight (h : st.Keyed)
    (ha : ∀ sig ∈ a.signatures, sig.keyID.length=32) : ∃ w, a.weight st=.ok w := by
  rw [weight]
  cases hl : a.signatures.foldlM (AUM.weightStep st) (0,[]) with
  | ok acc => exact ⟨_,rfl⟩
  | error e =>
    obtain ⟨before,sig,after,t,hsplit,-,ht⟩ := exists_of_foldlM_error hl
    have hsig : sig ∈ a.signatures := hsplit ▸ mem_append_right _ mem_cons_self
    rw [weightStep,if_neg (not_not.mpr (ha sig hsig))] at ht
    split at ht
    · cases ht
    · next e' he' hne => exact absurd (h.getKey hne) he'
    · split at ht <;> cases ht

lemma AUM.of_staticValidate (h : a.staticValidate=.ok ()) :
    (∀ k, a.key=some k → k.staticValidate=.ok ()) ∧ (∀ sig ∈ a.signatures, sig.keyID.length=32) ∧
    ∀ s, a.state=some s → s.staticValidateCheckpoint=.ok () := by
  rw [staticValidate] at h
  obtain ⟨⟨⟩,hkey,h⟩ := bind_eq_ok.mp h
  obtain ⟨-,h⟩ := guard_eq_ok.mp h
  obtain ⟨⟨⟩,hsigs,h⟩ := bind_eq_ok.mp h
  obtain ⟨⟨⟩,hstate,-⟩ := bind_eq_ok.mp h
  refine ⟨fun k hk => ?_,fun sig hsig => ?_,fun s hs => ?_⟩
  · rw [hk] at hkey
    exact hkey
  · obtain ⟨i,hi⟩ := mem_iff_getElem?.mp hsig
    have hbad := firstErr_eq_ok hsigs (sig,i) (mk_mem_zipIdx_iff_getElem?.mpr hi)
    rw [badSignature] at hbad
    split at hbad
    · cases hbad
    · next hlen => exact not_not.mp (not_or.mp hlen).1
  · rw [hs] at hstate
    exact mapError_eq_ok.mp hstate

lemma staticValidate_of_aumVerify {X : Primitives} {genesis : Bool}
    (h : aumVerify X a st genesis=.ok ()) : a.staticValidate=.ok () := by
  obtain ⟨⟨⟩,hvalid,-⟩ := bind_eq_ok.mp h
  exact mapError_eq_ok.mp hvalid

namespace State

variable {id : KeyID} {keys keys' : List Key}

lemma kind_of_replaceKey {k : Key} (h : replaceKey id k keys=.ok keys')
    (hk : k.kind=.key25519) (hkeys : ∀ k' ∈ keys, k'.kind=.key25519) : ∀ k' ∈ keys', k'.kind=.key25519 := by
  induction keys generalizing keys' with
  | nil =>
    cases h
    exact forall_mem_nil _
  | cons k0 keys ih =>
    obtain ⟨keyID,-,h⟩ := bind_eq_ok.mp h
    obtain ⟨rest,hrest,h⟩ := bind_eq_ok.mp h
    cases h
    refine forall_mem_cons.mpr ⟨?_,ih hrest fun k' hk' => hkeys k' (mem_cons_of_mem k0 hk')⟩
    split
    · exact hk
    · exact hkeys k0 mem_cons_self

lemma mem_of_dropKey (h : dropKey id keys=.ok keys') :
    ∀ k ∈ keys', k ∈ keys := by
  induction keys generalizing keys' with
  | nil => cases h
  | cons k0 keys ih =>
    obtain ⟨keyID,-,h⟩ := bind_eq_ok.mp h
    split at h
    · cases h
      exact fun k hk => mem_cons_of_mem k0 hk
    · obtain ⟨rest,hrest,h⟩ := bind_eq_ok.mp h
      cases h
      refine forall_mem_cons.mpr ⟨mem_cons_self,fun k hk => ?_⟩
      exact mem_cons_of_mem k0 (ih hrest k hk)

variable {X : Primitives} {st st' : State} {a : AUM}

lemma Keyed.apply (h : st.Keyed)
    (hvalid : a.staticValidate=.ok ()) (happly : st.applyVerifiedAUM X a=.ok st') : st'.Keyed := by
  obtain ⟨hkey,-,hstate⟩ := of_staticValidate hvalid
  rw [applyVerifiedAUM] at happly
  obtain ⟨-,happly⟩ := guard_eq_ok.mp happly
  split at happly
  · split at happly
    · cases happly
    · next s hs =>
      obtain ⟨-,happly⟩ := guard_eq_ok.mp happly
      cases happly
      have hkeyed : s.Keyed := keyed_of_checkpoint (hstate s hs)
      exact hkeyed
  · split at happly
    · cases happly
    · next k hk =>
      obtain ⟨keyID,-,happly⟩ := bind_eq_ok.mp happly
      split at happly
      · cases happly
      · cases happly
        intro k' hk'
        rcases mem_append.mp hk' with hk' | hk'
        · exact h k' hk'
        · rw [mem_singleton.mp hk']
          exact Key.kind_of_staticValidate (hkey k hk)
  · obtain ⟨k,hk,happly⟩ := bind_eq_ok.mp happly
    obtain ⟨⟨⟩,hk',happly⟩ := bind_eq_ok.mp happly
    obtain ⟨keys,hkeys,happly⟩ := bind_eq_ok.mp happly
    cases happly
    exact kind_of_replaceKey hkeys (Key.kind_of_staticValidate (mapError_eq_ok.mp hk')) h
  · obtain ⟨keys,hkeys,happly⟩ := bind_eq_ok.mp happly
    cases happly
    exact fun k hk => h k (mem_of_dropKey hkeys k hk)
  · cases happly
    exact h

lemma apply_checkpoint (hkind : a.messageKind=.checkpoint)
    (happly : st.applyVerifiedAUM X a=.ok st') : ∃ s, a.state=some s ∧ st'=s.cloneForUpdate X a := by
  rw [applyVerifiedAUM,hkind] at happly
  obtain ⟨-,happly⟩ := guard_eq_ok.mp happly
  dsimp only at happly
  split at happly
  · cases happly
  · next s hs =>
    obtain ⟨-,happly⟩ := guard_eq_ok.mp happly
    cases happly
    exact ⟨s,hs,rfl⟩

end State

/-- A message with its state, verified from a bootstrap message on. -/
inductive Verified (X : Primitives) (U : Set AUM) (B : AUM) : AUM → State → Prop
  | root {st : State} (hB : B ∈ U) (hkind : B.messageKind=.checkpoint) (hst : B.state=some st)
      (hverify : aumVerify X B st true=.ok ()) : Verified X U B B (st.cloneForUpdate X B)
  | step {a b : AUM} {st st' : State} (h : Verified X U B a st) (hb : b ∈ U)
      (hverify : aumVerify X b st false=.ok ()) (happly : st.applyVerifiedAUM X b=.ok st') :
    Verified X U B b st'

namespace Verified
variable {X : Primitives} {U : Set AUM} {B a b : AUM} {st st' : State}

section
variable (h : Verified X U B a st)
include h

lemma mem : a ∈ U := by
  cases h with
  | root hB => exact hB
  | step _ hb => exact hb

lemma root_mem : B ∈ U := by
  induction h with
  | root hB => exact hB
  | step _ _ _ _ ih => exact ih

lemma lastAUMHash : st.lastAUMHash=some (X.hash a) := by
  cases h with
  | root => rfl
  | step _ _ _ happly => exact (State.applyVerifiedAUM_eq_ok X happly).1

lemma length_keyID : ∀ sig ∈ a.signatures, sig.keyID.length=32 := by
  cases h with
  | root _ _ _ hverify => exact (of_staticValidate (staticValidate_of_aumVerify hverify)).2.1
  | step _ _ hverify => exact (of_staticValidate (staticValidate_of_aumVerify hverify)).2.1

lemma keyed : st.Keyed := by
  induction h with
  | @root st _ _ hst hverify =>
    have hkeyed : st.Keyed := State.keyed_of_checkpoint
      ((of_staticValidate (staticValidate_of_aumVerify hverify)).2.2 _ hst)
    exact hkeyed
  | step _ _ hverify happly ih => exact ih.apply (staticValidate_of_aumVerify hverify) happly

lemma exists_weight {B' : AUM} (h' : Verified X U B' b st') :
    ∃ w, b.weight st=.ok w :=
  AUM.exists_weight h.keyed h'.length_keyID

lemma checkpoint (hkind : a.messageKind=.checkpoint) :
    ∃ s, a.state=some s ∧ st=s.cloneForUpdate X a := by
  cases h with
  | root _ _ hst => exact ⟨_,hst,rfl⟩
  | step _ _ _ happly => exact State.apply_checkpoint hkind happly

lemma parent : a=B ∨ ∃ p stp, Verified X U B p stp ∧ aumVerify X a stp false=.ok () ∧ stp.applyVerifiedAUM X a=.ok st ∧
    a.prevAUMHash.getD []=(X.hash p).bytes := by
  cases h with
  | root => exact .inl rfl
  | step h _ hverify happly =>
    exact .inr ⟨_,_,h,hverify,happly,(State.applyVerifiedAUM_eq_ok X happly).2 _ h.lastAUMHash⟩

end

section
variable (hU : Set.InjOn X.hash U) {rank : AUM → ℕ}
  (hrank : Ranked X U rank)
include hrank

lemma rank_le (h : Verified X U B a st) : rank B ≤ rank a := by
  induction h with
  | root => exact le_rfl
  | step h hb _ happly ih =>
    have hp := parent_of_bytes ((State.applyVerifiedAUM_eq_ok X happly).2 _ h.lastAUMHash)
    exact ih.trans (hrank _ hb _ h.mem hp).le

lemma not_parent_root (h : Verified X U B a st) : B.parent≠some (X.hash a) :=
  fun hp => absurd (h.rank_le hrank) (not_le.mpr (hrank B h.root_mem a h.mem hp))

include hU

lemma unique (h : Verified X U B a st) (h' : Verified X U B a st') : st=st' := by
  induction h generalizing st' with
  | root hB hkind hst _ =>
    obtain ⟨s,hs,rfl⟩ := h'.checkpoint hkind
    cases hst.symm.trans hs
    rfl
  | @step p a st st1 h ha _ happly ih =>
    have hp := parent_of_bytes ((State.applyVerifiedAUM_eq_ok X happly).2 _ h.lastAUMHash)
    rcases h'.parent with rfl | ⟨p',stp,hp',-,happly',hprev⟩
    · exact absurd (h.rank_le hrank) (not_le.mpr (hrank _ ha _ h.mem hp))
    · cases hU h.mem hp'.mem (Option.some.inj (hp.symm.trans (parent_of_bytes hprev)))
      cases ih hp'
      exact Except.ok.inj (happly.symm.trans happly')

end

end Verified

end TunnnejiTail.Tka
