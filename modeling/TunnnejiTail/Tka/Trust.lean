import TunnnejiTail.Tka.Rotation

/-! Which node keys an authority accepts, in terms of who vouches for whom. -/
namespace TunnnejiTail.Tka
open Go TunnnejiTail.Types List

section
variable {Enc : Type} {S : Scheme Enc} {st : State} {vk : Key} {s : SigLevel} {nested : List SigLevel}

/-- The chain of trust of a signature: rotations down to a signature by a trusted key, each of them signed
by the nearest wrapping key further in. -/
def Trust (S : Scheme Enc) (st : State) : SigLevel → List SigLevel → Prop
  | s,[] => (s.sigKind=.direct ∨ s.sigKind=.credential) ∧ s.keyID≠[] ∧ ∃ vk,
    st.getKey s.keyID=.ok vk ∧ vk.kind=.key25519 ∧ vk.pub.length=32 ∧
    S.verifyConsensus vk.pub (sigHash S s []) s.signature=true
  | s,n::ns => s.sigKind=.rotation ∧ (∃ m, (n::ns).find? (fun m => decide (m.wrappingPubkey≠[]))=some m ∧
    m.wrappingPubkey.length=32 ∧ S.verify m.wrappingPubkey (sigHash S s (n::ns)) s.signature=true) ∧
    Trust S st n ns

lemma Signed.wrappingPublic (h : Signed S vk s nested) : wrappingPublic s nested
    = ((s::nested).find? fun m => decide (m.wrappingPubkey≠[])).map SigLevel.wrappingPubkey := by
  induction nested generalizing s with
  | nil =>
    by_cases hw : s.wrappingPubkey=[]
    · cases hk : s.sigKind <;> simp [Tka.wrappingPublic,hw,hk]
    · simp [Tka.wrappingPublic,hw,length_pos_iff]
  | cons n ns ih =>
    obtain ⟨hk,-,hn⟩ := h
    by_cases hw : s.wrappingPubkey=[]
    · simp [Tka.wrappingPublic,hw,hk,ih hn]
    · simp [Tka.wrappingPublic.eq_def,hw,length_pos_iff]

lemma trust_iff : Trust S st s nested ↔ ∃ vk, (initialLevel s nested).keyID≠[] ∧
    st.getKey (initialLevel s nested).keyID=.ok vk ∧ Signed S vk s nested := by
  induction nested generalizing s with
  | nil =>
    constructor
    · rintro ⟨hk,hne,vk,hkey,hverify⟩
      exact ⟨vk,hne,hkey,hk,hverify⟩
    · rintro ⟨vk,hne,hkey,hk,hverify⟩
      exact ⟨hk,hne,vk,hkey,hverify⟩
  | cons n ns ih =>
    constructor
    · rintro ⟨hk,⟨m,hm,hlen,hverify⟩,hn⟩
      obtain ⟨vk,hne,hkey,hsigned⟩ := ih.mp hn
      exact ⟨vk,hne,hkey,hk,⟨_,by rw [hsigned.wrappingPublic,hm]; rfl,hlen,hverify⟩,hsigned⟩
    · rintro ⟨vk,hne,hkey,hk,⟨pk,hpk,hlen,hverify⟩,hsigned⟩
      rw [hsigned.wrappingPublic] at hpk
      obtain ⟨m,hm,rfl⟩ := Option.map_eq_some_iff.mp hpk
      exact ⟨hk,⟨m,hm,hlen,hverify⟩,ih.mpr ⟨vk,hne,hkey,hsigned⟩⟩

/-- What is accepted is a chain of trust from the node key on; the levels further in must also have node
keys, but for a credential without any. -/
theorem nodeKeyAuthorized_iff_trust (S : Scheme Enc) (st : State) (k : NodePublic) (nks : Enc) :
    nodeKeyAuthorized S st k nks=.ok () ↔ ∃ sig, S.unserialize nks=.ok sig ∧ sig.top.sigKind≠.credential ∧
      k.marshalBinary=sig.top.pubkey ∧ Trust S st sig.top sig.nested ∧
      ∀ n ∈ sig.nested, IsNodeKey n.pubkey ∨ (n.sigKind=.credential ∧ n.pubkey=[]) := by
  rw [nodeKeyAuthorized_eq_ok]
  refine exists_congr fun sig => and_congr_right fun _ => and_congr_right fun _ => and_congr_right fun hk => ?_
  rw [Chained,trust_iff,forall_mem_cons]
  exact and_congr_right fun _ => and_iff_right (.inl ⟨k,hk⟩)

/-- A rotation of a signature that a trusted key made for something that is not a node key. -/
def strayRotation : NodeKeySignature :=
  ⟨signRotation plainScheme plainPrivate (Raw32.fill 0).marshalBinary [initialSig .direct [1]],
    [initialSig .direct [1]]⟩

theorem strayRotation_refused : plainScheme.unserialize strayRotation=.ok strayRotation ∧
    strayRotation.top.sigKind≠.credential ∧ (Raw32.fill 0).marshalBinary=strayRotation.top.pubkey ∧
    Trust plainScheme lockState strayRotation.top strayRotation.nested ∧
    nodeKeyAuthorized plainScheme lockState (.fill 0) strayRotation≠.ok () := by
  exact ⟨rfl,SigKind.noConfusion,rfl,⟨rfl,⟨initialSig .direct [1],rfl,rfl,by decide⟩,.inl rfl,cons_ne_nil _ _,
    rootKey,by decide,rfl,rfl,by decide⟩,by decide⟩

end

end TunnnejiTail.Tka
