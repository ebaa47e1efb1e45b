import TunnnejiTail.Tka.Signature

/-! Rotating a node key again and again. Every rotation nests the signature before it, so the chain
grows until it is trimmed; what counts is whether that happens before the decoder's nesting limit
and whether the trimmed chain still verifies. -/
namespace TunnnejiTail.Tka
open Go TunnnejiTail.Types List Raw32 NodeKeySignature

def maxNestedLevels : ℕ := 16

section
variable {B : Type}

/-- What the encoding does: a signature is decoded to what was encoded if its levels are within the
limit, and nothing deeper is ever decoded. -/
structure Scheme.Lawful (S : Scheme B) : Prop where
  round_trip : ∀ s : NodeKeySignature, s.levels ≤ maxNestedLevels → S.unserialize (S.serialize s)=.ok s
  too_deep : ∀ s : NodeKeySignature, maxNestedLevels < s.levels → ∃ e, S.unserialize (S.serialize s)=.error e
  levels_le : ∀ b s, S.unserialize b=.ok s → s.levels ≤ maxNestedLevels

/-- A key pair of ideal signatures: what it signs verifies under its public key only. -/
structure Scheme.Owns (S : Scheme B) (priv : NLPrivate) : Prop where
  size : priv.pub.length=32
  verify_iff : ∀ pk m, S.verify pk m (priv.signNKS m)=true ↔ pk=priv.pub

def IsNodeKey (b : Bytes) : Prop := ∃ k : NodePublic, k.marshalBinary=b

lemma IsNodeKey.length_pos {b : Bytes} (h : IsNodeKey b) : 0<b.length := by
  obtain ⟨k,rfl⟩ := h
  rw [k.length_marshalBinary]
  exact Nat.zero_lt_succ _

/-- The signatures of a chain verify, the last one under the given key. -/
def Signed (S : Scheme B) (vk : Key) : SigLevel → List SigLevel → Prop
  | s,[] => (s.sigKind=.direct ∨ s.sigKind=.credential) ∧ vk.kind=.key25519 ∧ vk.pub.length=32 ∧
    S.verifyConsensus vk.pub (sigHash S s []) s.signature=true
  | s,n::ns => s.sigKind=.rotation ∧ (∃ pk, wrappingPublic n ns=some pk ∧ pk.length=32 ∧
    S.verify pk (sigHash S s (n::ns)) s.signature=true) ∧ Signed S vk n ns

variable {n : SigLevel} {k : NodePublic}

lemma nestedPub_eq_ok (h : nestedPub n=.ok k) :
    n.sigKind=.credential ∨ k.marshalBinary=n.pubkey := by
  rw [nestedPub] at h
  split at h
  · next hc => exact .inl hc
  · exact .inr (unmarshalBinary_eq_ok.mp (mapError_eq_ok.mp h))

lemma exists_nestedPub_eq_ok (h : n.sigKind=.credential ∨ IsNodeKey n.pubkey) : ∃ k, nestedPub n=.ok k := by
  rw [nestedPub]
  by_cases hc : n.sigKind=.credential
  · exact ⟨_,if_pos hc⟩
  · obtain ⟨k,hk⟩ := h.resolve_left hc
    exact ⟨k,by rw [if_neg hc]; exact mapError_eq_ok.mpr (unmarshalBinary_eq_ok.mpr hk)⟩

section
variable {S : Scheme B} {vk : Key} {k : NodePublic} {s n : SigLevel} {ns : List SigLevel}

lemma verifySignature_nil :
    verifySignature S vk k s []=.ok () ↔ (s.sigKind=.credential ∨ k.marshalBinary=s.pubkey) ∧ Signed S vk s [] := by
  unfold verifySignature
  by_cases h : s.sigKind≠.credential ∧ k.marshalBinary≠s.pubkey
  · rw [if_pos h]
    exact iff_of_false (fun h => by cases h) fun h' => h'.1.elim h.1 h.2
  · cases hk : s.sigKind <;> cases hv : vk.kind <;> simp_all [Signed,ite_eq_ok]

lemma verifySignature_cons :
    verifySignature S vk k s (n::ns)=.ok () ↔ (s.sigKind=.credential ∨ k.marshalBinary=s.pubkey) ∧
      s.sigKind=.rotation ∧ (∃ pk, wrappingPublic n ns=some pk ∧ pk.length=32 ∧
        S.verify pk (sigHash S s (n::ns)) s.signature=true) ∧
      ∃ pub, nestedPub n=.ok pub ∧ verifySignature S vk pub n ns=.ok () := by
  rw [verifySignature.eq_def]
  by_cases h : s.sigKind≠.credential ∧ k.marshalBinary≠s.pubkey
  · rw [if_pos h]
    exact iff_of_false (fun h => by cases h) fun h' => h'.1.elim h.1 h.2
  · have h' : s.sigKind=.credential ∨ k.marshalBinary=s.pubkey := by
      rwa [not_and_or,not_not,not_not] at h
    rw [if_neg h]
    cases hk : s.sigKind with
    | rotation =>
      rw [hk] at h'
      cases hw : wrappingPublic n ns with
      | none => simp [hw]
      | some pk =>
        cases hn : nestedPub n with
        | error e => simp [hn,hw,ite_eq_ok]
        | ok pub => simp [hn,hw,ite_eq_ok,mapError_eq_ok,h'.resolve_left (by simp),and_assoc]
    | _ => simp

end

variable {S : Scheme B} {vk : Key}

lemma verifySignature_eq_ok {s : SigLevel} {nested : List SigLevel} :
    verifySignature S vk k s nested=.ok () ↔ (s.sigKind=.credential ∨ k.marshalBinary=s.pubkey) ∧
      Signed S vk s nested ∧ ∀ n ∈ nested, n.sigKind=.credential ∨ IsNodeKey n.pubkey := by
  induction nested generalizing s k with
  | nil => simp [verifySignature_nil]
  | cons n ns ih =>
    rw [verifySignature_cons,forall_mem_cons]
    constructor
    · rintro ⟨hk,hs,hpk,pub,hpub,hn⟩
      obtain ⟨-,hn,hall⟩ := ih.mp hn
      exact ⟨hk,⟨hs,hpk,hn⟩,(nestedPub_eq_ok hpub).imp_right fun h => ⟨pub,h⟩,hall⟩
    · rintro ⟨hk,⟨hs,hpk,hn⟩,hkey,hall⟩
      obtain ⟨pub,hpub⟩ := exists_nestedPub_eq_ok hkey
      exact ⟨hk,hs,hpk,pub,hpub,ih.mpr ⟨nestedPub_eq_ok hpub,hn,hall⟩⟩

def initialLevel : SigLevel → List SigLevel → SigLevel
  | s,[] => s
  | _,n::ns => initialLevel n ns

lemma initialLevel_mem (s : SigLevel) (nested : List SigLevel) : initialLevel s nested ∈ s::nested := by
  induction nested generalizing s with
  | nil => exact mem_singleton.mpr rfl
  | cons n ns ih => exact mem_cons_of_mem s (ih n)

section
variable {S : Scheme B} {vk : Key} {s : SigLevel} {nested : List SigLevel}

lemma Signed.authorizingKeyID (h : Signed S vk s nested) {kID : KeyID} : authorizingKeyID s nested=.ok kID
      ↔ (initialLevel s nested).keyID≠[] ∧ (initialLevel s nested).keyID=kID := by
  induction nested generalizing s with
  | nil =>
    obtain ⟨hk,-⟩ := h
    have hkey : (if s.keyID.length=0 then Except.error (Err.text "invalid signature: no keyID present")
        else .ok s.keyID)=.ok kID ↔ s.keyID≠[] ∧ s.keyID=kID := by
      rw [guard_eq_ok,length_eq_zero_iff]
      simp
    rcases hk with hk | hk <;> simpa only [Tka.authorizingKeyID,hk,initialLevel] using hkey
  | cons n ns ih =>
    obtain ⟨hk,-,hn⟩ := h
    simpa only [Tka.authorizingKeyID,hk,initialLevel] using ih hn

lemma Signed.not_rotation (h : Signed S vk s []) : s.sigKind≠.rotation := by
  rcases h.1 with hk | hk <;> simp [hk]

lemma prevNodeKey_isOk {n : SigLevel} : (∃ ks, prevNodeKey n=.ok ks) ↔ n.pubkey=[] ∨ IsNodeKey n.pubkey := by
  rw [prevNodeKey]
  by_cases h : n.pubkey=[]
  · simp [h]
  · rw [if_pos (length_pos_of_ne_nil h)]
    cases hu : unmarshalBinary n.pubkey with
    | ok k => exact iff_of_true ⟨[k],rfl⟩ (.inr ⟨k,unmarshalBinary_eq_ok.mp hu⟩)
    | error e =>
      refine iff_of_false (fun h => ?_) ?_
      · obtain ⟨ks,h⟩ := h
        cases h
      · rintro (h' | ⟨k,hk⟩)
        · exact h h'
        · cases hu.symm.trans (unmarshalBinary_eq_ok.mpr hk)

lemma Signed.rotationLoop {n : SigLevel} {ns : List SigLevel} (h : Signed S vk n ns) :
    (∃ d, rotationLoop (n::ns)=.ok d) ↔ ∀ m ∈ n::ns, m.pubkey=[] ∨ IsNodeKey m.pubkey := by
  induction ns generalizing n with
  | nil =>
    have hk := h.not_rotation
    rw [forall_mem_singleton,← prevNodeKey_isOk,Tka.rotationLoop]
    cases hp : prevNodeKey n with
    | ok ks => simp [hk,pure,Except.pure,bind,Except.bind]
    | error e => simp [bind,Except.bind]
  | cons m ms ih =>
    obtain ⟨hk,-,hm⟩ := h
    rw [forall_mem_cons,← ih hm,← prevNodeKey_isOk,Tka.rotationLoop]
    cases hp : prevNodeKey n with
    | ok ks =>
      cases Tka.rotationLoop (m::ms) with
      | ok d => simp [hk,pure,Except.pure,bind,Except.bind]
      | error e => simp [hk,bind,Except.bind]
    | error e => simp [bind,Except.bind]

end

variable {sig : NodeKeySignature}

lemma Signed.rotationDetails (h : Signed S vk sig.top sig.nested) :
    (∃ d, rotationDetails sig=.ok d) ↔ ∀ m ∈ sig.nested, m.pubkey=[] ∨ IsNodeKey m.pubkey := by
  obtain ⟨s,nested⟩ := sig
  rw [Tka.rotationDetails]
  cases nested with
  | nil =>
    rw [if_pos h.not_rotation]
    exact iff_of_true ⟨none,rfl⟩ fun m hm => absurd hm not_mem_nil
  | cons n ns =>
    obtain ⟨hk,-,hn⟩ := h
    rw [if_neg (not_not.mpr hk),← hn.rotationLoop]
    simp [map_eq_ok]

variable {d : RotationDetails}

lemma Signed.initialSig {ns : List SigLevel}
    (h : Signed S vk n ns) (hd : Tka.rotationLoop (n::ns)=.ok d) :
    d.initialSig=some ⟨initialLevel n ns,[]⟩ := by
  induction ns generalizing n d with
  | nil =>
    obtain ⟨ks,-,hd⟩ := bind_eq_ok.mp hd
    rw [if_pos h.not_rotation] at hd
    cases hd
    rfl
  | cons m ms ih =>
    obtain ⟨hk,-,hm⟩ := h
    obtain ⟨ks,-,hd⟩ := bind_eq_ok.mp hd
    rw [if_neg (not_not.mpr hk)] at hd
    obtain ⟨rest,hrest,hd⟩ := bind_eq_ok.mp hd
    have hinitial := ih hm hrest
    cases hd
    exact hinitial

/-- A chain that an authority takes below a node key: its signatures verify under a trusted key, and
its levels have node keys, but for a credential, which may have none. -/
def Chained (S : Scheme B) (st : State) (s : SigLevel) (nested : List SigLevel) : Prop :=
  (∃ vk, (initialLevel s nested).keyID≠[] ∧ st.getKey (initialLevel s nested).keyID=.ok vk ∧ Signed S vk s nested) ∧
  ∀ n ∈ s::nested, IsNodeKey n.pubkey ∨ (n.sigKind=.credential ∧ n.pubkey=[])

section
variable {S : Scheme B} {st : State}

lemma exists_initialSig {nks : B}
    (h : nodeKeyAuthorizedWithDetails S st k nks=.ok (some d)) : ∃ i, d.initialSig=some i := by
  rw [nodeKeyAuthorizedWithDetails] at h
  simp only [bind_eq_ok,mapError_eq_ok,guard_eq_ok] at h
  obtain ⟨⟨s,nested⟩,-,-,kID,-,vk,-,⟨⟩,hverify,hd⟩ := h
  obtain ⟨-,hsigned,-⟩ := verifySignature_eq_ok.mp hverify
  rw [rotationDetails] at hd
  split at hd
  · cases hd
  · next hk =>
    obtain ⟨d',hd',he⟩ := map_eq_ok.mp hd
    cases he
    cases nested with
    | nil => exact absurd (not_not.mp hk) hsigned.not_rotation
    | cons n ns => exact ⟨_,hsigned.2.2.initialSig hd'⟩

lemma nodeKeyAuthorized_eq_ok {nks : B} :
    nodeKeyAuthorized S st k nks=.ok () ↔ ∃ sig, S.unserialize nks=.ok sig ∧
      sig.top.sigKind≠.credential ∧ k.marshalBinary=sig.top.pubkey ∧ Chained S st sig.top sig.nested := by
  have hok : nodeKeyAuthorized S st k nks=.ok () ↔ ∃ sig, S.unserialize nks=.ok sig ∧
      sig.top.sigKind≠.credential ∧ ∃ kID, authorizingKeyID sig.top sig.nested=.ok kID ∧
      ∃ vk, st.getKey kID=.ok vk ∧ verifySignature S vk k sig.top sig.nested=.ok () ∧
      ∃ d, rotationDetails sig=.ok d := by
    rw [nodeKeyAuthorized,nodeKeyAuthorizedWithDetails]
    simp only [map_eq_ok,bind_eq_ok,mapError_eq_ok,guard_eq_ok]
    constructor
    · rintro ⟨d,⟨sig,hu,hc,kID,hkID,vk,hvk,⟨⟩,hverify,hd⟩,-⟩
      exact ⟨sig,hu,hc,kID,hkID,vk,hvk,hverify,d,hd⟩
    · rintro ⟨sig,hu,hc,kID,hkID,vk,hvk,hverify,d,hd⟩
      exact ⟨d,⟨sig,hu,hc,kID,hkID,vk,hvk,(),hverify,hd⟩,trivial⟩
  rw [hok]
  refine exists_congr fun sig => and_congr_right fun _ => and_congr_right fun hc => ?_
  constructor
  · rintro ⟨kID,hkID,vk,hvk,hverify,hd⟩
    obtain ⟨hk,hsigned,hkeys⟩ := verifySignature_eq_ok.mp hverify
    obtain ⟨hne,rfl⟩ := hsigned.authorizingKeyID.mp hkID
    have hpub := hk.resolve_left hc
    refine ⟨hpub,⟨vk,hne,hvk,hsigned⟩,forall_mem_cons.mpr ⟨.inl ⟨k,hpub⟩,fun n hn => ?_⟩⟩
    rcases hkeys n hn with hcred | hkey
    · exact (hsigned.rotationDetails.mp hd n hn).elim (fun h => .inr ⟨hcred,h⟩) .inl
    · exact .inl hkey
  · rintro ⟨hpub,⟨vk,hne,hvk,hsigned⟩,hkeys⟩
    obtain ⟨-,hkeys⟩ := forall_mem_cons.mp hkeys
    refine ⟨_,hsigned.authorizingKeyID.mpr ⟨hne,rfl⟩,vk,hvk,verifySignature_eq_ok.mpr
      ⟨.inr hpub,hsigned,fun n hn => ?_⟩,hsigned.rotationDetails.mpr fun n hn => ?_⟩
    · exact (hkeys n hn).elim .inr fun h => .inl h.1
    · exact (hkeys n hn).elim .inr fun h => .inl h.2

end

section
variable {S : Scheme B} {st : State} {priv : NLPrivate} (hpriv : S.Owns priv) {k : Bytes} {s : SigLevel}
  {nested : List SigLevel}

lemma wrappingPublic_signRotation :
    wrappingPublic (signRotation S priv k (s::nested)) (s::nested)=wrappingPublic s nested := by
  rw [wrappingPublic.eq_def]
  rfl

include hpriv

/-- A new rotation is taken exactly if the chain below it is and asks for the key that signed it. -/
theorem chained_signRotation (hk : IsNodeKey k) : Chained S st (signRotation S priv k (s::nested)) (s::nested)
      ↔ wrappingPublic s nested=some priv.pub ∧ Chained S st s nested := by
  have hsigned (vk : Key) : Signed S vk (signRotation S priv k (s::nested)) (s::nested)
      ↔ wrappingPublic s nested=some priv.pub ∧ Signed S vk s nested := by
    constructor
    · rintro ⟨-,⟨pk,hpk,-,hv⟩,hs⟩
      obtain rfl := (hpriv.verify_iff pk _).mp hv
      exact ⟨hpk,hs⟩
    · rintro ⟨hpk,hs⟩
      exact ⟨rfl,⟨priv.pub,hpk,hpriv.size,(hpriv.verify_iff _ _).mpr rfl⟩,hs⟩
  constructor
  · rintro ⟨⟨vk,hne,hvk,hs⟩,hkeys⟩
    obtain ⟨hpk,hs⟩ := (hsigned vk).mp hs
    exact ⟨hpk,⟨vk,hne,hvk,hs⟩,(forall_mem_cons.mp hkeys).2⟩
  · rintro ⟨hpk,⟨vk,hne,hvk,hs⟩,hkeys⟩
    exact ⟨⟨vk,hne,hvk,(hsigned vk).mpr ⟨hpk,hs⟩⟩,forall_mem_cons.mpr ⟨.inl hk,hkeys⟩⟩

end

/-- Rotations to some keys, the last one innermost, over a first signature. -/
def rotations (S : Scheme B) (priv : NLPrivate) (keys : List Bytes) (initial : SigLevel) : List SigLevel :=
  keys.foldr (fun k chain => signRotation S priv k chain::chain) [initial]

section
variable {S : Scheme B} {st : State} {priv : NLPrivate} {keys : List Bytes} {initial : SigLevel}

lemma length_rotations : (rotations S priv keys initial).length=keys.length+1 := by
  induction keys with
  | nil => rfl
  | cons k keys ih => rw [length_cons,← ih]; rfl

lemma exists_rotations (hpriv : S.Owns priv) (hkeys : ∀ k ∈ keys, IsNodeKey k)
    (hinitial : Chained S st initial []) :
    ∃ s nested, rotations S priv keys initial=s::nested ∧ initialLevel s nested=initial ∧
      wrappingPublic s nested=wrappingPublic initial [] ∧
      (Chained S st s nested ↔ keys=[] ∨ wrappingPublic initial []=some priv.pub) := by
  induction keys with
  | nil => exact ⟨initial,[],rfl,rfl,rfl,iff_of_true hinitial (.inl rfl)⟩
  | cons k keys ih =>
    obtain ⟨hk,hkeys⟩ := forall_mem_cons.mp hkeys
    obtain ⟨s,nested,hrot,hlevel,hwrap,hchained⟩ := ih hkeys
    have hcons : rotations S priv (k::keys) initial=signRotation S priv k (s::nested)::s::nested := by
      rw [← hrot]
      rfl
    refine ⟨_,_,hcons,hlevel,wrappingPublic_signRotation.trans hwrap,?_⟩
    rw [chained_signRotation hpriv hk,hchained,hwrap]
    constructor
    · exact fun h => .inr h.1
    · rintro (h | h)
      · cases h
      · exact ⟨h,.inr h⟩

end

section
variable {S : Scheme B} {st : State} {n : SigLevel} {ns : List SigLevel}

lemma Signed.prevPubkeys {vk : Key} (h : Signed S vk n ns) : prevPubkeys (n::ns)
      = (((n::ns).map SigLevel.pubkey).filter fun k => 0<k.length,[initialLevel n ns]) := by
  induction ns generalizing n with
  | nil =>
    rw [Tka.prevPubkeys,if_pos h.not_rotation]
    by_cases hk : 0<n.pubkey.length <;> simp [hk,initialLevel]
  | cons m ms ih =>
    obtain ⟨hk,-,hm⟩ := h
    rw [Tka.prevPubkeys,if_neg (not_not.mpr hk),ih hm]
    by_cases hk : 0<n.pubkey.length <;> simp [hk,initialLevel]

lemma Chained.length_pubkeys (h : Chained S st n ns) :
    (((n::ns).map SigLevel.pubkey).filter fun k => 0<k.length).length
      + (if (initialLevel n ns).pubkey=[] then 1 else 0)=ns.length+1 := by
  obtain ⟨⟨vk,-,-,hs⟩,hkeys⟩ := h
  induction ns generalizing n with
  | nil => by_cases hk : n.pubkey=[] <;> simp [initialLevel,hk,length_pos_iff]
  | cons m ms ih =>
    obtain ⟨hk,-,hm⟩ := hs
    obtain ⟨hn,hkeys⟩ := forall_mem_cons.mp hkeys
    have hn : 0<n.pubkey.length := (hn.resolve_right fun hc => by rw [hk] at hc; cases hc.1).length_pos
    rw [map_cons,filter_cons_of_pos (by simpa using hn),length_cons,length_cons, ← ih hkeys hm,initialLevel]
    exact Nat.add_right_comm ..

variable {s : SigLevel} {nested : List SigLevel}

lemma Chained.initial (h : Chained S st s nested) : Chained S st (initialLevel s nested) [] := by
  obtain ⟨⟨vk,hne,hvk,hs⟩,hkeys⟩ := h
  refine ⟨⟨vk,hne,hvk,?_⟩,forall_mem_singleton.mpr (hkeys _ (initialLevel_mem s nested))⟩
  clear hne hvk hkeys
  induction nested generalizing s with
  | nil => exact hs
  | cons n ns ih => exact ih hs.2.2

lemma maybeTrim_eq (priv : NLPrivate) {vk : Key}
    (hk : s.sigKind=.rotation) (hn : Signed S vk n ns) {prev : List Bytes}
    (hprev : prev=((n::ns).map SigLevel.pubkey).filter fun k => 0<k.length) :
    maybeTrimRotationSignatureChain S priv ⟨s,n::ns⟩ = if prev.length+1 ≤ maxPrevKeys then ⟨s,n::ns⟩
        else ⟨signRotation S priv s.pubkey (rotations S priv (prev.take 13) (initialLevel n ns)),
          rotations S priv (prev.take 13) (initialLevel n ns)⟩ := by
  rw [maybeTrimRotationSignatureChain,if_neg (not_not.mpr hk),hn.prevPubkeys,← hprev]
  rfl

lemma maybeTrim_cases (h : Chained S st s nested)
    (hlevels : nested.length+1 ≤ maxNestedLevels) (priv : NLPrivate)
    (hsig : maybeTrimRotationSignatureChain S priv ⟨s,nested⟩=sig) :
    (sig=⟨s,nested⟩ ∧ (nested.length+1=maxNestedLevels → (initialLevel s nested).pubkey=[])) ∨
    (nested.length+1=maxNestedLevels ∧ (initialLevel s nested).pubkey≠[] ∧
      ∃ keys : List Bytes, keys.length=14 ∧ (∀ k ∈ keys, IsNodeKey k) ∧
        sig.top::sig.nested=rotations S priv keys (initialLevel s nested)) := by
  have hlen := h.length_pubkeys
  obtain ⟨⟨vk,-,-,hs⟩,hkeys⟩ := h
  cases nested with
  | nil =>
    rw [maybeTrimRotationSignatureChain,if_pos hs.not_rotation] at hsig
    exact .inl ⟨hsig.symm,fun h => by cases h⟩
  | cons n ns =>
    obtain ⟨hk,-,hn⟩ := hs
    obtain ⟨hs,hkeys⟩ := forall_mem_cons.mp hkeys
    have hs : IsNodeKey s.pubkey := hs.resolve_right fun hc => by rw [hk] at hc; cases hc.1
    rw [map_cons,filter_cons_of_pos (by simpa using hs.length_pos),length_cons] at hlen
    rw [maybeTrim_eq priv hk hn rfl] at hsig
    set prev := ((n::ns).map SigLevel.pubkey).filter fun k => 0<k.length with hprev
    rw [maxNestedLevels] at hlevels ⊢
    by_cases hle : prev.length+1 ≤ maxPrevKeys
    · rw [if_pos hle] at hsig
      refine .inl ⟨hsig.symm,fun h16 => ?_⟩
      by_contra hne
      rw [if_neg hne] at hlen
      rw [maxPrevKeys] at hle
      omega
    · rw [if_neg hle] at hsig
      rw [maxPrevKeys] at hle
      have hne : (initialLevel s (n::ns)).pubkey≠[] := by
        intro he
        rw [if_pos he] at hlen
        omega
      refine .inr ⟨by omega,hne,s.pubkey::prev.take 13,?_,?_,by rw [← hsig]; rfl⟩
      · rw [length_cons,length_take]
        omega
      · refine forall_mem_cons.mpr ⟨hs,fun k hmem => ?_⟩
        obtain ⟨hmem,hpos⟩ := mem_filter.mp (mem_of_mem_take hmem)
        obtain ⟨m,hm,rfl⟩ := mem_map.mp hmem
        refine (hkeys m hm).resolve_right fun hc => ?_
        rw [hc.2] at hpos
        cases hpos

end

/-- Every step of a sequence of rotations succeeds: the new signature is within the nesting limit and
the authority accepts it for the new node key. -/
def Rotates (S : Scheme B) (st : State) (priv : NLPrivate) : B → List NodePublic → Prop
  | _,[] => True
  | nks,k::ks => ∃ nks', resignNKS S priv k nks=.ok nks' ∧
    (∃ sig, S.unserialize nks'=.ok sig ∧ sig.levels ≤ maxNestedLevels) ∧
    nodeKeyAuthorized S st k nks'=.ok () ∧ Rotates S st priv nks' ks

def changes (current : Bytes) : List NodePublic → ℕ
  | [] => 0
  | k::ks => (if k.marshalBinary=current then 0 else 1)+changes k.marshalBinary ks

section
variable {S : Scheme B} {st : State} {priv : NLPrivate} (hS : S.Lawful) (hpriv : S.Owns priv)
  {nks : B} {sig : NodeKeySignature} {s : SigLevel} {nested : List SigLevel}

section
variable (hsig : S.unserialize nks=.ok sig) (hne : k.marshalBinary≠sig.top.pubkey)
  (hc : (maybeTrimRotationSignatureChain S priv sig).top
    ::(maybeTrimRotationSignatureChain S priv sig).nested=s::nested)
include hsig hne hc

lemma resignNKS_of_ne : resignNKS S priv k nks
      = .ok (S.serialize ⟨signRotation S priv k.marshalBinary (s::nested),s::nested⟩) := by
  rw [resignNKS,hsig]
  change (if k.marshalBinary=sig.top.pubkey then _ else _)=_
  rw [if_neg hne,hc]
  rfl

include hS in
lemma rotates_cons_of_ne (ks : List NodePublic) :
    Rotates S st priv nks (k::ks) ↔ (s::nested).length+1 ≤ maxNestedLevels ∧
      Chained S st (signRotation S priv k.marshalBinary (s::nested)) (s::nested) ∧ Rotates S st priv
        (S.serialize ⟨signRotation S priv k.marshalBinary (s::nested),s::nested⟩) ks := by
  have hresign := resignNKS_of_ne hsig hne hc
  set new : NodeKeySignature := ⟨signRotation S priv k.marshalBinary (s::nested),s::nested⟩ with hnew
  constructor
  · rintro ⟨nks',hnks',⟨sig',hsig',hlevels⟩,hauth,hrest⟩
    cases hresign.symm.trans hnks'
    have hle : new.levels ≤ maxNestedLevels := by
      by_contra hdeep
      obtain ⟨e,he⟩ := hS.too_deep new (not_le.mp hdeep)
      cases he.symm.trans hsig'
    obtain ⟨sig'',hsig'',-,-,hchained⟩ := nodeKeyAuthorized_eq_ok.mp hauth
    cases (hS.round_trip new hle).symm.trans hsig''
    exact ⟨hle,hchained,hrest⟩
  · rintro ⟨hle,hchained,hrest⟩
    have hdecode := hS.round_trip new hle
    exact ⟨_,hresign,⟨new,hdecode,hle⟩,
      nodeKeyAuthorized_eq_ok.mpr ⟨new,hdecode,SigKind.noConfusion,rfl,hchained⟩,hrest⟩

end

include hS hpriv

omit hS in
lemma wrappingPublic_initial (h : Chained S st s []) :
    wrappingPublic s []=some priv.pub ↔ s.wrappingPubkey=priv.pub := by
  obtain ⟨⟨vk,-,-,hs⟩,-⟩ := h
  rw [wrappingPublic.eq_def]
  by_cases hw : 0 < s.wrappingPubkey.length
  · rw [if_pos hw,Option.some.injEq]
  · rw [if_neg hw]
    refine iff_of_false (fun h => ?_) fun h => hw (by rw [h,hpriv.size]; exact Nat.zero_lt_succ _)
    cases hkind : s.sigKind <;> simp [hkind] at h

lemma rotates_iff_of_chained (hsig : S.unserialize nks=.ok sig)
    (hkind : sig.top.sigKind≠.credential) (hchained : Chained S st sig.top sig.nested)
    (hwrap : wrappingPublic sig.top sig.nested=some priv.pub) (keys : List NodePublic) :
    Rotates S st priv nks keys ↔ ((initialLevel sig.top sig.nested).pubkey≠[] ∧
        wrappingPublic (initialLevel sig.top sig.nested) []=some priv.pub) ∨
      sig.levels+changes sig.top.pubkey keys ≤ maxNestedLevels := by
  induction keys generalizing nks sig with
  | nil => exact iff_of_true trivial (.inr (hS.levels_le nks sig hsig))
  | cons k ks ih =>
    have hlevels := hS.levels_le nks sig hsig
    by_cases hk : k.marshalBinary=sig.top.pubkey
    · have hsame : Rotates S st priv nks (k::ks) ↔ Rotates S st priv nks ks := by
        have hresign : resignNKS S priv k nks=.ok nks := by
          rw [resignNKS,hsig]
          exact if_pos hk
        constructor
        · rintro ⟨nks',hnks',-,-,hrest⟩
          cases hresign.symm.trans hnks'
          exact hrest
        · exact fun hrest => ⟨nks,hresign,⟨sig,hsig,hlevels⟩,
            nodeKeyAuthorized_eq_ok.mpr ⟨sig,hsig,hkind,hk,hchained⟩,hrest⟩
      rw [hsame,ih hsig hkind hchained hwrap,changes,if_pos hk,Nat.zero_add,hk]
    · obtain ⟨s,nested⟩ := sig
      rw [changes,if_neg hk]
      rcases maybeTrim_cases hchained hlevels priv rfl with ⟨hc,h16⟩ | ⟨h16,hpub,keys,hlen,hkeys,hc⟩
      · have hnew := (chained_signRotation hpriv ⟨k,rfl⟩).mpr ⟨hwrap,hchained⟩
        rw [rotates_cons_of_ne hS hsig hk (by rw [hc])]
        have hlevel : levels ⟨s,nested⟩=nested.length+1 := rfl
        by_cases hle : nested.length+1+1 ≤ maxNestedLevels
        · have hrest := ih (hS.round_trip ⟨_,s::nested⟩ hle) SigKind.noConfusion hnew
            (wrappingPublic_signRotation.trans hwrap)
          rw [hlevel,← Nat.add_assoc]
          exact ((and_iff_right hle).trans (and_iff_right hnew)).trans hrest
        · refine iff_of_false (fun h => hle h.1) ?_
          rintro (⟨hpub,-⟩ | h)
          · exact hpub (h16 (le_antisymm hlevels (Nat.lt_succ_iff.mp (not_le.mp hle))))
          · omega
      · obtain ⟨s',nested',hrot,hinitial,hwrap',hchained'⟩ :=
          exists_rotations hpriv hkeys hchained.initial
        have hlength : (s'::nested').length=15 := by
          rw [← hrot,length_rotations,hlen]
        have hle : (s'::nested').length+1 ≤ maxNestedLevels := by
          rw [hlength]
          exact le_rfl
        rw [rotates_cons_of_ne hS hsig hk (hc.trans hrot),chained_signRotation hpriv ⟨k,rfl⟩,hchained', hwrap']
        by_cases hW : wrappingPublic (initialLevel s nested) []=some priv.pub
        · refine iff_of_true ⟨hle,⟨hW,.inr hW⟩,?_⟩ (.inl ⟨hpub,hW⟩)
          have hchained'' := (chained_signRotation hpriv ⟨k,rfl⟩).mpr ⟨hwrap'.trans hW,hchained'.mpr (.inr hW)⟩
          refine (ih (hS.round_trip ⟨_,s'::nested'⟩ hle) SigKind.noConfusion hchained''
            (wrappingPublic_signRotation.trans (hwrap'.trans hW))).mpr (.inl ?_)
          change (initialLevel s' nested').pubkey≠[] ∧ wrappingPublic (initialLevel s' nested') []=_
          rw [hinitial]
          exact ⟨hpub,hW⟩
        · refine iff_of_false (fun h => hW h.2.1.1) ?_
          rintro (⟨-,h⟩ | h)
          · exact hW h
          · rw [show levels ⟨s,nested⟩=maxNestedLevels from h16] at h
            omega

/-- A signature that an authority accepts and that asks for a node's key can be rotated through a
sequence of node keys exactly if its first signature has a node key and asks for the node's key too,
or the levels and the changes of the key stay within the nesting limit. -/
theorem rotates_iff {nk : NodePublic} {nks : B} {sig : NodeKeySignature}
    (hauth : nodeKeyAuthorized S st nk nks=.ok ()) (hsig : S.unserialize nks=.ok sig)
    (hwrap : wrappingPublic sig.top sig.nested=some priv.pub) (keys : List NodePublic) :
    Rotates S st priv nks keys ↔ ((initialLevel sig.top sig.nested).pubkey≠[] ∧
        (initialLevel sig.top sig.nested).wrappingPubkey=priv.pub) ∨
      sig.levels+changes sig.top.pubkey keys ≤ maxNestedLevels := by
  obtain ⟨sig',hsig',hkind,-,hchained⟩ := nodeKeyAuthorized_eq_ok.mp hauth
  cases hsig.symm.trans hsig'
  rw [rotates_iff_of_chained hS hpriv hsig hkind hchained hwrap,wrappingPublic_initial hpriv hchained.initial]

end

end

/-- Signatures that show who made them, over the node key only. -/
def plainScheme : Scheme NodeKeySignature where
  serialize := fun s => s
  unserialize := fun s => if s.levels ≤ maxNestedLevels then .ok s
    else .error (.text "cbor: exceeded max nested level 16")
  sum256 := fun s => s.top.pubkey
  verify := fun pk m sig => sig=pk++m
  verifyConsensus := fun pk m sig => sig=pk++m

def plainPrivate : NLPrivate where
  pub := List.replicate 32 7
  signNKS := fun m => List.replicate 32 7++m

lemma plainScheme_lawful : plainScheme.Lawful where
  round_trip := fun _ h => if_pos h
  too_deep := fun _ h => ⟨_,if_neg (not_le.mpr h)⟩
  levels_le := by
    intro b s h
    obtain ⟨hle,hs⟩ := ite_eq_ok.mp h
    cases hs
    exact hle

lemma plainScheme_owns : plainScheme.Owns plainPrivate where
  size := rfl
  verify_iff := by
    intro pk m
    change decide (List.replicate 32 7++m=pk++m)=true ↔ _
    rw [decide_eq_true_iff,append_left_inj]
    exact eq_comm

def rootKey : Key := ⟨.key25519,1,List.replicate 32 9,none⟩

def lockState : State := { State.zero with keys := some [rootKey] }

/-- A signature of a node key, or of none, by the trusted key. -/
def initialSig (kind : SigKind) (pubkey : Bytes) : SigLevel where
  sigKind := kind
  pubkey := pubkey
  keyID := rootKey.pub
  signature := rootKey.pub++pubkey
  wrappingPubkey := plainPrivate.pub

lemma chained_initialSig {kind : SigKind} {pubkey : Bytes}
    (h : kind=.direct ∧ IsNodeKey pubkey ∨ kind=.credential ∧ pubkey=[]) :
    Chained plainScheme lockState (initialSig kind pubkey) [] := by
  have hkey : lockState.getKey rootKey.pub=.ok rootKey := by decide
  refine ⟨⟨rootKey,cons_ne_nil _ _,hkey,?_,rfl,rfl,decide_eq_true rfl⟩, forall_mem_singleton.mpr ?_⟩
  · exact h.imp And.left And.left
  · exact h.imp And.right fun h => h

theorem rotates_twenty_keys :
    let nks : NodeKeySignature := ⟨initialSig .direct (Raw32.fill 0).marshalBinary,[]⟩
    nodeKeyAuthorized plainScheme lockState (.fill 0) nks=.ok () ∧ Rotates plainScheme lockState plainPrivate nks
        ((List.range 20).map fun i => Raw32.fill (UInt8.ofNat (i+1))) := by
  have hauth : nodeKeyAuthorized plainScheme lockState (.fill 0)
      ⟨initialSig .direct (Raw32.fill 0).marshalBinary,[]⟩=.ok () :=
    nodeKeyAuthorized_eq_ok.mpr ⟨_,rfl,SigKind.noConfusion,rfl,chained_initialSig (.inl ⟨rfl,.fill 0,rfl⟩)⟩
  exact ⟨hauth,(rotates_iff plainScheme_lawful plainScheme_owns hauth rfl rfl _).mpr (.inl ⟨cons_ne_nil _ _,rfl⟩)⟩

def credentialChain : NodeKeySignature :=
  let nested := rotations plainScheme plainPrivate
    ((List.range 14).map fun i => (Raw32.fill (UInt8.ofNat (i+1))).marshalBinary) (initialSig .credential [])
  ⟨signRotation plainScheme plainPrivate (Raw32.fill 0).marshalBinary nested,nested⟩

/-- It is accepted but cannot be rotated once more. -/
theorem credential_chain_stuck : nodeKeyAuthorized plainScheme lockState (.fill 0) credentialChain=.ok () ∧
      wrappingPublic credentialChain.top credentialChain.nested=some plainPrivate.pub ∧
      ¬Rotates plainScheme lockState plainPrivate credentialChain [.fill 100] := by
  have hkeys : ∀ k ∈ (List.range 14).map fun i => (Raw32.fill (UInt8.ofNat (i+1))).marshalBinary,
      IsNodeKey k := by
    intro k hk
    obtain ⟨i,-,rfl⟩ := mem_map.mp hk
    exact ⟨_,rfl⟩
  obtain ⟨s,nested,hrot,hinitial,hwrap,hchained⟩ :=
    exists_rotations plainScheme_owns hkeys (chained_initialSig (.inr ⟨rfl,rfl⟩))
  have hlength : (s::nested).length=15 := by rw [← hrot,length_rotations]; rfl
  have hW : wrappingPublic (initialSig .credential []) []=some plainPrivate.pub := rfl
  have htaken := (chained_signRotation plainScheme_owns ⟨.fill 0,rfl⟩).mpr
    ⟨hwrap.trans hW,hchained.mpr (.inr hW)⟩
  rw [credentialChain,hrot]
  set nks : NodeKeySignature :=
    ⟨signRotation plainScheme plainPrivate (Raw32.fill 0).marshalBinary (s::nested),s::nested⟩ with hnks
  have hlevels : nks.levels=maxNestedLevels := by rw [NodeKeySignature.levels,hlength]; rfl
  have hdecode : plainScheme.unserialize nks=.ok nks := if_pos hlevels.le
  have hask : wrappingPublic nks.top nks.nested=some plainPrivate.pub :=
    wrappingPublic_signRotation.trans (hwrap.trans hW)
  refine ⟨nodeKeyAuthorized_eq_ok.mpr ⟨nks,hdecode,SigKind.noConfusion,rfl,htaken⟩,hask,fun h => ?_⟩
  rcases (rotates_iff_of_chained plainScheme_lawful plainScheme_owns hdecode SigKind.noConfusion htaken
    hask _).mp h with ⟨hpub,-⟩ | hle
  · have hlevel : initialLevel nks.top nks.nested=initialSig .credential [] := hinitial
    exact hpub (by rw [hlevel]; rfl)
  · have hchanges : changes (Raw32.fill 0).marshalBinary [Raw32.fill 100]=1 := by decide
    rw [hlevels,show nks.top.pubkey=(Raw32.fill 0).marshalBinary from rfl,hchanges] at hle
    exact absurd hle (Nat.not_succ_le_self _)

end TunnnejiTail.Tka
