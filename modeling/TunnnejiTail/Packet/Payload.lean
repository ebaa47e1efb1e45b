import TunnnejiTail.Packet.Families

/-! Where the bytes that Payload and Transport return lie. Transport takes everything up to the
end of the buffer, and Payload trusts the data offset, so both stay within the length that the
IP header declares exactly when nothing follows it. -/
namespace TunnnejiTail.Packet
open Go List Proto

def declaredLen (b : Bytes) : ℕ := if byteAt b 0 >>> 4=4 then totalLen4 b else totalLen6 b

/-- The bytes v are those of b from offset i on, all before offset n. -/
def BytesBelow (b v : Bytes) (i n : ℕ) : Prop := v <+: b.drop i ∧ (v=[] ∨ i+v.length≤n)

/-- Payload and Transport return bytes of the packet before its declared end. -/
def Inside (b : Bytes) (q : Parsed) : Prop :=
  ∃ p t, q.payload=.ok p ∧ q.transport=.ok t ∧ BytesBelow b p q.dataofs (declaredLen b) ∧
    BytesBelow b t q.subofs (declaredLen b)

variable {b : Bytes}

lemma known4 (h : proto4 b≠.unknown) : totalLen4 b≤b.length ∧ headerLen4 b≤totalLen4 b := by
  by_contra hn
  exact h (if_pos (by omega))

lemma known6 (h : proto6 b≠.unknown) :
    totalLen6 b≤b.length ∧ (byteAt b 6=ip6FragHeader → 48≤b.length) := by
  have hle : ¬b.length<totalLen6 b := fun hlt => h (if_pos hlt)
  refine ⟨Nat.le_of_not_lt hle,fun hfrag => ?_⟩
  by_contra h48
  refine h ?_
  rw [proto6,if_neg hle,if_pos hfrag,if_pos (by omega)]

/-- What Decode leaves for Payload and Transport to slice. -/
structure Sliceable (b : Bytes) (q : Parsed) : Prop where
  buffer : q.b=b
  length : q.length=declaredLen b
  length_le : declaredLen b≤b.length
  subofs_le : q.subofs≤b.length
  subofs : if byteAt b 0 >>> 4=6 ∧ byteAt b 6=Proto.ip6FragHeader then q.subofs=48
    else q.subofs≤declaredLen b

variable {q0 q : Parsed}

lemma sliceable_of_decode (h : q0.decode b=.ok q)
    (hp : q.ipProto≠.unknown) : Sliceable b q := by
  obtain ⟨hb,hcases⟩ := (q0.decode_returns b).elim h
  obtain ⟨h4,-,hv⟩ | ⟨h6,-,hv⟩ | ⟨-,hu,-⟩ := hcases
  · obtain ⟨hle,hhdr⟩ := known4 (h4.ipProto ▸ hp)
    have hlen : declaredLen b=totalLen4 b := if_pos hv
    have hofs := h4.subofs hle
    have h6 : ¬(byteAt b 0 >>> 4=6 ∧ byteAt b 6=ip6FragHeader) := by
      rw [hv]
      exact fun h => absurd h.1 (by decide)
    refine ⟨hb,h4.length.trans hlen.symm,by omega,by omega,?_⟩
    rw [if_neg h6]
    omega
  · obtain ⟨hle,h48⟩ := known6 (h6.ipProto ▸ hp)
    have hlen : declaredLen b=totalLen6 b := by
      rw [declaredLen,if_neg (by rw [hv]; decide)]
    have h40 : 40≤totalLen6 b := Nat.le_add_left ..
    by_cases hfrag : byteAt b 6=ip6FragHeader
    · have hofs : q.subofs=48 := by
        rw [h6.subofs hle,leadsFragment,decide_eq_true hfrag,decide_eq_true (h48 hfrag)]
        rfl
      refine ⟨hb,h6.length.trans hlen.symm,by omega,hofs ▸ h48 hfrag,?_⟩
      rwa [if_pos ⟨hv,hfrag⟩]
    · have hofs : q.subofs=40 := by
        rw [h6.subofs hle,leadsFragment,decide_eq_false hfrag]
        rfl
      refine ⟨hb,h6.length.trans hlen.symm,by omega,by omega,?_⟩
      rw [if_neg fun h => hfrag h.2]
      omega
  · exact absurd hu hp

section
variable {b : Bytes} {q : Parsed} (h : Sliceable b q)
include h

lemma Sliceable.transport : q.transport=.ok (b.drop q.subofs) := by
  rw [Parsed.transport,h.buffer]
  exact sliceFrom_of_le h.subofs_le

lemma Sliceable.payload (hofs : q.dataofs≤declaredLen b ∨ b.length<q.dataofs) :
    ∃ p, q.payload=.ok p ∧ BytesBelow b p q.dataofs (declaredLen b) := by
  rw [Parsed.payload,h.buffer,h.length]
  by_cases hbig : declaredLen b > b.length ∨ q.dataofs > b.length
  · rw [if_pos hbig]
    exact ⟨[],rfl, nil_prefix,.inl rfl⟩
  · have hle : q.dataofs≤declaredLen b := by omega
    rw [if_neg hbig,slice_of_le hle h.length_le]
    refine ⟨_,rfl,?_,.inr ?_⟩
    · rw [drop_take]
      exact take_prefix _ _
    · rw [length_drop,length_take]
      omega

lemma Sliceable.inside_of_eq (hlen : b.length=declaredLen b) : Inside b q := by
  obtain ⟨p,hp,hbelow⟩ := h.payload (by omega)
  refine ⟨p,_,hp,h.transport,hbelow,prefix_refl _,.inr ?_⟩
  have hofs := h.subofs_le
  rw [length_drop]
  omega

lemma Sliceable.eq_of_inside (hin : Inside b q) : b.length=declaredLen b ∨
      byteAt b 0 >>> 4=6 ∧ byteAt b 6=ip6FragHeader ∧ b.length=48 := by
  obtain ⟨p,t,-,ht,-,-,hend⟩ := hin
  cases ht.symm.trans h.transport
  have hle := h.length_le
  have hofs := h.subofs_le
  rcases hend with hempty | hbelow
  · have hall := drop_eq_nil_iff.mp hempty
    have hsub := h.subofs
    split_ifs at hsub with hfrag
    · exact .inr ⟨hfrag.1,hfrag.2,by omega⟩
    · exact .inl (by omega)
  · rw [length_drop] at hbelow
    exact .inl (by omega)

end

lemma readSub_of_minHeader6 (h : minHeader6 q.ipProto=0) (sub : Bytes) :
    q.readSub .icmpv6 sub=q := by
  have hne {proto : Proto} (hproto : minHeader6 proto≠0) : q.ipProto≠proto := by
    rintro rfl
    exact hproto h
  rw [Parsed.readSub,if_neg (hne (by decide)),if_neg (hne (by decide)),if_neg (hne (by decide)),
    if_neg (hne (by decide)),if_neg (hne (by decide))]

lemma dataofs_of_bare_fragment (h : q0.decode b=.ok q)
    (hp : q.ipProto≠.unknown) (hv : byteAt b 0 >>> 4=6)
    (hfrag : byteAt b 6=ip6FragHeader) (hlen : b.length=48) : q.dataofs=q0.dataofs := by
  have hle : totalLen6 b≤b.length := by
    have hdecl := (sliceable_of_decode h hp).length_le
    rwa [declaredLen,if_neg (by rw [hv]; decide)] at hdecl
  rw [q0.decode_eq_read6 (by omega) hv hle,Parsed.read6,if_pos hfrag,if_neg (by omega),hlen] at h
  by_cases h0 : fragOfs6 b=0
  · rw [if_pos h0] at h
    cases h
    cases hu : unreadable6 (byteAt b 40) (48-48) with
    | true =>
      rw [hu] at hp
      exact absurd rfl hp
    | false =>
      have hmin : minHeader6 (byteAt b 40)=0 := by
        have hshort := (Bool.or_eq_false_iff.mp hu).2
        simpa using hshort
      rw [Parsed.readOrUnknown,if_neg Bool.false_ne_true,readSub_of_minHeader6 hmin]
      rfl
  · rw [if_neg h0] at h
    cases h
    rfl

/-- On a fresh Parsed, Payload and Transport return and stay before the declared end exactly
when no bytes follow it, or all there is after an IPv6 header is a bare Fragment header. -/
theorem payload_inside_iff {b : Bytes} {q : Parsed} (h : Parsed.decode {} b=.ok q) (hp : q.ipProto≠.unknown) :
    Inside b q ↔ b.length=declaredLen b ∨ byteAt b 0 >>> 4=6 ∧ byteAt b 6=Proto.ip6FragHeader ∧ b.length=48 := by
  have hs := sliceable_of_decode h hp
  refine ⟨hs.eq_of_inside,fun hcond => ?_⟩
  rcases hcond with hlen | ⟨hv,hfrag,hlen⟩
  · exact hs.inside_of_eq hlen
  · have h0 : q.dataofs=0 := dataofs_of_bare_fragment h hp hv hfrag hlen
    obtain ⟨p,hpay,hbelow⟩ := hs.payload (.inl (by omega))
    refine ⟨p,_,hpay,hs.transport,hbelow,prefix_refl _,?_⟩
    have hsub := hs.subofs
    rw [if_pos ⟨hv,hfrag⟩] at hsub
    exact .inl (drop_eq_nil_iff.mpr (by omega))

theorem payload_inside_datagram : ∃ q, Parsed.decode {} (packet4 .udp 0 datagram)=.ok q ∧ q.ipProto=.udp ∧
      Inside (packet4 .udp 0 datagram) q := by
  obtain ⟨q,hq,hproto⟩ : ∃ q, Parsed.decode {} (packet4 .udp 0 datagram)=.ok q ∧ q.ipProto=.udp := ⟨_,rfl,by decide⟩
  exact ⟨q,hq,hproto,(payload_inside_iff hq (by rw [hproto]; decide)).mpr (.inl (by decide))⟩

/-- A TCP header whose data offset points past the declared end of the packet. -/
def longTCPHeader : Bytes := [0x0f,0xa0,0x13,0x88,0,0,0,0,0,0,0,0,0xf0,0x02,0,0,0,0,0,0]

/-- Two bytes after a datagram are handed out by Transport, and with forty bytes after a TCP
segment Payload slices from offset 80 to 40. -/
theorem trailing_bytes :
    (∃ q, Parsed.decode {} (packet4 .udp 0 datagram++[0xaa,0xbb])=.ok q ∧ q.ipProto=.udp ∧
      q.transport=.ok (datagram++[0xaa,0xbb]) ∧ ¬Inside (packet4 .udp 0 datagram++[0xaa,0xbb]) q) ∧
    ∃ q, Parsed.decode {} (packet4 .tcp 0 longTCPHeader++List.replicate 40 0)=.ok q ∧
      q.ipProto=.tcp ∧ q.payload=.error .sliceBounds := by
  refine ⟨?_,_,rfl,by decide,by decide⟩
  obtain ⟨q,hq,hproto,htransport⟩ : ∃ q,
      Parsed.decode {} (packet4 .udp 0 datagram++[0xaa,0xbb])=.ok q ∧ q.ipProto=.udp ∧
        q.transport=.ok (datagram++[0xaa,0xbb]) := ⟨_,rfl,by decide,by decide⟩
  refine ⟨q,hq,hproto,htransport,fun hin => ?_⟩
  exact absurd ((sliceable_of_decode hq (by rw [hproto]; decide)).eq_of_inside hin) (by decide)

end TunnnejiTail.Packet
