import TunnnejiTail.Gro.Intact
import TunnnejiTail.Packet.Rewrite

/-! Address translation and checksums: after UpdateSrcAddr or UpdateDstAddr the checksums of a
packet that verified still do, unless the code took an ICMPv6 message for too short. -/
namespace TunnnejiTail.Packet
open Go Netip List

/-- What the transport checksum is over, for n bytes of transport: ICMPv4 has no pseudo header. -/
def Parsed.covered (q : Parsed) (n : ℕ) : Bytes :=
  if q.ipProto=.icmpv4 then window q.b q.subofs n
  else if q.ipVersion=4 then Gro.pseudo4 q.b q.ipProto n++window q.b q.subofs n
  else Gro.pseudo6 q.b q.ipProto n++window q.b q.subofs n

def SumsVerify (q : Parsed) (n : ℕ) : Prop :=
  (q.ipVersion=4 → Gro.HeaderValid4 q.b) ∧ Verifies (onesSum (q.covered n))

instance (q : Parsed) (n : ℕ) : Decidable (SumsVerify q n) :=
  inferInstanceAs (Decidable ((_ → _ ∧ _ ∧ _) ∧ _))

def addrSum : Addr → ℕ
  | .v4 a => onesSum (beBytes 4 a.toNat)
  | .v6 a _ => onesSum (beBytes 16 a.toNat)
  | .zero => 0

def Touched (s : Side) (q : Parsed) (i : ℕ) : Prop :=
  q.ipVersion=4 ∧ (s.ofs4 ≤ i ∧ i < s.ofs4+4 ∨ 10 ≤ i ∧ i<12) ∨ q.ipVersion=6 ∧ s.ofs6 ≤ i ∧ i < s.ofs6+16 ∨
    q.subofs+sumOfs q.ipProto ≤ i ∧ i<q.subofs+sumOfs q.ipProto+2

def SameFamily (q : Parsed) (a : Addr) : Prop := q.ipVersion=4 ∧ a.is4 ∨ q.ipVersion=6 ∧ a.is6

/-- A protocol whose checksum is kept up, with n bytes of transport that hold its field. -/
structure Translatable (q : Parsed) (n : ℕ) : Prop where
  kept : q.ipVersion=4 ∧ Kept4 q.ipProto ∨ q.ipVersion=6 ∧ Kept6 q.ipProto
  field : sumOfs q.ipProto+2≤n
  inside : q.subofs+n≤q.b.length

/-- The packet with one address rewritten has checksums that verify, and the same bytes
elsewhere. -/
def Translated (s : Side) (q : Parsed) (a : Addr) (n : ℕ) : Prop :=
  ∃ q', s.update q a=.ok q' ∧ SumsVerify q' n ∧ q'.b.length=q.b.length ∧ ∀ i, ¬Touched s q i → q'.b[i]? = q.b[i]?

lemma onesSum_window_two {b : Bytes} {i : ℕ} (h : i+2≤b.length) :
    onesSum (window b i 2)=(word b i).toNat := by
  rw [window_two h,onesSum_uint16Bytes]

lemma onesSum_window_splice_word {b : Bytes} {i k n : ℕ} (hk : k%2=0) (hn : k+2≤n)
    (hle : i+n≤b.length) (w : UInt16) :
    onesSum (window (splice b (i+k) (uint16Bytes w)) i n)+(word b (i+k)).toNat = onesSum (window b i n)+w.toNat := by
  have hsum := onesSum_window_splice (b := b) (v := uint16Bytes w) (i := i) (j := i+k) (n := n)
    (by rw [length_uint16Bytes]; omega) hle (by omega) (by omega) (by rw [length_uint16Bytes])
  rwa [length_uint16Bytes,onesSum_window_two (by omega),onesSum_uint16Bytes] at hsum

lemma onesSum_covered4 {q : Parsed} (hv : q.ipVersion=4) (hp : q.ipProto≠.icmpv4)
    (h20 : 20≤q.b.length) (n : ℕ) : onesSum (q.covered n) =
      onesSum (window q.b 12 8)+(onesSum ([0,q.ipProto]++beBytes 2 n)+ onesSum (window q.b q.subofs n)) := by
  have h8 : (window q.b 12 8).length=8 := length_window h20
  rw [Parsed.covered,if_neg hp,if_pos hv,Gro.pseudo4,append_assoc,append_assoc]
  refine (onesSum_append (a := window q.b 12 8) _ (by rw [h8])).trans (congrArg _ ?_)
  rw [← append_assoc,onesSum_append _ (by simp)]

lemma onesSum_covered6 {q : Parsed} (hv : q.ipVersion=6) (hp : q.ipProto≠.icmpv4)
    (h40 : 40≤q.b.length) (n : ℕ) : onesSum (q.covered n) =
      onesSum (window q.b 8 32)+(onesSum (beBytes 4 n++[0,0,0,q.ipProto])+ onesSum (window q.b q.subofs n)) := by
  have h32 : (window q.b 8 32).length=32 := length_window h40
  rw [Parsed.covered,if_neg hp,if_neg (by rw [hv]; decide),Gro.pseudo6,append_assoc, append_assoc]
  refine (onesSum_append (a := window q.b 8 32) _ (by rw [h32])).trans (congrArg _ ?_)
  rw [← append_assoc,onesSum_append _ (by simp)]

lemma onesSum_proto_pos {proto : Proto} (h : proto≠0) (n : ℕ) :
    0<onesSum ([0,proto]++beBytes 2 n) ∧ 0<onesSum (beBytes 4 n++[0,0,0,proto]) := by
  have hpos : 0<proto.toNat := Nat.pos_of_ne_zero fun h0 => h (UInt8.toNat_inj.mp h0)
  rw [onesSum_append _ (by simp),onesSum_append _ (by rw [length_beBytes])]
  simp only [onesSum]
  omega

section
variable {q : Parsed} (h : Placed4 q) (s : Side) (a : BitVec 32)
include h

lemma Placed4.long : 20≤q.b.length := by
  have hheader := h.header
  have hwhole := h.whole
  omega

lemma Placed4.onesSum_header : onesSum ((s.rewrite4 q (beBytes 4 a.toNat)).take q.subofs)+
        (onesSum (window q.b s.ofs4 4)+(word q.b 10).toNat) =
      onesSum (q.b.take q.subofs)+(onesSum (beBytes 4 a.toNat)+
        (updatedSum (word q.b 10) (window q.b s.ofs4 4) (beBytes 4 a.toNat)).toNat) := by
  have hofs := s.ofs4_range
  have hheader := h.header
  have hwhole := h.whole
  have hle := h.ofs4_le s a
  have haddr := onesSum_window_splice (b := q.b) (v := beBytes 4 a.toNat) (i := 0) (j := s.ofs4)
    (n := q.subofs) (by rw [length_beBytes]; omega) (by omega) (by omega) (by omega)
    (by rw [length_beBytes])
  have hsum := onesSum_window_splice_word (b := splice q.b s.ofs4 (beBytes 4 a.toNat)) (i := 0)
    (k := 10) (n := q.subofs) rfl (by omega) (by rw [length_splice hle]; omega)
    (updatedSum (word q.b 10) (window q.b s.ofs4 4) (beBytes 4 a.toNat))
  rw [word_splice_outside hle (.inl (by omega)),Nat.zero_add] at hsum
  rw [length_beBytes] at haddr
  rw [Side.rewrite4,← window_zero,← window_zero,window_splice_outside (h.sum_le s a _ _) (by omega)]
  omega

lemma Placed4.onesSum_pseudo :
    onesSum (window (s.rewrite4 q (beBytes 4 a.toNat)) 12 8)+onesSum (window q.b s.ofs4 4) =
      onesSum (window q.b 12 8)+onesSum (beBytes 4 a.toNat) := by
  have hofs := s.ofs4_range
  have hlong := h.long
  have haddr := onesSum_window_splice (b := q.b) (v := beBytes 4 a.toNat) (i := 12) (j := s.ofs4)
    (n := 8) (by rw [length_beBytes]; omega) hlong hofs.1 (by omega) (by rw [length_beBytes])
  rw [length_beBytes] at haddr
  rw [h.window_rewrite s a (by omega) (by omega),haddr]

lemma Placed4.onesSum_segment {n : ℕ} (hn : sumOfs q.ipProto+2≤n) (hle : q.subofs+n≤q.b.length) :
    onesSum (window (s.rewrite4 q (beBytes 4 a.toNat)) q.subofs n)+q.sumField.toNat =
      onesSum (window q.b q.subofs n)+(nextSum4 q.ipProto q.sumField (window q.b s.ofs4 4)
        (beBytes 4 a.toNat)).toNat := by
  have hofs := s.ofs4_range
  have hheader := h.header
  have hsum := onesSum_window_splice_word (i := q.subofs) (sumOfs_even q.ipProto) hn
    (b := splice (splice q.b s.ofs4 (beBytes 4 a.toNat)) 10
      (uint16Bytes (updatedSum (word q.b 10) (window q.b s.ofs4 4) (beBytes 4 a.toNat))))
    (by rwa [length_splice (h.header_le s a _),length_splice (h.ofs4_le s a)])
    (nextSum4 q.ipProto q.sumField (window q.b s.ofs4 4) (beBytes 4 a.toNat))
  rw [word_splice_outside (h.header_le s a _) (.inr (by rw [length_uint16Bytes]; omega)),
    word_splice_outside (h.ofs4_le s a) (.inr (by rw [length_beBytes]; omega)),
    window_splice_outside (b := splice q.b s.ofs4 (beBytes 4 a.toNat)) (h.header_le s a _)
      (.inl (by rw [length_uint16Bytes]; omega)),
    window_splice_outside (b := q.b) (h.ofs4_le s a) (.inl (by rw [length_beBytes]; omega))] at hsum
  exact hsum

lemma Placed4.length_old : (window q.b s.ofs4 4).length=4 := by
  have hofs := s.ofs4_range
  have hlong := h.long
  exact length_window (by omega)

lemma Placed4.updatedSum_mod (f : UInt16) :
    (onesSum (window q.b s.ofs4 4)+f.toNat)%65535=(onesSum (beBytes 4 a.toNat)+
      (updatedSum f (window q.b s.ofs4 4) (beBytes 4 a.toNat)).toNat)%65535 := by
  have hold := h.length_old s
  have hmod := Packet.updatedSum_mod (hold.trans (length_beBytes 4 a.toNat).symm) (by rw [hold])
    (by rw [hold]; decide) f
  omega

lemma Placed4.headerValid (hv : Gro.HeaderValid4 q.b) : Gro.HeaderValid4 (s.rewritten4 q a).b := by
  obtain ⟨h20,hle,hverify⟩ := hv
  have hplaced := h.rewritten s a
  have hofs : headerLen4 (s.rewritten4 q a).b=q.subofs := by
    rw [← hplaced.subofs,s.rewritten4_subofs]
  have hhead : byteAt ((s.rewritten4 q a).b.take q.subofs) 0≠0 := by
    have hheader := h.header
    have htake : byteAt ((s.rewritten4 q a).b.take q.subofs) 0=byteAt (s.rewritten4 q a).b 0 := by
      rw [byteAt,byteAt,getD_eq_getElem?_getD,getD_eq_getElem?_getD,getElem?_take, if_pos (by omega)]
    intro h0
    have hver := hplaced.version
    rw [← htake,h0] at hver
    cases hver
  rw [Gro.HeaderValid4,hofs]
  rw [← h.subofs] at hle hverify
  refine ⟨h.header,hle.trans (Nat.le_of_eq (h.length_rewrite s a).symm),?_⟩
  exact (verifies_iff_of_add (h.onesSum_header s a) hverify (onesSum_pos hhead)).mpr
    (h.updatedSum_mod s a _)

lemma Placed4.sumsVerify {n : ℕ} (hn : sumOfs q.ipProto+2≤n) (hle : q.subofs+n≤q.b.length)
    (hv : SumsVerify q n) : SumsVerify (s.rewritten4 q a) n := by
  obtain ⟨hheader,hsum⟩ := hv
  refine ⟨fun _ => h.headerValid s a (hheader h.ipVersion),?_⟩
  have hseg := h.onesSum_segment s a hn hle
  by_cases hp : q.ipProto=.icmpv4
  · rw [nextSum4,if_pos hp] at hseg
    rw [Parsed.covered,if_pos hp] at hsum
    rw [Parsed.covered,s.rewritten4_ipProto,if_pos hp,s.rewritten4_subofs]
    have hsame : onesSum (window (s.rewritten4 q a).b q.subofs n)=onesSum (window q.b q.subofs n) :=
      Nat.add_right_cancel hseg
    rwa [hsame]
  · have hpseudo := h.onesSum_pseudo s a
    have hpos := (onesSum_proto_pos h.kept.ne.1 n).1
    have hmod := h.updatedSum_mod s a q.sumField
    rw [nextSum4,if_neg hp] at hseg
    rw [onesSum_covered4 h.ipVersion hp h.long] at hsum
    rw [onesSum_covered4 (by simpa using h.ipVersion) (by simpa using hp) (h.rewritten s a).long,
      s.rewritten4_ipProto,s.rewritten4_subofs]
    rw [s.rewritten4_b]
    exact (verifies_iff_of_add (by omega) hsum (by omega)).mpr hmod

end

section
variable {q : Parsed} (h : Placed6 q) (s : Side) (a : BitVec 128) (zone : Str)
include h

lemma Placed6.long : 40≤q.b.length := by
  have hheader := h.header
  have hwhole := h.whole
  omega

lemma Placed6.onesSum_pseudo :
    onesSum (window (s.rewrite6 q (beBytes 16 a.toNat)) 8 32)+onesSum (window q.b s.ofs6 16) =
      onesSum (window q.b 8 32)+onesSum (beBytes 16 a.toNat) := by
  have hofs := s.ofs6_range
  have hlong := h.long
  have haddr := onesSum_window_splice (b := q.b) (v := beBytes 16 a.toNat) (i := 8) (j := s.ofs6)
    (n := 32) (by rw [length_beBytes]; omega) hlong hofs.1 (by omega) (by rw [length_beBytes])
  rw [length_beBytes] at haddr
  rw [h.window_rewrite s a (by omega),haddr]

lemma Placed6.onesSum_segment {n : ℕ} (hn : sumOfs q.ipProto+2≤n) (hle : q.subofs+n≤q.b.length) :
    onesSum (window (s.rewrite6 q (beBytes 16 a.toNat)) q.subofs n)+q.sumField.toNat =
      onesSum (window q.b q.subofs n)+(nextSum6 q.ipProto (q.b.length-q.subofs) q.sumField
        (window q.b s.ofs6 16) (beBytes 16 a.toNat)).toNat := by
  have hofs := s.ofs6_range
  have hheader := h.header
  have hsum := onesSum_window_splice_word (i := q.subofs) (sumOfs_even q.ipProto) hn
    (b := splice q.b s.ofs6 (beBytes 16 a.toNat)) (by rwa [length_splice (h.ofs6_le s a)])
    (nextSum6 q.ipProto (q.b.length-q.subofs) q.sumField (window q.b s.ofs6 16) (beBytes 16 a.toNat))
  rw [word_splice_outside (h.ofs6_le s a) (.inr (by rw [length_beBytes]; omega)),
    window_splice_outside (b := q.b) (h.ofs6_le s a) (.inl (by rw [length_beBytes]; omega))] at hsum
  exact hsum

lemma Placed6.length_old : (window q.b s.ofs6 16).length=16 := by
  have hofs := s.ofs6_range
  have hlong := h.long
  exact length_window (by omega)

lemma Placed6.sumsVerify_iff {n : ℕ} (hn : sumOfs q.ipProto+2≤n)
    (hle : q.subofs+n≤q.b.length) (hv : SumsVerify q n) : SumsVerify (s.rewritten6 q a zone) n ↔
      (q.ipProto=.icmpv6 → q.subofs+minICMPv6Size≤q.b.length) ∨
        onesSum (beBytes 16 a.toNat)%65535=onesSum (window q.b s.ofs6 16)%65535 := by
  have h4 : q.ipProto≠.icmpv4 := by
    obtain hp | hp | hp := h.kept <;> rw [hp] <;> decide
  have h6 : (s.rewritten6 q a zone).ipVersion=6 := by simpa using h.ipVersion
  have hseg := h.onesSum_segment s a hn hle
  have hpseudo := h.onesSum_pseudo s a
  have hpos := (onesSum_proto_pos h.kept.ne.1 n).2
  have hsum := hv.2
  have hcover := onesSum_covered6 h6 (by simpa using h4) (h.rewritten s a zone).long n
  rw [onesSum_covered6 h.ipVersion h4 h.long] at hsum
  rw [s.rewritten6_ipProto,s.rewritten6_subofs] at hcover
  rw [s.rewritten6_b] at hcover
  have hiff := verifies_iff_of_add (n := onesSum ((s.rewritten6 q a zone).covered n))
    (a := onesSum (window q.b s.ofs6 16)+q.sumField.toNat)
    (b := onesSum (beBytes 16 a.toNat)+(nextSum6 q.ipProto (q.b.length-q.subofs) q.sumField
        (window q.b s.ofs6 16) (beBytes 16 a.toNat)).toNat) (by omega) hsum (by omega)
  have hheader : ((s.rewritten6 q a zone).ipVersion=4 → Gro.HeaderValid4 (s.rewritten6 q a zone).b) := by
    rw [h6]
    exact fun h => absurd h (by decide)
  rw [SumsVerify,and_iff_right hheader,hiff,nextSum6]
  by_cases hshort : q.ipProto=.icmpv6 ∧ q.b.length-q.subofs < minICMPv6Size
  · rw [if_pos hshort]
    have hn : ¬(q.ipProto=.icmpv6 → q.subofs+minICMPv6Size≤q.b.length) := fun himp => by
      have := himp hshort.1
      omega
    rw [or_iff_right hn]
    omega
  · rw [if_neg hshort]
    have hold := h.length_old s
    have hmod := updatedSum6_mod (hold.trans (length_beBytes 16 a.toNat).symm) (by rw [hold])
      q.sumField
    refine iff_of_true (by omega) (.inl fun hp => ?_)
    by_contra hlt
    exact hshort ⟨hp,by omega⟩

end

section
variable {q0 q : Parsed} {b : Bytes} {a : Addr} {n : ℕ}

section
variable (s : Side) (hn : sumOfs q.ipProto+2≤n) (hle : q.subofs+n≤q.b.length) (hv : SumsVerify q n)
include hn hle hv

lemma Placed4.translated (h : Placed4 q) (a : BitVec 32) : Translated s q (.v4 a) n := by
  refine ⟨_,h.update_eq s a,h.sumsVerify s a hn hle hv,h.length_rewrite s a,fun i hi => ?_⟩
  have hi4 : ¬(s.ofs4 ≤ i ∧ i < s.ofs4+4 ∨ 10 ≤ i ∧ i<12) := fun hin => hi (.inl ⟨h.ipVersion,hin⟩)
  have hi' : ¬(q.subofs+sumOfs q.ipProto ≤ i ∧ i<q.subofs+sumOfs q.ipProto+2) :=
    fun hin => hi (.inr (.inr hin))
  exact h.getElem?_rewrite s a (by omega) (by omega) (by omega)

lemma Placed6.translates_iff (h : Placed6 q) (a : BitVec 128) (zone : Str) :
    Translated s q (.v6 a zone) n ↔ (q.ipProto=.icmpv6 → q.subofs+minICMPv6Size≤q.b.length) ∨
        onesSum (beBytes 16 a.toNat)%65535=onesSum (window q.b s.ofs6 16)%65535 := by
  rw [← h.sumsVerify_iff s a zone hn hle hv]
  constructor
  · rintro ⟨q',hq',hsums,-⟩
    cases hq'.symm.trans (h.update_eq s a zone)
    exact hsums
  · intro hsums
    refine ⟨_,h.update_eq s a zone,hsums,h.length_rewrite s a,fun i hi => ?_⟩
    have hi6 : ¬(s.ofs6 ≤ i ∧ i < s.ofs6+16) := fun hin => hi (.inr (.inl ⟨h.ipVersion,hin⟩))
    have hi' : ¬(q.subofs+sumOfs q.ipProto ≤ i ∧ i<q.subofs+sumOfs q.ipProto+2) :=
      fun hin => hi (.inr (.inr hin))
    exact h.getElem?_rewrite s a (by omega) (by omega)

end

/-- Rewriting an address keeps the checksums that verified, and all other bytes: in every case
but that of an ICMPv6 message of less than eight bytes, whose checksum is left as it is and goes
on to verify only if the new address has the same sum. -/
theorem translated_iff (s : Side) (hdec : q0.decode b=.ok q) (ht : Translatable q n)
    (hfam : SameFamily q a) (hv : SumsVerify q n) :
    Translated s q a n ↔ (q.ipProto=.icmpv6 → q.subofs+minICMPv6Size≤q.b.length) ∨
      addrSum a%65535=addrSum (s.addr q)%65535 := by
  obtain ⟨h4,ha⟩ | ⟨h6,ha⟩ := hfam
  · have hk : Kept4 q.ipProto := by
      obtain ⟨-,hk⟩ | ⟨hv6,-⟩ := ht.kept
      · exact hk
      · rw [h4] at hv6
        cases hv6
    have hhdr : 20≤headerLen4 b := by
      have hhdr := (hv.1 h4).1
      rwa [buffer_of_decode hdec] at hhdr
    have hplaced := placed4_of_decode hdec h4 hk hhdr
    cases a with
    | zero => cases ha
    | v6 a zone => cases ha
    | v4 a =>
      refine iff_of_true (hplaced.translated s ht.field ht.inside hv a) (.inl fun hp => ?_)
      rw [hp] at hk
      exact absurd hk (by unfold Kept4; decide)
  · have hk : Kept6 q.ipProto := by
      obtain ⟨hv4,-⟩ | ⟨-,hk⟩ := ht.kept
      · rw [h6] at hv4
        cases hv4
      · exact hk
    have hplaced := placed6_of_decode hdec h6 hk
    obtain ⟨zone',hold⟩ := hplaced.addr s
    cases a with
    | zero => cases ha
    | v4 a => cases ha
    | v6 a zone =>
      rw [hplaced.translates_iff s ht.field ht.inside hv a zone,hold,addrSum,addrSum, s.beBytes_addr6 hplaced.long]

end

def summedDatagram : Bytes :=
  [0x45,0,0,28,0,1,0,0,64,17,0x66,0xce,10,0,0,1,10,0,0,2,0x0f,0xa0,0x13,0x88,0,8,0xc8,0xb3]

theorem translated_datagram : ∃ q, Parsed.decode {} summedDatagram=.ok q ∧ q.sumField≠0 ∧
    SumsVerify q 8 ∧ Translated .src q (.v4 0x64400001) 8 := by
  obtain ⟨q,hq,hfield,h4,hproto,hsub,hv⟩ : ∃ q, Parsed.decode {} summedDatagram=.ok q ∧
      q.sumField≠0 ∧ q.ipVersion=4 ∧ q.ipProto=.udp ∧ q.subofs=20 ∧ SumsVerify q 8 :=
    ⟨_,rfl,by decide,by decide,by decide,by decide,by decide⟩
  have ht : Translatable q 8 := by
    refine ⟨.inl ⟨h4,.inr (.inl hproto)⟩,by rw [hproto]; decide,?_⟩
    rw [hsub,buffer_of_decode hq]
    decide
  refine ⟨q,hq,hfield,hv,(translated_iff .src hq ht (.inl ⟨h4,rfl⟩) hv).mpr (.inl fun hp => ?_)⟩
  rw [hproto] at hp
  cases hp

/-- An ICMPv6 message of four bytes is decoded as one, but its checksum is not updated. -/
theorem short_icmpv6_sum_stale :
    ∃ q, Parsed.decode {} (packet6 .icmpv6 [1,0,0xfe,0xbe])=.ok q ∧ q.ipProto=.icmpv6 ∧
      Translatable q 4 ∧ SumsVerify q 4 ∧ SameFamily q (.v6 5 []) ∧ ¬Translated .src q (.v6 5 []) 4 := by
  obtain ⟨q,hq,h6,hproto,hsub,hv⟩ : ∃ q,
      Parsed.decode {} (packet6 .icmpv6 [1,0,0xfe,0xbe])=.ok q ∧ q.ipVersion=6 ∧
        q.ipProto=.icmpv6 ∧ q.subofs=40 ∧ SumsVerify q 4 :=
    ⟨_,rfl,by decide,by decide,by decide,by decide⟩
  have hb := buffer_of_decode hq
  have hk : Kept6 q.ipProto := .inr (.inr hproto)
  have ht : Translatable q 4 := by
    refine ⟨.inr ⟨h6,hk⟩,by rw [hproto]; decide,?_⟩
    rw [hsub,hb]
    decide
  refine ⟨q,hq,hproto,ht,hv,.inr ⟨h6,rfl⟩,fun htr => ?_⟩
  have hiff := (placed6_of_decode hq h6 hk).translates_iff .src ht.field ht.inside hv 5 []
  rw [hsub,hb] at hiff
  exact absurd (hiff.mp htr) (by rw [hproto]; decide)

end TunnnejiTail.Packet
