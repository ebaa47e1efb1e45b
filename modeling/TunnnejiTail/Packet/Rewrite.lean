import TunnnejiTail.Go.BigEndian
import TunnnejiTail.Packet.Incremental
import TunnnejiTail.Packet.Payload

/-! What UpdateSrcAddr and UpdateDstAddr do to the bytes of a decoded packet: the address is
written over, and the checksum fields are moved by the difference of its words. -/
namespace TunnnejiTail.Packet
open Go Netip List

section
variable {b v : Bytes} {i j : ℕ}

lemma window_two (h : i+2≤b.length) : window b i 2=uint16Bytes (word b i) := by
  have hbytes (x y : UInt8) : uint16Bytes (uint16Of x y)=[x,y] := by
    have hy := y.toNat_lt
    have hhi : (x.toNat*256+y.toNat)/256=x.toNat := by omega
    have hlo : (x.toNat*256+y.toNat)%256=y.toNat := by omega
    rw [uint16Bytes,toNat_uint16Of,hhi,hlo,UInt8.ofNat_toNat,UInt8.ofNat_toNat]
  rw [word,hbytes]
  apply ext_getElem?
  intro m
  rw [getElem?_window]
  cases m with
  | zero =>
    exact (getElem?_eq_getElem (by omega)).trans (congrArg some (getElem_eq_byteAt (by omega)))
  | succ m =>
    cases m with
    | zero =>
      exact (getElem?_eq_getElem (by omega)).trans (congrArg some (getElem_eq_byteAt (by omega)))
    | succ m => exact if_neg (by omega)

lemma word_splice_outside (h : j+v.length≤b.length) (hi : i+2≤j ∨ j+v.length ≤ i) :
    word (splice b j v) i=word b i := by
  rw [word,word,byteAt_splice h (by omega),byteAt_splice h (by omega)]

lemma word_splice (h : i+2≤b.length) (w : UInt16) : word (splice b i (uint16Bytes w)) i=w := by
  have hw : (splice b i (uint16Bytes w)).length=b.length := length_splice h
  have hwin : window (splice b i (uint16Bytes w)) i 2=uint16Bytes w := window_splice h
  rw [← UInt16.toNat_inj,← onesSum_uint16Bytes,← onesSum_uint16Bytes,← window_two (by omega),hwin]

lemma splice_word (h : i+2≤b.length) : splice b i (uint16Bytes (word b i))=b :=
  splice_window (window_two h).symm

lemma beBytes_ofNat_beNat {n w : ℕ} (h : v.length=n) (hw : 256^n=2^w) :
    beBytes n (BitVec.ofNat w (beNat v)).toNat=v := by
  have hlt := beNat_lt v
  rw [h,hw] at hlt
  rw [BitVec.toNat_ofNat,Nat.mod_eq_of_lt hlt,← h,beBytes_beNat]

lemma ofNat_beNat_beBytes {n w : ℕ} (hw : 256^n=2^w) (a : BitVec w) :
    BitVec.ofNat w (beNat (beBytes n a.toNat))=a := by
  refine BitVec.eq_of_toNat_eq ?_
  rw [beNat_beBytes,hw,BitVec.toNat_ofNat,Nat.mod_mod,Nat.mod_eq_of_lt a.isLt]

end

inductive Side
  | src
  | dst
deriving DecidableEq

namespace Side

def ofs4 : Side → ℕ
  | src => 12
  | dst => 16

def ofs6 : Side → ℕ
  | src => 8
  | dst => 24

def addr : Side → Parsed → Addr
  | src,q => q.src.addr
  | dst,q => q.dst.addr

def withAddr : Side → Parsed → Addr → Parsed
  | src,q,a => { q with src := withIP q.src a }
  | dst,q,a => { q with dst := withIP q.dst a }

def update : Side → Parsed → Addr → Except Fault Parsed
  | src,q,a => updateSrcAddr q a
  | dst,q,a => updateDstAddr q a

def addr4 (s : Side) (b : Bytes) : BitVec 32 := BitVec.ofNat 32 (beNat (window b s.ofs4 4))

def addr6 (s : Side) (b : Bytes) : BitVec 128 := BitVec.ofNat 128 (beNat (window b s.ofs6 16))

variable (s : Side)

lemma update_eq (q : Parsed) (a : Addr) :
    s.update q a=updateAddr s.ofs4 s.ofs6 (s.withAddr q a) (s.addr q) a := by
  cases s <;> rfl

lemma ofs4_range : 12 ≤ s.ofs4 ∧ s.ofs4+4≤20 ∧ s.ofs4%2=0 := by
  cases s <;> decide

lemma ofs6_range : 8 ≤ s.ofs6 ∧ s.ofs6+16≤40 ∧ s.ofs6%2=0 := by
  cases s <;> decide

lemma beBytes_addr4 {b : Bytes} (h : 20≤b.length) :
    beBytes 4 (s.addr4 b).toNat=window b s.ofs4 4 := by
  have hofs := s.ofs4_range
  exact beBytes_ofNat_beNat (length_window (by omega)) (by decide)

lemma beBytes_addr6 {b : Bytes} (h : 40≤b.length) :
    beBytes 16 (s.addr6 b).toNat=window b s.ofs6 16 := by
  have hofs := s.ofs6_range
  exact beBytes_ofNat_beNat (length_window (by omega)) (by decide)

end Side

def sumOfs (proto : Proto) : ℕ :=
  if proto=.tcp then offsetTCPChecksum
  else if proto=.udp then offsetUDPChecksum
  else offsetICMPv6Checksum

def Parsed.sumField (q : Parsed) : UInt16 := word q.b (q.subofs+sumOfs q.ipProto)

def Kept4 (proto : Proto) : Prop := proto=.tcp ∨ proto=.udp ∨ proto=.icmpv4

def Kept6 (proto : Proto) : Prop := proto=.tcp ∨ proto=.udp ∨ proto=.icmpv6

lemma sumOfs_even (proto : Proto) : sumOfs proto%2=0 := by
  rw [sumOfs]
  split_ifs <;> rfl

variable {proto : Proto}

lemma Kept4.sumOfs_le (h : Kept4 proto) : sumOfs proto+2 ≤ minHeader4 proto := by
  obtain rfl | rfl | rfl := h <;> decide

lemma Kept6.sumOfs_le (h : Kept6 proto) : sumOfs proto+2 ≤ minHeader6 proto := by
  obtain rfl | rfl | rfl := h <;> decide

/-- A Parsed whose addresses are those of its IPv4 header, with a whole transport header. -/
structure Placed4 (q : Parsed) : Prop where
  ipVersion : q.ipVersion=4
  version : byteAt q.b 0 >>> 4=4
  subofs : q.subofs=headerLen4 q.b
  header : 20≤q.subofs
  kept : Kept4 q.ipProto
  whole : q.subofs+minHeader4 q.ipProto≤q.b.length
  addr : ∀ s : Side, s.addr q=.v4 (s.addr4 q.b)

structure Placed6 (q : Parsed) : Prop where
  ipVersion : q.ipVersion=6
  header : 40≤q.subofs
  kept : Kept6 q.ipProto
  whole : q.subofs+minHeader6 q.ipProto≤q.b.length
  addr : ∀ s : Side, ∃ zone, s.addr q=.v6 (s.addr6 q.b) zone

variable {q : Parsed}

lemma Placed4.field_le (h : Placed4 q) : q.subofs+sumOfs q.ipProto+2≤q.b.length := by
  have hle := h.kept.sumOfs_le
  have hwhole := h.whole
  omega

lemma Placed6.field_le (h : Placed6 q) : q.subofs+sumOfs q.ipProto+2≤q.b.length := by
  have hle := h.kept.sumOfs_le
  have hwhole := h.whole
  omega

lemma keptProto_ne {short read : Bool} {p : Prop} [Decidable p] (h : keptProto short proto≠.unknown)
    (hs : short=(read || decide p)) : ¬p ∧ keptProto short proto=proto := by
  cases short with
  | true => exact absurd rfl h
  | false => exact ⟨of_decide_eq_false (Bool.or_eq_false_iff.mp hs.symm).2,rfl⟩

variable {b : Bytes}

lemma whole_of_proto4 (hu : proto4 b≠.unknown) (hf : proto4 b≠.fragment) :
    headerLen4 b+minHeader4 (proto4 b)≤b.length := by
  obtain ⟨hle,hhdr⟩ := known4 hu
  have hn : ¬(b.length<totalLen4 b ∨ totalLen4 b<headerLen4 b) := by omega
  rw [proto4,if_neg hn] at hu hf ⊢
  by_cases h0 : fragOfs4 b=0
  · rw [if_pos h0] at hu ⊢
    obtain ⟨hshort,hproto⟩ := keptProto_ne hu rfl
    rw [hproto]
    omega
  · rw [if_neg h0] at hu hf
    exact ((laterProto_cases _).elim hu hf).elim

variable {ofs : ℕ}

lemma whole_of_proto6 (hofs : ofs=if leadsFragment b then 48 else 40)
    (h40 : 40≤b.length) (hu : proto6 b≠.unknown) (hf : proto6 b≠.fragment) :
    ofs+minHeader6 (proto6 b)≤b.length := by
  obtain ⟨hle,hlong⟩ := known6 hu
  have hn : ¬b.length<totalLen6 b := by omega
  rw [proto6,if_neg hn] at hu hf ⊢
  by_cases hfrag : byteAt b 6=Proto.ip6FragHeader
  · have h48 := hlong hfrag
    have hlead : leadsFragment b=true := by
      rw [leadsFragment,decide_eq_true hfrag,decide_eq_true h48]
      rfl
    rw [if_pos hlead] at hofs
    have hn : ¬b.length<48 := by omega
    rw [if_pos hfrag,if_neg hn] at hu hf ⊢
    by_cases h0 : fragOfs6 b=0
    · rw [if_pos h0] at hu ⊢
      obtain ⟨hshort,hproto⟩ := keptProto_ne hu rfl
      rw [hproto]
      omega
    · rw [if_neg h0] at hu hf
      exact ((laterProto_cases _).elim hu hf).elim
  · have hlead : leadsFragment b=false := by
      rw [leadsFragment,decide_eq_false hfrag]
      rfl
    rw [hlead,if_neg (by decide)] at hofs
    rw [if_neg hfrag] at hu ⊢
    obtain ⟨hshort,hproto⟩ := keptProto_ne hu rfl
    rw [hproto]
    omega

lemma Kept4.ne (h : Kept4 proto) : proto≠.unknown ∧ proto≠.fragment := by
  obtain rfl | rfl | rfl := h <;> decide

lemma Kept6.ne (h : Kept6 proto) : proto≠.unknown ∧ proto≠.fragment := by
  obtain rfl | rfl | rfl := h <;> decide

section
variable {q0 q : Parsed} {b : Bytes} (h : q0.decode b=.ok q)
include h

lemma buffer_of_decode : q.b=b := ((q0.decode_returns b).elim h).1

lemma placed4_of_decode (hv : q.ipVersion=4) (hk : Kept4 q.ipProto)
    (h20 : 20≤headerLen4 b) : Placed4 q := by
  obtain ⟨hb,hcases⟩ := (q0.decode_returns b).elim h
  obtain ⟨h4,-,hv4⟩ | ⟨h6,-⟩ | ⟨h0,-⟩ := hcases
  · have hne := hk.ne
    rw [h4.ipProto] at hne
    obtain ⟨hle,-⟩ := known4 hne.1
    have hofs := h4.subofs hle
    refine ⟨hv,hb ▸ hv4,hofs.trans (by rw [hb]),by omega,hk,?_,fun s => ?_⟩
    · rw [hofs,h4.ipProto,hb]
      exact whole_of_proto4 hne.1 hne.2
    · rw [hb]
      cases s with
      | src => exact h4.src hle
      | dst => exact h4.dst hle
  · rw [h6.ipVersion] at hv
    cases hv
  · rw [h0] at hv
    cases hv

lemma placed6_of_decode (hv : q.ipVersion=6) (hk : Kept6 q.ipProto) :
    Placed6 q := by
  obtain ⟨hb,hcases⟩ := (q0.decode_returns b).elim h
  obtain ⟨h4,-⟩ | ⟨h6,h40,-⟩ | ⟨h0,-⟩ := hcases
  · rw [h4.ipVersion] at hv
    cases hv
  · have hne := hk.ne
    rw [h6.ipProto] at hne
    obtain ⟨hle,-⟩ := known6 hne.1
    have hofs := h6.subofs hle
    refine ⟨hv,?_,hk,?_,fun s => ⟨[],?_⟩⟩
    · rw [hofs]
      split_ifs <;> decide
    · rw [h6.ipProto,hb]
      exact whole_of_proto6 hofs h40 hne.1 hne.2
    · rw [hb]
      cases s with
      | src => exact h6.src hle
      | dst => exact h6.dst hle
  · rw [h0] at hv
    cases hv

end

variable {old new : Bytes}

lemma updateV4Checksum_eq (h : ofs+2≤b.length)
    (hlen : old.length=new.length) (heven : old.length%2=0) : updateV4Checksum b ofs old new =
      .ok (splice b ofs (uint16Bytes (updatedSum (word b ofs) old new))) := by
  rw [updateV4Checksum,if_neg (by rw [hlen]; simp),if_neg (by omega),uint16At_of_lt (by omega)]
  exact copyAt_eq_splice h

lemma updateV6Checksum_eq (h : ofs+2≤b.length) (old new : Bytes) : updateV6Checksum b ofs old new =
      .ok (splice b ofs (uint16Bytes (updatedSum6 (word b ofs) old new))) := by
  rw [updateV6Checksum,uint16At_of_lt (by omega)]
  exact copyAt_eq_splice h

/-- The transport checksum after an IPv4 update: ICMPv4 does not cover the addresses. -/
def nextSum4 (proto : Proto) (f : UInt16) (old new : Bytes) : UInt16 :=
  if proto=.icmpv4 then f else updatedSum f old new

/-- The transport checksum after an IPv6 update, with n bytes of transport in the buffer. -/
def nextSum6 (proto : Proto) (n : ℕ) (f : UInt16) (old new : Bytes) : UInt16 :=
  if proto=.icmpv6 ∧ n < minICMPv6Size then f else updatedSum6 f old new

lemma not_short {subofs n : ℕ} (h : subofs+n≤b.length) : ¬(b.drop subofs).length < n := by
  rw [length_drop]
  omega

lemma updateV4Transport_eq {subofs : ℕ} (hk : Kept4 proto)
    (h : subofs+minHeader4 proto≤b.length) (hlen : old.length=new.length)
    (heven : old.length%2=0) : updateV4Transport proto b subofs old new = .ok (splice b (subofs+sumOfs proto)
        (uint16Bytes (nextSum4 proto (word b (subofs+sumOfs proto)) old new))) := by
  rw [updateV4Transport,sliceFrom_of_le (by omega)]
  obtain rfl | rfl | rfl := hk
  · have h20 : subofs+20≤b.length := h
    refine (if_neg (not_short (n := minTCPSize) h)).trans ?_
    exact updateV4Checksum_eq (by omega) hlen heven
  · have h8 : subofs+8≤b.length := h
    refine (if_neg (not_short (n := minUDPSize) h)).trans ?_
    exact updateV4Checksum_eq (by omega) hlen heven
  · have h4 : subofs+4≤b.length := h
    refine congrArg Except.ok (Eq.symm ?_)
    exact splice_word (i := subofs+2) (by omega)

lemma updateV6Transport_eq {subofs : ℕ} (hk : Kept6 proto)
    (h : subofs+minHeader6 proto≤b.length) (old new : Bytes) : updateV6Transport proto b subofs old new =
      .ok (splice b (subofs+sumOfs proto) (uint16Bytes
        (nextSum6 proto (b.length-subofs) (word b (subofs+sumOfs proto)) old new))) := by
  rw [updateV6Transport,sliceFrom_of_le (by omega),← length_drop]
  obtain rfl | rfl | rfl := hk
  · have h20 : subofs+20≤b.length := h
    refine (if_neg (not_short (n := minTCPSize) h)).trans ?_
    exact updateV6Checksum_eq (by rw [offsetTCPChecksum]; omega) old new
  · have h8 : subofs+8≤b.length := h
    refine (if_neg (not_short (n := minUDPSize) h)).trans ?_
    exact updateV6Checksum_eq (by rw [offsetUDPChecksum]; omega) old new
  · have h4 : subofs+4≤b.length := h
    rw [nextSum6]
    by_cases hs : (b.drop subofs).length < minICMPv6Size
    · refine (if_pos hs).trans (congrArg Except.ok (Eq.symm ?_))
      rw [if_pos ⟨rfl,hs⟩]
      exact splice_word (i := subofs+2) (by omega)
    · refine (if_neg hs).trans ?_
      rw [if_neg fun hi => hs hi.2]
      exact updateV6Checksum_eq (by rw [offsetICMPv6Checksum]; omega) old new

namespace Side

def rewrite4 (s : Side) (q : Parsed) (new : Bytes) : Bytes :=
  splice (splice (splice q.b s.ofs4 new) 10 (uint16Bytes (updatedSum (word q.b 10) (window q.b s.ofs4 4) new)))
    (q.subofs+sumOfs q.ipProto)
    (uint16Bytes (nextSum4 q.ipProto q.sumField (window q.b s.ofs4 4) new))

def rewrite6 (s : Side) (q : Parsed) (new : Bytes) : Bytes :=
  splice (splice q.b s.ofs6 new) (q.subofs+sumOfs q.ipProto)
    (uint16Bytes (nextSum6 q.ipProto (q.b.length-q.subofs) q.sumField (window q.b s.ofs6 16) new))

def rewritten4 (s : Side) (q : Parsed) (a : BitVec 32) : Parsed :=
  { s.withAddr q (.v4 a) with b := s.rewrite4 q (beBytes 4 a.toNat) }

def rewritten6 (s : Side) (q : Parsed) (a : BitVec 128) (zone : Str) : Parsed :=
  { s.withAddr q (.v6 a zone) with b := s.rewrite6 q (beBytes 16 a.toNat) }

section
variable (s t : Side) (q : Parsed) (a : Addr)

@[simp] lemma withAddr_b : (s.withAddr q a).b=q.b := by cases s <;> rfl
@[simp] lemma withAddr_ipVersion : (s.withAddr q a).ipVersion=q.ipVersion := by cases s <;> rfl
@[simp] lemma withAddr_ipProto : (s.withAddr q a).ipProto=q.ipProto := by cases s <;> rfl
@[simp] lemma withAddr_subofs : (s.withAddr q a).subofs=q.subofs := by cases s <;> rfl

lemma rewritten4_b (a : BitVec 32) : (s.rewritten4 q a).b=s.rewrite4 q (beBytes 4 a.toNat) := rfl
lemma rewritten6_b (a : BitVec 128) (zone : Str) :
    (s.rewritten6 q a zone).b=s.rewrite6 q (beBytes 16 a.toNat) := rfl
@[simp] lemma rewritten4_ipVersion (a : BitVec 32) :
    (s.rewritten4 q a).ipVersion=q.ipVersion := s.withAddr_ipVersion q _
@[simp] lemma rewritten4_ipProto (a : BitVec 32) : (s.rewritten4 q a).ipProto=q.ipProto :=
  s.withAddr_ipProto q _
@[simp] lemma rewritten4_subofs (a : BitVec 32) : (s.rewritten4 q a).subofs=q.subofs :=
  s.withAddr_subofs q _
section
variable (a : BitVec 128) (zone : Str)

@[simp] lemma rewritten6_ipVersion :
    (s.rewritten6 q a zone).ipVersion=q.ipVersion := s.withAddr_ipVersion q _
@[simp] lemma rewritten6_ipProto :
    (s.rewritten6 q a zone).ipProto=q.ipProto := s.withAddr_ipProto q _
@[simp] lemma rewritten6_subofs :
    (s.rewritten6 q a zone).subofs=q.subofs := s.withAddr_subofs q _

end

lemma addr_withAddr (b : Bytes) : t.addr { s.withAddr q a with b := b } = if t=s then a else t.addr q := by
  cases s <;> cases t <;> rfl

end

end Side

lemma updateV4PacketChecksums_eq (hk : Kept4 q.ipProto) (hs : 12≤q.subofs)
    (h : q.subofs+minHeader4 q.ipProto≤q.b.length) (o n : BitVec 32) :
    updateV4PacketChecksums q (.v4 o) (.v4 n)=.ok { q with
      b := splice (splice q.b 10 (uint16Bytes (updatedSum (word q.b 10) (beBytes 4 o.toNat) (beBytes 4 n.toNat))))
        (q.subofs+sumOfs q.ipProto)
        (uint16Bytes (nextSum4 q.ipProto q.sumField (beBytes 4 o.toNat) (beBytes 4 n.toNat))) } := by
  have hlen : (beBytes 4 o.toNat).length=(beBytes 4 n.toNat).length := by
    rw [length_beBytes,length_beBytes]
  have heven : (beBytes 4 o.toNat).length%2=0 := by
    rw [length_beBytes]
  have h12 (w : UInt16) : 10+(uint16Bytes w).length≤q.b.length := by
    change 10+2≤_
    omega
  rw [updateV4PacketChecksums,if_neg (by omega),as4_v4,as4_v4]
  refine bind_of_ok (updateV4Checksum_eq (h12 0) hlen heven) ?_
  refine bind_of_ok (updateV4Transport_eq hk (by rwa [length_splice (h12 _)]) hlen heven) ?_
  rw [word_splice_outside (h12 _) (.inr (by change 10+2≤_; omega))]
  rfl

lemma updateV6PacketChecksums_eq (hk : Kept6 q.ipProto) (hs : 40≤q.subofs)
    (h : q.subofs+minHeader6 q.ipProto≤q.b.length) (old new : Addr) :
    updateV6PacketChecksums q old new=.ok { q with
      b := splice q.b (q.subofs+sumOfs q.ipProto) (uint16Bytes
        (nextSum6 q.ipProto (q.b.length-q.subofs) q.sumField (as16 old) (as16 new))) } := by
  rw [updateV6PacketChecksums,if_neg (by omega)]
  exact bind_of_ok (updateV6Transport_eq hk h _ _) rfl

section
variable {q : Parsed} (h : Placed4 q) (s : Side) (a : BitVec 32)
include h

lemma Placed4.ofs4_le : s.ofs4+(beBytes 4 a.toNat).length≤q.b.length := by
  have hofs := s.ofs4_range
  have hfield := h.field_le
  have hheader := h.header
  rw [length_beBytes]
  omega

lemma Placed4.update_eq : s.update q (.v4 a)=.ok (s.rewritten4 q a) := by
  have hofs := s.ofs4_range
  have hheader := h.header
  have hle := h.ofs4_le s a
  have hold : beBytes 4 (s.addr4 q.b).toNat=window q.b s.ofs4 4 := by
    have hwhole := h.whole
    exact s.beBytes_addr4 (by omega)
  rw [s.update_eq,h.addr s,updateAddr,if_neg (by simp [Addr.is6]),if_neg (by simp [h.ipVersion]),
    if_neg (by simp [Addr.is6]),as4_v4,Side.withAddr_b]
  refine bind_of_ok rfl (bind_of_ok (copyAt_eq_splice hle) ?_)
  refine (updateV4PacketChecksums_eq (by simpa using h.kept) ?_ ?_ _ _).trans ?_
  · simp only [Side.withAddr_subofs]
    omega
  · simpa [length_splice hle] using h.whole
  · rw [hold]
    simp only [Parsed.sumField,Side.withAddr_subofs,Side.withAddr_ipProto]
    rw [word_splice_outside hle (.inl (by omega)), word_splice_outside hle (.inr (by rw [length_beBytes]; omega))]
    simp [Side.rewritten4,Side.rewrite4,Parsed.sumField]

lemma Placed4.header_le (w : UInt16) :
    10+(uint16Bytes w).length≤(splice q.b s.ofs4 (beBytes 4 a.toNat)).length := by
  have hwhole := h.whole
  have hheader := h.header
  rw [length_splice (h.ofs4_le s a),length_uint16Bytes]
  omega

lemma Placed4.sum_le (w w' : UInt16) : q.subofs+sumOfs q.ipProto+(uint16Bytes w').length ≤
    (splice (splice q.b s.ofs4 (beBytes 4 a.toNat)) 10 (uint16Bytes w)).length := by
  rw [length_splice (h.header_le s a w),length_splice (h.ofs4_le s a),length_uint16Bytes]
  exact h.field_le

lemma Placed4.length_rewrite : (s.rewrite4 q (beBytes 4 a.toNat)).length=q.b.length := by
  rw [Side.rewrite4,length_splice (h.sum_le s a _ _),length_splice (h.header_le s a _), length_splice (h.ofs4_le s a)]

lemma Placed4.getElem?_rewrite {i : ℕ} (haddr : i < s.ofs4 ∨ s.ofs4+4 ≤ i) (hhdr : i<10 ∨ 12 ≤ i)
    (hsum : i<q.subofs+sumOfs q.ipProto ∨ q.subofs+sumOfs q.ipProto+2 ≤ i) :
    (s.rewrite4 q (beBytes 4 a.toNat))[i]? = q.b[i]? := by
  rw [Side.rewrite4,getElem?_splice_outside (h.sum_le s a _ _) (by simpa using hsum),
    getElem?_splice_outside (h.header_le s a _) (by simpa using hhdr),
    getElem?_splice_outside (h.ofs4_le s a) (by simpa using haddr)]

lemma Placed4.window_rewrite {i n : ℕ} (hi : 12 ≤ i) (hn : i+n≤20) :
    window (s.rewrite4 q (beBytes 4 a.toNat)) i n = window (splice q.b s.ofs4 (beBytes 4 a.toNat)) i n := by
  have hheader := h.header
  rw [Side.rewrite4,window_splice_outside (h.sum_le s a _ _) (by omega),
    window_splice_outside (h.header_le s a _) (.inl hi)]

lemma Placed4.addr4_rewrite (t : Side) : t.addr4 (s.rewrite4 q (beBytes 4 a.toNat)) =
    if t=s then a else t.addr4 q.b := by
  have ht := t.ofs4_range
  rw [Side.addr4,h.window_rewrite s a ht.1 ht.2.1]
  by_cases hts : t=s
  · have hwin := window_splice (h.ofs4_le s a)
    rw [length_beBytes] at hwin
    rw [if_pos hts,hts,hwin]
    exact ofNat_beNat_beBytes (by decide) a
  · rw [if_neg hts,window_splice_outside (h.ofs4_le s a)]
    · rfl
    · rw [length_beBytes]
      cases s <;> cases t <;> first | exact absurd rfl hts | decide

lemma Placed4.rewritten : Placed4 (s.rewritten4 q a) := by
  have hofs := s.ofs4_range
  have hheader := h.header
  have h0 : byteAt (s.rewrite4 q (beBytes 4 a.toNat)) 0=byteAt q.b 0 := by
    rw [byteAt,byteAt,getD_eq_getElem?_getD,getD_eq_getElem?_getD,
      h.getElem?_rewrite s a (.inl (by omega)) (.inl (by omega)) (.inl (by omega))]
  refine ⟨?_,?_,?_,?_,?_,?_,fun t => ?_⟩
  · simpa [Side.rewritten4] using h.ipVersion
  · exact h0 ▸ h.version
  · simpa [Side.rewritten4,headerLen4,h0] using h.subofs
  · simpa [Side.rewritten4] using hheader
  · simpa [Side.rewritten4] using h.kept
  · simpa [Side.rewritten4,h.length_rewrite s a] using h.whole
  · rw [Side.rewritten4,Side.addr_withAddr,h.addr4_rewrite s a t]
    split_ifs
    · rfl
    · exact h.addr t

lemma Placed4.sumField_rewritten : (s.rewritten4 q a).sumField =
    nextSum4 q.ipProto q.sumField (window q.b s.ofs4 4) (beBytes 4 a.toNat) := by
  have hword := word_splice (h.sum_le s a (updatedSum (word q.b 10) (window q.b s.ofs4 4) (beBytes 4 a.toNat)) 0)
  rw [Parsed.sumField,s.rewritten4_subofs,s.rewritten4_ipProto]
  exact hword _

end

section
variable {q : Parsed} (h : Placed6 q) (s : Side) (a : BitVec 128) (zone : Str)
include h

lemma Placed6.ofs6_le : s.ofs6+(beBytes 16 a.toNat).length≤q.b.length := by
  have hofs := s.ofs6_range
  have hfield := h.field_le
  have hheader := h.header
  rw [length_beBytes]
  omega

lemma Placed6.update_eq : s.update q (.v6 a zone)=.ok (s.rewritten6 q a zone) := by
  have hofs := s.ofs6_range
  have hheader := h.header
  have hle := h.ofs6_le s a
  obtain ⟨oldZone,hzone⟩ := h.addr s
  have hold : as16 (.v6 (s.addr6 q.b) oldZone)=window q.b s.ofs6 16 := by
    have hwhole := h.whole
    exact s.beBytes_addr6 (by omega)
  rw [s.update_eq,hzone,updateAddr,if_neg (by simp [h.ipVersion]),if_neg (by simp [Addr.is4]),
    if_pos (by rfl),Side.withAddr_b]
  refine bind_of_ok (copyAt_eq_splice hle) ?_
  refine (updateV6PacketChecksums_eq (by simpa using h.kept) ?_ ?_ _ _).trans ?_
  · simp only [Side.withAddr_subofs]
    omega
  · simpa [length_splice hle] using h.whole
  · rw [hold]
    simp only [Parsed.sumField,Side.withAddr_subofs,Side.withAddr_ipProto]
    rw [word_splice_outside hle (.inr (by rw [length_beBytes]; omega)),length_splice hle]
    simp [Side.rewritten6,Side.rewrite6,Parsed.sumField,as16,Addr.as16]

lemma Placed6.sum_le (w : UInt16) : q.subofs+sumOfs q.ipProto+(uint16Bytes w).length ≤
    (splice q.b s.ofs6 (beBytes 16 a.toNat)).length := by
  rw [length_splice (h.ofs6_le s a),length_uint16Bytes]
  exact h.field_le

lemma Placed6.length_rewrite : (s.rewrite6 q (beBytes 16 a.toNat)).length=q.b.length := by
  rw [Side.rewrite6,length_splice (h.sum_le s a _),length_splice (h.ofs6_le s a)]

lemma Placed6.getElem?_rewrite {i : ℕ} (haddr : i < s.ofs6 ∨ s.ofs6+16 ≤ i)
    (hsum : i<q.subofs+sumOfs q.ipProto ∨ q.subofs+sumOfs q.ipProto+2 ≤ i) :
    (s.rewrite6 q (beBytes 16 a.toNat))[i]? = q.b[i]? := by
  rw [Side.rewrite6,getElem?_splice_outside (h.sum_le s a _) (by simpa using hsum),
    getElem?_splice_outside (h.ofs6_le s a) (by simpa using haddr)]

lemma Placed6.window_rewrite {i n : ℕ} (hn : i+n≤40) : window (s.rewrite6 q (beBytes 16 a.toNat)) i n =
      window (splice q.b s.ofs6 (beBytes 16 a.toNat)) i n := by
  have hheader := h.header
  rw [Side.rewrite6,window_splice_outside (h.sum_le s a _) (by omega)]

lemma Placed6.addr6_rewrite (t : Side) : t.addr6 (s.rewrite6 q (beBytes 16 a.toNat)) =
    if t=s then a else t.addr6 q.b := by
  have ht := t.ofs6_range
  rw [Side.addr6,h.window_rewrite s a ht.2.1]
  by_cases hts : t=s
  · have hwin := window_splice (h.ofs6_le s a)
    rw [length_beBytes] at hwin
    rw [if_pos hts,hts,hwin]
    exact ofNat_beNat_beBytes (by decide) a
  · rw [if_neg hts,window_splice_outside (h.ofs6_le s a)]
    · rfl
    · rw [length_beBytes]
      cases s <;> cases t <;> first | exact absurd rfl hts | decide

lemma Placed6.rewritten : Placed6 (s.rewritten6 q a zone) := by
  refine ⟨?_,?_,?_,?_,fun t => ?_⟩
  · simpa [Side.rewritten6] using h.ipVersion
  · simpa [Side.rewritten6] using h.header
  · simpa [Side.rewritten6] using h.kept
  · simpa [Side.rewritten6,h.length_rewrite s a] using h.whole
  · rw [Side.rewritten6,Side.addr_withAddr,h.addr6_rewrite s a t]
    split_ifs
    · exact ⟨zone,rfl⟩
    · exact h.addr t

lemma Placed6.sumField_rewritten : (s.rewritten6 q a zone).sumField =
    nextSum6 q.ipProto (q.b.length-q.subofs) q.sumField (window q.b s.ofs6 16) (beBytes 16 a.toNat) := by
  have hword := word_splice (h.sum_le s a 0)
  rw [Parsed.sumField,s.rewritten6_subofs,s.rewritten6_ipProto]
  exact hword _

end

end TunnnejiTail.Packet
