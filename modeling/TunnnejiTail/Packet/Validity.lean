import TunnnejiTail.Gro.Intact
import TunnnejiTail.Packet.Outgoing

/-! The checksums of what Generate returns. ICMPv6 adds up a payload of odd length from the wrong
end, and UDP over IPv6 may send the zero that stands for no checksum. -/
namespace TunnnejiTail.Packet
open Go Netip List UInt16 Nat IP6Header

lemma sum16_eq (ac : ℕ) (b : Bytes) (h : ac+onesSum b<2^32) : sum16 ac b=ac+onesSum b := by
  induction b using onesSum.induct generalizing ac with
  | case1 hi lo rest ih =>
    have hsum : onesSum (hi::lo::rest)=hi.toNat*256+lo.toNat+onesSum rest := rfl
    have hlt : ac+(hi.toNat*256+lo.toNat)<2^32 := by omega
    rw [sum16,mod_eq_of_lt hlt,ih _ (by omega),hsum,Nat.add_assoc ac]
  | case2 x => exact mod_eq_of_lt h
  | case3 => rfl

variable {b : Bytes}

lemma toNat_ip4Checksum (h : b.length≤70000) :
    (ip4Checksum b).toNat=65535-fold16 (onesSum b) := by
  have hle := onesSum_le b
  rw [ip4Checksum,toNat_not,sum16_eq 0 b (by omega),Nat.zero_add,carry_eq_fold16,toNat_fold16]

/-- Data verifies with the complement of its sum, or of one that differs by a multiple of 65535. -/
theorem verifies_complement {m : ℕ} (n : ℕ) (hm : 0 < m) :
    Verifies (m+(65535-fold16 n)) ↔ n%65535=m%65535 := by
  have hle := fold16_le n
  have hmod := fold16_mod n
  rw [verifies_iff]
  omega

lemma verifies_add_complement (n : ℕ) : Verifies (n+(65535-fold16 n)) := by
  rcases Nat.eq_zero_or_pos n with rfl | hn
  · rfl
  · exact (verifies_complement n hn).mpr rfl

lemma verifies_of_field {a b : Bytes} (hb : b.length≤70000)
    (h : onesSum a=onesSum b+(ip4Checksum b).toNat) : Verifies (onesSum a) := by
  rw [h,toNat_ip4Checksum hb]
  exact verifies_add_complement _

lemma onesSum_pos_iff : 0<onesSum b ↔ ∃ x ∈ b, x≠0 := by
  have hbyte (x : UInt8) : x≠0 ↔ 0<x.toNat := by
    rw [Nat.pos_iff_ne_zero,ne_eq,ne_eq,← UInt8.toNat_inj,UInt8.toNat_zero]
  induction b using onesSum.induct with
  | case1 hi lo rest ih =>
    have hsum : onesSum (hi::lo::rest)=hi.toNat*256+lo.toNat+onesSum rest := rfl
    rw [exists_mem_cons_iff,exists_mem_cons_iff,hsum]
    refine Iff.trans ?_ (or_congr (hbyte hi).symm (or_congr (hbyte lo).symm ih))
    omega
  | case2 x =>
    have hsum : onesSum [x]=x.toNat*256 := rfl
    rw [exists_mem_cons_iff,hbyte,hsum]
    simp
  | case3 => simp [onesSum]

lemma onesSum_append_zero (b : Bytes) : onesSum (b++[0])=onesSum b := by
  induction b using onesSum.induct with
  | case1 hi lo rest ih =>
    exact congrArg (hi.toNat*256+lo.toNat+·) ih
  | case2 x => simp [onesSum]
  | case3 => rfl

/-- A payload of odd length is added up as if a zero stood in front of it. -/
def frontSum (b : Bytes) : ℕ := if b.length%2=1 then onesSum (0::b) else onesSum b

lemma fold16_halves (n : ℕ) : fold16 (n%2^16+n/2^16)=fold16 n := by
  rw [fold16,fold16]
  split_ifs <;> omega

lemma toNat_checksumBytes (h : b.length≤70000) (initial : UInt16) :
    (checksumBytes b initial).toNat=fold16 (frontSum b+initial.toNat) := by
  have hinitial := initial.toNat_lt
  have hsum : (if b.length%2=1 then sum16 (initial.toNat+(b.headD 0).toNat) b.tail
      else sum16 initial.toNat b)=initial.toNat+frontSum b := by
    rw [frontSum]
    split_ifs with hodd
    · cases b with
      | nil => cases hodd
      | cons x b =>
        have hx := x.toNat_lt
        have hle := onesSum_le b
        have hcons : onesSum (0::x::b)=x.toNat+onesSum b := by
          simp [onesSum]
        rw [length_cons] at h
        rw [headD_cons,tail_cons,sum16_eq _ _ (by omega),hcons,Nat.add_assoc]
    · have hle := onesSum_le b
      exact sum16_eq _ _ (by omega)
  have hlt : initial.toNat+frontSum b<2^32 := by
    have hle := onesSum_le b
    have hle' := onesSum_le (0::b)
    rw [length_cons] at hle'
    rw [frontSum]
    split_ifs <;> omega
  rw [checksumBytes,hsum,toNat_checksumCombine,toNat_ofNat',toNat_ofNat',
    mod_eq_of_lt (by omega : (initial.toNat+frontSum b)/2^16<2^16),fold16_halves,Nat.add_comm]

lemma IP6Header.pseudo6_bytes (h : IP6Header) (proto : Proto) (n : ℕ) (rest : Bytes) :
    Gro.pseudo6 (h.bytes n++rest) proto n=h.pseudo proto n := by
  have haddrs : ((h.bytes n++rest).take 40).drop 8=as16 h.src++as16 h.dst := by
    rw [take_left' (h.length_bytes n),bytes,append_assoc]
    exact drop_left' (by simp)
  rw [Gro.pseudo6,haddrs,pseudo]
  simp

lemma IP4Header.headerLen4_wire (h : IP4Header) (s d : BitVec 32) (n : ℕ) (rest : Bytes) :
    headerLen4 (h.wire s d n++rest)=20 := by
  have hfirst : byteAt (h.wire s d n++rest) 0=0x45 := rfl
  rw [headerLen4,hfirst]
  decide

lemma IP4Header.headerValid_wire (h : IP4Header) (s d : BitVec 32) (n : ℕ) (rest : Bytes) :
    Gro.HeaderValid4 (h.wire s d n++rest) := by
  have hlen := h.headerLen4_wire s d n rest
  have hsum (c : UInt16) : onesSum (h.bytes n c (beBytes 4 s.toNat) (beBytes 4 d.toNat)) =
      onesSum (h.before n)+c.toNat+onesSum (beBytes 4 s.toNat++beBytes 4 d.toNat) := by
    rw [bytes,append_assoc,append_assoc,onesSum_append _ (by simp [before]),
      onesSum_append _ (by simp),onesSum_uint16Bytes,Nat.add_assoc]
  refine ⟨by rw [hlen],by rw [hlen,length_append,length_wire]; omega,?_⟩
  rw [hlen,take_left' (h.length_wire s d n)]
  refine verifies_of_field (b := h.bytes n 0 (beBytes 4 s.toNat) (beBytes 4 d.toNat))
    (by simp [bytes,before]) ?_
  rw [wire,hsum,hsum,UInt16.toNat_zero]
  omega

lemma beBytes_two (n : ℕ) : beBytes 2 n=uint16Bytes (UInt16.ofNat n) := by
  have hbyte {x y : ℕ} (h : x%256=y%256) : UInt8.ofNat x=UInt8.ofNat y := by
    rw [← UInt8.toNat_inj,UInt8.toNat_ofNat',UInt8.toNat_ofNat']
    exact h
  rw [uint16Bytes,toNat_ofNat',beBytes_succ,beBytes_succ]
  exact congrArg₂ (fun x y => [x,y]) (hbyte (by omega)) (hbyte (by omega))

lemma IP4Header.pseudo4_wire (h : IP4Header) (s d : BitVec 32) (m n : ℕ) (rest : Bytes) :
    Gro.pseudo4 (h.wire s d m++rest) h.ipProto n=h.pseudo s d n := by
  have haddrs : ((h.wire s d m++rest).take 20).drop 12=beBytes 4 s.toNat++beBytes 4 d.toNat := by
    rw [take_left' (h.length_wire s d m),wire,bytes,append_assoc]
    exact drop_left' (by simp [before])
  rw [Gro.pseudo4,haddrs,beBytes_two,pseudo]
  simp

/-- What a receiver checks by RFC 1071: the IPv4 header, and the transport with its pseudo header,
which ICMPv4 has not. -/
def Outgoing.Verified : Outgoing → Bytes → Prop
  | udp4 _ payload,b => Gro.HeaderValid4 b ∧ Verifies (onesSum (Gro.pseudo4 b .udp (8+payload.length)++b.drop 20))
  | udp6 _ payload,b => Verifies (onesSum (Gro.pseudo6 b .udp (8+payload.length)++b.drop 40))
  | icmp4 _ _,b => Gro.HeaderValid4 b ∧ Verifies (onesSum (b.drop 20))
  | icmp6 _ payload,b => Verifies (onesSum (Gro.pseudo6 b .icmpv6 (4+payload.length)++b.drop 40))
  | _,_ => False

/-- A header of ICMP or UDP with addresses of its family, and a payload that fits. -/
def Outgoing.Summed : Outgoing → Prop
  | udp4 h payload => h.ip.src.is4 ∧ h.ip.dst.is4 ∧ 28+payload.length≤65535
  | udp6 h payload => h.ip.src.is6 ∧ h.ip.dst.is6 ∧ 48+payload.length≤65535
  | icmp4 h payload => h.ip.src.is4 ∧ h.ip.dst.is4 ∧ 24+payload.length≤65535
  | icmp6 h payload => h.ip.src.is6 ∧ h.ip.dst.is6 ∧ 44+payload.length≤65535
  | _ => False

section
variable {payload : Bytes}

lemma onesSum_udpBytes (srcPort dstPort : UInt16) (n : ℕ) (c : UInt16) (payload : Bytes) :
    onesSum (udpBytes srcPort dstPort n c++payload) =
      srcPort.toNat+dstPort.toNat+(UInt16.ofNat n).toNat+c.toNat+onesSum payload := by
  rw [onesSum_append _ (by simp),udpBytes,onesSum_append _ (by simp),onesSum_append _ (by simp),
    onesSum_append _ (by simp)]
  simp only [onesSum_uint16Bytes]

lemma onesSum_icmpBytes (t code : UInt8) (c : UInt16) (payload : Bytes) :
    onesSum (icmpBytes t code c++payload)=onesSum [t,code]+c.toNat+onesSum payload := by
  have hsplit : icmpBytes t code c++payload=[t,code]++(uint16Bytes c++payload) := rfl
  rw [hsplit,onesSum_append _ (by simp),onesSum_append _ (by simp),onesSum_uint16Bytes,Nat.add_assoc]

lemma exists_v4 {ip : Addr} (h : ip.is4) : ∃ a, ip=.v4 a := by
  cases ip with
  | v4 a => exact ⟨a,rfl⟩
  | _ => cases h

lemma UDP4Header.verified {h : UDP4Header} (hs : (Outgoing.udp4 h payload).Summed) :
    ∃ b, (Outgoing.udp4 h payload).generate=.ok b ∧ (Outgoing.udp4 h payload).Verified b := by
  obtain ⟨hsrc,hdst,hmax⟩ := hs
  obtain ⟨s,hs⟩ := exists_v4 hsrc
  obtain ⟨d,hd⟩ := exists_v4 hdst
  refine ⟨_,UDP4Header.generate_eq hmax hs hd,IP4Header.headerValid_wire _ s d _ _,?_⟩
  rw [drop_left' (IP4Header.length_wire ..)]
  have hpseudo := (h.ip.withProto .udp).pseudo4_wire s d (28+payload.length) (8+payload.length)
    (udpBytes h.srcPort h.dstPort (8+payload.length) (h.sum s d payload)++payload)
  refine verifies_of_field (b := (h.ip.withProto .udp).pseudo s d (8+payload.length) ++
    (udpBytes h.srcPort h.dstPort (8+payload.length) 0++payload)) (by simp; omega) ?_
  refine (congrArg (fun b => onesSum (b++_)) hpseudo).trans ?_
  have hsplit (c : UInt16) := onesSum_append (a := (h.ip.withProto .udp).pseudo s d (8+payload.length))
    (udpBytes h.srcPort h.dstPort (8+payload.length) c++payload) (by simp)
  change onesSum _=onesSum _+(h.sum s d payload).toNat
  rw [hsplit,hsplit,onesSum_udpBytes,onesSum_udpBytes,UInt16.toNat_zero]
  omega

/-- The ICMPv4 checksum also covers the IPv4 header, whose words add up to minus zero. The field then
is zero where a message of zeros needs 65535. -/
theorem ICMP4Header.verified_iff {h : ICMP4Header} (hs : (Outgoing.icmp4 h payload).Summed) :
    ∃ b, (Outgoing.icmp4 h payload).generate=.ok b ∧ ((Outgoing.icmp4 h payload).Verified b ↔
      0<onesSum [h.icmpType,h.code]+onesSum payload) := by
  obtain ⟨hsrc,hdst,hmax⟩ := hs
  obtain ⟨s,hs⟩ := exists_v4 hsrc
  obtain ⟨d,hd⟩ := exists_v4 hdst
  have hvalid := fun rest => (h.ip.withProto .icmpv4).headerValid_wire s d (24+payload.length) rest
  have hlen := (h.ip.withProto .icmpv4).length_wire s d (24+payload.length)
  have hheader := (hvalid []).2.2
  rw [IP4Header.headerLen4_wire,take_left' hlen] at hheader
  refine ⟨_,ICMP4Header.generate_eq hmax hs hd,(and_iff_right (hvalid _)).trans ?_⟩
  rw [drop_left' hlen,onesSum_icmpBytes,ICMP4Header.sum,toNat_ip4Checksum (by simp; omega),
    onesSum_append _ (by rw [hlen]),onesSum_icmpBytes,UInt16.toNat_zero,Nat.add_zero,Nat.add_right_comm]
  rcases Nat.eq_zero_or_pos (onesSum [h.icmpType,h.code]+onesSum payload) with hzero | hpos
  · rw [hzero,Nat.add_zero,hheader]
    decide
  · refine iff_of_true ((verifies_complement _ hpos).mpr ?_) hpos
    rw [verifies_iff] at hheader
    omega

lemma UDP6Header.toNat_sum {h : UDP6Header} (hmax : 48+payload.length≤65535) :
    (h.sum payload).toNat=65535-fold16 (onesSum (h.ip.pseudo .udp (8+payload.length) ++
      (udpBytes h.srcPort h.dstPort (8+payload.length) 0++payload))) :=
  toNat_ip4Checksum (by simp; omega)

lemma UDP6Header.verified {h : UDP6Header} (hs : (Outgoing.udp6 h payload).Summed) :
    ∃ b, (Outgoing.udp6 h payload).generate=.ok b ∧ (Outgoing.udp6 h payload).Verified b := by
  obtain ⟨-,-,hmax⟩ := hs
  refine ⟨_,UDP6Header.generate_eq hmax,?_⟩
  rw [Outgoing.Verified,drop_left' (length_bytes ..),pseudo6_bytes]
  refine verifies_of_field (b := (h.ip.withProto .udp).pseudo .udp (8+payload.length) ++
    (udpBytes h.srcPort h.dstPort (8+payload.length) 0++payload)) (by simp; omega) ?_
  have hsplit (c : UInt16) := onesSum_append (a := (h.ip.withProto .udp).pseudo .udp (8+payload.length))
    (udpBytes h.srcPort h.dstPort (8+payload.length) c++payload) (by simp)
  change onesSum _=onesSum _+(h.sum payload).toNat
  rw [hsplit,hsplit,onesSum_udpBytes,onesSum_udpBytes,UInt16.toNat_zero]
  omega

lemma frontSum_of_even (h : b.length%2=0) : frontSum b=onesSum b :=
  if_neg (by omega)

@[simp] lemma length_as16 (ip : Addr) : (as16 ip).length=16 := length_beBytes 16 _

lemma IP6Header.onesSum_pseudo (h : IP6Header) (proto : Proto) (n : ℕ) : onesSum (h.pseudo proto n) =
    onesSum (as16 h.src)+(onesSum (as16 h.dst)+(onesSum (beBytes 4 n)+onesSum [0,0,0,proto])) := by
  have hsplit : h.pseudo proto n=as16 h.src++(as16 h.dst++(beBytes 4 n++[0,0,0,proto])) := by
    simp [pseudo]
  rw [hsplit,onesSum_append _ (by simp),onesSum_append _ (by simp),onesSum_append _ (by simp)]

variable {h : ICMP6Header}

lemma ICMP6Header.toNat_sum (hmax : 44+payload.length≤65535) :
    (h.sum payload).toNat=65535-fold16 (onesSum [h.icmpType,h.code]+
      (frontSum payload+onesSum (h.ip.pseudo .icmpv6 (4+payload.length)))) := by
  have hheader : onesSum [h.icmpType,h.code,0,0]=onesSum [h.icmpType,h.code] := by
    simp [onesSum]
  have hset : ((icmpBytes h.icmpType h.code 0).set 2 0).set 3 0=[h.icmpType,h.code,0,0] := rfl
  rw [sum,icmp6Checksum,toNat_not,hset,toNat_checksumBytes (by simp),toNat_checksumBytes (by omega),
    toNat_checksumBytes (by simp),toNat_checksumBytes (by simp),toNat_checksumBytes (by simp),
    toNat_checksumBytes (by simp)]
  simp only [fold16_add_fold16]
  rw [frontSum_of_even (b := [h.icmpType,h.code,0,0]) (by simp),frontSum_of_even (b := [0,0,0,_]) (by simp),
    frontSum_of_even (b := beBytes 4 _) (by simp),frontSum_of_even (b := as16 _) (by simp),
    frontSum_of_even (b := as16 _) (by simp),hheader,onesSum_pseudo,length_icmpBytes,UInt16.toNat_zero]
  exact congrArg (fun n => 65535-fold16 n) (by omega)

lemma ICMP6Header.verified_iff (hs : (Outgoing.icmp6 h payload).Summed) :
    ∃ b, (Outgoing.icmp6 h payload).generate=.ok b ∧ ((Outgoing.icmp6 h payload).Verified b ↔
      frontSum payload%65535=onesSum payload%65535) := by
  obtain ⟨-,-,hmax⟩ := hs
  refine ⟨_,ICMP6Header.generate_eq hmax,?_⟩
  have hpos : 0<onesSum (h.ip.pseudo .icmpv6 (4+payload.length)) := by
    have hproto : onesSum [0,0,0,Proto.icmpv6]=58 := by decide
    rw [onesSum_pseudo]
    omega
  rw [Outgoing.Verified,drop_left' (length_bytes ..),pseudo6_bytes]
  change Verifies (onesSum (h.ip.pseudo .icmpv6 (4+payload.length)++_)) ↔ _
  rw [onesSum_append _ (by simp),onesSum_icmpBytes,toNat_sum hmax,Nat.add_right_comm,← Nat.add_assoc,
    verifies_complement _ (by omega)]
  omega

/-- What the two ICMP checksums get right: a message of ICMPv4 that is not all zeros, and a payload of
ICMPv6 whose sum is the same with a zero put before it as with one put behind it, such as any of even
length. -/
def Outgoing.SumsRight : Outgoing → Prop
  | icmp4 h payload => h.icmpType≠0 ∨ h.code≠0 ∨ ∃ x ∈ payload, x≠0
  | icmp6 _ payload => payload.length%2=0 ∨ onesSum (0::payload)%65535=onesSum (payload++[0])%65535
  | _ => True

end

/-- Generate's output verifies exactly for what the checksums get right. -/
theorem generate_verified_iff (o : Outgoing) (hs : o.Summed) :
    ∃ b, o.generate=.ok b ∧ (o.Verified b ↔ o.SumsRight) := by
  cases o with
  | udp4 h payload =>
    obtain ⟨b,hb,hv⟩ := UDP4Header.verified hs
    exact ⟨b,hb,iff_of_true hv trivial⟩
  | udp6 h payload =>
    obtain ⟨b,hb,hv⟩ := UDP6Header.verified hs
    exact ⟨b,hb,iff_of_true hv trivial⟩
  | icmp4 h payload =>
    obtain ⟨b,hb,hv⟩ := ICMP4Header.verified_iff hs
    refine ⟨b,hb,hv.trans ?_⟩
    rw [add_pos_iff_pos_or_pos,onesSum_pos_iff,onesSum_pos_iff,Outgoing.SumsRight]
    simp [or_assoc]
  | icmp6 h payload =>
    obtain ⟨b,hb,hv⟩ := ICMP6Header.verified_iff hs
    refine ⟨b,hb,hv.trans ?_⟩
    rw [Outgoing.SumsRight,onesSum_append_zero,frontSum]
    split_ifs with hodd
    · exact (or_iff_right (by omega)).symm
    · exact iff_of_true rfl (.inl (by omega))
  | pong h => exact hs.elim
  | rejected h => exact hs.elim
  | disco ka => exact hs.elim

theorem generate_verified_echo :
    let o := Outgoing.icmp6 ⟨⟨.icmpv6,0,.v6 1 "",.v6 2 ""⟩,128,0⟩ [1,2,3,4]
    o.Summed ∧ ∃ b, o.generate=.ok b ∧ (o.Verified b ↔ o.SumsRight) :=
  ⟨⟨rfl,rfl,by decide⟩,generate_verified_iff _ ⟨rfl,rfl,by decide⟩⟩

/-- The echo request with one byte after its header, and the echo reply that is all zeros. -/
theorem generate_not_verified :
    (∃ b, (Outgoing.icmp6 ⟨⟨.icmpv6,0,.v6 1 "",.v6 2 ""⟩,128,0⟩ [1]).generate=.ok b ∧
      ¬(Outgoing.icmp6 ⟨⟨.icmpv6,0,.v6 1 "",.v6 2 ""⟩,128,0⟩ [1]).Verified b) ∧
    ∃ b, (Outgoing.icmp4 ⟨⟨.icmpv4,0,.v4 1,.v4 2⟩,0,0⟩ [0,0,0,0]).generate=.ok b ∧
      ¬(Outgoing.icmp4 ⟨⟨.icmpv4,0,.v4 1,.v4 2⟩,0,0⟩ [0,0,0,0]).Verified b := by
  constructor
  · obtain ⟨b,hb,hv⟩ := @ICMP6Header.verified_iff [1] ⟨⟨.icmpv6,0,.v6 1 "",.v6 2 ""⟩,128,0⟩ ⟨rfl,rfl,by decide⟩
    exact ⟨b,hb,hv.not.mpr (by decide)⟩
  · obtain ⟨b,hb,hv⟩ := @ICMP4Header.verified_iff [0,0,0,0] ⟨⟨.icmpv4,0,.v4 1,.v4 2⟩,0,0⟩ ⟨rfl,rfl,by decide⟩
    exact ⟨b,hb,hv.not.mpr (by decide)⟩

/-- The words under the UDP checksum over IPv6: addresses, length and protocol, ports, length again
and payload. -/
def UDP6Header.words (h : UDP6Header) (payload : Bytes) : ℕ :=
  onesSum (as16 h.ip.src)+onesSum (as16 h.ip.dst)+(8+payload.length)+17+
    h.srcPort.toNat+h.dstPort.toNat+(8+payload.length)+onesSum payload

lemma UDP6Header.field_eq {h : UDP6Header} {payload : Bytes} (hmax : 48+payload.length≤65535) :
    ∃ b, (Outgoing.udp6 h payload).generate=.ok b ∧ (word b 46).toNat=65535-fold16 (h.words payload) := by
  refine ⟨_,UDP6Header.generate_eq hmax,?_⟩
  have hword : word ((h.ip.withProto .udp).bytes (8+payload.length) ++
      (udpBytes h.srcPort h.dstPort (8+payload.length) (h.sum payload)++payload)) 46=h.sum payload := by
    exact uint16Of_bytes _
  have hlen : onesSum (beBytes 4 (8+payload.length))=8+payload.length := by
    rw [beBytes_succ,beBytes_succ,beBytes_two,div_eq_of_lt (by omega),div_eq_of_lt (by omega)]
    refine (Nat.zero_add _).trans ?_
    rw [onesSum_uint16Bytes,toNat_ofNat',mod_eq_of_lt (by omega)]
  have hproto : onesSum [0,0,0,Proto.udp]=17 := by decide
  rw [hword,toNat_sum hmax,onesSum_append _ (by simp),onesSum_udpBytes,onesSum_pseudo,words,hlen,
    hproto,toNat_ofNat',mod_eq_of_lt (by omega),UInt16.toNat_zero]
  exact congrArg (fun n => 65535-fold16 n) (by omega)

/-- The checksum of UDP over IPv6 is zero exactly when its words add up to a multiple of 65535. -/
theorem udp6_sum_ne_zero_iff (h : UDP6Header) (payload : Bytes) (hmax : 48+payload.length≤65535) :
    ∃ b, (Outgoing.udp6 h payload).generate=.ok b ∧ (word b 46≠0 ↔ h.words payload%65535≠0) := by
  obtain ⟨b,hb,hfield⟩ := UDP6Header.field_eq (h := h) hmax
  refine ⟨b,hb,not_congr ?_⟩
  have hpos : 0<h.words payload := by
    rw [UDP6Header.words]
    omega
  have hle := fold16_le (h.words payload)
  have hmod := fold16_mod (h.words payload)
  have hzero := fold16_eq_zero (n := h.words payload)
  rw [← UInt16.toNat_inj,hfield,UInt16.toNat_zero]
  omega

theorem udp6_sum_ne_zero_query : ∃ b,
    (Outgoing.udp6 ⟨⟨.udp,0,.v6 1 "",.v6 2 ""⟩,53,53⟩ [1,2,3]).generate=.ok b ∧
    word b 46≠0 := by
  obtain ⟨b,hb,hiff⟩ := udp6_sum_ne_zero_iff ⟨⟨.udp,0,.v6 1 "",.v6 2 ""⟩,53,53⟩ [1,2,3] (by decide)
  exact ⟨b,hb,hiff.mpr (by decide)⟩

/-- From port 65499 of ::1 to port 0 of ::2 without a payload. -/
theorem udp6_sum_zero : ∃ b, (Outgoing.udp6 ⟨⟨.udp,0,.v6 1 "",.v6 2 ""⟩,65499,0⟩ []).generate=.ok b ∧ word b 46=0 := by
  obtain ⟨b,hb,hfield⟩ := @UDP6Header.field_eq ⟨⟨.udp,0,.v6 1 "",.v6 2 ""⟩,65499,0⟩ [] (by decide)
  exact ⟨b,hb,UInt16.toNat_inj.mp (hfield.trans (by decide))⟩

end TunnnejiTail.Packet
