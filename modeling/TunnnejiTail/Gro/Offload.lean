import TunnnejiTail.Go.BigEndian
import TunnnejiTail.Go.OnesComplement
import TunnnejiTail.Packet.Fields

/-! Validation of checksums before a packet enters the stack, in place of the stack's own. -/
namespace TunnnejiTail.Gro
open Go Netip Packet UInt8 Nat

def ipv4ProtocolNumber : UInt16 := 0x0800
def ipv6ProtocolNumber : UInt16 := 0x86dd

def Summed (p : Proto) : Prop := p=.tcp ∨ p=.udp

instance (p : Proto) : Decidable (Summed p) := inferInstanceAs (Decidable (_ ∨ _))

/-- Extension headers that give their own length: hop-by-hop and destination options, routing. -/
def isOptions (h : Proto) : Bool := h=0 || h=43 || h=60

def extLength (b : Bytes) (ofs : ℕ) : ℕ := 8*((byteAt b (ofs+1)).toNat+1)

/-- A Fragment header with more to come, or with something before it. -/
def moreFrags6 (b : Bytes) (ofs : ℕ) : Bool := word b (ofs+2) &&& 1≠0

def isAtomic (b : Bytes) (ofs : ℕ) : Bool := word b (ofs+2) >>> 3=0 && !moreFrags6 b ofs

/-- The chain of IPv6 headers from the header h at ofs on: the upper-layer protocol and where it
starts. A fragment and a broken chain have none. -/
def upperFrom (b : Bytes) (h : Proto) (ofs : ℕ) : Option (Proto × ℕ) :=
  if isOptions h then
    if _ : ofs+extLength b ofs≤b.length then upperFrom b (byteAt b ofs) (ofs+extLength b ofs)
    else none
  else if h=Proto.ip6FragHeader then
    if _ : ofs+8≤b.length ∧ isAtomic b ofs then upperFrom b (byteAt b ofs) (ofs+8) else none
  else some (h,ofs)
termination_by b.length-ofs
decreasing_by
  · rw [extLength] at *
    omega
  · omega

def upper6 (b : Bytes) : Option (Proto × ℕ) := upperFrom b (byteAt b 6) 40

/-- The functions of wireguard-go and gVisor that validation calls: the checksum with an
initial value, the checksum of a pseudo header, the more-fragments flag of an IPv4 header, and
the transport protocol and the size of its data in an IPv6 packet. -/
structure Library where
  checksum : Bytes → UInt16 → UInt16
  pseudoHeaderChecksum : Proto → Bytes → Bytes → UInt16 → UInt16
  more : Bytes → Bool
  parseIPv6 : Bytes → Proto × ℕ
  checksum_eq : ∀ b initial, (checksum b initial).toNat=fold16 (onesSum b+initial.toNat)
  pseudoHeaderChecksum_eq : ∀ p src dst n, src.length%2=0 → dst.length%2=0 →
    (pseudoHeaderChecksum p src dst n).toNat=fold16 (onesSum (src++dst++[0,p])+n.toNat)
  more_eq : ∀ b, 20≤b.length → more b=moreFrags4 b
  parseIPv6_eq : ∀ b, totalLen6 b=b.length → ∀ p, Summed p → ∀ n,
    (parseIPv6 b=(p,n) ↔ ∃ ofs, upper6 b=some (p,ofs) ∧ n=b.length-ofs)

/-- The functions as they are documented. -/
def Library.plain : Library where
  checksum b initial := UInt16.ofNat (fold16 (onesSum b+initial.toNat))
  pseudoHeaderChecksum p src dst n := UInt16.ofNat (fold16 (onesSum (src++dst++[0,p])+n.toNat))
  more := moreFrags4
  parseIPv6 b :=
    match upper6 b with
    | some (p,ofs) => (p,b.length-ofs)
    | none => (.unknown,0)
  checksum_eq b initial := toNat_fold16 _
  pseudoHeaderChecksum_eq p src dst n _ _ := toNat_fold16 _
  more_eq _ _ := rfl
  parseIPv6_eq b _ p hp n := by
    cases hup : upper6 b with
    | none =>
      refine iff_of_false (fun h => ?_) (by rintro ⟨_,h,_⟩; cases h)
      cases h
      exact absurd hp (by decide)
    | some r =>
      simp only [Option.some.injEq]
      constructor
      · rintro h
        cases h
        exact ⟨r.2,rfl,rfl⟩
      · rintro ⟨ofs,rfl,rfl⟩
        rfl

structure PacketBuffer where
  payload : Bytes
  networkProtocolNumber : UInt16
  rxChecksumValidated : Bool
  deriving DecidableEq

def asSlice : Addr → Bytes
  | .zero => []
  | .v4 a => beBytes 4 a.toNat
  | .v6 a _ => beBytes 16 a.toNat

/-- The end of RXChecksumOffload: the transport checksum, then the buffer. -/
def validateTransport (L : Library) (q : Parsed) (pn : UInt16) (csumStart : ℕ) (fragment : Bool) :
    Except Fault (Parsed × Option PacketBuffer) :=
  if fragment=false ∧ Summed q.ipProto then do
    let lenForPseudo := q.b.length-csumStart
    let csum := L.pseudoHeaderChecksum q.ipProto (asSlice q.src.addr) (asSlice q.dst.addr)
      (UInt16.ofNat lenForPseudo)
    let data ← sliceFrom q.b csumStart
    if ~~~L.checksum data csum≠0 then return (q,none) else return (q,some ⟨q.b,pn,true⟩)
  else .ok (q,some ⟨q.b,pn,true⟩)

/-- The packet buffer, none for a packet to drop, with the Parsed it leaves behind. -/
def rxChecksumOffload (L : Library) (q : Parsed) : Except Fault (Parsed × Option PacketBuffer) :=
  if q.ipVersion=4 then
    if q.b.length < ip4HeaderLength then .ok (q,none)
    else do
      let b0 ← index q.b 0
      let csumStart := ((b0 &&& 0x0F)*4).toNat
      if csumStart < ip4HeaderLength ∨ csumStart > 60 ∨ q.b.length < csumStart then return (q,none)
      else do
        let hdr ← slice q.b 0 csumStart
        if ~~~L.checksum hdr 0≠0 then return (q,none)
        else validateTransport L q ipv4ProtocolNumber csumStart (L.more q.b)
  else if q.ipVersion=6 then
    if q.b.length < ip6HeaderLength then .ok (q,none)
    else if q.ipProto≠.icmpv6 ∧ ¬Summed q.ipProto then
      if Summed (L.parseIPv6 q.b).1 then
        if q.b.length<(L.parseIPv6 q.b).2 then .ok (q,none)
        else validateTransport L { q with ipProto := (L.parseIPv6 q.b).1 } ipv6ProtocolNumber
          (q.b.length-(L.parseIPv6 q.b).2) false
      else validateTransport L q ipv6ProtocolNumber ip6HeaderLength false
    else validateTransport L q ipv6ProtocolNumber ip6HeaderLength false
  else validateTransport L q 0 0 false

/-- A packet that is passed on exactly when P holds, and then with the bytes b. -/
def Verdict (b : Bytes) (P : Prop) (r : Parsed × Option PacketBuffer) : Prop :=
  P ∧ r.2.map PacketBuffer.payload=some b ∨ ¬P ∧ r.2=none

lemma Verdict.congr {b : Bytes} {P P' : Prop} {r : Parsed × Option PacketBuffer}
    (h : Verdict b P r) (hp : P ↔ P') : Verdict b P' r := by
  rw [Verdict,← hp]
  exact h

lemma not_summed_unknown : ¬Summed Proto.unknown := by decide

lemma complement_ne_zero (x : UInt16) : ~~~x≠0 ↔ x.toNat≠65535 := by
  have hx := x.toNat_lt
  rw [Ne,← UInt16.toNat_inj,UInt16.toNat_not]
  change ¬UInt16.size-1-x.toNat=0 ↔ _
  rw [UInt16.size]
  omega

lemma toNat_and_15 (x : UInt8) : (x &&& 0x0F).toNat=x.toNat%16 := by
  rw [UInt8.toNat_and]
  exact and_two_pow_sub_one_eq_mod x.toNat 4

lemma headerLen4_eq (b : Bytes) : headerLen4 b=(byteAt b 0).toNat%16*4 := by
  rw [headerLen4,UInt8.toNat_shiftLeft,toNat_and_15]
  change ((byteAt b 0).toNat%16) <<< 2 % 256=_
  rw [shiftLeft_eq]
  omega

lemma headerLen4_mul (b : Bytes) : ((byteAt b 0 &&& 0x0F)*4).toNat=headerLen4 b := by
  rw [headerLen4_eq,UInt8.toNat_mul,toNat_and_15]
  change (byteAt b 0).toNat%16*4%256=_
  omega

lemma asSlice_v4 {v : Bytes} (h : v.length=4) : asSlice (.v4 (BitVec.ofNat 32 (beNat v)))=v := by
  have hlt := beNat_lt v
  rw [asSlice,BitVec.toNat_ofNat,mod_eq_of_lt (by rw [h] at hlt; exact hlt),← h,beBytes_beNat]

lemma asSlice_v6 {v : Bytes} (h : v.length=16) (zone : Str) :
    asSlice (.v6 (BitVec.ofNat 128 (beNat v)) zone)=v := by
  have hlt := beNat_lt v
  rw [asSlice,BitVec.toNat_ofNat,mod_eq_of_lt (by rw [h] at hlt; exact hlt),← h,beBytes_beNat]

lemma onesSum_beBytes_two (n : ℕ) : onesSum (beBytes 2 n)=n%65536 := by
  change (UInt8.ofNat (n/256^1)).toNat*256+(UInt8.ofNat (n/256^0)).toNat+0=_
  rw [toNat_ofNat',toNat_ofNat']
  omega

lemma onesSum_beBytes_four {n : ℕ} (h : n<65536) : onesSum (beBytes 4 n)=n := by
  change (UInt8.ofNat (n/256^3)).toNat*256+(UInt8.ofNat (n/256^2)).toNat+onesSum (beBytes 2 n)=_
  rw [onesSum_beBytes_two,toNat_ofNat',toNat_ofNat']
  omega

section
variable {L : Library} {q : Parsed}

lemma length_asSlice (ip : Addr) : (asSlice ip).length%2=0 := by
  cases ip with
  | zero => rfl
  | v4 a => rw [asSlice,length_beBytes]
  | v6 a zone => rw [asSlice,length_beBytes]

def transportSum (q : Parsed) (csumStart : ℕ) : ℕ :=
  onesSum (asSlice q.src.addr++asSlice q.dst.addr++[0,q.ipProto])+
    (q.b.length-csumStart)%65536+onesSum (q.b.drop csumStart)

lemma validateTransport_returns {csumStart : ℕ} (h : csumStart≤q.b.length) (pn : UInt16)
    (fragment : Bool) : Returns (validateTransport L q pn csumStart fragment)
      (Verdict q.b (fragment=false → Summed q.ipProto → Verifies (transportSum q csumStart))) := by
  refine .ite (fun hc => ?_) fun hc => .ok (.inl ⟨fun h1 h2 => absurd ⟨h1,h2⟩ hc,rfl⟩)
  refine (Returns.of_eq (sliceFrom_of_le h)).bind fun data hdata => ?_
  have hsum : (L.checksum data (L.pseudoHeaderChecksum q.ipProto (asSlice q.src.addr)
      (asSlice q.dst.addr) (UInt16.ofNat (q.b.length-csumStart)))).toNat =
      fold16 (transportSum q csumStart) := by
    rw [L.checksum_eq,L.pseudoHeaderChecksum_eq _ _ _ _ (length_asSlice _) (length_asSlice _),
      fold16_add_fold16,hdata,transportSum,UInt16.toNat_ofNat']
    congr 1
    omega
  refine .ite (fun hn => .ok (.inr ⟨fun hv => ?_,rfl⟩)) fun hn => .ok (.inl ⟨fun _ _ => ?_,rfl⟩)
  · rw [complement_ne_zero,hsum] at hn
    exact hn (hv hc.1 hc.2)
  · rw [complement_ne_zero,hsum] at hn
    exact not_not.mp hn

lemma rxChecksumOffload_safe (L : Library) (q : Parsed) :
    Returns (rxChecksumOffload L q) := by
  refine .ite (fun _ => .guard trivial fun h20 => ?_) fun _ =>
    .ite (fun _ => .guard trivial fun h40 => .ite (fun _ => .ite (fun _ =>
      .guard trivial fun _ => ?_) fun _ => ?_) fun _ => ?_) fun _ => ?_
  · have hlen : 20≤q.b.length := Nat.le_of_not_lt h20
    refine (Returns.of_eq (index_of_lt (by omega))).bind fun b0 _ => ?_
    refine .guard trivial fun hs => ?_
    refine (Returns.of_eq (slice_of_le (Nat.zero_le _) (by omega))).bind fun hdr _ => ?_
    exact .guard trivial fun _ =>
      (validateTransport_returns (by omega) _ _).mono fun _ _ => trivial
  · exact (validateTransport_returns (sub_le ..) _ _).mono fun _ _ => trivial
  · exact (validateTransport_returns (Nat.le_of_not_lt h40) _ _).mono fun _ _ => trivial
  · exact (validateTransport_returns (Nat.le_of_not_lt h40) _ _).mono fun _ _ => trivial
  · exact (validateTransport_returns (Nat.zero_le _) _ _).mono fun _ _ => trivial

end

end TunnnejiTail.Gro
