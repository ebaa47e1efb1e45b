import TunnnejiTail.Packet.Fields

/-! Checksums: the sums of the packet generators and the in-place updates when an address of
a packet is rewritten. -/
namespace TunnnejiTail.Packet
open Go Netip Addr

def carry (ac : ℕ) : ℕ := if ac/2^16=0 then ac else carry (ac/2^16+ac%2^16)
termination_by ac
decreasing_by omega

/-- The sum of big-endian words in a uint32; a last odd byte is the high byte of a word. -/
def sum16 (ac : ℕ) : Bytes → ℕ
  | hi::lo::rest => sum16 ((ac+(hi.toNat*256+lo.toNat)) % 2^32) rest
  | [x] => (ac+x.toNat*256) % 2^32
  | [] => ac

def ip4Checksum (b : Bytes) : UInt16 := ~~~UInt16.ofNat (carry (sum16 0 b))

def checksumCombine (a b : UInt16) : UInt16 :=
  UInt16.ofNat (a.toNat+b.toNat+(a.toNat+b.toNat)/2^16)

def checksumBytes (buf : Bytes) (initial : UInt16) : UInt16 :=
  let v := if buf.length%2=1 then sum16 (initial.toNat+(buf.headD 0).toNat) buf.tail
    else sum16 initial.toNat buf
  checksumCombine (UInt16.ofNat v) (UInt16.ofNat (v/2^16))

/-- The header's own checksum counts as zero. -/
def icmp6Checksum (header src dst payload : Bytes) : UInt16 :=
  let xsum := checksumBytes src 0
  let xsum := checksumBytes dst xsum
  let xsum := checksumBytes (beBytes 4 (header.length+payload.length)) xsum
  let xsum := checksumBytes [0,0,0,Proto.icmpv6] xsum
  let xsum := checksumBytes payload xsum
  ~~~checksumBytes ((header.set 2 0).set 3 0) xsum

def as4 (ip : Addr) : Except Fault Bytes :=
  match ip.unmap with
  | .v4 a => .ok (beBytes 4 a.toNat)
  | _ => .error .panicked

def as16 (ip : Addr) : Bytes := beBytes 16 ip.as16.toNat

def replaceWords (c : ℕ) : Bytes → Bytes → ℕ
  | o0::o1::old,n0::n1::new =>
    replaceWords ((c+((uint16Of n0 n1).toNat+(~~~uint16Of o0 o1).toNat)) % 2^32) old new
  | _,_ => c

/-- The new value of a checksum field after old was replaced by new. -/
def updatedSum (oldSum : UInt16) (old new : Bytes) : UInt16 :=
  ~~~UInt16.ofNat (carry (replaceWords (~~~oldSum).toNat old new))

/-- updateV4Checksum on the checksum field at ofs of the packet. -/
def updateV4Checksum (b : Bytes) (ofs : ℕ) (old new : Bytes) : Except Fault Bytes :=
  if old.length≠new.length then .error .panicked
  else if old.length%2≠0 then .error .panicked
  else do
    let oldSum ← uint16At b ofs
    putUint16At b ofs (updatedSum oldSum old new)

def checksumUpdate2ByteAlignedUint16 (xsum old new : UInt16) : UInt16 :=
  if old=new then xsum else checksumCombine xsum (checksumCombine new (~~~old))

def checksumUpdate2ByteAlignedAddress (xsum : UInt16) : Bytes → Bytes → UInt16
  | o0::o1::old,n0::n1::new => checksumUpdate2ByteAlignedAddress
    (checksumUpdate2ByteAlignedUint16 xsum (uint16Of o0 o1) (uint16Of n0 n1)) old new
  | _,_ => xsum

def minUDPSize : ℕ := 8
def minTCPSize : ℕ := 20
def minICMPv6Size : ℕ := 8
def offsetICMPv6Checksum : ℕ := 2
def offsetUDPChecksum : ℕ := 6
def offsetTCPChecksum : ℕ := 16

def updateV6Checksum (b : Bytes) (ofs : ℕ) (old new : Bytes) : Except Fault Bytes := do
  let xsum ← uint16At b ofs
  putUint16At b ofs (~~~checksumUpdate2ByteAlignedAddress (~~~xsum) old new)

/-- The transport part of updateV4PacketChecksums, with the transport header at subofs. -/
def updateV4Transport (proto : Proto) (b : Bytes) (subofs : ℕ) (o4 n4 : Bytes) :
    Except Fault Bytes := do
  let tr ← sliceFrom b subofs
  if proto=.udp ∨ proto=.dccp then
    if tr.length < minUDPSize then .ok b else updateV4Checksum b (subofs+6) o4 n4
  else if proto=.tcp then
    if tr.length < minTCPSize then .ok b else updateV4Checksum b (subofs+16) o4 n4
  else if proto=.gre then
    if tr.length<6 then .ok b
    else do
      let flags ← index tr 0
      if flags=1 then updateV4Checksum b (subofs+4) o4 n4 else .ok b
  else .ok b

def updateV4PacketChecksums (q : Parsed) (old new : Addr) : Except Fault Parsed :=
  if q.b.length<12 then .ok q
  else do
    let o4 ← as4 old
    let n4 ← as4 new
    let b ← updateV4Checksum q.b 10 o4 n4
    let b ← updateV4Transport q.ipProto b q.subofs o4 n4
    return { q with b := b }

def updateV6Transport (proto : Proto) (b : Bytes) (subofs : ℕ) (o6 n6 : Bytes) :
    Except Fault Bytes := do
  let tr ← sliceFrom b subofs
  if proto=.icmpv6 then
    if tr.length < minICMPv6Size then .ok b else updateV6Checksum b (subofs+offsetICMPv6Checksum) o6 n6
  else if proto=.udp ∨ proto=.dccp then
    if tr.length < minUDPSize then .ok b else updateV6Checksum b (subofs+offsetUDPChecksum) o6 n6
  else if proto=.tcp then
    if tr.length < minTCPSize then .ok b else updateV6Checksum b (subofs+offsetTCPChecksum) o6 n6
  else .ok b

def updateV6PacketChecksums (q : Parsed) (old new : Addr) : Except Fault Parsed :=
  if q.b.length<40 then .ok q
  else do
    let b ← updateV6Transport q.ipProto q.b q.subofs (as16 old) (as16 new)
    return { q with b := b }

/-- UpdateSrcAddr and UpdateDstAddr, on the packet with the address already replaced: where
the address stands in an IPv4 and in an IPv6 header, and the address it had. -/
def updateAddr (ofs4 ofs6 : ℕ) (q : Parsed) (old new : Addr) : Except Fault Parsed :=
  if new.is6 ∧ q.ipVersion≠6 then .error .panicked
  else if new.is4 ∧ q.ipVersion≠4 then .error .panicked
  else if new.is6 then do
    let b ← copyAt q.b ofs6 (as16 new)
    updateV6PacketChecksums { q with b := b } old new
  else do
    let v4 ← as4 new
    let b ← copyAt q.b ofs4 v4
    updateV4PacketChecksums { q with b := b } old new

def updateSrcAddr (q : Parsed) (src : Addr) : Except Fault Parsed :=
  updateAddr 12 8 { q with src := withIP q.src src } q.src.addr src

def updateDstAddr (q : Parsed) (dst : Addr) : Except Fault Parsed :=
  updateAddr 16 24 { q with dst := withIP q.dst dst } q.dst.addr dst

lemma as4_v4 (a : BitVec 32) : as4 (.v4 a)=.ok (beBytes 4 a.toNat) := rfl

variable {b : Bytes} {ofs : ℕ}

lemma updateV4Checksum_returns (h : ofs+2≤b.length) (o n : ℕ) :
    Returns (updateV4Checksum b ofs (beBytes 4 o) (beBytes 4 n)) fun b' => b'.length=b.length := by
  rw [updateV4Checksum,if_neg (by simp),if_neg (by simp)]
  refine (Returns.of_eq (uint16At_of_lt (by omega))).bind fun _ _ => ?_
  exact putUint16At_returns h

lemma updateV6Checksum_returns (h : ofs+2≤b.length) (old new : Bytes) :
    Returns (updateV6Checksum b ofs old new) fun b' => b'.length=b.length := by
  refine (Returns.of_eq (uint16At_of_lt (by omega))).bind fun _ _ => ?_
  exact putUint16At_returns h

variable {subofs : ℕ} {proto : Proto}

lemma updateV4Transport_returns (h : subofs≤b.length) (o n : ℕ) :
    Returns (updateV4Transport proto b subofs (beBytes 4 o) (beBytes 4 n)) fun b' => b'.length=b.length := by
  refine (Returns.of_eq (sliceFrom_of_le h)).bind fun tr htr => ?_
  have hlen : tr.length=b.length-subofs := by rw [htr,List.length_drop]
  refine .ite (fun _ => .ite (fun _ => .ok rfl) fun hu => ?_) fun _ =>
    .ite (fun _ => .ite (fun _ => .ok rfl) fun ht => ?_) fun _ =>
    .ite (fun _ => .ite (fun _ => .ok rfl) fun hg => ?_) fun _ => .ok rfl
  · rw [minUDPSize] at hu
    exact updateV4Checksum_returns (by omega) o n
  · rw [minTCPSize] at ht
    exact updateV4Checksum_returns (by omega) o n
  · refine (Returns.of_eq (index_of_lt (by omega))).bind fun _ _ => ?_
    exact .ite (fun _ => updateV4Checksum_returns (by omega) o n) fun _ => .ok rfl

lemma updateV6Transport_returns
    (h : subofs≤b.length) (old new : Bytes) :
    Returns (updateV6Transport proto b subofs old new) fun b' => b'.length=b.length := by
  refine (Returns.of_eq (sliceFrom_of_le h)).bind fun tr htr => ?_
  have hlen : tr.length=b.length-subofs := by rw [htr,List.length_drop]
  refine .ite (fun _ => .ite (fun _ => .ok rfl) fun hi => ?_) fun _ =>
    .ite (fun _ => .ite (fun _ => .ok rfl) fun hu => ?_) fun _ =>
    .ite (fun _ => .ite (fun _ => .ok rfl) fun ht => ?_) fun _ => .ok rfl
  · rw [minICMPv6Size] at hi
    exact updateV6Checksum_returns (by rw [offsetICMPv6Checksum]; omega) old new
  · rw [minUDPSize] at hu
    exact updateV6Checksum_returns (by rw [offsetUDPChecksum]; omega) old new
  · rw [minTCPSize] at ht
    exact updateV6Checksum_returns (by rw [offsetTCPChecksum]; omega) old new

/-- What an address update leaves of the packet: only bytes within it change. -/
def Rewritten (q q' : Parsed) : Prop := q'.b.length=q.b.length ∧ q' = { q with b := q'.b }

variable {ofs4 ofs6 : ℕ} {q : Parsed}

section
variable (hv : q.ipVersion=4) (h20 : 20≤q.b.length) (hofs : ofs4+4≤20)
include hv h20 hofs

lemma updateAddr_v4_returns (hs : q.subofs≤q.b.length) (o n : BitVec 32) :
    Returns (updateAddr ofs4 ofs6 q (.v4 o) (.v4 n)) (Rewritten q) := by
  rw [updateAddr,if_neg (by simp [is6]),if_neg (by simp [hv]),if_neg (by simp [is6]),as4_v4]
  refine (copyAt_returns (by simp; omega)).bind fun b hb => ?_
  rw [updateV4PacketChecksums,if_neg (by simp only; omega),as4_v4,as4_v4]
  refine (updateV4Checksum_returns (by simp only; omega) _ _).bind fun b' hb' => ?_
  simp only at hb'
  refine (updateV4Transport_returns (by simp only; omega) _ _).bind fun b'' hb'' => ?_
  exact .ok ⟨by simp only; omega,rfl⟩

lemma updateAddr_v4_panics (hs : q.b.length<q.subofs) (o n : BitVec 32) :
    updateAddr ofs4 ofs6 q (.v4 o) (.v4 n)=.error .sliceBounds := by
  rw [updateAddr,if_neg (by simp [is6]),if_neg (by simp [hv]),if_neg (by simp [is6]),as4_v4]
  refine (copyAt_returns (by simp; omega)).bind_error fun b hb => ?_
  rw [updateV4PacketChecksums,if_neg (by simp only; omega),as4_v4,as4_v4]
  refine (updateV4Checksum_returns (by simp only; omega) _ _).bind_error fun b' hb' => ?_
  rw [updateV4Transport,sliceFrom_of_lt (by simp only at hb' ⊢; omega)]
  rfl

end

lemma updateAddr_v6_returns (hv : q.ipVersion=6)
    (h40 : 40≤q.b.length) (hofs : ofs6+16≤40) (hs : q.subofs≤q.b.length) (old : Addr)
    (a : BitVec 128) (zone : Str) : Returns (updateAddr ofs4 ofs6 q old (.v6 a zone)) (Rewritten q) := by
  rw [updateAddr,if_neg (by simp [hv]),if_neg (by simp [is4]),if_pos (by rfl)]
  refine (copyAt_returns (by simp [as16]; omega)).bind fun b hb => ?_
  rw [updateV6PacketChecksums,if_neg (by simp only; omega)]
  refine (updateV6Transport_returns (by simp only; omega) _ _).bind fun b' hb' => ?_
  exact .ok ⟨by simp only at hb' ⊢; omega,rfl⟩

end TunnnejiTail.Packet
