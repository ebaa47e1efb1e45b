import TunnnejiTail.Disco.Message

/-! Parse reads back what AppendMarshal writes, and never reads out of range. -/
namespace TunnnejiTail.Disco
open Go Netip Cursor TunnnejiTail.Types List Nat TxID Addr

/-! What is written -/

def addrPortBytes (ipp : AddrPort) : Bytes := beBytes 16 ipp.addr.as16.toNat++beBytes 2 ipp.port.toNat

@[simp] lemma length_addrPortBytes (ipp : AddrPort) : (addrPortBytes ipp).length=epLength := by
  rfl

lemma length_flatMap_addrPortBytes (l : List AddrPort) :
    (l.flatMap addrPortBytes).length=epLength*l.length := by
  induction l with
  | nil => rfl
  | cons ipp l ih =>
    rw [flatMap_cons,length_append,length_addrPortBytes,ih,length_cons]
    ring

lemma writes_putAddrPort (ipp : AddrPort) : Writes (putAddrPort ipp) (addrPortBytes ipp) := by
  intro c h
  have hip : (beBytes 16 ipp.addr.as16.toNat).length=16 := length_beBytes ..
  have hmove := advance_append c.done (addrPortBytes ipp) (c.rest.drop epLength)
  have hput := copy_putUintAt (c := c) (v := beBytes 16 ipp.addr.as16.toNat) (n := 2) (by rw [hip]; exact h)
    ipp.port.toNat
  rw [hip,← append_assoc] at hput
  rw [putAddrPort,hput]
  exact hmove

lemma writes_putKey (k : Raw32) : Writes (putKey k) k.bytes := by
  have h := writes_copy k.bytes
  rw [k.size] at h
  exact h

def BindUDPRelayEndpointCommon.bytes (m : BindUDPRelayEndpointCommon) : Bytes :=
  beBytes 4 m.vni.toNat++(beBytes 4 m.generation.toNat++(m.remoteKey.bytes++m.challenge.bytes))

lemma length_bytes_common (m : BindUDPRelayEndpointCommon) : m.bytes.length=bindUDPRelayEndpointCommonLen := by
  simp only [BindUDPRelayEndpointCommon.bytes,length_append,length_beBytes,m.remoteKey.size,m.challenge.size]
  rfl

variable (spare : ℕ)

lemma writes_appendTo (k : Raw32) : Writes
    (fun c => (c.appendTo spare k.bytes).advance 32) k.bytes := by
  intro c h
  dsimp only
  rw [appendTo_of_le h]
  exact writes_putKey k c h

lemma fills_common (m : BindUDPRelayEndpointCommon) : Fills (m.encode spare) m.bytes := by
  have h := (writes_putUint 4 m.vni.toNat).seqFills ((writes_putUint 4 m.generation.toNat).seqFills
    ((writes_appendTo spare m.remoteKey).seqFills (fills_copy m.challenge.bytes)))
  simp only [bind_assoc] at h
  exact h

def UDPRelayEndpoint.bytes (m : UDPRelayEndpoint) : Bytes :=
  m.serverDisco.bytes++(m.clientDisco.1.bytes++(m.clientDisco.2.bytes++(beBytes 8 m.lamportID.toNat ++
    (beBytes 4 m.vni.toNat++(beBytes 8 m.bindLifetime.toUInt64.toNat ++
      (beBytes 8 m.steadyStateLifetime.toUInt64.toNat++m.addrPorts.flatMap addrPortBytes))))))

lemma length_bytes_endpoint (m : UDPRelayEndpoint) :
    m.bytes.length=udpRelayEndpointLenMinusAddrPorts+epLength*m.addrPorts.length := by
  simp only [UDPRelayEndpoint.bytes,length_append,length_beBytes,m.serverDisco.size,m.clientDisco.1.size,
    m.clientDisco.2.size,length_flatMap_addrPortBytes,udpRelayEndpointLenMinusAddrPorts]
  omega

lemma writes_endpoint (m : UDPRelayEndpoint) : Writes m.encode m.bytes := by
  have h := (writes_putKey m.serverDisco).seq ((writes_putKey m.clientDisco.1).seq ((writes_putKey m.clientDisco.2).seq
    ((writes_putUint 8 m.lamportID.toNat).seq ((writes_putUint 4 m.vni.toNat).seq
      ((writes_putUint 8 m.bindLifetime.toUInt64.toNat).seq ((writes_putUint 8 m.steadyStateLifetime.toUInt64.toNat).seq
        (writes_foldlM writes_putAddrPort m.addrPorts)))))))
  simp only [bind_assoc] at h
  exact h

/-- What a message puts behind its header. -/
def Message.bytes : Message → Bytes
  | .ping txID nodeKey padding =>
    txID.bytes++((if nodeKey.isZero then [] else nodeKey.bytes)++List.replicate padding.toNat 0)
  | .pong txID src => txID.bytes++(beBytes 16 src.addr.as16.toNat++beBytes 2 src.port.toNat)
  | .callMeMaybe myNumber => myNumber.flatMap addrPortBytes
  | .bindUDPRelayEndpoint common => common.bytes
  | .bindUDPRelayEndpointChallenge common => common.bytes
  | .bindUDPRelayEndpointAnswer common => common.bytes
  | .callMeMaybeVia endpoint => endpoint.bytes
  | .allocateUDPRelayEndpointRequest clientDisco generation =>
    clientDisco.1.bytes++(clientDisco.2.bytes++beBytes 4 generation.toNat)
  | .allocateUDPRelayEndpointResponse generation endpoint => beBytes 4 generation.toNat++endpoint.bytes

def Message.Padded : Message → Prop
  | .ping _ _ padding => 0≤padding
  | _ => True

variable {m : Message}

lemma Message.length_bytes (h : m.Padded) : (m.bytes.length : ℤ)=m.dataLen := by
  cases m with
  | ping txID nodeKey padding =>
    have hpad : (padding.toNat : ℤ)=padding := Int.toNat_of_nonneg h
    rw [bytes,dataLen,length_append,length_append,length_replicate,txID.size]
    split
    · push_cast
      rw [hpad]
      simp
    · rw [nodeKey.size]
      push_cast
      rw [hpad]
      ring
  | pong txID src =>
    simp only [bytes,dataLen,length_append,length_beBytes,txID.size]
    rfl
  | callMeMaybe myNumber => rw [bytes,dataLen,length_flatMap_addrPortBytes,cast_mul]
  | bindUDPRelayEndpoint common => rw [bytes,dataLen,length_bytes_common]
  | bindUDPRelayEndpointChallenge common => rw [bytes,dataLen,length_bytes_common]
  | bindUDPRelayEndpointAnswer common => rw [bytes,dataLen,length_bytes_common]
  | callMeMaybeVia endpoint =>
    rw [bytes,dataLen,length_bytes_endpoint]
    rfl
  | allocateUDPRelayEndpointRequest clientDisco generation =>
    simp only [bytes,dataLen,length_append,length_beBytes,clientDisco.1.size,clientDisco.2.size]
    rfl
  | allocateUDPRelayEndpointResponse generation endpoint =>
    rw [bytes,dataLen,length_append,length_beBytes,length_bytes_endpoint]
    push_cast
    ring

lemma Message.fills (h : ∀ txID nodeKey padding, m≠.ping txID nodeKey padding) :
    Fills (fun d => m.encode spare d) m.bytes := by
  cases m with
  | ping txID nodeKey padding => exact absurd rfl (h txID nodeKey padding)
  | pong txID src =>
    have hcopy := writes_copy txID.bytes
    rw [txID.size] at hcopy
    have hip := writes_copy (beBytes 16 src.addr.as16.toNat)
    rw [length_beBytes] at hip
    exact hcopy.seqFills (hip.seqFills (fills_putUint 2 src.port.toNat))
  | callMeMaybe myNumber => exact (writes_foldlM writes_putAddrPort myNumber).fills
  | bindUDPRelayEndpoint common => exact fills_common spare common
  | bindUDPRelayEndpointChallenge common => exact fills_common spare common
  | bindUDPRelayEndpointAnswer common => exact fills_common spare common
  | callMeMaybeVia endpoint => exact (writes_endpoint endpoint).fills
  | allocateUDPRelayEndpointRequest clientDisco generation =>
    exact (writes_putKey clientDisco.1).seqFills ((writes_putKey clientDisco.2).seqFills (fills_putUint 4 generation.toNat))
  | allocateUDPRelayEndpointResponse generation endpoint =>
    have h := (writes_putUint 4 generation.toNat).seqFills (writes_endpoint endpoint).fills
    simp only [bind_assoc] at h
    exact h

lemma encode_ping (txID : TxID) (nodeKey : NodePublic) (n : ℕ) :
    ∃ c, Message.encode spare ⟨[],replicate ((if nodeKey.isZero then 12 else 12+32)+n) 0⟩ (.ping txID nodeKey n)
      = .ok c ∧ c.bytes=(Message.ping txID nodeKey n).bytes := by
  have hrest (k : ℕ) : List.drop 12 (replicate (12+k) (0 : UInt8))=replicate k 0 := by
    rw [drop_replicate,Nat.add_sub_cancel_left]
  have hcopy (k : ℕ) := writes_copy txID.bytes ⟨[],replicate (12+k) 0⟩
    (by rw [txID.size,length_replicate]; exact Nat.le_add_right ..)
  simp only [txID.size,hrest,nil_append] at hcopy
  have hmin (k : ℕ) : min txID.bytes.length (replicate (12+k) (0 : UInt8)).length=12 := by
    rw [txID.size,length_replicate]
    exact Nat.min_eq_left (Nat.le_add_right ..)
  rw [Message.encode,Message.bytes,Int.toNat_natCast]
  by_cases hzero : nodeKey.isZero=true
  · simp only [hzero,if_true,hmin,hcopy]
    exact ⟨_,rfl,rfl⟩
  · simp only [hzero,Bool.false_eq_true,if_false,Nat.add_assoc,hmin,hcopy]
    refine ⟨_,rfl,?_⟩
    have hle : nodeKey.bytes.length≤(replicate (32+n) (0 : UInt8)).length := by
      rw [nodeKey.size,length_replicate]
      exact Nat.le_add_right ..
    rw [appendTo_of_le (c := ⟨txID.bytes,replicate (32+n) 0⟩) hle,copy_of_le hle,nodeKey.size,
      drop_replicate,Nat.add_sub_cancel_left]
    rfl

lemma Message.encode_eq (h : m.Padded) :
    ∃ c, m.encode spare ⟨[],replicate m.dataLen.toNat 0⟩=.ok c ∧ c.bytes=m.bytes := by
  have hlength : (replicate m.dataLen.toNat (0 : UInt8)).length=m.bytes.length := by
    rw [length_replicate,← length_bytes h,Int.toNat_natCast]
  cases m with
  | ping txID nodeKey padding =>
    obtain ⟨n,rfl⟩ := Int.eq_ofNat_of_zero_le h
    have hlen : (dataLen (.ping txID nodeKey n)).toNat=(if nodeKey.isZero then 12 else 12+32)+n := by
      rw [dataLen]
      split <;> omega
    rw [hlen]
    exact encode_ping spare txID nodeKey n
  | _ => exact (Message.fills spare (by rintro _ _ _ ⟨⟩)).exact hlength

lemma Message.appendMarshal_eq (h : m.Padded) (b : Bytes) :
    m.appendMarshal spare b=.ok (b++([m.type,v0]++m.bytes)) := by
  obtain ⟨c,hc,hbytes⟩ := m.encode_eq spare h
  have hpos : 0 ≤ m.dataLen := by
    rw [← length_bytes h]
    exact Int.natCast_nonneg _
  rw [appendMarshal,appendMsgHeader,if_neg (by omega),if_neg (by omega)]
  simp only [bind,Except.bind,hc,hbytes,append_assoc]
  rfl

/-! What is read back -/

lemma raw32_append (k : Raw32) (rest : Bytes) : raw32 (k.bytes++rest)=.ok k := by
  have hslice := slice_append k.bytes rest
  rw [k.size] at hslice
  rw [raw32,hslice]
  exact dif_pos k.size

lemma TxID.ofSlice_append (t : TxID) (rest : Bytes) : ofSlice (t.bytes++rest)=t := by
  have hle : 12-(t.bytes++rest).length=0 := by
    rw [length_append,t.size]
    omega
  rw [ofSlice]
  simp only [take_left' t.size,hle,replicate_zero,append_nil]

lemma sliceFrom_beBytes (n k : ℕ) (rest : Bytes) : sliceFrom (beBytes n k++rest) n=.ok rest := by
  have h := sliceFrom_append (beBytes n k) rest
  rwa [length_beBytes] at h

lemma slice_beBytes (n k : ℕ) (rest : Bytes) : slice (beBytes n k++rest) 0 n=.ok (beBytes n k) := by
  have h := slice_append (beBytes n k) rest
  rwa [length_beBytes] at h

lemma beUint_beBytes {n k : ℕ} (hk : k<256^n) : beUint n (beBytes n k)=.ok k := by
  have h := beUint_append [] hk
  rwa [append_nil] at h

lemma sliceFrom_raw32 (k : Raw32) (rest : Bytes) : sliceFrom (k.bytes++rest) 32=.ok rest := by
  have h := sliceFrom_append k.bytes rest
  rwa [k.size] at h

def Unmapped (ip : Addr) : Prop := ip.is4In6=false ∧ ip.hasZone=false

section
variable {ip : Addr} (h : Unmapped ip) (hvalid : ip.isValid=true)
include h hvalid

lemma unmap_as16 : (Addr.v6 ip.as16 []).unmap=ip := by
  obtain ⟨hmapped,hzone⟩ := h
  cases ip with
  | zero => cases hvalid
  | v4 a =>
    have hnat := mapped_toNat a
    have hdiv : (mapped a).toNat/2^32=0xffff := by omega
    rw [as16,unmap,if_pos hdiv]
    refine congrArg Addr.v4 (BitVec.eq_of_toNat_eq ?_)
    rw [BitVec.toNat_setWidth]
    omega
  | v6 a zone =>
    have hnil : zone=[] := List.isEmpty_iff.mp (by simpa [hasZone] using hzone)
    subst hnil
    exact unmap_of_not_is4In6 hmapped

lemma addrFrom16_append (rest : Bytes) :
    addrFrom16 (beBytes 16 ip.as16.toNat++rest)=ip := by
  have hlength := length_beBytes 16 ip.as16.toNat
  have hle : 16-(beBytes 16 ip.as16.toNat++rest).length=0 := by
    rw [length_append,hlength]
    omega
  have hlt : ip.as16.toNat<256^16 := ip.as16.isLt
  rw [addrFrom16,take_left' hlength,hle,replicate_zero,append_nil,beNat_beBytes,mod_eq_of_lt hlt,
    BitVec.ofNat_toNat,BitVec.setWidth_eq]
  exact unmap_as16 h hvalid

end

def Plain (ipp : AddrPort) : Prop := ipp.addr.isValid=true ∧ Unmapped ipp.addr

lemma port_lt (port : UInt16) : port.toNat<256^2 := port.toNat_lt

variable {p : Bytes}

lemma readAddrPortsLoop_succ (hp : p≠[]) (fuel : ℕ) (acc : List AddrPort) :
    readAddrPortsLoop (fuel+1) p acc=(do
      let port ← beUint 2 (← slice p 16 18)
      let rest ← sliceFrom p epLength
      readAddrPortsLoop fuel rest (acc++[⟨addrFrom16 p,UInt16.ofNat port⟩])) := by
  cases p with
  | nil => exact absurd rfl hp
  | cons x p => rfl

variable {l : List AddrPort}

lemma readAddrPortsLoop_append (hl : ∀ ipp ∈ l, Plain ipp) {fuel : ℕ} (hfuel : l.length≤fuel)
    (acc : List AddrPort) : readAddrPortsLoop fuel (l.flatMap addrPortBytes) acc=.ok (acc++l) := by
  induction l generalizing fuel acc with
  | nil =>
    rw [append_nil]
    cases fuel <;> rfl
  | cons ipp l ih =>
    obtain ⟨hplain,hl⟩ := forall_mem_cons.mp hl
    cases fuel with
    | zero => cases hfuel
    | succ fuel =>
      have hlength : (addrPortBytes ipp++l.flatMap addrPortBytes).length=18+(l.flatMap addrPortBytes).length := by
        rw [length_append,length_addrPortBytes]
        rfl
      have hrest := sliceFrom_append (addrPortBytes ipp) (l.flatMap addrPortBytes)
      rw [length_addrPortBytes] at hrest
      have hport : slice (addrPortBytes ipp++l.flatMap addrPortBytes) 16 18=.ok (beBytes 2 ipp.port.toNat) := by
        have htake : (addrPortBytes ipp++l.flatMap addrPortBytes).take 18=addrPortBytes ipp :=
          take_left' (length_addrPortBytes ipp)
        rw [slice_of_le (by decide) (by omega),htake,addrPortBytes,drop_left' (length_beBytes ..)]
      have hbe := beUint_beBytes (port_lt ipp.port)
      have haddr : addrFrom16 (addrPortBytes ipp++l.flatMap addrPortBytes)=ipp.addr := by
        exact addrFrom16_append hplain.2 hplain.1 _
      have hne : addrPortBytes ipp++l.flatMap addrPortBytes≠[] := by
        intro hnil
        rw [hnil,length_nil] at hlength
        omega
      rw [flatMap_cons,readAddrPortsLoop_succ hne,hport,hrest,haddr]
      simp only [bind,Except.bind,hbe,UInt16.ofNat_toNat]
      rw [ih hl (le_of_succ_le_succ hfuel),append_assoc]
      rfl

lemma readAddrPorts_append (hl : ∀ ipp ∈ l, Plain ipp) : readAddrPorts (l.flatMap addrPortBytes)=.ok l := by
  refine (readAddrPortsLoop_append hl ?_ []).trans (by rw [nil_append])
  rw [length_flatMap_addrPortBytes]
  exact Nat.le_mul_of_pos_left _ (by decide)

lemma decode_common (m : BindUDPRelayEndpointCommon) : BindUDPRelayEndpointCommon.decode m.bytes=.ok
    (some m) := by
  have hlong : ¬m.bytes.length<bindUDPRelayEndpointCommonLen := by
    rw [length_bytes_common]
    exact Nat.lt_irrefl _
  have hvni : m.vni.toNat<256^4 := m.vni.toNat_lt
  have hgen : m.generation.toNat<256^4 := m.generation.toNat_lt
  have hlast : raw32 m.challenge.bytes=.ok m.challenge := by
    have h := raw32_append m.challenge []
    rwa [append_nil] at h
  rw [BindUDPRelayEndpointCommon.decode,if_neg hlong,BindUDPRelayEndpointCommon.bytes]
  simp only [bind,Except.bind,beUint_append _ hvni,beUint_append _ hgen,sliceFrom_beBytes,sliceFrom_raw32,
    raw32_append,hlast,UInt32.ofNat_toNat]
  rfl

lemma decode_endpoint {m : UDPRelayEndpoint} (hne : m.addrPorts≠[]) (hplain : ∀ ipp ∈ m.addrPorts, Plain ipp) :
    UDPRelayEndpoint.decode m.bytes=.ok (some m) := by
  have hpos : 1 ≤ m.addrPorts.length := length_pos_iff.mpr hne
  have hmul : epLength≤epLength*m.addrPorts.length := Nat.le_mul_of_pos_right _ hpos
  have hlong : ¬(m.bytes.length<udpRelayEndpointLenMinusAddrPorts+epLength ∨
      (m.bytes.length-udpRelayEndpointLenMinusAddrPorts)%epLength≠0) := by
    rw [length_bytes_endpoint,Nat.add_sub_cancel_left,mul_mod_right,not_or]
    exact ⟨by omega,not_not.mpr rfl⟩
  have hcap : ¬(m.addrPorts.flatMap addrPortBytes).length<udpRelayEndpointLenMinusAddrPorts/epLength := by
    have hsix : udpRelayEndpointLenMinusAddrPorts/epLength≤epLength := by decide
    rw [length_flatMap_addrPortBytes]
    omega
  have hlamport : m.lamportID.toNat<256^8 := m.lamportID.toNat_lt
  have hvni : m.vni.toNat<256^4 := m.vni.toNat_lt
  have hbind : m.bindLifetime.toUInt64.toNat<256^8 := m.bindLifetime.toUInt64.toNat_lt
  have hsteady : m.steadyStateLifetime.toUInt64.toNat<256^8 := m.steadyStateLifetime.toUInt64.toNat_lt
  rw [UDPRelayEndpoint.decode,if_neg hlong,UDPRelayEndpoint.bytes]
  simp only [bind,Except.bind,raw32_append,sliceFrom_raw32,slice_beBytes,sliceFrom_beBytes,beUint_beBytes hlamport,
    beUint_beBytes hvni,beUint_beBytes hbind,beUint_beBytes hsteady,hcap,if_false,readAddrPorts_append hplain,
    UInt64.ofNat_toNat,UInt32.ofNat_toNat]
  rfl

/-- What a message has to be for Parse to give it back: a ping has a key and its padding is a number of
bytes, and addresses are valid, unmapped and without zones; a relay endpoint has an address. -/
def Message.Sendable : Message → Prop
  | .ping _ nodeKey padding => nodeKey.isZero=false ∧ 0≤padding
  | .pong _ src => Plain src
  | .callMeMaybe myNumber => ∀ ipp ∈ myNumber, Plain ipp
  | .callMeMaybeVia endpoint => endpoint.addrPorts≠[] ∧ ∀ ipp ∈ endpoint.addrPorts, Plain ipp
  | .allocateUDPRelayEndpointResponse _ endpoint => endpoint.addrPorts≠[] ∧ ∀ ipp ∈ endpoint.addrPorts, Plain ipp
  | _ => True

lemma Message.Sendable.padded (h : m.Sendable) : m.Padded := by
  cases m with
  | ping txID nodeKey padding => exact h.2
  | _ => trivial

lemma parse_header (t : UInt8) (p : Bytes) : parse ([t,v0]++p)=parseAs t v0 p := by
  have hlong : ¬([t,v0]++p).length<2 := by
    rw [length_append]
    exact Nat.not_lt.mpr (Nat.le_add_right 2 _)
  have hrest := sliceFrom_append [t,v0] p
  exact congrArg (fun x => x >>= parseAs t v0) hrest

lemma v0_eq : ¬v0≠0 := not_not.mpr rfl

lemma parsePing_bytes {txID : TxID} {nodeKey : NodePublic} (hkey : nodeKey.isZero=false) (n : ℕ) :
    parsePing (Message.ping txID nodeKey n).bytes=.ok ⟨some (.ping txID nodeKey n),none⟩ := by
  have hbytes : (Message.ping txID nodeKey n).bytes=txID.bytes++(nodeKey.bytes++replicate n 0) := by
    rw [Message.bytes,hkey,Int.toNat_natCast]
    rfl
  have hlength : (txID.bytes++(nodeKey.bytes++replicate n (0 : UInt8))).length=12+(32+n) := by
    rw [length_append,length_append,txID.size,nodeKey.size,length_replicate]
  have hrest := sliceFrom_append txID.bytes (nodeKey.bytes++replicate n 0)
  rw [txID.size] at hrest
  have hmin : min 12 (txID.bytes++(nodeKey.bytes++replicate n (0 : UInt8))).length=12 :=
    Nat.min_eq_left (by omega)
  have hkeyed : 32≤(nodeKey.bytes++replicate n (0 : UInt8)).length := by
    rw [length_append,nodeKey.size]
    exact Nat.le_add_right ..
  rw [hbytes,parsePing,if_neg (by omega),hmin,hrest]
  simp only [bind,Except.bind,hkeyed,if_true,raw32_append,ofSlice_append,hlength]
  refine congrArg (fun k : ℤ => Except.ok (⟨some (.ping txID nodeKey k),none⟩ : Parsed)) ?_
  push_cast
  ring

lemma parsePong_bytes {txID : TxID} {src : AddrPort} (h : Plain src) :
    parsePong (Message.pong txID src).bytes=.ok ⟨some (.pong txID src),none⟩ := by
  have hlength : ¬(Message.pong txID src).bytes.length<pongLen := by
    have hlen := Message.length_bytes (m := .pong txID src) trivial
    rw [Message.dataLen] at hlen
    omega
  have hrest := sliceFrom_append txID.bytes (beBytes 16 src.addr.as16.toNat++beBytes 2 src.port.toNat)
  rw [txID.size] at hrest
  have haddr := addrFrom16_append h.2 h.1 []
  rw [append_nil] at haddr
  rw [parsePong,if_neg hlength,Message.bytes]
  simp only [bind,Except.bind,hrest,slice_beBytes,sliceFrom_beBytes,beUint_beBytes (port_lt src.port),haddr,
    ofSlice_append,UInt16.ofNat_toNat]
  rfl

lemma parseCallMeMaybe_bytes {myNumber : List AddrPort} (h : ∀ ipp ∈ myNumber, Plain ipp) :
    parseCallMeMaybe v0 (Message.callMeMaybe myNumber).bytes=.ok ⟨some (.callMeMaybe myNumber),none⟩ := by
  rw [parseCallMeMaybe,Message.bytes,length_flatMap_addrPortBytes]
  cases myNumber with
  | nil => exact if_pos (Or.inr (Or.inr rfl))
  | cons ipp l =>
    have hnot : ¬(epLength*(ipp::l).length%epLength≠0 ∨ v0≠0 ∨ epLength*(ipp::l).length=0) := by
      rw [mul_mod_right,length_cons]
      rintro (h | h | h)
      · exact h rfl
      · exact v0_eq h
      · simp [epLength] at h
    rw [if_neg hnot,readAddrPorts_append h]
    rfl

variable (msg : BindUDPRelayEndpointCommon → Message)

lemma parseBind_bytes (common : BindUDPRelayEndpointCommon) :
    parseBind msg common.bytes=.ok ⟨some (msg common),none⟩ := by
  rw [parseBind,decode_common]
  rfl

lemma parseAllocateUDPRelayEndpointRequest_bytes (clientDisco : DiscoPublic × DiscoPublic)
    (generation : UInt32) :
    parseAllocateUDPRelayEndpointRequest v0 (Message.allocateUDPRelayEndpointRequest clientDisco generation).bytes
      = .ok ⟨some (.allocateUDPRelayEndpointRequest clientDisco generation),none⟩ := by
  have hlength : ¬(clientDisco.1.bytes++(clientDisco.2.bytes++beBytes 4 generation.toNat)).length
      < allocateUDPRelayEndpointRequestLen := by
    rw [length_append,length_append,clientDisco.1.size,clientDisco.2.size,length_beBytes]
    decide
  have hgen : generation.toNat<256^4 := generation.toNat_lt
  rw [parseAllocateUDPRelayEndpointRequest,Message.bytes]
  simp only [v0_eq,hlength,if_false,bind,Except.bind,raw32_append,sliceFrom_raw32,beUint_beBytes hgen,
    UInt32.ofNat_toNat]
  rfl

lemma parseAllocateUDPRelayEndpointResponse_bytes (generation : UInt32) {endpoint : UDPRelayEndpoint}
    (hne : endpoint.addrPorts≠[]) (hplain : ∀ ipp ∈ endpoint.addrPorts, Plain ipp) :
    parseAllocateUDPRelayEndpointResponse v0 (Message.allocateUDPRelayEndpointResponse generation endpoint).bytes
      = .ok ⟨some (.allocateUDPRelayEndpointResponse generation endpoint),none⟩ := by
  have hgen : generation.toNat<256^4 := generation.toNat_lt
  have hlength : ¬(beBytes 4 generation.toNat++endpoint.bytes).length<4 := by
    rw [length_append,length_beBytes]
    omega
  rw [parseAllocateUDPRelayEndpointResponse,Message.bytes,if_neg v0_eq,if_neg hlength]
  simp only [bind,Except.bind,beUint_append _ hgen,sliceFrom_beBytes,decode_endpoint hne hplain,UInt32.ofNat_toNat]
  rfl

lemma parse_bytes (h : m.Sendable) : parse ([m.type,v0]++m.bytes)=.ok ⟨some m,none⟩ := by
  rw [parse_header]
  cases m with
  | ping txID nodeKey padding =>
    obtain ⟨n,rfl⟩ := Int.eq_ofNat_of_zero_le h.2
    exact parsePing_bytes h.1 n
  | pong txID src => exact parsePong_bytes h
  | callMeMaybe myNumber => exact parseCallMeMaybe_bytes h
  | bindUDPRelayEndpoint common => exact parseBind_bytes _ common
  | bindUDPRelayEndpointChallenge common => exact parseBind_bytes _ common
  | bindUDPRelayEndpointAnswer common => exact parseBind_bytes _ common
  | callMeMaybeVia endpoint =>
    change parseCallMeMaybeVia v0 endpoint.bytes=_
    rw [parseCallMeMaybeVia,if_neg v0_eq,decode_endpoint h.1 h.2]
    rfl
  | allocateUDPRelayEndpointRequest clientDisco generation =>
    exact parseAllocateUDPRelayEndpointRequest_bytes clientDisco generation
  | allocateUDPRelayEndpointResponse generation endpoint =>
    exact parseAllocateUDPRelayEndpointResponse_bytes generation h.1 h.2

/-! Parse never reads out of range -/

lemma raw32_returns {b : Bytes} (h : 32≤b.length) : Returns (raw32 b) := by
  rw [raw32]
  refine (slice_returns (Nat.zero_le _) h).bind fun v hv => ?_
  rw [dif_pos hv]
  exact Returns.ok trivial

section
variable {α : Type} {b : Bytes} {Q : α → Prop}

lemma raw32_then {f : Raw32 → Bytes → Except Fault α} (h : 32≤b.length)
    (hf : ∀ k rest, rest.length=b.length-32 → Returns (f k rest) Q) :
    Returns (do let k ← raw32 b; f k (← sliceFrom b 32)) Q :=
  (raw32_returns h).bind fun k _ => (sliceFrom_returns h).bind (hf k)

lemma beUint_then {n : ℕ} {f : ℕ → Bytes → Except Fault α} (h : n≤b.length)
    (hf : ∀ v rest, rest.length=b.length-n → Returns (f v rest) Q) :
    Returns (do let v ← beUint n (← slice b 0 n); f v (← sliceFrom b n)) Q :=
  (slice_returns (Nat.zero_le _) h).bind fun _ hs => (beUint_returns (by omega)).bind fun v _ =>
    (sliceFrom_returns h).bind (hf v)

end

lemma readAddrPortsLoop_returns {fuel : ℕ} (hp : p.length%epLength=0) (hfuel : p.length≤fuel)
    (acc : List AddrPort) : Returns (readAddrPortsLoop fuel p acc) := by
  induction fuel generalizing p acc with
  | zero =>
    rw [eq_nil_of_length_eq_zero (le_zero.mp hfuel)]
    exact Returns.ok trivial
  | succ fuel ih =>
    by_cases hnil : p=[]
    · rw [hnil]
      exact Returns.ok trivial
    · have hpos := length_pos_iff.mpr hnil
      have hlong : epLength≤p.length := by
        by_contra hlt
        rw [mod_eq_of_lt (Nat.not_le.mp hlt)] at hp
        omega
      have h18 : 18≤p.length := hlong
      rw [readAddrPortsLoop_succ hnil]
      refine (slice_returns (by decide) h18).bind fun v hv => ?_
      refine (beUint_returns (by omega)).bind fun port _ => ?_
      refine (sliceFrom_returns hlong).bind fun rest hrest => ?_
      refine ih ?_ ?_ _
      · rw [hrest,← mod_eq_sub_mod hlong,hp]
      · have hep : 0<epLength := by decide
        omega

lemma readAddrPorts_returns (hp : p.length%epLength=0) : Returns (readAddrPorts p) :=
  readAddrPortsLoop_returns hp (Nat.le_refl _) []

lemma decode_common_returns (b : Bytes) : Returns (BindUDPRelayEndpointCommon.decode b) := by
  rw [BindUDPRelayEndpointCommon.decode]
  refine Returns.guard trivial fun hlong => ?_
  have h72 : 72≤b.length := Nat.not_lt.mp hlong
  refine (beUint_returns (by omega)).bind fun vni _ => ?_
  refine (sliceFrom_returns (by omega)).bind fun b1 h1 => ?_
  refine (beUint_returns (by omega)).bind fun generation _ => ?_
  refine (sliceFrom_returns (by omega)).bind fun b2 h2 => ?_
  refine raw32_then (by omega) fun remoteKey b3 h3 => ?_
  refine (raw32_returns (by omega)).bind fun challenge _ => ?_
  exact Returns.ok trivial

lemma decode_endpoint_returns (b : Bytes) : Returns (UDPRelayEndpoint.decode b) := by
  rw [UDPRelayEndpoint.decode]
  refine Returns.guard trivial fun hlong => ?_
  rw [not_or,not_not] at hlong
  obtain ⟨hlen,hmod⟩ := hlong
  have hmod' : (b.length-124)%epLength=0 := hmod
  have h142 : 142≤b.length := Nat.not_lt.mp hlen
  refine raw32_then (by omega) fun serverDisco b1 h1 => ?_
  refine raw32_then (by omega) fun clientDisco0 b2 h2 => ?_
  refine raw32_then (by omega) fun clientDisco1 b3 h3 => ?_
  refine beUint_then (by omega) fun lamportID b4 h4 => ?_
  refine beUint_then (by omega) fun vni b5 h5 => ?_
  refine beUint_then (by omega) fun bindLifetime b6 h6 => ?_
  refine beUint_then (by omega) fun steadyStateLifetime b7 h7 => ?_
  have hrest : b7.length=b.length-124 := by omega
  have hcap : ¬b7.length<udpRelayEndpointLenMinusAddrPorts/epLength := by
    have hsix : udpRelayEndpointLenMinusAddrPorts/epLength=6 := by decide
    omega
  rw [if_neg hcap]
  refine (readAddrPorts_returns (hrest ▸ hmod')).bind fun ports _ => ?_
  exact Returns.ok trivial

lemma parsePing_returns (p : Bytes) : Returns (parsePing p) := by
  rw [parsePing]
  refine Returns.guard trivial fun hlong => ?_
  refine (sliceFrom_returns (Nat.min_le_right ..)).bind fun rest hrest => ?_
  refine Returns.ite (fun hkey => ?_) fun _ => Returns.ok trivial
  refine (raw32_returns hkey).bind fun nodeKey _ => ?_
  exact Returns.ok trivial

lemma parsePong_returns (p : Bytes) : Returns (parsePong p) := by
  rw [parsePong]
  refine Returns.guard trivial fun hlong => ?_
  have h30 : 30≤p.length := Nat.not_lt.mp hlong
  refine (sliceFrom_returns (by omega)).bind fun p1 h1 => ?_
  refine (slice_returns (by omega) (by omega)).bind fun ip _ => ?_
  refine (sliceFrom_returns (by omega)).bind fun p2 h2 => ?_
  refine (beUint_returns (by omega)).bind fun port _ => ?_
  exact Returns.ok trivial

lemma parseBind_returns (p : Bytes) :
    Returns (parseBind msg p) := by
  rw [parseBind]
  refine (decode_common_returns p).bind fun common _ => ?_
  cases common with
  | none => exact Returns.ok trivial
  | some common => exact Returns.ok trivial

variable (ver : UInt8)

section
variable (p : Bytes)

lemma parseAllocateUDPRelayEndpointRequest_returns :
    Returns (parseAllocateUDPRelayEndpointRequest ver p) := by
  rw [parseAllocateUDPRelayEndpointRequest]
  refine Returns.guard trivial fun _ => ?_
  refine Returns.guard trivial fun hlong => ?_
  have h68 : 68≤p.length := Nat.not_lt.mp hlong
  refine raw32_then (by omega) fun disco0 p1 h1 => ?_
  refine raw32_then (by omega) fun disco1 p2 h2 => ?_
  refine (beUint_returns (by omega)).bind fun generation _ => ?_
  exact Returns.ok trivial

lemma parseAllocateUDPRelayEndpointResponse_returns :
    Returns (parseAllocateUDPRelayEndpointResponse ver p) := by
  rw [parseAllocateUDPRelayEndpointResponse]
  refine Returns.guard trivial fun _ => ?_
  refine Returns.guard trivial fun hlong => ?_
  refine (beUint_returns (Nat.not_lt.mp hlong)).bind fun generation _ => ?_
  refine (sliceFrom_returns (Nat.not_lt.mp hlong)).bind fun rest _ => ?_
  refine (decode_endpoint_returns rest).bind fun endpoint _ => ?_
  cases endpoint with
  | none => exact Returns.ok trivial
  | some endpoint => exact Returns.ok trivial

lemma parseCallMeMaybe_returns : Returns (parseCallMeMaybe ver p) := by
  rw [parseCallMeMaybe]
  refine Returns.guard trivial fun h => ?_
  rw [not_or,not_not] at h
  refine (readAddrPorts_returns h.1).bind fun ports _ => ?_
  exact Returns.ok trivial

lemma parseCallMeMaybeVia_returns : Returns (parseCallMeMaybeVia ver p) := by
  rw [parseCallMeMaybeVia]
  refine Returns.guard trivial fun _ => ?_
  refine (decode_endpoint_returns p).bind fun endpoint _ => ?_
  cases endpoint with
  | none => exact Returns.ok trivial
  | some endpoint => exact Returns.ok trivial

lemma parseAs_returns (t ver : UInt8) : Returns (parseAs t ver p) := by
  rw [parseAs]
  refine Returns.ite (fun _ => parsePing_returns p) fun _ => ?_
  refine Returns.ite (fun _ => parsePong_returns p) fun _ => ?_
  refine Returns.ite (fun _ => parseCallMeMaybe_returns ver p) fun _ => ?_
  refine Returns.ite (fun _ => parseBind_returns _ p) fun _ => ?_
  refine Returns.ite (fun _ => parseBind_returns _ p) fun _ => ?_
  refine Returns.ite (fun _ => parseBind_returns _ p) fun _ => ?_
  refine Returns.ite (fun _ => parseCallMeMaybeVia_returns ver p) fun _ => ?_
  refine Returns.ite (fun _ => parseAllocateUDPRelayEndpointRequest_returns ver p) fun _ => ?_
  refine Returns.ite (fun _ => parseAllocateUDPRelayEndpointResponse_returns ver p) fun _ => ?_
  exact Returns.ok trivial

lemma parse_returns : Returns (parse p) := by
  rw [parse]
  refine Returns.guard trivial fun hlong => ?_
  have hle : 2≤p.length := Nat.not_lt.mp hlong
  rw [index_of_lt (by omega),index_of_lt (by omega),sliceFrom_of_le hle]
  exact parseAs_returns _ _ _

end

/-- A message that can be sent is appended to any buffer as it is to the empty one, Parse gives it back,
and Parse returns on every byte string. -/
theorem wire_round_trip {m : Message} (h : m.Sendable) :
    (∃ enc, (∀ b spare, m.appendMarshal spare b=.ok (b++enc)) ∧ parse enc=.ok ⟨some m,none⟩) ∧
    ∀ p, ∃ r, parse p=.ok r := by
  refine ⟨⟨[m.type,v0]++m.bytes,fun b spare => m.appendMarshal_eq spare h.padded b,parse_bytes h⟩,fun p => ?_⟩
  obtain ⟨r,hr,-⟩ := parse_returns p
  exact ⟨r,hr⟩

/-- The endpoints of two families. -/
theorem wire_round_trip_endpoints :
    ∃ enc, (∀ b spare, (Message.callMeMaybe [⟨.v4 0x0a000001,41641⟩,⟨.v6 1 [],80⟩]).appendMarshal spare b
      = .ok (b++enc)) ∧ parse enc=.ok ⟨some (.callMeMaybe [⟨.v4 0x0a000001,41641⟩,⟨.v6 1 [],80⟩]),none⟩ := by
  refine (wire_round_trip (m := .callMeMaybe [⟨.v4 0x0a000001,41641⟩,⟨.v6 1 [],80⟩]) ?_).1
  intro ipp hipp
  rcases mem_cons.mp hipp with rfl | hipp
  · exact ⟨rfl,rfl,rfl⟩
  · rw [mem_singleton.mp hipp]
    exact ⟨rfl,rfl,rfl⟩

/-- The messages with unmapped addresses without zones, a key in a ping and an address in a relay
endpoint. -/
def Message.InScope : Message → Prop
  | .ping _ nodeKey _ => nodeKey.isZero=false
  | .pong _ src => Unmapped src.addr
  | .callMeMaybe myNumber => ∀ ipp ∈ myNumber, Unmapped ipp.addr
  | .callMeMaybeVia endpoint => endpoint.addrPorts≠[] ∧ ∀ ipp ∈ endpoint.addrPorts, Unmapped ipp.addr
  | .allocateUDPRelayEndpointResponse _ endpoint =>
    endpoint.addrPorts≠[] ∧ ∀ ipp ∈ endpoint.addrPorts, Unmapped ipp.addr
  | _ => True

/-- A pong with the zero address comes back with the unspecified IPv6 address. -/
theorem zero_address_not_kept : ¬∀ m : Message, m.InScope → ∀ b spare,
    ∃ enc, m.appendMarshal spare b=.ok (b++enc) ∧ parse enc=.ok ⟨some m,none⟩ := by
  intro h
  obtain ⟨enc,henc,hparse⟩ := h (.pong (.ofSlice []) ⟨.zero,0⟩) ⟨rfl,rfl⟩ [] 0
  have hbytes : [typePong,v0]++(Message.pong (.ofSlice []) ⟨.zero,0⟩).bytes=enc := Except.ok.inj henc
  have hread : parse ([typePong,v0]++(Message.pong (.ofSlice []) ⟨.zero,0⟩).bytes)
      = .ok ⟨some (.pong (.ofSlice []) ⟨.v6 0 [],0⟩),none⟩ := by decide +kernel
  rw [← hbytes,hread] at hparse
  cases hparse

end TunnnejiTail.Disco
