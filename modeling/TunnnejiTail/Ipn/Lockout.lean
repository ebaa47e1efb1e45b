import TunnnejiTail.Go.BigEndian
import TunnnejiTail.Ipn.UpdateFilter
import TunnnejiTail.PacketFilter.Ping

/-! Peers that the tailnet's lock does not sign, and the matches that let them in. The guard
looks at the sources of a match but not at its capabilities. -/
namespace TunnnejiTail.Ipn
open Go Netip Packet PacketFilter List Option Bool Parsed

variable {B : IPSetBuilder} {o : MapOrder} {nb : NodeBackend} {T : BartLite}

structure LockedOut (nb : NodeBackend) (p : Node) : Prop where
  peer : ∃ id, nb.peers.lookup id=some p
  unsigned : p.unsignedPeerAPIOnly

def Node.allows (p : Node) (ip : Addr) : Bool := p.allowedIPs.any (·.contains ip)

def acceptedByMatch (T : BartLite) (f : Filter) (q : Parsed) : Bool :=
  let ms := if q.ipVersion=4 then f.matches4 else f.matches6
  if q.ipProto=icmpOf q then matchIPsOnly T ms q f.srcIPHasCap
  else if q.ipProto=.tcp ∨ q.ipProto=.udp ∨ q.ipProto=.sctp then matchPorts T ms q f.srcIPHasCap
  else matchProtoAndIPsOnlyIfAllPorts T ms q

def IsRequest (q : Parsed) : Prop :=
  q.ipProto=.tcp ∧ q.isTCPSyn ∨ q.ipProto=.udp ∨ IsICMPRequest q

/-- A source prefix of a match with destinations meets the allowed addresses of a locked-out
peer. -/
def SourcesMeet (nb : NodeBackend) : Prop :=
  ∃ p, LockedOut nb p ∧ ∃ pfx ∈ p.allowedIPs, ∃ m ∈ nb.packetFilter, m.dsts≠[] ∧ ∃ r ∈ m.srcs, Overlap pfx r

def familyOf (ip : Addr) : Addr → Bool := if ip.is4 then Addr.is4 else Addr.is6

/-- No match with a destination of its family asks for a capability that an address of a
locked-out peer has. -/
def NoCapability (nb : NodeBackend) : Prop :=
  ∀ p, LockedOut nb p → ∀ ip, p.allows ip → ∀ m ∈ nb.packetFilter, m.hasDst (familyOf ip) →
    capGranted (some (srcIPHasCapForFilter nb)) ip m.srcCaps=false

section

lemma mem_unlocked {p : Node} : p ∈ unlocked o nb.peers ↔ LockedOut nb p := by
  rw [unlocked,List.mem_filter,List.mem_map]
  constructor
  · rintro ⟨⟨⟨id,p'⟩,hmem,rfl⟩,hu⟩
    exact ⟨⟨id,(mem_range o nb.peers id p').mp hmem⟩,hu⟩
  · rintro ⟨⟨id,hid⟩,hu⟩
    exact ⟨⟨(id,p),(mem_range o nb.peers id p).mpr hid,rfl⟩,hu⟩

lemma permitsUnlocked_iff :
    packetFilterPermitsUnlockedNodes B o nb.peers nb.packetFilter ↔ SourcesMeet nb := by
  unfold packetFilterPermitsUnlockedNodes
  obtain ⟨overlaps,hbuild,hoverlaps⟩ := B.build_spec ((unlocked o nb.peers).flatMap (·.allowedIPs))
  split_ifs with h0
  · refine iff_of_false not_false ?_
    rintro ⟨p,hp,_⟩
    rw [length_eq_zero_iff] at h0
    rw [← mem_unlocked (o := o),h0] at hp
    cases hp
  · rw [hbuild]
    simp only [List.any_eq_true,Bool.and_eq_true,hoverlaps,List.mem_flatMap,mem_unlocked,
      decide_eq_true_eq,ne_eq,List.length_eq_zero_iff]
    constructor
    · rintro ⟨m,hm,r,hr,⟨pfx,⟨p,hp,hpfx⟩,hov⟩,hd⟩
      exact ⟨p,hp,pfx,hpfx,m,hm,hd,r,hr,hov⟩
    · rintro ⟨p,hp,pfx,hpfx,m,hm,hd,r,hr,hov⟩
      exact ⟨m,hm,r,hr,⟨pfx,⟨p,hp,hpfx⟩,hov⟩,hd⟩

lemma packetFilter_eq (hnm : nb.netMap.isSome) : SourcesMeet nb ∧ FilterContext.packetFilter B o nb=[] ∨
      ¬SourcesMeet nb ∧ FilterContext.packetFilter B o nb=nb.packetFilter := by
  have hnone : nb.netMap.isNone=false := by
    rw [← not_isSome,hnm]
    rfl
  rw [FilterContext.packetFilter,hnone,Bool.false_or]
  by_cases h : SourcesMeet nb
  · exact .inl ⟨h,if_pos (permitsUnlocked_iff.mpr h)⟩
  · exact .inr ⟨h,if_neg fun hp => h (permitsUnlocked_iff.mp hp)⟩

variable {f : Filter}

lemma updateFilterLocked_built {ctx : FilterContext} {fresh freshJailed : ℕ} {st : FilterState}
    (hnm : nb.netMap.isSome) (hup : ctx.shieldsUp=false) (hnew : st.lastFilterInputs≠some (ctx.inputs B o nb))
    (hf : (updateFilterLocked T B o nb ctx fresh freshJailed st).filter=some f) :
    f.Built T (FilterContext.packetFilter B o nb) (some (srcIPHasCapForFilter nb)) (some ctx.localNets) := by
  have hnone : nb.netMap.isNone=false := by
    rw [← not_isSome,hnm]
    rfl
  rw [updateFilterLocked,if_neg hnew,hnone,hup] at hf
  cases hf
  exact (built_new st.filter fresh).withHooks _ _

variable {ms : List Match} {capTest : Option CapTestFunc} {localNets : Option IPSet} {q : Parsed}

lemma acceptedByMatch_eq (hf : f.Built T ms capTest localNets) : acceptedByMatch T f q =
      if q.ipProto=icmpOf q then matchIPsOnly T (matchesFamily ms (family q)) q capTest
      else if q.ipProto=.tcp ∨ q.ipProto=.udp ∨ q.ipProto=.sctp then
        matchPorts T (matchesFamily ms (family q)) q capTest
      else matchProtoAndIPsOnlyIfAllPorts T (matchesFamily ms (family q)) q := by
  unfold acceptedByMatch family
  rw [hf.matches4,hf.matches6,hf.srcIPHasCap]
  split_ifs <;> rfl

lemma familyOf_src (h : Framed q) : familyOf q.src.addr=family q := by
  obtain ⟨hv,⟨a,ha⟩,_⟩ | ⟨hv,⟨a,ha⟩,_⟩ := h.families
  · rw [familyOf,family,if_pos hv,ha]
    rfl
  · rw [familyOf,family,hv,ha]
    rfl

/-- A match that accepts a packet names its source, or grants it a capability and has a
destination of its family. -/
theorem match_of_accepted (hf : f.Built T ms capTest localNets)
    (h : Framed q) (hacc : acceptedByMatch T f q) : ∃ m ∈ ms, m.srcs.any (·.contains q.src.addr) ∧ m.dsts≠[] ∨
      capGranted capTest q.src.addr m.srcCaps ∧ m.hasDst (family q) := by
  have hs := h.src_inFamily
  have hd := h.dst_inFamily
  have hne : ∀ {m : Match} {P : NetPortRange → Bool}, m.dsts.any P → m.dsts≠[] := by
    intro m P hany hnil
    rw [hnil] at hany
    cases hany
  have hdst : ∀ {m : Match} {P : NetPortRange → Bool}, m.dsts.any P →
      (∀ dst, P dst → dst.net.contains q.dst.addr) → m.hasDst (family q) := by
    intro m P hany hP
    obtain ⟨dst,hmem,hp⟩ := List.any_eq_true.mp hany
    exact List.any_eq_true.mpr ⟨dst,hmem,hd.contains _ (hP dst hp)⟩
  rw [acceptedByMatch_eq hf] at hacc
  split_ifs at hacc with hicmp hports
  · rw [matchIPsOnly_matchesFamily T ms capTest hs hd,or_eq_true] at hacc
    obtain hacc | hacc := hacc
    · obtain ⟨m,hm,hmatch⟩ := List.any_eq_true.mp hacc
      rw [and_eq_true] at hmatch
      exact ⟨m,hm,.inl ⟨hmatch.1,hne hmatch.2⟩⟩
    · obtain ⟨m,hm,hmatch⟩ := List.any_eq_true.mp hacc
      exact ⟨m,hm,.inr (and_eq_true_iff.mp hmatch)⟩
  · rw [matchPorts_matchesFamily T ms capTest hs hd] at hacc
    obtain ⟨m,hm,hmatch⟩ := List.any_eq_true.mp hacc
    rw [and_eq_true,and_eq_true,Match.admitsSrc,or_eq_true] at hmatch
    obtain ⟨⟨_,hsrc | hcap⟩,hany⟩ := hmatch
    · exact ⟨m,hm,.inl ⟨hsrc,hne hany⟩⟩
    · exact ⟨m,hm,.inr ⟨hcap,hdst hany fun dst hp => (and_eq_true_iff.mp hp).1⟩⟩
  · rw [matchProtoAndIPsOnlyIfAllPorts_matchesFamily T ms hs hd] at hacc
    obtain ⟨m,hm,hmatch⟩ := List.any_eq_true.mp hacc
    rw [and_eq_true,and_eq_true] at hmatch
    exact ⟨m,hm,.inl ⟨hmatch.1.2,hne hmatch.2⟩⟩

end

def pingFrom4 (a : BitVec 32) : Bytes :=
  [0x45,0,0,28,0,0,0,0,64,1,0,0]++beBytes 4 a.toNat++[0,0,0,0,8,0,0,0,0,0,0,0]

def pingFrom6 (a : BitVec 128) : Bytes :=
  [0x60,0,0,0,0,8,58,64]++beBytes 16 a.toNat ++ [0,0,0,0,0,0,0,0,0,0,0,0,0,0,0,0,128,0,0,0,0,0,0,0]

lemma ofNat_beNat_beBytes {w n : ℕ} (hw : 256^n=2^w) (a : BitVec w) :
    BitVec.ofNat w (beNat (beBytes n a.toNat))=a := by
  rw [beNat_beBytes,hw,Nat.mod_eq_of_lt a.isLt,BitVec.ofNat_toNat,BitVec.setWidth_eq]

lemma isICMPRequest_of_type {q : Parsed} (hp : q.ipProto=.icmpv4 ∨ q.ipProto=.icmpv6)
    (ht : q.icmpTypeCode=some (if q.ipProto=.icmpv4 then 8 else 128,0)) : IsICMPRequest q := by
  refine ⟨hp,?_,?_⟩
  · obtain hp | hp := hp
    · rw [isEchoResponse,ht,hp]
      decide
    · rw [isEchoResponse,ht,hp]
      decide
  · obtain hp | hp := hp
    · rw [isError,ht,hp]
      decide
    · rw [isError,ht,hp]
      decide

lemma decode_pingFrom4 (a : BitVec 32) : ∃ q, decode {} (pingFrom4 a)=.ok q ∧
    q.src.addr=.v4 a ∧ q.ipProto=icmpOf q ∧ IsICMPRequest q := by
  obtain ⟨q,hdec,hb,hq⟩ := decode_returns {} (pingFrom4 a)
  have hlen : (pingFrom4 a).length=28 := rfl
  have hv : byteAt (pingFrom4 a) 0 >>> 4=4 := by
    have h0 : byteAt (pingFrom4 a) 0=0x45 := rfl
    rw [h0]
    decide
  have hheader : headerLen4 (pingFrom4 a)=20 := by
    have h0 : byteAt (pingFrom4 a) 0=0x45 := rfl
    rw [headerLen4,h0]
    rfl
  have htotal : totalLen4 (pingFrom4 a)=28 := by
    have h2 : word (pingFrom4 a) 2=uint16Of 0 28 := rfl
    rw [totalLen4,h2]
    rfl
  have hfrag : word (pingFrom4 a) 6=uint16Of 0 0 := rfl
  have hproto : proto4 (pingFrom4 a)=.icmpv4 := by
    have h9 : byteAt (pingFrom4 a) 9=1 := rfl
    rw [proto4,if_neg (by omega),fragOfs4,moreFrags4,hfrag,h9,hlen,hheader]
    decide
  have hsrc : src4 (pingFrom4 a)=a := ofNat_beNat_beBytes (n := 4) (by decide) a
  obtain ⟨h4,_⟩ | ⟨_,_,h6⟩ | ⟨_,_,hn,_⟩ := hq
  · have hp : q.ipProto=.icmpv4 := h4.ipProto.trans hproto
    have hsub : q.subofs=20 := (h4.subofs (by omega)).trans hheader
    refine ⟨q,hdec,by rw [h4.src (by omega),hsrc],by rw [hp,icmpOf,if_pos h4.ipVersion],
      isICMPRequest_of_type (.inl hp) ?_⟩
    rw [icmpTypeCode,dif_pos (by rw [hb,hsub,hlen]),getElem_eq_byteAt, getElem_eq_byteAt,hb,hsub,if_pos hp]
    rfl
  · rw [hv] at h6
    cases h6
  · exact absurd ⟨by omega,hv⟩ hn

lemma decode_pingFrom6 (a : BitVec 128) : ∃ q, decode {} (pingFrom6 a)=.ok q ∧
    q.src.addr=.v6 a [] ∧ q.ipProto=icmpOf q ∧ IsICMPRequest q := by
  obtain ⟨q,hdec,hb,hq⟩ := decode_returns {} (pingFrom6 a)
  have hlen : (pingFrom6 a).length=48 := rfl
  have hv : byteAt (pingFrom6 a) 0 >>> 4=6 := by
    have h0 : byteAt (pingFrom6 a) 0=0x60 := rfl
    rw [h0]
    decide
  have htotal : totalLen6 (pingFrom6 a)=48 := by
    have h4 : word (pingFrom6 a) 4=uint16Of 0 8 := rfl
    rw [totalLen6,h4]
    rfl
  have h6 : byteAt (pingFrom6 a) 6=58 := rfl
  have hproto : proto6 (pingFrom6 a)=.icmpv6 := by
    rw [proto6,if_neg (by omega),h6,hlen,if_neg (by decide)]
    decide
  have hleads : leadsFragment (pingFrom6 a)=false := by
    rfl
  have hsrc : src6 (pingFrom6 a)=a := ofNat_beNat_beBytes (n := 16) (by decide) a
  obtain ⟨_,_,h4⟩ | ⟨h6,_⟩ | ⟨_,_,_,hn⟩ := hq
  · rw [hv] at h4
    cases h4
  · have hp : q.ipProto=.icmpv6 := h6.ipProto.trans hproto
    have hsub : q.subofs=40 := by rw [h6.subofs (by omega),hleads]; rfl
    have h4 : ¬q.ipVersion=4 := by rw [h6.ipVersion]; decide
    refine ⟨q,hdec,by rw [h6.src (by omega),hsrc],by rw [hp,icmpOf,if_neg h4], isICMPRequest_of_type (.inr hp) ?_⟩
    rw [icmpTypeCode,dif_pos (by rw [hb,hsub,hlen]),getElem_eq_byteAt,getElem_eq_byteAt,hb,
      hsub,if_neg (by rw [hp]; decide)]
    rfl
  · exact absurd ⟨by omega,hv⟩ hn

lemma exists_ping_from {ip : Addr} {p : Prefix} (h : p.contains ip) :
    ∃ b q, decode {} b=.ok q ∧ q.src.addr=ip ∧ q.ipProto=icmpOf q ∧ IsICMPRequest q := by
  cases ip with
  | zero => cases p <;> cases h
  | v4 a =>
    obtain ⟨q,hq⟩ := decode_pingFrom4 a
    exact ⟨_,q,hq⟩
  | v6 a zone =>
    cases p with
    | v4 => cases h
    | v6 b bits =>
      have hzone : zone=[] := by
        have hz := (and_eq_true_iff.mp h).1
        simpa [Addr.hasZone] using hz
      subst hzone
      obtain ⟨q,hq⟩ := decode_pingFrom6 a
      exact ⟨_,q,hq⟩

lemma framed_of_isRequest {q0 q : Parsed} {b : Bytes} (hdec : q0.decode b=.ok q)
    (hq : IsRequest q) : Framed q := by
  refine framed_of_decode hdec ?_
  obtain ⟨h,_⟩ | h | ⟨h | h,_,_⟩ := hq <;> rw [h] <;> decide

section
variable {localNets : Option IPSet} {f : Filter} {p : Node}

lemma exists_accepted {ms : List Match} {capTest : Option CapTestFunc} (hf : f.Built T ms capTest localNets) {ip : Addr} (hip : p.allows ip)
    {m : Match} (hm : m ∈ ms) (hdst : m.hasDst (familyOf ip)) (hcap : capGranted capTest ip m.srcCaps) :
    ∃ b q, decode {} b=.ok q ∧ IsRequest q ∧ p.allows q.src.addr ∧ acceptedByMatch T f q := by
  obtain ⟨pfx,_,hc⟩ := List.any_eq_true.mp hip
  obtain ⟨b,q,hdec,rfl,hicmp,hreq⟩ := exists_ping_from hc
  have hframed := framed_of_isRequest hdec (.inr (.inr hreq))
  refine ⟨b,q,hdec,.inr (.inr hreq),hip,?_⟩
  rw [familyOf_src hframed] at hdst
  rw [acceptedByMatch_eq hf,if_pos hicmp,matchIPsOnly_matchesFamily T _ _ hframed.src_inFamily
    hframed.dst_inFamily,or_eq_true]
  exact .inr (List.any_eq_true.mpr ⟨m,hm,by rw [hcap,hdst]; rfl⟩)

lemma meets_of_accepted
    (hf : f.Built T nb.packetFilter (some (srcIPHasCapForFilter nb)) localNets)
    (hp : LockedOut nb p) {q : Parsed} (hframed : Framed q) (hallows : p.allows q.src.addr)
    (hacc : acceptedByMatch T f q) : SourcesMeet nb ∨ ¬NoCapability nb := by
  obtain ⟨m,hm,⟨hsrc,hd⟩ | ⟨hcap,hd⟩⟩ := match_of_accepted hf hframed hacc
  · obtain ⟨pfx,hpfx,hc⟩ := List.any_eq_true.mp hallows
    obtain ⟨r,hr,hcr⟩ := List.any_eq_true.mp hsrc
    exact .inl ⟨p,hp,pfx,hpfx,m,hm,hd,r,hr,_,hframed.src_inFamily.noZone,hc,hcr⟩
  · rw [← familyOf_src hframed] at hd
    refine .inr fun hno => ?_
    rw [hno p hp _ hallows m hm hd] at hcap
    cases hcap

end

/-- No match of the installed filter accepts a request from the addresses of a locked-out
peer, exactly when the sources meet so that no match is installed, or no match asks for a
capability that such an address has. -/
theorem locked_out_iff {ctx : FilterContext} {fresh freshJailed : ℕ} {st : FilterState}
    {f : Filter} (hnm : nb.netMap.isSome) (hup : ctx.shieldsUp=false)
    (hnew : st.lastFilterInputs≠some (ctx.inputs B o nb))
    (hf : (updateFilterLocked T B o nb ctx fresh freshJailed st).filter=some f) :
    (∀ p, LockedOut nb p → ∀ (q0 q : Parsed) (b : Bytes), q0.decode b=.ok q → IsRequest q →
      p.allows q.src.addr → acceptedByMatch T f q=false) ↔ SourcesMeet nb ∨ NoCapability nb := by
  have hbuilt := updateFilterLocked_built hnm hup hnew hf
  obtain ⟨hmeet,hpf⟩ | ⟨hmeet,hpf⟩ := packetFilter_eq (B := B) (o := o) hnm
  · rw [hpf] at hbuilt
    refine iff_of_true (fun p hp q0 q b hdec hq _ => ?_) (.inl hmeet)
    by_contra hacc
    obtain ⟨m,hm,_⟩ := match_of_accepted hbuilt (framed_of_isRequest hdec hq)
      (not_eq_false _ ▸ hacc)
    cases hm
  · rw [hpf] at hbuilt
    rw [or_iff_right hmeet]
    constructor
    · intro hnone p hp ip hip m hm hdst
      by_contra hcap
      rw [not_eq_false] at hcap
      obtain ⟨b,q,hdec,hreq,hallows,hacc⟩ := exists_accepted hbuilt hip hm hdst hcap
      rw [hnone p hp {} q b hdec hreq hallows] at hacc
      cases hacc
    · intro hcond p hp q0 q b hdec hq hallows
      by_contra hacc
      obtain h | h := meets_of_accepted hbuilt hp (framed_of_isRequest hdec hq) hallows
        (not_eq_false _ ▸ hacc)
      · exact hmeet h
      · exact h hcond

def unsignedPeer : Node where
  id := 2
  addresses := [.v4 0x64400009 (bits4 32)]
  allowedIPs := [.v4 0x64400009 (bits4 32)]
  unsignedPeerAPIOnly := true
  capMap := [['c']]

/-- The peer's tailnet, where one match opens a host to the sources with the given
capabilities. -/
def lockedTailnet (caps : List NodeCapability) : NodeBackend := .setNetMap <| some {
  selfNode := none
  peers := [unsignedPeer]
  packetFilter := [⟨[.udp],[],caps,[⟨.v4 0x64400001 (bits4 32),allPorts⟩]⟩] }

def shieldsDown : FilterContext where
  prefs := some ⟨false⟩
  localNets := IPSet.of [.v4 0x64400001 (bits4 32)]
  logNets := IPSet.of []
  sshPolicy := []
  ingressAllowHooks := []
  linkLocalAllowHooks := []

def lockedFilter (caps : List NodeCapability) : Option Filter :=
  (updateFilterLocked .scan .scan .asStored (lockedTailnet caps) shieldsDown 0 1 ⟨none,none,none⟩).filter

lemma unsignedPeer_lockedOut (caps : List NodeCapability) :
    LockedOut (lockedTailnet caps) unsignedPeer := ⟨⟨2,rfl⟩,rfl⟩

theorem locked_out_without_capabilities :
    LockedOut (lockedTailnet []) unsignedPeer ∧ ∃ f, lockedFilter []=some f ∧
      ∀ p, LockedOut (lockedTailnet []) p → ∀ (q0 q : Parsed) (b : Bytes), q0.decode b=.ok q →
        IsRequest q → p.allows q.src.addr → acceptedByMatch .scan f q=false := by
  obtain ⟨f,hf⟩ : ∃ f, lockedFilter []=some f := ⟨_,rfl⟩
  have hf' := hf
  refine ⟨unsignedPeer_lockedOut [],f,hf, (locked_out_iff rfl rfl (some_ne_none _).symm hf').mpr (.inr ?_)⟩
  intro _ _ _ _ m hm _
  obtain rfl := mem_singleton.mp hm
  rfl

def unsignedDatagram : Bytes :=
  [0x45,0,0,28,0,0,0,0,64,17,0,0,100,64,0,9,100,64,0,1,0,53,0,53,0,8,0,0]

theorem capability_admits_locked_out : LockedOut (lockedTailnet [['c']]) unsignedPeer ∧
      ∃ f q, lockedFilter [['c']]=some f ∧ Parsed.decode {} unsignedDatagram=.ok q ∧
        IsRequest q ∧ unsignedPeer.allows q.src.addr ∧ acceptedByMatch .scan f q ∧
        (f.runIn .scan .new q).1=.accept :=
  ⟨unsignedPeer_lockedOut _,_,_,rfl,rfl,.inr (.inl rfl),by decide,by decide,by decide⟩

end TunnnejiTail.Ipn
