import TunnnejiTail.PacketFilter.Filter
import TunnnejiTail.Packet.Payload

/-! Filter decisions and the packet before. Decode leaves ports, TCP flags and the data offset
of the packet before in place where the protocol has none. The filter reads none of these
leftovers; a hook is handed all of them. -/
namespace TunnnejiTail.PacketFilter
open Go Netip Packet Parsed BartLite

def setsPorts (q : Parsed) : Prop :=
  q.ipProto=icmpOf q ∨ q.ipProto=.tcp ∨ q.ipProto=.udp ∨ q.ipProto=.sctp

def setsDataofs (q : Parsed) : Prop :=
  q.ipProto=icmpOf q ∨ q.ipProto=.tcp ∨ q.ipProto=.udp ∨ q.ipProto=.tsmp

/-- Two decodings of one packet: what Decode sets for its protocol is equal. -/
structure Alike (q q' : Parsed) : Prop extends Same q q' where
  ipProto : q'.ipProto=q.ipProto
  ports : setsPorts q → q'.src.port=q.src.port ∧ q'.dst.port=q.dst.port
  dataofs : setsDataofs q → q'.dataofs=q.dataofs
  tcpFlags : q.ipProto=.tcp → q'.tcpFlags=q.tcpFlags

lemma icmpOf_cases (q : Parsed) : icmpOf q=.icmpv4 ∨ icmpOf q=.icmpv6 := by
  rw [icmpOf]
  split_ifs
  · exact .inl rfl
  · exact .inr rfl

section
variable {q q' : Parsed}

lemma alike_readSub (h : Same q q') (hp : q'.ipProto=q.ipProto) (sub : Bytes) :
    Alike (q.readSub (icmpOf q) sub) (q'.readSub (icmpOf q) sub) := by
  have hsame {r r' : Parsed} (hr : Same q r) (hr' : Same q' r') : Same r r' :=
    ⟨hr'.b.trans (h.b.trans hr.b.symm),hr'.subofs.trans (h.subofs.trans hr.subofs.symm),
      hr'.length.trans (h.length.trans hr.length.symm),
      hr'.ipVersion.trans (h.ipVersion.trans hr.ipVersion.symm),
      hr'.src.trans (h.src.trans hr.src.symm),hr'.dst.trans (h.dst.trans hr.dst.symm)⟩
  have hread := hsame (q.readSub_same (icmpOf q) sub) (q'.readSub_same (icmpOf q) sub)
  rw [Parsed.readSub,Parsed.readSub,hp] at hread ⊢
  by_cases h1 : q.ipProto=icmpOf q
  · rw [if_pos h1,if_pos h1] at hread ⊢
    refine ⟨hread,rfl,fun _ => ⟨rfl,rfl⟩,fun _ => congrArg (·+4) h.subofs,fun ht => ?_⟩
    have ht' : q.ipProto=.tcp := ht
    rcases icmpOf_cases q with hi | hi <;> cases ht'.symm.trans (h1.trans hi)
  rw [if_neg h1,if_neg h1] at hread ⊢
  by_cases h2 : q.ipProto=.tcp
  · rw [if_pos h2,if_pos h2] at hread ⊢
    exact ⟨hread,hp,fun _ => ⟨rfl,rfl⟩,fun _ => congrArg (·+tcpDataOffset sub) h.subofs, fun _ => rfl⟩
  rw [if_neg h2,if_neg h2] at hread ⊢
  by_cases h3 : q.ipProto=.udp
  · rw [if_pos h3,if_pos h3] at hread ⊢
    exact ⟨hread,hp,fun _ => ⟨rfl,rfl⟩,fun _ => congrArg (·+8) h.subofs,fun ht => absurd ht h2⟩
  rw [if_neg h3,if_neg h3] at hread ⊢
  by_cases h4 : q.ipProto=.sctp
  · rw [if_pos h4,if_pos h4] at hread ⊢
    refine ⟨hread,hp,fun _ => ⟨rfl,rfl⟩,fun hd => ?_,fun ht => absurd ht h2⟩
    rcases hd with hd | hd | hd | hd
    · exact absurd hd h1
    · exact absurd hd h2
    · exact absurd hd h3
    · cases hd.symm.trans h4
  rw [if_neg h4,if_neg h4] at hread ⊢
  have hports : ¬setsPorts q := by
    rintro (hs | hs | hs | hs)
    · exact h1 hs
    · exact h2 hs
    · exact h3 hs
    · exact h4 hs
  by_cases h5 : q.ipProto=.tsmp
  · rw [if_pos h5,if_pos h5] at hread ⊢
    exact ⟨hread,rfl,fun hs => absurd hs hports,fun _ => h.subofs,fun ht => absurd ht h2⟩
  · rw [if_neg h5,if_neg h5] at hread ⊢
    refine ⟨hread,hp,fun hs => absurd hs hports,fun hd => ?_,fun ht => absurd ht h2⟩
    rcases hd with hd | hd | hd | hd
    · exact absurd hd h1
    · exact absurd hd h2
    · exact absurd hd h3
    · exact absurd hd h5

lemma alike_readOrUnknown (h : Same q q') (hp : q'.ipProto=q.ipProto) {unreadable : Bool}
    {proto icmp : Proto} (hicmp : icmp=icmpOf q) (sub : Bytes)
    (hknown : keptProto unreadable proto≠.unknown) :
    Alike (q.readOrUnknown unreadable icmp sub) (q'.readOrUnknown unreadable icmp sub) := by
  cases unreadable with
  | true => exact absurd rfl hknown
  | false =>
    rw [hicmp]
    exact alike_readSub h hp sub

lemma alike_later (h : Same q q') {n : ℕ} (hknown : laterProto n≠.unknown) :
    Alike (q.withProto (laterProto n)) (q'.withProto (laterProto n)) := by
  rw [(laterProto_cases n).resolve_left hknown]
  have hicmp : Proto.fragment≠icmpOf q := by
    rcases icmpOf_cases q with hi | hi <;> rw [hi] <;> decide
  refine ⟨⟨h.b,h.subofs,h.length,h.ipVersion,h.src,h.dst⟩,rfl,fun hs => ?_,fun hd => ?_,fun ht => ?_⟩
  · rcases hs with hs | hs | hs | hs
    · exact absurd hs hicmp
    all_goals cases hs
  · rcases hd with hd | hd | hd | hd
    · exact absurd hd hicmp
    all_goals cases hd
  · cases ht

end

def decodedProto (b : Bytes) : Proto :=
  if 20≤b.length ∧ byteAt b 0 >>> 4=4 then proto4 b
  else if 40≤b.length ∧ byteAt b 0 >>> 4=6 then proto6 b
  else .unknown

lemma ipProto_of_decode {q r : Parsed} {b : Bytes} (h : q.decode b=.ok r) : r.ipProto=decodedProto b := by
  obtain ⟨-,hcases⟩ := (q.decode_returns b).elim h
  rw [decodedProto]
  obtain ⟨h4,hlen,hv⟩ | ⟨h6,hlen,hv⟩ | ⟨-,hu,hn4,hn6⟩ := hcases
  · rw [if_pos ⟨hlen,hv⟩]
    exact h4.ipProto
  · have hn4 : ¬(20≤b.length ∧ byteAt b 0 >>> 4=4) := by
      rw [hv]
      exact fun h => absurd h.2 (by decide)
    rw [if_neg hn4,if_pos ⟨hlen,hv⟩]
    exact h6.ipProto
  · rw [if_neg hn4,if_neg hn6]
    exact hu

section
variable {q q' : Parsed} {b : Bytes}

lemma alike_read4 (h : proto4 b≠.unknown) : Alike ((q.framed4 b).read4 b) ((q'.framed4 b).read4 b) := by
  have hframe : Same (q.framed4 b) (q'.framed4 b) := ⟨rfl,rfl,rfl,rfl,rfl,rfl⟩
  obtain ⟨hle,hhdr⟩ := known4 h
  have hn : ¬totalLen4 b<headerLen4 b := Nat.not_lt.mpr hhdr
  rw [proto4,if_neg (by omega)] at h
  rw [Parsed.read4,Parsed.read4,if_neg hn,if_neg hn]
  by_cases h0 : fragOfs4 b=0
  · rw [if_pos h0] at h
    rw [if_pos h0,if_pos h0]
    exact alike_readOrUnknown hframe rfl rfl _ h
  · rw [if_neg h0] at h
    rw [if_neg h0,if_neg h0]
    exact alike_later hframe h

lemma alike_read6 (h : proto6 b≠.unknown) : Alike ((q.framed6 b).read6 b) ((q'.framed6 b).read6 b) := by
  have hframe {n : ℕ} {proto : Proto} : Same { q.framed6 b with subofs := n, ipProto := proto }
      { q'.framed6 b with subofs := n, ipProto := proto } := ⟨rfl,rfl,rfl,rfl,rfl,rfl⟩
  obtain ⟨hle,h48⟩ := known6 h
  rw [proto6,if_neg (Nat.not_lt.mpr hle)] at h
  rw [Parsed.read6,Parsed.read6]
  by_cases hfrag : byteAt b 6=Proto.ip6FragHeader
  · have hn : ¬b.length<48 := Nat.not_lt.mpr (h48 hfrag)
    rw [if_pos hfrag,if_neg hn] at h
    rw [if_pos hfrag,if_pos hfrag,if_neg hn,if_neg hn]
    by_cases h0 : fragOfs6 b=0
    · rw [if_pos h0] at h
      rw [if_pos h0,if_pos h0]
      exact alike_readOrUnknown hframe rfl rfl _ h
    · rw [if_neg h0] at h
      rw [if_neg h0,if_neg h0]
      have hlater : Same { q.framed6 b with subofs := 48 } { q'.framed6 b with subofs := 48 } :=
        ⟨rfl,rfl,rfl,rfl,rfl,rfl⟩
      exact alike_later hlater h
  · rw [if_neg hfrag] at h
    rw [if_neg hfrag,if_neg hfrag]
    have hbase : Same (q.framed6 b) (q'.framed6 b) := ⟨rfl,rfl,rfl,rfl,rfl,rfl⟩
    exact alike_readOrUnknown hbase rfl rfl _ h

end

lemma decode_alike {q q' r r' : Parsed} {b : Bytes} (h : q.decode b=.ok r)
    (h' : q'.decode b=.ok r') (hknown : r.ipProto≠.unknown) : Alike r r' := by
  rw [ipProto_of_decode h,decodedProto] at hknown
  by_cases h4 : 20≤b.length ∧ byteAt b 0 >>> 4=4
  · rw [if_pos h4] at hknown
    rw [q.decode_eq_read4 h4.1 h4.2 (known4 hknown).1] at h
    rw [q'.decode_eq_read4 h4.1 h4.2 (known4 hknown).1] at h'
    cases h
    cases h'
    exact alike_read4 hknown
  rw [if_neg h4] at hknown
  by_cases h6 : 40≤b.length ∧ byteAt b 0 >>> 4=6
  · rw [if_pos h6] at hknown
    rw [q.decode_eq_read6 h6.1 h6.2 (known6 hknown).1] at h
    rw [q'.decode_eq_read6 h6.1 h6.2 (known6 hknown).1] at h'
    cases h
    cases h'
    exact alike_read6 hknown
  · rw [if_neg h6] at hknown
    exact absurd rfl hknown

/-- A hook that decides by what Decode sets for the packet's protocol. -/
def ReadsPacket (pm : PacketMatch) : Prop := ∀ q q', Alike q q' → pm q'=pm q

section
variable {T : BartLite} {f : Filter} {lru : FlowCache} {q q' : Parsed}

section
variable (h : Alike q q') (hin : ∀ pm ∈ f.ingressAllowHooks, ReadsPacket pm)
  (hlink : ∀ pm ∈ f.linkLocalAllowHooks, ReadsPacket pm)
include h

lemma Alike.any_hooks {hooks : List PacketMatch} (hhooks : ∀ pm ∈ hooks, ReadsPacket pm) :
    (hooks.any fun pm => pm q')=hooks.any fun pm => pm q := by
  rw [Bool.eq_iff_iff,List.any_eq_true,List.any_eq_true]
  refine exists_congr fun pm => and_congr_right fun hpm => ?_
  rw [hhooks pm hpm q q' h]

lemma Alike.icmpTypeCode : q'.icmpTypeCode=q.icmpTypeCode := by
  simp only [Parsed.icmpTypeCode,h.b,h.subofs]

lemma Alike.runInFamily (loc : Addr → Bool) (icmp : Proto) (ms : List Match)
    (hasCap : Option CapTestFunc) : Filter.runInFamily T loc icmp ms hasCap lru q' =
      Filter.runInFamily T loc icmp ms hasCap lru q := by
  have hports (hs : setsPorts q) : matchPorts T ms q' hasCap=matchPorts T ms q hasCap := by
    simp only [matchPorts,h.ipProto,h.src,h.dst,(h.ports hs).2]
  have hips : matchIPsOnly T ms q' hasCap=matchIPsOnly T ms q hasCap := by
    simp only [matchIPsOnly,h.src,h.dst]
  have hother : matchProtoAndIPsOnlyIfAllPorts T ms q'=matchProtoAndIPsOnlyIfAllPorts T ms q := by
    simp only [matchProtoAndIPsOnlyIfAllPorts,h.ipProto,h.src,h.dst]
  have hecho : q'.isEchoResponse=q.isEchoResponse := by
    simp only [isEchoResponse,h.icmpTypeCode,h.ipProto]
  have herror : q'.isError=q.isError := by
    simp only [isError,h.icmpTypeCode,h.ipProto]
  rw [Filter.runInFamily,Filter.runInFamily,h.dst,h.ipProto,hips,hother,hecho,herror]
  by_cases hloc : !loc q.dst.addr
  · rw [if_pos hloc,if_pos hloc]
  by_cases hicmp : q.ipProto=icmp
  · rw [if_pos hicmp,if_pos hicmp]
  by_cases htcp : q.ipProto=.tcp
  · have hsyn : q'.isTCPSyn=q.isTCPSyn := by
      rw [isTCPSyn,h.tcpFlags htcp]
      rfl
    rw [if_pos htcp,if_pos htcp,hsyn,hports (.inr (.inl htcp))]
  rw [if_neg htcp,if_neg htcp]
  by_cases hflow : q.ipProto=.udp ∨ q.ipProto=.sctp
  · have hs : setsPorts q := .inr (.inr hflow)
    rw [if_pos hflow,if_pos hflow,makeTuple,makeTuple,h.src,h.dst,(h.ports hs).1,(h.ports hs).2, hports hs]
  · rw [if_neg hflow,if_neg hflow]

lemma Alike.runInVersion : f.runInVersion T lru q'=f.runInVersion T lru q := by
  rw [Filter.runInVersion,Filter.runInVersion,h.ipVersion,Filter.runIn4,Filter.runIn4,
    Filter.runIn6,Filter.runIn6,h.runInFamily,h.runInFamily]

include hlink

lemma Alike.pre : f.pre q'=f.pre q := by
  rw [Filter.pre,Filter.pre,Filter.isAllowedLinkLocal,Filter.isAllowedLinkLocal,h.b,h.ipProto,h.dst, h.any_hooks hlink]

include hin in
lemma Alike.runIn : f.runIn T lru q'=f.runIn T lru q := by
  have hsettle (r : Response) : f.settle q' r=f.settle q r := by
    cases r with
    | noVerdict => simp only [Filter.settle,h.any_hooks hin]
    | _ => rfl
  simp only [Filter.runIn,h.pre hlink,h.runInVersion,hsettle]

lemma Alike.runOut : f.runOut lru q'=f.runOut lru q := by
  have hflow : Filter.updateOutboundFlowState lru q'=Filter.updateOutboundFlowState lru q := by
    rw [Filter.updateOutboundFlowState,Filter.updateOutboundFlowState,h.ipProto]
    by_cases hp : q.ipProto=.udp ∨ q.ipProto=.sctp
    · have hs : setsPorts q := .inr (.inr hp)
      rw [if_pos hp,if_pos hp,makeTuple,makeTuple,h.src,h.dst,(h.ports hs).1,(h.ports hs).2]
    · rw [if_neg hp,if_neg hp]
  simp only [Filter.runOut,h.pre hlink,hflow]

end

/-- A packet whose protocol is not known is decided by the length of its buffer, before any
address is read. -/
theorem pre_of_unknown (hp : q.ipProto=.unknown) : f.pre q = if q.b.length=0 then (.accept,none)
    else if q.b.length<20 then (.drop,some .tooShort) else (.drop,some .unknownProtocol) := by
  rw [Filter.pre,if_pos hp]

variable (hb : q'.b=q.b) (hp : q.ipProto=.unknown) (hp' : q'.ipProto=.unknown)
include hb hp hp'

lemma runIn_of_unknown :
    f.runIn T lru q'=f.runIn T lru q := by
  rw [Filter.runIn,Filter.runIn,pre_of_unknown hp,pre_of_unknown hp',hb]
  split_ifs <;> rfl

lemma runOut_of_unknown :
    f.runOut lru q'=f.runOut lru q := by
  rw [Filter.runOut,Filter.runOut,pre_of_unknown hp,pre_of_unknown hp',hb]
  split_ifs <;> rfl

end

/-- Decode followed by RunIn or RunOut depends on the packet only, whatever the Parsed held
before, for every filter whose hooks decide by what Decode sets. -/
theorem verdict_of_packet (T : BartLite) (f : Filter) (hin : ∀ pm ∈ f.ingressAllowHooks, ReadsPacket pm)
    (hlink : ∀ pm ∈ f.linkLocalAllowHooks, ReadsPacket pm) (lru : FlowCache) (b : Bytes)
    (q q' : Parsed) : ∃ r r', q.decode b=.ok r ∧ q'.decode b=.ok r' ∧
      f.runIn T lru r=f.runIn T lru r' ∧ f.runOut lru r=f.runOut lru r' := by
  obtain ⟨r,hr,hb,-⟩ := q.decode_returns b
  obtain ⟨r',hr',hb',-⟩ := q'.decode_returns b
  refine ⟨r,r',hr,hr',?_⟩
  by_cases hknown : r.ipProto=.unknown
  · have hknown' : r'.ipProto=.unknown := by
      rw [ipProto_of_decode hr',← ipProto_of_decode hr,hknown]
    have hbuf : r.b=r'.b := hb.trans hb'.symm
    exact ⟨runIn_of_unknown hbuf hknown' hknown,runOut_of_unknown hbuf hknown' hknown⟩
  · have h := decode_alike hr hr' hknown
    exact ⟨(h.runIn hin hlink).symm,(h.runOut hlink).symm⟩

def dnsHook : PacketMatch := fun q => q.ipProto=.udp && q.dst.port=53

lemma dnsHook_reads : ReadsPacket dnsHook := by
  intro q q' h
  rw [dnsHook,dnsHook,h.ipProto]
  by_cases hp : q.ipProto=.udp
  · rw [(h.ports (.inr (.inr (.inl hp)))).2]
  · simp [hp]

def hookedFilter (pm : PacketMatch) : Filter := (newAllowNone BartLite.scan 0).withHooks [pm] []

theorem verdict_of_packet_dns :
    ∃ r r', Parsed.decode {} (packet4 .udp 0 datagram)=.ok r ∧
      Parsed.decode { dst := ⟨.zero,53⟩ } (packet4 .udp 0 datagram)=.ok r' ∧
      (hookedFilter dnsHook).runIn BartLite.scan .new r = (hookedFilter dnsHook).runIn BartLite.scan .new r' ∧
      (hookedFilter dnsHook).runOut .new r=(hookedFilter dnsHook).runOut .new r' :=
  verdict_of_packet BartLite.scan (hookedFilter dnsHook)
    (fun pm hpm => List.mem_singleton.mp hpm ▸ dnsHook_reads) (fun pm hpm => by cases hpm) .new
    (packet4 .udp 0 datagram) {} { dst := ⟨.zero,53⟩ }

/-- A hook that looks at the port of a GRE packet sees the one of the packet before. -/
theorem hook_reads_stale_port :
    ∃ r r', Parsed.decode {} (packet4 .gre 0 [])=.ok r ∧
      Parsed.decode { dst := ⟨.zero,53⟩ } (packet4 .gre 0 [])=.ok r' ∧
      ((hookedFilter fun q => q.dst.port=53).runIn BartLite.scan .new r).1=.drop ∧
      ((hookedFilter fun q => q.dst.port=53).runIn BartLite.scan .new r').1=.accept :=
  ⟨_,_,rfl,rfl,by decide,by decide⟩

end TunnnejiTail.PacketFilter
