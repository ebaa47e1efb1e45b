import TunnnejiTail.Tstun.Wrapper

/-! The receive path does not panic, except for one kind of packet. -/
namespace TunnnejiTail.Tstun
open Go Netip Packet PacketFilter Netstack Gro List Parsed Wrapper

def Received (b : Bytes) : Prop :=
  byteAt b 0 >>> 4=4 ∧ 20≤b.length ∧ totalLen4 b=b.length ∨ byteAt b 0 >>> 4=6 ∧ 40≤b.length ∧ totalLen6 b=b.length

structure Sane (q : Parsed) : Prop where
  length : q.length=q.b.length
  families : q.ipVersion=4 ∧ 20≤q.b.length ∧ q.src.addr.is4 ∧ q.dst.addr.is4 ∨
    q.ipVersion=6 ∧ 40≤q.b.length ∧ q.src.addr.is6 ∧ q.dst.addr.is6

lemma not_is4_of_is6 {ip : Addr} (h : ip.is6) : ip.is4=false := by
  cases ip with
  | v6 => rfl
  | _ => cases h

lemma not_is6_of_is4 {ip : Addr} (h : ip.is4) : ip.is6=false := by
  cases ip with
  | v4 => rfl
  | _ => cases h

section
variable {q : Parsed}

lemma ip4Header_returns (hv : q.ipVersion=4) (h : 20≤q.b.length) : Returns q.ip4Header := by
  rw [ip4Header,if_neg (by simp [hv])]
  exact (Returns.of_eq (uint16At_of_lt (by omega))).bind fun _ _ => .ok trivial

lemma ip6Header_returns (hv : q.ipVersion=6) (h : 40≤q.b.length) : Returns q.ip6Header := by
  rw [ip6Header,if_neg (by simp [hv])]
  exact (Returns.of_eq (slice_of_le (by omega) (by omega))).bind fun _ _ => .ok trivial

lemma length_of_isEchoRequest (h : q.isEchoRequest) : q.subofs+8≤q.b.length := by
  have hcode : q.icmpTypeCode≠none := by
    intro hn
    rw [isEchoRequest,hn] at h
    simp at h
  by_contra hlen
  exact hcode (dif_neg hlen)

lemma pongFor_returns (hq : Sane q) (h : q.isEchoRequest) : Returns (pongFor q) := by
  have hlen := length_of_isEchoRequest h
  refine .ite (fun h4 => ?_) fun _ => .ite (fun h6 => ?_) fun _ => .ok trivial
  · obtain ⟨hv,h20,_,_⟩ | ⟨_,_,_,hd⟩ := hq.families
    · refine Returns.bind (P := fun _ => True) ?_ fun hdr _ => ?_
      · refine (ip4Header_returns hv h20).bind fun _ _ => ?_
        refine (Returns.of_eq (index_of_lt (by omega))).bind fun _ _ => ?_
        exact (Returns.of_eq (index_of_lt (by omega))).bind fun _ _ => .ok trivial
      · refine (payload_returns hq.length).bind fun p _ => ?_
        exact generate_returns (fun buf => ICMP4Header.marshal_returns _ buf) fun _ _ => .ok trivial
    · rw [not_is4_of_is6 hd] at h4
      cases h4
  · obtain ⟨_,_,_,hd⟩ | ⟨hv,h40,_,_⟩ := hq.families
    · rw [not_is6_of_is4 hd] at h6
      cases h6
    · refine Returns.bind (P := fun _ => True) ?_ fun hdr _ => ?_
      · refine (ip6Header_returns hv h40).bind fun _ _ => ?_
        refine (Returns.of_eq (index_of_lt (by omega))).bind fun _ _ => ?_
        exact (Returns.of_eq (index_of_lt (by omega))).bind fun _ _ => .ok trivial
      · refine (payload_returns hq.length).bind fun p _ => ?_
        refine generate_returns (fun buf => ICMP6Header.marshal_returns _ buf) fun buf hbuf => ?_
        have h44 : ICMP6Header.len=44 := rfl
        exact (ICMP6Header.writeChecksum_returns (by omega)).mono fun _ _ => trivial

variable {Handler : Type}

lemma injectInbound_returns (ns : PacketImpl Handler) (hq : Sane q) :
    Returns (ns.injectInbound q) := by
  refine .guard trivial fun _ => .guard trivial fun _ =>
    .guard trivial fun _ => ?_
  cases hp : ns.shouldHandlePing q with
  | none => exact .ok trivial
  | some ip =>
    have hecho : q.isEchoRequest := by
      by_contra hn
      rw [PacketImpl.shouldHandlePing,if_pos (by simp [hn])] at hp
      cases hp
    exact (pongFor_returns hq hecho).bind fun _ _ => .ok trivial

variable (T : BartLite) (L : Library) (W : Wrapper Handler)

lemma pong_generate_returns {h : TSMPPongReply} (hdata : h.data.length=8) :
    Returns (TSMPPongReply.generate h) :=
  generate_returns (fun buf => TSMPPongReply.marshal_returns hdata buf) fun _ _ => .ok trivial

lemma injectOutboundPong_returns (hq : Sane q) {data : Bytes} (hdata : data.length=8) :
    Returns (W.injectOutboundPong q data) fun es => ∃ pkt, es=[.injectOutbound pkt] := by
  obtain ⟨hv,h20,_⟩ | ⟨hv,h40,_⟩ := hq.families
  · rw [injectOutboundPong,if_pos hv]
    refine (ip4Header_returns hv h20).bind fun h4 _ => ?_
    exact (pong_generate_returns hdata).bind fun pkt _ => .ok ⟨pkt,rfl⟩
  · rw [injectOutboundPong,if_neg (by rw [hv]; decide),if_pos hv]
    refine (ip6Header_returns hv h40).bind fun h6 _ => ?_
    exact (pong_generate_returns hdata).bind fun pkt _ => .ok ⟨pkt,rfl⟩

lemma noticeTSMP_returns (hq : Sane q) : Returns (noticeTSMP q) fun r => ∀ e ∈ r.2, e.isNotice := by
  refine (asTSMPDiscoAdvertisement_returns hq.length).bind fun advert _ => ?_
  cases advert with
  | some a => exact .ok (by simp [WriteEvent.isNotice])
  | none =>
    refine (asTSMPPong_returns hq.length).bind fun pong _ => ?_
    cases pong with
    | some p => exact .ok (by simp [WriteEvent.isNotice])
    | none =>
      refine (asTailscaleRejectedHeader_returns hq.length).bind fun rj _ => ?_
      cases rj with
      | none => exact .ok (by simp)
      | some rj =>
        refine .ok fun e he => ?_
        split_ifs at he
        · rw [mem_singleton.mp he]
          rfl
        · cases he

lemma handleTSMP_returns (hq : Sane q) : Returns (W.handleTSMP q) := by
  refine .ite (fun _ => ?_) fun _ => .ok trivial
  refine (asTSMPPing_returns hq.length).bind fun ping hping => ?_
  cases ping with
  | some data => exact (injectOutboundPong_returns W hq (hping data rfl)).bind fun _ _ => .ok trivial
  | none => exact (noticeTSMP_returns hq).mono fun _ _ => trivial

lemma isSelfDisco_returns (hq : Sane q) : Returns (W.isSelfDisco q) :=
  .guard trivial fun _ => (payload_returns hq.length).bind fun _ _ => .ok trivial

lemma preFilter_returns (hq : Sane q) : Returns (W.preFilter q) := by
  refine .ite (fun _ => .ite (fun _ => ?_) fun _ => .ok trivial) fun _ => .ok trivial
  refine (asTailscaleRejectedHeader_returns hq.length).bind fun rj _ => ?_
  cases rj with
  | some rj => exact .ok trivial
  | none => exact .ok trivial

lemma sendRejection_returns (filt : Filter) (hq : Sane q) :
    Returns (W.sendRejection filt q) := by
  refine .ite (fun hc => ?_) fun _ => .ok trivial
  obtain ⟨_,_,hs,hd⟩ | ⟨h6,_⟩ := hq.families
  · refine Returns.bind (P := fun _ => True) ?_ fun _ _ => .ok trivial
    refine generate_returns (fun buf => TailscaleRejectedHeader.marshal_returns (fun _ => hd) ?_ buf)
      fun _ _ => .ok trivial
    intro h6
    rw [rejection,not_is6_of_is4 hs] at h6
    cases h6
  · rw [hc.1] at h6
    cases h6

lemma handOver_returns (q : Parsed) (es : List InboundEvent) :
    Returns (W.handOver L q es) := by
  unfold handOver
  split
  · exact .ite (fun _ => (rxChecksumOffload_safe L q).bind fun _ _ => .ok trivial) fun _ => .ok trivial
  · exact .ok trivial
  · exact .ok trivial

lemma toNetstack_returns (hq : Sane q) (s : Shared) : Returns (W.toNetstack L q s) := by
  unfold toNetstack
  split
  · exact .ok trivial
  · refine (injectInbound_returns _ hq).bind fun r _ => ?_
    exact (handOver_returns L W q r.2).bind fun _ _ => .ok trivial

lemma filtered_returns (hq : Sane q) (s : Shared) : Returns (W.filtered T L q s) := by
  unfold Wrapper.filtered
  cases W.filterFor q with
  | none => exact .ok trivial
  | some filt =>
    refine .ite (fun _ => ?_) fun _ => ?_
    · exact (sendRejection_returns W filt hq).bind fun _ _ => .ok trivial
    · cases W.taken q with
      | some res => exact .ok trivial
      | none => exact toNetstack_returns L W hq _

lemma filterPacketInboundFromWireGuard_returns (hq : Sane q) (s : Shared) :
    Returns (W.filterPacketInboundFromWireGuard T L q s) := by
  refine (handleTSMP_returns W hq).bind fun r _ => ?_
  obtain ⟨stop,events⟩ := r
  cases stop with
  | some res => exact .ok trivial
  | none =>
    refine Returns.bind (P := fun _ => True) ?_ fun _ _ => .ok trivial
    refine .guard trivial fun _ => ?_
    refine (isSelfDisco_returns W hq).bind fun b _ => .guard trivial fun _ => ?_
    refine (preFilter_returns W hq).bind fun res _ => .guard trivial fun _ => ?_
    exact filtered_returns T L W hq s

/-- The packets whose translation panics: the IHL field puts the transport header past the end
of an IPv4 packet, and the destination is a masquerade address for its source. -/
structure Overruns (pc : Option PeerConfigTable) (b : Bytes) : Prop where
  version : byteAt b 0 >>> 4=4
  header : b.length<headerLen4 b
  mapped : mapDstIP pc (.v4 (src4 b)) (.v4 (dst4 b))≠.v4 (dst4 b)

lemma sane_of_rewritten {q' : Parsed} (h : Rewritten q q') (hq : Sane q) : Sane q' := by
  obtain ⟨hlen,heq⟩ := h
  have h1 : q'.length=q.length := by rw [heq]
  have h2 : q'.ipVersion=q.ipVersion := by rw [heq]
  have h3 : q'.src=q.src := by rw [heq]
  have h4 : q'.dst=q.dst := by rw [heq]
  refine ⟨by rw [h1,hlen,hq.length],?_⟩
  rw [h2,h3,h4,hlen]
  exact hq.families

lemma dnat_v4 {b : Bytes} (hq : Decoded4 b q) (h20 : 20≤b.length) (ht : totalLen4 b=b.length)
    (hv : byteAt b 0 >>> 4=4) : ¬Overruns W.peerConfig b ∧ Returns (dnat W.peerConfig q) Sane ∨
      Overruns W.peerConfig b ∧ dnat W.peerConfig q=.error .sliceBounds := by
  obtain rfl := hq.buffer
  have hsrc := hq.src (by omega)
  have hdst := hq.dst (by omega)
  have hsub := hq.subofs (by omega)
  have hsane : ∀ n, Sane { q with dst := withIP q.dst (.v4 n) } := fun n =>
    ⟨hq.length.trans ht,.inl ⟨hq.ipVersion,h20,by rw [hsrc]; rfl,rfl⟩⟩
  obtain ⟨n,hn⟩ := mapDstIP_v4 W.peerConfig (.v4 (src4 q.b)) (dst4 q.b)
  by_cases hmap : mapDstIP W.peerConfig (.v4 (src4 q.b)) (.v4 (dst4 q.b))=.v4 (dst4 q.b)
  · refine .inl ⟨fun h => h.mapped hmap,q,?_,hq.length.trans ht,.inl ⟨hq.ipVersion,h20,?_,?_⟩⟩
    · rw [dnat,hsrc,hdst]
      exact if_neg (not_not.mpr hmap)
    · rw [hsrc]
      rfl
    · rw [hdst]
      rfl
  · have hdnat : dnat W.peerConfig q =
        updateAddr 16 24 { q with dst := withIP q.dst (.v4 n) } (.v4 (dst4 q.b)) (.v4 n) := by
      rw [dnat,hsrc,hdst]
      refine (if_pos hmap).trans ?_
      rw [hn,updateDstAddr,hdst]
    rw [hdnat]
    by_cases hle : headerLen4 q.b≤q.b.length
    · refine .inl ⟨fun h => Nat.not_lt.mpr hle h.header,?_⟩
      refine (updateAddr_v4_returns ?_ ?_ (by decide) ?_ _ _).mono fun q' h =>
        sane_of_rewritten h (hsane n)
      · exact hq.ipVersion
      · exact h20
      · exact hsub.trans_le hle
    · refine .inr ⟨⟨hv,by omega,hmap⟩,updateAddr_v4_panics ?_ ?_ (by decide) ?_ _ _⟩
      · exact hq.ipVersion
      · exact h20
      · rw [← Nat.not_le]
        exact fun h => hle (hsub ▸ h)

lemma dnat_v6 {b : Bytes} (hq : Decoded6 b q) (h40 : 40≤b.length) (ht : totalLen6 b=b.length) :
    Returns (dnat W.peerConfig q) Sane := by
  obtain rfl := hq.buffer
  have hsrc := hq.src (by omega)
  have hdst := hq.dst (by omega)
  have hsub : q.subofs≤q.b.length := by
    rw [hq.subofs (by omega)]
    split_ifs with hl
    · exact of_decide_eq_true (Bool.and_eq_true_iff.mp hl).2
    · exact h40
  have hsane : ∀ n zone, Sane { q with dst := withIP q.dst (.v6 n zone) } := fun n zone =>
    ⟨hq.length.trans ht,.inr ⟨hq.ipVersion,h40,by rw [hsrc]; rfl,rfl⟩⟩
  obtain ⟨n,zone,hn⟩ := mapDstIP_v6 W.peerConfig (.v6 (src6 q.b) []) (dst6 q.b) []
  rw [dnat,hsrc,hdst]
  refine .ite (fun _ => ?_) fun _ => .ok ⟨hq.length.trans ht,.inr ⟨hq.ipVersion,h40,?_,?_⟩⟩
  · rw [hn,updateDstAddr]
    refine (updateAddr_v6_returns ?_ ?_ (by decide) ?_ _ _ _).mono fun q' h =>
      sane_of_rewritten h (hsane n zone)
    · exact hq.ipVersion
    · exact h40
    · exact hsub
  · rw [hsrc]
    rfl
  · rw [hdst]
    rfl

lemma writeOne_returns (st : Batch) {b : Bytes} (hb : Received b) :
    ¬Overruns W.peerConfig b ∧ Returns (W.writeOne T L st b) ∨
      Overruns W.peerConfig b ∧ W.writeOne T L st b=.error .sliceBounds := by
  obtain ⟨q,hdec,_,hq⟩ := st.q.decode_returns b
  have hrest : ∀ {q'}, Sane q' → Returns (do
      if W.disableFilter then return { st with q := q', buffs := st.buffs++[q'.b] }
      else do
        let h ← W.filterPacketInboundFromWireGuard T L q' st.shared
        return st.add h) := fun hs =>
    .guard trivial fun _ =>
      (filterPacketInboundFromWireGuard_returns T L W hs st.shared).bind fun _ _ => .ok trivial
  rw [writeOne,hdec]
  obtain ⟨hv,h20,ht⟩ | ⟨hv,h40,ht⟩ := hb
  · obtain ⟨h4,_⟩ | ⟨_,_,h6⟩ | ⟨_,_,hn,_⟩ := hq
    · obtain ⟨hover,hdnat⟩ | ⟨hover,hdnat⟩ := dnat_v4 W h4 h20 ht hv
      · exact .inl ⟨hover,hdnat.bind fun q' hs => hrest hs⟩
      · refine .inr ⟨hover,?_⟩
        change (dnat W.peerConfig q >>= _)=_
        rw [hdnat]
        rfl
    · rw [hv] at h6
      cases h6
    · exact absurd ⟨h20,hv⟩ hn
  · have hover : ¬Overruns W.peerConfig b := fun h => by
      have h4 := h.version
      rw [hv] at h4
      cases h4
    obtain ⟨_,_,h4⟩ | ⟨h6,_⟩ | ⟨_,_,_,hn⟩ := hq
    · rw [hv] at h4
      cases h4
    · exact .inl ⟨hover,(dnat_v6 W h6 h40 ht).bind fun q' hs => hrest hs⟩
    · exact absurd ⟨h40,hv⟩ hn

end

/-- A batch of received packets is processed without a panic, whatever the pooled Parsed held,
exactly when no packet of it overruns. -/
theorem write_returns_iff {Handler : Type} {T : BartLite} {L : Library} {W : Wrapper Handler}
    {st : Batch} {buffs : List Bytes} (hbuffs : ∀ b ∈ buffs, Received b) :
    Returns (W.write T L st buffs) ↔ ∀ b ∈ buffs, ¬Overruns W.peerConfig b := by
  induction buffs generalizing st with
  | nil => exact iff_of_true (.ok trivial) fun _ h => nomatch h
  | cons b buffs ih =>
    rw [forall_mem_cons] at hbuffs ⊢
    rw [Wrapper.write,foldlM_cons]
    obtain ⟨hover,st',hst,_⟩ | ⟨hover,herr⟩ := writeOne_returns T L W st hbuffs.1
    · rw [hst]
      exact (ih hbuffs.2).trans ⟨fun h => ⟨hover,h⟩,fun h => h.2⟩
    · rw [herr]
      refine iff_of_false ?_ fun h => h.1 hover
      rintro ⟨_,h,_⟩
      cases h

/-- This node is 100.64.0.1, and 100.64.9.9 to its only peer 100.64.0.2. -/
def masqConfig : WGConfig where
  addresses := [.v4 0x64400001 (bits4 32)]
  peers := [⟨[.v4 0x64400002 (bits4 32)],some (.v4 0x64400909),none,false⟩]

/-- A wrapper for that configuration without netstack, where the filter drops everything. -/
def masqWrapper : Wrapper Unit where
  disableFilter := false
  disableTSMPRejected := false
  peerConfig := peerConfigTableFromWGConfig
    (fun entries ip => (entries.find? fun e => e.1.contains ip).map (·.2)) (some masqConfig)
  filter := some (newAllowNone .scan 0)
  jailedFilter := some (newAllowNone .scan 0)
  peerAPIPort := none
  discoKey := []
  trackOpen := true
  appConnector := none
  ns := none
  dispatcher := false

def emptyBatch : Batch := ⟨{},⟨fun _ => FlowCache.new,[]⟩,[],[]⟩

/-- A header without payload from 100.64.0.2 to 100.64.9.9, with the given first byte. -/
def headerBytes (b0 : UInt8) : Bytes := [b0,0,0,20,0,0,0,0,64,99,0,0,100,64,0,2,100,64,9,9]

theorem write_returns_whole_header :
    Returns (masqWrapper.write .scan .plain emptyBatch [headerBytes 0x45]) :=
  (write_returns_iff (forall_mem_singleton.mpr (.inl ⟨rfl,by decide,rfl⟩))).mpr
    (forall_mem_singleton.mpr fun h => absurd h.header (by decide))

/-- A header length of 60 bytes in a packet of 20 bytes. -/
theorem long_header_panics : Received (headerBytes 0x4F) ∧
      masqWrapper.write .scan .plain emptyBatch [headerBytes 0x4F]=.error .sliceBounds :=
  ⟨.inl ⟨rfl,by decide,rfl⟩,rfl⟩

end TunnnejiTail.Tstun
