import TunnnejiTail.Go.Loops
import TunnnejiTail.Packet.Translate

/-! The zero checksum of UDP, which says that there is none, over a sequence of address
rewrites: when it stays zero, and when a checksum becomes zero. -/
namespace TunnnejiTail.Packet
open Go Netip List Parsed

/-- The states that a packet goes through when its addresses are rewritten one after another. -/
def rewrites : Parsed → List (Side × Addr) → Except Fault (List Parsed)
  | _,[] => .ok []
  | q,(s,a)::rest => do
    let q' ← s.update q a
    let qs ← rewrites q' rest
    return q'::qs

def EveryStep (P : Side → Parsed → Addr → Prop) : Parsed → List (Side × Addr) → Prop
  | _,[] => True
  | q,(s,a)::rest => P s q a ∧ ∀ q', s.update q a=.ok q' → EveryStep P q' rest

/-- The words of the old address leave nothing in the sum: over IPv4 all of them go from all ones
to zero, over IPv6 some may also stay. -/
def Vanishes : Addr → Addr → Prop
  | .v4 old,.v4 new => Emptied (beBytes 4 old.toNat) (beBytes 4 new.toNat)
  | .v6 old _,.v6 new _ => Unmoved (beBytes 16 old.toNat) (beBytes 16 new.toNat)
  | _,_ => False

/-- A zero checksum field needs an address of the same sum, and another one an address for which
the checksum does not come out as zero. -/
def SafeForZero (s : Side) (q : Parsed) (a : Addr) : Prop :=
  if q.sumField=0 then addrSum a%65535=addrSum (s.addr q)%65535
  else (q.sumField.toNat+addrSum (s.addr q))%65535≠addrSum a%65535 ∨ q.sumField=0xffff ∧ Vanishes (s.addr q) a

lemma zero_iff_zero {f f' : UInt16} {old new : ℕ} {vanishes : Prop}
    (h : f'=0 ↔ (f.toNat+old)%65535=new%65535 ∧ ¬(f=0xffff ∧ vanishes)) :
    (f'=0 ↔ f=0) ↔ if f=0 then new%65535=old%65535
      else (f.toNat+old)%65535≠new%65535 ∨ f=0xffff ∧ vanishes := by
  by_cases h0 : f=0
  · have hfull : f≠0xffff := by
      rw [h0]
      decide
    have hsum : f.toNat+old=old := by
      rw [h0]
      exact Nat.zero_add old
    rw [if_pos h0,h,iff_true_right h0,hsum,and_iff_left fun hn => hfull hn.1]
    exact eq_comm
  · rw [if_neg h0,h,iff_false_right h0,not_and_or,not_not]

/-- A UDP packet whose addresses are those of its header, in either family. -/
def PlacedUDP (q : Parsed) : Prop := (Placed4 q ∨ Placed6 q) ∧ q.ipProto=.udp

variable {q : Parsed}

lemma Placed4.sumField_eq_zero_iff (h : Placed4 q) (hudp : q.ipProto=.udp)
    (s : Side) (a : BitVec 32) :
    ((s.rewritten4 q a).sumField=0 ↔ q.sumField=0) ↔ SafeForZero s q (.v4 a) := by
  have hold := h.length_old s
  have hzero := updatedSum_eq_zero_iff (hold.trans (length_beBytes 4 a.toNat).symm) (by rw [hold])
    (by rw [hold]; decide) q.sumField
  rw [h.sumField_rewritten s a,SafeForZero,nextSum4,hudp,if_neg (by decide),h.addr s]
  rw [← s.beBytes_addr4 h.long] at hzero ⊢
  exact zero_iff_zero hzero

lemma Placed6.sumField_eq_zero_iff (h : Placed6 q) (hudp : q.ipProto=.udp)
    (s : Side) (a : BitVec 128) (zone : Str) :
    ((s.rewritten6 q a zone).sumField=0 ↔ q.sumField=0) ↔ SafeForZero s q (.v6 a zone) := by
  obtain ⟨oldZone,haddr⟩ := h.addr s
  have hold := h.length_old s
  have hzero := updatedSum6_eq_zero_iff (hold.trans (length_beBytes 16 a.toNat).symm)
    (by rw [hold]) q.sumField
  have hproto : ¬(q.ipProto=.icmpv6 ∧ q.b.length-q.subofs < minICMPv6Size) := by
    rw [hudp]
    exact fun hp => absurd hp.1 (by decide)
  rw [h.sumField_rewritten s a,SafeForZero,nextSum6,if_neg hproto,haddr]
  rw [← s.beBytes_addr6 h.long] at hzero ⊢
  exact zero_iff_zero hzero

lemma PlacedUDP.step (h : PlacedUDP q) (s : Side) {a : Addr} (ha : SameFamily q a) :
    ∃ q', s.update q a=.ok q' ∧ PlacedUDP q' ∧ q'.ipVersion=q.ipVersion ∧
      ((q'.sumField=0 ↔ q.sumField=0) ↔ SafeForZero s q a) := by
  obtain ⟨h4 | h6,hudp⟩ := h
  · obtain ⟨-,ha⟩ | ⟨hv,-⟩ := ha
    · cases a with
      | zero => cases ha
      | v6 a zone => cases ha
      | v4 a =>
        refine ⟨_,h4.update_eq s a,⟨.inl (h4.rewritten s a),?_⟩,?_,h4.sumField_eq_zero_iff hudp s a⟩
        · rw [s.rewritten4_ipProto,hudp]
        · rw [s.rewritten4_ipVersion]
    · rw [h4.ipVersion] at hv
      cases hv
  · obtain ⟨hv,-⟩ | ⟨-,ha⟩ := ha
    · rw [h6.ipVersion] at hv
      cases hv
    · cases a with
      | zero => cases ha
      | v4 a => cases ha
      | v6 a zone =>
        refine ⟨_,h6.update_eq s a zone,⟨.inr (h6.rewritten s a zone),?_⟩,?_, h6.sumField_eq_zero_iff hudp s a zone⟩
        · rw [s.rewritten6_ipProto,hudp]
        · rw [s.rewritten6_ipVersion]

/-- A sequence of rewrites goes through, and leaves zero as it is in every state exactly if
every step is safe. -/
theorem PlacedUDP.run {q : Parsed} (h : PlacedUDP q) {steps : List (Side × Addr)}
    (hfam : ∀ step ∈ steps, SameFamily q step.2) : ∃ qs, rewrites q steps=.ok qs ∧
      ((∀ q' ∈ qs, (q'.sumField=0 ↔ q.sumField=0)) ↔ EveryStep SafeForZero q steps) := by
  induction steps generalizing q with
  | nil => exact ⟨[],rfl,iff_of_true (fun q' hq' => by cases hq') trivial⟩
  | cons step rest ih =>
    obtain ⟨q',hq',hplaced,hver,hsafe⟩ := h.step step.1 (hfam step mem_cons_self)
    have hfam' : ∀ step ∈ rest, SameFamily q' step.2 := fun step hstep => by
      rw [SameFamily,hver]
      exact hfam step (mem_cons_of_mem _ hstep)
    obtain ⟨qs,hqs,hrun⟩ := ih hplaced hfam'
    refine ⟨q'::qs,?_,?_⟩
    · rw [rewrites,hq']
      exact bind_of_ok hqs rfl
    rw [EveryStep,hq',forall_mem_cons,hsafe]
    refine and_congr_right fun hs => ?_
    rw [hsafe.mpr hs] at hrun
    rw [hrun]
    constructor
    · intro hrest q'' hq''
      cases hq''
      exact hrest
    · intro hrest
      exact hrest q' rfl

/-- Over a sequence of address rewrites of a UDP packet the checksum field is zero in every state
exactly as it was at the start, if and only if every step is safe for it. -/
theorem zero_sum_kept_iff {q0 q : Parsed} {b : Bytes} (hdec : q0.decode b=.ok q)
    (hudp : q.ipProto=.udp) (hhdr : q.ipVersion=4 → 20≤headerLen4 b)
    (steps : List (Side × Addr)) (hfam : ∀ step ∈ steps, SameFamily q step.2) :
    ∃ qs, rewrites q steps=.ok qs ∧ ((∀ q' ∈ qs, (q'.sumField=0 ↔ q.sumField=0)) ↔ EveryStep SafeForZero q steps) := by
  obtain ⟨-,hcases⟩ := (q0.decode_returns b).elim hdec
  obtain ⟨h4,-⟩ | ⟨h6,-⟩ | ⟨-,hu,-⟩ := hcases
  · have hplaced := placed4_of_decode hdec h4.ipVersion (.inr (.inl hudp)) (hhdr h4.ipVersion)
    exact PlacedUDP.run ⟨.inl hplaced,hudp⟩ hfam
  · have hplaced := placed6_of_decode hdec h6.ipVersion (.inr (.inl hudp))
    exact PlacedUDP.run ⟨.inr hplaced,hudp⟩ hfam
  · rw [hudp] at hu
    cases hu

theorem zero_sum_kept_datagram : ∃ q q', Parsed.decode {} summedDatagram=.ok q ∧
    q.sumField≠0 ∧ rewrites q [(.src,.v4 0x64400001)]=.ok [q'] ∧ q'.sumField≠0 := by
  obtain ⟨q,hq,hfield,h4,hudp,hsafe⟩ : ∃ q, Parsed.decode {} summedDatagram=.ok q ∧
      q.sumField≠0 ∧ q.ipVersion=4 ∧ q.ipProto=.udp ∧
      (q.sumField.toNat+addrSum (Side.src.addr q))%65535≠addrSum (.v4 0x64400001)%65535 :=
    ⟨_,rfl,by decide,by decide,by decide,by decide⟩
  have hhdr : 20≤headerLen4 summedDatagram := by decide
  obtain ⟨qs,hqs,hiff⟩ := zero_sum_kept_iff hq hudp (fun _ => hhdr)
    [(.src,.v4 0x64400001)] (by simp [SameFamily,h4,Addr.is4])
  have hkept := hiff.mpr ⟨by rw [SafeForZero,if_neg hfield]; exact .inl hsafe,fun _ _ => trivial⟩
  obtain ⟨q',-,hrest⟩ := bind_eq_ok.mp hqs
  cases hrest
  exact ⟨q,q',hq,hfield,hqs,fun h0 => hfield ((hkept q' mem_cons_self).mp h0)⟩

/-- A datagram without a checksum gets one that is wrong, and one with a checksum loses it. -/
theorem zero_sum_not_kept : (∃ q q', Parsed.decode {} (packet4 .udp 0 datagram)=.ok q ∧ q.ipProto=.udp ∧
      q.sumField=0 ∧ Side.src.update q (.v4 0x0a000001)=.ok q' ∧ q'.sumField≠0) ∧
    ∃ q q', Parsed.decode {} summedDatagram=.ok q ∧ q.ipProto=.udp ∧ q.sumField≠0 ∧
      SumsVerify q 8 ∧ Side.src.update q (.v4 0x64406e74)=.ok q' ∧ q'.sumField=0 := by
  constructor
  · obtain ⟨q,hq,h0,h4,hudp,hsafe⟩ : ∃ q, Parsed.decode {} (packet4 .udp 0 datagram)=.ok q ∧
        q.sumField=0 ∧ q.ipVersion=4 ∧ q.ipProto=.udp ∧
        addrSum (.v4 0x0a000001)%65535≠addrSum (Side.src.addr q)%65535 :=
      ⟨_,rfl,by decide,by decide,by decide,by decide⟩
    have hplaced : PlacedUDP q :=
      ⟨.inl (placed4_of_decode hq h4 (.inr (.inl hudp)) (by decide)),hudp⟩
    obtain ⟨q',hq',-,-,hiff⟩ := hplaced.step .src (a := .v4 0x0a000001) (.inl ⟨h4,rfl⟩)
    rw [SafeForZero,if_pos h0,iff_true_right h0] at hiff
    exact ⟨q,q',hq,hudp,h0,hq',fun h => hsafe (hiff.mp h)⟩
  · obtain ⟨q,hq,h0,h4,hudp,hv,hfull,hsafe⟩ : ∃ q, Parsed.decode {} summedDatagram=.ok q ∧
        q.sumField≠0 ∧ q.ipVersion=4 ∧ q.ipProto=.udp ∧ SumsVerify q 8 ∧
        q.sumField≠0xffff ∧
        (q.sumField.toNat+addrSum (Side.src.addr q))%65535=addrSum (.v4 0x64406e74)%65535 :=
      ⟨_,rfl,by decide,by decide,by decide,by decide,by decide,by decide⟩
    have hplaced : PlacedUDP q :=
      ⟨.inl (placed4_of_decode hq h4 (.inr (.inl hudp)) (by decide)),hudp⟩
    obtain ⟨q',hq',-,-,hiff⟩ := hplaced.step .src (a := .v4 0x64406e74) (.inl ⟨h4,rfl⟩)
    rw [SafeForZero,if_neg h0,iff_false_right h0] at hiff
    refine ⟨q,q',hq,hudp,h0,hv,hq',by_contra fun hne => ?_⟩
    exact (hiff.mp hne).elim (fun h => h hsafe) fun h => hfull h.1

end TunnnejiTail.Packet
