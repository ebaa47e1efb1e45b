import TunnnejiTail.Gro.Offload

/-! What a packet that passes checksum validation has to satisfy, and which packets are judged
by that. -/
namespace TunnnejiTail.Gro
open Go Packet Proto

/-- The IPv4 header with its checksum; a header shorter than the fixed part is not valid. -/
def HeaderValid4 (b : Bytes) : Prop :=
  20≤headerLen4 b ∧ headerLen4 b≤b.length ∧ Verifies (onesSum (b.take (headerLen4 b)))

def pseudo4 (b : Bytes) (p : Proto) (n : ℕ) : Bytes := (b.take 20).drop 12++[0,p]++beBytes 2 n

def pseudo6 (b : Bytes) (p : Proto) (n : ℕ) : Bytes :=
  (b.take 40).drop 8++beBytes 4 n++[0,0,0,p]

def SumValid4 (b : Bytes) : Prop :=
  Verifies (onesSum (pseudo4 b (byteAt b 9) (b.length-headerLen4 b)++b.drop (headerLen4 b)))

instance (b : Bytes) : Decidable (SumValid4 b) := inferInstanceAs (Decidable (Verifies _))

/-- The transport checksum of an IPv6 packet with the protocol p at ofs. -/
def SumValid6 (b : Bytes) (p : Proto) (ofs : ℕ) : Prop :=
  Verifies (onesSum (pseudo6 b p (b.length-ofs)++b.drop ofs))

def isFragment4 (b : Bytes) : Bool := moreFrags4 b || fragOfs4 b≠0

def NoSum4 (b : Bytes) : Prop :=
  byteAt b 9=Proto.udp ∧ headerLen4 b+8≤b.length ∧ word b (headerLen4 b+6)=0

def Intact4 (b : Bytes) : Prop :=
  HeaderValid4 b ∧ (isFragment4 b=false → Summed (byteAt b 9) → SumValid4 b ∨ NoSum4 b)

def Intact6 (b : Bytes) : Prop := ∀ p ofs, upper6 b=some (p,ofs) → Summed p → SumValid6 b p ofs

def LengthMatches (b : Bytes) : Prop :=
  byteAt b 0 >>> 4=4 ∧ totalLen4 b=b.length ∨ byteAt b 0 >>> 4=6 ∧ totalLen6 b=b.length

def Intact (b : Bytes) : Prop := if byteAt b 0 >>> 4=4 then Intact4 b else Intact6 b

variable {p : Proto}

lemma summed_keptProto {short : Bool} :
    Summed (keptProto short p) ↔ short=false ∧ Summed p := by
  cases short with
  | true => simp [keptProto,not_summed_unknown]
  | false => simp [keptProto]

lemma not_summed_laterProto (ofs : ℕ) : ¬Summed (laterProto ofs) := by
  unfold laterProto
  split_ifs
  · decide
  · decide

lemma unreadable4_summed (h : Summed p) (n : ℕ) (more : Bool) :
    unreadable4 p n more=false ↔ minHeader4 p≤n := by
  have hf : p≠Proto.fragment ∧ p≠tsmp := by
    obtain rfl | rfl := h
    · decide
    · decide
  simp [unreadable4,hf]

lemma unreadable6_summed (h : Summed p) (n : ℕ) : unreadable6 p n=false ↔ minHeader6 p≤n := by
  have hf : p≠Proto.fragment := by
    obtain rfl | rfl := h
    · decide
    · decide
  simp [unreadable6,hf]

section
variable {L : Library} {q : Parsed} {b : Bytes}

lemma onesSum_pseudo4 (h20 : 20≤b.length) (p : Proto) (n : ℕ) (data : Bytes) :
    onesSum (pseudo4 b p n++data) = onesSum ((b.take 20).drop 12++[0,p])+n%65536+onesSum data := by
  have h10 : ((b.take 20).drop 12++[0,p]).length=10 := by simp; omega
  have h12 : (pseudo4 b p n).length=12 := by rw [pseudo4,List.length_append,h10,length_beBytes]
  rw [onesSum_append data (by rw [h12]),pseudo4,onesSum_append _ (by rw [h10]),onesSum_beBytes_two]

lemma onesSum_pseudo6 (h40 : 40≤b.length) (p : Proto) {n : ℕ} (hn : n<65536) (data : Bytes) :
    onesSum (pseudo6 b p n++data) = onesSum ((b.take 40).drop 8++[0,p])+n%65536+onesSum data := by
  have h32 : ((b.take 40).drop 8).length=32 := by simp; omega
  have h36 : ((b.take 40).drop 8++beBytes 4 n).length=36 := by
    rw [List.length_append,h32,length_beBytes]
  have h40 : (pseudo6 b p n).length=40 := by
    rw [pseudo6,List.length_append,h36]
    rfl
  have hzero : onesSum [0,0,0,p]=onesSum [0,p] := by simp [onesSum]
  rw [onesSum_append data (by rw [h40]),pseudo6,onesSum_append _ (by rw [h36]),
    onesSum_append _ (by rw [h32]),onesSum_append _ (by rw [h32]),onesSum_beBytes_four hn,hzero,
    Nat.mod_eq_of_lt hn]
  omega

lemma transportSum_eq4 (hq : Decoded4 b q) (h20 : 20≤b.length) (ht : totalLen4 b≤b.length) (ofs : ℕ) :
    transportSum q ofs=onesSum (pseudo4 b q.ipProto (b.length-ofs)++b.drop ofs) := by
  have hs : asSlice q.src.addr=(b.take 16).drop 12 := by
    rw [hq.src ht,src4,asSlice_v4 (by simp; omega)]
  have hd : asSlice q.dst.addr=(b.take 20).drop 16 := by
    rw [hq.dst ht,dst4,asSlice_v4 (by simp; omega)]
  rw [onesSum_pseudo4 h20,transportSum,hs,hd,drop_take_append (by omega) (by omega),hq.buffer]

lemma transportSum_eq6 (hq : Decoded6 b q) (h40 : 40≤b.length) (ht : totalLen6 b=b.length)
    (p : Proto) {ofs : ℕ} (hofs : 40≤ofs) :
    transportSum { q with ipProto := p } ofs=onesSum (pseudo6 b p (b.length-ofs)++b.drop ofs) := by
  have hs : asSlice q.src.addr=(b.take 24).drop 8 := by
    rw [hq.src (by omega),src6,asSlice_v6 (by simp; omega)]
  have hd : asSlice q.dst.addr=(b.take 40).drop 24 := by
    rw [hq.dst (by omega),dst6,asSlice_v6 (by simp; omega)]
  have hword := (word b 4).toNat_lt
  have hn : b.length-ofs<65536 := by
    rw [totalLen6,ip6HeaderLength] at ht
    omega
  rw [onesSum_pseudo6 h40 p hn]
  simp only [transportSum,hs,hd,hq.buffer]
  rw [drop_take_append (by omega) (by omega)]

/-- What RXChecksumOffload validates in an IPv4 packet: a transport header that is cut short
escapes, and a UDP checksum of zero counts like any other. -/
def Passed4 (b : Bytes) : Prop :=
  HeaderValid4 b ∧ (isFragment4 b=false → Summed (byteAt b 9) →
    minHeader4 (byteAt b 9)≤b.length-headerLen4 b → SumValid4 b)

section
variable (ht : totalLen4 b=b.length) (hh : headerLen4 b≤b.length)
include ht hh

lemma summed_proto4 :
    Summed (proto4 b) ↔ fragOfs4 b=0 ∧ Summed (byteAt b 9) ∧ minHeader4 (byteAt b 9)≤b.length-headerLen4 b := by
  rw [proto4,if_neg (by omega)]
  by_cases h0 : fragOfs4 b=0
  · rw [if_pos h0,summed_keptProto]
    constructor
    · rintro ⟨hr,hs⟩
      exact ⟨h0,hs,(unreadable4_summed hs _ _).mp hr⟩
    · rintro ⟨_,hs,hr⟩
      exact ⟨(unreadable4_summed hs _ _).mpr hr,hs⟩
  · simp [h0,not_summed_laterProto]

lemma proto4_of_summed
    (h : Summed (proto4 b)) : proto4 b=byteAt b 9 := by
  obtain ⟨h0,hs,hr⟩ := (summed_proto4 ht hh).mp h
  rw [proto4,if_neg (by omega),if_pos h0,(unreadable4_summed hs _ _).mpr hr]
  rfl

end

lemma rxChecksumOffload_v4 (hq : Decoded4 b q) (h20 : 20≤b.length) (ht : totalLen4 b=b.length) :
    Returns (rxChecksumOffload L q) (Verdict b (Passed4 b)) := by
  have hb := hq.buffer
  rw [rxChecksumOffload,if_pos hq.ipVersion,hb,if_neg (show ¬b.length < ip4HeaderLength by
    rw [ip4HeaderLength]; omega)]
  refine (Returns.of_eq (index_of_lt (by omega))).bind fun b0 hb0 => ?_
  subst hb0
  rw [headerLen4_mul]
  have h60 := headerLen4_eq b
  refine .ite (fun hbad => .ok (.inr ⟨fun hp => ?_,rfl⟩)) fun hgood => ?_
  · have h1 := hp.1.1
    have h2 := hp.1.2.1
    rw [ip4HeaderLength] at hbad
    omega
  · rw [ip4HeaderLength] at hgood
    refine (Returns.of_eq (slice_of_le (Nat.zero_le _) (by omega))).bind fun hdr hhdr => ?_
    have hsum : (L.checksum hdr 0).toNat=fold16 (onesSum (b.take (headerLen4 b))) := by
      rw [L.checksum_eq,hhdr]
      rfl
    refine .ite (fun hbad => .ok (.inr ⟨fun hp => ?_,rfl⟩)) fun hok => ?_
    · rw [complement_ne_zero,hsum] at hbad
      exact hbad hp.1.2.2
    · rw [complement_ne_zero,hsum,not_not] at hok
      have hv : Returns (validateTransport L q ipv4ProtocolNumber (headerLen4 b) (L.more b))
          (Verdict q.b _) := validateTransport_returns (by rw [hb]; omega) _ _
      rw [hb] at hv
      refine hv.mono fun r hr => hr.congr ?_
      rw [transportSum_eq4 hq h20 (by omega),L.more_eq b h20,hq.ipProto]
      have hheader : HeaderValid4 b := ⟨by omega,by omega,hok⟩
      constructor
      · refine fun hv => ⟨hheader,fun hf hs hr => ?_⟩
        obtain ⟨hm,h0⟩ : moreFrags4 b=false ∧ fragOfs4 b=0 := by simpa [isFragment4] using hf
        have hp : Summed (proto4 b) := (summed_proto4 ht hheader.2.1).mpr ⟨h0,hs,hr⟩
        have hsum := hv hm hp
        rw [proto4_of_summed ht hheader.2.1 hp] at hsum
        exact hsum
      · rintro ⟨_,hv⟩ hm hp
        obtain ⟨h0,hs,hr⟩ := (summed_proto4 ht hheader.2.1).mp hp
        rw [proto4_of_summed ht hheader.2.1 hp]
        exact hv (by simp [isFragment4,hm,h0]) hs hr

lemma upperFrom_bounds {h p : Proto} {ofs ofs' : ℕ} (hup : upperFrom b h ofs=some (p,ofs'))
    (hofs : ofs≤b.length) : ofs≤ofs' ∧ ofs'≤b.length := by
  induction h,ofs using upperFrom.induct b with
  | case1 h ofs hopt hlen ih =>
    rw [upperFrom,if_pos hopt,dif_pos hlen] at hup
    have hb := ih hup hlen
    omega
  | case2 h ofs hopt hlen =>
    rw [upperFrom,if_pos hopt,dif_neg hlen] at hup
    cases hup
  | case3 ofs hlen hopt ih =>
    rw [upperFrom,if_neg hopt,if_pos rfl,dif_pos hlen] at hup
    have hb := ih hup hlen.1
    omega
  | case4 ofs hlen hopt =>
    rw [upperFrom,if_neg hopt,if_pos rfl,dif_neg hlen] at hup
    cases hup
  | case5 h ofs hopt hfrag =>
    rw [upperFrom,if_neg hopt,if_neg hfrag] at hup
    cases hup
    exact ⟨Nat.le_refl _,hofs⟩

lemma upperFrom_of_summed (h : Summed p ∨ p=icmpv6) (ofs : ℕ) :
    upperFrom b p ofs=some (p,ofs) := by
  have hne : isOptions p=false ∧ p≠ip6FragHeader := by
    obtain (rfl | rfl) | rfl := h
    · decide
    · decide
    · decide
  rw [upperFrom,if_neg (by simp [hne.1]),if_neg hne.2]

/-- A packet whose first header is a Fragment header of offset zero, with a whole TCP or UDP
header after it. -/
structure LeadsSegment (b : Bytes) : Prop where
  fragment : leadsFragment b
  first : fragOfs6 b=0
  summed : Summed (byteAt b 40)
  whole : minHeader6 (byteAt b 40)≤b.length-48

lemma upper6_leads (hl : leadsFragment b) (h0 : fragOfs6 b=0)
    (hp : Summed (byteAt b 40) ∨ byteAt b 40=icmpv6) :
    upper6 b=if moreFrags6 b 40 then none else some (byteAt b 40,48) := by
  obtain ⟨hfrag,h48⟩ := Bool.and_eq_true_iff.mp hl
  have hfrag : byteAt b 6=ip6FragHeader := of_decide_eq_true hfrag
  have h48 : 48≤b.length := of_decide_eq_true h48
  have hatomic : isAtomic b 40 = !moreFrags6 b 40 := by
    have h0 : word b (40+2) >>> 3=0 := h0
    simp [isAtomic,h0]
  rw [upper6,hfrag,upperFrom,if_neg (by decide),if_pos rfl]
  cases hm : moreFrags6 b 40 with
  | true => simp [hatomic,hm]
  | false =>
    rw [dif_pos ⟨h48,by rw [hatomic,hm]; rfl⟩,upperFrom_of_summed hp]
    rfl

lemma intact6_leads (hl : LeadsSegment b) : Intact6 b ↔ moreFrags6 b 40 ∨ SumValid6 b (byteAt b 40) 48 := by
  rw [Intact6,upper6_leads hl.fragment hl.first (.inl hl.summed)]
  cases moreFrags6 b 40 with
  | true => simp
  | false =>
    simp only [Bool.false_eq_true,if_false,false_or,Option.some.injEq,Prod.mk.injEq]
    constructor
    · exact fun h => h _ _ ⟨rfl,rfl⟩ hl.summed
    · rintro h p ofs ⟨rfl,rfl⟩ _
      exact h

/-- Where Decode found the protocol of an IPv6 packet: after a Fragment header or directly
after the fixed header. -/
theorem proto6_cases (ht : totalLen6 b=b.length) (hu : proto6 b≠.unknown) (hf : proto6 b≠.fragment) :
    (leadsFragment b ∧ fragOfs6 b=0 ∧ byteAt b 40=proto6 b ∧ unreadable6 (byteAt b 40) (b.length-48)=false) ∨
      byteAt b 6=proto6 b ∧ byteAt b 6≠ip6FragHeader := by
  have hkept : ∀ short p, keptProto short p≠.unknown → short=false ∧ keptProto short p=p := by
    intro short p h
    cases short with
    | true => exact absurd rfl h
    | false => exact ⟨rfl,rfl⟩
  rw [proto6,if_neg (by omega)] at hu hf ⊢
  by_cases hfrag : byteAt b 6=ip6FragHeader
  · rw [if_pos hfrag] at hu hf ⊢
    by_cases h48 : b.length<48
    · exact absurd (if_pos h48) hu
    · rw [if_neg h48] at hu hf ⊢
      by_cases h0 : fragOfs6 b=0
      · rw [if_pos h0] at hu ⊢
        obtain ⟨hs,hp⟩ := hkept _ _ hu
        exact .inl ⟨by simp [leadsFragment,hfrag]; omega,h0,hp.symm,hs⟩
      · rw [if_neg h0,laterProto] at hu hf
        split_ifs at hu hf
        · exact absurd rfl hu
        · exact absurd rfl hf
  · rw [if_neg hfrag] at hu ⊢
    exact .inr ⟨(hkept _ _ hu).2.symm,hfrag⟩

lemma LeadsSegment.proto6_eq (hl : LeadsSegment b) (ht : totalLen6 b=b.length) : proto6 b=byteAt b 40 := by
  obtain ⟨hfrag,h48⟩ := Bool.and_eq_true_iff.mp hl.fragment
  have h48 : 48≤b.length := of_decide_eq_true h48
  rw [proto6,if_neg (by omega),if_pos (of_decide_eq_true hfrag),if_neg (by omega),if_pos hl.first,
    (unreadable6_summed hl.summed _).mpr hl.whole]
  rfl

def Passed6 (b : Bytes) : Prop :=
  (LeadsSegment b → SumValid6 b (byteAt b 40) 40) ∧ (¬LeadsSegment b → Intact6 b)

lemma passed6_of_summed (ht : totalLen6 b=b.length) (hp : Summed (proto6 b)) :
    Passed6 b ↔ SumValid6 b (proto6 b) 40 := by
  have hne : proto6 b≠.unknown ∧ proto6 b≠.fragment := by
    obtain h | h := hp
    · rw [h]
      decide
    · rw [h]
      decide
  obtain ⟨hl,h0,heq,hr⟩ | ⟨heq,hfrag⟩ := proto6_cases ht hne.1 hne.2
  · rw [← heq] at hp ⊢
    have hseg : LeadsSegment b := ⟨hl,h0,hp,(unreadable6_summed hp _).mp hr⟩
    exact ⟨fun h => h.1 hseg,fun h => ⟨fun _ => h,fun hn => absurd hseg hn⟩⟩
  · have hseg : ¬LeadsSegment b := fun h =>
      hfrag (of_decide_eq_true (Bool.and_eq_true_iff.mp h.fragment).1)
    rw [← heq] at hp ⊢
    have hup : upper6 b=some (byteAt b 6,40) := upperFrom_of_summed (.inl hp) 40
    constructor
    · exact fun h => h.2 hseg _ _ hup hp
    · refine fun h => ⟨fun hl => absurd hl hseg,fun _ p ofs hup' _ => ?_⟩
      cases hup.symm.trans hup'
      exact h

lemma passed6_of_icmp (ht : totalLen6 b=b.length) (hp : proto6 b=.icmpv6) : Passed6 b := by
  have hns : ¬Summed (proto6 b) := by
    rw [hp]
    decide
  have hseg : ¬LeadsSegment b := fun h => hns (h.proto6_eq ht ▸ h.summed)
  refine ⟨fun h => absurd h hseg,fun _ p ofs hup hs => ?_⟩
  obtain ⟨hl,h0,heq,_⟩ | ⟨heq,_⟩ := proto6_cases ht (by rw [hp]; decide) (by rw [hp]; decide)
  · rw [upper6_leads hl h0 (.inr (heq.trans hp))] at hup
    split_ifs at hup
    cases hup
    exact absurd (heq ▸ hs) hns
  · rw [upper6,upperFrom_of_summed (.inr (heq.trans hp))] at hup
    cases hup
    exact absurd (heq ▸ hs) hns

lemma rxChecksumOffload_v6 (hq : Decoded6 b q) (h40 : 40≤b.length) (ht : totalLen6 b=b.length) :
    Returns (rxChecksumOffload L q) (Verdict b (Passed6 b)) := by
  obtain rfl := hq.buffer
  have hproto := hq.ipProto
  have hv (p : Proto) {ofs : ℕ} (h1 : 40≤ofs) (h2 : ofs≤q.b.length) :
      Returns (validateTransport L { q with ipProto := p } ipv6ProtocolNumber ofs false)
        (Verdict q.b (Summed p → SumValid6 q.b p ofs)) := by
    refine (validateTransport_returns (q := { q with ipProto := p }) h2 _ _).mono fun r hr => ?_
    rw [transportSum_eq6 hq h40 ht p h1] at hr
    exact hr.congr (forall_prop_of_true rfl)
  have hsame : { q with ipProto := q.ipProto } = q := rfl
  have hv40 := hsame ▸ hv q.ipProto (Nat.le_refl _) h40
  rw [rxChecksumOffload,if_neg (by rw [hq.ipVersion]; decide),if_pos hq.ipVersion,
    if_neg (show ¬q.b.length < ip6HeaderLength by rw [ip6HeaderLength]; omega)]
  have hparse := L.parseIPv6_eq q.b ht
  refine .ite (fun hother => ?_) fun hdec => ?_
  · have hseg : ¬LeadsSegment q.b := fun h => hother.2 (by
      rw [hproto,h.proto6_eq ht]
      exact h.summed)
    have hpass : Passed6 q.b ↔ Intact6 q.b :=
      ⟨fun h => h.2 hseg,fun h => ⟨fun hl => absurd hl hseg,fun _ => h⟩⟩
    refine .ite (fun hs => ?_) fun hs => hv40.mono fun r hr => hr.congr ?_
    · obtain ⟨ofs,hup,hn⟩ := (hparse _ hs _).mp rfl
      obtain ⟨h1,h2⟩ := upperFrom_bounds hup h40
      rw [hn,if_neg (by omega),show q.b.length-(q.b.length-ofs)=ofs by omega]
      refine (hv _ h1 h2).mono fun r hr => hr.congr (Iff.trans ?_ hpass.symm)
      constructor
      · intro h p ofs' hup' hs'
        cases hup.symm.trans hup'
        exact h hs
      · exact fun h _ => h _ _ hup hs
    · refine Iff.trans ?_ hpass.symm
      refine ⟨fun _ p ofs hup hs' => ?_,fun _ h => absurd h hother.2⟩
      have heq := (hparse p hs' _).mpr ⟨ofs,hup,rfl⟩
      rw [heq] at hs
      exact absurd hs' hs
  · refine hv40.mono fun r hr => hr.congr ?_
    by_cases hs : Summed q.ipProto
    · rw [passed6_of_summed ht (hproto ▸ hs),← hproto]
      simp [hs]
    · have hicmp : q.ipProto=.icmpv6 := by
        by_contra hn
        exact hdec ⟨hn,hs⟩
      simp [hs,passed6_of_icmp ht (hproto ▸ hicmp)]

lemma rxChecksumOffload_unversioned (hb : q.b=b) (hv : q.ipVersion=0)
    (hp : q.ipProto=.unknown) : Returns (rxChecksumOffload L q) (Verdict b True) := by
  rw [rxChecksumOffload,if_neg (by rw [hv]; decide),if_neg (by rw [hv]; decide)]
  refine (validateTransport_returns (Nat.zero_le _) _ _).mono fun r hr => ?_
  rw [hb] at hr
  exact hr.congr (iff_of_true (fun _ hs => absurd (hp ▸ hs) not_summed_unknown) trivial)

structure Judged (b : Bytes) : Prop where
  whole : byteAt b 0 >>> 4=4 → 20≤b.length
  sum4 : byteAt b 0 >>> 4=4 → HeaderValid4 b → isFragment4 b=false → Summed (byteAt b 9) →
    NoSum4 b ∨ b.length-headerLen4 b < minHeader4 (byteAt b 9) → SumValid4 b
  sum6 : byteAt b 0 >>> 4=6 → LeadsSegment b →
    (SumValid6 b (byteAt b 40) 40 ↔ moreFrags6 b 40 ∨ SumValid6 b (byteAt b 40) 48)

lemma passed4_iff_intact4 : (Passed4 b ↔ Intact4 b) ↔ (HeaderValid4 b → isFragment4 b=false →
    Summed (byteAt b 9) → NoSum4 b ∨ b.length-headerLen4 b < minHeader4 (byteAt b 9) → SumValid4 b) := by
  have hudp : NoSum4 b → minHeader4 (byteAt b 9)≤b.length-headerLen4 b := by
    rintro ⟨hp,hlen,_⟩
    have h8 : minHeader4 udp=8 := by decide
    rw [hp,h8]
    omega
  unfold Passed4 Intact4
  by_cases hh : HeaderValid4 b
  · by_cases hf : isFragment4 b=false
    · by_cases hs : Summed (byteAt b 9)
      · by_cases hv : SumValid4 b
        · simp [hv]
        · by_cases hn : NoSum4 b
          · simp [hh,hf,hs,hv,hn,hudp hn]
          · simp [hh,hf,hs,hv,hn]
      · simp [hs]
    · simp [hf]
  · simp [hh]

lemma passed6_iff_intact6 : (Passed6 b ↔ Intact6 b) ↔ (LeadsSegment b →
    (SumValid6 b (byteAt b 40) 40 ↔ moreFrags6 b 40 ∨ SumValid6 b (byteAt b 40) 48)) := by
  by_cases hl : LeadsSegment b
  · rw [Passed6,intact6_leads hl]
    simp [hl]
  · simp [Passed6,hl]

lemma Verdict.some_iff {P : Prop} {r : Parsed × Option PacketBuffer} (h : Verdict b P r) :
    (∃ pb, r.2=some pb ∧ pb.payload=b) ↔ P := by
  obtain ⟨hp,hr⟩ | ⟨hp,hr⟩ := h
  · exact iff_of_true (Option.map_eq_some_iff.mp hr) hp
  · rw [hr]
    exact iff_of_false (by rintro ⟨_,hr,_⟩; cases hr) hp

lemma returns_verdict_iff {P Q : Prop} {x : Except Fault (Parsed × Option PacketBuffer)}
    (h : Returns x (Verdict b P)) :
    Returns x (fun r => (∃ pb, r.2=some pb ∧ pb.payload=b) ↔ Q) ↔ (P ↔ Q) := by
  obtain ⟨r,rfl,hv⟩ := h
  constructor
  · intro h
    rw [← hv.some_iff]
    exact h.elim rfl
  · exact fun h => .ok (hv.some_iff.trans h)

/-- RXChecksumOffload always returns, and returns the packet exactly when it is intact, for
exactly these packets: no UDP checksum is left out over IPv4 and no transport header is cut
short there, unless the sum is right all the same; and in an IPv6 packet that starts with a
Fragment header of offset zero the sum from that header on happens to give the same answer. -/
theorem offload_drops_corrupt_iff {q0 : Parsed} (hdec : q0.decode b=.ok q) (hlen : LengthMatches b) :
    Returns (rxChecksumOffload L q) (fun r => (∃ pb, r.2=some pb ∧ pb.payload=b) ↔ Intact b) ↔ Judged b := by
  obtain ⟨hb,hq⟩ := (q0.decode_returns b).elim hdec
  obtain ⟨hv4,ht⟩ | ⟨hv6,ht⟩ := hlen
  · have hn6 : ¬byteAt b 0 >>> 4=6 := by
      rw [hv4]
      decide
    rw [Intact,if_pos hv4]
    obtain ⟨h4,h20,_⟩ | ⟨_,_,h6⟩ | ⟨hv,hp,h20,_⟩ := hq
    · rw [returns_verdict_iff (rxChecksumOffload_v4 h4 h20 ht),passed4_iff_intact4]
      exact ⟨fun h => ⟨fun _ => h20,fun _ => h,fun h6 => absurd h6 hn6⟩,fun h => h.sum4 hv4⟩
    · exact absurd h6 hn6
    · rw [returns_verdict_iff (rxChecksumOffload_unversioned hb hv hp)]
      refine iff_of_false (fun h => ?_) fun h => h20 ⟨h.whole hv4,hv4⟩
      have hh := (h.mp trivial).1
      exact h20 ⟨hh.1.trans hh.2.1,hv4⟩
  · have hn4 : ¬byteAt b 0 >>> 4=4 := by
      rw [hv6]
      decide
    have h40 : 40≤b.length := by
      rw [totalLen6,ip6HeaderLength] at ht
      omega
    rw [Intact,if_neg hn4]
    obtain ⟨_,_,h4⟩ | ⟨h6,_,_⟩ | ⟨_,_,_,hn⟩ := hq
    · exact absurd h4 hn4
    · rw [returns_verdict_iff (rxChecksumOffload_v6 h6 h40 ht),passed6_iff_intact6]
      exact ⟨fun h => ⟨fun h4 => absurd h4 hn4,fun h4 => absurd h4 hn4,fun _ => h⟩, fun h => h.sum6 hv6⟩
    · exact absurd ⟨h40,hv6⟩ hn

end

/-- UDP from 100.64.0.2 to 100.64.0.1, port 53 on both sides, with the given checksum. -/
def udpBytes (sum : UInt16) : Bytes :=
  [0x45,0,0,28,0,0,0,0,64,17,0xb2,0x4e,100,64,0,2,100,64,0,1,0,53,0,53,0,8]++uint16Bytes sum

def udpParsed (sum : UInt16) : Parsed where
  b := udpBytes sum
  subofs := 20
  dataofs := 28
  length := 28
  ipVersion := 4
  ipProto := .udp
  src := ⟨.v4 0x64400002#32,53⟩
  dst := ⟨.v4 0x64400001#32,53⟩

theorem offload_right_checksum : Returns (rxChecksumOffload .plain (udpParsed 0x36f1)) (fun r =>
    (∃ pb, r.2=some pb ∧ pb.payload=udpBytes 0x36f1) ↔ Intact (udpBytes 0x36f1)) :=
  (offload_drops_corrupt_iff (show Parsed.decode {} (udpBytes 0x36f1)=.ok (udpParsed 0x36f1) from rfl)
    (.inl ⟨rfl,rfl⟩)).mpr ⟨fun _ => by decide,fun _ _ _ _ _ => by decide,fun h => absurd h (by decide)⟩

/-- Without a checksum the same packet is dropped. -/
theorem udp_without_checksum_dropped : LengthMatches (udpBytes 0) ∧ Intact (udpBytes 0) ∧
      Parsed.decode {} (udpBytes 0)=.ok (udpParsed 0) ∧
      rxChecksumOffload .plain (udpParsed 0)=.ok (udpParsed 0,none) :=
  ⟨.inl ⟨rfl,rfl⟩,⟨⟨by decide,by decide,by decide⟩,fun _ _ => .inr ⟨rfl,by decide,rfl⟩⟩,rfl,rfl⟩

end TunnnejiTail.Gro
