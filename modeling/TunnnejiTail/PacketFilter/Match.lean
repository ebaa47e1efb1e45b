import TunnnejiTail.PacketFilter.IPSet
import TunnnejiTail.Packet.Parsed

/-! The rules of the packet filter and the three matchers that read them: one for packets
with ports, one for ICMP and one for the other protocols without ports. -/
namespace TunnnejiTail.PacketFilter
open Go Netip Packet List

abbrev NodeCapability := Str

abbrev CapTestFunc := Addr → NodeCapability → Bool

structure PortRange where
  first : UInt16
  last : UInt16
  deriving DecidableEq

def allPorts : PortRange := ⟨0,0xffff⟩

def PortRange.contains (pr : PortRange) (port : UInt16) : Bool := pr.first≤port && port≤pr.last

structure NetPortRange where
  net : Prefix
  ports : PortRange
  deriving DecidableEq

structure Match where
  ipProto : List Proto
  srcs : List Prefix
  srcCaps : List NodeCapability
  dsts : List NetPortRange
  deriving DecidableEq

/-- Some capability of the list is granted to the address; without a test none is. -/
def capGranted (hasCap : Option CapTestFunc) (srcAddr : Addr) (caps : List NodeCapability) : Bool :=
  match hasCap with
  | none => false
  | some test => caps.any (test srcAddr)

section
variable (T : BartLite)

/-- SrcsContains is always the function that NewContainsIPFunc makes of Srcs. -/
def Match.srcsContains (m : Match) : Addr → Bool := newContainsIPFunc T m.srcs

def srcMatches (m : Match) (srcAddr : Addr) (hasCap : Option CapTestFunc) : Bool :=
  m.srcsContains T srcAddr || capGranted hasCap srcAddr m.srcCaps

def matchPorts (ms : List Match) (q : Parsed) (hasCap : Option CapTestFunc) : Bool :=
  ms.any fun m => m.ipProto.contains q.ipProto && srcMatches T m q.src.addr hasCap &&
    m.dsts.any fun dst => dst.net.contains q.dst.addr && dst.ports.contains q.dst.port

def matchIPsOnly (ms : List Match) (q : Parsed) (hasCap : Option CapTestFunc) : Bool :=
  (ms.any fun m => m.srcsContains T q.src.addr && m.dsts.any fun dst => dst.net.contains q.dst.addr) ||
    ms.any fun m => capGranted hasCap q.src.addr m.srcCaps

def matchProtoAndIPsOnlyIfAllPorts (ms : List Match) (q : Parsed) : Bool :=
  ms.any fun m => m.ipProto.contains q.ipProto && m.srcsContains T q.src.addr &&
    m.dsts.any fun dst => dst.ports=allPorts && dst.net.contains q.dst.addr

end

def Match.restrict (keep : Addr → Bool) (m : Match) : Match :=
  { m with
    srcs := m.srcs.filter fun src => keep src.addr
    dsts := m.dsts.filter fun dst => keep dst.net.addr }

def Match.useful (m : Match) : Bool :=
  (0 < m.srcs.length || 0 < m.srcCaps.length) && 0 < m.dsts.length

def matchesFamily (ms : List Match) (keep : Addr → Bool) : List Match :=
  (ms.map (·.restrict keep)).filter (·.useful)

structure InFamily (keep : Addr → Bool) (ip : Addr) : Prop where
  valid : ip.isValid
  noZone : ip.hasZone=false
  contains : ∀ p : Prefix, p.contains ip → keep p.addr

lemma inFamily_v4 (a : BitVec 32) : InFamily Addr.is4 (.v4 a) := by
  refine ⟨rfl,rfl,fun p hp => ?_⟩
  cases p with
  | v4 => rfl
  | v6 => cases hp

lemma inFamily_v6 (a : BitVec 128) : InFamily Addr.is6 (.v6 a []) := by
  refine ⟨rfl,rfl,fun p hp => ?_⟩
  cases p with
  | v4 => cases hp
  | v6 => rfl

section
variable (T : BartLite) {keep : Addr → Bool} {ip : Addr}

lemma srcsContains_eq (m : Match) (h : InFamily keep ip) :
    m.srcsContains T ip=m.srcs.any (·.contains ip) := newContainsIPFunc_eq T m.srcs h.valid h.noZone

lemma any_filter_keep {α : Type} (l : List α) (net : α → Prefix) (P : α → Bool)
    (h : InFamily keep ip) (hP : ∀ x, P x → (net x).contains ip) :
    (l.filter fun x => keep (net x).addr).any P=l.any P := by
  rw [Bool.eq_iff_iff,any_eq_true,any_eq_true]
  apply exists_congr
  intro x
  rw [mem_filter,and_assoc]
  apply and_congr_right
  intro _
  constructor
  · intro hx
    exact hx.2
  · intro hx
    exact ⟨h.contains _ (hP x hx),hx⟩

lemma srcs_restrict (m : Match) (h : InFamily keep ip) :
    (m.restrict keep).srcs.any (·.contains ip)=m.srcs.any (·.contains ip) :=
  any_filter_keep m.srcs id _ h fun _ hp => hp

lemma dsts_restrict (m : Match) (P : NetPortRange → Bool) (h : InFamily keep ip)
    (hP : ∀ dst, P dst → dst.net.contains ip) : (m.restrict keep).dsts.any P=m.dsts.any P :=
  any_filter_keep m.dsts NetPortRange.net P h hP

variable (ms : List Match)

lemma any_matchesFamily (keep : Addr → Bool) (P : Match → Bool)
    (hP : ∀ m, P m → m.useful) : (matchesFamily ms keep).any P=ms.any fun m => P (m.restrict keep) := by
  rw [matchesFamily,any_filter,any_map]
  congr 1
  funext m
  rw [Bool.eq_iff_iff]
  simp only [Function.comp_apply,Bool.and_eq_true]
  constructor
  · intro h
    exact h.2
  · intro h
    exact ⟨hP _ h,h⟩

lemma useful_of_covers {hasCap : Option CapTestFunc} {m : Match} {src : Addr}
    {P : NetPortRange → Bool} (hsrc : srcMatches T m src hasCap) (hdst : m.dsts.any P) : m.useful := by
  have hd : m.dsts≠[] := fun h => by simp [h] at hdst
  have hs : m.srcs≠[] ∨ m.srcCaps≠[] := by
    by_contra hn
    rw [not_or,not_not,not_not] at hn
    rw [srcMatches,Match.srcsContains,hn.1,hn.2] at hsrc
    cases hasCap with
    | none => simp [capGranted,newContainsIPFunc] at hsrc
    | some test => simp [capGranted,newContainsIPFunc] at hsrc
  simpa [Match.useful,length_pos_iff] using ⟨hs,hd⟩

def Match.admitsSrc (hasCap : Option CapTestFunc) (m : Match) (src : Addr) : Bool :=
  m.srcs.any (·.contains src) || capGranted hasCap src m.srcCaps

def Match.coversDst (m : Match) (dst : Addr) : Bool := m.dsts.any (·.net.contains dst)

lemma srcMatches_restrict (hasCap : Option CapTestFunc) (m : Match) (h : InFamily keep ip) :
    srcMatches T (m.restrict keep) ip hasCap=m.admitsSrc hasCap ip := by
  rw [srcMatches,srcsContains_eq T _ h,srcs_restrict m h]
  rfl

variable {q : Parsed}
  (hasCap : Option CapTestFunc) (hs : InFamily keep q.src.addr) (hd : InFamily keep q.dst.addr)
include hs hd

lemma matchPorts_matchesFamily :
    matchPorts T (matchesFamily ms keep) q hasCap=ms.any fun m =>
      m.ipProto.contains q.ipProto && m.admitsSrc hasCap q.src.addr &&
        m.dsts.any fun dst => dst.net.contains q.dst.addr && dst.ports.contains q.dst.port := by
  rw [matchPorts,any_matchesFamily]
  · congr 1
    funext m
    rw [srcMatches_restrict T hasCap m hs,dsts_restrict m _ hd]
    · rfl
    · intro dst h
      exact (Bool.and_eq_true_iff.mp h).1
  · intro m h
    rw [Bool.and_eq_true,Bool.and_eq_true] at h
    exact useful_of_covers T h.1.2 h.2

lemma matchProtoAndIPsOnlyIfAllPorts_matchesFamily :
    matchProtoAndIPsOnlyIfAllPorts T (matchesFamily ms keep) q=ms.any fun m =>
      m.ipProto.contains q.ipProto && m.srcs.any (·.contains q.src.addr) &&
        m.dsts.any fun dst => dst.ports=allPorts && dst.net.contains q.dst.addr := by
  rw [matchProtoAndIPsOnlyIfAllPorts,any_matchesFamily]
  · congr 1
    funext m
    rw [srcsContains_eq T _ hs,srcs_restrict m hs,dsts_restrict m _ hd]
    · rfl
    · intro dst h
      exact (Bool.and_eq_true_iff.mp h).2
  · intro m h
    rw [Bool.and_eq_true,Bool.and_eq_true] at h
    exact useful_of_covers T (show srcMatches T m q.src.addr none by simp [srcMatches,h.1.2]) h.2

/-- Some destination of the match is of the family, whichever it is. -/
def Match.hasDst (keep : Addr → Bool) (m : Match) : Bool := m.dsts.any fun dst => keep dst.net.addr

lemma matchIPsOnly_matchesFamily :
    matchIPsOnly T (matchesFamily ms keep) q hasCap =
      ((ms.any fun m => m.srcs.any (·.contains q.src.addr) && m.coversDst q.dst.addr) ||
        ms.any fun m => capGranted hasCap q.src.addr m.srcCaps && m.hasDst keep) := by
  rw [matchIPsOnly,any_matchesFamily]
  · congr 1
    · congr 1
      funext m
      rw [srcsContains_eq T _ hs,srcs_restrict m hs,dsts_restrict m _ hd]
      · rfl
      · intro dst h
        exact h
    · rw [matchesFamily,any_filter,any_map]
      congr 1
      funext m
      rw [Bool.eq_iff_iff]
      simp only [Function.comp_apply,Bool.and_eq_true]
      constructor
      · intro h
        refine ⟨h.2,?_⟩
        have hpos : 0<(m.restrict keep).dsts.length :=
          of_decide_eq_true (Bool.and_eq_true_iff.mp h.1).2
        obtain ⟨dst,hdst⟩ := length_pos_iff_exists_mem.mp hpos
        exact any_eq_true.mpr ⟨dst,mem_filter.mp hdst⟩
      · intro h
        refine ⟨?_,h.1⟩
        obtain ⟨dst,hdst⟩ := any_eq_true.mp h.2
        have hmem : dst ∈ (m.restrict keep).dsts := mem_filter.mpr hdst
        have hsrc : srcMatches T (m.restrict keep) q.src.addr hasCap := by
          rw [srcMatches,Bool.or_eq_true]
          exact .inr h.1
        exact useful_of_covers T (P := fun _ => true) hsrc (any_eq_true.mpr ⟨dst,hmem,rfl⟩)
  · intro m h
    rw [Bool.and_eq_true] at h
    exact useful_of_covers T (show srcMatches T m q.src.addr none by simp [srcMatches,h.1]) h.2

end

end TunnnejiTail.PacketFilter
