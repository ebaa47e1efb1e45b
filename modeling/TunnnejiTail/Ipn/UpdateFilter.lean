import TunnnejiTail.Go.Maps
import TunnnejiTail.PacketFilter.Filter

/-! How the backend builds the packet filter of the engine from the netmap. The sets of local
and logged networks are given; building them is netipx's work. -/
namespace TunnnejiTail.Ipn
open Go Netip PacketFilter Prefix

abbrev NodeID := ℕ

structure Node where
  id : NodeID
  addresses : List Prefix
  allowedIPs : List Prefix
  unsignedPeerAPIOnly : Bool
  capMap : List NodeCapability
  deriving DecidableEq

def Node.hasCap (n : Node) (cap : NodeCapability) : Bool := cap ∈ n.capMap

structure NetworkMap where
  selfNode : Option Node
  peers : List Node
  packetFilter : List Match
  deriving DecidableEq

structure NodeBackend where
  netMap : Option NetworkMap
  nodeByAddr : GoMap Addr NodeID
  peers : GoMap NodeID Node
  packetFilter : List Match

def addNodeAddr (m : GoMap Addr NodeID) (n : Node) : GoMap Addr NodeID :=
  n.addresses.foldl (fun m ipp => if ipp.isSingleIP then m.insert ipp.addr n.id else m) m

namespace NodeBackend

/-- SetNetMap, as far as the packet filter reads its results. -/
def setNetMap : Option NetworkMap → NodeBackend
  | none => ⟨none,∅,∅,[]⟩
  | some nm => {
      netMap := some nm
      nodeByAddr := (nm.selfNode.toList++nm.peers).foldl addNodeAddr ∅
      peers := nm.peers.foldl (fun m p => m.insert p.id p) ∅
      packetFilter := nm.packetFilter }

def nodeByID (nb : NodeBackend) (id : NodeID) : Option Node :=
  match nb.netMap.bind NetworkMap.selfNode with
  | some self => if self.id=id then some self else nb.peers.lookup id
  | none => nb.peers.lookup id

end NodeBackend

def srcIPHasCapForFilter (nb : NodeBackend) (srcIP : Addr) (cap : NodeCapability) : Bool :=
  if cap=[] then false
  else match nb.nodeByAddr.lookup srcIP with
    | none => false
    | some nodeID =>
      match nb.nodeByID nodeID with
      | none => false
      | some n => n.hasCap cap

def Overlap (p r : Prefix) : Prop := ∃ ip : Addr, ip.hasZone=false ∧ p.contains ip ∧ r.contains ip

/-- The IPSetBuilder of netipx: the set of the prefixes added, as its OverlapsPrefix. It only
fails for invalid prefixes. -/
structure IPSetBuilder where
  build : List Prefix → Option (Prefix → Bool)
  build_spec : ∀ ps, ∃ overlapsPrefix, build ps=some overlapsPrefix ∧ ∀ r, overlapsPrefix r ↔ ∃ p ∈ ps, Overlap p r

lemma xor_ushiftRight_eq_zero {w m n : ℕ} {x a b : BitVec w} (hmn : n ≤ m)
    (ha : (x ^^^ a) >>> m=0#w) (hb : (x ^^^ b) >>> n=0#w) : (b ^^^ a) >>> m=0#w := by
  have hb' : (x ^^^ b) >>> m=0#w := by
    rw [← Nat.add_sub_cancel' hmn,BitVec.shiftRight_add,hb,BitVec.zero_ushiftRight]
  calc (b ^^^ a) >>> m=((x ^^^ a) ^^^ (x ^^^ b)) >>> m := by
        rw [BitVec.xor_comm x b,BitVec.xor_comm (x ^^^ a),BitVec.xor_assoc,← BitVec.xor_assoc x,
          BitVec.xor_self,BitVec.zero_xor]
    _=0#w := by rw [BitVec.ushiftRight_xor_distrib,ha,hb',BitVec.xor_self]

lemma nested_of_common {w m n : ℕ} {x a b : BitVec w} (ha : (x ^^^ a) >>> m=0#w) (hb : (x ^^^ b) >>> n=0#w) :
    (b ^^^ a) >>> m=0#w ∨ (a ^^^ b) >>> n=0#w := by
  obtain h | h := Nat.le_total n m
  · exact .inl (xor_ushiftRight_eq_zero h ha hb)
  · exact .inr (xor_ushiftRight_eq_zero h hb ha)

lemma overlap_iff (p r : Prefix) : Overlap p r ↔ p.contains r.addr ∨ r.contains p.addr := by
  constructor
  · rintro ⟨ip,_,hp,hr⟩
    cases ip <;> cases p <;> cases r <;> try simp [Prefix.contains] at hp hr
    · simpa [Prefix.contains,addr] using nested_of_common hp hr
    · simpa [Prefix.contains,addr,Addr.hasZone] using nested_of_common hp.2 hr.2
  · have self : ∀ s : Prefix, s.contains s.addr := by
      intro s
      cases s <;> simp [Prefix.contains,addr,Addr.hasZone]
    have noZone : ∀ s : Prefix, s.addr.hasZone=false := by
      intro s
      cases s <;> rfl
    rintro (h | h)
    · exact ⟨r.addr,noZone r,h,self r⟩
    · exact ⟨p.addr,noZone p,self p,h⟩

def IPSetBuilder.scan : IPSetBuilder where
  build ps := some fun r => ps.any fun p => p.contains r.addr || r.contains p.addr
  build_spec ps := ⟨_,rfl,fun r => by simp [overlap_iff]⟩

/-- The peers that are not signed by the tailnet's lock, as a range statement visits them. -/
def unlocked (o : MapOrder) (peers : GoMap NodeID Node) : List Node :=
  ((range o peers).map (·.2)).filter (·.unsignedPeerAPIOnly)

def packetFilterPermitsUnlockedNodes (B : IPSetBuilder) (o : MapOrder) (peers : GoMap NodeID Node)
    (packetFilter : List Match) : Bool :=
  if (unlocked o peers).length=0 then false
  else match B.build ((unlocked o peers).flatMap (·.allowedIPs)) with
    | none => true
    | some overlapsPrefix =>
      packetFilter.any fun m => m.srcs.any fun r => overlapsPrefix r && m.dsts.length≠0

structure Prefs where
  shieldsUp : Bool
  deriving DecidableEq

/-- The inputs that decide whether the filter changes. -/
structure FilterInputs where
  haveNetmap : Bool
  addrs : List Prefix
  filterMatch : List Match
  localNets : List Prefix
  logNets : List Prefix
  shieldsUp : Bool
  sshPolicy : Str
  deriving DecidableEq

/-- What updateFilterLocked reads besides the netmap and what it keeps. -/
structure FilterContext where
  prefs : Option Prefs
  localNets : IPSet
  logNets : IPSet
  sshPolicy : Str
  ingressAllowHooks : List PacketMatch
  linkLocalAllowHooks : List PacketMatch

/-- The filters of the engine and the inputs they were last built from. -/
structure FilterState where
  filter : Option Filter
  jailedFilter : Option Filter
  lastFilterInputs : Option FilterInputs

namespace FilterContext

def shieldsUp (ctx : FilterContext) : Bool :=
  match ctx.prefs with
  | none => true
  | some prefs => prefs.shieldsUp

/-- The matches to install: none when they would let an unlocked node in. -/
def packetFilter (B : IPSetBuilder) (o : MapOrder) (nb : NodeBackend) : List Match :=
  if nb.netMap.isNone || packetFilterPermitsUnlockedNodes B o nb.peers nb.packetFilter then []
  else nb.packetFilter

def inputs (ctx : FilterContext) (B : IPSetBuilder) (o : MapOrder) (nb : NodeBackend) :
    FilterInputs where
  haveNetmap := nb.netMap.isSome
  addrs := ((nb.netMap.bind NetworkMap.selfNode).map Node.addresses).getD []
  filterMatch := packetFilter B o nb
  localNets := ctx.localNets.prefixes
  logNets := ctx.logNets.prefixes
  shieldsUp := ctx.shieldsUp
  sshPolicy := ctx.sshPolicy

end FilterContext

/-- updateFilterLocked, with identities for the flow state of the two filters it may build. -/
def updateFilterLocked (T : BartLite) (B : IPSetBuilder) (o : MapOrder) (nb : NodeBackend)
    (ctx : FilterContext) (fresh freshJailed : ℕ) (st : FilterState) : FilterState :=
  let new := ctx.inputs B o nb
  if st.lastFilterInputs=some new then st
  else if nb.netMap.isNone then
    ⟨some (newAllowNone T fresh),some (newAllowNone T fresh),some new⟩
  else
    let filt := if ctx.shieldsUp then newShieldsUpFilter T (some ctx.localNets) st.filter fresh
      else (PacketFilter.new T (FilterContext.packetFilter B o nb) (some (srcIPHasCapForFilter nb))
        (some ctx.localNets) st.filter fresh).withHooks ctx.ingressAllowHooks ctx.linkLocalAllowHooks
    ⟨some filt,some (newShieldsUpFilter T (some ctx.localNets) st.jailedFilter freshJailed),some new⟩

end TunnnejiTail.Ipn
