import TunnnejiTail.Netmap.NodeMut
import TunnnejiTail.PacketFilter.IPSet

/-! What magicsock keeps for a peer and how a node of the network map changes it. Times are in
nanoseconds, and the zero time means never. The paths in use, timers and statistics are left out. -/
namespace TunnnejiTail.Magicsock
open Go Netip Netmap TunnnejiTail.Types List

def indexSentinelDeleted : ℤ := -1

def sessionActiveTimeout : ℤ := 45000000000

/-- A candidate address of a peer: from the network map, from a ping or from a call-me-maybe. -/
structure EndpointState where
  lastGotPing : Time := 0
  callMeMaybeTime : Time := 0
  index : ℤ := 0
  deriving DecidableEq

def EndpointState.shouldDeleteLocked (now : Time) (st : EndpointState) : Bool :=
  if st.callMeMaybeTime≠0 then false
  else if st.lastGotPing=0 then st.index=indexSentinelDeleted
  else sessionActiveTimeout<now-st.lastGotPing

abbrev Candidates := GoMap AddrPort EndpointState

namespace Candidates
variable (o : MapOrder) (now : Time)

def place (c : Candidates) (e : AddrPort × ℕ) : Candidates :=
  if e.1.addr.isValid then
    match c.lookup e.1 with
    | some st => c.insert e.1 { st with index := e.2 }
    | none => c.insert e.1 { index := e.2 }
  else c

/-- The addresses that a netmap's list is read up to: their indexes are of type int16. -/
def listed (eps : List AddrPort) : List AddrPort := eps.take (2^15)

def setEndpointsLocked (eps : List AddrPort) (c : Candidates) : Candidates :=
  let c := updateAll o (fun st => { st with index := indexSentinelDeleted }) c
  let c := (listed eps).zipIdx.foldl place c
  deleteWhere o (fun _ st => st.shouldDeleteLocked now) c

section
variable (c : Candidates) (eps : List AddrPort)

lemma lookup_place (e : AddrPort × ℕ) (a : AddrPort) :
    (c.place e).lookup a =
      if e.1=a then
        if a.addr.isValid then some { (c.lookup a).getD {} with index := e.2 } else c.lookup a
      else c.lookup a := by
  obtain ⟨b,i⟩ := e
  rw [place]
  by_cases hb : b=a
  · subst hb
    rw [if_pos rfl]
    by_cases hv : b.addr.isValid
    · rw [if_pos hv,if_pos hv]
      cases c.lookup b <;> exact AList.lookup_insert _
    · rw [if_neg hv,if_neg hv]
  · rw [if_neg hb]
    by_cases hv : b.addr.isValid
    · rw [if_pos hv]
      cases c.lookup b <;> exact AList.lookup_insert_ne (Ne.symm hb)
    · rw [if_neg hv]

variable {l : List (AddrPort × ℕ)} {a : AddrPort}

lemma lookup_foldl_place_of_not_listed
    (h : a.addr.isValid=true → a ∉ l.map Prod.fst) : (l.foldl place c).lookup a=c.lookup a := by
  induction l using reverseRecOn with
  | nil => rfl
  | append_singleton l e ih =>
    rw [foldl_append,foldl_cons,foldl_nil,lookup_place]
    rw [map_append,mem_append] at h
    have hrest := ih fun hv hl => h hv (Or.inl hl)
    by_cases he : e.1=a
    · have hv : ¬a.addr.isValid=true := fun hv => h hv (Or.inr (he ▸ mem_cons_self))
      rw [if_pos he,if_neg hv,hrest]
    · rw [if_neg he,hrest]

lemma lookup_foldl_place_of_listed
    (hv : a.addr.isValid=true) (hl : a ∈ l.map Prod.fst) :
    ∃ i : ℕ, (l.foldl place c).lookup a=some { (c.lookup a).getD {} with index := i } := by
  induction l using reverseRecOn with
  | nil => cases hl
  | append_singleton l e ih =>
    rw [foldl_append,foldl_cons,foldl_nil,lookup_place]
    by_cases he : e.1=a
    · rw [if_pos he,if_pos hv]
      refine ⟨e.2,?_⟩
      by_cases hin : a ∈ l.map Prod.fst
      · obtain ⟨i,hi⟩ := ih hin
        rw [hi]
        rfl
      · rw [lookup_foldl_place_of_not_listed c fun _ => hin]
    · rw [if_neg he]
      refine ih ?_
      rw [map_append,mem_append] at hl
      rcases hl with hl | hl
      · exact hl
      · exact absurd (mem_singleton.mp hl).symm he

/-- Whether a list leaves an address among the candidates. One that was learnt at runtime stays as long
as it is not too old, whether it is listed or not. -/
def Keeps (a : AddrPort) : Prop :=
  match c.lookup a with
  | none => a.addr.isValid=true ∧ a ∈ listed eps
  | some st =>
    if st.callMeMaybeTime≠0 then True
    else if st.lastGotPing≠0 then now-st.lastGotPing ≤ sessionActiveTimeout
    else a.addr.isValid=true ∧ a ∈ listed eps

lemma lookup_setEndpointsLocked (a : AddrPort) :
    (c.setEndpointsLocked o now eps).lookup a = (((listed eps).zipIdx.foldl place
        (updateAll o (fun st => { st with index := indexSentinelDeleted }) c)).lookup a).filter
          fun st => !st.shouldDeleteLocked now := lookup_deleteWhere ..

lemma isSome_setEndpointsLocked (a : AddrPort) :
    ((c.setEndpointsLocked o now eps).lookup a).isSome ↔ c.Keeps now eps a := by
  have hfst : (listed eps).zipIdx.map Prod.fst=listed eps := zipIdx_map_fst 0 (listed eps)
  rw [lookup_setEndpointsLocked,Keeps]
  by_cases hlisted : a.addr.isValid=true ∧ a ∈ listed eps
  · obtain ⟨i,hi⟩ := lookup_foldl_place_of_listed
      (updateAll o (fun st => { st with index := indexSentinelDeleted }) c) hlisted.1
      (l := (listed eps).zipIdx) (hfst.symm ▸ hlisted.2)
    have hne : (i : ℤ) ≠ -1 := by omega
    rw [hi,lookup_updateAll]
    cases c.lookup a with
    | none => simp [EndpointState.shouldDeleteLocked,indexSentinelDeleted,hlisted,hne]
    | some st =>
      by_cases hc : st.callMeMaybeTime=0
      · by_cases hg : st.lastGotPing=0
        · simp [EndpointState.shouldDeleteLocked,indexSentinelDeleted,hlisted,hne,hc,hg]
        · simp [EndpointState.shouldDeleteLocked,hc,hg]
      · simp [EndpointState.shouldDeleteLocked,hc]
  · rw [lookup_foldl_place_of_not_listed _ fun hv hl => hlisted ⟨hv,hfst ▸ hl⟩,lookup_updateAll]
    cases c.lookup a with
    | none => simp [hlisted]
    | some st =>
      by_cases hc : st.callMeMaybeTime=0
      · by_cases hg : st.lastGotPing=0
        · simp [EndpointState.shouldDeleteLocked,indexSentinelDeleted,hlisted,hc,hg]
        · simp [EndpointState.shouldDeleteLocked,hc,hg]
      · simp [EndpointState.shouldDeleteLocked,hc]

lemma listed_of_setEndpointsLocked {st : EndpointState}
    (h : (c.setEndpointsLocked o now eps).lookup a=some st) (hc : st.callMeMaybeTime=0)
    (hg : st.lastGotPing=0) : a ∈ listed eps := by
  have hfst : (listed eps).zipIdx.map Prod.fst=listed eps := zipIdx_map_fst 0 (listed eps)
  rw [lookup_setEndpointsLocked,Option.filter_eq_some_iff] at h
  obtain ⟨h,hkeep⟩ := h
  by_contra hlisted
  rw [lookup_foldl_place_of_not_listed _ fun _ hl => hlisted (hfst ▸ hl),lookup_updateAll] at h
  obtain ⟨st',-,rfl⟩ := Option.map_eq_some_iff.mp h
  dsimp only at hc hg
  simp [EndpointState.shouldDeleteLocked,hc,hg] at hkeep

end

end Candidates

structure DebugFlags where
  heartbeatDisabled : Bool
  probeUDPLifetimeOn : Bool
  deriving DecidableEq

/-- A path that was learnt through disco has the candidate's address in it; it is left out. -/
structure Endpoint where
  nodeID : NodeID
  publicKey : NodePublic
  nodeAddr : Addr
  disco : Option DiscoPublic
  derpAddr : AddrPort
  endpointState : Candidates
  heartbeatDisabled : Bool
  probeUDPLifetime : Bool
  expired : Bool
  isWireguardOnly : Bool
  relayCapable : Bool

namespace Endpoint

instance : Inhabited Endpoint :=
  ⟨⟨0,.fill 0,.zero,none,⟨.zero,0⟩,∅,false,false,false,false,false⟩⟩

def derpMagicIPAddr : Addr := .v4 0x7f030328

def uint16 (region : ℤ) : UInt16 := UInt16.ofNat (region % 65536).toNat

def updateDiscoKey (de : Endpoint) (key : DiscoPublic) : Endpoint :=
  { de with disco := if key.isZero then none else some key }

def discoKey (de : Endpoint) : DiscoPublic := de.disco.getD (.fill 0)

def setDERPHome (de : Endpoint) (regionID : UInt16) : Endpoint :=
  { de with derpAddr := ⟨derpMagicIPAddr,regionID⟩ }

def capVerIsRelayCapable (version : ℤ) : Bool := 121≤version

variable (o : MapOrder) (now : Time)

def setEndpointsLocked (de : Endpoint) (eps : List AddrPort) : Endpoint :=
  { de with endpointState := de.endpointState.setEndpointsLocked o now eps }

def syncDiscoKey (de : Endpoint) (key : DiscoPublic) : Endpoint :=
  if de.discoKey≠key then de.updateDiscoKey key else de

def syncDERP (de : Endpoint) (region : ℤ) : Endpoint :=
  if region=0 then { de with derpAddr := ⟨.zero,0⟩ } else de.setDERPHome (uint16 region)

def updateFromNode (de : Endpoint) (n : Node) (flags : DebugFlags) : Endpoint :=
  let de := { de with
    heartbeatDisabled := flags.heartbeatDisabled
    probeUDPLifetime := flags.probeUDPLifetimeOn
    expired := n.expired }
  let de := (de.syncDiscoKey n.discoKey).syncDERP n.homeDERP
  let de := de.setEndpointsLocked o now n.endpoints.elems
  { de with relayCapable := capVerIsRelayCapable n.cap }

/-- The endpoint of a node that there was none for. -/
def create (n : Node) (flags : DebugFlags) : Endpoint :=
  let ep : Endpoint := { (default : Endpoint) with
    nodeID := n.id
    publicKey := n.key
    heartbeatDisabled := flags.heartbeatDisabled
    isWireguardOnly := n.isWireGuardOnly
    nodeAddr :=
      match n.addresses.elems with
      | [] => .zero
      | p::_ => p.addr }
  (ep.updateDiscoKey n.discoKey).updateFromNode o now n flags

def derpAddrOf (region : ℤ) : AddrPort :=
  if region=0 then ⟨.zero,0⟩ else ⟨derpMagicIPAddr,uint16 region⟩

/-- An endpoint is as a node of the network map says: its relay, its disco key, all valid addresses of
the node and no others, those apart that were learnt at runtime. -/
structure Agrees (de : Endpoint) (n : Node) : Prop where
  disco : de.discoKey=n.discoKey
  derp : de.derpAddr=derpAddrOf n.homeDERP
  listed : ∀ a ∈ n.endpoints.elems, a.addr.isValid=true → (de.endpointState.lookup a).isSome
  only : ∀ a st, de.endpointState.lookup a=some st → st.callMeMaybeTime=0 → st.lastGotPing=0 → a ∈ n.endpoints.elems

variable (de : Endpoint) (n : Node) (flags : DebugFlags) (k : DiscoPublic)

lemma discoKey_updateDiscoKey : (de.updateDiscoKey k).discoKey=k := by
  rw [discoKey,updateDiscoKey]
  by_cases hk : k.isZero=true
  · rw [if_pos hk]
    exact (of_decide_eq_true hk).symm
  · rw [if_neg hk]
    rfl

lemma discoKey_syncDiscoKey : (de.syncDiscoKey k).discoKey=k := by
  rw [syncDiscoKey]
  split
  · exact discoKey_updateDiscoKey de k
  · next h => exact not_not.mp h

lemma disco_syncDiscoKey {k : DiscoPublic} (hde : de.discoKey.isZero=false) (hk : k.isZero=true) :
    (de.syncDiscoKey k).disco=none := by
  have hne : de.discoKey≠k := by
    rintro rfl
    cases hde.symm.trans hk
  rw [syncDiscoKey,if_pos hne,updateDiscoKey,if_pos hk]

lemma syncDiscoKey_eq :
    de.syncDiscoKey k = { de with disco := (de.syncDiscoKey k).disco } := by
  rw [syncDiscoKey]
  split <;> rfl

lemma syncDERP_eq (region : ℤ) : de.syncDERP region = { de with derpAddr := derpAddrOf region } := by
  rw [syncDERP,derpAddrOf]
  split <;> rfl

lemma updateFromNode_same : (de.updateFromNode o now n flags).nodeID=de.nodeID ∧
    (de.updateFromNode o now n flags).publicKey=de.publicKey ∧
    (de.updateFromNode o now n flags).isWireguardOnly=de.isWireguardOnly := by
  rw [updateFromNode,syncDERP_eq,syncDiscoKey_eq]
  exact ⟨rfl,rfl,rfl⟩

lemma discoKey_updateFromNode : (de.updateFromNode o now n flags).discoKey=n.discoKey := by
  rw [updateFromNode,syncDERP_eq]
  exact discoKey_syncDiscoKey _ n.discoKey

lemma disco_updateFromNode (hde : de.discoKey.isZero=false) (hn : n.discoKey.isZero=true) :
    (de.updateFromNode o now n flags).disco=none := by
  rw [updateFromNode,syncDERP_eq]
  exact disco_syncDiscoKey _ hde hn

lemma derpAddr_updateFromNode : (de.updateFromNode o now n flags).derpAddr=derpAddrOf n.homeDERP := by
  rw [updateFromNode,syncDERP_eq]
  rfl

lemma endpointState_updateFromNode : (de.updateFromNode o now n flags).endpointState
    = de.endpointState.setEndpointsLocked o now n.endpoints.elems := by
  rw [updateFromNode,syncDERP_eq,syncDiscoKey_eq]
  rfl

lemma agrees_updateFromNode : (de.updateFromNode o now n flags).Agrees n ↔
    ∀ a ∈ n.endpoints.elems, a.addr.isValid=true → de.endpointState.Keeps now n.endpoints.elems a := by
  constructor
  · intro h a ha hv
    have hsome := h.listed a ha hv
    rwa [endpointState_updateFromNode,Candidates.isSome_setEndpointsLocked] at hsome
  · intro h
    refine ⟨discoKey_updateFromNode .., derpAddr_updateFromNode ..,?_,?_⟩
    · intro a ha hv
      rw [endpointState_updateFromNode,Candidates.isSome_setEndpointsLocked]
      exact h a ha hv
    · intro a st hst hc hg
      rw [endpointState_updateFromNode] at hst
      exact mem_of_mem_take (Candidates.listed_of_setEndpointsLocked o now _ _ hst hc hg)

lemma create_same : (create o now n flags).nodeID=n.id ∧ (create o now n flags).publicKey=n.key ∧
    (create o now n flags).isWireguardOnly=n.isWireGuardOnly := updateFromNode_same ..

lemma discoKey_create : (create o now n flags).discoKey=n.discoKey := discoKey_updateFromNode ..

lemma agrees_create : (create o now n flags).Agrees n ↔ ∀ a ∈ n.endpoints.elems, a.addr.isValid=true →
    (∅ : Candidates).Keeps now n.endpoints.elems a := agrees_updateFromNode ..

end Endpoint

end TunnnejiTail.Magicsock
