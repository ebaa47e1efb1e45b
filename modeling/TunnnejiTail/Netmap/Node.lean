import TunnnejiTail.Go.Maps
import TunnnejiTail.Net.Netip
import TunnnejiTail.Types.Key

/-! The nodes of a network map and the messages that change them. A slice or a map that may be
nil is an Option, and comparing two of them goes by their elements, as views.SliceEqual does.
Times are instants, with 0 for the zero time. -/
namespace TunnnejiTail.Netmap
open Go Netip TunnnejiTail.Types AList

abbrev NodeID := ℤ
abbrev UserID := ℤ
abbrev Time := ℤ

abbrev Slice (α : Type) := Option (List α)

def Slice.elems {α : Type} (s : Slice α) : List α := s.getD []

abbrev CapMap := Option (GoMap Str (Slice Str))

def CapMap.get (m : CapMap) (c : Str) : Option (Slice Str) := m.bind fun m => m.lookup c

def CapMap.len (m : CapMap) : ℕ := (m.getD ∅).entries.length

/-- Hostinfo is only compared as a whole; here it is its JSON text. The same goes for resolvers. -/
structure Node where
  id : NodeID
  stableID : Str
  name : Str
  user : UserID
  sharer : UserID
  key : NodePublic
  keyExpiry : Time
  keySignature : Slice UInt8
  machine : MachinePublic
  discoKey : DiscoPublic
  addresses : Slice Prefix
  allowedIPs : Slice Prefix
  endpoints : Slice AddrPort
  legacyDERPString : Str
  homeDERP : ℤ
  hostinfo : Option Str
  created : Time
  cap : ℤ
  tags : Slice Str
  primaryRoutes : Slice Prefix
  lastSeen : Option Time
  online : Option Bool
  machineAuthorized : Bool
  capabilities : Slice Str
  capMap : CapMap
  unsignedPeerAPIOnly : Bool
  computedName : Str
  computedHostIfDifferent : Str
  computedNameWithHost : Str
  dataPlaneAuditLogID : Str
  expired : Bool
  selfNodeV4MasqAddrForThisPeer : Option Addr
  selfNodeV6MasqAddrForThisPeer : Option Addr
  isWireGuardOnly : Bool
  isJailed : Bool
  exitNodeDNSResolvers : Slice Str
  deriving DecidableEq

/-- The zero value of a node. -/
def Node.zero : Node where
  id := 0
  stableID := []
  name := []
  user := 0
  sharer := 0
  key := .fill 0
  keyExpiry := 0
  keySignature := none
  machine := .fill 0
  discoKey := .fill 0
  addresses := none
  allowedIPs := none
  endpoints := none
  legacyDERPString := []
  homeDERP := 0
  hostinfo := none
  created := 0
  cap := 0
  tags := none
  primaryRoutes := none
  lastSeen := none
  online := none
  machineAuthorized := false
  capabilities := none
  capMap := none
  unsignedPeerAPIOnly := false
  computedName := []
  computedHostIfDifferent := []
  computedNameWithHost := []
  dataPlaneAuditLogID := []
  expired := false
  selfNodeV4MasqAddrForThisPeer := none
  selfNodeV6MasqAddrForThisPeer := none
  isWireGuardOnly := false
  isJailed := false
  exitNodeDNSResolvers := none

def CapMap.equal (m m' : CapMap) : Bool :=
  m.len=m'.len && (m.getD ∅).entries.all fun e => decide ((m'.get e.1).map Slice.elems=some e.2.elems)

/-- Equal leaves out the audit log ID and the resolvers, and the slices it compares with slices.Equal or
bytes.Equal may differ in being nil. -/
def Node.equal (n n2 : Node) : Bool :=
  n.id=n2.id &&
  n.stableID=n2.stableID &&
  n.name=n2.name &&
  n.user=n2.user &&
  n.sharer=n2.sharer &&
  n.unsignedPeerAPIOnly=n2.unsignedPeerAPIOnly &&
  n.key=n2.key &&
  n.keyExpiry=n2.keyExpiry &&
  n.keySignature.elems=n2.keySignature.elems &&
  n.machine=n2.machine &&
  n.discoKey=n2.discoKey &&
  n.online=n2.online &&
  n.addresses=n2.addresses &&
  n.allowedIPs=n2.allowedIPs &&
  n.primaryRoutes=n2.primaryRoutes &&
  n.endpoints=n2.endpoints &&
  n.legacyDERPString=n2.legacyDERPString &&
  n.homeDERP=n2.homeDERP &&
  n.cap=n2.cap &&
  n.hostinfo=n2.hostinfo &&
  n.created=n2.created &&
  n.lastSeen=n2.lastSeen &&
  n.machineAuthorized=n2.machineAuthorized &&
  n.capabilities.elems=n2.capabilities.elems &&
  n.capMap.equal n2.capMap &&
  n.computedName=n2.computedName &&
  n.computedHostIfDifferent=n2.computedHostIfDifferent &&
  n.computedNameWithHost=n2.computedNameWithHost &&
  n.tags=n2.tags &&
  n.expired=n2.expired &&
  n.selfNodeV4MasqAddrForThisPeer=n2.selfNodeV4MasqAddrForThisPeer &&
  n.selfNodeV6MasqAddrForThisPeer=n2.selfNodeV6MasqAddrForThisPeer &&
  n.isWireGuardOnly=n2.isWireGuardOnly &&
  n.isJailed=n2.isJailed

lemma Node.reach_of_equal {n n2 : Node} (h : n.equal n2=true) :
    (n.id,n.key,n.discoKey,n.isWireGuardOnly,n.homeDERP,n.endpoints)
      = (n2.id,n2.key,n2.discoKey,n2.isWireGuardOnly,n2.homeDERP,n2.endpoints) := by
  simp only [Node.equal,Bool.and_eq_true,decide_eq_true_eq] at h
  simp only [h]

structure PeerChange where
  nodeID : NodeID
  derpRegion : ℤ := 0
  cap : ℤ := 0
  capMap : CapMap := none
  endpoints : Slice AddrPort := none
  key : Option NodePublic := none
  keySignature : Slice UInt8 := none
  discoKey : Option DiscoPublic := none
  online : Option Bool := none
  lastSeen : Option Time := none
  keyExpiry : Option Time := none
  deriving DecidableEq

/-- Of the fields that no peer is read from, only whether they are set is kept. -/
structure MapResponse where
  node : Option Node := none
  derpMap : Bool := false
  dnsConfig : Bool := false
  domain : Str := []
  collectServices : Str := []
  health : Bool := false
  displayMessages : Bool := false
  sshPolicy : Bool := false
  tkaInfo : Bool := false
  domainDataPlaneAuditLogID : Str := []
  debug : Bool := false
  controlDialPlan : Bool := false
  clientVersion : Bool := false
  deprecatedDefaultAutoUpdate : Str := []
  peers : Slice Node := none
  peersChanged : Slice Node := none
  peersRemoved : List NodeID := []
  peersChangedPatch : List PeerChange := []
  peerSeenChange : GoMap NodeID Bool := ∅
  onlineChange : GoMap NodeID Bool := ∅

/-- A map of nodes by ID, in which every node sits under its own ID. -/
structure Peers where
  nodes : GoMap NodeID Node
  keyed : ∀ {id n}, nodes.lookup id=some n → n.id=id

namespace Peers

def lookup (P : Peers) (id : NodeID) : Option Node := P.nodes.lookup id

def empty : Peers := ⟨∅,fun h => by simp at h⟩

/-- Store a node under its ID. -/
def put (P : Peers) (n : Node) : Peers where
  nodes := P.nodes.insert n.id n
  keyed {id m} h := by
    rcases of_lookup_insert h with ⟨rfl,rfl⟩ | ⟨-,h⟩
    · rfl
    · exact P.keyed h

def delete (P : Peers) (id : NodeID) : Peers where
  nodes := P.nodes.erase id
  keyed {j n} h := by
    by_cases hj : j=id
    · subst hj
      rw [lookup_erase] at h
      cases h
    · rw [lookup_erase_ne hj] at h
      exact P.keyed h

variable (P : Peers) (n : Node) (id : NodeID)

lemma id_of_lookup {P : Peers} {id : NodeID} {n : Node} (h : P.lookup id=some n) : n.id=id :=
  P.keyed h

@[simp] lemma lookup_empty : empty.lookup id=none := AList.lookup_empty id

lemma lookup_put : (P.put n).lookup id=if n.id=id then some n else P.lookup id :=
  (lookup_insert_ite ..).trans (if_congr eq_comm rfl rfl)

lemma lookup_delete (j : NodeID) : (P.delete j).lookup id=if j=id then none else P.lookup id := by
  by_cases h : j=id
  · subst h
    rw [if_pos rfl]
    exact lookup_erase j P.nodes
  · rw [if_neg h]
    exact lookup_erase_ne (Ne.symm h)

end Peers

end TunnnejiTail.Netmap
