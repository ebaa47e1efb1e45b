import TunnnejiTail.Netstack.Impl
import TunnnejiTail.Packet.Checksum
import TunnnejiTail.PacketFilter.IPSet

/-! Address translation per peer. The native addresses of a table are of their family. -/
namespace TunnnejiTail.Tstun
open Go Netip Packet Netstack

structure PeerConfig where
  dstMasqAddr4 : Addr
  dstMasqAddr6 : Addr
  jailed : Bool
  deriving DecidableEq

structure WGPeer where
  allowedIPs : List Prefix
  v4MasqAddr : Option Addr
  v6MasqAddr : Option Addr
  isJailed : Bool
  deriving DecidableEq

structure WGConfig where
  addresses : List Prefix
  peers : List WGPeer
  deriving DecidableEq

/-- The table; byIP is the lookup of the longest prefix that contains an address. -/
structure PeerConfigTable where
  nativeAddr4 : Addr
  nativeAddr6 : Addr
  byIP : Addr → Option PeerConfig
  native4 : nativeAddr4.isValid → nativeAddr4.is4
  native6 : nativeAddr6.isValid → nativeAddr6.is6

def findAddr (keep : Addr → Bool) (addrs : List Prefix) : Addr :=
  ((addrs.map Prefix.addr).find? fun a => keep a && isTailscaleIP a).getD .zero

def findV4 (addrs : List Prefix) : Addr := findAddr Addr.is4 addrs

def findV6 (addrs : List Prefix) : Addr := findAddr Addr.is6 addrs

lemma findAddr_keep {keep : Addr → Bool} {addrs : List Prefix}
    (h : (findAddr keep addrs).isValid) : keep (findAddr keep addrs) := by
  unfold findAddr at h ⊢
  cases hfind : (addrs.map Prefix.addr).find? fun a => keep a && isTailscaleIP a with
  | none =>
    rw [hfind] at h
    cases h
  | some a =>
    have hkeep := List.find?_some hfind
    exact (Bool.and_eq_true_iff.mp hkeep).1

def allIPv4 : Prefix := .v4 0 (bits4 0)
def allIPv6 : Prefix := .v6 0 (bits6 0)

namespace WGPeer

def isExitNode (p : WGPeer) : Bool := p.allowedIPs.contains allIPv4 || p.allowedIPs.contains allIPv6

def hasMasqAddr (p : WGPeer) : Bool := p.v4MasqAddr.any Addr.isValid || p.v6MasqAddr.any Addr.isValid

end WGPeer

def exitNodeRequiresMasq (peers : List WGPeer) : Bool :=
  (peers.find? WGPeer.isExitNode).any WGPeer.hasMasqAddr

/-- The masquerade address of a peer; the native one when the exit node requires it. -/
def addrToUse (exitMasq : Bool) (native : Addr) (masq : Option Addr) : Addr :=
  if masq.any Addr.isValid then masq.getD .zero else if exitMasq then native else .zero

/-- The entries of a peer, none when nothing is configured for it. -/
def peerEntries (exitMasq : Bool) (native4 native6 : Addr) (p : WGPeer) : List (Prefix × PeerConfig) :=
  let addr4 := addrToUse exitMasq native4 p.v4MasqAddr
  let addr6 := addrToUse exitMasq native6 p.v6MasqAddr
  if !addr4.isValid && !addr6.isValid && !p.isJailed then []
  else p.allowedIPs.map fun ip => (ip,⟨addr4,addr6,p.isJailed⟩)

/-- The lookup in a bart table is a parameter, given the entries in the order of insertion. -/
def peerConfigTableFromWGConfig (lookup : List (Prefix × PeerConfig) → Addr → Option PeerConfig)
    (wcfg : Option WGConfig) : Option PeerConfigTable :=
  match wcfg with
  | none => none
  | some wcfg =>
    let nativeAddr4 := findV4 wcfg.addresses
    let nativeAddr6 := findV6 wcfg.addresses
    if !nativeAddr4.isValid && !nativeAddr6.isValid then none
    else
      let entries := wcfg.peers.flatMap
        (peerEntries (exitNodeRequiresMasq wcfg.peers) nativeAddr4 nativeAddr6)
      if entries.length=0 && !wcfg.peers.any WGPeer.hasMasqAddr then none
      else some {
        nativeAddr4 := nativeAddr4
        nativeAddr6 := nativeAddr6
        byIP := lookup entries
        native4 := findAddr_keep
        native6 := findAddr_keep }

/-- mapDstIP of a table; the nil table maps nothing. -/
def mapDstIP (pc : Option PeerConfigTable) (src oldDst : Addr) : Addr :=
  match pc with
  | none => oldDst
  | some pc =>
    match pc.byIP src with
    | none => oldDst
    | some c =>
      if oldDst.is4 && pc.nativeAddr4.isValid && c.dstMasqAddr4=oldDst then pc.nativeAddr4
      else if oldDst.is6 && pc.nativeAddr6.isValid && c.dstMasqAddr6=oldDst then pc.nativeAddr6
      else oldDst

def isJailed (pc : Option PeerConfigTable) (ip : Addr) : Bool :=
  match pc with
  | none => false
  | some pc => (pc.byIP ip).any (·.jailed)

def inboundPacketIsJailed (pc : Option PeerConfigTable) (q : Parsed) : Bool := isJailed pc q.src.addr

def dnat (pc : Option PeerConfigTable) (q : Parsed) : Except Fault Parsed :=
  let newDst := mapDstIP pc q.src.addr q.dst.addr
  if newDst≠q.dst.addr then updateDstAddr q newDst else .ok q

variable (pc : Option PeerConfigTable)

lemma mapDstIP_cases (src oldDst : Addr) : mapDstIP pc src oldDst=oldDst ∨
      (oldDst.is4 ∧ (mapDstIP pc src oldDst).is4) ∨ (oldDst.is6 ∧ (mapDstIP pc src oldDst).is6) := by
  rcases pc with _ | pc
  · exact .inl rfl
  · cases hc : pc.byIP src with
    | none =>
      left
      simp only [mapDstIP,hc]
    | some c =>
      simp only [mapDstIP,hc,Bool.and_eq_true,decide_eq_true_eq]
      split_ifs with h4 h6
      · exact .inr (.inl ⟨h4.1.1,pc.native4 h4.1.2⟩)
      · exact .inr (.inr ⟨h6.1.1,pc.native6 h6.1.2⟩)
      · exact .inl rfl

lemma mapDstIP_v4 (src : Addr) (a : BitVec 32) :
    ∃ n, mapDstIP pc src (.v4 a)=.v4 n := by
  obtain h | ⟨_,h⟩ | ⟨h,_⟩ := mapDstIP_cases pc src (.v4 a)
  · exact ⟨a,h⟩
  · cases hn : mapDstIP pc src (.v4 a) with
    | v4 n => exact ⟨n,rfl⟩
    | _ => rw [hn] at h; cases h
  · cases h

lemma mapDstIP_v6 (src : Addr) (a : BitVec 128) (zone : Str) :
    ∃ n zone', mapDstIP pc src (.v6 a zone)=.v6 n zone' := by
  obtain h | ⟨h,_⟩ | ⟨_,h⟩ := mapDstIP_cases pc src (.v6 a zone)
  · exact ⟨a,zone,h⟩
  · cases h
  · cases hn : mapDstIP pc src (.v6 a zone) with
    | v6 n zone' => exact ⟨n,zone',rfl⟩
    | _ => rw [hn] at h; cases h

end TunnnejiTail.Tstun
