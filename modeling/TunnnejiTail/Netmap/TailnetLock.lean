import TunnnejiTail.Netmap.NodeMut
import TunnnejiTail.Tka.Signature

/-! The tailnet-lock filters of the backend, for a full netmap and for a delta. The backend also keeps
the peers that a filter dropped. -/
namespace TunnnejiTail.Netmap
open Go TunnnejiTail.Types Tka

/-- The tailnet-lock state of the backend: the authority's state and the peers that were dropped. -/
structure TkaState where
  authority : Tka.State
  filtered : GoMap NodeID Node

section
variable (S : Scheme Bytes)

/-- Why a peer of a delta is dropped. -/
def upsertWhy (authority : Tka.State) (n : Node) : Option String :=
  if n.unsignedPeerAPIOnly then none
  else if n.keySignature.elems.length=0 then some "missing signature"
  else
    match nodeKeyAuthorized S authority n.key n.keySignature.elems with
    | .ok _ => none
    | .error e => some ("failed signature check: " ++ e.error)

/-- One mutation of a delta. -/
def filterMutation (tka : TkaState) (m : NodeMutation) : NodeMutation × TkaState :=
  match m with
  | .upsert n =>
    match upsertWhy S tka.authority n with
    | none => (m,tka)
    | some _ => (.remove n.id,{ tka with filtered := tka.filtered.insert n.id n })
  | .remove nid => (m,{ tka with filtered := tka.filtered.erase nid })
  | m => (m,tka)

def filterMutations (tka : TkaState) : List NodeMutation → List NodeMutation × TkaState
  | [] => ([],tka)
  | m::muts =>
    let (m,tka) := filterMutation S tka m
    let (muts,tka) := filterMutations tka muts
    (m::muts,tka)

/-- Without tailnet lock the mutations are returned as they are. -/
def tkaFilterDeltaMutsLocked (tka : Option TkaState) (muts : List NodeMutation) :
    List NodeMutation × Option TkaState :=
  match tka with
  | none => (muts,none)
  | some tka => ((filterMutations S tka muts).1,some (filterMutations S tka muts).2)

end

structure SigRotationDetails where
  np : NodePublic
  numPrevKeys : ℕ
  deriving DecidableEq

structure RotationTracker where
  obsolete : List NodePublic
  byWrappingKey : GoMap Bytes (List SigRotationDetails)

namespace RotationTracker

/-- The nil pointer of a chain without a first signature is dereferenced. -/
def addRotationDetails (r : RotationTracker) (np : NodePublic) (d : RotationDetails) :
    Except Fault RotationTracker :=
  let r := { r with obsolete := r.obsolete++d.prevNodeKeys }
  match d.initialSig with
  | none => .error .panicked
  | some initial =>
    if initial.top.sigKind≠.direct then .ok r
    else
      let wp := initial.top.wrappingPubkey
      .ok { r with
        byWrappingKey := r.byWrappingKey.insert wp
          ((r.byWrappingKey.lookup wp).getD []++[⟨np,d.prevNodeKeys.length⟩]) }

/-- The signatures with one wrapping key. The longest chain of previous keys is kept, if there is
one. -/
def settle (obsolete : List NodePublic) (v : List SigRotationDetails) : List NodePublic :=
  let v := v.filter fun rd => rd.np ∉ obsolete
  match sortStable (fun rd : SigRotationDetails => -(rd.numPrevKeys : ℤ)) v with
  | [] => obsolete
  | [_] => obsolete
  | first::second::rest =>
    if first.numPrevKeys=second.numPrevKeys
    then obsolete++(first::second::rest).map SigRotationDetails.np
    else obsolete++(second::rest).map SigRotationDetails.np

def obsoleteKeys (o : MapOrder) (r : RotationTracker) : List NodePublic :=
  (range o r.byWrappingKey).foldl (fun obsolete e => settle obsolete e.2) r.obsolete

end RotationTracker

section
variable (S : Scheme Bytes)

structure LockLoop where
  tracker : RotationTracker
  toDelete : List Bool

/-- One peer of a full netmap. -/
def lockStep (authority : Tka.State) (s : LockLoop) (p : Node) : Except Fault LockLoop :=
  if p.unsignedPeerAPIOnly then .ok { s with toDelete := s.toDelete++[false] }
  else if p.keySignature.elems.length=0 then .ok { s with toDelete := s.toDelete++[true] }
  else
    match nodeKeyAuthorizedWithDetails S authority p.key p.keySignature.elems with
    | .error _ => .ok { s with toDelete := s.toDelete++[true] }
    | .ok none => .ok { s with toDelete := s.toDelete++[false] }
    | .ok (some details) =>
      (s.tracker.addRotationDetails p.key details).map fun tracker => ⟨tracker,s.toDelete++[false]⟩

/-- The peers that are left of a full netmap and the lock state. The order is that of the loop over
the wrapping keys. -/
def tkaFilterNetmapLocked (o : MapOrder) (tka : Option TkaState) (peers : List Node) :
    Except Fault (List Node × Option TkaState) :=
  match tka with
  | none => .ok (peers,none)
  | some tka =>
    (peers.foldlM (lockStep S tka.authority) ⟨⟨[],∅⟩,[]⟩).map fun s =>
      let obsoleteByRotation := s.tracker.obsoleteKeys o
      if s.toDelete.any (fun b => b) ∨ 0<obsoleteByRotation.length then
        let keep := fun e : Node × Bool => !e.2 && decide (e.1.key ∉ obsoleteByRotation)
        let judged := peers.zip s.toDelete
        ((judged.filter keep).map Prod.fst,some { tka with
          filtered := (judged.filter fun e => !keep e).foldl (fun m e => m.insert e.1.id e.1) ∅ })
      else (peers,some { tka with filtered := ∅ })

end

end TunnnejiTail.Netmap
