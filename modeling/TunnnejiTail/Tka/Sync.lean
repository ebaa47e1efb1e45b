import TunnnejiTail.Tka.Chonk

/-! Synchronization: an authority offers its head and some of its ancestors, and the other end answers with
the messages that come after the latest one that both have. -/
namespace TunnnejiTail.Tka
open Go TunnnejiTail.Types

structure SyncOffer where
  head : AUMHash
  ancestors : List AUMHash
  deriving DecidableEq

structure Intersection where
  upToDate : Bool := false
  headIntersection : Option AUMHash := none
  tailIntersection : Option AUMHash := none
  deriving DecidableEq

def ancestorsSkipStart : ℕ := 4

def ancestorsSkipShift : ℕ := 2

def maxSyncIter : ℕ := 2000

def maxSyncHeadIntersectionIter : ℕ := 400

/-- Copy over an array of 32 bytes; where the source is shorter the old bytes stay. -/
def copyOver (dst : Raw32) (src : Bytes) : Raw32 :=
  ⟨src.take 32++dst.bytes.drop src.length,by
    rw [List.length_append,List.length_take,List.length_drop,dst.size]
    omega⟩

section
variable (X : Primitives) (sorter : SliceSort) (C : Chonk)

/-- The loop of SyncOffer, from the number of rounds left, the round and the number to skip. -/
def offerLoop (oldest : AUMHash) : ℕ → ℕ → ℕ → AUMHash → List AUMHash → List AUMHash
  | 0,_,_,_,out => out
  | n+1,i,skipAmount,curs,out =>
    let listed := decide (0 < i ∧ i % skipAmount=0)
    let out := if listed then out++[curs] else out
    let skipAmount := if listed then skipAmount <<< ancestorsSkipShift else skipAmount
    match C.aum curs with
    | none => out
    | some parent =>
      if X.hash parent=oldest then out
      else offerLoop oldest n (i+1) skipAmount (copyOver curs (parent.prevAUMHash.getD [])) out

def Authority.syncOffer (a : Authority) : Except Halt SyncOffer :=
  match a.state.lastAUMHash with
  | none => .error .panic
  | some head =>
    let oldest := X.hash a.oldestAncestor
    .ok ⟨head,offerLoop X C oldest maxSyncHeadIntersectionIter 0 ancestorsSkipStart head []++[oldest]⟩

/-- Whether a digest is met on the way back; the number is that of rounds left. -/
def findHead (remoteHead : AUMHash) : ℕ → AUMHash → Bool
  | 0,_ => false
  | n+1,curs =>
    match C.aum curs with
    | none => false
    | some parent =>
      if X.hash parent=remoteHead then true
      else findHead remoteHead n (copyOver curs (parent.prevAUMHash.getD []))

/-- The first of the ancestors that are given from which the way forward leads to the head. -/
def findTail (localHead : AUMHash) : List AUMHash → Except Halt Intersection
  | [] => failWith "no intersection"
  | a::rest =>
    match computeStateAt X C maxSyncIter a with
    | .error (.error .notExist) => findTail localHead rest
    | .error e => .error (e.wrap "computeStateAt")
    | .ok state => do
      let last ← fastForwardWithAdvancer X C maxSyncIter state (advanceByPrimary X sorter)
        fun curs _ => decide (X.hash curs=localHead)
      if X.hash last.1=localHead then return { tailIntersection := some a } else findTail localHead rest

def computeSyncIntersection (localOffer remoteOffer : SyncOffer) : Except Halt Intersection :=
  if remoteOffer.head=localOffer.head then
    .ok { upToDate := true,headIntersection := some localOffer.head }
  else if (C.aum remoteOffer.head).isSome ∧
      findHead X C remoteOffer.head maxSyncHeadIntersectionIter localOffer.head=true then
    .ok { headIntersection := some remoteOffer.head }
  else findTail X sorter C localOffer.head remoteOffer.ancestors

/-- The loop of fastForward with the termination function of MissingAUMs, which never ends the walk and
lists what it comes by. -/
def listLoop (start : AUMHash) : ℕ → AUM → State → List AUM → Except Halt (List AUM)
  | 0,_,_,_ => failWith ("iteration limit exceeded (" ++ toString maxSyncIter ++ ")")
  | n+1,curs,state,out => do
    let out := if X.hash curs≠start then out++[curs] else out
    let next ← (advanceByPrimary X sorter state (C.childAUMs (X.hash curs))).mapError
      (Halt.wrap ("advance " ++ X.x (X.hash curs)))
    match next with
    | none => return out
    | some (next,nextState) => listLoop start n next nextState out

/-- The messages after an intersection. -/
def listFrom (start : AUMHash) : Except Halt (List AUM) := do
  let state ← computeStateAt X C maxSyncIter start
  match state.lastAUMHash with
  | none => failWith "invalid initial state"
  | some h =>
    match C.aum h with
    | none => .error (.error (Err.notExist.wrap ("reading next (" ++ X.v h ++ ")")))
    | some nextAUM => listLoop X sorter C start maxSyncIter nextAUM state []

def Authority.missingAUMs (a : Authority) (remoteOffer : SyncOffer) : Except Halt (List AUM) := do
  let localOffer ← (a.syncOffer X C).mapError (Halt.wrap "local syncOffer")
  let i ← (computeSyncIntersection X sorter C localOffer remoteOffer).mapError (Halt.wrap "intersection")
  if i.upToDate then return []
  else
    match i.headIntersection,i.tailIntersection with
    | some h,_ => listFrom X sorter C h
    | none,some h => listFrom X sorter C h
    | none,none => .error .panic

end

/-- What tkaSyncLocked does with the messages it receives: Inform is left out if there are none. -/
def informMissing {X : Primitives} (sorter : SliceSort) (o o' : MapOrder) (a : Authority) (storage : Store X)
    (missingAUMs : List AUM) : Store X × Except Halt Authority :=
  if 0 < missingAUMs.length then informIdempotent sorter o o' a storage missingAUMs else (storage,.ok a)

end TunnnejiTail.Tka
