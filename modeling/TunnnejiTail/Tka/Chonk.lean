import TunnnejiTail.Tka.Chain

/-! Where update messages are kept, in memory or in a directory, and the authority that works on such a
store. Errors of the file system are left out. -/
namespace TunnnejiTail.Tka
open Go

structure Mem where
  aums : GoMap AUMHash AUM := ∅
  parentIndex : GoMap AUMHash (List AUMHash) := ∅
  lastActiveAncestor : Option AUMHash := none

namespace Mem
variable (X : Primitives) (o : MapOrder) (c : Mem)

def children (p : AUMHash) : List AUMHash := (c.parentIndex.lookup p).getD []

def heads : List AUM := ((range o c.aums).map Prod.snd).filter fun a => (c.children (X.hash a)).length=0

def childAUMs (h : AUMHash) : List AUM :=
  (c.children h).map fun e => (c.aums.lookup e).getD { messageKind := .invalid }

/-- One message of CommitVerifiedAUMs. -/
def commit (aum : AUM) : Mem :=
  let h := X.hash aum
  let c := { c with aums := c.aums.insert h aum }
  match aum.parent with
  | none => c
  | some p =>
    if h ∈ c.children p then c
    else { c with parentIndex := c.parentIndex.insert p (c.children p++[h]) }

/-- One message of PurgeAUMs. Its own children stay in the index. -/
def purge (h : AUMHash) : Mem :=
  let index :=
    match (c.aums.lookup h).bind AUM.parent with
    | none => c.parentIndex
    | some p =>
      let rest := (c.children p).filter fun other => decide (h≠other)
      if rest.length=0 then c.parentIndex.erase p else c.parentIndex.insert p rest
  { c with aums := c.aums.erase h,parentIndex := index }

end Mem

structure FsHashInfo where
  aum : Option AUM := none
  purged : Bool := false

/-- Storage in a directory. A message is in the file that is named after its digest. -/
structure FS (X : Primitives) where
  files : GoMap AUMHash FsHashInfo
  lastActiveAncestor : Option AUMHash
  named : ∀ {h info a}, files.lookup h=some info → info.aum=some a → X.hash a=h

namespace FS
variable {X : Primitives} (o : MapOrder) (c : FS X)

def empty : FS X := ⟨∅,none,fun h => by simp at h⟩

def aum (h : AUMHash) : Option AUM :=
  match c.files.lookup h with
  | none => none
  | some info => if info.purged then none else info.aum

def scan : List AUM := (range o c.files).filterMap fun e => if e.2.purged then none else e.2.aum

def allAUMs : List AUMHash := (c.scan o).map X.hash

def heads : List AUM :=
  let parentHashes := (c.allAUMs o).filterMap fun h => (c.aum h).bind AUM.parent
  ((c.allAUMs o).filter fun h => decide (h ∉ parentHashes)).filterMap c.aum

def childAUMs (h : AUMHash) : List AUM :=
  (c.scan o).filter fun a => decide (a.prevAUMHash.getD []=h.bytes)

/-- Write a file. -/
def write (h : AUMHash) (info : FsHashInfo) (hinfo : ∀ a, info.aum=some a → X.hash a=h) : FS X where
  files := c.files.insert h info
  lastActiveAncestor := c.lastActiveAncestor
  named {j info' a} hl ha := by
    rcases of_lookup_insert hl with ⟨rfl,rfl⟩ | ⟨-,hl⟩
    · exact hinfo a ha
    · exact c.named hl ha

lemma hash_of_commit (aum a : AUM) (h : ({ aum := some aum } : FsHashInfo).aum=some a) :
    X.hash a=X.hash aum := by
  cases h
  rfl

def commit (aum : AUM) : FS X := c.write (X.hash aum) { aum := some aum } (hash_of_commit aum)

lemma hash_of_purge {c : FS X} {h : AUMHash} {info : FsHashInfo} (hl : c.files.lookup h=some info)
    (a : AUM) (ha : ({ info with purged := true } : FsHashInfo).aum=some a) : X.hash a=h :=
  c.named hl ha

/-- One message of PurgeAUMs; none if there is no such file, which ends the call. -/
def purge (h : AUMHash) : Option (FS X) :=
  match hl : c.files.lookup h with
  | none => none
  | some info =>
    if info.aum.isNone ∨ info.purged then some c
    else some (c.write h { info with purged := true } (hash_of_purge hl))

end FS

inductive Store (X : Primitives)
  | mem (c : Mem)
  | fs (c : FS X)

namespace Store
variable {X : Primitives} (o : MapOrder) (s : Store X)

def aum (s : Store X) (h : AUMHash) : Option AUM :=
  match s with
  | .mem c => c.aums.lookup h
  | .fs c => c.aum h

def lastActiveAncestor : Option AUMHash :=
  match s with
  | .mem c => c.lastActiveAncestor
  | .fs c => c.lastActiveAncestor

/-- A store as the computations read it. -/
def chonk : Chonk where
  aum := s.aum
  childAUMs h :=
    match s with
    | .mem c => c.childAUMs h
    | .fs c => c.childAUMs o h
  heads :=
    match s with
    | .mem c => c.heads X o
    | .fs c => c.heads o

def setLastActiveAncestor (h : AUMHash) : Store X :=
  match s with
  | .mem c => .mem { c with lastActiveAncestor := some h }
  | .fs c => .fs { c with lastActiveAncestor := some h }

def commit (aum : AUM) : Store X :=
  match s with
  | .mem c => .mem (c.commit X aum)
  | .fs c => .fs (c.commit aum)

def commitVerifiedAUMs (updates : List AUM) : Store X := updates.foldl commit s

def purge (h : AUMHash) : Option (Store X) :=
  match s with
  | .mem c => some (.mem (c.purge h))
  | .fs c => (c.purge h).map .fs

def purgeAUMs : List AUMHash → Store X → Store X
  | [],s => s
  | h::hs,s =>
    match s.purge h with
    | none => s
    | some s => purgeAUMs hs s

end Store

structure Authority where
  head : AUM
  oldestAncestor : AUM
  state : State

def maxScanIterations : ℕ := 2000

section
variable (X : Primitives)

def signatureVerify (sig : Signature) (aumDigest : Bytes) (key : Key) : Except Err Unit :=
  match key.kind with
  | .key25519 =>
    if key.pub.length≠32 then
      .error (.text ("ed25519 key has wrong length: " ++ toString key.pub.length))
    else if X.verifyConsensus key.pub aumDigest sig.signature then .ok ()
    else .error (.text "invalid signature")
  | kind => .error (.text ("unhandled key type: " ++ kind.string))

def checkParent (aum : AUM) (state : State) : Except Err Unit :=
  match aum.parent,state.lastAUMHash with
  | none,_ => .error (.text "aum has no parent")
  | some _,none => .error (.text "cannot check update parent hash against a state with no previous AUM")
  | some parent,some last =>
    if last≠parent then
      .error (.text ("aum with parent " ++ X.lowerX last ++ " cannot be applied to a state with parent "
        ++ X.lowerX parent))
    else .ok ()

/-- One signature of aumVerify. -/
def verifyOne (state : State) (sigHash : Bytes) (e : Signature × ℕ) : Option Err :=
  match state.getKey e.1.keyID with
  | .error err => some (err.wrap ("bad keyID on signature " ++ toString e.2))
  | .ok key =>
    match signatureVerify X e.1 sigHash key with
    | .error err => some (err.wrap ("signature " ++ toString e.2))
    | .ok _ => none

/-- The only key of a state must stay. -/
def removesLastKey (aum : AUM) (state : State) : Bool :=
  aum.messageKind=.removeKey &&
    match state.trusted with
    | [k] =>
      match k.id with
      | .ok kid => aum.keyID.getD []=kid
      | .error _ => false
    | _ => false

def aumVerify (aum : AUM) (state : State) (isGenesisAUM : Bool) : Except Err Unit := do
  aum.staticValidate.mapError (Err.wrap "invalid")
  if isGenesisAUM then pure () else checkParent X aum state
  if aum.signatures.length=0 then .error (.text "unsigned AUM")
  else
    firstErr (verifyOne X state (X.sigHash aum)) aum.signatures.zipIdx
    if removesLastKey aum state then .error (.text "cannot remove the last key in the state") else .ok ()

variable (sorter : SliceSort) (o o' : MapOrder) {X}

/-- Open; the orders are those of the store and of the map of ancestors. -/
def openStore (storage : Store X) : Except Halt Authority :=
  ((computeActiveChain X sorter o' (storage.chonk o) storage.lastActiveAncestor
    maxScanIterations).mapError (Halt.wrap "active chain")).map fun c => ⟨c.head,c.oldest,c.state⟩

def checkBootstrap (storage : Store X) (aum : AUM) : Except Err Unit :=
  if (storage.chonk o).heads.length≠0 then .error (.text "tailchonk is not empty")
  else if aum.messageKind≠.checkpoint then
    .error (.text ("bootstrap AUMs must be checkpoint messages, got " ++ aum.messageKind.string))
  else
    match aum.state with
    | none => .error (.text "bootstrap AUM is missing state")
    | some state => (aumVerify X aum state true).mapError (Err.wrap "invalid bootstrap")

def bootstrap (storage : Store X) (aum : AUM) : Store X × Except Halt Authority :=
  match checkBootstrap o storage aum with
  | .error e => (storage,.error (.error e))
  | .ok _ =>
    let storage := (storage.commitVerifiedAUMs [aum]).setLastActiveAncestor (X.hash aum)
    (storage,openStore sorter o o' storage)

structure InformLoop where
  stateAt : GoMap AUMHash State
  toCommit : List AUM
  prevHash : AUMHash
  isHeadChain : Bool

/-- The state to which an update is applied, from the map or computed. -/
def stateBefore (storage : Store X) (s : InformLoop) (parent : AUMHash) : Except Halt State :=
  match s.stateAt.lookup parent with
  | some state => .ok state
  | none => computeStateAt X (storage.chonk o) maxScanIterations parent

/-- One update of InformIdempotent. -/
def informStep (storage : Store X) (s : InformLoop) (e : AUM × ℕ) : Except Halt InformLoop :=
  let (update,i) := e
  let hash := X.hash update
  let nth := "update " ++ toString i
  if (storage.aum hash).isSome then .ok { s with isHeadChain := false }
  else
    match update.parent with
    | none => failWith (nth ++ ": missing parent")
    | some parent => do
      let state ← (stateBefore o storage s parent).mapError (Halt.wrap (nth ++ " computing state"))
      (orHalt (aumVerify X update state false)).mapError (Halt.wrap (nth ++ " invalid"))
      let next ← (orHalt (state.applyVerifiedAUM X update)).mapError (Halt.wrap (nth ++ " cannot be applied"))
      return {
        stateAt := (s.stateAt.insert parent state).insert hash next
        toCommit := s.toCommit++[update]
        prevHash := hash
        isHeadChain := s.isHeadChain && decide (parent=s.prevHash) }

/-- What InformIdempotent does before the commit. -/
def beforeCommit (a : Authority) (storage : Store X) (updates : List AUM) : Except Halt InformLoop :=
  match a.state.lastAUMHash,updates.getLast? with
  | _,none => failWith "inform called with empty slice"
  | none,some _ => .error .panic
  | some head,some _ => updates.zipIdx.foldlM (informStep o storage)
      ⟨(∅ : GoMap AUMHash State).insert head a.state,[],head,true⟩

/-- InformIdempotent, and the store after it. -/
def informIdempotent (a : Authority) (storage : Store X) (updates : List AUM) :
    Store X × Except Halt Authority :=
  match beforeCommit o a storage updates with
  | .error e => (storage,.error e)
  | .ok s =>
    let storage := storage.commitVerifiedAUMs s.toCommit
    (storage, if s.isHeadChain then
        -- there is an update here
        .ok ⟨updates.getLast?.getD a.head,a.oldestAncestor,(s.stateAt.lookup s.prevHash).getD .zero⟩
      else ((computeActiveChain X sorter o' (storage.chonk o) (some (X.hash a.oldestAncestor))
        maxScanIterations).mapError (Halt.wrap "recomputing active chain")).map fun c =>
          ⟨c.head,c.oldest,c.state⟩)

end

end TunnnejiTail.Tka
