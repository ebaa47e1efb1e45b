import TunnnejiTail.Go.Loops
import TunnnejiTail.Tka.State

/-! Authority update messages: how they are checked, how much their signatures weigh and what they do
to a state. The digests, the verifier and the texts that fmt prints for digests and messages are
parameters. -/
namespace TunnnejiTail.Tka
open Go TunnnejiTail.Types

inductive AUMKind
  | invalid
  | addKey
  | removeKey
  | noOp
  | updateKey
  | checkpoint
  | unknown (k : UInt8) (h : 5<k)
  deriving DecidableEq

def AUMKind.string : AUMKind → String
  | .invalid => "invalid"
  | .addKey => "add-key"
  | .removeKey => "remove-key"
  | .noOp => "no-op"
  | .checkpoint => "checkpoint"
  | .updateKey => "update-key"
  | .unknown k _ => "AUM?<" ++ toString k.toNat ++ ">"

structure Signature where
  keyID : KeyID
  signature : Bytes
  deriving DecidableEq

/-- None is nil; the two fields without it are only read through their length. -/
structure AUM where
  messageKind : AUMKind
  prevAUMHash : Option Bytes := none
  key : Option Key := none
  keyID : Option KeyID := none
  state : Option State := none
  votes : Option UInt64 := none
  data : Option Meta := none
  signatures : List Signature := []
  deriving DecidableEq

def copy32 (b : Bytes) : Raw32 :=
  ⟨(b++List.replicate 32 0).take 32,by simp⟩

lemma copy32_bytes (h : Raw32) : copy32 h.bytes=h := by
  have htake : (h.bytes++List.replicate 32 0).take 32=h.bytes := by
    rw [List.take_append_of_le_length (le_of_eq h.size.symm),List.take_of_length_le (le_of_eq h.size)]
  cases h
  simp only [copy32,htake]

/-- BLAKE2s over CBOR with and without the signatures, Ed25519, and the verbs %v, %X and %x for a digest
and %+v for a message. -/
structure Primitives where
  hash : AUM → AUMHash
  sigHash : AUM → Bytes
  verifyConsensus : Bytes → Bytes → Bytes → Bool
  v : AUMHash → String
  x : AUMHash → String
  lowerX : AUMHash → String
  plusV : AUM → String

def firstErr {α : Type} (f : α → Option Err) (l : List α) : Except Err Unit :=
  match l.findSome? f with
  | some e => .error e
  | none => .ok ()

namespace State

def maxDisablementValues : ℕ := 32
def maxKeys : ℕ := 512
def disablementLength : ℕ := 32

/-- A value of a wrong length or with a duplicate. -/
def badDisablement (vals : List Bytes) (e : Bytes × ℕ) : Option Err :=
  let where_ := "disablement[" ++ toString e.2 ++ "]: "
  if e.1.length≠disablementLength then
    some (.text (where_ ++ "invalid length (got " ++ toString e.1.length ++ ", want 32)"))
  else
    (vals.zipIdx.find? fun d => decide (e.2≠d.2) && decide (e.1=d.1)).map fun d =>
      .text (where_ ++ "duplicates disablement[" ++ toString d.2 ++ "]")

def badKey (e : Key × ℕ) : Option Err :=
  match e.1.staticValidate with
  | .ok _ => none
  | .error err => some (err.wrap ("key[" ++ toString e.2 ++ "]"))

/-- A key with a duplicate. -/
def duplicateKey (keys : List Key) (e : Key × ℕ) : Option Err :=
  keys.zipIdx.findSome? fun d =>
    if e.2=d.2 then none
    else
      match e.1.id,d.1.id with
      | .error err,_ => some (err.wrap ("key[" ++ toString e.2 ++ "]"))
      | .ok _,.error err => some (err.wrap ("key[" ++ toString d.2 ++ "]"))
      | .ok id1,.ok id2 =>
        if id1=id2 then
          some (.text ("key[" ++ toString e.2 ++ "]: duplicates key[" ++ toString d.2 ++ "]"))
        else none

def staticValidateCheckpoint (s : State) : Except Err Unit := do
  let vals := s.disablementValues.getD []
  if s.lastAUMHash.isSome then .error (.text "cannot specify a parent AUM")
  else if vals.length=0 then .error (.text "at least one disablement secret required")
  else if maxDisablementValues<vals.length then
    .error (.text ("too many disablement values (" ++ toString vals.length ++ ", max 32)"))
  else
    firstErr (badDisablement vals) vals.zipIdx
    if s.trusted.length=0 then .error (.text "at least one key is required")
    else if maxKeys < s.trusted.length then
      .error (.text ("too many keys (" ++ toString s.trusted.length ++ ", max 512)"))
    else
      firstErr badKey s.trusted.zipIdx
      firstErr (duplicateKey s.trusted) s.trusted.zipIdx

end State

namespace AUM

/-- The parent's digest, if there is one. A digest of a wrong length is cut off or filled with zeros. -/
def parent (a : AUM) : Option AUMHash :=
  let prev := a.prevAUMHash.getD []
  if 0<prev.length then some (copy32 prev) else none

def badSignature (e : Signature × ℕ) : Option Err :=
  if e.1.keyID.length≠32 ∨ e.1.signature.length≠64 then
    some (.text ("signature " ++ toString e.2 ++ " has missing keyID or malformed signature"))
  else none

/-- The fields that go with the kind of a message. -/
def validateKind (a : AUM) : Except Err Unit :=
  match a.messageKind with
  | .addKey =>
    if a.key.isNone then .error (.text "AddKey AUMs must contain a key")
    else if a.keyID.isSome ∨ a.state.isSome ∨ a.votes.isSome ∨ a.data.isSome then
      .error (.text "AddKey AUMs may only specify a Key")
    else .ok ()
  | .removeKey =>
    if (a.keyID.getD []).length=0 then .error (.text "RemoveKey AUMs must specify a key ID")
    else if a.key.isSome ∨ a.state.isSome ∨ a.votes.isSome ∨ a.data.isSome then
      .error (.text "RemoveKey AUMs may only specify a KeyID")
    else .ok ()
  | .updateKey =>
    if (a.keyID.getD []).length=0 then .error (.text "UpdateKey AUMs must specify a key ID")
    else if a.data.isNone ∧ a.votes.isNone then
      .error (.text "UpdateKey AUMs must contain an update to votes or key metadata")
    else if a.key.isSome ∨ a.state.isSome then
      .error (.text "UpdateKey AUMs may only specify KeyID, Votes, and Meta")
    else .ok ()
  | .checkpoint =>
    if a.state.isNone then .error (.text "Checkpoint AUMs must specify the state")
    else if a.keyID.isSome ∨ a.key.isSome ∨ a.votes.isSome ∨ a.data.isSome then
      .error (.text "Checkpoint AUMs may only specify State")
    else .ok ()
  | _ => .ok ()

def staticValidate (a : AUM) : Except Err Unit := do
  (a.key.map Key.staticValidate).getD (.ok ())
  if a.prevAUMHash=some [] then
    .error (.text "absent parent must be represented by a nil slice")
  else
    firstErr badSignature a.signatures.zipIdx
    ((a.state.map State.staticValidateCheckpoint).getD (.ok ())).mapError (Err.wrap "checkpoint state")
    a.validateKind

/-- One signature of Weight. A key counts once, an unknown one not at all. -/
def weightStep (s : State) (acc : UInt64 × List KeyID) (sig : Signature) :
    Except Fault (UInt64 × List KeyID) :=
  if sig.keyID.length≠32 then .error .panicked
  else
    match s.getKey sig.keyID with
    | .error .noSuchKey => .ok acc
    | .error _ => .error .panicked
    | .ok key =>
      if sig.keyID ∈ acc.2 then .ok acc else .ok (acc.1+key.votes,sig.keyID::acc.2)

def weight (a : AUM) (s : State) : Except Fault UInt64 :=
  (a.signatures.foldlM (weightStep s) (0,[])).map Prod.fst

end AUM

namespace State
variable (X : Primitives)

def cloneForUpdate (s : State) (update : AUM) : State := { s with lastAUMHash := some (X.hash update) }

def parentMatches (s : State) (update : AUM) : Bool :=
  match s.lastAUMHash with
  | none => true
  | some h => h.bytes=update.prevAUMHash.getD []

def replaceKey (id : KeyID) (k : Key) : List Key → Except Err (List Key)
  | [] => .ok []
  | k'::keys => do
    let keyID ← k'.id
    let rest ← replaceKey id k keys
    return (if keyID=id then k else k')::rest

/-- The loop that looks for a key, and the keys without it. -/
def dropKey (id : KeyID) : List Key → Except Err (List Key)
  | [] => .error .noSuchKey
  | k::keys => do
    let keyID ← k.id
    if id=keyID then return keys
    let rest ← dropKey id keys
    return k::rest

def applyVerifiedAUM (s : State) (update : AUM) : Except Err State :=
  if !s.parentMatches update then .error (.text "parent AUMHash mismatch")
  else
    match update.messageKind with
    | .checkpoint =>
      match update.state with
      | none => .error (.text "missing checkpoint state")
      | some st =>
        if st.stateID1≠s.stateID1 ∨ st.stateID2≠s.stateID2 then
          .error (.text "checkpointed state has an incorrect stateID")
        else .ok (st.cloneForUpdate X update)
    | .addKey =>
      match update.key with
      | none => .error (.text "no key to add provided")
      | some k => do
        let keyID ← k.id
        match s.getKey keyID with
        | .ok _ => .error (.text "key already exists")
        | .error _ => .ok { s.cloneForUpdate X update with keys := some (s.trusted++[k]) }
    | .updateKey => do
      let keyID := update.keyID.getD []
      let k ← s.getKey keyID
      let k := { k with votes := update.votes.getD k.votes,data := update.data.or k.data }
      k.staticValidate.mapError (Err.wrap "updated key fails validation")
      let keys ← replaceKey keyID k s.trusted
      return { s.cloneForUpdate X update with keys := some keys }
    | .removeKey => do
      let keys ← dropKey (update.keyID.getD []) s.trusted
      return { s.cloneForUpdate X update with keys := some keys }
    | _ => .ok (s.cloneForUpdate X update)

lemma applyVerifiedAUM_eq_ok {s s' : State} {a : AUM} (h : s.applyVerifiedAUM X a=.ok s') :
    s'.lastAUMHash=some (X.hash a) ∧ ∀ p, s.lastAUMHash=some p → a.prevAUMHash.getD []=p.bytes := by
  rw [applyVerifiedAUM] at h
  obtain ⟨hmatch,h⟩ := guard_eq_ok.mp h
  constructor
  · split at h
    · split at h
      · cases h
      · obtain ⟨-,h⟩ := guard_eq_ok.mp h
        cases h
        rfl
    · split at h
      · cases h
      · obtain ⟨keyID,-,h⟩ := bind_eq_ok.mp h
        split at h
        · cases h
        · cases h
          rfl
    · simp only [bind_eq_ok] at h
      obtain ⟨k,-,⟨⟩,-,keys,-,h⟩ := h
      cases h
      rfl
    · obtain ⟨keys,-,h⟩ := bind_eq_ok.mp h
      cases h
      rfl
    · cases h
      rfl
  · intro p hp
    simp only [parentMatches,hp,Bool.not_eq_true',decide_eq_false_iff_not,not_not] at hmatch
    exact hmatch.symm

end State

end TunnnejiTail.Tka
