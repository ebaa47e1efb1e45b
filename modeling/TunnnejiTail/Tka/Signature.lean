import TunnnejiTail.Go.Loops
import TunnnejiTail.Tka.State

/-! Node-key signatures. A signature is a chain: a rotation nests the signature it replaces, down to
one made by a trusted key. CBOR, BLAKE2s and Ed25519 are parameters. -/
namespace TunnnejiTail.Tka
open Go TunnnejiTail.Types

inductive SigKind
  | invalid
  | direct
  | rotation
  | credential
  | unknown (k : UInt8) (h : 3<k)
  deriving DecidableEq

def SigKind.string : SigKind → String
  | .invalid => "invalid"
  | .direct => "direct"
  | .rotation => "rotation"
  | .credential => "credential"
  | .unknown k _ => "Sig?<" ++ toString k.toNat ++ ">"

/-- The fields of a NodeKeySignature other than Nested. -/
structure SigLevel where
  sigKind : SigKind
  pubkey : Bytes := []
  keyID : KeyID := []
  signature : Bytes := []
  wrappingPubkey : Bytes := []
  deriving DecidableEq

structure NodeKeySignature where
  top : SigLevel
  nested : List SigLevel
  deriving DecidableEq

def NodeKeySignature.levels (s : NodeKeySignature) : ℕ := s.nested.length+1

structure Scheme (B : Type) where
  serialize : NodeKeySignature → B
  unserialize : B → Except Err NodeKeySignature
  sum256 : B → Bytes
  verify : Bytes → Bytes → Bytes → Bool
  verifyConsensus : Bytes → Bytes → Bytes → Bool

structure NLPrivate where
  pub : Bytes
  signNKS : Bytes → Bytes

/-- The public key that must sign a signature which embeds this one. -/
def wrappingPublic (s : SigLevel) (nested : List SigLevel) : Option Bytes :=
  if 0 < s.wrappingPubkey.length then some s.wrappingPubkey
  else
    match s.sigKind,nested with
    | .rotation,n::ns => wrappingPublic n ns
    | _,_ => none

def authorizingKeyID (s : SigLevel) (nested : List SigLevel) : Except Err KeyID :=
  match s.sigKind,nested with
  | .direct,_ | .credential,_ =>
    if s.keyID.length=0 then .error (.text "invalid signature: no keyID present") else .ok s.keyID
  | .rotation,[] =>
    .error (.text "invalid signature: rotation signature missing nested signature")
  | .rotation,n::ns => authorizingKeyID n ns
  | kind,_ => .error (.text ("unhandled signature type: " ++ kind.string))

section
variable {B : Type} (S : Scheme B)

def sigHash (s : SigLevel) (nested : List SigLevel) : Bytes :=
  S.sum256 (S.serialize ⟨{ s with signature := [] },nested⟩)

def nestedPub (n : SigLevel) : Except Err NodePublic :=
  if n.sigKind=.credential then .ok (.fill 0)
  else (Raw32.unmarshalBinary n.pubkey).mapError fun e => .text ("nested pubkey: " ++ e)

def verifySignature (verificationKey : Key) (nodeKey : NodePublic) (s : SigLevel)
    (nested : List SigLevel) : Except Err Unit :=
  if s.sigKind≠.credential ∧ nodeKey.marshalBinary≠s.pubkey then
    .error (.text "signature does not authorize nodeKey")
  else
    match s.sigKind,nested with
    | .rotation,[] => .error (.text "nested signatures must nest a signature")
    | .rotation,n::ns =>
      match wrappingPublic n ns with
      | none => .error (.text "missing rotation key")
      | some verifyPub =>
        if verifyPub.length≠32 then
          .error (.text ("bad rotation key length: " ++ toString verifyPub.length))
        else if S.verify verifyPub (sigHash S s (n::ns)) s.signature then
          match nestedPub n with
          | .error e => .error e
          | .ok pub => (verifySignature verificationKey pub n ns).mapError (Err.wrap "nested")
        else .error (.text "invalid signature")
    | .direct,[] | .credential,[] =>
      match verificationKey.kind with
      | .key25519 =>
        if verificationKey.pub.length≠32 then
          .error (.text ("ed25519 key has wrong length: " ++ toString verificationKey.pub.length))
        else if S.verifyConsensus verificationKey.pub (sigHash S s []) s.signature then .ok ()
        else .error (.text "invalid signature")
      | kind => .error (.text ("unhandled key type: " ++ kind.string))
    | .direct,_::_ | .credential,_::_ =>
      .error (.text ("invalid signature: signatures of type " ++ s.sigKind.string ++ " cannot nest another signature"))
    | kind,_ => .error (.text ("unhandled signature type: " ++ kind.string))
  termination_by structural nested

/-- The node keys that were rotated out and the first signature of the chain. -/
structure RotationDetails where
  prevNodeKeys : List NodePublic
  initialSig : Option NodeKeySignature
  deriving DecidableEq

def prevNodeKey (n : SigLevel) : Except Err (List NodePublic) :=
  if 0<n.pubkey.length then
    match Raw32.unmarshalBinary n.pubkey with
    | .ok k => .ok [k]
    | .error e => .error (.text ("nested pubkey: " ++ e))
  else .ok []

/-- The loop of rotationDetails. -/
def rotationLoop : List SigLevel → Except Err RotationDetails
  | [] => .ok ⟨[],none⟩
  | n::ns => do
    let keys ← prevNodeKey n
    if n.sigKind≠.rotation then return ⟨keys,some ⟨n,ns⟩⟩
    let rest ← rotationLoop ns
    return ⟨keys++rest.prevNodeKeys,rest.initialSig⟩

def rotationDetails (s : NodeKeySignature) : Except Err (Option RotationDetails) :=
  if s.top.sigKind≠.rotation then .ok none else (rotationLoop s.nested).map some

/-- For an authority in a state. -/
def nodeKeyAuthorizedWithDetails (st : State) (nodeKey : NodePublic) (nks : B) :
    Except Err (Option RotationDetails) := do
  let decoded ← (S.unserialize nks).mapError (Err.wrap "unserialize")
  if decoded.top.sigKind=.credential then
    .error (.text "credential signatures cannot authorize nodes on their own")
  else
    let kID ← authorizingKeyID decoded.top decoded.nested
    let key ← (st.getKey kID).mapError (Err.wrap "key")
    verifySignature S key nodeKey decoded.top decoded.nested
    rotationDetails decoded

def nodeKeyAuthorized (st : State) (nodeKey : NodePublic) (nks : B) : Except Err Unit :=
  (nodeKeyAuthorizedWithDetails S st nodeKey nks).map fun _ => ()

def signRotation (priv : NLPrivate) (pubkey : Bytes) (nested : List SigLevel) : SigLevel :=
  { sigKind := .rotation
    pubkey := pubkey
    signature := priv.signNKS (sigHash S { sigKind := .rotation,pubkey := pubkey } nested) }

/-- The previous node keys of a chain and the chain from its first signature on. -/
def prevPubkeys : List SigLevel → List Bytes × List SigLevel
  | [] => ([],[])
  | n::ns =>
    let key := if 0<n.pubkey.length then [n.pubkey] else []
    if n.sigKind≠.rotation then (key,n::ns)
    else
      let rest := prevPubkeys ns
      (key++rest.1,rest.2)

def maxPrevKeys : ℕ := 15

/-- At most 15 node keys are left in a chain; those in between are dropped and the others signed
again. -/
def maybeTrimRotationSignatureChain (priv : NLPrivate) (sig : NodeKeySignature) : NodeKeySignature :=
  if sig.top.sigKind≠.rotation then sig
  else
    let (prev,initial) := prevPubkeys sig.nested
    if (sig.top.pubkey::prev).length ≤ maxPrevKeys then sig
    else
      let nested := (prev.take (maxPrevKeys-2)).foldr (fun k chain => signRotation S priv k chain::chain)
        initial
      ⟨signRotation S priv sig.top.pubkey nested,nested⟩

def resignNKS (priv : NLPrivate) (nodeKey : NodePublic) (oldNKS : B) : Except Err B := do
  let oldSig ← (S.unserialize oldNKS).mapError (Err.wrap "decoding NKS")
  if nodeKey.marshalBinary=oldSig.top.pubkey then return oldNKS
  let nested := maybeTrimRotationSignatureChain S priv oldSig
  let chain := nested.top::nested.nested
  return S.serialize ⟨signRotation S priv nodeKey.marshalBinary chain,chain⟩

end

end TunnnejiTail.Tka
