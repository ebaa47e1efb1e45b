import TunnnejiTail.Go.Maps
import TunnnejiTail.Types.Key

/-! The state of a tailnet key authority and the update messages (AUMs) that change it. The digest of
an AUM is an argument, for nothing here looks into it. -/
namespace TunnnejiTail.Tka
open Go TunnnejiTail.Types

/-- Errors: the two that callers compare with, and all others by their text. -/
inductive Err
  | noSuchKey
  | notExist
  | text (s : String)
  deriving DecidableEq

def Err.error : Err → String
  | .noSuchKey => "key not found"
  | .notExist => "file does not exist"
  | .text s => s

def Err.wrap (s : String) (e : Err) : Err := .text (s ++ ": " ++ e.error)

abbrev KeyID := Bytes
abbrev AUMHash := Raw32
abbrev Meta := GoMap Str Str

inductive KeyKind
  | invalid
  | key25519
  | unknown (k : UInt8) (h : 1<k)
  deriving DecidableEq

def KeyKind.string : KeyKind → String
  | .invalid => "invalid"
  | .key25519 => "25519"
  | .unknown k _ => "Key?<" ++ toString k.toNat ++ ">"

structure Key where
  kind : KeyKind
  votes : UInt64
  pub : Bytes
  data : Option Meta
  deriving DecidableEq

namespace Key

def id (k : Key) : Except Err KeyID :=
  match k.kind with
  | .key25519 => .ok k.pub
  | kind => .error (.text ("unknown key kind: " ++ kind.string))

def maxMetaBytes : ℕ := 512

def metaBytes (m : Option Meta) : ℕ :=
  (m.getD ∅).entries.foldl (fun n e => n+(e.1.length+e.2.length)) 0

def staticValidate (k : Key) : Except Err Unit :=
  if 4096<k.votes then
    .error (.text ("excessive key weight: " ++ toString k.votes.toNat ++ " > 4096"))
  else if k.votes=0 then .error (.text "key votes must be non-zero")
  else if maxMetaBytes < metaBytes k.data then
    .error (.text ("key metadata too big (" ++ toString (metaBytes k.data) ++ " > 512)"))
  else
    match k.kind with
    | .key25519 => .ok ()
    | kind => .error (.text ("unrecognized key kind: " ++ kind.string))

end Key

structure State where
  lastAUMHash : Option AUMHash
  disablementValues : Option (List Bytes)
  keys : Option (List Key)
  stateID1 : UInt64
  stateID2 : UInt64
  deriving DecidableEq

namespace State

def zero : State := ⟨none,none,none,0,0⟩

def trusted (s : State) : List Key := s.keys.getD []

/-- The loop of GetKey. A key of an unknown kind ends it with an error. -/
def findKey (id : KeyID) : List Key → Except Err Key
  | [] => .error .noSuchKey
  | k::keys => do
    let keyID ← k.id
    if keyID=id then return k
    findKey id keys

def getKey (s : State) (id : KeyID) : Except Err Key := findKey id s.trusted

end State

end TunnnejiTail.Tka
