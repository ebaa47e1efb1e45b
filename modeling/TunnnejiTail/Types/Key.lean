import TunnnejiTail.Go.Bytes
import TunnnejiTail.Go.Strings

/-! The public keys of nodes. -/
namespace TunnnejiTail.Types
open Go List

structure Raw32 where
  bytes : Bytes
  size : bytes.length=32
  deriving DecidableEq

abbrev NodePublic := Raw32
abbrev DiscoPublic := Raw32
abbrev MachinePublic := Raw32

def b64 (input : UInt8) : UInt8 :=
  input + 65 + (if 25 < input then 6 else 0) - (if 51 < input then 75 else 0)
    - (if 61 < input then 15 else 0) + (if 62 < input then 3 else 0)

def nodePublicBinaryPrefix : Bytes := [110,112]

namespace Raw32

def fill (b : UInt8) : Raw32 := ⟨List.replicate 32 b,length_replicate⟩

def isZero (k : Raw32) : Bool := k=fill 0

/-- The text that wireguard-go prints for a key. It shows 45 bits of it. -/
def wireGuardGoString (k : NodePublic) : Str :=
  let b (i : ℕ) : UInt8 := k.bytes.getD i 0
  let letters := fun l : List UInt8 => l.map fun x => Char.ofNat (b64 x).toNat
  "peer(".toList++letters [(b 0 >>> 2) &&& 63,((b 0 <<< 4) ||| (b 1 >>> 4)) &&& 63,
    ((b 1 <<< 2) ||| (b 2 >>> 6)) &&& 63,b 2 &&& 63] ++ "…".toList ++
  letters [b 29 &&& 63,(b 30 >>> 2) &&& 63,((b 30 <<< 4) ||| (b 31 >>> 4)) &&& 63, (b 31 <<< 2) &&& 63] ++ ")".toList

def marshalBinary (k : NodePublic) : Bytes := nodePublicBinaryPrefix++k.bytes

lemma length_marshalBinary (k : NodePublic) : k.marshalBinary.length=34 := by
  rw [marshalBinary,length_append,k.size]
  rfl

/-- The key that a binary form stands for; the error is the text. -/
def unmarshalBinary (data : Bytes) : Except String NodePublic :=
  if nodePublicBinaryPrefix.isPrefixOf data then
    if h : (data.drop 2).length=32 then .ok ⟨data.drop 2,h⟩
    else .error ("incorrect len for NodePublic (" ++ toString data.length ++ " != 34)")
  else .error "missing/incorrect type prefix np"

lemma unmarshalBinary_eq_ok {data : Bytes} {k : NodePublic} :
    unmarshalBinary data=.ok k ↔ k.marshalBinary=data := by
  rw [unmarshalBinary]
  constructor
  · intro h
    split at h
    · next hp =>
      split at h
      · cases h
        obtain ⟨rest,rfl⟩ := isPrefixOf_iff_prefix.mp hp
        rfl
      · cases h
    · cases h
  · rintro rfl
    have hp : nodePublicBinaryPrefix.isPrefixOf k.marshalBinary=true :=
      isPrefixOf_iff_prefix.mpr ⟨k.bytes,rfl⟩
    rw [if_pos hp,dif_pos (show (k.marshalBinary.drop 2).length=32 from k.size)]
    rfl

end Raw32

end TunnnejiTail.Types
