import TunnnejiTail.Crypto.Keystream
import TunnnejiTail.Types.Key

/-! The encrypted connections of password-protected ports: ChaCha20 over a TCP stream, with a nonce in
front, and over single UDP datagrams, with a nonce in each. -/
namespace TunnnejiTail.Netstack
open Go Crypto TunnnejiTail.Types List Cipher

def chacha20NonceLen : ℕ := 12

/-- 2^32 blocks of 64 bytes, after which the block counter would overflow. -/
def maxKeystream : ℕ := 274877906944

/-- The keystream of golang.org/x/crypto/chacha20 for a key and a nonce. -/
abbrev Chacha20 := Bytes → Bytes → ℕ → UInt8

/-- Assumed of the library: only the lengths are checked, and the keystream begins. -/
def newUnauthenticatedCipher (x : Chacha20) (key nonce : Bytes) : Option Cipher :=
  if key.length≠32 ∨ (nonce.length≠12 ∧ nonce.length≠24) then none else some ⟨x key nonce,0⟩

lemma newUnauthenticatedCipher_eq (x : Chacha20) (key : Raw32) {nonce : Bytes}
    (h : nonce.length=chacha20NonceLen) :
    newUnauthenticatedCipher x key.bytes nonce=some ⟨x key.bytes nonce,0⟩ := by
  refine if_neg ?_
  rw [key.size,h]
  decide

structure Chacha20Writer where
  cipher : Cipher

/-- NewChacha20Writer with the nonce that was drawn; the first component is what it writes. -/
def newChacha20Writer (x : Chacha20) (nonce : Bytes) (key : Raw32) : Option (Bytes × Chacha20Writer) :=
  (newUnauthenticatedCipher x key.bytes nonce).map fun cipher => (nonce,⟨cipher⟩)

def Chacha20Writer.write (w : Chacha20Writer) (p : Bytes) : Except Fault (Bytes × Chacha20Writer) := do
  let (encrypted,cipher) ← w.cipher.xorKeyStream maxKeystream p
  return (encrypted,⟨cipher⟩)

structure Chacha20Reader where
  cipher : Cipher

def newChacha20Reader (x : Chacha20) (nonce : Bytes) (key : Raw32) : Option Chacha20Reader :=
  (newUnauthenticatedCipher x key.bytes nonce).map fun cipher => ⟨cipher⟩

/-- A Read after the underlying one returned the bytes p[:n] and possibly an error, which is passed on. -/
def Chacha20Reader.read (r : Chacha20Reader) (p : Bytes) (err : Bool) :
    Except Fault (Bytes × Bool × Chacha20Reader) :=
  if 0<p.length then do
    let (decrypted,cipher) ← r.cipher.xorKeyStream maxKeystream p
    return (decrypted,err,⟨cipher⟩)
  else return (p,err,r)

def encryptUDPPacket (x : Chacha20) (nonce plaintext : Bytes) (key : Raw32) : Except Fault (Option Bytes) :=
  match newUnauthenticatedCipher x key.bytes nonce with
  | none => .ok none
  | some cipher => do
    let (ciphertext,_) ← cipher.xorKeyStream maxKeystream plaintext
    return some (nonce++ciphertext)

/-- DecryptUDPPacket; there is no plaintext if the packet is too short. -/
def decryptUDPPacket (x : Chacha20) (packet : Bytes) (key : Raw32) : Except Fault (Option Bytes) :=
  if packet.length < chacha20NonceLen then .ok none
  else do
    let nonce ← slice packet 0 chacha20NonceLen
    match newUnauthenticatedCipher x key.bytes nonce with
    | none => .ok none
    | some cipher =>
      let ciphertext ← sliceFrom packet chacha20NonceLen
      let (out,_) ← cipher.xorKeyStream maxKeystream ciphertext
      return some out

section
variable (x : Chacha20) (key : Raw32) {p : Bytes}

lemma Chacha20Writer.write_of_le {w : Chacha20Writer} (h : w.cipher.pos+p.length ≤ maxKeystream) :
    w.write p=.ok (xorAt w.cipher.keystream w.cipher.pos p, ⟨{ w.cipher with pos := w.cipher.pos+p.length }⟩) := by
  rw [write,xorKeyStream_of_le h]
  rfl

lemma Chacha20Reader.read_of_le {r : Chacha20Reader} (h : r.cipher.pos+p.length ≤ maxKeystream)
    (err : Bool) : r.read p err=.ok (xorAt r.cipher.keystream r.cipher.pos p,err,
      ⟨{ r.cipher with pos := r.cipher.pos+p.length }⟩) := by
  rw [read]
  by_cases hp : 0<p.length
  · rw [if_pos hp,xorKeyStream_of_le h]
    rfl
  · rw [if_neg hp,eq_nil_of_length_eq_zero (Nat.eq_zero_of_not_pos hp)]
    rfl

variable {nonce plaintext : Bytes}

lemma encryptUDPPacket_of_le (hnonce : nonce.length=chacha20NonceLen)
    (h : plaintext.length ≤ maxKeystream) :
    encryptUDPPacket x nonce plaintext key=.ok (some (nonce++xorAt (x key.bytes nonce) 0 plaintext)) := by
  rw [encryptUDPPacket,newUnauthenticatedCipher_eq x key hnonce]
  simp only [xorKeyStream_of_le (c := ⟨x key.bytes nonce,0⟩) (Nat.zero_add plaintext.length ▸ h)]
  rfl

variable {packet : Bytes}

lemma decryptUDPPacket_of_short (h : packet.length < chacha20NonceLen) :
    decryptUDPPacket x packet key=.ok none := if_pos h

def plaintextOf (packet : Bytes) : Bytes :=
  xorAt (x key.bytes (packet.take chacha20NonceLen)) 0 (packet.drop chacha20NonceLen)

lemma length_plaintextOf (packet : Bytes) :
    (plaintextOf x key packet).length=packet.length-chacha20NonceLen := by
  rw [plaintextOf,length_xorAt,length_drop]

section
variable (h : chacha20NonceLen≤packet.length)
include h

lemma decryptUDPPacket_eq : decryptUDPPacket x packet key=((⟨x key.bytes (packet.take chacha20NonceLen),0⟩ :
    Cipher).xorKeyStream maxKeystream (packet.drop chacha20NonceLen)).map fun r => some r.1 := by
  rw [decryptUDPPacket,if_neg (Nat.not_lt.mpr h),slice_of_le (Nat.zero_le _) h,sliceFrom_of_le h]
  simp only [bind,Except.bind,drop_zero,newUnauthenticatedCipher_eq x key (length_take_of_le h)]
  cases Cipher.xorKeyStream .. <;> rfl

lemma decryptUDPPacket_of_le (hmax : packet.length ≤ chacha20NonceLen+maxKeystream) :
    decryptUDPPacket x packet key=.ok (some (plaintextOf x key packet)) := by
  rw [decryptUDPPacket_eq x key h,xorKeyStream_of_le (by simp; omega)]
  rfl

end

lemma decryptUDPPacket_of_lt (hmax : chacha20NonceLen+maxKeystream<packet.length) :
    decryptUDPPacket x packet key=.error .panicked := by
  rw [decryptUDPPacket_eq x key (by omega),xorKeyStream_of_lt (Nat.zero_le _) (by simp; omega)]
  rfl

lemma decryptUDPPacket_encryptUDPPacket
    (hnonce : nonce.length=chacha20NonceLen) (h : encryptUDPPacket x nonce plaintext key=.ok (some packet)) :
    decryptUDPPacket x packet key=.ok (some plaintext) := by
  by_cases hmax : plaintext.length ≤ maxKeystream
  · rw [encryptUDPPacket_of_le x key hnonce hmax] at h
    cases h
    have hlength : (nonce++xorAt (x key.bytes nonce) 0 plaintext).length=chacha20NonceLen+plaintext.length := by
      rw [length_append,length_xorAt,hnonce]
    rw [decryptUDPPacket_of_le x key (by omega) (by omega),plaintextOf,← hnonce,take_left,drop_left, xorAt_xorAt]
  · rw [Nat.not_le] at hmax
    rw [encryptUDPPacket,newUnauthenticatedCipher_eq x key hnonce] at h
    simp only [xorKeyStream_of_lt (c := ⟨x key.bytes nonce,0⟩) (Nat.zero_le _)
      ((Nat.zero_add plaintext.length).symm ▸ hmax)] at h
    cases h

end

end TunnnejiTail.Netstack
