import TunnnejiTail.Go.Loops
import TunnnejiTail.Go.Bytes

/-! A stream cipher as a keystream that is indexed by byte position and of which only so many bytes may
be used. Pieces of a text are encrypted one after the other as the whole text would be. -/
namespace TunnnejiTail.Crypto
open Go List

def xorAt (ks : ℕ → UInt8) : ℕ → Bytes → Bytes
  | _,[] => []
  | pos,x::b => (x ^^^ ks pos)::xorAt ks (pos+1) b

section
variable (ks : ℕ → UInt8)

@[simp] lemma length_xorAt (pos : ℕ) (b : Bytes) : (xorAt ks pos b).length=b.length := by
  induction b generalizing pos with
  | nil => rfl
  | cons x b ih => simp [xorAt,ih]

lemma xorAt_append (pos : ℕ) (b b' : Bytes) :
    xorAt ks pos (b++b')=xorAt ks pos b++xorAt ks (pos+b.length) b' := by
  induction b generalizing pos with
  | nil => rfl
  | cons x b ih =>
    rw [cons_append,xorAt,xorAt,ih,cons_append,length_cons,Nat.add_assoc,Nat.add_comm 1]

@[simp] lemma xorAt_xorAt (pos : ℕ) (b : Bytes) : xorAt ks pos (xorAt ks pos b)=b := by
  induction b generalizing pos with
  | nil => rfl
  | cons x b ih => rw [xorAt,xorAt,ih,UInt8.xor_assoc,UInt8.xor_self,UInt8.xor_zero]

variable (pos n : ℕ) (b : Bytes)

lemma take_xorAt : (xorAt ks pos b).take n=xorAt ks pos (b.take n) := by
  induction b generalizing pos n with
  | nil => cases n <;> rfl
  | cons x b ih =>
    cases n with
    | zero => rfl
    | succ n => simp [xorAt,ih]

lemma drop_xorAt : (xorAt ks pos b).drop n=xorAt ks (pos+n) (b.drop n) := by
  induction b generalizing pos n with
  | nil => cases n <;> rfl
  | cons x b ih =>
    cases n with
    | zero => rfl
    | succ n => simp [xorAt,ih,Nat.add_assoc,Nat.add_comm 1]

end

structure Cipher where
  keystream : ℕ → UInt8
  pos : ℕ := 0

namespace Cipher
variable (limit : ℕ)

/-- Asking for more than the limit is a panic; asking for nothing never is. -/
def xorKeyStream (c : Cipher) (src : Bytes) : Except Fault (Bytes × Cipher) :=
  if src≠[] ∧ limit < c.pos+src.length then .error .panicked
  else .ok (xorAt c.keystream c.pos src,{ c with pos := c.pos+src.length })

variable {limit} {c : Cipher}

lemma xorKeyStream_of_le {src : Bytes} (h : c.pos+src.length≤limit) :
    c.xorKeyStream limit src=.ok (xorAt c.keystream c.pos src,{ c with pos := c.pos+src.length }) :=
  if_neg fun hlt => absurd hlt.2 (Nat.not_lt.mpr h)

lemma xorKeyStream_of_lt {src : Bytes} (hc : c.pos≤limit) (h : limit < c.pos+src.length) :
    c.xorKeyStream limit src=.error .panicked := by
  refine if_pos ⟨?_,h⟩
  rintro rfl
  exact absurd h (Nat.not_lt.mpr hc)

lemma foldlM_returns_iff (hc : c.pos≤limit) (srcs : List Bytes) :
    (∃ c', srcs.foldlM (fun c src => Prod.snd <$> c.xorKeyStream limit src) c=.ok c') ↔
      c.pos+srcs.flatten.length≤limit := by
  induction srcs generalizing c with
  | nil => exact iff_of_true ⟨c,rfl⟩ hc
  | cons src srcs ih =>
    rw [foldlM_cons,flatten_cons,length_append]
    by_cases hle : c.pos+src.length≤limit
    · rw [xorKeyStream_of_le hle]
      exact (ih hle).trans (by rw [Nat.add_assoc])
    · rw [Nat.not_le] at hle
      rw [xorKeyStream_of_lt hc hle]
      refine iff_of_false (fun h => ?_) (by omega)
      obtain ⟨c',h⟩ := h
      cases h

end Cipher

end TunnnejiTail.Crypto
