import TunnnejiTail.Go.Bytes

/-! The Internet checksum as numbers: words are added up, and every carry out of sixteen bits
is added back in. Data with its checksum in place verifies when all bits of the sum are set. -/
namespace TunnnejiTail.Go

/-- The sum of the big-endian words; a last odd byte is the high byte of a word. -/
def onesSum : Bytes → ℕ
  | hi::lo::rest => hi.toNat*256+lo.toNat+onesSum rest
  | [x] => x.toNat*256
  | [] => 0

def fold16 (n : ℕ) : ℕ := if n=0 then 0 else (n-1)%65535+1

def Verifies (n : ℕ) : Prop := fold16 n=65535

instance (n : ℕ) : Decidable (Verifies n) := inferInstanceAs (Decidable (_=_))

lemma fold16_le (n : ℕ) : fold16 n≤65535 := by
  rw [fold16]
  split_ifs <;> omega

lemma toNat_fold16 (n : ℕ) : (UInt16.ofNat (fold16 n)).toNat=fold16 n := by
  have h := fold16_le n
  rw [UInt16.toNat_ofNat']
  exact Nat.mod_eq_of_lt (by omega)

lemma fold16_add_fold16 (a b : ℕ) : fold16 (a+fold16 b)=fold16 (a+b) := by
  rcases Nat.eq_zero_or_pos b with rfl | hb
  · rfl
  · have hf : fold16 b=(b-1)%65535+1 := if_neg (by omega)
    have hl : fold16 (a+fold16 b)=(a+fold16 b-1)%65535+1 := if_neg (by omega)
    have hr : fold16 (a+b)=(a+b-1)%65535+1 := if_neg (by omega)
    omega

lemma onesSum_append {a : Bytes} (b : Bytes) (ha : a.length%2=0) : onesSum (a++b)=onesSum a+onesSum b := by
  induction a using onesSum.induct with
  | case1 hi lo rest ih =>
    have hrest : rest.length%2=0 := by
      simp only [List.length_cons] at ha
      omega
    change hi.toNat*256+lo.toNat+onesSum (rest++b)=hi.toNat*256+lo.toNat+onesSum rest+onesSum b
    omega
  | case2 x => cases ha
  | case3 => exact (Nat.zero_add _).symm

variable {n : ℕ}

lemma verifies_iff : Verifies n ↔ 0<n ∧ n%65535=0 := by
  rw [Verifies,fold16]
  split_ifs with h
  · refine iff_of_false (by decide) fun hn => ?_
    omega
  · constructor
    · intro hn
      omega
    · intro hn
      omega

lemma verifies_iff_of_add {m n a b : ℕ} (h : n+a=m+b) (hm : Verifies m) (hpos : 0<n) :
    Verifies n ↔ a%65535=b%65535 := by
  have hm := (verifies_iff.mp hm).2
  rw [verifies_iff]
  omega

lemma fold16_mod (n : ℕ) : fold16 n%65535=n%65535 := by
  rw [fold16]
  split_ifs <;> omega

lemma fold16_eq_zero : fold16 n=0 ↔ n=0 := by
  rw [fold16]
  split_ifs with h
  · simp [h]
  · simp [h]

lemma fold16_of_le (h : n≤65535) : fold16 n=n := by
  rw [fold16]
  split_ifs <;> omega

lemma toNat_uint16Of (hi lo : UInt8) : (uint16Of hi lo).toNat=hi.toNat*256+lo.toNat := by
  have hhi := hi.toNat_lt
  have hlo := lo.toNat_lt
  exact Nat.mod_eq_of_lt (by omega)

lemma uint16Of_bytes (v : UInt16) : uint16Of (UInt8.ofNat (v.toNat/256)) (UInt8.ofNat (v.toNat%256))=v := by
  have hv := v.toNat_lt
  rw [← UInt16.toNat_inj,toNat_uint16Of,UInt8.toNat_ofNat',UInt8.toNat_ofNat']
  omega

lemma onesSum_uint16Bytes (v : UInt16) : onesSum (uint16Bytes v)=v.toNat := by
  have hv := v.toNat_lt
  simp only [uint16Bytes,onesSum,UInt8.toNat_ofNat']
  omega

end TunnnejiTail.Go
