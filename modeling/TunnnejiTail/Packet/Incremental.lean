import TunnnejiTail.Packet.Checksum
import TunnnejiTail.Go.Splice

/-! The incremental updates of a checksum field as numbers. Both keep the sum of the field and
the words it covers modulo 65535. They differ in which of the two zeros they leave. -/
namespace TunnnejiTail.Packet
open Go List

lemma carry_eq_fold16 (n : ℕ) : carry n=fold16 n := by
  induction n using Nat.strongRecOn with
  | _ n ih =>
    rw [carry]
    split_ifs with h
    · rw [fold16_of_le (by omega)]
    · rw [ih _ (by omega),fold16,fold16]
      split_ifs <;> omega

lemma toNat_not (x : UInt16) : (~~~x).toNat=65535-x.toNat := by
  rw [UInt16.toNat_not]
  rfl

def wordDiff : Bytes → Bytes → ℕ
  | o0::o1::old,n0::n1::new =>
    (uint16Of n0 n1).toNat+(65535-(uint16Of o0 o1).toNat)+wordDiff old new
  | _,_ => 0

def Unmoved : Bytes → Bytes → Prop
  | o0::o1::old,n0::n1::new =>
    (uint16Of o0 o1=uint16Of n0 n1 ∨ uint16Of o0 o1=0xffff ∧ uint16Of n0 n1=0) ∧ Unmoved old new
  | _,_ => True

def Emptied : Bytes → Bytes → Prop
  | o0::o1::old,n0::n1::new =>
    (uint16Of o0 o1=0xffff ∧ uint16Of n0 n1=0) ∧ Emptied old new
  | _,_ => True

@[elab_as_elim]
lemma words_induction {motive : Bytes → Bytes → Prop} (nil : motive [] [])
    (cons : ∀ o0 o1 old n0 n1 new, motive old new → motive (o0::o1::old) (n0::n1::new))
    (old new : Bytes) (h : old.length=new.length) (heven : old.length%2=0) : motive old new := by
  induction old,new using wordDiff.induct with
  | case1 o0 o1 old n0 n1 new ih =>
    simp only [length_cons] at h heven
    exact cons o0 o1 old n0 n1 new (ih (by omega) (by omega))
  | case2 old new hne =>
    cases old with
    | nil =>
      cases new with
      | nil => exact nil
      | cons n0 new => cases h
    | cons o0 old =>
      cases old with
      | nil => cases heven
      | cons o1 old =>
        obtain ⟨n0,new,rfl⟩ := exists_cons_of_length_pos (by rw [← h]; simp : 0<new.length)
        simp only [length_cons] at h
        obtain ⟨n1,new,rfl⟩ := exists_cons_of_length_pos (by omega : 0<new.length)
        exact (hne o0 o1 old n0 n1 new rfl rfl).elim

lemma onesSum_le (b : Bytes) : onesSum b≤65535*(b.length/2+1) := by
  induction b using onesSum.induct with
  | case1 hi lo rest ih =>
    have hhi := hi.toNat_lt
    have hlo := lo.toNat_lt
    simp only [onesSum,length_cons]
    omega
  | case2 x =>
    have hx := x.toNat_lt
    simp only [onesSum,length_singleton]
    omega
  | case3 => exact Nat.zero_le _

section
variable {old new : Bytes} (hlen : old.length=new.length) (heven : old.length%2=0)
include hlen heven

lemma replaceWords_eq (c : ℕ) (h : c+wordDiff old new<2^32) :
    replaceWords c old new=c+wordDiff old new := by
  revert c
  refine words_induction ?_ ?_ old new hlen heven
  · intro c _
    rfl
  · intro o0 o1 old n0 n1 new ih c h
    rw [wordDiff] at h ⊢
    rw [replaceWords,toNat_not,Nat.mod_eq_of_lt (by omega),ih _ (by omega)]
    omega

lemma wordDiff_add :
    wordDiff old new+onesSum old=onesSum new+65535*(old.length/2) := by
  refine words_induction ?_ ?_ old new hlen heven
  · rfl
  · intro o0 o1 old n0 n1 new ih
    have ho := o0.toNat_lt
    have ho' := o1.toNat_lt
    simp only [wordDiff,onesSum,toNat_uint16Of,length_cons]
    omega

lemma wordDiff_eq_zero_iff : wordDiff old new=0 ↔ Emptied old new := by
  refine words_induction ?_ ?_ old new hlen heven
  · exact iff_of_true rfl trivial
  · intro o0 o1 old n0 n1 new ih
    have ho := (uint16Of o0 o1).toNat_lt
    have hfull : uint16Of o0 o1=0xffff ↔ (uint16Of o0 o1).toNat=65535 := UInt16.toNat_inj.symm
    have hzero : uint16Of n0 n1=0 ↔ (uint16Of n0 n1).toNat=0 := UInt16.toNat_inj.symm
    rw [wordDiff,Emptied,← ih,hfull,hzero]
    omega

variable (hshort : old.length≤16) (f : UInt16)
include hshort

lemma toNat_updatedSum :
    (updatedSum f old new).toNat=65535-fold16 (65535-f.toNat+wordDiff old new) := by
  have hdiff := wordDiff_add hlen heven
  have hnew := onesSum_le new
  rw [updatedSum,toNat_not,replaceWords_eq hlen heven _ (by rw [toNat_not]; omega),
    carry_eq_fold16,toNat_fold16,toNat_not]

lemma updatedSum_mod :
    ((updatedSum f old new).toNat+onesSum new)%65535=(f.toNat+onesSum old)%65535 := by
  have hdiff := wordDiff_add hlen heven
  have hle := fold16_le (65535-f.toNat+wordDiff old new)
  have hmod := fold16_mod (65535-f.toNat+wordDiff old new)
  have hf := f.toNat_lt
  rw [toNat_updatedSum hlen heven hshort]
  omega

/-- It writes a zero field when the field without the old words and with the new ones is one,
unless there was nothing to add up. -/
theorem updatedSum_eq_zero_iff :
    updatedSum f old new=0 ↔ (f.toNat+onesSum old)%65535=onesSum new%65535 ∧ ¬(f=0xffff ∧ Emptied old new) := by
  rw [← wordDiff_eq_zero_iff hlen heven]
  have hdiff := wordDiff_add hlen heven
  have hf := f.toNat_lt
  have hfull : f=0xffff ↔ f.toNat=65535 := UInt16.toNat_inj.symm
  have hle := fold16_le (65535-f.toNat+wordDiff old new)
  have hverifies := @verifies_iff (65535-f.toNat+wordDiff old new)
  rw [Verifies] at hverifies
  rw [← UInt16.toNat_inj,toNat_updatedSum hlen heven hshort,hfull,UInt16.toNat_zero]
  constructor
  · intro h
    omega
  · intro h
    omega

end

lemma toNat_checksumCombine (a b : UInt16) : (checksumCombine a b).toNat=fold16 (a.toNat+b.toNat) := by
  have ha := a.toNat_lt
  have hb := b.toNat_lt
  rw [checksumCombine,UInt16.toNat_ofNat']
  by_cases hs : a.toNat+b.toNat≤65535
  · rw [fold16_of_le hs,Nat.div_eq_of_lt (by omega)]
    exact Nat.mod_eq_of_lt (by omega)
  · have hdiv : (a.toNat+b.toNat)/2^16=1 := by omega
    rw [hdiv,fold16,if_neg (by omega)]
    omega

variable (x old new : UInt16)

lemma toNat_update2ByteAlignedUint16 :
    (checksumUpdate2ByteAlignedUint16 x old new).toNat =
      if old=new then x.toNat else fold16 (x.toNat+(new.toNat+(65535-old.toNat))) := by
  rw [checksumUpdate2ByteAlignedUint16]
  split_ifs
  · rfl
  · rw [toNat_checksumCombine,toNat_checksumCombine,toNat_not,fold16_add_fold16]

lemma update2ByteAlignedUint16_mod :
    ((checksumUpdate2ByteAlignedUint16 x old new).toNat+old.toNat)%65535 = (x.toNat+new.toNat)%65535 := by
  have hold := old.toNat_lt
  have hmod := fold16_mod (x.toNat+(new.toNat+(65535-old.toNat)))
  rw [toNat_update2ByteAlignedUint16]
  split_ifs with h
  · rw [h]
  · omega

lemma update2ByteAlignedUint16_eq_zero_iff :
    checksumUpdate2ByteAlignedUint16 x old new=0 ↔ x=0 ∧ (old=new ∨ old=0xffff ∧ new=0) := by
  have hold := old.toNat_lt
  have hfull : old=0xffff ↔ old.toNat=65535 := UInt16.toNat_inj.symm
  rw [← UInt16.toNat_inj,toNat_update2ByteAlignedUint16,hfull,← UInt16.toNat_inj (b := 0),
    ← UInt16.toNat_inj (a := new) (b := 0),UInt16.toNat_zero]
  split_ifs with h
  · simp [h]
  · rw [fold16_eq_zero]
    simp only [h,false_or]
    omega

section
variable {old new : Bytes} (hlen : old.length=new.length) (heven : old.length%2=0)
include hlen heven

lemma update2ByteAlignedAddress_mod (x : UInt16) :
    ((checksumUpdate2ByteAlignedAddress x old new).toNat+onesSum old)%65535 = (x.toNat+onesSum new)%65535 := by
  revert x
  refine words_induction ?_ ?_ old new hlen heven
  · intro x
    rfl
  · intro o0 o1 old n0 n1 new ih x
    have hword := update2ByteAlignedUint16_mod x (uint16Of o0 o1) (uint16Of n0 n1)
    have hrest := ih (checksumUpdate2ByteAlignedUint16 x (uint16Of o0 o1) (uint16Of n0 n1))
    rw [toNat_uint16Of,toNat_uint16Of] at hword
    rw [checksumUpdate2ByteAlignedAddress,onesSum,onesSum]
    omega

lemma update2ByteAlignedAddress_eq_zero_iff (x : UInt16) :
    checksumUpdate2ByteAlignedAddress x old new=0 ↔ x=0 ∧ Unmoved old new := by
  revert x
  refine words_induction ?_ ?_ old new hlen heven
  · intro x
    exact (and_true _).symm.to_iff
  · intro o0 o1 old n0 n1 new ih x
    rw [checksumUpdate2ByteAlignedAddress,ih,update2ByteAlignedUint16_eq_zero_iff,Unmoved,and_assoc]

def updatedSum6 (f : UInt16) (old new : Bytes) : UInt16 :=
  ~~~checksumUpdate2ByteAlignedAddress (~~~f) old new

lemma updatedSum6_mod (f : UInt16) :
    ((updatedSum6 f old new).toNat+onesSum new)%65535=(f.toNat+onesSum old)%65535 := by
  have hf := f.toNat_lt
  have hmod := update2ByteAlignedAddress_mod hlen heven (~~~f)
  have hx := (checksumUpdate2ByteAlignedAddress (~~~f) old new).toNat_lt
  rw [toNat_not] at hmod
  rw [updatedSum6,toNat_not]
  omega

lemma updatedSum6_eq_zero_iff (f : UInt16) :
    updatedSum6 f old new=0 ↔ (f.toNat+onesSum old)%65535=onesSum new%65535 ∧ ¬(f=0xffff ∧ Unmoved old new) := by
  have hf := f.toNat_lt
  have hmod := update2ByteAlignedAddress_mod hlen heven (~~~f)
  have hx := (checksumUpdate2ByteAlignedAddress (~~~f) old new).toNat_lt
  have hzero := update2ByteAlignedAddress_eq_zero_iff hlen heven (~~~f)
  have hfull : (~~~f)=0 ↔ f=0xffff := by
    rw [← UInt16.toNat_inj,← UInt16.toNat_inj,toNat_not,UInt16.toNat_zero]
    change _ ↔ f.toNat=65535
    omega
  rw [hfull,← UInt16.toNat_inj,UInt16.toNat_zero] at hzero
  rw [toNat_not] at hmod
  rw [← hzero,← UInt16.toNat_inj,updatedSum6,toNat_not,UInt16.toNat_zero]
  omega

end

end TunnnejiTail.Packet
