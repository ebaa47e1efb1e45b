import Mathlib.Tactic.Ring
import Mathlib.Tactic.Linarith
import TunnnejiTail.Go.Bytes

/-! Numbers and their big-endian bytes are each other's inverses. -/
namespace TunnnejiTail.Go
open List Nat

lemma beNat_foldl (b : Bytes) (acc : ℕ) :
    b.foldl (fun acc x => acc*256+x.toNat) acc=acc*256^b.length+beNat b := by
  induction b generalizing acc with
  | nil => simp [beNat]
  | cons x b ih =>
    rw [beNat,foldl_cons,foldl_cons,ih,ih (0*256+x.toNat),length_cons]
    ring

lemma beNat_cons (x : UInt8) (b : Bytes) : beNat (x::b)=x.toNat*256^b.length+beNat b := by
  rw [beNat,foldl_cons,beNat_foldl]
  ring

lemma beNat_lt (b : Bytes) : beNat b<256^b.length := by
  induction b with
  | nil => decide
  | cons x b ih =>
    have hx := x.toNat_lt
    rw [beNat_cons,length_cons,pow_succ]
    nlinarith

lemma beBytes_succ (n k : ℕ) : beBytes (n+1) k=UInt8.ofNat (k/256^n)::beBytes n k := by
  rw [beBytes,beBytes,range_succ_eq_map,map_cons,map_map]
  congr 1
  refine map_congr_left fun i _ => ?_
  simp [Nat.sub_sub,Nat.add_comm]

lemma beBytes_add_mul (n k c : ℕ) : beBytes n (c*256^n+k)=beBytes n k := by
  induction n generalizing c with
  | zero => rfl
  | succ n ih =>
    have hpos : 0<256^n := Nat.pow_pos (by decide)
    have hmul : c*256^(n+1)+k=(c*256)*256^n+k := by ring
    have hdiv : (c*256^(n+1)+k)/256^n=c*256+k/256^n := by
      rw [hmul,Nat.add_comm,add_mul_div_right _ _ hpos,Nat.add_comm]
    rw [beBytes_succ,beBytes_succ,hdiv,hmul,ih]
    congr 1
    refine UInt8.toNat.inj ?_
    rw [UInt8.toNat_ofNat',UInt8.toNat_ofNat']
    omega

lemma beBytes_beNat (b : Bytes) : beBytes b.length (beNat b)=b := by
  induction b with
  | nil => rfl
  | cons x b ih =>
    have hpos : 0<256^b.length := Nat.pow_pos (by decide)
    rw [beNat_cons,length_cons,beBytes_succ,beBytes_add_mul,ih,Nat.add_comm,
      add_mul_div_right _ _ hpos,div_eq_of_lt (beNat_lt b),Nat.zero_add,UInt8.ofNat_toNat]

lemma beNat_beBytes (n k : ℕ) : beNat (beBytes n k)=k%256^n := by
  induction n with
  | zero => rw [Nat.pow_zero,mod_one]; rfl
  | succ n ih =>
    have hmod : k%256^(n+1)=k%256^n+256^n*(k/256^n%2^8) :=
      (congrArg (k%·) (pow_succ 256 n)).trans mod_mul
    rw [beBytes_succ,beNat_cons,length_beBytes,ih,UInt8.toNat_ofNat',hmod,Nat.mul_comm,Nat.add_comm]

lemma drop_take_append {b : Bytes} {i j k : ℕ} (hij : i≤j) (hjk : j≤k) :
    (b.take j).drop i++(b.take k).drop j=(b.take k).drop i := by
  have hfst : ((b.take k).drop i).take (j-i)=(b.take j).drop i := by
    rw [← drop_take,take_take,Nat.min_eq_left hjk]
  have hsnd : ((b.take k).drop i).drop (j-i)=(b.take k).drop j := by
    rw [drop_drop,Nat.add_sub_cancel' hij]
  rw [← hfst,← hsnd,take_append_drop]

end TunnnejiTail.Go
