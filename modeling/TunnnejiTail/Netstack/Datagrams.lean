import Mathlib.Data.List.TakeWhile
import TunnnejiTail.Netstack.Crypto

/-! The copy of a password-protected UDP session from the client to the backend. -/
namespace TunnnejiTail.Netstack
open Go Crypto TunnnejiTail.Types List

/-- encryptedUDPPacketConn.ReadFrom into a buffer when a datagram has come: the bytes it leaves in the
buffer, or nothing if it returns an error. -/
def readFrom (x : Chacha20) (key : Raw32) (bufLen : ℕ) (datagram : Bytes) : Except Fault (Option Bytes) := do
  let dec ← decryptUDPPacket x (datagram.take bufLen) key
  return dec.map fun dec => dec.take bufLen

/-- The goroutine of startPacketCopy: whether the context of the session is done, whether the goroutine
has returned, and what it has written to the backend. -/
structure PacketCopy where
  ctxDone : Bool := false
  returned : Bool := false
  delivered : List Bytes := []
  deriving DecidableEq

namespace PacketCopy
variable (x : Chacha20) (key : Raw32) (bufLen : ℕ)

/-- One round of the loop. An error of the read ends it and cancels the context. -/
def datagram (s : PacketCopy) (d : Bytes) : Except Fault PacketCopy :=
  if s.returned then .ok s
  else if s.ctxDone then .ok { s with returned := true }
  else do
    match ← readFrom x key bufLen d with
    | none => return { s with returned := true,ctxDone := true }
    | some pkt => return { s with delivered := s.delivered++[pkt] }

def datagrams (s : PacketCopy) (ds : List Bytes) : Except Fault PacketCopy := ds.foldlM (datagram x key bufLen) s

def longEnough (d : Bytes) : Bool := chacha20NonceLen≤d.length

section
variable {bufLen} (hbuf : chacha20NonceLen≤bufLen) (hmax : bufLen ≤ chacha20NonceLen+maxKeystream)
include hbuf hmax

lemma readFrom_of_longEnough {d : Bytes} (hd : longEnough d=true) :
    readFrom x key bufLen d=.ok (some (plaintextOf x key (d.take bufLen))) := by
  have hlong : chacha20NonceLen≤(d.take bufLen).length := by
    rw [length_take]
    exact Nat.le_min.mpr ⟨hbuf,of_decide_eq_true hd⟩
  have hshort : (d.take bufLen).length≤bufLen := length_take_le ..
  have hout : (plaintextOf x key (d.take bufLen)).length≤bufLen := by
    rw [length_plaintextOf]
    omega
  rw [readFrom,decryptUDPPacket_of_le x key hlong (by omega)]
  change Except.ok (some (take bufLen _))=_
  rw [take_of_length_le hout]

omit hbuf hmax in
lemma readFrom_of_not_longEnough {d : Bytes} (hd : longEnough d=false) : readFrom x key bufLen d=.ok none := by
  have hshort : (d.take bufLen).length < chacha20NonceLen := by
    have hlt : d.length < chacha20NonceLen := Nat.not_le.mp (of_decide_eq_false hd)
    rw [length_take]
    omega
  rw [readFrom,decryptUDPPacket_of_short x key hshort]
  rfl

omit hbuf hmax in
lemma datagrams_of_returned {s : PacketCopy} (hs : s.returned=true) (ds : List Bytes) :
    s.datagrams x key bufLen ds=.ok s := by
  induction ds with
  | nil => rfl
  | cons d ds ih =>
    rw [datagrams,foldlM_cons,datagram,if_pos hs]
    exact ih

lemma datagrams_eq {s : PacketCopy} (hs : s.returned=false) (hctx : s.ctxDone=false) (ds : List Bytes) :
    s.datagrams x key bufLen ds=.ok
      { ctxDone := !ds.all longEnough
        returned := !ds.all longEnough
        delivered := s.delivered++(ds.takeWhile longEnough).map fun d => plaintextOf x key (d.take bufLen) } := by
  induction ds generalizing s with
  | nil =>
    obtain ⟨ctxDone,returned,delivered⟩ := s
    cases hs
    cases hctx
    rw [takeWhile_nil,map_nil,append_nil]
    rfl
  | cons d ds ih =>
    rw [datagrams,foldlM_cons,datagram,if_neg (by rw [hs]; exact Bool.false_ne_true),
      if_neg (by rw [hctx]; exact Bool.false_ne_true)]
    by_cases hd : longEnough d=true
    · rw [readFrom_of_longEnough x key hbuf hmax hd]
      refine (ih (s := { s with delivered := s.delivered++[plaintextOf x key (d.take bufLen)] }) hs hctx).trans ?_
      rw [all_cons,hd,Bool.true_and,takeWhile_cons_of_pos hd,map_cons,append_assoc]
      rfl
    · have hd' : longEnough d=false := Bool.not_eq_true _ ▸ hd
      rw [readFrom_of_not_longEnough x key hd']
      refine (datagrams_of_returned x key (s := { s with returned := true,ctxDone := true }) rfl ds).trans ?_
      rw [all_cons,hd',Bool.false_and,takeWhile_cons_of_neg hd,map_nil,append_nil]
      rfl

omit hbuf hmax in
variable (bufLen) in
/-- The session goes on after the datagrams, and the backend has got the plaintexts of those that have
room for a nonce, which are the original ones where the other end encrypted them. -/
structure Survives (ds : List Bytes) : Prop where
  delivered : ∃ s, ({} : PacketCopy).datagrams x key bufLen ds=.ok s ∧ s.returned=false ∧ s.ctxDone=false ∧
    s.delivered.map (fun p => .ok (some p))=(ds.filter longEnough).map fun d => decryptUDPPacket x d key
  original : ∀ d ∈ ds, ∀ nonce p, nonce.length=chacha20NonceLen →
    encryptUDPPacket x nonce p key=.ok (some d) → decryptUDPPacket x d key=.ok (some p)

/-- A session survives exactly the datagrams that have room for a nonce and fit into the buffer. -/
theorem copy_survives_iff (ds : List Bytes) : Survives x key bufLen ds ↔
    ∀ d ∈ ds, chacha20NonceLen≤d.length ∧ d.length≤bufLen := by
  have horiginal : ∀ d ∈ ds, ∀ nonce p, nonce.length=chacha20NonceLen →
      encryptUDPPacket x nonce p key=.ok (some d) → decryptUDPPacket x d key=.ok (some p) :=
    fun d _ nonce p hnonce henc => decryptUDPPacket_encryptUDPPacket x key hnonce henc
  have hrun := datagrams_eq x key hbuf hmax (s := {}) rfl rfl ds
  constructor
  · rintro ⟨⟨s,hs,hreturned,-,hdelivered⟩,-⟩
    cases hrun.symm.trans hs
    have hall : ∀ d ∈ ds, longEnough d=true := all_eq_true.mp (by simpa using hreturned)
    rw [takeWhile_eq_self_iff.mpr hall,filter_eq_self.mpr hall,nil_append,map_map] at hdelivered
    intro d hd
    refine ⟨of_decide_eq_true (hall d hd),?_⟩
    by_contra hlong
    have heq := map_inj_left.mp hdelivered d hd
    by_cases hfits : d.length ≤ chacha20NonceLen+maxKeystream
    · rw [decryptUDPPacket_of_le x key (of_decide_eq_true (hall d hd)) hfits] at heq
      have hlength := congrArg List.length (Option.some.inj (Except.ok.inj heq))
      rw [length_plaintextOf,length_plaintextOf,length_take] at hlength
      omega
    · rw [decryptUDPPacket_of_lt x key (Nat.not_le.mp hfits)] at heq
      cases heq
  · intro hds
    have hall : ∀ d ∈ ds, longEnough d=true := fun d hd => decide_eq_true (hds d hd).1
    refine ⟨⟨_,hrun,?_,?_,?_⟩,horiginal⟩
    · rw [all_eq_true.mpr hall]
      rfl
    · rw [all_eq_true.mpr hall]
      rfl
    · rw [takeWhile_eq_self_iff.mpr hall,filter_eq_self.mpr hall,nil_append,map_map]
      refine map_congr_left fun d hd => ?_
      obtain ⟨hlow,hhigh⟩ := hds d hd
      rw [decryptUDPPacket_of_le x key hlow (by omega)]
      exact congrArg (fun d => Except.ok (some (plaintextOf x key d))) (take_of_length_le hhigh)

end

/-- A datagram with one byte of plaintext. -/
theorem survives_one_byte : Survives (fun _ _ _ => 0) (.fill 0) 65503 [List.replicate 13 5] :=
  (copy_survives_iff (fun _ _ _ => 0) (.fill 0) (by decide) (by decide) [replicate 13 5]).mpr (by decide)

/-- One byte of junk ends the session, and the datagram after it is lost. -/
theorem junk_ends_session :
    ({} : PacketCopy).datagrams (fun _ _ _ => 0) (.fill 0) 65503 [[1],List.replicate 13 5]=.ok ⟨true,true,[]⟩ ∧
    ¬Survives (fun _ _ _ => 0) (.fill 0) 65503 [[1],List.replicate 13 5] := by
  have hrun : ({} : PacketCopy).datagrams (fun _ _ _ => 0) (.fill 0) 65503 [[1],replicate 13 5]
      = .ok ⟨true,true,[]⟩ := datagrams_eq _ _ (by decide) (by decide) rfl rfl _
  refine ⟨hrun,?_⟩
  rintro ⟨⟨s,hs,hreturned,-⟩,-⟩
  cases hrun.symm.trans hs
  cases hreturned

end PacketCopy

end TunnnejiTail.Netstack
