import TunnnejiTail.Go.Loops
import TunnnejiTail.Go.BigEndian

/-! Filling a buffer from front to back through a slice that is moved along, and reading one back. -/
namespace TunnnejiTail.Go
open List

structure Cursor where
  done : Bytes
  rest : Bytes

namespace Cursor

def bytes (c : Cursor) : Bytes := c.done++c.rest

def copy (v : Bytes) (c : Cursor) : Cursor := { c with rest := v.take c.rest.length++c.rest.drop v.length }

/-- The first n bytes become the number k, as by BigEndian.PutUint32(p, k). -/
def putUint (n k : ℕ) (c : Cursor) : Except Fault Cursor :=
  if n ≤ c.rest.length then .ok { c with rest := beBytes n k++c.rest.drop n } else .error .indexOutOfRange

/-- The same behind the first i bytes, as by BigEndian.PutUint16(p[i:], k). -/
def putUintAt (i n k : ℕ) (c : Cursor) : Except Fault Cursor :=
  if c.rest.length < i then .error .sliceBounds
  else if i+n ≤ c.rest.length then .ok { c with rest := c.rest.take i++(beBytes n k++c.rest.drop (i+n)) }
  else .error .indexOutOfRange

def advance (n : ℕ) (c : Cursor) : Except Fault Cursor :=
  if n ≤ c.rest.length then .ok ⟨c.done++c.rest.take n,c.rest.drop n⟩ else .error .sliceBounds

/-- append(p[:0], v...), which fills p if its capacity, its length and what is to spare, is large enough. -/
def appendTo (spare : ℕ) (v : Bytes) (c : Cursor) : Cursor := if v.length ≤ c.rest.length+spare then c.copy v else c

def Writes (f : Cursor → Except Fault Cursor) (v : Bytes) : Prop :=
  ∀ c : Cursor, v.length ≤ c.rest.length → f c=.ok ⟨c.done++v,c.rest.drop v.length⟩

def Fills (f : Cursor → Except Fault Cursor) (v : Bytes) : Prop :=
  ∀ c : Cursor, v.length ≤ c.rest.length → ∃ c', f c=.ok c' ∧ c'.bytes=c.done++(v++c.rest.drop v.length)

variable {c : Cursor} {v : Bytes}

lemma copy_of_le (h : v.length ≤ c.rest.length) : c.copy v=⟨c.done,v++c.rest.drop v.length⟩ := by
  rw [copy,take_of_length_le h]

lemma advance_append (done v rest : Bytes) : advance v.length ⟨done,v++rest⟩=.ok ⟨done++v,rest⟩ := by
  rw [advance,if_pos (by rw [length_append]; exact Nat.le_add_right ..),take_left,drop_left]

lemma writes_copy (v : Bytes) : Writes (fun c => (c.copy v).advance v.length) v := by
  intro c h
  dsimp only
  rw [copy_of_le h,advance_append]

lemma writes_putUint (n k : ℕ) : Writes (fun c => do (← c.putUint n k).advance n) (beBytes n k) := by
  intro c h
  have hmove := advance_append c.done (beBytes n k) (c.rest.drop n)
  rw [length_beBytes] at h hmove ⊢
  dsimp only
  rw [putUint,if_pos h]
  exact hmove

lemma copy_putUintAt {n : ℕ} (h : v.length+n ≤ c.rest.length) (k : ℕ) :
    (c.copy v).putUintAt v.length n k=.ok ⟨c.done,v++(beBytes n k++c.rest.drop (v.length+n))⟩ := by
  have hlen : (v++c.rest.drop v.length).length=c.rest.length := by
    rw [length_append,length_drop]
    omega
  have hrest : (v++c.rest.drop v.length).drop (v.length+n)=c.rest.drop (v.length+n) := by
    rw [← drop_drop,drop_left,drop_drop]
  rw [copy_of_le (by omega),putUintAt,if_neg (by rw [hlen]; omega),if_pos (by rw [hlen]; exact h),take_left,hrest]

variable {f g : Cursor → Except Fault Cursor}

lemma Writes.seq {w : Bytes} (hf : Writes f v) (hg : Writes g w) : Writes (fun c => f c >>= g) (v++w) := by
  intro c h
  rw [length_append] at h
  dsimp only
  rw [hf c (by omega)]
  refine (hg _ (by rw [length_drop]; omega)).trans ?_
  rw [append_assoc,drop_drop,length_append]

lemma writes_nil : Writes .ok [] := by
  intro c _
  rw [append_nil]
  rfl

lemma writes_foldlM {α : Type} {f : α → Cursor → Except Fault Cursor} {enc : α → Bytes}
    (hf : ∀ a, Writes (f a) (enc a)) (l : List α) : Writes (fun c => l.foldlM (fun c a => f a c) c)
    (l.flatMap enc) := by
  induction l with
  | nil => exact writes_nil
  | cons a l ih =>
    rw [flatMap_cons]
    exact (hf a).seq ih

lemma Writes.fills (hf : Writes f v) : Fills f v := by
  intro c h
  exact ⟨_,hf c h,append_assoc ..⟩

lemma Writes.seqFills {w : Bytes} (hf : Writes f v) (hg : Fills g w) :
    Fills (fun c => f c >>= g) (v++w) := by
  intro c h
  rw [length_append] at h
  obtain ⟨c',hc',hbytes⟩ := hg ⟨c.done++v,c.rest.drop v.length⟩ (by rw [length_drop]; omega)
  refine ⟨c',?_,?_⟩
  · dsimp only
    rw [hf c (by omega)]
    exact hc'
  · rw [hbytes,drop_drop,length_append,append_assoc,append_assoc]

lemma fills_copy (v : Bytes) : Fills (fun c => .ok (c.copy v)) v := by
  intro c h
  refine ⟨_,rfl,?_⟩
  rw [copy_of_le h]
  rfl

lemma fills_putUint (n k : ℕ) : Fills (fun c => c.putUint n k) (beBytes n k) := by
  intro c h
  rw [length_beBytes] at h ⊢
  exact ⟨_,if_pos h,rfl⟩

lemma appendTo_of_le (h : v.length ≤ c.rest.length) (spare : ℕ) :
    c.appendTo spare v=c.copy v := if_pos (Nat.le_add_right_of_le h)

lemma Fills.exact (hf : Fills f v) {buf : Bytes}
    (h : buf.length=v.length) : ∃ c, f ⟨[],buf⟩=.ok c ∧ c.bytes=v := by
  obtain ⟨c,hc,hbytes⟩ := hf ⟨[],buf⟩ (Nat.le_of_eq h.symm)
  refine ⟨c,hc,?_⟩
  rw [hbytes,← h,drop_length,append_nil,nil_append]

end Cursor

def beUint (n : ℕ) (b : Bytes) : Except Fault ℕ :=
  if n≤b.length then .ok (beNat (b.take n)) else .error .indexOutOfRange

variable {n : ℕ} {b : Bytes}

lemma beUint_of_le (h : n≤b.length) : beUint n b=.ok (beNat (b.take n)) := if_pos h

lemma beUint_append {k : ℕ} (rest : Bytes) (hk : k<256^n) : beUint n (beBytes n k++rest)=.ok k := by
  have hlength := length_beBytes n k
  rw [beUint_of_le (by rw [length_append,hlength]; exact Nat.le_add_right ..),take_left' hlength,
    beNat_beBytes,Nat.mod_eq_of_lt hk]

lemma sliceFrom_append (v rest : Bytes) : sliceFrom (v++rest) v.length=.ok rest := by
  rw [sliceFrom_of_le (by rw [length_append]; exact Nat.le_add_right ..),drop_left]

lemma slice_append (v rest : Bytes) : slice (v++rest) 0 v.length=.ok v := by
  rw [slice_of_le (Nat.zero_le _) (by rw [length_append]; exact Nat.le_add_right ..),take_left,drop_zero]

lemma beUint_returns (h : n≤b.length) : Returns (beUint n b) :=
  ⟨_,beUint_of_le h,trivial⟩

lemma sliceFrom_returns (h : n≤b.length) :
    Returns (sliceFrom b n) fun b' => b'.length=b.length-n := ⟨_,sliceFrom_of_le h,length_drop⟩

lemma slice_returns {lo hi : ℕ} (h : lo≤hi) (hb : hi≤b.length) :
    Returns (slice b lo hi) fun v => v.length=hi-lo :=
  ⟨_,slice_of_le h hb,by dsimp only; rw [length_drop,length_take_of_le hb]⟩

end TunnnejiTail.Go
