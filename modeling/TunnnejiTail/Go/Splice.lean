import TunnnejiTail.Go.OnesComplement

/-! Overwriting a part of a byte slice: how it commutes with slicing, which bytes it leaves
alone and what it does to the sum of the words. -/
namespace TunnnejiTail.Go
open List

def splice (b : Bytes) (i : ℕ) (v : Bytes) : Bytes := b.take i++v++b.drop (i+v.length)

def window (b : Bytes) (i n : ℕ) : Bytes := (b.take (i+n)).drop i

section
variable {b v : Bytes} {i j n : ℕ}

@[simp] lemma length_uint16Bytes (w : UInt16) : (uint16Bytes w).length=2 := rfl

lemma bind_of_ok {ε α β : Type} {x : Except ε α} {a : α} (h : x=.ok a) {f : α → Except ε β}
    {y : Except ε β} (hy : f a=y) : x >>= f=y := by
  rw [h]
  exact hy

@[simp] lemma length_window (h : i+n≤b.length) : (window b i n).length=n := by
  simp only [window,length_drop,length_take]
  omega

section
variable (h : i+v.length≤b.length)
include h

lemma copyAt_eq_splice : copyAt b i v=.ok (splice b i v) :=
  copyAt_of_le h

lemma getElem?_splice (j : ℕ) : (splice b i v)[j]? =
    if j < i then b[j]? else if j < i+v.length then v[j-i]? else b[j]? := by
  have htake : (b.take i).length=i := by
    rw [length_take]
    omega
  rw [splice,getElem?_append,getElem?_append,length_append,htake,getElem?_take, getElem?_drop]
  by_cases h1 : j < i
  · rw [if_pos (by omega),if_pos h1,if_pos h1,if_pos h1]
  · rw [if_neg h1,if_neg h1]
    by_cases h2 : j < i+v.length
    · rw [if_pos h2,if_pos h2]
    · rw [if_neg h2,if_neg h2]
      congr 1
      omega

lemma getElem?_splice_outside (hj : j < i ∨ i+v.length≤j) : (splice b i v)[j]? = b[j]? := by
  rw [getElem?_splice h]
  split_ifs with h1 h2
  · rfl
  · omega
  · rfl

@[simp] lemma length_splice : (splice b i v).length=b.length := by
  simp only [splice,length_append,length_take,length_drop]
  omega

lemma window_splice : window (splice b i v) i v.length=v := by
  have hlen : (b.take i++v).length=i+v.length := by
    rw [length_append,length_take]
    omega
  rw [window,splice,← hlen,take_left,drop_append_of_le_length (by rw [length_take]; omega),
    drop_eq_nil_of_le (by rw [length_take]; omega),nil_append]

end

lemma eq_append_window (b v : Bytes) (i : ℕ) : b=b.take i++window b i v.length++b.drop (i+v.length) := by
  have htake : b.take (i+v.length)=b.take i++window b i v.length := by
    rw [window,drop_take,Nat.add_sub_cancel_left,take_add]
  rw [← htake,take_append_drop]

lemma getElem?_window (b : Bytes) (i n m : ℕ) : (window b i n)[m]? = if m<n then b[i+m]? else none := by
  rw [window,getElem?_drop,getElem?_take]
  by_cases h : m<n
  · rw [if_pos (by omega),if_pos h]
  · rw [if_neg (by omega),if_neg h]

lemma window_zero (b : Bytes) (n : ℕ) : window b 0 n=b.take n := by
  rw [window,Nat.zero_add,drop_zero]

lemma window_splice_inside (h : j+v.length ≤ i+n) (hn : i+n≤b.length) (hj : i≤j) :
    window (splice b j v) i n=splice (window b i n) (j-i) v := by
  have hlen : j-i+v.length≤(window b i n).length := by
    rw [length_window hn]
    omega
  apply ext_getElem?
  intro m
  rw [getElem?_window,getElem?_splice (by omega),getElem?_splice hlen,getElem?_window]
  split_ifs <;> first | rfl | omega | skip
  · congr 1
    omega

lemma window_splice_outside (h : j+v.length≤b.length)
    (hj : j+v.length ≤ i ∨ i+n≤j) : window (splice b j v) i n=window b i n := by
  apply ext_getElem?
  intro m
  rw [getElem?_window,getElem?_window,getElem?_splice h]
  split_ifs <;> first | rfl | omega

lemma splice_window (hv : v=window b i v.length) : splice b i v=b := by
  refine Eq.trans ?_ (eq_append_window b v i).symm
  rw [← hv,splice]

lemma byteAt_splice (h : i+v.length≤b.length) (hj : j < i ∨ i+v.length≤j) :
    byteAt (splice b i v) j=byteAt b j := by
  rw [byteAt,byteAt,getD_eq_getElem?_getD,getD_eq_getElem?_getD,getElem?_splice h]
  split_ifs with h1 h2
  · rfl
  · omega
  · rfl

lemma onesSum_splice (h : i+v.length≤b.length) (hi : i%2=0) (hv : v.length%2=0) :
    onesSum (splice b i v)+onesSum (window b i v.length)=onesSum b+onesSum v := by
  have htake : (b.take i).length%2=0 := by
    rw [length_take,Nat.min_eq_left (by omega)]
    exact hi
  have hleft {w : Bytes} (hw : w.length=v.length) : (b.take i++w).length%2=0 := by
    rw [length_append]
    omega
  have hb : onesSum b=onesSum (b.take i++window b i v.length++b.drop (i+v.length)) :=
    congrArg onesSum (eq_append_window b v i)
  rw [hb,splice,onesSum_append _ (hleft rfl),onesSum_append _ htake,
    onesSum_append _ (hleft (length_window h)),onesSum_append _ htake]
  omega

variable {a c : Bytes}

lemma copyAt_between (ha : a.length=i) (hv : v.length=j) (old : Bytes)
    (hold : old.length=j) : copyAt (a++old++c) i v=.ok (a++v++c) := by
  have hle : i+v.length≤(a++old++c).length := by
    rw [length_append,length_append]
    omega
  have htake : (a++old++c).take i=a := by
    rw [append_assoc,← ha,take_left]
  have hdrop : (a++old++c).drop (i+v.length)=c := by
    rw [hv,← hold,← ha,← length_append,drop_left]
  rw [copyAt_of_le hle,htake,hdrop]

variable {d : Bytes}

lemma copyAt_next (hdone : d.length=i) (hv : v.length=j)
    (h : i+j≤b.length) : copyAt (d++b.drop i) i v=.ok (d++v++b.drop (i+j)) := by
  have hold : (window b i j).length=j := length_window h
  have hsplit : b.drop i=window b i j++b.drop (i+j) := by
    rw [window,← drop_append_of_le_length (by rw [length_take]; omega), take_append_drop]
  rw [hsplit,← append_assoc]
  exact copyAt_between hdone hv _ hold

variable {x : UInt8}

lemma setAt_eq_copyAt (h : i<b.length) : setAt b i x=copyAt b i [x] := by
  rw [setAt,if_pos h,copyAt_of_le h,set_eq_take_append_cons_drop,if_pos h,append_assoc]
  rfl

lemma setAt_next (hdone : d.length=i) (h : i<b.length) :
    setAt (d++b.drop i) i x=.ok (d++[x]++b.drop (i+1)) := by
  rw [setAt_eq_copyAt (by rw [length_append,length_drop]; omega)]
  exact copyAt_next hdone rfl h

lemma window_between (ha : a.length=i) (hv : v.length=n) :
    window (a++v++c) i n=v := by
  rw [window,take_left' (by rw [length_append,ha,hv]),drop_left' ha]

variable {k : ℕ} {f : Bytes}

lemma copyAt_behind (hf : f.length=k)
    (hdone : d.length=i) (hv : v.length=j) (h : i+j≤b.length) (hn : n=k+i) :
    copyAt (f++(d++b.drop i)) n v=.ok (f++(d++v++b.drop (i+j))) := by
  have hnext := copyAt_next (b := f++b) (d := f++d) (i := n)
    (by rw [length_append]; omega) hv (by rw [length_append]; omega)
  have hdrop (m : ℕ) : (f++b).drop (n+m)=b.drop (i+m) := by
    rw [hn,← hf,Nat.add_assoc,drop_length_add_append]
  rw [hdrop j,show (f++b).drop n=b.drop i from hdrop 0] at hnext
  simpa only [append_assoc] using hnext

lemma setAt_behind (hf : f.length=k)
    (hdone : d.length=i) (h : i<b.length) (hn : n=k+i) :
    setAt (f++(d++b.drop i)) n x=.ok (f++(d++[x]++b.drop (i+1))) := by
  rw [setAt_eq_copyAt (by rw [length_append,length_append,length_drop]; omega)]
  exact copyAt_behind hf hdone rfl h hn

lemma window_window {m : ℕ} (h : i+n ≤ m) : window (window b j m) i n=window b (j+i) n := by
  apply ext_getElem?
  intro k
  rw [getElem?_window,getElem?_window,getElem?_window,Nat.add_assoc]
  split_ifs <;> first | rfl | omega

lemma onesSum_window_splice (h : j+v.length ≤ i+n) (hn : i+n≤b.length) (hj : i≤j)
    (heven : (j-i)%2=0) (hv : v.length%2=0) :
    onesSum (window (splice b j v) i n)+onesSum (window b j v.length) = onesSum (window b i n)+onesSum v := by
  have hlen : j-i+v.length≤(window b i n).length := by
    rw [length_window hn]
    omega
  have hsum := onesSum_splice hlen heven hv
  rw [window_window (by omega),Nat.add_sub_cancel' hj] at hsum
  rw [window_splice_inside h hn hj,hsum]

lemma onesSum_pos (h : byteAt b 0≠0) : 0<onesSum b := by
  have hpos : 0<(byteAt b 0).toNat := Nat.pos_of_ne_zero fun h0 => h (UInt8.toNat_inj.mp h0)
  match b with
  | [] => exact absurd rfl h
  | [x] =>
    have hx : 0<x.toNat := hpos
    rw [onesSum]
    omega
  | x::y::rest =>
    have hx : 0<x.toNat := hpos
    rw [onesSum]
    omega

end

end TunnnejiTail.Go
