import Mathlib.Data.List.Basic
import Mathlib.Data.List.TakeDrop
import Mathlib.Algebra.Group.Nat.Defs
import Mathlib.Tactic.Common

/-! Byte slices. Reading past the end of a slice is a run-time panic of Go, here an error, so
that a function which always returns a value never reads out of range. The capacity of a
slice is taken to be its length. -/
namespace TunnnejiTail.Go
open List

abbrev Bytes := List UInt8

inductive Fault
  | indexOutOfRange
  | sliceBounds
  | panicked
  deriving DecidableEq

def index (b : Bytes) (i : ℕ) : Except Fault UInt8 :=
  match b[i]? with
  | some x => .ok x
  | none => .error .indexOutOfRange

def slice (b : Bytes) (lo hi : ℕ) : Except Fault Bytes :=
  if lo≤hi ∧ hi≤b.length then .ok ((b.take hi).drop lo) else .error .sliceBounds

def sliceFrom (b : Bytes) (lo : ℕ) : Except Fault Bytes := slice b lo b.length

def copyAt (b : Bytes) (lo : ℕ) (v : Bytes) : Except Fault Bytes :=
  if lo+v.length≤b.length then .ok (b.take lo++v++b.drop (lo+v.length))
  else .error .sliceBounds

def setAt (b : Bytes) (i : ℕ) (x : UInt8) : Except Fault Bytes :=
  if i<b.length then .ok (b.set i x) else .error .indexOutOfRange

def beNat (b : Bytes) : ℕ := b.foldl (fun acc x => acc*256+x.toNat) 0

def beBytes (n k : ℕ) : Bytes := (List.range n).map fun i => UInt8.ofNat (k/256^(n-1-i))

def uint16Of (hi lo : UInt8) : UInt16 := UInt16.ofNat (hi.toNat*256+lo.toNat)

def uint16Bytes (v : UInt16) : Bytes := [UInt8.ofNat (v.toNat/256),UInt8.ofNat (v.toNat%256)]

def putUint16At (b : Bytes) (i : ℕ) (v : UInt16) : Except Fault Bytes := copyAt b i (uint16Bytes v)

def uint16At (b : Bytes) (i : ℕ) : Except Fault UInt16 := do
  let v ← slice b i (i+2)
  let hi ← index v 0
  let lo ← index v 1
  return uint16Of hi lo

def byteAt (b : Bytes) (i : ℕ) : UInt8 := b.getD i 0

variable {b : Bytes} {i : ℕ}

lemma getElem_eq_byteAt (h : i<b.length) : b[i]=byteAt b i := by
  simp [byteAt,h]

lemma byteAt_drop (b : Bytes) (n i : ℕ) : byteAt (b.drop n) i=byteAt b (n+i) := by
  simp [byteAt]

lemma index_of_lt (h : i<b.length) : index b i=.ok (byteAt b i) := by
  simp [index,byteAt,h]

variable {lo : ℕ}

lemma slice_of_le {hi : ℕ} (h1 : lo≤hi) (h2 : hi≤b.length) :
    slice b lo hi=.ok ((b.take hi).drop lo) := if_pos ⟨h1,h2⟩

lemma sliceFrom_of_le (h : lo≤b.length) : sliceFrom b lo=.ok (b.drop lo) := by
  rw [sliceFrom,slice_of_le h (Nat.le_refl _),take_length]

lemma sliceFrom_of_lt (h : b.length<lo) :
    sliceFrom b lo=.error .sliceBounds := if_neg fun hle => by omega

lemma copyAt_of_le {v : Bytes} (h : lo+v.length≤b.length) :
    copyAt b lo v=.ok (b.take lo++v++b.drop (lo+v.length)) := if_pos h

lemma length_of_copyAt {v b' : Bytes} (h : copyAt b lo v=.ok b') : b'.length=b.length := by
  rw [copyAt] at h
  split_ifs at h with hle
  cases h
  simp only [length_append,length_take,length_drop]
  omega

lemma uint16At_of_lt (h : i+1<b.length) : uint16At b i=.ok (uint16Of (byteAt b i) (byteAt b (i+1))) := by
  have hi : i<b.length := by omega
  rw [uint16At,slice_of_le (by omega) (by omega)]
  simp [index,byteAt,bind,Except.bind,pure,Except.pure,getElem?_drop,h,hi]

@[simp] lemma length_beBytes (n k : ℕ) : (beBytes n k).length=n := by simp [beBytes]

section
variable {α β : Type} {x : Except Fault α} {f : α → Except Fault β} {P P' : α → Prop} {Q : β → Prop}

/-- The code returns without a panic, and what it returns satisfies P. -/
def Returns (x : Except Fault α) (P : α → Prop := fun _ => True) : Prop := ∃ a, x=.ok a ∧ P a

variable {a : α}

lemma Returns.ok (h : P a) : Returns (.ok a) P := ⟨a,rfl,h⟩

lemma Returns.of_eq (h : x=.ok a) : Returns x fun a' => a'=a := ⟨a,h,rfl⟩

lemma Returns.bind (hx : Returns x P) (hf : ∀ a, P a → Returns (f a) Q) : Returns (x >>= f) Q := by
  obtain ⟨a,rfl,ha⟩ := hx
  exact hf a ha

lemma Returns.bind_error {e : Fault} (hx : Returns x P) (hf : ∀ a, P a → f a=.error e) :
    (x >>= f)=.error e := by
  obtain ⟨a,rfl,ha⟩ := hx
  exact hf a ha

lemma Returns.mono (h : Returns x P) (hp : ∀ a, P a → P' a) : Returns x P' := by
  obtain ⟨a,hx,ha⟩ := h
  exact ⟨a,hx,hp a ha⟩

lemma Returns.map_some (h : Returns x P) : Returns (some <$> x) fun y => ∀ a, y=some a → P a := by
  obtain ⟨a,rfl,ha⟩ := h
  refine .ok ?_
  rintro _ ⟨⟩
  exact ha

lemma Returns.ite {c : Prop} [Decidable c] {x y : Except Fault α} (hx : c → Returns x P)
    (hy : ¬c → Returns y P) : Returns (if c then x else y) P := by
  by_cases h : c
  · rw [if_pos h]
    exact hx h
  · rw [if_neg h]
    exact hy h

lemma Returns.guard {c : Prop} [Decidable c] {y : Except Fault α} (ha : P a)
    (hy : ¬c → Returns y P) : Returns (if c then .ok a else y) P := .ite (fun _ => .ok ha) hy

lemma setAt_returns {b : Bytes} {i : ℕ} {v : UInt8} (h : i<b.length) :
    Returns (setAt b i v) fun b' => b'.length=b.length :=
  ⟨_,if_pos h,length_set ..⟩

lemma copyAt_returns {b v : Bytes} {lo : ℕ} (h : lo+v.length≤b.length) :
    Returns (copyAt b lo v) fun b' => b'.length=b.length :=
  ⟨_,copyAt_of_le h,length_of_copyAt (copyAt_of_le h)⟩

lemma putUint16At_returns {b : Bytes} {i : ℕ} {v : UInt16} (h : i+2≤b.length) :
    Returns (putUint16At b i v) fun b' => b'.length=b.length := copyAt_returns h

lemma Returns.elim (h : Returns x P) (hx : x=.ok a) : P a := by
  obtain ⟨a',hx',ha⟩ := h
  cases hx.symm.trans hx'
  exact ha

end

end TunnnejiTail.Go
