import TunnnejiTail.Go.Bytes

/-! The queue of an event bus: a slice whose front is dropped by moving a cursor and whose values slide
back to the start once there is no room behind them. How much room append makes is up to the runtime. -/
namespace TunnnejiTail.Eventbus
open Go List

/-- The slice has the values vals and the capacity cap. A queue's own capacity of zero means unbounded. -/
structure Queue (α : Type) where
  vals : List α := []
  cap : ℕ := 0
  start : ℕ := 0
  capacity : ℕ

namespace Queue
variable {α : Type} (q : Queue α)

def canAppend : Bool := q.capacity=0 || q.cap<q.capacity || q.vals.length<q.cap

def full : Bool := q.start=0 && !q.canAppend

def empty : Bool := q.start=q.vals.length

def len : ℕ := q.vals.length-q.start

/-- A slice that is full is copied to one with room for as many values as are needed, or for more. -/
def append (room : ℕ) (v : α) : Queue α :=
  { q with vals := q.vals++[v], cap := if q.vals.length<q.cap then q.cap else max room (q.vals.length+1) }

/-- Add to a full queue panics. -/
def add (room : ℕ) (v : α) : Except Fault (Queue α) :=
  if q.canAppend then .ok (q.append room v)
  else if q.start=0 then .error .panicked
  else .ok (append { q with vals := q.vals.drop q.start, start := 0 } room v)

def peek [Inhabited α] : α := if q.empty then default else q.vals.getD q.start default

def drop [Inhabited α] : Queue α :=
  if q.empty then q
  else
    let q := { q with vals := q.vals.set q.start default, start := q.start+1 }
    if q.empty then { q with vals := [], start := 0 } else q

def snapshot : List α := q.vals.drop q.start

/-- The queues of capacity c that calls lead to, each with the plain list that the same calls lead to. No
call to Add is made on a full queue, and append makes only the rooms that are allowed. -/
inductive Reached [Inhabited α] (c : ℕ) (allowed : ℕ → Prop) : Queue α → List α → Prop
  | new : Reached c allowed { capacity := c } []
  | add {q q' l n v} : Reached c allowed q l → allowed n → q.full=false → q.add n v=.ok q' →
    Reached c allowed q' (l++[v])
  | drop {q l} : Reached c allowed q l → Reached c allowed q.drop l.tail

structure Holds (c : ℕ) (allowed : ℕ → Prop) (q : Queue α) (l : List α) : Prop where
  start : q.start≤q.vals.length
  room : q.vals.length≤q.cap
  capacity : q.capacity=c
  bound : c≠0 → (∀ n, allowed n → n ≤ c) → q.cap ≤ c
  snapshot : q.snapshot=l

variable {q} {q' : Queue α} {c room : ℕ} {allowed : ℕ → Prop} {l : List α} {v : α}

lemma add_of_not_full (hfull : q.full=false) (room : ℕ) (v : α) :
    (q.canAppend=true ∧ q.add room v=.ok (q.append room v)) ∨
    (q.start≠0 ∧ q.add room v=.ok (Queue.append { q with vals := q.vals.drop q.start, start := 0 } room v)) := by
  by_cases hcan : q.canAppend=true
  · exact .inl ⟨hcan,if_pos hcan⟩
  · have hstart : q.start≠0 := by
      intro h0
      simp [full,hcan,h0] at hfull
    exact .inr ⟨hstart,(if_neg hcan).trans (if_neg hstart)⟩

section
variable (h : Holds c allowed q l)
include h

lemma Holds.length : q.len=l.length := by
  rw [← h.snapshot,Queue.snapshot,length_drop,len]

lemma Holds.append (hroom : allowed room) (hcan : q.canAppend=true) :
    Holds c allowed (q.append room v) (l++[v]) := by
  have hcap : (q.append room v).cap=if q.vals.length<q.cap then q.cap else max room (q.vals.length+1) := rfl
  have hlen : (q.append room v).vals.length=q.vals.length+1 := length_append
  have hle := h.room
  simp only [canAppend,Bool.or_eq_true,decide_eq_true_eq,h.capacity] at hcan
  refine ⟨?_,?_,h.capacity,fun hc hn => ?_,?_⟩
  · rw [hlen]
    exact Nat.le_succ_of_le h.start
  · rw [hlen,hcap]
    split <;> omega
  · have hbound := h.bound hc hn
    have := hn room hroom
    rw [hcap]
    split <;> omega
  · exact (drop_append_of_le_length h.start).trans (congrArg (· ++ [v]) h.snapshot)

lemma Holds.add (hroom : allowed room) (hfull : q.full=false)
    (hadd : q.add room v=.ok q') : Holds c allowed q' (l++[v]) := by
  obtain ⟨hcan,hq'⟩ | ⟨hstart,hq'⟩ := add_of_not_full hfull room v <;> cases hq'.symm.trans hadd
  · exact h.append hroom hcan
  · -- after a slide there is room, since something was dropped
    have hlt : (q.vals.drop q.start).length<q.cap := by
      have hle := h.start
      have hcap := h.room
      rw [length_drop]
      omega
    refine Holds.append ⟨Nat.zero_le _,Nat.le_of_lt hlt,h.capacity,h.bound,h.snapshot⟩ hroom ?_
    exact Bool.or_eq_true_iff.mpr (.inr (decide_eq_true hlt))

lemma Holds.not_full (hlt : q.len < c) : q.full=false := by
  have hroom := h.room
  rw [len] at hlt
  simp only [full,canAppend,h.capacity,Bool.and_eq_false_iff,Bool.not_eq_false',Bool.or_eq_true,
    decide_eq_true_eq,decide_eq_false_iff_not]
  omega

variable [Inhabited α]

lemma Holds.drop : Holds c allowed q.drop l.tail := by
  rw [Queue.drop]
  by_cases hempty : q.empty=true
  · have hl : l=[] := by
      rw [← h.snapshot,Queue.snapshot,of_decide_eq_true hempty,drop_length]
    subst hl
    rw [if_pos hempty]
    exact h
  · have hlt : q.start<q.vals.length := Nat.lt_of_le_of_ne h.start fun he => hempty (decide_eq_true he)
    have htail : (q.vals.set q.start default).drop (q.start+1)=l.tail := by
      rw [drop_set_of_lt (Nat.lt_succ_self _),← h.snapshot,Queue.snapshot,tail_drop]
    rw [if_neg hempty]
    dsimp only
    split
    · next hlast =>
      rw [show q.start+1=(q.vals.set q.start default).length from of_decide_eq_true hlast,drop_length] at htail
      exact ⟨Nat.le_refl 0,Nat.zero_le _,h.capacity,h.bound,htail⟩
    · exact ⟨Nat.lt_of_lt_of_eq hlt length_set.symm,Nat.le_trans (Nat.le_of_eq length_set) h.room,
        h.capacity,h.bound,htail⟩

lemma Holds.peek : q.peek=l.headD default := by
  rw [← h.snapshot,Queue.snapshot,Queue.peek]
  by_cases hempty : q.empty=true
  · rw [if_pos hempty,of_decide_eq_true hempty,drop_length]
    rfl
  · rw [if_neg hempty,headD_eq_head?_getD,head?_drop]
    rfl

end

variable [Inhabited α]

lemma Reached.holds (h : Reached c allowed q l) : Holds c allowed q l := by
  induction h with
  | new => exact ⟨Nat.le_refl 0,Nat.le_refl 0,rfl,fun _ _ => Nat.zero_le c,rfl⟩
  | add _ hroom hfull hadd ih => exact ih.add hroom hfull hadd
  | drop _ ih => exact ih.drop

/-- After any calls a queue is the plain list that the same calls lead to: Peek and Snapshot show it, Add
returns unless the queue is full, and a queue below its capacity is not full. It stays within its capacity
if append never makes more room than that. -/
theorem reached_fifo (h : Reached c allowed q l) : q.snapshot=l ∧ q.peek=l.headD default ∧ q.len=l.length ∧
    (q.full=false → ∀ room v, ∃ q', q.add room v=.ok q') ∧ (q.len < c → q.full=false) ∧
    (c≠0 → (∀ n, allowed n → n ≤ c) → q.len ≤ c) := by
  have hq := h.holds
  refine ⟨hq.snapshot,hq.peek,hq.length,fun hfull room v => ?_,hq.not_full,fun hc hn => ?_⟩
  · obtain ⟨-,hadd⟩ | ⟨-,hadd⟩ := add_of_not_full hfull room v
    · exact ⟨_,hadd⟩
    · exact ⟨_,hadd⟩
  · exact Nat.le_trans (Nat.sub_le ..) (Nat.le_trans hq.room (hq.bound hc hn))

/-- Two values fill the queue, and after a Drop the second slides back for a third. -/
theorem reached_fifo_slide : Reached 2 (· = 2) ⟨[2,3],2,0,2⟩ [2,3] ∧ (Queue.mk [2,3] 2 0 2).len≤2 := by
  have hfull : Reached 2 (· = 2) ⟨[1,2],2,0,2⟩ [1,2] :=
    .add (l := [1]) (.add (l := []) .new rfl rfl rfl) rfl rfl rfl
  have h : Reached 2 (· = 2) ⟨[2,3],2,0,2⟩ [2,3] := .add (l := [2]) hfull.drop rfl rfl rfl
  exact ⟨h,(reached_fifo h).2.2.2.2.2 (by decide) fun _ => Nat.le_of_eq⟩

/-- With a capacity of three and room that doubles, a queue takes four values. -/
theorem reached_past_capacity : ∃ q, Reached 3 (· ∈ [1,2,4]) q [1,2,3,4] ∧ q.len=4 := by
  refine ⟨_,.add (n := 4) (.add (n := 4) (.add (n := 2) (.add (n := 1) .new ?_ rfl rfl) ?_ rfl rfl) ?_ rfl rfl)
    ?_ rfl rfl,rfl⟩ <;> decide

end Queue

end TunnnejiTail.Eventbus
