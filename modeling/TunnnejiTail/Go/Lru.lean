import Mathlib.Data.List.Basic
import Mathlib.Data.List.TakeDrop
import Mathlib.Data.List.Nodup
import Mathlib.Tactic.Common

/-! A cache that evicts the least recently used entry. Its keys are always a prefix of the
keys in the order of their last use. -/
namespace TunnnejiTail.Go
open List

section
variable {κ ν : Type} [DecidableEq κ]

def touch (k : κ) (l : List κ) : List κ := k::l.erase k

def recent (uses : List κ) : List κ := uses.foldr touch []

variable {k : κ}

lemma nodup_touch {l : List κ} (h : l.Nodup) : (touch k l).Nodup :=
  nodup_cons.mpr ⟨fun hk => ((h.mem_erase_iff).mp hk).1 rfl,h.erase k⟩

lemma nodup_recent (uses : List κ) : (recent uses).Nodup := by
  induction uses with
  | nil => exact nodup_nil
  | cons k uses ih => exact nodup_touch ih

lemma mem_recent {uses : List κ} : k ∈ recent uses ↔ k ∈ uses := by
  induction uses with
  | nil => rfl
  | cons k' uses ih =>
    change k ∈ k'::(recent uses).erase k' ↔ k ∈ k'::uses
    rw [mem_cons,mem_cons,(nodup_recent uses).mem_erase_iff,ih]
    by_cases h : k=k'
    · simp [h]
    · simp [h]

def limit (n : ℕ) (l : List κ) : List κ := if n=0 then l else l.take n

variable (k : κ) (l : List κ) (n : ℕ)

lemma take_erase_take :
    ((l.take (n+1)).erase k).take n=(l.erase k).take n := by
  induction l generalizing n with
  | nil => rfl
  | cons x l ih =>
    rw [take_succ_cons]
    by_cases hx : x=k
    · rw [hx,erase_cons_head,erase_cons_head,take_take,Nat.min_self]
    · rw [erase_cons_tail (by simpa using hx),erase_cons_tail (by simpa using hx)]
      cases n with
      | zero => rfl
      | succ n => rw [take_succ_cons,take_succ_cons,ih]

lemma limit_touch_limit :
    limit n (touch k (limit n l))=limit n (touch k l) := by
  cases n with
  | zero => rfl
  | succ n =>
    simp only [limit,Nat.succ_ne_zero,if_false,touch,take_succ_cons]
    rw [take_erase_take]

end

structure Lru (κ ν : Type) where
  maxEntries : ℕ
  entries : List (κ × ν)
  nodup : (entries.map Prod.fst).Nodup
  bounded : maxEntries=0 ∨ entries.length ≤ maxEntries

namespace Lru
variable {κ ν : Type}

def keys (c : Lru κ ν) : List κ := c.entries.map Prod.fst

def empty (maxEntries : ℕ) : Lru κ ν := ⟨maxEntries,[],nodup_nil,.inr (Nat.zero_le _)⟩

variable [DecidableEq κ]

def without (k : κ) (l : List (κ × ν)) : List (κ × ν) := l.eraseP fun e => e.1=k

lemma map_fst_without (k : κ) (l : List (κ × ν)) : (without k l).map Prod.fst=(l.map Prod.fst).erase k := by
  induction l with
  | nil => rfl
  | cons e l ih =>
    by_cases he : e.1=k
    · rw [without,eraseP_cons_of_pos (by simpa using he),map_cons,he, erase_cons_head]
    · rw [without,eraseP_cons_of_neg (by simpa using he),map_cons,map_cons, erase_cons_tail (by simpa using he)]
      exact congrArg _ ih

/-- The entries with the one of k in front, whether it was there before or not. -/
def fronted (k : κ) (v : ν) (l : List (κ × ν)) : List (κ × ν) := (k,v)::without k l

lemma map_fst_fronted (k : κ) (v : ν) (l : List (κ × ν)) :
    (fronted k v l).map Prod.fst=touch k (l.map Prod.fst) := by
  rw [fronted,map_cons,map_fst_without,touch]

variable {k : κ} {l : List (κ × ν)}

lemma length_fronted {v : ν} (h : k ∈ l.map Prod.fst) :
    (fronted k v l).length=l.length := by
  have hlen : ((fronted k v l).map Prod.fst).length=(l.map Prod.fst).length := by
    rw [map_fst_fronted,touch,length_cons,length_erase_of_mem h]
    have hpos := length_pos_of_mem h
    omega
  simpa using hlen

/-- Removes the oldest entry when there are more than n; zero means no limit. -/
def evict (n : ℕ) (l : List (κ × ν)) : List (κ × ν) :=
  if n≠0 ∧ n<l.length then l.dropLast else l

/-- The entries after k is set to v: a known key moves to the front, a new one is pushed
there and may evict the oldest. -/
def added (n : ℕ) (k : κ) (v : ν) (l : List (κ × ν)) : List (κ × ν) :=
  if k ∈ l.map Prod.fst then fronted k v l else evict n ((k,v)::l)

lemma map_fst_added {n : ℕ} (k : κ) (v : ν) (hn : n=0 ∨ l.length≤n) :
    (added n k v l).map Prod.fst=limit n (touch k (l.map Prod.fst)) := by
  unfold added limit
  by_cases hk : k ∈ l.map Prod.fst
  · rw [if_pos hk,map_fst_fronted]
    split_ifs with h0
    · rfl
    · have hlen : (touch k (l.map Prod.fst)).length≤n := by
        rw [← map_fst_fronted k v,length_map,length_fronted hk]
        exact hn.resolve_left h0
      rw [take_of_length_le hlen]
  · rw [if_neg hk,touch,erase_of_not_mem hk,evict]
    split_ifs with h h0 h0
    · omega
    · have hlen : l.length=n := by
        have hlt := h.2
        rw [length_cons] at hlt
        omega
      rw [map_dropLast,map_cons,dropLast_eq_take,length_cons,length_map, hlen]
      rfl
    · rfl
    · rw [take_of_length_le]
      · rfl
      · rw [length_cons,length_map]
        rw [length_cons] at h
        omega

def add (c : Lru κ ν) (k : κ) (v : ν) : Lru κ ν where
  maxEntries := c.maxEntries
  entries := added c.maxEntries k v c.entries
  nodup := by
    rw [map_fst_added k v c.bounded,limit]
    split_ifs
    · exact nodup_touch c.nodup
    · exact (nodup_touch c.nodup).take
  bounded := by
    by_cases h : c.maxEntries=0
    · exact .inl h
    · have hlen := congrArg List.length (map_fst_added k v c.bounded)
      rw [length_map,limit,if_neg h,length_take] at hlen
      exact .inr (by omega)

def get (c : Lru κ ν) (k : κ) : Option ν × Lru κ ν :=
  match c.entries.find? fun e => e.1=k with
  | none => (none,c)
  | some e => (some e.2,c.add k e.2)

lemma keys_add (c : Lru κ ν) (k : κ) (v : ν) :
    (c.add k v).keys=limit c.maxEntries (touch k c.keys) := map_fst_added k v c.bounded

lemma find?_isSome_iff (c : Lru κ ν) (k : κ) : (c.entries.find? fun e => e.1=k).isSome ↔ k ∈ c.keys := by
  simp [keys,find?_isSome]

variable {c : Lru κ ν}

lemma get_of_mem (h : k ∈ c.keys) : ∃ v, c.get k=(some v,c.add k v) := by
  obtain ⟨e,he⟩ := Option.isSome_iff_exists.mp ((c.find?_isSome_iff k).mpr h)
  exact ⟨e.2,by rw [get,he]⟩

lemma get_of_not_mem (h : k ∉ c.keys) : c.get k=(none,c) := by
  have hnone : (c.entries.find? fun e => e.1=k)=none :=
    Option.not_isSome_iff_eq_none.mp fun hs => h ((c.find?_isSome_iff k).mp hs)
  rw [get,hnone]

def Tracks (c : Lru κ ν) (uses : List κ) : Prop := c.keys=limit c.maxEntries (recent uses)

lemma tracks_empty (n : ℕ) : (empty n : Lru κ ν).Tracks [] := by
  unfold Tracks limit
  split_ifs
  · rfl
  · exact take_nil.symm

lemma Tracks.add {uses : List κ} (h : c.Tracks uses) (k : κ) (v : ν) :
    (c.add k v).Tracks (k::uses) := by
  rw [Tracks,keys_add,h,limit_touch_limit]
  rfl

end Lru

end TunnnejiTail.Go
