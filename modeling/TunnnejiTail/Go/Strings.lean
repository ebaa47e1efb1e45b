import Mathlib.Algebra.Group.Nat.Defs
import Mathlib.Data.Int.Notation
import Mathlib.Tactic.Common

/-! Go strings and the parts of strconv, strings and net that read and print them.
A string is the list of its bytes, each written as the character with that code, so
indexing and slicing are those of Go. -/
namespace TunnnejiTail.Go
open List Nat

abbrev Str := List Char

instance : Coe String Str := ⟨String.toList⟩

def maxInt : ℕ := 2^63-1

/-- strconv.Atoi: an optional sign and at least one decimal digit, within the range of int. -/
def atoiDigits (neg : Bool) (ds : Str) : Option ℤ :=
  if ds≠[] ∧ ds.all Char.isDigit then
    let n := Nat.ofDigitChars 10 ds 0
    if neg then (if n ≤ maxInt+1 then some (-(n : ℤ)) else none)
    else if n ≤ maxInt then some (n : ℤ) else none
  else none

def atoi : Str → Option ℤ
  | '-'::ds => atoiDigits true ds
  | '+'::ds => atoiDigits false ds
  | ds => atoiDigits false ds

def itoa (n : ℤ) : Str :=
  if n<0 then '-'::Nat.toDigits 10 n.natAbs else Nat.toDigits 10 n.natAbs

/-- Split around the first occurrence of a byte, as strings.IndexByte followed by slicing. -/
def cut (c : Char) : Str → Option (Str × Str)
  | [] => none
  | x::xs => if x=c then some ([],xs) else (cut c xs).map fun p => (x::p.1,p.2)

def cutLast (c : Char) (s : Str) : Option (Str × Str) :=
  (cut c s.reverse).map fun p => (p.2.reverse,p.1.reverse)

/-- net.SplitHostPort; its callers only ask whether there was an error. -/
def splitHostPort (hostport : Str) : Option (Str × Str) :=
  match cutLast ':' hostport with
  | none => none
  | some (before,port) =>
    match hostport with
    | '['::rest =>
      match cut ']' rest with
      | none => none
      | some (host,after) =>
        -- the first ']' must stand right before the last ':'
        if before = '['::(host++[']']) then
          if '[' ∈ rest ∨ ']' ∈ after then none else some (host,port)
        else none
    | _ =>
      if ':' ∈ before ∨ '[' ∈ hostport ∨ ']' ∈ hostport then none
      else some (before,port)

def joinHostPort (host port : Str) : Str :=
  if ':' ∈ host then '['::(host++("]:" : Str)++port) else host ++ ':'::port

lemma itoa_ne_nil (n : ℤ) : itoa n≠[] := by
  unfold itoa
  split
  · simp
  · exact toDigits_ne_nil

variable {n : ℤ} {c : Char}

lemma isDigit_or_minus_of_mem_itoa (h : c ∈ itoa n) : c.isDigit ∨ c = '-' := by
  unfold itoa at h
  split at h
  · obtain rfl | h := mem_cons.mp h
    · exact Or.inr rfl
    · exact Or.inl (isDigit_of_mem_toDigits (by decide) (by decide) h)
  · exact Or.inl (isDigit_of_mem_toDigits (by decide) (by decide) h)

lemma not_mem_itoa (hd : c.isDigit=false) (hm : c ≠ '-') : c ∉ itoa n := by
  intro h
  rcases isDigit_or_minus_of_mem_itoa h with h | h
  · simp [hd] at h
  · exact hm h

lemma cut_eq_none_iff (c : Char) (s : Str) : cut c s=none ↔ c ∉ s := by
  induction s with
  | nil => simp [cut]
  | cons x xs ih =>
    by_cases hx : x=c
    · simp [cut,hx]
    · have hx' : c≠x := fun h => hx h.symm
      simp [cut,hx,hx',ih]

lemma cut_append (c : Char) (a b : Str) (h : c ∉ a) : cut c (a++c::b)=some (a,b) := by
  induction a with
  | nil => simp [cut]
  | cons x xs ih =>
    simp only [mem_cons,not_or] at h
    have hx : x≠c := fun he => h.1 he.symm
    simp [cut,hx,ih h.2]

variable {s : Str}

lemma cut_eq_some {a b : Str} (h : cut c s=some (a,b)) : s=a++c::b ∧ c ∉ a := by
  induction s generalizing a with
  | nil => cases h
  | cons x xs ih =>
    rw [cut] at h
    split_ifs at h with hx
    · cases h
      simp [hx]
    · obtain ⟨⟨a',b'⟩,hcut,heq⟩ := Option.map_eq_some_iff.mp h
      cases heq
      obtain ⟨rfl,hmem⟩ := ih hcut
      exact ⟨rfl,by simp [hmem,Ne.symm hx]⟩

lemma cutLast_append (c : Char) (a b : Str) (h : c ∉ b) : cutLast c (a++c::b)=some (a,b) := by
  have hr : (a++c::b).reverse=b.reverse++c::a.reverse := by simp
  unfold cutLast
  rw [hr,cut_append c b.reverse a.reverse (by simpa using h)]
  simp

section
variable {host port : Str} (hp : ∀ c ∈ port, c ≠ ':' ∧ c ≠ '[' ∧ c ≠ ']')
include hp

lemma splitHostPort_plain (hh : ∀ c ∈ host, c ≠ ':' ∧ c ≠ '[' ∧ c ≠ ']') :
    splitHostPort (host ++ ':'::port)=some (host,port) := by
  have hc : ':' ∉ port := fun h => (hp _ h).1 rfl
  have hl : '[' ∉ host ++ ':'::port := by
    simp only [mem_append,mem_cons,not_or]
    exact ⟨fun h => (hh _ h).2.1 rfl,by decide,fun h => (hp _ h).2.1 rfl⟩
  have hr : ']' ∉ host ++ ':'::port := by
    simp only [mem_append,mem_cons,not_or]
    exact ⟨fun h => (hh _ h).2.2 rfl,by decide,fun h => (hp _ h).2.2 rfl⟩
  have hk : ':' ∉ host := fun h => (hh _ h).1 rfl
  simp only [splitHostPort,cutLast_append ':' host port hc]
  split
  · rename_i rest heq
    rw [heq] at hl
    simp at hl
  · simp only [hk,hl,hr,or_self,if_false]

variable (hh : ∀ c ∈ host, c ≠ '[' ∧ c ≠ ']')
include hh

lemma splitHostPort_bracketed :
    splitHostPort ('['::(host ++ ']' :: ':'::port))=some (host,port) := by
  have hc : ':' ∉ port := fun h => (hp _ h).1 rfl
  have hb : ']' ∉ host := fun h => (hh _ h).2 rfl
  have hl : '[' ∉ host ++ ']' :: ':'::port := by
    simp only [mem_append,mem_cons,not_or]
    exact ⟨fun h => (hh _ h).1 rfl,by decide,by decide,fun h => (hp _ h).2.1 rfl⟩
  have hr : ']' ∉ ':'::port := by
    simp only [mem_cons,not_or]
    exact ⟨by decide,fun h => (hp _ h).2.2 rfl⟩
  have hlast : cutLast ':' ('['::(host ++ ']' :: ':'::port))=some ('['::(host++[']']),port) := by
    have he : '['::(host ++ ']' :: ':'::port)=('['::(host++[']'])) ++ ':'::port := by simp
    rw [he,cutLast_append ':' _ port hc]
  simp only [splitHostPort,hlast,cut_append ']' host (':'::port) hb,hl,hr,or_self,if_false,if_true]

lemma splitHostPort_joinHostPort :
    splitHostPort (joinHostPort host port)=some (host,port) := by
  unfold joinHostPort
  split
  · have h := splitHostPort_bracketed hp hh
    simpa using h
  · rename_i hc
    refine splitHostPort_plain hp fun c hmem => ⟨?_,hh c hmem⟩
    rintro rfl
    exact hc hmem

end

variable {host port port' : Str}

lemma joinHostPort_injective {host' : Str} (hp : ':' ∉ port) (hp' : ':' ∉ port')
    (h : joinHostPort host port=joinHostPort host' port') : host=host' ∧ port=port' := by
  have hsplit (host port : Str) : joinHostPort host port =
      (if ':' ∈ host then '['::(host++[']']) else host) ++ ':'::port := by
    unfold joinHostPort
    split <;> simp
  rw [hsplit,hsplit] at h
  have hcut := congrArg (cutLast ':') h
  rw [cutLast_append _ _ _ hp,cutLast_append _ _ _ hp'] at hcut
  obtain ⟨hhost,hport⟩ := Prod.mk.inj (Option.some.inj hcut)
  refine ⟨?_,hport⟩
  by_cases hc : ':' ∈ host
  · by_cases hc' : ':' ∈ host'
    · rw [if_pos hc,if_pos hc'] at hhost
      exact append_cancel_right (List.cons.inj hhost).2
    · rw [if_pos hc,if_neg hc'] at hhost
      exact absurd (hhost ▸ mem_cons_of_mem _ (mem_append_left _ hc)) hc'
  · by_cases hc' : ':' ∈ host'
    · rw [if_neg hc,if_pos hc'] at hhost
      exact absurd (hhost.symm ▸ mem_cons_of_mem _ (mem_append_left _ hc')) hc
    · rwa [if_neg hc,if_neg hc'] at hhost

variable {before : Str}

lemma splitHostPort_append (hp : ':' ∉ port)
    (h : splitHostPort (before ++ ':'::port)=some (host,port')) :
    port'=port ∧ (∀ c ∈ host, c ≠ '[' ∧ c ≠ ']') ∧ (before=host ∨ before = '['::(host++[']'])) := by
  rw [splitHostPort,cutLast_append ':' before port hp] at h
  dsimp only at h
  split at h
  · rename_i rest heq
    cases hcut : cut ']' rest with
    | none => simp [hcut] at h
    | some q =>
      simp only [hcut] at h
      split_ifs at h with hbefore hb
      cases h
      obtain ⟨hrest,hclose⟩ := cut_eq_some hcut
      simp only [not_or] at hb
      refine ⟨rfl,fun c hc => ⟨?_,?_⟩,.inr hbefore⟩
      · rintro rfl
        exact hb.1 (by simp [hrest,hc])
      · rintro rfl
        exact hclose hc
  · split_ifs at h with hb
    cases h
    simp only [not_or,mem_append] at hb
    refine ⟨rfl,fun c hc => ⟨?_,?_⟩,.inl rfl⟩
    · rintro rfl
      exact hb.2.1.1 hc
    · rintro rfl
      exact hb.2.2.1 hc

lemma splitHostPort_of_not_mem (h : ':' ∉ s) : splitHostPort s=none := by
  have hcut : cutLast ':' s=none := by
    rw [cutLast,Option.map_eq_none_iff,cut_eq_none_iff]
    simpa using h
  simp only [splitHostPort,hcut]

lemma exists_last_colon (h : ':' ∈ s) : ∃ a b, s=a ++ ':'::b ∧ ':' ∉ b := by
  obtain ⟨b,a,hs,hb⟩ := eq_append_cons_of_mem (mem_reverse.mpr h)
  refine ⟨a.reverse,b.reverse,?_,fun hmem => hb (mem_reverse.mp hmem)⟩
  rw [← reverse_reverse s,hs]
  simp

lemma splitHostPort_colons (hp : ':' ∉ port) (hb : ':' ∈ before)
    (hbracket : '[' ∉ before) : splitHostPort (before ++ ':'::port)=none := by
  simp only [splitHostPort,cutLast_append ':' before port hp]
  split
  · rename_i rest heq
    cases before with
    | nil => cases hb
    | cons c before =>
      cases heq
      exact absurd mem_cons_self hbracket
  · exact if_pos (.inl hb)

lemma splitHostPort_no_port (hb : ']' ∉ host) : splitHostPort ('['::(host++[']']))=none := by
  by_cases hc : ':' ∈ host
  · obtain ⟨a,b,rfl,hnot⟩ := exists_last_colon hc
    have hlast : cutLast ':' ('['::(a ++ ':'::b++[']']))=some ('['::a,b++[']']) := by
      have he : '['::(a ++ ':'::b++[']'])=('['::a) ++ ':'::(b++[']']) := by simp
      rw [he]
      refine cutLast_append ':' _ _ fun h => ?_
      rcases mem_append.mp h with h | h
      · exact hnot h
      · exact absurd (mem_singleton.mp h) (by decide)
    have hne : '['::a ≠ '['::(a ++ ':'::b++[']']) := by
      intro h
      have hlen := congrArg List.length h
      simp at hlen
    simp only [splitHostPort,hlast,cut_append ']' (a ++ ':'::b) [] hb,if_neg hne]
  · refine splitHostPort_of_not_mem fun h => ?_
    simp only [mem_cons,mem_append] at h
    rcases h with h | h | h | h
    · cases h
    · exact hc h
    · cases h
    · cases h

lemma atoiDigits_toDigits (neg : Bool) (n : ℕ) : atoiDigits neg (toDigits 10 n) =
      if neg then (if n ≤ maxInt+1 then some (-(n : ℤ)) else none)
      else if n ≤ maxInt then some (n : ℤ) else none := by
  have hall : (toDigits 10 n).all Char.isDigit := by
    rw [all_eq_true]
    exact fun c hc => isDigit_of_mem_toDigits (by decide) (by decide) hc
  have hne : toDigits 10 n≠[] := toDigits_ne_nil
  rw [atoiDigits,if_pos ⟨hne,hall⟩]
  simp only [ofDigitChars_ten_toDigits]

lemma atoi_toDigits (n : ℕ) : atoi (toDigits 10 n)=atoiDigits false (toDigits 10 n) := by
  have hdig : ∀ c ∈ toDigits 10 n, c.isDigit :=
    fun c hc => isDigit_of_mem_toDigits (by decide) (by decide) hc
  unfold atoi
  split
  · rename_i heq
    have hd := hdig '-' (by simp [heq])
    simp at hd
  · rename_i heq
    have hd := hdig '+' (by simp [heq])
    simp at hd
  · rfl

lemma atoi_itoa (n : ℤ) : atoi (itoa n)=if -((maxInt : ℤ)+1)≤n ∧ n ≤ maxInt then some n else none := by
  unfold itoa
  split
  · have hn : -(n.natAbs : ℤ)=n := by omega
    have hrange : n.natAbs ≤ maxInt+1 ↔ -((maxInt : ℤ)+1)≤n ∧ n ≤ maxInt := by omega
    rw [atoi,atoiDigits_toDigits,if_pos rfl,hn]
    simp only [hrange]
  · have hn : (n.natAbs : ℤ)=n := by omega
    have hrange : n.natAbs ≤ maxInt ↔ -((maxInt : ℤ)+1)≤n ∧ n ≤ maxInt := by omega
    rw [atoi_toDigits,atoiDigits_toDigits,if_neg Bool.false_ne_true,hn]
    simp only [hrange]

end TunnnejiTail.Go
