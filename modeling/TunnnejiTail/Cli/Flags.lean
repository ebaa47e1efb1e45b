import TunnnejiTail.Go.Strings

/-! Flag syntax of the command line: a base letter, for -A and -P an optional direction, a
VPN group number and a port group identifier. -/
namespace TunnnejiTail.Cli
open Go List

inductive Direction
  | server
  | client
  deriving DecidableEq

def Direction.letter : Direction → Str
  | server => "S"
  | client => "C"

def dirString : Option Direction → Str
  | none => []
  | some d => d.letter

def noNumber : ℤ := -1

/-- Digits that do not fit an int leave the group un-numbered and stay in the identifier. -/
def parseNumAndSub (s : Str) : ℤ × Str :=
  let digits := s.takeWhile Char.isDigit
  if digits=[] then (noNumber,s)
  else match atoi digits with
    | none => (noNumber,s)
    | some num => if num<0 then (noNumber,s) else (num,s.dropWhile Char.isDigit)

structure ParsedFlag where
  base : Str
  groupNum : ℤ
  sub : Str
  dir : Option Direction
  deriving DecidableEq

def withNumAndSub (base : Str) (dir : Option Direction) (rest : Str) : ParsedFlag :=
  ⟨base,(parseNumAndSub rest).1,(parseNumAndSub rest).2,dir⟩

def parseFlag (arg : Str) : ParsedFlag :=
  match arg with
  | '-'::c::rest =>
    if c = 'A' ∨ c = 'P' then
      match rest with
      | [] => ⟨[c],noNumber,[],none⟩
      | 'S'::rest' => withNumAndSub [c] (some .server) rest'
      | 'C'::rest' => withNumAndSub [c] (some .client) rest'
      | _ => withNumAndSub [c] none rest
    else withNumAndSub [c] none rest
  | _ => ⟨arg,noNumber,[],none⟩

inductive FlagName
  | K | S | C | T | A | P | H
  deriving DecidableEq

def FlagName.letter : FlagName → Str
  | K => "K"
  | S => "S"
  | C => "C"
  | T => "T"
  | A => "A"
  | P => "P"
  | H => "H"

def FlagName.ofBase (base : Str) : Option FlagName :=
  [FlagName.K,.S,.C,.T,.A,.P,.H].find? fun name => name.letter=base

/-- A flag together with the argument that follows it. -/
structure Flag where
  name : FlagName
  groupNum : ℤ
  sub : Str
  dir : Option Direction
  value : Str
  deriving DecidableEq

/-- The flags of an argument list, in order. -/
def flagsOf : List Str → List Flag
  | [] => []
  | arg::rest =>
    if arg = "-D" then flagsOf rest
    else match FlagName.ofBase (parseFlag arg).base with
      | none => []
      | some name =>
        match rest with
        | [] => []
        | value::rest' =>
          ⟨name,(parseFlag arg).groupNum,(parseFlag arg).sub,(parseFlag arg).dir,value⟩::flagsOf rest'

/-- A flag as it is printed: the base letter, the direction, the number and the identifier. -/
def flagText (base : Char) (dir : Option Direction) (num sub : Str) : Str := '-'::base::(dirString dir++(num++sub))

variable {sub : Str}

lemma takeWhile_digits (num : Str) (hnum : ∀ c ∈ num, c.isDigit) (hsub : ∀ c ∈ sub, c.isLower) :
    (num++sub).takeWhile Char.isDigit=num ∧ (num++sub).dropWhile Char.isDigit=sub := by
  have hnot : ∀ c ∈ sub, c.isDigit=false := by
    intro c hc
    have hl : (decide (97 ≤ c.val) && decide (c.val≤122))=true := hsub c hc
    simp only [Bool.and_eq_true,decide_eq_true_eq] at hl
    simp only [Char.isDigit,Bool.and_eq_false_iff,decide_eq_false_iff_not]
    refine .inr fun h => ?_
    have h57 : c.val≤57 := h
    exact absurd (UInt32.le_trans hl.1 h57) (by decide)
  have hhead : sub.takeWhile Char.isDigit=[] ∧ sub.dropWhile Char.isDigit=sub := by
    cases sub with
    | nil => exact ⟨rfl,rfl⟩
    | cons c sub =>
      have hc := hnot c mem_cons_self
      exact ⟨takeWhile_cons_of_neg (by simp [hc]),dropWhile_cons_of_neg (by simp [hc])⟩
  rw [takeWhile_append_of_pos hnum,dropWhile_append_of_pos hnum,hhead.1,hhead.2,append_nil]
  exact ⟨rfl,rfl⟩

lemma parseNumAndSub_of_lower (hsub : ∀ c ∈ sub, c.isLower) :
    parseNumAndSub sub=(noNumber,sub) := by
  have h := takeWhile_digits [] (forall_mem_nil _) hsub
  rw [nil_append] at h
  rw [parseNumAndSub,h.1]
  rfl

lemma parseNumAndSub_toDigits (n : ℕ) (hsub : ∀ c ∈ sub, c.isLower) :
    parseNumAndSub (Nat.toDigits 10 n++sub) =
      if n ≤ maxInt then ((n : ℤ),sub) else (noNumber,Nat.toDigits 10 n++sub) := by
  have h := takeWhile_digits (Nat.toDigits 10 n)
    (fun c hc => Nat.isDigit_of_mem_toDigits (by decide) (by decide) hc) hsub
  simp only [parseNumAndSub,h.1,h.2,if_neg Nat.toDigits_ne_nil,atoi_toDigits,atoiDigits_toDigits,
    if_neg Bool.false_ne_true]
  by_cases hn : n ≤ maxInt
  · simp only [if_pos hn]
    exact if_neg (by omega)
  · simp only [if_neg hn]

lemma parseFlag_text {base : Char} {dir : Option Direction} (hdir : dir≠none → base = 'A' ∨ base = 'P')
    {rest : Str} (hrest : 'S' ∉ rest ∧ 'C' ∉ rest) :
    parseFlag ('-'::base::(dirString dir++rest))=withNumAndSub [base] dir rest := by
  cases dir with
  | none =>
    rw [dirString,nil_append]
    by_cases hbase : base = 'A' ∨ base = 'P'
    · refine (if_pos hbase).trans ?_
      split
      · rfl
      · exact absurd mem_cons_self hrest.1
      · exact absurd mem_cons_self hrest.2
      · rfl
    · exact if_neg hbase
  | some d =>
    have hbase := hdir (Option.some_ne_none d)
    cases d with
    | server => exact if_pos hbase
    | client => exact if_pos hbase

/-- The parser inverts the printer exactly for the numbers that are an int. A greater one is taken for
the un-numbered group. -/
theorem flag_read_back_iff (base : Char) (dir : Option Direction)
    (hdir : dir≠none → base = 'A' ∨ base = 'P') (n : ℕ) (sub : Str) (hsub : ∀ c ∈ sub, c.isLower) :
    (parseFlag (flagText base dir (Nat.toDigits 10 n) sub)=⟨[base],n,sub,dir⟩ ↔ n ≤ maxInt) ∧
      ((parseFlag (flagText base dir (Nat.toDigits 10 n) sub)).groupNum≠noNumber ↔ n ≤ maxInt) ∧
      parseFlag (flagText base dir [] sub)=⟨[base],noNumber,sub,dir⟩ := by
  have hlower : 'S' ∉ sub ∧ 'C' ∉ sub := ⟨fun h => absurd (hsub _ h) (by decide),fun h => absurd (hsub _ h) (by decide)⟩
  have hnot {c : Char} (hc : c.isDigit=false) (hmem : c ∉ sub) : c ∉ Nat.toDigits 10 n++sub := by
    intro h
    rcases mem_append.mp h with h | h
    · cases hc.symm.trans (Nat.isDigit_of_mem_toDigits (by decide) (by decide) h)
    · exact hmem h
  rw [flagText,parseFlag_text hdir ⟨hnot (by decide) hlower.1,hnot (by decide) hlower.2⟩,withNumAndSub,
    parseNumAndSub_toDigits n hsub,flagText,nil_append,parseFlag_text hdir hlower,withNumAndSub,
    parseNumAndSub_of_lower hsub]
  by_cases hn : n ≤ maxInt
  · simp only [if_pos hn,iff_true_right hn,and_true,true_and]
    exact fun h => by rw [noNumber] at h; omega
  · simp only [if_neg hn,iff_false_right hn,ne_eq,not_true_eq_false,not_false_eq_true,and_true]
    intro h
    have hnum : noNumber=(n : ℤ) := congrArg ParsedFlag.groupNum h
    rw [noNumber] at hnum
    omega

/-- The flag -AS12ab. -/
theorem flag_read_back_twelve : parseFlag "-AS12ab" = ⟨"A",12,"ab",some .server⟩ ∧
    parseFlag "-ASab" = ⟨"A",-1,"ab",some .server⟩ := by
  obtain ⟨hnum,-,hnone⟩ := flag_read_back_iff 'A' (some .server) (fun _ => .inl rfl) 12 "ab" (by simp)
  exact ⟨hnum.mpr (by decide),hnone⟩

/-- The group number 2⁶³ is read as the un-numbered group. -/
theorem large_number_is_no_number :
    parseFlag "-K9223372036854775808" = ⟨"K",-1,"9223372036854775808",none⟩ := by decide

example : parseFlag "-PS1s" = ⟨"P",1,"s",some .server⟩ := by decide
example : parseFlag "-Ps" = ⟨"P",-1,"s",none⟩ := by decide

end TunnnejiTail.Cli
