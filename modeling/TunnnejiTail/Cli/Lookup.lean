import TunnnejiTail.Cli.Build

/-! The -P and -A flag an entry gets: the first of its keys that a flag of its own group, or
failing that an un-numbered flag, spells. -/
namespace TunnnejiTail.Cli
open Go Netip List Option

def findFlag (name : FlagName) (n : ℤ) (key : Str) (flags : List Flag) : Option Flag :=
  flags.find? fun f => f.name=name ∧ f.groupNum=n ∧ f.key=key

/-- The flag of group n, or else the un-numbered flag, that writes a key. -/
def ownOrShared (name : FlagName) (n : ℤ) (flags : List Flag) (key : Str) : Option Flag :=
  (findFlag name n key flags).or (findFlag name noNumber key flags)

def lookupFlag (name : FlagName) (n : ℤ) (flags : List Flag) (keys : List Str) : Option Flag :=
  keys.findSome? (ownOrShared name n flags)

def passwordFlag (flags : List Flag) (n : ℤ) (d : Direction) (sub : Str) : Option Flag :=
  lookupFlag .P n flags (passKeys d sub)

def acceptFlag (flags : List Flag) (n : ℤ) (d : Direction) (sub : Str) : Option Flag :=
  lookupFlag .A n flags (acceptKeys d sub)

variable {name : FlagName} {n : ℤ} {key : Str} {flags : List Flag}

lemma findFlag_eq_some {f : Flag} (h : findFlag name n key flags=some f) :
    f ∈ flags ∧ f.name=name ∧ f.groupNum=n ∧ f.key=key := by
  have hp := find?_some h
  exact ⟨mem_of_find?_eq_some h,by simpa using hp⟩

lemma findFlag_eq_none : findFlag name n key flags=none ↔ ∀ f ∈ flags, f.name=name → f.groupNum=n → f.key≠key := by
  simp [findFlag]

lemma lookup_fill_valueAs {st : ParseState} (hr : Recorded flags st)
    (hname : name=.A ∨ name=.P) (n : ℤ) (key : Str) :
    (fill Flag.key (Flag.valueAs name) (groupFlags n flags) ∅).lookup key =
      (findFlag name n key flags).map Flag.value := by
  cases hf : findFlag name n key flags with
  | none =>
    refine lookup_fill_eq_none.mpr fun f hf' hk => ?_
    obtain ⟨hmem,hn⟩ := mem_filter.mp hf'
    have hne : f.name≠name := fun hfn =>
      findFlag_eq_none.mp hf f hmem hfn (by simpa using hn) hk
    simp [Flag.valueAs,hne]
  | some f =>
    obtain ⟨hmem,rfl,rfl,rfl⟩ := findFlag_eq_some hf
    have hgroup : f ∈ groupFlags f.groupNum flags := mem_filter.mpr ⟨hmem,by simp⟩
    refine lookup_fill_unique hgroup (by simp [Flag.valueAs]) fun f' hf' hk w hw => ?_
    obtain ⟨hmem',hn'⟩ := mem_filter.mp hf'
    have hfn : f'.name=f.name := by
      by_contra hne
      simp [Flag.valueAs,hne] at hw
    have hsame : f'=f :=
      hr.flag_unique hmem' hmem hfn (hfn ▸ hname) (by simpa using hn') hk
    subst hsame
    simpa [Flag.valueAs] using hw.symm

lemma ownOrShared_eq_some {f : Flag} (h : ownOrShared name n flags key=some f) :
    f ∈ flags ∧ f.name=name ∧ (f.groupNum=n ∨ f.groupNum=noNumber) ∧ f.key=key := by
  cases or_eq_some_iff.mp h with
  | inl h =>
    obtain ⟨hf,hname,hn,hkey⟩ := findFlag_eq_some h
    exact ⟨hf,hname,.inl hn,hkey⟩
  | inr h =>
    obtain ⟨hf,hname,hn,hkey⟩ := findFlag_eq_some h.2
    exact ⟨hf,hname,.inr hn,hkey⟩

lemma key_ne_of_ownOrShared (h : ownOrShared name n flags key=none) {f : Flag} (hf : f ∈ flags)
    (hname : f.name=name) (hgroup : f.groupNum=n ∨ f.groupNum=noNumber) : f.key≠key := by
  rw [ownOrShared,or_eq_none_iff,findFlag_eq_none,findFlag_eq_none] at h
  exact hgroup.elim (h.1 f hf hname) (h.2 f hf hname)

lemma firstKey_eq {m : GoMap Str Str}
    (h : ∀ key, m.lookup key=(ownOrShared name n flags key).map Flag.value) (keys : List Str) :
    firstKey m keys=(lookupFlag name n flags keys).map fun f => (f.key,f.value) := by
  rw [firstKey,lookupFlag,List.map_findSome?]
  congr 1
  funext key
  rw [h,Option.map_map,Function.comp_apply]
  cases hf : ownOrShared name n flags key with
  | none => rfl
  | some f =>
    obtain ⟨-,-,-,hkey⟩ := ownOrShared_eq_some hf
    simp [hkey]

section
variable {flags : List Flag} {st : ParseState} (hr : Recorded flags st) (env : Env) (n : ℤ)
include hr

lemma Recorded.lookup_finalGroup_passwords (key : Str) :
    (finalGroup env st n).passwords.lookup key=(ownOrShared .P n flags key).map Flag.value := by
  have h := hr.lookup_passwords env n key
  rw [recorded_passwords,recorded_passwords,lookup_fill_valueAs hr (.inr rfl),
    lookup_fill_valueAs hr (.inr rfl),← map_or] at h
  exact h

lemma Recorded.lookup_finalGroup_accepts (key : Str) :
    (finalGroup env st n).accepts.lookup key=(ownOrShared .A n flags key).map Flag.value := by
  have h := hr.lookup_accepts env n key
  rw [recorded_accepts,recorded_accepts,lookup_fill_valueAs hr (.inl rfl),
    lookup_fill_valueAs hr (.inl rfl),← map_or] at h
  exact h

lemma Recorded.lookupPassword_eq (d : Direction) (sub : Str) : lookupPassword (finalGroup env st n) d sub =
      ((passwordFlag flags n d sub).map Flag.value).getD [] := by
  rw [lookupPassword,firstKey_eq (hr.lookup_finalGroup_passwords env n),Option.map_map]
  rfl

lemma Recorded.lookupAccept_ok {d : Direction} {sub : Str} {accept : List Prefix}
    (h : lookupAccept n (finalGroup env st n) d sub=.ok accept) :
    match acceptFlag flags n d sub with
    | none => accept=[]
    | some f => parseIPList f.value=.ok accept := by
  rw [lookupAccept,firstKey_eq (hr.lookup_finalGroup_accepts env n)] at h
  rw [acceptFlag]
  cases hf : lookupFlag .A n flags (acceptKeys d sub) with
  | none =>
    rw [hf] at h
    cases h
    rfl
  | some f =>
    simp only [hf,Option.map_some] at h
    cases hl : parseIPList f.value with
    | error e =>
      rw [hl] at h
      cases h
    | ok prefixes =>
      rw [hl] at h
      cases h
      exact hl

end

end TunnnejiTail.Cli
