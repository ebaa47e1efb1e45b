import TunnnejiTail.Cli.RawGroups

/-! The groups after inheritance and validation. Every group that parseTunnelArgs builds is
its recorded group with the shared values filled in, and its passwords and whitelists are
its own first and the un-numbered ones second. -/
namespace TunnnejiTail.Cli
open Go List

lemma foldl_map_eq_map_foldl {α β : Type} (f : α → β → α) (l : List β) (xs : List α) :
    l.foldl (fun xs b => xs.map fun a => f a b) xs=xs.map fun a => l.foldl f a := by
  induction l generalizing xs with
  | nil => simp
  | cons b bs ih =>
    rw [foldl_cons,ih,map_map]
    rfl

lemma lookup_setIfAbsent (m : GoMap Str Str) (p : Str × Str) (k : Str) :
    (setIfAbsent m p).lookup k=(m.lookup k).or (if p.1=k then some p.2 else none) := by
  obtain ⟨k',v⟩ := p
  by_cases hk : k'=k
  · subst k
    cases hm : m.lookup k' <;> simp [setIfAbsent,hm]
  · cases hm : (m.lookup k').isSome <;>
      simp [setIfAbsent,hm,hk,AList.lookup_insert_ne (Ne.symm hk)]

variable (l : List (Str × Str))

lemma lookup_foldl_setIfAbsent (m : GoMap Str Str) (k : Str) :
    (l.foldl setIfAbsent m).lookup k=(m.lookup k).or (l.lookup k) := by
  induction l generalizing m with
  | nil => simp
  | cons p ps ih =>
    obtain ⟨k',v⟩ := p
    rw [foldl_cons,ih,lookup_setIfAbsent,Option.or_assoc,lookup_cons]
    by_cases hk : k'=k
    · simp [hk]
    · have hk' : (k == k')=false := beq_eq_false_iff_ne.mpr (Ne.symm hk)
      simp [hk,hk']

/-- A map with the pairs of another one added where it has no value of its own. -/
def inheritMap (o : MapOrder) (shared own : GoMap Str Str) : GoMap Str Str :=
  (range o shared).foldl setIfAbsent own

lemma lookup_inheritMap (o : MapOrder) (shared own : GoMap Str Str) (k : Str) :
    (inheritMap o shared own).lookup k=(own.lookup k).or (shared.lookup k) := by
  rw [inheritMap,lookup_foldl_setIfAbsent,lookup_range]

def withDefaults (st : ParseState) (n : ℤ) (rg : RawGroup) : RawGroup :=
  if n=0 then { rg with
    authKey := if rg.authKey=[] then st.lastAuthKey else rg.authKey
    stateFile := if rg.stateFile=[] then st.lastStateFile else rg.stateFile }
  else rg

def withPasswords (env : Env) (st : ParseState) (n : ℤ) (rg : RawGroup) : RawGroup :=
  if n=noNumber then rg else { rg with
    passwords := inheritMap (env.order .inheritedPasswords) st.inheritedPasswords rg.passwords }

def withAccepts (env : Env) (st : ParseState) (n : ℤ) (rg : RawGroup) : RawGroup :=
  if n=noNumber then rg else { rg with
    accepts := inheritMap (env.order .inheritedAccepts) st.inheritedAccepts rg.accepts }

def withHostname (st : ParseState) (n : ℤ) (rg : RawGroup) : RawGroup :=
  if st.lastHostname=[] ∨ n=noNumber ∨ rg.hostnameSet then rg
  else { rg with hostname := st.lastHostname }

def inheritedGroup (env : Env) (st : ParseState) (n : ℤ) : RawGroup :=
  withHostname st n (withAccepts env st n (withPasswords env st n (withDefaults st n (st.getGroup n))))

variable (add : RawGroup → Str × Str → RawGroup)

lemma foldl_unlessNoNumber (l : List (Str × Str))
    (n : ℤ) (rg : RawGroup) :
    l.foldl (fun (q : ℤ × RawGroup) p => if q.1=noNumber then q else (q.1,add q.2 p)) (n,rg) =
      (n,if n=noNumber then rg else l.foldl add rg) := by
  induction l generalizing rg with
  | nil => simp
  | cons p ps ih =>
    rw [foldl_cons]
    by_cases hn : n=noNumber
    · simpa [hn] using ih rg
    · simpa [hn] using ih (add rg p)

lemma foldl_numbered (l : List (Str × Str)) (groups : Groups) :
    l.foldl (fun groups p => groups.map fun (q : ℤ × RawGroup) =>
      if q.1=noNumber then q else (q.1,add q.2 p)) groups =
    groups.map fun q => (q.1,if q.1=noNumber then q.2 else l.foldl add q.2) := by
  rw [foldl_map_eq_map_foldl (fun (q : ℤ × RawGroup) p =>
    if q.1=noNumber then q else (q.1,add q.2 p))]
  exact map_congr_left fun q _ => foldl_unlessNoNumber add l q.1 q.2

lemma foldl_setPasswords (rg : RawGroup) :
    l.foldl (fun rg p => { rg with passwords := setIfAbsent rg.passwords p }) rg =
      { rg with passwords := l.foldl setIfAbsent rg.passwords } :=
  foldl_hom (fun m => { rg with passwords := m }) fun _ _ => rfl

lemma foldl_setAccepts (rg : RawGroup) :
    l.foldl (fun rg p => { rg with accepts := setIfAbsent rg.accepts p }) rg =
      { rg with accepts := l.foldl setIfAbsent rg.accepts } :=
  foldl_hom (fun m => { rg with accepts := m }) fun _ _ => rfl

section
variable (st : ParseState) (groups : Groups)

lemma inheritDefaults_eq :
    inheritDefaults st groups=groups.map fun q => (q.1,withDefaults st q.1 q.2) := by
  refine map_congr_left fun q _ => ?_
  by_cases h0 : q.1=0 <;> simp [withDefaults,h0]

lemma inheritPasswords_eq (env : Env) :
    inheritPasswords env st groups=groups.map fun q => (q.1,withPasswords env st q.1 q.2) := by
  refine (foldl_numbered (fun rg p => { rg with passwords := setIfAbsent rg.passwords p }) _ groups).trans ?_
  simp only [foldl_setPasswords]
  rfl

lemma inheritAccepts_eq (env : Env) :
    inheritAccepts env st groups=groups.map fun q => (q.1,withAccepts env st q.1 q.2) := by
  refine (foldl_numbered (fun rg p => { rg with accepts := setIfAbsent rg.accepts p }) _ groups).trans ?_
  simp only [foldl_setAccepts]
  rfl

lemma inheritHostname_eq :
    inheritHostname st groups=groups.map fun q => (q.1,withHostname st q.1 q.2) := by
  rw [inheritHostname]
  by_cases hl : st.lastHostname=[]
  · simp [withHostname,hl]
  · rw [if_pos hl]
    refine map_congr_left fun q _ => ?_
    by_cases hq : q.1=noNumber ∨ q.2.hostnameSet <;> simp [withHostname,hl,hq]

end

lemma inherit_eq_map (env : Env) (st : ParseState) :
    inherit env st=st.nums.map fun n => (n,inheritedGroup env st n) := by
  rw [inherit,inheritDefaults_eq,inheritPasswords_eq,inheritAccepts_eq,inheritHostname_eq,
    ParseState.groups,map_map,map_map,map_map,map_map]
  rfl

section
variable (env : Env) (st : ParseState) (n : ℤ) (rg : RawGroup)

lemma withDefaults_eq : withDefaults st n rg = { rg with
    authKey := if n=0 ∧ rg.authKey=[] then st.lastAuthKey else rg.authKey
    stateFile := if n=0 ∧ rg.stateFile=[] then st.lastStateFile else rg.stateFile } := by
  by_cases h0 : n=0
  · simp only [withDefaults,h0,if_true,true_and]
  · simp only [withDefaults,h0,if_false,false_and]

lemma withPasswords_eq : withPasswords env st n rg = { rg with
    passwords := if n=noNumber then rg.passwords
      else inheritMap (env.order .inheritedPasswords) st.inheritedPasswords rg.passwords } := by
  unfold withPasswords
  split_ifs <;> rfl

lemma withAccepts_eq : withAccepts env st n rg = { rg with
    accepts := if n=noNumber then rg.accepts
      else inheritMap (env.order .inheritedAccepts) st.inheritedAccepts rg.accepts } := by
  unfold withAccepts
  split_ifs <;> rfl

lemma withHostname_eq : withHostname st n rg = { rg with
    hostname := if st.lastHostname=[] ∨ n=noNumber ∨ rg.hostnameSet then rg.hostname
      else st.lastHostname } := by
  unfold withHostname
  split_ifs <;> rfl

@[simp] lemma inheritedGroup_entries : (inheritedGroup env st n).entries=(st.getGroup n).entries := by
  rw [inheritedGroup,withHostname_eq,withAccepts_eq,withPasswords_eq,withDefaults_eq]

lemma inheritedGroup_authKey : (inheritedGroup env st n).authKey =
    if n=0 ∧ (st.getGroup n).authKey=[] then st.lastAuthKey else (st.getGroup n).authKey := by
  rw [inheritedGroup,withHostname_eq,withAccepts_eq,withPasswords_eq,withDefaults_eq]

lemma inheritedGroup_stateFile : (inheritedGroup env st n).stateFile =
    if n=0 ∧ (st.getGroup n).stateFile=[] then st.lastStateFile else (st.getGroup n).stateFile := by
  rw [inheritedGroup,withHostname_eq,withAccepts_eq,withPasswords_eq,withDefaults_eq]

lemma inheritedGroup_passwords : (inheritedGroup env st n).passwords =
    if n=noNumber then (st.getGroup n).passwords
    else inheritMap (env.order .inheritedPasswords) st.inheritedPasswords (st.getGroup n).passwords := by
  rw [inheritedGroup,withHostname_eq,withAccepts_eq,withPasswords_eq,withDefaults_eq]

lemma inheritedGroup_accepts : (inheritedGroup env st n).accepts =
    if n=noNumber then (st.getGroup n).accepts
    else inheritMap (env.order .inheritedAccepts) st.inheritedAccepts (st.getGroup n).accepts := by
  rw [inheritedGroup,withHostname_eq,withAccepts_eq,withPasswords_eq,withDefaults_eq]

end

variable {flags : List Flag} {st : ParseState}

section
variable (hr : Recorded flags st) (env : Env) (n : ℤ) (k : Str)
include hr

lemma Recorded.lookup_passwords : (inheritedGroup env st n).passwords.lookup k =
      ((recorded (groupFlags n flags)).passwords.lookup k).or
        ((recorded (groupFlags noNumber flags)).passwords.lookup k) := by
  rw [inheritedGroup_passwords,← hr.group,← hr.group]
  by_cases hn : n=noNumber
  · simp [hn]
  · rw [if_neg hn,lookup_inheritMap,hr.inheritedPasswords]

lemma Recorded.lookup_accepts : (inheritedGroup env st n).accepts.lookup k =
      ((recorded (groupFlags n flags)).accepts.lookup k).or
        ((recorded (groupFlags noNumber flags)).accepts.lookup k) := by
  rw [inheritedGroup_accepts,← hr.group,← hr.group]
  by_cases hn : n=noNumber
  · simp [hn]
  · rw [if_neg hn,lookup_inheritMap,hr.inheritedAccepts]

end

def RawGroup.validated (rg : RawGroup) : RawGroup :=
  { rg with stateFile := if rg.stateFile=[] then defaultStateFile else rg.stateFile }

variable {env : Env}

lemma validateGroup_ok {n : ℤ} {rg : RawGroup} {q : ℤ × RawGroup}
    (h : validateGroup env (n,rg)=.ok q) : q=(n,if rg.entries.entries.isEmpty then rg else rg.validated) := by
  rw [validateGroup] at h
  by_cases hskip : n=noNumber ∧ rg.entries.entries.isEmpty
  · rw [if_pos hskip] at h
    cases h
    rw [if_pos hskip.2]
  · rw [if_neg hskip] at h
    obtain ⟨-,h⟩ := guard_eq_ok.mp h
    obtain ⟨-,h⟩ := guard_eq_ok.mp h
    obtain ⟨hentries,h⟩ := guard_eq_ok.mp h
    obtain ⟨-,h⟩ := guard_eq_ok.mp h
    cases h
    rw [if_neg hentries]
    rfl

def finalGroup (env : Env) (st : ParseState) (n : ℤ) : RawGroup :=
  (inheritedGroup env st n).validated

def ParseState.hasMappings (st : ParseState) (n : ℤ) : Bool :=
  !(st.getGroup n).entries.entries.isEmpty

/-- The groups that have mappings, after inheritance and validation. -/
def finalGroups (env : Env) (st : ParseState) : Groups :=
  (st.nums.filter st.hasMappings).map fun n => (n,finalGroup env st n)

lemma filter_validated {groups : Groups}
    (h : (inherit env st).mapM (validateGroup env)=.ok groups) :
    (groups.filter fun p => !p.2.entries.entries.isEmpty)=finalGroups env st := by
  rw [inherit_eq_map] at h
  rw [finalGroups]
  have hf := mapM_ok h
  clear h
  generalize st.nums=nums at hf
  induction nums generalizing groups with
  | nil =>
    cases hf
    rfl
  | cons n nums ih =>
    cases hf with
    | cons hq hrest =>
      cases validateGroup_ok hq
      rw [filter_cons,filter_cons,ih hrest]
      cases he : (st.getGroup n).entries.entries.isEmpty <;>
        simp [ParseState.hasMappings,he,finalGroup,RawGroup.validated]

/-- An accepted argument list passes the flag loop and the checks, and its groups are built
one by one, in increasing order of their numbers. -/
theorem parseNumbered_ok_iff {args : List Str} {built : List (ℤ × TunnelGroup)} :
    parseNumbered env args=.ok built ↔ ∃ st, flagLoop {} args=.ok st ∧
      ¬st.raw.entries.isEmpty ∧ ¬coexistenceError (inherit env st) ∧
      (∃ groups, (inherit env st).mapM (validateGroup env)=.ok groups) ∧
      (finalGroups env st).mapM (buildGroup env)=.ok built ∧ ¬built.isEmpty := by
  rw [parseNumbered]
  cases hst : flagLoop {} args with
  | error e =>
    refine iff_of_false (fun h => by cases h) ?_
    rintro ⟨st,h,-⟩
    cases h
  | ok st =>
    simp only [guard_eq_ok,Except.ok.injEq,exists_eq_left']
    refine and_congr_right fun _ => and_congr_right fun _ => ?_
    cases hgroups : (inherit env st).mapM (validateGroup env) with
    | error e =>
      refine iff_of_false (fun h => by cases h) ?_
      rintro ⟨⟨groups,h⟩,-⟩
      cases h
    | ok groups =>
      simp only [filter_validated hgroups]
      cases hbuilt : (finalGroups env st).mapM (buildGroup env) with
      | error e =>
        refine iff_of_false (fun h => by cases h) ?_
        rintro ⟨-,h,-⟩
        cases h
      | ok built' =>
        simp only [guard_eq_ok,Except.ok.injEq,exists_eq',true_and]
        constructor
        · rintro ⟨hne,rfl⟩
          exact ⟨rfl,hne⟩
        · rintro ⟨rfl,hne⟩
          exact ⟨hne,rfl⟩

end TunnnejiTail.Cli
