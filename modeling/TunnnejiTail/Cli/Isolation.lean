import TunnnejiTail.Cli.Build

/-! How far the group built for one number depends on the flags of the others. Two accepted
argument lists with the same un-numbered flags and the same flags for n agree on group n
except where group 0 takes the last -K or -T of any group. -/
namespace TunnnejiTail.Cli
open Go List RawGroup

lemma recorded_eq_lastValue (field : RawGroup → Str) {kind : Flag → Bool} (h0 : field {} = [])
    (hstep : ∀ g f, field (recordFlag g f)=if kind f then f.value else field g)
    (flags : List Flag) : field (recorded flags)=lastValue kind flags := by
  induction flags using List.reverseRecOn with
  | nil => exact h0
  | append_singleton flags f ih => rw [recorded_append,lastValue_append,hstep,ih]

lemma recorded_authKey (flags : List Flag) : (recorded flags).authKey=lastValue (·.name=.K) flags := by
  refine recorded_eq_lastValue RawGroup.authKey rfl (fun g f => ?_) flags
  cases hname : f.name <;> simp [recordFlag,hname,addMapping]

lemma recorded_stateFile (flags : List Flag) : (recorded flags).stateFile=lastValue (·.name=.T) flags := by
  refine recorded_eq_lastValue RawGroup.stateFile rfl (fun g f => ?_) flags
  cases hname : f.name <;> simp [recordFlag,hname,addMapping]

def visibleFlags (n : ℤ) (args : List Str) : List Flag :=
  (flagsOf args).filter fun f => f.groupNum=noNumber ∨ f.groupNum=n

lemma groupFlags_of_visibleFlags {n m : ℤ} {args1 args2 : List Str}
    (h : visibleFlags n args1=visibleFlags n args2) (hm : m=noNumber ∨ m=n) :
    groupFlags m (flagsOf args1)=groupFlags m (flagsOf args2) := by
  have hsub : ∀ args, groupFlags m (flagsOf args)=groupFlags m (visibleFlags n args) := by
    intro args
    rw [groupFlags,groupFlags,visibleFlags,filter_filter]
    refine filter_congr fun f _ => ?_
    by_cases hf : f.groupNum=m
    · simp [hf,hm]
    · simp [hf]
  rw [hsub,hsub,h]

lemma buildGroup_with (env : Env) (n : ℤ) (rg : RawGroup) (authKey stateFile : Str) :
    buildGroup env (n,{ rg with authKey := authKey, stateFile := stateFile }) = (buildGroup env (n,rg)).map fun q =>
        (q.1,{ q.2 with authKey := authKey, stateFile := stateFile }) := by
  have hadd : addEntry n { rg with authKey := authKey, stateFile := stateFile } = addEntry n rg := by
    funext st m
    rfl
  have hmap : ∀ o, mappings o { rg with authKey := authKey, stateFile := stateFile } = mappings o rg := fun _ => rfl
  rw [buildGroup,buildGroup,hadd,hmap]
  cases (mappings (env.order (.entries n)) rg).foldlM (addEntry n rg) {} <;> rfl

lemma lastValue_groupFlags (name : FlagName) (n : ℤ) (flags : List Flag) :
    lastValue (·.name=name) (groupFlags n flags) = lastValue (fun f => f.name=name ∧ f.groupNum=n) flags := by
  rw [lastValue,lastValue,groupFlags,filter_filter]
  congr 4
  funext f
  simp

section
variable (env : Env) {n : ℤ} {args1 args2 : List Str} {st1 st2 : ParseState}
  (hr1 : Recorded (flagsOf args1) st1) (hr2 : Recorded (flagsOf args2) st2)

include hr1 hr2 in
lemma getGroup_of_visibleFlags (h : visibleFlags n args1=visibleFlags n args2) {m : ℤ}
    (hm : m=noNumber ∨ m=n) : st2.getGroup m=st1.getGroup m := by
  rw [hr1.group,hr2.group,groupFlags_of_visibleFlags h hm]

def SameButLogin (rg1 rg2 : RawGroup) : Prop :=
  ∃ authKey stateFile, rg2 = { rg1 with authKey := authKey, stateFile := stateFile }

lemma sameButLogin_withDefaults (st1 st2 : ParseState) (n : ℤ) (rg : RawGroup) :
    SameButLogin (withDefaults st1 n rg) (withDefaults st2 n rg) := by
  by_cases h0 : n=0
  · rw [withDefaults,withDefaults,if_pos h0,if_pos h0]
    exact ⟨_,_,rfl⟩
  · rw [withDefaults,withDefaults,if_neg h0,if_neg h0]
    exact ⟨rg.authKey,rg.stateFile,rfl⟩

section
variable {rg1 rg2 : RawGroup} (h : SameButLogin rg1 rg2)
include h

lemma SameButLogin.withPasswords
    (hst : st2.inheritedPasswords=st1.inheritedPasswords) :
    SameButLogin (withPasswords env st1 n rg1) (withPasswords env st2 n rg2) := by
  obtain ⟨authKey,stateFile,rfl⟩ := h
  refine ⟨authKey,stateFile,?_⟩
  rw [Cli.withPasswords,Cli.withPasswords,hst]
  split_ifs <;> rfl

lemma SameButLogin.withAccepts
    (hst : st2.inheritedAccepts=st1.inheritedAccepts) :
    SameButLogin (withAccepts env st1 n rg1) (withAccepts env st2 n rg2) := by
  obtain ⟨authKey,stateFile,rfl⟩ := h
  refine ⟨authKey,stateFile,?_⟩
  rw [Cli.withAccepts,Cli.withAccepts,hst]
  split_ifs <;> rfl

lemma SameButLogin.withHostname
    (hst : st2.lastHostname=st1.lastHostname) :
    SameButLogin (withHostname st1 n rg1) (withHostname st2 n rg2) := by
  obtain ⟨authKey,stateFile,rfl⟩ := h
  refine ⟨authKey,stateFile,?_⟩
  rw [Cli.withHostname,Cli.withHostname,hst]
  split_ifs <;> rfl

end

include hr1 hr2 in
lemma inheritedGroup_of_visibleFlags (h : visibleFlags n args1=visibleFlags n args2) :
    inheritedGroup env st2 n = { inheritedGroup env st1 n with
      authKey := (inheritedGroup env st2 n).authKey
      stateFile := (inheritedGroup env st2 n).stateFile } := by
  have hown := getGroup_of_visibleFlags hr1 hr2 h (.inr rfl)
  have hshared := getGroup_of_visibleFlags hr1 hr2 h (.inl rfl)
  have hhost : st2.lastHostname=st1.lastHostname := by
    rw [hr1.lastHostname,hr2.lastHostname,← lastValue_groupFlags,← lastValue_groupFlags,
      groupFlags_of_visibleFlags h (.inl rfl)]
  have hpass : st2.inheritedPasswords=st1.inheritedPasswords := by
    rw [hr1.inheritedPasswords,hr2.inheritedPasswords,hshared]
  have hacc : st2.inheritedAccepts=st1.inheritedAccepts := by
    rw [hr1.inheritedAccepts,hr2.inheritedAccepts,hshared]
  have hsame : SameButLogin (inheritedGroup env st1 n) (inheritedGroup env st2 n) := by
    rw [inheritedGroup,inheritedGroup,hown]
    exact (((sameButLogin_withDefaults st1 st2 n _).withPasswords env hpass).withAccepts env hacc).withHostname hhost
  obtain ⟨authKey,stateFile,heq⟩ := hsame
  rw [heq]

def SameAuthKey (args1 args2 : List Str) : Prop :=
  lastValue (fun f => f.name=.K ∧ f.groupNum=0) (flagsOf args1)≠[] ∨
    lastValue (·.name=.K) (flagsOf args1)=lastValue (·.name=.K) (flagsOf args2)

def orDefault (file : Str) : Str := if file=[] then defaultStateFile else file

def SameStateFile (args1 args2 : List Str) : Prop :=
  lastValue (fun f => f.name=.T ∧ f.groupNum=0) (flagsOf args1)≠[] ∨
    orDefault (lastValue (·.name=.T) (flagsOf args1)) = orDefault (lastValue (·.name=.T) (flagsOf args2))

section
variable (h : visibleFlags n args1=visibleFlags n args2)
include hr1 hr2 h

lemma inheritedGroup_authKey_eq_iff :
    (inheritedGroup env st1 n).authKey=(inheritedGroup env st2 n).authKey ↔ n≠0 ∨ SameAuthKey args1 args2 := by
  have hown := getGroup_of_visibleFlags hr1 hr2 h (.inr rfl)
  rw [inheritedGroup_authKey,inheritedGroup_authKey,hown,hr1.lastAuthKey,hr2.lastAuthKey]
  by_cases h0 : n=0
  · subst n
    rw [hr1.group,recorded_authKey,lastValue_groupFlags,SameAuthKey]
    generalize lastValue (fun f => f.name=.K ∧ f.groupNum=0) (flagsOf args1)=own
    by_cases hown : own=[] <;> simp [hown]
  · simp [h0]

lemma finalGroup_stateFile_eq_iff :
    (finalGroup env st1 n).stateFile=(finalGroup env st2 n).stateFile ↔ n≠0 ∨ SameStateFile args1 args2 := by
  have hown := getGroup_of_visibleFlags hr1 hr2 h (.inr rfl)
  have hfile : ∀ st, (finalGroup env st n).stateFile=orDefault (inheritedGroup env st n).stateFile :=
    fun _ => rfl
  rw [hfile,hfile,inheritedGroup_stateFile,inheritedGroup_stateFile,hown,hr1.lastStateFile, hr2.lastStateFile]
  by_cases h0 : n=0
  · subst n
    rw [hr1.group,recorded_stateFile,lastValue_groupFlags,SameStateFile]
    generalize lastValue (fun f => f.name=.T ∧ f.groupNum=0) (flagsOf args1)=own
    by_cases hown : own=[] <;> simp [hown]
  · simp [h0]

lemma finalGroup_of_visibleFlags :
    finalGroup env st2 n = { finalGroup env st1 n with
      authKey := (finalGroup env st2 n).authKey
      stateFile := (finalGroup env st2 n).stateFile } := by
  rw [finalGroup,validated,inheritedGroup_of_visibleFlags env hr1 hr2 h]
  rfl

end

lemma exists_mapping_of_visibleFlags (h : visibleFlags n args1=visibleFlags n args2)
    (hf : ∃ f ∈ flagsOf args1, f.groupNum=n ∧ f.mapping≠none) :
    ∃ f ∈ flagsOf args2, f.groupNum=n ∧ f.mapping≠none := by
  obtain ⟨f,hf,hn,hm⟩ := hf
  have hmem : f ∈ groupFlags n (flagsOf args1) := mem_filter.mpr ⟨hf,by simpa using hn⟩
  rw [groupFlags_of_visibleFlags h (.inr rfl)] at hmem
  exact ⟨f,mem_of_mem_filter hmem,hn,hm⟩

lemma mapping_eq_none_iff (f : Flag) : f.mapping=none ↔ f.name≠.S ∧ f.name≠.C := by
  cases hname : f.name <;> simp [Flag.mapping,hname]

variable {env} {built1 built2 : List (ℤ × TunnelGroup)}

lemma mem_built_iff {args : List Str} {built : List (ℤ × TunnelGroup)} {st : ParseState}
    {g : TunnelGroup} (ha : Accepted env args built st) (hg : (n,g) ∈ built) (g' : TunnelGroup) :
    (n,g') ∈ built ↔ g'=g := by
  constructor
  · intro hg'
    have hb := ((ha.mem n g).mp hg).2
    have hb' := ((ha.mem n g').mp hg').2
    cases hb.symm.trans hb'
    rfl
  · rintro rfl
    exact hg

section
variable (ha1 : Accepted env args1 built1 st1) (ha2 : Accepted env args2 built2 st2)
  (h : visibleFlags n args1=visibleFlags n args2)
include ha1 ha2 h

lemma same_group_iff_fields {g1 g2 : TunnelGroup} (hg1 : (n,g1) ∈ built1) (hg2 : (n,g2) ∈ built2) :
    (∀ g, (n,g) ∈ built1 ↔ (n,g) ∈ built2) ↔ (finalGroup env st1 n).authKey=(finalGroup env st2 n).authKey ∧
        (finalGroup env st1 n).stateFile=(finalGroup env st2 n).stateFile := by
  have hb := ((ha2.mem n g2).mp hg2).2
  rw [finalGroup_of_visibleFlags env ha1.recorded ha2.recorded h,buildGroup_with, ((ha1.mem n g1).mp hg1).2] at hb
  have hg : g2 = { g1 with
      authKey := (finalGroup env st2 n).authKey
      stateFile := (finalGroup env st2 n).stateFile } := by
    cases hb
    rfl
  have hgb := ha1.groupBuilt hg1
  rw [← hgb.authKey,← hgb.stateFile]
  constructor
  · intro hall
    rw [(mem_built_iff ha2 hg2 g1).mp ((hall g1).mp hg1),hg]
    exact ⟨rfl,rfl⟩
  · intro hfields g
    rw [← hfields.1,← hfields.2] at hg
    rw [mem_built_iff ha1 hg1,mem_built_iff ha2 hg2,hg]

lemma same_group_of_no_mapping
    (hno : ¬∃ f ∈ flagsOf args1, f.groupNum=n ∧ f.mapping≠none) : ∀ g, (n,g) ∈ built1 ↔ (n,g) ∈ built2 := by
  intro g
  rw [ha1.mem,ha2.mem]
  constructor
  · intro hg
    exact absurd hg.1 hno
  · intro hg
    exact absurd (exists_mapping_of_visibleFlags h.symm hg.1) hno

end

/-- Two accepted argument lists that agree on the un-numbered flags and on the flags of
group n build the same group n, unless n is 0 and it takes another group's -K or -T. -/
theorem same_group_iff (h1 : parseNumbered env args1=.ok built1)
    (h2 : parseNumbered env args2=.ok built2) (h : visibleFlags n args1=visibleFlags n args2) :
    (∀ g, (n,g) ∈ built1 ↔ (n,g) ∈ built2) ↔ n≠0 ∨ (∀ f ∈ flagsOf args1, f.groupNum=0 → f.name≠.S ∧ f.name≠.C) ∨
        SameAuthKey args1 args2 ∧ SameStateFile args1 args2 := by
  obtain ⟨st1,ha1⟩ := exists_accepted h1
  obtain ⟨st2,ha2⟩ := exists_accepted h2
  have hunmapped : (∀ f ∈ flagsOf args1, f.groupNum=0 → f.name≠.S ∧ f.name≠.C) ↔
      ¬∃ f ∈ flagsOf args1, f.groupNum=0 ∧ f.mapping≠none := by
    simp only [← mapping_eq_none_iff,not_exists,not_and,not_not]
  rw [hunmapped]
  by_cases hgroup : ∃ f ∈ flagsOf args1, f.groupNum=n ∧ f.mapping≠none
  · obtain ⟨f1,hf1,hn1,hm1⟩ := hgroup
    obtain ⟨f2,hf2,hn2,hm2⟩ := exists_mapping_of_visibleFlags h ⟨f1,hf1,hn1,hm1⟩
    obtain ⟨g1,hg1⟩ := ha1.exists_group f1 hf1 hm1
    obtain ⟨g2,hg2⟩ := ha2.exists_group f2 hf2 hm2
    rw [hn1] at hg1
    rw [hn2] at hg2
    rw [same_group_iff_fields ha1 ha2 h hg1 hg2, finalGroup_stateFile_eq_iff env ha1.recorded ha2.recorded h]
    refine (and_congr_left' (inheritedGroup_authKey_eq_iff env ha1.recorded ha2.recorded h)).trans ?_
    rw [← or_and_left]
    refine or_congr_right' fun h0 => ?_
    have hsome : ∃ f ∈ flagsOf args1, f.groupNum=0 ∧ f.mapping≠none :=
      ⟨f1,hf1,hn1.trans (not_not.mp h0),hm1⟩
    simp only [hsome,not_true_eq_false,false_or]
  · refine ⟨fun _ => ?_,fun _ => same_group_of_no_mapping ha1 ha2 h hgroup⟩
    by_cases h0 : n=0
    · rw [h0] at hgroup
      exact .inr (.inl hgroup)
    · exact .inl h0

end

def keyForGroup1 (key : Str) : List Str :=
  ["-S0","80:localhost","-K1",key,"-S1","81:localhost"]

/-- Changing the key of group 0 leaves group 1 as it is. -/
theorem same_group_iff_group1 :
    ∃ built1 built2,
      parseNumbered .noFiles ("-K0" :: "a" :: keyForGroup1 "k")=.ok built1 ∧
      parseNumbered .noFiles ("-K0" :: "b" :: keyForGroup1 "k")=.ok built2 ∧
      ∀ g, (1,g) ∈ built1 ↔ (1,g) ∈ built2 := by
  have h1 : ((parseNumbered .noFiles ("-K0" :: "a" :: keyForGroup1 "k")).map List.length)=.ok 2 := by decide +kernel
  have h2 : ((parseNumbered .noFiles ("-K0" :: "b" :: keyForGroup1 "k")).map List.length)=.ok 2 := by decide +kernel
  obtain ⟨built1,hb1,-⟩ := map_eq_ok.mp h1
  obtain ⟨built2,hb2,-⟩ := map_eq_ok.mp h2
  refine ⟨built1,built2,hb1,hb2,?_⟩
  exact (same_group_iff hb1 hb2 (by decide +kernel)).mpr (.inl (by decide))

/-- Group 1's key decides with which key group 0 logs in. -/
theorem group0_takes_key_of_group1 :
    ∃ built1 built2, parseNumbered .noFiles (keyForGroup1 "a")=.ok built1 ∧
      parseNumbered .noFiles (keyForGroup1 "b")=.ok built2 ∧
      visibleFlags 0 (keyForGroup1 "a")=visibleFlags 0 (keyForGroup1 "b") ∧
      ¬∀ g, (0,g) ∈ built1 ↔ (0,g) ∈ built2 := by
  have h1 : (parseNumbered .noFiles (keyForGroup1 "a")).map
      (List.map fun q => (q.1,q.2.authKey))=.ok [(0,"a"),(1,"a")] := by decide +kernel
  have h2 : (parseNumbered .noFiles (keyForGroup1 "b")).map
      (List.map fun q => (q.1,q.2.authKey))=.ok [(0,"b"),(1,"b")] := by decide +kernel
  obtain ⟨built1,hb1,hk1⟩ := map_eq_ok.mp h1
  obtain ⟨built2,hb2,hk2⟩ := map_eq_ok.mp h2
  refine ⟨built1,built2,hb1,hb2,by decide +kernel,fun hall => ?_⟩
  have hmem : ((0 : ℤ),("a" : Str)) ∈ built1.map fun q => (q.1,q.2.authKey) := by
    rw [hk1]
    exact mem_cons_self
  obtain ⟨⟨n,g⟩,hq,heq⟩ := mem_map.mp hmem
  obtain ⟨rfl,hkey⟩ := Prod.mk.inj heq
  have hmem2 : ((0 : ℤ),g.authKey) ∈ built2.map fun q => (q.1,q.2.authKey) :=
    mem_map.mpr ⟨_,(hall g).mp hq,rfl⟩
  rw [hk2,hkey] at hmem2
  revert hmem2
  decide +kernel

end TunnnejiTail.Cli
