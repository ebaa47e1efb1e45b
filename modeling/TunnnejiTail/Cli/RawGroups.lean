import TunnnejiTail.Go.Loops
import TunnnejiTail.Cli.ParseTunnelArgs

/-! What the flag loop records: every group is the fold of its own flags, and the variables
shared between groups hold the last -K and -T of any group and the un-numbered -H, -A and -P. -/
namespace TunnnejiTail.Cli
open Go List ParseState RawGroup

def Flag.key (f : Flag) : Str := dirString f.dir++f.sub

/-- What an accepted flag changes in its group. -/
def recordFlag (g : RawGroup) (f : Flag) : RawGroup :=
  match f.name with
  | .K => { g with authKey := f.value, authKeySet := true }
  | .T => { g with stateFile := f.value, stateFileSet := true }
  | .H => { g with hostname := f.value, hostnameSet := true }
  | .S => g.addMapping .server f.sub f.value
  | .C => g.addMapping .client f.sub f.value
  | .A => { g with accepts := g.accepts.insert f.key f.value }
  | .P => { g with passwords := g.passwords.insert f.key f.value }

/-- Everything an accepted flag does to the parse state. -/
structure Applied (st : ParseState) (f : Flag) (st' : ParseState) : Prop where
  raw : st'.raw=st.raw.insert f.groupNum (recordFlag (st.getGroup f.groupNum) f)
  lastAuthKey : st'.lastAuthKey=if f.name=.K then f.value else st.lastAuthKey
  lastStateFile : st'.lastStateFile=if f.name=.T then f.value else st.lastStateFile
  lastHostname : st'.lastHostname =
    if f.name=.H ∧ f.groupNum=noNumber then f.value else st.lastHostname
  inheritedPasswords : st'.inheritedPasswords =
    if f.name=.P ∧ f.groupNum=noNumber then st.inheritedPasswords.insert f.key f.value
    else st.inheritedPasswords
  inheritedAccepts : st'.inheritedAccepts =
    if f.name=.A ∧ f.groupNum=noNumber then st.inheritedAccepts.insert f.key f.value
    else st.inheritedAccepts
  newPassword : f.name=.P → (st.getGroup f.groupNum).passwords.lookup f.key=none
  newAccept : f.name=.A → (st.getGroup f.groupNum).accepts.lookup f.key=none

variable {st st' : ParseState} {f : Flag}

lemma applyFlag_ok (h : applyFlag st f=.ok st') : Applied st f st' := by
  obtain ⟨name,n,sub,dir,value⟩ := f
  cases name <;> simp only [applyFlag] at h
  case K =>
    split at h
    · cases h
    · cases h
      constructor <;> simp [setGroup,recordFlag]
  case T =>
    split at h
    · cases h
    · split at h
      · cases h
      · cases h
        constructor <;> simp [setGroup,recordFlag]
  case H =>
    split at h
    · cases h
    · cases h
      constructor <;> simp [setGroup,recordFlag]
  case S =>
    cases h
    constructor <;> simp [setGroup,recordFlag]
  case C =>
    cases h
    constructor <;> simp [setGroup,recordFlag]
  case A =>
    split at h
    · cases h
    · rename_i hnew
      cases h
      constructor <;> simp_all [setGroup,recordFlag,Flag.key]
  case P =>
    split at h
    · cases h
    · rename_i hnew
      cases h
      constructor <;> simp_all [setGroup,recordFlag,Flag.key]

lemma Applied.getGroup (h : Applied st f st') (n : ℤ) : st'.getGroup n =
      if f.groupNum=n then recordFlag (st.getGroup n) f else st.getGroup n := by
  by_cases hn : f.groupNum=n
  · subst n
    simp [ParseState.getGroup,h.raw]
  · simp [ParseState.getGroup,h.raw,hn,AList.lookup_insert_ne (Ne.symm hn)]

def groupFlags (n : ℤ) (flags : List Flag) : List Flag := flags.filter (·.groupNum=n)

def recorded (flags : List Flag) : RawGroup := flags.foldl recordFlag {}

section
variable (flags : List Flag)

lemma recorded_append (f : Flag) :
    recorded (flags++[f])=recordFlag (recorded flags) f := by
  simp [recorded]

lemma recorded_groupFlags_append (n : ℤ) (f : Flag) :
    recorded (groupFlags n (flags++[f])) = if f.groupNum=n then recordFlag (recorded (groupFlags n flags)) f
      else recorded (groupFlags n flags) := by
  by_cases hn : f.groupNum=n <;> simp [recorded,groupFlags,filter_append,hn]

def Flag.valueAs (name : FlagName) (f : Flag) : Option Str :=
  if f.name=name then some f.value else none

lemma recorded_passwords :
    (recorded flags).passwords=fill Flag.key (Flag.valueAs .P) flags ∅ := by
  refine foldl_eq_fill RawGroup.passwords (fun g f => ?_) flags {}
  cases hname : f.name <;> simp [recordFlag,hname,fill,Flag.valueAs,addMapping]

lemma recorded_accepts :
    (recorded flags).accepts=fill Flag.key (Flag.valueAs .A) flags ∅ := by
  refine foldl_eq_fill RawGroup.accepts (fun g f => ?_) flags {}
  cases hname : f.name <;> simp [recordFlag,hname,fill,Flag.valueAs,addMapping]

def lastValue (kind : Flag → Bool) (flags : List Flag) : Str :=
  (((flags.filter kind).getLast?).map Flag.value).getD []

lemma lastValue_append (kind : Flag → Bool) (f : Flag) :
    lastValue kind (flags++[f])=if kind f then f.value else lastValue kind flags := by
  cases hk : kind f <;> simp [lastValue,filter_append,hk]

end

/-- The parse state after the flags have been read. -/
structure Recorded (flags : List Flag) (st : ParseState) : Prop where
  group : ∀ n, st.getGroup n=recorded (groupFlags n flags)
  mem : ∀ n, n ∈ st.raw ↔ ∃ f ∈ flags, f.groupNum=n
  lastAuthKey : st.lastAuthKey=lastValue (·.name=.K) flags
  lastStateFile : st.lastStateFile=lastValue (·.name=.T) flags
  lastHostname : st.lastHostname = lastValue (fun f => f.name=.H ∧ f.groupNum=noNumber) flags
  inheritedPasswords : st.inheritedPasswords=(st.getGroup noNumber).passwords
  inheritedAccepts : st.inheritedAccepts=(st.getGroup noNumber).accepts
  keysDistinct : flags.Pairwise fun f g => f.name=g.name → f.name=.A ∨ f.name=.P → f.groupNum=g.groupNum → f.key≠g.key

lemma Recorded.nil : Recorded [] {} := by
  constructor <;> simp [ParseState.getGroup,recorded,groupFlags,lastValue]

variable {flags : List Flag} {g : Flag}

lemma key_ne_of_lookup_eq_none
    (h : (fill Flag.key (Flag.valueAs f.name) (groupFlags f.groupNum flags) ∅).lookup f.key=none)
    (hg : g ∈ flags) (hname : g.name=f.name) (hgroup : g.groupNum=f.groupNum) : g.key≠f.key := by
  intro hkey
  have hmem : g ∈ groupFlags f.groupNum flags := mem_filter.mpr ⟨hg,by simpa using hgroup⟩
  have hval := lookup_fill_eq_none.mp h g hmem hkey
  simp [Flag.valueAs,hname] at hval

lemma Recorded.key_ne
    (hr : Recorded flags st) (h : Applied st f st') (hg : g ∈ flags) (hname : g.name=f.name)
    (hkind : f.name=.A ∨ f.name=.P) (hgroup : g.groupNum=f.groupNum) : g.key≠f.key := by
  refine key_ne_of_lookup_eq_none ?_ hg hname hgroup
  cases hkind with
  | inl hA =>
    rw [hA,← recorded_accepts,← hr.group]
    exact h.newAccept hA
  | inr hP =>
    rw [hP,← recorded_passwords,← hr.group]
    exact h.newPassword hP

lemma Recorded.step (hr : Recorded flags st) (h : Applied st f st') : Recorded (flags++[f]) st' := by
  refine ⟨?_,?_,?_,?_,?_,?_,?_,?_⟩
  · intro n
    rw [h.getGroup,recorded_groupFlags_append,hr.group]
  · intro n
    rw [h.raw,AList.mem_insert,hr.mem]
    constructor
    · rintro (rfl | ⟨g,hg,hn⟩)
      · exact ⟨f,by simp,rfl⟩
      · exact ⟨g,by simp [hg],hn⟩
    · rintro ⟨g,hg,hn⟩
      cases mem_append.mp hg with
      | inl hg => exact .inr ⟨g,hg,hn⟩
      | inr hg =>
        cases mem_singleton.mp hg
        exact .inl hn.symm
  · rw [h.lastAuthKey,lastValue_append,hr.lastAuthKey]
    simp
  · rw [h.lastStateFile,lastValue_append,hr.lastStateFile]
    simp
  · rw [h.lastHostname,lastValue_append,hr.lastHostname]
    simp
  · rw [h.inheritedPasswords,h.getGroup,hr.inheritedPasswords]
    by_cases hn : f.groupNum=noNumber
    · cases hname : f.name <;> simp [hn,recordFlag,hname,addMapping]
    · simp [hn]
  · rw [h.inheritedAccepts,h.getGroup,hr.inheritedAccepts]
    by_cases hn : f.groupNum=noNumber
    · cases hname : f.name <;> simp [hn,recordFlag,hname,addMapping]
    · simp [hn]
  · refine pairwise_append.mpr ⟨hr.keysDistinct,pairwise_singleton _ _,?_⟩
    intro g hg f' hf' hname hkind hgroup
    cases mem_singleton.mp hf'
    exact hr.key_ne h hg hname (hname ▸ hkind) hgroup

lemma Recorded.flag_unique (hr : Recorded flags st)
    (hf : f ∈ flags) (hg : g ∈ flags) (hname : f.name=g.name)
    (hkind : f.name=.A ∨ f.name=.P) (hgroup : f.groupNum=g.groupNum) (hkey : f.key=g.key) : f=g := by
  by_contra hne
  have hsymm : Std.Symm fun f g : Flag => f.name=g.name → f.name=.A ∨ f.name=.P → f.groupNum=g.groupNum → f.key≠g.key :=
    ⟨fun a b hab hname hkind hgroup hkey =>
      hab hname.symm (hname ▸ hkind) hgroup.symm hkey.symm⟩
  exact hr.keysDistinct.forall hf hg hne hname hkind hgroup hkey

variable {args : List Str}

lemma flagLoop_eq_foldlM (h : flagLoop st args=.ok st') : (flagsOf args).foldlM applyFlag st=.ok st' := by
  fun_induction flagLoop st args with
  | case1 => exact h
  | case2 st rest ih =>
    rw [flagsOf.eq_def]
    simpa using ih h
  | case3 => cases h
  | case4 => cases h
  | case5 => cases h
  | case6 => cases h
  | case7 => cases h
  | case8 st arg hD _ name hname _ value rest st1 hst ih =>
    have hfl : flagsOf (arg::value::rest) =
        ⟨name,(parseFlag arg).groupNum,(parseFlag arg).sub,(parseFlag arg).dir,value⟩ ::
          flagsOf rest := by
      rw [flagsOf.eq_def]
      simp only [if_neg hD,hname]
    rw [hfl,foldlM_cons_ok]
    exact ⟨st1,hst,ih h⟩

lemma recorded_of_flagLoop (h : flagLoop {} args=.ok st) : Recorded (flagsOf args) st :=
  foldlM_invariant Recorded Recorded.nil (fun _ _ _ _ hr hf => hr.step (applyFlag_ok hf))
    (flagLoop_eq_foldlM h)

end TunnnejiTail.Cli
