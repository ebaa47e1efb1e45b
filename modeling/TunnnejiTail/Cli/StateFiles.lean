import TunnnejiTail.Cli.Isolation

/-! The state files of the built groups. A group has the file of its own -T, group 0 falls back
on the last -T of any group, and whatever is left empty becomes the default file, so two groups
can end up with one file although no two -T flags in a row name the same. -/
namespace TunnnejiTail.Cli
open Go List TunnelGroup

def flagStateFile (flags : List Flag) (n : ℤ) : Str :=
  let own := lastValue (fun f => f.name=.T ∧ f.groupNum=n) flags
  orDefault (if n=0 ∧ own=[] then lastValue (·.name=.T) flags else own)

def SeparateStateFiles (flags : List Flag) : Prop :=
  ∀ f ∈ flags, ∀ f' ∈ flags, f.mapping≠none → f'.mapping≠none →
    f.groupNum≠f'.groupNum → flagStateFile flags f.groupNum≠flagStateFile flags f'.groupNum

instance (flags : List Flag) : Decidable (SeparateStateFiles flags) :=
  inferInstanceAs (Decidable (∀ f ∈ flags, ∀ f' ∈ flags, _))

lemma Recorded.finalGroup_stateFile {flags : List Flag} {st : ParseState}
    (hr : Recorded flags st) (env : Env) (n : ℤ) : (finalGroup env st n).stateFile=flagStateFile flags n := by
  have hfile : (finalGroup env st n).stateFile=orDefault (inheritedGroup env st n).stateFile := rfl
  rw [hfile,inheritedGroup_stateFile,hr.group,recorded_stateFile,lastValue_groupFlags, hr.lastStateFile]
  rfl

section
variable {env : Env} {args : List Str} {built : List (ℤ × TunnelGroup)} {st : ParseState}
  (ha : Accepted env args built st)
include ha

lemma Accepted.stateFile {n : ℤ} {g : TunnelGroup}
    (hg : (n,g) ∈ built) : g.stateFile=flagStateFile (flagsOf args) n :=
  (ha.groupBuilt hg).stateFile.trans (ha.recorded.finalGroup_stateFile env n)

lemma Accepted.map_stateFile : built.map (fun q => q.2.stateFile) =
      (built.map Prod.fst).map (flagStateFile (flagsOf args)) := by
  rw [map_map]
  exact map_congr_left fun _ hq => ha.stateFile hq

lemma Accepted.mem_numbers {n : ℤ} :
    n ∈ built.map Prod.fst ↔ ∃ f ∈ flagsOf args, f.groupNum=n ∧ f.mapping≠none := by
  constructor
  · intro h
    obtain ⟨⟨n',g⟩,hg,rfl⟩ := mem_map.mp h
    exact ((ha.mem n' g).mp hg).1
  · rintro ⟨f,hf,rfl,hm⟩
    obtain ⟨g,hg⟩ := ha.exists_group f hf hm
    exact mem_map.mpr ⟨_,hg,rfl⟩

lemma Accepted.separate_iff :
    SeparateStateFiles (flagsOf args) ↔ ∀ n ∈ built.map Prod.fst, ∀ n' ∈ built.map Prod.fst,
      flagStateFile (flagsOf args) n=flagStateFile (flagsOf args) n' → n=n' := by
  constructor
  · intro h n hn n' hn' heq
    obtain ⟨f,hf,rfl,hm⟩ := ha.mem_numbers.mp hn
    obtain ⟨f',hf',rfl,hm'⟩ := ha.mem_numbers.mp hn'
    by_contra hne
    exact h f hf f' hf' hm hm' hne heq
  · intro h f hf f' hf' hm hm' hne heq
    exact hne (h _ (ha.mem_numbers.mpr ⟨f,hf,rfl,hm⟩) _ (ha.mem_numbers.mpr ⟨f',hf',rfl,hm'⟩) heq)

end

/-- The state files of an accepted argument list are pairwise distinct exactly when its flags
give any two groups with mappings different files. -/
theorem stateFiles_nodup_iff {env : Env} {args : List Str} {groups : List TunnelGroup}
    (h : parseTunnelArgs env args=.ok groups) :
    (groups.map TunnelGroup.stateFile).Nodup ↔ SeparateStateFiles (flagsOf args) := by
  obtain ⟨built,hb,rfl⟩ := map_eq_ok.mp h
  obtain ⟨st,ha⟩ := exists_accepted hb
  have hfiles : (built.map Prod.snd).map TunnelGroup.stateFile =
      (built.map Prod.fst).map (flagStateFile (flagsOf args)) := by
    rw [map_map]
    exact ha.map_stateFile
  rw [hfiles,ha.separate_iff]
  exact nodup_map_iff_inj_on ha.numbers

/-- Two groups with a key each, the second one with a state file of its own. -/
def secondFile (file : Str) : List Str :=
  ["-K1","a","-S1","80:localhost","-K2","b","-T2",file,"-S2","81:localhost"]

theorem stateFiles_nodup_second :
    ∃ groups, parseTunnelArgs .noFiles (secondFile "b.json")=.ok groups ∧
      groups.map TunnelGroup.stateFile=[("ttstate.json" : Str),"b.json"] ∧
      (groups.map TunnelGroup.stateFile).Nodup := by
  have heval : (parseTunnelArgs .noFiles (secondFile "b.json")).map
      (List.map TunnelGroup.stateFile)=.ok ["ttstate.json","b.json"] := by decide +kernel
  obtain ⟨groups,hg,hfiles⟩ := map_eq_ok.mp heval
  exact ⟨groups,hg,hfiles,(stateFiles_nodup_iff hg).mpr (by decide +kernel)⟩

def repeatedFile : List Str :=
  ["-K1","k","-T1","a","-S1","80:localhost","-K2","k","-T2","b","-S2","81:localhost",
    "-K3","k","-T3","a","-S3","82:localhost"]

/-- The default is given to every group without a -T, and a -T is compared with the one before
it only. -/
theorem stateFile_shared :
    (∃ groups, parseTunnelArgs .noFiles ["-K1","a","-S1","80:localhost","-K2","b","-S2","81:localhost"]=.ok groups ∧
      groups.map TunnelGroup.stateFile=[("ttstate.json" : Str),"ttstate.json"] ∧
      ¬(groups.map TunnelGroup.stateFile).Nodup) ∧
    ∃ groups, parseTunnelArgs .noFiles repeatedFile=.ok groups ∧
      groups.map TunnelGroup.stateFile=[("a" : Str),"b","a"] ∧
      ¬(groups.map TunnelGroup.stateFile).Nodup := by
  have hdefault : (parseTunnelArgs .noFiles ["-K1","a","-S1","80:localhost","-K2","b","-S2","81:localhost"]).map
      (List.map TunnelGroup.stateFile)=.ok ["ttstate.json","ttstate.json"] := by decide +kernel
  have hrepeated : (parseTunnelArgs .noFiles repeatedFile).map
      (List.map TunnelGroup.stateFile)=.ok ["a","b","a"] := by decide +kernel
  obtain ⟨groups,hg,hfiles⟩ := map_eq_ok.mp hdefault
  obtain ⟨groups',hg',hfiles'⟩ := map_eq_ok.mp hrepeated
  refine ⟨⟨groups,hg,hfiles,?_⟩,groups',hg',hfiles',?_⟩
  · rw [hfiles]
    decide +kernel
  · rw [hfiles']
    decide +kernel

end TunnnejiTail.Cli
