import Mathlib.Logic.Function.Basic
import TunnnejiTail.Cli.PortEntries

/-! The order in which the runtime visits maps. Whether an argument list is accepted does not
depend on it. The groups do not depend on it exactly when no two mappings of a group are stored
under one key of the ports map, where the one visited last stays. -/
namespace TunnnejiTail.Cli
open Go
open List hiding range mem_range

variable {st : ParseState} {n : ℤ} {args : List Str}

/-- Two groups that are equal as Go values: their ports maps hold the same entries. -/
structure SameGroup (g g' : TunnelGroup) : Prop where
  authKey : g.authKey=g'.authKey
  stateFile : g.stateFile=g'.stateFile
  hostname : g.hostname=g'.hostname
  ports : ∀ k, g.ports.lookup k=g'.ports.lookup k
  dropICMP : g.dropICMP=g'.dropICMP

/-- Two raw groups that differ at most in how their passwords and whitelists are stored. -/
def SameButStorage (rg rg' : RawGroup) : Prop :=
  ∃ passwords accepts, rg' = { rg with passwords := passwords, accepts := accepts } ∧
    (∀ k, passwords.lookup k=rg.passwords.lookup k) ∧
    ∀ k, accepts.lookup k=rg.accepts.lookup k

section
variable (env env' : Env) (st : ParseState) (n : ℤ)

lemma inheritedGroup_sameButStorage :
    SameButStorage (inheritedGroup env st n) (inheritedGroup env' st n) := by
  refine ⟨(inheritedGroup env' st n).passwords,(inheritedGroup env' st n).accepts,?_,?_,?_⟩
  · simp only [inheritedGroup,withHostname_eq,withAccepts_eq,withPasswords_eq,withDefaults_eq]
  · intro k
    rw [inheritedGroup_passwords,inheritedGroup_passwords]
    by_cases hn : n=noNumber
    · rw [if_pos hn,if_pos hn]
    · rw [if_neg hn,if_neg hn,lookup_inheritMap,lookup_inheritMap]
  · intro k
    rw [inheritedGroup_accepts,inheritedGroup_accepts]
    by_cases hn : n=noNumber
    · rw [if_pos hn,if_pos hn]
    · rw [if_neg hn,if_neg hn,lookup_inheritMap,lookup_inheritMap]

lemma finalGroup_sameButStorage :
    SameButStorage (finalGroup env st n) (finalGroup env' st n) := by
  obtain ⟨passwords,accepts,heq,hp,ha⟩ := inheritedGroup_sameButStorage env env' st n
  refine ⟨passwords,accepts,?_,hp,ha⟩
  rw [finalGroup,heq]
  rfl

end

lemma firstKey_congr {m m' : GoMap Str Str} (h : ∀ k, m.lookup k=m'.lookup k)
    (keys : List Str) : firstKey m keys=firstKey m' keys := by
  simp only [firstKey,h]

section
variable {rg rg' : RawGroup} (h : SameButStorage rg rg')
include h

lemma SameButStorage.entryOf_eq (n : ℤ) (m : Str × RawEntry) :
    entryOf n rg' m=entryOf n rg m := by
  obtain ⟨passwords,accepts,rfl,hp,ha⟩ := h
  simp only [entryOf,lookupAccept,lookupPassword,firstKey_congr hp,firstKey_congr ha]

lemma SameButStorage.mappings_eq (o : MapOrder) :
    mappings o rg'=mappings o rg := by
  obtain ⟨passwords,accepts,rfl,-⟩ := h
  rfl

lemma SameButStorage.same_active : rg'.active=rg.active := by
  obtain ⟨passwords,accepts,rfl,-⟩ := h
  rfl

lemma SameButStorage.validateGroup_ok {env : Env} {n : ℤ}
    (hok : ∃ q, validateGroup env (n,rg)=.ok q) (order : RangeSite → MapOrder) :
    ∃ q, validateGroup ⟨env.stat,order⟩ (n,rg')=.ok q := by
  obtain ⟨passwords,accepts,rfl,-⟩ := h
  obtain ⟨q,hq⟩ := hok
  rw [validateGroup] at hq ⊢
  by_cases hskip : n=noNumber ∧ rg.entries.entries.isEmpty
  · rw [if_pos hskip]
    exact ⟨_,rfl⟩
  · rw [if_neg hskip] at hq ⊢
    obtain ⟨hexists,hq⟩ := guard_eq_ok.mp hq
    obtain ⟨hfresh,hq⟩ := guard_eq_ok.mp hq
    obtain ⟨hentries,hq⟩ := guard_eq_ok.mp hq
    obtain ⟨hfile,-⟩ := guard_eq_ok.mp hq
    rw [if_neg hexists,if_neg hfresh,if_neg hentries,if_neg hfile]
    exact ⟨_,rfl⟩

end

lemma coexistenceError_inherit (env env' : Env) (st : ParseState) :
    coexistenceError (inherit env' st)=coexistenceError (inherit env st) := by
  have hactive : ∀ n, (inheritedGroup env' st n).active=(inheritedGroup env st n).active :=
    fun n => (inheritedGroup_sameButStorage env env' st n).same_active
  simp only [inherit_eq_map,coexistenceError,any_map,Function.comp_def,hactive]

variable {env : Env}

lemma validated_inherit (h : ∃ groups, (inherit env st).mapM (validateGroup env)=.ok groups)
    (order : RangeSite → MapOrder) : ∃ groups,
      (inherit ⟨env.stat,order⟩ st).mapM (validateGroup ⟨env.stat,order⟩)=.ok groups := by
  obtain ⟨groups,h⟩ := h
  rw [inherit_eq_map] at h ⊢
  refine exists_mapM_ok fun q hq => ?_
  obtain ⟨n,hn,rfl⟩ := mem_map.mp hq
  refine (inheritedGroup_sameButStorage env _ st n).validateGroup_ok ?_ order
  obtain ⟨q,-,hq⟩ := ok_of_mapM_ok h (mem_map.mpr ⟨n,hn,rfl⟩)
  exact ⟨q,hq⟩

variable {rg : RawGroup}

lemma addEntry_of_free {st : BuildState} {m : Str × RawEntry}
    (he : (entryOf n rg m).isSome) (hfree : st.usedPorts.lookup (mappingUsed m)=none) :
    ∃ st', addEntry n rg st m=.ok st' := by
  cases hp : parsePortMapping m.2.mapping with
  | error e => simp [entryOf,hp] at he
  | ok r =>
    obtain ⟨listenPort,addr,targetPort⟩ := r
    have hport : mappingUsed m=usedKey m.2.direction listenPort := by
      rw [mappingUsed,RawEntry.listenPort,hp]
    cases ha : lookupAccept n rg m.2.direction m.1 with
    | error e => simp [entryOf,hp,ha] at he
    | ok accept =>
      rw [hport] at hfree
      simp [addEntry,hp,hfree,ha]

lemma foldlM_addEntry_ok {l : List (Str × RawEntry)}
    (he : ∀ m ∈ l, (entryOf n rg m).isSome) (hd : (l.map mappingUsed).Nodup) {st : BuildState}
    (hfree : ∀ m ∈ l, st.usedPorts.lookup (mappingUsed m)=none) :
    ∃ st', l.foldlM (addEntry n rg) st=.ok st' := by
  induction l generalizing st with
  | nil => exact ⟨st,rfl⟩
  | cons m l ih =>
    obtain ⟨hm,hd⟩ := nodup_cons.mp hd
    obtain ⟨st1,hst1⟩ := addEntry_of_free (he m mem_cons_self) (hfree m mem_cons_self)
    obtain ⟨-,-,-,hused,-⟩ := addEntry_ok hst1
    have hrest : ∀ m' ∈ l, st1.usedPorts.lookup (mappingUsed m')=none := by
      intro m' hm'
      have hne : mappingUsed m'≠mappingUsed m := fun heq => hm (heq ▸ mem_map_of_mem hm')
      rw [hused,AList.lookup_insert_ne hne]
      exact hfree m' (mem_cons_of_mem _ hm')
    obtain ⟨st',hst'⟩ := ih (fun m' hm' => he m' (mem_cons_of_mem _ hm')) hd hrest
    exact ⟨st',foldlM_cons_ok.mpr ⟨st1,hst1,hst'⟩⟩

lemma mappings_perm (o o' : MapOrder) (rg : RawGroup) : (mappings o rg).Perm (mappings o' rg) := by
  refine List.Perm.flatMap_right _ (List.Perm.map _ ?_)
  exact (o.perm _).trans (o'.perm _).symm

variable {env' : Env}

lemma buildGroup_of_order (h : ∃ q, buildGroup env (n,finalGroup env st n)=.ok q) :
    ∃ q, buildGroup env' (n,finalGroup env' st n)=.ok q := by
  obtain ⟨q,hq⟩ := h
  obtain ⟨-,hb⟩ := buildGroup_ok hq
  have hsame := finalGroup_sameButStorage env env' st n
  have hperm := mappings_perm (env'.order (.entries n)) (env.order (.entries n)) (finalGroup env st n)
  obtain ⟨bs,hbs⟩ : ∃ bs, (mappings (env'.order (.entries n)) (finalGroup env' st n)).foldlM
      (addEntry n (finalGroup env' st n)) {} = .ok bs := by
    rw [hsame.mappings_eq]
    refine foldlM_addEntry_ok (fun m hm => ?_) ?_ fun _ _ => rfl
    · rw [hsame.entryOf_eq]
      exact hb.entries m (hperm.mem_iff.mp hm)
    · exact (hperm.map mappingUsed).nodup_iff.mpr hb.distinct
  rw [buildGroup,hbs]
  exact ⟨_,rfl⟩

variable {built : List (ℤ × TunnelGroup)}

lemma parseNumbered_of_order (hst : flagLoop {} args=.ok st)
    (h : parseNumbered env args=.ok built) (order : RangeSite → MapOrder) :
    ∃ built', parseNumbered ⟨env.stat,order⟩ args=.ok built' ∧
      (finalGroups ⟨env.stat,order⟩ st).mapM (buildGroup ⟨env.stat,order⟩)=.ok built' := by
  obtain ⟨st',hst',hraw,hco,hval,hbuilt,hne⟩ := parseNumbered_ok_iff.mp h
  cases hst.symm.trans hst'
  obtain ⟨built',hbuilt'⟩ : ∃ built', (finalGroups ⟨env.stat,order⟩ st).mapM
      (buildGroup ⟨env.stat,order⟩)=.ok built' := by
    refine exists_mapM_ok fun q hq => ?_
    obtain ⟨n,hn,rfl⟩ := mem_map.mp hq
    obtain ⟨q,-,hq⟩ := ok_of_mapM_ok hbuilt (mem_map.mpr ⟨n,hn,rfl⟩)
    exact buildGroup_of_order ⟨q,hq⟩
  have hlen : built'.length=built.length := by
    have hfst := (map_fst_built hbuilt').trans (map_fst_built hbuilt).symm
    simpa using congrArg List.length hfst
  refine ⟨built',parseNumbered_ok_iff.mpr ⟨st,hst,hraw,?_,validated_inherit hval order,hbuilt',?_⟩, hbuilt'⟩
  · rwa [coexistenceError_inherit env _ st]
  · rw [isEmpty_iff_length_eq_zero] at hne ⊢
    omega

section
variable {env env' : Env} {g g' : TunnelGroup}

lemma GroupBuilt.same (hb : GroupBuilt env n (finalGroup env st n) g)
    (hb' : GroupBuilt env' n (finalGroup env' st n) g')
    (hk : ((mappings (env.order (.entries n)) (finalGroup env st n)).map mappingKey).Nodup) :
    SameGroup g g' := by
  have hsame := finalGroup_sameButStorage env env' st n
  have hports : ∀ k, g.ports.lookup k=g'.ports.lookup k := by
    intro k
    have hval : entryOf n (finalGroup env' st n)=entryOf n (finalGroup env st n) :=
      funext (hsame.entryOf_eq n)
    rw [hb.ports,hb'.ports,hsame.mappings_eq,hval]
    exact lookup_fill_perm (mappings_perm _ _ _) hk k
  obtain ⟨passwords,accepts,heq,-⟩ := hsame
  refine ⟨?_,?_,?_,hports,?_⟩
  · rw [hb.authKey,hb'.authKey,heq]
  · rw [hb.stateFile,hb'.stateFile,heq]
  · rw [hb.hostname,hb'.hostname,heq]
  · rw [Bool.eq_iff_iff,hb.dropICMP,hb'.dropICMP,dropICMP_iff,dropICMP_iff]
    simp only [hports]

lemma exists_order_keeping {o : MapOrder} {m : Str × RawEntry}
    {val : Str × RawEntry → Option PortEntry} {pe : PortEntry} (hm : m ∈ mappings o rg)
    (hd : ((mappings o rg).map mappingUsed).Nodup) (hv : val m=some pe) :
    ∃ o' : MapOrder, (fill mappingKey val (mappings o' rg) ∅).lookup (mappingKey m)=some pe := by
  obtain ⟨⟨key,entries⟩,hmem,hmk⟩ := mem_flatMap.mp hm
  obtain ⟨⟨key',entries'⟩,he,heq⟩ := mem_map.mp hmem
  obtain ⟨rfl,rfl⟩ := Prod.mk.inj heq
  obtain ⟨o',before,ho'⟩ := MapOrder.exists_visited_last ((o.perm _).mem_iff.mp he)
  refine ⟨o',?_⟩
  have hmappings : mappings o' rg = (before.flatMap fun e => e.2.map fun entry => (e.1.tail,entry)) ++
      entries'.map fun entry => (key'.tail,entry) := by
    rw [mappings,range,ho',flatMap_map,flatMap_append,flatMap_singleton]
  rw [hmappings]
  refine lookup_fill_append_unique hmk hv (fun m' hm' hkey w hw => ?_) ∅
  -- within one slice the identifier is the same, so the key tells the ports apart
  have hused : mappingUsed m'=mappingUsed m := by
    obtain ⟨entry,-,rfl⟩ := mem_map.mp hmk
    obtain ⟨entry',-,rfl⟩ := mem_map.mp hm'
    obtain ⟨hdir,htext⟩ := mappingKey_eq_iff.mp hkey
    have hport : itoa entry'.listenPort=itoa entry.listenPort := append_cancel_left htext
    rw [mappingUsed,mappingUsed,usedKey,usedKey,hdir,hport]
  have hmem' : m' ∈ mappings o rg := mem_flatMap.mpr ⟨_,hmem,hm'⟩
  rw [inj_on_of_nodup_map hd hmem' hm hused,hv] at hw
  exact (Option.some.inj hw).symm

end

lemma forall₂_pairs {α β : Type} {R : β → β → Prop} {l l' : List (α × β)}
    (hfst : l.map Prod.fst=l'.map Prod.fst) (h : List.Forall₂ R (l.map Prod.snd) (l'.map Prod.snd)) :
    ∀ q ∈ l, ∃ b, (q.1,b) ∈ l' ∧ R q.2 b := by
  induction l generalizing l' with
  | nil =>
    intro q hq
    cases hq
  | cons p l ih =>
    cases l' with
    | nil => cases h
    | cons p' l' =>
      obtain ⟨hp,hl⟩ := List.cons.inj hfst
      obtain ⟨hR,hrest⟩ := forall₂_cons.mp h
      intro q hq
      cases hq with
      | head => exact ⟨p'.2,by rw [hp]; exact mem_cons_self,hR⟩
      | tail _ hq =>
        obtain ⟨b,hb,hRb⟩ := ih hl hrest q hq
        exact ⟨b,mem_cons_of_mem _ hb,hRb⟩

variable {built' : List (ℤ × TunnelGroup)}

lemma forall₂_built
    (hb : (finalGroups env st).mapM (buildGroup env)=.ok built)
    (hb' : (finalGroups env' st).mapM (buildGroup env')=.ok built')
    (hsame : ∀ n ∈ st.nums.filter st.hasMappings, ∀ g g',
      GroupBuilt env n (finalGroup env st n) g → GroupBuilt env' n (finalGroup env' st n) g' →
      SameGroup g g') : List.Forall₂ SameGroup (built.map Prod.snd) (built'.map Prod.snd) := by
  have hf := forall₂_map_left_iff.mp (mapM_ok hb)
  have hf' := forall₂_map_left_iff.mp (mapM_ok hb')
  clear hb hb'
  generalize st.nums.filter st.hasMappings=nums at hf hf' hsame
  induction hf generalizing built' with
  | nil =>
    cases hf'
    exact .nil
  | cons hq _ ih =>
    cases hf' with
    | cons hq' hrest =>
      refine .cons ?_ (ih hrest fun n hn => hsame n (mem_cons_of_mem _ hn))
      exact hsame _ mem_cons_self _ _ (buildGroup_ok hq).2 (buildGroup_ok hq').2

lemma accepted_of_flagLoop (hst : flagLoop {} args=.ok st) (h : parseNumbered env args=.ok built) :
    Accepted env args built st ∧ (finalGroups env st).mapM (buildGroup env)=.ok built := by
  obtain ⟨st',hst',-,-,-,hbuilt,-⟩ := parseNumbered_ok_iff.mp h
  cases hst.symm.trans hst'
  exact ⟨(recorded_of_flagLoop hst).accepted hbuilt,hbuilt⟩

section
variable {env : Env} {built : List (ℤ × TunnelGroup)} (hst : flagLoop {} args=.ok st)
  (h : parseNumbered env args=.ok built)
include hst h

/-- Every mapping of a built group is the one that stays under its key in some order of the
ranges. -/
theorem exists_env_keeping {n : ℤ} {g : TunnelGroup} (hg : (n,g) ∈ built)
    {m : Str × RawEntry} (hm : m ∈ mappings (env.order (.entries n)) (finalGroup env st n)) :
    ∃ order built' pe, parseNumbered ⟨env.stat,order⟩ args=.ok built' ∧
      built.map Prod.fst=built'.map Prod.fst ∧ entryOf n (finalGroup env st n) m=some pe ∧
        ∀ g', (n,g') ∈ built' → g'.ports.lookup (mappingKey m)=some pe := by
  obtain ⟨ha,hbuilt⟩ := accepted_of_flagLoop hst h
  have hb := ha.groupBuilt hg
  obtain ⟨pe,hpe⟩ := Option.isSome_iff_exists.mp (hb.entries m hm)
  obtain ⟨o,ho⟩ := exists_order_keeping hm hb.distinct hpe
  let env' : Env := ⟨env.stat,Function.update env.order (.entries n) o⟩
  obtain ⟨built',h',hbuilt'⟩ := parseNumbered_of_order hst h env'.order
  refine ⟨env'.order,built',pe,h',?_,hpe,fun g' hg' => ?_⟩
  · exact (map_fst_built hbuilt).trans (map_fst_built hbuilt').symm
  · have hsame := finalGroup_sameButStorage env env' st n
    have horder : env'.order (.entries n)=o := Function.update_self ..
    rw [((accepted_of_flagLoop hst h').1.groupBuilt hg').ports,horder,hsame.mappings_eq, funext (hsame.entryOf_eq n)]
    exact ho

lemma unambiguous_of_order_free
    (hfree : ∀ order built', parseNumbered ⟨env.stat,order⟩ args=.ok built' →
      List.Forall₂ SameGroup (built.map Prod.snd) (built'.map Prod.snd)) : Unambiguous (flagsOf args) := by
  obtain ⟨ha,-⟩ := accepted_of_flagLoop hst h
  refine (unambiguous_iff ha).mpr fun n g hg => ?_
  have hperm := ha.recorded.mappings_perm env (env.order (.entries n)) n
  have hlookup : ∀ m ∈ mappings (env.order (.entries n)) (finalGroup env st n),
      g.ports.lookup (mappingKey m)=entryOf n (finalGroup env st n) m := by
    intro m hm
    obtain ⟨order,built',pe,h',hfst,hpe,hkeep⟩ := exists_env_keeping hst h hg hm
    obtain ⟨g',hg',hsame⟩ := forall₂_pairs hfst (hfree order built' h') (n,g) hg
    exact (hsame.ports _).trans ((hkeep g' hg').trans hpe.symm)
  refine (nodup_map_iff_inj_on (groupMappings_nodup ha hg)).mpr fun m hm m' hm' hkey => ?_
  have hm := hperm.mem_iff.mpr hm
  have hm' := hperm.mem_iff.mpr hm'
  have hb := ha.groupBuilt hg
  obtain ⟨pe,hpe⟩ := Option.isSome_iff_exists.mp (hb.entries m hm)
  have hpe' : entryOf n (finalGroup env st n) m'=some pe := by
    rw [← hlookup m' hm',← hkey,hlookup m hm,hpe]
  obtain ⟨-,-,hport,-⟩ := entryOf_eq_some hpe
  obtain ⟨-,-,hport',-⟩ := entryOf_eq_some hpe'
  exact hb.mapping_unique hm hm' (mappingKey_eq_iff.mp hkey).1 (hport.trans hport'.symm)

lemma order_free_of_unambiguous (hu : Unambiguous (flagsOf args))
    (h' : parseNumbered env' args=.ok built') :
    List.Forall₂ SameGroup (built.map Prod.snd) (built'.map Prod.snd) := by
  obtain ⟨ha,hbuilt⟩ := accepted_of_flagLoop hst h
  obtain ⟨-,hbuilt'⟩ := accepted_of_flagLoop hst h'
  refine forall₂_built hbuilt hbuilt' fun n hn g g' hb hb' => hb.same hb' ?_
  rw [← map_fst_built hbuilt] at hn
  obtain ⟨q,hq,rfl⟩ := mem_map.mp hn
  have hperm := ha.recorded.mappings_perm env (env.order (.entries q.1)) q.1
  exact (hperm.map mappingKey).nodup_iff.mpr ((unambiguous_iff ha).mp hu q.1 q.2 hq)

end

inductive SameResult : Except Str (List TunnelGroup) → Except Str (List TunnelGroup) → Prop
  | failed (e e' : Str) : SameResult (.error e) (.error e')
  | built {groups groups' : List TunnelGroup} (h : List.Forall₂ SameGroup groups groups') :
      SameResult (.ok groups) (.ok groups')

/-- Any two executions on the same files agree exactly when the flags of an accepted argument
list are unambiguous. -/
theorem sameResult_iff (stat : Str → Bool) (args : List Str) :
    (∀ order order', SameResult (parseTunnelArgs ⟨stat,order⟩ args) (parseTunnelArgs ⟨stat,order'⟩ args)) ↔
    ((∃ order groups, parseTunnelArgs ⟨stat,order⟩ args=.ok groups) → Unambiguous (flagsOf args)) := by
  constructor
  · rintro hsame ⟨order,groups,h⟩
    obtain ⟨built,hb,rfl⟩ := map_eq_ok.mp h
    obtain ⟨st,hst,-⟩ := parseNumbered_ok_iff.mp hb
    refine unambiguous_of_order_free hst hb fun order' built' hb' => ?_
    have hboth := hsame order order'
    rw [parseTunnelArgs,parseTunnelArgs,hb,hb'] at hboth
    cases hboth with
    | built h => exact h
  · intro hu order order'
    cases hb : parseNumbered ⟨stat,order⟩ args with
    | ok built =>
      obtain ⟨st,hst,-⟩ := parseNumbered_ok_iff.mp hb
      obtain ⟨built',hb',-⟩ := parseNumbered_of_order hst hb order'
      have hok : parseTunnelArgs ⟨stat,order⟩ args=.ok (built.map Prod.snd) := by
        rw [parseTunnelArgs,hb]
        rfl
      rw [hok,parseTunnelArgs,hb']
      exact .built (order_free_of_unambiguous hst hb (hu ⟨order,_,hok⟩) hb')
    | error e =>
      cases hb' : parseNumbered ⟨stat,order'⟩ args with
      | ok built' =>
        obtain ⟨st,hst,-⟩ := parseNumbered_ok_iff.mp hb'
        obtain ⟨built,hb'',-⟩ := parseNumbered_of_order hst hb' order
        cases hb.symm.trans hb''
      | error e' =>
        rw [parseTunnelArgs,parseTunnelArgs,hb,hb']
        exact .failed e e'

theorem sameResult_two :
    ∀ order order', SameResult
      (parseTunnelArgs ⟨fun _ => false,order⟩ (twoPorts "-Sa" "80" "-Sb" "81"))
      (parseTunnelArgs ⟨fun _ => false,order'⟩ (twoPorts "-Sa" "80" "-Sb" "81")) :=
  (sameResult_iff _ _).mpr fun _ => by decide +kernel

/-- The port that a group listens on under one key of its ports map. -/
def listenPortAt (key : Str) (g : TunnelGroup) : Option ℤ :=
  (g.ports.lookup key).map PortEntry.listenPort

/-- Port 80 with identifier a1 and port 180 with identifier a are stored under Sa180, and the
order of the range decides which of them is served. -/
theorem served_port_by_order :
    ¬SameResult
      (parseTunnelArgs ⟨fun _ => false,fun _ => .asStored⟩ (twoPorts "-Sa1" "80" "-Sa" "180"))
      (parseTunnelArgs ⟨fun _ => false,fun _ => .startingAt 1⟩ (twoPorts "-Sa1" "80" "-Sa" "180")) := by
  have h1 : (parseTunnelArgs ⟨fun _ => false,fun _ => .asStored⟩
      (twoPorts "-Sa1" "80" "-Sa" "180")).map (List.map (listenPortAt "Sa180")) =
      .ok [some 80] := by decide +kernel
  have h2 : (parseTunnelArgs ⟨fun _ => false,fun _ => .startingAt 1⟩
      (twoPorts "-Sa1" "80" "-Sa" "180")).map (List.map (listenPortAt "Sa180")) =
      .ok [some 180] := by decide +kernel
  obtain ⟨groups1,hg1,hp1⟩ := map_eq_ok.mp h1
  obtain ⟨groups2,hg2,hp2⟩ := map_eq_ok.mp h2
  rw [hg1,hg2]
  intro h
  cases h with
  | built h =>
    have hports : groups1.map (listenPortAt "Sa180")=groups2.map (listenPortAt "Sa180") := by
      clear hg1 hg2 hp1 hp2
      induction h with
      | nil => rfl
      | cons hg _ ih => rw [map_cons,map_cons,ih,listenPortAt,listenPortAt,hg.ports]
    rw [hp1,hp2] at hports
    revert hports
    decide

end TunnnejiTail.Cli
