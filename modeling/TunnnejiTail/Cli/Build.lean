import TunnnejiTail.Cli.Inheritance

/-! The build loop: each mapping of a group becomes one entry, no two mappings of a group
share direction and listen port, and the ports map is filled from the mappings in the order
of the range over the raw entries. -/
namespace TunnnejiTail.Cli
open Go Netip
open List hiding range mem_range

variable {n : ℤ} {rg : RawGroup} {env : Env} {g : TunnelGroup}

def Flag.mapping (f : Flag) : Option (Str × RawEntry) :=
  match f.name with
  | .S => some (f.sub,⟨.server,f.value⟩)
  | .C => some (f.sub,⟨.client,f.value⟩)
  | _ => none

lemma letter_append_tail (d : Direction) (s : Str) : (d.letter++s).tail=s := by
  cases d <;> rfl

lemma letter_append_inj {d d' : Direction} {s s' : Str} (h : d.letter++s=d'.letter++s') : d=d' ∧ s=s' := by
  cases d <;> cases d' <;> simp_all [Direction.letter]

lemma mappings_recorded (o : MapOrder) (flags : List Flag) :
    (mappings o (recorded flags)).Perm (flags.filterMap Flag.mapping) := by
  have hrange : ∀ rg : RawGroup, (mappings o rg).Perm
      (rg.entries.entries.flatMap fun e => e.2.map fun entry => (e.1.tail,entry)) := by
    intro rg
    rw [mappings,range,flatMap_map]
    exact (o.perm _).flatMap_right _
  refine (hrange _).trans ?_
  induction flags using List.reverseRecOn with
  | nil => rfl
  | append_singleton flags f ih =>
    have hadd : ∀ d, ((recorded flags).addMapping d f.sub f.value).entries.entries.flatMap
        (fun e => e.2.map fun entry => (e.1.tail,entry)) |>.Perm
        (flags.filterMap Flag.mapping++[(f.sub,⟨d,f.value⟩)]) := by
      intro d
      have h := flatMap_insert_append (fun (k : Str) (entry : RawEntry) => (k.tail,entry))
        (recorded flags).entries (d.letter++f.sub) ⟨d,f.value⟩
      rw [letter_append_tail] at h
      exact h.trans (ih.append_right _)
    rw [recorded_append,filterMap_append]
    cases hname : f.name <;> simp only [recordFlag,hname,Flag.mapping,filterMap_cons, filterMap_nil,append_nil]
    case S => exact hadd .server
    case C => exact hadd .client
    all_goals exact ih

def RawEntry.listenPort (entry : RawEntry) : ℤ :=
  match parsePortMapping entry.mapping with
  | .ok (listenPort,_,_) => listenPort
  | .error _ => 0

def mappingKey (m : Str × RawEntry) : Str := portsKey m.2.direction m.1 m.2.listenPort

def mappingUsed (m : Str × RawEntry) : Str := usedKey m.2.direction m.2.listenPort

/-- The entry the build loop makes of a mapping. -/
def entryOf (n : ℤ) (rg : RawGroup) (m : Str × RawEntry) : Option PortEntry :=
  match parsePortMapping m.2.mapping,lookupAccept n rg m.2.direction m.1 with
  | .ok (listenPort,addr,targetPort),.ok accept => some {
      isServer := m.2.direction=.server
      listenPort := listenPort
      targetAddr := normalizeAddr addr
      targetPort := targetPort
      accept := accept
      password := lookupPassword rg m.2.direction m.1 }
  | _,_ => none

variable {m : Str × RawEntry} {st st' : BuildState}

lemma addEntry_ok (h : addEntry n rg st m=.ok st') :
    ∃ pe, entryOf n rg m=some pe ∧ st.usedPorts.lookup (mappingUsed m)=none ∧
      st'.usedPorts=st.usedPorts.insert (mappingUsed m) (m.2.direction,m.1) ∧
      st'.ports=st.ports.insert (mappingKey m) pe := by
  rw [addEntry] at h
  cases hp : parsePortMapping m.2.mapping with
  | error e =>
    simp only [hp] at h
    cases h
  | ok r =>
    obtain ⟨listenPort,addr,targetPort⟩ := r
    have hport : listenPort=m.2.listenPort := by rw [RawEntry.listenPort,hp]
    subst hport
    simp only [hp] at h
    cases hu : st.usedPorts.lookup (usedKey m.2.direction m.2.listenPort) with
    | some used =>
      simp only [hu] at h
      cases h
    | none =>
      simp only [hu] at h
      cases ha : lookupAccept n rg m.2.direction m.1 with
      | error e =>
        simp only [ha] at h
        cases h
      | ok accept =>
        simp only [ha] at h
        cases h
        refine ⟨_,?_,hu,rfl,rfl⟩
        simp only [entryOf,hp,ha]

/-- The state of the build loop after some mappings of the group. -/
structure BuiltFrom (n : ℤ) (rg : RawGroup) (done : List (Str × RawEntry)) (st : BuildState) :
    Prop where
  ports : st.ports=fill mappingKey (entryOf n rg) done ∅
  entries : ∀ m ∈ done, (entryOf n rg m).isSome
  used : ∀ m ∈ done, (st.usedPorts.lookup (mappingUsed m)).isSome
  distinct : (done.map mappingUsed).Nodup

lemma BuiltFrom.step {done : List (Str × RawEntry)} (hb : BuiltFrom n rg done st)
    (h : addEntry n rg st m=.ok st') : BuiltFrom n rg (done++[m]) st' := by
  obtain ⟨pe,hpe,hfree,hused,hports⟩ := addEntry_ok h
  have hfresh : ∀ m' ∈ done, mappingUsed m'≠mappingUsed m := by
    intro m' hm' heq
    have hsome := hb.used m' hm'
    rw [heq,hfree] at hsome
    cases hsome
  refine ⟨?_,?_,?_,?_⟩
  · rw [hports,fill_append,hb.ports,hpe]
  · refine forall_mem_append.mpr ⟨hb.entries,forall_mem_singleton.mpr ?_⟩
    rw [hpe]
    rfl
  · rw [hused]
    refine forall_mem_append.mpr ⟨fun m' hm' => ?_,forall_mem_singleton.mpr ?_⟩
    · rw [AList.lookup_insert_ne (hfresh m' hm')]
      exact hb.used m' hm'
    · rw [AList.lookup_insert]
      rfl
  · rw [map_append,nodup_append]
    refine ⟨hb.distinct,nodup_singleton _,?_⟩
    intro a ha b hb' hab
    obtain ⟨m',hm',rfl⟩ := mem_map.mp ha
    cases mem_singleton.mp hb'
    exact hfresh m' hm' hab

/-- A built group, given the raw group it is built from. -/
structure GroupBuilt (env : Env) (n : ℤ) (rg : RawGroup) (g : TunnelGroup) : Prop where
  authKey : g.authKey=rg.authKey
  stateFile : g.stateFile=rg.stateFile
  hostname : g.hostname=rg.hostname
  ports : g.ports=fill mappingKey (entryOf n rg) (mappings (env.order (.entries n)) rg) ∅
  entries : ∀ m ∈ mappings (env.order (.entries n)) rg, (entryOf n rg m).isSome
  distinct : ((mappings (env.order (.entries n)) rg).map mappingUsed).Nodup
  dropICMP : g.dropICMP=Cli.dropICMP (env.order (.ports n)) g.ports

lemma buildGroup_ok {q : ℤ × TunnelGroup}
    (h : buildGroup env (n,rg)=.ok q) : q.1=n ∧ GroupBuilt env n rg q.2 := by
  rw [buildGroup] at h
  split at h
  · cases h
  · rename_i st hst
    have hb : BuiltFrom n rg (mappings (env.order (.entries n)) rg) st := by
      refine foldlM_invariant (BuiltFrom n rg) ?_ (fun _ _ _ _ hb hm => hb.step hm) hst
      exact ⟨rfl,by simp,by simp,nodup_nil⟩
    cases h
    exact ⟨rfl,⟨rfl,rfl,rfl,hb.ports,hb.entries,hb.distinct,rfl⟩⟩

lemma recorded_entries_isEmpty (flags : List Flag) :
    (recorded flags).entries.entries.isEmpty ↔ ∀ f ∈ flags, f.mapping=none := by
  induction flags using List.reverseRecOn with
  | nil => simp [recorded]
  | append_singleton flags f ih =>
    rw [recorded_append]
    cases hname : f.name <;>
      simp [recordFlag,hname,RawGroup.addMapping,Flag.mapping,or_imp,forall_and,ih]

variable {st : ParseState}

lemma mem_nums : n ∈ st.nums ↔ n ∈ st.raw := by
  rw [ParseState.nums,mem_insertionSort]
  rfl

lemma nums_nodup (st : ParseState) : st.nums.Nodup :=
  (perm_insertionSort _ st.raw.keys).nodup_iff.mpr st.raw.keys_nodup

variable {flags : List Flag}

lemma Recorded.mem_built_nums (hr : Recorded flags st) (n : ℤ) : n ∈ st.nums.filter st.hasMappings ↔
      ∃ f ∈ flags, f.groupNum=n ∧ f.mapping≠none := by
  have hempty := recorded_entries_isEmpty (groupFlags n flags)
  rw [← hr.group] at hempty
  rw [mem_filter,mem_nums,hr.mem,ParseState.hasMappings,Bool.not_eq_true', ← Bool.not_eq_true,hempty]
  constructor
  · rintro ⟨-,h⟩
    obtain ⟨f,hf,hm⟩ : ∃ f ∈ groupFlags n flags, f.mapping≠none := by simpa using h
    obtain ⟨hf,hn⟩ := mem_filter.mp hf
    exact ⟨f,hf,by simpa using hn,hm⟩
  · rintro ⟨f,hf,hn,hm⟩
    refine ⟨⟨f,hf,hn⟩,fun h => hm (h f ?_)⟩
    exact mem_filter.mpr ⟨hf,by simpa using hn⟩

lemma finalGroup_entries (env : Env) (st : ParseState) (n : ℤ) :
    (finalGroup env st n).entries=(st.getGroup n).entries :=
  inheritedGroup_entries env st n

lemma Recorded.mappings_perm (hr : Recorded flags st) (env : Env) (o : MapOrder) (n : ℤ) :
    (mappings o (finalGroup env st n)).Perm ((groupFlags n flags).filterMap Flag.mapping) := by
  have h : mappings o (finalGroup env st n)=mappings o (recorded (groupFlags n flags)) := by
    rw [mappings,mappings,finalGroup_entries,hr.group]
  rw [h]
  exact mappings_recorded o _

/-- Everything an accepted argument list says about the groups built from it. -/
structure Accepted (env : Env) (args : List Str) (built : List (ℤ × TunnelGroup))
    (st : ParseState) : Prop where
  recorded : Recorded (flagsOf args) st
  numbers : (built.map Prod.fst).Nodup
  exists_group : ∀ f ∈ flagsOf args, f.mapping≠none → ∃ g, (f.groupNum,g) ∈ built
  mem : ∀ n g, (n,g) ∈ built ↔ (∃ f ∈ flagsOf args, f.groupNum=n ∧ f.mapping≠none) ∧
    buildGroup env (n,finalGroup env st n)=.ok (n,g)

variable {built : List (ℤ × TunnelGroup)}

lemma map_fst_built (h : (finalGroups env st).mapM (buildGroup env)=.ok built) :
    built.map Prod.fst=st.nums.filter st.hasMappings := by
  rw [map_eq_of_mapM_ok (p := Prod.fst) (fun _ _ hb => (buildGroup_ok hb).1) h,finalGroups, map_map]
  exact map_id _

variable {args : List Str}

lemma Recorded.accepted (hr : Recorded (flagsOf args) st)
    (hm : (finalGroups env st).mapM (buildGroup env)=.ok built) : Accepted env args built st := by
  refine ⟨hr,?_,?_,?_⟩
  · rw [map_fst_built hm]
    exact (nums_nodup st).filter _
  · intro f hf hne
    have hn := (hr.mem_built_nums f.groupNum).mpr ⟨f,hf,rfl,hne⟩
    obtain ⟨q,hq,hb⟩ := ok_of_mapM_ok hm (mem_map.mpr ⟨f.groupNum,hn,rfl⟩)
    obtain ⟨hn',-⟩ := buildGroup_ok hb
    exact ⟨q.2,by rw [← hn']; exact hq⟩
  · intro n g
    rw [mem_mapM_ok hm,← hr.mem_built_nums]
    constructor
    · rintro ⟨q,hq,hb⟩
      obtain ⟨n',hn',rfl⟩ := mem_map.mp hq
      obtain ⟨rfl,-⟩ := buildGroup_ok hb
      exact ⟨hn',hb⟩
    · rintro ⟨hn,hb⟩
      exact ⟨_,mem_map.mpr ⟨n,hn,rfl⟩,hb⟩

lemma exists_accepted (h : parseNumbered env args=.ok built) : ∃ st, Accepted env args built st := by
  obtain ⟨st,hst,-,-,-,hm,-⟩ := parseNumbered_ok_iff.mp h
  exact ⟨st,(recorded_of_flagLoop hst).accepted hm⟩

lemma Accepted.groupBuilt (ha : Accepted env args built st)
    (h : (n,g) ∈ built) : GroupBuilt env n (finalGroup env st n) g :=
  (buildGroup_ok ((ha.mem n g).mp h).2).2

lemma entryOf_eq_some {pe : PortEntry} (h : entryOf n rg m=some pe) :
    ∃ addr, parsePortMapping m.2.mapping=.ok (pe.listenPort,addr,pe.targetPort) ∧
      m.2.listenPort=pe.listenPort ∧ pe.targetAddr=normalizeAddr addr ∧
      (pe.isServer ↔ m.2.direction=.server) ∧ lookupAccept n rg m.2.direction m.1=.ok pe.accept ∧
      pe.password=lookupPassword rg m.2.direction m.1 := by
  rw [entryOf] at h
  split at h
  · rename_i hp ha
    cases h
    refine ⟨_,hp,?_,rfl,by simp,ha,rfl⟩
    rw [RawEntry.listenPort,hp]
  · cases h

section

variable {k : Str} {pe : PortEntry} (hg : GroupBuilt env n rg g)
include hg

lemma GroupBuilt.exists_mapping (h : g.ports.lookup k=some pe) :
    ∃ m ∈ mappings (env.order (.entries n)) rg, mappingKey m=k ∧ entryOf n rg m=some pe := by
  rw [hg.ports] at h
  exact exists_of_lookup_fill h

lemma GroupBuilt.target_cases (h : g.ports.lookup k=some pe) :
    (∃ ip, pe.targetAddr=formatIP ip) ∨ parseIP (trimBrackets pe.targetAddr)=none := by
  obtain ⟨m,-,-,hpe⟩ := hg.exists_mapping h
  obtain ⟨addr,-,-,htarget,-⟩ := entryOf_eq_some hpe
  rw [htarget]
  exact normalizeAddr_cases addr

lemma GroupBuilt.mapping_unique {m m' : Str × RawEntry}
    (hm : m ∈ mappings (env.order (.entries n)) rg)
    (hm' : m' ∈ mappings (env.order (.entries n)) rg) (hd : m.2.direction=m'.2.direction)
    (hp : m.2.listenPort=m'.2.listenPort) : m=m' := by
  refine inj_on_of_nodup_map hg.distinct hm hm' ?_
  rw [mappingUsed,mappingUsed,hd,hp]

lemma GroupBuilt.entryOf_mapping
    (h : g.ports.lookup k=some pe) {m : Str × RawEntry} (hm : m ∈ mappings (env.order (.entries n)) rg)
    (hd : pe.isServer ↔ m.2.direction=.server) (hp : m.2.listenPort=pe.listenPort) :
    entryOf n rg m=some pe := by
  obtain ⟨m',hm',-,he⟩ := hg.exists_mapping h
  obtain ⟨addr,-,hp',-,hd',-⟩ := entryOf_eq_some he
  have hdir : m'.2.direction=m.2.direction := by
    cases h1 : m'.2.direction <;> cases h2 : m.2.direction <;> simp_all
  rw [← hg.mapping_unique hm' hm hdir (hp'.trans hp.symm)]
  exact he

end

lemma Accepted.entryOf_flag (ha : Accepted env args built st)
    (hg : (n,g) ∈ built) {k : Str} {pe : PortEntry} (hk : g.ports.lookup k=some pe) {f : Flag}
    (hf : f ∈ flagsOf args) (hn : f.groupNum=n) {d : Direction} {mapping : Str}
    (hm : f.mapping=some (f.sub,⟨d,mapping⟩)) (hd : pe.isServer ↔ d=.server)
    (hp : RawEntry.listenPort ⟨d,mapping⟩=pe.listenPort) :
    entryOf n (finalGroup env st n) (f.sub,⟨d,mapping⟩)=some pe := by
  refine (ha.groupBuilt hg).entryOf_mapping hk ?_ hd hp
  rw [(ha.recorded.mappings_perm env _ n).mem_iff]
  exact mem_filterMap.mpr ⟨f,mem_filter.mpr ⟨hf,by simpa using hn⟩,hm⟩

def observe {β : Type} (f : TunnelGroup → β) (env : Env) (args : List Str) :
    Except Str (List (ℤ × β)) :=
  (parseNumbered env args).map (List.map fun q => (q.1,f q.2))

lemma exists_group_of_observe {β : Type} {f : TunnelGroup → β}
    {b : β} {l : List (ℤ × β)} (h : observe f env args=.ok l) (hl : (n,b) ∈ l) :
    ∃ built g, parseNumbered env args=.ok built ∧ (n,g) ∈ built ∧ f g=b := by
  obtain ⟨built,hb,hmap⟩ := map_eq_ok.mp h
  rw [← hmap] at hl
  obtain ⟨⟨n',g⟩,hq,heq⟩ := mem_map.mp hl
  obtain ⟨rfl,hk⟩ := Prod.mk.inj heq
  exact ⟨built,g,hb,hq,hk⟩

end TunnnejiTail.Cli
