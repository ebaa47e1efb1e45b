import Mathlib.Algebra.Order.BigOperators.Group.List
import TunnnejiTail.Cli.Lookup

/-! The entries of the built groups against the -S and -C flags. The ports map is keyed by
direction, identifier and port written one after the other, so the flags and the entries are
in bijection exactly when no two mappings of a group and direction read the same. -/
namespace TunnnejiTail.Cli
open Go List Option

/-- What a mapping promises: who forwards which port where. -/
structure Binding where
  group : ℤ
  direction : Direction
  listenPort : ℤ
  targetAddr : Str
  targetPort : ℤ
  deriving DecidableEq

def mappingBinding (n : ℤ) (m : Str × RawEntry) : Option Binding :=
  match parsePortMapping m.2.mapping with
  | .ok (listenPort,addr,targetPort) =>
    some ⟨n,m.2.direction,listenPort,normalizeAddr addr,targetPort⟩
  | .error _ => none

def flagBindings (flags : List Flag) : List Binding :=
  flags.filterMap fun f => f.mapping.bind (mappingBinding f.groupNum)

def PortEntry.direction (pe : PortEntry) : Direction := if pe.isServer then .server else .client

def PortEntry.binding (n : ℤ) (pe : PortEntry) : Binding :=
  ⟨n,pe.direction,pe.listenPort,pe.targetAddr,pe.targetPort⟩

def builtBindings (built : List (ℤ × TunnelGroup)) : List Binding :=
  built.flatMap fun q => (q.2.ports.entries.map Sigma.snd).map (PortEntry.binding q.1)

/-- Two mappings of one group and direction do not read the same once identifier and listen
port are written one after the other. -/
def Distinguishable (f f' : Flag) : Prop :=
  f.groupNum=f'.groupNum → ∀ m ∈ f.mapping, ∀ m' ∈ f'.mapping,
    m.2.direction=m'.2.direction →
    m.1++itoa m.2.listenPort=m'.1++itoa m'.2.listenPort → m=m'

instance (f f' : Flag) : Decidable (Distinguishable f f') :=
  inferInstanceAs (Decidable (_ → ∀ m ∈ f.mapping, ∀ m' ∈ f'.mapping, _))

def Unambiguous (flags : List Flag) : Prop := ∀ f ∈ flags, ∀ f' ∈ flags, Distinguishable f f'

instance (flags : List Flag) : Decidable (Unambiguous flags) :=
  inferInstanceAs (Decidable (∀ f ∈ flags, ∀ f' ∈ flags, _))

lemma mappingKey_eq_iff {m m' : Str × RawEntry} : mappingKey m=mappingKey m' ↔
    m.2.direction=m'.2.direction ∧ m.1++itoa m.2.listenPort=m'.1++itoa m'.2.listenPort := by
  rw [mappingKey,mappingKey,portsKey,portsKey,append_assoc,append_assoc]
  constructor
  · exact letter_append_inj
  · rintro ⟨hd,hs⟩
    rw [hd,hs]

lemma mappingBinding_eq {n : ℤ} {rg : RawGroup} {m : Str × RawEntry} {pe : PortEntry}
    (h : entryOf n rg m=some pe) : mappingBinding n m=some (pe.binding n) := by
  obtain ⟨addr,hp,-,haddr,hd,-,-⟩ := entryOf_eq_some h
  have hdir : pe.direction=m.2.direction := by
    rw [PortEntry.direction]
    cases hm : m.2.direction <;> simp_all
  rw [mappingBinding,hp,PortEntry.binding,hdir,haddr]

lemma filterMap_perm_flatMap {β : Type} (h : Flag → Option β) (flags : List Flag) {nums : List ℤ}
    (hnums : nums.Nodup) (hall : ∀ f ∈ flags, h f≠none → f.groupNum ∈ nums) :
    (flags.filterMap h).Perm (nums.flatMap fun n => (groupFlags n flags).filterMap h) := by
  induction nums generalizing flags with
  | nil =>
    rw [flatMap_nil,filterMap_eq_nil_iff.mpr]
    intro f hf
    by_contra hne
    cases hall f hf hne
  | cons n nums ih =>
    obtain ⟨hn,hnums⟩ := nodup_cons.mp hnums
    have hrest : ∀ m ∈ nums, groupFlags m flags = groupFlags m (flags.filter fun f => !decide (f.groupNum=n)) := by
      intro m hm
      rw [groupFlags,groupFlags,List.filter_filter]
      refine filter_congr fun f _ => ?_
      by_cases hf : f.groupNum=m
      · have hne : m≠n := fun he => hn (he ▸ hm)
        simp [hf,hne]
      · simp [hf]
    have hsplit := (filter_append_perm (fun f : Flag => decide (f.groupNum=n)) flags).symm
    refine (hsplit.filterMap h).trans ?_
    rw [filterMap_append,flatMap_cons]
    refine Perm.append_left _ ?_
    have hih := ih (flags.filter fun f => !decide (f.groupNum=n)) hnums ?_
    · refine hih.trans (Perm.of_eq ?_)
      exact flatMap_congr fun m hm => by rw [hrest m hm]
    · intro f hf hne
      obtain ⟨hf,hfn⟩ := mem_filter.mp hf
      have hmem := hall f hf hne
      simpa [show f.groupNum≠n by simpa using hfn] using hmem

section
variable {env : Env} {args : List Str} {built : List (ℤ × TunnelGroup)} {st : ParseState}

def groupMappings (n : ℤ) (flags : List Flag) : List (Str × RawEntry) :=
  (groupFlags n flags).filterMap Flag.mapping

variable {n : ℤ} {m : Str × RawEntry}

lemma mem_groupMappings {flags : List Flag} :
    m ∈ groupMappings n flags ↔ ∃ f ∈ flags, f.groupNum=n ∧ f.mapping=some m := by
  simp [groupMappings,groupFlags,and_assoc]

lemma mapping_eq_some {f : Flag} (h : f.mapping=some m) :
    m.1=f.sub ∧ f.name=match m.2.direction with
      | .server => .S
      | .client => .C := by
  rw [Flag.mapping] at h
  split at h
  · cases h
    exact ⟨rfl,by assumption⟩
  · cases h
    exact ⟨rfl,by assumption⟩
  · cases h

variable {g : TunnelGroup}

lemma groupMappings_nodup (ha : Accepted env args built st)
    (hg : (n,g) ∈ built) : (groupMappings n (flagsOf args)).Nodup := by
  have hperm := ha.recorded.mappings_perm env (env.order (.entries n)) n
  exact hperm.nodup_iff.mp (Nodup.of_map _ (ha.groupBuilt hg).distinct)

lemma unambiguous_iff (ha : Accepted env args built st) : Unambiguous (flagsOf args) ↔
      ∀ n g, (n,g) ∈ built → ((groupMappings n (flagsOf args)).map mappingKey).Nodup := by
  constructor
  · intro h n g hg
    refine (nodup_map_iff_inj_on (groupMappings_nodup ha hg)).mpr ?_
    intro m hm m' hm' hkey
    obtain ⟨f,hf,hn,hfm⟩ := mem_groupMappings.mp hm
    obtain ⟨f',hf',hn',hfm'⟩ := mem_groupMappings.mp hm'
    obtain ⟨hd,hs⟩ := mappingKey_eq_iff.mp hkey
    exact h f hf f' hf' (hn.trans hn'.symm) m hfm m' hfm' hd hs
  · intro h f hf f' hf' hn m hfm m' hfm' hd hs
    obtain ⟨g,hg⟩ := ha.exists_group f hf (ne_none_iff_exists'.mpr ⟨m,hfm⟩)
    refine (nodup_map_iff_inj_on (groupMappings_nodup ha hg)).mp (h _ g hg) m ?_ m' ?_ ?_
    · exact mem_groupMappings.mpr ⟨f,hf,rfl,hfm⟩
    · exact mem_groupMappings.mpr ⟨f',hf',hn.symm,hfm'⟩
    · exact mappingKey_eq_iff.mpr ⟨hd,hs⟩

lemma flagBindings_groupFlags (n : ℤ) (flags : List Flag) :
    flagBindings (groupFlags n flags)=(groupMappings n flags).filterMap (mappingBinding n) := by
  rw [flagBindings,groupMappings,filterMap_filterMap]
  refine filterMap_congr fun f hf => ?_
  have hn : f.groupNum=n := by simpa using (mem_filter.mp hf).2
  rw [hn]

section
variable (ha : Accepted env args built st)
include ha

lemma length_flagBindings (hg : (n,g) ∈ built) :
    (flagBindings (groupFlags n (flagsOf args))).length =
      (mappings (env.order (.entries n)) (finalGroup env st n)).length := by
  have hperm := ha.recorded.mappings_perm env (env.order (.entries n)) n
  rw [flagBindings_groupFlags,hperm.length_eq,length_filterMap_eq_countP]
  refine countP_eq_length.mpr fun m hm => ?_
  obtain ⟨pe,hpe⟩ := isSome_iff_exists.mp
    ((ha.groupBuilt hg).entries m (hperm.mem_iff.mpr hm))
  rw [mappingBinding_eq hpe]
  rfl

lemma ports_values_perm (hg : (n,g) ∈ built)
    (hk : ((groupMappings n (flagsOf args)).map mappingKey).Nodup) :
    ((g.ports.entries.map Sigma.snd).map (PortEntry.binding n)).Perm
      (flagBindings (groupFlags n (flagsOf args))) := by
  have hgb := ha.groupBuilt hg
  have hperm := ha.recorded.mappings_perm env (env.order (.entries n)) n
  have hvals : (g.ports.entries.map Sigma.snd).Perm
      ((mappings (env.order (.entries n)) (finalGroup env st n)).filterMap (entryOf n (finalGroup env st n))) := by
    rw [hgb.ports]
    exact values_fill_perm ((hperm.map mappingKey).nodup_iff.mpr hk)
  refine (hvals.map _).trans ?_
  rw [flagBindings_groupFlags,map_filterMap]
  have hbind : (mappings (env.order (.entries n)) (finalGroup env st n)).filterMap
      (fun m => (entryOf n (finalGroup env st n) m).map (PortEntry.binding n)) =
      (mappings (env.order (.entries n)) (finalGroup env st n)).filterMap (mappingBinding n) := by
    refine filterMap_congr fun m hm => ?_
    obtain ⟨pe,hpe⟩ := isSome_iff_exists.mp (hgb.entries m hm)
    rw [hpe,mappingBinding_eq hpe]
    rfl
  rw [hbind]
  exact hperm.filterMap _

lemma flagBindings_perm : (flagBindings (flagsOf args)).Perm
      (built.flatMap fun q => flagBindings (groupFlags q.1 (flagsOf args))) := by
  have h := filterMap_perm_flatMap (fun f => f.mapping.bind (mappingBinding f.groupNum))
    (flagsOf args) ha.numbers ?_
  · rw [flatMap_map] at h
    exact h
  · intro f hf hne
    obtain ⟨g,hg⟩ := ha.exists_group f hf fun hnone => hne (by rw [hnone]; rfl)
    exact List.mem_map.mpr ⟨_,hg,rfl⟩

end

/-- The password an entry of direction d and identifier sub gets in group n. -/
def flagPassword (flags : List Flag) (n : ℤ) (d : Direction) (sub : Str) : Str :=
  ((passwordFlag flags n d sub).map Flag.value).getD []

lemma dropICMP_iff (o : MapOrder) (ports : GoMap Str PortEntry) : dropICMP o ports=true ↔
      ∀ k pe, ports.lookup k=some pe → pe.isServer → pe.password≠[] := by
  have hall : dropICMP o ports=true ↔ ∀ pe ∈ (range o ports).map Prod.snd, pe.isServer → pe.password≠[] := by
    simp only [dropICMP,Bool.or_eq_true,List.isEmpty_iff,List.all_eq_true,List.mem_filter]
    constructor
    · rintro (h | h) pe hpe hs
      · have hmem := mem_filter.mpr ⟨hpe,hs⟩
        rw [h] at hmem
        cases hmem
      · simpa using h pe ⟨hpe,hs⟩
    · exact fun h => .inr fun pe hpe => by simpa using h pe hpe.1 hpe.2
  rw [hall]
  constructor
  · intro h k pe hk
    exact h pe (List.mem_map.mpr ⟨(k,pe),(mem_range o ports k pe).mpr hk,rfl⟩)
  · intro h pe hpe
    obtain ⟨⟨k,pe'⟩,hmem,rfl⟩ := List.mem_map.mp hpe
    exact h k pe' ((mem_range o ports k pe').mp hmem)

lemma dropICMP_iff_flags (ha : Accepted env args built st) (hg : (n,g) ∈ built)
    (hk : ((groupMappings n (flagsOf args)).map mappingKey).Nodup) :
    g.dropICMP=true ↔ ∀ f ∈ flagsOf args, f.name=.S → f.groupNum=n →
      flagPassword (flagsOf args) n .server f.sub≠[] := by
  have hgb := ha.groupBuilt hg
  have hperm := ha.recorded.mappings_perm env (env.order (.entries n)) n
  have hinj := inj_on_of_nodup_map ((hperm.map mappingKey).nodup_iff.mpr hk)
  rw [hgb.dropICMP,dropICMP_iff]
  constructor
  · intro h f hf hname hn
    have hm : (f.sub,(⟨.server,f.value⟩ : RawEntry)) ∈
        mappings (env.order (.entries n)) (finalGroup env st n) :=
      hperm.mem_iff.mpr (mem_groupMappings.mpr ⟨f,hf,hn,by rw [Flag.mapping,hname]⟩)
    obtain ⟨pe,hpe⟩ := isSome_iff_exists.mp (hgb.entries _ hm)
    obtain ⟨-,-,-,-,hserver,-,hpw⟩ := entryOf_eq_some hpe
    have hlook : g.ports.lookup (mappingKey (f.sub,⟨.server,f.value⟩))=some pe := by
      rw [hgb.ports]
      refine lookup_fill_unique hm hpe fun m' hm' hkey w hw => ?_
      rw [hinj hm' hm hkey,hpe] at hw
      exact (Option.some.inj hw).symm
    have hne := h _ pe hlook (hserver.mpr rfl)
    rwa [hpw,ha.recorded.lookupPassword_eq] at hne
  · intro h k pe hlook hserver
    obtain ⟨m,hm,-,hpe⟩ := hgb.exists_mapping hlook
    obtain ⟨-,-,-,-,hd,-,hpw⟩ := entryOf_eq_some hpe
    obtain ⟨f,hf,hn,hfm⟩ := mem_groupMappings.mp (hperm.mem_iff.mp hm)
    obtain ⟨hsub,hname⟩ := mapping_eq_some hfm
    rw [hpw,ha.recorded.lookupPassword_eq,hd.mp hserver,hsub]
    refine h f hf ?_ hn
    rw [hd.mp hserver] at hname
    exact hname

end

lemma eq_of_sum_le {α : Type} {f g : α → ℕ} {l : List α} (hle : ∀ x ∈ l, f x≤g x)
    (h : (l.map g).sum≤(l.map f).sum) : ∀ x ∈ l, f x=g x := by
  induction l with
  | nil =>
    intro x hx
    cases hx
  | cons a l ih =>
    have ha := hle a mem_cons_self
    have htail : ∀ x ∈ l, f x≤g x := fun x hx => hle x (mem_cons_of_mem _ hx)
    have hsum : (l.map f).sum≤(l.map g).sum := sum_le_sum htail
    rw [map_cons,map_cons,sum_cons,sum_cons] at h
    intro x hx
    cases hx with
    | head => omega
    | tail _ hx => exact ih htail (by omega) x hx

/-- The flags and the entries are in bijection, and the ICMP decision covers every -S flag,
exactly when no two mappings of a group read the same. -/
theorem entries_bijection_iff {env : Env} {args : List Str} {built : List (ℤ × TunnelGroup)}
    (h : parseNumbered env args=.ok built) : ((flagBindings (flagsOf args)).Perm (builtBindings built) ∧
      ∀ n g, (n,g) ∈ built → (g.dropICMP=true ↔ ¬∃ f ∈ flagsOf args, f.name=.S ∧
        f.groupNum=n ∧ flagPassword (flagsOf args) n .server f.sub=[])) ↔ Unambiguous (flagsOf args) := by
  obtain ⟨st,ha⟩ := exists_accepted h
  rw [unambiguous_iff ha]
  constructor
  · rintro ⟨hbij,-⟩ n g hg
    have hlen := ((flagBindings_perm ha).symm.trans hbij).length_eq
    rw [builtBindings,length_flatMap,length_flatMap] at hlen
    have hperm := ha.recorded.mappings_perm env (env.order (.entries n)) n
    have heq := eq_of_sum_le
      (f := fun q : ℤ × TunnelGroup => ((q.2.ports.entries.map Sigma.snd).map (PortEntry.binding q.1)).length)
      (g := fun q => (flagBindings (groupFlags q.1 (flagsOf args))).length) ?_ hlen.le (n,g) hg
    · rw [length_flagBindings ha hg,length_map,length_map,(ha.groupBuilt hg).ports] at heq
      exact (hperm.map mappingKey).nodup_iff.mp (nodup_of_length_fill heq)
    · rintro ⟨n',g'⟩ hg'
      rw [length_flagBindings ha hg',length_map,length_map,(ha.groupBuilt hg').ports]
      exact length_fill_le _ _ _
  · intro hk
    refine ⟨(flagBindings_perm ha).trans ?_,fun n g hg => ?_⟩
    · exact Perm.flatMap_left _ fun q hq => (ports_values_perm ha hq (hk q.1 q.2 hq)).symm
    · rw [dropICMP_iff_flags ha hg (hk n g hg)]
      simp

def twoPorts (flag1 port1 flag2 port2 : Str) : List Str :=
  ["-K","k",flag1,port1 ++ ":localhost",flag2,port2 ++ ":localhost"]

theorem entries_bijection_iff_two :
    ∃ built, parseNumbered .noFiles (twoPorts "-Sa" "80" "-Sb" "81")=.ok built ∧
      (flagBindings (flagsOf (twoPorts "-Sa" "80" "-Sb" "81"))).Perm (builtBindings built) := by
  have heval : (parseNumbered .noFiles (twoPorts "-Sa" "80" "-Sb" "81")).map List.length=.ok 1 := by
    decide +kernel
  obtain ⟨built,hb,-⟩ := map_eq_ok.mp heval
  exact ⟨built,hb,((entries_bijection_iff hb).mpr (by decide +kernel)).1⟩

/-- Port 80 with identifier a1 and port 180 with identifier a share one key: both flags are
accepted and one entry is left. -/
theorem mapping_lost :
    ∃ built, parseNumbered .noFiles (twoPorts "-Sa1" "80" "-Sa" "180")=.ok built ∧ (builtBindings built).length=1 ∧
      (flagBindings (flagsOf (twoPorts "-Sa1" "80" "-Sa" "180"))).length=2 ∧
      ¬(flagBindings (flagsOf (twoPorts "-Sa1" "80" "-Sa" "180"))).Perm (builtBindings built) := by
  have heval : (parseNumbered .noFiles (twoPorts "-Sa1" "80" "-Sa" "180")).map
      (fun built => (builtBindings built).length)=.ok 1 := by decide +kernel
  obtain ⟨built,hb,hlen⟩ := map_eq_ok.mp heval
  have hflags : (flagBindings (flagsOf (twoPorts "-Sa1" "80" "-Sa" "180"))).length=2 := by
    decide +kernel
  refine ⟨built,hb,hlen,hflags,fun hperm => ?_⟩
  have heq := hperm.length_eq
  omega

end TunnnejiTail.Cli
