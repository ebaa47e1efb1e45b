import TunnnejiTail.Cli.Lookup

/-! Scoping of passwords. The lookup compares spelled keys, so a -P flag also reaches entries
of another direction or port group whose key happens to read the same. -/
namespace TunnnejiTail.Cli
open Go List

/-- The documented scope of a -P flag over the entries of direction d and identifier sub. -/
def InScope (f : Flag) (n : ℤ) (d : Direction) (sub : Str) : Prop :=
  (f.dir=none ∨ f.dir=some d) ∧ (f.sub=[] ∨ f.sub=sub) ∧ (f.groupNum=n ∨ f.groupNum=noNumber)

instance (f : Flag) (n : ℤ) (d : Direction) (sub : Str) : Decidable (InScope f n d sub) :=
  inferInstanceAs (Decidable (_ ∧ _ ∧ _))

/-- A -P flag written for something else whose key reads like one of the entry's: without a
direction and with an identifier that starts with the entry's direction letter, or with a
direction letter that starts the entry's identifier. -/
def Misread (f : Flag) (d : Direction) (sub : Str) : Prop :=
  (f.dir=none ∧ (f.sub=d.letter++sub ∨ f.sub=d.letter) ∧ f.sub≠sub) ∨
    ∃ d', f.dir=some d' ∧ sub=d'.letter++f.sub ∧ ¬(d'=d ∧ f.sub=[])

def Candidate (flags : List Flag) (n : ℤ) (d : Direction) (sub : Str) (f : Flag) : Prop :=
  f ∈ flags ∧ f.name=.P ∧ (f.groupNum=n ∨ f.groupNum=noNumber) ∧ f.key ∈ passKeys d sub

def rank (n : ℤ) (d : Direction) (sub : Str) (f : Flag) : ℕ :=
  2 * (passKeys d sub).idxOf f.key + if f.groupNum=n then 0 else 1

lemma letter_append_ne (d : Direction) (s : Str) : d.letter++s≠s := by
  intro h
  have hl := congrArg List.length h
  cases d <;> simp [Direction.letter] at hl

variable {d : Direction}

lemma letter_append_eq_letter {d' : Direction} {s : Str} (h : d.letter++s=d'.letter) : d=d' ∧ s=[] := by
  have h' : d.letter++s=d'.letter++[] := by rw [h,append_nil]
  exact letter_append_inj h'

lemma letter_append_ne_nil (d : Direction) (s : Str) : d.letter++s≠[] := by
  cases d <;> simp [Direction.letter]

variable {sub : Str}

lemma mem_passKeys {key : Str} :
    key ∈ passKeys d sub ↔ key=d.letter++sub ∨ key=d.letter ∨ key=sub ∨ key=[] := by
  simp [passKeys]

variable {f : Flag}

lemma misread_iff_of_dir_none (hdir : f.dir=none) :
    f.key ∈ passKeys d sub ∧ ¬(f.sub=[] ∨ f.sub=sub) ↔ Misread f d sub := by
  have hkey : f.key=f.sub := by rw [Flag.key,hdir,dirString,nil_append]
  rw [hkey,mem_passKeys]
  constructor
  · rintro ⟨hmem,hout⟩
    push Not at hout
    refine .inl ⟨hdir,?_,hout.2⟩
    obtain h | h | h | h := hmem
    · exact .inl h
    · exact .inr h
    · exact absurd h hout.2
    · exact absurd h hout.1
  · rintro (⟨-,hsub,hne⟩ | ⟨d',hd',-⟩)
    · have hnil : f.sub≠[] := by
        intro hnil
        cases hsub with
        | inl h => exact letter_append_ne_nil d sub (h.symm.trans hnil)
        | inr h => exact letter_append_ne_nil d [] (by rw [append_nil,← h,hnil])
      exact ⟨hsub.elim .inl fun h => .inr (.inl h),fun h => h.elim hnil hne⟩
    · rw [hdir] at hd'
      cases hd'

lemma misread_iff_of_dir_some {d' : Direction} (hdir : f.dir=some d') :
    f.key ∈ passKeys d sub ∧ ¬(d'=d ∧ (f.sub=[] ∨ f.sub=sub)) ↔ Misread f d sub := by
  have hkey : f.key=d'.letter++f.sub := by rw [Flag.key,hdir,dirString]
  rw [hkey,mem_passKeys]
  constructor
  · rintro ⟨hmem,hout⟩
    refine .inr ⟨d',hdir,?_,fun h => hout ⟨h.1,.inl h.2⟩⟩
    obtain h | h | h | h := hmem
    · obtain ⟨hd,hs⟩ := letter_append_inj h
      exact absurd ⟨hd,.inr hs⟩ hout
    · obtain ⟨hd,hs⟩ := letter_append_eq_letter h
      exact absurd ⟨hd,.inl hs⟩ hout
    · exact h.symm
    · exact absurd h (letter_append_ne_nil d' f.sub)
  · rintro (⟨hd',-⟩ | ⟨d1,hd1,hsub,hne⟩)
    · rw [hdir] at hd'
      cases hd'
    · cases hdir.symm.trans hd1
      refine ⟨.inr (.inr (.inl hsub.symm)),?_⟩
      rintro ⟨hd,hs | hs⟩
      · exact hne ⟨hd,hs⟩
      · exact letter_append_ne d' f.sub (hs ▸ hsub.symm)

variable {n : ℤ}

lemma misread_iff (hn : f.groupNum=n ∨ f.groupNum=noNumber) :
    f.key ∈ passKeys d sub ∧ ¬InScope f n d sub ↔ Misread f d sub := by
  cases hdir : f.dir with
  | none =>
    rw [← misread_iff_of_dir_none hdir,InScope]
    simp [hdir,hn]
  | some d' =>
    rw [← misread_iff_of_dir_some hdir,InScope]
    simp [hdir,hn]

variable {flags : List Flag}

lemma groupNum_of_ownOrShared {f' : Flag}
    (h : ownOrShared .P n flags f.key=some f) (hf' : f' ∈ flags) (hname : f'.name=.P)
    (hn : f'.groupNum=n) (hkey : f'.key=f.key) : f.groupNum=n := by
  cases hfind : findFlag .P n f.key flags with
  | none => exact absurd hkey (findFlag_eq_none.mp hfind f' hf' hname hn)
  | some f1 =>
    rw [ownOrShared,hfind,Option.some_or] at h
    cases h
    exact (findFlag_eq_some hfind).2.2.1

lemma passwordFlag_eq_some (h : passwordFlag flags n d sub=some f) :
    Candidate flags n d sub f ∧ ∀ f', Candidate flags n d sub f' → rank n d sub f ≤ rank n d sub f' := by
  obtain ⟨before,key,after,hkeys,hf,hbefore⟩ := findSome?_eq_some_iff.mp h
  obtain ⟨hmem,hname,hgroup,rfl⟩ := ownOrShared_eq_some hf
  have hkey : f.key ∈ passKeys d sub := by
    rw [hkeys]
    simp
  refine ⟨⟨hmem,hname,hgroup,hkey⟩,?_⟩
  rintro f' ⟨hmem',hname',hgroup',hkey'⟩
  have hfirst : ∀ f', f' ∈ flags → f'.name=.P → f'.groupNum=n ∨ f'.groupNum=noNumber → f'.key ∉ before :=
    fun f' hm hP hg hb => key_ne_of_ownOrShared (hbefore _ hb) hm hP hg rfl
  have hidx : (passKeys d sub).idxOf f.key=before.length := by
    rw [hkeys,idxOf_append_of_notMem (hfirst f hmem hname hgroup)]
    simp
  have hidx' : before.length≤(passKeys d sub).idxOf f'.key := by
    rw [hkeys,idxOf_append_of_notMem (hfirst f' hmem' hname' hgroup')]
    omega
  rw [rank,rank]
  by_cases hsame : f'.key=f.key
  · have hown : f'.groupNum=n → f.groupNum=n :=
      fun hn => groupNum_of_ownOrShared hf hmem' hname' hn hsame
    split_ifs with h h' h'
    · omega
    · omega
    · exact absurd (hown h') h
    · omega
  · have hne : (passKeys d sub).idxOf f'.key≠(passKeys d sub).idxOf f.key :=
      fun he => hsame ((idxOf_inj hkey').mp he)
    split_ifs <;> omega

lemma passwordFlag_isSome (h : Candidate flags n d sub f) : ∃ f', passwordFlag flags n d sub=some f' := by
  obtain ⟨hmem,hname,hgroup,hkey⟩ := h
  cases hp : passwordFlag flags n d sub with
  | some f' => exact ⟨f',rfl⟩
  | none =>
    have hnone := findSome?_eq_none_iff.mp hp f.key hkey
    exact absurd rfl (key_ne_of_ownOrShared hnone hmem hname hgroup)

variable {st : ParseState}

lemma rank_injective (hr : Recorded flags st) {f' : Flag} (hf : Candidate flags n d sub f)
    (hf' : Candidate flags n d sub f') (h : rank n d sub f=rank n d sub f') : f=f' := by
  obtain ⟨hmem,hname,hgroup,hkey⟩ := hf
  obtain ⟨hmem',hname',hgroup',hkey'⟩ := hf'
  rw [rank,rank] at h
  have hidx : (passKeys d sub).idxOf f.key=(passKeys d sub).idxOf f'.key := by
    split_ifs at h <;> omega
  have hg : f.groupNum=f'.groupNum := by
    split_ifs at h with h1 h2 h2
    · rw [h1,h2]
    · omega
    · omega
    · rw [hgroup.resolve_left h1,hgroup'.resolve_left h2]
  exact hr.flag_unique hmem hmem' (hname.trans hname'.symm) (.inr hname) hg
    ((idxOf_inj hkey).mp hidx)

/-- The supplier of a password is in scope exactly when every misread flag comes after
another candidate. -/
theorem supplier_inScope_iff (hr : Recorded flags st) (n : ℤ) (d : Direction) (sub : Str) :
    (∀ f, passwordFlag flags n d sub=some f → InScope f n d sub) ↔
      ∀ f ∈ flags, f.name=.P → f.groupNum=n ∨ f.groupNum=noNumber → Misread f d sub →
        ∃ f', Candidate flags n d sub f' ∧ rank n d sub f' < rank n d sub f := by
  constructor
  · intro h f hf hname hgroup hmis
    obtain ⟨hkey,hout⟩ := (misread_iff hgroup).mpr hmis
    have hc : Candidate flags n d sub f := ⟨hf,hname,hgroup,hkey⟩
    obtain ⟨f',hf'⟩ := passwordFlag_isSome hc
    obtain ⟨hc',hmin⟩ := passwordFlag_eq_some hf'
    refine ⟨f',hc',lt_of_le_of_ne (hmin f hc) fun he => hout ?_⟩
    rw [← rank_injective hr hc' hc he]
    exact h f' hf'
  · intro h f hf
    obtain ⟨hc,hmin⟩ := passwordFlag_eq_some hf
    obtain ⟨hmem,hname,hgroup,hkey⟩ := hc
    by_contra hout
    obtain ⟨f',hc',hlt⟩ := h f hmem hname hgroup ((misread_iff hgroup).mp ⟨hkey,hout⟩)
    exact absurd (hmin f' hc') (by omega)

/-- Every entry gets the value of the first key for which its group, or failing that the
un-numbered group, has a -P flag; that flag is written for the entry exactly when every
misread flag is preceded by another candidate. -/
theorem password_scoped_iff {env : Env} {args : List Str} {built : List (ℤ × TunnelGroup)}
    (h : parseNumbered env args=.ok built) {n : ℤ} {g : TunnelGroup} (hg : (n,g) ∈ built)
    {k : Str} {pe : PortEntry} (hk : g.ports.lookup k=some pe) {f : Flag}
    (hf : f ∈ flagsOf args) (hn : f.groupNum=n) {d : Direction} {mapping : Str}
    (hm : f.mapping=some (f.sub,⟨d,mapping⟩)) (hd : pe.isServer ↔ d=.server)
    (hp : RawEntry.listenPort ⟨d,mapping⟩=pe.listenPort) :
    (pe.password=((passwordFlag (flagsOf args) n d f.sub).map Flag.value).getD [] ∧
      ∀ pf, passwordFlag (flagsOf args) n d f.sub=some pf → InScope pf n d f.sub) ↔
    ∀ pf ∈ flagsOf args, pf.name=.P → pf.groupNum=n ∨ pf.groupNum=noNumber →
      Misread pf d f.sub → ∃ pf', Candidate (flagsOf args) n d f.sub pf' ∧ rank n d f.sub pf' < rank n d f.sub pf := by
  obtain ⟨st,ha⟩ := exists_accepted h
  obtain ⟨-,-,-,-,-,-,hpw⟩ := entryOf_eq_some (ha.entryOf_flag hg hk hf hn hm hd hp)
  rw [hpw,ha.recorded.lookupPassword_eq,← supplier_inScope_iff ha.recorded]
  exact ⟨fun h => h.2,fun h => ⟨rfl,h⟩⟩

def passwordedPort (flag : Str) : List Str := ["-K1","k","-S1a","80:localhost",flag,"pw"]

def passwordedEntry : PortEntry := ⟨true,80,"localhost",80,[],"pw"⟩

theorem password_scoped_iff_own :
    ∃ built, ∃ g : TunnelGroup, parseNumbered .noFiles (passwordedPort "-PS1a")=.ok built ∧ (1,g) ∈ built ∧
      g.ports.lookup (portsKey .server "a" 80)=some passwordedEntry ∧
      ∀ pf, passwordFlag (flagsOf (passwordedPort "-PS1a")) 1 .server "a" = some pf → InScope pf 1 .server "a" := by
  have heval : observe (fun g => g.ports.lookup (portsKey .server "a" 80)) .noFiles
      (passwordedPort "-PS1a")=.ok [(1,some passwordedEntry)] := by decide +kernel
  obtain ⟨built,g,hb,hg,hk⟩ := exists_group_of_observe heval mem_cons_self
  refine ⟨built,g,hb,hg,hk,?_⟩
  have hflag : (⟨.S,1,"a",none,"80:localhost"⟩ : Flag) ∈ flagsOf (passwordedPort "-PS1a") := by
    decide +kernel
  have honly : ∀ f ∈ flagsOf (passwordedPort "-PS1a"), f.name=.P → f=⟨.P,1,"a",some .server,"pw"⟩ := by decide +kernel
  refine ((password_scoped_iff hb hg hk hflag rfl rfl (by decide) (by decide +kernel)).mpr ?_).2
  intro pf hpf hname _ hmis
  rw [honly pf hpf hname] at hmis
  obtain ⟨hdir,-⟩ | ⟨d',hdir,hsub,-⟩ := hmis
  · cases hdir
  · cases hdir
    exact absurd hsub (by decide)

/-- The flag -P1Sa is read without a direction, for the identifier Sa, and yet its value
becomes the password of the server port with identifier a. -/
theorem password_of_other_sub :
    ∃ built, ∃ g : TunnelGroup, parseNumbered .noFiles (passwordedPort "-P1Sa")=.ok built ∧ (1,g) ∈ built ∧
      g.ports.lookup (portsKey .server "a" 80)=some passwordedEntry ∧
      (flagsOf (passwordedPort "-P1Sa")).filter (·.name=.P)=[⟨.P,1,"Sa",none,"pw"⟩] ∧
      passwordFlag (flagsOf (passwordedPort "-P1Sa")) 1 .server "a" = some ⟨.P,1,"Sa",none,"pw"⟩ ∧
      ¬InScope ⟨.P,1,"Sa",none,"pw"⟩ 1 .server "a" := by
  have heval : observe (fun g => g.ports.lookup (portsKey .server "a" 80)) .noFiles
      (passwordedPort "-P1Sa")=.ok [(1,some passwordedEntry)] := by decide +kernel
  obtain ⟨built,g,hb,hg,hk⟩ := exists_group_of_observe heval mem_cons_self
  exact ⟨built,g,hb,hg,hk,by decide +kernel,by decide +kernel,by decide +kernel⟩

end TunnnejiTail.Cli
