import Mathlib.Tactic.IntervalCases
import Mathlib.Tactic.Ring
import TunnnejiTail.Net.Parse

/-! Printed addresses read back as themselves, in the dotted form and in the canonical
IPv6 form with its ellipsis. -/
namespace TunnnejiTail.Netip
open Go List Nat

lemma ofDigitsBE_append (b : ℕ) (ds : List ℕ) (d : ℕ) :
    ofDigitsBE b (ds++[d])=ofDigitsBE b ds*b+d := by
  simp [ofDigitsBE,foldl_append]

@[simp] lemma digitsBE_length (b k n : ℕ) : (digitsBE b k n).length=k := by
  induction k generalizing n with
  | zero => rfl
  | succ k ih => simp [digitsBE,ih]

lemma digitsBE_lt {b : ℕ} (hb : 0<b) (k n : ℕ) : ∀ d ∈ digitsBE b k n, d<b := by
  induction k generalizing n with
  | zero => simp [digitsBE]
  | succ k ih =>
    intro d hd
    simp only [digitsBE,mem_append,mem_singleton] at hd
    rcases hd with hd | rfl
    · exact ih _ d hd
    · exact mod_lt _ hb

lemma ofDigitsBE_digitsBE (b k n : ℕ) : ofDigitsBE b (digitsBE b k n)=n % b^k := by
  induction k generalizing n with
  | zero => simp [digitsBE,ofDigitsBE,mod_one]
  | succ k ih =>
    rw [digitsBE,ofDigitsBE_append,ih,pow_succ',mod_mul]
    ring

section Dotted

lemma isDigit_digitChar {d : ℕ} (h : d<10) : (digitChar d).isDigit=true := by
  interval_cases d <;> rfl

lemma parseIPv4Loop_digit (fields : List ℕ) (val digLen d : ℕ) (rest : Str) (hd : d<10)
    (hz : ¬ (digLen=1 ∧ val=0)) (hv : val*10+d≤255) :
    parseIPv4Loop fields val digLen (digitChar d::rest) = parseIPv4Loop fields (val*10+d) (digLen+1) rest := by
  have hn : (digitChar d).toNat-48=d := by
    rw [toNat_digitChar_of_lt_ten hd]
    omega
  simp only [parseIPv4Loop,isDigit_digitChar hd,hn,if_true,if_neg hz,if_neg (Nat.not_lt.mpr hv)]

lemma parseIPv4Loop_toDigits (fields : List ℕ) (n : ℕ) (rest : Str) (hn : n≤255) :
    parseIPv4Loop fields 0 0 (toDigits 10 n++rest) = parseIPv4Loop fields n (toDigits 10 n).length rest := by
  induction n using Nat.strongRecOn generalizing rest with
  | ind n ih =>
    by_cases h : n<10
    · rw [toDigits_of_lt_base h]
      simpa using parseIPv4Loop_digit fields 0 0 n rest h (by omega) (by omega)
    · have hq := ih (n/10) (by omega) (digitChar (n%10)::rest) (by omega)
      have hs := parseIPv4Loop_digit fields (n/10) (toDigits 10 (n/10)).length (n%10) rest
        (by omega) (by omega) (by omega)
      rw [toDigits_of_base_le (by decide) (by omega),append_assoc,singleton_append, hq,hs]
      simp only [length_append,length_singleton]
      rw [show n/10*10+n%10=n by omega]

lemma parseIPv4Loop_dot (fields : List ℕ) (n : ℕ) (rest : Str) (hn : n≤255)
    (hr : rest≠[]) (hf : fields.length≠3) :
    parseIPv4Loop fields 0 0 (toDigits 10 n ++ '.'::rest) = parseIPv4Loop (fields++[n]) 0 0 rest := by
  have hl : (toDigits 10 n).length≠0 := by simp
  rw [parseIPv4Loop_toDigits fields n _ hn,parseIPv4Loop]
  simp [hl,hr,hf]

lemma parseIPv4Fields_dotted (a b c d : ℕ) (ha : a≤255) (hb : b≤255) (hc : c≤255) (hd : d≤255) :
    parseIPv4Fields (intercalate ['.'] ([a,b,c,d].map (toDigits 10))) = some [a,b,c,d] := by
  have hs : intercalate ['.'] ([a,b,c,d].map (toDigits 10)) =
      toDigits 10 a ++ '.'::(toDigits 10 b ++ '.'::(toDigits 10 c ++ '.'::(toDigits 10 d++[]))) := by
    simp [intercalate,intersperse]
  rw [hs,parseIPv4Fields,parseIPv4Loop_dot [] a _ ha (by simp) (by simp),
    parseIPv4Loop_dot _ b _ hb (by simp) (by simp),parseIPv4Loop_dot _ c _ hc (by simp) (by simp),
    parseIPv4Loop_toDigits _ d _ hd]
  simp [parseIPv4Loop]

lemma digitsBE_four (n : ℕ) :
    digitsBE 256 4 n=[n/256/256/256%256,n/256/256%256,n/256%256,n%256] := by
  simp [digitsBE]

lemma parseIPv4_string4 (a : BitVec 32) : parseIPv4 (string4 a)=some (.v4 a) := by
  have hv : ofDigitsBE 256 (digitsBE 256 4 a.toNat)=a.toNat := by
    rw [ofDigitsBE_digitsBE]
    exact mod_eq_of_lt a.isLt
  have hp : parseIPv4Fields (string4 a)=some (digitsBE 256 4 a.toNat) := by
    exact parseIPv4Fields_dotted _ _ _ _ (by omega) (by omega) (by omega) (by omega)
  rw [parseIPv4,hp,Option.map_some,hv,BitVec.ofNat_toNat,BitVec.setWidth_eq]

end Dotted

section Groups

lemma hexVal_digitChar {d : ℕ} (h : d<16) : hexVal (digitChar d)=some d := by
  interval_cases d <;> rfl

lemma digitChar_ne_colon {d : ℕ} (h : d<16) : digitChar d ≠ ':' := by
  interval_cases d <;> decide

lemma readHex_digit (off acc d : ℕ) (rest : Str) (hd : d<16) (ho : off≤3)
    (hv : acc*16+d≤65535) :
    readHex off acc (digitChar d::rest)=readHex (off+1) (acc*16+d) rest := by
  simp only [readHex,hexVal_digitChar hd,if_neg (Nat.not_lt.mpr ho),if_neg (Nat.not_lt.mpr hv)]

lemma toDigits_hex_length {g : ℕ} (h : g<65536) : (toDigits 16 g).length≤4 :=
  (length_toDigits_le_iff (by decide) (by decide)).mpr (by omega)

lemma readHex_toDigits (g : ℕ) (rest : Str) (hg : g<65536) :
    readHex 0 0 (toDigits 16 g++rest)=readHex (toDigits 16 g).length g rest := by
  induction g using Nat.strongRecOn generalizing rest with
  | ind g ih =>
    by_cases h : g<16
    · rw [toDigits_of_lt_base h]
      simpa using readHex_digit 0 0 g rest h (by omega) (by omega)
    · have he := toDigits_of_base_le (b := 16) (by decide) (show 16≤g by omega)
      have hl : (toDigits 16 (g/16)).length+1≤4 := by
        have hl' := toDigits_hex_length hg
        rw [he] at hl'
        simpa using hl'
      have hq := ih (g/16) (by omega) (digitChar (g%16)::rest) (by omega)
      have hs := readHex_digit (toDigits 16 (g/16)).length (g/16) (g%16) rest
        (by omega) (by omega) (by omega)
      rw [he,append_assoc,singleton_append,hq,hs]
      simp only [length_append,length_singleton]
      rw [show g/16*16+g%16=g by omega]

lemma readHex_stop (off acc : ℕ) (c : Char) (rest : Str) (hc : hexVal c=none) :
    readHex off acc (c::rest)=some (off,acc,c::rest) := by
  simp only [readHex,hc]

lemma toDigits_hex_head (g : ℕ) : ∃ d ds, d<16 ∧ toDigits 16 g=digitChar d::ds := by
  induction g using Nat.strongRecOn with
  | ind g ih =>
    by_cases h : g<16
    · exact ⟨g,[],h,toDigits_of_lt_base h⟩
    · obtain ⟨d,ds,hd,he⟩ := ih (g/16) (by omega)
      refine ⟨d,ds++[digitChar (g%16)],hd,?_⟩
      rw [toDigits_of_base_le (by decide) (by omega),he]
      rfl

variable (fuel : ℕ) (groups : List ℕ) (ellipsis : Option ℕ)

lemma parseIPv6Loop_last (g : ℕ) (hg : g<65536) :
    parseIPv6Loop (fuel+1) groups ellipsis (toDigits 16 g) = some (groups++[g],ellipsis,[]) := by
  have hr : readHex 0 0 (toDigits 16 g)=some ((toDigits 16 g).length,g,[]) := by
    simpa [readHex] using readHex_toDigits g [] hg
  simp only [parseIPv6Loop,hr]
  simp

section
variable (g : ℕ) (rest : Str) (hg : g<65536)
include hg

lemma readHex_colon :
    readHex 0 0 (toDigits 16 g ++ ':'::rest) = some ((toDigits 16 g).length,g,':'::rest) := by
  rw [readHex_toDigits g _ hg,readHex_stop _ _ ':' rest (by decide)]

lemma parseIPv6Loop_colon (hr : rest≠[])
    (hc : rest.head? ≠ some ':') :
    parseIPv6Loop (fuel+1) groups ellipsis (toDigits 16 g ++ ':'::rest) =
      parseIPv6Loop fuel (groups++[g]) ellipsis rest := by
  obtain ⟨c,cs,rfl⟩ := exists_cons_of_ne_nil hr
  have hc' : c ≠ ':' := by simpa using hc
  simp only [parseIPv6Loop,readHex_colon g (c::cs) hg]
  simp [hc']

lemma parseIPv6Loop_ellipsis :
    parseIPv6Loop (fuel+1) groups none (toDigits 16 g ++ ':' :: ':'::rest) =
      if rest=[] then some (groups++[g],some (groups.length+1),[])
      else parseIPv6Loop fuel (groups++[g]) (some (groups.length+1)) rest := by
  simp only [parseIPv6Loop,readHex_colon g (':'::rest) hg]
  simp

end

lemma joinGroups_cons (g : ℕ) (gs : List ℕ) (h : gs≠[]) :
    joinGroups (g::gs)=toDigits 16 g ++ ':'::joinGroups gs := by
  obtain ⟨x,xs,rfl⟩ := exists_cons_of_ne_nil h
  simp [joinGroups,intercalate]

section
variable {gs : List ℕ} (h : gs≠[])
include h

lemma joinGroups_head :
    ∃ d cs, d<16 ∧ joinGroups gs=digitChar d::cs := by
  obtain ⟨g,gs,rfl⟩ := exists_cons_of_ne_nil h
  obtain ⟨d,ds,hd,he⟩ := toDigits_hex_head g
  by_cases hg : gs=[]
  · subst gs
    exact ⟨d,ds,hd,by simp [joinGroups,intercalate,he]⟩
  · exact ⟨d,ds ++ ':'::joinGroups gs,hd,by rw [joinGroups_cons g gs hg,he]; rfl⟩

lemma joinGroups_ne_nil : joinGroups gs≠[] := by
  obtain ⟨d,cs,-,he⟩ := joinGroups_head h
  simp [he]

lemma joinGroups_head_ne_colon (rest : Str) :
    (joinGroups gs++rest).head? ≠ some ':' := by
  obtain ⟨d,cs,hd,he⟩ := joinGroups_head h
  simp [he,digitChar_ne_colon hd]

end

variable (ps : List ℕ) (hps : ∀ g ∈ ps, g<65536) (hne : ps≠[]) (hf : ps.length≤fuel)
include hps hne hf

lemma parseIPv6Loop_join :
    parseIPv6Loop fuel groups ellipsis (joinGroups ps)=some (groups++ps,ellipsis,[]) := by
  induction ps generalizing fuel groups with
  | nil => contradiction
  | cons g ps ih =>
    obtain ⟨fuel,rfl⟩ : ∃ n, fuel=n+1 := ⟨fuel-1,by simp at hf; omega⟩
    have hg := hps g (by simp)
    by_cases hp : ps=[]
    · subst ps
      simpa [joinGroups,intercalate,intersperse] using
        parseIPv6Loop_last fuel groups ellipsis g hg
    · have hc := joinGroups_head_ne_colon hp []
      rw [append_nil] at hc
      rw [joinGroups_cons g ps hp, parseIPv6Loop_colon fuel groups ellipsis g _ hg (joinGroups_ne_nil hp) hc,
        ih fuel (groups++[g]) (fun x hx => hps x (by simp [hx])) hp (by simpa using hf)]
      simp

lemma parseIPv6Loop_join_ellipsis (rest : Str) :
    parseIPv6Loop fuel groups none (joinGroups ps ++ ':' :: ':'::rest) =
      if rest=[] then some (groups++ps,some (groups.length+ps.length),[])
      else parseIPv6Loop (fuel-ps.length) (groups++ps) (some (groups.length+ps.length)) rest := by
  induction ps generalizing fuel groups with
  | nil => contradiction
  | cons g ps ih =>
    obtain ⟨fuel,rfl⟩ : ∃ n, fuel=n+1 := ⟨fuel-1,by simp at hf; omega⟩
    have hg := hps g (by simp)
    by_cases hp : ps=[]
    · subst ps
      simpa [joinGroups,intercalate,intersperse] using
        parseIPv6Loop_ellipsis fuel groups g rest hg
    · rw [joinGroups_cons g ps hp,append_assoc,cons_append,
        parseIPv6Loop_colon fuel groups none g _ hg (by simp) (joinGroups_head_ne_colon hp _),
        ih fuel (groups++[g]) (fun x hx => hps x (by simp [hx])) hp (by simpa using hf)]
      simp only [append_assoc,singleton_append,length_append,length_nil, length_cons,Nat.add_sub_add_right,Nat.zero_add]
      rw [show groups.length+1+ps.length=groups.length+(ps.length+1) by omega]

end Groups

lemma takeWhile_zero (l : List ℕ) :
    l=replicate (l.takeWhile (· = 0)).length 0++l.drop (l.takeWhile (· = 0)).length := by
  induction l with
  | nil => simp
  | cons x xs ih =>
    by_cases hx : x=0
    · subst x
      simpa [replicate_succ] using ih
    · simp [hx]

def IsZeroRun (gs : List ℕ) (s e : ℕ) : Prop :=
  s<e ∧ e≤8 ∧ gs=gs.take s++List.replicate (e-s) 0++gs.drop e

variable {gs : List ℕ}

lemma zeroStep_isZeroRun {best : Option (ℕ × ℕ)} {i s e : ℕ} (hlen : gs.length=8)
    (hb : ∀ s e, best=some (s,e) → IsZeroRun gs s e) (h : zeroStep gs best i=some (s,e)) :
    IsZeroRun gs s e := by
  unfold zeroStep at h
  dsimp only at h
  split at h
  · rename_i hl
    cases h
    have hz := takeWhile_zero (gs.drop i)
    have hle : ((gs.drop i).takeWhile (· = 0)).length≤8-i := by
      have ht := (takeWhile_sublist (l := gs.drop i) (· = 0)).length_le
      simpa [hlen] using ht
    refine ⟨by omega,by omega,?_⟩
    rw [drop_drop] at hz
    rw [Nat.add_sub_cancel_left,append_assoc,← hz,take_append_drop]
  · exact hb s e h

lemma longestZeros_isZeroRun {s e : ℕ} (hlen : gs.length=8)
    (h : longestZeros gs=some (s,e)) : IsZeroRun gs s e := by
  have hinv : ∀ s e, longestZeros gs=some (s,e) → IsZeroRun gs s e :=
    foldlRecOn (motive := fun best => ∀ s e, best=some (s,e) → IsZeroRun gs s e)
      (List.range 8) (zeroStep gs) (by simp) fun _ hb _ _ _ _ he => zeroStep_isZeroRun hlen hb he
  exact hinv s e h

lemma parseGroups_of_head {s : Str} (h : s.head? ≠ some ':') :
    parseGroups s=(parseIPv6Loop 8 [] none s).bind expandEllipsis := by
  unfold parseGroups
  split
  · simp at h
  · rfl

lemma parseGroups_joinGroups (hlen : gs.length=8) (hgs : ∀ g ∈ gs, g<65536) :
    parseGroups (joinGroups gs)=some gs := by
  have hne : gs≠[] := by
    rintro rfl
    simp at hlen
  have hc := joinGroups_head_ne_colon hne []
  rw [append_nil] at hc
  rw [parseGroups_of_head hc,parseIPv6Loop_join 8 [] none gs hgs hne (by omega)]
  simp [expandEllipsis,hlen]

section Ellipsis
variable {pre post : List ℕ} (hlen : pre.length+post.length<8)
include hlen

lemma expandEllipsis_append : expandEllipsis (pre++post,some pre.length,[]) =
    some (pre++replicate (8-(pre.length+post.length)) 0++post) := by
  simp [expandEllipsis,hlen]

variable (hpre : ∀ g ∈ pre, g<65536) (hpost : ∀ g ∈ post, g<65536)
include hpre hpost

lemma parseGroups_ellipsis : parseGroups (joinGroups pre ++ ':' :: ':'::joinGroups post) =
    some (pre++replicate (8-(pre.length+post.length)) 0++post) := by
  rw [← expandEllipsis_append hlen]
  by_cases hp : pre=[]
  · subst pre
    have hnil : joinGroups []=[] := by simp [joinGroups]
    rw [hnil,nil_append,parseGroups]
    by_cases hq : post=[]
    · subst post
      rw [hnil]
      rfl
    · rw [if_neg (joinGroups_ne_nil hq), parseIPv6Loop_join 8 [] (some 0) post hpost hq (by omega)]
      rfl
  · rw [parseGroups_of_head (joinGroups_head_ne_colon hp _),
      parseIPv6Loop_join_ellipsis 8 [] pre hpre hp (by omega),nil_append,length_nil,
      Nat.zero_add]
    by_cases hq : post=[]
    · subst post
      simp [joinGroups]
    · rw [if_neg (joinGroups_ne_nil hq),parseIPv6Loop_join _ _ _ post hpost hq (by omega)]
      rfl

end Ellipsis

lemma parseGroups_stringGroups (gs : List ℕ) (hlen : gs.length=8)
    (hgs : ∀ g ∈ gs, g<65536) : parseGroups (stringGroups gs)=some gs := by
  unfold stringGroups
  cases hz : longestZeros gs with
  | none => exact parseGroups_joinGroups hlen hgs
  | some p =>
    obtain ⟨s,e⟩ := p
    obtain ⟨hse,he8,hsplit⟩ := longestZeros_isZeroRun hlen hz
    have hlpre : (gs.take s).length=s := by
      rw [length_take,hlen]
      omega
    have hlpost : (gs.drop e).length=8-e := by rw [length_drop,hlen]
    have hmissing : 8-((gs.take s).length+(gs.drop e).length)=e-s := by omega
    have hparse := parseGroups_ellipsis (show (gs.take s).length+(gs.drop e).length<8 by omega)
      (fun g hg => hgs g (mem_of_mem_take hg)) fun g hg => hgs g (mem_of_mem_drop hg)
    rw [hmissing,← hsplit] at hparse
    exact hparse

variable {c : Char}

lemma mem_joinGroups (h : c ∈ joinGroups gs) :
    c = ':' ∨ ∃ d<16, c=digitChar d := by
  have hhex : ∀ g : ℕ, ∀ x ∈ toDigits 16 g, ∃ d<16, x=digitChar d := by
    intro g
    induction g using Nat.strongRecOn with
    | ind g ih =>
      intro x hx
      by_cases hg : g<16
      · rw [toDigits_of_lt_base hg,mem_singleton] at hx
        exact ⟨g,hg,hx⟩
      · rw [toDigits_of_base_le (by decide) (by omega),mem_append, mem_singleton] at hx
        rcases hx with hx | hx
        · exact ih (g/16) (by omega) x hx
        · exact ⟨g%16,by omega,hx⟩
  induction gs with
  | nil => simp [joinGroups] at h
  | cons g gs ih =>
    by_cases hg : gs=[]
    · subst gs
      refine Or.inr (hhex g c ?_)
      simpa [joinGroups,intercalate] using h
    · rw [joinGroups_cons g gs hg,mem_append,mem_cons] at h
      rcases h with h | h | h
      · exact Or.inr (hhex g c h)
      · exact Or.inl h
      · exact ih h

lemma mem_stringGroups (h : c ∈ stringGroups gs) :
    c = ':' ∨ ∃ d<16, c=digitChar d := by
  unfold stringGroups at h
  split at h
  · exact mem_joinGroups h
  · simp only [mem_append,mem_cons] at h
    rcases h with h | h | h | h
    · exact mem_joinGroups h
    · exact Or.inl h
    · exact Or.inl h
    · exact mem_joinGroups h

lemma not_mem_stringGroups (hc : c ≠ ':')
    (hx : ∀ d<16, c≠digitChar d) : c ∉ stringGroups gs := by
  intro h
  rcases mem_stringGroups h with h | ⟨d,hd,h⟩
  · exact hc h
  · exact hx d hd h

lemma colon_mem_stringGroups (hlen : gs.length=8) : ':' ∈ stringGroups gs := by
  unfold stringGroups
  split
  · obtain ⟨g,gs,rfl⟩ := exists_cons_of_ne_nil (show gs≠[] by rintro rfl; simp at hlen)
    rw [joinGroups_cons g gs (by rintro rfl; simp at hlen)]
    simp
  · simp

lemma parseAddr_string4 (a : BitVec 32) : parseAddr (string4 a)=some (.v4 a) := by
  have hfind : (string4 a).find? (fun c => c = '.' ∨ c = ':' ∨ c = '%')=some '.' := by
    have hd : (toDigits 10 (a.toNat/256/256/256%256)).find?
        (fun c => c = '.' ∨ c = ':' ∨ c = '%')=none := by
      rw [find?_eq_none]
      intro c hc hp
      have hdig := isDigit_of_mem_toDigits (by decide) (by decide) hc
      simp only [decide_eq_true_eq] at hp
      rcases hp with rfl | rfl | rfl <;> simp at hdig
    have hs : string4 a=toDigits 10 (a.toNat/256/256/256%256) ++ '.' ::
        intercalate ['.'] ([a.toNat/256/256%256,a.toNat/256%256,a.toNat%256].map (toDigits 10)) := by
      rw [string4,digitsBE_four]
      simp [intercalate]
    rw [hs,find?_append,hd]
    rfl
  rw [parseAddr,hfind]
  exact parseIPv4_string4 a

lemma parseAddr_string6 (a : BitVec 128) : parseAddr (string6 a)=some (.v6 a []) := by
  have hlen := digitsBE_length 65536 8 a.toNat
  have hdot : '.' ∉ string6 a := not_mem_stringGroups (by decide) (by decide)
  have hpct : '%' ∉ string6 a := not_mem_stringGroups (by decide) (by decide)
  have hfind : (string6 a).find? (fun c => c = '.' ∨ c = ':' ∨ c = '%')=some ':' := by
    cases hf : (string6 a).find? (fun c => c = '.' ∨ c = ':' ∨ c = '%') with
    | none =>
      rw [find?_eq_none] at hf
      exact absurd (by decide) (hf ':' (colon_mem_stringGroups hlen))
    | some c =>
      have hm := mem_of_find?_eq_some hf
      have hp := find?_some hf
      simp only [decide_eq_true_eq] at hp
      rcases hp with rfl | rfl | rfl
      · exact absurd hm hdot
      · rfl
      · exact absurd hm hpct
  have hv : ofDigitsBE 65536 (digitsBE 65536 8 a.toNat)=a.toNat := by
    rw [ofDigitsBE_digitsBE]
    exact mod_eq_of_lt a.isLt
  have hg : parseGroups (string6 a)=some (digitsBE 65536 8 a.toNat) :=
    parseGroups_stringGroups _ hlen (digitsBE_lt (by decide) 8 a.toNat)
  rw [parseAddr,hfind]
  rw [parseIPv6,(cut_eq_none_iff '%' _).mpr hpct]
  simp only [hg,Option.map_some,hv,BitVec.ofNat_toNat,BitVec.setWidth_eq]

lemma parseIP_ipString (ip : BitVec 128) : parseIP (ipString ip)=some ip := by
  unfold ipString to4
  by_cases h : ip.toNat / 2^32=0xffff
  · simp only [h,if_true,parseIP,parseAddr_string4]
    exact congrArg some (Addr.eq_mapped h).symm
  · simp only [h,if_false,parseIP,parseAddr_string6]
    rfl

lemma mem_string4 {a : BitVec 32} (h : c ∈ string4 a) : c = '.' ∨ c.isDigit := by
  have hdig : ∀ n, c ∈ toDigits 10 n → c.isDigit :=
    fun n hc => isDigit_of_mem_toDigits (by decide) (by decide) hc
  rw [string4,digitsBE_four] at h
  simp only [intercalate,map_cons,map_nil,intersperse,flatten_cons,
    flatten_nil,mem_append,mem_singleton,not_mem_nil,or_false] at h
  obtain h | h | h | h | h | h | h := h
  · exact .inr (hdig _ h)
  · exact .inl h
  · exact .inr (hdig _ h)
  · exact .inl h
  · exact .inr (hdig _ h)
  · exact .inl h
  · exact .inr (hdig _ h)

lemma not_mem_string4 {a : BitVec 32} (hc : c ≠ '.') (hd : c.isDigit=false) : c ∉ string4 a := by
  intro h
  obtain h | h := mem_string4 h
  · exact hc h
  · simp [hd] at h

variable {ip : BitVec 128}

lemma not_mem_ipString (hdot : c ≠ '.') (hdigit : c.isDigit=false) (hcolon : c ≠ ':')
    (hhex : ∀ d<16, c≠digitChar d) : c ∉ ipString ip := by
  unfold ipString
  split
  · exact not_mem_string4 hdot hdigit
  · exact not_mem_stringGroups hcolon hhex

lemma not_bracket_of_mem_ipString (h : c ∈ ipString ip) : c ≠ '[' ∧ c ≠ ']' := by
  constructor
  · rintro rfl
    exact not_mem_ipString (by decide) (by decide) (by decide) (by decide) h
  · rintro rfl
    exact not_mem_ipString (by decide) (by decide) (by decide) (by decide) h

lemma ipString_injective : Function.Injective ipString := by
  intro ip ip' h
  have hparse := parseIP_ipString ip
  rw [h,parseIP_ipString] at hparse
  exact (Option.some.inj hparse).symm

lemma parseAddr_bracket (s : Str) : parseAddr ('['::s)=none := by
  have h4 : parseIPv4 ('['::s)=none := by
    simp [parseIPv4,parseIPv4Fields,parseIPv4Loop]
  have hr : ∀ t, readHex 0 0 ('['::t)=some (0,0,'['::t) :=
    fun t => readHex_stop 0 0 '[' t (by decide)
  have hg : ∀ t, parseGroups ('['::t)=none := by
    intro t
    simp [parseGroups,parseIPv6Loop,hr]
  have h6 : parseIPv6 ('['::s)=none := by
    unfold parseIPv6
    split
    · rfl
    · rename_i s' zone hc hcut
      rw [cut] at hcut
      simp only [show ('[' : Char) ≠ '%' by decide,if_false,Option.map_eq_some_iff] at hcut
      obtain ⟨p,-,hp⟩ := hcut
      cases hp
      simp [hg]
    · simp [hg]
  unfold parseAddr
  split
  · exact h4
  · exact h6
  · rfl

end TunnnejiTail.Netip
