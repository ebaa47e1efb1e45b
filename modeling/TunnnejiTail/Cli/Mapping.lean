import TunnnejiTail.Net.RoundTrip

/-! Port mappings, target addresses and IP lists of the command line. -/
namespace TunnnejiTail.Cli
open Go Netip List

def isBracketed (host : Str) : Bool := host.head? = some '[' && host.getLast? = some ']'

def trimBrackets (host : Str) : Str := if isBracketed host then host.tail.dropLast else host

/-- parsePortMapping reads "port:addr" and "port:addr:port"; a port is any int. -/
def parsePortMapping (s : Str) : Except Str (ℤ × Str × ℤ) :=
  match cut ':' s with
  | none => .error ("invalid mapping: " ++ s ++ " (expected: port:addr or port:addr:port)")
  | some (first,rest) =>
    match atoi first with
    | none => .error ("invalid port: " ++ first)
    | some p1 =>
      if rest=[] then .error ("invalid mapping: " ++ s ++ " (missing address)")
      else match splitHostPort rest with
        | none =>
          if isBracketed rest then .ok (p1,trimBrackets rest,p1)
          else if ':' ∈ rest then
            .error ("invalid mapping: " ++ s ++ " (IPv6 address must be bracketed, e.g. port:[::1]:port)")
          else .ok (p1,rest,p1)
        | some (host,port) =>
          match atoi port with
          | none => .error ("invalid port: " ++ port)
          | some p2 => .ok (p1,trimBrackets host,p2)

def formatIP (ip : BitVec 128) : Str :=
  if (to4 ip).isSome then ipString ip else '['::(ipString ip ++ "]")

/-- parseTunnelArgs brackets IPv6 literals and leaves hostnames as they are. -/
def normalizeAddr (addr : Str) : Str :=
  match parseIP (trimBrackets addr) with
  | some ip => formatIP ip
  | none => addr

/-- resolveHost under a resolver; none stands for a failed net.LookupHost. -/
def resolveHost (lookupHost : Str → Option (List Str)) (host : Str) : Str :=
  match parseIP (trimBrackets host) with
  | some ip => formatIP ip
  | none =>
    match lookupHost (trimBrackets host) with
    | none => host
    | some [] => host
    | some (a::_) =>
      match parseIP a with
      | some ip => formatIP ip
      | none => a

lemma trimBrackets_bracketed (host : Str) : trimBrackets ('['::(host++[']']))=host := by
  have hb : isBracketed ('['::(host++[']'])) := by
    rw [← cons_append,isBracketed,getLast?_concat]
    rfl
  rw [trimBrackets,if_pos hb,tail_cons,dropLast_concat]

variable {host : Str}

lemma isBracketed_of_not_mem (h : '[' ∉ host) : isBracketed host=false := by
  rw [isBracketed,Bool.and_eq_false_iff,decide_eq_false_iff_not]
  exact .inl fun hhead => h (mem_of_mem_head? hhead)

lemma trimBrackets_of_not_mem (h : '[' ∉ host) : trimBrackets host=host := by
  rw [trimBrackets,isBracketed_of_not_mem h]
  rfl

section
variable {p q : ℕ} (hp : p ≤ maxInt) {rest : Str} (hrest : rest≠[])
include hp hrest

lemma parsePortMapping_of_none (h : splitHostPort rest=none) : parsePortMapping (itoa p ++ ':'::rest) =
    if isBracketed rest then .ok ((p : ℤ),trimBrackets rest,(p : ℤ))
    else if ':' ∈ rest then .error ("invalid mapping: " ++ (itoa p ++ ':'::rest) ++
      " (IPv6 address must be bracketed, e.g. port:[::1]:port)")
    else .ok ((p : ℤ),rest,(p : ℤ)) := by
  have hcolon : ':' ∉ itoa (p : ℤ) := not_mem_itoa (by decide) (by decide)
  rw [parsePortMapping,cut_append ':' _ _ hcolon]
  simp only [atoi_itoa,if_pos (show -((maxInt : ℤ)+1)≤p ∧ (p : ℤ) ≤ maxInt by omega),if_neg hrest,h]

lemma parsePortMapping_of_some (hq : q ≤ maxInt) (h : splitHostPort rest=some (host,itoa q)) :
    parsePortMapping (itoa p ++ ':'::rest)=.ok ((p : ℤ),trimBrackets host,(q : ℤ)) := by
  have hcolon : ':' ∉ itoa (p : ℤ) := not_mem_itoa (by decide) (by decide)
  rw [parsePortMapping,cut_append ':' _ _ hcolon]
  simp only [atoi_itoa,if_pos (show -((maxInt : ℤ)+1)≤p ∧ (p : ℤ) ≤ maxInt by omega),if_neg hrest,h,
    if_pos (show -((maxInt : ℤ)+1)≤q ∧ (q : ℤ) ≤ maxInt by omega)]

end

/-- Mappings are read unambiguously: a host without colons and brackets as it is, one with two colons or
more only in brackets. -/
theorem mapping_unambiguous {p q : ℕ} (hp : p≤65535) (hq : q≤65535) (host : Str) :
    (host≠[] → (∀ c ∈ host, c ≠ ':' ∧ c ≠ '[' ∧ c ≠ ']') →
      parsePortMapping (itoa p ++ ':'::(host ++ ':'::itoa q))=.ok ((p : ℤ),host,(q : ℤ)) ∧
      parsePortMapping (itoa p ++ ':'::host)=.ok ((p : ℤ),host,(p : ℤ))) ∧
    ((∀ c ∈ host, c ≠ '[' ∧ c ≠ ']') → 2≤host.count ':' →
      parsePortMapping (itoa p ++ ':' :: '['::(host ++ ']' :: ':'::itoa q))=.ok ((p : ℤ),host,(q : ℤ)) ∧
      parsePortMapping (itoa p ++ ':' :: '['::(host++[']']))=.ok ((p : ℤ),host,(p : ℤ)) ∧
      (∃ e, parsePortMapping (itoa p ++ ':'::host)=.error e) ∧
      ∃ e, parsePortMapping (itoa p ++ ':'::(host ++ ':'::itoa q))=.error e) := by
  have hmax : 65535 ≤ maxInt := by decide
  have hport : ∀ c ∈ itoa (q : ℤ), c ≠ ':' ∧ c ≠ '[' ∧ c ≠ ']' := by
    intro c hc
    refine ⟨?_,?_,?_⟩ <;> rintro rfl <;> exact not_mem_itoa (by decide) (by decide) hc
  have hcolon : ':' ∉ itoa (q : ℤ) := fun h => (hport _ h).1 rfl
  refine ⟨fun hne hhost => ⟨?_,?_⟩,fun hhost htwo => ⟨?_,?_,?_,?_⟩⟩
  · have hsplit := splitHostPort_plain hport hhost
    rw [parsePortMapping_of_some (hp.trans hmax) (by simp) (hq.trans hmax) hsplit,
      trimBrackets_of_not_mem fun h => (hhost _ h).2.1 rfl]
  · have hnot : ':' ∉ host := fun h => (hhost _ h).1 rfl
    rw [parsePortMapping_of_none (hp.trans hmax) hne (splitHostPort_of_not_mem hnot),
      isBracketed_of_not_mem fun h => (hhost _ h).2.1 rfl,if_neg Bool.false_ne_true,if_neg hnot]
  · have hsplit := splitHostPort_bracketed hport hhost
    rw [parsePortMapping_of_some (hp.trans hmax) (by simp) (hq.trans hmax) hsplit,
      trimBrackets_of_not_mem fun h => (hhost _ h).1 rfl]
  · have hsplit : splitHostPort ('['::(host++[']']))=none :=
      splitHostPort_no_port fun h => (hhost _ h).2 rfl
    have hb : isBracketed ('['::(host++[']']))=true := by
      rw [← cons_append,isBracketed,List.getLast?_concat]
      rfl
    rw [parsePortMapping_of_none (hp.trans hmax) (by simp) hsplit,if_pos hb,trimBrackets_bracketed]
  · -- The host has a last colon, and another one before it.
    have hmem : ':' ∈ host := count_pos_iff.mp (by omega)
    obtain ⟨a,b,rfl,hb⟩ := exists_last_colon hmem
    have ha : ':' ∈ a := by
      refine count_pos_iff.mp ?_
      rw [count_append,count_cons_self,count_eq_zero_of_not_mem hb] at htwo
      omega
    have hsplit := splitHostPort_colons hb ha fun h => (hhost _ (mem_append_left _ h)).1 rfl
    rw [parsePortMapping_of_none (hp.trans hmax) (by simp) hsplit,
      isBracketed_of_not_mem fun h => (hhost _ h).1 rfl,if_neg Bool.false_ne_true,if_pos hmem]
    exact ⟨_,rfl⟩
  · have hmem : ':' ∈ host := count_pos_iff.mp (by omega)
    have hbracket : '[' ∉ host ++ ':'::itoa q := by
      simp only [mem_append,mem_cons,not_or]
      exact ⟨fun h => (hhost _ h).1 rfl,by decide,fun h => (hport _ h).2.1 rfl⟩
    have hsplit := splitHostPort_colons hcolon hmem fun h => hbracket (mem_append_left _ h)
    rw [parsePortMapping_of_none (hp.trans hmax) (by simp) hsplit,isBracketed_of_not_mem hbracket,
      if_neg Bool.false_ne_true,if_pos (mem_append_left _ hmem)]
    exact ⟨_,rfl⟩

/-- A name and an IPv6 address. -/
theorem mapping_unambiguous_localhost :
    parsePortMapping "8080:localhost:80" = .ok (8080,"localhost",80) ∧
      parsePortMapping "8080:[::1]" = .ok (8080,"::1",8080) := by
  have hname := (mapping_unambiguous (p := 8080) (q := 80) (by decide) (by decide) "localhost").1
    (by decide) (by simp)
  have haddr := (mapping_unambiguous (p := 8080) (q := 80) (by decide) (by decide) "::1").2
    (by simp) (by decide)
  exact ⟨hname.1,haddr.2.1⟩

variable (ip : BitVec 128)

lemma trimBrackets_formatIP : trimBrackets (formatIP ip)=ipString ip := by
  unfold formatIP
  split
  · exact trimBrackets_of_not_mem fun hc => (not_bracket_of_mem_ipString hc).1 rfl
  · exact trimBrackets_bracketed _

lemma parseIP_formatIP : parseIP (trimBrackets (formatIP ip))=some ip := by
  rw [trimBrackets_formatIP,parseIP_ipString]

lemma formatIP_injective : Function.Injective formatIP := by
  intro ip ip' h
  have hp := parseIP_formatIP ip
  rw [h,parseIP_formatIP] at hp
  exact (Option.some.inj hp).symm

lemma normalizeAddr_cases (addr : Str) :
    (∃ ip, normalizeAddr addr=formatIP ip) ∨ parseIP (trimBrackets (normalizeAddr addr))=none := by
  cases h : parseIP (trimBrackets addr) with
  | some ip => exact .inl ⟨ip,by simp [normalizeAddr,h]⟩
  | none => exact .inr (by simp [normalizeAddr,h])

lemma resolveHost_formatIP (lookupHost : Str → Option (List Str)) (ip : BitVec 128) :
    resolveHost lookupHost (formatIP ip)=formatIP ip := by
  simp [resolveHost,parseIP_formatIP]

lemma parseAddr_formatIP : parseAddr (formatIP ip)=(to4 ip).map .v4 := by
  unfold formatIP ipString
  cases to4 ip with
  | none => exact parseAddr_bracket _
  | some a => exact parseAddr_string4 a

/-- One part of an IP list. -/
def parseIPPart (part : Str) : Except Str Prefix :=
  match parsePrefix part with
  | some pfx => .ok pfx
  | none =>
    match parseAddr part with
    | none => .error ("invalid IP/CIDR: " ++ part)
    | some addr =>
      match prefixFrom addr (if addr.is6 then 128 else 32) with
      | some pfx => .ok pfx
      | none => .error ("invalid IP/CIDR: " ++ part)

/-- parseIPList: the parts between underscores; empty parts are skipped. -/
def parseIPList (s : Str) : Except Str (List Prefix) :=
  ((s.splitOn '_').filter (· ≠ [])).mapM parseIPPart

example : parsePortMapping "10000:[::1]:8080" = .ok (10000,"::1",8080) := by decide
example : parsePortMapping "8080:localhost" = .ok (8080,"localhost",8080) := by decide
example : parseIPList "_" = .ok [] := by decide

end TunnnejiTail.Cli
