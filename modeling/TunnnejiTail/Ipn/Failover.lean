import TunnnejiTail.Ipn.ServeTarget

/-! Failover of a serveTarget. A dial computes an address, fails, drops what is cached and computes
another one; in between, other connections may do the same on the same target. -/
namespace TunnnejiTail.Ipn
open Go Netip List

/-- What a connection does to the target, each call under the mutex. -/
inductive Call
  | addr (net : Network)
  | invalidate

namespace ServeTarget

def resolved (net : Network) (st : ServeTarget) : List Str :=
  if st.cur≠[] ∨ st.port=[] ∨ (parseIP st.host).isSome then [] else (net.lookup st.host).getD []

def call (st : ServeTarget) : Call → ServeTarget
  | .addr net => (st.addr net).2
  | .invalidate => st.invalidate

def asked (st : ServeTarget) : Call → List Str
  | .addr net => st.resolved net
  | .invalidate => []

def calls (st : ServeTarget) (cs : List Call) : ServeTarget := cs.foldl call st

def lookups (st : ServeTarget) : List Call → List Str
  | [] => []
  | c::cs => st.asked c++(st.call c).lookups cs

/-- The calls that a dial makes, with those of other connections while the first address is dialled,
before the second one is computed and while it is dialled. -/
def dialCalls (net : Network) (st : ServeTarget) (d1 d2 d3 : List Call) : List Call :=
  if net.systemDial (st.addr net).1 then .addr net::d1
  else .addr net::d1++.invalidate::d2++.addr net::d3

/-- A dial among the calls of other connections. -/
def dialAmong (net : Network) (st : ServeTarget) (d1 d2 d3 : List Call) : DialResult :=
  let (target,st1) := st.addr net
  if net.systemDial target then ⟨some target,target,[target],st1.calls d1⟩
  else
    let (t2,st2) := ((st1.calls d1).invalidate.calls d2).addr net
    if t2≠target then
      if net.systemDial t2 then ⟨some t2,t2,[target,t2],st2.calls d3⟩
      else ⟨none,target,[target,t2],st2.calls d3⟩
    else ⟨none,target,[target],st2.calls d3⟩

lemma calls_append (st : ServeTarget) (cs cs' : List Call) : st.calls (cs++cs')=(st.calls cs).calls cs' :=
  foldl_append

lemma next_dialAmong (net : Network) (st : ServeTarget) (d1 d2 d3 : List Call) :
    (st.dialAmong net d1 d2 d3).next=st.calls (st.dialCalls net d1 d2 d3) := by
  rw [dialAmong,dialCalls]
  by_cases h : net.systemDial (st.addr net).1=true
  · simp only [h,if_true]
    rfl
  · simp only [h,Bool.false_eq_true,if_false,apply_ite DialResult.next,ite_self]
    rw [calls_append,calls_append]
    rfl

section
variable (net : Network) (st : ServeTarget)

lemma cur_addr : (st.addr net).2.cur=[] ∨ (st.addr net).2.cur=(st.addr net).1 := by
  rw [addr]
  by_cases hcur : st.cur=[]
  · rw [if_neg (not_not.mpr hcur)]
    split_ifs
    · exact Or.inl hcur
    · exact Or.inr rfl
    · split
      · exact Or.inl hcur
      · exact Or.inl hcur
      · split <;> exact Or.inr rfl
  · rw [if_pos hcur]
    exact Or.inr rfl

lemma host_call (c : Call) : (st.call c).host=st.host ∧ (st.call c).port=st.port := by
  cases c with
  | addr net =>
    rw [call,addr]
    split_ifs
    · exact ⟨rfl,rfl⟩
    · exact ⟨rfl,rfl⟩
    · exact ⟨rfl,rfl⟩
    · split
      · exact ⟨rfl,rfl⟩
      · exact ⟨rfl,rfl⟩
      · split <;> exact ⟨rfl,rfl⟩
  | invalidate => exact ⟨rfl,rfl⟩

lemma host_calls (cs : List Call) : (st.calls cs).host=st.host ∧ (st.calls cs).port=st.port := by
  induction cs generalizing st with
  | nil => exact ⟨rfl,rfl⟩
  | cons c cs ih =>
    obtain ⟨hhost,hport⟩ := ih (st.call c)
    exact ⟨hhost.trans (st.host_call c).1,hport.trans (st.host_call c).2⟩

/-- What is cached is the literal or one of the given addresses, with the target's port. -/
def CachedFrom (seen : List Str) : Prop :=
  st.cur≠[] → (parseIP st.host).isSome ∧ st.cur=joinHostPort st.host st.port ∨
    ∃ ip ∈ seen, st.cur=joinHostPort ip st.port

variable {st}

lemma CachedFrom.mono {seen seen' : List Str} (h : st.CachedFrom seen) (hs : seen ⊆ seen') :
    st.CachedFrom seen' := by
  intro hcur
  rcases h hcur with hlit | ⟨ip,hip,hcur⟩
  · exact Or.inl hlit
  · exact Or.inr ⟨ip,hs hip,hcur⟩

variable {seen : List Str}

lemma CachedFrom.call (h : st.CachedFrom seen) (c : Call) :
    (st.call c).CachedFrom (seen++st.asked c) := by
  cases c with
  | invalidate => exact fun hcur => absurd rfl hcur
  | addr net =>
    rw [ServeTarget.call,asked,resolved,addr]
    by_cases hcur : st.cur=[]
    · by_cases hport : st.port=[]
      · simpa [hcur,hport] using h
      · by_cases hip : (parseIP st.host).isSome=true
        · simp only [hcur,hport,hip,ne_eq,not_true_eq_false,if_false,if_true]
          exact fun _ => Or.inl ⟨hip,rfl⟩
        · simp only [hcur,hport,hip,ne_eq,not_true_eq_false,Bool.false_eq_true,or_self,if_false]
          cases hlookup : net.lookup st.host with
          | none => exact fun hne => absurd hcur hne
          | some ips =>
            cases ips with
            | nil => exact fun hne => absurd hcur hne
            | cons ip ips =>
              simp only [Option.getD_some]
              cases hfind : (ip::ips).find? fun ip => net.probe (joinHostPort ip st.port) with
              | some ip' =>
                have hmem := mem_of_find?_eq_some hfind
                exact fun _ => Or.inr ⟨ip',mem_append_right _ hmem,rfl⟩
              | none => exact fun _ => Or.inr ⟨ip,mem_append_right _ mem_cons_self,rfl⟩
    · simp only [hcur,ne_eq,not_false_eq_true,if_true,true_or]
      exact h.mono (subset_append_left seen [])

lemma CachedFrom.calls (h : st.CachedFrom seen) (cs : List Call) :
    (st.calls cs).CachedFrom (seen++st.lookups cs) := by
  induction cs generalizing st seen with
  | nil => exact h.mono (subset_append_left seen [])
  | cons c cs ih =>
    have hrest := ih (h.call c)
    rwa [append_assoc] at hrest

end

end ServeTarget

/-- The network while a dial lasts: a probe accepts exactly what the dialer connects to. The resolver
answers a literal with itself, and the dialer wants a port. -/
structure Network.Steady (net : Network) : Prop where
  probe_eq : ∀ a, net.probe a=net.systemDial a
  literal : ∀ host, (parseIP host).isSome → net.lookup host=some [host]
  port : ∀ ip, net.systemDial (joinHostPort ip [])=false

def ServeTarget.Available (net : Network) (st : ServeTarget) : Prop :=
  ∃ ip ∈ (net.lookup st.host).getD [], net.systemDial (joinHostPort ip st.port)=true

namespace ServeTarget
section
variable {net : Network} (hnet : net.Steady) {st : ServeTarget} (h : st.Available net)
include hnet h

lemma addr_of_available (hcur : st.cur=[]) : net.systemDial (st.addr net).1=true := by
  obtain ⟨ip,hip,hdial⟩ := h
  have hport : st.port≠[] := by
    intro hport
    rw [hport,hnet.port] at hdial
    cases hdial
  rw [addr,if_neg (not_not.mpr hcur),if_neg hport]
  by_cases hlit : (parseIP st.host).isSome=true
  · rw [if_pos hlit]
    rw [hnet.literal _ hlit,Option.getD_some,mem_singleton] at hip
    rwa [hip] at hdial
  · rw [if_neg hlit]
    cases hlookup : net.lookup st.host with
    | none =>
      rw [hlookup] at hip
      cases hip
    | some ips =>
      rw [hlookup,Option.getD_some] at hip
      cases ips with
      | nil => cases hip
      | cons ip0 ips =>
        cases hfind : (ip0::ips).find? fun ip => net.probe (joinHostPort ip st.port) with
        | none =>
          have hno := find?_eq_none.mp hfind ip hip
          rw [hnet.probe_eq] at hno
          exact absurd hdial hno
        | some ip' =>
          have hyes := find?_some hfind
          rw [hnet.probe_eq] at hyes
          simp only [hfind]
          exact hyes

/-- What is cached since the target was invalidated accepts, if any address of the lookup result does. -/
theorem accepts_calls {cs : List Call} (hcs : ∀ c ∈ cs, c=.addr net ∨ c=.invalidate)
    (hcur : st.cur≠[] → net.systemDial st.cur=true) :
    (st.calls cs).cur≠[] → net.systemDial (st.calls cs).cur=true := by
  induction cs generalizing st with
  | nil => exact hcur
  | cons c cs ih =>
    obtain ⟨hc,hcs⟩ := forall_mem_cons.mp hcs
    have hkeep : (st.call c).Available net := by
      rw [Available,(st.host_call c).1,(st.host_call c).2]
      exact h
    refine ih hkeep hcs fun hne => ?_
    rcases hc with rfl | rfl
    · have hret := (cur_addr net st).resolve_left hne
      change net.systemDial (st.addr net).2.cur=true
      rw [hret]
      by_cases hc : st.cur=[]
      · exact addr_of_available hnet h hc
      · rw [addr,if_pos hc]
        exact hcur hc
    · exact absurd rfl hne

lemma addr_after_invalidate {d1 d2 : List Call}
    (hd : ∀ c ∈ d2, c=.addr net ∨ c=.invalidate) :
    net.systemDial (((st.calls d1).invalidate.calls d2).addr net).1=true := by
  have hkeep (cs : List Call) {st : ServeTarget} (h : st.Available net) : (st.calls cs).Available net := by
    rw [Available,(st.host_calls cs).1,(st.host_calls cs).2]
    exact h
  have hdropped : (st.calls d1).invalidate.Available net := hkeep d1 h
  have haccepts := accepts_calls hnet hdropped hd fun hne => absurd rfl hne
  by_cases hcur : ((st.calls d1).invalidate.calls d2).cur=[]
  · exact addr_of_available hnet (hkeep d2 hdropped) hcur
  · rw [addr,if_pos hcur]
    exact haccepts hcur

lemma conn_dialAmong {d1 d2 d3 : List Call}
    (hd : ∀ c ∈ d2, c=.addr net ∨ c=.invalidate) : ∃ a, (st.dialAmong net d1 d2 d3).conn=some a := by
  rw [dialAmong]
  by_cases hfirst : net.systemDial (st.addr net).1=true
  · simp only [hfirst,if_true]
    exact ⟨_,rfl⟩
  · have hfirst' : (st.addr net).2.Available net := by
      have hhost := st.host_call (.addr net)
      rw [Available]
      rw [show (st.addr net).2.host=st.host from hhost.1,show (st.addr net).2.port=st.port from hhost.2]
      exact h
    have hsecond : net.systemDial ((((st.addr net).2.calls d1).invalidate.calls d2).addr net).1=true :=
      addr_after_invalidate hnet hfirst' hd
    have hne : ((((st.addr net).2.calls d1).invalidate.calls d2).addr net).1≠(st.addr net).1 := by
      intro heq
      rw [heq] at hsecond
      exact hfirst hsecond
    simp only [hfirst,hsecond,hne,ne_eq,not_false_eq_true,Bool.false_eq_true,if_false,if_true]
    exact ⟨_,rfl⟩

end

lemma target_dialAmong (net : Network) (st : ServeTarget) (d1 d2 d3 : List Call) {a : Str}
    (h : (st.dialAmong net d1 d2 d3).conn=some a) :
    (st.dialAmong net d1 d2 d3).target=a ∧ net.systemDial a=true := by
  rw [dialAmong] at h ⊢
  by_cases hfirst : net.systemDial (st.addr net).1=true
  · simp only [hfirst,if_true] at h ⊢
    cases h
    exact ⟨rfl,hfirst⟩
  · simp only [hfirst,Bool.false_eq_true,if_false] at h ⊢
    split at h
    · next hne =>
      rw [if_pos hne]
      split at h
      · next hsecond =>
        rw [if_pos hsecond]
        cases h
        exact ⟨rfl,hsecond⟩
      · cases h
    · cases h

/-- In every state of the cache, and whatever other connections do meanwhile, a dial connects if an
address of the lookup result can be connected to; what it returns has accepted; and what is cached
afterwards is the literal or comes from a lookup that was made. -/
theorem failover_succeeds (hostport : Str) (cs : List Call) {net : Network} (hnet : net.Steady)
    {d1 d2 d3 : List Call} (hd : ∀ c ∈ d1++d2++d3, c=.addr net ∨ c=.invalidate) {st : ServeTarget}
    (hst : st=(newServeTarget hostport).calls cs) :
    (st.Available net → ∃ a, (st.dialAmong net d1 d2 d3).conn=some a) ∧
    (∀ a, (st.dialAmong net d1 d2 d3).conn=some a → (st.dialAmong net d1 d2 d3).target=a ∧ net.systemDial a=true) ∧
    (st.dialAmong net d1 d2 d3).next.CachedFrom
      ((newServeTarget hostport).lookups (cs++st.dialCalls net d1 d2 d3)) := by
  have hmeanwhile : ∀ c ∈ d2, c=.addr net ∨ c=.invalidate := fun c hc =>
    hd c (mem_append_left _ (mem_append_right _ hc))
  refine ⟨fun h => conn_dialAmong hnet h hmeanwhile,fun a => target_dialAmong net st d1 d2 d3,?_⟩
  have hnew : (newServeTarget hostport).CachedFrom [] := by
    rw [newServeTarget]
    split <;> exact fun hcur => absurd rfl hcur
  rw [next_dialAmong,hst,← calls_append]
  exact hnew.calls _

def secondUp : Network where
  lookup host := if (parseIP host).isSome then some [host] else some ["10.0.0.1","10.0.0.2"]
  probe a := a = "10.0.0.2:80"
  systemDial a := a = "10.0.0.2:80"

lemma steady_secondUp : secondUp.Steady := by
  refine ⟨fun _ => rfl,fun host h => if_pos h,fun ip => decide_eq_false fun h => ?_⟩
  have hlast : (joinHostPort ip []).getLast? = some ':' := by
    unfold joinHostPort
    split
    · rw [append_nil,← cons_append,getLast?_append]
      rfl
    · simp
  rw [h] at hlast
  exact absurd hlast (by decide)

/-- The first address is cached and has gone; the dial fails over to the second one. -/
theorem failover_succeeds_second :
    ((newServeTarget "web:80").calls [.addr { secondUp with probe := fun _ => true }]).cur = "10.0.0.1:80" ∧
    ∃ a, (((newServeTarget "web:80").calls [.addr { secondUp with probe := fun _ => true }]).dialAmong secondUp
      [.addr secondUp] [.addr secondUp] []).conn=some a := by
  refine ⟨by decide,?_⟩
  refine (failover_succeeds "web:80" [.addr { secondUp with probe := fun _ => true }] steady_secondUp
    (fun c hc => Or.inl ?_) rfl).1 ⟨"10.0.0.2",by decide,by decide⟩
  simpa using hc

end ServeTarget

end TunnnejiTail.Ipn
