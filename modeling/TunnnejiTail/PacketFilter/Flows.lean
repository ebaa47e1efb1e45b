import TunnnejiTail.PacketFilter.Filter
import TunnnejiTail.Go.Tasks

/-! The flow cache over whole runs. Filters follow each other in a chain, each over the state
of its predecessor or over a fresh one; packets go through any filter of the chain. -/
namespace TunnnejiTail.PacketFilter
open Go Netip Packet List Relation Proto

variable {T : BartLite} {f : Filter} {lru : FlowCache}

def isTracked (proto : Proto) : Bool := proto=.udp || proto=.sctp

/-- The key under which the answer to an outbound packet is looked up. -/
def outTuple (q : Parsed) : Tuple := makeTuple q.ipProto q.dst q.src

def inTuple (q : Parsed) : Tuple := makeTuple q.ipProto q.src q.dst

namespace Filter

def looksUp (f : Filter) (q : Parsed) : Bool :=
  (f.pre q).1=.noVerdict && isTracked q.ipProto &&
    (q.ipVersion=4 && f.local4 q.dst.addr || q.ipVersion=6 && f.local6 q.dst.addr)

def allows (T : BartLite) (f : Filter) (q : Parsed) : Bool :=
  matchPorts T (if q.ipVersion=4 then f.matches4 else f.matches6) q f.srcIPHasCap

def recordsOut (f : Filter) (q : Parsed) : Bool := (f.pre q).1=.noVerdict && isTracked q.ipProto

end Filter

section
variable {q : Parsed}

lemma isTracked_iff {proto : Proto} : isTracked proto ↔ proto=udp ∨ proto=sctp := by
  simp [isTracked]

variable {icmp : Proto} {loc : Addr → Bool} {ms : List Match} {hasCap : Option CapTestFunc}

lemma runInFamily_tracked (hq : isTracked q.ipProto) (hicmp : icmp=.icmpv4 ∨ icmp=.icmpv6)
    (hloc : loc q.dst.addr) : Filter.runInFamily T loc icmp ms hasCap lru q =
      Filter.flowVerdict (lru.get (inTuple q)) (matchPorts T ms q hasCap) := by
  have hproto := isTracked_iff.mp hq
  have hne : q.ipProto≠icmp ∧ q.ipProto≠tcp := by
    obtain h | h := hproto
    · obtain hi | hi := hicmp
      · rw [h,hi]; decide
      · rw [h,hi]; decide
    · obtain hi | hi := hicmp
      · rw [h,hi]; decide
      · rw [h,hi]; decide
  rw [Filter.runInFamily,if_neg (by simp [hloc]),if_neg hne.1,if_neg hne.2,if_pos hproto]
  rfl

lemma runInFamily_untracked_cache (hq : isTracked q.ipProto=false) :
    (Filter.runInFamily T loc icmp ms hasCap lru q).2=lru := by
  have hproto : ¬(q.ipProto=udp ∨ q.ipProto=sctp) := by
    rw [← isTracked_iff,hq]
    exact Bool.false_ne_true
  unfold Filter.runInFamily
  split_ifs <;> rfl

lemma runInFamily_foreign (hloc : loc q.dst.addr=false) :
    Filter.runInFamily T loc icmp ms hasCap lru q=(.noVerdict,lru) := by
  rw [Filter.runInFamily,if_pos (by simp [hloc])]

lemma pre_cases (f : Filter) (q : Parsed) :
    (f.pre q).1=.accept ∨ (f.pre q).1=.drop ∨ (f.pre q).1=.noVerdict := by
  unfold Filter.pre
  split_ifs <;> simp

lemma runIn_of_noVerdict (h : (f.pre q).1=.noVerdict) :
    f.runIn T lru q=(f.settle q (f.runInVersion T lru q).1,(f.runInVersion T lru q).2) := by
  rw [Filter.runIn,h]

lemma runInVersion_of_looksUp (h : f.looksUp q) :
    f.runInVersion T lru q=Filter.flowVerdict (lru.get (inTuple q)) (f.allows T q) := by
  simp only [Filter.looksUp,Bool.and_eq_true,Bool.or_eq_true,decide_eq_true_eq] at h
  obtain ⟨⟨_,hq⟩,⟨hv,hloc⟩ | ⟨hv,hloc⟩⟩ := h
  · rw [Filter.runInVersion,if_pos hv,Filter.allows,if_pos hv]
    exact runInFamily_tracked hq (.inl rfl) hloc
  · have h4 : q.ipVersion≠4 := by rw [hv]; decide
    rw [Filter.runInVersion,if_neg h4,if_pos hv,Filter.allows,if_neg h4]
    exact runInFamily_tracked hq (.inr rfl) hloc

/-- A packet that is not looked up leaves the cache alone, and when its protocol is tracked
no rule is tried for it either. -/
theorem runInVersion_of_not_looksUp (hpre : (f.pre q).1=.noVerdict) (h : f.looksUp q=false) :
    (f.runInVersion T lru q).2=lru ∧ (isTracked q.ipProto → (f.runInVersion T lru q).1≠.accept) := by
  unfold Filter.runInVersion Filter.runIn4 Filter.runIn6
  cases hq : isTracked q.ipProto with
  | false =>
    refine ⟨?_,fun hf => absurd hf Bool.false_ne_true⟩
    split_ifs
    · exact runInFamily_untracked_cache hq
    · exact runInFamily_untracked_cache hq
    · rfl
  | true =>
    rw [Filter.looksUp,hpre,hq] at h
    split_ifs with h4 h6
    · have hloc : f.local4 q.dst.addr=false := by simpa [h4] using h
      rw [runInFamily_foreign hloc]
      exact ⟨rfl,by simp⟩
    · have hloc : f.local6 q.dst.addr=false := by simpa [h6] using h
      rw [runInFamily_foreign hloc]
      exact ⟨rfl,by simp⟩
    · exact ⟨rfl,by simp⟩

lemma looksUp_of_not_noVerdict (h : (f.pre q).1≠.noVerdict) : f.looksUp q=false := by
  rw [Filter.looksUp,decide_eq_false h]
  rfl

lemma runIn_cache (f : Filter) (lru : FlowCache) (q : Parsed) :
    (f.runIn T lru q).2=if f.looksUp q then (lru.get (inTuple q)).2 else lru := by
  obtain hpre | hpre | hpre := pre_cases f q
  · rw [looksUp_of_not_noVerdict (by simp [hpre]),Filter.runIn,hpre]
    rfl
  · rw [looksUp_of_not_noVerdict (by simp [hpre]),Filter.runIn,hpre]
    rfl
  · rw [runIn_of_noVerdict hpre]
    by_cases h : f.looksUp q
    · rw [if_pos h,runInVersion_of_looksUp h]
      rfl
    · rw [if_neg h]
      exact (runInVersion_of_not_looksUp hpre (Bool.eq_false_iff.mpr h)).1

/-- A tracked packet that neither a match nor a hook allows is accepted only through the
cache. -/
theorem mem_keys_of_accept (hb : q.b≠[]) (hq : isTracked q.ipProto)
    (hallow : f.allows T q=false) (hhook : f.hooked q=false)
    (hacc : (f.runIn T lru q).1=.accept) : inTuple q ∈ lru.keys := by
  have hfrag : q.ipProto≠fragment := by
    obtain h | h := isTracked_iff.mp hq
    · rw [h]; decide
    · rw [h]; decide
  obtain hpre | hpre | hpre := pre_cases f q
  · rw [Filter.pre,if_neg (by simpa using hb),if_neg hfrag] at hpre
    split_ifs at hpre
  · rw [Filter.runIn,hpre] at hacc
    cases hacc
  · rw [runIn_of_noVerdict hpre,settle_eq_accept,hhook] at hacc
    have hacc' := hacc.resolve_right fun h => Bool.false_ne_true h.2
    by_cases h : f.looksUp q
    · rw [runInVersion_of_looksUp h,Filter.flowVerdict,hallow] at hacc'
      by_contra hn
      rw [Lru.get_of_not_mem hn] at hacc'
      cases hacc'
    · exact absurd hacc' ((runInVersion_of_not_looksUp hpre (Bool.eq_false_iff.mpr h)).2 hq)

lemma updateOutboundFlowState_eq (lru : FlowCache) (q : Parsed) : Filter.updateOutboundFlowState lru q =
      if isTracked q.ipProto then lru.add (outTuple q) () else lru := by
  unfold Filter.updateOutboundFlowState
  by_cases h : q.ipProto=udp ∨ q.ipProto=sctp
  · rw [if_pos h,if_pos (isTracked_iff.mpr h)]
    rfl
  · rw [if_neg h,if_neg fun ht => h (isTracked_iff.mp ht)]

lemma runOut_cache (f : Filter) (lru : FlowCache) (q : Parsed) :
    (f.runOut lru q).2=if f.recordsOut q then lru.add (outTuple q) () else lru := by
  unfold Filter.runOut Filter.recordsOut
  have hcases := pre_cases f q
  generalize f.pre q=p at hcases ⊢
  obtain ⟨r,reason⟩ := p
  obtain rfl | rfl | rfl := hcases
  · rfl
  · rfl
  · exact updateOutboundFlowState_eq lru q

end

inductive FlowEvent
  | ranOut (f : Filter) (q : Parsed)
  | updated (f : Filter) (q : Parsed)
  | ranIn (f : Filter) (q : Parsed)

/-- The filters, the newest first, the flow caches of their states, the number of states made
so far and what happened, the latest first. -/
structure Chain where
  filters : List Filter
  caches : ℕ → FlowCache
  states : ℕ
  log : List FlowEvent

def Chain.start : Chain := ⟨[],fun _ => .new,0,[]⟩

namespace Chain

def install (w : Chain) (f : Filter) : Chain :=
  { w with filters := f::w.filters, states := w.states+1 }

def call (w : Chain) (f : Filter) (lru : FlowCache) (e : FlowEvent) : Chain :=
  { w with caches := Function.update w.caches f.state lru, log := e::w.log }

end Chain

/-- A filter shares its state with the newest one or with none. -/
inductive ChainStep (T : BartLite) : Chain → Chain → Prop
  | build (w : Chain) (ms : List Match) (capTest : Option CapTestFunc) (localNets : Option IPSet)
      (share : Option Filter) (ingress linkLocal : List PacketMatch)
      (h : share=none ∨ share=w.filters.head?) : ChainStep T w
        (w.install ((new T ms capTest localNets share w.states).withHooks ingress linkLocal))
  | buildShieldsUp (w : Chain) (localNets : Option IPSet) (share : Option Filter)
      (ingress linkLocal : List PacketMatch) (h : share=none ∨ share=w.filters.head?) :
      ChainStep T w
        (w.install ((newShieldsUpFilter T localNets share w.states).withHooks ingress linkLocal))
  | runOut (w : Chain) (f : Filter) (q : Parsed) (h : f ∈ w.filters) :
      ChainStep T w (w.call f (f.runOut (w.caches f.state) q).2 (.ranOut f q))
  | update (w : Chain) (f : Filter) (q : Parsed) (h : f ∈ w.filters) : ChainStep T w
        (w.call f (Filter.updateOutboundFlowState (w.caches f.state) q) (.updated f q))
  | runIn (w : Chain) (f : Filter) (q : Parsed) (h : f ∈ w.filters) :
      ChainStep T w (w.call f (f.runIn T (w.caches f.state) q).2 (.ranIn f q))

/-- The flow entry of a state that an event uses, given the uses before it: a recorded flow,
or a flow that is looked up while it is among the 512 most recently used ones. -/
def FlowEvent.uses (s : ℕ) (before : List Tuple) : FlowEvent → List Tuple
  | .ranOut f q => if f.state=s ∧ f.recordsOut q then [outTuple q] else []
  | .updated f q => if f.state=s ∧ isTracked q.ipProto then [outTuple q] else []
  | .ranIn f q =>
    if f.state=s ∧ f.looksUp q ∧ inTuple q ∈ (recent before).take lruMax then [inTuple q] else []

def usesOf (s : ℕ) : List FlowEvent → List Tuple
  | [] => []
  | e::log => e.uses s (usesOf s log)++usesOf s log

def FlowEvent.Sends (e : FlowEvent) (f : Filter) (q : Parsed) : Prop :=
  e=.ranOut f q ∧ f.recordsOut q ∨ e=.updated f q ∧ isTracked q.ipProto

/-- What holds of every chain that is reached. -/
structure Chain.Sound (w : Chain) : Prop where
  states : ∀ f ∈ w.filters, f.state<w.states
  shields : w.filters.Pairwise fun f g => f.state=g.state → f.shieldsUp → g.shieldsUp
  fresh : ∀ s, w.states ≤ s → w.caches s=.new ∧ usesOf s w.log=[]
  maxEntries : ∀ s, (w.caches s).maxEntries=lruMax
  tracks : ∀ s, (w.caches s).Tracks (usesOf s w.log)
  sent : ∀ s, ∀ t ∈ usesOf s w.log, ∃ e ∈ w.log, ∃ f q, e.Sends f q ∧ f.state=s ∧ outTuple q=t
  senders : ∀ e ∈ w.log, ∀ f q, e.Sends f q → f ∈ w.filters

lemma sound_start : Chain.start.Sound where
  states := by simp [Chain.start]
  shields := List.Pairwise.nil
  fresh := fun _ _ => ⟨rfl,rfl⟩
  maxEntries := fun _ => rfl
  tracks := fun _ => Lru.tracks_empty _
  sent := by simp [Chain.start,usesOf]
  senders := by simp [Chain.start]

section
variable {w : Chain}

/-- A new filter keeps the chain sound when it shares no state with a filter of weaker
shields. -/
theorem Chain.Sound.install (h : w.Sound)
    (hf : f.state=w.states ∨ ∃ g, w.filters.head? = some g ∧ f.state=g.state ∧
      (f.shieldsUp → g.shieldsUp)) : (w.install f).Sound where
  states := by
    intro g hg
    obtain rfl | hg := mem_cons.mp hg
    · obtain hs | ⟨g',hg',hs,_⟩ := hf
      · exact hs ▸ Nat.lt_succ_self _
      · exact Nat.lt_succ_of_lt (hs ▸ h.states g' (mem_of_head? hg'))
    · exact Nat.lt_succ_of_lt (h.states g hg)
  shields := by
    refine pairwise_cons.mpr ⟨fun g hg hs hup => ?_,h.shields⟩
    obtain hf | ⟨g',hg',hs',himp⟩ := hf
    · exact absurd (h.states g hg) (by omega)
    · obtain ⟨rest,hrest⟩ : ∃ rest, w.filters=g'::rest := List.head?_eq_some_iff.mp hg'
      rw [hrest] at hg
      obtain rfl | hg := mem_cons.mp hg
      · exact himp hup
      · have hp := h.shields
        rw [hrest,pairwise_cons] at hp
        exact hp.1 g hg (hs'.symm.trans hs) (himp hup)
  fresh := fun s hs => h.fresh s (Nat.le_of_succ_le hs)
  maxEntries := h.maxEntries
  tracks := h.tracks
  sent := h.sent
  senders := fun e he f' q hsend => mem_cons_of_mem _ (h.senders e he f' q hsend)

variable {e : FlowEvent}

lemma call_caches_self :
    (w.call f lru e).caches f.state=lru := Function.update_self ..

variable {s : ℕ}

lemma call_caches_of_ne
    (h : s≠f.state) : (w.call f lru e).caches s=w.caches s := Function.update_of_ne h ..

def FlowEvent.filter : FlowEvent → Filter
  | .ranOut f _ => f
  | .updated f _ => f
  | .ranIn f _ => f

lemma uses_of_ne (h : e.filter.state≠s) (before : List Tuple) : e.uses s before=[] := by
  cases e with
  | ranOut f q => exact if_neg fun hs => h hs.1
  | updated f q => exact if_neg fun hs => h hs.1
  | ranIn f q => exact if_neg fun hs => h hs.1

lemma Sends_filter {q : Parsed} (h : e.Sends f q) : e.filter=f := by
  obtain ⟨rfl,_⟩ | ⟨rfl,_⟩ := h
  · rfl
  · rfl

lemma sent_of_uses {before : List Tuple} {t : Tuple} (h : t ∈ e.uses s before) :
    t ∈ before ∨ ∃ f q, e.Sends f q ∧ f.state=s ∧ outTuple q=t := by
  cases e with
  | ranOut f q =>
    rw [FlowEvent.uses] at h
    split_ifs at h with hc
    · exact .inr ⟨f,q,.inl ⟨rfl,hc.2⟩,hc.1,(mem_singleton.mp h).symm⟩
    · cases h
  | updated f q =>
    rw [FlowEvent.uses] at h
    split_ifs at h with hc
    · exact .inr ⟨f,q,.inr ⟨rfl,hc.2⟩,hc.1,(mem_singleton.mp h).symm⟩
    · cases h
  | ranIn f q =>
    rw [FlowEvent.uses] at h
    split_ifs at h with hc
    · rw [mem_singleton.mp h]
      exact .inl (mem_recent.mp (mem_of_mem_take hc.2.2))
    · cases h

lemma Chain.Sound.call (h : w.Sound) (hf : f ∈ w.filters)
    (he : e.filter=f) (hmax : lru.maxEntries=lruMax)
    (htracks : lru.Tracks (usesOf f.state (e::w.log))) : (w.call f lru e).Sound where
  states := h.states
  shields := h.shields
  fresh := by
    intro s hs
    have hlt := h.states f hf
    have hne : s≠f.state := fun heq => absurd (heq ▸ hs : w.states≤f.state) (by omega)
    refine ⟨(call_caches_of_ne hne).trans (h.fresh s hs).1,?_⟩
    change e.uses s _++usesOf s w.log=[]
    rw [uses_of_ne (by rw [he]; exact hne.symm),(h.fresh s hs).2]
    rfl
  maxEntries := by
    intro s
    by_cases hs : s=f.state
    · rw [hs,call_caches_self]
      exact hmax
    · rw [call_caches_of_ne hs]
      exact h.maxEntries s
  tracks := by
    intro s
    by_cases hs : s=f.state
    · rw [hs,call_caches_self]
      exact htracks
    · rw [call_caches_of_ne hs]
      change (w.caches s).Tracks (e.uses s _++usesOf s w.log)
      rw [uses_of_ne (by rw [he]; exact Ne.symm hs)]
      exact h.tracks s
  sent := by
    intro s t ht
    have hold (ht : t ∈ usesOf s w.log) : ∃ e' ∈ e::w.log, ∃ f q,
        e'.Sends f q ∧ f.state=s ∧ outTuple q=t := by
      obtain ⟨e',he',hsend⟩ := h.sent s t ht
      exact ⟨e',mem_cons_of_mem _ he',hsend⟩
    obtain ht | ht := mem_append.mp ht
    · obtain ht | hsend := sent_of_uses ht
      · exact hold ht
      · exact ⟨e,mem_cons_self,hsend⟩
    · exact hold ht
  senders := by
    intro e' he' f' q hsend
    obtain rfl | he' := mem_cons.mp he'
    · rw [← Sends_filter hsend,he]
      exact hf
    · exact h.senders e' he' f' q hsend

lemma limit_lruMax (l : List Tuple) : limit lruMax l=l.take lruMax := rfl

lemma tracks_get {uses : List Tuple} (hmax : lru.maxEntries=lruMax)
    (h : lru.Tracks uses) (t : Tuple) : (lru.get t).2.maxEntries=lruMax ∧ (lru.get t).2.Tracks
      (if t ∈ (recent uses).take lruMax then t::uses else uses) := by
  have hkeys : lru.keys=(recent uses).take lruMax := by rw [h,hmax,limit_lruMax]
  rw [← hkeys]
  by_cases ht : t ∈ lru.keys
  · obtain ⟨v,hv⟩ := Lru.get_of_mem ht
    rw [hv,if_pos ht]
    exact ⟨hmax,h.add t v⟩
  · rw [Lru.get_of_not_mem ht,if_neg ht]
    exact ⟨hmax,h⟩

lemma Chain.Sound.recorded (h : w.Sound) (hf : f ∈ w.filters) {q : Parsed}
    (he : e.filter=f) {c : Prop} [Decidable c]
    (hlru : lru=if c then (w.caches f.state).add (outTuple q) () else w.caches f.state)
    (huses : ∀ before, e.uses f.state before=if c then [outTuple q] else []) : (w.call f lru e).Sound := by
  subst hlru
  refine h.call hf he ?_ ?_
  · split_ifs
    · exact h.maxEntries _
    · exact h.maxEntries _
  · rw [usesOf,huses]
    split_ifs
    · exact (h.tracks _).add _ _
    · exact h.tracks _

lemma Chain.Sound.lookedUp (h : w.Sound) (hf : f ∈ w.filters) (q : Parsed) :
    (w.call f (f.runIn T (w.caches f.state) q).2 (.ranIn f q)).Sound := by
  have hget := tracks_get (h.maxEntries f.state) (h.tracks f.state) (inTuple q)
  refine h.call hf rfl ?_ ?_
  · rw [runIn_cache]
    split_ifs
    · exact hget.1
    · exact h.maxEntries _
  · rw [runIn_cache,usesOf,FlowEvent.uses]
    by_cases hlook : f.looksUp q
    · rw [if_pos hlook]
      simp only [hlook,true_and]
      split_ifs with hin
      · rw [if_pos hin] at hget
        exact hget.2
      · rw [if_neg hin] at hget
        exact hget.2
    · rw [if_neg hlook,if_neg fun hc => hlook hc.2.1]
      exact h.tracks _

lemma state_newShieldsUpFilter (T : BartLite) (localNets : Option IPSet) (g : Filter) (fresh : ℕ) :
    (newShieldsUpFilter T localNets (some g) fresh).state = if g.shieldsUp then g.state else fresh := by
  cases hup : g.shieldsUp <;> simp [newShieldsUpFilter,new,stateOf,Option.filter,hup]

lemma Chain.Sound.step (h : w.Sound) {w' : Chain} (hstep : ChainStep T w w') : w'.Sound := by
  cases hstep with
  | build ms capTest localNets share ingress linkLocal hshare =>
    refine h.install ?_
    obtain rfl | rfl := hshare
    · exact .inl rfl
    · cases hhead : w.filters.head? with
      | none => exact .inl rfl
      | some g => exact .inr ⟨g,rfl,rfl,fun hup => absurd hup Bool.false_ne_true⟩
  | buildShieldsUp localNets share ingress linkLocal hshare =>
    refine h.install ?_
    obtain rfl | rfl := hshare
    · exact .inl rfl
    · cases hhead : w.filters.head? with
      | none => exact .inl rfl
      | some g =>
        have hstate := state_newShieldsUpFilter T localNets g w.states
        cases hup : g.shieldsUp with
        | false => exact .inl (hstate.trans (if_neg (by simp [hup])))
        | true => exact .inr ⟨g,rfl,hstate.trans (if_pos hup),fun _ => hup⟩
  | runOut f q hf =>
    refine h.recorded hf rfl (runOut_cache f _ q) fun _ => ?_
    simp only [FlowEvent.uses,true_and]
  | update f q hf =>
    refine h.recorded hf rfl (updateOutboundFlowState_eq _ q) fun _ => ?_
    simp only [FlowEvent.uses,true_and]
  | runIn f q hf => exact h.lookedUp hf q

lemma Chain.Sound.run {w' : Chain} (h : w.Sound)
    (hrun : ReflTransGen (ChainStep T) w w') : w'.Sound :=
  reachable_invariant hrun h fun _ _ hstep hs => hs.step hstep

/-- The packets have the same protocol, and addresses and ports of one are those of the other
reversed; the addresses are compared in their 16-byte form. -/
structure Reverses (q' q : Parsed) : Prop where
  proto : q'.ipProto=q.ipProto
  dst : q'.dst.addr.as16=q.src.addr.as16
  src : q'.src.addr.as16=q.dst.addr.as16
  dstPort : q'.dst.port=q.src.port
  srcPort : q'.src.port=q.dst.port

lemma reverses_of_tuple {q q' : Parsed} (h : outTuple q'=inTuple q) : Reverses q' q := by
  injection h with h1 h2 h3 h4 h5
  exact ⟨h5,h1,h2,h3,h4⟩

/-- A tracked packet that neither a match nor a hook allows comes in only as the answer to
an outbound packet whose flow is among the 512 most recently used ones of the state. Under a
shields-up filter that flow was not recorded by a filter without shields, unless one that
was built later over the same state. -/
theorem unsolicited_never_enters (hrun : Relation.ReflTransGen (ChainStep T) Chain.start w)
    {f : Filter} (hf : f ∈ w.filters) {q : Parsed} (hb : q.b≠[]) (hq : isTracked q.ipProto)
    (hallow : f.allows T q=false) (hhook : f.hooked q=false)
    (hacc : (f.runIn T (w.caches f.state) q).1=.accept) :
    (∃ e ∈ w.log, ∃ f' q', e.Sends f' q' ∧ f'.state=f.state ∧ Reverses q' q) ∧
      inTuple q ∈ (recent (usesOf f.state w.log)).take 512 ∧
      ∀ newer older, w.filters=newer++f::older → f.shieldsUp →
        ∀ e ∈ w.log, ∀ f' q', e.Sends f' q' → f'.state=f.state → f'.shieldsUp ∨ f' ∈ newer := by
  have h := sound_start.run hrun
  have hmem : inTuple q ∈ (recent (usesOf f.state w.log)).take 512 := by
    have hkey := mem_keys_of_accept hb hq hallow hhook hacc
    rw [h.tracks f.state,h.maxEntries,limit_lruMax] at hkey
    exact hkey
  refine ⟨?_,hmem,?_⟩
  · obtain ⟨e,he,f',q',hsend,hstate,ht⟩ :=
      h.sent _ _ (mem_recent.mp (mem_of_mem_take hmem))
    exact ⟨e,he,f',q',hsend,hstate,reverses_of_tuple ht⟩
  · intro newer older hfilters hup e he f' q' hsend hstate
    have hf' := h.senders e he f' q' hsend
    have hshields := h.shields
    rw [hfilters] at hf' hshields
    obtain hf' | hf' := mem_append.mp hf'
    · exact .inr hf'
    · obtain rfl | hf' := mem_cons.mp hf'
      · exact .inl hup
      · have hpair := (pairwise_cons.mp (pairwise_append.mp hshields).2.1).1
        exact .inl (hpair f' hf' hstate.symm hup)

/-- A packet that is looked up enters exactly if its flow is among the 512 most recently used ones of the
state, or a match or a hook allows it. -/
theorem looked_up_enters_iff (hrun : ReflTransGen (ChainStep T) Chain.start w) {q : Parsed} (hlook : f.looksUp q) :
    (f.runIn T (w.caches f.state) q).1=.accept ↔
      inTuple q ∈ (recent (usesOf f.state w.log)).take 512 ∨ f.allows T q ∨ f.hooked q := by
  have h := sound_start.run hrun
  have hkeys : (w.caches f.state).keys=(recent (usesOf f.state w.log)).take 512 := by
    rw [h.tracks f.state,h.maxEntries,limit_lruMax]
    rfl
  have hpre : (f.pre q).1=.noVerdict := by
    by_contra hne
    rw [looksUp_of_not_noVerdict hne] at hlook
    cases hlook
  rw [runIn_of_noVerdict hpre,settle_eq_accept,runInVersion_of_looksUp hlook,Filter.flowVerdict,← hkeys]
  by_cases hin : inTuple q ∈ (w.caches f.state).keys
  · obtain ⟨v,hv⟩ := Lru.get_of_mem hin
    simp [hv,hin]
  · rw [Lru.get_of_not_mem hin]
    cases hallow : f.allows T q <;> simp [hin,Filter.verdict]

end

def everywhere : Option IPSet := some (IPSet.of [.v4 0 (bits4 0),.v6 0 (bits6 0)])

/-- A UDP packet with eight bytes of header, as Decode returns it. -/
def udpParsed (version : UInt8) (b : Bytes) (subofs : ℕ) (src dst : AddrPort) : Parsed where
  b := b
  subofs := subofs
  dataofs := subofs+8
  length := b.length
  ipVersion := version
  ipProto := .udp
  src := src
  dst := dst

def queryBytes : Bytes :=
  [0x45,0,0,28,0,0,0,0,64,17,0,0,100,64,0,1,1,2,3,4,0,9,0,53,0,8,0,0]

def query : Parsed := udpParsed 4 queryBytes 20 ⟨.v4 0x64400001,9⟩ ⟨.v4 0x01020304,53⟩

def replyBytes : Bytes :=
  [0x45,0,0,28,0,0,0,0,64,17,0,0,1,2,3,4,100,64,0,1,0,53,0,9,0,8,0,0]

def reply : Parsed := udpParsed 4 replyBytes 20 ⟨.v4 0x01020304,53⟩ ⟨.v4 0x64400001,9⟩

def mappedBytes : Bytes :=
  [0x60,0,0,0,0,8,17,64,0,0,0,0,0,0,0,0,0,0,0xff,0xff,1,2,3,4,
    0,0,0,0,0,0,0,0,0,0,0xff,0xff,100,64,0,1,0,53,0,9,0,8,0,0]

def mappedReply : Parsed :=
  udpParsed 6 mappedBytes 40 ⟨.v6 0xffff01020304 [],53⟩ ⟨.v6 0xffff64400001 [],9⟩

def closedFilter : Filter := (new BartLite.scan [] none everywhere none 0).withHooks [] []

def shieldsFilter : Filter := (newShieldsUpFilter BartLite.scan everywhere none 0).withHooks [] []

def loweredFilter : Filter :=
  (new BartLite.scan [] none everywhere (some shieldsFilter) 1).withHooks [] []

def afterQuery : Chain := (Chain.start.install closedFilter).call closedFilter
  (Filter.updateOutboundFlowState .new query) (.updated closedFilter query)

lemma afterQuery_reached : ReflTransGen (ChainStep BartLite.scan) Chain.start afterQuery :=
  (ReflTransGen.single (.build .start [] none everywhere none [] [] (.inl rfl))).tail
    (.update _ closedFilter query mem_cons_self)

def afterLowered : Chain := ((Chain.start.install shieldsFilter).install loweredFilter).call
  loweredFilter (Filter.updateOutboundFlowState .new query) (.updated loweredFilter query)

lemma afterLowered_reached : ReflTransGen (ChainStep BartLite.scan) Chain.start afterLowered :=
  ((ReflTransGen.single (.buildShieldsUp .start everywhere none [] [] (.inl rfl))).tail
    (.build _ [] none everywhere (some shieldsFilter) [] [] (.inr rfl))).tail
    (.update _ loweredFilter query mem_cons_self)

theorem unsolicited_never_enters_reply :
    (closedFilter.runIn BartLite.scan (afterQuery.caches closedFilter.state) reply).1=.accept ∧
      inTuple reply ∈ (recent (usesOf closedFilter.state afterQuery.log)).take 512 :=
  ⟨by decide,(unsolicited_never_enters afterQuery_reached mem_cons_self (by decide) (by decide)
    (by decide) rfl (by decide)).2.1⟩

theorem looked_up_enters_reply :
    (closedFilter.runIn BartLite.scan (afterQuery.caches closedFilter.state) reply).1=.accept :=
  (looked_up_enters_iff afterQuery_reached (by decide)).mpr (.inl (by decide))

/-- A packet over IPv6 comes in as the answer to one over IPv4, and a shields-up filter
accepts a flow that was recorded after the shields were lowered. -/
theorem unsolicited_enters :
    (Parsed.decode {} mappedBytes=.ok mappedReply ∧ closedFilter.allows BartLite.scan mappedReply=false ∧
      Relation.ReflTransGen (ChainStep BartLite.scan) Chain.start afterQuery ∧
      (closedFilter.runIn BartLite.scan (afterQuery.caches closedFilter.state) mappedReply).1=.accept ∧
      ∀ e ∈ afterQuery.log, ∀ f q, e.Sends f q → q.dst.addr≠mappedReply.src.addr) ∧
    (Parsed.decode {} replyBytes=.ok reply ∧ shieldsFilter.allows BartLite.scan reply=false ∧
      Relation.ReflTransGen (ChainStep BartLite.scan) Chain.start afterLowered ∧
      shieldsFilter ∈ afterLowered.filters ∧ shieldsFilter.shieldsUp ∧
      (shieldsFilter.runIn BartLite.scan (afterLowered.caches shieldsFilter.state) reply).1=.accept ∧
      ∀ e ∈ afterLowered.log, ∀ f q, e.Sends f q → f.shieldsUp=false) := by
  refine ⟨⟨by decide,by decide,afterQuery_reached,by decide,?_⟩,by decide,by decide,
    afterLowered_reached,.tail _ (.head _),rfl,by decide,?_⟩
  · intro e he f q hsend
    rw [mem_singleton.mp he] at hsend
    obtain ⟨hno,_⟩ | ⟨hq,_⟩ := hsend
    · cases hno
    · cases hq
      decide
  · intro e he f q hsend
    rw [mem_singleton.mp he] at hsend
    obtain ⟨hno,_⟩ | ⟨hq,_⟩ := hsend
    · cases hno
    · cases hq
      rfl

end TunnnejiTail.PacketFilter
