import TunnnejiTail.Go.Tasks
import TunnnejiTail.Cli.Client
import TunnnejiTail.Netstack.Crypto

/-! The sessions of a UDP port of a client. The loop of handleUDP makes them, one goroutine of
udpRemoteToLocal for each carries the answers, and both may remove and close one. -/
namespace TunnnejiTail.Cli
open Go Netip Netstack TunnnejiTail.Types List Function AList Option

structure SameSource (a b : AddrPort) : Prop where
  zero : a.addr=.zero ↔ b.addr=.zero
  ip : a.addr.as16=b.addr.as16
  zone : udpZone a.addr=udpZone b.addr
  port : a.port=b.port

lemma append_zone_injective {ip ip' zone zone' : Str} (hip : '%' ∉ ip) (hip' : '%' ∉ ip')
    (h : (if zone≠[] then ip ++ '%'::zone else ip)=if zone'≠[] then ip' ++ '%'::zone' else ip') :
    ip=ip' ∧ zone=zone' := by
  by_cases hz : zone=[]
  · by_cases hz' : zone'=[]
    · rw [if_neg (not_not.mpr hz),if_neg (not_not.mpr hz')] at h
      exact ⟨h,hz.trans hz'.symm⟩
    · rw [if_neg (not_not.mpr hz),if_pos hz'] at h
      exact absurd (h ▸ mem_append_right _ mem_cons_self) hip
  · by_cases hz' : zone'=[]
    · rw [if_pos hz,if_neg (not_not.mpr hz')] at h
      exact absurd (h.symm ▸ mem_append_right _ mem_cons_self) hip'
    · rw [if_pos hz,if_pos hz'] at h
      have hcut := congrArg (cut '%') h
      rw [cut_append _ _ _ hip,cut_append _ _ _ hip'] at hcut
      exact Prod.mk.inj (some.inj hcut)

lemma udpAddrString_eq_iff {a b : AddrPort} : udpAddrString a=udpAddrString b ↔ SameSource a b := by
  have hcolon (n : ℕ) : ':' ∉ itoa n := not_mem_itoa (by decide) (by decide)
  have hpercent (a : AddrPort) : '%' ∉ (if a.addr=.zero then [] else ipString a.addr.as16) := by
    split
    · exact not_mem_nil
    · exact not_mem_ipString (by decide) (by decide) (by decide) (by decide)
  have hne (ip : BitVec 128) : ipString ip≠[] := by
    intro h
    have hparse := parseIP_ipString ip
    rw [h] at hparse
    cases hparse
  constructor
  · intro h
    obtain ⟨hhost,hport⟩ := joinHostPort_injective (hcolon _) (hcolon _) h
    obtain ⟨hip,hzone⟩ := append_zone_injective (hpercent a) (hpercent b) hhost
    have hport' : a.port=b.port := by
      have hatoi := congrArg atoi hport
      rw [atoi_itoa,atoi_itoa] at hatoi
      have hlt := a.port.toNat_lt
      have hlt' := b.port.toNat_lt
      have hmax : (maxInt : ℤ)=2^63-1 := by decide
      rw [if_pos (by omega),if_pos (by omega)] at hatoi
      exact UInt16.toNat.inj (Int.ofNat.inj (some.inj hatoi))
    by_cases hza : a.addr=.zero
    · by_cases hzb : b.addr=.zero
      · exact ⟨iff_of_true hza hzb,by rw [hza,hzb],hzone,hport'⟩
      · rw [if_pos hza,if_neg hzb] at hip
        exact absurd hip.symm (hne _)
    · by_cases hzb : b.addr=.zero
      · rw [if_neg hza,if_pos hzb] at hip
        exact absurd hip (hne _)
      · rw [if_neg hza,if_neg hzb] at hip
        exact ⟨iff_of_false hza hzb,ipString_injective hip,hzone,hport'⟩
  · rintro ⟨hzero,hip,hzone,hport⟩
    simp only [udpAddrString,hzero,hip,hzone,hport]

/-- Where handleUDP is: it reads, it has the session of a datagram from a source, its write has failed, or
it has taken that session out of the map. -/
inductive Loop
  | reading
  | writing (src : AddrPort) (id : ℕ) (datagram : Bytes)
  | removing (src : AddrPort) (id : ℕ)
  | closing (id : ℕ)
  | returned

inductive Routine
  | reading
  | removing
  | closing
  | ended
  deriving DecidableEq

/-- The sessions that were made, numbered as they came, and the sources they were made for; the map, which
sessions' remotes are closed, where the goroutines are, and what was written to either side. -/
structure Client where
  made : List UDPSession := []
  sources : List AddrPort := []
  sessions : GoMap Str ℕ := ∅
  closed : ℕ → Bool := fun _ => false
  loop : Loop := .reading
  routine : ℕ → Routine := fun _ => .reading
  forwarded : List (AddrPort × ℕ × Bytes) := []
  answered : List (ℕ × Bytes × AddrPort) := []

namespace Client
variable (x : Chacha20) (key : Raw32) (pe : PortEntry)

/-- What is written for a datagram that came from the remote of a session; one that does not decrypt is
skipped. -/
def toLocal (sess : UDPSession) (datagram : Bytes) : Except Fault (Option Bytes) :=
  if sess.encrypted then decryptUDPPacket x datagram key else .ok (some datagram)

/-- What is written to the remote for a datagram, with the nonce that was drawn. -/
def toRemote (nonce datagram : Bytes) : Except Fault (Option Bytes) :=
  if pe.password≠[] then encryptUDPPacket x nonce datagram key else .ok (some datagram)

/-- Steps of the loop and of the goroutines. What is done under the mutex is one step. -/
inductive Step : Client → Client → Prop
  | readFailed {c : Client} (h : c.loop=.reading) : Step c { c with loop := .returned }
  | timedOut {c : Client} (h : c.loop=.reading) : Step c c
  | dropped {c : Client} (h : c.loop=.reading) (src : AddrPort) (refused : clientAllows pe.accept src.addr=false) :
    Step c c
  | found {c : Client} (h : c.loop=.reading) (src : AddrPort) (allowed : clientAllows pe.accept src.addr=true)
    (datagram : Bytes) (id : ℕ) (lookup : c.sessions.lookup (udpAddrString src)=some id) :
    Step c { c with loop := .writing src id datagram }
  | dialFailed {c : Client} (h : c.loop=.reading) (src : AddrPort)
    (allowed : clientAllows pe.accept src.addr=true)
    (lookup : c.sessions.lookup (udpAddrString src)=none) : Step c c
  | dialled {c : Client} (h : c.loop=.reading) (src : AddrPort) (allowed : clientAllows pe.accept src.addr=true)
    (datagram : Bytes) (lookup : c.sessions.lookup (udpAddrString src)=none) :
    Step c { c with
      made := c.made++[⟨c.made.length,src,pe.password≠[]⟩]
      sources := c.sources++[src]
      sessions := c.sessions.insert (udpAddrString src) c.made.length
      loop := .writing src c.made.length datagram
      routine := Function.update c.routine c.made.length .reading }
  | encryptFailed {c : Client} (src : AddrPort) (id : ℕ) (datagram : Bytes) (h : c.loop=.writing src id datagram) :
    Step c { c with loop := .reading }
  | wrote {c : Client} (src : AddrPort) (id : ℕ) (datagram nonce p : Bytes) (h : c.loop=.writing src id datagram)
    (sent : toRemote x key pe nonce datagram=.ok (some p)) :
    Step c { c with loop := .reading,forwarded := c.forwarded++[(src,id,p)] }
  | writeFailed {c : Client} (src : AddrPort) (id : ℕ) (datagram : Bytes) (h : c.loop=.writing src id datagram) :
    Step c { c with loop := .removing src id }
  | removed {c : Client} (src : AddrPort) (id : ℕ) (h : c.loop=.removing src id) :
    Step c { c with sessions := c.sessions.erase (udpAddrString src),loop := .closing id }
  | closed {c : Client} (id : ℕ) (h : c.loop=.closing id) :
    Step c { c with closed := Function.update c.closed id true,loop := .reading }
  | skipped {c : Client} (id : ℕ) (sess : UDPSession) (made : c.made[id]? = some sess)
    (h : c.routine id=.reading) (datagram : Bytes) (got : toLocal x key sess datagram=.ok none) : Step c c
  | answered {c : Client} (id : ℕ) (sess : UDPSession) (made : c.made[id]? = some sess)
    (h : c.routine id=.reading) (datagram p : Bytes) (got : toLocal x key sess datagram=.ok (some p)) :
    Step c { c with answered := c.answered++[(id,p,sess.localAddr)] }
  | answerFailed {c : Client} (id : ℕ) (sess : UDPSession) (made : c.made[id]? = some sess)
    (h : c.routine id=.reading) (datagram p : Bytes) (got : toLocal x key sess datagram=.ok (some p)) :
    Step c { c with
      answered := c.answered++[(id,p,sess.localAddr)]
      routine := Function.update c.routine id .removing }
  | remoteFailed {c : Client} (id : ℕ) (sess : UDPSession) (made : c.made[id]? = some sess)
    (h : c.routine id=.reading) : Step c { c with routine := Function.update c.routine id .removing }
  | left {c : Client} (id : ℕ) (sess : UDPSession) (made : c.made[id]? = some sess) (h : c.routine id=.removing) :
    Step c { c with
      sessions := if c.sessions.lookup (udpAddrString sess.localAddr)=some id then
        c.sessions.erase (udpAddrString sess.localAddr) else c.sessions
      routine := Function.update c.routine id .closing }
  | ended {c : Client} (id : ℕ) (sess : UDPSession) (made : c.made[id]? = some sess) (h : c.routine id=.closing) :
    Step c { c with
      closed := Function.update c.closed id true
      routine := Function.update c.routine id .ended }

/-- The loop has a session for its source, and the map has no other one for it. -/
def Holds (c : Client) (src : AddrPort) (id : ℕ) : Prop :=
  (∃ sess, c.made[id]? = some sess ∧ SameSource sess.localAddr src) ∧
    ∀ id', c.sessions.lookup (udpAddrString src)=some id' → id'=id

def HoldsNow (c : Client) : Loop → Prop
  | .writing src id _ => c.Holds src id
  | .removing src id => c.Holds src id
  | .closing id => id < c.made.length
  | _ => True

structure Sound (c : Client) : Prop where
  sources : c.sources=c.made.map UDPSession.localAddr
  fresh : ∀ id, c.made.length ≤ id → c.closed id=false
  mapped : ∀ k id, c.sessions.lookup k=some id → ∃ sess, c.made[id]? = some sess ∧ udpAddrString sess.localAddr=k
  inUse : ∀ k id, c.sessions.lookup k=some id →
    c.closed id=false ∧ (c.routine id=.reading ∨ c.routine id=.removing) ∧ c.loop≠.closing id
  held : ∀ id sess, c.made[id]? = some sess → c.closed id=false →
    c.sessions.lookup (udpAddrString sess.localAddr)=some id ∨ c.routine id=.closing ∨ c.loop=.closing id
  ended : ∀ id, id < c.made.length → c.routine id=.ended → c.closed id=true
  loop : c.HoldsNow c.loop
  answered : ∀ id p a, (id,p,a) ∈ c.answered → c.sources[id]? = some a
  forwarded : ∀ src id p, (src,id,p) ∈ c.forwarded → ∃ a, c.sources[id]? = some a ∧ SameSource a src

variable {x key pe} {c c' : Client}

lemma sound_empty : Sound {} := by
  refine ⟨rfl,fun _ _ => rfl,?_,?_,?_,?_,trivial,?_,?_⟩
  · intro k id h
    cases h
  · intro k id h
    cases h
  · intro id sess h
    cases h
  · intro id h
    cases h
  · intro id p a h
    cases h
  · intro src id p h
    cases h

section
variable (h : Sound c)
include h

lemma Sound.setLoop (hnow : ∀ id, c.loop≠.closing id) {l : Loop} (hl : ∀ id, l≠.closing id)
    (hholds : c.HoldsNow l) : Sound { c with loop := l } := by
  refine ⟨h.sources,h.fresh,h.mapped,fun k id hk => ?_,fun id sess hid hopen => ?_,h.ended,?_,h.answered,h.forwarded⟩
  · obtain ⟨hopen,hroutine,-⟩ := h.inUse k id hk
    exact ⟨hopen,hroutine,hl id⟩
  · rcases h.held id sess hid hopen with hmap | hclosing | hloop
    · exact Or.inl hmap
    · exact Or.inr (Or.inl hclosing)
    · exact absurd hloop (hnow id)
  · cases l with
    | reading => trivial
    | writing src id d => exact hholds
    | removing src id => exact hholds
    | closing id => exact absurd rfl (hl id)
    | returned => trivial

variable {src : AddrPort}

lemma Sound.dialled (hloop : c.loop=.reading)
    (hnone : c.sessions.lookup (udpAddrString src)=none) (encrypted : Bool) (datagram : Bytes) :
    Sound { c with
      made := c.made++[⟨c.made.length,src,encrypted⟩]
      sources := c.sources++[src]
      sessions := c.sessions.insert (udpAddrString src) c.made.length
      loop := .writing src c.made.length datagram
      routine := Function.update c.routine c.made.length .reading } := by
  have hold {id : ℕ} {sess : UDPSession} (hid : c.made[id]? = some sess) (new : UDPSession) :
      (c.made++[new])[id]? = some sess := by
    rw [List.getElem?_append_left (List.getElem?_eq_some_iff.mp hid).1,hid]
  have hlt {id : ℕ} {sess : UDPSession} (hid : c.made[id]? = some sess) : id < c.made.length :=
    (List.getElem?_eq_some_iff.mp hid).1
  have hnew (new : UDPSession) : (c.made++[new])[c.made.length]? = some new := List.getElem?_concat_length
  have hsource {id : ℕ} {a : AddrPort} (hid : c.sources[id]? = some a) : (c.sources++[src])[id]? = some a := by
    rw [List.getElem?_append_left (List.getElem?_eq_some_iff.mp hid).1,hid]
  refine ⟨?_,fun id hid => ?_,fun k id hk => ?_,fun k id hk => ?_,fun id sess hid hopen => ?_,fun id hid hend => ?_,
    ⟨?_,fun id hid => ?_⟩,fun id p a ha => hsource (h.answered id p a ha),fun a id p hf => ?_⟩
  · change c.sources++[src]=(c.made++[_]).map _
    rw [h.sources,map_append]
    rfl
  · refine h.fresh id ?_
    rw [length_append] at hid
    omega
  · rcases of_lookup_insert hk with ⟨rfl,rfl⟩ | ⟨-,hk⟩
    · exact ⟨_,hnew _,rfl⟩
    · obtain ⟨sess,hid,hs⟩ := h.mapped k id hk
      exact ⟨sess,hold hid _,hs⟩
  · refine ⟨?_,?_,?_⟩
    · rcases of_lookup_insert hk with ⟨rfl,rfl⟩ | ⟨-,hk⟩
      · exact h.fresh _ (Nat.le_refl _)
      · exact (h.inUse k id hk).1
    · rcases of_lookup_insert hk with ⟨rfl,rfl⟩ | ⟨-,hk⟩
      · exact Or.inl (update_self ..)
      · obtain ⟨sess,hid,-⟩ := h.mapped k id hk
        dsimp only
        rw [update_of_ne (Nat.ne_of_lt (hlt hid))]
        exact (h.inUse k id hk).2.1
    · intro hclosing
      cases hclosing
  · by_cases hid' : id=c.made.length
    · rw [hid',hnew] at hid
      cases hid
      rw [hid']
      exact Or.inl (lookup_insert _)
    · have hmade : c.made[id]? = some sess := by
        have hbound := (List.getElem?_eq_some_iff.mp hid).1
        rw [length_append,length_singleton] at hbound
        rwa [List.getElem?_append_left (by omega)] at hid
      rcases h.held id sess hmade hopen with hmap | hclosing | hnow
      · refine Or.inl ((lookup_insert_ne ?_).trans hmap)
        intro hkey
        rw [hkey,hnone] at hmap
        cases hmap
      · refine Or.inr (Or.inl ?_)
        exact (update_of_ne hid' _ _).trans hclosing
      · cases hloop.symm.trans hnow
  · change Function.update c.routine c.made.length .reading id=.ended at hend
    by_cases hid' : id=c.made.length
    · rw [hid',update_self] at hend
      cases hend
    · rw [update_of_ne hid'] at hend
      rw [length_append,length_singleton] at hid
      exact h.ended id (by omega) hend
  · exact ⟨_,hnew _,⟨Iff.rfl,rfl,rfl,rfl⟩⟩
  · rw [lookup_insert] at hid
    exact (some.inj hid).symm
  · obtain ⟨a',ha',hsame⟩ := h.forwarded a id p hf
    exact ⟨a',hsource ha',hsame⟩

variable {id : ℕ}

lemma Sound.removed (hloop : c.loop=.removing src id) :
    Sound { c with sessions := c.sessions.erase (udpAddrString src),loop := .closing id } := by
  have hholds := h.loop
  rw [hloop] at hholds
  obtain ⟨⟨sess,hsess,hsame⟩,honly⟩ := hholds
  have hkeep {k : Str} {id' : ℕ} (hk : (c.sessions.erase (udpAddrString src)).lookup k=some id') :
      k≠udpAddrString src ∧ c.sessions.lookup k=some id' := by
    by_cases hkey : k=udpAddrString src
    · rw [hkey,lookup_erase] at hk
      cases hk
    · rw [lookup_erase_ne hkey] at hk
      exact ⟨hkey,hk⟩
  refine ⟨h.sources,h.fresh,fun k id' hk => h.mapped k id' (hkeep hk).2,fun k id' hk => ?_,
    fun id' sess' hid' hopen => ?_,h.ended,(List.getElem?_eq_some_iff.mp hsess).1,h.answered,h.forwarded⟩
  · obtain ⟨hkey,hk⟩ := hkeep hk
    obtain ⟨hopen,hroutine,-⟩ := h.inUse k id' hk
    refine ⟨hopen,hroutine,fun hclosing => hkey ?_⟩
    cases hclosing
    obtain ⟨sess',hsess',hk'⟩ := h.mapped k _ hk
    cases hsess'.symm.trans hsess
    rw [← hk',udpAddrString_eq_iff]
    exact hsame
  · by_cases hid : id'=id
    · exact Or.inr (Or.inr (congrArg Loop.closing hid.symm))
    · rcases h.held id' sess' hid' hopen with hmap | hclosing | hnow
      · refine Or.inl ((lookup_erase_ne ?_).trans hmap)
        intro hkey
        rw [hkey] at hmap
        exact hid (honly id' hmap)
      · exact Or.inr (Or.inl hclosing)
      · cases hloop.symm.trans hnow

lemma Sound.closed (hloop : c.loop=.closing id) :
    Sound { c with closed := Function.update c.closed id true,loop := .reading } := by
  have hbound := h.loop
  rw [hloop] at hbound
  have hstill {id' : ℕ} (hid : id'≠id) : Function.update c.closed id true id'=c.closed id' :=
    update_of_ne hid _ _
  refine ⟨h.sources,fun id' hid => ?_,h.mapped,fun k id' hk => ?_,fun id' sess hid hopen => ?_,
    fun id' hid hend => ?_,trivial,h.answered,h.forwarded⟩
  · exact (hstill (Nat.ne_of_gt (Nat.lt_of_lt_of_le hbound hid))).trans (h.fresh id' hid)
  · obtain ⟨hopen,huse,hnot⟩ := h.inUse k id' hk
    have hne : id'≠id := by
      rintro rfl
      exact hnot hloop
    refine ⟨(hstill hne).trans hopen,huse,fun hclosing => ?_⟩
    cases hclosing
  · have hne : id'≠id := by
      rintro rfl
      dsimp only at hopen
      rw [update_self] at hopen
      cases hopen
    rcases h.held id' sess hid ((hstill hne).symm.trans hopen) with hmap | hclosing | hnow
    · exact Or.inl hmap
    · exact Or.inr (Or.inl hclosing)
    · cases hloop.symm.trans hnow
      exact absurd rfl hne
  · by_cases hne : id'=id
    · rw [hne]
      exact update_self ..
    · exact (hstill hne).trans (h.ended id' hid hend)

lemma Sound.breaks (hr : c.routine id=.reading) :
    Sound { c with routine := Function.update c.routine id .removing } := by
  have hroutine {id' : ℕ} {r : Routine} (hne : r≠.reading) (hne' : r≠.removing) :
      Function.update c.routine id .removing id'=r ↔ c.routine id'=r := by
    by_cases hid : id'=id
    · rw [hid,update_self,hr]
      exact iff_of_false hne'.symm hne.symm
    · rw [update_of_ne hid]
  refine ⟨h.sources,h.fresh,h.mapped,fun k id' hk => ?_,fun id' sess hid hopen => ?_,fun id' hid hend => ?_,?_,
    h.answered,h.forwarded⟩
  · obtain ⟨hopen,huse,hloop⟩ := h.inUse k id' hk
    refine ⟨hopen,?_,hloop⟩
    dsimp only
    by_cases hid : id'=id
    · rw [hid,update_self]
      exact Or.inr rfl
    · rwa [update_of_ne hid]
  · rw [hroutine (by decide) (by decide)]
    exact h.held id' sess hid hopen
  · exact h.ended id' hid ((hroutine (by decide) (by decide)).mp hend)
  · exact h.loop

lemma Sound.left {sess : UDPSession} (hsess : c.made[id]? = some sess) (hr : c.routine id=.removing) :
    Sound { c with
      sessions := if c.sessions.lookup (udpAddrString sess.localAddr)=some id then
        c.sessions.erase (udpAddrString sess.localAddr) else c.sessions
      routine := Function.update c.routine id .closing } := by
  have hlookup (k : Str) : (if c.sessions.lookup (udpAddrString sess.localAddr)=some id then
      c.sessions.erase (udpAddrString sess.localAddr) else c.sessions).lookup k
        = (c.sessions.lookup k).filter fun id' => id'≠id := by
    have hstay (hk : c.sessions.lookup k=some id → k≠udpAddrString sess.localAddr) :
        c.sessions.lookup k=(c.sessions.lookup k).filter fun id' => id'≠id := by
      cases hl : c.sessions.lookup k with
      | none => rfl
      | some id' =>
        have hne : id'≠id := by
          rintro rfl
          obtain ⟨sess',hsess',hk'⟩ := h.mapped k id' hl
          cases hsess'.symm.trans hsess
          exact hk hl hk'.symm
        simp [Option.filter,hne]
    split
    · next hmine =>
      by_cases hk : k=udpAddrString sess.localAddr
      · rw [hk,lookup_erase,hmine]
        simp [Option.filter]
      · rw [lookup_erase_ne hk]
        exact hstay fun _ => hk
    · next hother => exact hstay fun hl hk => hother (hk ▸ hl)
  have hkeep {k : Str} {id' : ℕ} : (c.sessions.lookup k).filter (fun id' => id'≠id)=some id' ↔
      c.sessions.lookup k=some id' ∧ id'≠id := by
    rw [filter_eq_some_iff,decide_eq_true_eq]
  refine ⟨h.sources,h.fresh,fun k id' hk => ?_,fun k id' hk => ?_,fun id' sess' hid' hopen => ?_,
    fun id' hid hend => ?_,?_,h.answered,h.forwarded⟩
  · rw [hlookup,hkeep] at hk
    exact h.mapped k id' hk.1
  · rw [hlookup,hkeep] at hk
    dsimp only
    rw [update_of_ne hk.2]
    exact h.inUse k id' hk.1
  · dsimp only
    rw [hlookup,hkeep]
    by_cases hne : id'=id
    · rw [hne,update_self]
      exact Or.inr (Or.inl rfl)
    · rw [update_of_ne hne]
      exact (h.held id' sess' hid' hopen).imp_left fun hmap => ⟨hmap,hne⟩
  · dsimp only at hend
    by_cases hne : id'=id
    · rw [hne,update_self] at hend
      cases hend
    · rw [update_of_ne hne] at hend
      exact h.ended id' hid hend
  · have hholds := h.loop
    have hless {src : AddrPort} {i : ℕ} (hi : c.Holds src i) (id' : ℕ)
        (hk : (if c.sessions.lookup (udpAddrString sess.localAddr)=some id then
          c.sessions.erase (udpAddrString sess.localAddr) else c.sessions).lookup (udpAddrString src)=some id') :
        id'=i := by
      rw [hlookup,hkeep] at hk
      exact hi.2 id' hk.1
    cases hloop : c.loop with
    | reading => trivial
    | writing src i d =>
      rw [hloop] at hholds
      exact ⟨hholds.1,hless hholds⟩
    | removing src i =>
      rw [hloop] at hholds
      exact ⟨hholds.1,hless hholds⟩
    | closing i =>
      rw [hloop] at hholds
      exact hholds
    | returned => trivial

lemma Sound.ends (hid : id < c.made.length) (hr : c.routine id=.closing) :
    Sound { c with
      closed := Function.update c.closed id true
      routine := Function.update c.routine id .ended } := by
  have hstill {id' : ℕ} (hne : id'≠id) : Function.update c.closed id true id'=c.closed id' :=
    update_of_ne hne _ _
  refine ⟨h.sources,fun id' hid' => ?_,h.mapped,fun k id' hk => ?_,fun id' sess hid' hopen => ?_,
    fun id' hid' hend => ?_,h.loop,h.answered,h.forwarded⟩
  · exact (hstill (Nat.ne_of_gt (Nat.lt_of_lt_of_le hid hid'))).trans (h.fresh id' hid')
  · obtain ⟨hopen,huse,hnot⟩ := h.inUse k id' hk
    have hne : id'≠id := by
      rintro rfl
      rcases huse with huse | huse
      · cases hr.symm.trans huse
      · cases hr.symm.trans huse
    dsimp only
    rw [hstill hne,update_of_ne hne]
    exact ⟨hopen,huse,hnot⟩
  · dsimp only at hopen ⊢
    by_cases hne : id'=id
    · rw [hne,update_self] at hopen
      cases hopen
    · rw [hstill hne] at hopen
      rw [update_of_ne hne]
      exact h.held id' sess hid' hopen
  · dsimp only at hend ⊢
    by_cases hne : id'=id
    · rw [hne,update_self]
    · rw [update_of_ne hne] at hend
      rw [hstill hne]
      exact h.ended id' hid' hend

end

lemma sound_step (hstep : Step x key pe c c') (h : Sound c) : Sound c' := by
  have hbusy {l : Loop} (hl : c.loop=l) (hne : ∀ id, l≠.closing id) (id : ℕ) : c.loop≠.closing id :=
    fun hnow => hne id (hl.symm.trans hnow)
  have hlog {id : ℕ} {sess : UDPSession} (hsess : c.made[id]? = some sess) (p : Bytes) :
      Sound { c with answered := c.answered++[(id,p,sess.localAddr)] } := by
    refine ⟨h.sources,h.fresh,h.mapped,h.inUse,h.held,h.ended,h.loop,fun id' p' a ha => ?_,h.forwarded⟩
    rcases mem_append.mp ha with ha | ha
    · exact h.answered id' p' a ha
    · cases mem_singleton.mp ha
      rw [h.sources,List.getElem?_map,hsess]
      rfl
  cases hstep with
  | readFailed hl => exact h.setLoop (hbusy hl (by rintro id ⟨⟩)) (by rintro id ⟨⟩) trivial
  | timedOut hl => exact h
  | dropped hl src refused => exact h
  | found hl src allowed datagram id lookup =>
    obtain ⟨sess,hsess,hk⟩ := h.mapped _ id lookup
    refine h.setLoop (hbusy hl (by rintro id ⟨⟩)) (by rintro id ⟨⟩) ⟨⟨sess,hsess,udpAddrString_eq_iff.mp hk⟩,fun id' hid' => ?_⟩
    exact some.inj (hid'.symm.trans lookup)
  | dialFailed hl src allowed lookup => exact h
  | dialled hl src allowed datagram lookup => exact h.dialled hl lookup _ datagram
  | encryptFailed src id datagram hl => exact h.setLoop (hbusy hl (by rintro id ⟨⟩)) (by rintro id ⟨⟩) trivial
  | wrote src id datagram nonce p hl sent =>
    have hholds := h.loop
    rw [hl] at hholds
    obtain ⟨⟨sess,hsess,hsame⟩,-⟩ := hholds
    have hnext := h.setLoop (hbusy hl (by rintro id ⟨⟩)) (l := .reading) (by rintro id ⟨⟩) trivial
    refine ⟨hnext.sources,hnext.fresh,hnext.mapped,hnext.inUse,hnext.held,hnext.ended,trivial,hnext.answered,
      fun src' id' p' hf => ?_⟩
    rcases mem_append.mp hf with hf | hf
    · exact h.forwarded src' id' p' hf
    · cases mem_singleton.mp hf
      refine ⟨sess.localAddr,?_,hsame⟩
      rw [h.sources,List.getElem?_map,hsess]
      rfl
  | writeFailed src id datagram hl =>
    have hholds := h.loop
    rw [hl] at hholds
    exact h.setLoop (hbusy hl (by rintro id ⟨⟩)) (by rintro id ⟨⟩) hholds
  | removed src id hl => exact h.removed hl
  | closed id hl => exact h.closed hl
  | skipped id sess made hr datagram got => exact h
  | answered id sess made hr datagram p got => exact hlog made p
  | answerFailed id sess made hr datagram p got => exact (hlog made p).breaks hr
  | remoteFailed id sess made hr => exact h.breaks hr
  | left id sess made hr => exact h.left made hr
  | ended id sess made hr => exact h.ends (List.getElem?_eq_some_iff.mp made).1 hr

/-- The sessions neither leak nor cross. A session that is not closed is in the map or in the hands of a
goroutine whose next step closes it. -/
structure Tidy (c : Client) : Prop where
  source : ∀ a id, c.sessions.lookup (udpAddrString a)=some id →
    ∃ sess, c.made[id]? = some sess ∧ SameSource sess.localAddr a
  keyed : ∀ k id, c.sessions.lookup k=some id → ∃ sess, c.made[id]? = some sess ∧ k=udpAddrString sess.localAddr
  unique : ∀ k k' id id' sess sess', c.sessions.lookup k=some id → c.sessions.lookup k'=some id' →
    c.made[id]? = some sess → c.made[id']? = some sess' → SameSource sess.localAddr sess'.localAddr → id=id'
  held : ∀ id, id < c.made.length → c.closed id=false → (∃ k, c.sessions.lookup k=some id) ∨
    c.routine id=.closing ∨ c.loop=.closing id
  ended : ∀ id, id < c.made.length → c.routine id=.ended → c.closed id=true ∧ ∀ k, c.sessions.lookup k≠some id
  answered : ∀ id p a, (id,p,a) ∈ c.answered → c.sources[id]? = some a
  forwarded : ∀ src id p, (src,id,p) ∈ c.forwarded → ∃ a, c.sources[id]? = some a ∧ SameSource a src

lemma Sound.tidy (h : Sound c) : Tidy c := by
  refine ⟨fun a id hid => ?_,fun k id hk => ?_,?_,fun id hid hopen => ?_,fun id hid hend => ?_,h.answered,h.forwarded⟩
  · obtain ⟨sess,hsess,hk⟩ := h.mapped _ id hid
    exact ⟨sess,hsess,udpAddrString_eq_iff.mp hk⟩
  · obtain ⟨sess,hsess,hk⟩ := h.mapped k id hk
    exact ⟨sess,hsess,hk.symm⟩
  · intro k k' id id' sess sess' hk hk' hsess hsess' hsame
    obtain ⟨s,hs,rfl⟩ := h.mapped k id hk
    obtain ⟨s',hs',rfl⟩ := h.mapped k' id' hk'
    cases hs.symm.trans hsess
    cases hs'.symm.trans hsess'
    rw [udpAddrString_eq_iff.mpr hsame,hk'] at hk
    exact (some.inj hk).symm
  · exact (h.held id c.made[id] (List.getElem?_eq_getElem hid) hopen).imp_left fun hmap => ⟨_,hmap⟩
  · refine ⟨h.ended id hid hend,fun k hk => ?_⟩
    rcases (h.inUse k id hk).2.1 with huse | huse
    · cases hend.symm.trans huse
    · cases hend.symm.trans huse

lemma closes {id : ℕ} (hid : id < c.made.length) (hclosing : c.routine id=.closing ∨ c.loop=.closing id) :
    ∃ c', Step x key pe c c' ∧ c'.closed id=true := by
  rcases hclosing with hr | hl
  · exact ⟨_,.ended id c.made[id] (List.getElem?_eq_getElem hid) hr,update_self ..⟩
  · exact ⟨_,.closed id hl,update_self ..⟩

/-- Over every interleaving of the loop and the goroutines, with errors at any point, the sessions neither
leak nor cross. -/
theorem sessions_tidy (h : Relation.ReflTransGen (Step x key pe) {} c) :
    Tidy c ∧ ∀ id, id < c.made.length → c.routine id=.closing ∨ c.loop=.closing id →
      ∃ c', Step x key pe c c' ∧ c'.closed id=true := by
  have hsound : Sound c := reachable_invariant h sound_empty fun _ _ => sound_step
  exact ⟨hsound.tidy,fun id hid => closes hid⟩

/-- A datagram from a local source, whose session then ends. -/
theorem sessions_tidy_one : ∃ c : Client, Relation.ReflTransGen (Step (fun _ _ _ => 0) (.fill 0)
      ⟨false,53,"10.0.0.1",53,[],[]⟩) {} c ∧ c.forwarded=[(⟨.v4 1,7⟩,0,[5])] ∧ c.routine 0=.ended ∧ Tidy c := by
  have hwrote := ((Relation.ReflTransGen.refl (r := Step (fun _ _ _ => 0) (.fill 0)
    ⟨false,53,"10.0.0.1",53,[],[]⟩) (a := {})).tail
    (.dialled rfl ⟨.v4 1,7⟩ rfl [5] rfl)).tail (.wrote ⟨.v4 1,7⟩ 0 [5] [] [5] rfl rfl)
  have hended := ((hwrote.tail (.remoteFailed 0 _ rfl rfl)).tail (.left 0 _ rfl rfl)).tail (.ended 0 _ rfl rfl)
  exact ⟨_,hended,rfl,rfl,(sessions_tidy hended).1⟩

end Client

end TunnnejiTail.Cli
