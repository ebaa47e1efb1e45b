import Mathlib.Data.List.Induction
import TunnnejiTail.Net.Netip
import TunnnejiTail.Types.Key

/-! One handshake with a relay server: the run loop of relayManager, which decides what messages the worker
gets, and the worker in handshakeServerEndpoint. -/
namespace TunnnejiTail.Magicsock.RelayHandshake
open Netip TunnnejiTail.Types Option

structure Work where
  vni : ℕ
  peer : DiscoPublic

structure Challenge where
  vni : ℕ
  remoteKey : DiscoPublic
  challenge : Raw32

/-- A message that the run loop has looked up by the server's disco key and VNI, or by address and VNI. A
challenge comes with whether other work holds its address, and what may send a ping with the new TxID. -/
inductive Event (τ : Type)
  | challenge (src : AddrPort) (msg : Challenge) (taken : Bool) (tx : τ)
  | ping (src : AddrPort) (tx : τ)
  | pong (src : AddrPort) (tx : τ)

/-- What handshakeWorkAwaitingPong has for the work, and the worker: the answer it has sent, its pings and
whether it has returned. -/
structure State (τ : Type) where
  awaitingPong : Option AddrPort := none
  answer : Option (AddrPort × Raw32) := none
  sentPings : List τ := []
  done : Bool := false

def limitPings : ℕ := 10

section
variable {τ : Type} [DecidableEq τ] (w : Work)

def txPing (s : State τ) (tx : τ) : State τ :=
  if s.sentPings.length=limitPings then s else { s with sentPings := tx::s.sentPings }

def Valid (msg : Challenge) : Prop := msg.vni=w.vni ∧ msg.remoteKey=w.peer

instance (msg : Challenge) : Decidable (Valid w msg) := inferInstanceAs (Decidable (_ ∧ _))

def onChallenge (s : State τ) (src : AddrPort) (msg : Challenge) (tx : τ) : State τ :=
  if Valid w msg ∧ s.answer=none then { txPing s tx with answer := some (src,msg.challenge) } else s

def step (s : State τ) (e : Event τ) : State τ :=
  if s.done then s
  else match e with
  | .challenge src msg taken tx =>
    if s.awaitingPong.isSome ∨ taken then s
    else onChallenge w { s with awaitingPong := some src } src msg tx
  | .ping src tx => if s.awaitingPong=some src ∧ s.answer.isSome then txPing s tx else s
  | .pong src tx => if s.awaitingPong=some src ∧ tx ∈ s.sentPings then { s with done := true } else s

def run (s : State τ) (es : List (Event τ)) : State τ := es.foldl (step w) s

def Event.handed : Event τ → Option Challenge
  | .challenge _ msg taken _ => if taken then none else some msg
  | _ => none

def first (es : List (Event τ)) : Option Challenge := es.findSome? Event.handed

structure Inv (es : List (Event τ)) (s : State τ) : Prop where
  awaiting : s.awaitingPong.isSome=(first es).isSome
  answer : s.answer.isSome ↔ ∃ msg, first es=some msg ∧ Valid w msg

variable {w}

omit [DecidableEq τ] in
lemma first_concat (es : List (Event τ)) (e : Event τ) : first (es++[e])=(first es).or e.handed := by
  cases he : e.handed <;> simp [first,he]

omit [DecidableEq τ] in
lemma txPing_keeps (s : State τ) (tx : τ) : (txPing s tx).awaitingPong=s.awaitingPong ∧
    (txPing s tx).answer=s.answer ∧ (txPing s tx).done=s.done := by
  rw [txPing]
  split <;> exact ⟨rfl,rfl,rfl⟩

variable {es : List (Event τ)}

omit [DecidableEq τ] in
lemma Inv.of_keeps {s s' : State τ} {e : Event τ} (h : Inv w es s)
    (hkeeps : s'.awaitingPong=s.awaitingPong ∧ s'.answer=s.answer ∧ s'.done=s.done)
    (hlater : e.handed=none ∨ s.awaitingPong.isSome=true) : Inv w (es++[e]) s' := by
  obtain ⟨hawaiting,hanswer,-⟩ := hkeeps
  have hfirst : first (es++[e])=first es := by
    rw [first_concat]
    rcases hlater with he | hsome
    · rw [he,or_none]
    · rw [h.awaiting] at hsome
      exact or_of_isSome hsome
  exact ⟨by rw [hawaiting,hfirst,h.awaiting],by rw [hanswer,hfirst,h.answer]⟩

lemma step_of_done {s : State τ} (h : s.done=true) (e : Event τ) : step w s e=s := by
  cases e <;> simp [step,h]

lemma inv_step {s : State τ} (h : Inv w es s) (hopen : s.done=false) (e : Event τ)
    (hstill : (step w s e).done=false) : Inv w (es++[e]) (step w s e) := by
  cases e with
  | challenge src msg taken tx =>
    simp only [step,hopen,Bool.false_eq_true,if_false]
    split
    · next hdrop =>
      refine h.of_keeps ⟨rfl,rfl,rfl⟩ (hdrop.symm.imp_left fun htaken => ?_)
      exact if_pos htaken
    · next hnew =>
      rw [not_or,Bool.not_eq_true,h.awaiting,isSome_eq_false_iff,isNone_iff_eq_none] at hnew
      have hnone : s.answer=none := by
        rw [← not_isSome_iff_eq_none,h.answer,hnew.1]
        rintro ⟨msg,hmsg,-⟩
        cases hmsg
      have hfirst : first (es++[Event.challenge src msg taken tx])=some msg := by
        rw [first_concat,hnew.1,none_or]
        exact if_neg hnew.2
      rw [onChallenge]
      by_cases hv : Valid w msg
      · rw [if_pos ⟨hv,hnone⟩]
        refine ⟨?_,iff_of_true rfl ⟨msg,hfirst,hv⟩⟩
        rw [hfirst]
        exact congrArg Option.isSome (txPing_keeps _ tx).1
      · rw [if_neg fun hboth => hv hboth.1]
        refine ⟨by rw [hfirst]; rfl,?_⟩
        rw [hfirst]
        simp [hnone,hv]
  | ping src tx =>
    simp only [step,hopen,Bool.false_eq_true,if_false]
    split
    · exact h.of_keeps (txPing_keeps s tx) (.inl rfl)
    · exact h.of_keeps ⟨rfl,rfl,rfl⟩ (.inl rfl)
  | pong src tx =>
    simp only [step,hopen,Bool.false_eq_true,if_false] at hstill ⊢
    split at hstill
    · cases hstill
    · next hno =>
      rw [if_neg hno]
      exact h.of_keeps ⟨rfl,rfl,rfl⟩ (.inl rfl)

lemma inv_run (es : List (Event τ)) (hopen : (run w {} es).done=false) : Inv w es (run w {} es) := by
  induction es using List.reverseRecOn with
  | nil => exact ⟨rfl,by simp [run,first]⟩
  | append_singleton es e ih =>
    have hlast : run w {} (es++[e])=step w (run w {} es) e := by
      rw [run,List.foldl_append]
      rfl
    rw [hlast] at hopen ⊢
    have hbefore : (run w {} es).done=false := by
      by_contra hdone
      rw [Bool.not_eq_false] at hdone
      rw [step_of_done hdone,hdone] at hopen
      cases hopen
    exact inv_step (ih hbefore) hbefore e hopen

/-- A valid challenge that comes while the handshake is in progress finds it answered, by this or an earlier
answer, exactly if the first challenge that the worker got was a valid one. -/
theorem challenge_answered_iff (w : Work) (es : List (Event τ)) (src : AddrPort) (msg : Challenge) (tx : τ)
    (hvalid : Valid w msg) (hopen : (run w {} es).done=false) :
    (run w {} (es++[.challenge src msg false tx])).answer.isSome ↔ ∀ msg', first es=some msg' → Valid w msg' := by
  have hlast : run w {} (es++[.challenge src msg false tx])=step w (run w {} es) (.challenge src msg false tx) := by
    rw [run,List.foldl_append]
    rfl
  have hstill : (step w (run w {} es) (.challenge src msg false tx)).done=false := by
    simp only [step,hopen,Bool.false_eq_true,if_false,onChallenge]
    split_ifs
    · exact hopen
    · exact (txPing_keeps _ _).2.2
    · rfl
  rw [hlast,(inv_step (inv_run es hopen) hopen _ hstill).answer,first_concat]
  cases first es with
  | none => simp [Event.handed,hvalid]
  | some msg' => simp

end

def someWork : Work := ⟨5,.fill 1⟩

/-- A valid challenge, one with another VNI and a valid one again. -/
theorem challenge_answered_first : (run someWork {} ([.challenge ⟨.v4 1,7000⟩ ⟨5,.fill 1,.fill 3⟩ false 0,
    .challenge ⟨.v4 9,7000⟩ ⟨6,.fill 1,.fill 2⟩ false 1]++
      [.challenge ⟨.v4 1,7000⟩ ⟨5,.fill 1,.fill 4⟩ false 2])).answer.isSome := by
  refine (challenge_answered_iff someWork _ _ _ 2 ⟨rfl,rfl⟩ rfl).mpr fun msg hmsg => ?_
  cases hmsg
  exact ⟨rfl,rfl⟩

/-- A challenge with another VNI is rejected, and the valid one after it is not answered. -/
theorem challenge_lost :
    let s := run someWork {} [.challenge ⟨.v4 9,7000⟩ ⟨6,.fill 1,.fill 2⟩ false 0,
      .challenge ⟨.v4 1,7000⟩ ⟨5,.fill 1,.fill 3⟩ false 1]
    s.answer=none ∧ s.done=false := by
  decide +kernel

end TunnnejiTail.Magicsock.RelayHandshake
