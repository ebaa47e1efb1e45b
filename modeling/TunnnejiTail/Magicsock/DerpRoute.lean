import TunnnejiTail.Go.Maps
import TunnnejiTail.Types.Key
import Mathlib.Logic.Function.Basic

/-! The routes over DERP that are learnt from received packets. Each connection has a reader, which keeps the
peers it has seen and the last sender of its own; the table of routes is shared. -/
namespace TunnnejiTail.Magicsock.DerpRoute
open Go TunnnejiTail.Types AList

structure Reader where
  peerPresent : List NodePublic := []
  lastPacketSrc : NodePublic := .fill 0

inductive Event (δ : Type)
  | packet (dc : δ) (src : NodePublic)
  | peerGone (dc : δ) (peer : NodePublic)
  | recvError (dc : δ)
  -- a message without effect here, such as the server's info after a reconnect
  | other (dc : δ)
  -- the peer is removed from the network map
  | removePeer (peer : NodePublic)

structure State (δ : Type) where
  derpRoute : GoMap NodePublic (ℤ × δ) := ∅
  readers : δ → Reader := fun _ => {}

section
variable {δ : Type} [DecidableEq δ] (regionID : δ → ℤ)

def removeDerpPeerRoute (dc : δ) (routes : GoMap NodePublic (ℤ × δ)) (peer : NodePublic) : GoMap NodePublic (ℤ × δ) :=
  if routes.lookup peer=some (regionID dc,dc) then routes.erase peer else routes

def addDerpPeerRoute (dc : δ) (routes : GoMap NodePublic (ℤ × δ)) (peer : NodePublic) : GoMap NodePublic (ℤ × δ) :=
  routes.insert peer (regionID dc,dc)

/-- One message of a reader of runDerpReader, or the removal of a peer. -/
def step (s : State δ) : Event δ → State δ
  | .packet dc src =>
    let r := s.readers dc
    if src=r.lastPacketSrc then s
    else if src ∈ r.peerPresent then
      { s with readers := Function.update s.readers dc { r with lastPacketSrc := src } }
    else
      { derpRoute := addDerpPeerRoute regionID dc s.derpRoute src
        readers := Function.update s.readers dc ⟨src::r.peerPresent,src⟩ }
  | .peerGone dc peer => { s with derpRoute := removeDerpPeerRoute regionID dc s.derpRoute peer }
  | .recvError dc =>
    { derpRoute := (s.readers dc).peerPresent.foldl (removeDerpPeerRoute regionID dc) s.derpRoute
      readers := Function.update s.readers dc { s.readers dc with peerPresent := [] } }
  | .other _ => s
  | .removePeer peer => { s with derpRoute := s.derpRoute.erase peer }

def run (s : State δ) (es : List (Event δ)) : State δ := es.foldl (step regionID) s

/-- The events after which a route over a connection may be given up. -/
def Event.Forgets (dc : δ) (peer : NodePublic) : Event δ → Prop
  | .packet dc' src => dc'≠dc ∧ src=peer
  | .peerGone dc' gone => dc'=dc ∧ gone=peer
  | .recvError dc' => dc'=dc
  | .other _ => False
  | .removePeer removed => removed=peer

variable {regionID} {dc : δ} {peer : NodePublic}

lemma lookup_removeDerpPeerRoute {routes : GoMap NodePublic (ℤ × δ)} {dc' : δ} {gone : NodePublic}
    (h : routes.lookup peer=some (regionID dc,dc)) (hkeep : ¬(dc'=dc ∧ gone=peer)) :
    (removeDerpPeerRoute regionID dc' routes gone).lookup peer=some (regionID dc,dc) := by
  rw [removeDerpPeerRoute]
  split
  · next hroute =>
    by_cases hgone : gone=peer
    · subst hgone
      have he := Option.some.inj (hroute.symm.trans h)
      exact absurd ⟨(Prod.ext_iff.mp he).2,rfl⟩ hkeep
    · rw [lookup_erase_ne (Ne.symm hgone),h]
  · exact h

lemma lookup_step {s : State δ} {e : Event δ} (h : s.derpRoute.lookup peer=some (regionID dc,dc))
    (he : ¬e.Forgets dc peer) : (step regionID s e).derpRoute.lookup peer=some (regionID dc,dc) := by
  cases e with
  | packet dc' src =>
    rw [step]
    split
    · exact h
    · split
      · exact h
      · by_cases hsrc : src=peer
        · have hdc : dc'=dc := not_not.mp fun hne => he ⟨hne,hsrc⟩
          rw [addDerpPeerRoute,hsrc,hdc,lookup_insert]
        · rw [addDerpPeerRoute,lookup_insert_ne (Ne.symm hsrc),h]
  | peerGone dc' gone => exact lookup_removeDerpPeerRoute h he
  | recvError dc' =>
    exact List.foldlRecOn (motive := fun routes : GoMap NodePublic (ℤ × δ) => routes.lookup peer=some (regionID dc,dc)) _ _ h
      fun routes hroutes gone _ => lookup_removeDerpPeerRoute hroutes fun hgone => he hgone.1
  | other dc' => exact h
  | removePeer removed => exact (lookup_erase_ne (Ne.symm he)).trans h

/-- A packet brings about the route to its sender, until an event that gives it up, exactly if the table has
the route already or the reader takes the sender for a new one. -/
theorem route_learnt_iff (s : State δ) (dc : δ) (peer : NodePublic) :
    (∀ es, (∀ e ∈ es, ¬e.Forgets dc peer) →
      (run regionID s (.packet dc peer::es)).derpRoute.lookup peer=some (regionID dc,dc)) ↔
    s.derpRoute.lookup peer=some (regionID dc,dc) ∨
      peer≠(s.readers dc).lastPacketSrc ∧ peer ∉ (s.readers dc).peerPresent := by
  constructor
  · intro h
    have hnow := h [] fun e he => by cases he
    rw [run,List.foldl_cons,List.foldl_nil,step] at hnow
    split at hnow
    · exact .inl hnow
    · next hlast =>
      split at hnow
      · exact .inl hnow
      · next hpresent => exact .inr ⟨hlast,hpresent⟩
  · intro h es hes
    have hfirst : (step regionID s (.packet dc peer)).derpRoute.lookup peer=some (regionID dc,dc) := by
      rcases h with h | ⟨hlast,hpresent⟩
      · exact lookup_step h fun hforgets => hforgets.1 rfl
      · rw [step]
        rw [if_neg hlast,if_neg hpresent]
        exact lookup_insert _
    exact List.foldlRecOn (motive := fun s : State δ => s.derpRoute.lookup peer=some (regionID dc,dc)) es _ hfirst
      fun s hs e he => lookup_step hs (hes e he)

end

/-- A peer that was reported gone, and one that sent before and after a receive error, have no route. -/
theorem route_not_learnt :
    (run (fun _ : Unit => 1) {} [.packet () (.fill 7),.peerGone () (.fill 7),.packet () (.fill 7)]).derpRoute.lookup
      (.fill 7)=none ∧
    (run (fun _ : Unit => 1) {} [.packet () (.fill 7),.packet () (.fill 8),.peerGone () (.fill 7),
      .packet () (.fill 7)]).derpRoute.lookup (.fill 7)=none ∧
    (run (fun _ : Unit => 1) {} [.packet () (.fill 7),.recvError (),.other (),.packet () (.fill 7)]).derpRoute.lookup
      (.fill 7)=none := by
  decide +kernel

end TunnnejiTail.Magicsock.DerpRoute
