import TunnnejiTail.Magicsock.Endpoint

/-! The candidate addresses of a peer over time: the network map, pings, call-me-maybe messages and the
sweeps that delete candidates. -/
namespace TunnnejiTail.Magicsock
open Go Netip Netmap List AList Candidates

/-- The candidates, the keys of isCallMeMaybeEP and the addresses of the latest netmap or endpoint delta. -/
structure CandidateLife where
  endpointState : Candidates := ∅
  isCallMeMaybeEP : List AddrPort := []
  endpoints : List AddrPort := []

namespace CandidateLife

inductive Event
  | setEndpoints (o : MapOrder) (now : Time) (eps : List AddrPort)
  -- addCandidateEndpoint
  | ping (o : MapOrder) (now : Time) (ep : AddrPort)
  | callMeMaybe (o : MapOrder) (now : Time) (myNumber : List AddrPort)
  -- sendDiscoPingsLocked
  | sendPings (o : MapOrder) (now : Time)
  -- noteBadEndpoint, and noteConnectivityChange
  | bad (ep : AddrPort)
  | connectivityChange (o : MapOrder)
  -- a pong or the passage of time
  | other

def sweep (o : MapOrder) (now : Time) (c : Candidates) : Candidates :=
  deleteWhere o (fun _ st => st.shouldDeleteLocked now) c

def addCandidateEndpoint (o : MapOrder) (now : Time) (ep : AddrPort) (c : Candidates) : Candidates :=
  match c.lookup ep with
  | some st => if st.lastGotPing=0 then c else c.insert ep { st with lastGotPing := now }
  | none =>
    let c := c.insert ep { lastGotPing := now }
    if 100 < c.entries.length then sweep o now c else c

def named (myNumber : List AddrPort) : List AddrPort :=
  myNumber.filter fun ep => !(ep.addr.is6 && ep.addr.isLinkLocalUnicast)

def call (now : Time) (c : Candidates) (ep : AddrPort) : Candidates :=
  c.insert ep { (c.lookup ep).getD {} with callMeMaybeTime := now }

def handleCallMeMaybe (o : MapOrder) (now : Time) (myNumber prior : List AddrPort) (c : Candidates) : Candidates :=
  let c := (named myNumber).foldl (call now) c
  let c := (prior.filter (· ∉ named myNumber)).foldl (fun c ep => c.erase ep) c
  sweep o now c

def clear (st : EndpointState) : EndpointState := { index := st.index,lastGotPing := st.lastGotPing }

def step (s : CandidateLife) : Event → CandidateLife
  | .setEndpoints o now eps =>
    { s with endpointState := s.endpointState.setEndpointsLocked o now eps,endpoints := eps }
  | .ping o now ep => { s with endpointState := addCandidateEndpoint o now ep s.endpointState }
  | .callMeMaybe o now myNumber =>
    { s with
      endpointState := handleCallMeMaybe o now myNumber s.isCallMeMaybeEP s.endpointState
      isCallMeMaybeEP := named myNumber }
  | .sendPings o now => { s with endpointState := sweep o now s.endpointState }
  | .bad ep =>
    match s.endpointState.lookup ep with
    | some st => { s with endpointState := s.endpointState.insert ep (clear st) }
    | none => s
  | .connectivityChange o => { s with endpointState := updateAll o clear s.endpointState }
  | .other => s

def run (s : CandidateLife) (es : List Event) : CandidateLife := es.foldl step s

/-- A candidate of the network map that was never learnt from a ping. -/
def OfMap (c : Candidates) (a : AddrPort) : Prop :=
  ∃ st, c.lookup a=some st ∧ st.lastGotPing=0 ∧ st.index≠indexSentinelDeleted

/-- A netmap lists no address that was learnt from a ping, and a call-me-maybe names the addresses of the map
that the one before it named. -/
def Event.Gentle (s : CandidateLife) : Event → Prop
  | .setEndpoints _ _ eps =>
    ∀ a ∈ Candidates.listed eps, ∀ st, s.endpointState.lookup a=some st → st.lastGotPing=0
  | .callMeMaybe _ _ myNumber =>
    ∀ a ∈ Candidates.listed s.endpoints, a ∈ s.isCallMeMaybeEP → a ∈ named myNumber
  | _ => True

section
variable {c : Candidates} {a : AddrPort}

lemma shouldDeleteLocked_ofMap {st : EndpointState} (hping : st.lastGotPing=0)
    (hindex : st.index≠indexSentinelDeleted) (now : Time) : st.shouldDeleteLocked now=false := by
  simp [EndpointState.shouldDeleteLocked,hping,hindex]

lemma OfMap.sweep (h : OfMap c a) (o : MapOrder) (now : Time) : OfMap (sweep o now c) a := by
  obtain ⟨st,hst,hping,hindex⟩ := h
  refine ⟨st,?_,hping,hindex⟩
  rw [CandidateLife.sweep,lookup_deleteWhere,hst]
  simp [shouldDeleteLocked_ofMap hping hindex]

lemma OfMap.insert (h : OfMap c a) {ep : AddrPort} {st' : EndpointState}
    (hst' : ∀ st, c.lookup ep=some st → st'.lastGotPing=st.lastGotPing ∧ st'.index=st.index) :
    OfMap (c.insert ep st') a := by
  obtain ⟨st,hst,hping,hindex⟩ := h
  by_cases ha : a=ep
  · subst ha
    obtain ⟨hping',hindex'⟩ := hst' st hst
    exact ⟨st',lookup_insert _,hping'.trans hping,hindex' ▸ hindex⟩
  · exact ⟨st,(lookup_insert_ne ha).trans hst,hping,hindex⟩

variable (o : MapOrder) (now : Time)

lemma OfMap.addCandidateEndpoint (h : OfMap c a) (ep : AddrPort) :
    OfMap (addCandidateEndpoint o now ep c) a := by
  rw [CandidateLife.addCandidateEndpoint]
  cases hep : c.lookup ep with
  | some st =>
    dsimp only
    split
    · exact h
    · next hping =>
      obtain ⟨st',hst',hping',hindex⟩ := h
      have hne : a≠ep := by
        rintro rfl
        cases hep.symm.trans hst'
        exact hping hping'
      exact ⟨st',(lookup_insert_ne hne).trans hst',hping',hindex⟩
  | none =>
    have hnew : OfMap (c.insert ep { lastGotPing := now }) a := h.insert fun st hst => by cases hep.symm.trans hst
    dsimp only
    split
    · exact hnew.sweep o now
    · exact hnew

lemma OfMap.handleCallMeMaybe (h : OfMap c a) {myNumber prior : List AddrPort}
    (hnamed : a ∈ prior → a ∈ named myNumber) : OfMap (handleCallMeMaybe o now myNumber prior c) a := by
  refine OfMap.sweep ?_ o now
  refine foldlRecOn (motive := fun c : Candidates => OfMap c a) _ _ ?_ fun c hc ep hep => ?_
  · refine foldlRecOn (motive := fun c : Candidates => OfMap c a) _ _ h fun c hc ep _ => ?_
    exact hc.insert fun st hst => by simp [hst]
  · obtain ⟨hprior,hnot⟩ := mem_filter.mp hep
    have hne : a≠ep := fun he => (of_decide_eq_true hnot) (he ▸ hnamed (he ▸ hprior))
    obtain ⟨st,hst,hping,hindex⟩ := hc
    exact ⟨st,(lookup_erase_ne hne).trans hst,hping,hindex⟩

lemma ofMap_setEndpointsLocked {eps : List AddrPort} (hv : a.addr.isValid=true)
    (ha : a ∈ listed eps) (hping : ∀ st, c.lookup a=some st → st.lastGotPing=0) :
    OfMap (c.setEndpointsLocked o now eps) a := by
  have hfst : (listed eps).zipIdx.map Prod.fst=listed eps := zipIdx_map_fst 0 _
  obtain ⟨i,hi⟩ := lookup_foldl_place_of_listed
    (updateAll o (fun st => { st with index := indexSentinelDeleted }) c) hv
    (l := (listed eps).zipIdx) (hfst.symm ▸ ha)
  have hplaced : OfMap ((listed eps).zipIdx.foldl place
      (updateAll o (fun st => { st with index := indexSentinelDeleted }) c)) a := by
    refine ⟨_,hi,?_,?_⟩
    · rw [lookup_updateAll]
      cases hst : c.lookup a with
      | none => rfl
      | some st => exact hping st hst
    · change (i : ℤ) ≠ -1
      omega
  exact hplaced.sweep o now

end

lemma ofMap_step {s : CandidateLife} {e : Event}
    (h : ∀ a ∈ listed s.endpoints, a.addr.isValid=true → OfMap s.endpointState a) (he : e.Gentle s) :
    ∀ a ∈ listed (s.step e).endpoints, a.addr.isValid=true → OfMap (s.step e).endpointState a := by
  intro a
  cases e with
  | setEndpoints o now eps => exact fun ha hv => ofMap_setEndpointsLocked o now hv ha (he a ha)
  | ping o now ep => exact fun ha hv => (h a ha hv).addCandidateEndpoint o now ep
  | callMeMaybe o now myNumber => exact fun ha hv => (h a ha hv).handleCallMeMaybe o now (he a ha)
  | sendPings o now => exact fun ha hv => (h a ha hv).sweep o now
  | bad ep =>
    rw [step]
    cases hep : s.endpointState.lookup ep with
    | none => exact h a
    | some st =>
      refine fun ha hv => (h a ha hv).insert fun st' hst' => ?_
      cases hep.symm.trans hst'
      exact ⟨rfl,rfl⟩
  | connectivityChange o =>
    intro ha hv
    obtain ⟨st,hst,hping,hindex⟩ := h a ha hv
    exact ⟨clear st,by rw [step,lookup_updateAll,hst]; rfl,hping,hindex⟩
  | other => exact h a

/-- In every run whose steps are gentle, the valid addresses of the latest list are candidates that no sweep
deletes at any time. -/
theorem endpoints_stay (es : List Event)
    (hes : ∀ (n : ℕ) (e : Event), es[n]? = some e → e.Gentle (run {} (es.take n))) :
    ∀ a ∈ Candidates.listed (run {} es).endpoints, a.addr.isValid=true →
      ∃ st, (run {} es).endpointState.lookup a=some st ∧ ∀ now, st.shouldDeleteLocked now=false := by
  have hrun : ∀ a ∈ Candidates.listed (run {} es).endpoints, a.addr.isValid=true →
      OfMap (run {} es).endpointState a := by
    induction es using reverseRecOn with
    | nil => exact fun a ha => by cases ha
    | append_singleton es e ih =>
      have hlast := hes es.length e (by simp)
      rw [take_left' rfl] at hlast
      rw [run,foldl_append]
      refine ofMap_step (ih fun n e' he' => ?_) hlast
      have hn := (List.getElem?_eq_some_iff.mp he').1
      have hstep := hes n e' (by rw [List.getElem?_append_left hn,he'])
      rwa [take_append_of_le_length hn.le] at hstep
  intro a ha hv
  obtain ⟨st,hst,hping,hindex⟩ := hrun a ha hv
  exact ⟨st,hst,shouldDeleteLocked_ofMap hping hindex⟩

def someEndpoint : AddrPort := ⟨.v4 0x0a000001,41641⟩

theorem endpoints_stay_named :
    ∃ st, (run {} [.setEndpoints .asStored 1 [someEndpoint],.callMeMaybe .asStored 2 [someEndpoint]]).endpointState.lookup
      someEndpoint=some st ∧ ∀ now, st.shouldDeleteLocked now=false := by
  refine endpoints_stay [.setEndpoints .asStored 1 [someEndpoint],.callMeMaybe .asStored 2 [someEndpoint]] ?_ someEndpoint
    (by decide +kernel) rfl
  intro n e he
  cases n with
  | zero =>
    cases he
    exact fun a _ st hst => by cases hst
  | succ n =>
    cases n with
    | zero =>
      cases he
      exact fun a _ ha => by cases ha
    | succ n => cases he

/-- A call-me-maybe that does not name an address again deletes it, and so does time if the address was learnt
from a ping before it was listed. -/
theorem endpoint_swept :
    (run {} [.setEndpoints .asStored 1 [someEndpoint],.callMeMaybe .asStored 2 [someEndpoint],
      .callMeMaybe .asStored 3 []]).endpointState.lookup someEndpoint=none ∧
    (run {} [.ping .asStored 1 someEndpoint,.setEndpoints .asStored 2 [someEndpoint],
      .sendPings .asStored 50000000000]).endpointState.lookup someEndpoint=none := by
  decide +kernel

end CandidateLife

end TunnnejiTail.Magicsock
