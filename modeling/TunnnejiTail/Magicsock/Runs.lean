import TunnnejiTail.Magicsock.Moves

/-! Runs of a connection: whole network maps, single peers, deltas, disco keys over TSMP, and what disco
traffic does in between. -/
namespace TunnnejiTail.Magicsock
open Go Netmap TunnnejiTail.Types PeerMap Endpoint

inductive Event
  | setNetworkMap (peers : List Node)
  | upsertPeer (n : Node)
  | removePeer (nid : NodeID)
  | updateNetmapDelta (muts : List NodeMutation)
  | handleDiscoKeyAdvertisement (node : Node) (key : DiscoPublic)
  | setNodeKeyForEpAddr (addr : EpAddr) (nk : NodePublic)
  | setCandidates (nk : NodePublic) (candidates : Candidates)

def Conn.handle (env : Env) (c : Conn) : Event → Except Fault Conn
  | .setNetworkMap peers => c.setNetworkMap env peers
  | .upsertPeer n => c.upsertPeer env n
  | .removePeer nid => .ok (c.removePeer nid)
  | .updateNetmapDelta muts => .ok (c.updateNetmapDelta env muts)
  | .handleDiscoKeyAdvertisement node key => c.handleDiscoKeyAdvertisement env node key
  | .setNodeKeyForEpAddr addr nk => .ok { c with peerMap := c.peerMap.setNodeKeyForEpAddr addr nk }
  | .setCandidates nk candidates => .ok (c.setCandidates nk candidates)

inductive Run : Conn → Prop
  | start : Run {}
  | step {c c' : Conn} (h : Run c) (env : Env) (ev : Event) (hev : c.handle env ev=.ok c') : Run c'

def Event.peers (cur : NodeID → Option Node) : Event → NodeID → Option Node
  | .setNetworkMap peers => fun i => peers.find? fun n => n.id=i
  | .upsertPeer n => Function.update cur n.id (some n)
  | .removePeer nid => Function.update cur nid none
  | _ => cur

lemma consistent_empty : PeerMap.Consistent {} := by
  refine ⟨⟨?_,?_,?_,?_⟩,⟨fun a r => ?_,?_⟩⟩
  · intro k r h
    cases h
  · intro i r h
    cases h
  · intro r h
    cases h
  · intro r h
    cases h
  · refine iff_of_false (fun h => ?_) fun h => ?_
    · cases h
    · cases h.1
  · intro k a h
    cases h

/-- A call makes allowed moves and leaves the connection open; a secret that was not there before is for
the key of an endpoint, or for the zero key. -/
theorem Conn.handle_spec {c c' : Conn} {env : Env} (hc : c.peerMap.Consistent) (hopen : c.closed=false)
    {ev : Event} (h : c.handle env ev=.ok c') : PeerMap.Moves c.peerMap c'.peerMap ∧ c'.closed=false ∧
      ∀ dk ∈ c'.discoInfo, dk ∈ c.discoInfo ∨ dk.isZero=true ∨
        ∃ i ep, c'.peerMap.table i=some ep ∧ ep.disco=some dk := by
  have hclosed : ¬c.closed=true := by
    rw [hopen]
    exact Bool.false_ne_true
  have hchange {c : Conn} {r : Ref} (hr : c.peerMap.Live r) {ep : Endpoint}
      (hid : ep.identity=(c.peerMap.epOf r).identity) (hdisco : ep.disco=(c.peerMap.epOf r).disco) :
      PeerMap.Moves c.peerMap (c.peerMap.setEndpoint (c.peerMap.info r).ep ep) :=
    .of_move (.change r ep) ⟨hr,hid,hdisco⟩ rfl
  cases ev with
  | setNetworkMap peers =>
    obtain ⟨r,hr,rfl⟩ := map_eq_ok.mp h
    rw [updateNodes,if_neg hclosed] at hr
    split at hr
    · cases hr
      exact ⟨.refl,hopen,fun _ => .inl⟩
    · obtain ⟨m,hm,hr⟩ := bind_eq_ok.mp hr
      obtain ⟨count,-,hr⟩ := bind_eq_ok.mp hr
      have hmoves := moves_foldlM env hc hm
      obtain ⟨hkept,hinfo⟩ := kept_forgetRoutes env (c := c) (fill Node.id some peers ∅)
      cases hr
      refine ⟨?_,hkept.trans hopen,fun dk hdk => .inl (hinfo ▸ (List.mem_filter.mp hdk).1)⟩
      split
      · exact hmoves.trans (moves_cleanUp env (hc.moves hmoves) _)
      · exact hmoves
  | upsertPeer n =>
    change c.upsertPeer env n=.ok c' at h
    rw [upsertPeer,if_neg hclosed] at h
    split at h
    · cases eq_of_devPanicf h
      exact ⟨.refl,hopen,fun _ => .inl⟩
    · obtain ⟨m,hm,h⟩ := bind_eq_ok.mp h
      have hforget : (c.forgetOldKey n).closed=c.closed ∧ (c.forgetOldKey n).discoInfo=c.discoInfo := by
        rw [forgetOldKey]
        split
        · split <;> exact ⟨rfl,rfl⟩
        · exact ⟨rfl,rfl⟩
      cases h
      exact ⟨moves_upsertPeerLocked env hc hm,hforget.1.trans hopen,fun _ hdk => .inl (hforget.2 ▸ hdk)⟩
  | removePeer nid =>
    cases h
    rw [removePeer,if_neg hclosed]
    cases c.peersByID.lookup nid with
    | none => exact ⟨.refl,hopen,fun _ => .inl⟩
    | some prev =>
      refine ⟨?_,hopen,fun dk hdk => .inl ?_⟩
      · change PeerMap.Moves c.peerMap (removeEndpoint c.peerMap nid)
        rw [removeEndpoint]
        cases he : c.peerMap.endpointForNodeID nid with
        | none => exact .refl
        | some e =>
          obtain ⟨r,hr,rfl,-,-⟩ := hc.of_endpointForNodeID he
          exact .of_move (.delete r) hr rfl
      · dsimp only at hdk
        split at hdk
        · exact (List.mem_filter.mp hdk).1
        · exact hdk
  | updateNetmapDelta muts =>
    cases h
    obtain ⟨hmoves,hkept,hinfo⟩ : PeerMap.Moves c.peerMap (c.updateNetmapDelta env muts).peerMap ∧
        (c.updateNetmapDelta env muts).closed=c.closed ∧
        (c.updateNetmapDelta env muts).discoInfo=c.discoInfo := by
      refine List.foldlRecOn muts _ (motive := fun c' : Conn => PeerMap.Moves c.peerMap c'.peerMap ∧
        c'.closed=c.closed ∧ c'.discoInfo=c.discoInfo) ⟨.refl,rfl,rfl⟩ ?_
      rintro c' ⟨hmoves,hkept,hinfo⟩ mu -
      have hcons := hc.moves hmoves
      rw [mutate]
      cases he : c'.peerMap.endpointForNodeID mu.nodeIDBeingMutated with
      | none => exact ⟨hmoves,hkept,hinfo⟩
      | some e =>
        obtain ⟨r,hr,rfl,-,-⟩ := hcons.of_endpointForNodeID he
        cases mu with
        | derpHome nid region => exact ⟨hmoves.trans (hchange hr rfl rfl),hkept,hinfo⟩
        | endpoints nid eps => exact ⟨hmoves.trans (hchange hr rfl rfl),hkept,hinfo⟩
        | _ => exact ⟨hmoves,hkept,hinfo⟩
    exact ⟨hmoves,hkept.trans hopen,fun _ hdk => .inl (hinfo ▸ hdk)⟩
  | handleDiscoKeyAdvertisement node key =>
    change c.handleDiscoKeyAdvertisement env node key=.ok c' at h
    rw [handleDiscoKeyAdvertisement] at h
    cases he : c.peerMap.endpointForNodeKey node.key with
    | none =>
      rw [he] at h
      cases h
      exact ⟨.refl,hopen,fun _ => .inl⟩
    | some e =>
      obtain ⟨r,hr,rfl,-⟩ := live_of_endpointForNodeKey hc he
      rw [he] at h
      dsimp only at h
      split at h
      · cases h
        exact ⟨.refl,hopen,fun _ => .inl⟩
      · obtain ⟨m,hm,h⟩ := bind_eq_ok.mp h
        have hallowed : Move.Allowed c.peerMap (.renew env.order r ((c.peerMap.epOf r).updateDiscoKey key)) :=
          ⟨hr,rfl,fun _ hz => if_pos (by rwa [discoKey_updateDiscoKey] at hz)⟩
        have htable := (hc.move hallowed hm).2
        cases h
        refine ⟨.of_move _ hallowed hm,hopen,fun dk hdk => ?_⟩
        rcases List.mem_insert_iff.mp hdk with rfl | hdk
        · by_cases hz : dk.isZero=true
          · exact .inr (.inl hz)
          · exact .inr (.inr ⟨_,_,by rw [htable]; exact Function.update_self ..,if_neg hz⟩)
        · exact .inl hdk
  | setNodeKeyForEpAddr addr nk =>
    cases h
    exact ⟨.of_move (.address addr nk) trivial rfl,hopen,fun _ => .inl⟩
  | setCandidates nk candidates =>
    cases h
    rw [setCandidates]
    cases he : c.peerMap.endpointForNodeKey nk with
    | none => exact ⟨.refl,hopen,fun _ => .inl⟩
    | some e =>
      obtain ⟨r,hr,rfl,-⟩ := live_of_endpointForNodeKey hc he
      exact ⟨hchange hr rfl rfl,hopen,fun _ => .inl⟩

lemma Run.consistent {c : Conn} (h : Run c) : c.peerMap.Consistent ∧ c.closed=false := by
  induction h with
  | start => exact ⟨consistent_empty,rfl⟩
  | step h env ev hev ih =>
    obtain ⟨hmoves,hopen,-⟩ := Conn.handle_spec ih.1 ih.2 hev
    exact ⟨ih.1.moves hmoves,hopen⟩

/-- The indexes agree after any calls: what is found under a key, an id or an address is one peer, which has
that key, id and address, and the relay address of a key leads to the peer of the key. -/
theorem Run.indexes_agree {c : Conn} (h : Run c) (r : Ref) :
    (∀ k, c.peerMap.byNodeKey.lookup k=some r ↔ (c.peerMap.epOf r).publicKey=k ∧
      c.peerMap.byNodeID.lookup (c.peerMap.epOf r).nodeID=some r) ∧
    (∀ a, c.peerMap.byEpAddr.lookup a=some r ↔ c.peerMap.byNodeKey.lookup (c.peerMap.epOf r).publicKey=some r ∧
      a ∈ (c.peerMap.info r).epAddrs) ∧
    ∀ k a, c.peerMap.relayEpAddrByNodeKey.lookup k=some a → a.vni.isSome=true ∧
      ∃ r, c.peerMap.byNodeKey.lookup k=some r ∧ c.peerMap.byEpAddr.lookup a=some r := by
  have hc := h.consistent.1
  refine ⟨fun k => ⟨hc.indexed.key,?_⟩,fun a => hc.located.owner a r,fun k a => hc.located.relay⟩
  rintro ⟨rfl,hid⟩
  exact (hc.indexed.id hid).2

def Table.candidates (t : Table) (n : Node) : Candidates :=
  match t n.id with
  | some ep => if ep.publicKey=n.key then ep.endpointState else ∅
  | none => ∅

lemma Table.candidates_of_own {t : Table} {n : Node} {ep : Endpoint} (h : Own t n ep) :
    candidates t n=ep.endpointState := by
  rw [candidates,h.1]
  exact if_pos h.2

lemma Table.candidates_of_not_own {t : Table} {n : Node} (h : ¬∃ ep, Own t n ep) : candidates t n=∅ := by
  rw [candidates]
  split
  · next ep hep => exact if_neg fun hkey => h ⟨ep,hep,hkey⟩
  · rfl

lemma Table.agrees_outcome (env : Env) (t : Table) (n : Node) (before : List Node) :
    (∀ ep, outcome env t n before=some ep → ep.Agrees n) ↔
      (wanted n=true → ¬Blocked t n before → ∀ a ∈ n.endpoints.elems, a.addr.isValid=true →
        (candidates t n).Keeps env.now n.endpoints.elems a) := by
  rw [outcome]
  by_cases hmade : wanted n=true ∧ ¬Blocked t n before
  · rw [if_pos hmade]
    have hright (Q : Prop) : (wanted n=true → ¬Blocked t n before → Q) ↔ Q :=
      ⟨fun h => h hmade.1 hmade.2,fun h _ _ => h⟩
    rw [hright]
    by_cases hown : ∃ ep, Own t n ep
    · rw [if_pos hown]
      obtain ⟨ep,hep⟩ := hown
      rw [hep.1,Option.map_some,candidates_of_own hep,← agrees_updateFromNode env.order env.now ep n env.flags]
      simp only [Option.some.injEq,forall_eq']
    · rw [if_neg hown,candidates_of_not_own hown]
      rw [← agrees_create env.order env.now n env.flags]
      simp only [Option.some.injEq,forall_eq']
  · rw [if_neg hmade]
    refine iff_of_true (fun ep h => ?_) fun hw hb => absurd ⟨hw,hb⟩ hmade
    cases h

end TunnnejiTail.Magicsock
