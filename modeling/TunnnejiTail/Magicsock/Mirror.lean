import TunnnejiTail.Magicsock.FullMap

/-! The endpoints of a connection are those of its peers. -/
namespace TunnnejiTail.Magicsock
open Go Netmap TunnnejiTail.Types List Option Function AList Bool Conn Endpoint

variable {cur : NodeID → Option Node} {c : Conn}

/-- One endpoint for each peer that has a disco key or is WireGuard-only, with its ID and key, and none
for any other node, however they are looked up. -/
structure Mirrors (cur : NodeID → Option Node) (c : Conn) : Prop where
  node : ∀ i, (∃ e, c.peerMap.endpointForNodeID i=some e) ↔ ∃ n, cur i=some n ∧ wanted n=true
  identity : ∀ i e n, c.peerMap.endpointForNodeID i=some e → cur i=some n →
    (c.peerMap.endpoint e).nodeID=i ∧ (c.peerMap.endpoint e).publicKey=n.key
  key : ∀ k e, c.peerMap.endpointForNodeKey k=some e ↔
    ∃ i n, cur i=some n ∧ n.key=k ∧ c.peerMap.endpointForNodeID i=some e
  addr : ∀ a e, c.peerMap.endpointForEpAddr a=some e → ∃ i, c.peerMap.endpointForNodeID i=some e

def reach (n : Node) : NodePublic × DiscoPublic × Bool := (n.key,n.discoKey,n.isWireGuardOnly)

variable {n : Node}

lemma wanted_of_reach {n' : Node} (h : reach n=reach n') : wanted n=wanted n' := by
  obtain ⟨-,h⟩ := Prod.mk.inj h
  obtain ⟨hdisco,hwg⟩ := Prod.mk.inj h
  rw [wanted,wanted,hdisco,hwg]

/-- The rows of a table are those of the wanted peers, under their keys. -/
def Table.Mirrors (cur : NodeID → Option Node) (t : Table) : Prop :=
  ∀ i, (t i).map Endpoint.publicKey=((cur i).filter fun n => wanted n).map Node.key

variable {t : Table}

lemma Table.Mirrors.congr {cur' : NodeID → Option Node} (h : Table.Mirrors cur t)
    (hcur : ∀ i, (cur' i).map reach=(cur i).map reach) : Table.Mirrors cur' t := by
  intro i
  rw [h i]
  have hi := hcur i
  cases hc : cur i with
  | none =>
    rw [hc] at hi
    rw [map_eq_none_iff.mp hi]
  | some n =>
    rw [hc] at hi
    obtain ⟨n',hn',hreach⟩ := map_eq_some_iff.mp hi
    rw [hn',Option.filter,Option.filter,wanted_of_reach hreach]
    split
    · exact congrArg some (congrArg Prod.fst hreach).symm
    · rfl

/-- A connection whose remembered peers are the current ones and whose table is theirs. -/
structure Tracks (cur : NodeID → Option Node) (c : Conn) : Prop where
  consistent : c.peerMap.Consistent
  isOpen : c.closed=false
  peers : ∀ i, (c.peersByID.lookup i).map reach=(cur i).map reach
  table : Table.Mirrors cur c.peerMap.table

variable {i : NodeID}

lemma Table.Mirrors.exists_node (h : Table.Mirrors cur t)
    {ep : Endpoint} (hi : t i=some ep) : ∃ n, cur i=some n ∧ wanted n=true ∧ ep.publicKey=n.key := by
  have hrow := h i
  rw [hi,Option.map_some] at hrow
  obtain ⟨n,hn,hkey⟩ := map_eq_some_iff.mp hrow.symm
  obtain ⟨hn,hw⟩ := filter_eq_some_iff.mp hn
  exact ⟨n,hn,hw,hkey.symm⟩

lemma Table.Mirrors.exists_endpoint (h : Table.Mirrors cur t)
    (hi : cur i=some n) (hw : wanted n=true) : ∃ ep, t i=some ep ∧ ep.publicKey=n.key := by
  have hrow := h i
  rw [hi,Option.filter,if_pos hw] at hrow
  exact map_eq_some_iff.mp hrow

lemma endpointForNodeID_of_live {m : PeerMap} (hm : m.Consistent) {r : Ref} (hr : m.Live r) :
    m.endpointForNodeID (m.epOf r).nodeID=some (m.info r).ep := by
  rw [PeerMap.endpointForNodeID,hm.byNodeID_of_live hr]
  rfl

lemma Tracks.mirrors (h : Tracks cur c) : Mirrors cur c := by
  have hc := h.consistent
  refine ⟨fun i => ?_,fun i e n he hn => ?_,fun k e => ?_,fun a e he => ?_⟩
  · constructor
    · rintro ⟨e,he⟩
      obtain ⟨r,-,-,-,htable⟩ := hc.of_endpointForNodeID he
      obtain ⟨n,hn,hw,-⟩ := h.table.exists_node htable
      exact ⟨n,hn,hw⟩
    · rintro ⟨n,hn,hw⟩
      obtain ⟨ep,hep,-⟩ := h.table.exists_endpoint hn hw
      obtain ⟨r,hr,rfl,-⟩ := hc.table_eq_some_iff.mp hep
      exact ⟨_,endpointForNodeID_of_live hc hr⟩
  · obtain ⟨r,-,rfl,hid,htable⟩ := hc.of_endpointForNodeID he
    obtain ⟨n',hn',-,hkey⟩ := h.table.exists_node htable
    cases hn.symm.trans hn'
    exact ⟨hid,hkey⟩
  · constructor
    · intro he
      obtain ⟨r,hr,rfl,rfl⟩ := live_of_endpointForNodeKey hc he
      obtain ⟨n,hn,-,hkey⟩ := h.table.exists_node (hc.table_eq_some_iff.mpr ⟨r,hr,rfl,rfl⟩)
      exact ⟨_,n,hn,hkey.symm,endpointForNodeID_of_live hc hr⟩
    · rintro ⟨i,n,hn,rfl,he⟩
      obtain ⟨r,hr,rfl,-,htable⟩ := hc.of_endpointForNodeID he
      obtain ⟨n',hn',-,hkey⟩ := h.table.exists_node htable
      cases hn.symm.trans hn'
      have hzero : n.key.isZero=false := hkey ▸ (hc.indexed.sound hr).publicKey
      rw [PeerMap.endpointForNodeKey,if_neg (by rw [hzero]; exact Bool.false_ne_true),← hkey,
        show c.peerMap.byNodeKey.lookup (c.peerMap.epOf r).publicKey=some r from hr]
      rfl
  · obtain ⟨r,hr,rfl⟩ := map_eq_some_iff.mp he
    exact ⟨_,endpointForNodeID_of_live hc ((hc.located.owner a r).mp hr).1⟩

def stale (c : Conn) (peers : List Node) : List NodeID :=
  c.peerMap.byNodeID.keys.filter fun i => i ∉ peers.map Node.id

def unwanted (peers : List Node) : List Node := peers.filter fun n => !wanted n

/-- What an event must meet. A whole list has distinct non-zero IDs and keys; no peer in it takes over the
key of a node that still has it at that point or turns WireGuard-only and loses its disco key; and the
endpoints to be cleaned up, if any, are not just as many as the peers without one. -/
def Event.Fits (c : Conn) : Event → Prop
  | .setNetworkMap peers => WellFormed peers ∧ (∀ n ∈ peers, ¬Table.Flips c.peerMap.table n) ∧
    (∀ before n after, peers=before++n::after → ¬Table.Blocked c.peerMap.table n before) ∧
    (stale c peers=[] ∨ (stale c peers).length≠(unwanted peers).length)
  | .upsertPeer n => n.id≠0 ∧ n.key.isZero=false ∧ ¬Table.Flips c.peerMap.table n ∧ ¬Table.Taken c.peerMap.table n
  | .handleDiscoKeyAdvertisement _ key => key.isZero=false
  | _ => True

variable {env : Env}

lemma Table.publicKey_outcome {before : List Node} (hfree : ¬Blocked t n before) :
    (outcome env t n before).map publicKey=((some n).filter fun n => wanted n).map Node.key := by
  rw [outcome,Option.filter]
  by_cases hw : wanted n=true
  · rw [if_pos ⟨hw,hfree⟩,if_pos hw]
    by_cases hown : ∃ ep, Own t n ep
    · rw [if_pos hown]
      obtain ⟨ep,hep⟩ := hown
      rw [hep.1]
      exact congrArg some ((updateFromNode_same ..).2.1.trans hep.2)
    · rw [if_neg hown]
      exact congrArg some (create_same ..).2.1
  · rw [if_neg fun h => hw h.1,if_neg hw]
    rfl

variable {peers : List Node}

lemma WellFormed.find_eq (hpeers : WellFormed peers) (hn : n ∈ peers) :
    peers.find? (fun p => p.id=n.id)=some n := by
  cases hfind : peers.find? (fun p => p.id=n.id) with
  | none => exact absurd (decide_eq_true rfl) (find?_eq_none.mp hfind n hn)
  | some p =>
    have hid : p.id=n.id := by simpa using find?_some hfind
    exact congrArg some (inj_on_of_nodup_map hpeers.ids (mem_of_find?_eq_some hfind) hn hid)

lemma find_eq_none (hi : i ∉ peers.map Node.id) : peers.find? (fun p => p.id=i)=none := by
  refine find?_eq_none.mpr fun p hp hid => hi ?_
  exact List.mem_map.mpr ⟨p,hp,of_decide_eq_true hid⟩

section
variable (hpeers : WellFormed peers)
include hpeers

lemma WellFormed.lookup_fill_eq_find (i : NodeID) :
    (fill Node.id some peers (∅ : GoMap NodeID Node)).lookup i=peers.find? fun p => p.id=i := by
  by_cases hi : i ∈ peers.map Node.id
  · obtain ⟨n,hn,rfl⟩ := List.mem_map.mp hi
    rw [hpeers.lookup_fill hn,hpeers.find_eq hn]
  · rw [find_eq_none hi]
    refine lookup_fill_eq_none.mpr fun p hp hid => absurd ?_ hi
    exact List.mem_map.mpr ⟨p,hp,hid⟩

lemma reach_of_sameAsBefore
    (hsame : c.sameAsBefore env peers=true) (i : NodeID) :
    (c.peersByID.lookup i).map reach=(peers.find? fun p => p.id=i).map reach := by
  rw [sameAsBefore,Bool.and_eq_true,Bool.and_eq_true,decide_eq_true_eq,decide_eq_true_eq,List.all_eq_true] at hsame
  obtain ⟨⟨-,hlen⟩,hall⟩ := hsame
  have hprev {n : Node} (hn : n ∈ peers) : ∃ prev, c.peersByID.lookup n.id=some prev ∧ prev.equal n=true := by
    have h := hall n hn
    split at h
    · next prev hprev => exact ⟨prev,hprev,h⟩
    · cases h
  by_cases hi : i ∈ peers.map Node.id
  · obtain ⟨n,hn,rfl⟩ := List.mem_map.mp hi
    obtain ⟨prev,hlookup,hequal⟩ := hprev hn
    rw [hlookup,hpeers.find_eq hn]
    have h := Node.reach_of_equal hequal
    simp only [Prod.mk.injEq] at h
    simp only [Option.map_some,reach,h]
  · rw [find_eq_none hi]
    have hsub : peers.map Node.id ⊆ c.peersByID.keys := by
      intro j hj
      obtain ⟨n,hn,rfl⟩ := List.mem_map.mp hj
      obtain ⟨prev,hlookup,-⟩ := hprev hn
      exact lookup_isSome.mp (by rw [hlookup]; rfl)
    have hperm := (subperm_of_subset hpeers.ids hsub).perm_of_length_le (by
      rw [length_map,hlen,length_entries_eq_keys])
    have hnone : c.peersByID.lookup i=none := lookup_eq_none.mpr fun h => hi (hperm.mem_iff.mpr h)
    rw [hnone]

/-- After the list the rows are those of the nodes it leaves out and of the peers that get an endpoint. -/
theorem rows_after
    (hfree : ∀ before n after, peers=before++n::after → ¬Table.Blocked c.peerMap.table n before)
    (hafter : Table.After env c.peerMap.table peers t) :
    PeerMap.Rows t (stale c peers++(peers.filter fun n => wanted n).map Node.id) := by
  have hlisted {n : Node} (hn : n ∈ peers) : (t n.id).isSome=wanted n := by
    obtain ⟨before,after,hsplit⟩ := append_of_mem hn
    rw [hafter.listed before n after hsplit,← isSome_map (f := publicKey),
      Table.publicKey_outcome (hfree before n after hsplit),isSome_map,Option.filter]
    split
    · next hw => exact hw.symm
    · next hw => exact (not_eq_true _ ▸ hw).symm
  have hnodup : ((peers.filter fun n => wanted n).map Node.id).Nodup :=
    hpeers.ids.sublist (List.Sublist.map _ filter_sublist)
  constructor
  · refine nodup_append.mpr ⟨c.peerMap.byNodeID.keys_nodup.filter _,hnodup,fun i hi j hj => ?_⟩
    rintro rfl
    have hout : i ∉ peers.map Node.id := of_decide_eq_true (mem_filter.mp hi).2
    obtain ⟨n,hn,rfl⟩ := List.mem_map.mp hj
    exact hout (List.mem_map_of_mem (mem_of_mem_filter hn))
  · intro i
    rw [mem_append,stale,mem_filter,decide_eq_true_eq]
    by_cases hi : i ∈ peers.map Node.id
    · obtain ⟨n,hn,rfl⟩ := List.mem_map.mp hi
      rw [hlisted hn]
      constructor
      · rintro (h | h)
        · exact absurd hi h.2
        · obtain ⟨p,hp,hid⟩ := List.mem_map.mp h
          obtain ⟨hmem,hw⟩ := mem_filter.mp hp
          rwa [inj_on_of_nodup_map hpeers.ids hmem hn hid] at hw
      · intro hw
        exact Or.inr (List.mem_map_of_mem (mem_filter.mpr ⟨hn,hw⟩))
    · rw [hafter.others i hi,← c.peerMap.rows_byNodeID.2 i]
      constructor
      · rintro (h | h)
        · exact h.1
        · obtain ⟨n,hn,rfl⟩ := List.mem_map.mp h
          exact absurd (List.mem_map_of_mem (mem_of_mem_filter hn)) hi
      · intro h
        exact Or.inl ⟨h,hi⟩

end

lemma length_unwanted (peers : List Node) :
    peers.length=(peers.filter fun n => wanted n).length + (unwanted peers).length :=
  length_eq_length_filter_add (fun n => wanted n)

section
variable (h : Tracks cur c) (env : Env)
include h

lemma Tracks.of_quiet {c' : Conn} (hquiet : Conn.Quiet c c') : Tracks cur c' := by
  refine ⟨hquiet.consistent,hquiet.closed.trans h.isOpen,fun i => ?_,fun i => ?_⟩
  · rw [hquiet.peersByID]
    exact h.peers i
  · have hid := congrArg (Option.map fun x : NodeID × NodePublic × Bool => x.2.1) (hquiet.identity i)
    rw [Option.map_map,Option.map_map] at hid
    exact hid.trans (h.table i)

lemma Tracks.setNetworkMap {peers : List Node} (hfits : (Event.setNetworkMap peers).Fits c) :
    ∃ c', c.setNetworkMap env peers=.ok c' ∧ Tracks (fun i => peers.find? fun n => n.id=i) c' := by
  obtain ⟨hpeers,hflips,hfree,hstale⟩ := hfits
  by_cases hsame : c.sameAsBefore env peers=true
  · refine ⟨c,setNetworkMap_same env h.isOpen hsame,h.consistent,h.isOpen,
      reach_of_sameAsBefore hpeers hsame,h.table.congr fun i => ?_⟩
    rw [← reach_of_sameAsBefore hpeers hsame i,h.peers i]
  · obtain ⟨hok,-⟩ := setNetworkMap_eq env h.consistent h.isOpen (not_eq_true _ ▸ hsame) hpeers
    obtain ⟨c',t,hc',hopen,hcons,hids,hafter,l,hrows,htable⟩ := hok ⟨hflips,fun _ => hfree⟩
    refine ⟨c',hc',hcons,hopen,fun i => ?_,fun i => ?_⟩
    · rw [hids,hpeers.lookup_fill_eq_find]
    · have hcount := hrows.length_eq (rows_after hpeers hfree hafter)
      rw [length_append,length_map] at hcount
      have hall := length_unwanted peers
      by_cases hi : i ∈ peers.map Node.id
      · obtain ⟨n,hn,rfl⟩ := List.mem_map.mp hi
        obtain ⟨before,after,hsplit⟩ := append_of_mem hn
        have hrow : c'.peerMap.table n.id=Table.outcome env c.peerMap.table n before := by
          refine table_listed hafter ?_ hsplit
          rw [htable]
          split
          · exact Or.inl rfl
          · exact Or.inr rfl
        rw [hrow,Table.publicKey_outcome (hfree before n after hsplit),hpeers.find_eq hn]
      · have hold := hafter.others i hi
        have hnone : c'.peerMap.table i=none := by
          rw [htable]
          split
          · dsimp only
            rw [hold,filter_eq_none_iff]
            intro ep hep hkey
            obtain ⟨n,hn,hk⟩ := List.mem_map.mp (of_decide_eq_true hkey)
            obtain ⟨before,after,hsplit⟩ := append_of_mem hn
            refine hfree before n after hsplit ⟨i,ep,?_,fun hmem => hi ?_,hep,hk.symm⟩
            · rintro rfl
              exact hi (List.mem_map_of_mem hn)
            · rw [hsplit,map_append]
              exact mem_append_left _ hmem
          · next heq =>
            rw [hold]
            have hnil : stale c peers=[] := hstale.resolve_right (not_not.mpr (by omega))
            cases hrow : c.peerMap.table i with
            | none => rfl
            | some ep =>
              have hmem : i ∈ stale c peers :=
                mem_filter.mpr ⟨(c.peerMap.rows_byNodeID.2 i).mpr (by rw [hrow]; rfl),decide_eq_true hi⟩
              rw [hnil] at hmem
              cases hmem
        rw [hnone,find_eq_none hi]
        rfl

lemma Tracks.upsertPeer {n : Node} (hfits : (Event.upsertPeer n).Fits c) :
    ∃ c', c.upsertPeer env n=.ok c' ∧ Tracks (Function.update cur n.id (some n)) c' := by
  obtain ⟨hid,hkey,hflip,htaken⟩ := hfits
  have hblocked : Table.Taken c.peerMap.table n ↔ Table.Blocked c.peerMap.table n [] := by
    refine exists₂_congr fun j ep => ?_
    simp
  have hfree : ¬Table.Blocked c.peerMap.table n [] := fun hb => htaken (hblocked.mpr hb)
  have hrow := Table.row_eq_ok env h.consistent.keysDistinct hid hkey rfl hblocked hflip fun _ => hfree
  have hupsert : Table.upsert env c.peerMap.table n
      = .ok (Function.update c.peerMap.table n.id (Table.outcome env c.peerMap.table n [])) := by
    rw [Table.upsert,hrow]
    rfl
  obtain ⟨c',hc',hopen,hcons,hids,htable⟩ := exists_upsertPeer env h.consistent h.isOpen hid hupsert
  refine ⟨c',hc',hcons,hopen,fun i => ?_,fun i => ?_⟩
  · rw [hids]
    by_cases hi : i=n.id
    · rw [hi,lookup_insert,update_self]
    · rw [lookup_insert_ne hi,update_of_ne hi]
      exact h.peers i
  · rw [htable]
    by_cases hi : i=n.id
    · rw [hi,update_self,update_self,Table.publicKey_outcome hfree]
    · rw [update_of_ne hi,update_of_ne hi]
      exact h.table i

lemma Tracks.removePeer (nid : NodeID) : Tracks (Function.update cur nid none) (c.removePeer nid) := by
  obtain ⟨hopen,hcons,hnone,hsome⟩ := removePeer_eq h.consistent h.isOpen nid
  cases hprev : c.peersByID.lookup nid with
  | none =>
    have hcur : cur nid=none := by
      have hpeer := h.peers nid
      rw [hprev] at hpeer
      exact map_eq_none_iff.mp hpeer.symm
    rw [hnone hprev,← hcur,update_eq_self]
    exact h
  | some prev =>
    obtain ⟨hids,htable⟩ := hsome prev hprev
    refine ⟨hcons,hopen,fun i => ?_,fun i => ?_⟩
    · rw [hids]
      by_cases hi : i=nid
      · rw [hi,lookup_erase,update_self]
      · rw [lookup_erase_ne hi,update_of_ne hi]
        exact h.peers i
    · rw [htable]
      by_cases hi : i=nid
      · rw [hi,update_self,update_self]
        rfl
      · rw [update_of_ne hi,update_of_ne hi]
        exact h.table i

lemma Tracks.handle {ev : Event} (hfits : ev.Fits c) :
    ∃ c', c.handle env ev=.ok c' ∧ Tracks (ev.peers cur) c' := by
  have hc := h.consistent
  cases ev with
  | setNetworkMap peers => exact h.setNetworkMap env hfits
  | upsertPeer n => exact h.upsertPeer env hfits
  | removePeer nid => exact ⟨_,rfl,h.removePeer nid⟩
  | updateNetmapDelta muts => exact ⟨_,rfl,h.of_quiet (quiet_updateNetmapDelta hc env muts)⟩
  | handleDiscoKeyAdvertisement node key =>
    obtain ⟨hquiet,hok⟩ := handleDiscoKeyAdvertisement_eq hc env node key
    obtain ⟨c',hc'⟩ := hok hfits
    exact ⟨c',hc',h.of_quiet (hquiet c' hc')⟩
  | setNodeKeyForEpAddr addr nk => exact ⟨_,rfl,h.of_quiet (quiet_setNodeKeyForEpAddr hc addr nk)⟩
  | setCandidates nk candidates => exact ⟨_,rfl,h.of_quiet (quiet_setCandidates hc nk candidates)⟩

end

inductive FittingRun : (NodeID → Option Node) → Conn → Prop
  | start : FittingRun (fun _ => none) {}
  | step {cur : NodeID → Option Node} {c c' : Conn} (h : FittingRun cur c) (env : Env) (ev : Event)
    (hfits : ev.Fits c) (hev : c.handle env ev=.ok c') : FittingRun (ev.peers cur) c'

lemma FittingRun.tracks (h : FittingRun cur c) : Tracks cur c := by
  induction h with
  | start =>
    refine ⟨consistent_empty,rfl,fun _ => rfl,fun _ => rfl⟩
  | step h env ev hfits hev ih =>
    obtain ⟨c'',hc'',htracks⟩ := ih.handle env hfits
    cases hc''.symm.trans hev
    exact htracks

/-- In every run whose events fit, no event panics and the endpoints are those of the peers. -/
theorem FittingRun.endpoints_eq {cur : NodeID → Option Node} {c : Conn} (h : FittingRun cur c) :
    Mirrors cur c ∧ ∀ env (ev : Event), ev.Fits c → ∃ c', c.handle env ev=.ok c' ∧ Mirrors (ev.peers cur) c' := by
  refine ⟨h.tracks.mirrors,fun env ev hfits => ?_⟩
  obtain ⟨c',hc',htracks⟩ := h.tracks.handle env hfits
  exact ⟨c',hc',htracks.mirrors⟩

lemma fits_somePeer : (Event.setNetworkMap [somePeer 1 1 2 1]).Fits {} := by
  refine ⟨wellFormed_somePeer (by decide) (by decide),?_,?_,Or.inl rfl⟩
  · rintro n - ⟨ep,⟨hrow,-⟩,-⟩
    cases hrow
  · rintro before n after - ⟨j,ep,-,-,hrow,-⟩
    cases hrow

def introduced : Conn := (({} : Conn).setNetworkMap someEnv [somePeer 1 1 2 1]).toOption.getD {}

lemma fittingRun_introduced :
    FittingRun (fun i => [somePeer 1 1 2 1].find? fun n => n.id=i) introduced := by
  have hrun : ({} : Conn).handle someEnv (.setNetworkMap [somePeer 1 1 2 1])=.ok introduced :=
    eq_ok_of_isSome (by decide +kernel)
  exact FittingRun.start.step someEnv (.setNetworkMap [somePeer 1 1 2 1]) fits_somePeer hrun

/-- A peer that was removed has no endpoint under its key any more. -/
theorem FittingRun.endpoints_of_removed : introduced.peerMap.endpointForNodeKey (.fill 1)=some 0 ∧
    (introduced.removePeer 1).peerMap.endpointForNodeKey (.fill 1)=none := by
  refine ⟨by decide +kernel,?_⟩
  obtain ⟨c',hc',hmirrors⟩ := fittingRun_introduced.endpoints_eq.2 someEnv (.removePeer 1) trivial
  cases hc'
  cases he : (introduced.removePeer 1).peerMap.endpointForNodeKey (.fill 1) with
  | none => rfl
  | some e =>
    obtain ⟨i,n,hn,-,-⟩ := (hmirrors.key _ e).mp he
    by_cases hi : i=1
    · rw [hi,Event.peers,update_self] at hn
      cases hn
    · rw [Event.peers,update_of_ne hi,find_eq_none] at hn
      · cases hn
      · rw [map_singleton,mem_singleton]
        exact hi

/-- One peer goes and one without a disco key comes, so the endpoints are as many as the peers, and the
endpoint of the first stays. -/
theorem removed_peer_keeps_endpoint : ∃ c, introduced.setNetworkMap someEnv [somePeer 2 3 0 1]=.ok c ∧
    WellFormed [somePeer 2 3 0 1] ∧ c.peerMap.endpointForNodeID 1=some 0 ∧
    c.peerMap.endpointForNodeKey (.fill 1)=some 0 ∧
    ¬Mirrors ((Event.setNetworkMap [somePeer 2 3 0 1]).peers fun _ => none) c := by
  have hrun : introduced.setNetworkMap someEnv [somePeer 2 3 0 1]
      = .ok ((introduced.setNetworkMap someEnv [somePeer 2 3 0 1]).toOption.getD {}) :=
    eq_ok_of_isSome (by decide +kernel)
  have he : ((introduced.setNetworkMap someEnv [somePeer 2 3 0 1]).toOption.getD {}).peerMap.endpointForNodeID 1
      = some 0 := by decide +kernel
  refine ⟨_,hrun,wellFormed_somePeer (by decide) (by decide),he,by decide +kernel,fun hmirrors => ?_⟩
  obtain ⟨n,hn,-⟩ := (hmirrors.node 1).mp ⟨0,he⟩
  have hnone : [somePeer 2 3 0 1].find? (fun n => n.id=1)=none := find_eq_none (by decide)
  cases hnone.symm.trans hn

end TunnnejiTail.Magicsock
