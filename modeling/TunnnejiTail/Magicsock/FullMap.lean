import TunnnejiTail.Magicsock.Runs

/-! A whole network map against what came before it. -/
namespace TunnnejiTail.Magicsock
open Netmap TunnnejiTail.Types List Table

namespace Conn

def Says (c : Conn) (peers : List Node) : Prop :=
  ∀ n ∈ peers, ∀ e, c.peerMap.endpointForNodeID n.id=some e → (c.peerMap.endpoint e).publicKey=n.key →
    (c.peerMap.endpoint e).Agrees n

variable {peers : List Node}

lemma says_iff {c : Conn} (hc : c.peerMap.Consistent) :
    c.Says peers ↔ ∀ n ∈ peers, ∀ ep, c.peerMap.table n.id=some ep → ep.publicKey=n.key → ep.Agrees n := by
  refine forall₂_congr fun n _ => ?_
  constructor
  · intro h ep hep hkey
    obtain ⟨r,hr,hid,rfl⟩ := hc.table_eq_some_iff.mp hep
    refine h (c.peerMap.info r).ep ?_ hkey
    rw [PeerMap.endpointForNodeID,← hid,hc.byNodeID_of_live hr]
    rfl
  · intro h e he hkey
    obtain ⟨r,-,rfl,-,htable⟩ := hc.of_endpointForNodeID he
    exact h _ htable hkey

/-- When a network map is taken over. If it is the one before, nothing is looked at, so nothing may have
changed since. Otherwise no peer may make the call panic, and the addresses of each peer that gets an
endpoint are all kept. -/
def TakesOver (env : Env) (c : Conn) (peers : List Node) : Prop :=
  if c.sameAsBefore env peers=true then c.Says peers
  else Table.NoPanic env c.peerMap.table peers ∧
    ∀ before n after, peers=before++n::after → wanted n=true → ¬Table.Blocked c.peerMap.table n before →
      ∀ a ∈ n.endpoints.elems, a.addr.isValid=true →
        (Table.candidates c.peerMap.table n).Keeps env.now n.endpoints.elems a

lemma table_listed {t t' : Table} {env : Env} {t0 : Table}
    (hafter : Table.After env t0 peers t)
    (htable : t'=(fun i => (t i).filter fun ep => decide (ep.publicKey ∈ peers.map Node.key)) ∨ t'=t)
    {before after : List Node} {n : Node} (hsplit : peers=before++n::after) :
    t' n.id=outcome env t0 n before := by
  have hrow := hafter.listed before n after hsplit
  rcases htable with rfl | rfl
  · dsimp only
    rw [hrow]
    cases hout : outcome env t0 n before with
    | none => rfl
    | some ep =>
      have hmem : ep.publicKey ∈ peers.map Node.key := by
        rw [publicKey_of_outcome env hout,hsplit]
        exact mem_map_of_mem (mem_append_right _ mem_cons_self)
      simp only [Option.filter,decide_eq_true hmem,if_true]
  · exact hrow

end Conn

/-- After any run, a whole network map is taken over exactly if it is not the remembered one or the
endpoints still are as it says, apart from addresses beyond the first 32768 and from those that were
learnt at runtime and are too old. -/
theorem full_map_wins_iff {c : Conn} (hrun : Run c) (env : Env) {peers : List Node}
    (hpeers : WellFormed peers) :
    (∃ c', c.setNetworkMap env peers=.ok c' ∧ c'.Says peers) ↔ c.TakesOver env peers := by
  obtain ⟨hc,hopen⟩ := hrun.consistent
  rw [Conn.TakesOver]
  by_cases hsame : c.sameAsBefore env peers=true
  · rw [if_pos hsame,Conn.setNetworkMap_same env hopen hsame]
    constructor
    · rintro ⟨c',h,hagree⟩
      cases h
      exact hagree
    · intro hagree
      exact ⟨c,rfl,hagree⟩
  · rw [if_neg hsame]
    obtain ⟨hok,herr⟩ := Conn.setNetworkMap_eq env hc hopen (Bool.not_eq_true _ ▸ hsame) hpeers
    by_cases hno : Table.NoPanic env c.peerMap.table peers
    · obtain ⟨c',t,hc',-,hcons,-,hafter,l,-,htable⟩ := hok hno
      have htable' : c'.peerMap.table =
          (fun i => (t i).filter fun ep => decide (ep.publicKey ∈ peers.map Node.key)) ∨ c'.peerMap.table=t := by
        rw [htable]
        split
        · exact Or.inl rfl
        · exact Or.inr rfl
      have hlisted {before after : List Node} {n : Node} (hsplit : peers=before++n::after) :=
        Conn.table_listed hafter htable' hsplit
      have hagree : c'.Says peers ↔ ∀ before n after, peers=before++n::after →
          ∀ ep, Table.outcome env c.peerMap.table n before=some ep → ep.Agrees n := by
        rw [Conn.says_iff hcons]
        constructor
        · intro h before n after hsplit ep hep
          have hn : n ∈ peers := by
            rw [hsplit]
            exact mem_append_right _ mem_cons_self
          exact h n hn ep ((hlisted hsplit).trans hep) (Table.publicKey_of_outcome env hep)
        · intro h n hn ep hep _
          obtain ⟨before,after,hsplit⟩ := append_of_mem hn
          exact h before n after hsplit ep ((hlisted hsplit).symm.trans hep)
      simp only [Table.agrees_outcome] at hagree
      rw [← hagree,and_iff_right hno]
      constructor
      · rintro ⟨c'',h,h'⟩
        cases hc'.symm.trans h
        exact h'
      · intro h
        exact ⟨c',hc',h⟩
    · rw [herr hno]
      refine iff_of_false ?_ fun h => hno h.1
      rintro ⟨c',h,-⟩
      cases h

def someEnv : Env := ⟨false,.asStored,0,⟨false,false⟩⟩

def somePeer (id : NodeID) (key disco : UInt8) (derp : ℤ) : Node :=
  { Node.zero with id := id,key := .fill key,discoKey := .fill disco,homeDERP := derp }

/-- A connection that was given a network map of one peer and then a delta that moves it to relay 2. -/
def moved : Conn :=
  (((({} : Conn).setNetworkMap someEnv [somePeer 1 1 2 1]).toOption).getD {}).updateNetmapDelta someEnv
    [.derpHome 1 2]

lemma eq_ok_of_isSome {ε α : Type} {x : Except ε α} {a : α} (h : x.toOption.isSome=true) :
    x=.ok (x.toOption.getD a) := by
  cases x with
  | error e => cases h
  | ok b => rfl

lemma run_moved : Run moved := by
  have hfirst : ({} : Conn).setNetworkMap someEnv [somePeer 1 1 2 1]
      = .ok ((({} : Conn).setNetworkMap someEnv [somePeer 1 1 2 1]).toOption.getD {}) :=
    eq_ok_of_isSome (by decide +kernel)
  exact (Run.start.step someEnv (.setNetworkMap [somePeer 1 1 2 1]) hfirst).step someEnv
    (.updateNetmapDelta [.derpHome 1 2]) rfl

/-- An address of the peer becomes known after it has moved. -/
theorem Run.indexes_agree_moved : (moved.peerMap.setNodeKeyForEpAddr ⟨⟨.v4 1,7000⟩,none⟩ (.fill 1)).byEpAddr.lookup
    ⟨⟨.v4 1,7000⟩,none⟩=some 0 := by
  have h := run_moved.step someEnv (.setNodeKeyForEpAddr ⟨⟨.v4 1,7000⟩,none⟩ (.fill 1)) rfl
  exact ((h.indexes_agree 0).2.1 _).mpr (by decide +kernel)

lemma wellFormed_somePeer {id : NodeID} {key disco : UInt8} {derp : ℤ} (hid : id≠0)
    (hkey : (Raw32.fill key).isZero=false) : WellFormed [somePeer id key disco derp] := by
  refine ⟨nodup_singleton _,nodup_singleton _,?_,?_⟩
  · intro n hn
    rw [mem_singleton.mp hn]
    exact hid
  · intro n hn
    rw [mem_singleton.mp hn]
    exact hkey

/-- The network map that came first comes again after a delta, and the peer stays at the other relay. -/
theorem delta_outlives_full_map : ¬∀ c, Run c → ∀ env peers, WellFormed peers →
    ∃ c', c.setNetworkMap env peers=.ok c' ∧ c'.Says peers := by
  intro h
  obtain ⟨c',hc',hagree⟩ := h moved run_moved someEnv [somePeer 1 1 2 1] (wellFormed_somePeer (by decide) (by decide))
  have hsame : moved.sameAsBefore someEnv [somePeer 1 1 2 1]=true := by decide +kernel
  cases hc'
  have he : moved.peerMap.endpointForNodeID 1=some 0 := by decide +kernel
  have hkey : (moved.peerMap.endpoint 0).publicKey=(somePeer 1 1 2 1).key := by decide +kernel
  have hderp : (moved.peerMap.endpoint 0).derpAddr≠Endpoint.derpAddrOf (somePeer 1 1 2 1).homeDERP := by
    decide +kernel
  exact hderp (hagree _ mem_cons_self 0 he hkey).derp

/-- A network map that is not the one before is taken over. -/
theorem full_map_wins_again : moved.sameAsBefore someEnv [somePeer 1 1 2 3]=false ∧
    ∃ c', moved.setNetworkMap someEnv [somePeer 1 1 2 3]=.ok c' ∧ c'.Says [somePeer 1 1 2 3] := by
  have hslow : moved.sameAsBefore someEnv [somePeer 1 1 2 3]=false := by decide +kernel
  refine ⟨hslow,(full_map_wins_iff run_moved someEnv (wellFormed_somePeer (by decide) (by decide))).mpr ?_⟩
  refine ⟨⟨?_,?_⟩,?_⟩
  · rintro n hn ⟨ep,-,-,-,hzero⟩
    rw [mem_singleton.mp hn] at hzero
    exact absurd hzero (by decide)
  · intro h
    cases h
  · intro before n after hsplit _ _ a ha
    have hn : n ∈ [somePeer 1 1 2 3] := by
      rw [hsplit]
      exact mem_append_right _ mem_cons_self
    rw [mem_singleton.mp hn] at ha
    cases ha

end TunnnejiTail.Magicsock
