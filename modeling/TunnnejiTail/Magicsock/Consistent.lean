import TunnnejiTail.Magicsock.PeerMap

/-! The maps of a peerMap stay consistent: the ones by node key and by node ID lead to the same records,
and the one by address leads to the record that lists the address. What the index holds is then a table
of endpoints by node ID, and every operation is one on that table. -/
namespace TunnnejiTail.Magicsock
open Go Netmap TunnnejiTail.Types Function AList

/-- An endpoint that may be followed: it has an ID, a key and, unless it is WireGuard-only, a disco
key. -/
structure Endpoint.Sound (ep : Endpoint) : Prop where
  nodeID : ep.nodeID≠0
  publicKey : ep.publicKey.isZero=false
  disco : ep.isWireguardOnly=false → ep.discoKey.isZero=false

namespace PeerMap

def Live (m : PeerMap) (r : Ref) : Prop := m.byNodeKey.lookup (m.epOf r).publicKey=some r

variable {m : PeerMap}

lemma Live.eq {r r' : Ref} (hr : m.Live r) (hr' : m.Live r')
    (hkey : (m.epOf r).publicKey=(m.epOf r').publicKey) : r=r' := by
  rw [Live,hkey] at hr
  exact Option.some.inj (hr.symm.trans hr')

def table (m : PeerMap) (i : NodeID) : Option Endpoint := (m.byNodeID.lookup i).map m.epOf

structure Indexed (m : PeerMap) : Prop where
  key : ∀ {k r}, m.byNodeKey.lookup k=some r → (m.epOf r).publicKey=k ∧ m.byNodeID.lookup (m.epOf r).nodeID=some r
  id : ∀ {i r}, m.byNodeID.lookup i=some r → (m.epOf r).nodeID=i ∧ m.Live r
  sound : ∀ {r}, m.Live r → (m.epOf r).Sound
  allocated : ∀ {r}, m.Live r → r < m.infos.next ∧ (m.info r).ep < m.endpoints.next

def Owned (m : PeerMap) : Prop :=
  ∀ a r, m.byEpAddr.lookup a=some r ↔ m.Live r ∧ a ∈ (m.info r).epAddrs

structure Located (m : PeerMap) : Prop where
  owner : m.Owned
  relay : ∀ {k a}, m.relayEpAddrByNodeKey.lookup k=some a → a.vni.isSome=true ∧
    ∃ r, m.byNodeKey.lookup k=some r ∧ m.byEpAddr.lookup a=some r

structure Consistent (m : PeerMap) : Prop where
  indexed : m.Indexed
  located : m.Located

structure Same (m m' : PeerMap) : Prop where
  endpoints : m'.endpoints=m.endpoints
  byNodeKey : m'.byNodeKey=m.byNodeKey
  byNodeID : ∀ i, m'.byNodeID.lookup i=m.byNodeID.lookup i
  next : m'.infos.next=m.infos.next
  ep : ∀ r, (m'.info r).ep=(m.info r).ep

namespace Same
variable {m m' m'' : PeerMap}

lemma refl (m : PeerMap) : Same m m := ⟨rfl,rfl,fun _ => rfl,rfl,fun _ => rfl⟩

variable (h : Same m m')
include h

lemma trans (h' : Same m' m'') : Same m m'' :=
  ⟨h'.endpoints.trans h.endpoints,h'.byNodeKey.trans h.byNodeKey,
    fun i => (h'.byNodeID i).trans (h.byNodeID i),h'.next.trans h.next,fun r => (h'.ep r).trans (h.ep r)⟩

lemma epOf (r : Ref) : m'.epOf r=m.epOf r := by
  rw [PeerMap.epOf,PeerMap.epOf,endpoint,endpoint,h.endpoints,h.ep]

lemma live (r : Ref) : m'.Live r ↔ m.Live r := by
  rw [Live,Live,h.byNodeKey,h.epOf]

lemma table : m'.table=m.table := by
  funext i
  rw [PeerMap.table,PeerMap.table,h.byNodeID]
  cases m.byNodeID.lookup i with
  | none => rfl
  | some r => exact congrArg some (h.epOf r)

lemma indexed (hm : m.Indexed) : m'.Indexed := by
  constructor
  · intro k r hk
    rw [h.epOf,h.byNodeID]
    exact hm.key (h.byNodeKey ▸ hk)
  · intro i r hi
    rw [h.epOf,h.live]
    exact hm.id ((h.byNodeID i).symm.trans hi)
  · intro r hr
    rw [h.epOf]
    exact hm.sound ((h.live r).mp hr)
  · intro r hr
    rw [h.next,h.ep,h.endpoints]
    exact hm.allocated ((h.live r).mp hr)

lemma located (haddr : m'.byEpAddr=m.byEpAddr)
    (hepAddrs : ∀ r, (m'.info r).epAddrs=(m.info r).epAddrs)
    (hrelay : m'.relayEpAddrByNodeKey=m.relayEpAddrByNodeKey) (hm : m.Located) : m'.Located := by
  constructor
  · intro a r
    rw [haddr,hm.owner a r,h.live,hepAddrs]
  · intro k a hk
    rw [haddr,h.byNodeKey]
    exact hm.relay (hrelay ▸ hk)

end Same

lemma same_setEpAddrs (m : PeerMap) (r : Ref) (f : List EpAddr → List EpAddr) : Same m (m.setEpAddrs r f) := by
  have hep : PeerInfo.ep { m.info r with epAddrs := f (m.info r).epAddrs } = (m.infos.get r).ep := rfl
  exact ⟨rfl,rfl,fun _ => rfl,rfl,Heap.map_get_set PeerInfo.ep m.infos hep⟩

lemma epAddrs_setEpAddrs (m : PeerMap) (r r' : Ref) (f : List EpAddr → List EpAddr) :
    ((m.setEpAddrs r f).info r').epAddrs=if r'=r then f (m.info r).epAddrs else (m.info r').epAddrs := by
  by_cases hr : r'=r
  · subst hr
    rw [if_pos rfl]
    exact congrArg PeerInfo.epAddrs (Heap.get_set ..)
  · rw [if_neg hr]
    exact congrArg PeerInfo.epAddrs (Heap.get_set_ne _ hr _)

section
variable (m : PeerMap) (addr : EpAddr) (r : Ref)

lemma same_unlink : Same m (m.unlink addr r) :=
  ⟨rfl,rfl,fun _ => rfl,rfl,(same_setEpAddrs m r _).ep⟩

lemma same_link : Same m (m.link addr r) :=
  ⟨rfl,rfl,fun _ => rfl,rfl,(same_setEpAddrs m r _).ep⟩

end

lemma Same.with_relay {m' : PeerMap} (h : Same m m') (relay : GoMap NodePublic EpAddr) :
    Same m { m' with relayEpAddrByNodeKey := relay } := ⟨h.endpoints,h.byNodeKey,h.byNodeID,h.next,h.ep⟩

lemma same_releaseEpAddr (m : PeerMap) (addr : EpAddr) : Same m (m.releaseEpAddr addr) := by
  rw [releaseEpAddr]
  split
  · exact Same.refl m
  · exact (same_unlink m addr _).with_relay _

section
variable (m : PeerMap) (addr : EpAddr) (nk : NodePublic)

lemma same_replaceRelay (r : Ref) :
    Same m (m.replaceRelay addr nk r) := by
  rw [replaceRelay]
  split
  · exact (Same.refl m).with_relay _
  · exact (same_unlink m _ r).with_relay _

lemma same_takeEpAddr (r : Ref) :
    Same m (m.takeEpAddr addr nk r) := by
  rw [takeEpAddr]
  split
  · exact (same_replaceRelay m addr nk r).trans (same_link ..)
  · exact same_link m addr r

lemma same_setNodeKeyForEpAddr :
    Same m (m.setNodeKeyForEpAddr addr nk) := by
  rw [setNodeKeyForEpAddr]
  split
  · exact (same_releaseEpAddr m addr).trans (same_takeEpAddr ..)
  · exact same_releaseEpAddr m addr

end

lemma Owned.unlink (hm : m.Owned) {addr : EpAddr} {r : Ref}
    (hr : m.byEpAddr.lookup addr=some r) : (m.unlink addr r).Owned := by
  intro a r'
  rw [(same_unlink m addr r).live]
  change (m.byEpAddr.erase addr).lookup a=some r' ↔ m.Live r' ∧ a ∈ ((m.setEpAddrs r _).info r').epAddrs
  rw [epAddrs_setEpAddrs]
  by_cases ha : a=addr
  · subst ha
    have hnot : ¬(m.Live r' ∧ a ∈ if r'=r then (m.info r).epAddrs.filter fun b => b≠a else (m.info r').epAddrs) := by
      rintro ⟨hl,hmem⟩
      by_cases hr' : r'=r
      · rw [if_pos hr'] at hmem
        simp at hmem
      · rw [if_neg hr'] at hmem
        exact hr' (Option.some.inj (((hm a r').mpr ⟨hl,hmem⟩).symm.trans hr))
    simp only [lookup_erase,reduceCtorEq,hnot]
  · rw [lookup_erase_ne ha,hm a r']
    by_cases hr' : r'=r
    · simp [hr',ha]
    · simp [hr']

lemma Owned.link (hm : m.Owned) {addr : EpAddr} {r : Ref}
    (hfree : m.byEpAddr.lookup addr=none) (hlive : m.Live r) : (m.link addr r).Owned := by
  intro a r'
  rw [(same_link m addr r).live]
  change (m.byEpAddr.insert addr r).lookup a=some r' ↔ m.Live r' ∧ a ∈ ((m.setEpAddrs r _).info r').epAddrs
  rw [epAddrs_setEpAddrs]
  by_cases ha : a=addr
  · subst ha
    rw [lookup_insert]
    constructor
    · intro h
      cases h
      rw [if_pos rfl]
      exact ⟨hlive,List.mem_insert_self⟩
    · rintro ⟨hl,hmem⟩
      by_cases hr' : r'=r
      · rw [hr']
      · rw [if_neg hr'] at hmem
        have := (hm a r').mpr ⟨hl,hmem⟩
        rw [hfree] at this
        cases this
  · rw [lookup_insert_ne ha,hm a r']
    by_cases hr' : r'=r
    · simp [hr',ha]
    · simp [hr']

section
variable {m : PeerMap} (hm : m.Consistent)
include hm

variable {r : Ref}

lemma Consistent.live {k : NodePublic} (hk : m.byNodeKey.lookup k=some r) : m.Live r := by
  rw [Live,(hm.indexed.key hk).1]
  exact hk

lemma located_releaseEpAddr (addr : EpAddr) :
    (m.releaseEpAddr addr).Located ∧ (m.releaseEpAddr addr).byEpAddr.lookup addr=none := by
  rw [releaseEpAddr]
  cases hr : m.byEpAddr.lookup addr with
  | none => exact ⟨hm.located,hr⟩
  | some r =>
    refine ⟨⟨fun a r' => hm.located.owner.unlink hr a r',?_⟩,lookup_erase addr m.byEpAddr⟩
    intro k a hk
    have hold : m.relayEpAddrByNodeKey.lookup k=some a ∧ (addr.vni.isSome=true → k≠(m.epOf r).publicKey) := by
      change (if addr.vni.isSome then m.relayEpAddrByNodeKey.erase (m.epOf r).publicKey
        else m.relayEpAddrByNodeKey).lookup k=some a at hk
      by_cases hv : addr.vni.isSome=true
      · rw [if_pos hv] at hk
        have hne : k≠(m.epOf r).publicKey := by
          rintro rfl
          rw [lookup_erase] at hk
          cases hk
        rw [lookup_erase_ne hne] at hk
        exact ⟨hk,fun _ => hne⟩
      · rw [if_neg hv] at hk
        exact ⟨hk,fun h => absurd h hv⟩
    obtain ⟨hv,r',hkey,haddr⟩ := hm.located.relay hold.1
    have hne : a≠addr := by
      rintro rfl
      cases hr.symm.trans haddr
      exact hold.2 hv (hm.indexed.key hkey).1.symm
    exact ⟨hv,r',hkey,(lookup_erase_ne hne).trans haddr⟩

variable {nk : NodePublic}

section
variable {addr : EpAddr} (hfree : m.byEpAddr.lookup addr=none) (hr : m.byNodeKey.lookup nk=some r)
include hfree hr

lemma replaceRelay_spec :
    (m.replaceRelay addr nk r).Owned ∧ (m.replaceRelay addr nk r).byEpAddr.lookup addr=none ∧
    (m.replaceRelay addr nk r).relayEpAddrByNodeKey=m.relayEpAddrByNodeKey.insert nk addr ∧
    ∀ k a, k≠nk → m.relayEpAddrByNodeKey.lookup k=some a → a.vni.isSome=true ∧
      ∃ r', m.byNodeKey.lookup k=some r' ∧ (m.replaceRelay addr nk r).byEpAddr.lookup a=some r' := by
  rw [replaceRelay]
  cases hrelay : m.relayEpAddrByNodeKey.lookup nk with
  | none => exact ⟨hm.located.owner,hfree,rfl,fun k a _ hk => hm.located.relay hk⟩
  | some relay =>
    obtain ⟨-,r',hr',haddr⟩ := hm.located.relay hrelay
    cases hr.symm.trans hr'
    refine ⟨fun a r' => hm.located.owner.unlink haddr a r',?_,rfl,fun k a hk hka => ?_⟩
    · change (m.byEpAddr.erase relay).lookup addr=none
      by_cases ha : addr=relay
      · rw [ha,lookup_erase]
      · rw [lookup_erase_ne ha,hfree]
    · obtain ⟨hv,r',hkey,hra⟩ := hm.located.relay hka
      have hne : a≠relay := by
        rintro rfl
        cases haddr.symm.trans hra
        exact hk ((hm.indexed.key hkey).1.symm.trans (hm.indexed.key hr).1)
      exact ⟨hv,r',hkey,(lookup_erase_ne hne).trans hra⟩

lemma located_takeEpAddr :
    (m.takeEpAddr addr nk r).Located := by
  have hne {m' : PeerMap} (hfree : m'.byEpAddr.lookup addr=none) {a : EpAddr} {r' : Ref}
      (ha : m'.byEpAddr.lookup a=some r') : a≠addr := by
    rintro rfl
    cases hfree.symm.trans ha
  rw [takeEpAddr]
  by_cases hv : addr.vni.isSome=true
  · rw [if_pos hv]
    obtain ⟨howned,hfree',hrelay,hothers⟩ := replaceRelay_spec hm hfree hr
    have hsame := same_replaceRelay m addr nk r
    refine ⟨howned.link hfree' ((hsame.live r).mpr (hm.live hr)),fun {k a} hk => ?_⟩
    change (m.replaceRelay addr nk r).relayEpAddrByNodeKey.lookup k=some a at hk
    change a.vni.isSome=true ∧ ∃ r', (m.replaceRelay addr nk r).byNodeKey.lookup k=some r' ∧
      ((m.replaceRelay addr nk r).byEpAddr.insert addr r).lookup a=some r'
    rw [hrelay] at hk
    rw [hsame.byNodeKey]
    rcases of_lookup_insert hk with ⟨rfl,rfl⟩ | ⟨hnk,hk⟩
    · exact ⟨hv,r,hr,lookup_insert _⟩
    · obtain ⟨hva,r',hkey,haddr⟩ := hothers k a hnk hk
      exact ⟨hva,r',hkey,(lookup_insert_ne (hne hfree' haddr)).trans haddr⟩
  · rw [if_neg hv]
    refine ⟨hm.located.owner.link hfree (hm.live hr),fun {k a} hk => ?_⟩
    obtain ⟨hva,r',hkey,haddr⟩ := hm.located.relay hk
    exact ⟨hva,r',hkey,(lookup_insert_ne (hne hfree haddr)).trans haddr⟩

end

lemma Consistent.setNodeKeyForEpAddr (addr : EpAddr) (nk : NodePublic) :
    (m.setNodeKeyForEpAddr addr nk).Consistent := by
  have hsame := same_releaseEpAddr m addr
  obtain ⟨hlocated,hfree⟩ := located_releaseEpAddr hm addr
  have hrelease : (m.releaseEpAddr addr).Consistent := ⟨hsame.indexed hm.indexed,hlocated⟩
  refine ⟨(same_setNodeKeyForEpAddr m addr nk).indexed hm.indexed,?_⟩
  rw [PeerMap.setNodeKeyForEpAddr]
  split
  · next r hr => exact located_takeEpAddr hrelease hfree hr
  · exact hlocated

end

lemma same_dropDisco (m : PeerMap) (dk : DiscoPublic) (nk : NodePublic) : Same m (m.dropDisco dk nk) := by
  rw [dropDisco]
  split <;> exact ⟨rfl,rfl,fun _ => rfl,rfl,fun _ => rfl⟩

lemma same_addDisco (m : PeerMap) (dk : DiscoPublic) (nk : NodePublic) : Same m (m.addDisco dk nk) :=
  ⟨rfl,rfl,fun _ => rfl,rfl,fun _ => rfl⟩

lemma Consistent.dropDisco (hm : m.Consistent) (dk : DiscoPublic) (nk : NodePublic) :
    (m.dropDisco dk nk).Consistent := by
  refine ⟨(same_dropDisco m dk nk).indexed hm.indexed,(same_dropDisco m dk nk).located ?_ (fun r => ?_) ?_ hm.located⟩
    <;> rw [PeerMap.dropDisco] <;> split <;> rfl

lemma Consistent.addDisco (hm : m.Consistent) (dk : DiscoPublic) (nk : NodePublic) :
    (m.addDisco dk nk).Consistent :=
  ⟨(same_addDisco m dk nk).indexed hm.indexed,(same_addDisco m dk nk).located rfl (fun _ => rfl) rfl hm.located⟩

section
variable {m : PeerMap} (hm : m.Consistent)
include hm

variable {r : Ref}

lemma Consistent.byNodeID_of_live (hr : m.Live r) :
    m.byNodeID.lookup (m.epOf r).nodeID=some r := (hm.indexed.key hr).2

variable {ep : Endpoint}

lemma Consistent.setEndpoint (hr : m.Live r)
    (hid : ep.nodeID=(m.epOf r).nodeID) (hkey : ep.publicKey=(m.epOf r).publicKey) (hep : ep.Sound) :
    (m.setEndpoint (m.info r).ep ep).Consistent ∧
      (m.setEndpoint (m.info r).ep ep).table=Function.update m.table (m.epOf r).nodeID (some ep) ∧
      (m.setEndpoint (m.info r).ep ep).Live r := by
  have hid' : ∀ r', ((m.setEndpoint (m.info r).ep ep).epOf r').nodeID=(m.epOf r').nodeID :=
    fun r' => Heap.map_get_set Endpoint.nodeID m.endpoints hid _
  have hkey' : ∀ r', ((m.setEndpoint (m.info r).ep ep).epOf r').publicKey=(m.epOf r').publicKey :=
    fun r' => Heap.map_get_set Endpoint.publicKey m.endpoints hkey _
  have hself : (m.setEndpoint (m.info r).ep ep).epOf r=ep := Heap.get_set ..
  have hother {r' : Ref} (hr' : m.Live r') (hne : r'≠r) :
      (m.setEndpoint (m.info r).ep ep).epOf r'=m.epOf r' := by
    refine Heap.get_set_ne _ (fun he => hne (hr'.eq hr ?_)) _
    exact congrArg (fun e => (m.endpoint e).publicKey) he
  have hlive (r' : Ref) : (m.setEndpoint (m.info r).ep ep).Live r' ↔ m.Live r' := by
    rw [Live,hkey']
    rfl
  refine ⟨⟨⟨?_,?_,?_,?_⟩,⟨fun a r' => ?_,hm.located.relay⟩⟩,?_,(hlive r).mpr hr⟩
  · intro k r' hk
    rw [hkey',hid']
    exact hm.indexed.key hk
  · intro i r' hi
    rw [hlive,hid']
    exact hm.indexed.id hi
  · intro r' hr'
    rw [hlive] at hr'
    by_cases hne : r'=r
    · rw [hne,hself]
      exact hep
    · rw [hother hr' hne]
      exact hm.indexed.sound hr'
  · intro r' hr'
    exact hm.indexed.allocated ((hlive r').mp hr')
  · rw [hlive]
    exact hm.located.owner a r'
  · funext i
    change (m.byNodeID.lookup i).map (m.setEndpoint (m.info r).ep ep).epOf=_
    by_cases hi : i=(m.epOf r).nodeID
    · rw [hi,update_self,hm.byNodeID_of_live hr,Option.map_some,hself]
    · rw [update_of_ne hi,table]
      cases hl : m.byNodeID.lookup i with
      | none => rfl
      | some r' =>
        obtain ⟨hi',hr'⟩ := hm.indexed.id hl
        have hne : r'≠r := by
          rintro rfl
          exact hi hi'.symm
        rw [Option.map_some,Option.map_some,hother hr' hne]

lemma Consistent.alloc (ep : Endpoint) :
    ({ m with endpoints := m.endpoints.alloc ep } : PeerMap).Consistent ∧
      ({ m with endpoints := m.endpoints.alloc ep } : PeerMap).table=m.table := by
  have hepOf {r : Ref} (hr : m.Live r) : ({ m with endpoints := m.endpoints.alloc ep } : PeerMap).epOf r=m.epOf r :=
    Heap.get_alloc_ne _ (Nat.ne_of_lt (hm.indexed.allocated hr).2) ep
  have hlive (r : Ref) : ({ m with endpoints := m.endpoints.alloc ep } : PeerMap).Live r ↔ m.Live r := by
    constructor
    · intro hr
      exact hm.live hr
    · intro hr
      rw [Live,hepOf hr]
      exact hr
  refine ⟨⟨⟨?_,?_,?_,?_⟩,⟨fun a r => ?_,hm.located.relay⟩⟩,?_⟩
  · intro k r hk
    rw [hepOf (hm.live hk)]
    exact hm.indexed.key hk
  · intro i r hi
    obtain ⟨hid,hr⟩ := hm.indexed.id hi
    rw [hlive,hepOf hr]
    exact ⟨hid,hr⟩
  · intro r hr
    have hr := (hlive r).mp hr
    rw [hepOf hr]
    exact hm.indexed.sound hr
  · intro r hr
    obtain ⟨hinfo,hep⟩ := hm.indexed.allocated ((hlive r).mp hr)
    exact ⟨hinfo,Nat.lt_succ_of_lt hep⟩
  · rw [hlive]
    exact hm.located.owner a r
  · funext i
    change (m.byNodeID.lookup i).map _=(m.byNodeID.lookup i).map _
    cases hl : m.byNodeID.lookup i with
    | none => rfl
    | some r => exact congrArg some (hepOf (hm.indexed.id hl).2)

lemma Consistent.register {e : Ref} (he : e < m.endpoints.next) (hep : (m.endpoint e).Sound)
    (hkey : m.byNodeKey.lookup (m.endpoint e).publicKey=none)
    (hid : m.byNodeID.lookup (m.endpoint e).nodeID=none) : (m.register e).Consistent ∧
      (m.register e).table=Function.update m.table (m.endpoint e).nodeID (some (m.endpoint e)) := by
  have hinfo {r : Ref} (hr : r≠m.infos.next) : (m.infos.alloc ⟨e,[]⟩).get r=m.info r :=
    Heap.get_alloc_ne _ hr _
  have hold {r : Ref} (hr : m.Live r) : r≠m.infos.next := Nat.ne_of_lt (hm.indexed.allocated hr).1
  set m' : PeerMap := { m with
      infos := m.infos.alloc ⟨e,[]⟩
      byNodeKey := m.byNodeKey.insert (m.endpoint e).publicKey m.infos.next
      byNodeID := m.byNodeID.insert (m.endpoint e).nodeID m.infos.next } with hm'
  have hreg : m.register e=m' := by rw [PeerMap.register,hkey]
  rw [hreg]
  have hepOf {r : Ref} (hr : r≠m.infos.next) : m'.epOf r=m.epOf r :=
    congrArg (fun i => m.endpoint (PeerInfo.ep i)) (hinfo hr)
  have hnew : m'.epOf m.infos.next=m.endpoint e :=
    congrArg (fun i => m.endpoint (PeerInfo.ep i)) (Heap.get_alloc m.infos ⟨e,[]⟩)
  have hlive (r : Ref) : m'.Live r ↔ r=m.infos.next ∨ m.Live r := by
    by_cases hr : r=m.infos.next
    · subst hr
      refine iff_of_true ?_ (Or.inl rfl)
      rw [Live,hnew]
      exact lookup_insert _
    · rw [Live,hepOf hr,or_iff_right hr]
      change (m.byNodeKey.insert _ _).lookup _=some r ↔ m.Live r
      by_cases hk : (m.epOf r).publicKey=(m.endpoint e).publicKey
      · rw [hk,lookup_insert,Live,hk,hkey]
        simp [Ne.symm hr]
      · rw [lookup_insert_ne hk]
        rfl
  refine ⟨⟨⟨?_,?_,?_,?_⟩,⟨fun a r => ?_,?_⟩⟩,?_⟩
  · intro k r hk
    change (m.byNodeKey.insert (m.endpoint e).publicKey m.infos.next).lookup k=some r at hk
    change _ ∧ (m.byNodeID.insert (m.endpoint e).nodeID m.infos.next).lookup _=some r
    rcases of_lookup_insert hk with ⟨rfl,rfl⟩ | ⟨-,hk⟩
    · rw [hnew]
      exact ⟨rfl,lookup_insert _⟩
    · obtain ⟨hrk,hri⟩ := hm.indexed.key hk
      rw [hepOf (hold (hm.live hk)),hrk]
      have hne : (m.epOf r).nodeID≠(m.endpoint e).nodeID := by
        intro h
        rw [h,hid] at hri
        cases hri
      exact ⟨rfl,(lookup_insert_ne hne).trans hri⟩
  · intro i r hi
    change (m.byNodeID.insert (m.endpoint e).nodeID m.infos.next).lookup i=some r at hi
    rw [hlive]
    rcases of_lookup_insert hi with ⟨rfl,rfl⟩ | ⟨hie,hi⟩
    · rw [hnew]
      exact ⟨rfl,Or.inl rfl⟩
    · obtain ⟨hri,hr⟩ := hm.indexed.id hi
      rw [hepOf (hold hr)]
      exact ⟨hri,Or.inr hr⟩
  · intro r hr
    rcases (hlive r).mp hr with rfl | hr
    · rw [hnew]
      exact hep
    · rw [hepOf (hold hr)]
      exact hm.indexed.sound hr
  · intro r hr
    change r < m.infos.next+1 ∧ ((m.infos.alloc ⟨e,[]⟩).get r).ep < m.endpoints.next
    rcases (hlive r).mp hr with rfl | hr
    · rw [Heap.get_alloc]
      exact ⟨Nat.lt_succ_self _,he⟩
    · rw [hinfo (hold hr)]
      exact ⟨Nat.lt_succ_of_lt (hm.indexed.allocated hr).1,(hm.indexed.allocated hr).2⟩
  · rw [hlive]
    change m.byEpAddr.lookup a=some r ↔ _ ∧ a ∈ ((m.infos.alloc ⟨e,[]⟩).get r).epAddrs
    rw [hm.located.owner a r]
    by_cases hr : r=m.infos.next
    · subst hr
      rw [Heap.get_alloc]
      refine iff_of_false (fun h => hold h.1 rfl) fun h => ?_
      cases h.2
    · rw [hinfo hr,or_iff_right hr]
  · intro k a hk
    obtain ⟨hv,r,hkr,ha⟩ := hm.located.relay hk
    have hne : k≠(m.endpoint e).publicKey := by
      rintro rfl
      cases hkey.symm.trans hkr
    exact ⟨hv,r,(lookup_insert_ne hne).trans hkr,ha⟩
  · funext i
    change ((m.byNodeID.insert (m.endpoint e).nodeID m.infos.next).lookup i).map m'.epOf=_
    by_cases hi : i=(m.endpoint e).nodeID
    · rw [hi,lookup_insert,update_self,Option.map_some,hnew]
    · rw [lookup_insert_ne hi,update_of_ne hi,table]
      cases hl : m.byNodeID.lookup i with
      | none => rfl
      | some r => exact congrArg some (hepOf (hold (hm.indexed.id hl).2))

omit hm in
lemma dropNodeID_eq {e was : Ref} (hwas : m.byNodeID.lookup (m.endpoint e).nodeID=some was)
    (he : (m.info was).ep=e) :
    m.dropNodeID e = { m with byNodeID := m.byNodeID.erase (m.endpoint e).nodeID } := by
  rw [dropNodeID]
  simp only [hwas,he,if_true]

lemma Consistent.removeRecord_eq (hr : m.Live r) : m.removeRecord (m.info r).ep = { m with
    byNodeKey := m.byNodeKey.erase (m.epOf r).publicKey
    byNodeID := m.byNodeID.erase (m.epOf r).nodeID
    byEpAddr := (m.info r).epAddrs.foldl (fun t a => t.erase a) m.byEpAddr
    relayEpAddrByNodeKey := m.relayEpAddrByNodeKey.erase (m.epOf r).publicKey } := by
  have hkey : m.byNodeKey.lookup (m.endpoint (m.info r).ep).publicKey=some r := hr
  have hdrop : PeerMap.dropNodeID
      { m with byNodeKey := m.byNodeKey.erase (m.endpoint (m.info r).ep).publicKey } (m.info r).ep = { m with
        byNodeKey := m.byNodeKey.erase (m.epOf r).publicKey
        byNodeID := m.byNodeID.erase (m.epOf r).nodeID } :=
    dropNodeID_eq (hm.byNodeID_of_live hr) rfl
  rw [PeerMap.removeRecord]
  simp only [hkey,hdrop]
  rfl

lemma Consistent.lookup_foldl_erase (hr : m.Live r) (a : EpAddr) (r' : Ref) :
    ((m.info r).epAddrs.foldl (fun t a => t.erase a) m.byEpAddr).lookup a=some r' ↔
      m.byEpAddr.lookup a=some r' ∧ r'≠r := by
  rw [Go.lookup_foldl_erase]
  by_cases ha : a ∈ (m.info r).epAddrs
  · rw [if_pos ha,(hm.located.owner a r).mpr ⟨hr,ha⟩]
    exact iff_of_false (fun h => by cases h) fun h => h.2 (Option.some.inj h.1).symm
  · rw [if_neg ha]
    refine ⟨fun h => ⟨h,?_⟩,fun h => h.1⟩
    rintro rfl
    exact ha ((hm.located.owner a r').mp h).2

lemma Consistent.removeRecord (hr : m.Live r) : (m.removeRecord (m.info r).ep).Consistent ∧
      (m.removeRecord (m.info r).ep).table=Function.update m.table (m.epOf r).nodeID none := by
  rw [hm.removeRecord_eq hr]
  set m' : PeerMap := { m with byNodeKey := _,byNodeID := _,byEpAddr := _,relayEpAddrByNodeKey := _ } with hm'
  have hkey (k : NodePublic) (r' : Ref) :
      m'.byNodeKey.lookup k=some r' ↔ m.byNodeKey.lookup k=some r' ∧ r'≠r :=
    lookup_erase_eq_some hr (fun k hk => (hm.indexed.key hk).1.symm) k r'
  have hid (i : NodeID) (r' : Ref) :
      m'.byNodeID.lookup i=some r' ↔ m.byNodeID.lookup i=some r' ∧ r'≠r :=
    lookup_erase_eq_some (hm.byNodeID_of_live hr) (fun i hi => (hm.indexed.id hi).1.symm) i r'
  have howner (a : EpAddr) (r' : Ref) :
      m'.byEpAddr.lookup a=some r' ↔ m.byEpAddr.lookup a=some r' ∧ r'≠r := hm.lookup_foldl_erase hr a r'
  have hlive (r' : Ref) : m'.Live r' ↔ m.Live r' ∧ r'≠r := hkey (m.epOf r').publicKey r'
  refine ⟨⟨⟨?_,?_,?_,?_⟩,⟨fun a r' => ?_,?_⟩⟩,?_⟩
  · intro k r' hk
    obtain ⟨hk,hne⟩ := (hkey k r').mp hk
    obtain ⟨hrk,hri'⟩ := hm.indexed.key hk
    exact ⟨hrk,(hid _ r').mpr ⟨hri',hne⟩⟩
  · intro i r' hi
    obtain ⟨hi,hne⟩ := (hid i r').mp hi
    obtain ⟨hri',hr'⟩ := hm.indexed.id hi
    exact ⟨hri',(hlive r').mpr ⟨hr',hne⟩⟩
  · intro r' hr'
    exact hm.indexed.sound ((hlive r').mp hr').1
  · intro r' hr'
    exact hm.indexed.allocated ((hlive r').mp hr').1
  · rw [howner,hlive,hm.located.owner a r']
    exact and_right_comm
  · intro k a hk
    have hne : k≠(m.epOf r).publicKey := by
      rintro rfl
      rw [lookup_erase] at hk
      cases hk
    rw [lookup_erase_ne hne] at hk
    obtain ⟨hv,r',hkr,ha⟩ := hm.located.relay hk
    have hr' : r'≠r := by
      rintro rfl
      exact hne (hm.indexed.key hkr).1.symm
    exact ⟨hv,r',(hkey k r').mpr ⟨hkr,hr'⟩,(howner a r').mpr ⟨ha,hr'⟩⟩
  · funext i
    change ((m.byNodeID.erase (m.epOf r).nodeID).lookup i).map m.epOf=_
    by_cases hi : i=(m.epOf r).nodeID
    · rw [hi,lookup_erase,update_self]
      rfl
    · rw [lookup_erase_ne hi,update_of_ne hi]
      rfl

lemma Consistent.deleteEndpoint (hr : m.Live r) : (m.deleteEndpoint (m.info r).ep).Consistent ∧
      (m.deleteEndpoint (m.info r).ep).table=Function.update m.table (m.epOf r).nodeID none := by
  rw [PeerMap.deleteEndpoint]
  cases (m.endpoint (m.info r).ep).disco with
  | none => exact hm.removeRecord hr
  | some dk =>
    have hsame := same_dropDisco m dk (m.endpoint (m.info r).ep).publicKey
    have h := (hm.dropDisco dk (m.endpoint (m.info r).ep).publicKey).removeRecord ((hsame.live r).mpr hr)
    rw [hsame.ep,hsame.epOf,hsame.table] at h
    exact h

lemma Consistent.relabel (hep : ep.Sound) (o : MapOrder) (oldDiscoKey : DiscoPublic) :
    ∃ m', m.relabel o ep oldDiscoKey=.ok m' ∧ m'.Consistent ∧ Same m m' := by
  obtain ⟨m1,hm1,hcons,hsame⟩ : ∃ m1,
      (if ep.disco≠some oldDiscoKey then m.dropDisco oldDiscoKey ep.publicKey else m)=m1 ∧
        m1.Consistent ∧ Same m m1 := by
    split
    · exact ⟨_,rfl,hm.dropDisco ..,same_dropDisco ..⟩
    · exact ⟨_,rfl,hm,Same.refl m⟩
  rw [PeerMap.relabel,hm1]
  split
  · refine ⟨_,rfl,?_⟩
    refine List.foldlRecOn (range o ep.endpointState) _ (motive := fun m' => m'.Consistent ∧ Same m m')
      ⟨hcons,hsame⟩ ?_
    intro m' hm' c _
    exact ⟨hm'.1.setNodeKeyForEpAddr _ _,hm'.2.trans (same_setNodeKeyForEpAddr ..)⟩
  · next hw =>
    cases hd : ep.disco with
    | none =>
      have hzero := hep.disco (Bool.not_eq_true _ ▸ hw)
      rw [Endpoint.discoKey,hd] at hzero
      cases hzero
    | some dk => exact ⟨_,rfl,hcons.addDisco ..,hsame.trans (same_addDisco ..)⟩

lemma Consistent.upsertEndpoint (hr : m.Live r) (o : MapOrder) (oldDiscoKey : DiscoPublic) :
    ∃ m', m.upsertEndpoint o (m.info r).ep oldDiscoKey=.ok m' ∧ m'.Consistent ∧ m'.table=m.table := by
  have hsound := hm.indexed.sound hr
  have hreg : m.register (m.info r).ep = { m with byNodeID := m.byNodeID.insert (m.epOf r).nodeID r } := by
    rw [PeerMap.register]
    simp only [show m.byNodeKey.lookup (m.endpoint (m.info r).ep).publicKey=some r from hr]
    rfl
  have hsame : Same m (m.register (m.info r).ep) := by
    rw [hreg]
    refine ⟨rfl,rfl,fun i => ?_,rfl,fun _ => rfl⟩
    by_cases hi : i=(m.epOf r).nodeID
    · rw [hi,lookup_insert,hm.byNodeID_of_live hr]
    · rw [lookup_insert_ne hi]
  have hcons : (m.register (m.info r).ep).Consistent := by
    rw [hreg] at hsame ⊢
    exact ⟨hsame.indexed hm.indexed,hsame.located rfl (fun _ => rfl) rfl hm.located⟩
  obtain ⟨m',hm',hcons',hsame'⟩ := hcons.relabel hsound o oldDiscoKey
  refine ⟨m',?_,hcons',(hsame.trans hsame').table⟩
  rw [PeerMap.upsertEndpoint]
  exact (if_neg hsound.nodeID).trans hm'

lemma Consistent.insertEndpoint (hep : ep.Sound) (hkey : m.byNodeKey.lookup ep.publicKey=none)
    (hid : m.byNodeID.lookup ep.nodeID=none) (o : MapOrder) (oldDiscoKey : DiscoPublic) :
    ∃ m', ({ m with endpoints := m.endpoints.alloc ep } : PeerMap).upsertEndpoint o m.endpoints.next oldDiscoKey
        = .ok m' ∧ m'.Consistent ∧ m'.table=Function.update m.table ep.nodeID (some ep) := by
  obtain ⟨hcons,htable⟩ := hm.alloc ep
  have hget : ({ m with endpoints := m.endpoints.alloc ep } : PeerMap).endpoint m.endpoints.next=ep :=
    Heap.get_alloc ..
  obtain ⟨hcons',htable'⟩ := hcons.register (Nat.lt_succ_self m.endpoints.next)
    (by rw [hget]; exact hep) (by rw [hget]; exact hkey) (by rw [hget]; exact hid)
  obtain ⟨m',hm',hcons'',hsame⟩ := hcons'.relabel hep o oldDiscoKey
  refine ⟨m',?_,hcons'',?_⟩
  · rw [PeerMap.upsertEndpoint,hget,if_neg hep.nodeID]
    exact hm'
  · rw [hsame.table,htable',htable,hget]

end

end PeerMap

end TunnnejiTail.Magicsock
