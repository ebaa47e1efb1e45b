import TunnnejiTail.Magicsock.Consistent
import TunnnejiTail.Magicsock.Conn

/-! Seen from outside, an index of endpoints is a table of them by node ID in which no two have the same
key. A peer that comes in changes its own row and no other, and this is what the code does. -/
namespace TunnnejiTail.Magicsock
open Go Netmap TunnnejiTail.Types Function Option Endpoint Conn

abbrev Table := NodeID → Option Endpoint

namespace Table
variable (env : Env) (t : Table) (n : Node)

def Taken : Prop := ∃ j ep, j≠n.id ∧ t j=some ep ∧ ep.publicKey=n.key

def fresh : Option Endpoint :=
  if wanted n then some (Endpoint.create env.order env.now n env.flags) else none

/-- The row of a node whose endpoint has its key. One that is not WireGuard-only cannot do without a disco
key. -/
def renew (ep : Endpoint) : Except Fault (Option Endpoint) :=
  if wanted n then
    if ep.isWireguardOnly=false ∧ n.discoKey.isZero=true then .error .panicked
    else .ok (some (ep.updateFromNode env.order env.now n env.flags))
  else .ok none

open Classical in
noncomputable def row : Except Fault (Option Endpoint) :=
  if n.id=0 ∨ n.key.isZero=true then devPanicf env.dev (t n.id)
  else if ∃ ep, t n.id=some ep ∧ ep.publicKey=n.key then
    ((t n.id).map (renew env n)).getD (.ok none)
  else if Taken t n then devPanicf env.dev none
  else .ok (fresh env n)

noncomputable def upsert : Except Fault Table := (row env t n).map (Function.update t n.id)

end Table

lemma map_devPanicf {α β : Type} (dev : Bool) (a : α) (f : α → β) :
    (devPanicf dev a).map f=devPanicf dev (f a) := by
  cases dev <;> rfl

/-- A computation on an index does what one on its table does, and keeps the index consistent. -/
def Refines (x : Except Fault PeerMap) (y : Except Fault Table) : Prop :=
  x.map PeerMap.table=y ∧ ∀ m, x=.ok m → m.Consistent

namespace Refines

variable {x : Except Fault PeerMap} {m : PeerMap} {t : Table}

lemma of_ok (hx : x=.ok m) (hm : m.Consistent)
    (ht : m.table=t) : Refines x (.ok t) := by
  subst hx
  subst ht
  refine ⟨rfl,fun m' h => ?_⟩
  cases h
  exact hm

lemma of_error {e : Fault} (hx : x=.error e) : Refines x (.error e) := by
  subst hx
  refine ⟨rfl,fun m' h => ?_⟩
  cases h

lemma devPanicf (hm : m.Consistent) (ht : m.table=t) (dev : Bool) :
    Refines (Magicsock.devPanicf dev m) (Magicsock.devPanicf dev t) := by
  cases dev with
  | true => exact of_error rfl
  | false => exact of_ok rfl hm ht

lemma foldlM {α : Type} {f : PeerMap → α → Except Fault PeerMap} {g : Table → α → Except Fault Table}
    (hstep : ∀ m a, m.Consistent → Refines (f m a) (g m.table a)) (hm : m.Consistent)
    (l : List α) : Refines (l.foldlM f m) (l.foldlM g m.table) := by
  induction l generalizing m with
  | nil => exact of_ok rfl hm rfl
  | cons a l ih =>
    obtain ⟨hmap,hcons⟩ := hstep m a hm
    rw [List.foldlM_cons,List.foldlM_cons,← hmap]
    cases hf : f m a with
    | error e => exact of_error rfl
    | ok m' => exact ih (hcons m' hf)

end Refines

section
variable {m : PeerMap} (hm : m.Consistent)
include hm

namespace PeerMap

variable {i : NodeID}

lemma Consistent.of_endpointForNodeID {e : Ref} (h : m.endpointForNodeID i=some e) :
    ∃ r, m.Live r ∧ (m.info r).ep=e ∧ (m.epOf r).nodeID=i ∧ m.table i=some (m.epOf r) := by
  obtain ⟨r,hr,rfl⟩ := map_eq_some_iff.mp h
  obtain ⟨hid,hlive⟩ := hm.indexed.id hr
  exact ⟨r,hlive,rfl,hid,by rw [table,hr]; rfl⟩

omit hm in
lemma table_eq_none_iff : m.table i=none ↔ m.byNodeID.lookup i=none := map_eq_none_iff

variable {ep : Endpoint}

lemma Consistent.table_eq_some_iff :
    m.table i=some ep ↔ ∃ r, m.Live r ∧ (m.epOf r).nodeID=i ∧ m.epOf r=ep := by
  rw [table,map_eq_some_iff]
  constructor
  · rintro ⟨r,hr,rfl⟩
    obtain ⟨hid,hlive⟩ := hm.indexed.id hr
    exact ⟨r,hlive,hid,rfl⟩
  · rintro ⟨r,hlive,rfl,rfl⟩
    exact ⟨r,hm.byNodeID_of_live hlive,rfl⟩

lemma Consistent.byNodeKey_isSome {k : NodePublic} :
    (m.byNodeKey.lookup k).isSome ↔ ∃ j ep, m.table j=some ep ∧ ep.publicKey=k := by
  rw [isSome_iff_exists]
  constructor
  · rintro ⟨r,hr⟩
    exact ⟨_,_,hm.table_eq_some_iff.mpr ⟨r,hm.live hr,rfl,rfl⟩,(hm.indexed.key hr).1⟩
  · rintro ⟨j,ep,hj,rfl⟩
    obtain ⟨r,hlive,-,rfl⟩ := hm.table_eq_some_iff.mp hj
    exact ⟨r,hlive⟩

lemma Consistent.table_inj {j : NodeID} {ep' : Endpoint} (hi : m.table i=some ep)
    (hj : m.table j=some ep') (hkey : ep.publicKey=ep'.publicKey) : i=j := by
  obtain ⟨r,hr,rfl,rfl⟩ := hm.table_eq_some_iff.mp hi
  obtain ⟨r',hr',rfl,rfl⟩ := hm.table_eq_some_iff.mp hj
  rw [hr.eq hr' hkey]

end PeerMap

variable (env : Env) {n : Node} (hid : n.id≠0) (hkey : n.key.isZero=false)
include hid hkey

omit hm in
lemma sound_create (hw : wanted n=true) : (Endpoint.create env.order env.now n env.flags).Sound := by
  have hsame := create_same env.order env.now n env.flags
  refine ⟨hsame.1 ▸ hid,hsame.2.1 ▸ hkey,fun hwg => ?_⟩
  rw [hsame.2.2] at hwg
  rw [discoKey_create]
  simpa [wanted,hwg] using hw

open Classical in
lemma refines_addPeer {t : Table} (ht : m.table=Function.update t n.id none) : Refines (addPeer env m n)
    ((if Table.Taken t n then devPanicf env.dev none else .ok (Table.fresh env n)).map (Function.update t n.id)) := by
  have hnone : m.table n.id=none := by rw [ht,update_self]
  have htaken : Table.Taken t n ↔ (m.byNodeKey.lookup n.key).isSome := by
    rw [hm.byNodeKey_isSome,ht]
    constructor
    · rintro ⟨j,ep,hne,hj,hk⟩
      exact ⟨j,ep,(update_of_ne hne ..).trans hj,hk⟩
    · rintro ⟨j,ep,hj,hk⟩
      have hne : j≠n.id := by
        rintro rfl
        rw [update_self] at hj
        cases hj
      exact ⟨j,ep,hne,(update_of_ne hne ..).symm.trans hj,hk⟩
  rw [addPeer,PeerMap.endpointForNodeKey,if_neg (by rw [hkey]; exact Bool.false_ne_true)]
  cases hk : m.byNodeKey.lookup n.key with
  | some r =>
    rw [if_pos (htaken.mpr (by rw [hk]; rfl)),map_devPanicf]
    exact Refines.devPanicf hm ht env.dev
  | none =>
    have hfree : ¬Table.Taken t n := fun h => by
      rw [htaken,hk] at h
      cases h
    rw [if_neg hfree,Table.fresh]
    simp only [map_none]
    by_cases hw : wanted n=true
    · have hsame := create_same env.order env.now n env.flags
      obtain ⟨m',hm',hcons,htable⟩ := hm.insertEndpoint (sound_create env hid hkey hw)
        (by rw [hsame.2.1]; exact hk) (by rw [hsame.1]; exact PeerMap.table_eq_none_iff.mp hnone)
        env.order (.fill 0)
      rw [if_pos hw,skip_eq,hw]
      rw [hsame.1,ht,update_idem] at htable
      exact Refines.of_ok hm' hcons htable
    · rw [if_neg hw,skip_eq,Bool.eq_false_iff.mpr hw]
      exact Refines.of_ok rfl hm ht

omit hid hkey hm in
lemma upsertEndpoint_error {e : Ref} (hwg : (m.endpoint e).isWireguardOnly=false)
    (hdisco : (m.endpoint e).disco=none) (o : MapOrder) (oldDiscoKey : DiscoPublic) :
    m.upsertEndpoint o e oldDiscoKey=.error .panicked := by
  rw [PeerMap.upsertEndpoint,PeerMap.relabel,hwg,hdisco]
  split <;> rfl

omit hid hkey in
lemma refines_renew {r : Ref} (hr : m.Live r) (hrid : (m.epOf r).nodeID=n.id) : Refines
      (if n.discoKey.isZero && !n.isWireGuardOnly then .ok (m.deleteEndpoint (m.info r).ep)
      else (m.setEndpoint (m.info r).ep ((m.epOf r).updateFromNode env.order env.now n env.flags)).upsertEndpoint
        env.order (m.info r).ep (m.epOf r).discoKey)
      ((Table.renew env n (m.epOf r)).map (Function.update m.table n.id)) := by
  have hsame := updateFromNode_same env.order env.now (m.epOf r) n env.flags
  rw [Table.renew]
  by_cases hw : wanted n=true
  · rw [if_pos hw,skip_eq,hw,if_neg (by decide)]
    by_cases hflip : (m.epOf r).isWireguardOnly=false ∧ n.discoKey.isZero=true
    · rw [if_pos hflip]
      have hget : (m.setEndpoint (m.info r).ep ((m.epOf r).updateFromNode env.order env.now n env.flags)).endpoint
          (m.info r).ep=(m.epOf r).updateFromNode env.order env.now n env.flags := Heap.get_set ..
      refine Refines.of_error (upsertEndpoint_error ?_ ?_ _ _)
      · rw [hget,hsame.2.2]
        exact hflip.1
      · rw [hget]
        exact disco_updateFromNode _ _ _ _ _ ((hm.indexed.sound hr).disco hflip.1) hflip.2
    · rw [if_neg hflip]
      have hsound : ((m.epOf r).updateFromNode env.order env.now n env.flags).Sound := by
        refine ⟨hsame.1 ▸ (hm.indexed.sound hr).nodeID,hsame.2.1 ▸ (hm.indexed.sound hr).publicKey,fun hwg => ?_⟩
        rw [discoKey_updateFromNode]
        rw [hsame.2.2] at hwg
        exact Bool.not_eq_true _ ▸ fun hz => hflip ⟨hwg,hz⟩
      obtain ⟨hcons,htable,hlive⟩ := hm.setEndpoint hr hsame.1 hsame.2.1 hsound
      obtain ⟨m',hm',hcons',htable'⟩ := hcons.upsertEndpoint hlive env.order (m.epOf r).discoKey
      rw [hrid] at htable
      exact Refines.of_ok hm' hcons' (htable'.trans htable)
  · obtain ⟨hcons,htable⟩ := hm.deleteEndpoint hr
    rw [if_neg hw,skip_eq,Bool.eq_false_iff.mpr hw,if_pos (by decide)]
    rw [hrid] at htable
    exact Refines.of_ok rfl hcons htable

omit hid hkey in
lemma refines_upsertPeerLocked : Refines (upsertPeerLocked env m n) (Table.upsert env m.table n) := by
  have hself : Refines (devPanicf env.dev m)
      ((devPanicf env.dev (m.table n.id)).map (Function.update m.table n.id)) := by
    rw [map_devPanicf,update_eq_self]
    exact Refines.devPanicf hm rfl env.dev
  rw [upsertPeerLocked,Table.upsert,Table.row]
  by_cases hid : n.id=0
  · rw [if_pos hid,if_pos (Or.inl hid)]
    exact hself
  by_cases hkey : n.key.isZero=true
  · rw [if_neg hid,if_pos hkey,if_pos (Or.inr hkey)]
    exact hself
  rw [if_neg hid,if_neg hkey,if_neg (not_or.mpr ⟨hid,hkey⟩)]
  have hkey' : n.key.isZero=false := Bool.not_eq_true _ ▸ hkey
  cases he : m.endpointForNodeID n.id with
  | none =>
    have hnone : m.table n.id=none := PeerMap.table_eq_none_iff.mpr (map_eq_none_iff.mp he)
    have hnot : ¬∃ ep, m.table n.id=some ep ∧ ep.publicKey=n.key := by
      rintro ⟨ep,hep,-⟩
      cases hnone.symm.trans hep
    rw [if_neg hnot]
    exact refines_addPeer hm env hid hkey' (by rw [← hnone,update_eq_self])
  | some e =>
    obtain ⟨r,hr,rfl,hrid,htable⟩ := hm.of_endpointForNodeID he
    by_cases hrkey : (m.epOf r).publicKey=n.key
    · rw [if_pos ⟨_,htable,hrkey⟩,htable]
      change Refines (if (m.epOf r).publicKey≠n.key then _ else _) _
      rw [if_neg (not_not.mpr hrkey)]
      exact refines_renew hm env hr hrid
    · have hnot : ¬∃ ep, m.table n.id=some ep ∧ ep.publicKey=n.key := by
        rintro ⟨ep,hep,hk⟩
        cases htable.symm.trans hep
        exact hrkey hk
      obtain ⟨hcons,hdel⟩ := hm.deleteEndpoint hr
      rw [hrid] at hdel
      rw [if_neg hnot]
      change Refines (if (m.epOf r).publicKey≠n.key then _ else _) _
      rw [if_pos hrkey]
      exact refines_addPeer hcons env hid hkey' hdel

end

namespace PeerMap
variable {m : PeerMap}

def Rows (t : Table) (l : List NodeID) : Prop := l.Nodup ∧ ∀ i, i ∈ l ↔ (t i).isSome

variable {l : List NodeID}

lemma Rows.length_eq {t : Table} {l' : List NodeID} (h : Rows t l) (h' : Rows t l') : l.length=l'.length :=
  ((List.perm_ext_iff_of_nodup h.1 h'.1).mpr fun i => (h.2 i).trans (h'.2 i).symm).length_eq

lemma rows_byNodeID (m : PeerMap) : Rows m.table m.byNodeID.keys := by
  refine ⟨m.byNodeID.keys_nodup,fun i => ?_⟩
  rw [table,isSome_map,AList.lookup_isSome]
  rfl

variable (hm : m.Consistent)
include hm

lemma Consistent.rows_byNodeKey :
    Rows m.table (m.byNodeKey.entries.map fun e => (m.epOf e.2).nodeID) := by
  have hlookup {e : (_ : NodePublic) × Ref} (he : e ∈ m.byNodeKey.entries) : m.byNodeKey.lookup e.1=some e.2 :=
    AList.mem_lookup_iff.mpr he
  constructor
  · refine List.Nodup.map_on (fun e he e' he' hid => ?_) m.byNodeKey.nodupKeys.nodup
    obtain ⟨hkey,hrid⟩ := hm.indexed.key (hlookup he)
    obtain ⟨hkey',hrid'⟩ := hm.indexed.key (hlookup he')
    rw [hid,hrid'] at hrid
    have hsnd : e'.2=e.2 := some.inj hrid
    rw [hsnd] at hkey'
    exact Sigma.ext (hkey.symm.trans hkey') (heq_of_eq hsnd.symm)
  · intro i
    rw [List.mem_map,isSome_iff_exists]
    constructor
    · rintro ⟨e,he,rfl⟩
      exact ⟨_,hm.table_eq_some_iff.mpr ⟨e.2,hm.live (hlookup he),rfl,rfl⟩⟩
    · rintro ⟨ep,hep⟩
      obtain ⟨r,hr,hid,-⟩ := hm.table_eq_some_iff.mp hep
      exact ⟨⟨_,r⟩,AList.mem_lookup_iff.mp hr,hid⟩

lemma Consistent.nodeCount_eq (hl : Rows m.table l) (dev : Bool) :
    m.nodeCount dev=.ok l.length := by
  have hkey : m.byNodeKey.entries.length=l.length := by
    rw [← hm.rows_byNodeKey.length_eq hl,List.length_map]
  have hid : m.byNodeID.entries.length=l.length := by
    rw [length_entries_eq_keys,m.rows_byNodeID.length_eq hl]
  rw [nodeCount,hkey,hid,if_neg (not_not.mpr rfl)]

lemma Consistent.visit (keep : List NodePublic) (e : NodePublic × Ref) :
    (m.visit (evict keep) e).Consistent ∧ (m.visit (evict keep) e).table
      = fun i => (m.table i).filter fun ep => decide (ep.publicKey=e.1 → ep.publicKey ∈ keep) := by
  have hkept (hall : ∀ i ep, m.table i=some ep → ep.publicKey=e.1 → ep.publicKey ∈ keep) :
      m.table=fun i => (m.table i).filter fun ep => decide (ep.publicKey=e.1 → ep.publicKey ∈ keep) := by
    funext i
    cases ht : m.table i with
    | none => rfl
    | some ep => simp only [Option.filter,decide_eq_true (hall i ep ht),if_true]
  rw [PeerMap.visit]
  cases hr : m.byNodeKey.lookup e.1 with
  | none =>
    refine ⟨hm,hkept fun i ep hi hk => ?_⟩
    have hsome := hm.byNodeKey_isSome.mpr ⟨i,ep,hi,hk⟩
    rw [hr] at hsome
    cases hsome
  | some r =>
    have hkey : (m.endpoint (m.info r).ep).publicKey=e.1 := (hm.indexed.key hr).1
    simp only [evict,hkey]
    by_cases hkeep : e.1 ∈ keep
    · rw [if_pos hkeep]
      exact ⟨hm,hkept fun _ _ _ hk => hk ▸ hkeep⟩
    · rw [if_neg hkeep]
      obtain ⟨hcons,htable⟩ := hm.deleteEndpoint (hm.live hr)
      refine ⟨hcons,htable.trans (funext fun i => ?_)⟩
      have hrow := hm.table_eq_some_iff.mpr ⟨r,hm.live hr,rfl,rfl⟩
      by_cases hi : i=(m.epOf r).nodeID
      · rw [hi,update_self,hrow]
        simp [Option.filter,hkeep,show (m.epOf r).publicKey=e.1 from hkey]
      · rw [update_of_ne hi]
        cases ht : m.table i with
        | none => rfl
        | some ep =>
          have hne : ep.publicKey≠e.1 := fun h => hi (hm.table_inj ht hrow (h.trans hkey.symm))
          simp [Option.filter,hne]

lemma Consistent.cleanUp (env : Env) (keep : List NodePublic) :
    (cleanUp env m keep).Consistent ∧ (cleanUp env m keep).table
      = fun i => (m.table i).filter fun ep => decide (ep.publicKey ∈ keep) := by
  have hloop (l : List (NodePublic × Ref)) :
      (l.foldl (fun m e => m.visit (evict keep) e) m).Consistent ∧
      (l.foldl (fun m e => m.visit (evict keep) e) m).table=fun i =>
        (m.table i).filter fun ep => decide (ep.publicKey ∈ l.map Prod.fst → ep.publicKey ∈ keep) := by
    induction l using List.reverseRecOn with
    | nil =>
      refine ⟨hm,funext fun i => ?_⟩
      change m.table i=_
      cases m.table i <;> simp [Option.filter]
    | append_singleton l e ih =>
      rw [List.foldl_append,List.foldl_cons,List.foldl_nil]
      obtain ⟨hcons,htable⟩ := ih.1.visit keep e
      refine ⟨hcons,htable.trans (funext fun i => ?_)⟩
      have hiff (ep : Endpoint) : (ep.publicKey ∈ (l++[e]).map Prod.fst → ep.publicKey ∈ keep)
          ↔ (ep.publicKey ∈ l.map Prod.fst → ep.publicKey ∈ keep) ∧ (ep.publicKey=e.1 → ep.publicKey ∈ keep) := by
        rw [List.map_append,List.mem_append,or_imp,List.map_singleton,List.mem_singleton]
      simp only [ih.2,filter_filter,hiff,Bool.decide_and]
  obtain ⟨hcons,htable⟩ := hloop (range env.order m.byNodeKey)
  refine ⟨hcons,htable.trans (funext fun i => ?_)⟩
  cases ht : m.table i with
  | none => rfl
  | some ep =>
    have hmem : ep.publicKey ∈ (range env.order m.byNodeKey).map Prod.fst := by
      obtain ⟨r,hr⟩ := isSome_iff_exists.mp (hm.byNodeKey_isSome.mpr ⟨i,ep,ht,rfl⟩)
      exact List.mem_map.mpr ⟨(ep.publicKey,r),(mem_range ..).mpr hr,rfl⟩
    simp only [Option.filter,hmem,forall_true_left]

end PeerMap

end TunnnejiTail.Magicsock
