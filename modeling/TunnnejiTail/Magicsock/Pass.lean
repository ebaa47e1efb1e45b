import TunnnejiTail.Magicsock.Table

/-! What a list of peers does to a table of endpoints. The peers have different IDs and different keys, so
each one decides its own row; only a key that moves from one node to another makes their order matter. -/
namespace TunnnejiTail.Magicsock
open Netmap List Function

/-- Peers with distinct non-zero IDs and distinct non-zero keys. -/
structure WellFormed (peers : List Node) : Prop where
  ids : (peers.map Node.id).Nodup
  keys : (peers.map Node.key).Nodup
  id_ne : ∀ n ∈ peers, n.id≠0
  key_ne : ∀ n ∈ peers, n.key.isZero=false

lemma WellFormed.init {l : List Node} {n : Node} (h : WellFormed (l++[n])) : WellFormed l := by
  have hids := h.ids
  have hkeys := h.keys
  rw [map_append,nodup_append] at hids hkeys
  exact ⟨hids.1,hkeys.1,fun p hp => h.id_ne p (mem_append_left _ hp), fun p hp => h.key_ne p (mem_append_left _ hp)⟩

namespace Table
variable (env : Env) (t : Table) (n : Node)

def Own (ep : Endpoint) : Prop := t n.id=some ep ∧ ep.publicKey=n.key

/-- Another node has the key when the node's turn comes, as it was not listed before. -/
def Blocked (before : List Node) : Prop :=
  ∃ j ep, j≠n.id ∧ j ∉ before.map Node.id ∧ t j=some ep ∧ ep.publicKey=n.key

/-- A node that had a disco key is made WireGuard-only and loses it. -/
def Flips : Prop :=
  ∃ ep, Own t n ep ∧ wanted n=true ∧ ep.isWireguardOnly=false ∧ n.discoKey.isZero=true

open Classical in
noncomputable def outcome (before : List Node) : Option Endpoint :=
  if wanted n=true ∧ ¬Blocked t n before then
    if ∃ ep, Own t n ep then (t n.id).map fun ep => ep.updateFromNode env.order env.now n env.flags
    else some (Endpoint.create env.order env.now n env.flags)
  else none

def KeysDistinct : Prop := ∀ i j ep ep', t i=some ep → t j=some ep' → ep.publicKey=ep'.publicKey → i=j

def NoPanic (peers : List Node) : Prop :=
  (∀ n ∈ peers, ¬Flips t n) ∧ (env.dev=true → ∀ before n after, peers=before++n::after → ¬Blocked t n before)

variable {t} {n}

lemma publicKey_of_outcome {before : List Node} {ep : Endpoint} (h : outcome env t n before=some ep) :
    ep.publicKey=n.key := by
  rw [outcome] at h
  split at h
  · split at h
    · next hown =>
      obtain ⟨own,hrow,hkey⟩ := hown
      rw [hrow] at h
      cases h
      rw [(Endpoint.updateFromNode_same ..).2.1,hkey]
    · cases h
      exact (Endpoint.create_same ..).2.1
  · cases h

lemma KeysDistinct.not_blocked (ht : KeysDistinct t) {ep : Endpoint} (hown : Own t n ep) (before : List Node) :
    ¬Blocked t n before := by
  rintro ⟨j,ep',hne,-,hj,hkey⟩
  exact hne (ht j n.id ep' ep hj hown.1 (hkey.trans hown.2.symm))

section
variable (ht : KeysDistinct t) (hid : n.id≠0) (hkey : n.key.isZero=false) {before : List Node} {t1 : Table}
  (hself : t1 n.id=t n.id) (htaken : Taken t1 n ↔ Blocked t n before)
include ht hid hkey hself htaken

lemma row_eq_ok (hflip : ¬Flips t n) (hdev : env.dev=true → ¬Blocked t n before) :
    row env t1 n=.ok (outcome env t n before) := by
  have hnz : ¬(n.id=0 ∨ n.key.isZero=true) := by simp [hid,hkey]
  rw [row,if_neg hnz,hself,outcome]
  by_cases hown : ∃ ep, t n.id=some ep ∧ ep.publicKey=n.key
  · obtain ⟨ep,hep⟩ := hown
    rw [if_pos ⟨ep,hep⟩,hep.1,Option.map_some,Option.getD_some,renew]
    have hfree := ht.not_blocked hep before
    by_cases hw : wanted n=true
    · have hnot : ¬(ep.isWireguardOnly=false ∧ n.discoKey.isZero=true) :=
        fun h => hflip ⟨ep,hep,hw,h⟩
      rw [if_pos hw,if_neg hnot,if_pos ⟨hw,hfree⟩,if_pos ⟨ep,hep⟩]
      rfl
    · rw [if_neg hw,if_neg fun h => hw h.1]
  · rw [if_neg hown]
    by_cases hb : Blocked t n before
    · have hdev' : env.dev=false := Bool.not_eq_true _ ▸ fun h => hdev h hb
      rw [if_pos (htaken.mpr hb),if_neg fun h => h.2 hb,devPanicf,hdev']
      rfl
    · rw [if_neg fun h => hb (htaken.mp h),fresh]
      by_cases hw : wanted n=true
      · rw [if_pos hw,if_pos ⟨hw,hb⟩]
        exact congrArg Except.ok (if_neg hown).symm
      · rw [if_neg hw,if_neg fun h => hw h.1]

lemma row_eq_error (h : Flips t n ∨ env.dev=true ∧ Blocked t n before) : row env t1 n=.error .panicked := by
  have hnz : ¬(n.id=0 ∨ n.key.isZero=true) := by simp [hid,hkey]
  rw [row,if_neg hnz,hself]
  rcases h with ⟨ep,hep,hw,hflip⟩ | ⟨hdev,hb⟩
  · rw [if_pos ⟨ep,hep⟩,hep.1,Option.map_some,Option.getD_some,renew,if_pos hw,if_pos hflip]
  · have hown : ¬∃ ep, t n.id=some ep ∧ ep.publicKey=n.key := by
      rintro ⟨ep,hep⟩
      exact ht.not_blocked hep before hb
    rw [if_neg hown,if_pos (htaken.mpr hb),devPanicf,hdev]
    rfl

end

/-- A list of peers comes in: the rows of the others stay, and each peer has its own. -/
structure After (env : Env) (t : Table) (peers : List Node) (t' : Table) : Prop where
  others : ∀ i, i ∉ peers.map Node.id → t' i=t i
  listed : ∀ before n after, peers=before++n::after → t' n.id=outcome env t n before

variable {peers : List Node}

lemma After.taken_iff {t' : Table} (h : After env t peers t')
    (hkeys : ((peers++[n]).map Node.key).Nodup) : Taken t' n ↔ Blocked t n peers := by
  have hother {p : Node} (hp : p ∈ peers) : p.key≠n.key := by
    rw [map_append,nodup_append] at hkeys
    exact hkeys.2.2 p.key (mem_map_of_mem hp) n.key mem_cons_self
  constructor
  · rintro ⟨j,ep,hne,hj,hk⟩
    by_cases hmem : j ∈ peers.map Node.id
    · obtain ⟨p,hp,rfl⟩ := mem_map.mp hmem
      obtain ⟨before,after,hsplit⟩ := append_of_mem hp
      rw [h.listed before p after hsplit] at hj
      exact absurd ((publicKey_of_outcome env hj).symm.trans hk) (hother hp)
    · exact ⟨j,ep,hne,hmem,(h.others j hmem).symm.trans hj,hk⟩
  · rintro ⟨j,ep,hne,hmem,hj,hk⟩
    exact ⟨j,ep,hne,(h.others j hmem).trans hj,hk⟩

omit env in
lemma split_concat {l before after : List Node} {p : Node} (h : l++[n]=before++p::after) :
    l=before ∧ n=p ∨ ∃ after', l=before++p::after' := by
  rcases eq_nil_or_concat after with rfl | ⟨after',q,rfl⟩
  · obtain ⟨hl,hn⟩ := append_inj' h rfl
    exact Or.inl ⟨hl,singleton_inj.mp hn⟩
  · rw [concat_eq_append,← cons_append,← append_assoc] at h
    exact Or.inr ⟨after',(append_inj' h rfl).1⟩

lemma noPanic_concat {l : List Node} : NoPanic env t (l++[n]) ↔
    NoPanic env t l ∧ ¬Flips t n ∧ (env.dev=true → ¬Blocked t n l) := by
  constructor
  · rintro ⟨hflip,hdev⟩
    refine ⟨⟨fun p hp => hflip p (mem_append_left _ hp),fun h before p after hl => ?_⟩,
      hflip n (mem_append_right _ mem_cons_self),fun h => hdev h l n [] rfl⟩
    refine hdev h before p (after++[n]) ?_
    rw [hl,append_assoc,cons_append]
  · rintro ⟨⟨hflip,hdev⟩,hn,hdevn⟩
    refine ⟨fun p hp => ?_,fun h before p after hl => ?_⟩
    · rcases mem_append.mp hp with hp | hp
      · exact hflip p hp
      · rw [mem_singleton.mp hp]
        exact hn
    · rcases split_concat hl with ⟨rfl,rfl⟩ | ⟨after',hl'⟩
      · exact hdevn h
      · exact hdev h before p after' hl'

lemma foldlM_upsert (ht : KeysDistinct t) (hpeers : WellFormed peers) :
    (NoPanic env t peers → ∃ t', peers.foldlM (upsert env) t=.ok t' ∧ After env t peers t') ∧
    (¬NoPanic env t peers → peers.foldlM (upsert env) t=.error .panicked) := by
  induction peers using List.reverseRecOn with
  | nil =>
    have hsplit {before after : List Node} {p : Node} : ([] : List Node)≠before++p::after := by simp
    have hno : NoPanic env t [] := ⟨forall_mem_nil _,fun _ before n after h => absurd h hsplit⟩
    refine ⟨fun _ => ⟨t,rfl,fun _ _ => rfl,fun before n after h => absurd h hsplit⟩,fun h => absurd hno h⟩
  | append_singleton l n ih =>
    have hids : n.id ∉ l.map Node.id := by
      have h := hpeers.ids
      rw [map_append,nodup_append] at h
      exact fun hmem => h.2.2 n.id hmem n.id mem_cons_self rfl
    have hn : n ∈ l++[n] := mem_append_right _ mem_cons_self
    obtain ⟨hok,herr⟩ := ih hpeers.init
    rw [noPanic_concat,foldlM_append]
    by_cases hpre : NoPanic env t l
    · obtain ⟨t1,hfold,hafter⟩ := hok hpre
      have hself := hafter.others n.id hids
      have htaken := hafter.taken_iff env hpeers.keys
      have hstep : (do
          let t' ← l.foldlM (upsert env) t
          [n].foldlM (upsert env) t')=upsert env t1 n := by
        rw [hfold]
        exact bind_pure (upsert env t1 n)
      rw [hstep,upsert]
      constructor
      · rintro ⟨-,hflip,hdev⟩
        rw [row_eq_ok env ht (hpeers.id_ne n hn) (hpeers.key_ne n hn) hself htaken hflip hdev]
        refine ⟨_,rfl,fun i hi => ?_,fun before p after hsplit => ?_⟩
        · rw [map_append,mem_append,not_or] at hi
          have hne : i≠n.id := by
            rintro rfl
            exact hi.2 mem_cons_self
          rw [update_of_ne hne,hafter.others i hi.1]
        · rcases split_concat hsplit with ⟨rfl,rfl⟩ | ⟨after',hl⟩
          · exact update_self ..
          · have hne : p.id≠n.id := by
              intro h
              rw [← h,hl] at hids
              exact hids (mem_map_of_mem (mem_append_right _ mem_cons_self))
            rw [update_of_ne hne,hafter.listed before p after' hl]
      · intro hpanic
        have hbad : Flips t n ∨ env.dev=true ∧ Blocked t n l := by
          by_contra h
          rw [not_or,not_and] at h
          exact hpanic ⟨hpre,h⟩
        rw [row_eq_error env ht (hpeers.id_ne n hn) (hpeers.key_ne n hn) hself htaken hbad]
        rfl
    · refine ⟨fun h => absurd h.1 hpre,fun _ => ?_⟩
      rw [herr hpre]
      rfl

end Table

end TunnnejiTail.Magicsock
