import TunnnejiTail.Netmap.TailnetLock
import TunnnejiTail.Tka.Rotation

/-! The two tailnet-lock filters compared. The filter for a full netmap also drops the keys that a
rotation made obsolete, which is a matter of the whole set of peers; the filter for a delta looks at
one peer at a time. -/
namespace TunnnejiTail.Netmap
open Go TunnnejiTail.Types Tka List Option Peers NodeMutation RotationTracker SigRotationDetails

section
variable (S : Scheme Bytes) (authority : Tka.State)

/-- A peer that is not subject to tailnet lock or has a valid signature. -/
def LockAdmits (p : Node) : Prop :=
  p.unsignedPeerAPIOnly=true ∨ p.keySignature.elems≠[] ∧ nodeKeyAuthorized S authority p.key p.keySignature.elems=.ok ()

def rotated (p : Node) : Option RotationDetails :=
  if p.unsignedPeerAPIOnly=true ∨ p.keySignature.elems=[] then none
  else ((nodeKeyAuthorizedWithDetails S authority p.key p.keySignature.elems).toOption).join

/-- The wrapping key for which a peer contends: its chain of rotations starts with a direct
signature for it. -/
def contender (p : Node) : Option (Bytes × SigRotationDetails) := do
  let d ← rotated S authority p
  let initial ← d.initialSig
  if initial.top.sigKind=.direct then
    some (initial.top.wrappingPubkey,⟨p.key,d.prevNodeKeys.length⟩) else none

def contenders (peers : List Node) (wrapping : Bytes) : List SigRotationDetails :=
  (forKey Prod.fst wrapping (peers.filterMap (contender S authority))).map Prod.snd

def prevNodeKeys (p : Node) : List NodePublic :=
  ((rotated S authority p).map RotationDetails.prevNodeKeys).getD []

def Superseded (peers : List Node) (k : NodePublic) : Prop :=
  ∃ p ∈ peers, k ∈ prevNodeKeys S authority p

end

/-- A key that is not dead contends for a wrapping key with another one that has at least as many
previous keys. -/
def Outranked (dead : NodePublic → Prop) (v : List SigRotationDetails) (k : NodePublic) : Prop :=
  ∃ a ∈ v, a.np=k ∧ ¬dead k ∧ (2≤v.count a ∨ ∃ b ∈ v, b≠a ∧ ¬dead b.np ∧ a.numPrevKeys≤b.numPrevKeys)

/-- The keys that are dead after the contenders for each wrapping key in turn were compared. -/
def deadAfter (dead : NodePublic → Prop) : List (List SigRotationDetails) → NodePublic → Prop
  | [] => dead
  | v::vs => deadAfter (fun k => dead k ∨ Outranked dead v k) vs

namespace RotationTracker

/-- Of contenders sorted by their previous keys, those that are given up. -/
def losers : List SigRotationDetails → List SigRotationDetails
  | [] => []
  | [_] => []
  | first::second::rest =>
    if first.numPrevKeys=second.numPrevKeys then first::second::rest else second::rest

lemma settle_eq (obsolete : List NodePublic) (v : List SigRotationDetails) :
    settle obsolete v=obsolete++(losers (sortStable (fun rd => -(rd.numPrevKeys : ℤ))
      (v.filter fun rd => rd.np ∉ obsolete))).map np := by
  unfold settle
  dsimp only
  generalize sortStable (fun rd : SigRotationDetails => -(rd.numPrevKeys : ℤ))
    (v.filter fun rd => rd.np ∉ obsolete)=l
  match l with
  | [] => simp [losers]
  | [_] => simp [losers]
  | first::second::rest =>
    rw [losers,apply_ite (List.map np),apply_ite (obsolete ++ ·)]

lemma mem_losers {l : List SigRotationDetails}
    (hl : l.Pairwise fun a b => b.numPrevKeys≤a.numPrevKeys) (a : SigRotationDetails) : a ∈ losers l ↔
    a ∈ l ∧ (2≤l.count a ∨ ∃ b ∈ l, b≠a ∧ a.numPrevKeys≤b.numPrevKeys) := by
  match l with
  | [] => simp [losers]
  | [x] =>
    refine iff_of_false not_mem_nil ?_
    rintro ⟨ha,h⟩
    cases mem_singleton.mp ha
    rcases h with h | ⟨b,hb,hne,-⟩
    · simp at h
    · exact hne (mem_singleton.mp hb)
  | x::y::rest =>
    obtain ⟨hx,hrest⟩ := pairwise_cons.mp hl
    have hy (b : SigRotationDetails) (hb : b ∈ y::rest) : b.numPrevKeys≤y.numPrevKeys := by
      rcases mem_cons.mp hb with rfl | hb
      · exact le_rfl
      · exact (pairwise_cons.mp hrest).1 b hb
    by_cases htie : x.numPrevKeys=y.numPrevKeys
    · rw [losers,if_pos htie]
      refine (and_iff_left_of_imp fun ha => ?_).symm
      by_cases hax : x=a
      · subst hax
        by_cases hyx : y=x
        · exact .inl (by simp [hyx])
        · exact .inr ⟨y,by simp,hyx,htie.le⟩
      · exact .inr ⟨x,mem_cons_self,hax,hx a ((mem_cons.mp ha).resolve_left (Ne.symm hax))⟩
    · rw [losers,if_neg htie]
      have hlt : y.numPrevKeys<x.numPrevKeys :=
        lt_of_le_of_ne (hx y mem_cons_self) (Ne.symm htie)
      constructor
      · intro ha
        have hax : x≠a := fun h => absurd (hy a ha) (not_le.mpr (h ▸ hlt))
        exact ⟨mem_cons_of_mem x ha,.inr ⟨x,mem_cons_self,hax,hx a ha⟩⟩
      · rintro ⟨ha,h⟩
        refine (mem_cons.mp ha).resolve_left fun hax => ?_
        subst hax
        rcases h with h | ⟨b,hb,hne,hle⟩
        · rw [count_cons_self] at h
          have hmem : a ∈ y::rest := count_pos_iff.mp (by omega)
          exact absurd (hy a hmem) (not_le.mpr hlt)
        · have hb := hy b ((mem_cons.mp hb).resolve_left hne)
          omega

lemma mem_settle {obsolete : List NodePublic} {v : List SigRotationDetails} {k : NodePublic} :
    k ∈ settle obsolete v ↔ k ∈ obsolete ∨ Outranked (· ∈ obsolete) v k := by
  let live := v.filter fun rd => rd.np ∉ obsolete
  let l := sortStable (fun rd : SigRotationDetails => -(rd.numPrevKeys : ℤ)) live
  have hperm : l.Perm live := sortStable_perm ..
  have hsorted : l.Pairwise fun a b => b.numPrevKeys≤a.numPrevKeys :=
    (sortStable_pairwise live).imp fun h => by omega
  have hmem (a : SigRotationDetails) : a ∈ l ↔ a ∈ v ∧ a.np ∉ obsolete := by
    rw [hperm.mem_iff]
    simp [live]
  have hcount {a : SigRotationDetails} (ha : a.np ∉ obsolete) : l.count a=v.count a := by
    rw [hperm.count_eq]
    exact count_filter (by simpa using ha)
  rw [settle_eq,List.mem_append,List.mem_map]
  refine or_congr_right (exists_congr fun a => ?_)
  rw [mem_losers hsorted,hmem]
  constructor
  · rintro ⟨⟨⟨ha,hlive⟩,h⟩,rfl⟩
    refine ⟨ha,rfl,hlive,?_⟩
    rw [← hcount hlive]
    refine h.imp_right ?_
    rintro ⟨b,hb,hne,hle⟩
    exact ⟨b,((hmem b).mp hb).1,hne,((hmem b).mp hb).2,hle⟩
  · rintro ⟨ha,rfl,hlive,h⟩
    refine ⟨⟨⟨ha,hlive⟩,?_⟩,rfl⟩
    rw [hcount hlive]
    refine h.imp_right ?_
    rintro ⟨b,hb,hne,hbl,hle⟩
    exact ⟨b,(hmem b).mpr ⟨hb,hbl⟩,hne,hle⟩

lemma mem_foldl_settle (vs : List (List SigRotationDetails)) (obsolete : List NodePublic) (k : NodePublic) :
    k ∈ vs.foldl settle obsolete ↔ deadAfter (· ∈ obsolete) vs k := by
  induction vs generalizing obsolete with
  | nil => rfl
  | cons v vs ih =>
    have hdead : (fun k => k ∈ obsolete ∨ Outranked (· ∈ obsolete) v k)=(· ∈ settle obsolete v) :=
      funext fun _ => propext mem_settle.symm
    rw [foldl_cons,ih,deadAfter,hdead]

def note (m : GoMap Bytes (List SigRotationDetails)) (e : Bytes × SigRotationDetails) :
    GoMap Bytes (List SigRotationDetails) :=
  m.insert e.1 ((m.lookup e.1).getD []++[e.2])

lemma lookup_foldl_note (l : List (Bytes × SigRotationDetails)) (wrapping : Bytes) :
    ((l.foldl note ∅).lookup wrapping).getD []=(forKey Prod.fst wrapping l).map Prod.snd := by
  have hnote (m : GoMap Bytes (List SigRotationDetails)) (e : Bytes × SigRotationDetails) (k : Bytes) :
      ((note m e).lookup k).getD []
        = if e.1=k then (m.lookup k).getD []++[e.2] else (m.lookup k).getD [] := by
    rw [note,lookup_insert_ite]
    split
    · next hk =>
      rw [hk,if_pos rfl]
      rfl
    · next hk => rw [if_neg (Ne.symm hk)]
  have hmap (l : List (Bytes × SigRotationDetails)) (v : List SigRotationDetails) :
      l.foldl (fun v e => v++[e.2]) v=v++l.map Prod.snd := by
    rw [foldl_append_eq_append,← flatMap_def,map_eq_flatMap]
  rw [foldl_view Prod.fst (fun (m : GoMap Bytes (List SigRotationDetails)) k => (m.lookup k).getD [])
    (fun v e => v++[e.2]) hnote l ∅ wrapping,hmap]
  rfl

end RotationTracker

section
variable (S : Scheme Bytes) (authority : Tka.State)

instance instDecidableLockAdmits (p : Node) : Decidable (LockAdmits S authority p) :=
  inferInstanceAs (Decidable (_ ∨ _))

/-- The keys that the filter for a full netmap drops: those that were rotated away and those that
are outranked, for a loop over the wrapping keys in some order. -/
def Obsolete (o : MapOrder) (peers : List Node) (k : NodePublic) : Prop :=
  deadAfter (Superseded S authority peers) ((range o
    ((peers.filterMap (contender S authority)).foldl RotationTracker.note ∅)).map
      fun e => contenders S authority peers e.1) k

lemma lockStep_eq (s : LockLoop) (p : Node) :
    lockStep S authority s p=.ok ⟨⟨s.tracker.obsolete++prevNodeKeys S authority p,
      (contender S authority p).toList.foldl RotationTracker.note s.tracker.byWrappingKey⟩,
      s.toDelete++[!decide (LockAdmits S authority p)]⟩ := by
  rw [lockStep,prevNodeKeys,contender,rotated]
  by_cases hu : p.unsignedPeerAPIOnly=true
  · simp [hu,LockAdmits]
  by_cases he : p.keySignature.elems=[]
  · simp [hu,he,LockAdmits]
  have hlen : p.keySignature.elems.length≠0 := fun h => he (length_eq_zero_iff.mp h)
  rw [if_neg hu,if_neg hlen,if_neg (not_or.mpr ⟨hu,he⟩)]
  cases hauth : nodeKeyAuthorizedWithDetails S authority p.key p.keySignature.elems with
  | error e => simp [hu,he,LockAdmits,nodeKeyAuthorized,hauth,Except.map,Except.toOption]
  | ok details =>
    have hadmits : LockAdmits S authority p := .inr ⟨he,by rw [nodeKeyAuthorized,hauth]; rfl⟩
    cases details with
    | none => simp [hadmits,Except.toOption]
    | some d =>
      obtain ⟨initial,hinitial⟩ := exists_initialSig hauth
      by_cases hk : initial.top.sigKind=.direct
      · simp [addRotationDetails,hinitial,hk,hadmits,Except.map,Except.toOption, RotationTracker.note]
      · simp [addRotationDetails,hinitial,hk,hadmits,Except.map,Except.toOption]

lemma lockLoop_eq (peers : List Node) (s : LockLoop) :
    peers.foldlM (lockStep S authority) s=.ok ⟨⟨s.tracker.obsolete ++ peers.flatMap (prevNodeKeys S authority),
      (peers.filterMap (contender S authority)).foldl RotationTracker.note s.tracker.byWrappingKey⟩,
      s.toDelete++peers.map fun p => !decide (LockAdmits S authority p)⟩ := by
  induction peers generalizing s with
  | nil => simp [pure,Except.pure]
  | cons p peers ih =>
    refine foldlM_cons_ok.mpr ⟨_,lockStep_eq S authority s p,?_⟩
    rw [ih]
    cases hc : contender S authority p <;> simp [hc]

lemma mem_obsoleteKeys (o : MapOrder) (peers : List Node) (k : NodePublic) :
    k ∈ obsoleteKeys o ⟨peers.flatMap (prevNodeKeys S authority),
      (peers.filterMap (contender S authority)).foldl RotationTracker.note ∅⟩ ↔
    Obsolete S authority o peers k := by
  have hgroups : ∀ e ∈ range o ((peers.filterMap (contender S authority)).foldl
      RotationTracker.note ∅), e.2=contenders S authority peers e.1 := by
    rintro ⟨w,v⟩ he
    rw [contenders,← RotationTracker.lookup_foldl_note,(mem_range o _ w v).mp he]
    rfl
  have hdead : (· ∈ peers.flatMap (prevNodeKeys S authority))=Superseded S authority peers :=
    funext fun _ => propext mem_flatMap
  rw [obsoleteKeys,Obsolete,← map_congr_left hgroups,← hdead, ← RotationTracker.mem_foldl_settle,foldl_map]

lemma tkaFilterNetmapLocked_eq (o : MapOrder) (tka : TkaState) (peers : List Node) :
    ∃ q tka', tkaFilterNetmapLocked S o (some tka) peers=.ok (peers.filter q,some tka') ∧
      tka'.authority=tka.authority ∧ ∀ p : Node, q p=true ↔
        LockAdmits S tka.authority p ∧ ¬Obsolete S tka.authority o peers p.key := by
  obtain ⟨s,hs⟩ : ∃ s, peers.foldlM (lockStep S tka.authority) ⟨⟨[],∅⟩,[]⟩=.ok s := ⟨_,lockLoop_eq ..⟩
  have hloop := Except.ok.inj (hs.symm.trans (lockLoop_eq ..))
  have hdelete : s.toDelete=peers.map fun p => !decide (LockAdmits S tka.authority p) := by
    rw [hloop]
    rfl
  have hmem (k : NodePublic) : k ∈ s.tracker.obsoleteKeys o ↔ Obsolete S tka.authority o peers k := by
    rw [← mem_obsoleteKeys,hloop]
    rfl
  have hq (p : Node) : (!(!decide (LockAdmits S tka.authority p)) && decide (p.key ∉ s.tracker.obsoleteKeys o))=true ↔
      LockAdmits S tka.authority p ∧ ¬Obsolete S tka.authority o peers p.key := by
    rw [← hmem]
    simp
  have hjudged (keep : Node × Bool → Bool) : ((peers.zip s.toDelete).filter keep).map Prod.fst
      = peers.filter fun p => keep (p,!decide (LockAdmits S tka.authority p)) := by
    rw [hdelete,← List.map_prod_left_eq_zip,List.filter_map,List.map_map]
    exact List.map_id _
  rw [tkaFilterNetmapLocked,hs]
  refine ⟨fun p => !(!decide (LockAdmits S tka.authority p)) && decide (p.key ∉ s.tracker.obsoleteKeys o),?_⟩
  by_cases hany : (s.toDelete.any fun b => b)=true ∨ 0<(s.tracker.obsoleteKeys o).length
  · exact ⟨_,congrArg Except.ok ((if_pos hany).trans (Prod.ext (hjudged _) rfl)),rfl,hq⟩
  · obtain ⟨hall,hlen⟩ := not_or.mp hany
    refine ⟨_,congrArg Except.ok ((if_neg hany).trans (Prod.ext (filter_eq_self.mpr fun p hp => ?_).symm rfl)),rfl,hq⟩
    have hadmits : LockAdmits S tka.authority p := by
      by_contra hn
      refine hall (List.any_eq_true.mpr ⟨true,?_,rfl⟩)
      rw [hdelete]
      exact List.mem_map.mpr ⟨p,hp,by simpa using hn⟩
    simp [hadmits,length_eq_zero_iff.mp (Nat.eq_zero_of_not_pos hlen)]

def judge : NodeMutation → NodeMutation
  | .upsert n => if LockAdmits S authority n then .upsert n else .remove n.id
  | m => m

lemma upsertWhy_eq_none {n : Node} : upsertWhy S authority n=none ↔ LockAdmits S authority n := by
  rw [upsertWhy,LockAdmits,← length_pos_iff_ne_nil,Nat.pos_iff_ne_zero]
  by_cases hu : n.unsignedPeerAPIOnly=true
  · simp [hu]
  by_cases he : n.keySignature.elems.length=0
  · simp [hu,he]
  cases nodeKeyAuthorized S authority n.key n.keySignature.elems <;> simp [hu,he]

lemma filterMutation_eq (tka : TkaState) (m : NodeMutation) :
    (filterMutation S tka m).1=judge S tka.authority m ∧ (filterMutation S tka m).2.authority=tka.authority := by
  cases m with
  | upsert n =>
    rw [filterMutation,judge]
    cases hwhy : upsertWhy S tka.authority n with
    | none => exact ⟨(if_pos ((upsertWhy_eq_none ..).mp hwhy)).symm,rfl⟩
    | some why =>
      have hadmits : ¬LockAdmits S tka.authority n := fun h => by
        rw [(upsertWhy_eq_none ..).mpr h] at hwhy
        cases hwhy
      exact ⟨(if_neg hadmits).symm,rfl⟩
  | _ => exact ⟨rfl,rfl⟩

lemma filterMutations_eq (tka : TkaState) (muts : List NodeMutation) :
    (filterMutations S tka muts).1=muts.map (judge S tka.authority) := by
  induction muts generalizing tka with
  | nil => rfl
  | cons m muts ih =>
    obtain ⟨hm,ha⟩ := filterMutation_eq S tka m
    change (filterMutation S tka m).1::(filterMutations S (filterMutation S tka m).2 muts).1=_
    rw [ih,hm,ha,map_cons]

variable (m : NodeMutation)

@[simp] lemma nodeIDBeingMutated_judge :
    (judge S authority m).nodeIDBeingMutated=m.nodeIDBeingMutated := by
  cases m with
  | upsert n =>
    rw [judge]
    split <;> rfl
  | _ => rfl

lemma lockAdmits_apply (n : Node) :
    LockAdmits S authority (m.apply n) ↔ LockAdmits S authority n := by
  cases m <;> rfl

lemma key_apply (n : Node) : (m.apply n).key=n.key := by
  cases m <;> rfl

lemma judge_of_perField {m : NodeMutation} (h : m.perField=true) : judge S authority m=m := by
  cases m with
  | upsert n => cases h
  | remove nid => cases h
  | _ => rfl

/-- The mutations of one node that was let through by some filter: after an insertion or a removal
only its signature counts. -/
theorem foldl_act_judge {q : Node → Bool} (hq : ∀ (m : NodeMutation) n, q (m.apply n)=q n)
    (l : List NodeMutation) (b : Option Node) :
    (l.map (judge S authority)).foldl act (b.filter q)=(l.foldl act b).filter
      (if l.all perField then q else fun n => decide (LockAdmits S authority n)) := by
  induction l generalizing b q with
  | nil => simp
  | cons m l ih =>
    rw [map_cons,foldl_cons,foldl_cons,all_cons]
    cases hm : m.perField with
    | true =>
      have hact : act (b.filter q) m=(act b m).filter q := by
        rw [act_of_perField hm,act_of_perField hm]
        cases b with
        | none => rfl
        | some n =>
          change Option.map m.apply (Option.filter q (some n))=Option.filter q (some (m.apply n))
          rw [filter_some,filter_some,hq]
          split <;> rfl
      rw [judge_of_perField S authority hm,hact,ih hq]
      rfl
    | false =>
      have hact : act (b.filter q) (judge S authority m)
          = (act b m).filter fun n => decide (LockAdmits S authority n) := by
        cases m with
        | upsert n =>
          change act _ (judge S authority (.upsert n))=Option.filter _ (some n)
          rw [judge,filter_some]
          by_cases h : LockAdmits S authority n <;> simp [h,act]
        | remove nid => rfl
        | _ => cases hm
      have hstable (m : NodeMutation) (n : Node) :
          decide (LockAdmits S authority (m.apply n))=decide (LockAdmits S authority n) :=
        decide_eq_decide.mpr (lockAdmits_apply S authority m n)
      rw [hact,ih hstable,ite_self]
      rfl

end

section
variable (S : Scheme Bytes)

def admittedPeers (o : MapOrder) (tka : Option TkaState) (F : Peers) : Except Fault Peers :=
  (tkaFilterNetmapLocked S o tka F.list).map fun r => Peers.ofList r.1

/-- A full netmap is filtered, and then a delta, which is applied to the peers that were admitted. -/
def admittedByDelta (o : MapOrder) (tka : Option TkaState) (F : Peers) (muts : List NodeMutation) :
    Except Fault Peers :=
  (tkaFilterNetmapLocked S o tka F.list).map fun r =>
    (Peers.ofList r.1).mutateAll (tkaFilterDeltaMutsLocked S r.2 muts).1

def Untouched (muts : List NodeMutation) (id : NodeID) : Prop :=
  ∀ m ∈ muts, m.nodeIDBeingMutated=id → m.perField=true

lemma untouched_iff {muts : List NodeMutation} {id : NodeID} :
    Untouched muts id ↔ (forKey nodeIDBeingMutated id muts).all perField=true := by
  simp [Untouched,mem_forKey]

section
variable (o : MapOrder) (t : TkaState) (F : Peers)

lemma exists_admittedPeers :
    ∃ (P : Peers) (q : Node → Bool), admittedPeers S o (some t) F=.ok P ∧ (∀ id, P.lookup id=(F.lookup id).filter q) ∧
      ∀ n, q n=true ↔ LockAdmits S t.authority n ∧ ¬Obsolete S t.authority o F.list n.key := by
  obtain ⟨q,t',hfull,-,hq⟩ := tkaFilterNetmapLocked_eq S o t F.list
  refine ⟨ofList (F.list.filter q),q,?_,fun id => lookup_ofList_filter ..,hq⟩
  rw [admittedPeers,hfull]
  rfl

lemma exists_admittedByDelta (muts : List NodeMutation) :
    ∃ (P : Peers) (q : NodeID → Node → Bool), admittedByDelta S o (some t) F muts=.ok P ∧
      (∀ id, P.lookup id=((F.mutateAll muts).lookup id).filter (q id)) ∧
      ∀ id n, q id n=true ↔ LockAdmits S t.authority n ∧
        (Untouched muts id → ¬Obsolete S t.authority o F.list n.key) := by
  obtain ⟨q,t',hfull,ha,hq⟩ := tkaFilterNetmapLocked_eq S o t F.list
  have hstable (m : NodeMutation) (n : Node) : q (m.apply n)=q n := by
    rw [Bool.eq_iff_iff,hq,hq,lockAdmits_apply,key_apply]
  have hfor (id : NodeID) : forKey nodeIDBeingMutated id (muts.map (judge S t.authority))
      = (forKey nodeIDBeingMutated id muts).map (judge S t.authority) := by
    rw [forKey,List.filter_map,forKey]
    simp [Function.comp_def]
  have hdelta : admittedByDelta S o (some t) F muts
      = .ok ((ofList (F.list.filter q)).mutateAll (muts.map (judge S t.authority))) := by
    rw [admittedByDelta,hfull,← ha,← filterMutations_eq]
    rfl
  refine ⟨_,fun id => if (forKey nodeIDBeingMutated id muts).all perField then q
    else fun n => decide (LockAdmits S t.authority n),hdelta,fun id => ?_,fun id n => ?_⟩
  · rw [lookup_mutateAll,hfor,lookup_ofList_filter,foldl_act_judge S t.authority hstable, ← lookup_mutateAll]
  · dsimp only
    by_cases hu : Untouched muts id
    · rw [if_pos (untouched_iff.mp hu),hq]
      simp [hu]
    · rw [if_neg fun h => hu (untouched_iff.mpr h)]
      simp [hu]

end

/-- The two filters agree exactly if a validly signed peer of the new set is obsolete in it just when
it was so before and the delta did not insert it. -/
theorem admittedByDelta_eq_iff (o o' : MapOrder) (tka : Option TkaState) (F : Peers)
    (muts : List NodeMutation) : (∃ P P', admittedByDelta S o tka F muts=.ok P ∧
      admittedPeers S o' tka (F.mutateAll muts)=.ok P' ∧ ∀ id, P.lookup id=P'.lookup id) ↔
    ∀ t, tka=some t → ∀ id n, (F.mutateAll muts).lookup id=some n → LockAdmits S t.authority n →
      (Obsolete S t.authority o' (F.mutateAll muts).list n.key ↔
        Untouched muts id ∧ Obsolete S t.authority o F.list n.key) := by
  cases tka with
  | none =>
    refine iff_of_true ⟨(Peers.ofList F.list).mutateAll muts,_,rfl,rfl,fun id => ?_⟩ ?_
    · rw [lookup_mutateAll]
      simp [lookup_mutateAll]
    · intro t ht
      cases ht
  | some t =>
    obtain ⟨P,q,hP,hlookup,hq⟩ := exists_admittedByDelta S o t F muts
    obtain ⟨P',q',hP',hlookup',hq'⟩ := exists_admittedPeers S o' t (F.mutateAll muts)
    rw [hP,hP']
    constructor
    · rintro ⟨_,_,⟨⟩,⟨⟩,h⟩ _ ⟨⟩ id n hn hadmits
      have hid := h id
      rw [hlookup,hlookup',hn,filter_some,filter_some] at hid
      have hiff : q id n=true ↔ q' n=true := by
        by_cases ha : q id n=true <;> by_cases hb : q' n=true <;> simp_all
      rw [hq,hq'] at hiff
      tauto
    · intro h
      refine ⟨P,P',rfl,rfl,fun id => ?_⟩
      rw [hlookup,hlookup']
      cases hn : (F.mutateAll muts).lookup id with
      | none => rfl
      | some n =>
        have hiff : q id n=true ↔ q' n=true := by
          rw [hq,hq']
          have := h t rfl id n hn
          tauto
        rw [filter_some,filter_some,Bool.eq_iff_iff.mpr hiff]

end

/-- A node key signed by the trusted key, and one to which it is rotated. -/
def firstSig : NodeKeySignature := ⟨initialSig .direct (Raw32.fill 1).marshalBinary,[]⟩

def secondSig : NodeKeySignature where
  top := {
    sigKind := .rotation
    pubkey := (Raw32.fill 2).marshalBinary
    signature := plainPrivate.pub++(Raw32.fill 2).marshalBinary }
  nested := [firstSig.top]

/-- Short encodings of the two signatures; the others are encoded by their node key. -/
def shortScheme : Scheme Bytes where
  serialize s := if s=firstSig then [1] else if s=secondSig then [2] else s.top.pubkey
  unserialize b := if b=[1] then .ok firstSig else if b=[2] then .ok secondSig
    else .error (.text "cbor: unexpected end of input")
  sum256 b := b
  verify pk m sig := sig=pk++m
  verifyConsensus pk m sig := sig=pk++m

def firstPeer : Node := { Node.zero with id := 1,key := .fill 1,keySignature := some [1] }

def secondPeer : Node := { Node.zero with id := 2,key := .fill 2,keySignature := some [2] }

set_option maxRecDepth 40000 in
/-- The delta inserts a peer to which another one was rotated. The other one stays. -/
theorem superseded_peer_stays :
    let lock : Option TkaState := some ⟨lockState,∅⟩
    let F := Peers.ofList [firstPeer]
    (admittedByDelta shortScheme .asStored lock F [.upsert secondPeer]).map (fun P => P.lookup 1)
      = .ok (some firstPeer) ∧
    (admittedPeers shortScheme .asStored lock (F.mutateAll [.upsert secondPeer])).map (fun P => P.lookup 1)
      = .ok none ∧
    ¬∃ P P', admittedByDelta shortScheme .asStored lock F [.upsert secondPeer]=.ok P ∧
      admittedPeers shortScheme .asStored lock (F.mutateAll [.upsert secondPeer])=.ok P' ∧
      ∀ id, P.lookup id=P'.lookup id := by
  intro lock F
  have hdelta : (admittedByDelta shortScheme .asStored lock F [.upsert secondPeer]).map
      (fun P => P.lookup 1)=.ok (some firstPeer) := by decide +kernel
  have hfull : (admittedPeers shortScheme .asStored lock (F.mutateAll [.upsert secondPeer])).map
      (fun P => P.lookup 1)=.ok none := by decide +kernel
  refine ⟨hdelta,hfull,?_⟩
  rintro ⟨P,P',hP,hP',hsame⟩
  rw [hP] at hdelta
  rw [hP'] at hfull
  have hfirst : P.lookup 1=some firstPeer := Except.ok.inj hdelta
  have hnone : P'.lookup 1=none := Except.ok.inj hfull
  rw [hsame,hnone] at hfirst
  cases hfirst

end TunnnejiTail.Netmap
