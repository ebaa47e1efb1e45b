import TunnnejiTail.Netmap.LockFilter

/-! Which of the peers that rotated their keys are left. The keys that contend for one wrapping key do not
contend for another, so that the order in which the wrapping keys are taken does not matter. -/
namespace TunnnejiTail.Netmap
open Go TunnnejiTail.Types Tka List RotationTracker

lemma Outranked.congr {dead dead' : NodePublic → Prop} {v : List SigRotationDetails} {k : NodePublic}
    (h : ∀ a ∈ v, (dead a.np ↔ dead' a.np)) : Outranked dead v k ↔ Outranked dead' v k := by
  refine exists_congr fun a => and_congr_right fun ha => and_congr_right fun hk => ?_
  subst hk
  rw [h a ha]
  refine and_congr_right fun _ => or_congr_right (exists_congr fun b => and_congr_right fun hb => ?_)
  rw [h b hb]

variable {dead : NodePublic → Prop}

lemma Outranked.perm {v v' : List SigRotationDetails} (h : v.Perm v')
    {k : NodePublic} (hk : Outranked dead v k) : Outranked dead v' k := by
  obtain ⟨a,ha,hak,hlive,hbeaten⟩ := hk
  refine ⟨a,h.mem_iff.mp ha,hak,hlive,hbeaten.imp (h.count_eq a ▸ ·) ?_⟩
  rintro ⟨b,hb,hrest⟩
  exact ⟨b,h.mem_iff.mp hb,hrest⟩

lemma deadAfter_iff {vs : List (List SigRotationDetails)}
    (h : vs.Pairwise fun v w => ∀ a ∈ v, ∀ b ∈ w, a.np≠b.np) (k : NodePublic) :
    deadAfter dead vs k ↔ dead k ∨ ∃ v ∈ vs, Outranked dead v k := by
  induction vs generalizing dead with
  | nil => simp [deadAfter]
  | cons v vs ih =>
    obtain ⟨hv,hvs⟩ := pairwise_cons.mp h
    have hrest {w : List SigRotationDetails} (hw : w ∈ vs) :
        Outranked (fun k => dead k ∨ Outranked dead v k) w k ↔ Outranked dead w k := by
      refine Outranked.congr fun b hb => or_iff_left ?_
      rintro ⟨a,ha,he,-⟩
      exact hv w hw a ha b hb he
    rw [deadAfter,ih hvs,exists_mem_cons_iff,or_assoc]
    exact or_congr_right (or_congr_right (exists_congr fun w => and_congr_right hrest))

section
variable {S : Scheme Bytes} {authority : Tka.State} {peers : List Node} {d : SigRotationDetails}

lemma mem_contenders {w : Bytes} :
    d ∈ contenders S authority peers w ↔ ∃ p ∈ peers, contender S authority p=some (w,d) := by
  simp only [contenders,mem_map,mem_forKey,mem_filterMap]
  constructor
  · rintro ⟨⟨w,d⟩,⟨⟨p,hp,hc⟩,rfl⟩,rfl⟩
    exact ⟨p,hp,hc⟩
  · rintro ⟨p,hp,hc⟩
    exact ⟨(w,d),⟨⟨p,hp,hc⟩,rfl⟩,rfl⟩

lemma np_of_contender {p : Node} {w : Bytes}
    (h : contender S authority p=some (w,d)) : d.np=p.key := by
  obtain ⟨r,-,h⟩ := Option.bind_eq_some_iff.mp h
  obtain ⟨i,-,h⟩ := Option.bind_eq_some_iff.mp h
  split at h
  · cases h
    rfl
  · cases h

variable (hkeys : (peers.map Node.key).Nodup)
include hkeys

lemma obsolete_iff (o : MapOrder) (k : NodePublic) : Obsolete S authority o peers k ↔ Superseded S authority peers k ∨
      ∃ w, Outranked (Superseded S authority peers) (contenders S authority peers w) k := by
  rw [Obsolete,deadAfter_iff]
  · refine or_congr_right ?_
    constructor
    · rintro ⟨v,hv,h⟩
      obtain ⟨e,-,rfl⟩ := mem_map.mp hv
      exact ⟨e.1,h⟩
    · rintro ⟨w,h⟩
      obtain ⟨a,ha,-⟩ := id h
      rw [contenders,← lookup_foldl_note] at ha
      cases hl : (List.foldl note ∅ (peers.filterMap (contender S authority))).lookup w with
      | none =>
        rw [hl] at ha
        cases ha
      | some v => exact ⟨_,mem_map.mpr ⟨(w,v),(mem_range o _ w v).mpr hl,rfl⟩,h⟩
  · refine pairwise_map.mpr ((range_pairwise o _).imp fun {e f} hne a ha b hb hab => hne ?_)
    obtain ⟨p,hp,hpc⟩ := mem_contenders.mp ha
    obtain ⟨q,hq,hqc⟩ := mem_contenders.mp hb
    rw [np_of_contender hpc,np_of_contender hqc] at hab
    cases inj_on_of_nodup_map hkeys hp hq hab
    exact (Prod.mk.inj (Option.some.inj (hpc.symm.trans hqc))).1

/-- The order of the peers and that of the wrapping keys do not matter, no key that was rotated away is
left, and of the peers that contend for a wrapping key at most one. -/
theorem obsoleteKeys_survivors {peers' : List Node} (hperm : peers.Perm peers') (o o' : MapOrder) :
    ∃ s s', peers.foldlM (lockStep S authority) ⟨⟨[],∅⟩,[]⟩=.ok s ∧
      peers'.foldlM (lockStep S authority) ⟨⟨[],∅⟩,[]⟩=.ok s' ∧
      (∀ k, k ∈ s.tracker.obsoleteKeys o ↔ k ∈ s'.tracker.obsoleteKeys o') ∧
      (∀ p ∈ peers, p.key ∉ s.tracker.obsoleteKeys o → ∀ q ∈ peers, p.key ∉ prevNodeKeys S authority q) ∧
      ∀ p ∈ peers, ∀ q ∈ peers, ∀ w d e, contender S authority p=some (w,d) →
        contender S authority q=some (w,e) → p.key ∉ s.tracker.obsoleteKeys o →
        q.key ∉ s.tracker.obsoleteKeys o → p=q := by
  have hkeys' : (peers'.map Node.key).Nodup := (hperm.map _).nodup_iff.mp hkeys
  have hcontenders (w : Bytes) : (contenders S authority peers w).Perm (contenders S authority peers' w) :=
    ((hperm.filterMap _).filter _).map _
  have hsuperseded : Superseded S authority peers=Superseded S authority peers' :=
    funext fun k => propext (exists_congr fun p => and_congr_left fun _ => hperm.mem_iff)
  refine ⟨_,_,lockLoop_eq ..,lockLoop_eq ..,?_⟩
  simp only [nil_append,mem_obsoleteKeys,obsolete_iff hkeys,obsolete_iff hkeys',← hsuperseded]
  refine ⟨fun k => or_congr_right (exists_congr fun w => ⟨.perm (hcontenders w),.perm (hcontenders w).symm⟩),?_,?_⟩
  · intro p _ hlive q hq hprev
    exact hlive (.inl ⟨q,hq,hprev⟩)
  · intro p hp q hq w d e hd he hlive hlive'
    by_contra hne
    have hde : d≠e := by
      rintro rfl
      exact hne (inj_on_of_nodup_map hkeys hp hq ((np_of_contender hd).symm.trans (np_of_contender he)))
    -- of two that are left the one with fewer previous keys is outranked
    have hbeaten {p q : Node} {d e : SigRotationDetails} (hp : p ∈ peers) (hq : q ∈ peers)
        (hd : contender S authority p=some (w,d)) (he : contender S authority q=some (w,e)) (hde : e≠d)
        (hlive' : ¬Superseded S authority peers q.key) (hle : d.numPrevKeys ≤ e.numPrevKeys) :
        Superseded S authority peers p.key ∨
          ∃ w, Outranked (Superseded S authority peers) (contenders S authority peers w) p.key := by
      by_contra hlive
      exact hlive (.inr ⟨w,d,mem_contenders.mpr ⟨p,hp,hd⟩,np_of_contender hd,fun h => hlive (.inl h),
        .inr ⟨e,mem_contenders.mpr ⟨q,hq,he⟩,hde,np_of_contender he ▸ hlive',hle⟩⟩)
    rcases le_total d.numPrevKeys e.numPrevKeys with hle | hle
    · exact hlive (hbeaten hp hq hd he hde.symm (fun h => hlive' (.inl h)) hle)
    · exact hlive' (hbeaten hq hp he hd hde (fun h => hlive (.inl h)) hle)

end

theorem survivors_of_rotation : ∃ s s',
    [firstPeer,secondPeer].foldlM (lockStep shortScheme lockState) ⟨⟨[],∅⟩,[]⟩=.ok s ∧
    [secondPeer,firstPeer].foldlM (lockStep shortScheme lockState) ⟨⟨[],∅⟩,[]⟩=.ok s' ∧
    ∀ k, k ∈ s.tracker.obsoleteKeys .asStored ↔ k ∈ s'.tracker.obsoleteKeys .asStored := by
  have hkeys : ([firstPeer,secondPeer].map Node.key).Nodup := by decide
  obtain ⟨s,s',hs,hs',h,-⟩ := obsoleteKeys_survivors hkeys (.swap ..) .asStored .asStored
  exact ⟨s,s',hs,hs',h⟩

end TunnnejiTail.Netmap
