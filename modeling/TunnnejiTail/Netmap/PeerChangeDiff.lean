import TunnnejiTail.Netmap.MapSession

/-! Turning a changed peer into a patch of the session's copy of it. The difference is taken
field by field, in the order of the fields of the node's struct. -/
namespace TunnnejiTail.Netmap
open Go List

/-- The fields of a node in the order of the struct. -/
inductive NodeField
  | id
  | stableID
  | name
  | user
  | sharer
  | key
  | keyExpiry
  | keySignature
  | machine
  | discoKey
  | addresses
  | allowedIPs
  | endpoints
  | legacyDERPString
  | homeDERP
  | hostinfo
  | created
  | cap
  | tags
  | primaryRoutes
  | lastSeen
  | online
  | machineAuthorized
  | capabilities
  | capMap
  | unsignedPeerAPIOnly
  | computedName
  | computedHostIfDifferent
  | computedNameWithHost
  | dataPlaneAuditLogID
  | expired
  | selfNodeV4MasqAddrForThisPeer
  | selfNodeV6MasqAddrForThisPeer
  | isWireGuardOnly
  | isJailed
  | exitNodeDNSResolvers
  deriving DecidableEq

def nodeFields : List NodeField :=
  [.id,.stableID,.name,.user,.sharer,.key,.keyExpiry,.keySignature,.machine,.discoKey,.addresses,
   .allowedIPs,.endpoints,.legacyDERPString,.homeDERP,.hostinfo,.created,.cap,.tags,.primaryRoutes,
   .lastSeen,.online,.machineAuthorized,.capabilities,.capMap,.unsignedPeerAPIOnly,.computedName,
   .computedHostIfDifferent,.computedNameWithHost,.dataPlaneAuditLogID,.expired,
   .selfNodeV4MasqAddrForThisPeer,.selfNodeV6MasqAddrForThisPeer,.isWireGuardOnly,.isJailed,
   .exitNodeDNSResolvers]

lemma mem_nodeFields (f : NodeField) : f ∈ nodeFields := by
  cases f <;> decide

inductive DiffStop
  | notPatchable (field : NodeField)
  | panicked
  deriving DecidableEq

structure Diff where
  touched : Bool
  pc : PeerChange

namespace CapMap

def within (was m : CapMap) : Bool :=
  (was.getD ∅).entries.all fun e => match m.get e.1 with
    | some v => e.2.elems=v.elems
    | none => false

def differ (was m : CapMap) : Bool := m.len≠was.len || !was.within m

/-- The map that a patch gets; make(tailcfg.NodeCapMap) if the new one is nil but shorter. -/
def toPatch (was m : CapMap) : CapMap := if m.len≠was.len then some (m.getD ∅) else m

end CapMap

def Diff.keep (ret : Diff) (f : NodeField) (same : Bool) : Except DiffStop Diff :=
  if same then .ok ret else .error (.notPatchable f)

def Diff.note (ret : Diff) (differ : Bool) (pc : PeerChange) : Except DiffStop Diff :=
  .ok (if differ then ⟨true,pc⟩ else ret)

/-- One round of the loop over the fields. -/
def diffField (was n : Node) (ret : Diff) (f : NodeField) : Except DiffStop Diff :=
  match f with
  | .computedHostIfDifferent => .ok ret
  | .computedName => .ok ret
  | .computedNameWithHost => .ok ret
  | .dataPlaneAuditLogID => .ok ret
  | .capabilities => .ok ret
  | .id => ret.keep f (was.id=n.id)
  | .stableID => ret.keep f (was.stableID=n.stableID)
  | .name => ret.keep f (was.name=n.name)
  | .user => ret.keep f (was.user=n.user)
  | .sharer => ret.keep f (was.sharer=n.sharer)
  | .key => ret.note (was.key≠n.key) { ret.pc with key := some n.key }
  | .keyExpiry => ret.note (was.keyExpiry≠n.keyExpiry) { ret.pc with keyExpiry := some n.keyExpiry }
  | .keySignature => ret.note (was.keySignature.elems≠n.keySignature.elems)
      { ret.pc with keySignature := n.keySignature }
  | .machine => ret.keep f (was.machine=n.machine)
  | .discoKey => ret.note (was.discoKey≠n.discoKey) { ret.pc with discoKey := some n.discoKey }
  | .addresses => ret.keep f (was.addresses.elems=n.addresses.elems)
  | .allowedIPs => ret.keep f (was.allowedIPs.elems=n.allowedIPs.elems)
  | .endpoints => ret.note (was.endpoints.elems≠n.endpoints.elems) { ret.pc with endpoints := n.endpoints }
  | .legacyDERPString =>
    if was.legacyDERPString≠[] ∨ n.legacyDERPString≠[] then .error .panicked else .ok ret
  | .homeDERP => ret.note (was.homeDERP≠n.homeDERP) { ret.pc with derpRegion := n.homeDERP }
  | .hostinfo => ret.keep f (was.hostinfo=n.hostinfo)
  | .created => ret.keep f (was.created=n.created)
  | .cap => ret.note (was.cap≠n.cap) { ret.pc with cap := n.cap }
  | .capMap => ret.note (CapMap.differ was.capMap n.capMap)
      { ret.pc with capMap := CapMap.toPatch was.capMap n.capMap }
  | .tags => ret.keep f (was.tags.elems=n.tags.elems)
  | .primaryRoutes => ret.keep f (was.primaryRoutes.elems=n.primaryRoutes.elems)
  | .online => ret.note (was.online.isSome && n.online.isSome && was.online≠n.online)
      { ret.pc with online := n.online }
  | .lastSeen => ret.note (was.lastSeen.isSome && n.lastSeen.isSome && was.lastSeen≠n.lastSeen)
      { ret.pc with lastSeen := n.lastSeen }
  | .machineAuthorized => ret.keep f (was.machineAuthorized=n.machineAuthorized)
  | .unsignedPeerAPIOnly => ret.keep f (was.unsignedPeerAPIOnly=n.unsignedPeerAPIOnly)
  | .isWireGuardOnly => ret.keep f (was.isWireGuardOnly=n.isWireGuardOnly)
  | .isJailed => ret.keep f (was.isJailed=n.isJailed)
  | .expired => ret.keep f (was.expired=n.expired)
  | .selfNodeV4MasqAddrForThisPeer =>
    ret.keep f (was.selfNodeV4MasqAddrForThisPeer=n.selfNodeV4MasqAddrForThisPeer)
  | .selfNodeV6MasqAddrForThisPeer =>
    ret.keep f (was.selfNodeV6MasqAddrForThisPeer=n.selfNodeV6MasqAddrForThisPeer)
  | .exitNodeDNSResolvers => ret.keep f (was.exitNodeDNSResolvers.elems=n.exitNodeDNSResolvers.elems)

def peerChangeDiff (was n : Node) : Except DiffStop (Option PeerChange) :=
  (nodeFields.foldlM (diffField was n) ⟨false,{ nodeID := 0 }⟩).map fun ret =>
    if ret.touched then some { ret.pc with nodeID := n.id } else none

/-- patchifyPeersChanged, for the peers of the session. -/
def patchifyStep (P : Peers) (acc : List Node × List PeerChange) (n : Node) :
    Except Fault (List Node × List PeerChange) :=
  match P.lookup n.id with
  | none => .ok (acc.1++[n],acc.2)
  | some was =>
    match peerChangeDiff was n with
    | .ok none => .ok acc
    | .ok (some p) => .ok (acc.1,acc.2++[p])
    | .error (.notPatchable _) => .ok (acc.1++[n],acc.2)
    | .error .panicked => .error .panicked

def patchifyPeersChanged (P : Peers) (resp : MapResponse) : Except Fault MapResponse :=
  (resp.peersChanged.elems.foldlM (patchifyStep P) ([],resp.peersChangedPatch)).map fun r =>
    { resp with
      peersChanged := if r.1.length=0 then none else some r.1
      peersChangedPatch := r.2 }

def derpMagicIP : Str := "127.3.3.40".toList

/-- The fields in their modern forms; the debug knob that strips the DERP home is off. -/
def upgradeNode (n : Node) : Node :=
  let homeDERP : ℤ :=
    if n.legacyDERPString≠[] ∧ n.homeDERP=0 then
      match splitHostPort n.legacyDERPString with
      | some (ip,port) => if ip=derpMagicIP then (atoi port).getD n.homeDERP else n.homeDERP
      | none => n.homeDERP
    else n.homeDERP
  { n with
    homeDERP := homeDERP
    legacyDERPString := []
    allowedIPs := n.allowedIPs.or n.addresses }

def MapResponse.upgrade (resp : MapResponse) : MapResponse :=
  { resp with
    peers := resp.peers.map fun l => l.map upgradeNode
    peersChanged := resp.peersChanged.map fun l => l.map upgradeNode }

/-- Two nodes have the same value in a field that no patch can set. The fields that patches can
set and those that are never compared pass. -/
def NodeField.fixedSame (a b : Node) : NodeField → Bool
  | .id => a.id=b.id
  | .stableID => a.stableID=b.stableID
  | .name => a.name=b.name
  | .user => a.user=b.user
  | .sharer => a.sharer=b.sharer
  | .machine => a.machine=b.machine
  | .addresses => a.addresses.elems=b.addresses.elems
  | .allowedIPs => a.allowedIPs.elems=b.allowedIPs.elems
  | .legacyDERPString => a.legacyDERPString=b.legacyDERPString
  | .hostinfo => a.hostinfo=b.hostinfo
  | .created => a.created=b.created
  | .tags => a.tags.elems=b.tags.elems
  | .primaryRoutes => a.primaryRoutes.elems=b.primaryRoutes.elems
  | .machineAuthorized => a.machineAuthorized=b.machineAuthorized
  | .unsignedPeerAPIOnly => a.unsignedPeerAPIOnly=b.unsignedPeerAPIOnly
  | .expired => a.expired=b.expired
  | .selfNodeV4MasqAddrForThisPeer =>
    a.selfNodeV4MasqAddrForThisPeer=b.selfNodeV4MasqAddrForThisPeer
  | .selfNodeV6MasqAddrForThisPeer =>
    a.selfNodeV6MasqAddrForThisPeer=b.selfNodeV6MasqAddrForThisPeer
  | .isWireGuardOnly => a.isWireGuardOnly=b.isWireGuardOnly
  | .isJailed => a.isJailed=b.isJailed
  | .exitNodeDNSResolvers => a.exitNodeDNSResolvers.elems=b.exitNodeDNSResolvers.elems
  | _ => true

/-- Two nodes differ at most in fields that patches can set, or that are not compared. -/
def Node.patchable (was n : Node) : Bool := nodeFields.all fun f => f.fixedSame was n

lemma Node.patchable_iff {was n : Node} :
    was.patchable n=true ↔ ∀ f : NodeField, f.fixedSame was n=true := by
  rw [patchable,all_eq_true]
  exact ⟨fun h f => h f (mem_nodeFields f),fun h f _ => h f⟩

/-- The patch after a round, or before it if the round ended the loop. -/
def Diff.after (ret : Diff) : Except DiffStop Diff → Diff
  | .ok ret' => ret'
  | .error _ => ret

@[simp] lemma Diff.after_ok (ret ret' : Diff) : ret.after (.ok ret')=ret' := rfl

variable (ret : Diff)

@[simp] lemma Diff.after_error (e : DiffStop) : ret.after (.error e)=ret := rfl

@[simp] lemma Diff.after_keep (f : NodeField) (same : Bool) :
    ret.after (ret.keep f same)=ret := by
  cases same <;> rfl

@[simp] lemma Diff.after_note (differ : Bool) (pc : PeerChange) :
    ret.after (ret.note differ pc)=if differ then ⟨true,pc⟩ else ret := rfl

@[simp] lemma Diff.after_ite (c : Prop) [Decidable c] (x y : Except DiffStop Diff) :
    ret.after (if c then x else y)=if c then ret.after x else ret.after y := apply_ite ..

def noted (was n : Node) (ret : Diff) (f : NodeField) : Diff := ret.after (diffField was n ret f)

section
variable {was n : Node} (hw : was.legacyDERPString=[]) (hn : n.legacyDERPString=[])
include hw hn

lemma diffField_eq (ret : Diff) (f : NodeField) : diffField was n ret f
      = if f.fixedSame was n then .ok (noted was n ret f) else .error (.notPatchable f) := by
  cases f <;> simp [noted,diffField,NodeField.fixedSame,hw,hn,Diff.keep,Diff.note]

lemma foldlM_diffField (ret : Diff) (l : List NodeField) : ((l.all fun f => f.fixedSame was n)=true →
      l.foldlM (diffField was n) ret=.ok (l.foldl (noted was n) ret)) ∧
    ((l.all fun f => f.fixedSame was n)=false → ∃ f, l.foldlM (diffField was n) ret=.error (.notPatchable f)) := by
  induction l generalizing ret with
  | nil => simp [pure,Except.pure]
  | cons f l ih =>
    rw [foldlM_cons,diffField_eq hw hn,all_cons]
    cases hf : f.fixedSame was n with
    | true => exact ih (noted was n ret f)
    | false => exact ⟨fun h => absurd h Bool.false_ne_true,fun _ => ⟨f,rfl⟩⟩

end

section
variable (was n : Node)

lemma foldl_noted {β : Type} (g : PeerChange → β) (f0 : NodeField) (c : Bool) (v : β)
    (h : ∀ ret f, g (noted was n ret f).pc=if f=f0 ∧ c=true then v else g ret.pc)
    (l : List NodeField) (ret : Diff) :
    g (l.foldl (noted was n) ret).pc=if f0 ∈ l ∧ c=true then v else g ret.pc := by
  induction l generalizing ret with
  | nil => simp
  | cons f l ih =>
    rw [foldl_cons,ih,h]
    by_cases hc : c=true
    · by_cases hf : f=f0
      · subst hf
        simp [hc]
      · by_cases hl : f0 ∈ l <;> simp [hf,hl,Ne.symm hf]
    · simp [hc]

def diffPatch : Diff := nodeFields.foldl (noted was n) ⟨false,{ nodeID := 0 }⟩

/-- What one field does to the patch, for all components of the patch at once. -/
lemma noted_pc (ret : Diff) (f : NodeField) : (noted was n ret f).pc = { ret.pc with
    derpRegion := if f=.homeDERP ∧ decide (was.homeDERP≠n.homeDERP)=true then n.homeDERP else ret.pc.derpRegion
    cap := if f=.cap ∧ decide (was.cap≠n.cap)=true then n.cap else ret.pc.cap
    capMap := if f=.capMap ∧ CapMap.differ was.capMap n.capMap=true then CapMap.toPatch was.capMap n.capMap
      else ret.pc.capMap
    endpoints := if f=.endpoints ∧ decide (was.endpoints.elems≠n.endpoints.elems)=true then n.endpoints
      else ret.pc.endpoints
    key := if f=.key ∧ decide (was.key≠n.key)=true then some n.key else ret.pc.key
    keySignature := if f=.keySignature ∧ decide (was.keySignature.elems≠n.keySignature.elems)=true
      then n.keySignature else ret.pc.keySignature
    discoKey := if f=.discoKey ∧ decide (was.discoKey≠n.discoKey)=true then some n.discoKey else ret.pc.discoKey
    online := if f=.online ∧ (was.online.isSome && n.online.isSome && was.online≠n.online)=true then n.online
      else ret.pc.online
    lastSeen := if f=.lastSeen ∧ (was.lastSeen.isSome && n.lastSeen.isSome && was.lastSeen≠n.lastSeen)=true
      then n.lastSeen else ret.pc.lastSeen
    keyExpiry := if f=.keyExpiry ∧ decide (was.keyExpiry≠n.keyExpiry)=true then some n.keyExpiry
      else ret.pc.keyExpiry } := by
  cases f <;> simp [noted,diffField,apply_ite Diff.pc] <;> split <;> rfl

lemma diffPatch_component {β : Type} (g : PeerChange → β) (f0 : NodeField) (c : Bool) (v : β)
    (h : ∀ ret f, g (noted was n ret f).pc=if f=f0 ∧ c=true then v else g ret.pc := by
      intro ret f
      simp only [noted_pc]) :
    g (diffPatch was n).pc=if c then v else g { nodeID := 0 } := by
  rw [diffPatch,foldl_noted was n g f0 c v h]
  simp [mem_nodeFields]

/-- The fields in which n differs from was and whose new value a patch can carry: it is not zero or
nil, and Online and LastSeen were not nil before either. -/
def Node.carried : Assign where
  homeDERP := if was.homeDERP≠n.homeDERP ∧ n.homeDERP≠0 then some n.homeDERP else none
  cap := if was.cap≠n.cap ∧ n.cap≠0 then some n.cap else none
  endpoints := if was.endpoints.elems≠n.endpoints.elems then n.endpoints.map some else none
  key := if was.key≠n.key then some n.key else none
  discoKey := if was.discoKey≠n.discoKey then some n.discoKey else none
  online := if was.online≠none ∧ n.online≠none ∧ was.online≠n.online then some n.online else none
  lastSeen := if was.lastSeen≠none ∧ n.lastSeen≠none ∧ was.lastSeen≠n.lastSeen
    then some n.lastSeen else none
  keyExpiry := if was.keyExpiry≠n.keyExpiry then some n.keyExpiry else none
  keySignature := if was.keySignature.elems≠n.keySignature.elems
    then n.keySignature.map some else none
  capMap := if CapMap.differ was.capMap n.capMap
    then (CapMap.toPatch was.capMap n.capMap).map some else none

lemma assign_diffPatch : (diffPatch was n).pc.assign=was.carried n := by
  have hptr {β : Type} [DecidableEq β] (a b : Option β) :
      (if (a.isSome && b.isSome && a≠b : Bool)=true then b else none).map some
        = if a≠none ∧ b≠none ∧ a≠b then some b else none := by
    cases a <;> cases b <;> simp
    split <;> simp
  ext1
  · change (if (diffPatch was n).pc.derpRegion=0 then none else some _)=_
    rw [diffPatch_component was n PeerChange.derpRegion .homeDERP (was.homeDERP≠n.homeDERP) n.homeDERP]
    by_cases h : was.homeDERP=n.homeDERP <;> by_cases h0 : n.homeDERP=0 <;>
      simp [Node.carried,h,h0]
  · change (if (diffPatch was n).pc.cap=0 then none else some _)=_
    rw [diffPatch_component was n PeerChange.cap .cap (was.cap≠n.cap) n.cap]
    by_cases h : was.cap=n.cap <;> by_cases h0 : n.cap=0 <;> simp [Node.carried,h,h0]
  · change (diffPatch was n).pc.endpoints.map some=_
    rw [diffPatch_component was n PeerChange.endpoints .endpoints (was.endpoints.elems≠n.endpoints.elems) n.endpoints]
    by_cases h : was.endpoints.elems=n.endpoints.elems <;> simp [Node.carried,h]
  · change (diffPatch was n).pc.key=_
    rw [diffPatch_component was n PeerChange.key .key (was.key≠n.key) (some n.key)]
    simp [Node.carried]
  · change (diffPatch was n).pc.discoKey=_
    rw [diffPatch_component was n PeerChange.discoKey .discoKey (was.discoKey≠n.discoKey) (some n.discoKey)]
    simp [Node.carried]
  · change (diffPatch was n).pc.online.map some=_
    rw [diffPatch_component was n PeerChange.online .online
      (was.online.isSome && n.online.isSome && was.online≠n.online) n.online]
    exact hptr was.online n.online
  · change (diffPatch was n).pc.lastSeen.map some=_
    rw [diffPatch_component was n PeerChange.lastSeen .lastSeen
      (was.lastSeen.isSome && n.lastSeen.isSome && was.lastSeen≠n.lastSeen) n.lastSeen]
    exact hptr was.lastSeen n.lastSeen
  · change (diffPatch was n).pc.keyExpiry=_
    rw [diffPatch_component was n PeerChange.keyExpiry .keyExpiry (was.keyExpiry≠n.keyExpiry) (some n.keyExpiry)]
    simp [Node.carried]
  · change (diffPatch was n).pc.keySignature.map some=_
    rw [diffPatch_component was n PeerChange.keySignature .keySignature
      (was.keySignature.elems≠n.keySignature.elems) n.keySignature]
    by_cases h : was.keySignature.elems=n.keySignature.elems <;> simp [Node.carried,h]
  · change (diffPatch was n).pc.capMap.map some=_
    rw [diffPatch_component was n PeerChange.capMap .capMap (CapMap.differ was.capMap n.capMap)
      (CapMap.toPatch was.capMap n.capMap)]
    cases h : CapMap.differ was.capMap n.capMap <;> simp [Node.carried,h]

lemma diffPatch_untouched (h : (diffPatch was n).touched=false) :
    (diffPatch was n).pc = { nodeID := 0 } := by
  have hinv : ∀ (l : List NodeField) (ret : Diff), (ret.touched=false → ret.pc = { nodeID := 0 }) →
      (l.foldl (noted was n) ret).touched=false →
      (l.foldl (noted was n) ret).pc = { nodeID := 0 } := by
    intro l
    induction l with
    | nil => exact fun ret h => h
    | cons f l ih =>
      intro ret hret
      refine ih (noted was n ret f) ?_
      have hnoted : noted was n ret f=ret ∨ (noted was n ret f).touched=true := by
        have hite (c : Bool) (pc : PeerChange) : (if c then ⟨true,pc⟩ else ret : Diff)=ret ∨
            (if c then ⟨true,pc⟩ else ret : Diff).touched=true := by cases c <;> simp
        cases f <;> simp only [noted,diffField,Diff.after_keep,Diff.after_note,Diff.after_ok,
          Diff.after_ite,Diff.after_error,ite_self,true_or,hite]
      rcases hnoted with he | ht
      · rw [he]
        exact hret
      · rw [ht]
        exact fun h => by cases h
  exact hinv nodeFields _ (fun _ => rfl) h

end

section
variable {was n : Node} (hw : was.legacyDERPString=[]) (hn : n.legacyDERPString=[])
include hw hn

lemma peerChangeDiff_of_patchable
    (h : was.patchable n=true) :
    ∃ r, peerChangeDiff was n=.ok r ∧ (r.map PeerChange.assign).getD {} = was.carried n ∧ ∀ p ∈ r, p.nodeID=n.id := by
  rw [peerChangeDiff,(foldlM_diffField hw hn _ nodeFields).1 h]
  change ∃ r, Except.ok (if (diffPatch was n).touched=true
    then some { (diffPatch was n).pc with nodeID := n.id } else none)=Except.ok r ∧ _
  refine ⟨_,rfl,?_⟩
  cases ht : (diffPatch was n).touched with
  | true =>
    refine ⟨?_,by simp⟩
    rw [← assign_diffPatch]
    rfl
  | false =>
    refine ⟨?_,by simp⟩
    rw [← assign_diffPatch,diffPatch_untouched was n ht]
    rfl

lemma peerChangeDiff_of_not_patchable (h : was.patchable n=false) :
    ∃ f, peerChangeDiff was n=.error (.notPatchable f) := by
  obtain ⟨f,hf⟩ := (foldlM_diffField hw hn ⟨false,{ nodeID := 0 }⟩ nodeFields).2 h
  exact ⟨f,by rw [peerChangeDiff,hf]; rfl⟩

end

end TunnnejiTail.Netmap
