import TunnnejiTail.Go.Marks
import TunnnejiTail.Go.Worklist
import TunnnejiTail.Tka.Chonk

/-! Compaction: five passes decide which messages are kept, and the others are purged. The loops without a
bound of their own take a number of rounds; a call that would go on after them has no result. The order in
which a map is visited is an argument of each pass, and so are the commit times. -/
namespace TunnnejiTail.Tka
open Go

structure CompactionOptions where
  minChain : ℤ
  minAge : ℤ

/-- The flags of a digest that is considered for deletion. -/
structure RetainState where
  active : Bool := false
  young : Bool := false
  leaf : Bool := false
  ancestor : Bool := false
  candidate : Bool := false
  deriving DecidableEq,Inhabited

namespace RetainState
variable (v : RetainState)

def setActive : RetainState := { v with active := true }

def setYoung : RetainState := { v with young := true }

def setLeaf : RetainState := { v with leaf := true }

def setAncestor : RetainState := { v with ancestor := true }

def setCandidate : RetainState := { v with candidate := true }

def retained : Bool := v.active || v.young || v.leaf || v.ancestor

end RetainState

abbrev Verdict := GoMap AUMHash RetainState

def stopWith {α : Type} (s : String) : Except (Option Halt) α := .error (some (.error (.text s)))

def notFound {α : Type} (s : String) : Except (Option Halt) α := .error (some (.error (Err.notExist.wrap s)))

def wrapStop (s : String) (e : Option Halt) : Option Halt := e.map (Halt.wrap s)

section
variable (X : Primitives) (C : Chonk)

/-- The first loop of markActiveChain: it ends at a message whose parent is not stored, or goes on with the
next one. -/
def markMinChain : ℕ → Verdict → AUM → Verdict × (AUMHash ⊕ AUM)
  | 0,verdict,next => (verdict,.inr next)
  | n+1,verdict,next =>
    let h := X.hash next
    let verdict := mark .setActive verdict h
    match next.parent with
    | none => (verdict,.inl h)
    | some parent =>
      match C.aum parent with
      | none => (verdict,.inl h)
      | some next => markMinChain n verdict next

/-- The second loop: back to a checkpoint that is old enough or the first message of all. -/
def markToTarget : ℕ → Verdict → AUM → Except (Option Halt) (Verdict × AUM)
  | 0,_,_ => .error none
  | n+1,verdict,next =>
    let h := X.hash next
    let verdict := mark .setActive verdict h
    if next.messageKind=.checkpoint ∧ ((entry verdict h).young=false ∨ next.parent=none) then
      .ok (verdict,next)
    else
      let parent := next.parent.getD (.fill 0)
      match C.aum parent with
      | none => notFound ("searching for compaction target (" ++ X.v parent ++ ")")
      | some next => markToTarget n verdict next

/-- The third loop: what is left of the active chain. -/
def markCandidates : ℕ → Verdict → AUM → Except (Option Halt) Verdict
  | 0,_,_ => .error none
  | n+1,verdict,next =>
    match next.parent with
    | none => .ok verdict
    | some parent =>
      let verdict := mark .setCandidate verdict parent
      match C.aum parent with
      | none => .ok verdict
      | some next => markCandidates n verdict next

def markActiveChain (fuel : ℕ) (verdict : Verdict) (minChain : ℤ) (head : AUMHash) :
    Except (Option Halt) (Verdict × AUMHash) :=
  match C.aum head with
  | none => .error (some (.error .notExist))
  | some next =>
    match markMinChain X C minChain.toNat verdict next with
    | (verdict,.inl h) => .ok (verdict,h)
    | (verdict,.inr next) => do
      let r ← markToTarget X C fuel verdict next
      let verdict ← markCandidates C fuel r.1 r.2
      return (verdict,X.hash r.2)

def markYoung (commitTime : AUMHash → Option ℤ) (minTime : ℤ) (verdict : Verdict) (h : AUMHash) :
    Except (Option Halt) Verdict :=
  match commitTime h with
  | none => .error (some (.error .notExist))
  | some t => .ok (if minTime<t then mark .setYoung verdict h else verdict)

def markYoungAUMs (o : MapOrder) (commitTime : AUMHash → Option ℤ) (now minAge : ℤ) (verdict : Verdict) :
    Except (Option Halt) Verdict :=
  ((range o verdict).map Prod.fst).foldlM (markYoung commitTime (now-minAge)) verdict

def markDescendant (verdict : Verdict) (h : AUMHash) : Except (Option Halt) (Verdict × List AUMHash) :=
  if (entry verdict h).leaf then .ok (verdict,[])
  else .ok (mark .setLeaf verdict h,(C.childAUMs h).map X.hash)

def markDescendantAUMs (fuel : ℕ) (o : MapOrder) (verdict : Verdict) : Except (Option Halt) Verdict :=
  scanAll (markDescendant X C) fuel (((range o verdict).filter fun e => e.2.retained).map Prod.fst) verdict

/-- The loop over the active chain from a new ancestor on. -/
def childLoop : ℕ → Verdict → AUMHash → Except (Option Halt) Verdict
  | 0,_,_ => .error none
  | n+1,verdict,next =>
    let onChain (a : AUM) : Bool :=
      (entry verdict (X.hash a)).candidate && !(entry verdict (X.hash a)).active
    match (C.childAUMs next).find? onChain with
    | none => .ok verdict
    | some a => childLoop n (mark .setAncestor verdict (X.hash a)) (X.hash a)

structure AncestorScan where
  verdict : Verdict
  candidateAncestor : AUMHash
  didAdjustCandidateAncestor : Bool

/-- One digest of the scan for ancestors. -/
def scanAncestor (fuel : ℕ) (s : AncestorScan) (h : AUMHash) :
    Except (Option Halt) (AncestorScan × List AUMHash) :=
  if (entry s.verdict h).ancestor then .ok (s,[])
  else
    let verdict := mark .setAncestor s.verdict h
    match C.aum h with
    | none => notFound ("reading " ++ X.v h)
    | some a =>
      match a.parent with
      | none => stopWith "reached genesis AUM without intersecting with candidate ancestor"
      | some parent =>
        if (entry verdict parent).retained then .ok ({ s with verdict := verdict },[])
        else if (entry verdict parent).candidate then do
          let verdict ← childLoop X C fuel (mark .setAncestor verdict parent) parent
          return (⟨verdict,parent,true⟩,[parent])
        else .ok ({ s with verdict := verdict },[parent])

/-- Back to a checkpoint, from an ancestor that was moved. -/
def walkToCheckpoint : ℕ → Verdict → AUM → Except (Option Halt) (Verdict × AUMHash)
  | 0,_,_ => .error none
  | n+1,verdict,next =>
    let h := X.hash next
    let verdict := mark .setActive verdict h
    if next.messageKind=.checkpoint then .ok (verdict,h)
    else
      match next.parent with
      | none => stopWith "reached genesis AUM without finding an appropriate candidateAncestor"
      | some parent =>
        match C.aum parent with
        | none => notFound ("searching for compaction target (" ++ X.v parent ++ ")")
        | some next => walkToCheckpoint n verdict next

def markAncestorIntersectionAUMs (fuel : ℕ) (o : MapOrder) (verdict : Verdict) (candidateAncestor : AUMHash) :
    Except (Option Halt) (Verdict × AUMHash) := do
  let toScan := ((range o verdict).filter fun e => e.2.retained && decide (e.1≠candidateAncestor)).map Prod.fst
  let s ← scanAll (scanAncestor X C fuel) fuel toScan ⟨verdict,candidateAncestor,false⟩
  if s.didAdjustCandidateAncestor then
    match C.aum s.candidateAncestor with
    | none => notFound ("searching for compaction target (" ++ X.v s.candidateAncestor ++ ")")
    | some next => walkToCheckpoint X C fuel s.verdict next
  else return (s.verdict,s.candidateAncestor)

end

section
variable {X : Primitives}

def Store.allAUMs (o : MapOrder) (s : Store X) : List AUMHash :=
  match s with
  | .mem c => (range o c.aums).map Prod.fst
  | .fs c => c.allAUMs o

/-- The first of the digests that cannot be purged, with its place in the list. -/
def Store.purgeError : ℕ → List AUMHash → Store X → Option Err
  | _,[],_ => none
  | i,h::hs,s =>
    match s.purge h with
    | none => some (Err.notExist.wrap ("reading " ++ toString i ++ " (" ++ X.lowerX h ++ ")"))
    | some s => purgeError (i+1) hs s

structure CompactOrders where
  storage : MapOrder
  young : MapOrder
  descendants : MapOrder
  ancestors : MapOrder
  delete : MapOrder

/-- The passes of Compact: the verdict and the new last active ancestor. -/
def compactVerdict (fuel : ℕ) (os : CompactOrders) (commitTime : AUMHash → Option ℤ) (now : ℤ)
    (storage : Store X) (head : AUMHash) (opts : CompactionOptions) :
    Except (Option Halt) (Verdict × AUMHash) := do
  let C := storage.chonk os.storage
  if opts.minChain=0 then stopWith "opts.MinChain must be set"
  else if opts.minAge=0 then stopWith "opts.MinAge must be set"
  else
    let verdict : Verdict := (storage.allAUMs os.storage).foldl (fun m h => m.insert h {}) ∅
    let verdict ← (markYoungAUMs os.young commitTime now opts.minAge verdict).mapError
      (wrapStop "marking young AUMs")
    let r ← (markActiveChain X C fuel verdict opts.minChain head).mapError (wrapStop "marking active chain")
    let verdict ← (markDescendantAUMs X C fuel os.descendants r.1).mapError (wrapStop "marking descendant AUMs")
    (markAncestorIntersectionAUMs X C fuel os.ancestors verdict r.2).mapError
      (wrapStop "marking ancestor intersection")

/-- Compact, and the store after it. -/
def compact (fuel : ℕ) (os : CompactOrders) (commitTime : AUMHash → Option ℤ) (now : ℤ) (storage : Store X)
    (head : AUMHash) (opts : CompactionOptions) : Store X × Except (Option Halt) AUMHash :=
  match compactVerdict fuel os commitTime now storage head opts with
  | .error e => (storage,.error e)
  | .ok (verdict,lastActiveAncestor) =>
    let toDelete := ((range os.delete verdict).filter fun e => !e.2.retained).map Prod.fst
    let storage := storage.setLastActiveAncestor lastActiveAncestor
    (storage.purgeAUMs toDelete,
      match storage.purgeError 0 toDelete with
      | none => .ok lastActiveAncestor
      | some e => .error (some (.error e)))

/-- Authority.Compact. -/
def Authority.compact (fuel : ℕ) (os : CompactOrders) (commitTime : AUMHash → Option ℤ) (now : ℤ)
    (a : Authority) (storage : Store X) (opts : CompactionOptions) :
    Store X × Except (Option Halt) Authority :=
  let r := Tka.compact fuel os commitTime now storage (X.hash a.head) opts
  (r.1,do
    let newAncestor ← r.2
    match r.1.aum newAncestor with
    | none => .error (some (.error .notExist))
    | some ancestor => return { a with oldestAncestor := ancestor })

end

end TunnnejiTail.Tka
