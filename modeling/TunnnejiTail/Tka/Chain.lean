import TunnnejiTail.Go.Sort
import TunnnejiTail.Tka.AUM

/-! From the stored update messages to the active chain: the candidates, the ancestor, its state, and
the way forward over the forks. -/
namespace TunnnejiTail.Tka
open Go

inductive Halt
  | error (e : Err)
  | panic
  deriving DecidableEq

def Halt.wrap (s : String) : Halt → Halt
  | .error e => .error (e.wrap s)
  | .panic => .panic

def failWith {α : Type} (s : String) : Except Halt α := .error (.error (.text s))

def orHalt {α : Type} (x : Except Err α) : Except Halt α := x.mapError .error

/-- What the stored messages are read through. A message that is not there is none (os.ErrNotExist). -/
structure Chonk where
  aum : AUMHash → Option AUM
  childAUMs : AUMHash → List AUM
  heads : List AUM

structure Chain where
  oldest : AUM
  head : AUM
  state : State := .zero
  chainsThroughActive : Bool := false
  deriving DecidableEq

def bytesLess : Bytes → Bytes → Bool
  | [],[] => false
  | [],_::_ => true
  | _::_,[] => false
  | a::as,b::bs => decide (a<b) || decide (a=b) && bytesLess as bs

section
variable (X : Primitives) (sorter : SliceSort) (o : MapOrder) (C : Chonk)

/-- One candidate moves to its parent, if the parent is stored. -/
def stepBack (lastKnownOldest : Option AUMHash) (c : Chain) : Chain × Bool :=
  match c.oldest.parent.bind C.aum with
  | none => (c,false)
  | some parent => ({ c with
      oldest := parent
      chainsThroughActive := c.chainsThroughActive || decide (lastKnownOldest=some (X.hash parent)) },true)

/-- The rounds of computeChainCandidates; the number is that of rounds left. -/
def extendBack (lastKnownOldest : Option AUMHash) (maxIter : ℕ) : ℕ → List Chain → Except Halt (List Chain)
  | 0,_ => failWith ("iteration limit exceeded (" ++ toString maxIter ++ ")")
  | n+1,candidates =>
    let moved := candidates.map (stepBack X C lastKnownOldest)
    if moved.any Prod.snd then extendBack lastKnownOldest maxIter n (moved.map Prod.fst)
    else .ok (moved.map Prod.fst)

def computeChainCandidates (lastKnownOldest : Option AUMHash) (maxIter : ℕ) :
    Except Halt (List Chain) :=
  let candidates := C.heads.map fun a => { oldest := a,head := a }
  let candidates := sorter.sort (fun i j : Chain =>
    bytesLess (X.hash i.oldest).bytes (X.hash j.oldest).bytes) candidates
  extendBack X C lastKnownOldest maxIter maxIter candidates

/-- Whether the first of two candidates with their weights is preferred. -/
def forkLess (j i : AUM × UInt64) : Bool :=
  if i.2≠j.2 then i.2<j.2
  else if i.1.messageKind≠j.1.messageKind ∧ (i.1.messageKind=.removeKey ∨ j.1.messageKind=.removeKey) then
    j.1.messageKind=.removeKey
  else bytesLess (X.hash j.1).bytes (X.hash i.1).bytes

def pickNextAUM (state : State) : List AUM → Except Fault AUM
  | [] => .error .panicked
  | [a] => .ok a
  | candidates => do
    let weighed ← candidates.mapM fun a => (a.weight state).map fun w => (a,w)
    (sorter.sort (forkLess X) weighed).head?.elim (.error .panicked) fun first => .ok first.1

def advanceByPrimary (state : State) (candidates : List AUM) : Except Halt (Option (AUM × State)) :=
  match candidates with
  | [] => .ok none
  | first::rest => do
    let aum ← (pickNextAUM X sorter state (first::rest)).mapError fun _ => .panic
    let state ← (orHalt (state.applyVerifiedAUM X aum)).mapError (Halt.wrap "advancing state")
    return some (aum,state)

/-- The loop of fastForwardWithAdvancer; the number is that of rounds left. -/
def advanceLoop (advancer : State → List AUM → Except Halt (Option (AUM × State)))
    (done : AUM → State → Bool) (maxIter : ℕ) : ℕ → AUM → State → Except Halt (AUM × State)
  | 0,_,_ => failWith ("iteration limit exceeded (" ++ toString maxIter ++ ")")
  | n+1,curs,state =>
    if done curs state then .ok (curs,state)
    else do
      let next ← (advancer state (C.childAUMs (X.hash curs))).mapError
        (Halt.wrap ("advance " ++ X.x (X.hash curs)))
      match next with
      | none => return (curs,state)
      | some (next,nextState) => advanceLoop advancer done maxIter n next nextState

def fastForwardWithAdvancer (maxIter : ℕ) (startState : State)
    (advancer : State → List AUM → Except Halt (Option (AUM × State))) (done : AUM → State → Bool) :
    Except Halt (AUM × State) :=
  match startState.lastAUMHash with
  | none => failWith "invalid initial state"
  | some h =>
    match C.aum h with
    | none => .error (.error (Err.notExist.wrap ("reading next (" ++ X.v h ++ ")")))
    | some nextAUM => advanceLoop X C advancer done maxIter maxIter nextAUM startState

def fastForward (maxIter : ℕ) (startState : State) : Except Halt (AUM × State) :=
  fastForwardWithAdvancer X C maxIter startState (advanceByPrimary X sorter) fun _ _ => false

/-- The walk back to a starting point: its state and the messages on the way. The number is that of
rounds left. -/
def walkBack (maxIter : ℕ) : ℕ → AUM → Except Halt (State × List AUM)
  | 0,_ => failWith ("iteration limit exceeded (" ++ toString maxIter ++ ")")
  | n+1,curs =>
    if curs.messageKind=.checkpoint then
      match curs.state with
      | none => .error .panic
      | some st => .ok (st.cloneForUpdate X curs,[curs])
    else
      match curs.parent with
      | none =>
        if curs.messageKind=.noOp ∨ curs.messageKind=.addKey then
          ((orHalt (State.zero.applyVerifiedAUM X curs)).mapError
            (Halt.wrap ("applying genesis (" ++ X.plusV curs ++ ")"))).map fun st => (st,[curs])
        else failWith ("invalid genesis update: " ++ X.plusV curs)
      | some parent =>
        match C.aum parent with
        | none => .error (.error (Err.notExist.wrap ("reading parent (" ++ X.v parent ++ ")")))
        | some next => (walkBack maxIter n next).map fun r => (r.1,curs::r.2)

def advanceByPath (path : List AUMHash) (state : State) (candidates : List AUM) :
    Except Halt (Option (AUM × State)) :=
  match candidates.find? fun c => decide (X.hash c ∈ path) with
  | none => failWith "no candidate matching path"
  | some c => ((orHalt (state.applyVerifiedAUM X c)).mapError (Halt.wrap "advancing state")).map
      fun state => some (c,state)

def computeStateAt (maxIter : ℕ) (wantHash : AUMHash) : Except Halt State :=
  match C.aum wantHash with
  | none => .error (.error .notExist)
  | some topAUM => do
    let (start,path) ← walkBack X C maxIter (maxIter+1) topAUM
    let (_,state) ← fastForwardWithAdvancer X C maxIter start (advanceByPath X (path.map X.hash))
      fun curs _ => decide (X.hash curs=wantHash)
    if state.lastAUMHash≠some wantHash then failWith "unexpected fastForward outcome" else return state

/-- Later chains overwrite the mark of earlier ones with the same ancestor. -/
def markAncestors (chains : List Chain) : GoMap AUMHash Bool :=
  chains.foldl (fun m c => m.insert (X.hash c.oldest) c.chainsThroughActive) ∅

def pickAncestor (ancestors : List (AUMHash × Bool)) : Except Halt AUMHash :=
  match ancestors with
  | [e] => .ok e.1
  | l => (l.find? fun e => e.2).elim (failWith "multiple distinct chains") fun e => .ok e.1

def computeActiveAncestor (chains : List Chain) : Except Halt AUMHash :=
  pickAncestor (range o (markAncestors X chains))

def computeActiveChain (lastKnownOldest : Option AUMHash) (maxIter : ℕ) : Except Halt Chain := do
  let chains ← (computeChainCandidates X sorter C lastKnownOldest maxIter).mapError
    (Halt.wrap "computing candidates")
  if chains.length=0 then failWith "no chain candidates in AUM storage"
  else
    let oldestHash ← (computeActiveAncestor X o chains).mapError (Halt.wrap "computing ancestor")
    match C.aum oldestHash with
    | none => .error (.error .notExist)
    | some ancestor =>
      let state ← (computeStateAt X C maxIter oldestHash).mapError (Halt.wrap "bootstrapping state")
      let (head,state) ← (fastForward X sorter C maxIter state).mapError (Halt.wrap "fast forward")
      return { oldest := ancestor,head := head,state := state }

end

end TunnnejiTail.Tka
