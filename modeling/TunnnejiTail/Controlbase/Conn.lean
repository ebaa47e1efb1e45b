import Mathlib.Logic.Function.Basic
import Mathlib.Logic.Relation
import TunnnejiTail.Crypto.Aead
import TunnnejiTail.Go.Strings

/-! A secured Noise connection and its peer. Read and Write hold the lock of their half of the
connection from start to end; a call is cut where it uses the transport and where its loop
starts over, and there the other half and the peer may run. The transport is the adversary's:
it delivers any bytes, in pieces of any size, and may fail at any time. -/
namespace TunnnejiTail.Controlbase
open Go Crypto

def maxMessageSize : ℕ := 4096
def headerLen : ℕ := 3
def maxCiphertextSize : ℕ := maxMessageSize-headerLen
def overhead : ℕ := 16
def maxPlaintextSize : ℕ := maxCiphertextSize-overhead
def msgTypeRecord : UInt8 := 4
def invalidNonce : UInt64 := UInt64.ofNat (2^64-1)

structure Nonce where
  hi : UInt32
  counter : UInt64
  deriving DecidableEq

namespace Nonce

def valid (n : Nonce) : Bool := n.hi=0 && n.counter≠invalidNonce

def increment (n : Nonce) : Except Fault Nonce :=
  if n.valid then .ok { n with counter := 1+n.counter } else .error .panicked

end Nonce

inductive Key
  | c1
  | c2
  deriving DecidableEq

abbrev Cipher := AEAD Nonce overhead

abbrev Logs := Key → Log Nonce

inductive ConnError
  | closed
  | unexpectedType (msgType : UInt8)
  | cipherExhausted
  | openFailed
  | readTooBig (requested : ℕ)
  | transport (text : Str)
  | partialWrite (text : Str)
  deriving DecidableEq

structure MaxMsgBuffer where
  bytes : Bytes
  size : bytes.length=maxMessageSize

/-- What copy leaves in the buffer when it copies v to b[lo:]. -/
def MaxMsgBuffer.overwrite (b : MaxMsgBuffer) (lo : ℕ) (v : Bytes) : MaxMsgBuffer where
  bytes := b.bytes.take lo++v.take (maxMessageSize-lo)++b.bytes.drop (lo+v.length)
  size := by
    have h := b.size
    simp only [List.length_append,List.length_take,List.length_drop]
    omega

/-- The plaintext is a slice into the buffer, but the buffer is left alone until it is empty.
The buffer from which a header is read is only the transport's. -/
structure RxState where
  cipher : Option Key
  nonce : Nonce
  buf : Option MaxMsgBuffer
  n : ℕ
  next : ℕ
  plaintext : Bytes

namespace RxState

def slice (rx : RxState) (lo hi : ℕ) : Except Fault Bytes :=
  match rx.buf with
  | none => .error .panicked
  | some b => Go.slice b.bytes lo hi

inductive ReadN
  | done (bs : Bytes)
  | failed (err : ConnError)
  | wait

/-- One turn of the loop of readNLocked, up to its use of the transport. -/
def readNLocked (rx : RxState) (total : ℕ) : Except Fault ReadN :=
  if total > maxMessageSize then .ok (.failed (.readTooBig total))
  else if total ≤ rx.n then do
    let bs ← rx.slice 0 total
    return .done bs
  else match rx.buf with
    | none => if rx.n≠0 ∨ total≠headerLen then .error .panicked else .ok .wait
    | some _ => .ok .wait

def room (rx : RxState) : ℕ :=
  match rx.buf with
  | none => headerLen
  | some _ => maxMessageSize-rx.n

/-- The transport has read some bytes; a buffer is taken from the pool if there is none. -/
def received (rx : RxState) (pooled : MaxMsgBuffer) (data : Bytes) : RxState :=
  { rx with
    buf := match rx.buf with
      | none => if data=[] then none else some (pooled.overwrite 0 data)
      | some b => some (b.overwrite rx.n data)
    n := rx.n+data.length }

def decryptLocked (A : Cipher) (logs : Logs) (rx : RxState)
    (msg : Bytes) : Except Fault (RxState × Option ConnError) := do
  let msgType ← index msg 0
  if msgType≠msgTypeRecord then return (rx,some (.unexpectedType msgType))
  else do
    let ciphertext ← sliceFrom msg headerLen
    if !rx.nonce.valid then return (rx,some .cipherExhausted)
    else match rx.cipher with
      | none => .error .panicked
      | some key => do
        let nonce ← rx.nonce.increment
        match A.opens (logs key) rx.nonce ciphertext with
        | some plaintext => return ({ rx with plaintext := plaintext,nonce := nonce },none)
        | none => return ({ rx with plaintext := [],nonce := nonce,cipher := none },some .openFailed)

def wholeMessageLocked (rx : RxState) : Except Fault (RxState × Option Bytes) :=
  if rx.n-rx.next<headerLen then .ok (rx,none)
  else do
    let bs ← rx.slice rx.next rx.n
    let size ← uint16At bs 1
    if bs.length<headerLen+size.toNat then return (rx,none)
    else do
      let msg ← Go.slice bs 0 (headerLen+size.toNat)
      return ({ rx with next := rx.next+(headerLen+size.toNat) },some msg)

def moveToHead (rx : RxState) : Except Fault RxState :=
  if rx.next=0 then .ok rx
  else do
    let rest ← rx.slice rx.next rx.n
    return { rx with buf := rx.buf.map (·.overwrite 0 rest),n := rest.length,next := 0 }

def releaseBuf (rx : RxState) : RxState :=
  if rx.n=0 ∧ rx.next=0 then { rx with buf := none } else rx

end RxState

/-- Where a Read call is: outside, at the head of its loop, or in one of the two calls of
readNLocked. The length of the caller's slice is len. -/
inductive ReadPC
  | idle
  | looping (len : ℕ)
  | header (len : ℕ)
  | message (len total : ℕ)
  deriving DecidableEq

inductive ReadEvent
  | returned (bs : Bytes)
  | failed (err : ConnError)
  deriving DecidableEq

def ReadEvent.bytes : ReadEvent → Bytes
  | returned bs => bs
  | failed _ => []

/-- The half of a connection that Read uses, and what its calls have returned. -/
structure Reader where
  rx : RxState
  pc : ReadPC
  events : List ReadEvent

namespace Reader

def returned (r : Reader) : Bytes := r.events.flatMap ReadEvent.bytes

def after (r : Reader) (rx : RxState) (pc : ReadPC) : Option ConnError → Reader
  | none => { r with rx := rx,pc := pc }
  | some err => ⟨rx,.idle,r.events++[.failed err]⟩

def call (r : Reader) (len : ℕ) : Reader :=
  match r.rx.cipher with
  | none => r.after r.rx .idle (some .closed)
  | some _ => { r with pc := .looping len }

def deliver (r : Reader) (len : ℕ) : Reader where
  rx := { r.rx with plaintext := r.rx.plaintext.drop len }
  pc := .idle
  events := r.events++[.returned (r.rx.plaintext.take len)]

section
variable (A : Cipher) (logs : Logs)

/-- decryptOneLocked up to its first call of readNLocked. -/
def decryptOneLocked (r : Reader) (len : ℕ) : Except Fault Reader := do
  let (rx,whole) ← RxState.wholeMessageLocked { r.rx with plaintext := [] }
  match whole with
  | some bs => do
    let (rx,err) ← rx.decryptLocked A logs bs
    return r.after rx (.looping len) err
  | none => do
    let rx ← rx.moveToHead
    return { r with rx := rx.releaseBuf,pc := .header len }

/-- Go on with the bytes that readNLocked returns, unless it waits for the transport. -/
def readN (r : Reader) (total : ℕ) (next : Bytes → Except Fault Reader) :
    Except Fault (Option Reader) := do
  match ← r.rx.readNLocked total with
  | .wait => return none
  | .failed err => return some (r.after r.rx .idle (some err))
  | .done bs => some <$> next bs

def headerRead (r : Reader) (len : ℕ) (bs : Bytes) : Except Fault Reader := do
  let size ← uint16At bs 1
  return { r with pc := .message len (headerLen+size.toNat) }

def messageRead (r : Reader) (len : ℕ) (bs : Bytes) : Except Fault Reader := do
  let (rx,err) ← RxState.decryptLocked A logs { r.rx with next := bs.length } bs
  return r.after rx (.looping len) err

/-- Run up to the next cut; a call that waits for the transport does not run. -/
def run (r : Reader) : Except Fault (Option Reader) :=
  match r.pc with
  | .idle => .ok none
  | .looping len =>
    if r.rx.plaintext.length=0 then some <$> r.decryptOneLocked A logs len
    else .ok (some (r.deliver len))
  | .header len => r.readN headerLen (r.headerRead len)
  | .message len total => r.readN total (r.messageRead A logs len)

def wants (r : Reader) : Option ℕ :=
  match r.pc with
  | .header _ => some headerLen
  | .message _ total => some total
  | _ => none

/-- The transport's Read returns to a call that waits for it. -/
def receive (r : Reader) (pooled : MaxMsgBuffer) (data : Bytes) (err : Option Str) :
    Except Fault (Option Reader) :=
  match r.wants with
  | none => .ok none
  | some total => do
    match ← r.rx.readNLocked total with
    | .wait =>
      if data.length ≤ r.rx.room then
        return some (r.after (r.rx.received pooled data) r.pc (err.map .transport))
      else return none
    | _ => return none

end

end Reader

inductive ReadAction
  | call (len : ℕ)
  | run
  | receive (pooled : MaxMsgBuffer) (data : Bytes) (err : Option Str)
  | close

/-- One action on the half that Read uses; none if it is not possible now. -/
def Reader.step (A : Cipher) (logs : Logs) (r : Reader) :
    ReadAction → Except Fault (Option Reader)
  | .call len => .ok (if r.pc=.idle then some (r.call len) else none)
  | .run => r.run A logs
  | .receive pooled data err => r.receive pooled data err
  | .close => .ok (if r.pc=.idle then some { r with rx := { r.rx with cipher := none } } else none)

structure TxState where
  cipher : Option Key
  nonce : Nonce
  err : Option ConnError

structure Frame where
  bytes : Bytes
  key : Key
  entry : Sealed Nonce

def TxState.encryptLocked (A : Cipher) (logs : Logs) (tx : TxState)
    (plaintext : Bytes) : Except Fault (TxState × Except ConnError Frame) :=
  if !tx.nonce.valid then .ok (tx,.error .cipherExhausted)
  else match tx.cipher with
    | none => .error .panicked
    | some key => do
      let ciphertext := A.seals (logs key) tx.nonce plaintext
      let hdr := msgTypeRecord::uint16Bytes (UInt16.ofNat (plaintext.length+overhead))
      let nonce ← tx.nonce.increment
      return ({ tx with nonce := nonce },.ok ⟨hdr++ciphertext,key,⟨tx.nonce,plaintext,ciphertext⟩⟩)

/-- Where a Write call is: outside, at the head of its loop with the bytes still to send, or in
the transport with a frame of the given number of bytes. -/
inductive WritePC
  | idle
  | looping (bs : Bytes) (sent : ℕ)
  | sending (frame : Bytes) (toSend : ℕ) (bs : Bytes) (sent : ℕ)
  deriving DecidableEq

/-- The half of a connection that Write uses, the bytes that its calls were given and what they
have returned. -/
structure Writer where
  tx : TxState
  pc : WritePC
  written : Bytes
  results : List (ℕ × Option ConnError)

namespace Writer

/-- Write returns, with its deferred function. -/
def finish (w : Writer) (tx : TxState) (sent : ℕ) (err : Option ConnError) : Writer where
  tx := { tx with
    cipher := if err.isSome then none else tx.cipher
    err := if tx.err.isNone then err else tx.err }
  pc := .idle
  written := w.written
  results := w.results++[(sent,err)]

/-- Write(bs) has taken the lock. -/
def call (w : Writer) (bs : Bytes) : Writer :=
  let w := { w with written := w.written++bs }
  match w.tx.err with
  | some err => { w with results := w.results++[(0,some err)] }
  | none =>
    match w.tx.cipher with
    | none => w.finish w.tx 0 (some .closed)
    | some _ => { w with pc := .looping bs 0 }

def sent (w : Writer) (err : Option Str) : Option Writer :=
  match w.pc,err with
  | .sending _ toSend bs sent,none => some { w with pc := .looping bs (sent+toSend) }
  | .sending _ _ _ sent,some text =>
    some (w.finish { w.tx with err := some (.partialWrite text) } sent (some (.transport text)))
  | _,_ => none

/-- Run the loop of Write up to its use of the transport. -/
def run (A : Cipher) (logs : Logs) (w : Writer) :
    Except Fault (Option (Writer × Option Frame)) :=
  match w.pc with
  | .looping bs sent =>
    if bs.length=0 then .ok (some (w.finish w.tx sent none,none))
    else do
      let toSend := bs.take maxPlaintextSize
      let (tx,frame) ← w.tx.encryptLocked A logs toSend
      match frame with
      | .error err => return some (w.finish tx sent (some err),none)
      | .ok frame =>
        let pc := WritePC.sending frame.bytes toSend.length (bs.drop toSend.length) sent
        return some ({ w with tx := tx,pc := pc },some frame)
  | _ => .ok none

end Writer

inductive WriteAction
  | call (bs : Bytes)
  | run
  | sent (err : Option Str)
  | close

/-- One action on the half that Write uses, with the frame it seals. -/
def Writer.step (A : Cipher) (logs : Logs) (w : Writer) :
    WriteAction → Except Fault (Option (Writer × Option Frame))
  | .call bs => .ok (if w.pc=.idle then some (w.call bs,none) else none)
  | .run => w.run A logs
  | .sent err => .ok ((w.sent err).map fun w => (w,none))
  | .close => .ok (if w.pc=.idle then some ({ w with tx := { w.tx with cipher := none } },none) else none)

inductive Side
  | client
  | server
  deriving DecidableEq

namespace Side

def peer : Side → Side
  | client => server
  | server => client

def txKey : Side → Key
  | client => .c1
  | server => .c2

def rxKey : Side → Key
  | client => .c2
  | server => .c1

end Side

/-- The connections of the two sides, how many calls of Close are between their two halves, and
what was sealed under each key. -/
structure System where
  readers : Side → Reader
  writers : Side → Writer
  closing : Side → ℕ
  logs : Logs

def established : System where
  readers s := ⟨⟨some s.rxKey,⟨0,0⟩,none,0,0,[]⟩,.idle,[]⟩
  writers s := ⟨⟨some s.txKey,⟨0,0⟩,none⟩,.idle,[],[]⟩
  closing _ := 0
  logs _ := []

def record (logs : Logs) : Option Frame → Logs
  | none => logs
  | some frame => Function.update logs frame.key (logs frame.key++[frame.entry])

/-- One action on one half of one side. Close takes the lock of the half that Read uses first. -/
inductive Step (A : Cipher) : System → System → Prop
  | read {σ : System} (s : Side) (a : ReadAction) (r : Reader) (ha : a≠.close)
    (h : (σ.readers s).step A σ.logs a=.ok (some r)) :
    Step A σ { σ with readers := Function.update σ.readers s r }
  | write {σ : System} (s : Side) (a : WriteAction) (w : Writer) (frame : Option Frame)
    (ha : a≠.close) (h : (σ.writers s).step A σ.logs a=.ok (some (w,frame))) :
    Step A σ { σ with writers := Function.update σ.writers s w,logs := record σ.logs frame }
  | closeRx {σ : System} (s : Side) (r : Reader)
    (h : (σ.readers s).step A σ.logs .close=.ok (some r)) :
    Step A σ { σ with
      readers := Function.update σ.readers s r
      closing := Function.update σ.closing s (σ.closing s+1) }
  | closeTx {σ : System} (s : Side) (w : Writer) (hc : 0<σ.closing s)
    (h : (σ.writers s).step A σ.logs .close=.ok (some (w,none))) :
    Step A σ { σ with
      writers := Function.update σ.writers s w
      closing := Function.update σ.closing s (σ.closing s-1) }

abbrev Reachable (A : Cipher) : System → Prop :=
  Relation.ReflTransGen (Step A) established

end TunnnejiTail.Controlbase
