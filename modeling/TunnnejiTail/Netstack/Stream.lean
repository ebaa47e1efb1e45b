import TunnnejiTail.Go.Tasks
import TunnnejiTail.Netstack.Crypto

/-! A password-protected TCP connection: each direction has its own nonce and its own keystream. The
client of handleConn writes its nonce before it reads the other one, and newEncryptedTCPConn on the
server reads first. -/
namespace TunnnejiTail.Netstack
open Go Crypto TunnnejiTail.Types List Option Cipher

/-- One direction of the connection: the nonce that was drawn for it, the bytes under way, the two ends, what
io.ReadFull has read of the nonce, and all that was given to Write and returned by Read. -/
structure Direction where
  drawn : Bytes := []
  wire : Bytes := []
  writer : Option Chacha20Writer := none
  nonce : Bytes := []
  reader : Option Chacha20Reader := none
  written : Bytes := []
  returned : Bytes := []

namespace Direction
variable (x : Chacha20) (key : Raw32)

def openWriter (nonce : Bytes) (d : Direction) : Direction :=
  match newChacha20Writer x nonce key with
  | none => d
  | some (sent,w) => { d with drawn := nonce,wire := d.wire++sent,writer := some w }

/-- One Read of io.ReadFull that returns n bytes; the last one completes the reader. -/
def readNonce (n : ℕ) (d : Direction) : Direction :=
  { d with
    wire := d.wire.drop n
    nonce := d.nonce++d.wire.take n
    reader := if (d.nonce++d.wire.take n).length=chacha20NonceLen then
      newChacha20Reader x (d.nonce++d.wire.take n) key else none }

def write (p : Bytes) (d : Direction) : Except Fault Direction :=
  match d.writer with
  | none => .ok d
  | some w => do
    let (encrypted,w) ← w.write p
    return { d with wire := d.wire++encrypted,writer := some w,written := d.written++p }

/-- A Read for which the underlying one returns n bytes, with an error or without. -/
def read (n : ℕ) (err : Bool) (d : Direction) : Except Fault Direction :=
  match d.reader with
  | none => .ok d
  | some r => do
    let (decrypted,_,r) ← r.read (d.wire.take n) err
    return { d with wire := d.wire.drop n,reader := some r,returned := d.returned++decrypted }

/-- What is under way is what was written and not read yet, under the keystream of the nonce that was drawn
for this direction. -/
inductive Sound : Direction → Prop
  | unopened : Sound {}
  | opening {d : Direction} (size : d.drawn.length=chacha20NonceLen)
    (writer : d.writer=some ⟨⟨x key.bytes d.drawn,d.written.length⟩⟩)
    (limit : d.written.length ≤ maxKeystream) (reader : d.reader=none) (returned : d.returned=[])
    (short : d.nonce.length < chacha20NonceLen)
    (wire : d.nonce++d.wire=d.drawn++xorAt (x key.bytes d.drawn) 0 d.written) : Sound d
  | flowing {d : Direction} (rest : Bytes)
    (writer : d.writer=some ⟨⟨x key.bytes d.drawn,d.written.length⟩⟩)
    (limit : d.written.length ≤ maxKeystream)
    (reader : d.reader=some ⟨⟨x key.bytes d.drawn,d.returned.length⟩⟩)
    (written : d.written=d.returned++rest)
    (wire : d.wire=xorAt (x key.bytes d.drawn) d.returned.length rest) : Sound d

/-- What is returned is what was written, as far as it got. Both ends use the keystream of the nonce that was
drawn for this direction and no other, each from where it was last, and within the limit no call panics. -/
structure Faithful (d : Direction) : Prop where
  returned : d.returned <+: d.written
  drained : d.reader.isSome → d.wire=[] → d.returned=d.written
  writer : ∀ w, d.writer=some w → w.cipher=⟨x key.bytes d.drawn,d.written.length⟩
  reader : ∀ r, d.reader=some r → r.cipher=⟨x key.bytes d.drawn,d.returned.length⟩
  write : ∀ p, d.written.length+p.length ≤ maxKeystream → ∃ d', d.write p=.ok d'
  read : ∀ n err, n≤d.wire.length → ∃ d', d.read n err=.ok d'

variable {x key} {d d' : Direction}

section
variable (h : Sound x key d)
include h

lemma Sound.openWriter (hd : d.writer=none) {nonce : Bytes}
    (hnonce : nonce.length=chacha20NonceLen) : Sound x key (d.openWriter x key nonce) := by
  cases h with
  | unopened =>
    rw [Direction.openWriter,newChacha20Writer,newUnauthenticatedCipher_eq x key hnonce]
    exact .opening hnonce rfl (Nat.zero_le _) rfl rfl (Nat.zero_lt_succ 11) (append_nil nonce).symm
  | opening _ hwriter => cases hd.symm.trans hwriter
  | flowing _ hwriter => cases hd.symm.trans hwriter

lemma Sound.readNonce (hd : d.reader=none) {n : ℕ} (hn : n≤d.wire.length)
    (hmax : d.nonce.length+n ≤ chacha20NonceLen) : Sound x key (d.readNonce x key n) := by
  cases h with
  | unopened =>
    rw [Direction.readNonce,drop_nil,take_nil,append_nil,if_neg (by decide)]
    exact .unopened
  | opening size hwriter hlimit hreader hreturned hshort hwire =>
    have hlength : (d.nonce++d.wire.take n).length=d.nonce.length+n := by
      rw [length_append,length_take_of_le hn]
    have hall : (d.nonce++d.wire.take n)++d.wire.drop n=d.drawn++xorAt (x key.bytes d.drawn) 0 d.written := by
      rw [append_assoc,take_append_drop,hwire]
    by_cases hfull : (d.nonce++d.wire.take n).length=chacha20NonceLen
    · obtain ⟨hnonce,hrest⟩ := append_inj hall (hfull.trans size.symm)
      refine .flowing d.written hwriter hlimit ?_ ?_ ?_
      · change (if _ then _ else _)=_
        rw [if_pos hfull,hnonce,newChacha20Reader,newUnauthenticatedCipher_eq x key size]
        change _=some (⟨⟨x key.bytes d.drawn,d.returned.length⟩⟩ : Chacha20Reader)
        rw [hreturned]
        rfl
      · change d.written=d.returned++d.written
        rw [hreturned,nil_append]
      · change d.wire.drop n=xorAt _ d.returned.length d.written
        rw [hreturned,hrest]
        rfl
    · exact .opening size hwriter hlimit (if_neg hfull) hreturned
        (Nat.lt_of_le_of_ne (hlength ▸ hmax) hfull) hall
  | flowing _ _ _ hreader => cases hd.symm.trans hreader

lemma Sound.writer_eq {w : Chacha20Writer} (hw : d.writer=some w) :
    w=⟨⟨x key.bytes d.drawn,d.written.length⟩⟩ ∧ d.written.length ≤ maxKeystream := by
  cases h with
  | unopened => cases hw
  | opening _ hwriter hlimit => exact ⟨some.inj (hw.symm.trans hwriter),hlimit⟩
  | flowing _ hwriter hlimit => exact ⟨some.inj (hw.symm.trans hwriter),hlimit⟩

lemma Sound.write_of_le {p : Bytes} (hle : d.written.length+p.length ≤ maxKeystream) :
    ∃ d', d.write p=.ok d' := by
  rw [Direction.write]
  cases hw : d.writer with
  | none => exact ⟨d,rfl⟩
  | some w =>
    obtain ⟨rfl,-⟩ := h.writer_eq hw
    simp only [Chacha20Writer.write_of_le (w := ⟨⟨x key.bytes d.drawn,d.written.length⟩⟩) hle]
    exact ⟨_,rfl⟩

lemma Sound.write {p : Bytes} (hd : d.write p=.ok d') : Sound x key d' := by
  rw [Direction.write] at hd
  cases hw : d.writer with
  | none =>
    simp only [hw] at hd
    cases hd
    exact h
  | some w =>
    obtain ⟨rfl,hlimit⟩ := h.writer_eq hw
    by_cases hle : d.written.length+p.length ≤ maxKeystream
    · simp only [hw,Chacha20Writer.write_of_le (w := ⟨⟨x key.bytes d.drawn,d.written.length⟩⟩) hle] at hd
      cases hd
      have hlength : (d.written++p).length=d.written.length+p.length := length_append
      cases h with
      | unopened => cases hw
      | opening size _ _ hreader hreturned hshort hwire =>
        refine .opening size (by rw [hlength]) (hlength ▸ hle) hreader hreturned hshort ?_
        change d.nonce++(d.wire++xorAt (x key.bytes d.drawn) d.written.length p)=_
        rw [← append_assoc,hwire,xorAt_append,append_assoc,Nat.zero_add]
      | flowing rest _ _ hreader hwritten hwire =>
        refine .flowing (rest++p) (by rw [hlength]) (hlength ▸ hle) hreader ?_ ?_
        · change d.written++p=d.returned++(rest++p)
          rw [hwritten,append_assoc]
        · change d.wire++xorAt (x key.bytes d.drawn) d.written.length p=xorAt _ d.returned.length (rest++p)
          rw [hwire,xorAt_append,hwritten,length_append]
    · rw [Nat.not_le] at hle
      have hpanic : xorKeyStream maxKeystream ⟨x key.bytes d.drawn,d.written.length⟩ p=.error .panicked :=
        xorKeyStream_of_lt hlimit hle
      simp only [hw,Chacha20Writer.write,hpanic] at hd
      cases hd

lemma Sound.read_eq {n : ℕ} (hn : n≤d.wire.length) (err : Bool) :
    ∃ d', d.read n err=.ok d' ∧ Sound x key d' := by
  rw [Direction.read]
  cases hr : d.reader with
  | none => exact ⟨d,rfl,h⟩
  | some r =>
    cases h with
    | unopened => cases hr
    | opening _ _ _ hreader => cases hr.symm.trans hreader
    | flowing rest hwriter hlimit hreader hwritten hwire =>
      cases hr.symm.trans hreader
      have hrest : n ≤ rest.length := by rwa [hwire,length_xorAt] at hn
      have htake : d.wire.take n=xorAt (x key.bytes d.drawn) d.returned.length (rest.take n) := by
        rw [hwire,take_xorAt]
      have hlength : (d.wire.take n).length=n := length_take_of_le hn
      have hle : d.returned.length+(d.wire.take n).length ≤ maxKeystream := by
        rw [hwritten,length_append] at hlimit
        omega
      simp only [Chacha20Reader.read_of_le (r := ⟨⟨x key.bytes d.drawn,d.returned.length⟩⟩) hle]
      refine ⟨_,rfl,.flowing (rest.drop n) hwriter hlimit ?_ ?_ ?_⟩
      · refine congrArg some ?_
        simp only [length_append,length_xorAt]
      · change d.written=(d.returned++xorAt _ d.returned.length (d.wire.take n))++rest.drop n
        rw [htake,xorAt_xorAt,append_assoc,take_append_drop,hwritten]
      · change d.wire.drop n=xorAt _ (d.returned++xorAt _ d.returned.length (d.wire.take n)).length _
        rw [length_append,length_xorAt,hlength,hwire,drop_xorAt]

lemma Sound.wire_ne_nil (hsent : d.writer.isSome) (hreader : d.reader=none) :
    d.wire≠[] := by
  intro hwire
  cases h with
  | unopened => cases hsent
  | opening size _ _ _ _ hshort hall =>
    have hlength := congrArg List.length hall
    rw [hwire,append_nil,length_append] at hlength
    omega
  | flowing _ _ _ hsome => cases hreader.symm.trans hsome

end

lemma Sound.faithful (h : Sound x key d) : Faithful x key d := by
  refine ⟨?_,?_,fun w hw => ?_,?_,fun p hp => h.write_of_le hp,fun n err hn => ?_⟩
  · cases h with
    | unopened => exact prefix_rfl
    | opening _ _ _ _ hreturned =>
      rw [hreturned]
      exact nil_prefix
    | flowing rest _ _ _ hwritten => exact ⟨rest,hwritten.symm⟩
  · intro hreader hempty
    cases h with
    | unopened => cases hreader
    | opening _ _ _ hnone =>
      rw [hnone] at hreader
      cases hreader
    | flowing rest _ _ _ hwritten hwire =>
      have hrest : rest=[] := by
        have hlength := congrArg List.length (hwire.symm.trans hempty)
        rw [length_xorAt] at hlength
        exact eq_nil_of_length_eq_zero hlength
      rw [hwritten,hrest,append_nil]
  · rw [(h.writer_eq hw).1]
  · intro r hr
    cases h with
    | unopened => cases hr
    | opening _ _ _ hnone => cases hr.symm.trans hnone
    | flowing _ _ _ hreader =>
      cases hr.symm.trans hreader
      rfl
  · obtain ⟨d',hd',-⟩ := h.read_eq hn err
    exact ⟨d',hd'⟩

end Direction

structure Pair where
  up : Direction := {}
  down : Direction := {}

namespace Pair
variable (x : Chacha20) (key : Raw32)

/-- The client writes its nonce, reads the server's and then copies; the server reads the client's nonce,
writes its own and then copies. -/
inductive Step : Pair → Pair → Prop
  | clientWriter {s : Pair} (nonce : Bytes) (size : nonce.length=chacha20NonceLen) (new : s.up.writer=none) :
    Step s { s with up := s.up.openWriter x key nonce }
  | clientNonce {s : Pair} (n : ℕ) (sent : s.up.writer.isSome) (new : s.down.reader=none)
    (avail : n ≤ s.down.wire.length) (room : s.down.nonce.length+n ≤ chacha20NonceLen) :
    Step s { s with down := s.down.readNonce x key n }
  | serverNonce {s : Pair} (n : ℕ) (new : s.up.reader=none) (avail : n ≤ s.up.wire.length)
    (room : s.up.nonce.length+n ≤ chacha20NonceLen) : Step s { s with up := s.up.readNonce x key n }
  | serverWriter {s : Pair} (nonce : Bytes) (size : nonce.length=chacha20NonceLen) (got : s.up.reader.isSome)
    (new : s.down.writer=none) : Step s { s with down := s.down.openWriter x key nonce }
  | clientWrite {s : Pair} {d : Direction} (p : Bytes) (ready : s.down.reader.isSome) (wrote : s.up.write p=.ok d) :
    Step s { s with up := d }
  | clientRead {s : Pair} {d : Direction} (n : ℕ) (err : Bool) (ready : s.down.reader.isSome)
    (avail : n ≤ s.down.wire.length) (got : s.down.read n err=.ok d) : Step s { s with down := d }
  | serverWrite {s : Pair} {d : Direction} (p : Bytes) (ready : s.down.writer.isSome)
    (wrote : s.down.write p=.ok d) : Step s { s with down := d }
  | serverRead {s : Pair} {d : Direction} (n : ℕ) (err : Bool) (ready : s.down.writer.isSome)
    (avail : n ≤ s.up.wire.length) (got : s.up.read n err=.ok d) : Step s { s with up := d }

def ClientWaits (s : Pair) : Prop := s.up.writer.isSome ∧ s.down.reader=none ∧ s.down.wire=[]

def ServerWaits (s : Pair) : Prop := s.up.reader=none ∧ s.up.wire=[]

variable {x key}

lemma sound_step {s s' : Pair} (h : Step x key s s') (hs : s.up.Sound x key ∧ s.down.Sound x key) :
    s'.up.Sound x key ∧ s'.down.Sound x key := by
  obtain ⟨hup,hdown⟩ := hs
  cases h with
  | clientWriter nonce size new => exact ⟨hup.openWriter new size,hdown⟩
  | clientNonce n _ new avail room => exact ⟨hup,hdown.readNonce new avail room⟩
  | serverNonce n new avail room => exact ⟨hup.readNonce new avail room,hdown⟩
  | serverWriter nonce size _ new => exact ⟨hup,hdown.openWriter new size⟩
  | clientWrite p _ wrote => exact ⟨hup.write wrote,hdown⟩
  | clientRead n err _ avail got =>
    obtain ⟨d',hd',hsound⟩ := hdown.read_eq avail err
    cases hd'.symm.trans got
    exact ⟨hup,hsound⟩
  | serverWrite p _ wrote => exact ⟨hup,hdown.write wrote⟩
  | serverRead n err _ avail got =>
    obtain ⟨d',hd',hsound⟩ := hup.read_eq avail err
    cases hd'.symm.trans got
    exact ⟨hsound,hdown⟩

def Ready (s : Pair) : Prop := s.down.reader.isSome ∧ s.down.writer.isSome

/-- One of the ends can go on with the opening: a nonce is still to be written, or a byte of one is there
to be read. -/
def Opens (s : Pair) : Prop :=
  s.up.writer=none ∨ s.up.reader=none ∧ s.up.wire≠[] ∨ s.up.reader.isSome ∧ s.down.writer=none ∨
    s.up.writer.isSome ∧ s.down.reader=none ∧ s.down.wire≠[]

lemma opens_or_ready {s : Pair} (hup : s.up.Sound x key) (hdown : s.down.Sound x key) : s.Opens ∨ s.Ready := by
  rw [Opens,Ready]
  cases hsent : s.up.writer with
  | none => exact Or.inl (Or.inl rfl)
  | some w =>
    cases hgot : s.up.reader with
    | none =>
      have hwire : s.up.wire≠[] := hup.wire_ne_nil (by rw [hsent]; rfl) hgot
      exact Or.inl (Or.inr (Or.inl ⟨rfl,hwire⟩))
    | some r =>
      cases hanswered : s.down.writer with
      | none => exact Or.inl (Or.inr (Or.inr (Or.inl ⟨rfl,rfl⟩)))
      | some w' =>
        cases hready : s.down.reader with
        | none =>
          have hwire : s.down.wire≠[] := hdown.wire_ne_nil (by rw [hanswered]; rfl) hready
          exact Or.inl (Or.inr (Or.inr (Or.inr ⟨rfl,rfl,hwire⟩)))
        | some r' => exact Or.inr ⟨rfl,rfl⟩

/-- In every state of a connection, each direction returns what was written into it and uses the keystream of
its own nonce, the two ends never wait for each other's nonce, and until both are ready one of them can go
on. -/
theorem stream_round_trip {s : Pair} (h : Relation.ReflTransGen (Step x key) {} s) :
    s.up.Faithful x key ∧ s.down.Faithful x key ∧ ¬(s.ClientWaits ∧ s.ServerWaits) ∧ (s.Opens ∨ s.Ready) := by
  obtain ⟨hup,hdown⟩ := reachable_invariant h ⟨.unopened,.unopened⟩ fun _ _ => sound_step
  refine ⟨hup.faithful,hdown.faithful,?_,opens_or_ready hup hdown⟩
  rintro ⟨⟨hsent,-,-⟩,hreader,hwire⟩
  exact hup.wire_ne_nil hsent hreader hwire

/-- A keystream that begins with the first byte of the nonce. -/
def counting : Chacha20 := fun _ nonce i => nonce.headD 0+UInt8.ofNat i

/-- Two bytes are written and the first of them is read; the ends have drawn different nonces. -/
theorem stream_round_trip_one_byte : ∃ s : Pair, Relation.ReflTransGen (Step counting (.fill 7)) {} s ∧
      s.up.drawn=replicate 12 3 ∧ s.down.drawn=replicate 12 4 ∧ s.up.written=[1,2] ∧ s.up.returned=[1] ∧
      s.up.Faithful counting (.fill 7) ∧ s.down.Faithful counting (.fill 7) := by
  have hrun := (((((Relation.ReflTransGen.refl (r := Step counting (.fill 7)) (a := {})).tail
    (.clientWriter (replicate 12 3) rfl rfl)).tail
    (.serverNonce 12 rfl (by decide) (by decide))).tail
    (.serverWriter (replicate 12 4) rfl rfl rfl)).tail
    (.clientNonce 12 rfl rfl (by decide) (by decide))).tail
    (.clientWrite [1,2] rfl rfl)
  have hread := hrun.tail (.serverRead 1 false rfl (by decide) rfl)
  obtain ⟨hup,hdown,-⟩ := stream_round_trip hread
  exact ⟨_,hread,rfl,rfl,rfl,rfl,hup,hdown⟩

end Pair

def Chacha20Writer.writes (w : Chacha20Writer) (ps : List Bytes) : Except Fault Chacha20Writer :=
  ps.foldlM (fun w p => Prod.snd <$> w.write p) w

def Chacha20Reader.reads (r : Chacha20Reader) (ps : List (Bytes × Bool)) : Except Fault Chacha20Reader :=
  ps.foldlM (fun r p => (fun res => res.2.2) <$> r.read p.1 p.2) r

lemma Chacha20Writer.writes_eq (w : Chacha20Writer) (ps : List Bytes) : w.writes ps =
    Chacha20Writer.mk <$> ps.foldlM (fun c p => Prod.snd <$> c.xorKeyStream maxKeystream p) w.cipher := by
  induction ps generalizing w with
  | nil => rfl
  | cons p ps ih =>
    rw [writes,foldlM_cons,foldlM_cons,write]
    cases w.cipher.xorKeyStream maxKeystream p with
    | error e => rfl
    | ok res => exact ih ⟨res.2⟩

lemma Chacha20Reader.read_eq (r : Chacha20Reader) (p : Bytes) (err : Bool) :
    (fun res => res.2.2) <$> r.read p err =
      Chacha20Reader.mk <$> (Prod.snd <$> r.cipher.xorKeyStream maxKeystream p) := by
  rw [read]
  by_cases hp : 0<p.length
  · rw [if_pos hp]
    cases r.cipher.xorKeyStream maxKeystream p with
    | error e => rfl
    | ok res => rfl
  · rw [if_neg hp,eq_nil_of_length_eq_zero (Nat.eq_zero_of_not_pos hp),xorKeyStream, if_neg fun h => h.1 rfl]
    rfl

lemma Chacha20Reader.reads_eq (r : Chacha20Reader) (ps : List (Bytes × Bool)) : r.reads ps =
    Chacha20Reader.mk <$> (ps.map Prod.fst).foldlM
      (fun c p => Prod.snd <$> c.xorKeyStream maxKeystream p) r.cipher := by
  induction ps generalizing r with
  | nil => rfl
  | cons p ps ih =>
    rw [reads,foldlM_cons,map_cons,foldlM_cons,read_eq]
    cases r.cipher.xorKeyStream maxKeystream p.1 with
    | error e => rfl
    | ok res => exact ih ⟨res.2⟩

lemma exists_map_ok {α β : Type} {f : α → β} {y : Except Fault α} :
    (∃ b, f <$> y=.ok b) ↔ ∃ a, y=.ok a := by
  cases y with
  | error e =>
    refine iff_of_false (fun h => ?_) fun h => ?_
    · obtain ⟨b,h⟩ := h
      cases h
    · obtain ⟨a,h⟩ := h
      cases h
  | ok a => exact iff_of_true ⟨f a,rfl⟩ ⟨a,rfl⟩

/-- The two ends of a direction never ask for keystream past its end exactly as long as no more than
2^38 bytes go through each of them. -/
theorem carries_iff (x : Chacha20) (key : Raw32) {nonce nonce' sent : Bytes} {w : Chacha20Writer}
    {r : Chacha20Reader} (hw : newChacha20Writer x nonce key=some (sent,w))
    (hr : newChacha20Reader x nonce' key=some r) (ps : List Bytes) (gots : List (Bytes × Bool)) :
    ((∃ w', w.writes ps=.ok w') ∧ ∃ r', r.reads gots=.ok r') ↔
      ps.flatten.length ≤ maxKeystream ∧ (gots.map Prod.fst).flatten.length ≤ maxKeystream := by
  obtain ⟨c,hc,hcw⟩ := map_eq_some_iff.mp hw
  obtain ⟨c',hc',hcr⟩ := map_eq_some_iff.mp hr
  have hpos {nonce : Bytes} {c : Cipher} (h : newUnauthenticatedCipher x key.bytes nonce=some c) : c.pos=0 := by
    rw [newUnauthenticatedCipher] at h
    split at h
    · cases h
    · cases h
      rfl
  cases hcw
  cases hcr
  rw [Chacha20Writer.writes_eq,Chacha20Reader.reads_eq,exists_map_ok,exists_map_ok,
    foldlM_returns_iff (by rw [hpos hc]; exact Nat.zero_le _),
    foldlM_returns_iff (by rw [hpos hc']; exact Nat.zero_le _),hpos hc,hpos hc',Nat.zero_add,Nat.zero_add]

lemma new_fill {x : Chacha20} : newChacha20Writer x (replicate 12 0) (.fill 0) =
      some (replicate 12 0,⟨⟨x (replicate 32 0) (replicate 12 0),0⟩⟩) ∧
    newChacha20Reader x (replicate 12 0) (.fill 0) = some ⟨⟨x (replicate 32 0) (replicate 12 0),0⟩⟩ := ⟨rfl,rfl⟩

/-- Two writes and two reads of a byte each. -/
theorem carries_two_bytes :
    newChacha20Writer (fun _ _ _ => 0) (List.replicate 12 0) (.fill 0)=some (List.replicate 12 0,⟨⟨fun _ => 0,0⟩⟩) ∧
    ((∃ w', Chacha20Writer.writes ⟨⟨fun _ => 0,0⟩⟩ [[1],[2]]=.ok w') ∧
      ∃ r', Chacha20Reader.reads ⟨⟨fun _ => 0,0⟩⟩ [([1],false),([2],true)]=.ok r') := by
  refine ⟨new_fill.1,?_⟩
  exact (carries_iff (fun _ _ _ => 0) (.fill 0) new_fill.1 new_fill.2 [[1],[2]] [([1],false),([2],true)]).mpr
    ⟨by decide,by decide⟩

/-- io.Copy with its buffer of 32 KiB, once more after 256 GiB. -/
theorem transfer_panics : ¬∀ (x : Chacha20) (key : Raw32) (nonce sent : Bytes) (w : Chacha20Writer),
    newChacha20Writer x nonce key=some (sent,w) → ∀ ps : List Bytes, ∃ w', w.writes ps=.ok w' := by
  intro h
  obtain ⟨ps,hps⟩ : ∃ ps : List Bytes, ps.flatten.length=274877939712 :=
    ⟨replicate 8388609 (replicate 32768 0),by
      rw [flatten_replicate_replicate,length_replicate]⟩
  have hw := h (fun _ _ _ => 0) (.fill 0) (replicate 12 0) _ _ new_fill.1 ps
  rw [Chacha20Writer.writes_eq,exists_map_ok,foldlM_returns_iff (Nat.zero_le _),hps,maxKeystream] at hw
  omega

end TunnnejiTail.Netstack
