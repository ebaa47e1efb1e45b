import TunnnejiTail.Controlbase.Reader

/-! What Write does to its half of the connection. Its frames are numbered by their nonces, and
as long as it has its cipher, nothing that it was given is missing from them. -/
namespace TunnnejiTail.Controlbase
open Go Crypto List

/-- What Write has been given, compared with what it has sealed. -/
def WritePC.Holds (log : Log Nonce) (tx : TxState) (written : Bytes) : WritePC → Prop
  | idle => (tx.err=none → tx.cipher.isSome → plaintexts log=written) ∧ plaintexts log <+: written
  | looping bs _ => tx.err=none ∧ tx.cipher.isSome ∧ plaintexts log++bs=written
  | sending _ _ bs _ => tx.err=none ∧ tx.cipher.isSome ∧ plaintexts log++bs=written

namespace Writer

/-- The invariant of the half that Write uses, for the key and the log of its direction. -/
structure Sound (key : Key) (log : Log Nonce) (w : Writer) : Prop where
  numbered : Numbered nonceAt log
  hi : w.tx.nonce.hi=0
  counter : w.tx.nonce.counter.toNat=log.length
  keyed : ∀ k, w.tx.cipher=some k → k=key
  holds : w.pc.Holds log w.tx w.written

def Adds (key : Key) (logs : Logs) (x : Writer × Option Frame) : Prop :=
  (∀ frame, x.2=some frame → frame.key=key) ∧ x.1.Sound key (record logs x.2 key)

variable {A : Cipher} {logs : Logs} {key : Key} {log : Log Nonce} {w : Writer}

section
variable (h : w.Sound key log)
include h

lemma Sound.length_lt : log.length<2^64 :=
  h.counter ▸ w.tx.nonce.counter.toNat_lt

lemma Sound.sent : plaintexts log <+: w.written := by
  have hholds := h.holds
  cases hpc : w.pc with
  | idle =>
    rw [hpc] at hholds
    exact hholds.2
  | looping bs sent =>
    rw [hpc] at hholds
    exact ⟨bs,hholds.2.2⟩
  | sending frame toSend bs sent =>
    rw [hpc] at hholds
    exact ⟨bs,hholds.2.2⟩

lemma Sound.finish {tx : TxState} {sent : ℕ} {err : Option ConnError}
    (hnonce : tx.nonce=w.tx.nonce) (hcipher : tx.cipher=w.tx.cipher)
    (hall : err=none → plaintexts log=w.written) : (w.finish tx sent err).Sound key log where
  numbered := h.numbered
  hi := hnonce ▸ h.hi
  counter := hnonce ▸ h.counter
  keyed k hk := by
    simp only [Writer.finish] at hk
    split_ifs at hk
    exact h.keyed k (hcipher ▸ hk)
  holds := by
    refine ⟨fun _ hc => hall ?_,h.sent⟩
    cases err with
    | none => rfl
    | some err => cases hc

lemma Sound.refuse (hidle : w.pc=.idle)
    (hdead : w.tx.err=none → ¬w.tx.cipher.isSome) (bs : Bytes) :
    Sound key log { w with written := w.written++bs } where
  numbered := h.numbered
  hi := h.hi
  counter := h.counter
  keyed := h.keyed
  holds := by
    rw [hidle]
    exact ⟨fun herr hc => absurd hc (hdead herr),h.sent.trans ⟨bs,rfl⟩⟩

lemma Sound.call (hidle : w.pc=.idle) (bs : Bytes) : (w.call bs).Sound key log := by
  unfold Writer.call
  dsimp only
  cases herr : w.tx.err with
  | some err =>
    have hdead := h.refuse hidle (fun hnone => by cases herr.symm.trans hnone) bs
    exact ⟨hdead.numbered,hdead.hi,hdead.counter,hdead.keyed,hdead.holds⟩
  | none =>
    cases hc : w.tx.cipher with
    | none =>
      have hdead := h.refuse hidle (fun _ => by simp [hc]) bs
      exact hdead.finish rfl rfl nofun
    | some k =>
      have hsome : w.tx.cipher.isSome := by
        rw [hc]
        rfl
      have hholds := h.holds
      rw [hidle] at hholds
      refine ⟨h.numbered,h.hi,h.counter,h.keyed,herr,hsome,?_⟩
      rw [hholds.1 herr hsome]

end

lemma encryptLocked_returns {tx : TxState} {k : Key} (hkey : tx.cipher=some k) (plaintext : Bytes) :
    Returns (tx.encryptLocked A logs plaintext) fun x =>
      (∃ err, x=(tx,.error err)) ∨ tx.nonce.valid ∧ ∃ bytes ciphertext,
        x=({ tx with nonce := ⟨tx.nonce.hi,1+tx.nonce.counter⟩ }, .ok ⟨bytes,k,⟨tx.nonce,plaintext,ciphertext⟩⟩) := by
  refine Returns.ite (fun _ => .ok (.inl ⟨_,rfl⟩)) fun hvalid => ?_
  have hvalid : tx.nonce.valid := by simpa using hvalid
  rw [hkey]
  refine Returns.bind (.of_eq (Nonce.increment_eq hvalid)) ?_
  rintro _ rfl
  exact .ok (.inr ⟨hvalid,_,_,rfl⟩)

lemma record_self (logs : Logs) (frame : Frame) :
    record logs (some frame) frame.key=logs frame.key++[frame.entry] :=
  Function.update_self ..

lemma Sound.sealed (h : w.Sound key log) {bs toSend frame ciphertext : Bytes} {sent n : ℕ}
    (hpc : w.pc=.looping bs sent) (hpre : toSend <+: bs) (hvalid : w.tx.nonce.valid) :
    Sound key (log++[⟨w.tx.nonce,toSend,ciphertext⟩])
      { w with
        tx := { w.tx with nonce := ⟨w.tx.nonce.hi,1+w.tx.nonce.counter⟩ }
        pc := .sending frame n (bs.drop toSend.length) sent } := by
  have hholds := h.holds
  rw [hpc] at hholds
  obtain ⟨herr,hc,hwritten⟩ := hholds
  have hnonce : w.tx.nonce=nonceAt log.length := by
    rw [← h.counter]
    exact Nonce.eq_nonceAt h.hi
  refine ⟨?_,h.hi,?_,h.keyed,herr,hc,?_⟩
  · rw [hnonce]
    exact h.numbered.snoc toSend ciphertext
  · rw [length_append,length_singleton,← h.counter]
    exact (Nonce.toNat_succ hvalid).1
  · rw [plaintexts_snoc,append_assoc,prefix_iff_eq_append.mp hpre]
    exact hwritten

lemma Sound.run_returns (h : w.Sound key (logs key)) :
    Returns (w.run A logs) fun x => ∀ y, x=some y → Adds key logs y := by
  have hholds := h.holds
  unfold Writer.run
  split
  · next bs sent hpc =>
    rw [hpc] at hholds
    obtain ⟨herr,hc,hwritten⟩ := hholds
    refine Returns.ite (fun hlen => .ok ?_) fun _ => ?_
    · rintro _ ⟨⟩
      obtain rfl := eq_nil_of_length_eq_zero hlen
      rw [append_nil] at hwritten
      exact ⟨nofun,h.finish rfl rfl fun _ => hwritten⟩
    · obtain ⟨k,hk⟩ := Option.isSome_iff_exists.mp hc
      obtain rfl := h.keyed k hk
      refine Returns.bind (encryptLocked_returns hk _) ?_
      rintro x (⟨err,rfl⟩ | ⟨hvalid,bytes,ciphertext,rfl⟩)
      · refine .ok ?_
        rintro _ ⟨⟩
        exact ⟨nofun,h.finish rfl rfl nofun⟩
      · refine .ok ?_
        rintro _ ⟨⟩
        refine ⟨?_,?_⟩
        · rintro _ ⟨⟩
          rfl
        · rw [record_self]
          exact h.sealed hpc ( take_prefix _ _) hvalid
  · refine .ok ?_
    rintro _ ⟨⟩

lemma Sound.transport {w' : Writer} (h : w.Sound key log) (err : Option Str)
    (hw : w.sent err=some w') : w'.Sound key log := by
  have hholds := h.holds
  unfold Writer.sent at hw
  split at hw
  · next hpc =>
    cases hw
    rw [hpc] at hholds
    exact ⟨h.numbered,h.hi,h.counter,h.keyed,hholds⟩
  · cases hw
    exact h.finish rfl rfl nofun
  · cases hw

lemma Sound.close (h : w.Sound key log) (hidle : w.pc=.idle) :
    Sound key log { w with tx := { w.tx with cipher := none } } := by
  refine ⟨h.numbered,h.hi,h.counter,nofun,?_⟩
  rw [hidle]
  exact ⟨nofun,h.sent⟩

lemma Sound.step_returns (h : w.Sound key (logs key)) (a : WriteAction) :
    Returns (w.step A logs a) fun x => ∀ y, x=some y → Adds key logs y := by
  cases a with
  | call bs =>
    refine .ok ?_
    intro y hy
    split_ifs at hy with hidle
    cases hy
    exact ⟨nofun,h.call hidle bs⟩
  | run => exact h.run_returns
  | sent err =>
    refine .ok ?_
    intro y hy
    obtain ⟨w',hw',rfl⟩ := Option.map_eq_some_iff.mp hy
    exact ⟨nofun,h.transport err hw'⟩
  | close =>
    refine .ok ?_
    intro y hy
    split_ifs at hy with hidle
    cases hy
    exact ⟨nofun,h.close hidle⟩

end Writer

end TunnnejiTail.Controlbase
