import TunnnejiTail.Controlbase.Writer
import TunnnejiTail.Go.Tasks

/-! The two directions of a connection between honest sides, whatever the transport delivers
and however the calls of the two sides interleave. -/
namespace TunnnejiTail.Controlbase
open Go Crypto Function

lemma Side.rxKey_peer (s : Side) : s.peer.txKey=s.rxKey := by
  cases s <;> rfl

lemma Side.txKey_inj {s t : Side} (h : s.txKey=t.txKey) : s=t := by
  cases s <;> cases t <;> first | rfl | cases h

structure System.Sound (σ : System) : Prop where
  readers : ∀ s, (σ.readers s).Sound s.rxKey (σ.logs s.rxKey)
  writers : ∀ s, (σ.writers s).Sound s.txKey (σ.logs s.txKey)

namespace System
variable {A : Cipher} {σ : System}

lemma established_sound : established.Sound where
  readers s := {
    fits := ⟨Nat.le_refl _,Nat.zero_le _,fun _ => rfl⟩
    holds := trivial
    keyed := by
      rintro k ⟨⟩
      rfl
    inStep _ := ⟨rfl,Nat.zero_le _,rfl⟩
    sent := List.nil_prefix
    failed := nofun
    silent := by
      intro before after h
      cases before <;> cases h }
  writers s := {
    numbered := numbered_nil _
    hi := rfl
    counter := rfl
    keyed := by
      rintro k ⟨⟩
      rfl
    holds := ⟨fun _ _ => rfl, List.nil_prefix⟩ }

lemma Sound.numbered (h : σ.Sound) (s : Side) : Numbered nonceAt (σ.logs s.rxKey) :=
  s.rxKey_peer ▸ (h.writers s.peer).numbered

lemma Sound.length_lt (h : σ.Sound) (s : Side) : (σ.logs s.rxKey).length<2^64 :=
  s.rxKey_peer ▸ (h.writers s.peer).length_lt

variable {s : Side}

lemma Sound.reader (h : σ.Sound) {a : ReadAction} {r : Reader}
    (hr : (σ.readers s).step A σ.logs a=.ok (some r)) (closing : Side → ℕ) :
    Sound { σ with readers := Function.update σ.readers s r,closing := closing } where
  readers t := by
    obtain rfl | hne := eq_or_ne t s
    · dsimp only
      rw [update_self]
      exact ((h.readers t).step_returns (h.numbered t) (h.length_lt t) a).elim hr r rfl
    · dsimp only
      rw [update_of_ne hne]
      exact h.readers t
  writers := h.writers

variable {frame : Option Frame}

lemma Sound.record_reader (h : σ.Sound)
    (hkey : ∀ f, frame=some f → f.key=s.txKey) (t : Side) :
    (σ.readers t).Sound t.rxKey (record σ.logs frame t.rxKey) := by
  cases frame with
  | none => exact h.readers t
  | some f =>
    by_cases heq : t.rxKey=f.key
    · rw [heq,Writer.record_self,← heq]
      exact (h.readers t).snoc f.entry
    · rw [record,update_of_ne heq]
      exact h.readers t

lemma Sound.writer (h : σ.Sound) {a : WriteAction} {w : Writer}
    (hw : (σ.writers s).step A σ.logs a=.ok (some (w,frame))) (closing : Side → ℕ) :
    Sound { σ with
      writers := Function.update σ.writers s w
      closing := closing
      logs := record σ.logs frame } := by
  obtain ⟨hkey,hsound⟩ := ((h.writers s).step_returns a).elim hw _ rfl
  refine ⟨h.record_reader hkey,fun t => ?_⟩
  obtain rfl | hne := eq_or_ne t s
  · dsimp only
    rw [update_self]
    exact hsound
  · dsimp only
    rw [update_of_ne hne]
    cases frame with
    | none => exact h.writers t
    | some f =>
      have hother : t.txKey≠f.key := by
        rw [hkey f rfl]
        exact fun heq => hne (Side.txKey_inj heq)
      rw [record,update_of_ne hother]
      exact h.writers t

lemma Sound.step {σ' : System} (hstep : Step A σ σ') (h : σ.Sound) : σ'.Sound := by
  cases hstep with
  | read s a r _ hr => exact h.reader hr σ.closing
  | write s a w frame _ hw => exact h.writer hw σ.closing
  | closeRx s r hr => exact h.reader hr _
  | closeTx s w _ hw => exact h.writer hw _

lemma Sound.of_reachable (h : Reachable A σ) : σ.Sound :=
  reachable_invariant h established_sound fun _ _ => Sound.step

/-- Neither Read nor Write panics, whatever the transport delivers and however the calls interleave. -/
theorem reachable_returns (h : Reachable A σ) (s : Side) :
    (∀ a, Returns ((σ.readers s).step A σ.logs a)) ∧ ∀ a, Returns ((σ.writers s).step A σ.logs a) := by
  have hσ := Sound.of_reachable h
  exact ⟨fun a => ((hσ.readers s).step_returns (hσ.numbered s) (hσ.length_lt s) a).mono
    fun _ _ => trivial,fun a => ((hσ.writers s).step_returns a).mono fun _ _ => trivial⟩

lemma Sound.nodup (h : σ.Sound) (s : Side) : ((σ.logs s.txKey).map Sealed.nonce).Nodup := by
  have hlt := (h.writers s).length_lt
  refine (h.writers s).numbered.nodup ?_
  intro i hi j hj
  exact nonceAt_inj (Nat.lt_trans hi hlt) (Nat.lt_trans hj hlt)

end System

/-- Read returns a prefix of what the peer was given to write and nothing after a failed
decryption, and no nonce is sealed twice under a key. -/
theorem channel_integrity {A : Cipher} {σ : System} (h : Reachable A σ) :
    (∀ s, (σ.readers s).returned <+: (σ.writers s.peer).written) ∧
      (∀ s, Silent (σ.readers s).events) ∧ ∀ key, ((σ.logs key).map Sealed.nonce).Nodup := by
  have hσ := System.Sound.of_reachable h
  refine ⟨fun s => ?_,fun s => (hσ.readers s).silent,fun key => ?_⟩
  · have hsent := (hσ.writers s.peer).sent
    rw [s.rxKey_peer] at hsent
    exact (hσ.readers s).sent.trans hsent
  · cases key with
    | c1 => exact hσ.nodup .client
    | c2 => exact hσ.nodup .server

def ideal : Cipher := .table Nonce overhead

def pooledBuffer : MaxMsgBuffer := ⟨List.replicate maxMessageSize 0,List.length_replicate⟩

/-- The client writes a byte, and the server reads it from a transport that delivers the frame
in two pieces. -/
lemma exists_delivered : ∃ σ, Reachable ideal σ ∧ (σ.readers .server).returned=[7] := by
  have h1 : Reachable ideal _ := .single (.write .client (.call [7]) _ _ nofun rfl)
  have h2 : Reachable ideal _ := h1.tail (.write .client .run _ _ nofun rfl)
  have h3 : Reachable ideal _ := h2.tail (.read .server (.call 8) _ nofun rfl)
  have h4 : Reachable ideal _ := h3.tail (.read .server .run _ nofun rfl)
  have h5 : Reachable ideal _ :=
    h4.tail (.read .server (.receive pooledBuffer [4,0,17] none) _ nofun rfl)
  set_option maxRecDepth 40000 in
  have h6 : Reachable ideal _ := h5.tail (.read .server .run _ nofun rfl)
  have h7 : Reachable ideal _ :=
    h6.tail (.read .server (.receive pooledBuffer (7::List.replicate 16 0) none) _ nofun rfl)
  have h8 : Reachable ideal _ := h7.tail (.read .server .run _ nofun rfl)
  have h9 : Reachable ideal _ := h8.tail (.read .server .run _ nofun rfl)
  exact ⟨_,h9,rfl⟩

theorem channel_delivers_byte : ∃ σ, Reachable ideal σ ∧ (σ.readers .server).returned=[7] ∧
      (σ.readers .server).returned <+: (σ.writers .client).written := by
  obtain ⟨σ,h,hbyte⟩ := exists_delivered
  exact ⟨σ,h,hbyte,(channel_integrity h).1 .server⟩

/-- After the byte both sides go on, whatever they are asked and whatever is delivered to them. -/
theorem System.delivered_returns : ∃ σ, Reachable ideal σ ∧ (σ.readers .server).returned=[7] ∧
    ∀ s, (∀ a, Returns ((σ.readers s).step ideal σ.logs a)) ∧ ∀ a, Returns ((σ.writers s).step ideal σ.logs a) := by
  obtain ⟨σ,h,hbyte⟩ := exists_delivered
  exact ⟨σ,h,hbyte,System.reachable_returns h⟩

end TunnnejiTail.Controlbase
