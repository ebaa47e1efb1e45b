import TunnnejiTail.Magicsock.PeerMap

/-! The best path to a peer and the relay server it goes through. -/
namespace TunnnejiTail
open List

namespace Netip.Addr

def isLoopback (ip : Addr) : Bool :=
  match ip.unmap with
  | .v4 a => a.toNat/2^24=127
  | .v6 a _ => a=1
  | .zero => false

def isPrivate (ip : Addr) : Bool :=
  match ip.unmap with
  | .v4 a => a.toNat/2^24=10 || a.toNat/2^20=0xac1 || a.toNat/2^16=0xc0a8
  | .v6 a _ => a.toNat/2^121=0x7e
  | .zero => false

end Netip.Addr

namespace Magicsock
open Netip Netmap TunnnejiTail.Types

structure AddrQuality extends EpAddr where
  relayServerDisco : DiscoPublic := .fill 0
  latency : ℤ := 0
  wireMTU : ℕ := 0
  deriving DecidableEq

def AddrQuality.zero : AddrQuality := { ap := ⟨.zero,0⟩ }

def kindPoints (ip : Addr) : ℤ :=
  (if ip.isLoopback then 50 else if ip.isLinkLocalUnicast then 30 else if ip.isPrivate then 20 else 0) +
    if ip.is6 then 10 else 0

def latencyPoints (a b : AddrQuality) : ℤ × ℤ :=
  if b.latency<a.latency ∧ 0<a.latency then (0,100-(b.latency*100).tdiv a.latency)
  else if 0<b.latency then (100-(a.latency*100).tdiv b.latency,0)
  else (0,0)

def betterAddr (a b : AddrQuality) : Bool :=
  if a.toEpAddr=b.toEpAddr then b.wireMTU<a.wireMTU
  else if !b.ap.addr.isValid then true
  else if !a.ap.addr.isValid then false
  else if a.vni.isNone && b.vni.isSome then true
  else if a.vni.isSome && b.vni.isNone then false
  else
    let aPoints := (latencyPoints a b).1+kindPoints a.ap.addr
    let bPoints := (latencyPoints a b).2+kindPoints b.ap.addr
    if aPoints≤1 ∧ bPoints=0 then false else bPoints<aPoints

def trustUDPAddrDuration : ℤ := 6500000000

def pingSizeToPktLen (size : ℕ) (udpAddr : EpAddr) : ℕ :=
  if size=0 then 1360
  else size+((if udpAddr.ap.addr.is6 then 40 else 20)+8+if udpAddr.vni.isSome then 8 else 0)

structure SentPing where
  pingTo : EpAddr
  pingAt : Time
  size : ℕ

structure Best where
  bestAddr : AddrQuality := .zero
  trustBestAddrUntil : Time := 0

inductive Best.Event
  -- a pong for a ping, with whether endpointState has the address that was pinged
  | pong (src : EpAddr) (sp : SentPing) (known : Bool) (now : Time)
  | relayReady (maybeBest : AddrQuality) (now : Time)
  | pingTimeout (pingTo : EpAddr) (now : Time)
  | deleteEndpoint (ep : AddrPort)
  -- noteBadEndpoint, noteConnectivityChange and resetLocked
  | reset

namespace Best

def thisPong (sp : SentPing) (now : Time) : AddrQuality :=
  { toEpAddr := sp.pingTo,latency := now-sp.pingAt,wireMTU := pingSizeToPktLen sp.size sp.pingTo }

def counts (src : EpAddr) (known : Bool) : Bool :=
  src.ap.addr≠Endpoint.derpMagicIPAddr && (src.vni.isSome || known)

def handlePongConnLocked (s : Best) (src : EpAddr) (sp : SentPing) (known : Bool) (now : Time) : Best :=
  if counts src known then
    let s := if betterAddr (thisPong sp now) s.bestAddr || s.trustBestAddrUntil<now then
      { s with bestAddr := thisPong sp now } else s
    if s.bestAddr.toEpAddr=sp.pingTo then
      ⟨{ s.bestAddr with latency := now-sp.pingAt },now+trustUDPAddrDuration⟩
    else s
  else s

def udpRelayEndpointReady (s : Best) (maybeBest : AddrQuality) (now : Time) : Best :=
  if s.trustBestAddrUntil≤now ∨ s.bestAddr.vni.isSome ∧ maybeBest.relayServerDisco=s.bestAddr.relayServerDisco ∨
      betterAddr maybeBest s.bestAddr then
    ⟨maybeBest,now+trustUDPAddrDuration⟩
  else s

def step (s : Best) : Event → Best
  | .pong src sp known now => s.handlePongConnLocked src sp known now
  | .relayReady maybeBest now => s.udpRelayEndpointReady maybeBest now
  | .pingTimeout pingTo now => if pingTo=s.bestAddr.toEpAddr ∧ s.trustBestAddrUntil<now then {} else s
  | .deleteEndpoint ep => if s.bestAddr.toEpAddr={ ap := ep } then { s with bestAddr := .zero } else s
  | .reset => {}

def run (s : Best) (es : List Event) : Best := es.foldl step s

variable (owner : EpAddr → DiscoPublic)

/-- A relayed best path carries the key of the server that its address belongs to. -/
def Knows (s : Best) : Prop :=
  s.bestAddr.vni.isSome → s.bestAddr.relayServerDisco=owner s.bestAddr.toEpAddr ∧
    s.bestAddr.relayServerDisco.isZero=false

def Event.Reports : Event → Prop
  | .relayReady maybeBest _ =>
    maybeBest.relayServerDisco=owner maybeBest.toEpAddr ∧ maybeBest.relayServerDisco.isZero=false
  | _ => True

/-- A pong over a relayed path finds a best path that is trusted and at least as good. -/
def Event.Spares (s : Best) : Event → Prop
  | .pong src sp known now => counts src known=true → sp.pingTo.vni.isSome=true →
    betterAddr (thisPong sp now) s.bestAddr=false ∧ now ≤ s.trustBestAddrUntil
  | _ => True

variable {owner} {s : Best}

lemma knows_empty : Knows owner {} := fun h => by cases h

lemma knows_pong_iff (h : Knows owner s) (src : EpAddr) (sp : SentPing) (known : Bool) (now : Time) :
    Knows owner (s.handlePongConnLocked src sp known now) ↔ (Event.pong src sp known now).Spares s := by
  rw [handlePongConnLocked,Event.Spares]
  by_cases hcounts : counts src known=true
  · rw [if_pos hcounts]
    by_cases htake : (betterAddr (thisPong sp now) s.bestAddr || decide (s.trustBestAddrUntil<now))=true
    · -- the path of the pong becomes the best one, and it has no server
      have hlost : ¬(betterAddr (thisPong sp now) s.bestAddr=false ∧ now ≤ s.trustBestAddrUntil) := by
        rintro ⟨hbetter,htrust⟩
        rw [hbetter,Bool.false_or,decide_eq_true_iff] at htake
        exact absurd htake (Int.not_lt.mpr htrust)
      rw [if_pos htake]
      rw [if_pos (show (thisPong sp now).toEpAddr=sp.pingTo from rfl)]
      constructor
      · intro hknows _ hvni
        have hzero : Raw32.isZero (.fill 0)=false := (hknows hvni).2
        exact absurd hzero (by decide)
      · intro hspares hvni
        exact absurd (hspares hcounts hvni) hlost
    · have hkept : betterAddr (thisPong sp now) s.bestAddr=false ∧ now ≤ s.trustBestAddrUntil := by
        rw [Bool.or_eq_true,decide_eq_true_iff,not_or,Bool.not_eq_true] at htake
        exact ⟨htake.1,Int.not_lt.mp htake.2⟩
      rw [if_neg htake]
      refine iff_of_true ?_ fun _ _ => hkept
      dsimp only
      split
      · exact h
      · exact h
  · rw [if_neg hcounts]
    exact iff_of_true h fun hc => absurd hc hcounts

lemma knows_step_iff (h : Knows owner s) {e : Event} (he : e.Reports owner) :
    Knows owner (s.step e) ↔ e.Spares s := by
  cases e with
  | pong src sp known now => exact knows_pong_iff h src sp known now
  | relayReady maybeBest now =>
    refine iff_of_true ?_ trivial
    rw [step,udpRelayEndpointReady]
    split
    · exact fun _ => he
    · exact h
  | pingTimeout pingTo now =>
    refine iff_of_true ?_ trivial
    rw [step]
    split
    · exact knows_empty
    · exact h
  | deleteEndpoint ep =>
    refine iff_of_true ?_ trivial
    rw [step]
    split
    · exact fun hvni => by cases hvni
    · exact h
  | reset => exact iff_of_true knows_empty trivial

/-- All states of a run know the server of a relayed best path exactly if no pong over a relayed path replaces
the best one. -/
theorem relay_known_iff (owner : EpAddr → DiscoPublic) (es : List Event) (hes : ∀ e ∈ es, e.Reports owner) :
    (∀ n, Knows owner (run {} (es.take n))) ↔
      ∀ (n : ℕ) (e : Event), es[n]? = some e → e.Spares (run {} (es.take n)) := by
  have hnext (n : ℕ) (e : Event) (he : es[n]? = some e) : run {} (es.take (n+1))=(run {} (es.take n)).step e := by
    rw [take_add_one,he,run,foldl_append]
    rfl
  constructor
  · intro h n e he
    have hknows := h (n+1)
    rw [hnext n e he] at hknows
    exact (knows_step_iff (h n) (hes e (mem_of_getElem? he))).mp hknows
  · intro h n
    induction n with
    | zero => exact knows_empty
    | succ n ih =>
      cases he : es[n]? with
      | none =>
        have hle := List.getElem?_eq_none_iff.mp he
        rwa [take_of_length_le (Nat.le_succ_of_le hle),← take_of_length_le hle]
      | some e =>
        rw [hnext n e he]
        exact (knows_step_iff ih (hes e (mem_of_getElem? he))).mpr (h n e he)

def relayPath : EpAddr := ⟨⟨.v4 0xc0000201,7000⟩,some 5⟩

/-- A path through a relay server becomes the best one and is kept by a pong within the time of trust. -/
theorem relay_known_trusted :
    (run {} [.relayReady ⟨relayPath,.fill 9,20,1360⟩ 100,.pong relayPath ⟨relayPath,200,0⟩ false 300]).bestAddr.toEpAddr =
      relayPath ∧
    Knows (fun _ => .fill 9) (run {} [.relayReady ⟨relayPath,.fill 9,20,1360⟩ 100,
      .pong relayPath ⟨relayPath,200,0⟩ false 300]) := by
  refine ⟨rfl,(relay_known_iff (fun _ => .fill 9) [.relayReady ⟨relayPath,.fill 9,20,1360⟩ 100,
    .pong relayPath ⟨relayPath,200,0⟩ false 300] ?_).mpr ?_ 2⟩
  · simp [Event.Reports]
    decide
  · intro n e he
    cases n with
    | zero =>
      cases he
      trivial
    | succ n =>
      cases n with
      | zero =>
        cases he
        exact fun _ _ => by decide +kernel
      | succ n => cases he

/-- A pong over the path after its trust has expired leaves it without the key of its server. -/
theorem relay_forgotten :
    let s := run {} [.relayReady ⟨relayPath,.fill 9,20,1360⟩ 100,.pong relayPath ⟨relayPath,7000000000,0⟩ false 7000000100]
    s.bestAddr.toEpAddr=relayPath ∧ s.bestAddr.relayServerDisco.isZero=true := by
  decide +kernel

end Best

end Magicsock

end TunnnejiTail
