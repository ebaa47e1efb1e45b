import Mathlib.Data.Fin.VecNotation
import Mathlib.Data.Fintype.EquivFin
import Mathlib.Data.Fintype.Lattice
import Mathlib.Data.Prod.Lex
import Mathlib.Tactic.Linarith
import TunnnejiTail.Magicsock.BestAddr

/-! When betterAddr orders paths: the points for latency are relative and those for the kind of an address are
added to them, so three kinds can beat each other in a circle. Two kinds cannot, nor can three that are ten
points apart. -/
namespace TunnnejiTail.Magicsock
open Netip

lemma kindPoints_range (ip : Addr) : 0≤kindPoints ip ∧ kindPoints ip≤60 ∧ kindPoints ip%10=0 := by
  rw [kindPoints]
  split_ifs <;> decide

/-- Weights for latencies by the points of a kind. For two kinds they are as far apart as the points allow that
one of them is better at the same latency. -/
structure Weighs (w : ℤ → ℤ) (k k' : ℤ) : Prop where
  pos : 0<w k
  low : k<k' → (100-(k'-k))*w k≤100*w k'
  high : k<k' → 100*w k'≤(101-(k'-k))*w k

/-- Relayed paths come last. Of paths with the same weighted latency that of the better kind is better. -/
def pathRank (w : ℤ → ℤ) (a : AddrQuality) : ℕ ×ₗ ℤ ×ₗ ℤ :=
  toLex (if a.vni.isSome then 1 else 0,toLex (w (kindPoints a.ap.addr)*a.latency,-kindPoints a.ap.addr))

lemma tdiv_bounds {x y : ℤ} (hx : 0≤x) (hy : 0<y) : (x*100).tdiv y*y≤x*100 ∧ x*100<((x*100).tdiv y+1)*y := by
  rw [Int.tdiv_eq_ediv_of_nonneg (by omega)]
  exact ⟨Int.ediv_mul_le _ hy.ne',Int.lt_ediv_add_one_mul_self (x*100) hy⟩

section
variable {w : ℤ → ℤ} {a b : AddrQuality} (ha : 0≤a.latency) (hb : 0≤b.latency)
  (hab : Weighs w (kindPoints a.ap.addr) (kindPoints b.ap.addr))
  (hba : Weighs w (kindPoints b.ap.addr) (kindPoints a.ap.addr))
include ha hb hab hba

/-- More points mean a lower weighted latency, or the same one and a better kind. -/
theorem weightedLatency_lt
    (h : (latencyPoints a b).2+kindPoints b.ap.addr<(latencyPoints a b).1+kindPoints a.ap.addr) :
    w (kindPoints a.ap.addr)*a.latency<w (kindPoints b.ap.addr)*b.latency ∨
      w (kindPoints a.ap.addr)*a.latency=w (kindPoints b.ap.addr)*b.latency ∧
        kindPoints b.ap.addr<kindPoints a.ap.addr := by
  rw [latencyPoints] at h
  generalize kindPoints a.ap.addr=p at *
  generalize kindPoints b.ap.addr=q at *
  generalize a.latency=x at *
  generalize b.latency=y at *
  split_ifs at h with hslow hpos
  · -- the slower path wins by its kind only
    obtain ⟨hle,-⟩ := tdiv_bounds hb hslow.2
    have hquot : (y*100).tdiv x<100 := by
      by_contra hge
      have := Int.mul_le_mul_of_nonneg_right (not_lt.mp hge) hslow.2.le
      linarith
    have hpq : q<p := by omega
    have hquot' := Int.mul_le_mul_of_nonneg_right (show 101-(p-q)≤(y*100).tdiv x by omega) hslow.2.le
    have hw := Int.mul_le_mul_of_nonneg_right (hba.high hpq) hslow.2.le
    have hy := Int.mul_le_mul_of_nonneg_left (hquot'.trans hle) hba.pos.le
    have hall : w p*x≤w q*y := by linarith
    exact hall.lt_or_eq.imp_right fun he => ⟨he,hpq⟩
  · obtain ⟨-,hlt⟩ := tdiv_bounds ha hpos
    have hquot := Int.mul_le_mul_of_nonneg_right (show (x*100).tdiv y+1≤100+(p-q) by omega) hpos.le
    obtain hpq | rfl | hpq := lt_trichotomy p q
    · have hw := Int.mul_le_mul_of_nonneg_right (hab.low hpq) hpos.le
      have hx := Int.mul_lt_mul_of_pos_left (hlt.trans_le hquot) hab.pos
      left
      linarith
    · have hx := Int.mul_lt_mul_of_pos_left (hlt.trans_le hquot) hab.pos
      left
      linarith
    · have hle : w p≤w q := by
        have := Int.mul_nonneg (show 0≤p-q-1 by omega) hba.pos.le
        linarith [hba.high hpq]
      have hall : w p*x≤w q*y := by
        have hx := Int.mul_le_mul_of_nonneg_right hle ha
        have hy := Int.mul_le_mul_of_nonneg_left (show x≤y by omega) hba.pos.le
        linarith
      exact hall.lt_or_eq.imp_right fun he => ⟨he,hpq⟩
  · have hx : x=0 := by omega
    have hy : y=0 := by omega
    exact .inr ⟨by rw [hx,hy,mul_zero,mul_zero],by omega⟩

/-- Along betterAddr the rank goes down, with one MTU a path. -/
theorem pathRank_lt (hvb : b.ap.addr.isValid=true) (hmtu : a.toEpAddr=b.toEpAddr → a.wireMTU=b.wireMTU)
    (h : betterAddr a b=true) : pathRank w a<pathRank w b := by
  rw [betterAddr] at h
  rw [pathRank,pathRank,Prod.Lex.toLex_lt_toLex]
  split_ifs at h with hsame hinvalid hinvalid' hdirect hrelay
  · rw [hmtu hsame] at h
    simp at h
  · simp [hvb] at hinvalid
  · left
    simp only [Bool.and_eq_true,Option.isNone_iff_eq_none] at hdirect
    simp [hdirect.1,hdirect.2]
  · right
    refine ⟨?_,Prod.Lex.toLex_lt_toLex.mpr ((weightedLatency_lt ha hb hab hba ?_).imp_right (And.imp_right neg_lt_neg))⟩
    rotate_left
    · dsimp only at h
      split_ifs at h
      exact of_decide_eq_true h
    cases hva : a.vni <;> cases hvb : b.vni <;> simp_all

end

/-- Two kinds, or kinds that are at most twenty points apart. -/
def FewKinds {ι : Type} (k : ι → ℤ) : Prop := (∃ p q, ∀ i, k i=p ∨ k i=q) ∨ ∀ i j, k i≤k j+20

lemma FewKinds.exists_weighs {n : ℕ} {k : Fin (n+1) → ℤ} (hk : FewKinds k)
    (hrange : ∀ i, 0≤k i ∧ k i≤60 ∧ k i%10=0) : ∃ w, ∀ i j, Weighs w (k i) (k j) := by
  obtain ⟨i0,hmin⟩ := Finite.exists_min k
  obtain hkind | hnear := hk
  · refine ⟨fun s => if s=k i0 then 100 else 100-(s-k i0),fun i j => ?_⟩
    have hi := hrange i
    have hj := hrange j
    have h0 := hrange i0
    have hmi := hmin i
    have hmj := hmin j
    obtain ⟨p,q,hkind⟩ := hkind
    have hki := hkind i
    have hkj := hkind j
    have hk0 := hkind i0
    constructor <;> split_ifs <;> omega
  · refine ⟨fun s => if s=k i0 then 100 else if s=k i0+10 then 90 else 81,fun i j => ?_⟩
    have hi := hrange i
    have hj := hrange j
    have h0 := hrange i0
    have hmi := hmin i
    have hmj := hmin j
    have hni := hnear i i0
    have hnj := hnear j i0
    constructor <;> split_ifs <;> omega

/-- No path of a circle is better than the next one round it, for addresses of few kinds and one MTU a path. -/
theorem no_circle {n : ℕ} (a : Fin (n+1) → AddrQuality) (hvalid : ∀ i, (a i).ap.addr.isValid=true)
    (hlat : ∀ i, 0≤(a i).latency) (hkind : FewKinds fun i => kindPoints (a i).ap.addr)
    (hmtu : ∀ i j, (a i).toEpAddr=(a j).toEpAddr → (a i).wireMTU=(a j).wireMTU) :
    ¬∀ i, betterAddr (a i) (a (i+1))=true := by
  intro hcircle
  obtain ⟨w,hw⟩ := hkind.exists_weighs fun i => kindPoints_range _
  obtain ⟨i,hmax⟩ := Finite.exists_max fun i => pathRank w (a i)
  have hlt := pathRank_lt (hlat i) (hlat (i+1)) (hw i (i+1)) (hw (i+1) i) (hvalid (i+1)) (hmtu i (i+1)) (hcircle i)
  exact absurd (hmax (i+1)) (not_le.mpr hlt)

def publicPath : AddrQuality := { toEpAddr := ⟨⟨.v4 0x08080808,41641⟩,none⟩,latency := 100,wireMTU := 1360 }

def publicPath6 : AddrQuality :=
  { toEpAddr := ⟨⟨.v6 0x20010db8000000000000000000000001 [],41641⟩,none⟩,latency := 112,wireMTU := 1360 }

def privatePath : AddrQuality := { toEpAddr := ⟨⟨.v4 0x0a000001,41641⟩,none⟩,latency := 127,wireMTU := 1360 }

def linkLocalPath : AddrQuality :=
  { toEpAddr := ⟨⟨.v6 0xfe800000000000000000000000000001 [],41641⟩,none⟩,latency := 161,wireMTU := 1360 }

/-- Three kinds, and each path but the last is better than the next. -/
theorem no_circle_three : betterAddr publicPath publicPath6=true ∧ betterAddr publicPath6 privatePath=true ∧
    ¬∀ i, betterAddr (![publicPath,publicPath6,privatePath] i) (![publicPath,publicPath6,privatePath] (i+1))=true :=
  ⟨by decide +kernel,by decide +kernel,no_circle ![publicPath,publicPath6,privatePath] (by decide +kernel)
    (by decide +kernel) (.inr (by decide +kernel)) (by decide +kernel)⟩

/-- Valid paths with latencies up to an hour, each better than the next. -/
def Circle {n : ℕ} (a : Fin (n+1) → AddrQuality) : Prop :=
  (∀ i, (a i).ap.addr.isValid=true ∧ 0≤(a i).latency ∧ (a i).latency≤3600000000000) ∧
    ∀ i, betterAddr (a i) (a (i+1))=true

/-- Three kinds of addresses in a circle; and two addresses of one kind, one of them once with a larger MTU and
once with a lower latency. -/
theorem three_kinds_circle : Circle ![publicPath,privatePath,linkLocalPath] ∧
    Circle ![{ publicPath with latency := 300 },{ publicPath with wireMTU := 1280 },
      { publicPath with toEpAddr := ⟨⟨.v4 0x09090909,41641⟩,none⟩,latency := 200 }] := by
  unfold Circle
  decide +kernel

end TunnnejiTail.Magicsock
