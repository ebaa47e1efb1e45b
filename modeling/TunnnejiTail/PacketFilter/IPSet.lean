import TunnnejiTail.Net.Netip

/-! Membership in a list of prefixes. NewContainsIPFunc picks one of six functions by the
number and kind of the prefixes; on addresses without a zone they all decide the same. -/
namespace TunnnejiTail.Netip

def bits4 (n : ℕ) : Fin 33 := ⟨min n 32,Nat.lt_succ_of_le (Nat.min_le_right n 32)⟩

def bits6 (n : ℕ) : Fin 129 := ⟨min n 128,Nat.lt_succ_of_le (Nat.min_le_right n 128)⟩

namespace Prefix

def addr : Prefix → Addr
  | v4 a _ => .v4 a
  | v6 a _ => .v6 a []

def isSingleIP : Prefix → Bool
  | v4 _ bits => bits.val=32
  | v6 _ bits => bits.val=128

lemma contains_of_isSingleIP {p : Prefix} (h : p.isSingleIP) {ip : Addr}
    (hz : ip.hasZone=false) : p.contains ip=decide (ip=p.addr) := by
  cases p with
  | v4 a bits =>
    have hbits : bits.val=32 := of_decide_eq_true h
    cases ip with
    | v4 x =>
      rw [Bool.eq_iff_iff]
      simp [contains,addr,hbits,BitVec.xor_eq_zero_iff]
    | _ => simp [contains,addr]
  | v6 a bits =>
    have hbits : bits.val=128 := of_decide_eq_true h
    cases ip with
    | v6 x zone =>
      have hzone : zone=[] := by simpa [Addr.hasZone] using hz
      rw [Bool.eq_iff_iff]
      simp [contains,addr,hbits,hzone,Addr.hasZone,BitVec.xor_eq_zero_iff]
    | _ => simp [contains,addr]

end Prefix

end TunnnejiTail.Netip

namespace TunnnejiTail.PacketFilter
open Netip

/-- A bart.Lite table: the prefixes inserted into it, and whether one of them covers an
address. -/
structure BartLite where
  contains : List Prefix → Addr → Bool
  contains_eq : ∀ (ps : List Prefix) (ip : Addr), ip.isValid → ip.hasZone=false → contains ps ip=ps.any (·.contains ip)

def BartLite.scan : BartLite := ⟨fun ps ip => ps.any (·.contains ip),fun _ _ _ _ => rfl⟩

def prefixContainsLoop (addrs : List Prefix) (ip : Addr) : Bool := addrs.any (·.contains ip)

def oneIP (ip1 ip : Addr) : Bool := ip=ip1

def twoIP (ip1 ip2 ip : Addr) : Bool := ip=ip1 || ip=ip2

def ipInMap (m : List Addr) (ip : Addr) : Bool := ip ∈ m

def singleIPsFunc : List Prefix → Addr → Bool
  | [p] => oneIP p.addr
  | [p,p'] => twoIP p.addr p'.addr
  | ps => ipInMap (ps.map Prefix.addr)

def prefixesFunc (T : BartLite) : List Prefix → Addr → Bool
  | [p] => p.contains
  | ps => if ps.length≤6 then prefixContainsLoop ps else T.contains ps

def newContainsIPFunc (T : BartLite) (addrs : List Prefix) : Addr → Bool :=
  if addrs.length=0 then fun _ => false
  else if addrs.any fun p => !p.isSingleIP then prefixesFunc T addrs
  else singleIPsFunc addrs

variable {ip : Addr}

lemma prefixesFunc_eq (T : BartLite) (ps : List Prefix) (hv : ip.isValid)
    (hz : ip.hasZone=false) : prefixesFunc T ps ip=ps.any (·.contains ip) := by
  unfold prefixesFunc
  split
  · simp
  · split_ifs
    · rfl
    · exact T.contains_eq ps ip hv hz

lemma singleIPsFunc_eq (ps : List Prefix) (hs : ∀ p ∈ ps, p.isSingleIP)
    (hz : ip.hasZone=false) : singleIPsFunc ps ip=ps.any (·.contains ip) := by
  have heq : ps.any (·.contains ip)=ps.any fun p => decide (ip=p.addr) := by
    rw [Bool.eq_iff_iff,List.any_eq_true,List.any_eq_true]
    apply exists_congr
    intro p
    apply and_congr_right
    intro hp
    rw [Prefix.contains_of_isSingleIP (hs p hp) hz]
  rw [heq]
  unfold singleIPsFunc
  split
  · simp [oneIP]
  · simp [twoIP]
  · rw [Bool.eq_iff_iff]
    simp [ipInMap,@eq_comm _ ip]

lemma newContainsIPFunc_eq (T : BartLite) (addrs : List Prefix) (hv : ip.isValid)
    (hz : ip.hasZone=false) : newContainsIPFunc T addrs ip=addrs.any (·.contains ip) := by
  unfold newContainsIPFunc
  split_ifs with h0 hs
  · rw [List.length_eq_zero_iff.mp h0]
    rfl
  · exact prefixesFunc_eq T addrs hv hz
  · exact singleIPsFunc_eq addrs (by simpa using hs) hz

end TunnnejiTail.PacketFilter
