import TunnnejiTail.Go.Strings

/-! Addresses and prefixes of the netip package. An address is the invalid zero value, an
IPv4 address or an IPv6 address with a zone; a prefix carries its length within the bounds
of its family, so that an invalid prefix cannot be built. -/
namespace TunnnejiTail.Netip
open Go

inductive Addr
  | zero
  | v4 (a : BitVec 32)
  | v6 (a : BitVec 128) (zone : Str)
  deriving DecidableEq

namespace Addr

def isValid : Addr → Bool
  | zero => false
  | _ => true

def is4 : Addr → Bool
  | v4 _ => true
  | _ => false

def is6 : Addr → Bool
  | v6 _ _ => true
  | _ => false

def hasZone : Addr → Bool
  | v6 _ zone => !zone.isEmpty
  | _ => false

def mapped (a : BitVec 32) : BitVec 128 := BitVec.append (0xffff : BitVec 96) a

def is4In6 : Addr → Bool
  | v6 a _ => a.toNat / 2^32 == 0xffff
  | _ => false

/-- Unmap turns an IPv4-mapped address into the IPv4 address and drops its zone. -/
def unmap : Addr → Addr
  | v6 a zone => if a.toNat / 2^32=0xffff then v4 (a.setWidth 32) else v6 a zone
  | ip => ip

/-- IsMulticast; an IPv4-mapped address counts as the IPv4 address. -/
def isMulticast (ip : Addr) : Bool :=
  match ip.unmap with
  | zero => false
  | v4 a => a.toNat / 2^28 == 0xe
  | v6 a _ => a.toNat / 2^120 == 0xff

def isLinkLocalUnicast (ip : Addr) : Bool :=
  match ip.unmap with
  | zero => false
  | v4 a => a.toNat / 2^16 == 0xa9fe
  | v6 a _ => a.toNat / 2^118 == 0x3fa

def as16 : Addr → BitVec 128
  | zero => 0
  | v4 a => mapped a
  | v6 a _ => a

lemma unmap_of_not_is4In6 {ip : Addr} (h : ip.is4In6=false) : ip.unmap=ip := by
  cases ip with
  | zero => rfl
  | v4 a => rfl
  | v6 a zone =>
    have hn : a.toNat / 2^32≠0xffff := beq_eq_false_iff_ne.mp h
    rw [unmap,if_neg hn]

lemma mapped_toNat (a : BitVec 32) : (mapped a).toNat=0xffff * 2^32 + a.toNat := by
  have ha := a.isLt
  change (BitVec.append (0xffff : BitVec 96) a).toNat=_
  rw [show BitVec.append (0xffff : BitVec 96) a=(0xffff : BitVec 96)++a from rfl,
    BitVec.toNat_append,← Nat.shiftLeft_add_eq_or_of_lt ha]
  simp [Nat.shiftLeft_eq]

lemma eq_mapped {a : BitVec 128} (h : a.toNat / 2^32=0xffff) : a=mapped (a.setWidth 32) := by
  apply BitVec.eq_of_toNat_eq
  rw [mapped_toNat,BitVec.toNat_setWidth]
  omega

end Addr

structure AddrPort where
  addr : Addr
  port : UInt16
  deriving DecidableEq

inductive Prefix
  | v4 (a : BitVec 32) (bits : Fin 33)
  | v6 (a : BitVec 128) (bits : Fin 129)
  deriving DecidableEq

/-- PrefixFrom strips the zone; a length outside the family's bounds gives no valid prefix. -/
def prefixFrom (ip : Addr) (bits : ℤ) : Option Prefix :=
  match ip with
  | .zero => none
  | .v4 a => if h : 0≤bits ∧ bits≤32 then some (.v4 a ⟨bits.toNat,by omega⟩) else none
  | .v6 a _ => if h : 0≤bits ∧ bits≤128 then some (.v6 a ⟨bits.toNat,by omega⟩) else none

namespace Prefix

/-- Contains never matches across families, and never an address with a zone. -/
def contains : Prefix → Addr → Bool
  | v4 a bits,.v4 x => (x ^^^ a) >>> (32-bits.val) == 0
  | v6 a bits,.v6 x zone => !(Addr.v6 x zone).hasZone && ((x ^^^ a) >>> (128-bits.val) == 0)
  | _,_ => false

end Prefix

end TunnnejiTail.Netip
