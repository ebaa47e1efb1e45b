import TunnnejiTail.Go.BigEndian
import TunnnejiTail.Go.Loops
import TunnnejiTail.Go.OnesComplement

/-! Geneve headers. Encode writes over the buffer of its caller and Decode over a header, whose control flag it
sets but never clears. -/
namespace TunnnejiTail.Packet
open Go List

def geneveProtocolDisco : UInt16 := 0x7a11

def geneveProtocolWireGuard : UInt16 := 0x7a12

/-- The fixed header. A VNI is unset or a number of 24 bits. -/
structure GeneveHeader where
  version : UInt8
  protocol : UInt16
  vni : Option (BitVec 24)
  control : Bool

namespace GeneveHeader

def encode (h : GeneveHeader) : Except String Bytes :=
  match h.vni with
  | none => .error "VNI is unset"
  | some vni =>
    if 3<h.version then .error "version must be <= 3"
    else .ok ([h.version <<< 6,if h.control then 0x80 else 0]++uint16Bytes h.protocol++beBytes 3 vni.toNat++[0])

/-- The buffer after Encode. -/
def encodeInto (h : GeneveHeader) (b : Bytes) : Except String Bytes :=
  if b.length<8 then .error "short buffer" else h.encode.map (· ++ b.drop 8)

/-- The header after Decode, by the one that was there. -/
def decodeInto (h : GeneveHeader) (b : Bytes) : Except String GeneveHeader :=
  if b.length<8 then .error "short buffer"
  else .ok {
    version := byteAt b 0 >>> 6
    control := if byteAt b 1 &&& 0x80≠0 then true else h.control
    protocol := uint16Of (byteAt b 2) (byteAt b 3)
    vni := some (BitVec.ofNat 24 (beNat ((b.drop 4).take 3))) }

/-- Decode into a header that was just declared. -/
def decode (b : Bytes) : Except String GeneveHeader := decodeInto ⟨0,0,none,false⟩ b

variable {h : GeneveHeader}

lemma shiftLeft_shiftRight {v : UInt8} (hv : ¬3<v) : v <<< 6 >>> 6=v := by
  have hv : v.toNat≤3 := Nat.not_lt.mp hv
  obtain h | h | h | h : v.toNat=0 ∨ v.toNat=1 ∨ v.toNat=2 ∨ v.toNat=3 := by omega
  all_goals
    rw [← UInt8.ofNat_toNat (x := v),h]
    rfl

/-- What was encoded is read back, but the control flag stays set where it was. -/
lemma decodeInto_encode {e : Bytes} (he : h.encode=.ok e) (r : GeneveHeader) (b : Bytes) :
    r.decodeInto (e++b)=.ok { h with control := h.control || r.control } := by
  obtain ⟨version,protocol,vni,control⟩ := h
  cases vni with
  | none => cases he
  | some vni =>
    simp only [encode] at he
    split at he
    · cases he
    · next hv =>
      cases he
      obtain ⟨x,y,z,hxyz⟩ : ∃ x y z, beBytes 3 vni.toNat=[x,y,z] := ⟨_,_,_,rfl⟩
      have hvni : BitVec.ofNat 24 (beNat [x,y,z])=vni := by
        rw [← hxyz,beNat_beBytes,Nat.mod_eq_of_lt (show vni.toNat<256^3 from vni.isLt),
          BitVec.ofNat_toNat,BitVec.setWidth_eq]
      have hcontrol : (if (if control then 0x80 else 0 : UInt8) &&& 0x80≠0 then true else r.control) =
          (control || r.control) := by
        cases control <;> rfl
      rw [hxyz,decodeInto]
      refine (if_neg (Nat.not_lt.mpr (Nat.le_add_left 8 b.length))).trans ?_
      change Except.ok (GeneveHeader.mk (version <<< 6 >>> 6)
        (uint16Of (UInt8.ofNat (protocol.toNat/256)) (UInt8.ofNat (protocol.toNat%256)))
        (some (BitVec.ofNat 24 (beNat [x,y,z])))
        (if (if control then 0x80 else 0 : UInt8) &&& 0x80≠0 then true else r.control))=_
      rw [shiftLeft_shiftRight hv,uint16Of_bytes,hvni,hcontrol]

/-- A header with a VNI and a version of two bits can be written over any buffer that is long enough. It is
then read as it was exactly if its control flag is set or that of the receiver clear. Two receivers read the
same from all bytes exactly if their control flags are the same. -/
theorem decodeInto_encodeInto (h r : GeneveHeader) :
    (∀ b, h.vni.isSome=true → h.version≤3 → 8≤b.length → ∃ b', h.encodeInto b=.ok b') ∧
    (∀ b b', h.encodeInto b=.ok b' → (r.decodeInto b'=.ok h ↔ (r.control=true → h.control=true))) ∧
    ∀ r' : GeneveHeader, (∀ b, r'.decodeInto b=r.decodeInto b) ↔ r'.control=r.control := by
  refine ⟨fun b hvni hversion hlen => ?_,fun b b' hencode => ?_,fun r' => ⟨fun hb => ?_,fun hr b => ?_⟩⟩
  · obtain ⟨vni,hvni⟩ := Option.isSome_iff_exists.mp hvni
    rw [encodeInto,if_neg (Nat.not_lt.mpr hlen),encode,hvni]
    simp only [if_neg (show ¬3<h.version from Nat.not_lt.mpr hversion)]
    exact ⟨_,rfl⟩
  · rw [encodeInto] at hencode
    split at hencode
    · cases hencode
    · obtain ⟨e,he,rfl⟩ := map_eq_ok.mp hencode
      rw [decodeInto_encode he]
      obtain ⟨version,protocol,vni,control⟩ := h
      cases control <;> cases r.control <;> simp
  · simpa [decodeInto,byteAt] using hb (replicate 8 0)
  · rw [decodeInto,decodeInto,hr]

theorem decodeInto_encodeInto_disco :
    (⟨0,geneveProtocolDisco,some 5,true⟩ : GeneveHeader).decodeInto [0,0x80,0x7a,0x11,0,0,5,0] =
      .ok ⟨0,geneveProtocolDisco,some 5,true⟩ :=
  ((decodeInto_encodeInto _ _).2.1 (replicate 8 7) _ rfl).mpr fun h => h

/-- The control flag of a header that was there before is taken for that of one without it. -/
theorem control_outlives_decode :
    (⟨0,geneveProtocolDisco,some 5,false⟩ : GeneveHeader).encodeInto (replicate 8 7)=.ok [0,0,0x7a,0x11,0,0,5,0] ∧
    (⟨0,geneveProtocolDisco,some 5,true⟩ : GeneveHeader).decodeInto [0,0,0x7a,0x11,0,0,5,0] =
      .ok ⟨0,geneveProtocolDisco,some 5,true⟩ := ⟨rfl,rfl⟩

end GeneveHeader
end TunnnejiTail.Packet
