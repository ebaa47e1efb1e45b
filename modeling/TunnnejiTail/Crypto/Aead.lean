import Mathlib.Data.List.Nodup
import TunnnejiTail.Go.Bytes

/-! An ideal authenticated cipher. Under one key there is a log of what was sealed, and nothing
else opens. A log whose nonces are counted repeats none of them, and a nonce finds its entry. -/
namespace TunnnejiTail.Crypto
open Go List

structure Sealed (ν : Type) where
  nonce : ν
  plaintext : Bytes
  ciphertext : Bytes
  deriving DecidableEq

abbrev Log (ν : Type) := List (Sealed ν)

/-- What a cipher answers, given the log of its key. -/
structure AEAD (ν : Type) (overhead : ℕ) where
  seals : Log ν → ν → Bytes → Bytes
  opens : Log ν → ν → Bytes → Option Bytes
  length_seals : ∀ log n p, (seals log n p).length=p.length+overhead
  authentic : ∀ {log n c p}, opens log n c=some p → ⟨n,p,c⟩ ∈ log
  correct : ∀ {log e}, (log.map Sealed.nonce).Nodup → e ∈ log → opens log e.nonce e.ciphertext=some e.plaintext

section
variable {ν : Type}

lemma find_of_nodup [DecidableEq ν] {log : Log ν} {e : Sealed ν} (h : (log.map Sealed.nonce).Nodup)
    (he : e ∈ log) : log.find? (fun x => x.nonce=e.nonce ∧ x.ciphertext=e.ciphertext)=some e := by
  induction log with
  | nil => cases he
  | cons x log ih =>
    rw [map_cons,nodup_cons] at h
    obtain rfl | he := mem_cons.mp he
    · exact find?_cons_of_pos (by simp)
    · have hne : x.nonce≠e.nonce := fun heq => h.1 (heq ▸ mem_map_of_mem he)
      rw [find?_cons_of_neg (by simp [hne]),ih h.2 he]

/-- The cipher that looks up the log. -/
def AEAD.table (ν : Type) [DecidableEq ν] (overhead : ℕ) : AEAD ν overhead where
  seals _ _ p := p++List.replicate overhead 0
  opens log n c := (log.find? fun x => x.nonce=n ∧ x.ciphertext=c).map Sealed.plaintext
  length_seals _ _ p := by simp
  authentic {log n c p} h := by
    obtain ⟨e,hfind,rfl⟩ := Option.map_eq_some_iff.mp h
    have hp := find?_some hfind
    obtain ⟨rfl,rfl⟩ := of_decide_eq_true hp
    exact mem_of_find?_eq_some hfind
  correct h he := by rw [find_of_nodup h he]; rfl

def Numbered (num : ℕ → ν) (log : Log ν) : Prop :=
  log.map Sealed.nonce=(List.range log.length).map num

def plaintexts (log : Log ν) : Bytes := log.flatMap Sealed.plaintext

variable {num : ℕ → ν} {log : Log ν}

lemma numbered_nil (num : ℕ → ν) : Numbered num [] := rfl

section
variable (h : Numbered num log)
include h

lemma Numbered.snoc (p c : Bytes) : Numbered num (log++[⟨num log.length,p,c⟩]) := by
  rw [Numbered,map_append,h,length_append,length_singleton,range_succ, map_append]
  rfl

lemma Numbered.nonce_eq {i : ℕ} (hi : i<log.length) : log[i].nonce=num i := by
  have hmap : (log.map Sealed.nonce)[i]? = ((List.range log.length).map num)[i]? := by rw [h]
  simpa [hi] using hmap

lemma Numbered.nodup (hinj : ∀ i<log.length, ∀ j<log.length, num i=num j → i=j) :
    (log.map Sealed.nonce).Nodup := by
  rw [h]
  refine List.Nodup.map_on ?_ nodup_range
  intro i hi j hj
  exact hinj i (List.mem_range.mp hi) j (List.mem_range.mp hj)

lemma Numbered.getElem_of_mem {i : ℕ} {p c : Bytes}
    (hinj : ∀ j<log.length, num j=num i → j=i) (hmem : ⟨num i,p,c⟩ ∈ log) : log[i]? = some ⟨num i,p,c⟩ := by
  obtain ⟨j,hj,he⟩ := List.getElem_of_mem hmem
  have hnum : num j=num i := by rw [← h.nonce_eq hj,he]
  obtain rfl := hinj j hj hnum
  rw [getElem?_eq_getElem hj,he]

end

lemma plaintexts_snoc (log : Log ν) (e : Sealed ν) : plaintexts (log++[e])=plaintexts log++e.plaintext := by
  simp [plaintexts]

lemma plaintexts_take_succ {i : ℕ} {e : Sealed ν} (h : log[i]? = some e) :
    plaintexts (log.take (i+1))=plaintexts (log.take i)++e.plaintext := by
  rw [take_add_one,h,Option.toList_some,plaintexts_snoc]

lemma plaintexts_take_isPrefix (log : Log ν) (i : ℕ) : plaintexts (log.take i) <+: plaintexts log := by
  refine ⟨plaintexts (log.drop i),?_⟩
  rw [plaintexts,plaintexts,← flatMap_append,take_append_drop]
  rfl

end

end TunnnejiTail.Crypto
