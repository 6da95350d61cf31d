import Mathlib.Data.UInt
import Mathlib.Tactic.Common

/-!
# Keyed hashing and key derivation

The constructions of RFC 2104 and RFC 5869 over any hash function that takes
blocks of 64 bytes and returns digests of a fixed length.
-/

namespace MiniIotRobotEdge

namespace Hmac

/-- A hash function; nothing but the length of its digests is known. -/
structure HashFunction (size : Nat) where
  digest : List UInt8 → List UInt8
  length_digest : ∀ message, (digest message).length = size

attribute [simp] HashFunction.length_digest

def blockSize : Nat := 64

section Hmac

variable {size : Nat} (hash : HashFunction size)

/-- The key as one block: a longer key is hashed, a shorter one is filled up with zeros. -/
def keyBlock (key : List UInt8) : List UInt8 :=
  let shortened := if blockSize < key.length then hash.digest key else key
  shortened ++ List.replicate (blockSize - shortened.length) 0

/-- The two passes of the hash over a message. -/
def passes (block message : List UInt8) : List UInt8 :=
  hash.digest (block.map (· ^^^ 0x5C) ++ hash.digest (block.map (· ^^^ 0x36) ++ message))

def hmac (key message : List UInt8) : List UInt8 := passes hash (keyBlock hash key) message

@[simp]
theorem length_passes (block message : List UInt8) : (passes hash block message).length = size := by
  simp [passes]

@[simp]
theorem length_hmac (key message : List UInt8) : (hmac hash key message).length = size := by
  simp [hmac]

theorem length_keyBlock (small : size ≤ blockSize) (key : List UInt8) :
    (keyBlock hash key).length = blockSize := by
  rw [keyBlock]
  split_ifs with long
  · simp
    omega
  · simp
    omega

theorem keyBlock_short {key : List UInt8} (short : key.length ≤ blockSize) :
    keyBlock hash key = key ++ List.replicate (blockSize - key.length) 0 := by
  rw [keyBlock, if_neg (Nat.not_lt.mpr short)]

theorem keyBlock_long {key : List UInt8} (long : blockSize < key.length) :
    keyBlock hash key = hash.digest key ++ List.replicate (blockSize - size) 0 := by
  simp [keyBlock, long]

/-- A key is the same as the key followed by zeros. -/
theorem hmac_replicate (count : Nat) (short : count ≤ blockSize) (message : List UInt8) :
    hmac hash (List.replicate count 0) message = hmac hash [] message := by
  have block : keyBlock hash (List.replicate count 0) = keyBlock hash [] := by
    rw [keyBlock_short hash (by simpa using short), keyBlock_short hash (by simp)]
    simp only [List.length_replicate, List.replicate_append_replicate, List.length_nil,
      List.nil_append]
    congr 1
    omega
  rw [hmac, hmac, block]

end Hmac

section Hkdf

variable {size : Nat} (hash : HashFunction size)

def hkdfExtract (salt keyMaterial : List UInt8) : List UInt8 := hmac hash salt keyMaterial

/-- The blocks `T(0)`, `T(1)`, and so on; the first one is empty. -/
def hkdfBlock (key info : List UInt8) : Nat → List UInt8
  | 0 => []
  | index + 1 => hmac hash key (hkdfBlock key info index ++ info ++ [UInt8.ofNat (index + 1)])

/-- The blocks from one on, as many as the output needs. -/
def hkdfExpand (key info : List UInt8) (length : Nat) : List UInt8 :=
  ((List.range ((length + size - 1) / size)).flatMap fun index =>
    hkdfBlock hash key info (index + 1)).take length

def hkdf (keyMaterial salt info : List UInt8) (length : Nat) : List UInt8 :=
  hkdfExpand hash (hkdfExtract hash salt keyMaterial) info length

@[simp]
theorem length_hkdfBlock_succ (key info : List UInt8) (index : Nat) :
    (hkdfBlock hash key info (index + 1)).length = size := by
  simp [hkdfBlock]

/-- An output that is not empty starts with the first block. -/
theorem hkdfExpand_head? (key info : List UInt8) {length : Nat} (positive : 0 < length)
    (sized : 0 < size) :
    (hkdfExpand hash key info length).head? = (hkdfBlock hash key info 1).head? := by
  obtain ⟨more, count⟩ : ∃ more, (length + size - 1) / size = more + 1 := by
    have one : 1 ≤ (length + size - 1) / size := (Nat.one_le_div_iff sized).mpr (by omega)
    exact ⟨_, (Nat.sub_add_cancel one).symm⟩
  have block : (hkdfBlock hash key info 1).length = size := length_hkdfBlock_succ hash key info 0
  obtain ⟨first, rest, split⟩ := List.exists_cons_of_length_pos (by omega :
    0 < (hkdfBlock hash key info 1).length)
  rw [hkdfExpand, count, List.range_succ_eq_map, List.flatMap_cons, Nat.zero_add, split,
    List.cons_append]
  obtain ⟨before, rfl⟩ := Nat.exists_eq_add_of_le' positive
  rfl

end Hkdf

end Hmac

end MiniIotRobotEdge
