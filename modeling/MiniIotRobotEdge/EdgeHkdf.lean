import MiniIotRobotEdge.EdgeCrypto
import MiniIotRobotEdge.Hmac

/-!
# Key derivation in mini-edge-security

The model of the keyed hash and of HKDF in `edge_crypto.c`, over any hash
function.  Their buffers have room for 256 bytes of a message and 64 bytes of
info, and what does not fit is left out.
-/

namespace MiniIotRobotEdge

namespace Edge

open Hmac

section Model

variable (hash : HashFunction 32)

def edgeHmacSha256 (key msg : Bytes) : Bytes :=
  let bk := if 64 < key.length then padded 64 (hash.digest key) else padded 64 key
  let ipad := bk.map (· ^^^ 0x36)
  let opad := bk.map (· ^^^ 0x5C)
  let ih := hash.digest (ipad ++ msg.take (min msg.length 256))
  hash.digest (opad ++ ih)

/-- The fields of `EdgeHkdfCtx` that the calls read. -/
structure EdgeHkdfCtx where
  prk : Bytes
  extracted : Bool

def edgeHkdfExtract (salt ikm : Bytes) : EdgeHkdfCtx :=
  let us := if 0 < salt.length then salt else List.replicate 32 0
  { prk := edgeHmacSha256 hash us ikm, extracted := true }

/-- The loop of `edge_hkdf_expand`: what it writes behind the first `gen` bytes. -/
def hkdfExpandLoop (prk info : Bytes) (okmLen : Nat) (t : Bytes) (ctr : UInt8) (gen : Nat) :
    Bytes :=
  if gen < okmLen then
    let chained := if 0 < t.length then t else []
    let input := chained ++ info.take (min info.length 64) ++ [ctr]
    let t := edgeHmacSha256 hash prk input
    let cp := if okmLen < gen + 32 then okmLen - gen else 32
    t.take cp ++ hkdfExpandLoop prk info okmLen t (ctr + 1) (gen + cp)
  else []
termination_by okmLen - gen
decreasing_by
  split_ifs <;> omega

/-- The output, of as many bytes as the call returns. -/
def edgeHkdfExpand (hkdf : EdgeHkdfCtx) (info : Bytes) (okmLen : Nat) : Option Bytes :=
  if hkdf.extracted = false then none
  else if 255 * 32 < okmLen then none
  else some (hkdfExpandLoop hash hkdf.prk info okmLen [] 1 0)

def edgeHkdfDerive (ikm salt info : Bytes) (okmLen : Nat) : Option Bytes :=
  edgeHkdfExpand hash (edgeHkdfExtract hash salt ikm) info okmLen

end Model

section Hmac

/-- The front that a clamped length leaves. -/
theorem take_clamped (bytes : Bytes) (limit : Nat) :
    bytes.take (min bytes.length limit) = bytes.take limit := by
  rw [Nat.min_comm, ← List.take_take, List.take_length]

variable (hash : HashFunction 32) (key msg : Bytes)

theorem padded_eq_keyBlock :
    (if 64 < key.length then padded 64 (hash.digest key) else padded 64 key) =
      keyBlock hash key := by
  have filled : ∀ bytes : Bytes, bytes.length ≤ 64 →
      padded 64 bytes = bytes ++ List.replicate (64 - bytes.length) 0 := by
    intro bytes short
    rw [padded, List.take_of_length_le short]
  by_cases long : 64 < key.length
  · rw [if_pos long, keyBlock_long hash long, filled _ (by rw [hash.length_digest]; decide),
      hash.length_digest, blockSize]
  · rw [if_neg long, keyBlock_short hash (Nat.not_lt.mp long), filled _ (Nat.not_lt.mp long),
      blockSize]

theorem edgeHmacSha256_eq_passes : edgeHmacSha256 hash key msg =
    passes hash (keyBlock hash key) (msg.take 256) := by
  rw [edgeHmacSha256, padded_eq_keyBlock, take_clamped, passes]

/-- A message that fits is hashed as a whole. -/
theorem edgeHmacSha256_eq_hmac (fits : msg.length ≤ 256) :
    edgeHmacSha256 hash key msg = hmac hash key msg := by
  rw [edgeHmacSha256_eq_passes, List.take_of_length_le fits, hmac]

@[simp]
theorem length_edgeHmacSha256 : (edgeHmacSha256 hash key msg).length = 32 := by
  simp [edgeHmacSha256_eq_passes]

end Hmac

section Expand

variable (hash : HashFunction 32) (prk info : Bytes) (okmLen : Nat)

/-- A turn of the loop computes the next block of RFC 5869. -/
theorem edgeHmacSha256_block (short : info.length ≤ 64) (index : Nat) :
    edgeHmacSha256 hash prk ((if 0 < (hkdfBlock hash prk info index).length then
        hkdfBlock hash prk info index else []) ++ info.take (min info.length 64) ++
          [UInt8.ofNat (index + 1)]) =
      hkdfBlock hash prk info (index + 1) := by
  have chained : (if 0 < (hkdfBlock hash prk info index).length then
      hkdfBlock hash prk info index else []) = hkdfBlock hash prk info index := by
    split_ifs with some
    · rfl
    · exact (List.length_eq_zero_iff.mp (by omega)).symm
  have length : (hkdfBlock hash prk info index).length ≤ 32 := by
    cases index with
    | zero => simp [hkdfBlock]
    | succ index => exact (length_hkdfBlock_succ hash prk info index).le
  rw [chained, Nat.min_eq_left short, List.take_length, hkdfBlock]
  apply edgeHmacSha256_eq_hmac
  simp
  omega

/-- What the loop writes from a block on, by induction on the blocks that are left. -/
theorem hkdfExpandLoop_eq (short : info.length ≤ 64) (left index : Nat)
    (blocks : (okmLen + 31) / 32 = index + left) :
    hkdfExpandLoop hash prk info okmLen (hkdfBlock hash prk info index) (UInt8.ofNat (index + 1))
        (min (32 * index) okmLen) =
      ((List.range' index left).flatMap fun index => hkdfBlock hash prk info (index + 1)).take
        (okmLen - 32 * index) := by
  induction left generalizing index with
  | zero =>
      rw [hkdfExpandLoop, if_neg (by omega)]
      simp
  | succ left induction =>
      have length := length_hkdfBlock_succ hash prk info index
      have next := induction (index + 1) (by omega)
      have counter : UInt8.ofNat (index + 1) + 1 = UInt8.ofNat (index + 1 + 1) := by
        rw [UInt8.ofNat_add (index + 1) 1]
        rfl
      have start : min (32 * index) okmLen = 32 * index := by omega
      rw [hkdfExpandLoop, if_pos (by omega)]
      dsimp only
      rw [edgeHmacSha256_block hash prk info short index, counter, List.range'_succ,
        List.flatMap_cons, List.take_append, length, start]
      by_cases last : okmLen < 32 * index + 32
      · have filled : 32 * index + (okmLen - 32 * index) = min (32 * (index + 1)) okmLen := by omega
        rw [if_pos last, filled, next]
        congr 2
      · have filled : 32 * index + 32 = min (32 * (index + 1)) okmLen := by omega
        rw [if_neg last, filled, next, List.take_of_length_le (by omega : _ ≤ 32),
          List.take_of_length_le (by omega : _ ≤ okmLen - 32 * index)]
        congr 2

theorem hkdfExpandLoop_eq_hkdfExpand (short : info.length ≤ 64) :
    hkdfExpandLoop hash prk info okmLen [] 1 0 = hkdfExpand hash prk info okmLen := by
  have loop := hkdfExpandLoop_eq hash prk info okmLen short ((okmLen + 31) / 32) 0 (by omega)
  rw [Nat.mul_zero, Nat.zero_min, Nat.sub_zero, ← List.range_eq_range'] at loop
  exact loop

end Expand

section Derive

variable (hash : HashFunction 32) (ikm salt info : Bytes)

/-- The salt that `edge_hkdf_extract` uses. -/
def usedSalt (salt : Bytes) : Bytes := if 0 < salt.length then salt else List.replicate 32 0

theorem hmac_usedSalt (msg : Bytes) : hmac hash (usedSalt salt) msg = hmac hash salt msg := by
  rw [usedSalt]
  split_ifs with given
  · rfl
  · have empty : salt = [] := List.length_eq_zero_iff.mp (by omega)
    rw [empty]
    exact hmac_replicate hash 32 (by decide) msg

theorem edgeHkdfDerive_eq (okmLen : Nat) (bounded : okmLen ≤ 255 * 32) :
    edgeHkdfDerive hash ikm salt info okmLen =
      some (hkdfExpandLoop hash (edgeHmacSha256 hash (usedSalt salt) ikm) info okmLen [] 1 0) := by
  rw [edgeHkdfDerive, edgeHkdfExpand, if_neg (by simp [edgeHkdfExtract]),
    if_neg (Nat.not_lt.mpr bounded)]
  rfl

/-- Inputs that fit give the key material of RFC 5869. -/
theorem edgeHkdfDerive_eq_hkdf (okmLen : Nat) (bounded : okmLen ≤ 255 * 32)
    (ikmFits : ikm.length ≤ 256) (infoFits : info.length ≤ 64) :
    edgeHkdfDerive hash ikm salt info okmLen = some (hkdf hash ikm salt info okmLen) := by
  rw [edgeHkdfDerive_eq hash ikm salt info okmLen bounded,
    hkdfExpandLoop_eq_hkdfExpand hash _ info okmLen infoFits,
    edgeHmacSha256_eq_hmac hash _ ikm ikmFits, hmac_usedSalt]
  rfl

/-- The first byte of the output is that of the first block. -/
theorem hkdfExpandLoop_head? (prk : Bytes) {okmLen : Nat} (positive : 0 < okmLen) :
    (hkdfExpandLoop hash prk info okmLen [] 1 0).head? =
      (edgeHmacSha256 hash prk (info.take 64 ++ [1])).head? := by
  have length := length_edgeHmacSha256 hash prk (info.take 64 ++ [1])
  obtain ⟨first, rest, split⟩ := List.exists_cons_of_length_pos (by omega :
    0 < (edgeHmacSha256 hash prk (info.take 64 ++ [1])).length)
  obtain ⟨count, piece⟩ : ∃ count, (if okmLen < 0 + 32 then okmLen - 0 else 32) = count + 1 :=
    ⟨_, (Nat.sub_add_cancel (by split_ifs <;> omega)).symm⟩
  rw [hkdfExpandLoop, if_pos positive]
  dsimp only
  rw [ite_self, List.nil_append, take_clamped, split, piece]
  rfl

end Derive

section Separation

/-- A hash that copies the end of 96 bytes, and of other messages sees only
whether they have one length. -/
def markedHash (marked : Nat) : HashFunction 32 where
  digest message :=
    if message.length = 96 then message.drop 64
    else if message.length = marked then List.replicate 32 1 else List.replicate 32 0
  length_digest message := by
    split_ifs with copied
    · simp [copied]
    · simp
    · simp

theorem markedHash_copied {marked : Nat} (front back : Bytes) (length : front.length = 64)
    (rest : back.length = 32) : (markedHash marked).digest (front ++ back) = back := by
  have whole : (front ++ back).length = 96 := by
    rw [List.length_append, length, rest]
  simp only [markedHash, whole, if_true]
  exact List.drop_left' length

/-- The second pass copies the digest of the first one. -/
theorem passes_markedHash (marked : Nat) (block message : Bytes) (length : block.length = 64)
    (other : message.length ≠ 32) : passes (markedHash marked) block message =
      if 64 + message.length = marked then List.replicate 32 1 else List.replicate 32 0 := by
  have uncopied : ¬ 64 + message.length = 96 := by omega
  rw [passes, markedHash_copied _ _ (by simpa using length) (HashFunction.length_digest _ _)]
  simp [markedHash, length, uncopied]

/-- A longer message is told apart from its first 256 bytes. -/
theorem hmac_ne_of_long (key msg : Bytes) (long : 256 < msg.length) :
    edgeHmacSha256 (markedHash (64 + msg.length)) key msg ≠
      hmac (markedHash (64 + msg.length)) key msg := by
  have block := length_keyBlock (markedHash (64 + msg.length)) (by decide) key
  have cut : (msg.take 256).length = 256 := by
    rw [List.length_take]
    omega
  rw [edgeHmacSha256_eq_passes, hmac, passes_markedHash _ _ _ block (by omega),
    passes_markedHash _ _ _ block (by omega), cut, if_neg (by omega), if_pos rfl]
  decide

theorem edgeHmacSha256_eq_hmac_iff (key msg : Bytes) :
    (∀ hash : HashFunction 32, edgeHmacSha256 hash key msg = hmac hash key msg) ↔
      msg.length ≤ 256 := by
  constructor
  · intro same
    by_contra long
    exact hmac_ne_of_long key msg (by omega) (same _)
  · intro fits hash
    exact edgeHmacSha256_eq_hmac hash key msg fits

/-- A longer info string is told apart from its first 64 bytes. -/
theorem hkdf_ne_of_long_info (ikm salt info : Bytes) (okmLen : Nat) (bounded : okmLen ≤ 255 * 32)
    (positive : 0 < okmLen) (long : 64 < info.length) :
    edgeHkdfDerive (markedHash (65 + info.length)) ikm salt info okmLen ≠
      some (hkdf (markedHash (65 + info.length)) ikm salt info okmLen) := by
  have block := length_keyBlock (markedHash (65 + info.length)) (by decide)
  have cut : (info.take 64).length = 64 := by
    rw [List.length_take]
    omega
  rw [edgeHkdfDerive_eq _ ikm salt info okmLen bounded]
  intro same
  have heads := congrArg List.head? (Option.some.inj same)
  rw [hkdfExpandLoop_head? _ info _ positive, hkdf, hkdfExpand_head? _ _ _ positive (by decide),
    hkdfBlock, hkdfBlock, edgeHmacSha256_eq_passes, hmac,
    List.take_of_length_le (by simp [cut] : (info.take 64 ++ [1]).length ≤ 256),
    passes_markedHash _ _ _ (block _) (by simp [cut]),
    passes_markedHash _ _ _ (block _) (by simp; omega),
    if_neg (by simp [cut]; omega), if_pos (by simp; omega)] at heads
  simp at heads

/-- What a digest that is marked says: the mark is handed on. -/
def CarriesMark (mark : UInt8) (message : Bytes) : Prop :=
  320 < message.length ∨ (message.length = 96 ∧ message.drop 64 = List.replicate 32 mark) ∨
    (message.length ≤ 129 ∧ message.head? = some (mark ^^^ 0x36))

instance (mark : UInt8) (message : Bytes) : Decidable (CarriesMark mark message) :=
  inferInstanceAs (Decidable (_ ∨ _))

/-- A hash that marks the long messages, and the keyed hashes under a marked key. -/
def taintedHash (mark : UInt8) : HashFunction 32 where
  digest message := List.replicate 32 (if CarriesMark mark message then mark else 0)
  length_digest message := by simp

theorem taintedHash_marked {mark : UInt8} {message : Bytes} (carries : CarriesMark mark message) :
    (taintedHash mark).digest message = List.replicate 32 mark := by
  simp [taintedHash, carries]

theorem taintedHash_clean {mark : UInt8} {message : Bytes} (carries : ¬ CarriesMark mark message) :
    (taintedHash mark).digest message = List.replicate 32 0 := by
  simp [taintedHash, carries]

/-- A marked digest of the first pass is handed on by the second one. -/
theorem passes_marked {mark : UInt8} (block message : Bytes) (length : block.length = 64)
    (inner : CarriesMark mark (block.map (· ^^^ 0x36) ++ message)) :
    passes (taintedHash mark) block message = List.replicate 32 mark := by
  rw [passes, taintedHash_marked inner]
  apply taintedHash_marked
  refine .inr (.inl ⟨by simp [length], ?_⟩)
  exact List.drop_left' (by simpa using length)

theorem passes_clean {mark first : UInt8} (block message : Bytes) (length : block.length = 64)
    (nonzero : mark ≠ 0) (head : block.head? = some first) (other : first ^^^ 0x5C ≠ mark ^^^ 0x36)
    (inner : ¬ CarriesMark mark (block.map (· ^^^ 0x36) ++ message)) :
    passes (taintedHash mark) block message = List.replicate 32 0 := by
  rw [passes, taintedHash_clean inner]
  apply taintedHash_clean
  rintro (long | ⟨-, copied⟩ | ⟨-, key⟩)
  · simp [length] at long
  · rw [List.drop_left' (by simpa using length)] at copied
    exact nonzero ((List.replicate_inj.mp copied).2.resolve_left (by decide)).symm
  · obtain ⟨rest, rfl⟩ : ∃ rest, block = first :: rest := by
      cases block with
      | nil => cases head
      | cons byte rest => exact ⟨rest, by simpa using head⟩
    simp at key
    exact other key

theorem keyBlock_replicate (mark byte : UInt8) :
    keyBlock (taintedHash mark) (List.replicate 32 byte) =
      byte :: (List.replicate 31 byte ++ List.replicate 32 0) := by
  rw [keyBlock_short _ (by simp [blockSize]), List.length_replicate]
  rfl

/-- The first byte of a key block comes from the key or from its digest. -/
theorem keyBlock_head? (mark first : UInt8) (rest : Bytes) :
    ∃ byte, (keyBlock (taintedHash mark) (first :: rest)).head? = some byte ∧
      (byte = mark ∨ byte = 0 ∨ byte = first) := by
  by_cases long : blockSize < (first :: rest).length
  · rw [keyBlock_long _ long]
    by_cases carries : CarriesMark mark (first :: rest)
    · exact ⟨mark, by simp [taintedHash, carries, List.replicate_succ], .inl rfl⟩
    · exact ⟨0, by simp [taintedHash, carries, List.replicate_succ], .inr (.inl rfl)⟩
  · rw [keyBlock_short _ (Nat.not_lt.mp long)]
    exact ⟨first, rfl, .inr (.inr rfl)⟩

/-- One of two marks is not mistaken for a byte of the salt. -/
theorem exists_mark (first : UInt8) :
    ∃ mark : UInt8, (mark = 2 ∨ mark = 3) ∧ first ^^^ 0x5C ≠ mark ^^^ 0x36 := by
  by_cases taken : first ^^^ 0x5C = 2 ^^^ 0x36
  · exact ⟨3, .inr rfl, by rw [taken]; decide⟩
  · exact ⟨2, .inl rfl, taken⟩

theorem usedSalt_eq_cons (salt : Bytes) : ∃ first rest, usedSalt salt = first :: rest := by
  apply List.exists_cons_of_length_pos
  rw [usedSalt]
  split_ifs with given
  · exact given
  · decide

/-- The whole key material marks the key that is extracted, and its first block. -/
theorem hkdf_tainted {mark : UInt8} {ikm salt info : Bytes} (long : 256 < ikm.length)
    (infoFits : info.length ≤ 64) :
    hkdfBlock (taintedHash mark) (hkdfExtract (taintedHash mark) salt ikm) info 1 =
      List.replicate 32 mark := by
  have extracted : hkdfExtract (taintedHash mark) salt ikm = List.replicate 32 mark := by
    have block := length_keyBlock (taintedHash mark) (by decide) salt
    apply passes_marked _ _ block
    left
    rw [List.length_append, List.length_map, block, blockSize]
    omega
  have key := length_keyBlock (taintedHash mark) (by decide) (List.replicate 32 mark)
  rw [extracted, hkdfBlock, hmac]
  apply passes_marked _ _ key
  right
  right
  constructor
  · rw [List.length_append, List.length_map, key, blockSize]
    simp [hkdfBlock]
    omega
  · rw [keyBlock_replicate]
    rfl

/-- The first 256 bytes of the key material leave no mark. -/
theorem edgeHmacSha256_clean {mark first : UInt8} {rest ikm : Bytes} (isMark : mark = 2 ∨ mark = 3)
    (other : first ^^^ 0x5C ≠ mark ^^^ 0x36) (long : 256 < ikm.length) :
    edgeHmacSha256 (taintedHash mark) (first :: rest) ikm = List.replicate 32 0 := by
  have block := length_keyBlock (taintedHash mark) (by decide) (first :: rest)
  obtain ⟨byte, head, source⟩ := keyBlock_head? mark first rest
  rw [edgeHmacSha256_eq_passes]
  apply passes_clean _ _ block _ head
  · rcases source with rfl | rfl | rfl
    · rcases isMark with rfl | rfl <;> decide
    · rcases isMark with rfl | rfl <;> decide
    · exact other
  · have length : ((keyBlock (taintedHash mark) (first :: rest)).map (· ^^^ 0x36) ++
        ikm.take 256).length = 320 := by
      rw [List.length_append, List.length_map, block, List.length_take, blockSize]
      omega
    rw [CarriesMark, length]
    omega
  · rcases isMark with rfl | rfl <;> decide

theorem edgeHmacSha256_clean_block {mark : UInt8} {info : Bytes} (isMark : mark = 2 ∨ mark = 3)
    (infoFits : info.length ≤ 64) :
    edgeHmacSha256 (taintedHash mark) (List.replicate 32 0) (info.take 64 ++ [1]) =
      List.replicate 32 0 := by
  have block := length_keyBlock (taintedHash mark) (by decide) (List.replicate 32 0)
  rw [edgeHmacSha256_eq_passes, List.take_of_length_le infoFits,
    List.take_of_length_le (by simp; omega)]
  apply passes_clean _ _ block _ (by rw [keyBlock_replicate]; rfl)
  · rcases isMark with rfl | rfl <;> decide
  · rintro (large | ⟨-, copied⟩ | ⟨-, key⟩)
    · rw [List.length_append, List.length_map, block, blockSize] at large
      simp at large
      omega
    · rw [List.drop_left' (by simpa [blockSize] using block)] at copied
      have last := congrArg List.getLast? copied
      simp at last
      rcases isMark with rfl | rfl <;> simp at last
    · rw [keyBlock_replicate] at key
      have first : (0 : UInt8) ^^^ 0x36 = mark ^^^ 0x36 := Option.some.inj key
      rcases isMark with rfl | rfl <;> exact absurd first (by decide)
  · rcases isMark with rfl | rfl <;> decide

/-- Longer key material is told apart from its first 256 bytes. -/
theorem hkdf_ne_of_long_ikm (ikm salt info : Bytes) (okmLen : Nat) (bounded : okmLen ≤ 255 * 32)
    (positive : 0 < okmLen) (long : 256 < ikm.length) (infoFits : info.length ≤ 64) :
    ∃ hash : HashFunction 32, edgeHkdfDerive hash ikm salt info okmLen ≠
      some (hkdf hash ikm salt info okmLen) := by
  obtain ⟨first, rest, salted⟩ := usedSalt_eq_cons salt
  obtain ⟨mark, isMark, other⟩ := exists_mark first
  exists taintedHash mark
  rw [edgeHkdfDerive_eq _ ikm salt info okmLen bounded, salted,
    edgeHmacSha256_clean isMark other long]
  intro same
  have heads := congrArg List.head? (Option.some.inj same)
  rw [hkdfExpandLoop_head? _ info _ positive, edgeHmacSha256_clean_block isMark infoFits, hkdf,
    hkdfExpand_head? _ _ _ positive (by decide), hkdf_tainted long infoFits] at heads
  rcases isMark with rfl | rfl <;> simp at heads

theorem edgeHkdfDerive_eq_hkdf_iff (ikm salt info : Bytes) (okmLen : Nat)
    (bounded : okmLen ≤ 255 * 32) :
    (∀ hash : HashFunction 32, edgeHkdfDerive hash ikm salt info okmLen =
      some (hkdf hash ikm salt info okmLen)) ↔
      okmLen = 0 ∨ (ikm.length ≤ 256 ∧ info.length ≤ 64) := by
  constructor
  · intro same
    by_contra neither
    rw [not_or] at neither
    by_cases infoFits : info.length ≤ 64
    · obtain ⟨hash, differ⟩ := hkdf_ne_of_long_ikm ikm salt info okmLen bounded (by omega)
        (by omega) infoFits
      exact differ (same hash)
    · exact hkdf_ne_of_long_info ikm salt info okmLen bounded (by omega) (by omega) (same _)
  · rintro (rfl | ⟨ikmFits, infoFits⟩) hash
    · rw [edgeHkdfDerive_eq hash ikm salt info 0 bounded, hkdfExpandLoop]
      simp [hkdf, hkdfExpand]
    · exact edgeHkdfDerive_eq_hkdf hash ikm salt info okmLen bounded ikmFits infoFits

end Separation

/-- For every hash, the keyed hash and the derived key are those of the standards
exactly when nothing has to be left out of the buffers. -/
theorem hmac_hkdf_standard_iff (key msg ikm salt info : Bytes) (okmLen : Nat)
    (bounded : okmLen ≤ 255 * 32) :
    ((∀ hash : HashFunction 32, edgeHmacSha256 hash key msg = hmac hash key msg) ↔
      msg.length ≤ 256) ∧
    ((∀ hash : HashFunction 32, edgeHkdfDerive hash ikm salt info okmLen =
        some (hkdf hash ikm salt info okmLen)) ↔
      okmLen = 0 ∨ (ikm.length ≤ 256 ∧ info.length ≤ 64)) :=
  ⟨edgeHmacSha256_eq_hmac_iff key msg,
    edgeHkdfDerive_eq_hkdf_iff ikm salt info okmLen bounded⟩

theorem hmac_hkdf_standard_iff_short :
    ((∀ hash : HashFunction 32, edgeHmacSha256 hash [7] [1, 2, 3] = hmac hash [7] [1, 2, 3]) ↔
      3 ≤ 256) ∧
    ((∀ hash : HashFunction 32, edgeHkdfDerive hash [1, 2] [3] [4, 5] 42 =
        some (hkdf hash [1, 2] [3] [4, 5] 42)) ↔
      42 = 0 ∨ (2 ≤ 256 ∧ 2 ≤ 64)) :=
  hmac_hkdf_standard_iff [7] [1, 2, 3] [1, 2] [3] [4, 5] 42 (by decide)

/-- A message of 257 bytes and an info string of 65 bytes are cut. -/
theorem hmac_hkdf_cut :
    (∃ hash : HashFunction 32, edgeHmacSha256 hash [7] (List.replicate 257 1) ≠
      hmac hash [7] (List.replicate 257 1)) ∧
    ∃ hash : HashFunction 32, edgeHkdfDerive hash [1, 2] [3] (List.replicate 65 1) 32 ≠
      some (hkdf hash [1, 2] [3] (List.replicate 65 1) 32) :=
  ⟨⟨_, hmac_ne_of_long [7] (List.replicate 257 1) (by rw [List.length_replicate]; decide)⟩,
    ⟨_, hkdf_ne_of_long_info [1, 2] [3] (List.replicate 65 1) 32 (by decide) (by decide)
      (by rw [List.length_replicate]; decide)⟩⟩

end Edge

end MiniIotRobotEdge
