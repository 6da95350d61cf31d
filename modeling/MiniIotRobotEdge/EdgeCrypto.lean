import MiniIotRobotEdge.ByteCounter

/-!
# The block cipher modes of mini-edge-security

The model of AES-128, CTR and GCM in `edge_crypto.c`.  A buffer is a list of
bytes as long as its length argument; the stack buffer of 512 bytes in which GCM
collects the data for the tag is a list too.  The two loops that feed counter
blocks to `aes_enc` return those blocks beside their output.
-/

namespace MiniIotRobotEdge

namespace Edge

open ByteCounter

abbrev Bytes := List UInt8

def byteAt (bytes : Bytes) (index : Nat) : UInt8 := bytes.getD index 0

/-- An array by position. -/
def arrayOf (length : Nat) (byte : Nat → UInt8) : Vector UInt8 length :=
  .ofFn fun index => byte index

def arrayAt {length : Nat} (array : Vector UInt8 length) (index : Nat) : UInt8 :=
  byteAt array.toList index

theorem arrayAt_arrayOf {length index : Nat} (byte : Nat → UInt8) (inside : index < length) :
    arrayAt (arrayOf length byte) index = byte index := by
  simp [arrayAt, byteAt, arrayOf, inside]

/-- Sixteen bytes by position. -/
def blockOf (byte : Nat → UInt8) : Bytes := (List.range 16).map byte

def zeroBlock : Bytes := List.replicate 16 0

/-- `memcpy` of at most `length` bytes into a cleared buffer. -/
def padded (length : Nat) (bytes : Bytes) : Bytes :=
  bytes.take length ++ List.replicate (length - bytes.length) 0

def xorBytes (first second : Bytes) : Bytes := List.zipWith (· ^^^ ·) first second

/-- The chunks of at most 16 bytes that the loops go through. -/
def chunks (bytes : Bytes) : List Bytes :=
  (List.range ((bytes.length + 15) / 16)).map fun index => (bytes.drop (16 * index)).take 16

def sbox : Bytes :=
  [0x63, 0x7C, 0x77, 0x7B, 0xF2, 0x6B, 0x6F, 0xC5, 0x30, 0x01, 0x67, 0x2B, 0xFE, 0xD7, 0xAB, 0x76,
   0xCA, 0x82, 0xC9, 0x7D, 0xFA, 0x59, 0x47, 0xF0, 0xAD, 0xD4, 0xA2, 0xAF, 0x9C, 0xA4, 0x72, 0xC0,
   0xB7, 0xFD, 0x93, 0x26, 0x36, 0x3F, 0xF7, 0xCC, 0x34, 0xA5, 0xE5, 0xF1, 0x71, 0xD8, 0x31, 0x15,
   0x04, 0xC7, 0x23, 0xC3, 0x18, 0x96, 0x05, 0x9A, 0x07, 0x12, 0x80, 0xE2, 0xEB, 0x27, 0xB2, 0x75,
   0x09, 0x83, 0x2C, 0x1A, 0x1B, 0x6E, 0x5A, 0xA0, 0x52, 0x3B, 0xD6, 0xB3, 0x29, 0xE3, 0x2F, 0x84,
   0x53, 0xD1, 0x00, 0xED, 0x20, 0xFC, 0xB1, 0x5B, 0x6A, 0xCB, 0xBE, 0x39, 0x4A, 0x4C, 0x58, 0xCF,
   0xD0, 0xEF, 0xAA, 0xFB, 0x43, 0x4D, 0x33, 0x85, 0x45, 0xF9, 0x02, 0x7F, 0x50, 0x3C, 0x9F, 0xA8,
   0x51, 0xA3, 0x40, 0x8F, 0x92, 0x9D, 0x38, 0xF5, 0xBC, 0xB6, 0xDA, 0x21, 0x10, 0xFF, 0xF3, 0xD2,
   0xCD, 0x0C, 0x13, 0xEC, 0x5F, 0x97, 0x44, 0x17, 0xC4, 0xA7, 0x7E, 0x3D, 0x64, 0x5D, 0x19, 0x73,
   0x60, 0x81, 0x4F, 0xDC, 0x22, 0x2A, 0x90, 0x88, 0x46, 0xEE, 0xB8, 0x14, 0xDE, 0x5E, 0x0B, 0xDB,
   0xE0, 0x32, 0x3A, 0x0A, 0x49, 0x06, 0x24, 0x5C, 0xC2, 0xD3, 0xAC, 0x62, 0x91, 0x95, 0xE4, 0x79,
   0xE7, 0xC8, 0x37, 0x6D, 0x8D, 0xD5, 0x4E, 0xA9, 0x6C, 0x56, 0xF4, 0xEA, 0x65, 0x7A, 0xAE, 0x08,
   0xBA, 0x78, 0x25, 0x2E, 0x1C, 0xA6, 0xB4, 0xC6, 0xE8, 0xDD, 0x74, 0x1F, 0x4B, 0xBD, 0x8B, 0x8A,
   0x70, 0x3E, 0xB5, 0x66, 0x48, 0x03, 0xF6, 0x0E, 0x61, 0x35, 0x57, 0xB9, 0x86, 0xC1, 0x1D, 0x9E,
   0xE1, 0xF8, 0x98, 0x11, 0x69, 0xD9, 0x8E, 0x94, 0x9B, 0x1E, 0x87, 0xE9, 0xCE, 0x55, 0x28, 0xDF,
   0x8C, 0xA1, 0x89, 0x0D, 0xBF, 0xE6, 0x42, 0x68, 0x41, 0x99, 0x2D, 0x0F, 0xB0, 0x54, 0xBB, 0x16]

def substitute (byte : UInt8) : UInt8 := byteAt sbox byte.toNat

def gm2 (a : UInt8) : UInt8 := if a &&& 0x80 ≠ 0 then (a <<< 1) ^^^ 0x1B else a <<< 1

def gm3 (a : UInt8) : UInt8 := gm2 a ^^^ a

def aesSb (s : Bytes) : Bytes := s.map substitute

/-- `aes_sr`: the position each byte comes from. -/
def aesSr (s : Bytes) : Bytes :=
  [0, 5, 10, 15, 4, 9, 14, 3, 8, 13, 2, 7, 12, 1, 6, 11].map (byteAt s)

def mixColumn (a b c d : UInt8) : Bytes :=
  [gm2 a ^^^ gm3 b ^^^ c ^^^ d, a ^^^ gm2 b ^^^ gm3 c ^^^ d,
    a ^^^ b ^^^ gm2 c ^^^ gm3 d, gm3 a ^^^ b ^^^ c ^^^ gm2 d]

def aesMc (s : Bytes) : Bytes :=
  (List.range 4).flatMap fun c =>
    mixColumn (byteAt s (4 * c)) (byteAt s (4 * c + 1)) (byteAt s (4 * c + 2))
      (byteAt s (4 * c + 3))

def aesArk (s roundKey : Bytes) : Bytes := xorBytes s roundKey

def roundConstants : Bytes := [0x01, 0x02, 0x04, 0x08, 0x10, 0x20, 0x40, 0x80, 0x1B, 0x36]

/-- The body of the loop of `aes_ke128`. -/
def nextRoundKey (p : Bytes) (rc : UInt8) : Bytes :=
  let first :=
    [byteAt p 0 ^^^ substitute (byteAt p 13) ^^^ rc, byteAt p 1 ^^^ substitute (byteAt p 14),
      byteAt p 2 ^^^ substitute (byteAt p 15), byteAt p 3 ^^^ substitute (byteAt p 12)]
  (List.range 12).foldl (fun c j => c ++ [byteAt p (j + 4) ^^^ byteAt c j]) first

/-- The eleven round keys. -/
def aesKe128 (key : Bytes) : List Bytes := roundConstants.scanl nextRoundKey key

def aesEnc (key block : Bytes) : Bytes :=
  let rk := aesKe128 key
  let start := aesArk block (rk.getD 0 [])
  let inner := ((rk.drop 1).take 9).foldl
    (fun s roundKey => aesArk (aesMc (aesSr (aesSb s))) roundKey) start
  aesArk (aesSr (aesSb inner)) (rk.getD 10 [])

/-- `EdgeCryptoCtx`; the key and the nonce are as long as their lengths say. -/
structure EdgeCryptoCtx where
  key : Bytes
  counter : Bytes
  nonce : Bytes
  blockCount : UInt64
  initialized : Bool

def edgeCryptoInit (key nonce : Bytes) : EdgeCryptoCtx :=
  ⟨key.take 64, zeroBlock, nonce.take 12, 0, true⟩

def ctrInc (ctr : Bytes) : Bytes := carryFrom ctr 16

/-- `ctr_prep`: the nonce, the first four bytes of the counter, zeros. -/
def ctrPrep (ctx : EdgeCryptoCtx) : Bytes :=
  let off := min ctx.nonce.length 12
  padded 16 (ctx.nonce.take off ++ ctx.counter.take (min (16 - off) 4))

/-- What a counter mode loop leaves, and the blocks it gave to `aes_enc`. -/
structure CtrResult where
  ctx : EdgeCryptoCtx
  output : Bytes
  blocks : List Bytes

/-- The loop of `edge_aes_ctr_encrypt`. -/
def ctrLoop (ak : Bytes) (ctx : EdgeCryptoCtx) : List Bytes → CtrResult
  | [] => ⟨ctx, [], []⟩
  | chunk :: rest =>
      let cb := ctrPrep ctx
      let ks := aesEnc ak cb
      let later := ctrLoop ak
        { ctx with counter := ctrInc ctx.counter, blockCount := ctx.blockCount + 1 } rest
      ⟨later.ctx, xorBytes chunk ks ++ later.output, cb :: later.blocks⟩

def edgeAesCtrEncrypt (ctx : EdgeCryptoCtx) (plain : Bytes) : CtrResult :=
  if ctx.initialized = false then ⟨ctx, [], []⟩
  else ctrLoop (padded 16 ctx.key) ctx (chunks plain)

def edgeAesCtrDecrypt (ctx : EdgeCryptoCtx) (cipher : Bytes) : CtrResult :=
  edgeAesCtrEncrypt ctx cipher

/-- One step of the multiplication in `gcm_ghash`: `z` and `v`. -/
def ghashBit (y : Bytes) (product : Bytes × Bytes) (i : Nat) : Bytes × Bytes :=
  let (z, v) := product
  let bi := 15 - i / 8
  let bt := 7 - i % 8
  let sum := if (byteAt y bi).toBitVec.getLsbD bt then blockOf fun j => byteAt z j ^^^ byteAt v j
    else z
  let shifted := blockOf fun j =>
    if j = 0 then byteAt v 0 >>> 1 else (byteAt v j >>> 1) ||| (byteAt v (j - 1) <<< 7)
  let reduced := if byteAt v 15 &&& 1 ≠ 0 then shifted.modify 0 (· ^^^ 0xE1) else shifted
  (sum, reduced)

/-- The body of the loop of `gcm_ghash` over the chunks. -/
def ghashChunk (h y chunk : Bytes) : Bytes :=
  let mixed := blockOf fun j => byteAt y j ^^^ byteAt chunk j
  ((List.range 128).foldl (ghashBit mixed) (zeroBlock, h)).1

def gcmGhash (h data y : Bytes) : Bytes := (chunks data).foldl (ghashChunk h) y

structure EdgeGcmCtx where
  key : Bytes
  iv : Bytes
  hKey : Bytes
  j0 : Bytes
  initialized : Bool

/-- The eight bytes of a count of bits, the highest first. -/
def bitCount (length : Nat) : Bytes :=
  (List.range 8).map fun index => UInt8.ofNat (length * 8 / 256 ^ (7 - index))

def zerosTo16 (length : Nat) : Bytes := List.replicate ((16 - length % 16) % 16) 0

def edgeGcmInit (key iv : Bytes) : EdgeGcmCtx :=
  let key := key.take 32
  let iv := iv.take 16
  let hKey := aesEnc (padded 16 key) zeroBlock
  let j0 :=
    if iv.length = 12 then iv ++ [0, 0, 0, 1]
    else gcmGhash hKey (iv ++ zerosTo16 iv.length ++ bitCount iv.length) zeroBlock
  ⟨key, iv, hKey, j0, true⟩

/-- The output of a counter loop and the blocks it gave to `aes_enc`. -/
def gcmLoop (ak ctr : Bytes) : List Bytes → Bytes × List Bytes
  | [] => ([], [])
  | chunk :: rest =>
      let ks := aesEnc ak ctr
      let later := gcmLoop ak (ctrInc ctr) rest
      (xorBytes chunk ks ++ later.1, ctr :: later.2)

/-- The first counter block of a payload. -/
def gcmFirstCounter (j0 : Bytes) : Bytes := j0.modify 15 fun last => (last &&& 0xFE) ||| 2

def gcmTagData (aad cipher : Bytes) : Bytes :=
  aad ++ zerosTo16 aad.length ++ cipher ++ zerosTo16 cipher.length ++
    bitCount aad.length ++ bitCount cipher.length

def gcmTag (gcm : EdgeGcmCtx) (ak aad cipher : Bytes) : Bytes :=
  xorBytes (gcmGhash gcm.hKey (gcmTagData aad cipher) zeroBlock) (aesEnc ak gcm.j0)

/-- `edge_gcm_encrypt`: the ciphertext, the tag and the blocks of the payload. -/
structure GcmResult where
  cipher : Bytes
  tag : Bytes
  blocks : List Bytes

def edgeGcmEncrypt (gcm : EdgeGcmCtx) (plain aad : Bytes) : GcmResult :=
  if gcm.initialized = false then ⟨[], zeroBlock, []⟩
  else
    let ak := padded 16 gcm.key
    let payload := gcmLoop ak (gcmFirstCounter gcm.j0) (chunks plain)
    ⟨payload.1, gcmTag gcm ak aad payload.1, payload.2⟩

/-- `edge_gcm_decrypt`: the plaintext and whether the tag is right. -/
def edgeGcmDecrypt (gcm : EdgeGcmCtx) (cipher aad tag : Bytes) : Bytes × Bool :=
  if gcm.initialized = false then ([], false)
  else
    let ak := padded 16 gcm.key
    let payload := gcmLoop ak (gcmFirstCounter gcm.j0) (chunks cipher)
    (payload.1, gcmTag gcm ak aad cipher = tag)

end Edge

end MiniIotRobotEdge
