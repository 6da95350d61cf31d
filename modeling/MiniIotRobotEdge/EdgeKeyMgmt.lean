import Mathlib.Logic.Function.Basic
import Mathlib.Tactic.SplitIfs
import MiniIotRobotEdge.EdgeCrypto

/-!
# The key store of mini-edge-security

The model of the key slots in `edge_key_mgmt.c`.  A slot argument is an integer
as in the source, and the slots a function of the index.  A buffer is a list of
bytes as long as its length argument.  A remainder by an empty key, which the
source leaves undefined, is its dividend.
-/

namespace MiniIotRobotEdge

namespace Edge

def kmMaxKeySlots : Nat := 16
def kmPrivkeySize : Nat := 32
def kmPubkeySize : Nat := 64

inductive KeyMgmtKeyType
  | eccP256
  | eccP384
  | rsa2048
  | rsa4096
  | ed25519
  deriving DecidableEq, Repr

def keyUseSign : UInt32 := (1 : UInt32) <<< 0
def keyUseVerify : UInt32 := (1 : UInt32) <<< 1
def keyUseDerive : UInt32 := (1 : UInt32) <<< 4

structure KeyMgmtSlot where
  slotId : Nat
  keyType : KeyMgmtKeyType
  privateKey : Vector UInt8 kmPrivkeySize
  publicKey : Vector UInt8 kmPubkeySize
  privLen : Nat
  pubLen : Nat
  usageFlags : UInt32
  active : Bool
  exportable : Bool
  createdAt : UInt32
  expiresAt : UInt32

/-- A slot after `memset`. -/
def KeyMgmtSlot.cleared : KeyMgmtSlot where
  slotId := 0
  keyType := .eccP256
  privateKey := .replicate _ 0
  publicKey := .replicate _ 0
  privLen := 0
  pubLen := 0
  usageFlags := 0
  active := false
  exportable := false
  createdAt := 0
  expiresAt := 0

structure EdgeKeyMgmtCtx where
  slots : Nat → KeyMgmtSlot
  keyCount : Nat
  bounded : keyCount ≤ kmMaxKeySlots

structure X509CertChain where
  certData : Vector UInt8 1024
  certLen : Nat
  subject : Vector UInt8 64
  issuer : Vector UInt8 64
  serial : Vector UInt8 16
  pubkey : Vector UInt8 kmPubkeySize
  pubkeyLen : Nat
  notBefore : UInt32
  notAfter : UInt32
  isCa : Bool
  revoked : Bool

def edgeKeyMgmtInit : EdgeKeyMgmtCtx where
  slots := fun _ => .cleared
  keyCount := 0
  bounded := Nat.zero_le _

namespace EdgeKeyMgmtCtx

variable (km : EdgeKeyMgmtCtx)

/-- The test at the head of every operation on a slot. -/
def HasSlot (slot : Int) : Prop := 0 ≤ slot ∧ slot < km.keyCount

instance (slot : Int) : Decidable (km.HasSlot slot) := inferInstanceAs (Decidable (_ ∧ _))

def slotAt (slot : Int) : KeyMgmtSlot := km.slots slot.toNat

/-- Write to `slots[slot]`. -/
def putSlot (slot : Int) (changed : KeyMgmtSlot) : EdgeKeyMgmtCtx :=
  { km with slots := Function.update km.slots slot.toNat changed }

/-- The next slot is taken. -/
def addSlot (added : KeyMgmtSlot) (room : km.keyCount < kmMaxKeySlots) : EdgeKeyMgmtCtx where
  slots := Function.update km.slots km.keyCount added
  keyCount := km.keyCount + 1
  bounded := room

end EdgeKeyMgmtCtx

/-- The keys that `edge_key_mgmt_generate_keypair` puts into a slot. -/
def generatedPrivateKey (slot : Nat) : Vector UInt8 kmPrivkeySize :=
  arrayOf _ fun i => UInt8.ofNat ((0x6B + slot * 31 + i * 17) ^^^ (i * 0xC3 + 0x71))

def generatedPublicKey (slot : Nat) : Vector UInt8 kmPubkeySize :=
  arrayOf _ fun i => arrayAt (generatedPrivateKey slot) (i % kmPrivkeySize) ^^^
    UInt8.ofNat (0x9E + slot * 7 + i * 13)

def generatedSlot (slot : Nat) (ktype : KeyMgmtKeyType) : KeyMgmtSlot where
  slotId := slot
  keyType := ktype
  privateKey := generatedPrivateKey slot
  publicKey := generatedPublicKey slot
  privLen := kmPrivkeySize
  pubLen := kmPubkeySize
  usageFlags := keyUseSign ||| keyUseVerify ||| keyUseDerive
  active := true
  exportable := false
  createdAt := UInt32.ofNat (slot * 1000 + 100)
  expiresAt := UInt32.ofNat (slot * 1000 + 100) + 31536000

def edgeKeyMgmtGenerateKeypair (km : EdgeKeyMgmtCtx) (ktype : KeyMgmtKeyType) :
    EdgeKeyMgmtCtx × Int :=
  if room : km.keyCount < kmMaxKeySlots then
    (km.addSlot (generatedSlot km.keyCount ktype) room, km.keyCount)
  else (km, -1)

def importedSlot (slot : Nat) (priv pub : Bytes) : KeyMgmtSlot where
  slotId := slot
  keyType := .eccP256
  privateKey := arrayOf _ (byteAt priv)
  publicKey := arrayOf _ (byteAt pub)
  privLen := if priv.length < kmPrivkeySize then priv.length else kmPrivkeySize
  pubLen := if pub.length < kmPubkeySize then pub.length else kmPubkeySize
  usageFlags := keyUseSign ||| keyUseVerify
  active := true
  exportable := true
  createdAt := UInt32.ofNat (slot * 1000 + 200)
  expiresAt := UInt32.ofNat (slot * 1000 + 200) + 31536000

def edgeKeyMgmtImportKeypair (km : EdgeKeyMgmtCtx) (priv pub : Bytes) : EdgeKeyMgmtCtx × Int :=
  if room : km.keyCount < kmMaxKeySlots then
    (km.addSlot (importedSlot km.keyCount priv pub) room, km.keyCount)
  else (km, -1)

def KeyMgmtSlot.rotated (ks : KeyMgmtSlot) : KeyMgmtSlot :=
  let newPrivate := arrayOf kmPrivkeySize fun i =>
    arrayAt ks.privateKey i ^^^ 0xAA ^^^ UInt8.ofNat (i * 0x11)
  { ks with
    privateKey := newPrivate
    publicKey := arrayOf _ fun i =>
      arrayAt newPrivate (i % kmPrivkeySize) ^^^ UInt8.ofNat (0x5C + i * 19)
    createdAt := ks.createdAt + 1
    expiresAt := ks.createdAt + 1 + 31536000 }

def edgeKeyMgmtRotateKey (km : EdgeKeyMgmtCtx) (slot : Int) : EdgeKeyMgmtCtx :=
  if ¬km.HasSlot slot then km
  else if (km.slotAt slot).active = false then km
  else km.putSlot slot (km.slotAt slot).rotated

def KeyMgmtSlot.revoked (ks : KeyMgmtSlot) : KeyMgmtSlot :=
  { ks with active := false, privateKey := .replicate _ 0 }

def edgeKeyMgmtRevokeKey (km : EdgeKeyMgmtCtx) (slot : Int) : EdgeKeyMgmtCtx × Bool :=
  if ¬km.HasSlot slot then (km, false)
  else (km.putSlot slot (km.slotAt slot).revoked, true)

/-- The mask of the two loops over a signature. -/
def slotMask (slot : Int) (i : Nat) : UInt8 := UInt8.ofNat (0xEC + slot.toNat * 7 + i * 3)

/-- The signature, where `edge_key_mgmt_sign` returns true. -/
def edgeKeyMgmtSign (km : EdgeKeyMgmtCtx) (slot : Int) (hash : Bytes) : Option Bytes :=
  let ks := km.slotAt slot
  if ¬km.HasSlot slot then none
  else if ks.active = false then none
  else if ks.usageFlags &&& keyUseSign = 0 then none
  else some ((List.range 64).map fun i =>
    byteAt hash (i % hash.length) ^^^ arrayAt ks.privateKey (i % ks.privLen) ^^^ slotMask slot i)

def edgeKeyMgmtVerify (km : EdgeKeyMgmtCtx) (slot : Int) (hash sig : Bytes) : Bool :=
  let ks := km.slotAt slot
  if ¬km.HasSlot slot then false
  else if ks.active = false then false
  else if sig.length < 32 then false
  else (List.range 16).all fun i =>
    byteAt sig i = byteAt hash (i % hash.length) ^^^ arrayAt ks.publicKey (i * 2 % ks.pubLen) ^^^
      slotMask slot i

/-- The certificate, where `edge_key_mgmt_issue_device_cert` returns true. -/
def edgeKeyMgmtIssueDeviceCert (km : EdgeKeyMgmtCtx) (caSlot deviceSlot : Int) :
    Option X509CertChain :=
  let ca := km.slotAt caSlot
  let device := km.slotAt deviceSlot
  if ¬km.HasSlot caSlot then none
  else if ¬km.HasSlot deviceSlot then none
  else if ca.active = false ∨ device.active = false then none
  else some
    { certData := arrayOf _ fun i =>
        if i < 128 then UInt8.ofNat (0xCA + i * 3 + caSlot.toNat * 7) else 0
      certLen := 128
      subject := arrayOf _ fun i => if i < 16 then UInt8.ofNat (68 + deviceSlot.toNat % 10) else 0
      issuer := arrayOf _ fun i => if i < 16 then UInt8.ofNat (67 + caSlot.toNat % 10) else 0
      serial := arrayOf _ fun i => UInt8.ofNat (deviceSlot.toNat * 16 + i)
      pubkey := device.publicKey
      pubkeyLen := device.pubLen
      notBefore := device.createdAt
      notAfter := device.expiresAt
      isCa := false
      revoked := false }

def edgeKeyMgmtFindKeyByUsage (km : EdgeKeyMgmtCtx) (usage : UInt32) : Int :=
  let found := (List.range km.keyCount).find? fun i =>
    (km.slots i).active ∧ (km.slots i).usageFlags &&& usage = usage
  match found with
  | some i => i
  | none => -1

def wrapMask (i : Nat) : UInt8 := UInt8.ofNat (0xA6 + i * 3)

/-- The wrapped key; `*wlen` is 0 where there is none. -/
def edgeKeyMgmtWrapKey (km : EdgeKeyMgmtCtx) (wrappingKeySlot targetSlot : Int) : Option Bytes :=
  let wk := km.slotAt wrappingKeySlot
  let tk := km.slotAt targetSlot
  if ¬km.HasSlot wrappingKeySlot then none
  else if ¬km.HasSlot targetSlot then none
  else if wk.active = false ∨ tk.active = false then none
  else some
    (((List.range 8).map fun i => arrayAt wk.publicKey i ^^^ wrapMask i) ++
      (List.range tk.privLen).map fun i =>
        arrayAt tk.privateKey i ^^^ arrayAt wk.privateKey (i % wk.privLen))

/-- No byte of `iv_check` differs from 0. -/
def ivMatches (wk : KeyMgmtSlot) (wrapped : Bytes) : Prop :=
  ∀ i < 8, byteAt wrapped i ^^^ arrayAt wk.publicKey i ^^^ wrapMask i = 0

instance (wk : KeyMgmtSlot) (wrapped : Bytes) : Decidable (ivMatches wk wrapped) :=
  inferInstanceAs (Decidable (∀ i < 8, _))

/-- The target slot after the key of `wlen - 8` bytes is unwrapped.  Where the
wrapping slot is the target itself, its length is the new one already. -/
def EdgeKeyMgmtCtx.unwrapped (km : EdgeKeyMgmtCtx) (wrappingKeySlot : Int) (wrapped : Bytes)
    (targetSlot : Int) : EdgeKeyMgmtCtx :=
  let tk := km.slotAt targetSlot
  let keyLen := wrapped.length - 8
  let newLen := if keyLen < kmPrivkeySize then keyLen else kmPrivkeySize
  let resized := km.putSlot targetSlot { tk with privLen := newLen }
  let wk := resized.slotAt wrappingKeySlot
  let newPrivate := arrayOf kmPrivkeySize fun i =>
    if i < newLen then byteAt wrapped (i + 8) ^^^ arrayAt wk.privateKey (i % wk.privLen)
    else arrayAt tk.privateKey i
  resized.putSlot targetSlot
    { tk with privLen := newLen, privateKey := newPrivate, active := true }

def edgeKeyMgmtUnwrapKey (km : EdgeKeyMgmtCtx) (wrappingKeySlot : Int) (wrapped : Bytes)
    (targetSlot : Int) : EdgeKeyMgmtCtx × Bool :=
  let wk := km.slotAt wrappingKeySlot
  if ¬km.HasSlot wrappingKeySlot then (km, false)
  else if ¬km.HasSlot targetSlot then (km, false)
  else if wrapped.length < 16 then (km, false)
  else if wk.active = false then (km, false)
  else if ¬ivMatches wk wrapped then (km, false)
  else (km.unwrapped wrappingKeySlot wrapped targetSlot, true)

section Slots

variable {km : EdgeKeyMgmtCtx} {slot other : Int} {changed : KeyMgmtSlot}

@[simp]
theorem putSlot_self : (km.putSlot slot changed).slotAt slot = changed :=
  Function.update_self ..

theorem putSlot_other (lower : 0 ≤ slot) (otherLower : 0 ≤ other) (different : other ≠ slot) :
    (km.putSlot slot changed).slotAt other = km.slotAt other :=
  Function.update_of_ne (by omega) ..

@[simp]
theorem addSlot_self {added : KeyMgmtSlot} {room : km.keyCount < kmMaxKeySlots} :
    (km.addSlot added room).slotAt km.keyCount = added :=
  Function.update_self ..

/-- A new slot lies behind the slots in use. -/
theorem addSlot_other {added : KeyMgmtSlot} {room : km.keyCount < kmMaxKeySlots}
    (inUse : km.HasSlot slot) : (km.addSlot added room).slotAt slot = km.slotAt slot := by
  have upper := inUse.2
  have lower := inUse.1
  exact Function.update_of_ne (by omega) ..

end Slots

end Edge

end MiniIotRobotEdge
