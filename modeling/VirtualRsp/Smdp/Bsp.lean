import VirtualRsp.Foundations.LockStep
import VirtualRsp.Foundations.Rijndael
import VirtualRsp.Smdp.Bertlv

/-!
# The protection protocol for profile packages

`BspInstance` holds the two algorithms that protect a bound profile package: encryption with a
counter of blocks, from which the initial vector of each segment is made, and a MAC that is chained
from segment to segment. AES is a parameter (`Aes`). Python exceptions are `none`.

An instance that decrypts or checks a segment undoes the instance that encrypted or only MACed it
(`demacAndDecryptOne_undoes`, `demacOnlyOne_undoes`), and so for plaintexts of any number of
segments (`demacAndDecrypt_encryptAndMac`, `demacOnly_macOnly`) and for any sequence of operations
(`bsp_lockStep`).
-/

namespace VirtualRsp.Smdp

open LockStep

/-- AES with 128-bit keys: CBC mode and CMAC. -/
structure Aes where
  encryptCbc (key iv data : Bytes) : Bytes
  decryptCbc (key iv data : Bytes) : Bytes
  cmac (key data : Bytes) : Vector UInt8 16

/-- Decryption inverts encryption on whole blocks, and encryption keeps the length. -/
structure Aes.Lawful (aes : Aes) : Prop where
  decrypt_encrypt : ∀ key iv data : Bytes, data.length % 16 = 0 →
    aes.decryptCbc key iv (aes.encryptCbc key iv data) = data
  length_encrypt : ∀ key iv data : Bytes, (aes.encryptCbc key iv data).length = data.length

/-- `int.to_bytes`, big-endian. -/
def toBytes (n length : ℕ) : Option Bytes :=
  if n < 256 ^ length then some (Der.beBytes length n) else none

/-! ## Encryption -/

/-- The state of the encryption. -/
structure BspAlgoCryptAes128 where
  sEnc : Bytes
  blockNr : ℕ
  deriving DecidableEq

/-- The block size of AES. -/
def blocksize : ℕ := 16

/-- Padding towards a multiple. -/
def getPadding (inLen multiple : ℕ) (padding : UInt8) : Bytes :=
  if inLen % multiple = 0 then [] else List.replicate (multiple - inLen % multiple) padding

/-- Append `80`, and zeros up to a whole block. -/
def padToMultiple (indat : Bytes) : Bytes :=
  indat ++ ([0x80] ++ getPadding (indat.length + 1) blocksize 0)

/-- Remove trailing zeros and then `80`. -/
def unpad (padded : Bytes) : Option Bytes :=
  let stripped := (padded.reverse.dropWhile (· = 0)).reverse
  if stripped.getLast? = some 0x80 then some stripped.dropLast else none

namespace BspAlgoCryptAes128

/-- The initial vector of the next segment: the block number, encrypted. -/
def getIcv (aes : Aes) (c : BspAlgoCryptAes128) : Option (Bytes × BspAlgoCryptAes128) := do
  let data ← toBytes c.blockNr blocksize
  let iv := List.replicate blocksize 0
  return (aes.encryptCbc c.sEnc iv data, { c with blockNr := c.blockNr + 1 })

/-- Encrypt a segment. -/
def encrypt (aes : Aes) (c : BspAlgoCryptAes128) (data : Bytes) :
    Option (Bytes × BspAlgoCryptAes128) := do
  let (icv, c) ← getIcv aes c
  return (aes.encryptCbc c.sEnc icv (padToMultiple data), c)

/-- Decrypt a segment. -/
def decrypt (aes : Aes) (c : BspAlgoCryptAes128) (data : Bytes) :
    Option (Bytes × BspAlgoCryptAes128) := do
  let (icv, c) ← getIcv aes c
  let plaintext ← unpad (aes.decryptCbc c.sEnc icv data)
  return (plaintext, c)

end BspAlgoCryptAes128

/-! ## Authentication -/

/-- The state of the MAC. -/
structure BspAlgoMacAes128 where
  sMac : Bytes
  macChain : Bytes
  deriving DecidableEq

/-- The length of a MAC. -/
def lMac : ℕ := 8

namespace BspAlgoMacAes128

/-- The MAC of the data. The full value is the next link of the chain. -/
def auth_ (aes : Aes) (m : BspAlgoMacAes128) (tempData : Bytes) : Bytes × BspAlgoMacAes128 :=
  let fullCMac := (aes.cmac m.sMac tempData).toList
  (fullCMac.take lMac, { m with macChain := fullCMac })

/-- The object that a segment is sent as. -/
def auth (tlv : Bertlv) (aes : Aes) (m : BspAlgoMacAes128) (tag : UInt8) (data : Bytes) :
    Option (Bytes × BspAlgoMacAes128) := do
  let lcc := data.length + lMac
  let length ← tlv.encodeLen lcc
  let tagAndLength := [tag] ++ length
  let (cMac, m') := auth_ aes m (m.macChain ++ tagAndLength ++ data)
  return (tagAndLength ++ data ++ cMac, m')

/-- Check the MAC of an object and take it off. -/
def verify (aes : Aes) (m : BspAlgoMacAes128) (ciphertext : Bytes) :
    Option (Bytes × BspAlgoMacAes128) :=
  let macStripped := ciphertext.take (ciphertext.length - lMac)
  let macReceived := ciphertext.drop (ciphertext.length - lMac)
  let (macComputed, m') := auth_ aes m (m.macChain ++ macStripped)
  if macReceived ≠ macComputed then none else some (macStripped, m')

end BspAlgoMacAes128

/-! ## Instances -/

/-- The maximum size of a segment. -/
def maxSegmentSize : ℕ := 1020

/-- An instance of the protocol. -/
structure BspInstance where
  cAlgo : BspAlgoCryptAes128
  mAlgo : BspAlgoMacAes128
  maxPayloadSize : ℕ
  deriving DecidableEq

namespace BspInstance

/-- A new instance. -/
def new (tlv : Bertlv) (sEnc sMac initialMcv : Bytes) : Option BspInstance := do
  let lengthLen ← tlv.encodeLen maxSegmentSize
  return ⟨⟨sEnc, 1⟩, ⟨sMac, initialMcv⟩, maxSegmentSize - 1 - lengthLen.length - lMac⟩

variable (tlv : Bertlv) (aes : Aes)

/-- Encrypt and MAC one segment. -/
def encryptAndMacOne (tag : UInt8) (plaintext : Bytes) (bsp : BspInstance) :
    Option (Bytes × BspInstance) :=
  if plaintext.length ≤ bsp.maxPayloadSize then do
    let (ciphered, cAlgo) ← bsp.cAlgo.encrypt aes plaintext
    let (maced, mAlgo) ← bsp.mAlgo.auth tlv aes tag ciphered
    return (maced, { bsp with cAlgo := cAlgo, mAlgo := mAlgo })
  else none

/-- MAC one segment. The block counter advances as well. -/
def macOnlyOne (tag : UInt8) (plaintext : Bytes) (bsp : BspInstance) :
    Option (Bytes × BspInstance) :=
  if plaintext.length ≤ bsp.maxPayloadSize then do
    let (maced, mAlgo) ← bsp.mAlgo.auth tlv aes tag plaintext
    return (maced, { bsp with
      cAlgo := { bsp.cAlgo with blockNr := bsp.cAlgo.blockNr + 1 }
      mAlgo := mAlgo })
  else none

/-- Cut a plaintext into segments, and protect them one after the other. -/
def segmentLoop (one : Bytes → BspInstance → Option (Bytes × BspInstance)) :
    ℕ → Bytes → BspInstance → Option (List Bytes × BspInstance)
  | 0, _, _ => none
  | n + 1, remainder, bsp =>
    if remainder.length = 0 then some ([], bsp)
    else do
      let (segment, remainder) :=
        if remainder.length < bsp.maxPayloadSize then (remainder, [])
        else (remainder.take bsp.maxPayloadSize, remainder.drop bsp.maxPayloadSize)
      let (tlv, bsp) ← one segment bsp
      let (result, bsp) ← segmentLoop one n remainder bsp
      return (tlv :: result, bsp)

/-- Encrypt and MAC a plaintext of any length. -/
def encryptAndMac (tag : UInt8) (plaintext : Bytes) (bsp : BspInstance) :
    Option (List Bytes × BspInstance) :=
  segmentLoop (encryptAndMacOne tlv aes tag) (plaintext.length + 1) plaintext bsp

/-- MAC a plaintext of any length. -/
def macOnly (tag : UInt8) (plaintext : Bytes) (bsp : BspInstance) :
    Option (List Bytes × BspInstance) :=
  segmentLoop (macOnlyOne tlv aes tag) (plaintext.length + 1) plaintext bsp

/-- Check and decrypt one segment. -/
def demacAndDecryptOne (ciphertext : Bytes) (bsp : BspInstance) :
    Option (Bytes × BspInstance) := do
  let (payload, mAlgo) ← bsp.mAlgo.verify aes ciphertext
  let val ← tlv.parseOne payload
  let (plaintext, cAlgo) ← bsp.cAlgo.decrypt aes val
  return (plaintext, { bsp with cAlgo := cAlgo, mAlgo := mAlgo })

/-- Check one segment. The block counter advances as well. -/
def demacOnlyOne (ciphertext : Bytes) (bsp : BspInstance) : Option (Bytes × BspInstance) := do
  let (payload, mAlgo) ← bsp.mAlgo.verify aes ciphertext
  let val ← tlv.parseOne payload
  return (val, { bsp with
    cAlgo := { bsp.cAlgo with blockNr := bsp.cAlgo.blockNr + 1 }
    mAlgo := mAlgo })

/-- Check and decrypt the segments of a plaintext. -/
def demacAndDecrypt (ciphertextList : List Bytes) (bsp : BspInstance) :
    Option (Bytes × BspInstance) := do
  let (plaintextList, bsp) ← all (demacAndDecryptOne tlv aes) ciphertextList bsp
  return (plaintextList.flatten, bsp)

/-- Check the segments of a plaintext. -/
def demacOnly (ciphertextList : List Bytes) (bsp : BspInstance) :
    Option (Bytes × BspInstance) := do
  let (plaintextList, bsp) ← all (demacOnlyOne tlv aes) ciphertextList bsp
  return (plaintextList.flatten, bsp)

/-! ## One segment -/

section

variable {tlv : Bertlv} {aes : Aes} {tag : UInt8}

theorem auth_eq_some (htlv : tlv.Lawful) {m m' : BspAlgoMacAes128} {data maced : Bytes}
    (h : m.auth tlv aes tag data = some (maced, m')) :
    data.length + lMac < 2 ^ 32 ∧
      maced = tag :: (Der.lenBytes (data.length + lMac) ++ data) ++ m'.macChain.take lMac ∧
      m' = { m with macChain := (aes.cmac m.sMac (m.macChain ++
        tag :: (Der.lenBytes (data.length + lMac) ++ data))).toList } := by
  simp only [BspAlgoMacAes128.auth, htlv.encodeLen_eq] at h
  split at h
  · rename_i hlen
    simp only [Option.bind_eq_bind, Option.bind_some, BspAlgoMacAes128.auth_, Option.pure_def,
      Option.some.injEq, Prod.mk.injEq, List.append_assoc, List.nil_append,
      List.cons_append] at h
    obtain ⟨rfl, rfl⟩ := h
    exact ⟨hlen, by simp only [List.cons_append, List.append_assoc], rfl⟩
  · cases h

/-- What a segment is sent as is an object with the tag. -/
theorem auth_tlv (htlv : tlv.Lawful) {m m' : BspAlgoMacAes128} {data maced : Bytes}
    (h : m.auth tlv aes tag data = some (maced, m')) :
    ∃ value : Bytes, value.length < 2 ^ 32 ∧ maced = Der.tlv tag.toNat value := by
  obtain ⟨hlen, rfl, rfl⟩ := auth_eq_some htlv h
  generalize aes.cmac m.sMac (m.macChain ++ tag :: (Der.lenBytes (data.length + lMac) ++ data)) =
    full
  have hmac : (full.toList.take lMac).length = lMac := by
    rw [List.length_take, Vector.length_toList]
    rfl
  have htag : Der.tagBytes tag.toNat = [tag] := by
    have h0 : tag.toNat / 256 = 0 := Nat.div_eq_of_lt tag.toNat_lt
    rw [Der.tagBytes, if_pos h0, UInt8.ofNat_toNat]
  refine ⟨data ++ full.toList.take lMac, by rwa [List.length_append, hmac], ?_⟩
  rw [Der.tlv, htag, List.length_append, hmac]
  simp only [List.cons_append, List.nil_append, List.append_assoc]

/-- A checked object is what was sent, without the MAC. -/
theorem verify_auth (htlv : tlv.Lawful) {m m' : BspAlgoMacAes128} {data maced : Bytes}
    (h : m.auth tlv aes tag data = some (maced, m')) :
    m.verify aes maced = some (tag :: (Der.lenBytes (data.length + lMac) ++ data), m') := by
  obtain ⟨-, rfl, hm'⟩ := auth_eq_some htlv h
  generalize tag :: (Der.lenBytes (data.length + lMac) ++ data) = payload at hm' ⊢
  subst hm'
  have hmac : ((aes.cmac m.sMac (m.macChain ++ payload)).toList.take lMac).length = lMac := by
    rw [List.length_take, Vector.length_toList]
    rfl
  generalize hc : (aes.cmac m.sMac (m.macChain ++ payload)).toList = full at hmac
  unfold BspAlgoMacAes128.verify BspAlgoMacAes128.auth_
  rw [List.length_append, hmac, Nat.add_sub_cancel, List.take_left, List.drop_left]
  simp only [hc, ne_eq, not_true_eq_false, if_false]

/-- The value of a checked object is the data. -/
theorem parseOne_payload (htlv : tlv.Lawful) (htag : tag.toNat % 32 ≠ 31) {data : Bytes}
    (hlen : data.length + lMac < 2 ^ 32) :
    tlv.parseOne (tag :: (Der.lenBytes (data.length + lMac) ++ data)) = some data := by
  rw [htlv.parseOne_eq tag _ data htag hlen, List.take_of_length_le (Nat.le_add_right _ _)]

/-- A plaintext is padded by `80` and zeros up to a whole block. -/
theorem padToMultiple_eq (data : Bytes) : ∃ k, padToMultiple data =
    data ++ 0x80 :: List.replicate k 0 ∧ (data.length + 1 + k) % blocksize = 0 := by
  unfold padToMultiple getPadding
  split
  · rename_i h
    exact ⟨0, by simp, h⟩
  · refine ⟨blocksize - (data.length + 1) % blocksize, rfl, ?_⟩
    unfold blocksize
    omega

theorem length_padToMultiple (data : Bytes) : (padToMultiple data).length % 16 = 0 ∧
    (padToMultiple data).length ≤ data.length + 16 := by
  unfold padToMultiple getPadding blocksize
  split <;> simp only [List.length_append, List.length_cons, List.length_nil,
    List.length_replicate] <;> omega

theorem unpad_padToMultiple (data : Bytes) : unpad (padToMultiple data) = some data := by
  obtain ⟨k, h, -⟩ := padToMultiple_eq data
  have hstrip : (((data ++ 0x80 :: List.replicate k 0).reverse.dropWhile (· = 0)).reverse : Bytes) =
      data ++ [0x80] := by
    rw [List.reverse_append, List.reverse_cons, List.reverse_replicate, List.append_assoc,
      List.dropWhile_append_of_pos (by simp)]
    simp
  unfold unpad
  rw [h, hstrip]
  simp

theorem decrypt_encrypt (haes : aes.Lawful) {c c' : BspAlgoCryptAes128} {data ciphered : Bytes}
    (h : c.encrypt aes data = some (ciphered, c')) :
    c.decrypt aes ciphered = some (data, c') := by
  unfold BspAlgoCryptAes128.encrypt at h
  unfold BspAlgoCryptAes128.decrypt
  cases hicv : c.getIcv aes with
  | none => rw [hicv] at h; cases h
  | some icv =>
    rw [hicv] at h
    cases h
    simp only [Option.bind_eq_bind, Option.bind_some, unpad_padToMultiple,
      haes.decrypt_encrypt _ _ _ (length_padToMultiple data).1]
    rfl

/-- What protecting a segment does. -/
theorem encryptAndMacOne_eq_some {plaintext maced : Bytes} {bsp bsp' : BspInstance}
    (h : encryptAndMacOne tlv aes tag plaintext bsp = some (maced, bsp')) :
    ∃ ciphered c m, bsp.cAlgo.encrypt aes plaintext = some (ciphered, c) ∧
      bsp.mAlgo.auth tlv aes tag ciphered = some (maced, m) ∧
      bsp' = { bsp with cAlgo := c, mAlgo := m } := by
  unfold encryptAndMacOne at h
  split at h
  · obtain ⟨⟨ciphered, c⟩, hc, h'⟩ := Option.bind_eq_some_iff.1 h
    obtain ⟨⟨maced, m⟩, hm, heq⟩ := Option.bind_eq_some_iff.1 h'
    cases heq
    exact ⟨ciphered, c, m, hc, hm, rfl⟩
  · cases h

theorem macOnlyOne_eq_some {plaintext maced : Bytes} {bsp bsp' : BspInstance}
    (h : macOnlyOne tlv aes tag plaintext bsp = some (maced, bsp')) :
    ∃ m, bsp.mAlgo.auth tlv aes tag plaintext = some (maced, m) ∧
      bsp' = { bsp with
        cAlgo := { bsp.cAlgo with blockNr := bsp.cAlgo.blockNr + 1 }
        mAlgo := m } := by
  unfold macOnlyOne at h
  split at h
  · obtain ⟨⟨maced, m⟩, hm, heq⟩ := Option.bind_eq_some_iff.1 h
    cases heq
    exact ⟨m, hm, rfl⟩
  · cases h

theorem demacAndDecryptOne_undoes (htlv : tlv.Lawful) (haes : aes.Lawful)
    (htag : tag.toNat % 32 ≠ 31) :
    Undoes (demacAndDecryptOne tlv aes) (encryptAndMacOne tlv aes tag) := by
  intro plaintext bsp maced bsp' h
  obtain ⟨ciphered, c, m, hc, hm, rfl⟩ := encryptAndMacOne_eq_some h
  have hlen := (auth_eq_some htlv hm).1
  simp only [demacAndDecryptOne, verify_auth htlv hm, parseOne_payload htlv htag hlen,
    decrypt_encrypt haes hc, Option.bind_eq_bind, Option.bind_some]
  rfl

theorem demacOnlyOne_undoes (htlv : tlv.Lawful) (htag : tag.toNat % 32 ≠ 31) :
    Undoes (demacOnlyOne tlv aes) (macOnlyOne tlv aes tag) := by
  intro plaintext bsp maced bsp' h
  obtain ⟨m, hm, rfl⟩ := macOnlyOne_eq_some h
  have hlen := (auth_eq_some htlv hm).1
  simp only [demacOnlyOne, verify_auth htlv hm, parseOne_payload htlv htag hlen,
    Option.bind_eq_bind, Option.bind_some]
  rfl

/-- What one step does to the counter and the limit. -/
theorem encryptAndMacOne_blockNr {plaintext maced : Bytes} {bsp bsp' : BspInstance}
    (h : encryptAndMacOne tlv aes tag plaintext bsp = some (maced, bsp')) :
    bsp'.cAlgo.blockNr = bsp.cAlgo.blockNr + 1 ∧ bsp'.maxPayloadSize = bsp.maxPayloadSize := by
  obtain ⟨ciphered, c, m, hc, -, rfl⟩ := encryptAndMacOne_eq_some h
  obtain ⟨⟨icv, c₁⟩, hicv, hc'⟩ := Option.bind_eq_some_iff.1 hc
  obtain ⟨data, -, hicv'⟩ := Option.bind_eq_some_iff.1 hicv
  cases hicv'
  cases hc'
  exact ⟨rfl, rfl⟩

theorem macOnlyOne_blockNr {plaintext maced : Bytes} {bsp bsp' : BspInstance}
    (h : macOnlyOne tlv aes tag plaintext bsp = some (maced, bsp')) :
    bsp'.cAlgo.blockNr = bsp.cAlgo.blockNr + 1 ∧ bsp'.maxPayloadSize = bsp.maxPayloadSize := by
  obtain ⟨m, -, rfl⟩ := macOnlyOne_eq_some h
  exact ⟨rfl, rfl⟩

theorem encryptAndMacOne_tlv (htlv : tlv.Lawful) {plaintext maced : Bytes}
    {bsp bsp' : BspInstance} (h : encryptAndMacOne tlv aes tag plaintext bsp = some (maced, bsp')) :
    ∃ value : Bytes, value.length < 2 ^ 32 ∧ maced = Der.tlv tag.toNat value := by
  obtain ⟨ciphered, c, m, -, hm, -⟩ := encryptAndMacOne_eq_some h
  exact auth_tlv htlv hm

theorem macOnlyOne_tlv (htlv : tlv.Lawful) {plaintext maced : Bytes} {bsp bsp' : BspInstance}
    (h : macOnlyOne tlv aes tag plaintext bsp = some (maced, bsp')) :
    ∃ value : Bytes, value.length < 2 ^ 32 ∧ maced = Der.tlv tag.toNat value := by
  obtain ⟨m, hm, -⟩ := macOnlyOne_eq_some h
  exact auth_tlv htlv hm

theorem auth_isSome (htlv : tlv.Lawful) (m : BspAlgoMacAes128) {data : Bytes}
    (hlen : data.length + lMac < 2 ^ 32) : (m.auth tlv aes tag data).isSome := by
  simp only [BspAlgoMacAes128.auth, htlv.encodeLen_eq, if_pos hlen]
  rfl

/-- A segment within the limit is protected, unless the counter does not fit a block. -/
theorem encryptAndMacOne_isSome (htlv : tlv.Lawful) (haes : aes.Lawful) {plaintext : Bytes}
    {bsp : BspInstance} (hlen : plaintext.length ≤ bsp.maxPayloadSize)
    (hsize : bsp.maxPayloadSize ≤ maxSegmentSize) (hnr : bsp.cAlgo.blockNr < 256 ^ blocksize) :
    (encryptAndMacOne tlv aes tag plaintext bsp).isSome := by
  have hicv : bsp.cAlgo.getIcv aes = some (aes.encryptCbc bsp.cAlgo.sEnc
      (List.replicate blocksize 0) (Der.beBytes blocksize bsp.cAlgo.blockNr),
      { bsp.cAlgo with blockNr := bsp.cAlgo.blockNr + 1 }) := by
    unfold BspAlgoCryptAes128.getIcv toBytes
    rw [if_pos hnr]
    rfl
  have hpad := (length_padToMultiple plaintext).2
  have hauth : ∀ iv, (bsp.mAlgo.auth tlv aes tag
      (aes.encryptCbc bsp.cAlgo.sEnc iv (padToMultiple plaintext))).isSome := by
    intro iv
    apply auth_isSome htlv
    rw [haes.length_encrypt]
    unfold lMac
    unfold maxSegmentSize at hsize
    omega
  obtain ⟨maced, hmaced⟩ := Option.isSome_iff_exists.1 (hauth (aes.encryptCbc bsp.cAlgo.sEnc
      (List.replicate blocksize 0) (Der.beBytes blocksize bsp.cAlgo.blockNr)))
  unfold encryptAndMacOne BspAlgoCryptAes128.encrypt
  rw [if_pos hlen, hicv]
  simp only [Option.bind_eq_bind, Option.bind_some, Option.pure_def, hmaced]
  rfl

theorem macOnlyOne_isSome (htlv : tlv.Lawful) {plaintext : Bytes} {bsp : BspInstance}
    (hlen : plaintext.length ≤ bsp.maxPayloadSize)
    (hsize : bsp.maxPayloadSize ≤ maxSegmentSize) :
    (macOnlyOne tlv aes tag plaintext bsp).isSome := by
  have hauth : (bsp.mAlgo.auth tlv aes tag plaintext).isSome := by
    apply auth_isSome htlv
    unfold lMac
    unfold maxSegmentSize at hsize
    omega
  obtain ⟨maced, hmaced⟩ := Option.isSome_iff_exists.1 hauth
  unfold macOnlyOne
  rw [if_pos hlen, hmaced]
  rfl

/-! ## Plaintexts of any length -/

/-- A plaintext that is not empty: the first piece, as long as the limit allows, and the rest. -/
theorem segmentLoop_of_ne (one : Bytes → BspInstance → Option (Bytes × BspInstance)) (n : ℕ)
    {remainder : Bytes} (bsp : BspInstance) (hne : remainder.length ≠ 0) :
    segmentLoop one (n + 1) remainder bsp = (do
      let (tlv, bsp₁) ← one (remainder.take bsp.maxPayloadSize) bsp
      let (result, bsp₂) ← segmentLoop one n (remainder.drop bsp.maxPayloadSize) bsp₁
      return (tlv :: result, bsp₂)) := by
  rw [segmentLoop, if_neg hne]
  rcases Nat.lt_or_ge remainder.length bsp.maxPayloadSize with hlt | hle
  · rw [if_pos hlt, List.take_of_length_le hlt.le, List.drop_of_length_le hlt.le]
  · rw [if_neg (not_lt.2 hle)]

/-- What protecting a plaintext that is not empty does. -/
theorem segmentLoop_eq_some {one : Bytes → BspInstance → Option (Bytes × BspInstance)} {n : ℕ}
    {remainder : Bytes} {bsp bsp' : BspInstance} {result : List Bytes}
    (hne : remainder.length ≠ 0) (hs : segmentLoop one (n + 1) remainder bsp =
      some (result, bsp')) :
    ∃ maced bsp₁ rest, one (remainder.take bsp.maxPayloadSize) bsp = some (maced, bsp₁) ∧
      segmentLoop one n (remainder.drop bsp.maxPayloadSize) bsp₁ = some (rest, bsp') ∧
      result = maced :: rest := by
  rw [segmentLoop_of_ne one n bsp hne] at hs
  obtain ⟨⟨maced, bsp₁⟩, hmaced, hs'⟩ := Option.bind_eq_some_iff.1 hs
  obtain ⟨⟨rest, bsp₂⟩, hrest, heq⟩ := Option.bind_eq_some_iff.1 hs'
  cases heq
  exact ⟨maced, bsp₁, rest, hmaced, hrest, rfl⟩

/-- A plaintext is protected piece by piece, and the pieces make up the plaintext. -/
theorem segmentLoop_all {one : Bytes → BspInstance → Option (Bytes × BspInstance)} {n : ℕ}
    {remainder : Bytes} {bsp bsp' : BspInstance} {result : List Bytes}
    (hs : segmentLoop one n remainder bsp = some (result, bsp')) :
    ∃ pieces, all one pieces bsp = some (result, bsp') ∧ pieces.flatten = remainder := by
  induction n generalizing remainder bsp result with
  | zero => cases hs
  | succ n ih =>
    by_cases hempty : remainder.length = 0
    · rw [segmentLoop, if_pos hempty] at hs
      cases hs
      exact ⟨[], rfl, (List.length_eq_zero_iff.1 hempty).symm⟩
    · obtain ⟨maced, bsp₁, rest, hmaced, hrest, rfl⟩ := segmentLoop_eq_some hempty hs
      obtain ⟨pieces, hall, hflat⟩ := ih hrest
      refine ⟨remainder.take bsp.maxPayloadSize :: pieces,
        all_cons_eq_some.2 ⟨_, _, _, hmaced, hall, rfl⟩, ?_⟩
      rw [List.flatten_cons, hflat, List.take_append_drop]

theorem segmentLoop_undoes {one unone : Bytes → BspInstance → Option (Bytes × BspInstance)}
    (h : Undoes unone one) {n : ℕ} {remainder : Bytes} {bsp bsp' : BspInstance}
    {result : List Bytes} (hs : segmentLoop one n remainder bsp = some (result, bsp')) :
    ∃ pieces, all unone result bsp = some (pieces, bsp') ∧ pieces.flatten = remainder := by
  obtain ⟨pieces, hall, hflat⟩ := segmentLoop_all hs
  exact ⟨pieces, h.all _ _ _ _ hall, hflat⟩

/-- What is true of every object that protects a segment is true of all that protect a
plaintext. -/
theorem segmentLoop_forall {one : Bytes → BspInstance → Option (Bytes × BspInstance)}
    {P : Bytes → Prop} (hone : ∀ segment bsp maced bsp', one segment bsp = some (maced, bsp') →
      P maced) {n : ℕ} {remainder : Bytes} {bsp bsp' : BspInstance} {result : List Bytes}
    (hs : segmentLoop one n remainder bsp = some (result, bsp')) : ∀ x ∈ result, P x := by
  obtain ⟨pieces, hall, -⟩ := segmentLoop_all hs
  exact all_forall hone hall

/-- A segment within the limit is protected while the counter fits a block; the counter goes up
by one. -/
def Advances (one : Bytes → BspInstance → Option (Bytes × BspInstance)) : Prop :=
  ∀ segment bsp, segment.length ≤ bsp.maxPayloadSize → bsp.maxPayloadSize ≤ maxSegmentSize →
    bsp.cAlgo.blockNr < 256 ^ blocksize → ∃ maced bsp', one segment bsp = some (maced, bsp') ∧
      bsp'.cAlgo.blockNr = bsp.cAlgo.blockNr + 1 ∧ bsp'.maxPayloadSize = bsp.maxPayloadSize

theorem encryptAndMacOne_advances (htlv : tlv.Lawful) (haes : aes.Lawful) :
    Advances (encryptAndMacOne tlv aes tag) := by
  intro segment bsp hlen hsize hnr
  have hsome : (encryptAndMacOne tlv aes tag segment bsp).isSome :=
    encryptAndMacOne_isSome htlv haes hlen hsize hnr
  obtain ⟨⟨maced, bsp'⟩, h⟩ := Option.isSome_iff_exists.1 hsome
  exact ⟨maced, bsp', h, encryptAndMacOne_blockNr h⟩

theorem macOnlyOne_advances (htlv : tlv.Lawful) : Advances (macOnlyOne tlv aes tag) := by
  intro segment bsp hlen hsize hnr
  have hsome : (macOnlyOne tlv aes tag segment bsp).isSome := macOnlyOne_isSome htlv hlen hsize
  obtain ⟨⟨maced, bsp'⟩, h⟩ := Option.isSome_iff_exists.1 hsome
  exact ⟨maced, bsp', h, macOnlyOne_blockNr h⟩

/-- A plaintext is protected while the counter fits a block. -/
theorem segmentLoop_isSome {one : Bytes → BspInstance → Option (Bytes × BspInstance)}
    (hone : Advances one) {n : ℕ} {remainder : Bytes} (hn : remainder.length < n)
    {bsp : BspInstance} (hpos : 0 < bsp.maxPayloadSize)
    (hsize : bsp.maxPayloadSize ≤ maxSegmentSize)
    (hnr : bsp.cAlgo.blockNr + remainder.length ≤ 256 ^ blocksize) :
    ∃ result bsp', segmentLoop one n remainder bsp = some (result, bsp') ∧
      bsp'.cAlgo.blockNr ≤ bsp.cAlgo.blockNr + remainder.length ∧
      bsp'.maxPayloadSize = bsp.maxPayloadSize := by
  induction n generalizing remainder bsp with
  | zero => omega
  | succ n ih =>
    by_cases hne : remainder.length = 0
    · rw [segmentLoop, if_pos hne]
      exact ⟨[], bsp, rfl, Nat.le_add_right _ _, rfl⟩
    · have hdrop : (remainder.drop bsp.maxPayloadSize).length = remainder.length -
          bsp.maxPayloadSize := List.length_drop
      obtain ⟨maced, bsp₁, hmaced, hnr₁, hsize₁⟩ :=
        hone _ bsp (List.length_take_le _ remainder) hsize (by omega)
      have hrest : (remainder.drop bsp.maxPayloadSize).length < n := by omega
      have hpos₁ : 0 < bsp₁.maxPayloadSize := by omega
      obtain ⟨rest, bsp₂, hrest, hnr₂, hsize₂⟩ := ih hrest hpos₁ (by omega) (by omega)
      refine ⟨maced :: rest, bsp₂, ?_, by omega, by omega⟩
      rw [segmentLoop_of_ne one n bsp hne]
      simp only [hmaced, hrest, Option.bind_eq_bind, Option.bind_some]
      rfl

end

end BspInstance

/-! ## Sequences of operations -/

open BspInstance

/-- An operation of the sender on a plaintext: whether to encrypt it, and the tag, which takes one
byte. -/
structure Op where
  encrypted : Bool
  tag : UInt8
  plaintext : Bytes
  oneByteTag : tag.toNat % 32 ≠ 31

/-- What the sender does. -/
def Op.send (tlv : Bertlv) (aes : Aes) (op : Op) :
    BspInstance → Option (List Bytes × BspInstance) :=
  if op.encrypted then encryptAndMac tlv aes op.tag op.plaintext
  else macOnly tlv aes op.tag op.plaintext

/-- What the receiver does with the objects that the sender made. -/
def Op.receive (tlv : Bertlv) (aes : Aes) (op : Op) :
    List Bytes → BspInstance → Option (Bytes × BspInstance) :=
  if op.encrypted then demacAndDecrypt tlv aes else demacOnly tlv aes

section

variable {tlv : Bertlv} {aes : Aes}

theorem demacAndDecrypt_encryptAndMac (htlv : tlv.Lawful) (haes : aes.Lawful) {tag : UInt8}
    (htag : tag.toNat % 32 ≠ 31) {plaintext : Bytes} {bsp bsp' : BspInstance}
    {result : List Bytes} (h : encryptAndMac tlv aes tag plaintext bsp = some (result, bsp')) :
    demacAndDecrypt tlv aes result bsp = some (plaintext, bsp') := by
  obtain ⟨pieces, hall, hflat⟩ :=
    segmentLoop_undoes (demacAndDecryptOne_undoes htlv haes htag) h
  simp only [demacAndDecrypt, hall, Option.bind_eq_bind, Option.bind_some, hflat]
  rfl

theorem demacOnly_macOnly (htlv : tlv.Lawful) {tag : UInt8} (htag : tag.toNat % 32 ≠ 31)
    {plaintext : Bytes} {bsp bsp' : BspInstance} {result : List Bytes}
    (h : macOnly tlv aes tag plaintext bsp = some (result, bsp')) :
    demacOnly tlv aes result bsp = some (plaintext, bsp') := by
  obtain ⟨pieces, hall, hflat⟩ := segmentLoop_undoes (demacOnlyOne_undoes htlv htag) h
  simp only [demacOnly, hall, Option.bind_eq_bind, Option.bind_some, hflat]
  rfl

theorem receive_of_send (htlv : tlv.Lawful) (haes : aes.Lawful) {op : Op} {bsp bsp' : BspInstance}
    {result : List Bytes} (h : op.send tlv aes bsp = some (result, bsp')) :
    op.receive tlv aes result bsp = some (op.plaintext, bsp') := by
  unfold Op.send at h
  unfold Op.receive
  split at h
  · rename_i hop
    rw [if_pos hop]
    exact demacAndDecrypt_encryptAndMac htlv haes op.oneByteTag h
  · rename_i hop
    rw [if_neg hop]
    exact demacOnly_macOnly htlv op.oneByteTag h

theorem send_isSome (htlv : tlv.Lawful) (haes : aes.Lawful) (op : Op) {bsp : BspInstance}
    (hpos : 0 < bsp.maxPayloadSize) (hsize : bsp.maxPayloadSize ≤ maxSegmentSize)
    (hnr : bsp.cAlgo.blockNr + op.plaintext.length ≤ 256 ^ blocksize) :
    ∃ result bsp', op.send tlv aes bsp = some (result, bsp') ∧
      bsp'.cAlgo.blockNr ≤ bsp.cAlgo.blockNr + op.plaintext.length ∧
      bsp'.maxPayloadSize = bsp.maxPayloadSize := by
  unfold Op.send
  split
  · exact segmentLoop_isSome (encryptAndMacOne_advances htlv haes) (Nat.lt_succ_self _) hpos hsize
      hnr
  · exact segmentLoop_isSome (macOnlyOne_advances htlv) (Nat.lt_succ_self _) hpos hsize hnr

theorem sends_isSome (htlv : tlv.Lawful) (haes : aes.Lawful) {ops : List Op} {bsp : BspInstance}
    (hpos : 0 < bsp.maxPayloadSize) (hsize : bsp.maxPayloadSize ≤ maxSegmentSize)
    (hnr : bsp.cAlgo.blockNr + (ops.map fun op => op.plaintext.length).sum ≤ 256 ^ blocksize) :
    (all (Op.send tlv aes) ops bsp).isSome := by
  induction ops generalizing bsp with
  | nil => rfl
  | cons op ops ih =>
    rw [List.map_cons, List.sum_cons] at hnr
    obtain ⟨result, bsp₁, h, hnr₁, hsize₁⟩ :=
      send_isSome htlv haes op hpos hsize (by omega)
    have hpos₁ : 0 < bsp₁.maxPayloadSize := by omega
    have hrest := ih hpos₁ (by omega) (by omega)
    obtain ⟨⟨results, bsp₂⟩, hall⟩ := Option.isSome_iff_exists.1 hrest
    exact Option.isSome_iff_exists.2 ⟨_, all_cons_eq_some.2 ⟨_, _, _, h, hall, rfl⟩⟩

theorem new_eq (htlv : tlv.Lawful) (sEnc sMac initialMcv : Bytes) :
    BspInstance.new tlv sEnc sMac initialMcv = some ⟨⟨sEnc, 1⟩, ⟨sMac, initialMcv⟩, 1008⟩ := by
  unfold BspInstance.new
  rw [htlv.encodeLen_eq, if_pos (by decide)]
  rfl

/-- Two new instances with the same keys and initial chaining value, one that protects plaintexts
and one that checks what the first produces. -/
theorem run_new (htlv : tlv.Lawful) (haes : aes.Lawful) (sEnc sMac initialMcv : Bytes)
    (ops : List Op) :
    ∃ bsp steps, BspInstance.new tlv sEnc sMac initialMcv = some bsp ∧
      run (Op.send tlv aes) (Op.receive tlv aes) ops bsp bsp = some steps ∧
      steps.map Prod.fst = (ops.map Op.plaintext).take steps.length ∧
      (∀ step ∈ steps, step.2.1 = step.2.2) ∧
      ((ops.map fun op => op.plaintext.length).sum < 256 ^ blocksize →
        steps.length = ops.length) := by
  have hundoes : ∀ (op : Op) (bsp : BspInstance) (result : List Bytes) (bsp' : BspInstance),
      op.send tlv aes bsp = some (result, bsp') →
        op.receive tlv aes result bsp = some (op.plaintext, bsp') :=
    fun _ _ _ _ => receive_of_send htlv haes
  obtain ⟨steps, hrun, hplain, hsame, hlen⟩ :=
    run_undoes hundoes ops ⟨⟨sEnc, 1⟩, ⟨sMac, initialMcv⟩, 1008⟩
  refine ⟨_, steps, new_eq htlv sEnc sMac initialMcv, hrun, hplain, hsame, fun hsum => hlen ?_⟩
  exact sends_isSome htlv haes (by change 0 < 1008; omega)
    (by change 1008 ≤ 1020; omega) (by rw [Nat.add_comm]; exact hsum)

/-- **Lock-step.** Two instances with the same keys and initial chaining value, one that protects
plaintexts and one that checks what the first produces: the second never fails, recovers every
plaintext, and after every operation both instances are in the same state. Every operation is
carried out as long as the block counter fits a block. -/
theorem bsp_lockStep (htlv : tlv.Lawful) (haes : aes.Lawful) (sEnc sMac initialMcv : Bytes)
    (ops : List Op) :
    ∃ sender receiver steps, BspInstance.new tlv sEnc sMac initialMcv = some sender ∧
      BspInstance.new tlv sEnc sMac initialMcv = some receiver ∧
      run (Op.send tlv aes) (Op.receive tlv aes) ops sender receiver = some steps ∧
      steps.map Prod.fst = (ops.map Op.plaintext).take steps.length ∧
      (∀ step ∈ steps, step.2.1 = step.2.2) ∧
      ((ops.map fun op => op.plaintext.length).sum < 256 ^ blocksize →
        steps.length = ops.length) := by
  obtain ⟨bsp, steps, hnew, hrun⟩ := run_new htlv haes sEnc sMac initialMcv ops
  exact ⟨bsp, bsp, steps, hnew, hnew, hrun⟩

/-- AES as the standard defines it. -/
def aes128 : Aes := ⟨Rijndael.cbcEncrypt, Rijndael.cbcDecrypt, Rijndael.cmac⟩

theorem aes128_lawful : aes128.Lawful where
  decrypt_encrypt key iv data _ := Rijndael.cbcDecrypt_cbcEncrypt key iv data
  length_encrypt := Rijndael.length_cbcEncrypt

/-- A key for encryption. -/
def sampleEnc : Bytes := Der.beBytes 16 0x6af45949974d234aaff68844eb8a5fea

/-- A key for authentication. -/
def sampleMac : Bytes := Der.beBytes 16 0x881c87c691d12254e0cae16263ad3db7

/-- An initial chaining value. -/
def sampleMcv : Bytes := Der.beBytes 16 0x02c1261a88719bd0ace70bda33d6ee49

theorem bsp_lockStep_sample : derBertlv.Lawful ∧ aes128.Lawful ∧
    ∃ sender receiver steps,
      BspInstance.new derBertlv sampleEnc sampleMac sampleMcv = some sender ∧
      BspInstance.new derBertlv sampleEnc sampleMac sampleMcv = some receiver ∧
      run (Op.send derBertlv aes128) (Op.receive derBertlv aes128)
        [⟨true, 0x86, [1, 2, 3], by decide⟩, ⟨false, 0x88, [4], by decide⟩] sender receiver =
        some steps ∧
      steps.map Prod.fst = [[1, 2, 3], [4]].take steps.length ∧
      (∀ step ∈ steps, step.2.1 = step.2.2) ∧
      (([3, 1] : List ℕ).sum < 256 ^ blocksize → steps.length = 2) :=
  ⟨derBertlv_lawful, aes128_lawful, bsp_lockStep derBertlv_lawful aes128_lawful _ _ _ _⟩

end

end VirtualRsp.Smdp
