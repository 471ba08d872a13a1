import VirtualRsp.Card.State

/-!
# Cryptography of the card

The card's wrappers around OpenSSL: raw ECDSA signatures and the derivation of the session keys.
-/

namespace VirtualRsp.Card

/-- Sign with ECDSA and convert the signature to 64 bytes, `r` and `s` padded to 32 bytes each.
A number of more than 32 bytes would be written before the start of its field. -/
def ecdsaSign (env : Env) (data : Bytes) (privateKey : PrivateKey) : Option (Option Bytes) :=
  match env.sign privateKey data with
  | none => some none
  | some (r, s) =>
    if r < 256 ^ 32 ∧ s < 256 ^ 32 then some (some (Der.beBytes 32 r ++ Der.beBytes 32 s))
    else none

theorem length_ecdsaSign {env : Env} {data sig : Bytes} {key : PrivateKey}
    (h : ecdsaSign env data key = some (some sig)) : sig.length = 64 := by
  rw [ecdsaSign] at h
  split at h
  · cases h
  · simp only [Option.ite_none_right_eq_some, Option.some.injEq] at h
    obtain ⟨-, rfl⟩ := h
    simp

/-- The key derivation of the card from the shared secret: the first 16 bytes of the hashes with
the counters 1 and 2. -/
def sessionKdf (sha256 : Bytes → Vector UInt8 32) (sharedSecret : Vector UInt8 32) :
    Bytes × Bytes :=
  ((sha256 (sharedSecret.toList ++ [0x00, 0x00, 0x00, 0x01])).toList.take 16,
    (sha256 (sharedSecret.toList ++ [0x00, 0x00, 0x00, 0x02])).toList.take 16)

/-- The encryption key and the MAC key from the card's one-time private key and the server's
one-time public key. -/
def deriveSessionKeysEcka (env : Env) (euiccOtsk : Vector UInt8 32) (smdpOtpk : Bytes) :
    Option (Bytes × Bytes) :=
  if smdpOtpk.length ≠ 65 then none
  else if smdpOtpk[0]? ≠ some 0x04 then none
  else (env.ecdh euiccOtsk smdpOtpk).map (sessionKdf env.sha256)

/-! ## Two key pairs of P-256

What the samples of this development use of the curve: the base point and its double. -/

theorem size_beBytes_32 (n : ℕ) : (Der.beBytes 32 n).toArray.size = 32 := by
  rw [List.size_toArray, Der.length_beBytes]

/-- The 32 octets of a number. -/
def octets (n : ℕ) : Vector UInt8 32 := ⟨(Der.beBytes 32 n).toArray, size_beBytes_32 n⟩

/-- A point in uncompressed form. -/
def uncompressed (x y : ℕ) : Vector UInt8 65 :=
  ⟨(4 :: Der.beBytes 32 x ++ Der.beBytes 32 y).toArray, by simp [Der.length_beBytes]⟩

/-- The first coordinate of the base point of P-256. -/
def sampleX : ℕ := 0x6b17d1f2e12c4247f8bce6e563a440f277037d812deb33a0f4a13945d898c296

/-- The first coordinate of its double. -/
def sampleX2 : ℕ := 0x7cf27b188d034f7e8a52380304b51ac3c08969e277f21b35a60b48fc47669978

/-- The public keys of the private keys 1 and 2: the base point and its double. -/
def samplePublicKey (priv : Vector UInt8 32) : Vector UInt8 65 :=
  if priv = octets 1 then
    uncompressed sampleX 0x4fe342e2fe1a7f9b8ee7eb4a7c0f9e162bce33576b315ececbb6406837bf51f5
  else uncompressed sampleX2 0x07775510db8ed040293d9ac69f7430dbba7dade63ce982299e04b79d227873d1

/-- The server's one-time key: the base point. -/
def sampleSmdpOtpk : Bytes := (samplePublicKey (octets 1)).toList

/-- What the private keys 1 and 2 share with the base point. -/
def sampleEcdh (priv : Vector UInt8 32) (point : Bytes) : Option (Vector UInt8 32) :=
  if point ≠ sampleSmdpOtpk then none
  else if priv = octets 1 then some (octets sampleX)
  else if priv = octets 2 then some (octets sampleX2)
  else none

/-- SHA-256 of these secrets, each with the counters 1 and 2. -/
def sampleDigest (bs : Bytes) : Vector UInt8 32 :=
  if bs = (octets sampleX).toList ++ [0, 0, 0, 1] then
    octets 0xfe9ae8c97bb0c34afb95e52f5e19819e22550030665612f2d04a954e969599ca
  else if bs = (octets sampleX).toList ++ [0, 0, 0, 2] then
    octets 0xe5c8b8c81208fc7e463307e076fb878344a587e81bb49b60704496eeb901e84c
  else if bs = (octets sampleX2).toList ++ [0, 0, 0, 1] then
    octets 0x3d81d61236780ab7006ebba59e61b13f2db3694db23b1bd173b9e3f8bec910bf
  else if bs = (octets sampleX2).toList ++ [0, 0, 0, 2] then
    octets 0xc3d346883432213f0f430977565c661a6f7ae43c8059b1fcef83cd36be643a49
  else octets 0

end VirtualRsp.Card
