import VirtualRsp.Card.Invariant
import VirtualRsp.Smdp.BoundPackage

/-!
# Session keys of card and server

Card and server derive the session keys from the same shared secret with functions of their own. The
card takes the first halves of two hashes of the secret and a counter. The server uses the key
derivation of X9.63, which also hashes the shared information, and takes its keys from other places
of the result. They agree only where truncated hashes of different inputs coincide
(`sessionKeys_iff`).
-/

namespace VirtualRsp.Smdp

open Card LockStep BspInstance

/-- The keys that the card stores are the ones that the server derives, and what the server protects
with them is checked and decrypted with the keys of the card. -/
def KeysAgree (lib : Libraries) (env : Env) (euiccOtsk : Vector UInt8 32) (smdpOtpk : Bytes)
    (sharedSecret : Vector UInt8 32) (hostId eid : Bytes) : Prop :=
  ∃ enc mac mcv, deriveSessionKeysEcka env euiccOtsk smdpOtpk = some (enc, mac) ∧
    bspKeyDerivation lib sharedSecret.toList 0x88 16 hostId eid = some (enc, mac, mcv) ∧
    ∀ ops : List Op, ∃ sender receiver steps,
      fromKdf lib sharedSecret.toList 0x88 16 hostId eid = some sender ∧
      BspInstance.new lib.tlv enc mac mcv = some receiver ∧
      run (Op.send lib.tlv lib.aes) (Op.receive lib.tlv lib.aes) ops sender receiver = some steps ∧
      steps.map Prod.fst = (ops.map Op.plaintext).take steps.length ∧
      ((ops.map fun op => op.plaintext.length).sum < 256 ^ blocksize → steps.length = ops.length)

/-- Halves of hashes of different inputs coincide: with the counter 1, the first half without the
shared information and the second half with it; with the counter 2, the first halves without and
with it. -/
def HashesCoincide (sha256 : Bytes → Vector UInt8 32) (sharedSecret info : Bytes) : Prop :=
  (sha256 (sharedSecret ++ [0, 0, 0, 1])).toList.take 16 =
      (sha256 (sharedSecret ++ [0, 0, 0, 1] ++ info)).toList.drop 16 ∧
    (sha256 (sharedSecret ++ [0, 0, 0, 2])).toList.take 16 =
      (sha256 (sharedSecret ++ [0, 0, 0, 2] ++ info)).toList.take 16

variable {lib : Libraries} {env : Env}

/-- The two blocks of 48 bytes. -/
theorem x963_48 (sha256 : Bytes → Vector UInt8 32) (info secret : Bytes) :
    x963 sha256 48 info secret =
      (sha256 (secret ++ [0, 0, 0, 1] ++ info)).toList ++
        (sha256 (secret ++ [0, 0, 0, 2] ++ info)).toList.take 16 := by
  have hlen : (sha256 (secret ++ [0, 0, 0, 1] ++ info)).toList.length = 32 := Vector.length_toList
  change (((sha256 (secret ++ [0, 0, 0, 1] ++ info)).toList ++
    ((sha256 (secret ++ [0, 0, 0, 2] ++ info)).toList ++ [])).take 48) = _
  rw [List.append_nil, List.take_append, List.take_of_length_le (by omega), hlen]

/-- **The server's keys**: the second half of the first hash, and the first half of the second. -/
theorem bspKeyDerivation_eq (htlv : lib.tlv.Lawful) (hkdf : lib.x963kdf = x963 env.sha256)
    (secret hostId eid : Bytes) :
    bspKeyDerivation lib secret 0x88 16 hostId eid =
      if hostId.length < 2 ^ 32 ∧ eid.length < 2 ^ 32 then
        some ((env.sha256 (secret ++ [0, 0, 0, 1] ++ sharedInfo hostId eid)).toList.drop 16,
          (env.sha256 (secret ++ [0, 0, 0, 2] ++ sharedInfo hostId eid)).toList.take 16,
          (env.sha256 (secret ++ [0, 0, 0, 1] ++ sharedInfo hostId eid)).toList.take 16)
      else none := by
  have hlen : (env.sha256 (secret ++ [0, 0, 0, 1] ++ sharedInfo hostId eid)).toList.length = 32 :=
    Vector.length_toList
  unfold bspKeyDerivation
  rw [if_pos (by decide), htlv.encodeLen_eq, htlv.encodeLen_eq, hkdf]
  by_cases hh : hostId.length < 2 ^ 32
  · by_cases he : eid.length < 2 ^ 32
    · rw [if_pos hh, if_pos he, if_pos ⟨hh, he⟩]
      change some (_, _, _) = _
      change some (((x963 env.sha256 48 (sharedInfo hostId eid) secret).drop 16).take 16,
        ((x963 env.sha256 48 (sharedInfo hostId eid) secret).drop 32).take 16,
        (x963 env.sha256 48 (sharedInfo hostId eid) secret).take 16) = _
      rw [x963_48]
      have hdrop : ∀ xs ys : Bytes, xs.length = 32 → ((xs ++ ys).drop 16).take 16 = xs.drop 16 := by
        intro xs ys hxs
        rw [List.drop_append_of_le_length (by omega),
          List.take_left' (by rw [List.length_drop]; omega)]
      have htake : ∀ xs ys : Bytes, xs.length = 32 → (xs ++ ys).take 16 = xs.take 16 := by
        intro xs ys hxs
        rw [List.take_append_of_le_length (by omega)]
      rw [hdrop _ _ hlen, htake _ _ hlen, List.drop_left' hlen, List.take_take]
      rfl
    · have hno : ¬ (hostId.length < 2 ^ 32 ∧ eid.length < 2 ^ 32) := fun h => he h.2
      rw [if_pos hh, if_neg he, if_neg hno]
      rfl
  · have hno : ¬ (hostId.length < 2 ^ 32 ∧ eid.length < 2 ^ 32) := fun h => hh h.1
    rw [if_neg hh, if_neg hno]
    rfl

/-- **The session keys agree** exactly if the identifiers can be encoded and the truncated hashes
coincide. -/
theorem sessionKeys_iff (htlv : lib.tlv.Lawful) (haes : lib.aes.Lawful)
    (hkdf : lib.x963kdf = x963 env.sha256) {euiccOtsk : Vector UInt8 32} {smdpOtpk : Bytes}
    {sharedSecret : Vector UInt8 32} (hlen : smdpOtpk.length = 65) (hform : smdpOtpk[0]? = some 4)
    (hz : env.ecdh euiccOtsk smdpOtpk = some sharedSecret) (hostId eid : Bytes) :
    KeysAgree lib env euiccOtsk smdpOtpk sharedSecret hostId eid ↔
      hostId.length < 2 ^ 32 ∧ eid.length < 2 ^ 32 ∧
        HashesCoincide env.sha256 sharedSecret.toList (sharedInfo hostId eid) := by
  have hcard : deriveSessionKeysEcka env euiccOtsk smdpOtpk =
      some (sessionKdf env.sha256 sharedSecret) := by
    rw [deriveSessionKeysEcka, if_neg (not_not.2 hlen), if_neg (not_not.2 hform), hz]
    rfl
  constructor
  · rintro ⟨enc, mac, mcv, hc, hs, -⟩
    rw [hcard, Option.some.injEq, sessionKdf, Prod.mk.injEq] at hc
    rw [bspKeyDerivation_eq htlv hkdf] at hs
    split_ifs at hs with hfit
    simp only [Option.some.injEq, Prod.mk.injEq] at hs
    exact ⟨hfit.1, hfit.2, hc.1.trans hs.1.symm, hc.2.trans hs.2.1.symm⟩
  · rintro ⟨hh, he, henc, hmac⟩
    have hserver := bspKeyDerivation_eq htlv hkdf sharedSecret.toList hostId eid
    rw [if_pos ⟨hh, he⟩, ← henc, ← hmac] at hserver
    refine ⟨_, _, _, hcard, hserver, fun ops => ?_⟩
    obtain ⟨bsp, steps, hnew, hrun, hplain, -, hall⟩ := run_new htlv haes
      (sessionKdf env.sha256 sharedSecret).1 (sessionKdf env.sha256 sharedSecret).2
      ((env.sha256 (sharedSecret.toList ++ [0, 0, 0, 1] ++ sharedInfo hostId eid)).toList.take 16)
      ops
    refine ⟨bsp, bsp, steps, ?_, hnew, hrun, hplain, hall⟩
    rw [fromKdf, hserver]
    exact hnew

/-! ## Different keys -/

/-- An environment with the hash of the sample package. -/
def sampleKeysEnv : Env := { Card.sampleEnv with sha256 := sampleSha256 }

theorem sessionKeys_iff_sample :
    KeysAgree sampleLib sampleKeysEnv (octets 1) sampleSmdpOtpk (octets sampleX) [0x01] [0x89] ↔
      ([0x01] : Bytes).length < 2 ^ 32 ∧ ([0x89] : Bytes).length < 2 ^ 32 ∧
        HashesCoincide sampleSha256 (octets sampleX).toList (sharedInfo [0x01] [0x89]) :=
  @sessionKeys_iff sampleLib sampleKeysEnv derBertlv_lawful aes128_lawful rfl _ _ _
    (by decide +kernel) (by decide +kernel) rfl _ _

/-- **Card and server derive different keys.** -/
theorem sessionKeys_differ : ¬ KeysAgree sampleLib sampleKeysEnv (octets 1) sampleSmdpOtpk
    (octets sampleX) [0x01] [0x89] := by
  rintro ⟨enc, mac, mcv, hc, hs, -⟩
  have hne : (deriveSessionKeysEcka sampleKeysEnv (octets 1) sampleSmdpOtpk).map Prod.fst ≠
      (bspKeyDerivation sampleLib (octets sampleX).toList 0x88 16 [0x01] [0x89]).map Prod.fst := by
    decide +kernel
  rw [hc, hs] at hne
  exact hne rfl

end VirtualRsp.Smdp
