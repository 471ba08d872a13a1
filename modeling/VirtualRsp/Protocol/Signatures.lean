import Mathlib.Tactic.NormNum
import VirtualRsp.Card.Crypto
import VirtualRsp.Smdp.Bsp

/-!
# Signatures of the card and of the server

ECDSA signatures travel as 64 bytes, `r` and `s` in 32 bytes each. The card gets a DER signature
from OpenSSL and writes the two numbers right-aligned into a block of zeros (`writeSignature`); the
server converts with integers of a fixed width (`ecdsaTr03111ToDss`, `ecdsaDssToTr03111`). OpenSSL
and the server's DSS encoding are parameters.

Both sides write the same bytes for a signature, and the server reads the same numbers back
(`ecdsa_interop`).
-/

namespace VirtualRsp.Signatures

/-! ## The card -/

/-- What the card uses of OpenSSL. A result of `none` is a failure. -/
structure OpenSsl where
  /-- The DER signature over the data. -/
  evpDigestSign : Bytes → Option Bytes
  d2iEcdsaSig : Bytes → Option (ℕ × ℕ)
  bnNumBytes : ℕ → ℕ
  bnBn2bin : ℕ → Bytes

/-- A number is written in big-endian form, in the least number of bytes that it takes. -/
structure OpenSsl.Lawful (ssl : OpenSsl) : Prop where
  length_bnBn2bin : ∀ n, (ssl.bnBn2bin n).length = ssl.bnNumBytes n
  ofBe_bnBn2bin : ∀ n, Der.ofBe 0 (ssl.bnBn2bin n) = n
  bnNumBytes_le : ∀ n k, n < 256 ^ k → ssl.bnNumBytes n ≤ k

/-- Write at an offset that may lie before the start of the block. -/
def storeAt (block : Bytes) (offset : ℤ) (xs : Bytes) : Option Bytes :=
  if 0 ≤ offset then store block offset.toNat xs else none

/-- The 64 bytes of a signature: a field of 32 bytes for each number, the number at its end. -/
def writeSignature (ssl : OpenSsl) (r s : ℕ) : Option Bytes := do
  let signature := List.replicate 64 0
  let rLen := ssl.bnNumBytes r
  let signature ← storeAt signature (32 - rLen) (ssl.bnBn2bin r)
  let sLen := ssl.bnNumBytes s
  storeAt signature (32 + (32 - sLen)) (ssl.bnBn2bin s)

/-- Sign with ECDSA and convert the signature. The outer `none` is a write outside of the
signature. -/
def ecdsaSign (ssl : OpenSsl) (data : Bytes) : Option (Option Bytes) :=
  match ssl.evpDigestSign data with
  | none => some none
  | some derSignature =>
    match ssl.d2iEcdsaSig derSignature with
    | none => some none
    | some (r, s) => (writeSignature ssl r s).map some

/-! ## The server -/

/-- The DSS signatures of the server's library. -/
structure Dss where
  encodeDssSignature (r s : ℕ) : Bytes
  decodeDssSignature : Bytes → Option (ℕ × ℕ)

/-- Decoding inverts encoding. -/
def Dss.Lawful (dss : Dss) : Prop :=
  ∀ r s, r < 2 ^ 256 → s < 2 ^ 256 →
    dss.decodeDssSignature (dss.encodeDssSignature r s) = some (r, s)

/-- Convert the 64 bytes of a signature into a DSS signature. -/
def ecdsaTr03111ToDss (dss : Dss) (sig : Bytes) : Option Bytes :=
  if sig.length = 64 then
    let r := Der.ofBe 0 (sig.take 32)
    let s := Der.ofBe 0 ((sig.drop 32).take 32)
    some (dss.encodeDssSignature r s)
  else none

/-- Convert a DSS signature into 64 bytes. -/
def ecdsaDssToTr03111 (dss : Dss) (sig : Bytes) : Option Bytes := do
  let (r, s) ← dss.decodeDssSignature sig
  return (← Smdp.toBytes r 32) ++ (← Smdp.toBytes s 32)

/-! ## Both write the same bytes -/

theorem pow_256_32 : (256 : ℕ) ^ 32 = 2 ^ 256 := by norm_num

/-- A number right-aligned in zeros is the number in a fixed width. -/
theorem replicate_append_bnBn2bin {ssl : OpenSsl} (hssl : ssl.Lawful) {n k : ℕ}
    (hn : n < 256 ^ k) :
    List.replicate (k - ssl.bnNumBytes n) 0 ++ ssl.bnBn2bin n = Der.beBytes k n := by
  have hle := hssl.bnNumBytes_le n k hn
  have hlen : (List.replicate (k - ssl.bnNumBytes n) 0 ++ ssl.bnBn2bin n).length = k := by
    rw [List.length_append, List.length_replicate, hssl.length_bnBn2bin]
    omega
  have hbytes := Der.beBytes_ofBe 0 (List.replicate (k - ssl.bnNumBytes n) 0 ++ ssl.bnBn2bin n)
  rw [hlen, Der.ofBe_replicate_zero, hssl.ofBe_bnBn2bin] at hbytes
  exact hbytes.symm

/-- Writing a number at the end of a field of zeros. -/
theorem storeAt_field {ssl : OpenSsl} (hssl : ssl.Lawful) {n k : ℕ} (hn : n < 256 ^ k)
    (before rest : Bytes) :
    storeAt (before ++ List.replicate k 0 ++ rest) (before.length + (k - ssl.bnNumBytes n))
        (ssl.bnBn2bin n) = some (before ++ Der.beBytes k n ++ rest) := by
  have hle := hssl.bnNumBytes_le n k hn
  have hoff : ((before.length : ℤ) + (k - ssl.bnNumBytes n)).toNat =
      (before ++ List.replicate (k - ssl.bnNumBytes n) 0).length := by
    rw [List.length_append, List.length_replicate]
    omega
  have hzeros : before ++ List.replicate k 0 ++ rest =
      before ++ List.replicate (k - ssl.bnNumBytes n) 0 ++
        List.replicate (ssl.bnNumBytes n) 0 ++ rest := by
    rw [List.append_assoc before (List.replicate (k - ssl.bnNumBytes n) 0),
      List.replicate_append_replicate, Nat.sub_add_cancel hle]
  have hlen : (ssl.bnBn2bin n).length = (List.replicate (ssl.bnNumBytes n) (0 : UInt8)).length := by
    rw [hssl.length_bnBn2bin, List.length_replicate]
  rw [storeAt, if_pos (by omega), hoff, hzeros, store_over rfl hlen, List.append_assoc before,
    replicate_append_bnBn2bin hssl hn]

/-- **The card's signature** is the two numbers in 32 bytes each. -/
theorem writeSignature_eq {ssl : OpenSsl} (hssl : ssl.Lawful) {r s : ℕ} (hr : r < 256 ^ 32)
    (hs : s < 256 ^ 32) :
    writeSignature ssl r s = some (Der.beBytes 32 r ++ Der.beBytes 32 s) := by
  have hr' := storeAt_field hssl hr [] (List.replicate 32 0)
  have hs' := storeAt_field hssl hs (Der.beBytes 32 r) []
  simp only [List.length_nil, List.nil_append, List.append_nil, List.replicate_append_replicate,
    Der.length_beBytes, Nat.cast_zero, Int.zero_add, Nat.cast_ofNat] at hr' hs'
  simp only [writeSignature, hr', hs', Option.bind_eq_bind, Option.bind_some]

/-- The conversion that the model of the card carries out in one step. -/
theorem ecdsaSign_eq_card {ssl : OpenSsl} (hssl : ssl.Lawful) {env : Card.Env}
    {key : Card.PrivateKey} {data : Bytes}
    (hsign : env.sign key data = (ssl.evpDigestSign data).bind ssl.d2iEcdsaSig)
    (hlt : ∀ r s, env.sign key data = some (r, s) → r < 256 ^ 32 ∧ s < 256 ^ 32) :
    ecdsaSign ssl data = Card.ecdsaSign env data key := by
  unfold ecdsaSign Card.ecdsaSign
  cases hder : ssl.evpDigestSign data with
  | none =>
    rw [hder, Option.bind_none] at hsign
    rw [hsign]
  | some der =>
    rw [hder, Option.bind_some] at hsign
    cases hsig : ssl.d2iEcdsaSig der with
    | none => simp only [hsign, hsig]
    | some sig =>
      obtain ⟨r, s⟩ := sig
      rw [hsig] at hsign
      have hrs := hlt r s hsign
      simp only [hsign, hsig, writeSignature_eq hssl hrs.1 hrs.2, if_pos hrs, Option.map_some]

theorem ofBe_beBytes_32 {n : ℕ} (hn : n < 256 ^ 32) : Der.ofBe 0 (Der.beBytes 32 n) = n := by
  rw [Der.ofBe_beBytes, Nat.zero_mul, Nat.zero_add, Nat.mod_eq_of_lt hn]

theorem ecdsaTr03111ToDss_eq (dss : Dss) {r s : ℕ} (hr : r < 256 ^ 32) (hs : s < 256 ^ 32) :
    ecdsaTr03111ToDss dss (Der.beBytes 32 r ++ Der.beBytes 32 s) =
      some (dss.encodeDssSignature r s) := by
  have hlen : (Der.beBytes 32 r ++ Der.beBytes 32 s).length = 64 := by
    rw [List.length_append, Der.length_beBytes, Der.length_beBytes]
  have hdrop : ((Der.beBytes 32 r ++ Der.beBytes 32 s).drop 32).take 32 = Der.beBytes 32 s := by
    rw [List.drop_left' (Der.length_beBytes 32 r),
      List.take_of_length_le (Der.length_beBytes 32 s).le]
  simp only [ecdsaTr03111ToDss, if_pos hlen, hdrop, List.take_left' (Der.length_beBytes 32 r),
    ofBe_beBytes_32 hr, ofBe_beBytes_32 hs]

theorem ecdsaDssToTr03111_eq {dss : Dss} (hdss : dss.Lawful) {r s : ℕ} (hr : r < 256 ^ 32)
    (hs : s < 256 ^ 32) : ecdsaDssToTr03111 dss (dss.encodeDssSignature r s) =
      some (Der.beBytes 32 r ++ Der.beBytes 32 s) := by
  have hdecode := hdss r s (pow_256_32 ▸ hr) (pow_256_32 ▸ hs)
  simp only [ecdsaDssToTr03111, hdecode, Smdp.toBytes, if_pos hr, if_pos hs, Option.bind_eq_bind,
    Option.bind_some]
  rfl

/-- **Signatures of both sides agree.** For a signature `(r, s)`, the server reads the numbers
from the bytes that the card writes, and writes the same bytes for them. -/
theorem ecdsa_interop {ssl : OpenSsl} (hssl : ssl.Lawful) {dss : Dss} (hdss : dss.Lawful)
    {data der : Bytes} {r s : ℕ} (hr : 1 ≤ r ∧ r < 2 ^ 256) (hs : 1 ≤ s ∧ s < 2 ^ 256)
    (hsign : ssl.evpDigestSign data = some der) (hder : ssl.d2iEcdsaSig der = some (r, s)) :
    ∃ signature, ecdsaSign ssl data = some (some signature) ∧ signature.length = 64 ∧
      ecdsaTr03111ToDss dss signature = some (dss.encodeDssSignature r s) ∧
      dss.decodeDssSignature (dss.encodeDssSignature r s) = some (r, s) ∧
      ecdsaDssToTr03111 dss (dss.encodeDssSignature r s) = some signature := by
  have hr' : r < 256 ^ 32 := pow_256_32 ▸ hr.2
  have hs' : s < 256 ^ 32 := pow_256_32 ▸ hs.2
  refine ⟨Der.beBytes 32 r ++ Der.beBytes 32 s, ?_, ?_, ecdsaTr03111ToDss_eq dss hr' hs',
    hdss r s hr.2 hs.2, ecdsaDssToTr03111_eq hdss hr' hs'⟩
  · simp only [ecdsaSign, hsign, hder, writeSignature_eq hssl hr' hs', Option.map_some]
  · rw [List.length_append, Der.length_beBytes, Der.length_beBytes]

/-! ## DER signatures -/

/-- The content of an INTEGER that is not negative. -/
def integerOctets (n : ℕ) : Bytes :=
  if (Der.beBytes (Der.byteLen n) n).headD 0 < 128 then Der.beBytes (Der.byteLen n) n
  else 0 :: Der.beBytes (Der.byteLen n) n

theorem ofBe_integerOctets (n : ℕ) : Der.ofBe 0 (integerOctets n) = n := by
  have hoctets : Der.ofBe 0 (Der.beBytes (Der.byteLen n) n) = n := by
    rw [Der.ofBe_beBytes, Nat.zero_mul, Nat.zero_add, Nat.mod_eq_of_lt (Der.lt_pow_byteLen n)]
  unfold integerOctets
  split
  · exact hoctets
  · exact (Der.ofBe_replicate_zero 1 _).trans hoctets

theorem length_integerOctets_le {n : ℕ} (hn : n < 2 ^ 256) : (integerOctets n).length ≤ 33 := by
  have hle : Der.byteLen n ≤ 32 := Der.byteLen_le (by omega) (pow_256_32 ▸ hn)
  unfold integerOctets
  split
  · rw [Der.length_beBytes]
    omega
  · rw [List.length_cons, Der.length_beBytes]
    omega

/-- A library that writes and reads `ECDSA-Sig-Value`. -/
def derDss : Dss where
  encodeDssSignature r s :=
    Der.tlv 0x30 (Der.tlv 0x02 (integerOctets r) ++ Der.tlv 0x02 (integerOctets s))
  decodeDssSignature bs := do
    let (tag, content, _, rest) ← Smdp.readObject bs
    let (rTag, r, _, content) ← Smdp.readObject content
    let (sTag, s, _, content) ← Smdp.readObject content
    if tag = 0x30 ∧ rTag = 0x02 ∧ sTag = 0x02 ∧ rest = [] ∧ content = [] then
      some (Der.ofBe 0 r, Der.ofBe 0 s)
    else none

theorem derDss_lawful : derDss.Lawful := by
  intro r s hr hs
  have hrlen := length_integerOctets_le hr
  have hslen := length_integerOctets_le hs
  have hcontent : (Der.tlv 0x02 (integerOctets r) ++ Der.tlv 0x02 (integerOctets s)).length <
      2 ^ 32 := by
    have hr' := Der.length_tlv_le 0x02 (by omega : (integerOctets r).length < 2 ^ 32)
    have hs' := Der.length_tlv_le 0x02 (by omega : (integerOctets s).length < 2 ^ 32)
    rw [List.length_append]
    omega
  have hseq := Smdp.readObject_tlv (by decide : Der.IsTag 0x30) hcontent []
  have hread := Smdp.readObject_tlv (by decide : Der.IsTag 0x02)
    (by omega : (integerOctets r).length < 2 ^ 32) (Der.tlv 0x02 (integerOctets s))
  have hread' := Smdp.readObject_tlv (by decide : Der.IsTag 0x02)
    (by omega : (integerOctets s).length < 2 ^ 32) []
  rw [List.append_nil] at hseq hread'
  simp only [derDss, hseq, hread, hread', Option.bind_eq_bind, Option.bind_some, and_self, if_true,
    ofBe_integerOctets]

/-- OpenSSL, where a signature over any data is `(1, 2)`. -/
def sampleSsl : OpenSsl where
  evpDigestSign _ := some (derDss.encodeDssSignature 1 2)
  d2iEcdsaSig := derDss.decodeDssSignature
  bnNumBytes n := if n = 0 then 0 else Der.byteLen n
  bnBn2bin n := Der.beBytes (if n = 0 then 0 else Der.byteLen n) n

theorem sampleSsl_lawful : sampleSsl.Lawful where
  length_bnBn2bin n := Der.length_beBytes _ n
  ofBe_bnBn2bin n := by
    change Der.ofBe 0 (Der.beBytes (if n = 0 then 0 else Der.byteLen n) n) = n
    split
    · rename_i hzero
      rw [hzero]
      rfl
    · rw [Der.ofBe_beBytes, Nat.zero_mul, Nat.zero_add, Nat.mod_eq_of_lt (Der.lt_pow_byteLen n)]
  bnNumBytes_le n k hn := by
    change (if n = 0 then 0 else Der.byteLen n) ≤ k
    split
    · exact Nat.zero_le k
    · rename_i hne
      apply Der.byteLen_le _ hn
      by_contra hk
      have hzero : k = 0 := by omega
      rw [hzero, Nat.pow_zero] at hn
      omega

theorem ecdsa_interop_sample :
    ∃ signature, ecdsaSign sampleSsl [] = some (some signature) ∧ signature.length = 64 ∧
      ecdsaTr03111ToDss derDss signature = some (derDss.encodeDssSignature 1 2) ∧
      derDss.decodeDssSignature (derDss.encodeDssSignature 1 2) = some (1, 2) ∧
      ecdsaDssToTr03111 derDss (derDss.encodeDssSignature 1 2) = some signature :=
  ecdsa_interop sampleSsl_lawful derDss_lawful ⟨by norm_num, by norm_num⟩
    ⟨by norm_num, by norm_num⟩ rfl (derDss_lawful 1 2 (by norm_num) (by norm_num))

end VirtualRsp.Signatures
