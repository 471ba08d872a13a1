import Mathlib.Data.List.Dedup
import VirtualRsp.Foundations.Der

/-!
# Certificates at the server

The server checks chains of certificates (`CertificateSet`) and whether the identifier of a card
lies in the range of its manufacturer (`validateEidRange`). The X.509 library is a parameter
(`X509`); what raises is `none`.

* `Chain`: a certificate whose signatures lead to the root.
* `chain_of_verifyCertChain`: what `verifyCertChain` accepts is such a chain.
-/

namespace VirtualRsp.Smdp

/-- The X.509 library. What a certificate does not have, or not in a readable form, is `none`. -/
structure X509 (Cert : Type) where
  loadDerX509Certificate : List UInt8 → Option Cert
  publicBytes : Cert → List UInt8
  subjectKeyIdentifier : Cert → Option (List UInt8)
  /-- The key identifier in the extension for the authority's key, which may be without one. -/
  authorityKeyIdentifier : Cert → Option (Option (List UInt8))
  /-- The identifiers of the certificate's policies. -/
  certificatePolicies : Cert → Option (List String)
  /-- Whether the key may sign certificates, and revocation lists. -/
  keyUsage : Cert → Option (Bool × Bool)
  /-- Whether the first certificate carries a signature by the key of the second. -/
  verify : Cert → Cert → Bool
  /-- The serial number in the name of the subject. -/
  serialNumber : Cert → Option String
  /-- The serial numbers in the names that the certificate permits. -/
  permittedSerialNumbers : Cert → List String
  /-- The strings of the extension for permitted EINs. -/
  permittedEins : Cert → List String
  /-- `str.upper` and `str.strip`. -/
  upper : String → String
  strip : String → String

variable {Cert : Type}

/-! ## Chains -/

/-- The signatures of a certificate lead to the root, directly or by way of the intermediate
certificates. -/
inductive Chain (x : X509 Cert) (root : Cert) (intermediates : List Cert) : Cert → Prop
  | root {c : Cert} (h : x.verify c root = true) : Chain x root intermediates c
  | step {c parent : Cert} (hmem : parent ∈ intermediates) (h : x.verify c parent = true)
      (hchain : Chain x root intermediates parent) : Chain x root intermediates c

/-- The policy of a root. -/
def idRspRoleCi : String := "2.23.146.1.2.1.0"

/-- Whether a certificate has a policy. -/
def certPolicyHasOid (x : X509 Cert) (cert : Cert) (oid : String) : Option Bool :=
  (x.certificatePolicies cert).map fun policies => policies.contains oid

/-- A root, and intermediate certificates by their key identifiers. -/
structure CertificateSet (Cert : Type) where
  rootCert : Cert
  intermediateCerts : List (List UInt8 × Cert)

namespace CertificateSet

/-- A set with a root and nothing else. -/
def new (x : X509 Cert) (rootCert : Cert) : Option (CertificateSet Cert) := do
  guard (x.verify rootCert rootCert)
  guard (← certPolicyHasOid x rootCert idRspRoleCi)
  let (keyCertSign, crlSign) ← x.keyUsage rootCert
  guard keyCertSign
  guard crlSign
  return ⟨rootCert, []⟩

/-- Add an intermediate certificate. -/
def addIntermediateCert (x : X509 Cert) (cs : CertificateSet Cert) (cert : Cert) :
    Option (CertificateSet Cert) := do
  let (keyCertSign, _) ← x.keyUsage cert
  guard keyCertSign
  let aki ← x.authorityKeyIdentifier cert
  let ski ← x.subjectKeyIdentifier cert
  guard (aki ≠ some ski)
  return { cs with
    intermediateCerts := (ski, cert) :: cs.intermediateCerts.filter fun c => c.1 ≠ ski }

/-- The outcome of a check: the chain is good, or a `VerifyError`, or another exception. -/
inductive Verification
  | verified
  | verifyError
  | exception
  deriving DecidableEq

/-- The rounds of `verify_cert_chain`. -/
def verifyLoop (x : X509 Cert) (cs : CertificateSet Cert) : ℕ → Cert → Verification
  | 0, _ => .verifyError
  | n + 1, c =>
    match x.authorityKeyIdentifier c, x.subjectKeyIdentifier cs.rootCert with
    | some aki, some rootCertId =>
      if aki = some rootCertId then
        if x.verify c cs.rootCert then .verified else .exception
      else
        match aki.bind fun aki => cs.intermediateCerts.lookup aki with
        | none => .verifyError
        | some parentCert =>
          if x.verify c parentCert then verifyLoop x cs n parentCert else .exception
    | _, _ => .exception

/-- Check a certificate's chain, at most 100 certificates long. -/
def verifyCertChain (x : X509 Cert) (cs : CertificateSet Cert) (cert : Cert) : Verification :=
  verifyLoop x cs 100 cert

/-- **What is accepted is a chain.** -/
theorem chain_of_verifyCertChain {x : X509 Cert} {cs : CertificateSet Cert} {cert : Cert}
    (h : cs.verifyCertChain x cert = .verified) :
    Chain x cs.rootCert (cs.intermediateCerts.map Prod.snd) cert := by
  unfold verifyCertChain at h
  generalize 100 = n at h
  induction n generalizing cert with
  | zero => cases h
  | succ n ih =>
    unfold verifyLoop at h
    split at h
    · split_ifs at h with haki hroot
      · exact .root hroot
      · split at h
        · cases h
        · rename_i parentCert hparent
          split_ifs at h with hverify
          refine .step ?_ hverify (ih h)
          obtain ⟨keyId, -, hparent⟩ := Option.bind_eq_some_iff.1 hparent
          obtain ⟨before, after, hmem, -⟩ := List.lookup_eq_some_iff.1 hparent
          rw [hmem]
          simp
    · cases h

theorem new_eq {x : X509 Cert} {rootCert : Cert} {cs : CertificateSet Cert}
    (h : new x rootCert = some cs) : cs = ⟨rootCert, []⟩ := by
  unfold new at h
  obtain ⟨_, -, h⟩ := Option.bind_eq_some_iff.1 h
  obtain ⟨_, -, h⟩ := Option.bind_eq_some_iff.1 h
  obtain ⟨_, -, h⟩ := Option.bind_eq_some_iff.1 h
  obtain ⟨⟨keyCertSign, crlSign⟩, -, h⟩ := Option.bind_eq_some_iff.1 h
  obtain ⟨_, -, h⟩ := Option.bind_eq_some_iff.1 h
  obtain ⟨_, -, h⟩ := Option.bind_eq_some_iff.1 h
  exact (Option.some.inj h).symm

theorem addIntermediateCert_eq {x : X509 Cert} {cs cs' : CertificateSet Cert} {cert : Cert}
    (h : cs.addIntermediateCert x cert = some cs') :
    ∃ ski, cs' = { cs with
      intermediateCerts := (ski, cert) :: cs.intermediateCerts.filter fun c => c.1 ≠ ski } := by
  unfold addIntermediateCert at h
  obtain ⟨⟨keyCertSign, _⟩, -, h⟩ := Option.bind_eq_some_iff.1 h
  obtain ⟨_, -, h⟩ := Option.bind_eq_some_iff.1 h
  obtain ⟨aki, -, h⟩ := Option.bind_eq_some_iff.1 h
  obtain ⟨ski, -, h⟩ := Option.bind_eq_some_iff.1 h
  obtain ⟨_, -, h⟩ := Option.bind_eq_some_iff.1 h
  exact ⟨ski, (Option.some.inj h).symm⟩

end CertificateSet

/-! ## Ranges of identifiers -/

/-- The first policy that tells which form the certificate has. -/
def getEumCertificateVariant (x : X509 Cert) (eumCert : Cert) : Option String :=
  ((x.certificatePolicies eumCert).getD []).findSome? fun policyOid =>
    if policyOid = "2.23.146.1.2.1.2" then some "O"
    else if policyOid = "2.23.146.1.2.1.0.0.0" then some "NEW"
    else none

/-- The form of an issuer's number: eight hexadecimal digits. -/
def isIin (s : String) : Bool :=
  s.length = 8 && s.toList.all fun c => c ∈ "0123456789ABCDEF".toList

/-- The prefixes that a certificate permits. -/
def parsePermittedEinsFromCert (x : X509 Cert) (eumCert : Cert) : List String :=
  let permittedIins :=
    if getEumCertificateVariant x eumCert = some "O" then
      (x.permittedSerialNumbers eumCert).map x.upper
    else (x.permittedEins eumCert).map fun s => x.upper (x.strip s)
  (permittedIins.filter isIin).dedup

/-- Whether an identifier begins with one of them. -/
def validateEidRange (x : X509 Cert) (eid : String) (eumCert : Cert) : Bool :=
  eid.length = 32 && (parsePermittedEinsFromCert x eumCert).any fun permittedEin =>
    permittedEin.toList.isPrefixOf (x.upper eid).toList

/-! ## Five certificates

What the samples of this development use: the certificates of a CI, of a manufacturer, of its card,
and two of a server, by their numbers. -/

/-- The public keys, which are the first multiples of the base point of P-256. -/
def sampleKeys : List (ℕ × ℕ) :=
  [(0x6b17d1f2e12c4247f8bce6e563a440f277037d812deb33a0f4a13945d898c296,
     0x4fe342e2fe1a7f9b8ee7eb4a7c0f9e162bce33576b315ececbb6406837bf51f5),
    (0x7cf27b188d034f7e8a52380304b51ac3c08969e277f21b35a60b48fc47669978,
     0x07775510db8ed040293d9ac69f7430dbba7dade63ce982299e04b79d227873d1),
    (0x5ecbe4d1a6330a44c8f7ef951d4bf165e6c6b721efada985fb41661bc6e7fd6c,
     0x8734640c4998ff7e374b06ce1a64a2ecd82ab036384fb83d9a79b127a27d5032),
    (0xe2534a3532d08fbba02dde659ee62bd0031fe2db785596ef509302446b030852,
     0xe0f1575a4c633cc719dfee5fda862d764efc96c3f30ee0055c42c23f184ed8c6),
    (0x51590b7a515140d2d784c85608668fdfef8c82fd1f5be52421554a0dc3d033ed,
     0xe0c17da8904a727d8ae1bf36bf8a79260d012f00d4d80888d1d0bb44fda16da4)]

/-- The signatures of the certificates. -/
def sampleCertificateSignatures : List (ℕ × ℕ) :=
  [(0x1928d89e868ff66e6b24a0b4e0fdd8fa3e3a8b58a4eff381a7a7b50176d53663,
     0x5e9ac4f41cbfcd4e3507242b532b6a8ee3e75c0667469c624be340b16c8c9376),
    (0x3aee87e29bf739fa4d3af7fe024e4a711f6fde374ab24a0af4ad830300ecd422,
     0x3dc37ff7b686e0eb8c1bbe9a2c0312cd1cf8e52704e4e0c704394abbf6c9ea4a),
    (0x7f6d3d19d45543da01bb9d54657b2478e70e6646ff42fcdc0811335cdbb165ae,
     0x3b06389935358483f6d2dff395b65eab07dec97985dd328fde89fc0aed76ce65),
    (0x42d41948d69e44d9bea3664bcdff0168c50cf1bb79ac5e6bd8270a0929bc5aa0,
     0x41f3f5bc750f4694b446550d2f93b163306b72cc45fb14915287c247217d7122),
    (0x106f28a7ac9ef1002d39f8dedf55343718232f0d0bd2bf490413e60fca7d74b8,
     0x52390245e600c1a3e9a6e855558ebe04fbf6659d8f827abcb4974818fc03098f)]

/-- The identifier of a card, and the prefix that its manufacturer may use. -/
def sampleEid : String := "89049032123451234512345678901235"

def sampleIin : String := "89049032"

/-- The number of the issuer. -/
def sampleIssuer (n : ℕ) : ℕ := if n = 2 then 1 else 0

def sampleKeyIdentifier (n : ℕ) : List UInt8 := [0xC0, UInt8.ofNat n]

/-- The last arc of the policy. -/
def sampleRole (n : ℕ) : ℕ := [0, 2, 1, 4, 5].getD n 0

/-- The bits for signing certificates and revocation lists. -/
def sampleKeyUsage (n : ℕ) : Bool × Bool := (n ≤ 1, n = 0)

/-- An attribute in a name. -/
def sampleAttribute (oid : List UInt8) (tag : ℕ) (text : String) : List UInt8 :=
  Der.tlv 0x31 (Der.tlv 0x30 (Der.tlv 0x06 oid ++ Der.tlv tag text.toUTF8.toList))

/-- A serial number as a name. -/
def sampleSerialName (serialNumber : String) : List UInt8 :=
  Der.tlv 0x30 (sampleAttribute [0x55, 0x04, 0x05] 0x13 serialNumber)

/-- The name of the subject. -/
def sampleSubject (n : ℕ) : List UInt8 :=
  if n = 2 then sampleSerialName sampleEid
  else Der.tlv 0x30 (sampleAttribute [0x55, 0x04, 0x03] 0x0C
    (["CI", "EUM", "", "DPauth", "DPpb"].getD n ""))

/-- An extension, by the last byte of its identifier. -/
def sampleExtension (id : UInt8) (value : List UInt8) : List UInt8 :=
  Der.tlv 0x30 (Der.tlv 0x06 [0x55, 0x1D, id] ++ Der.tlv 0x04 value)

/-- The extensions: the key identifiers, the use of the key, the policy, and for the manufacturer
the names that it may give. -/
def sampleExtensions (n : ℕ) : List UInt8 :=
  sampleExtension 0x0E (Der.tlv 0x04 (sampleKeyIdentifier n)) ++
  sampleExtension 0x23 (Der.tlv 0x30 (Der.tlv 0x80 (sampleKeyIdentifier (sampleIssuer n)))) ++
  sampleExtension 0x0F (Der.tlv 0x03 (match sampleKeyUsage n with
    | (true, true) => [0x01, 0x06]
    | (true, false) => [0x02, 0x04]
    | _ => [0x07, 0x80])) ++
  sampleExtension 0x20 (Der.tlv 0x30 (Der.tlv 0x30 (Der.tlv 0x06
    [0x67, 0x81, 0x12, 0x01, 0x02, 0x01, UInt8.ofNat (sampleRole n)]))) ++
  if n = 1 then sampleExtension 0x1E (Der.tlv 0x30 (Der.tlv 0xA0 (Der.tlv 0x30
    (Der.tlv 0xA4 (sampleSerialName sampleIin)))))
  else []

/-- The algorithm: ECDSA with SHA-256. -/
def sampleAlgorithm : List UInt8 :=
  Der.tlv 0x30 (Der.tlv 0x06 [0x2A, 0x86, 0x48, 0xCE, 0x3D, 0x04, 0x03, 0x02])

/-- The public key of a certificate, as a point in uncompressed form. -/
def samplePoint (n : ℕ) : List UInt8 :=
  let (x, y) := sampleKeys.getD n (0, 0)
  4 :: Der.beBytes 32 x ++ Der.beBytes 32 y

/-- The part of a certificate that is signed. -/
def sampleTbs (n : ℕ) : List UInt8 :=
  Der.tlv 0x30 (Der.tlv 0xA0 (Der.tlv 0x02 [2]) ++ Der.tlv 0x02 [UInt8.ofNat (n + 1)] ++
    sampleAlgorithm ++ sampleSubject (sampleIssuer n) ++
    Der.tlv 0x30 (Der.tlv 0x17 "250101000000Z".toUTF8.toList ++
      Der.tlv 0x17 "350101000000Z".toUTF8.toList) ++
    sampleSubject n ++
    Der.tlv 0x30 (Der.tlv 0x30 (Der.tlv 0x06 [0x2A, 0x86, 0x48, 0xCE, 0x3D, 0x02, 0x01] ++
      Der.tlv 0x06 [0x2A, 0x86, 0x48, 0xCE, 0x3D, 0x03, 0x01, 0x07]) ++
      Der.tlv 0x03 (0 :: samplePoint n)) ++
    Der.tlv 0xA3 (Der.tlv 0x30 (sampleExtensions n)))

/-- A certificate. -/
def sampleCertificate (n : ℕ) : List UInt8 :=
  let (r, s) := sampleCertificateSignatures.getD n (0, 0)
  Der.tlv 0x30 (sampleTbs n ++ sampleAlgorithm ++ Der.tlv 0x03 (0 ::
    Der.tlv 0x30 (Der.tlv 0x02 (Der.beBytes 32 r) ++ Der.tlv 0x02 (Der.beBytes 32 s))))

/-- The library, for these certificates. -/
def sampleX509 : X509 ℕ where
  loadDerX509Certificate bs := (List.range 5).find? fun n => sampleCertificate n = bs
  publicBytes := sampleCertificate
  subjectKeyIdentifier n := some (sampleKeyIdentifier n)
  authorityKeyIdentifier n := some (some (sampleKeyIdentifier (sampleIssuer n)))
  certificatePolicies n := some ["2.23.146.1.2.1." ++ Nat.repr (sampleRole n)]
  keyUsage n := some (sampleKeyUsage n)
  verify c parent := parent = sampleIssuer c
  serialNumber n := if n = 2 then some sampleEid else none
  permittedSerialNumbers n := if n = 1 then [sampleIin] else []
  permittedEins _ := []
  upper s := String.ofList (s.toList.map Char.toUpper)
  strip s := s

example : (((CertificateSet.new sampleX509 0).bind fun cs =>
    cs.addIntermediateCert sampleX509 1).map fun cs => cs.verifyCertChain sampleX509 2) =
      some .verified ∧
    validateEidRange sampleX509 sampleEid 1 = true := by
  decide +kernel

end VirtualRsp.Smdp
