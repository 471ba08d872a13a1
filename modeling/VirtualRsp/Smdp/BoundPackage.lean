import VirtualRsp.Card.Crypto
import VirtualRsp.Smdp.Bsp

/-!
# Bound profile packages

`BoundProfilePackage.encode` builds the package that the server sends and
`BoundProfilePackage.decode` takes one apart, as a card would. ASN.1 encodings, key derivation, key
agreement and signatures are parameters (`Libraries`). Python exceptions are `none`.

* `decode_contents`: the contents of a package decode to the profile, for a package made from an
  unprotected profile and encoded for the first time, and for one made from a profile that was
  protected by an instance of its own.
* `decode_encode_never`: `encode` puts the contents into an outer object (`BF36`) that `decode` does
  not take off, so `decode` rejects everything that `encode` returns.
-/

namespace VirtualRsp.Smdp

open LockStep

/-! ## Data -/

/-- An ASN.1 type, as the library offers it. -/
structure Asn1Type (α : Type) where
  encode : α → Option Bytes
  decode : Bytes → Option α

/-- Decoding inverts encoding. -/
def Asn1Type.Inverse {α : Type} (t : Asn1Type α) : Prop :=
  ∀ value bs, t.encode value = some bs → t.decode bs = some value

/-- The control reference template. -/
structure ControlRefTemplate where
  keyType : Bytes
  keyLen : Bytes
  hostId : Bytes
  deriving DecidableEq

/-- The request that opens the secure channel. -/
structure InitialiseSecureChannelRequest where
  remoteOpId : UInt8
  transactionId : Bytes
  controlRefTemplate : ControlRefTemplate
  smdpOtpk : Bytes
  smdpSign : Bytes
  deriving DecidableEq

/-- The request that replaces the session keys. -/
structure ReplaceSessionKeysRequest where
  ppkEnc : Bytes
  ppkCmac : Bytes
  initialMacChainingValue : Bytes
  deriving DecidableEq

/-- The request that stores the metadata. Optional members that are absent are `none` or empty. -/
structure StoreMetadataRequest where
  iccid : Bytes
  serviceProviderName : String
  profileName : String
  icon : Option (Bytes × Option ℕ)
  notificationConfigurationInfo : List ((Bytes × ℕ) × String)
  deriving DecidableEq

/-- The libraries that the package code calls. The request to configure the security domain is
its optional object identifier. -/
structure Libraries where
  tlv : Bertlv
  aes : Aes
  h2b : String → Option Bytes
  /-- The key derivation function, for a length, the shared information and the secret. -/
  x963kdf : ℕ → Bytes → Bytes → Bytes
  configureISDPRequest : Asn1Type (Option String)
  storeMetadataRequest : Asn1Type StoreMetadataRequest
  initialiseSecureChannelRequest : Asn1Type InitialiseSecureChannelRequest
  replaceSessionKeysRequest : Asn1Type ReplaceSessionKeysRequest

/-- What the libraries promise. -/
structure Libraries.Lawful (lib : Libraries) : Prop where
  tlv : lib.tlv.Lawful
  aes : lib.aes.Lawful
  configureISDPRequest : lib.configureISDPRequest.Inverse
  storeMetadataRequest : lib.storeMetadataRequest.Inverse
  initialiseSecureChannelRequest : lib.initialiseSecureChannelRequest.Inverse
  replaceSessionKeysRequest : lib.replaceSessionKeysRequest.Inverse
  /-- The request to open the channel is an object with tag `BF23`, and nothing else decodes. -/
  encode_iscr : ∀ iscr bs, lib.initialiseSecureChannelRequest.encode iscr = some bs →
    ∃ value : Bytes, value.length < 2 ^ 32 ∧ bs = Der.tlv 0xBF23 value
  decode_iscr : ∀ bs iscr, lib.initialiseSecureChannelRequest.decode bs = some iscr →
    ∃ rest, Der.readTag bs = some (0xBF23, rest)

/-- The part of a session that the package is made from. -/
structure RspSessionState where
  transactionId : String
  eid : String
  hostId : Bytes
  sharedSecret : Bytes
  smdpOtpk : Bytes
  euiccOtpk : Bytes

/-- The one-time private key of the card: the secret shared with a public key. -/
structure EcPrivateKey where
  exchange : Bytes → Option Bytes

/-! ## Requests -/

section

variable (lib : Libraries)

/-- An object around a value. -/
def wrapAsDerTlv (tag : ℕ) (val : Bytes) : Option Bytes := do
  let t ← lib.tlv.encodeTag tag
  let l ← lib.tlv.encodeLen val.length
  return t ++ l ++ val

/-- The part of the request that is signed. -/
def genInitSecChanSignedPart (iscsp : InitialiseSecureChannelRequest) : Option Bytes := do
  let remoteOpId ← wrapAsDerTlv lib 0x82 [iscsp.remoteOpId]
  let transactionId ← wrapAsDerTlv lib 0x80 iscsp.transactionId
  let keyType ← wrapAsDerTlv lib 0x80 iscsp.controlRefTemplate.keyType
  let keyLen ← wrapAsDerTlv lib 0x81 iscsp.controlRefTemplate.keyLen
  let hostId ← wrapAsDerTlv lib 0x84 iscsp.controlRefTemplate.hostId
  let crt ← wrapAsDerTlv lib 0xA6 (keyType ++ keyLen ++ hostId)
  let smdpOtpk ← wrapAsDerTlv lib 0x5F49 iscsp.smdpOtpk
  return remoteOpId ++ transactionId ++ crt ++ smdpOtpk

/-- The signed request that opens the channel. -/
def genInitialiseSecureChannel (transactionId : String) (hostId smdpOtpk euiccOtpk : Bytes)
    (ecdsaSign : Bytes → Option Bytes) : Option InitialiseSecureChannelRequest := do
  let initScr : InitialiseSecureChannelRequest :=
    { remoteOpId := 1
      transactionId := ← lib.h2b transactionId
      controlRefTemplate := { keyType := [0x88], keyLen := [16], hostId := hostId }
      smdpOtpk := smdpOtpk
      smdpSign := [] }
  let signedPart ← genInitSecChanSignedPart lib initScr
  let otpk ← wrapAsDerTlv lib 0x5F49 euiccOtpk
  let smdpSign ← ecdsaSign (signedPart ++ otpk)
  return { initScr with smdpSign := smdpSign }

/-- The request that replaces the session keys. -/
def genReplaceSessionKeys (ppkEnc ppkCmac initialMcv : Bytes) : Option Bytes :=
  lib.replaceSessionKeysRequest.encode
    { ppkEnc := ppkEnc, ppkCmac := ppkCmac, initialMacChainingValue := initialMcv }

end

namespace PMO

/-- The operations that notifications are about. -/
def pmo4operation : List (String × ℕ) :=
  [("install", 0x80), ("enable", 0x40), ("disable", 0x20), ("delete", 0x10)]

/-- The number of leading bits up to the lowest bit that is set. -/
def numBits (data : ℕ) : ℕ := ((List.range 8).find? fun i => data.testBit i).elim 0 (8 - ·)

/-- An operation as a bit string. -/
def toBitstring (op : String) : Option (Bytes × ℕ) := do
  let val ← pmo4operation.lookup op
  return ([UInt8.ofNat val], numBits val)

end PMO

/-- The metadata of a profile. -/
structure ProfileMetadata where
  iccidBin : Bytes
  spn : String
  profileName : String
  icon : Option Bytes
  iconType : Option ℕ
  notifications : List (String × String)
  deriving DecidableEq

/-- The request that stores the metadata. An empty icon counts as none. -/
def ProfileMetadata.genStoreMetadataRequest (lib : Libraries) (m : ProfileMetadata) :
    Option Bytes := do
  let nci ← m.notifications.mapM fun n => do
    let pmo ← PMO.toBitstring n.1
    return (pmo, n.2)
  lib.storeMetadataRequest.encode
    { iccid := m.iccidBin
      serviceProviderName := m.spn
      profileName := m.profileName
      icon := (m.icon.filter (· ≠ [])).map fun icon => (icon, m.iconType)
      notificationConfigurationInfo := nci }

/-! ## Packages -/

/-- An unprotected profile package. Its octets are kept in the class. -/
structure UnprotectedProfilePackage where
  metadata : Option ProfileMetadata

/-- Load a package: the instance, and what the class keeps from then on. -/
def UnprotectedProfilePackage.fromDer (der : Bytes) (metadata : Option ProfileMetadata) :
    UnprotectedProfilePackage × Option Bytes :=
  (⟨metadata⟩, some der)

/-- The octets of any unprotected package. -/
def UnprotectedProfilePackage.toDer (clsDer : Option Bytes) : Option Bytes := clsDer

/-- A protected profile package. -/
structure ProtectedProfilePackage where
  metadata : Option ProfileMetadata
  upp : UnprotectedProfilePackage
  ppkEnc : Bytes
  ppkMac : Bytes
  initialMcv : Bytes
  encoded : List Bytes

/-- A bound profile package. -/
structure BoundProfilePackage where
  upp : Option UnprotectedProfilePackage
  ppp : Option ProtectedProfilePackage

section

variable (lib : Libraries)

/-- Protect a package with the keys of an instance. -/
def ProtectedProfilePackage.fromUpp (clsDer : Option Bytes) (upp : UnprotectedProfilePackage)
    (bsp : BspInstance) : Option (ProtectedProfilePackage × BspInstance) := do
  let der ← UnprotectedProfilePackage.toDer clsDer
  let (encoded, bsp') ← bsp.encryptAndMac lib.tlv lib.aes 0x86 der
  return ({ metadata := upp.metadata
            upp := upp
            ppkEnc := bsp.cAlgo.sEnc
            ppkMac := bsp.mAlgo.sMac
            initialMcv := bsp.mAlgo.macChain
            encoded := encoded }, bsp')

/-- Derive the keys of the protocol: for encryption, for the MAC, and the initial chaining
value. -/
def bspKeyDerivation (sharedSecret : Bytes) (keyType keyLength : ℕ) (hostId eid : Bytes) :
    Option (Bytes × Bytes × Bytes) :=
  let l := 16
  if keyType ≤ 255 ∧ keyLength ≤ 255 then do
    let hostIdLv := (← lib.tlv.encodeLen hostId.length) ++ hostId
    let eidLv := (← lib.tlv.encodeLen eid.length) ++ eid
    let sharedInfo := [UInt8.ofNat keyType, UInt8.ofNat keyLength] ++ hostIdLv ++ eidLv
    let out := lib.x963kdf (l * 3) sharedInfo sharedSecret
    let initialMacChainingValue := out.take l
    let sEnc := (out.drop l).take l
    let sMac := (out.drop (l * 2)).take l
    return (sEnc, sMac, initialMacChainingValue)
  else none

/-- An instance with derived keys. -/
def BspInstance.fromKdf (sharedSecret : Bytes) (keyType keyLength : ℕ) (hostId eid : Bytes) :
    Option BspInstance := do
  let (sEnc, sMac, initialMcv) ← bspKeyDerivation lib sharedSecret keyType keyLength hostId eid
  BspInstance.new lib.tlv sEnc sMac initialMcv

namespace BoundProfilePackage

/-- A package made from a protected one. -/
def fromPpp (ppp : ProtectedProfilePackage) : BoundProfilePackage := ⟨none, some ppp⟩

/-- A package made from an unprotected one. -/
def fromUpp (upp : UnprotectedProfilePackage) : BoundProfilePackage := ⟨some upp, none⟩

/-- A sequence of encoded members. -/
def encodeSeq (tag : ℕ) (sequence : List Bytes) : Option Bytes :=
  wrapAsDerTlv lib tag sequence.flatten

/-- The contents of a package. A package made from an unprotected one keeps the protected form. -/
def encodeContents (clsDer : Option Bytes) (bpp : BoundProfilePackage) (ss : RspSessionState)
    (ecdsaSign : Bytes → Option Bytes) : Option (Bytes × BoundProfilePackage) := do
  let eid ← lib.h2b ss.eid
  let bsp ← BspInstance.fromKdf lib ss.sharedSecret 0x88 16 ss.hostId eid
  let iscr ← genInitialiseSecureChannel lib ss.transactionId ss.hostId ss.smdpOtpk ss.euiccOtpk
    ecdsaSign
  let confIdspBin ← lib.configureISDPRequest.encode none
  let metadata ← match bpp.upp with
    | some upp => upp.metadata
    | none => bpp.ppp.bind fun ppp => ppp.metadata
  let smrBin ← metadata.genStoreMetadataRequest lib
  let iscrBin ← lib.initialiseSecureChannelRequest.encode iscr
  let (conf, bsp) ← bsp.encryptAndMac lib.tlv lib.aes 0x87 confIdspBin
  let firstSequenceOf87 ← encodeSeq lib 0xA0 conf
  let (smr, bsp) ← bsp.macOnly lib.tlv lib.aes 0x88 smrBin
  let sequenceOf88 ← encodeSeq lib 0xA1 smr
  let (secondSequenceOf87, ppp) ← match bpp.ppp, bpp.upp with
    | some ppp, _ => do
      let rskBin ← genReplaceSessionKeys lib ppp.ppkEnc ppp.ppkMac ppp.initialMcv
      let (rsk, _) ← bsp.encryptAndMac lib.tlv lib.aes 0x87 rskBin
      let secondSequenceOf87 ← encodeSeq lib 0xA2 rsk
      pure (secondSequenceOf87, ppp)
    | none, some upp => do
      let (ppp, _) ← ProtectedProfilePackage.fromUpp lib clsDer upp bsp
      pure ([], ppp)
    | none, none => none
  let sequenceOf86 ← encodeSeq lib 0xA3 ppp.encoded
  return (iscrBin ++ firstSequenceOf87 ++ sequenceOf88 ++ secondSequenceOf87 ++ sequenceOf86,
    { bpp with ppp := some ppp })

/-- The package as the server sends it. -/
def encode (clsDer : Option Bytes) (bpp : BoundProfilePackage) (ss : RspSessionState)
    (ecdsaSign : Bytes → Option Bytes) : Option (Bytes × BoundProfilePackage) := do
  let (bppSeq, bpp) ← encodeContents lib clsDer bpp ss ecdsaSign
  let outer ← wrapAsDerTlv lib 0xBF36 bppSeq
  return (outer, bpp)

/-- Take a sequence of objects apart. The first argument bounds the rounds. -/
def splitBertlvSequence : ℕ → Bytes → Option (List Bytes)
  | 0, remainder => if remainder = [] then some [] else none
  | n + 1, remainder =>
    if remainder = [] then some []
    else do
      let (_, tlv, remainder) ← lib.tlv.returnOneRawtlv remainder
      let ret ← splitBertlvSequence n remainder
      return tlv :: ret

/-- Take a package apart and recover the profile. -/
def decode (euiccOt : EcPrivateKey) (eid : String) (bppBin : Bytes) : Option Bytes := do
  let v := bppBin
  let (_, iscrBin, remainder) ← lib.tlv.returnOneRawtlv v
  let iscr ← lib.initialiseSecureChannelRequest.decode iscrBin
  let (tag, firstSeqOf87, remainder) ← lib.tlv.parseOneRawtag remainder
  guard (tag = 0xA0)
  let firstSeqOf87 ← splitBertlvSequence lib firstSeqOf87.length firstSeqOf87
  let (tag, seqOf88, remainder) ← lib.tlv.parseOneRawtag remainder
  guard (tag = 0xA1)
  let seqOf88 ← splitBertlvSequence lib seqOf88.length seqOf88
  let (tag, tlv, remainder) ← lib.tlv.parseOneRawtag remainder
  let (secondSeqOf87, seqOf86) ←
    if tag = 0xA2 then do
      let secondSeqOf87 ← splitBertlvSequence lib tlv.length tlv
      let (tag2, seqOf86, _) ← lib.tlv.parseOneRawtag remainder
      guard (tag2 = 0xA3)
      let seqOf86 ← splitBertlvSequence lib seqOf86.length seqOf86
      pure (some secondSeqOf87, seqOf86)
    else do
      guard (tag = 0xA3)
      let seqOf86 ← splitBertlvSequence lib tlv.length tlv
      pure (none, seqOf86)
  let smdpOtpk := iscr.smdpOtpk
  let sharedSecret ← euiccOt.exchange smdpOtpk
  let crt := iscr.controlRefTemplate
  let eid ← lib.h2b eid
  let bsp ← BspInstance.fromKdf lib sharedSecret (Der.ofBe 0 crt.keyType) (Der.ofBe 0 crt.keyLen)
    crt.hostId eid
  let (encodedConfigureISDPRequest, bsp) ← bsp.demacAndDecrypt lib.tlv lib.aes firstSeqOf87
  let _ ← lib.configureISDPRequest.decode encodedConfigureISDPRequest
  let (encodedStoreMetadataRequest, bsp) ← bsp.demacOnly lib.tlv lib.aes seqOf88
  let _ ← lib.storeMetadataRequest.decode encodedStoreMetadataRequest
  let bsp ← match secondSeqOf87 with
    | some secondSeqOf87 => do
      let (rskBin, _) ← bsp.demacAndDecrypt lib.tlv lib.aes secondSeqOf87
      let rsk ← lib.replaceSessionKeysRequest.decode rskBin
      BspInstance.new lib.tlv rsk.ppkEnc rsk.ppkCmac rsk.initialMacChainingValue
    | none => pure bsp
  let (upp, _) ← bsp.demacAndDecrypt lib.tlv lib.aes seqOf86
  return upp

end BoundProfilePackage

end

/-! ## Objects -/

section

variable {lib : Libraries}

theorem wrapAsDerTlv_eq_some (hlib : lib.Lawful) {tag : ℕ} (ht : Der.IsTag tag) {val bs : Bytes}
    (h : wrapAsDerTlv lib tag val = some bs) : val.length < 2 ^ 32 ∧ bs = Der.tlv tag val := by
  unfold wrapAsDerTlv at h
  rw [hlib.tlv.encodeTag_eq tag ht, hlib.tlv.encodeLen_eq] at h
  split at h
  · rename_i hlen
    cases h
    exact ⟨hlen, rfl⟩
  · cases h

namespace BoundProfilePackage

/-- A single object. -/
def IsObject (bs : Bytes) : Prop :=
  ∃ (tag : ℕ) (value : Bytes), Der.IsTag tag ∧ value.length < 2 ^ 32 ∧ bs = Der.tlv tag value

theorem IsObject.ne_nil {bs : Bytes} (h : IsObject bs) : bs ≠ [] := by
  obtain ⟨tag, value, -, -, rfl⟩ := h
  rw [Der.tlv, List.append_assoc]
  exact List.append_ne_nil_of_right_ne_nil _ (Der.lenBytes_append_ne_nil _ _)

theorem length_le_flatten {sequence : List Bytes} (hobj : ∀ x ∈ sequence, IsObject x) :
    sequence.length ≤ sequence.flatten.length := by
  induction sequence with
  | nil => exact Nat.zero_le _
  | cons x sequence ih =>
    obtain ⟨hx, hsequence⟩ := List.forall_mem_cons.1 hobj
    have hpos := List.length_pos_iff.2 hx.ne_nil
    have hrest := ih hsequence
    rw [List.flatten_cons, List.length_append, List.length_cons]
    omega

theorem splitBertlvSequence_flatten (hlib : lib.Lawful) {sequence : List Bytes}
    (hobj : ∀ x ∈ sequence, IsObject x) {n : ℕ} (hn : sequence.length ≤ n) :
    splitBertlvSequence lib n sequence.flatten = some sequence := by
  induction n generalizing sequence with
  | zero =>
    obtain rfl := List.length_eq_zero_iff.1 (Nat.le_zero.1 hn)
    rfl
  | succ n ih =>
    cases sequence with
    | nil => rfl
    | cons x sequence =>
      obtain ⟨hx, hsequence⟩ := List.forall_mem_cons.1 hobj
      have hne : (x :: sequence).flatten ≠ [] := by
        rw [List.flatten_cons]
        exact List.append_ne_nil_of_left_ne_nil hx.ne_nil _
      obtain ⟨tag, value, ht, hlen, rfl⟩ := hx
      have hrest := ih hsequence (Nat.le_of_succ_le_succ hn)
      rw [splitBertlvSequence, if_neg hne, List.flatten_cons,
        hlib.tlv.returnOneRawtlv_eq tag value sequence.flatten ht hlen]
      simp only [Option.bind_eq_bind, Option.bind_some, hrest]
      rfl

/-- A sequence is read back, whatever follows it. -/
theorem parse_encodeSeq (hlib : lib.Lawful) {tag : ℕ} (ht : Der.IsTag tag)
    {sequence : List Bytes} (hobj : ∀ x ∈ sequence, IsObject x) {bs : Bytes}
    (h : encodeSeq lib tag sequence = some bs) (rest : Bytes) :
    lib.tlv.parseOneRawtag (bs ++ rest) = some (tag, sequence.flatten, rest) ∧
      splitBertlvSequence lib sequence.flatten.length sequence.flatten = some sequence := by
  obtain ⟨hlen, rfl⟩ := wrapAsDerTlv_eq_some hlib ht h
  exact ⟨hlib.tlv.parseOneRawtag_eq tag _ rest ht hlen,
    splitBertlvSequence_flatten hlib hobj (length_le_flatten hobj)⟩

theorem encryptAndMac_objects (hlib : lib.Lawful) {tag : UInt8} (htag : tag.toNat % 32 ≠ 31)
    {plaintext : Bytes} {bsp bsp' : BspInstance} {result : List Bytes}
    (h : bsp.encryptAndMac lib.tlv lib.aes tag plaintext = some (result, bsp')) :
    ∀ x ∈ result, IsObject x := by
  refine BspInstance.segmentLoop_forall (fun segment bsp maced bsp' hmaced => ?_) h
  obtain ⟨value, hlen, hvalue⟩ := BspInstance.encryptAndMacOne_tlv hlib.tlv hmaced
  exact ⟨tag.toNat, value, Or.inl ⟨tag.toNat_lt, htag⟩, hlen, hvalue⟩

theorem macOnly_objects (hlib : lib.Lawful) {tag : UInt8} (htag : tag.toNat % 32 ≠ 31)
    {plaintext : Bytes} {bsp bsp' : BspInstance} {result : List Bytes}
    (h : bsp.macOnly lib.tlv lib.aes tag plaintext = some (result, bsp')) :
    ∀ x ∈ result, IsObject x := by
  refine BspInstance.segmentLoop_forall (fun segment bsp maced bsp' hmaced => ?_) h
  obtain ⟨value, hlen, hvalue⟩ := BspInstance.macOnlyOne_tlv hlib.tlv hmaced
  exact ⟨tag.toNat, value, Or.inl ⟨tag.toNat_lt, htag⟩, hlen, hvalue⟩

/-! ## The contents -/

theorem genInitialiseSecureChannel_eq {transactionId : String} {hostId smdpOtpk euiccOtpk : Bytes}
    {ecdsaSign : Bytes → Option Bytes} {iscr : InitialiseSecureChannelRequest}
    (h : genInitialiseSecureChannel lib transactionId hostId smdpOtpk euiccOtpk ecdsaSign =
      some iscr) :
    iscr.smdpOtpk = smdpOtpk ∧ iscr.controlRefTemplate = ⟨[0x88], [16], hostId⟩ ∧
      iscr.remoteOpId = 1 := by
  obtain ⟨tid, -, h⟩ := Option.bind_eq_some_iff.1 h
  obtain ⟨signedPart, -, h⟩ := Option.bind_eq_some_iff.1 h
  obtain ⟨otpk, -, h⟩ := Option.bind_eq_some_iff.1 h
  obtain ⟨sign, -, h⟩ := Option.bind_eq_some_iff.1 h
  cases h
  exact ⟨rfl, rfl, rfl⟩

/-- What the end of the contents protects: the profile under the keys of the session, or new keys
and the profile under these. -/
inductive Tail (lib : Libraries) (bsp : BspInstance) (profile : Bytes) :
    Option (List Bytes) → List Bytes → Prop
  | session {seq86 bsp'} :
      bsp.encryptAndMac lib.tlv lib.aes 0x86 profile = some (seq86, bsp') →
      Tail lib bsp profile none seq86
  | replaced {rskBin second bsp' seq86 bsp''} {rsk : ReplaceSessionKeysRequest}
      {fresh : BspInstance} :
      lib.replaceSessionKeysRequest.encode rsk = some rskBin →
      bsp.encryptAndMac lib.tlv lib.aes 0x87 rskBin = some (second, bsp') →
      BspInstance.new lib.tlv rsk.ppkEnc rsk.ppkCmac rsk.initialMacChainingValue = some fresh →
      fresh.encryptAndMac lib.tlv lib.aes 0x86 profile = some (seq86, bsp'') →
      Tail lib bsp profile (some second) seq86

/-- A package whose contents end in one of these two ways decodes to the profile. -/
theorem decode_of_tail (hlib : lib.Lawful) {profile : Bytes} {ss : RspSessionState}
    {euiccOt : EcPrivateKey} (hshared : euiccOt.exchange ss.smdpOtpk = some ss.sharedSecret)
    {eid : Bytes} (heid : lib.h2b ss.eid = some eid) {bsp bsp₁ bsp₂ : BspInstance}
    (hbsp : BspInstance.fromKdf lib ss.sharedSecret 0x88 16 ss.hostId eid = some bsp)
    {iscr : InitialiseSecureChannelRequest} (hotpk : iscr.smdpOtpk = ss.smdpOtpk)
    (hcrt : iscr.controlRefTemplate = ⟨[0x88], [16], ss.hostId⟩) {iscrBin : Bytes}
    (hiscr : lib.initialiseSecureChannelRequest.encode iscr = some iscrBin)
    {oid : Option String} {confBin smrBin : Bytes} {smr : StoreMetadataRequest}
    (hconf : lib.configureISDPRequest.encode oid = some confBin)
    (hsmr : lib.storeMetadataRequest.encode smr = some smrBin) {conf smrs : List Bytes}
    (henc : bsp.encryptAndMac lib.tlv lib.aes 0x87 confBin = some (conf, bsp₁))
    (hmac : bsp₁.macOnly lib.tlv lib.aes 0x88 smrBin = some (smrs, bsp₂))
    {second : Option (List Bytes)} {seq86 : List Bytes} (htail : Tail lib bsp₂ profile second seq86)
    {bs87 bs88 bsSecond bs86 : Bytes} (h87 : encodeSeq lib 0xA0 conf = some bs87)
    (h88 : encodeSeq lib 0xA1 smrs = some bs88)
    (hsecond : second.elim (some []) (encodeSeq lib 0xA2) = some bsSecond)
    (h86 : encodeSeq lib 0xA3 seq86 = some bs86) :
    decode lib euiccOt ss.eid (iscrBin ++ bs87 ++ bs88 ++ bsSecond ++ bs86) = some profile := by
  obtain ⟨value, hlen, hvalue⟩ := hlib.encode_iscr iscr iscrBin hiscr
  have hfirst : lib.tlv.returnOneRawtlv (iscrBin ++ bs87 ++ bs88 ++ bsSecond ++ bs86) =
      some (0xBF23, iscrBin, bs87 ++ (bs88 ++ (bsSecond ++ bs86))) := by
    rw [hvalue, List.append_assoc, List.append_assoc, List.append_assoc]
    exact hlib.tlv.returnOneRawtlv_eq 0xBF23 value _ (by decide) hlen
  obtain ⟨hparse87, hsplit87⟩ := parse_encodeSeq hlib (by decide)
    (encryptAndMac_objects hlib (by decide) henc) h87 (bs88 ++ (bsSecond ++ bs86))
  obtain ⟨hparse88, hsplit88⟩ := parse_encodeSeq hlib (by decide)
    (macOnly_objects hlib (by decide) hmac) h88 (bsSecond ++ bs86)
  have hkdf : BspInstance.fromKdf lib ss.sharedSecret (Der.ofBe 0 iscr.controlRefTemplate.keyType)
      (Der.ofBe 0 iscr.controlRefTemplate.keyLen) iscr.controlRefTemplate.hostId eid =
      some bsp := by
    rw [hcrt]
    exact hbsp
  refine Option.bind_eq_some_iff.2 ⟨_, hfirst, ?_⟩
  refine Option.bind_eq_some_iff.2 ⟨_, hlib.initialiseSecureChannelRequest _ _ hiscr, ?_⟩
  refine Option.bind_eq_some_iff.2 ⟨_, hparse87, ?_⟩
  refine Option.bind_eq_some_iff.2 ⟨(), rfl, ?_⟩
  refine Option.bind_eq_some_iff.2 ⟨_, hsplit87, ?_⟩
  refine Option.bind_eq_some_iff.2 ⟨_, hparse88, ?_⟩
  refine Option.bind_eq_some_iff.2 ⟨(), rfl, ?_⟩
  refine Option.bind_eq_some_iff.2 ⟨_, hsplit88, ?_⟩
  have hdec := demacAndDecrypt_encryptAndMac hlib.tlv hlib.aes (by decide) henc
  have hchk := demacOnly_macOnly hlib.tlv (by decide) hmac
  cases htail with
  | session hprofile =>
    cases hsecond
    obtain ⟨hparse86, hsplit86⟩ := parse_encodeSeq hlib (by decide)
      (encryptAndMac_objects hlib (by decide) hprofile) h86 []
    rw [List.append_nil] at hparse86
    have hupp := demacAndDecrypt_encryptAndMac hlib.tlv hlib.aes (by decide) hprofile
    refine Option.bind_eq_some_iff.2 ⟨_, hparse86, ?_⟩
    refine Option.bind_eq_some_iff.2 ⟨_, hsplit86, ?_⟩
    refine Option.bind_eq_some_iff.2 ⟨_, rfl, ?_⟩
    refine Option.bind_eq_some_iff.2 ⟨_, hotpk ▸ hshared, ?_⟩
    refine Option.bind_eq_some_iff.2 ⟨_, heid, ?_⟩
    refine Option.bind_eq_some_iff.2 ⟨_, hkdf, ?_⟩
    refine Option.bind_eq_some_iff.2 ⟨_, hdec, ?_⟩
    refine Option.bind_eq_some_iff.2 ⟨_, hlib.configureISDPRequest _ _ hconf, ?_⟩
    refine Option.bind_eq_some_iff.2 ⟨_, hchk, ?_⟩
    refine Option.bind_eq_some_iff.2 ⟨_, hlib.storeMetadataRequest _ _ hsmr, ?_⟩
    refine Option.bind_eq_some_iff.2 ⟨_, rfl, ?_⟩
    exact Option.bind_eq_some_iff.2 ⟨_, hupp, rfl⟩
  | replaced hrsk hreplace hfresh hprofile =>
    obtain ⟨hparse87', hsplit87'⟩ := parse_encodeSeq hlib (by decide)
      (encryptAndMac_objects hlib (by decide) hreplace) hsecond bs86
    obtain ⟨hparse86, hsplit86⟩ := parse_encodeSeq hlib (by decide)
      (encryptAndMac_objects hlib (by decide) hprofile) h86 []
    rw [List.append_nil] at hparse86
    have hkeys := demacAndDecrypt_encryptAndMac hlib.tlv hlib.aes (by decide) hreplace
    have hupp := demacAndDecrypt_encryptAndMac hlib.tlv hlib.aes (by decide) hprofile
    refine Option.bind_eq_some_iff.2 ⟨_, hparse87', ?_⟩
    refine Option.bind_eq_some_iff.2 ⟨_, hsplit87', ?_⟩
    refine Option.bind_eq_some_iff.2 ⟨_, hparse86, ?_⟩
    refine Option.bind_eq_some_iff.2 ⟨(), rfl, ?_⟩
    refine Option.bind_eq_some_iff.2 ⟨_, hsplit86, ?_⟩
    refine Option.bind_eq_some_iff.2 ⟨_, rfl, ?_⟩
    refine Option.bind_eq_some_iff.2 ⟨_, hotpk ▸ hshared, ?_⟩
    refine Option.bind_eq_some_iff.2 ⟨_, heid, ?_⟩
    refine Option.bind_eq_some_iff.2 ⟨_, hkdf, ?_⟩
    refine Option.bind_eq_some_iff.2 ⟨_, hdec, ?_⟩
    refine Option.bind_eq_some_iff.2 ⟨_, hlib.configureISDPRequest _ _ hconf, ?_⟩
    refine Option.bind_eq_some_iff.2 ⟨_, hchk, ?_⟩
    refine Option.bind_eq_some_iff.2 ⟨_, hlib.storeMetadataRequest _ _ hsmr, ?_⟩
    refine Option.bind_eq_some_iff.2 ⟨_, hkeys, ?_⟩
    refine Option.bind_eq_some_iff.2 ⟨_, hlib.replaceSessionKeysRequest _ _ hrsk, ?_⟩
    refine Option.bind_eq_some_iff.2 ⟨_, hfresh, ?_⟩
    exact Option.bind_eq_some_iff.2 ⟨_, hupp, rfl⟩

theorem genStoreMetadataRequest_eq_some {m : ProfileMetadata} {smrBin : Bytes}
    (h : m.genStoreMetadataRequest lib = some smrBin) :
    ∃ smr, lib.storeMetadataRequest.encode smr = some smrBin := by
  obtain ⟨nci, -, h⟩ := Option.bind_eq_some_iff.1 h
  exact ⟨_, h⟩

/-- A protected package whose segments were made by an instance of its own. -/
def ProtectedBy (lib : Libraries) (profile : Bytes) (ppp : ProtectedProfilePackage) : Prop :=
  ∃ fresh bsp' upp sEnc sMac initialMcv,
    BspInstance.new lib.tlv sEnc sMac initialMcv = some fresh ∧
    ProtectedProfilePackage.fromUpp lib (some profile) upp fresh = some (ppp, bsp')

theorem ProtectedBy.fresh (hlib : lib.Lawful) {profile : Bytes} {ppp : ProtectedProfilePackage}
    (h : ProtectedBy lib profile ppp) : ∃ fresh bsp',
      BspInstance.new lib.tlv ppp.ppkEnc ppp.ppkMac ppp.initialMcv = some fresh ∧
      fresh.encryptAndMac lib.tlv lib.aes 0x86 profile = some (ppp.encoded, bsp') := by
  obtain ⟨fresh, bsp', upp, sEnc, sMac, initialMcv, hnew, hppp⟩ := h
  obtain ⟨⟨encoded, bsp₁⟩, henc, heq⟩ := Option.bind_eq_some_iff.1 hppp
  cases heq
  have hfresh := hnew
  rw [new_eq hlib.tlv] at hnew
  cases hnew
  exact ⟨_, _, hfresh, henc⟩

/-- **The contents** of a package decode to the profile, if the package was made from an
unprotected profile and was not encoded before, or from a profile that an instance of its own
protected. -/
theorem decode_contents (hlib : lib.Lawful) {profile : Bytes} {bpp bpp' : BoundProfilePackage}
    (hbpp : (∃ upp, bpp = fromUpp upp) ∨ ∃ ppp, bpp = fromPpp ppp ∧ ProtectedBy lib profile ppp)
    {ss : RspSessionState} {ecdsaSign : Bytes → Option Bytes} {euiccOt : EcPrivateKey}
    (hshared : euiccOt.exchange ss.smdpOtpk = some ss.sharedSecret) {bppSeq : Bytes}
    (h : encodeContents lib (some profile) bpp ss ecdsaSign = some (bppSeq, bpp')) :
    decode lib euiccOt ss.eid bppSeq = some profile := by
  obtain ⟨eid, heid, h⟩ := Option.bind_eq_some_iff.1 h
  obtain ⟨bsp, hbsp, h⟩ := Option.bind_eq_some_iff.1 h
  obtain ⟨iscr, hgen, h⟩ := Option.bind_eq_some_iff.1 h
  obtain ⟨confBin, hconf, h⟩ := Option.bind_eq_some_iff.1 h
  obtain ⟨hotpk, hcrt, -⟩ := genInitialiseSecureChannel_eq hgen
  rcases hbpp with ⟨upp, rfl⟩ | ⟨ppp, rfl, hppp⟩
  · obtain ⟨metadata, -, h⟩ := Option.bind_eq_some_iff.1 h
    obtain ⟨smrBin, hsmrBin, h⟩ := Option.bind_eq_some_iff.1 h
    obtain ⟨smr, hsmr⟩ := genStoreMetadataRequest_eq_some hsmrBin
    obtain ⟨iscrBin, hiscr, h⟩ := Option.bind_eq_some_iff.1 h
    obtain ⟨⟨conf, bsp₁⟩, henc, h⟩ := Option.bind_eq_some_iff.1 h
    obtain ⟨bs87, h87, h⟩ := Option.bind_eq_some_iff.1 h
    obtain ⟨⟨smrs, bsp₂⟩, hmac, h⟩ := Option.bind_eq_some_iff.1 h
    obtain ⟨bs88, h88, h⟩ := Option.bind_eq_some_iff.1 h
    obtain ⟨⟨ppp, bsp₃⟩, hppp, h⟩ := Option.bind_eq_some_iff.1 h
    obtain ⟨tail, htail, h⟩ := Option.bind_eq_some_iff.1 h
    cases htail
    obtain ⟨bs86, h86, heq⟩ := Option.bind_eq_some_iff.1 h
    obtain ⟨⟨encoded, bsp₄⟩, hprofile, hppp'⟩ := Option.bind_eq_some_iff.1 hppp
    cases hppp'
    cases heq
    exact decode_of_tail hlib hshared heid hbsp hotpk hcrt hiscr hconf hsmr henc hmac
      (.session hprofile) h87 h88 rfl h86
  · obtain ⟨fresh, bsp', hfresh, hprofile⟩ := hppp.fresh hlib
    obtain ⟨metadata, -, h⟩ := Option.bind_eq_some_iff.1 h
    obtain ⟨smrBin, hsmrBin, h⟩ := Option.bind_eq_some_iff.1 h
    obtain ⟨smr, hsmr⟩ := genStoreMetadataRequest_eq_some hsmrBin
    obtain ⟨iscrBin, hiscr, h⟩ := Option.bind_eq_some_iff.1 h
    obtain ⟨⟨conf, bsp₁⟩, henc, h⟩ := Option.bind_eq_some_iff.1 h
    obtain ⟨bs87, h87, h⟩ := Option.bind_eq_some_iff.1 h
    obtain ⟨⟨smrs, bsp₂⟩, hmac, h⟩ := Option.bind_eq_some_iff.1 h
    obtain ⟨bs88, h88, h⟩ := Option.bind_eq_some_iff.1 h
    obtain ⟨rskBin, hrsk, h⟩ := Option.bind_eq_some_iff.1 h
    obtain ⟨⟨second, bsp₃⟩, hreplace, h⟩ := Option.bind_eq_some_iff.1 h
    obtain ⟨bsSecond, hsecond, h⟩ := Option.bind_eq_some_iff.1 h
    obtain ⟨tail, htail, h⟩ := Option.bind_eq_some_iff.1 h
    cases htail
    obtain ⟨bs86, h86, heq⟩ := Option.bind_eq_some_iff.1 h
    cases heq
    exact decode_of_tail hlib hshared heid hbsp hotpk hcrt hiscr hconf hsmr henc hmac
      (.replaced hrsk hreplace hfresh hprofile) h87 h88 hsecond h86

/-- **The outer object.** What `encode` returns is never decoded: `decode` looks for the request
that opens the channel where the outer object begins. -/
theorem decode_encode_never (hlib : lib.Lawful) (clsDer : Option Bytes)
    (bpp : BoundProfilePackage) (ss : RspSessionState) (ecdsaSign : Bytes → Option Bytes)
    (euiccOt : EcPrivateKey) (eid : String) :
    ¬ ∃ bppBin bpp' profile, encode lib clsDer bpp ss ecdsaSign = some (bppBin, bpp') ∧
      decode lib euiccOt eid bppBin = some profile := by
  rintro ⟨bppBin, bpp', profile, hencode, hdecode⟩
  obtain ⟨⟨bppSeq, bpp₁⟩, -, h⟩ := Option.bind_eq_some_iff.1 hencode
  obtain ⟨outer, houter, heq⟩ := Option.bind_eq_some_iff.1 h
  cases heq
  obtain ⟨hlen, rfl⟩ := wrapAsDerTlv_eq_some hlib (by decide) houter
  have hraw := hlib.tlv.returnOneRawtlv_eq 0xBF36 bppSeq [] (by decide) hlen
  rw [List.append_nil] at hraw
  obtain ⟨first, hfirst, hdecode⟩ := Option.bind_eq_some_iff.1 hdecode
  rw [hraw] at hfirst
  cases hfirst
  obtain ⟨iscr, hiscr, -⟩ := Option.bind_eq_some_iff.1 hdecode
  obtain ⟨rest, hrest⟩ := hlib.decode_iscr _ _ hiscr
  have htag := Der.readTag_tagBytes (t := 0xBF36) (by decide)
    (Der.lenBytes bppSeq.length ++ bppSeq)
  rw [Der.tlv, List.append_assoc, htag] at hrest
  cases hrest

end BoundProfilePackage

end

/-! ## Requests in DER -/

/-- A bit string in DER: the number of unused bits, and the bits. -/
def bitString (bits : Bytes × ℕ) : Bytes := UInt8.ofNat (8 * bits.1.length - bits.2) :: bits.1

/-- A text in UTF-8. -/
def utf8 (s : String) : Bytes := s.toUTF8.toList

/-- The objects of an icon. -/
def iconObjects : Option (Bytes × Option ℕ) → List (ℕ × Bytes)
  | some (icon, some iconType) => [(0x93, [UInt8.ofNat iconType]), (0x94, icon)]
  | _ => []

/-- The object of the notifications, if there are any. -/
def notificationObjects (nci : List ((Bytes × ℕ) × String)) : List (ℕ × Bytes) :=
  if nci = [] then []
  else [(0xB6, Der.tlvs (nci.map fun n =>
    (0x30, Der.tlv 0x80 (bitString n.1) ++ Der.tlv 0x81 (utf8 n.2))))]

/-- The objects of a request to store the metadata. -/
def metadataObjects (smr : StoreMetadataRequest) : List (ℕ × Bytes) :=
  [(0x5A, smr.iccid), (0x91, utf8 smr.serviceProviderName), (0x92, utf8 smr.profileName)] ++
    iconObjects smr.icon ++ notificationObjects smr.notificationConfigurationInfo

/-- The request to store the metadata. -/
def storeMetadataOctets (smr : StoreMetadataRequest) : Bytes :=
  Der.tlv 0xBF25 (Der.tlvs (metadataObjects smr))

/-- The request to open the channel. -/
def encodeIscr (iscr : InitialiseSecureChannelRequest) : Bytes :=
  Der.tlv 0xBF23 (Der.tlv 0x82 [iscr.remoteOpId] ++ Der.tlv 0x80 iscr.transactionId ++
    Der.tlv 0xA6 (Der.tlv 0x80 iscr.controlRefTemplate.keyType ++
      Der.tlv 0x81 iscr.controlRefTemplate.keyLen ++ Der.tlv 0x84 iscr.controlRefTemplate.hostId) ++
    Der.tlv 0x5F49 iscr.smdpOtpk ++ Der.tlv 0x5F37 iscr.smdpSign)

/-- The request to replace the session keys. -/
def encodeRsk (rsk : ReplaceSessionKeysRequest) : Bytes :=
  Der.tlv 0xBF26 (Der.tlv 0x80 rsk.initialMacChainingValue ++ Der.tlv 0x81 rsk.ppkEnc ++
    Der.tlv 0x82 rsk.ppkCmac)

/-! ## Key derivation -/

/-- The key derivation function of X9.63: hashes of the secret, a counter and the shared
information, one after the other. -/
def x963 (sha256 : Bytes → Vector UInt8 32) (length : ℕ) (sharedInfo secret : Bytes) : Bytes :=
  ((List.range ((length + 31) / 32)).flatMap fun i =>
    (sha256 (secret ++ Der.beBytes 4 (i + 1) ++ sharedInfo)).toList).take length

/-- The shared information of a host and a card. -/
def sharedInfo (hostId eid : Bytes) : Bytes :=
  [0x88, 0x10] ++ (Der.lenBytes hostId.length ++ hostId) ++ (Der.lenBytes eid.length ++ eid)

/-! ## An example -/

open BoundProfilePackage

/-- SHA-256 of the secret of the private key 1 and the base point, with a counter and the shared
information of the host `01` and the card `89`, and without. -/
def sampleSha256 (bs : Bytes) : Vector UInt8 32 :=
  let info := sharedInfo [0x01] [0x89]
  if bs = (Card.octets Card.sampleX).toList ++ [0, 0, 0, 1] ++ info then
    Card.octets 0x02c1261a88719bd0ace70bda33d6ee496af45949974d234aaff68844eb8a5fea
  else if bs = (Card.octets Card.sampleX).toList ++ [0, 0, 0, 2] ++ info then
    Card.octets 0x881c87c691d12254e0cae16263ad3db79b7b33cd1fb374cdce1c8e1d07f7d0a3
  else Card.sampleDigest bs

/-- A session, in which both one-time keys are the private key 1. -/
def sampleSession : RspSessionState where
  transactionId := "0102"
  eid := "89"
  hostId := [1]
  sharedSecret := (Card.octets Card.sampleX).toList
  smdpOtpk := Card.sampleSmdpOtpk
  euiccOtpk := Card.sampleSmdpOtpk

/-- A signature of the server over the request of the session. -/
def sampleSmdpSign : Bytes :=
  Der.beBytes 32 0x3bf33ffc542e4f42b5c478a5bf2f052fb8d323d4991dbee6d9aad4ee40a7014f ++
    Der.beBytes 32 0x28f19fc1cfcdd23961e8d79781e8fad169e188923ea91aa46e7cfe072e512e7b

/-- The request of the session. -/
def sampleIscr : InitialiseSecureChannelRequest :=
  ⟨1, [1, 2], ⟨[0x88], [16], [1]⟩, Card.sampleSmdpOtpk, sampleSmdpSign⟩

/-- The metadata of the profile, which has no name. -/
def sampleSmr : StoreMetadataRequest :=
  ⟨[0x98, 0x94, 0x44, 0x99, 0x99, 0x99, 0x99, 0x99, 0x09, 0x40], "", "", none, []⟩

/-- A type of which only one value is in use. -/
def Asn1Type.single {α : Type} [DecidableEq α] (value : α) (bs : Bytes) : Asn1Type α where
  encode v := if v = value then some bs else none
  decode bs' := if bs' = bs then some value else none

theorem Asn1Type.single_inverse {α : Type} [DecidableEq α] (value : α) (bs : Bytes) :
    (Asn1Type.single value bs).Inverse := by
  intro v bs' h
  simp only [single] at h ⊢
  split at h
  · cases h
    rename_i hv
    rw [if_pos rfl, hv]
  · cases h

/-- Libraries for the session. -/
def sampleLib : Libraries where
  tlv := derBertlv
  aes := aes128
  h2b s := if s = "0102" then some [1, 2] else if s = "89" then some [0x89] else none
  x963kdf := x963 sampleSha256
  configureISDPRequest := .single none [0xBF, 0x24, 0]
  storeMetadataRequest := .single sampleSmr (storeMetadataOctets sampleSmr)
  initialiseSecureChannelRequest := .single sampleIscr (encodeIscr sampleIscr)
  replaceSessionKeysRequest := .single ⟨sampleEnc, sampleMac, sampleMcv⟩
    (encodeRsk ⟨sampleEnc, sampleMac, sampleMcv⟩)

theorem sampleLib_lawful : sampleLib.Lawful where
  tlv := derBertlv_lawful
  aes := aes128_lawful
  configureISDPRequest := Asn1Type.single_inverse _ _
  storeMetadataRequest := Asn1Type.single_inverse _ _
  initialiseSecureChannelRequest := Asn1Type.single_inverse _ _
  replaceSessionKeysRequest := Asn1Type.single_inverse _ _
  encode_iscr iscr bs h := by
    simp only [sampleLib, Asn1Type.single] at h
    split at h
    · cases h
      exact ⟨_, by decide +kernel, rfl⟩
    · cases h
  decode_iscr bs iscr h := by
    simp only [sampleLib, Asn1Type.single] at h
    split at h
    · rename_i hbs
      subst hbs
      have htag : Der.IsTag 0xBF23 := by decide
      rw [encodeIscr, Der.tlv, List.append_assoc]
      exact ⟨_, Der.readTag_tagBytes htag _⟩
    · cases h

/-- A profile without a name. -/
def samplePackage : UnprotectedProfilePackage := ⟨some ⟨sampleSmr.iccid, "", "", none, none, []⟩⟩

/-- The one-time private key of the card. -/
def sampleEuiccOt : EcPrivateKey :=
  ⟨fun point => (Card.sampleEcdh (Card.octets 1) point).map Vector.toList⟩

theorem decode_encode_never_sample : sampleLib.Lawful ∧
    ¬ ∃ bppBin bpp' profile, encode sampleLib (some [1, 2]) (fromUpp samplePackage) sampleSession
        (fun _ => some sampleSmdpSign) = some (bppBin, bpp') ∧
      decode sampleLib sampleEuiccOt sampleSession.eid bppBin = some profile :=
  ⟨sampleLib_lawful, decode_encode_never sampleLib_lawful _ _ _ _ _ _⟩

/-- A package is built, and does not decode. -/
theorem decode_encode_fails :
    (encode sampleLib (some [1, 2]) (fromUpp samplePackage) sampleSession
      fun _ => some sampleSmdpSign).isSome ∧
    ((encode sampleLib (some [1, 2]) (fromUpp samplePackage) sampleSession
      fun _ => some sampleSmdpSign).bind fun r =>
        decode sampleLib sampleEuiccOt sampleSession.eid r.1) = none := by
  decide +kernel

end VirtualRsp.Smdp
