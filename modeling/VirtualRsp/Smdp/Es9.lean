import Mathlib.Logic.Function.Basic
import VirtualRsp.Smdp.BoundPackage
import VirtualRsp.Smdp.CancelSession
import VirtualRsp.Smdp.Certificates
import VirtualRsp.Smdp.DownloadHistory

/-!
# The server

The five functions that the SM-DP+ offers to an LPA, over the store of its sessions and the download
history. A function ends with an answer, an error (`ApiError`) or an exception. A session is read
from the store as a copy, so what a function assigns to it is lost unless the function stores it
again. ASN.1, X.509, signatures and the conversions of `osmocom` are parameters (`Es9Lib`); random
numbers, signatures made, the clock and the files are those of one request (`Env`).
-/

namespace VirtualRsp.Smdp.Es9

open JsonText Lpa

/-! ## Data -/

/-- What is sent to be signed by the card. -/
structure ServerSigned1 where
  transactionId : Bytes
  euiccChallenge : Bytes
  serverAddress : String
  serverChallenge : Bytes

/-- The part of the card's information that the server reads: key identifiers. -/
structure EuiccInfo1 where
  euiccCiPKIdListForSigning : List Bytes
  euiccCiPKIdListForSigningV3 : Option (List Bytes)
  euiccCiPKIdListForVerification : Option (List Bytes)

/-- The context of an authentication. -/
inductive CtxParams1
  | ctxParamsForCommonAuthentication (matchingId : Option String)
  | other

/-- What the card signs when it authenticates. -/
structure EuiccSigned1 where
  serverChallenge : Bytes
  ctxParams1 : CtxParams1

/-- A successful authentication. -/
structure AuthenticateResponseOk (Asn : Type) where
  euiccSigned1 : EuiccSigned1
  euiccSignature1 : Bytes
  euiccCertificate : Asn
  eumCertificate : Asn

/-- The card's response to an authentication. -/
inductive AuthenticateServerResponse (Asn : Type)
  | authenticateResponseOk (ok : AuthenticateResponseOk Asn)
  | authenticateResponseError

/-- Why decoding fails: data that is not UTF-8, or something else, with a text. -/
inductive DecodeError
  | unicodeDecodeError (text : String)
  | exception (text : String)

/-- What the server signs before a download. -/
structure SmdpSigned2 where
  transactionId : Bytes
  ccRequiredFlag : Bool
  deriving DecidableEq

/-- What the card signs before a download. -/
structure EuiccSigned2 where
  transactionId : Bytes
  euiccOtpk : Bytes
  deriving DecidableEq

/-- The card's response before a download. -/
inductive PrepareDownloadResponse
  | downloadResponseOk (euiccSigned2 : EuiccSigned2) (euiccSignature2 : Bytes)
  | downloadResponseError

/-- What a notification is about. The operation is a bit string. -/
structure NotificationMetadata where
  seqNumber : ℕ
  profileManagementOperation : Bytes × ℕ
  notificationAddress : String
  iccid : Option Bytes
  deriving DecidableEq

/-- The final result of an installation. -/
inductive FinalResult
  | successResult (aid simaResponse : Bytes)
  | errorResult (bppCommandId errorReason : ℕ) (simaResponse : Option Bytes)
  deriving DecidableEq

/-- The result as it is decoded: a pair of a name and a value. -/
def FinalResult.value : FinalResult → Value
  | .successResult aid simaResponse =>
    .tuple [.str "successResult",
      .dict [("aid", .bytes aid), ("simaResponse", .bytes simaResponse)]]
  | .errorResult bppCommandId errorReason simaResponse =>
    .tuple [.str "errorResult", .dict
      ([("bppCommandId", .int bppCommandId), ("errorReason", .int errorReason)] ++
        simaResponse.toList.map fun r => ("simaResponse", .bytes r))]

/-- The signed part of an installation's result. -/
structure ProfileInstallationResultData where
  transactionId : Bytes
  notificationMetadata : NotificationMetadata
  smdpOid : List ℕ
  finalResult : FinalResult
  deriving DecidableEq

/-- A notification of the card. -/
inductive PendingNotification (Asn : Type)
  | profileInstallationResult (data : ProfileInstallationResultData) (euiccSignPIR : Bytes)
  | otherSignedNotification (tbsOtherNotification : NotificationMetadata)
      (euiccNotificationSignature : Bytes) (euiccCertificate eumCertificate : Asn)
  deriving DecidableEq

/-- The libraries that the server calls. `Asn` is what a certificate is decoded to. -/
structure Es9Lib (Cert Asn : Type) extends CancelLib Cert, Libraries, X509 Cert where
  b2h : Bytes → String
  swapNibbles : String → Option String
  decodeEuiccInfo1 : Bytes → Option EuiccInfo1
  encodeServerSigned1 : ServerSigned1 → Option Bytes
  decodeAuthenticateServerResponse : Bytes → Except DecodeError (AuthenticateServerResponse Asn)
  encodeCertificate : Asn → Option Bytes
  encodeSmdpSigned2 : SmdpSigned2 → Option Bytes
  decodePrepareDownloadResponse : Bytes → Option PrepareDownloadResponse
  decodePendingNotification : Bytes → Option (PendingNotification Asn)
  encodeProfileInstallationResultData : ProfileInstallationResultData → Option Bytes
  encodeNotificationMetadata : NotificationMetadata → Option Bytes
  /-- The ICCID in the header of a profile. -/
  headerIccid : Bytes → Option Bytes

/-- What the server is started with. -/
structure Config (Cert Asn : Type) where
  lib : Es9Lib Cert Asn
  serverHostname : String
  ciCerts : List Cert
  dpAuthCert : Cert
  dpPbCert : Cert

/-- What happens around one request: random numbers, the signatures of the server's keys, a new
one-time key, the clock, and the files with the profiles. -/
structure Env where
  uuidRandom : Vector UInt8 16
  serverChallenge : Vector UInt8 16
  dpAuthSign : Bytes → Option Bytes
  dpPbSign : Bytes → Option Bytes
  smdpOtpk : Bytes
  smdpOtExchange : Bytes → Option Bytes
  timestamp : String
  /-- Whether the path of a profile stays inside the directory. -/
  uppInside : String → Bool
  uppReadable : String → Bool
  uppRead : String → Option Bytes

/-- A session. Members that are not assigned are `none`. -/
structure Session (Cert : Type) where
  transactionId : String
  serverChallenge : Bytes
  ciCertId : Bytes
  euiccCert : Option Cert
  eumCert : Option Cert
  eid : Option String
  profileMetadata : Option ProfileMetadata
  smdpSignature2Do : Option Bytes
  matchingId : Option String
  euiccOtpk : Option Bytes
  smdpOtpk : Option Bytes
  hostId : Option Bytes
  sharedSecret : Option Bytes

/-- A new session. -/
def Session.new {Cert : Type} (transactionId : String) (serverChallenge ciCertId : Bytes) :
    Session Cert :=
  ⟨transactionId, serverChallenge, ciCertId, none, none, none, none, none, none, none, none, none,
    none⟩

/-- The sessions by their transactions. -/
abbrev SessionStore (Cert : Type) := String → Option (Session Cert)

/-- The server's state. -/
structure Server (Cert : Type) where
  rss : SessionStore Cert
  downloadHistory : DownloadHistoryStore

/-- A server that has been started without any files. -/
def Server.new {Cert : Type} : Server Cert := ⟨fun _ => none, DownloadHistoryStore.new⟩

/-- Why a function does not return. -/
inductive Failure
  | apiError (error : ApiError)
  | exception
  deriving DecidableEq

/-- What a function answers: the members of an object. -/
abbrev Output := List (String × String)

/-- A failure that is an error. -/
def apiError (subjectCode reasonCode message : String) : Failure :=
  .apiError ⟨subjectCode, reasonCode, message⟩

/-- What raises an exception when it is missing. -/
def orRaise {α : Type} : Option α → Except Failure α
  | some a => .ok a
  | none => .error .exception

/-- A check. -/
def require (c : Bool) (failure : Failure) : Except Failure Unit :=
  if c then .ok () else .error failure

/-! ## Texts -/

/-- A string among the values. -/
def asStr : Value → Option String
  | .str s => some s
  | _ => none

/-- A text of ASCII characters among the values, as bytes. -/
def asciiBytes (v : Value) : Option Bytes :=
  (asStr v).bind fun s =>
    if s.toList.all fun c => c.toNat < 128 then some (s.toList.map fun c => UInt8.ofNat c.toNat)
    else none

/-- `b64decode` of a value. -/
def b64decodeValue (v : Value) : Option Bytes := (asciiBytes v).bind b64decode

/-- Bytes in base64, as a string. -/
def b64encode2str (bs : Bytes) : String :=
  String.ofList ((base64Encode bs).map fun c => Char.ofNat c.toNat)

/-- A digit. -/
def hexChar (upper : Bool) (n : ℕ) : Char :=
  Char.ofNat (if n < 10 then 48 + n else if upper then 55 + n else 87 + n)

/-- Bytes in hexadecimal digits, of upper or of lower case. -/
def hexText (upper : Bool) (bs : Bytes) : String :=
  String.ofList (bs.flatMap fun b => [hexChar upper (b.toNat / 16), hexChar upper (b.toNat % 16)])

/-- `uuid.uuid4` of random bytes: the version is 4, the variant the one of RFC 4122. -/
def uuid4 (random : Vector UInt8 16) : Bytes :=
  (random.toList.modify 6 fun b => b &&& 0x0F ||| 0x40).modify 8 fun b => b &&& 0x3F ||| 0x80

section

variable {Cert Asn : Type} (cfg : Config Cert Asn) (env : Env)

/-! ## Signed parts -/

/-- The sequence with the signed data in a response: the second object of the nesting
`tag { A0 { 30 .. } }`. -/
def extractEuiccSigned (tlv : Bertlv) (tag : ℕ) (response : Bytes) : Option Bytes := do
  let (rawtag, v, remainder) ← tlv.parseOneRawtag response
  guard (remainder = [])
  guard (rawtag = tag)
  let (rawtag, v1, _) ← tlv.parseOneRawtag v
  guard (rawtag = 0xA0)
  let (rawtag, tlv2, _) ← tlv.returnOneRawtlv v1
  guard (rawtag = 0x30)
  return tlv2

/-- `extract_euiccSigned1`. -/
def extractEuiccSigned1 (tlv : Bertlv) (authenticateServerResponse : Bytes) : Option Bytes :=
  extractEuiccSigned tlv 0xBF38 authenticateServerResponse

/-- `extract_euiccSigned2`. -/
def extractEuiccSigned2 (tlv : Bertlv) (prepareDownloadResponse : Bytes) : Option Bytes :=
  extractEuiccSigned tlv 0xBF21 prepareDownloadResponse

/-! ## Certificates -/

/-- The CI certificate with a key identifier. A certificate without one raises. -/
def ciGetCertForPkid (x : X509 Cert) (ciPkid : Bytes) : List Cert → Option (Option Cert)
  | [] => some none
  | cert :: certs =>
    match x.subjectKeyIdentifier cert with
    | none => none
    | some subjectPkid =>
      if subjectPkid = ciPkid then some (some cert) else ciGetCertForPkid x ciPkid certs

/-- Whether the server's own certificate has a chain to one of the keys. -/
def validateCertificateChainForVerification : List Bytes → Except Failure Bool
  | [] => .ok false
  | ciPkid :: pkids => do
    match ← orRaise (ciGetCertForPkid cfg.lib.toX509 ciPkid cfg.ciCerts) with
    | none => validateCertificateChainForVerification pkids
    | some ciCert =>
      let cs ← orRaise (CertificateSet.new cfg.lib.toX509 ciCert)
      match cs.verifyCertChain cfg.lib.toX509 cfg.dpAuthCert with
      | .verified => .ok true
      | .verifyError => validateCertificateChainForVerification pkids
      | .exception => .error .exception

/-- The first key of the card's list whose CI has issued the server's certificate. -/
def selectCiCert : List Bytes → Except Failure (Option Cert)
  | [] => .ok none
  | pkid :: pkids => do
    match ← orRaise (ciGetCertForPkid cfg.lib.toX509 pkid cfg.ciCerts) with
    | none => selectCiCert pkids
    | some ciCert =>
      let ski ← orRaise (cfg.lib.subjectKeyIdentifier ciCert)
      let aki ← orRaise (cfg.lib.authorityKeyIdentifier cfg.dpAuthCert)
      if aki = some ski then .ok (some ciCert) else selectCiCert pkids

/-- The set with the root of a key and an intermediate certificate. -/
def certificateSet (ciPkid : Bytes) (eumCert : Cert) : Except Failure (CertificateSet Cert) := do
  let ciCert ← orRaise (ciGetCertForPkid cfg.lib.toX509 ciPkid cfg.ciCerts)
  let ciCert ← orRaise ciCert
  let cs ← orRaise (CertificateSet.new cfg.lib.toX509 ciCert)
  orRaise (cs.addIntermediateCert cfg.lib.toX509 eumCert)

/-- A certificate that is decoded, encoded again and loaded. -/
def loadCertificate (certificate : Asn) : Except Failure Cert :=
  orRaise ((cfg.lib.encodeCertificate certificate).bind cfg.lib.loadDerX509Certificate)

/-! ## Starting a session -/

/-- Whether the server can be verified with one of the keys; an empty list counts as any key. -/
def supportsVerification (verificationPkidList : List Bytes) : Except Failure Bool :=
  if verificationPkidList = [] then .ok true
  else validateCertificateChainForVerification cfg verificationPkidList

/-- The checks of a card's first message: the address, the challenge and the keys. -/
def checkInitiation (content : Value) : Except Failure (Bytes × Cert) := do
  let smdpAddress ← orRaise ((getItem "smdpAddress" content).bind asStr)
  require ((smdpAddress.toList.takeWhile (· ≠ ':')) = cfg.serverHostname.toList)
    (apiError "8.8.1" "3.8" "Invalid SM-DP+ Address")
  let euiccChallenge ← orRaise ((getItem "euiccChallenge" content).bind b64decodeValue)
  require (euiccChallenge.length = 16) .exception
  let euiccInfo1Bin ← orRaise ((getItem "euiccInfo1" content).bind b64decodeValue)
  let euiccInfo1 ← orRaise (cfg.lib.decodeEuiccInfo1 euiccInfo1Bin)
  let pkidList :=
    euiccInfo1.euiccCiPKIdListForSigning ++ euiccInfo1.euiccCiPKIdListForSigningV3.getD []
  let supported ← supportsVerification cfg (euiccInfo1.euiccCiPKIdListForVerification.getD [])
  require supported (apiError "8.8.4" "3.7" ("The SM-DP+ has no CERT.DPauth.SIG which chains " ++
    "to one of the eSIM CA Root CA Certificate with a Public Key supported by the eUICC"))
  match ← selectCiCert cfg pkidList with
  | none => throw (apiError "8.8.2" "3.1"
      "None of the proposed Public Key Identifiers is supported by the SM-DP+")
  | some ciCert => return (euiccChallenge, ciCert)

/-- The part of `initiateAuthentication` before the session is stored: the answer and the new
session. -/
def newSession (content : Value) (rss : SessionStore Cert) :
    Except Failure (Output × Session Cert) := do
  let (euiccChallenge, ciCert) ← checkInitiation cfg content
  let transactionId := hexText true (uuid4 env.uuidRandom)
  require (rss transactionId).isNone .exception
  let transactionIdBin ← orRaise (cfg.lib.h2b transactionId)
  let serverSigned1Bin ← orRaise (cfg.lib.encodeServerSigned1
    { transactionId := transactionIdBin
      euiccChallenge := euiccChallenge
      serverAddress := cfg.serverHostname
      serverChallenge := env.serverChallenge.toList })
  let serverSignature1 ← orRaise (env.dpAuthSign serverSigned1Bin)
  let serverCertAki ← orRaise (cfg.lib.authorityKeyIdentifier cfg.dpAuthCert).join
  let ciCertId ← orRaise (cfg.lib.subjectKeyIdentifier ciCert)
  return ([("serverSigned1", b64encode2str serverSigned1Bin),
      ("serverSignature1", b64encode2str ([0x5F, 0x37, 0x40] ++ serverSignature1)),
      ("transactionId", transactionId),
      ("euiccCiPKIdToBeUsed", b64encode2str ([0x04, 0x14] ++ serverCertAki)),
      ("serverCertificate", b64encode2str (cfg.lib.publicBytes cfg.dpAuthCert))],
    Session.new transactionId env.serverChallenge.toList ciCertId)

/-- `initiateAuthentication`. -/
def initiateAuthentication (content : Value) (s : Server Cert) :
    Except Failure (Option Output) × Server Cert :=
  match newSession cfg env content s.rss with
  | .error failure => (.error failure, s)
  | .ok (output, ss) =>
    (.ok (some output), { s with rss := Function.update s.rss ss.transactionId (some ss) })

/-! ## Authenticating a card -/

/-- The card's response, its bytes, and the certificates in it. -/
def readAuthentication (content : Value) :
    Except Failure (Bytes × AuthenticateResponseOk Asn × Cert × Cert) := do
  let bin ← orRaise ((getItem "authenticateServerResponse" content).bind b64decodeValue)
  match cfg.lib.decodeAuthenticateServerResponse bin with
  | .error (.unicodeDecodeError e) =>
    throw (apiError "8.1" "6.1" ("Invalid data format in AuthenticateServerResponse: " ++ e))
  | .error (.exception e) =>
    throw (apiError "8.1" "6.1" ("Failed to decode AuthenticateServerResponse: " ++ e))
  | .ok .authenticateResponseError => throw .exception
  | .ok (.authenticateResponseOk ok) =>
    let euiccSigned1Bin ← orRaise (extractEuiccSigned1 cfg.lib.tlv bin)
    let euiccCert ← loadCertificate cfg ok.euiccCertificate
    let eumCert ← loadCertificate cfg ok.eumCertificate
    return (euiccSigned1Bin, ok, euiccCert, eumCert)

/-- The checks of the card: chain, signature, range and challenge. The session gets the certificates
and the identifier. -/
def verifyAuthentication (ss : Session Cert) (euiccSigned1Bin : Bytes)
    (ok : AuthenticateResponseOk Asn) (euiccCert eumCert : Cert) :
    Except Failure (Session Cert) := do
  let ss := { ss with euiccCert := some euiccCert, eumCert := some eumCert }
  let authKeyId ← orRaise (cfg.lib.authorityKeyIdentifier eumCert)
  require (authKeyId = some ss.ciCertId) (apiError "8.11.1" "3.9" "Unknown")
  let cs ← certificateSet cfg ss.ciCertId eumCert
  let verification := cs.verifyCertChain cfg.lib.toX509 euiccCert
  require (verification ≠ .verifyError)
    (apiError "8.1.3" "6.1" "Verification failed (certificate chain)")
  require (verification = .verified) .exception
  let valid ← orRaise (cfg.lib.ecdsaVerify euiccCert ok.euiccSignature1 euiccSigned1Bin)
  require valid (apiError "8.1" "6.1" "Verification failed (euiccSignature1 over euiccSigned1)")
  let eid ← orRaise (cfg.lib.serialNumber euiccCert)
  let ss := { ss with eid := some eid }
  require (validateEidRange cfg.lib.toX509 eid eumCert) (apiError "8.1.4" "6.1"
    "EID is not within the permitted range of the EUM certificate")
  require (ok.euiccSigned1.serverChallenge = ss.serverChallenge)
    (apiError "8.1" "6.1" "Verification failed (serverChallenge)")
  return ss

/-- The profile for a context: its name, and the ICCID in its header. -/
def selectProfile : CtxParams1 → Except Failure (String × Bytes)
  | .ctxParamsForCommonAuthentication matchingId => do
    let refused := apiError "8.2.6" "3.8" "Refused"
    let matchingId := matchingId.getD ""
    require (matchingId ≠ "") refused
    require (env.uppInside matchingId) refused
    require (env.uppReadable matchingId) refused
    let der ← orRaise (env.uppRead matchingId)
    let iccid ← orRaise (cfg.lib.headerIccid der)
    return (matchingId, iccid)
  | .other => throw (apiError "1.3.1" "2.2"
      "ctxParams1 missing mandatory ctxParamsForCommonAuthentication")

/-- The metadata of a profile, with notifications for all operations. -/
def profileMetadata (matchingId : String) (iccid : Bytes) : Except Failure ProfileMetadata := do
  let swapped ← orRaise (cfg.lib.swapNibbles (cfg.lib.b2h iccid))
  let iccidBin ← orRaise (cfg.lib.h2b swapped)
  return { iccidBin := iccidBin
           spn := "OsmocomSPN"
           profileName := matchingId
           icon := none
           iconType := none
           notifications := ["enable", "disable", "delete"].map fun event =>
             (event, cfg.serverHostname) }

/-- The part of `authenticateClient` before the session is stored. -/
def authenticateSession (content : Value) (rss : SessionStore Cert) :
    Except Failure (Output × String × Session Cert) := do
  let transactionId ← orRaise (getItem "transactionId" content)
  let (euiccSigned1Bin, ok, euiccCert, eumCert) ← readAuthentication cfg content
  let transactionId ← orRaise (asStr transactionId)
  match rss transactionId with
  | none => throw (apiError "8.10.1" "3.9" "Unknown")
  | some ss =>
    let ss ← verifyAuthentication cfg ss euiccSigned1Bin ok euiccCert eumCert
    let (matchingId, iccid) ← selectProfile cfg env ok.euiccSigned1.ctxParams1
    let metadata ← profileMetadata cfg matchingId iccid
    let profileMetadataBin ← orRaise (metadata.genStoreMetadataRequest cfg.lib.toLibraries)
    let transactionIdBin ← orRaise (cfg.lib.h2b ss.transactionId)
    let smdpSigned2Bin ← orRaise (cfg.lib.encodeSmdpSigned2 ⟨transactionIdBin, false⟩)
    let signature ← orRaise (env.dpPbSign
      (smdpSigned2Bin ++ [0x5F, 0x37, 0x40] ++ ok.euiccSignature1))
    let smdpSignature2Do := [0x5F, 0x37, 0x40] ++ signature
    let ss := { ss with
      matchingId := some matchingId
      profileMetadata := some metadata
      smdpSignature2Do := some smdpSignature2Do }
    return ([("transactionId", transactionId),
        ("profileMetadata", b64encode2str profileMetadataBin),
        ("smdpSigned2", b64encode2str smdpSigned2Bin),
        ("smdpSignature2", b64encode2str smdpSignature2Do),
        ("smdpCertificate", b64encode2str (cfg.lib.publicBytes cfg.dpPbCert))],
      transactionId, ss)

/-- `authenticateClient`. -/
def authenticateClient (content : Value) (s : Server Cert) :
    Except Failure (Option Output) × Server Cert :=
  match authenticateSession cfg env content s.rss with
  | .error failure => (.error failure, s)
  | .ok (output, transactionId, ss) =>
    (.ok (some output), { s with rss := Function.update s.rss transactionId (some ss) })

/-! ## Sending a profile -/

/-- The checks before a download: the transaction, its session, and what the card has signed. -/
def verifyDownload (content : Value) (rss : SessionStore Cert) :
    Except Failure (String × Session Cert × EuiccSigned2) := do
  let transactionId ← orRaise ((getItem "transactionId" content).bind asStr)
  match rss transactionId with
  | none => throw (apiError "8.10.1" "3.9"
      "The RSP session identified by the TransactionID is unknown")
  | some ss =>
    let bin ← orRaise ((getItem "prepareDownloadResponse" content).bind b64decodeValue)
    match ← orRaise (cfg.lib.decodePrepareDownloadResponse bin) with
    | .downloadResponseError => throw .exception
    | .downloadResponseOk euiccSigned2 euiccSignature2 =>
      let euiccSigned2Bin ← orRaise (extractEuiccSigned2 cfg.lib.tlv bin)
      let euiccCert ← orRaise ss.euiccCert
      let smdpSignature2Do ← orRaise ss.smdpSignature2Do
      let valid ← orRaise (cfg.lib.ecdsaVerify euiccCert euiccSignature2
        (euiccSigned2Bin ++ smdpSignature2Do))
      require valid (apiError "8.1" "6.1" "eUICC signature is invalid")
      let transactionIdBin ← orRaise (cfg.lib.h2b transactionId)
      require (transactionIdBin = euiccSigned2.transactionId) (apiError "8.10.1" "3.9"
        "The signed transactionId != outer transactionId")
      return (transactionId, ss, euiccSigned2)

/-- The members of a session that a package is made from. -/
def Session.toState {Cert : Type} (ss : Session Cert) : Option RspSessionState := do
  return { transactionId := ss.transactionId
           eid := ← ss.eid
           hostId := ← ss.hostId
           sharedSecret := ← ss.sharedSecret
           smdpOtpk := ← ss.smdpOtpk
           euiccOtpk := ← ss.euiccOtpk }

/-- The session with a one-time key and the shared secret, the package, and the profile's octets. -/
def prepareBinding (ss : Session Cert) (euiccSigned2 : EuiccSigned2) :
    Except Failure (Session Cert × UnprotectedProfilePackage × Option Bytes) := do
  let sharedSecret ← orRaise (env.smdpOtExchange euiccSigned2.euiccOtpk)
  let ss := { ss with
    euiccOtpk := some euiccSigned2.euiccOtpk
    smdpOtpk := some env.smdpOtpk
    hostId := some "mahlzeit".toUTF8.toList
    sharedSecret := some sharedSecret }
  let matchingId ← orRaise ss.matchingId
  let der ← orRaise (env.uppRead matchingId)
  let (upp, clsDer) := UnprotectedProfilePackage.fromDer der ss.profileMetadata
  return (ss, upp, clsDer)

/-- The ICCID that is recorded. -/
def iccidForLog (ss : Session Cert) : Except Failure String :=
  match ss.profileMetadata with
  | some metadata => orRaise (cfg.lib.swapNibbles (cfg.lib.b2h metadata.iccidBin))
  | none => .ok "unknown"

/-- The record of a download. The identifier of the card is there whenever its certificate is. -/
def recordBinding (transactionId : String) (ss : Session Cert) (history : DownloadHistoryStore) :
    Except Failure DownloadHistoryStore := do
  let iccid ← iccidForLog cfg ss
  let eid ← orRaise ss.eid
  let matchingId ← orRaise ss.matchingId
  orRaise (history.recordDownload transactionId eid iccid matchingId "bpp_sent" env.timestamp)

/-- The keys that profiles are protected with. -/
def protectionKeys (tlv : Bertlv) : Option BspInstance :=
  BspInstance.new tlv (List.replicate 16 0x00) (List.replicate 16 0x11) (List.replicate 16 0x22)

/-- `getBoundProfilePackage`: the record is written and the session stored before the package is
complete. -/
def getBoundProfilePackage (content : Value) (s : Server Cert) :
    Except Failure (Option Output) × Server Cert :=
  match verifyDownload cfg content s.rss with
  | .error failure => (.error failure, s)
  | .ok (transactionId, ss, euiccSigned2) =>
    match prepareBinding env ss euiccSigned2 with
    | .error failure => (.error failure, s)
    | .ok (ss, upp, clsDer) =>
      match recordBinding cfg env transactionId ss s.downloadHistory with
      | .error failure => (.error failure, s)
      | .ok downloadHistory =>
        let s := { s with downloadHistory := downloadHistory }
        match (protectionKeys cfg.lib.tlv).bind fun bsp =>
            ProtectedProfilePackage.fromUpp cfg.lib.toLibraries clsDer upp bsp with
        | none => (.error .exception, s)
        | some (ppp, _) =>
          let s := { s with rss := Function.update s.rss transactionId (some ss) }
          match ss.toState.bind fun state =>
              (BoundProfilePackage.fromPpp ppp).encode cfg.lib.toLibraries clsDer state
                env.dpPbSign with
          | none => (.error .exception, s)
          | some (bpp, _) =>
            (.ok (some [("transactionId", transactionId),
              ("boundProfilePackage", b64encode2str bpp)]), s)

/-! ## Notifications -/

/-- The checks of a notification about anything but an installation. -/
def verifyOther (tbsOtherNotification : NotificationMetadata) (signature : Bytes)
    (euiccCertificate eumCertificate : Asn) : Except Failure Unit := do
  let euiccCert ← loadCertificate cfg euiccCertificate
  let eumCert ← loadCertificate cfg eumCertificate
  let ciCertId ← orRaise (cfg.lib.authorityKeyIdentifier eumCert).join
  let cs ← certificateSet cfg ciCertId eumCert
  require (cs.verifyCertChain cfg.lib.toX509 euiccCert = .verified) .exception
  let tbsBin ← orRaise (cfg.lib.encodeNotificationMetadata tbsOtherNotification)
  let valid ← orRaise (cfg.lib.ecdsaVerify euiccCert signature tbsBin)
  require valid .exception
  let operation ← orRaise (tbsOtherNotification.profileManagementOperation.1.head?)
  require (PMO.pmo4operation.any fun kv => kv.2 = operation.toNat) .exception
  let _ ← orRaise (cfg.lib.serialNumber euiccCert)

/-- `handleNotification`. -/
def handleNotification (content : Value) (s : Server Cert) :
    Except Failure (Option Output) × Server Cert :=
  match ((getItem "pendingNotification" content).bind b64decodeValue).bind
      cfg.lib.decodePendingNotification with
  | none => (.error .exception, s)
  | some (.profileInstallationResult pird euiccSignPIR) =>
    let transactionId := cfg.lib.b2h pird.transactionId
    match s.rss transactionId with
    | none => (.ok none, s)
    | some ss =>
      match (cfg.lib.encodeProfileInstallationResultData pird).bind fun pirdBin =>
          ss.euiccCert.bind fun euiccCert => cfg.lib.ecdsaVerify euiccCert euiccSignPIR pirdBin with
      | none => (.error .exception, s)
      | some false =>
        let history := s.downloadHistory.updateDownload transactionId "failed"
          (.str "Signature verification failed")
        (.error .exception, { s with downloadHistory := history.getD s.downloadHistory })
      | some true =>
        let status := if isStr "success" pird.finalResult.value then "success" else "failed"
        match s.downloadHistory.updateDownload transactionId status pird.finalResult.value with
        | none => (.error .exception, s)
        | some history =>
          (.ok none, { s with
            downloadHistory := history
            rss := Function.update s.rss transactionId none })
  | some (.otherSignedNotification tbs signature euiccCertificate eumCertificate) =>
    match verifyOther cfg tbs signature euiccCertificate eumCertificate with
    | .error failure => (.error failure, s)
    | .ok () => (.ok none, s)

/-! ## Cancelling -/

/-- `cancelSession`. An unknown transaction is an error before the response is read. -/
def cancelSession (content : Value) (s : Server Cert) :
    Except Failure (Option Output) × Server Cert :=
  match (getItem "transactionId" content).bind asStr with
  | none => (.error .exception, s)
  | some transactionId =>
    let sessions : RspSessions Cert :=
      (s.rss transactionId).toList.map fun ss => (transactionId, ⟨ss.euiccCert⟩)
    match s.rss transactionId, (getItem "cancelSessionResponse" content).bind asciiBytes with
    | some _, none => (.error .exception, s)
    | _, response =>
      match (Smdp.cancelSession cfg.lib.toCancelLib sessions transactionId
          (response.getD [])).1 with
      | .apiError error => (.error (.apiError error), s)
      | .exception => (.error .exception, s)
      | .empty => (.ok none, s)
      | .ok transactionId =>
        (.ok (some [("transactionId", transactionId)]),
          { s with rss := Function.update s.rss transactionId none })

/-! ## Requests -/

/-- The functions of the interface. -/
inductive Endpoint
  | initiateAuthentication
  | authenticateClient
  | getBoundProfilePackage
  | handleNotification
  | cancelSession
  deriving DecidableEq

/-- A request: its function, two headers, and the body as it is parsed. -/
structure Request where
  endpoint : Endpoint
  contentType : Option String
  adminProtocol : Option String
  content : Option Value

/-- Check the headers. -/
def validateRequestHeaders (request : Request) : Except Failure Unit := do
  require ((request.contentType.getD "").startsWith "application/json")
    (apiError "1.2.1" "2.1" "Invalid Content-Type header")
  let adminProtocol := request.adminProtocol.getD ""
  require (adminProtocol = "" || adminProtocol.startsWith "gsma/rsp/v")
    (apiError "1.2.2" "2.1" "Unsupported X-Admin-Protocol version")

/-- The function of a request. -/
def callFunction : Endpoint → Value → Server Cert → Except Failure (Option Output) × Server Cert
  | .initiateAuthentication => initiateAuthentication cfg env
  | .authenticateClient => authenticateClient cfg env
  | .getBoundProfilePackage => getBoundProfilePackage cfg env
  | .handleNotification => handleNotification cfg
  | .cancelSession => cancelSession cfg

/-- Serve a request. -/
def serve (request : Request) (s : Server Cert) :
    Except Failure (Option Output) × Server Cert :=
  match validateRequestHeaders request with
  | .error failure => (.error failure, s)
  | .ok () =>
    match request.content with
    | none => (.error .exception, s)
    | some content => callFunction cfg env request.endpoint content s

/-- A step of the server: a request, and what happens around it. -/
def step (s : Server Cert) (e : Env × Request) : Option (Server Cert) :=
  some (serve cfg e.1 e.2 s).2

end

end VirtualRsp.Smdp.Es9
