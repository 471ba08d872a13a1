import VirtualRsp.Foundations.Der

/-!
# Requests of the server to the card

`AuthenticateServerRequest` and `PrepareDownloadRequest` are the two requests that the card answers
with signed data, with the components that ASN.1 gives them, and their encodings in DER (`octets`).
What the card does not look into is a string of bytes of any length: signatures, certificates and
the device information.
-/

namespace VirtualRsp

/-! ## AuthenticateServer -/

/-- A request to authenticate the server. -/
structure AuthenticateServerRequest where
  transactionId : Bytes
  transactionId_pos : 1 ≤ transactionId.length
  transactionId_le : transactionId.length ≤ 16
  euiccChallenge : Vector UInt8 16
  serverAddress : Bytes
  serverChallenge : Vector UInt8 16
  serverSignature1 : Bytes
  euiccCiPKIdToBeUsed : Bytes
  serverCertificate : Bytes
  matchingId : Option Bytes
  deviceInfo : Bytes

namespace AuthenticateServerRequest

variable (r : AuthenticateServerRequest)

/-- The content of `serverSigned1`. -/
def serverSigned1 : Bytes :=
  Der.tlv 0x80 r.transactionId ++ Der.tlv 0x81 r.euiccChallenge.toList ++
    Der.tlv 0x83 r.serverAddress ++ Der.tlv 0x84 r.serverChallenge.toList

/-- The content of `ctxParams1`, for a common authentication. -/
def ctxParams1 : Bytes :=
  (r.matchingId.elim [] fun matchingId => Der.tlv 0x80 matchingId) ++ Der.tlv 0xA1 r.deviceInfo

/-- The components between the signed data and the context parameters. -/
def credentials : Bytes :=
  Der.tlv 0x5F37 r.serverSignature1 ++ Der.tlv 0x04 r.euiccCiPKIdToBeUsed ++
    Der.tlv 0x30 r.serverCertificate

/-- The content of the request. -/
def content : Bytes :=
  Der.tlv 0x30 r.serverSigned1 ++ r.credentials ++ Der.tlv 0xA0 r.ctxParams1

/-- The request in DER. -/
def octets : Bytes := Der.tlv 0xBF38 r.content

end AuthenticateServerRequest

/-! ## PrepareDownload -/

/-- A request to prepare a download. -/
structure PrepareDownloadRequest where
  transactionId : Bytes
  transactionId_pos : 1 ≤ transactionId.length
  transactionId_le : transactionId.length ≤ 16
  ccRequiredFlag : Bool
  bppEuiccOtpk : Option Bytes
  smdpSignature2 : Bytes
  hashCc : Option (Vector UInt8 32)
  smdpCertificate : Bytes

namespace PrepareDownloadRequest

variable (r : PrepareDownloadRequest)

/-- The content of `smdpSigned2`. -/
def smdpSigned2 : Bytes :=
  Der.tlv 0x80 r.transactionId ++ Der.tlv 0x01 [if r.ccRequiredFlag then 0xFF else 0] ++
    r.bppEuiccOtpk.elim [] fun bppEuiccOtpk => Der.tlv 0x5F49 bppEuiccOtpk

/-- The components behind the signature. -/
def trailer : Bytes :=
  (r.hashCc.elim [] fun hashCc => Der.tlv 0x04 hashCc.toList) ++ Der.tlv 0x30 r.smdpCertificate

/-- The content of the request. -/
def content : Bytes :=
  Der.tlv 0x30 r.smdpSigned2 ++ Der.tlv 0x5F37 r.smdpSignature2 ++ r.trailer

/-- The request in DER. -/
def octets : Bytes := Der.tlv 0xBF21 r.content

end PrepareDownloadRequest

end VirtualRsp
