import VirtualRsp.Card.Echo
import VirtualRsp.Lpa.Base64Lengths
import VirtualRsp.Lpa.DownloadChain
import VirtualRsp.Lpa.Es10x
import VirtualRsp.Lpa.GsmBcd
import VirtualRsp.Lpa.ManageProfiles
import VirtualRsp.Lpa.Sha256

/-!
# The requests of the server, on their way to the card

The LPA passes what the server has sent on to the card: it decodes the texts, looks for the objects
in them, adds what the user gives, and writes a request from the parts. It adds the matching
identifier and the device information to an `AuthenticateServerRequest`, and the hash of the
confirmation code to a `PrepareDownloadRequest`, if the server asks for one.

`authenticateServerR_eq` and `prepareDownloadR_eq` say that from the texts of a server which writes
DER the card gets the request that the server means, octet for octet.
-/

namespace VirtualRsp.Lpa.Download

open Program

variable {σ : Type}

/-! ## The challenge and the information of the card -/

/-- `es10b_get_euicc_challenge_r`. -/
def getEuiccChallengeR (command : Bytes → Program σ Bytes) : Program σ Bytes := do
  let respbuf ← command (pack 0xBF2E [])
  let tmpnode ← .ofOption (findTag 0xBF2E respbuf)
  let tmpnode ← .ofOption (findTag 0x80 tmpnode.value)
  .liftFault (Base64.encodeText tmpnode.value)

/-- `es10b_get_euicc_info_r`. -/
def getEuiccInfoR (command : Bytes → Program σ Bytes) : Program σ Bytes := do
  let respbuf ← command (pack 0xBF20 [])
  let tmpnode ← .ofOption (findTag 0xBF20 respbuf)
  .liftFault (Base64.encodeText tmpnode.self)

/-! ## Authenticating the server -/

/-- What the user gives for an authentication. -/
structure AuthenticateServerParamUser where
  matchingId : Option Bytes
  imei : Option Bytes

/-- The device information. `imei` is what the buffer for the number holds; its first bytes are
taken for the type allocation code. -/
def deviceInfo (imei : Vector UInt8 8) : Option Bytes → Option (Option Bytes)
  | none => some (some (pack 0x80 [0x35, 0x29, 0x06, 0x11] ++ pack 0xA1 []))
  | some text => do
    let (imei, imeiLen) ← Hexutil.gsmbcd2bin imei.toList text 0
    if imeiLen < 0 then return none
    else return some (pack 0x80 (imei.take 4) ++ pack 0xA1 [] ++
      pack 0x82 (imei.take imeiLen.toNat))

/-- `euicc_derutil_pack_alloc`: the size of the block has 32 bits. -/
def packAlloc (request : Bytes) : Option (Option Bytes) :=
  if request.length < 2 ^ 32 then some (some request) else none

/-- `es10b_authenticate_server_r`: the transaction, and the response in base64. -/
def authenticateServerR (command : Bytes → Program σ Bytes) (imei : Vector UInt8 8)
    (param : AuthenticateServerParam) (paramUser : AuthenticateServerParamUser) :
    Program σ (Bytes × Bytes) := do
  let serverSigned1 ← .liftFault (Base64.decodeText param.b64ServerSigned1)
  let serverSignature1 ← .liftFault (Base64.decodeText param.b64ServerSignature1)
  let euiccCiPKIdToBeUsed ← .liftFault (Base64.decodeText param.b64EuiccCiPKIdToBeUsed)
  let serverCertificate ← .liftFault (Base64.decodeText param.b64ServerCertificate)
  let serverSigned1 ← .ofOption (findTag 0x30 serverSigned1)
  let transactionId ← .ofOption (findTag 0x80 serverSigned1.value)
  let serverSignature1 ← .ofOption (findTag 0x5F37 serverSignature1)
  let euiccCiPKIdToBeUsed ← .ofOption (findTag 0x04 euiccCiPKIdToBeUsed)
  let serverCertificate ← .ofOption (findTag 0x30 serverCertificate)
  let deviceInfo ← liftFault (deviceInfo imei paramUser.imei)
  let matchingId := paramUser.matchingId.elim [] fun matchingId => pack 0x80 matchingId
  let reqbuf ← liftFault (packAlloc (pack 0xBF38
    (pack 0x30 serverSigned1.value ++ pack 0x5F37 serverSignature1.value ++
      pack 0x04 euiccCiPKIdToBeUsed.value ++ pack 0x30 serverCertificate.value ++
      pack 0xA0 (matchingId ++ pack 0xA1 deviceInfo))))
  let respbuf ← command reqbuf
  let b64AuthenticateServerResponse ← .liftFault (Base64.encodeText respbuf)
  return (transactionId.value, b64AuthenticateServerResponse)

/-! ## Preparing the download -/

/-- Read the text behind a pointer; behind another one there is none. -/
def readText : Pointer → Program σ Bytes
  | .text s => pure s
  | _ => fun _ => none

/-- The hash of a confirmation code for a transaction, computed in a context that held anything. -/
def hashConfirmationCode (ctx : Sha256.Ctx) (confirmationCode transactionId : Bytes) :
    Option Bytes := do
  let hashCC ← Sha256.digest ctx [confirmationCode]
  Sha256.digest ctx [hashCC, transactionId]

/-- The object with the hash, if the server asks for a confirmation code; there must be one then. -/
def hashCc (ctx : Sha256.Ctx) (confirmationCode : Option Bytes)
    (ccRequiredFlag transactionId : Bytes) : Option (Option Bytes) :=
  if bin2long ccRequiredFlag ≠ 0 then
    let code := confirmationCode.getD []
    if code = [] then some none
    else (hashConfirmationCode ctx code transactionId).map fun h => some (pack 0x04 h)
  else some (some [])

/-- `es10b_prepare_download_r`: the response in base64. -/
def prepareDownloadR (command : Bytes → Program σ Bytes) (ctx : Sha256.Ctx)
    (param : PrepareDownloadParam) (confirmationCode : Option Bytes) : Program σ Bytes := do
  let b64SmdpSigned2 ← readText param.b64SmdpSigned2
  let b64SmdpSignature2 ← readText param.b64SmdpSignature2
  let b64SmdpCertificate ← readText param.b64SmdpCertificate
  let smdpSigned2 ← .liftFault (Base64.decodeText b64SmdpSigned2)
  let smdpSignature2 ← .liftFault (Base64.decodeText b64SmdpSignature2)
  let smdpCertificate ← .liftFault (Base64.decodeText b64SmdpCertificate)
  let smdpSigned2 ← .ofOption (findTag 0x30 smdpSigned2)
  let smdpSignature2 ← .ofOption (findTag 0x5F37 smdpSignature2)
  let smdpCertificate ← .ofOption (findTag 0x30 smdpCertificate)
  let transactionId ← .ofOption (findTag 0x80 smdpSigned2.value)
  let ccRequiredFlag ← .ofOption (findTag 0x01 smdpSigned2.value)
  let hashCc ← liftFault (hashCc ctx confirmationCode ccRequiredFlag.value transactionId.value)
  let reqbuf ← liftFault (packAlloc (pack 0xBF21
    (pack 0x30 smdpSigned2.value ++ pack 0x5F37 smdpSignature2.value ++ hashCc ++
      pack 0x30 smdpCertificate.value)))
  let respbuf ← command reqbuf
  .liftFault (Base64.encodeText respbuf)

/-! ## What the server has sent -/

/-- The texts of a server that writes DER. -/
def serverParam (r : AuthenticateServerRequest) : AuthenticateServerParam where
  b64ServerSigned1 := base64Encode (Der.tlv 0x30 r.serverSigned1)
  b64ServerSignature1 := base64Encode (Der.tlv 0x5F37 r.serverSignature1)
  b64EuiccCiPKIdToBeUsed := base64Encode (Der.tlv 0x04 r.euiccCiPKIdToBeUsed)
  b64ServerCertificate := base64Encode (Der.tlv 0x30 r.serverCertificate)

/-- The same for a download, with metadata. -/
def downloadParam (profileMetadata : Pointer) (q : PrepareDownloadRequest) :
    PrepareDownloadParam where
  b64ProfileMetadata := profileMetadata
  b64SmdpSigned2 := .text (base64Encode (Der.tlv 0x30 q.smdpSigned2))
  b64SmdpSignature2 := .text (base64Encode (Der.tlv 0x5F37 q.smdpSignature2))
  b64SmdpCertificate := .text (base64Encode (Der.tlv 0x30 q.smdpCertificate))

/-- The device information without a number. -/
def defaultDeviceInfo : Bytes := Der.tlv 0x80 [0x35, 0x29, 0x06, 0x11] ++ Der.tlv 0xA1 []

/-- The hash that the card is to get: of the hash of the code, and of the transaction. -/
def expectedHashCc (confirmationCode transactionId : Bytes) : Bytes :=
  Sha2.sha256 (Sha2.sha256 confirmationCode ++ transactionId)

/-! ## Reading the objects -/

theorem readText_bind {α : Type} (s : Bytes) (f : Bytes → Program σ α) :
    (readText (.text s) >>= f) = f s := rfl

theorem packAlloc_of_lt {request : Bytes} (h : request.length < 2 ^ 32) :
    packAlloc request = some (some request) := if_pos h

/-- The objects of a server that writes DER, decoded and found. -/
theorem findTag_text {tag : ℕ} (ht : Der.IsTag tag) {v : Bytes}
    (h : (Der.tlv tag v).length ≤ Base64.maxLen) : findTag tag (Der.tlv tag v) = some (.of tag v) :=
  findTag_tlv ht (lt_of_le_of_lt h (by decide))

section

variable {r : AuthenticateServerRequest}

/-- The parts of a request are shorter than it is. -/
theorem length_parts (h : r.octets.length ≤ Base64.maxLen) :
    (Der.tlv 0x30 r.serverSigned1).length ≤ Base64.maxLen ∧
      (Der.tlv 0x5F37 r.serverSignature1).length ≤ Base64.maxLen ∧
      (Der.tlv 0x04 r.euiccCiPKIdToBeUsed).length ≤ Base64.maxLen ∧
      (Der.tlv 0x30 r.serverCertificate).length ≤ Base64.maxLen := by
  rw [AuthenticateServerRequest.octets, Der.length_tlv] at h
  simp only [AuthenticateServerRequest.content, AuthenticateServerRequest.credentials,
    List.length_append] at h
  omega

theorem findTag_transactionId (h : (Der.tlv 0x30 r.serverSigned1).length ≤ Base64.maxLen) :
    findTag 0x80 r.serverSigned1 = some (.of 0x80 r.transactionId) := by
  rw [Base64.maxLen] at h
  rw [Der.length_tlv] at h
  have hsigned : r.serverSigned1 = Der.tlvs [(0x80, r.transactionId),
      (0x81, r.euiccChallenge.toList), (0x83, r.serverAddress),
      (0x84, r.serverChallenge.toList)] := by
    simp [AuthenticateServerRequest.serverSigned1]
  rw [hsigned] at h ⊢
  rw [findTag_tlvs (by change ∀ t ∈ [0x80, 0x81, 0x83, 0x84], Der.IsTag t; decide) (by omega)]
  rfl

/-- **The card gets the server's request**, with the matching identifier of the user. -/
theorem authenticateServerR_eq (command : Bytes → Program σ Bytes) (imei : Vector UInt8 8)
    (hdevice : r.deviceInfo = defaultDeviceInfo) (h : r.octets.length ≤ Base64.maxLen) :
    authenticateServerR command imei (serverParam r) ⟨r.matchingId, none⟩ = do
      let respbuf ← command r.octets
      let b64AuthenticateServerResponse ← .liftFault (Base64.encodeText respbuf)
      return (r.transactionId, b64AuthenticateServerResponse) := by
  obtain ⟨hsigned1, hsignature1, hpkid, hcertificate⟩ := length_parts h
  have hrequest : pack 0xBF38 (pack 0x30 r.serverSigned1 ++ pack 0x5F37 r.serverSignature1 ++
      pack 0x04 r.euiccCiPKIdToBeUsed ++ pack 0x30 r.serverCertificate ++
      pack 0xA0 ((r.matchingId.elim [] fun matchingId => pack 0x80 matchingId) ++
        pack 0xA1 (pack 0x80 [0x35, 0x29, 0x06, 0x11] ++ pack 0xA1 []))) = r.octets := by
    simp only [pack, Der.encode_eq, AuthenticateServerRequest.octets,
      AuthenticateServerRequest.content, AuthenticateServerRequest.credentials,
      AuthenticateServerRequest.ctxParams1, hdevice, defaultDeviceInfo, List.append_assoc]
  rw [authenticateServerR, serverParam]
  simp only
  rw [liftFault_bind (Base64.decodeText_encode hsigned1),
    liftFault_bind (Base64.decodeText_encode hsignature1),
    liftFault_bind (Base64.decodeText_encode hpkid),
    liftFault_bind (Base64.decodeText_encode hcertificate),
    ofOption_bind (findTag_text (by decide) hsigned1), Node.of_value,
    ofOption_bind (findTag_transactionId hsigned1),
    ofOption_bind (findTag_text (by decide) hsignature1),
    ofOption_bind (findTag_text (by decide) hpkid),
    ofOption_bind (findTag_text (by decide) hcertificate),
    liftFault_bind (x := deviceInfo imei none) rfl]
  simp only [Node.of_value]
  rw [hrequest, liftFault_bind (packAlloc_of_lt (lt_of_le_of_lt h (by decide)))]

end

section

variable {q : PrepareDownloadRequest}

theorem length_download_parts (h : q.octets.length ≤ Base64.maxLen) :
    (Der.tlv 0x30 q.smdpSigned2).length ≤ Base64.maxLen ∧
      (Der.tlv 0x5F37 q.smdpSignature2).length ≤ Base64.maxLen ∧
      (Der.tlv 0x30 q.smdpCertificate).length ≤ Base64.maxLen := by
  rw [PrepareDownloadRequest.octets, Der.length_tlv] at h
  simp only [PrepareDownloadRequest.content, PrepareDownloadRequest.trailer,
    List.length_append] at h
  omega

theorem findTag_smdpSigned2 (h : (Der.tlv 0x30 q.smdpSigned2).length ≤ Base64.maxLen) :
    findTag 0x80 q.smdpSigned2 = some (.of 0x80 q.transactionId) ∧
      findTag 0x01 q.smdpSigned2 = some (.of 0x01 [if q.ccRequiredFlag then 0xFF else 0]) := by
  rw [Base64.maxLen] at h
  rw [Der.length_tlv] at h
  have hsigned : q.smdpSigned2 = Der.tlvs ([(0x80, q.transactionId),
      (0x01, [if q.ccRequiredFlag then 0xFF else 0])] ++
        q.bppEuiccOtpk.toList.map fun bppEuiccOtpk => (0x5F49, bppEuiccOtpk)) := by
    cases hotpk : q.bppEuiccOtpk <;> simp [PrepareDownloadRequest.smdpSigned2, hotpk]
  rw [hsigned] at h ⊢
  have htags : ∀ t ∈ ([(0x80, q.transactionId), (0x01, [if q.ccRequiredFlag then 0xFF else 0])] ++
      q.bppEuiccOtpk.toList.map fun bppEuiccOtpk => (0x5F49, bppEuiccOtpk)).map Prod.fst,
      Der.IsTag t := by
    cases q.bppEuiccOtpk with
    | none => change ∀ t ∈ [0x80, 0x01], Der.IsTag t; decide
    | some _ => change ∀ t ∈ [0x80, 0x01, 0x5F49], Der.IsTag t; decide
  constructor
  · rw [findTag_tlvs htags (by omega)]
    rfl
  · rw [findTag_tlvs htags (by omega)]
    rfl

theorem hashConfirmationCode_eq {ctx : Sha256.Ctx} {code transactionId : Bytes}
    (hcode : code.length < 2 ^ 32) (hid : transactionId.length < 2 ^ 32) :
    hashConfirmationCode ctx code transactionId = some (expectedHashCc code transactionId) := by
  have hlen := Sha2.length_sha256 code
  rw [hashConfirmationCode, Sha256.digest_of_lt (by simpa using hcode)]
  simp only [List.flatten_cons, List.flatten_nil, List.append_nil, Option.bind_eq_bind,
    Option.bind_some]
  rw [Sha256.digest_of_lt]
  · simp [expectedHashCc]
  · rw [List.forall_mem_cons]
    exact ⟨by omega, by simpa using hid⟩

/-- The hash belongs to the flag and the code. -/
def HashAgrees (q : PrepareDownloadRequest) (confirmationCode : Option Bytes) : Prop :=
  q.hashCc.map Vector.toList =
    if q.ccRequiredFlag then
      some (expectedHashCc (confirmationCode.getD []) q.transactionId)
    else none

theorem hashCc_eq {ctx : Sha256.Ctx} {confirmationCode : Option Bytes}
    (hcode : q.ccRequiredFlag = true → confirmationCode.getD [] ≠ [])
    (hlen : (confirmationCode.getD []).length < 2 ^ 32) (hhash : HashAgrees q confirmationCode) :
    hashCc ctx confirmationCode [if q.ccRequiredFlag then 0xFF else 0] q.transactionId =
      some (some (q.hashCc.elim [] fun hashCc => Der.tlv 0x04 hashCc.toList)) := by
  have hid := q.transactionId_le
  rw [HashAgrees] at hhash
  cases hflag : q.ccRequiredFlag with
  | false =>
    rw [hflag, if_neg (by simp), Option.map_eq_none_iff] at hhash
    rw [hhash]
    rfl
  | true =>
    rw [hflag, if_pos rfl] at hhash
    obtain ⟨h, hq, hh⟩ := Option.map_eq_some_iff.1 hhash
    simp only [hashCc, if_pos (show bin2long [0xFF] ≠ 0 by decide), if_neg (hcode hflag), hq,
      hashConfirmationCode_eq hlen (show q.transactionId.length < 2 ^ 32 by omega),
      Option.map_some, Option.elim_some, hh, pack, Der.encode_eq, if_true]

/-- What the server has sent is read, and then the request is put together. -/
theorem prepareDownloadR_read (command : Bytes → Program σ Bytes) (ctx : Sha256.Ctx)
    (profileMetadata : Pointer) (confirmationCode : Option Bytes)
    (h : q.octets.length ≤ Base64.maxLen) :
    prepareDownloadR command ctx (downloadParam profileMetadata q) confirmationCode = (do
      let hashCc ← liftFault (hashCc ctx confirmationCode
        [if q.ccRequiredFlag then 0xFF else 0] q.transactionId)
      let reqbuf ← liftFault (packAlloc (pack 0xBF21
        (pack 0x30 q.smdpSigned2 ++ pack 0x5F37 q.smdpSignature2 ++ hashCc ++
          pack 0x30 q.smdpCertificate)))
      let respbuf ← command reqbuf
      liftFault (Base64.encodeText respbuf)) := by
  obtain ⟨hsigned2, hsignature2, hcertificate⟩ := length_download_parts h
  obtain ⟨hid, hflag⟩ := findTag_smdpSigned2 hsigned2
  rw [prepareDownloadR, downloadParam]
  simp only
  rw [readText_bind, readText_bind, readText_bind,
    liftFault_bind (Base64.decodeText_encode hsigned2),
    liftFault_bind (Base64.decodeText_encode hsignature2),
    liftFault_bind (Base64.decodeText_encode hcertificate),
    ofOption_bind (findTag_text (by decide) hsigned2),
    ofOption_bind (findTag_text (by decide) hsignature2),
    ofOption_bind (findTag_text (by decide) hcertificate), Node.of_value, ofOption_bind hid,
    ofOption_bind hflag]
  simp only [Node.of_value]

/-- **The card gets the server's request**, with the hash of the user's code if the server asks for
it. -/
theorem prepareDownloadR_eq (command : Bytes → Program σ Bytes) (ctx : Sha256.Ctx)
    (profileMetadata : Pointer) {confirmationCode : Option Bytes}
    (hcode : q.ccRequiredFlag = true → confirmationCode.getD [] ≠ [])
    (hlen : (confirmationCode.getD []).length < 2 ^ 32) (hhash : HashAgrees q confirmationCode)
    (h : q.octets.length ≤ Base64.maxLen) :
    prepareDownloadR command ctx (downloadParam profileMetadata q) confirmationCode =
      command q.octets >>= fun respbuf => liftFault (Base64.encodeText respbuf) := by
  have hrequest : pack 0xBF21 (pack 0x30 q.smdpSigned2 ++ pack 0x5F37 q.smdpSignature2 ++
      (q.hashCc.elim [] fun hashCc => Der.tlv 0x04 hashCc.toList) ++ pack 0x30 q.smdpCertificate) =
        q.octets := by
    simp only [pack, Der.encode_eq, PrepareDownloadRequest.octets, PrepareDownloadRequest.content,
      PrepareDownloadRequest.trailer, List.append_assoc]
  rw [prepareDownloadR_read _ _ _ _ h, liftFault_bind (hashCc_eq hcode hlen hhash), hrequest,
    liftFault_bind (packAlloc_of_lt (lt_of_le_of_lt h (by decide)))]

/-- **Without a code** nothing is sent if the server asks for one. -/
theorem prepareDownloadR_refuses (command : Bytes → Program σ Bytes) (ctx : Sha256.Ctx)
    (profileMetadata : Pointer) {confirmationCode : Option Bytes} (hflag : q.ccRequiredFlag = true)
    (hcode : confirmationCode.getD [] = []) (h : q.octets.length ≤ Base64.maxLen) :
    prepareDownloadR command ctx (downloadParam profileMetadata q) confirmationCode = .fail := by
  have hhash : hashCc ctx confirmationCode [0xFF] q.transactionId = some none := by
    simp only [hashCc, if_pos (show bin2long [0xFF] ≠ 0 by decide), if_pos hcode]
  rw [prepareDownloadR_read _ _ _ _ h, hflag, if_pos rfl]
  rw [hhash]
  rfl

end

/-! ## With the card -/

section

variable {env : ℕ → Card.Env} {state : Card.EuiccState} {k : ℕ} {c : CardSession}

/-- **A command with a tag** returns what its handler answers. -/
theorem es10xCommand_tlv {tag : ℕ} (ht : Der.IsTag tag) (hw : tag ≠ 0xBF36)
    (hu : Card.Es10xCommand.ofTag tag ≠ .unsupported) {body respbuf : Bytes} :
    (es10xCommand (cardTransport env) (Der.tlv tag body)).Returns ⟨k, state⟩ respbuf c ↔
      ∃ s, (Card.Es10xCommand.ofTag tag).handle (env k) state
          (.ofBytes (env k) (Der.tlv tag body)) = some (s, some respbuf) ∧ c = ⟨k + 1, s⟩ := by
  have hcmd : Der.tlv tag body = Der.tagBytes tag ++ (Der.lenBytes body.length ++ body) :=
    List.append_assoc ..
  have htag := Der.length_tagBytes_pos tag
  have hlen := Der.length_lenBytes_pos body.length
  have hcmdlen : 2 ≤ (Der.tlv tag body).length := by
    rw [Der.length_tlv]
    omega
  rw [es10xCommand_card (List.ne_nil_of_length_pos (by omega))]
  rw [hcmd] at hcmdlen ⊢
  refine exists_congr fun s => and_congr_left fun _ => ?_
  constructor
  · exact Card.processEs10xCommand_tag ht hw
  · intro hhandle
    rw [Card.processEs10xCommand_of_handle ht hw hcmdlen hu hhandle]
    rfl

/-- A command whose answer is worked on. -/
theorem es10xCommand_answer {tag : ℕ} (ht : Der.IsTag tag) (hw : tag ≠ 0xBF36)
    (hu : Card.Es10xCommand.ofTag tag ≠ .unsupported) {body : Bytes} {α : Type}
    {f : Bytes → Program CardSession α} {a : α} :
    (es10xCommand (cardTransport env) (Der.tlv tag body) >>= f).Returns ⟨k, state⟩ a c ↔
      ∃ s resp, (Card.Es10xCommand.ofTag tag).handle (env k) state
          (.ofBytes (env k) (Der.tlv tag body)) = some (s, some resp) ∧
        (f resp).Returns ⟨k + 1, s⟩ a c := by
  rw [returns_bind]
  constructor
  · rintro ⟨resp, t, hresp, hf⟩
    obtain ⟨s, hs, rfl⟩ := (es10xCommand_tlv ht hw hu).1 hresp
    exact ⟨s, resp, hs, hf⟩
  · rintro ⟨s, resp, hs, hf⟩
    exact ⟨resp, _, (es10xCommand_tlv ht hw hu).2 ⟨s, hs, rfl⟩, hf⟩

/-- **An authentication** through the LPA is one of the card, with the server's request. -/
theorem authenticateServerR_card {r : AuthenticateServerRequest} (imei : Vector UInt8 8)
    (hdevice : r.deviceInfo = defaultDeviceInfo) (h : r.octets.length ≤ Base64.maxLen)
    {answer : Bytes × Bytes} :
    (authenticateServerR (es10xCommand (cardTransport env)) imei (serverParam r)
        ⟨r.matchingId, none⟩).Returns ⟨k, state⟩ answer c ↔
      ∃ state' resp, Card.authenticateServer (env k) state (.ofBytes (env k) r.octets) =
          some (state', some resp) ∧ r.transactionId = answer.1 ∧
        Base64.encodeText resp = some (some answer.2) ∧ ⟨k + 1, state'⟩ = c := by
  have hof : Card.Es10xCommand.ofTag 0xBF38 = .authenticateServer := rfl
  rw [authenticateServerR_eq _ imei hdevice h, AuthenticateServerRequest.octets,
    es10xCommand_answer (by decide) (by decide) (by decide), hof]
  refine exists_congr fun s => exists_congr fun resp => and_congr_right fun _ => ?_
  simp only [returns_bind, returns_liftFault, returns_pure]
  constructor
  · rintro ⟨text, _, ⟨htext, rfl⟩, rfl, rfl⟩
    exact ⟨rfl, htext, rfl⟩
  · rintro ⟨hid, htext, rfl⟩
    exact ⟨_, _, ⟨htext, rfl⟩, Prod.ext hid rfl, rfl⟩

/-- **The preparation of a download** through the LPA is one of the card, with the server's request
and the hash of the user's code. -/
theorem prepareDownloadR_card {q : PrepareDownloadRequest} (ctx : Sha256.Ctx)
    (profileMetadata : Pointer) {confirmationCode : Option Bytes}
    (hcode : q.ccRequiredFlag = true → confirmationCode.getD [] ≠ [])
    (hlen : (confirmationCode.getD []).length < 2 ^ 32) (hhash : HashAgrees q confirmationCode)
    (h : q.octets.length ≤ Base64.maxLen) {b64 : Bytes} :
    (prepareDownloadR (es10xCommand (cardTransport env)) ctx (downloadParam profileMetadata q)
        confirmationCode).Returns ⟨k, state⟩ b64 c ↔
      ∃ state' resp, Card.prepareDownload (env k) state (.ofBytes (env k) q.octets) =
          some (state', some resp) ∧ Base64.encodeText resp = some (some b64) ∧
        ⟨k + 1, state'⟩ = c := by
  have hof : Card.Es10xCommand.ofTag 0xBF21 = .prepareDownload := rfl
  rw [prepareDownloadR_eq _ ctx profileMetadata hcode hlen hhash h, PrepareDownloadRequest.octets,
    es10xCommand_answer (by decide) (by decide) (by decide), hof]
  simp only [returns_liftFault]
  rfl

end

/-! ## A card with a key -/

/-- A card with a key. -/
def sampleCard : Card.EuiccState := { Card.euiccStateInit with euiccPrivateKey := some 1 }

/-- The card's answer to the first request. -/
def sampleAuthenticated : Option (Card.EuiccState × Option Bytes) :=
  Card.authenticateServer Card.sampleEnv sampleCard
    (.ofBytes Card.sampleEnv (Card.sampleAuthentication 100).octets)

/-- The card's answer to the second request. -/
def samplePrepared : Option (Card.EuiccState × Option Bytes) :=
  Card.prepareDownload Card.sampleEnv sampleCard
    (.ofBytes Card.sampleEnv Card.samplePreparation.octets)

/-- A context without content. -/
def sampleCtx : Sha256.Ctx := ⟨.replicate 64 0, 0, 0, ⟨0, 0, 0, 0, 0, 0, 0, 0⟩⟩

end VirtualRsp.Lpa.Download
