import VirtualRsp.Lpa.CancelSession

/-!
# Cancelling a session at the server

`cancelSession` is the server's side of a cancelled session: it checks the card's signature over the
decoded and encoded data, the object identifier and the transaction, and deletes the session.
ASN.1, the signature check and the conversion of hexadecimal digits are parameters (`CancelLib`).

The server compares the object identifier with the one of the certificate's extension, not with the
one that the extension contains; so it never accepts a response of the card
(`cancelSession_agreement`). With the comparison that was meant, LPA, card and server agree exactly
if the LPA gives the reason that is fixed in the card.
-/

namespace VirtualRsp.Smdp

open Lpa

/-! ## Base64 -/

/-- `base64.b64decode`: the position in a group of four, the bits that are left over, and the
padding seen so far. Characters outside the alphabet are skipped, and padding that completes a group
ends the text. -/
def a2bBase64 : ℕ → ℕ → ℕ → Bytes → Option Bytes
  | quadPos, _, _, [] => if quadPos = 0 then some [] else none
  | quadPos, leftchar, pads, c :: cs =>
    if c = 61 then
      if 2 ≤ quadPos ∧ 4 ≤ quadPos + (pads + 1) then some []
      else a2bBase64 quadPos leftchar (if 2 ≤ quadPos then pads + 1 else pads) cs
    else
      let v := pr2six c
      if 64 ≤ v then a2bBase64 quadPos leftchar pads cs
      else if quadPos = 0 then a2bBase64 1 v 0 cs
      else if quadPos = 1 then
        (a2bBase64 2 (v % 16) 0 cs).map (UInt8.ofNat (leftchar * 4 + v / 16) :: ·)
      else if quadPos = 2 then
        (a2bBase64 3 (v % 4) 0 cs).map (UInt8.ofNat (leftchar * 16 + v / 4) :: ·)
      else (a2bBase64 0 0 0 cs).map (UInt8.ofNat (leftchar * 64 + v) :: ·)

/-- `b64decode`. -/
def b64decode (s : Bytes) : Option Bytes := a2bBase64 0 0 0 s

theorem a2bBase64_basis64 {n : ℕ} (h : n < 64) (quadPos leftchar pads : ℕ) (cs : Bytes) :
    a2bBase64 quadPos leftchar pads (basis64 n :: cs) =
      if quadPos = 0 then a2bBase64 1 n 0 cs
      else if quadPos = 1 then
        (a2bBase64 2 (n % 16) 0 cs).map (UInt8.ofNat (leftchar * 4 + n / 16) :: ·)
      else if quadPos = 2 then
        (a2bBase64 3 (n % 4) 0 cs).map (UInt8.ofNat (leftchar * 16 + n / 4) :: ·)
      else (a2bBase64 0 0 0 cs).map (UInt8.ofNat (leftchar * 64 + n) :: ·) := by
  have hchar : basis64 n ≠ 61 := by
    intro heq
    have hvalue := pr2six_basis64 h
    rw [heq] at hvalue
    have h61 : pr2six 61 = 64 := rfl
    omega
  rw [a2bBase64, if_neg hchar, pr2six_basis64 h]
  simp only [Nat.not_le.2 h, if_false]

/-- The server decodes what the LPA encodes. -/
theorem b64decode_base64Encode (bs : Bytes) : b64decode (base64Encode bs) = some bs := by
  unfold b64decode
  induction bs using base64Encode.induct with
  | case1 a b c r ih =>
    have ha := a.toNat_lt
    have hb := b.toNat_lt
    have hc := c.toNat_lt
    have h1 : a.toNat / 4 < 64 := by omega
    have h2 : a.toNat % 4 * 16 + b.toNat / 16 < 64 := by omega
    have h3 : b.toNat % 16 * 4 + c.toNat / 64 < 64 := by omega
    have h4 : c.toNat % 64 < 64 := by omega
    simp only [base64Encode, a2bBase64_basis64 h1, a2bBase64_basis64 h2, a2bBase64_basis64 h3,
      a2bBase64_basis64 h4, ih, Option.map_some, if_true, Nat.reduceEqDiff, if_false,
      Nat.one_ne_zero]
    rw [ofNat_toNat_of_eq (b := a) (by omega), ofNat_toNat_of_eq (b := b) (by omega),
      ofNat_toNat_of_eq (b := c) (by omega)]
  | case2 a b =>
    have ha := a.toNat_lt
    have hb := b.toNat_lt
    have h1 : a.toNat / 4 < 64 := by omega
    have h2 : a.toNat % 4 * 16 + b.toNat / 16 < 64 := by omega
    have h3 : b.toNat % 16 * 4 < 64 := by omega
    simp only [base64Encode, a2bBase64_basis64 h1, a2bBase64_basis64 h2, a2bBase64_basis64 h3,
      if_true, Nat.reduceEqDiff, if_false, Nat.one_ne_zero]
    rw [ofNat_toNat_of_eq (b := a) (by omega), ofNat_toNat_of_eq (b := b) (by omega)]
    rfl
  | case3 a =>
    have ha := a.toNat_lt
    have h1 : a.toNat / 4 < 64 := by omega
    have h2 : a.toNat % 4 * 16 < 64 := by omega
    simp only [base64Encode, a2bBase64_basis64 h1, a2bBase64_basis64 h2, if_true,
      Nat.reduceEqDiff, if_false, Nat.one_ne_zero]
    rw [ofNat_toNat_of_eq (b := a) (by omega)]
    rfl
  | case4 => rfl

/-! ## Data -/

/-- The data that a card signs. -/
structure EuiccCancelSessionSigned where
  transactionId : Bytes
  smdpOid : List ℕ
  reason : ℕ
  deriving DecidableEq

/-- The card's response. -/
inductive CancelSessionResponse
  | cancelSessionResponseOk (signed : EuiccCancelSessionSigned) (signature : Bytes)
  | cancelSessionResponseError (code : ℕ)
  deriving DecidableEq

/-- A part of an object identifier: seven bits a byte, and the top bit where more follow. The first
argument is the number of bytes left, the last what has been written. -/
def base128 : ℕ → ℕ → Bytes → Bytes
  | 0, _, acc => acc
  | k + 1, n, acc =>
    let acc := UInt8.ofNat (if acc = [] then n % 128 else 128 + n % 128) :: acc
    if n < 128 then acc else base128 k (n / 128) acc

/-- The bytes of an object identifier. -/
def oidBytes : List ℕ → Bytes
  | a :: b :: r => base128 10 (40 * a + b) [] ++ r.flatMap fun n => base128 10 n []
  | _ => []

/-- The signed data in DER, for a reason of one byte. -/
def signedDer (signed : EuiccCancelSessionSigned) : Bytes :=
  Der.tlv 0x30 (Der.tlv 0x80 signed.transactionId ++ Der.tlv 0x81 (oidBytes signed.smdpOid) ++
    Der.tlv 0x82 [UInt8.ofNat signed.reason])

/-- The libraries that the server calls. A certificate is what its owner's signatures are checked
with. -/
structure CancelLib (Cert : Type) where
  h2b : String → Option Bytes
  decodeCancelSessionResponse : Bytes → Option CancelSessionResponse
  encodeEuiccCancelSessionSigned : EuiccCancelSessionSigned → Option Bytes
  ecdsaVerify : Cert → Bytes → Bytes → Option Bool

/-- The object identifier that is fixed in the card. -/
def cardOid : List ℕ := [2, 999, 10]

/-- What the libraries promise of data with this identifier: it is encoded in DER, and a response in
DER is decoded. -/
structure CancelLib.Lawful {Cert : Type} (lib : CancelLib Cert) : Prop where
  encode_signed : ∀ (tid : Bytes) (reason : ℕ), tid.length ≤ 16 → reason < 128 →
    lib.encodeEuiccCancelSessionSigned ⟨tid, cardOid, reason⟩ =
      some (signedDer ⟨tid, cardOid, reason⟩)
  decode_response : ∀ (tid : Bytes) (reason : ℕ) (signature : Bytes), tid.length ≤ 16 →
    reason < 128 → signature.length = 64 →
    lib.decodeCancelSessionResponse (Der.tlv 0xBF41
      (Der.tlv 0xA0 (signedDer ⟨tid, cardOid, reason⟩ ++ Der.tlv 0x5F37 signature))) =
      some (.cancelSessionResponseOk ⟨tid, cardOid, reason⟩ signature)

/-! ## The server -/

/-- An error that the server answers with. -/
structure ApiError where
  subjectCode : String
  reasonCode : String
  message : String
  deriving DecidableEq

/-- The outcome of a request: an error, an exception, nothing, or the transaction. -/
inductive Reply
  | apiError (error : ApiError)
  | exception
  | empty
  | ok (transactionId : String)
  deriving DecidableEq

/-- A session: the certificate of its card, once it is authenticated. -/
structure RspSession (Cert : Type) where
  euiccCert : Option Cert

/-- The sessions by their transactions. -/
abbrev RspSessions (Cert : Type) := List (String × RspSession Cert)

/-- `cancelSession`, with an object identifier to compare with. -/
def cancelSessionWith {Cert : Type} (lib : CancelLib Cert) (oid : List ℕ) (rss : RspSessions Cert)
    (transactionId : String) (cancelSessionResponse : Bytes) : Reply × RspSessions Cert :=
  match rss.lookup transactionId with
  | none =>
    (.apiError ⟨"8.10.1", "3.9", "The RSP session identified by the transactionId is unknown"⟩,
      rss)
  | some ss =>
    match (b64decode cancelSessionResponse).bind lib.decodeCancelSessionResponse with
    | none => (.exception, rss)
    | some (.cancelSessionResponseError _) => (.empty, rss)
    | some (.cancelSessionResponseOk ecsr signature) =>
      match lib.encodeEuiccCancelSessionSigned ecsr with
      | none => (.exception, rss)
      | some ecsrBin =>
        match ss.euiccCert with
        | none =>
          (.apiError ⟨"8.10.1", "3.9",
            "Session not authenticated - cannot verify cancel signature"⟩, rss)
        | some cert =>
          match lib.ecdsaVerify cert signature ecsrBin with
          | none => (.exception, rss)
          | some false => (.apiError ⟨"8.1", "6.1", "eUICC signature is invalid"⟩, rss)
          | some true =>
            if ecsr.smdpOid ≠ oid then
              (.apiError ⟨"8.8", "3.10", "The provided SM-DP+ OID is invalid."⟩, rss)
            else
              match lib.h2b transactionId with
              | none => (.exception, rss)
              | some tid =>
                if ecsr.transactionId ≠ tid then
                  (.apiError ⟨"8.10.1", "3.9",
                    "The signed transactionId != outer transactionId"⟩, rss)
                else (.ok transactionId, rss.filter fun s => s.1 ≠ transactionId)

/-- The attribute `oid` of a subject alternative name: the identifier of the extension, the same for
every certificate. -/
def subjectAltNameOid : List ℕ := [2, 5, 29, 17]

/-- `cancelSession`. -/
def cancelSession {Cert : Type} (lib : CancelLib Cert) (rss : RspSessions Cert)
    (transactionId : String) (cancelSessionResponse : Bytes) : Reply × RspSessions Cert :=
  cancelSessionWith lib subjectAltNameOid rss transactionId cancelSessionResponse

/-! ## Agreement -/

/-- What the card signs is the DER encoding of data with its own identifier and reason. -/
theorem signedOctets_eq (transactionId : Bytes) :
    signedOctets transactionId = signedDer ⟨transactionId, cardOid, 0⟩ := rfl

/-- LPA, card and server agree on cancelling: the LPA gets a response to its request, the response
decodes to the transaction and the reason of the request, the signature is over the encoding of the
decoded data, and the server accepts it and deletes the session. -/
def Agrees {Cert : Type} (lib : CancelLib Cert)
    (server : RspSessions Cert → String → Bytes → Reply × RspSessions Cert) (env : ℕ → Card.Env)
    (k : ℕ) (state : Card.EuiccState) (rss : RspSessions Cert) (transactionId : String)
    (tid : Bytes) (reason : CancelSessionReason) : Prop :=
  ∃ b64 c smdpOid signature octets,
    (es10bCancelSession (es10xCommand (cardTransport env)) (some tid) none reason).Returns
      ⟨k, state⟩ b64 c ∧
    (b64decode b64).bind lib.decodeCancelSessionResponse =
      some (.cancelSessionResponseOk ⟨tid, smdpOid, reason.code⟩ signature) ∧
    lib.encodeEuiccCancelSessionSigned ⟨tid, smdpOid, reason.code⟩ = some octets ∧
    Card.signWithKey (env k) state octets = some (some signature) ∧
    server rss transactionId b64 =
      (.ok transactionId, rss.filter fun s => s.1 ≠ transactionId)

section

variable {Cert : Type} {lib : CancelLib Cert} {env : ℕ → Card.Env} {k : ℕ}
  {state : Card.EuiccState}

theorem CancelLib.Lawful.encode_signedOctets (hlib : lib.Lawful) {tid : Bytes}
    (h : tid.length ≤ 16) :
    lib.encodeEuiccCancelSessionSigned ⟨tid, cardOid, 0⟩ = some (signedOctets tid) :=
  hlib.encode_signed tid 0 h (by omega)

/-- The server reads the card's answer. -/
theorem decode_response {env : Card.Env} (hlib : lib.Lawful)
    (h : state.transactionId.length ≤ 16) {signature : Bytes}
    (hsign : Card.signWithKey env state (signedOctets state.transactionId) =
      some (some signature)) :
    (b64decode (base64Encode (responseOctets state.transactionId signature))).bind
      lib.decodeCancelSessionResponse =
      some (.cancelSessionResponseOk ⟨state.transactionId, cardOid, 0⟩ signature) := by
  rw [b64decode_base64Encode, Option.bind_some]
  exact hlib.decode_response _ 0 _ h (by omega) (length_signWithKey hsign)

/-- The server's answer to the card's response. -/
theorem cancelSessionWith_response {env : Card.Env} (hlib : lib.Lawful)
    (h : state.transactionId.length ≤ 16) {rss : RspSessions Cert} {transactionId : String}
    {cert : Cert}
    (hsession : rss.lookup transactionId = some ⟨some cert⟩)
    (hid : lib.h2b transactionId = some state.transactionId) {signature : Bytes}
    (hsign : Card.signWithKey env state (signedOctets state.transactionId) =
      some (some signature))
    (hverify : lib.ecdsaVerify cert signature (signedOctets state.transactionId) = some true)
    (oid : List ℕ) :
    cancelSessionWith lib oid rss transactionId
        (base64Encode (responseOctets state.transactionId signature)) =
      if oid = cardOid then (.ok transactionId, rss.filter fun s => s.1 ≠ transactionId)
      else (.apiError ⟨"8.8", "3.10", "The provided SM-DP+ OID is invalid."⟩, rss) := by
  unfold cancelSessionWith
  simp only [hsession, decode_response hlib h hsign, hlib.encode_signedOctets h, hverify, hid]
  by_cases hoid : oid = cardOid
  · rw [if_pos hoid, hoid]
    simp
  · rw [if_neg hoid, if_pos (Ne.symm hoid)]

/-- **Agreement.** Of a transaction that is the card's current one and belongs to a session that was
authenticated with the card's certificate: the server never accepts the response. If it compared
with another identifier, all would agree exactly if that were the card's, the reason were the one
fixed in the card, and the card could sign. A request for another transaction is answered, if the
card can sign, by a response that names the current one. -/
theorem cancelSession_agreement (hlib : lib.Lawful) {rss : RspSessions Cert}
    {transactionId : String} {cert : Cert} (hid : lib.h2b transactionId = some state.transactionId)
    (hne : state.transactionId ≠ []) (h : state.transactionId.length ≤ 16)
    (hsession : rss.lookup transactionId = some ⟨some cert⟩)
    (hverify : ∀ signature, Card.signWithKey (env k) state (signedOctets state.transactionId) =
      some (some signature) →
        lib.ecdsaVerify cert signature (signedOctets state.transactionId) = some true)
    (reason : CancelSessionReason) :
    (¬ Agrees lib (cancelSession lib) env k state rss transactionId state.transactionId reason) ∧
    (∀ oid, Agrees lib (cancelSessionWith lib oid) env k state rss transactionId
        state.transactionId reason ↔
      oid = cardOid ∧ reason = .endUserRejection ∧ ∃ signature,
        Card.signWithKey (env k) state (signedOctets state.transactionId) =
          some (some signature)) ∧
    ∀ (other : Bytes), other ≠ [] → other.length ≤ 16 → other ≠ state.transactionId →
      ∀ signature, Card.signWithKey (env k) state (signedOctets state.transactionId) =
          some (some signature) →
        ∃ b64 c, (es10bCancelSession (es10xCommand (cardTransport env)) (some other) none
            reason).Returns ⟨k, state⟩ b64 c ∧
          (b64decode b64).bind lib.decodeCancelSessionResponse =
            some (.cancelSessionResponseOk ⟨state.transactionId, cardOid, 0⟩ signature) := by
  have hiff : ∀ oid, Agrees lib (cancelSessionWith lib oid) env k state rss transactionId
      state.transactionId reason ↔
      oid = cardOid ∧ reason = .endUserRejection ∧ ∃ signature,
        Card.signWithKey (env k) state (signedOctets state.transactionId) =
          some (some signature) := by
    intro oid
    constructor
    · rintro ⟨b64, c, smdpOid, signature, octets, hreturns, hdecode, hencode, -, hserver⟩
      obtain ⟨signature', hsign, hb64, hc⟩ := (cancelSession_returns h hne h).1 hreturns
      rw [hb64, decode_response hlib h hsign] at hdecode
      rw [hb64, cancelSessionWith_response hlib h hsession hid hsign (hverify _ hsign)] at hserver
      refine ⟨?_, ?_, signature', hsign⟩
      · by_contra hoid
        rw [if_neg hoid] at hserver
        cases hserver
      · have hreason : (0 : ℕ) = reason.code := by
          simp only [Option.some.injEq, CancelSessionResponse.cancelSessionResponseOk.injEq,
            EuiccCancelSessionSigned.mk.injEq] at hdecode
          exact hdecode.1.2.2
        cases reason <;> first | rfl | cases hreason
    · rintro ⟨rfl, rfl, signature, hsign⟩
      have hserver := cancelSessionWith_response hlib h hsession hid hsign (hverify _ hsign) cardOid
      rw [if_pos rfl] at hserver
      refine ⟨_, _, cardOid, signature, signedOctets state.transactionId,
        (cancelSession_returns h hne h).2 ⟨signature, hsign, rfl, rfl⟩,
        decode_response hlib h hsign, hlib.encode_signedOctets h, hsign, hserver⟩
  refine ⟨fun hagrees => ?_, hiff, fun other hother hlen _ signature hsign => ?_⟩
  · exact absurd ((hiff subjectAltNameOid).1 hagrees).1 (by decide)
  · exact ⟨_, _, (cancelSession_returns h hother hlen).2 ⟨signature, hsign, rfl, rfl⟩,
      decode_response hlib h hsign⟩

end

/-! ## An example -/

/-- Read a response. -/
def sampleDecode (bs : Bytes) : Option CancelSessionResponse := do
  let response ← findTag 0xBF41 bs
  let ok ← findTag 0xA0 response.value
  let signed ← findTag 0x30 ok.value
  let signature ← findTag 0x5F37 ok.value
  let tid ← findTag 0x80 signed.value
  let oid ← findTag 0x81 signed.value
  let reason ← findTag 0x82 signed.value
  if oid.value = oidBytes cardOid then
    return .cancelSessionResponseOk ⟨tid.value, cardOid, bin2long reason.value⟩ signature.value
  else none

/-- Libraries for one transaction; every signature is accepted. -/
def sampleCancelLib : CancelLib Unit where
  h2b s := if s = "0102" then some [1, 2] else none
  decodeCancelSessionResponse := sampleDecode
  encodeEuiccCancelSessionSigned signed := some (signedDer signed)
  ecdsaVerify _ _ _ := some true

theorem sampleCancelLib_lawful : sampleCancelLib.Lawful where
  encode_signed _ _ _ _ := rfl
  decode_response tid reason signature htid hreason hsig := by
    have hoid : (oidBytes cardOid).length = 3 := rfl
    have h80 := Der.length_tlv_le 0x80 (v := tid) (by omega)
    have h81 := Der.length_tlv_le 0x81 (v := oidBytes cardOid) (by omega)
    have h82 := Der.length_tlv_le 0x82 (v := [UInt8.ofNat reason]) (by simp)
    have h5F37 := Der.length_tlv_le 0x5F37 (v := signature) (by omega)
    simp only [List.length_singleton] at h82
    have hfields : Der.tlv 0x80 tid ++ Der.tlv 0x81 (oidBytes cardOid) ++
        Der.tlv 0x82 [UInt8.ofNat reason] =
        Der.tlvs [(0x80, tid), (0x81, oidBytes cardOid), (0x82, [UInt8.ofNat reason])] := by
      simp
    have hlenFields : (Der.tlv 0x80 tid ++ Der.tlv 0x81 (oidBytes cardOid) ++
        Der.tlv 0x82 [UInt8.ofNat reason]).length ≤ 64 := by
      simp only [List.length_append]
      omega
    have h30 := Der.length_tlv_le 0x30 (v := Der.tlv 0x80 tid ++
      Der.tlv 0x81 (oidBytes cardOid) ++ Der.tlv 0x82 [UInt8.ofNat reason]) (by omega)
    have hparts : signedDer ⟨tid, cardOid, reason⟩ ++ Der.tlv 0x5F37 signature =
        Der.tlvs [(0x30, Der.tlv 0x80 tid ++ Der.tlv 0x81 (oidBytes cardOid) ++
          Der.tlv 0x82 [UInt8.ofNat reason]), (0x5F37, signature)] := by
      simp [signedDer]
    have hlenParts : (signedDer ⟨tid, cardOid, reason⟩ ++ Der.tlv 0x5F37 signature).length ≤
        256 := by
      simp only [signedDer, List.length_append] at h30 ⊢
      omega
    have hA0 := Der.length_tlv_le 0xA0 (v := signedDer ⟨tid, cardOid, reason⟩ ++
      Der.tlv 0x5F37 signature) (by omega)
    have hBF41 := Der.length_tlv_le 0xBF41 (v := Der.tlv 0xA0 (signedDer ⟨tid, cardOid, reason⟩ ++
      Der.tlv 0x5F37 signature)) (by omega)
    have htagsFields : ∀ t ∈ ([0x80, 0x81, 0x82] : List ℕ), Der.IsTag t := by decide
    have htagsParts : ∀ t ∈ ([0x30, 0x5F37] : List ℕ), Der.IsTag t := by decide
    have hfield := @findTag_tlvs [(0x80, tid), (0x81, oidBytes cardOid),
      (0x82, [UInt8.ofNat reason])] htagsFields (by rw [← hfields]; omega)
    have hpart := @findTag_tlvs [(0x30, Der.tlv 0x80 tid ++ Der.tlv 0x81 (oidBytes cardOid) ++
      Der.tlv 0x82 [UInt8.ofNat reason]), (0x5F37, signature)] htagsParts
      (by rw [← hparts]; omega)
    have hreason' : bin2long [UInt8.ofNat reason] = reason := by
      have hbyte : (UInt8.ofNat reason).toNat = reason :=
        UInt8.toNat_ofNat_of_lt (by simp only [UInt8.size]; omega)
      rw [bin2long, Der.ofBe, List.foldl_cons, List.foldl_nil, hbyte]
      omega
    rw [← hfields] at hfield
    rw [← hparts] at hpart
    change sampleDecode _ = _
    unfold sampleDecode
    rw [findTag_tlv (by decide) (by omega)]
    simp only [Option.bind_eq_bind, Option.bind_some, Node.of_value]
    rw [findTag_tlv (by decide) (by omega)]
    simp [hpart, hfield, hreason', -List.append_assoc]

/-- A card in the middle of the transaction, with a key. -/
def sampleState : Card.EuiccState :=
  { Card.euiccStateInit with transactionId := [1, 2], euiccPrivateKey := some 1 }

/-- An environment in which signing succeeds. -/
def sampleEnv : Card.Env where
  trailing := []
  rand _ := 0
  uninit := Vector.replicate 13 0
  ecKeypair := none
  sign _ _ := some (1, 1)
  ecdh _ _ := none
  sha256 _ := Vector.replicate 32 0
  file _ := none
  pemReadPrivateKey _ := none

/-- The server's session for the transaction. -/
def sampleSessions : RspSessions Unit := [("0102", ⟨some ()⟩)]

theorem cancelSession_agreement_sample :
    (¬ Agrees sampleCancelLib (cancelSession sampleCancelLib) (fun _ => sampleEnv) 0 sampleState
      sampleSessions "0102" [1, 2] .endUserRejection) ∧
    (∀ oid, Agrees sampleCancelLib (cancelSessionWith sampleCancelLib oid) (fun _ => sampleEnv) 0
        sampleState sampleSessions "0102" [1, 2] .endUserRejection ↔
      oid = cardOid ∧ CancelSessionReason.endUserRejection = .endUserRejection ∧ ∃ signature,
        Card.signWithKey sampleEnv sampleState (signedOctets [1, 2]) = some (some signature)) ∧
    ∀ (other : Bytes), other ≠ [] → other.length ≤ 16 → other ≠ [1, 2] →
      ∀ signature, Card.signWithKey sampleEnv sampleState (signedOctets [1, 2]) =
          some (some signature) →
        ∃ b64 c, (es10bCancelSession (es10xCommand (cardTransport fun _ => sampleEnv)) (some other)
            none .endUserRejection).Returns ⟨0, sampleState⟩ b64 c ∧
          (b64decode b64).bind sampleCancelLib.decodeCancelSessionResponse =
            some (.cancelSessionResponseOk ⟨[1, 2], cardOid, 0⟩ signature) :=
  cancelSession_agreement sampleCancelLib_lawful rfl (by decide) (by decide) rfl
    (fun _ _ => rfl) .endUserRejection

/-- The LPA postpones the download: the card says that the user rejected it, and the server refuses
the response and keeps the session. -/
theorem cancelSession_disagrees : ∃ b64 c signature,
    (es10bCancelSession (es10xCommand (cardTransport fun _ => sampleEnv)) (some [1, 2]) none
      .postponed).Returns ⟨0, sampleState⟩ b64 c ∧
    (b64decode b64).bind sampleCancelLib.decodeCancelSessionResponse =
      some (.cancelSessionResponseOk ⟨[1, 2], cardOid, 0⟩ signature) ∧
    CancelSessionReason.postponed.code = 1 ∧
    cancelSession sampleCancelLib sampleSessions "0102" b64 =
      (.apiError ⟨"8.8", "3.10", "The provided SM-DP+ OID is invalid."⟩, sampleSessions) := by
  have hsign : Card.signWithKey sampleEnv sampleState (signedOctets sampleState.transactionId) =
      some (some (Der.beBytes 32 1 ++ Der.beBytes 32 1)) := rfl
  have hlen : sampleState.transactionId.length ≤ 16 := by decide
  refine ⟨_, _, _, (cancelSession_returns hlen (by decide) (by decide)).2 ⟨_, hsign, rfl, rfl⟩,
    decode_response sampleCancelLib_lawful hlen hsign, rfl, ?_⟩
  have hsession : sampleSessions.lookup "0102" = some ⟨some ()⟩ := rfl
  have hserver := cancelSessionWith_response sampleCancelLib_lawful hlen hsession rfl hsign rfl
    subjectAltNameOid
  rw [if_neg (by decide)] at hserver
  exact hserver

end VirtualRsp.Smdp
