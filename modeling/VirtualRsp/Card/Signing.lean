import VirtualRsp.Card.Buffers

/-!
# What the card signs

The card has one key, and signs with it in four commands. `SignedMessage` is what it signs there: an
authentication, a download that is prepared, a session that is cancelled, a profile that is
installed.

* `signedMessage`: the message that a handler signs, from the state and the request;
* `handle_congr`: a handler asks for no other signature;
* `SignedMessage.octets_inj`: what is signed for one message is not what is signed for another, of
  the same kind or not.
-/

namespace VirtualRsp.Card

open Run

/-! ## Messages -/

/-- What the card signs. -/
inductive SignedMessage
  | authentication (fields : ServerSigned1) (matchingId : Bytes)
  | download (transactionId : Bytes) (euiccOtpk : Vector UInt8 65) (smdpSignature2 : Bytes)
  | cancellation (transactionId : Bytes)
  | installation (transactionId seqNumber : Bytes)

namespace SignedMessage

/-- The tag of the data object that is signed. -/
def tag : SignedMessage → ℕ
  | .authentication .. | .download .. | .cancellation .. => 0x30
  | .installation .. => 0xBF27

/-- The objects in it. -/
def objects : SignedMessage → List (ℕ × Bytes)
  | .authentication fields matchingId =>
    [(0x80, fields.transactionId), (0x83, fields.serverAddress), (0x84, fields.serverChallenge),
      (0xBF22, buildEuiccinfo2),
      (0xA0, Der.tlvs ((if matchingId = [] then [] else [(0x80, matchingId)]) ++
        [(0xA1, deviceInfo)]))]
  | .download transactionId euiccOtpk _ => [(0x80, transactionId), (0x5F49, euiccOtpk.toList)]
  | .cancellation transactionId =>
    [(0x80, transactionId), (0x81, [0x88, 0x37, 0x0A]), (0x82, [0x00])]
  | .installation transactionId seqNumber =>
    [(0x80, transactionId),
      (0xBF2F, Der.tlvs [(0x80, seqNumber), (0x81, [0x01, 0x80]), (0x0C, ascii "localhost")]),
      (0x06, [0x88, 0x37, 0x0A]),
      (0xA2, Der.tlvs [(0xA0, Der.tlvs [(0x30, Der.tlvs [(0x4F, [0xA0, 0x00, 0x00, 0x05, 0x59, 0x10,
        0x10, 0xFF, 0xFF, 0xFF, 0xFF, 0x89, 0x00, 0x00, 0x10, 0x00]), (0x04, [0x90, 0x00])])])])]

/-- What is signed behind it. -/
def trailer : SignedMessage → Bytes
  | .download _ _ smdpSignature2 => smdpSignature2
  | .authentication .. | .cancellation .. | .installation .. => []

/-- The bytes that are signed. -/
def octets (m : SignedMessage) : Bytes := Der.tlv m.tag (Der.tlvs m.objects) ++ m.trailer

/-- Bounds of what the card reads, and of what it keeps. -/
def Bounded : SignedMessage → Prop
  | .authentication fields matchingId => fields.Bounds ∧ matchingId.length ≤ 127
  | .download transactionId _ smdpSignature2 =>
    transactionId.length ≤ 16 ∧ smdpSignature2.length ≤ 130
  | .cancellation transactionId => transactionId.length ≤ 16
  | .installation transactionId seqNumber => transactionId.length ≤ 16 ∧ seqNumber.length ≤ 4

end SignedMessage

/-- The message that a handler signs. -/
def signedMessage (env : Env) (state : EuiccState) (cmd : Command) :
    Es10xCommand → Option SignedMessage
  | .authenticateServer => do
    return .authentication (← findServerSigned1 state cmd) (cstr (← findMatchingId cmd))
  | .prepareDownload => do
    let transactionId ← findTransactionId state cmd
    let smdpSignature2 ← findSmdpSignature2 cmd
    let euiccOtpk ← env.ecKeypair.bind fun keypair => keypair.priv.bind fun _ => keypair.pub
    return .download transactionId euiccOtpk (smdpSignature2.getD [])
  | .cancelSession => some (.cancellation state.transactionId)
  | .sequenceOf86 =>
    some (.installation state.transactionId (seqNumBytes state.notificationSeqNumber))
  | _ => none

section

variable {env : Env} {s s' : EuiccState} {cmd : Command} {r : Option Bytes}

/-! ## The octets -/

theorem signed1_octets {fields : ServerSigned1} {matchingId signed1 : Bytes}
    (h : euiccSigned1 fields matchingId = some signed1) :
    signed1 = (SignedMessage.authentication fields (cstr matchingId)).octets := by
  simp only [euiccSigned1, Option.bind_eq_bind, Option.bind_eq_some_iff] at h
  obtain ⟨ctx, hctx, content, hcontent, h⟩ := h
  cases h
  obtain rfl := puts_eq_some hctx
  obtain rfl := puts_eq_some hcontent
  rw [SignedMessage.octets, SignedMessage.trailer, List.append_nil]
  by_cases hid : cstr matchingId = []
  · simp [SignedMessage.objects, SignedMessage.tag, buildTlv_eq, hid]
  · simp [SignedMessage.objects, SignedMessage.tag, buildTlv_eq, hid, List.length_pos_iff]

theorem signed2_octets {transactionId signed2 : Bytes} {euiccOtpk : Vector UInt8 65}
    (h : euiccSigned2 transactionId euiccOtpk = some signed2) (smdpSignature2 : Option Bytes) :
    prepareDownloadInput signed2 smdpSignature2 =
      (SignedMessage.download transactionId euiccOtpk (smdpSignature2.getD [])).octets := by
  obtain ⟨content, hcontent, rfl⟩ := Option.map_eq_some_iff.1 h
  obtain rfl := puts_eq_some hcontent
  simp [prepareDownloadInput, SignedMessage.octets, SignedMessage.objects, SignedMessage.tag,
    SignedMessage.trailer, buildTlv_eq]

theorem cancelSessionSigned_octets {signed : Bytes} (h : cancelSessionSigned s = some signed) :
    signed = (SignedMessage.cancellation s.transactionId).octets := by
  obtain ⟨content, hcontent, rfl⟩ := Option.map_eq_some_iff.1 h
  obtain rfl := puts_eq_some hcontent
  simp [SignedMessage.octets, SignedMessage.objects, SignedMessage.tag, SignedMessage.trailer,
    buildTlv_eq, Der.tlv_short]

theorem resultData_octets {data : Bytes} (h : profileInstallationResultData s = some data) :
    data = (SignedMessage.installation s.transactionId
      (seqNumBytes s.notificationSeqNumber)).octets := by
  obtain ⟨content, hcontent, rfl⟩ := Option.map_eq_some_iff.1 h
  obtain rfl := puts_eq_some hcontent
  simp [SignedMessage.octets, SignedMessage.objects, SignedMessage.tag, SignedMessage.trailer,
    buildTlv_eq, notificationMetadata, successResult, Der.tlv_short]

/-! ## No other signature -/

variable {f : PrivateKey → Bytes → Option (ℕ × ℕ)}

theorem signWithKey_congr (env env' : Env) {data : Bytes}
    (h : ∀ key, s.euiccPrivateKey = some key → env'.sign key data = env.sign key data) :
    signWithKey env' s data = signWithKey env s data := by
  unfold signWithKey
  split
  · rfl
  · rename_i key hkey
    simp only [ecdsaSign, h key hkey]

theorem authenticateServer_congr (h : ∀ m key,
    signedMessage env s cmd .authenticateServer = some m → s.euiccPrivateKey = some key →
      f key m.octets = env.sign key m.octets) :
    authenticateServer { env with sign := f } s cmd = authenticateServer env s cmd := by
  unfold authenticateServer
  cases hfields : findServerSigned1 s cmd with
  | none => rfl
  | some fields =>
    cases hid : findMatchingId cmd with
    | none => rfl
    | some matchingId =>
      simp only [Option.bind_eq_bind, Option.bind_some]
      cases hsigned : euiccSigned1 fields matchingId with
      | none => rfl
      | some signed1 =>
        have hsign : signedMessage env s cmd .authenticateServer =
            some (.authentication fields (cstr matchingId)) := by
          simp only [signedMessage, hfields, hid, Option.bind_eq_bind, Option.bind_some,
            Option.pure_def]
        simp only [Option.bind_some]
        rw [signWithKey_congr env]
        intro key hkey
        rw [signed1_octets hsigned]
        exact h _ key hsign hkey

theorem prepareDownload_congr (h : ∀ m key,
    signedMessage env s cmd .prepareDownload = some m → s.euiccPrivateKey = some key →
      f key m.octets = env.sign key m.octets) :
    prepareDownload { env with sign := f } s cmd = prepareDownload env s cmd := by
  unfold prepareDownload
  cases htid : findTransactionId s cmd with
  | none => rfl
  | some transactionId =>
    cases hsig : findSmdpSignature2 cmd with
    | none => rfl
    | some smdpSignature2 =>
      simp only [Option.bind_eq_bind, Option.bind_some]
      cases hkeypair : env.ecKeypair with
      | none => rfl
      | some keypair =>
        obtain ⟨pub, priv⟩ := keypair
        cases pub with
        | none => rfl
        | some euiccOtpk =>
          cases priv with
          | none => rfl
          | some euiccOtsk =>
            dsimp only
            cases hsigned : euiccSigned2 transactionId euiccOtpk with
            | none => rfl
            | some signed2 =>
              have hsign : signedMessage env s cmd .prepareDownload =
                  some (.download transactionId euiccOtpk (smdpSignature2.getD [])) := by
                simp only [signedMessage, htid, hsig, hkeypair, Option.bind_eq_bind,
                  Option.bind_some, Option.pure_def]
              simp only [Option.bind_some]
              rw [signWithKey_congr env]
              intro key hkey
              rw [signed2_octets hsigned]
              exact h _ key hsign hkey

theorem cancelSession_congr (h : ∀ key, s.euiccPrivateKey = some key →
    f key (SignedMessage.cancellation s.transactionId).octets =
      env.sign key (SignedMessage.cancellation s.transactionId).octets) :
    cancelSession { env with sign := f } s = cancelSession env s := by
  unfold cancelSession
  cases hsigned : cancelSessionSigned s with
  | none => rfl
  | some signed =>
    simp only [Option.bind_eq_bind, Option.bind_some]
    rw [signWithKey_congr env]
    rw [cancelSessionSigned_octets hsigned]
    exact h

theorem profileInstallationResult_congr (h : ∀ key, s.euiccPrivateKey = some key →
    f key (SignedMessage.installation s.transactionId
        (seqNumBytes s.notificationSeqNumber)).octets =
      env.sign key (SignedMessage.installation s.transactionId
        (seqNumBytes s.notificationSeqNumber)).octets) :
    profileInstallationResult { env with sign := f } s = profileInstallationResult env s := by
  unfold profileInstallationResult
  cases hdata : profileInstallationResultData s with
  | none => rfl
  | some data =>
    simp only [Option.bind_eq_bind, Option.bind_some]
    rw [signWithKey_congr env]
    rw [resultData_octets hdata]
    exact h

/-- Collecting and installing a package leaves what its result is made from. -/
theorem installed_frame {t : EuiccState} (hs : storeSegment s cmd = some t)
    (hi : installProfile t = some s') :
    s'.transactionId = s.transactionId ∧ s'.euiccPrivateKey = s.euiccPrivateKey ∧
      s'.notificationSeqNumber = s.notificationSeqNumber := by
  obtain ⟨_, _, -, -, rfl⟩ := storeSegment_frame hs
  obtain ⟨-, rfl⟩ | ⟨-, _, rfl⟩ := installProfile_frame hi
  · exact ⟨rfl, rfl, rfl⟩
  · exact ⟨rfl, rfl, rfl⟩

theorem sequenceOf86_congr (h : ∀ m key,
    signedMessage env s cmd .sequenceOf86 = some m → s.euiccPrivateKey = some key →
      f key m.octets = env.sign key m.octets) :
    sequenceOf86 { env with sign := f } s cmd = sequenceOf86 env s cmd := by
  unfold sequenceOf86
  cases hs : storeSegment s cmd with
  | none => rfl
  | some t =>
    simp only [Option.bind_eq_bind, Option.bind_some]
    cases hi : installProfile t with
    | none => rfl
    | some s' =>
      obtain ⟨htid, hkey, hseq⟩ := installed_frame hs hi
      simp only [Option.bind_some]
      rw [profileInstallationResult_congr]
      rw [htid, hkey, hseq]
      exact fun key => h _ key rfl

/-- **A handler** depends on no other signature than the one over its message. -/
theorem handle_congr {c : Es10xCommand} (h : ∀ m key, signedMessage env s cmd c = some m →
    s.euiccPrivateKey = some key → f key m.octets = env.sign key m.octets) :
    c.handle { env with sign := f } s cmd = c.handle env s cmd := by
  cases c with
  | authenticateServer => exact authenticateServer_congr h
  | prepareDownload => exact prepareDownload_congr h
  | cancelSession => exact cancelSession_congr fun key => h _ key rfl
  | sequenceOf86 => exact sequenceOf86_congr h
  | _ => rfl

/-- **A request** depends on no other signature. -/
theorem handleRequest_congr {request : Request} (h : ∀ t cmd c m key,
    handlerInput env s request = some (t, cmd, c) → signedMessage env t cmd c = some m →
      t.euiccPrivateKey = some key → f key m.octets = env.sign key m.octets) :
    handleRequest { env with sign := f } s request = handleRequest env s request := by
  by_cases hf : request.func = .transmit
  · have htransmit : apduHandleTransmit { env with sign := f } s request.param =
        apduHandleTransmit env s request.param := by
      have hreceive : receiveApdu { env with sign := f } s request.param =
          receiveApdu env s request.param := rfl
      unfold apduHandleTransmit
      rw [hreceive]
      cases hr : receiveApdu env s request.param with
      | none => rfl
      | some received =>
        obtain ⟨t, apdu⟩ := received
        cases apdu with
        | reply response => rfl
        | complete cmd =>
          change processEs10xCommand { env with sign := f } t cmd = processEs10xCommand env t cmd
          unfold processEs10xCommand
          by_cases hlen : cmd.len < 2
          · rw [if_pos hlen, if_pos hlen]
          · rw [if_neg hlen, if_neg hlen]
            cases hd : decodeCommand cmd with
            | none => rfl
            | some decoded =>
              obtain ⟨inner, c⟩ := decoded
              have hc : handlerInput env s request = some (t, inner, c) := by
                rw [handlerInput, if_pos hf, hr]
                dsimp only
                rw [if_neg hlen, hd, Option.map_some]
              simp only [Option.bind_eq_bind, Option.bind_some]
              rw [handle_congr fun m key => h t inner c m key hc]
    simp only [handleRequest, hf, htransmit]
  · unfold handleRequest
    cases hfunc : request.func with
    | transmit => exact absurd hfunc hf
    | _ => rfl

/-! ## No two messages with the same octets -/

theorem length_cstr_le (bs : Bytes) : (cstr bs).length ≤ bs.length :=
  (List.takeWhile_sublist _).length_le

theorem length_smdpSignature2At {i : ℕ} {sig : Bytes}
    (h : smdpSignature2At cmd i = some (some sig)) : sig.length ≤ 127 := by
  unfold smdpSignature2At at h
  obtain ⟨a, -, h⟩ := Option.bind_eq_some_iff.1 h
  split_ifs at h
  · cases h
  obtain ⟨b, -, h⟩ := Option.bind_eq_some_iff.1 h
  split_ifs at h
  · cases h
  obtain ⟨len, -, h⟩ := Option.bind_eq_some_iff.1 h
  split_ifs at h with hlen
  · obtain ⟨sig', hsig, h⟩ := Option.bind_eq_some_iff.1 h
    cases h
    have := readN_eq_some hsig
    omega
  · cases h

theorem length_findSmdpSignature2 {smdpSignature2 : Option Bytes}
    (h : findSmdpSignature2 cmd = some smdpSignature2) :
    (smdpSignature2.getD []).length ≤ 130 := by
  obtain ⟨found, hfound, rfl⟩ := Option.map_eq_some_iff.1 h
  have hlen : ∀ sig ∈ found, sig.length ≤ 127 := by
    refine loop_result (Q := fun found => ∀ sig ∈ found, sig.length ≤ 127) ?_ hfound
    intro i found hdone sig hsig
    unfold findSmdpSignature2Body at hdone
    split_ifs at hdone
    · cases hdone
      cases hsig
    · obtain ⟨at?, hat, hdone⟩ := Option.bind_eq_some_iff.1 hdone
      cases at? with
      | none => cases hdone
      | some sig' =>
        cases hdone
        cases hsig
        exact length_smdpSignature2At hat
  cases found with
  | none => exact Nat.zero_le _
  | some sig =>
    have hsig := hlen sig rfl
    simp only [Option.map_some, Option.getD_some, List.cons_append, List.nil_append,
      List.length_cons]
    omega

/-- **In bounds.** A card whose state is in bounds signs messages in bounds. -/
theorem signedMessage_bounded {c : Es10xCommand} {m : SignedMessage} (hs : s.Bounds)
    (h : signedMessage env s cmd c = some m) : m.Bounded := by
  cases c with
  | authenticateServer =>
    obtain ⟨fields, hfields, h⟩ := Option.bind_eq_some_iff.1 h
    obtain ⟨matchingId, hid, h⟩ := Option.bind_eq_some_iff.1 h
    cases h
    exact ⟨findServerSigned1_bounds hs.transactionId hs.serverChallenge hfields,
      (length_cstr_le matchingId).trans (length_findMatchingId hid)⟩
  | prepareDownload =>
    obtain ⟨transactionId, htid, h⟩ := Option.bind_eq_some_iff.1 h
    obtain ⟨smdpSignature2, hsignature, h⟩ := Option.bind_eq_some_iff.1 h
    obtain ⟨euiccOtpk, -, h⟩ := Option.bind_eq_some_iff.1 h
    cases h
    exact ⟨length_findTransactionId hs.transactionId htid, length_findSmdpSignature2 hsignature⟩
  | cancelSession =>
    cases h
    exact hs.transactionId
  | sequenceOf86 =>
    cases h
    exact ⟨hs.transactionId, length_seqNumBytes _⟩
  | _ => cases h

namespace SignedMessage

variable {m m' : SignedMessage}

theorem isTag_tag (m : SignedMessage) : Der.IsTag m.tag := by
  cases m <;> simp [tag, Der.IsTag]

theorem isTag_objects (m : SignedMessage) : ∀ x ∈ m.objects, Der.IsTag x.1 := by
  cases m <;> simp [objects, Der.IsTag]

/-- The objects of the context parameters. -/
theorem isTag_ctxParams (matchingId : Bytes) :
    ∀ x ∈ (if matchingId = [] then [] else [(0x80, matchingId)]) ++ [(0xA1, deviceInfo)],
      Der.IsTag x.1 := by
  split <;> simp [Der.IsTag]

theorem length_tlv_le {t n : ℕ} {v : Bytes} (hv : v.length ≤ n) (hn : n < 2 ^ 32) :
    (Der.tlv t v).length ≤ n + 7 :=
  buildTlv_eq t v ▸ length_buildTlv_le t hv hn

theorem length_ctxParams_le {matchingId : Bytes} (h : matchingId.length ≤ 127) :
    (Der.tlvs ((if matchingId = [] then [] else [(0x80, matchingId)]) ++
      [(0xA1, deviceInfo)])).length ≤ 159 := by
  have hdevice := length_tlv_le (t := 0xA1) length_deviceInfo (by decide)
  have hid := length_tlv_le (t := 0x80) h (by decide)
  rw [Der.tlvs_append, List.length_append]
  split
  · simp only [Der.tlvs_cons, Der.tlvs_nil, List.append_nil, List.length_nil]
    omega
  · simp only [Der.tlvs_cons, Der.tlvs_nil, List.append_nil]
    omega

theorem length_notificationMetadata_le {seqNumber : Bytes} (h : seqNumber.length ≤ 4) :
    (Der.tlv 0xBF2F (Der.tlvs [(0x80, seqNumber), (0x81, [0x01, 0x80]),
      (0x0C, ascii "localhost")])).length ≤ 43 := by
  have hseq := length_tlv_le (t := 0x80) h (by decide)
  have hoperation := length_tlv_le (t := 0x81) (v := [0x01, 0x80]) le_rfl (by decide)
  have haddress := length_tlv_le (t := 0x0C) (v := ascii "localhost") (n := 9) (by decide)
    (by decide)
  refine length_tlv_le (n := 36) ?_ (by decide)
  simp only [Der.tlvs_cons, Der.tlvs_nil, List.append_nil, List.length_append]
  simp only [List.length_cons, List.length_nil] at hoperation
  omega

theorem length_objects_lt (h : m.Bounded) : (Der.tlvs m.objects).length < 2 ^ 32 := by
  have hid : ∀ {transactionId : Bytes}, transactionId.length ≤ 16 →
      (Der.tlv 0x80 transactionId).length ≤ 23 := fun htid => length_tlv_le htid (by decide)
  cases m with
  | authentication fields matchingId =>
    obtain ⟨hfields, hmatching⟩ := h
    have htid := hid hfields.transactionId
    have haddress := length_tlv_le (t := 0x83) hfields.serverAddress (by decide)
    have hchallenge := length_tlv_le (t := 0x84) hfields.serverChallenge (by decide)
    have hinfo := length_tlv_le (t := 0xBF22) (show buildEuiccinfo2.length ≤ 72 by decide)
      (by decide)
    have hctx := length_tlv_le (t := 0xA0) (length_ctxParams_le hmatching) (by decide)
    simp only [objects, Der.tlvs_cons, Der.tlvs_nil, List.append_nil, List.length_append]
      at hctx ⊢
    omega
  | download transactionId euiccOtpk smdpSignature2 =>
    have htid := hid h.1
    have hotpk := length_tlv_le (t := 0x5F49) (v := euiccOtpk.toList) (n := 65) (by simp)
      (by decide)
    simp only [objects, Der.tlvs_cons, Der.tlvs_nil, List.append_nil, List.length_append]
    omega
  | cancellation transactionId =>
    have htid := hid h
    have hoid := length_tlv_le (t := 0x81) (v := [0x88, 0x37, 0x0A]) le_rfl (by decide)
    have hreason := length_tlv_le (t := 0x82) (v := [0x00]) le_rfl (by decide)
    simp only [objects, Der.tlvs_cons, Der.tlvs_nil, List.append_nil, List.length_append]
    simp only [List.length_cons, List.length_nil] at hoid hreason
    omega
  | installation transactionId seqNumber =>
    obtain ⟨htransaction, hseqNumber⟩ := h
    have htid := hid htransaction
    have hmetadata := length_notificationMetadata_le hseqNumber
    have hoid := length_tlv_le (t := 0x06) (v := [0x88, 0x37, 0x0A]) le_rfl (by decide)
    have hresult : (Der.tlv 0xA2 (Der.tlvs [(0xA0, Der.tlvs [(0x30, Der.tlvs [(0x4F, [0xA0, 0x00,
        0x00, 0x05, 0x59, 0x10, 0x10, 0xFF, 0xFF, 0xFF, 0xFF, 0x89, 0x00, 0x00, 0x10, 0x00]),
        (0x04, [0x90, 0x00])])])])).length ≤ 43 := by
      simp [Der.tlv_short]
    simp only [objects, Der.tlvs_cons, Der.tlvs_nil, List.append_nil, List.length_append]
      at hmetadata hresult ⊢
    simp only [List.length_cons, List.length_nil] at hoid
    omega

theorem length_objects_lt_pow (hm : m.Bounded) : (Der.tlvs m.objects).length < 256 ^ 126 :=
  Der.lt_pow_of_lt (Nat.lt_of_lt_of_le (length_objects_lt hm) (by decide))

theorem length_octets_lt (h : m.Bounded) : m.octets.length < 2 ^ 33 := by
  have hobjects := Der.length_tlv_le m.tag (length_objects_lt h)
  have hlt := length_objects_lt h
  have htrailer : m.trailer.length ≤ 130 := by
    cases m with
    | download transactionId euiccOtpk smdpSignature2 => exact h.2
    | authentication => exact Nat.zero_le _
    | cancellation => exact Nat.zero_le _
    | installation => exact Nat.zero_le _
  rw [octets, List.length_append]
  omega

/-- The objects of the context parameters determine the matching identifier. -/
theorem ctxParams_inj {matchingId matchingId' : Bytes} (hid : matchingId.length ≤ 127)
    (h : Der.tlvs ((if matchingId = [] then [] else [(0x80, matchingId)]) ++
        [(0xA1, deviceInfo)]) =
      Der.tlvs ((if matchingId' = [] then [] else [(0x80, matchingId')]) ++
        [(0xA1, deviceInfo)])) : matchingId = matchingId' := by
  have hlength := length_ctxParams_le hid
  have hobjects := Der.tlvs_inj (isTag_ctxParams matchingId) (isTag_ctxParams matchingId')
    (Der.lt_pow_of_lt (by omega)) h
  split at hobjects
  · split at hobjects
    · simp_all
    · simp at hobjects
  · split at hobjects
    · simp at hobjects
    · simpa using hobjects

/-- **Messages are determined by their octets.** -/
theorem octets_inj (hm : m.Bounded) (hm' : m'.Bounded) (h : m.octets = m'.octets) : m = m' := by
  obtain ⟨htag, hobjects, htrailer⟩ := Der.tlv_append_inj m.isTag_tag m'.isTag_tag
    (length_objects_lt_pow hm) (length_objects_lt_pow hm') h
  have hobjects := Der.tlvs_inj m.isTag_objects m'.isTag_objects (length_objects_lt_pow hm) hobjects
  cases m with
  | authentication fields matchingId =>
    cases m' with
    | authentication fields' matchingId' =>
      simp only [objects, List.cons.injEq, Prod.mk.injEq, true_and, and_true] at hobjects
      obtain ⟨htid, haddress, hchallenge, hctx⟩ := hobjects
      have hfields : fields = fields' := by
        obtain ⟨transactionId, serverChallenge, serverAddress⟩ := fields
        obtain ⟨transactionId', serverChallenge', serverAddress'⟩ := fields'
        obtain rfl : transactionId = transactionId' := htid
        obtain rfl : serverChallenge = serverChallenge' := hchallenge
        obtain rfl : serverAddress = serverAddress' := haddress
        rfl
      rw [hfields, ctxParams_inj hm.2 hctx]
    | _ => simp [objects] at hobjects
  | download transactionId euiccOtpk smdpSignature2 =>
    cases m' with
    | download transactionId' euiccOtpk' smdpSignature2' =>
      simp only [objects, List.cons.injEq, Prod.mk.injEq, true_and, and_true] at hobjects
      obtain ⟨rfl, hotpk⟩ := hobjects
      obtain rfl := Vector.toList_inj.1 hotpk
      obtain rfl : smdpSignature2 = smdpSignature2' := htrailer
      rfl
    | _ => simp [objects] at hobjects
  | cancellation transactionId =>
    cases m' with
    | cancellation transactionId' =>
      simp only [objects, List.cons.injEq, Prod.mk.injEq, true_and, and_true] at hobjects
      rw [hobjects]
    | _ => simp [objects] at hobjects
  | installation transactionId seqNumber =>
    cases m' with
    | installation transactionId' seqNumber' =>
      simp only [objects, List.cons.injEq, Prod.mk.injEq, true_and, and_true] at hobjects
      obtain ⟨rfl, hmetadata⟩ := hobjects
      have htag : Der.IsTag 0x80 := by decide
      have hlt : seqNumber.length < 2 ^ 33 := Nat.lt_of_le_of_lt hm.2 (by decide)
      have hlt' : seqNumber'.length < 2 ^ 33 := Nat.lt_of_le_of_lt hm'.2 (by decide)
      obtain ⟨-, hseq, -⟩ := Der.tlv_append_inj htag htag (Der.lt_pow_of_lt hlt)
        (Der.lt_pow_of_lt hlt') hmetadata
      rw [hseq]
    | _ => simp [objects] at hobjects

end SignedMessage

/-! ## Runs -/

/-- The message that is signed in a step. -/
def signedIn (t : Step Daemon Event) : Option SignedMessage :=
  match t.event with
  | .accept => none
  | .request env request => do
    let (state, cmd, c) ← handlerInput env t.pre.globalState request
    let m ← signedMessage env state cmd c
    let key ← state.euiccPrivateKey
    let _ ← env.sign key m.octets
    return m

theorem signedIn_bounded {t : Step Daemon Event} {es : List Event}
    (ht : t ∈ trace daemonStep .start es) {m : SignedMessage} (h : signedIn t = some m) :
    m.Bounded := by
  unfold signedIn at h
  split at h
  · cases h
  · obtain ⟨⟨state, cmd, c⟩, hc, h⟩ := Option.bind_eq_some_iff.1 h
    obtain ⟨m', hm, h⟩ := Option.bind_eq_some_iff.1 h
    obtain ⟨key, -, h⟩ := Option.bind_eq_some_iff.1 h
    obtain ⟨signature, -, h⟩ := Option.bind_eq_some_iff.1 h
    cases h
    obtain ⟨b, rfl⟩ := handlerInput_frame hc
    have hs := bounds_of_reachable (mem_trace .init ht).1
    exact signedMessage_bounded ⟨hs.transactionId, hs.serverChallenge⟩ hm

/-- **What is signed.** In every run of the card, a request depends on no other signature than one
over the octets of the message that its handler signs; and the octets that are signed, in this run
or in any other, are those of one message only. -/
theorem signatures_separate {es : List Event} {t : Step Daemon Event}
    (ht : t ∈ trace daemonStep .start es) :
    (∀ env request, t.event = .request env request → ∀ f, (∀ state cmd c m key,
        handlerInput env t.pre.globalState request = some (state, cmd, c) →
        signedMessage env state cmd c = some m → state.euiccPrivateKey = some key →
          f key m.octets = env.sign key m.octets) →
      handleRequest { env with sign := f } t.pre.globalState request =
        handleRequest env t.pre.globalState request) ∧
    ∀ es', ∀ t' ∈ trace daemonStep .start es', ∀ m m', signedIn t = some m →
      signedIn t' = some m' → m.octets = m'.octets → m = m' :=
  ⟨fun _ _ _ _ => handleRequest_congr, fun _ _ ht' _ _ h h' =>
    SignedMessage.octets_inj (signedIn_bounded ht h) (signedIn_bounded ht' h')⟩

theorem signatures_separate_sample : ∃ t ∈ trace daemonStep .start sampleInstall,
    (signedIn t).isSome ∧
    (∀ env request, t.event = .request env request → ∀ f, (∀ state cmd c m key,
        handlerInput env t.pre.globalState request = some (state, cmd, c) →
        signedMessage env state cmd c = some m → state.euiccPrivateKey = some key →
          f key m.octets = env.sign key m.octets) →
      handleRequest { env with sign := f } t.pre.globalState request =
        handleRequest env t.pre.globalState request) ∧
    ∀ es', ∀ t' ∈ trace daemonStep .start es', ∀ m m', signedIn t = some m →
      signedIn t' = some m' → m.octets = m'.octets → m = m' := by
  have hsigns : (trace daemonStep .start sampleInstall)[3]?.any fun t => (signedIn t).isSome := by
    decide +kernel
  obtain ⟨t, ht, hsigns⟩ := (Option.any_eq_true _ _).1 hsigns
  have hmem := List.mem_of_getElem? ht
  exact ⟨t, hmem, hsigns, signatures_separate hmem⟩

end

end VirtualRsp.Card
