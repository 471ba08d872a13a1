import VirtualRsp.Lpa.Base64Lengths
import VirtualRsp.Lpa.Derutil
import VirtualRsp.Lpa.Es10x

/-!
# Cancelling a session

`es10bCancelSession` asks the card to cancel a session: the request names the transaction and a
reason. The card signs a response without a look at the request (`Card.cancelSession`), and the LPA
passes it on in base64. `cancelSession_returns` says what the LPA gets.
-/

namespace VirtualRsp.Lpa

/-- The reasons that the LPA can give. -/
inductive CancelSessionReason
  | endUserRejection
  | postponed
  | timeout
  | pprNotAllowed
  | metadataMismatch
  | loadBppExecutionError
  | undefined
  deriving DecidableEq

/-- The number of a reason. -/
def CancelSessionReason.code : CancelSessionReason → ℕ
  | .endUserRejection => 0
  | .postponed => 1
  | .timeout => 2
  | .pprNotAllowed => 3
  | .metadataMismatch => 4
  | .loadBppExecutionError => 5
  | .undefined => 127

/-- The number of bytes that a `long` takes: up to the last byte that is not zero, and one more if
its top bit would make the number negative. The first argument is the number of rounds left. -/
def requiredLen (value : ℕ) : ℕ → ℕ → ℕ → ℕ
  | 0, _, len => len
  | n + 1, i, len =>
    if value / 256 ^ i ≠ 0 then requiredLen value n (i + 1) (len + 1)
    else if 0 < value ∧ 128 ≤ value / 256 ^ (i - 1) % 256 then len + 1
    else len

/-- `euicc_derutil_convert_long2bin`, for numbers that are not negative. -/
def convertLong2bin (bufferLen value : ℕ) : Option Bytes :=
  let len := requiredLen value 7 1 1
  if bufferLen < len then none else some (Der.beBytes len value)

/-- The request. It must fit a buffer of 255 bytes. -/
def cancelSessionRequest (transactionId : Bytes) (reason : CancelSessionReason) : Option Bytes := do
  let reasonBuf ← convertLong2bin 4 reason.code
  let request := pack 0xBF41 (pack 0x80 transactionId ++ pack 0x81 reasonBuf)
  if request.length ≤ 255 then some request else none

variable {σ : Type}

/-- `es10b_cancel_session_r`: the response in base64. -/
def es10bCancelSessionR (command : Bytes → Program σ Bytes) (transactionId : Bytes)
    (reason : CancelSessionReason) : Program σ Bytes := do
  let request ← .ofOption (cancelSessionRequest transactionId reason)
  let respbuf ← command request
  let tmpnode ← .ofOption (findTag 0xBF41 respbuf)
  .liftFault (Base64.encodeText tmpnode.self)

/-- `es10b_cancel_session`: there must be a transaction, and no earlier response. -/
def es10bCancelSession (command : Bytes → Program σ Bytes) (transactionIdBin : Option Bytes)
    (b64CancelSessionResponse : Option Bytes) (reason : CancelSessionReason) : Program σ Bytes :=
  match transactionIdBin with
  | none => .fail
  | some transactionId =>
    if transactionId.length = 0 then .fail
    else if b64CancelSessionResponse.isSome then .fail
    else es10bCancelSessionR command transactionId reason

/-! ## What the card answers -/

/-- The octets that the card signs for a transaction: the object identifier and the reason are
fixed. -/
def signedOctets (transactionId : Bytes) : Bytes :=
  Der.tlv 0x30 (Der.tlv 0x80 transactionId ++ Der.tlv 0x81 [0x88, 0x37, 0x0A] ++
    Der.tlv 0x82 [0x00])

/-- The response with a signature. -/
def responseOctets (transactionId signature : Bytes) : Bytes :=
  Der.tlv 0xBF41 (Der.tlv 0xA0 (signedOctets transactionId ++ Der.tlv 0x5F37 signature))

variable {env : ℕ → Card.Env} {state : Card.EuiccState}

theorem length_signedOctets {transactionId : Bytes} (h : transactionId.length ≤ 16) :
    (signedOctets transactionId).length ≤ 64 := by
  have h80 := Der.length_tlv_le 0x80 (v := transactionId) (by omega)
  have h81 := Der.length_tlv_le 0x81 (v := [0x88, 0x37, 0x0A]) (by decide)
  have h82 := Der.length_tlv_le 0x82 (v := [0x00]) (by decide)
  simp only [List.length_cons, List.length_nil] at h81 h82
  have h30 := Der.length_tlv_le 0x30 (v := Der.tlv 0x80 transactionId ++
    Der.tlv 0x81 [0x88, 0x37, 0x0A] ++ Der.tlv 0x82 [0x00])
    (by simp only [List.length_append]; omega)
  simp only [List.length_append] at h30
  unfold signedOctets
  omega

theorem length_signWithKey {env : Card.Env} {data signature : Bytes}
    (h : Card.signWithKey env state data = some (some signature)) : signature.length = 64 := by
  unfold Card.signWithKey at h
  split at h
  · cases h
  · exact Card.length_ecdsaSign h

theorem length_responseOctets {transactionId signature : Bytes} (h : transactionId.length ≤ 16)
    (hsig : signature.length = 64) :
    (responseOctets transactionId signature).length ≤ Base64.maxLen := by
  have hsigned := length_signedOctets h
  have h5F37 := Der.length_tlv_le 0x5F37 (v := signature) (by omega)
  have hA0 := Der.length_tlv_le 0xA0 (v := signedOctets transactionId ++ Der.tlv 0x5F37 signature)
    (by rw [List.length_append]; omega)
  have hBF41 := Der.length_tlv_le 0xBF41
    (v := Der.tlv 0xA0 (signedOctets transactionId ++ Der.tlv 0x5F37 signature))
    (by rw [List.length_append] at hA0; omega)
  rw [List.length_append] at hA0
  unfold responseOctets
  rw [Base64.maxLen]
  omega

/-- **The card's answer**, whatever the request: for the transaction of its state. -/
theorem cancelSession_card {env : Card.Env} (h : state.transactionId.length ≤ 16) :
    Card.cancelSession env state =
      (Card.signWithKey env state (signedOctets state.transactionId)).map fun signature =>
        (state, signature.map (responseOctets state.transactionId)) := by
  have hsigned : Card.cancelSessionSigned state = some (signedOctets state.transactionId) := by
    have h80 := Der.length_tlv_le 0x80 (v := state.transactionId) (by omega)
    unfold Card.cancelSessionSigned
    rw [puts_of_le]
    · simp only [Option.map_some, Card.buildTlv_eq, List.nil_append, List.flatten_cons,
        List.flatten_nil, List.append_nil, signedOctets, List.append_assoc]
      rfl
    · simp only [List.length_nil, List.flatten_cons, List.flatten_nil, List.length_append,
        List.length_cons, Card.buildTlv_eq]
      omega
  unfold Card.cancelSession
  rw [hsigned]
  simp only [Option.bind_eq_bind, Option.bind_some]
  cases hsign : Card.signWithKey env state (signedOctets state.transactionId) with
  | none => rfl
  | some signature =>
    cases signature with
    | none => rfl
    | some signature =>
      have hlen := length_signWithKey hsign
      have hoctets := length_signedOctets h
      have hsig := Der.length_tlv_le 0x5F37 (v := signature) (by omega)
      simp only [Option.bind_some]
      rw [puts_of_le]
      · simp only [Option.bind_some, Card.buildTlv_eq, List.nil_append, List.flatten_cons,
          List.flatten_nil, List.append_nil, responseOctets, Option.map_some]
        rfl
      · simp only [List.length_nil, List.flatten_cons, List.flatten_nil, List.length_append,
          Card.buildTlv_eq]
        omega

theorem convertLong2bin_reason (reason : CancelSessionReason) :
    convertLong2bin 4 reason.code = some [UInt8.ofNat reason.code] := by
  cases reason <;> rfl

theorem cancelSessionRequest_eq {transactionId : Bytes} (h : transactionId.length ≤ 16)
    (reason : CancelSessionReason) :
    cancelSessionRequest transactionId reason = some (Der.tlv 0xBF41
      (Der.tlv 0x80 transactionId ++ Der.tlv 0x81 [UInt8.ofNat reason.code])) := by
  have h80 := Der.length_tlv_le 0x80 (v := transactionId) (by omega)
  have h81 := Der.length_tlv_le 0x81 (v := [UInt8.ofNat reason.code]) (by simp)
  simp only [List.length_cons, List.length_nil] at h81
  have hBF41 := Der.length_tlv_le 0xBF41
    (v := Der.tlv 0x80 transactionId ++ Der.tlv 0x81 [UInt8.ofNat reason.code])
    (by simp only [List.length_append]; omega)
  simp only [List.length_append] at hBF41
  unfold cancelSessionRequest
  rw [convertLong2bin_reason]
  simp only [pack, Der.encode_eq, Option.bind_eq_bind, Option.bind_some]
  rw [if_pos (by omega)]

/-- **The exchange**: the card answers a cancel request, whatever is in it, if it can sign. -/
theorem cancelSession_command (h : state.transactionId.length ≤ 16) {body : Bytes} {k : ℕ}
    {respbuf : Bytes} {c : CardSession} :
    (es10xCommand (cardTransport env) (Der.tlv 0xBF41 body)).Returns ⟨k, state⟩ respbuf c ↔
      ∃ signature, Card.signWithKey (env k) state (signedOctets state.transactionId) =
          some (some signature) ∧
        respbuf = responseOctets state.transactionId signature ∧ c = ⟨k + 1, state⟩ := by
  have htag : Der.IsTag 0xBF41 := by decide
  have hof : Card.Es10xCommand.ofTag 0xBF41 = .cancelSession := rfl
  have hcmd : Der.tlv 0xBF41 body = Der.tagBytes 0xBF41 ++ (Der.lenBytes body.length ++ body) :=
    List.append_assoc ..
  have hcmdlen : 2 ≤ (Der.tlv 0xBF41 body).length := by
    have htwo : (Der.tagBytes 0xBF41).length = 2 := rfl
    rw [Der.length_tlv, htwo]
    omega
  have hcmdne : Der.tlv 0xBF41 body ≠ [] := List.ne_nil_of_length_pos (by omega)
  have hcard : Card.cancelSession (env k) state =
      (Card.signWithKey (env k) state (signedOctets state.transactionId)).map fun signature =>
        (state, signature.map (responseOctets state.transactionId)) := cancelSession_card h
  rw [es10xCommand_card hcmdne, hcmd]
  constructor
  · rintro ⟨s, hp, rfl⟩
    have hh := Card.processEs10xCommand_tag htag (by decide) hp
    rw [hof] at hh
    change Card.cancelSession (env k) state = some (s, some respbuf) at hh
    rw [hcard] at hh
    obtain ⟨signature, hsign, heq⟩ := Option.map_eq_some_iff.1 hh
    cases signature with
    | none => cases heq
    | some signature =>
      cases heq
      exact ⟨signature, hsign, rfl, rfl⟩
  · rintro ⟨signature, hsign, rfl, rfl⟩
    rw [hcmd] at hcmdlen
    have hhandle : (Card.Es10xCommand.ofTag 0xBF41).handle (env k) state
        (.ofBytes (env k) (Der.tagBytes 0xBF41 ++ (Der.lenBytes body.length ++ body))) =
        some (state, some (responseOctets state.transactionId signature)) := by
      rw [hof]
      change Card.cancelSession (env k) state = _
      rw [hcard, hsign]
      rfl
    have hanswer := Card.processEs10xCommand_of_handle htag (by decide) hcmdlen
      (by rw [hof]; decide) hhandle
    exact ⟨state, by rw [hanswer, Option.map_some], rfl⟩

/-- **What the LPA gets** for a transaction and a reason of its own: the card's answer for the
transaction of its state, if the card can sign. -/
theorem cancelSession_returns (h : state.transactionId.length ≤ 16) {transactionId : Bytes}
    (hne : transactionId ≠ []) (hlen : transactionId.length ≤ 16) {reason : CancelSessionReason}
    {k : ℕ} {b64 : Bytes} {c : CardSession} :
    (es10bCancelSession (es10xCommand (cardTransport env)) (some transactionId) none
      reason).Returns ⟨k, state⟩ b64 c ↔
      ∃ signature, Card.signWithKey (env k) state (signedOctets state.transactionId) =
          some (some signature) ∧
        b64 = base64Encode (responseOctets state.transactionId signature) ∧
        c = ⟨k + 1, state⟩ := by
  have hstart : ¬ transactionId.length = 0 := fun h0 => hne (List.length_eq_zero_iff.1 h0)
  have hfind : ∀ signature, Card.signWithKey (env k) state (signedOctets state.transactionId) =
      some (some signature) → findTag 0xBF41 (responseOctets state.transactionId signature) =
        some (.of 0xBF41 (Der.tlv 0xA0 (signedOctets state.transactionId ++
          Der.tlv 0x5F37 signature))) := by
    intro signature hsign
    have hlen := length_responseOctets h (length_signWithKey hsign)
    rw [Base64.maxLen] at hlen
    exact findTag_tlv (by decide) (by rw [responseOctets] at hlen; omega)
  have htext : ∀ signature, Card.signWithKey (env k) state (signedOctets state.transactionId) =
      some (some signature) → Base64.encodeText (responseOctets state.transactionId signature) =
        some (some (base64Encode (responseOctets state.transactionId signature))) := fun _ hsign =>
    Base64.encodeText_of_le (length_responseOctets h (length_signWithKey hsign))
  have hrequest := cancelSessionRequest_eq hlen reason
  simp only [es10bCancelSession, if_neg hstart, Option.isSome_none, Bool.false_eq_true, if_false]
  rw [es10bCancelSessionR, hrequest, Program.returns_bind]
  constructor
  · rintro ⟨request, t, hreq, hrest⟩
    obtain ⟨hreq, rfl⟩ := Program.returns_ofOption.1 hreq
    cases hreq
    obtain ⟨respbuf, t, hresp, hrest⟩ := Program.returns_bind.1 hrest
    obtain ⟨signature, hsign, rfl, rfl⟩ := (cancelSession_command h).1 hresp
    obtain ⟨node, t, hnode, hrest⟩ := Program.returns_bind.1 hrest
    obtain ⟨hnode, rfl⟩ := Program.returns_ofOption.1 hnode
    rw [hfind signature hsign] at hnode
    cases hnode
    rw [Node.of_self, ← responseOctets, htext signature hsign, Program.returns_liftFault] at hrest
    obtain ⟨hb64, rfl⟩ := hrest
    exact ⟨signature, hsign, (Option.some.inj (Option.some.inj hb64)).symm, rfl⟩
  · rintro ⟨signature, hsign, hb64, hc⟩
    rw [hb64, hc]
    refine ⟨_, _, Program.returns_ofOption.2 ⟨rfl, rfl⟩, ?_⟩
    refine Program.returns_bind.2 ⟨responseOctets state.transactionId signature, ⟨k + 1, state⟩,
      (cancelSession_command h).2 ⟨signature, hsign, rfl, rfl⟩, ?_⟩
    refine Program.returns_bind.2 ⟨_, _, Program.returns_ofOption.2 ⟨hfind signature hsign, rfl⟩,
      ?_⟩
    rw [Node.of_self, ← responseOctets, htext signature hsign]
    exact Program.returns_liftFault.2 ⟨rfl, rfl⟩

end VirtualRsp.Lpa
