import VirtualRsp.Card.Failures

/-!
# Buffers of the responses

The handlers assemble their responses in buffers on the stack, whose sizes are fixed, out of fields
of the request and of the state. Every field is bounded where it is read: an address or a matching
identifier by the short form of its length, a transaction identifier by the array it is kept in.

* `FieldBounds`: the bounds of what is kept in the state.
* `findServerSigned1_bounds`, `length_findMatchingId`: the bounds of what is read.
* `Assembled`: what a handler does before it assembles a response goes through.
* `handle_isSome_iff`: after that, no handler overruns a buffer.
-/

namespace VirtualRsp.Card

open Run

variable {env : Env} {s s' : EuiccState} {cmd : Command} {r : Option Bytes}

/-! ## Bounds of the fields -/

/-- Bounds of what a walk accumulates, from bounds of what one field sets. -/
theorem walkFields_invariant {α : Type} {act : ℕ → ℕ → Bytes → α → Option (Ctl α α)} {P : α → Prop}
    (hact : ∀ tag fieldLen ptr acc acc', fieldLen < 0x80 → P acc →
      act tag fieldLen ptr acc = some (.next acc') ∨ act tag fieldLen ptr acc = some (.done acc') →
        P acc') {ptr : Bytes} {remaining : ℕ} {acc acc' : α} (h0 : P acc)
    (h : walkFields act ptr remaining acc = some acc') : P acc' := by
  refine loop_invariant (P := fun st : (Bytes × ℕ) × α => P st.2) (Q := P) ?_ ?_ h0 h
  · rintro ⟨⟨p, n⟩, a⟩ ⟨⟨p', n'⟩, a'⟩ ha hb
    rw [walkBody] at hb
    split at hb
    · cases hb
    obtain ⟨tag, -, hb⟩ := Option.bind_eq_some_iff.1 hb
    obtain ⟨fieldLen, -, hb⟩ := Option.bind_eq_some_iff.1 hb
    split at hb
    · cases hb
    rename_i hlen
    obtain ⟨ctl, hctl, hb⟩ := Option.bind_eq_some_iff.1 hb
    cases ctl with
    | done a => cases hb
    | next a =>
      cases hb
      exact hact _ _ _ _ _ (by omega) ha (.inl hctl)
  · rintro ⟨⟨p, n⟩, a⟩ a' ha hb
    rw [walkBody] at hb
    split at hb
    · cases hb
      exact ha
    obtain ⟨tag, -, hb⟩ := Option.bind_eq_some_iff.1 hb
    obtain ⟨fieldLen, -, hb⟩ := Option.bind_eq_some_iff.1 hb
    split at hb
    · cases hb
      exact ha
    rename_i hlen
    obtain ⟨ctl, hctl, hb⟩ := Option.bind_eq_some_iff.1 hb
    cases ctl with
    | done a =>
      cases hb
      exact hact _ _ _ _ _ (by omega) ha (.inr hctl)
    | next a => cases hb

/-- Bounds of the fields of `serverSigned1`. -/
structure ServerSigned1.Bounds (fields : ServerSigned1) : Prop where
  transactionId : fields.transactionId.length ≤ 16
  serverChallenge : fields.serverChallenge.length ≤ 16
  serverAddress : fields.serverAddress.length ≤ 127

theorem serverSigned1Field_bounds {tag fieldLen : ℕ} {ptr : Bytes} {acc acc' : ServerSigned1}
    (hlen : fieldLen < 0x80) (hacc : acc.Bounds)
    (h : serverSigned1Field tag fieldLen ptr acc = some (.next acc') ∨
      serverSigned1Field tag fieldLen ptr acc = some (.done acc')) : acc'.Bounds := by
  unfold serverSigned1Field at h
  split_ifs at h with htid hchallenge haddress
  · simp only [Option.map_eq_some_iff, Ctl.next.injEq, reduceCtorEq, and_false, exists_false,
      or_false] at h
    obtain ⟨v, hv, rfl⟩ := h
    have := (readN_eq_some hv).2
    exact ⟨by dsimp only; omega, hacc.serverChallenge, hacc.serverAddress⟩
  · simp only [Option.map_eq_some_iff, Ctl.next.injEq, reduceCtorEq, and_false, exists_false,
      or_false] at h
    obtain ⟨v, hv, rfl⟩ := h
    have := (readN_eq_some hv).2
    exact ⟨hacc.transactionId, by dsimp only; omega, hacc.serverAddress⟩
  · simp only [Option.map_eq_some_iff, Ctl.next.injEq, reduceCtorEq, and_false, exists_false,
      or_false] at h
    obtain ⟨v, hv, rfl⟩ := h
    have := (readN_eq_some hv).2
    exact ⟨hacc.transactionId, hacc.serverChallenge, by dsimp only; omega⟩
  · simp only [Option.some.injEq, Ctl.next.injEq, reduceCtorEq, or_false] at h
    exact h ▸ hacc

/-- **Authentication** reads fields within bounds. -/
theorem findServerSigned1_bounds {fields : ServerSigned1} (htid : s.transactionId.length ≤ 16)
    (hchallenge : s.serverChallenge.length ≤ 16) (h : findServerSigned1 s cmd = some fields) :
    fields.Bounds := by
  have hdefault : ServerSigned1.Bounds ⟨s.transactionId, s.serverChallenge, ascii "localhost"⟩ :=
    ⟨htid, hchallenge, show (ascii "localhost").length ≤ 127 by decide⟩
  refine loop_result ?_ h
  rintro ⟨ptr, remaining⟩ acc hb
  rw [findServerSigned1Body] at hb
  split at hb
  · cases hb
    exact hdefault
  obtain ⟨b, -, hb⟩ := Option.bind_eq_some_iff.1 hb
  split at hb
  · obtain ⟨len, -, hb⟩ := Option.bind_eq_some_iff.1 hb
    split at hb
    · obtain ⟨acc', hwalk, hb⟩ := Option.bind_eq_some_iff.1 hb
      cases hb
      exact walkFields_invariant (fun _ _ _ _ _ => serverSigned1Field_bounds) hdefault hwalk
    · cases hb
      exact hdefault
  · cases hb

/-- A matching identifier has a length of the short form. -/
theorem length_findMatchingId {matchingId : Bytes} (h : findMatchingId cmd = some matchingId) :
    matchingId.length ≤ 127 := by
  obtain ⟨found, hf, rfl⟩ := Option.map_eq_some_iff.1 h
  have hwalk : ∀ {ptr : Bytes} {len : ℕ} {acc : Option Bytes},
      walkFields ctxParams1Field ptr len none = some acc → (acc.getD []).length ≤ 127 := by
    intro ptr len acc hw
    refine walkFields_invariant (P := fun acc : Option Bytes => (acc.getD []).length ≤ 127) ?_
      (by simp) hw
    intro tag fieldLen ptr acc acc' hlen hacc h
    unfold ctxParams1Field at h
    split_ifs at h
    · simp only [Option.map_eq_some_iff, Ctl.done.injEq, reduceCtorEq, and_false, exists_false,
        false_or] at h
      obtain ⟨v, hv, rfl⟩ := h
      have := (readN_eq_some hv).2
      simp only [Option.getD_some]
      omega
    · simp only [Option.some.injEq, Ctl.next.injEq, reduceCtorEq, or_false] at h
      exact h ▸ hacc
  refine loop_result (Q := fun acc : Option Bytes => (acc.getD []).length ≤ 127) ?_ hf
  rintro ⟨ptr, remaining⟩ acc hb
  rw [findMatchingIdBody] at hb
  split at hb
  · cases hb
    simp
  obtain ⟨b, -, hb⟩ := Option.bind_eq_some_iff.1 hb
  split at hb
  · obtain ⟨len, -, hb⟩ := Option.bind_eq_some_iff.1 hb
    split at hb
    · obtain ⟨acc', hw, hb⟩ := Option.bind_eq_some_iff.1 hb
      cases acc' with
      | none => cases hb
      | some matchingId =>
        cases hb
        exact hwalk hw
    · cases hb
  · cases hb

/-- What a walk to a transaction identifier finds fits its array, if the default does. -/
theorem length_scan_transactionIdBody {default ptr tid : Bytes} {remaining : ℕ}
    (hd : default.length ≤ 16) (h : scan (transactionIdBody default) ptr remaining = some tid) :
    tid.length ≤ 16 := by
  refine loop_result (Q := fun tid : Bytes => tid.length ≤ 16) ?_ h
  rintro ⟨ptr, remaining⟩ tid hb
  rw [transactionIdBody] at hb
  split at hb
  · cases hb
    exact hd
  obtain ⟨tag, -, hb⟩ := Option.bind_eq_some_iff.1 hb
  obtain ⟨len, -, hb⟩ := Option.bind_eq_some_iff.1 hb
  split at hb
  · rename_i hfits
    obtain ⟨v, hv, hb⟩ := Option.bind_eq_some_iff.1 hb
    cases hb
    have := (readN_eq_some hv).2
    omega
  split at hb
  · cases hb
    exact hd
  · cases hb

theorem length_findTransactionId {tid : Bytes} (hs : s.transactionId.length ≤ 16)
    (h : findTransactionId s cmd = some tid) : tid.length ≤ 16 := by
  refine loop_result (Q := fun tid : Bytes => tid.length ≤ 16) ?_ h
  rintro ⟨ptr, remaining⟩ tid hb
  rw [findSmdpSigned2Body] at hb
  split at hb
  · cases hb
    exact hs
  obtain ⟨b, -, hb⟩ := Option.bind_eq_some_iff.1 hb
  split at hb
  · obtain ⟨len, -, hb⟩ := Option.bind_eq_some_iff.1 hb
    split at hb
    · obtain ⟨v, hv, hb⟩ := Option.bind_eq_some_iff.1 hb
      cases hb
      exact length_scan_transactionIdBody hs hv
    · cases hb
      exact hs
  · cases hb

/-! ## Bounds of the state -/

/-- Bounds of what authentication leaves in the state. -/
structure EuiccState.Bounds (s : EuiccState) : Prop where
  transactionId : s.transactionId.length ≤ 16
  serverChallenge : s.serverChallenge.length ≤ 16

theorem handle_bounds {c : Es10xCommand} (h : c.handle env s cmd = some (s', r)) (hs : s.Bounds) :
    s'.Bounds := by
  by_cases hauth : c = .authenticateServer
  · subst hauth
    obtain ⟨fields, matchingId, hf, -, rfl⟩ := authenticateServer_state h
    have hb := findServerSigned1_bounds hs.transactionId hs.serverChallenge hf
    exact ⟨hb.transactionId, hb.serverChallenge⟩
  by_cases hprep : c = .prepareDownload
  · subst hprep
    obtain ⟨tid, ht, ⟨-, rfl, -⟩ | ⟨pub, priv, -, rfl⟩⟩ := prepareDownload_state h
    · exact ⟨length_findTransactionId hs.transactionId ht, hs.serverChallenge⟩
    · exact ⟨length_findTransactionId hs.transactionId ht, hs.serverChallenge⟩
  cases handle_effect h with
  | authenticate => exact absurd rfl hauth
  | prepare => exact absurd rfl hprep
  | store hst =>
    obtain ⟨_, _, -, -, rfl⟩ := storeSegment_frame hst
    exact ⟨hs.transactionId, hs.serverChallenge⟩
  | install hst hi =>
    obtain ⟨_, _, -, -, rfl⟩ := storeSegment_frame hst
    obtain ⟨-, rfl⟩ | ⟨-, _, rfl⟩ := installProfile_frame hi
    · exact ⟨hs.transactionId, hs.serverChallenge⟩
    · exact ⟨hs.transactionId, hs.serverChallenge⟩
  | _ => exact ⟨hs.transactionId, hs.serverChallenge⟩

/-- A client that connects or disconnects leaves nothing of an authentication. -/
theorem session_bounds {request : Request} {response : Response}
    (h : handleRequest env s request = some (s', response))
    (hf : request.func = .connect ∨ request.func = .disconnect) : s'.Bounds := by
  have hzeros : zeros16.length ≤ 16 := by decide
  obtain hf | hf := hf
  · obtain ⟨_, _, _, hc⟩ := apduHandleConnect_frame env
    simp only [handleRequest, hf, Option.some.injEq, Prod.mk.injEq] at h
    rw [← h.1, hc]
    exact ⟨Nat.zero_le _, hzeros⟩
  · simp only [handleRequest, hf, apduHandleDisconnect, euiccStateReset, Option.map_map,
      Option.map_eq_some_iff] at h
    obtain ⟨_, -, h⟩ := h
    cases h
    exact ⟨Nat.zero_le _, hzeros⟩

theorem handleRequest_bounds {request : Request} {response : Response}
    (h : handleRequest env s request = some (s', response)) (hs : s.Bounds) : s'.Bounds := by
  cases handleRequest_served h with
  | session hf => exact session_bounds h hf
  | openChannel => exact ⟨hs.transactionId, hs.serverChallenge⟩
  | closeChannel => exact ⟨hs.transactionId, hs.serverChallenge⟩
  | same => exact hs
  | apdu hf ha => cases ha <;> exact ⟨hs.transactionId, hs.serverChallenge⟩
  | command hf ha hc hh =>
    obtain ⟨b, rfl⟩ := handlerInput_frame hc
    exact handle_bounds hh ⟨hs.transactionId, hs.serverChallenge⟩

/-- **Every reachable state** is within the bounds. -/
theorem bounds_of_reachable {daemon : Daemon} (h : Reachable daemonStep .start daemon) :
    daemon.globalState.Bounds := by
  have hinit : euiccStateInit.Bounds := ⟨Nat.zero_le _, show zeros16.length ≤ 16 by decide⟩
  refine h.invariant (P := fun d : Daemon => d.globalState.Bounds)
    ⟨hinit.transactionId, hinit.serverChallenge⟩ ?_
  intro d e d' _ hb hs
  obtain ⟨-, -, rfl⟩ | ⟨-, -, rfl⟩ | ⟨env, request, state, response, -, -, hh, rfl⟩ :=
    daemonStep_cases hs
  · exact hinit
  · exact hb
  · exact handleRequest_bounds hh hb

/-! ## Assembling a response -/

theorem length_buildTlv_le (tag : ℕ) {v : Bytes} {n : ℕ} (hv : v.length ≤ n) (hn : n < 2 ^ 32) :
    (buildTlv tag v).length ≤ n + 7 := by
  have := Der.length_tlv_le tag (v := v) (by omega)
  rw [buildTlv_eq]
  omega

/-- Pieces that are short enough together fit a buffer. -/
theorem puts_fits (cap n : ℕ) (pieces : List Bytes) (h : pieces.flatten.length ≤ n) (hn : n ≤ cap) :
    ∃ out, puts cap [] pieces = some out ∧ out.length ≤ n := by
  refine ⟨pieces.flatten, puts_of_le ?_, h⟩
  rw [List.length_nil, Nat.zero_add]
  exact h.trans hn

/-- Signing with numbers of at most 32 bytes. -/
theorem signWithKey_fits (hsign : ∀ key data r s, env.sign key data = some (r, s) →
    r < 256 ^ 32 ∧ s < 256 ^ 32) (state : EuiccState) (data : Bytes) :
    signWithKey env state data = some none ∨
      ∃ sig, signWithKey env state data = some (some sig) ∧ sig.length = 64 := by
  unfold signWithKey
  split
  · exact .inl rfl
  rename_i key hkey
  cases hs : env.sign key data with
  | none => exact .inl (by rw [ecdsaSign, hs])
  | some rs =>
    have hsig : ecdsaSign env data key =
        some (some (Der.beBytes 32 rs.1 ++ Der.beBytes 32 rs.2)) := by
      rw [ecdsaSign, hs]
      exact if_pos (hsign key data rs.1 rs.2 hs)
    exact .inr ⟨_, hsig, length_ecdsaSign hsig⟩

/-- The signature as a data object. -/
theorem length_signatureTlv {sig : Bytes} (h : sig.length = 64) :
    (buildTlv 0x5F37 sig).length ≤ 71 :=
  length_buildTlv_le _ h.le (by decide)

/-- The buffer of the device information. -/
def devInfoBuf : Option Bytes :=
  puts 48 [] [[0x80, 0x04, 0x35, 0x29, 0x06, 0x11], buildTlv 0xA1 [0x85, 0x03, 0x0F, 0x00, 0x00]]

/-- The buffer of the notification's metadata. -/
def notifBuf (seqNumber : ℕ) : Option Bytes :=
  puts 64 [] [buildTlv 0x80 (seqNumBytes seqNumber), [0x81, 0x02, 0x01, 0x80],
    buildTlv 0x0C (ascii "localhost")]

theorem devInfoBuf_eq : devInfoBuf = some deviceInfo := by
  have h : (buildTlv 0xA1 [0x85, 0x03, 0x0F, 0x00, 0x00]).length ≤ 12 :=
    length_buildTlv_le _ (show _ ≤ 5 by decide) (by decide)
  obtain ⟨out, hout, -⟩ := puts_fits 48 18
    [[0x80, 0x04, 0x35, 0x29, 0x06, 0x11], buildTlv 0xA1 [0x85, 0x03, 0x0F, 0x00, 0x00]]
    (by simp only [List.flatten_cons, List.flatten_nil, List.length_append, List.length_cons,
          List.length_nil]; omega) (by decide)
  rw [devInfoBuf, hout, puts_eq_some hout]
  simp [deviceInfo]

theorem length_deviceInfo : deviceInfo.length ≤ 18 := by
  have h : (buildTlv 0xA1 [0x85, 0x03, 0x0F, 0x00, 0x00]).length ≤ 12 :=
    length_buildTlv_le _ (show _ ≤ 5 by decide) (by decide)
  simp only [deviceInfo, List.length_append, List.length_cons, List.length_nil]
  omega

/-- The metadata of a notification goes through its buffer. -/
theorem notifBuf_fits (n : ℕ) : ∃ buf, notifBuf n = some buf ∧ buf.length ≤ 31 ∧
    notificationMetadata n = buildTlv 0xBF2F buf := by
  have hseq : (buildTlv 0x80 (seqNumBytes n)).length ≤ 11 :=
    length_buildTlv_le _ (length_seqNumBytes n) (by decide)
  have haddr : (buildTlv 0x0C (ascii "localhost")).length ≤ 16 :=
    length_buildTlv_le _ (show (ascii "localhost").length ≤ 9 by decide) (by decide)
  obtain ⟨buf, hbuf, hlen⟩ := puts_fits 64 31
    [buildTlv 0x80 (seqNumBytes n), [0x81, 0x02, 0x01, 0x80],
      buildTlv 0x0C (ascii "localhost")]
    (by simp only [List.flatten_cons, List.flatten_nil, List.length_append, List.length_cons,
          List.length_nil]; omega) (by decide)
  refine ⟨buf, hbuf, hlen, ?_⟩
  rw [puts_eq_some hbuf]
  simp [notificationMetadata]

theorem ctxParams_fits {matchingId : Bytes} (h : matchingId.length ≤ 127) :
    ∃ ctx, ctxParams matchingId = some ctx ∧ ctx.length ≤ 159 := by
  have hcstr : (cstr matchingId).length ≤ 127 :=
    ((List.takeWhile_sublist _).length_le).trans h
  have hid : (if 0 < (cstr matchingId).length then buildTlv 0x80 (cstr matchingId)
      else []).length ≤ 134 := by
    split
    · exact length_buildTlv_le _ hcstr (by decide)
    · exact Nat.zero_le _
  have hdev := length_buildTlv_le 0xA1 length_deviceInfo (by decide)
  refine puts_fits _ _ _ ?_ (by decide)
  simp only [List.flatten_cons, List.flatten_nil, List.length_append, List.length_nil]
  omega

theorem euiccSigned1_fits {fields : ServerSigned1} {matchingId : Bytes} (hf : fields.Bounds)
    (hm : matchingId.length ≤ 127) :
    ∃ signed1, euiccSigned1 fields matchingId = some signed1 ∧ signed1.length ≤ 435 := by
  obtain ⟨ctx, hctx, hlen⟩ := ctxParams_fits hm
  have htid := length_buildTlv_le 0x80 hf.transactionId (by decide)
  have haddr := length_buildTlv_le 0x83 hf.serverAddress (by decide)
  have hchallenge := length_buildTlv_le 0x84 hf.serverChallenge (by decide)
  have hinfo := length_buildTlv_le 0xBF22 (show buildEuiccinfo2.length ≤ 72 by decide) (by decide)
  have hctx' := length_buildTlv_le 0xA0 hlen (by decide)
  obtain ⟨buf, hbuf, hbuflen⟩ := puts_fits 512 428
    [buildTlv 0x80 fields.transactionId, buildTlv 0x83 fields.serverAddress,
      buildTlv 0x84 fields.serverChallenge, buildTlv 0xBF22 buildEuiccinfo2, buildTlv 0xA0 ctx]
    (by simp only [List.flatten_cons, List.flatten_nil, List.length_append, List.length_nil]; omega)
    (by decide)
  refine ⟨buildTlv 0x30 buf, ?_, length_buildTlv_le _ hbuflen (by decide)⟩
  simp only [euiccSigned1, hctx, hbuf, Option.bind_eq_bind, Option.bind_some, Option.pure_def]

theorem euiccSigned2_fits {tid : Bytes} (h : tid.length ≤ 16) (otpk : Vector UInt8 65) :
    ∃ signed2, euiccSigned2 tid otpk = some signed2 ∧ signed2.length ≤ 102 := by
  have htid := length_buildTlv_le 0x80 h (by decide)
  have hotpk := length_buildTlv_le 0x5F49 (v := otpk.toList) (n := 65) (by simp) (by decide)
  obtain ⟨buf, hbuf, hlen⟩ := puts_fits 256 95
    [buildTlv 0x80 tid, buildTlv 0x5F49 otpk.toList]
    (by simp only [List.flatten_cons, List.flatten_nil, List.length_append, List.length_nil]; omega)
    (by decide)
  refine ⟨buildTlv 0x30 buf, ?_, length_buildTlv_le _ hlen (by decide)⟩
  rw [euiccSigned2, hbuf, Option.map_some]

theorem cancelSessionSigned_fits (hs : s.Bounds) :
    ∃ signed, cancelSessionSigned s = some signed ∧ signed.length ≤ 38 := by
  have htid := length_buildTlv_le 0x80 hs.transactionId (by decide)
  obtain ⟨buf, hbuf, hlen⟩ := puts_fits 128 31
    [buildTlv 0x80 s.transactionId, [0x81, 0x03, 0x88, 0x37, 0x0A], [0x82, 0x01, 0x00]]
    (by simp only [List.flatten_cons, List.flatten_nil, List.length_append, List.length_cons,
          List.length_nil]; omega) (by decide)
  refine ⟨buildTlv 0x30 buf, ?_, length_buildTlv_le _ hlen (by decide)⟩
  rw [cancelSessionSigned, hbuf, Option.map_some]

theorem intermediateResult_fits (hs : s.Bounds) : (intermediateResult s).isSome := by
  have htid := length_buildTlv_le 0x80 hs.transactionId (by decide)
  have hseq := length_buildTlv_le 0x80 (show ([0x00] : Bytes).length ≤ 1 by decide) (by decide)
  have hmeta := length_buildTlv_le 0xBF2F hseq (by decide)
  obtain ⟨pir, hpir, hlen⟩ := puts_fits 256 47
    [buildTlv 0x80 s.transactionId, buildTlv 0xBF2F (buildTlv 0x80 [0x00]),
      [0x06, 0x03, 0x04, 0x00, 0x7F], [0xA2, 0x02, 0xA0, 0x00]]
    (by simp only [List.flatten_cons, List.flatten_nil, List.length_append, List.length_cons,
          List.length_nil]; omega) (by decide)
  have hdata := length_buildTlv_le 0xBF27 hlen (by decide)
  have hsig : (buildTlv 0x5F37 (List.replicate 64 0)).length ≤ 71 :=
    length_signatureTlv (by decide)
  obtain ⟨final, hfinal, -⟩ := puts_fits 512 125
    [buildTlv 0xBF27 pir, buildTlv 0x5F37 (List.replicate 64 0)]
    (by simp only [List.flatten_cons, List.flatten_nil, List.length_append, List.length_nil]; omega)
    (by decide)
  simp only [intermediateResult, hpir, hfinal, Option.bind_eq_bind, Option.bind_some,
    Option.pure_def, Option.isSome_some]

theorem length_successResult : successResult.length ≤ 43 := by
  refine length_buildTlv_le (n := 36) _ (length_buildTlv_le (n := 29) _
    (length_buildTlv_le (n := 22) _ ?_ ?_) ?_) ?_ <;> decide

theorem profileInstallationResultData_fits (hs : s.Bounds) :
    ∃ data, profileInstallationResultData s = some data ∧ data.length ≤ 116 := by
  have htid := length_buildTlv_le 0x80 hs.transactionId (by decide)
  obtain ⟨notif, -, hnotif, hmeta⟩ := notifBuf_fits s.notificationSeqNumber
  have hmeta' : (notificationMetadata s.notificationSeqNumber).length ≤ 38 :=
    hmeta ▸ length_buildTlv_le _ hnotif (by decide)
  have hsuccess := length_successResult
  obtain ⟨buf, hbuf, hlen⟩ := puts_fits 256 109
    [buildTlv 0x80 s.transactionId, notificationMetadata s.notificationSeqNumber,
      [0x06, 0x03, 0x88, 0x37, 0x0A], successResult]
    (by simp only [List.flatten_cons, List.flatten_nil, List.length_append, List.length_cons,
          List.length_nil]; omega) (by decide)
  refine ⟨buildTlv 0xBF27 buf, ?_, length_buildTlv_le _ hlen (by decide)⟩
  rw [profileInstallationResultData, hbuf, Option.map_some]

/-! ## The handlers -/

/-- What the card assumes of its surroundings: signatures of 64 bytes, and certificates of at most
1400 bytes. -/
structure Fitting (env : Env) (state : EuiccState) : Prop where
  sign : ∀ key data r s, env.sign key data = some (r, s) → r < 256 ^ 32 ∧ s < 256 ^ 32
  certificates : (state.euiccCert.getD []).length + (state.eumCert.getD []).length ≤ 1400

/-- The commands whose responses are assembled in buffers on the stack. -/
def Es10xCommand.assembles : Es10xCommand → Bool
  | .authenticateServer | .prepareDownload | .cancelSession | .initialiseSecureChannel | .bppData
  | .sequenceOf86 => true
  | _ => false

/-- What a `BF23` command has for a server's one-time public key, if it is for the transaction of
the card. -/
def readBf23 (state : EuiccState) (cmd : Command) : Option (Option Bytes) := do
  let (ptr, remaining) ← bf23Content cmd
  let transactionIdFound ← scan (transactionIdBody []) ptr remaining
  if transactionIdFound ≠ state.transactionId then return none
  else scan smdpOtpkBody ptr remaining

/-- What a handler does before it assembles a response goes through: reading the request, and
taking over the package. -/
def Prepared (state : EuiccState) (cmd : Command) : Es10xCommand → Prop
  | .authenticateServer => (findServerSigned1 state cmd).isSome ∧ (findMatchingId cmd).isSome
  | .prepareDownload => (findTransactionId state cmd).isSome ∧ (findSmdpSignature2 cmd).isSome
  | .initialiseSecureChannel => (readBf23 state cmd).isSome
  | .bppData => (storeSegment state cmd).isSome
  | .sequenceOf86 => ((storeSegment state cmd).bind installProfile).isSome
  | _ => True

theorem authenticateServer_isSome (hs : s.Bounds) (hfit : Fitting env s) :
    (authenticateServer env s cmd).isSome ↔ Prepared s cmd .authenticateServer := by
  constructor
  · intro h
    obtain ⟨⟨s', r⟩, h⟩ := Option.isSome_iff_exists.1 h
    obtain ⟨fields, matchingId, hf, hm, -⟩ := authenticateServer_state h
    exact ⟨by rw [hf]; rfl, by rw [hm]; rfl⟩
  · rintro ⟨hf, hm⟩
    obtain ⟨fields, hf⟩ := Option.isSome_iff_exists.1 hf
    obtain ⟨matchingId, hm⟩ := Option.isSome_iff_exists.1 hm
    have hfields := findServerSigned1_bounds hs.transactionId hs.serverChallenge hf
    obtain ⟨signed1, hsigned, hlen⟩ := euiccSigned1_fits hfields (length_findMatchingId hm)
    simp only [authenticateServer, hf, hm, hsigned, Option.bind_eq_bind, Option.bind_some]
    obtain hsig | ⟨sig, hsig, hsiglen⟩ := signWithKey_fits hfit.sign { s with
      transactionId := fields.transactionId
      serverChallenge := fields.serverChallenge
      matchingId := matchingId } signed1
    · rw [hsig]
      rfl
    · have htlv := length_signatureTlv hsiglen
      have hcert := hfit.certificates
      obtain ⟨resp, hresp, -⟩ := puts_fits 2048 1906
        [signed1, buildTlv 0x5F37 sig, s.euiccCert.getD [], s.eumCert.getD []]
        (by simp only [List.flatten_cons, List.flatten_nil, List.length_append, List.length_nil]
            omega) (by decide)
      rw [hsig]
      simp only [hresp, Option.bind_some, Option.pure_def, Option.isSome_some]

theorem prepareDownload_isSome (hs : s.Bounds) (hfit : Fitting env s) :
    (prepareDownload env s cmd).isSome ↔ Prepared s cmd .prepareDownload := by
  constructor
  · intro h
    obtain ⟨⟨s', r⟩, h⟩ := Option.isSome_iff_exists.1 h
    simp only [prepareDownload, Option.bind_eq_bind, Option.bind_eq_some_iff] at h
    obtain ⟨tid, ht, sig, hsig, -⟩ := h
    exact ⟨by rw [ht]; rfl, by rw [hsig]; rfl⟩
  · rintro ⟨ht, hsig⟩
    obtain ⟨tid, ht⟩ := Option.isSome_iff_exists.1 ht
    obtain ⟨sig2, hsig2⟩ := Option.isSome_iff_exists.1 hsig
    simp only [prepareDownload, ht, hsig2, Option.bind_eq_bind, Option.bind_some]
    split
    · rfl
    split
    · rfl
    rename_i keypair _ _ otpk _
    split
    · rfl
    obtain ⟨signed2, hsigned, hlen⟩ :=
      euiccSigned2_fits (length_findTransactionId hs.transactionId ht) otpk
    simp only [hsigned, Option.bind_some]
    obtain hsig | ⟨sig, hsig, hsiglen⟩ := signWithKey_fits hfit.sign { s with
      transactionId := tid
      euiccOtpk := some otpk
      euiccOtsk := keypair.priv } (prepareDownloadInput signed2 sig2)
    · rw [hsig]
      rfl
    · have htlv := length_signatureTlv hsiglen
      obtain ⟨resp, hresp, -⟩ := puts_fits 512 173
        [signed2, buildTlv 0x5F37 sig]
        (by simp only [List.flatten_cons, List.flatten_nil, List.length_append, List.length_nil]
            omega) (by decide)
      rw [hsig]
      simp only [hresp, Option.bind_some, Option.pure_def, Option.isSome_some]

theorem cancelSession_isSome (hs : s.Bounds) (hfit : Fitting env s) :
    (cancelSession env s).isSome := by
  obtain ⟨signed, hsigned, hlen⟩ := cancelSessionSigned_fits hs
  simp only [cancelSession, hsigned, Option.bind_eq_bind, Option.bind_some]
  obtain hsig | ⟨sig, hsig, hsiglen⟩ := signWithKey_fits hfit.sign s signed
  · rw [hsig]
    rfl
  · have htlv := length_signatureTlv hsiglen
    obtain ⟨resp, hresp, -⟩ := puts_fits 256 109
      [signed, buildTlv 0x5F37 sig]
      (by simp only [List.flatten_cons, List.flatten_nil, List.length_append, List.length_nil]
          omega) (by decide)
    rw [hsig]
    simp only [hresp, Option.bind_some, Option.pure_def, Option.isSome_some]

theorem initialiseSecureChannel_isSome (hs : s.Bounds) :
    (initialiseSecureChannel env s cmd).isSome ↔ Prepared s cmd .initialiseSecureChannel := by
  simp only [Prepared, readBf23, initialiseSecureChannel, Option.bind_eq_bind]
  cases hcontent : bf23Content cmd with
  | none => simp
  | some content =>
    obtain ⟨ptr, remaining⟩ := content
    simp only [Option.bind_some]
    cases htid : scan (transactionIdBody []) ptr remaining with
    | none => simp
    | some tid =>
      simp only [Option.bind_some]
      split
      · simp
      cases hotpk : scan smdpOtpkBody ptr remaining with
      | none => simp
      | some found =>
        simp only [Option.bind_some, Option.isSome_some, iff_true]
        cases found with
        | none => rfl
        | some smdpOtpk =>
          dsimp only
          split
          · rfl
          split
          · rfl
          split
          · rfl
          rename_i enc mac _
          have hb : EuiccState.Bounds { s with
              smdpOtpk := some smdpOtpk
              sessionKeyEnc := enc
              sessionKeyMac := mac
              sessionKeysDerived := true
              bppCommandsReceived := s.bppCommandsReceived + 1 } :=
            ⟨hs.transactionId, hs.serverChallenge⟩
          obtain ⟨pir, hpir⟩ := Option.isSome_iff_exists.1 (intermediateResult_fits hb)
          simp only [hpir, Option.bind_some, Option.pure_def, Option.isSome_some]

theorem bppData_isSome (hs : s.Bounds) :
    (bppData s cmd).isSome ↔ Prepared s cmd .bppData := by
  simp only [Prepared, bppData, Option.bind_eq_bind]
  cases hst : storeSegment s cmd with
  | none => simp
  | some t =>
    obtain ⟨_, package, -, -, rfl⟩ := storeSegment_frame hst
    have hb : EuiccState.Bounds { s with
        bppCommandsReceived := s.bppCommandsReceived + 1
        boundProfilePackage := package } := ⟨hs.transactionId, hs.serverChallenge⟩
    obtain ⟨pir, hpir⟩ := Option.isSome_iff_exists.1 (intermediateResult_fits hb)
    simp only [hpir, Option.bind_some, Option.pure_def, Option.isSome_some]

theorem profileInstallationResult_isSome (hs : s.Bounds) (hfit : Fitting env s) :
    (profileInstallationResult env s).isSome := by
  obtain ⟨data, hdata, hlen⟩ := profileInstallationResultData_fits hs
  simp only [profileInstallationResult, hdata, Option.bind_eq_bind, Option.bind_some]
  obtain hsig | ⟨sig, hsig, hsiglen⟩ := signWithKey_fits hfit.sign s data
  · rw [hsig]
    rfl
  · have htlv := length_signatureTlv hsiglen
    obtain ⟨resp, hresp, -⟩ := puts_fits 2048 187
      [data, buildTlv 0x5F37 sig]
      (by simp only [List.flatten_cons, List.flatten_nil, List.length_append, List.length_nil]
          omega) (by decide)
    rw [hsig]
    simp only [hresp, Option.bind_some, Option.pure_def, Option.isSome_some]

theorem sequenceOf86_isSome (hs : s.Bounds) (hfit : Fitting env s) :
    (sequenceOf86 env s cmd).isSome ↔ Prepared s cmd .sequenceOf86 := by
  simp only [Prepared, sequenceOf86, Option.bind_eq_bind]
  cases hst : storeSegment s cmd with
  | none => simp
  | some t =>
    simp only [Option.bind_some]
    cases hi : installProfile t with
    | none => simp
    | some u =>
      have hu : u.Bounds ∧ Fitting env u := by
        obtain ⟨_, _, -, -, rfl⟩ := storeSegment_frame hst
        obtain ⟨-, rfl⟩ | ⟨-, _, rfl⟩ := installProfile_frame hi
        · exact ⟨⟨hs.transactionId, hs.serverChallenge⟩, ⟨hfit.sign, hfit.certificates⟩⟩
        · exact ⟨⟨hs.transactionId, hs.serverChallenge⟩, ⟨hfit.sign, hfit.certificates⟩⟩
      obtain ⟨result, hresult⟩ :=
        Option.isSome_iff_exists.1 (profileInstallationResult_isSome hu.1 hu.2)
      simp only [hresult, Option.bind_some, Option.pure_def, Option.isSome_some]

/-- **No handler overruns a buffer** while it assembles a response: in every reachable state it goes
through exactly if everything before that does, and the buffers of the device information and of the
notification's metadata hold what is written into them. -/
theorem handle_isSome_iff {daemon : Daemon} (h : Reachable daemonStep .start daemon)
    (hfit : Fitting env daemon.globalState) (b : GrowBuf) (cmd : Command) {c : Es10xCommand}
    (hc : c.assembles = true) :
    ((c.handle env { daemon.globalState with segmentBuffer := b } cmd).isSome ↔
        Prepared { daemon.globalState with segmentBuffer := b } cmd c) ∧
      devInfoBuf = some deviceInfo ∧
      ∃ buf, notifBuf daemon.globalState.notificationSeqNumber = some buf ∧
        notificationMetadata daemon.globalState.notificationSeqNumber = buildTlv 0xBF2F buf := by
  have hr := bounds_of_reachable h
  have hs : EuiccState.Bounds { daemon.globalState with segmentBuffer := b } :=
    ⟨hr.transactionId, hr.serverChallenge⟩
  have hf : Fitting env { daemon.globalState with segmentBuffer := b } :=
    ⟨hfit.sign, hfit.certificates⟩
  obtain ⟨buf, hbuf, -, hmeta⟩ := notifBuf_fits daemon.globalState.notificationSeqNumber
  refine ⟨?_, devInfoBuf_eq, buf, hbuf, hmeta⟩
  cases c with
  | authenticateServer => exact authenticateServer_isSome hs hf
  | prepareDownload => exact prepareDownload_isSome hs hf
  | cancelSession => exact iff_of_true (cancelSession_isSome hs hf) trivial
  | initialiseSecureChannel => exact initialiseSecureChannel_isSome hs
  | bppData => exact bppData_isSome hs
  | sequenceOf86 => exact sequenceOf86_isSome hs hf
  | _ => cases hc

/-- The daemon after a client has connected. -/
def sampleDaemon : Daemon := ⟨apduHandleConnect sampleEnv, true⟩

/-- A command that authenticates a server, with a transaction identifier of one byte. -/
def sampleBf38 : Command :=
  .ofBytes sampleEnv [0xBF, 0x38, 0x05, 0x30, 0x03, 0x80, 0x01, 0x05]

theorem handle_isSome_sample :
    ((Es10xCommand.handle sampleEnv { sampleDaemon.globalState with segmentBuffer := .null }
        sampleBf38 .authenticateServer).isSome ↔
        Prepared { sampleDaemon.globalState with segmentBuffer := .null } sampleBf38
          .authenticateServer) ∧
      devInfoBuf = some deviceInfo ∧
      ∃ buf, notifBuf sampleDaemon.globalState.notificationSeqNumber = some buf ∧
        notificationMetadata sampleDaemon.globalState.notificationSeqNumber =
          buildTlv 0xBF2F buf := by
  have hexec : exec daemonStep .start [.accept, .request sampleEnv ⟨.connect, []⟩] =
      some sampleDaemon := rfl
  refine handle_isSome_iff (Reachable.of_exec .init hexec) ⟨?_, ?_⟩ .null sampleBf38 rfl
  · intro key data r s h
    cases h
    exact ⟨by decide, by decide⟩
  · decide

end VirtualRsp.Card
