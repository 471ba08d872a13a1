import VirtualRsp.Card.Invariant
import VirtualRsp.Foundations.Growth
import VirtualRsp.Lpa.Apdu

/-!
# Segmentation and reassembly of commands

The LPA cuts a command into segments and the card puts it together again. Both are loops over the
segments: a segment that more follow is appended to the card's buffer (`commandIter_continue`), and
the last one makes the card process everything (`commandIter_last`). The request buffer may hold the
command itself, since building a request overwrites only bytes that have been sent before
(`Source.Holds.next`).

The one thing that can go wrong is the buffer: the card computes its new capacity in 32 bits. So
`segmentation_iff` says that a command arrives exactly if none of these capacities wraps.
-/

namespace VirtualRsp.Lpa.Apdu

open Card Program GrowBuf

variable {env : ℕ → Env} {state : EuiccState} {channel : ℤ} {mss bound : ℕ}

/-! ## The card's side -/

/-- What the card does with a `STORE DATA` request. -/
theorem receiveApdu_bytes {env : Env} (hopen : 0 ≤ state.logicChannel) {req : ApduRequest}
    (hins : req.ins = 0xE2) (hlen : req.length.toNat ≤ req.data.length) :
    receiveApdu env state req.bytes =
      if req.p1.toNat < 0x80 then
        (state.segmentBuffer.append (· + 512) req.data).map fun b =>
          ({ state with segmentBuffer := b }, .reply (some [0x90, 0x00]))
      else if state.segmentBuffer.data = [] then
        some (state, .complete (.ofBytes env req.data))
      else if state.segmentBuffer.data.length + req.data.length < 2 ^ 32 then
        some ({ state with segmentBuffer := .null },
          .complete (.ofBytes env (state.segmentBuffer.data ++ req.data)))
      else none := by
  obtain ⟨cla, ins, p1, p2, length, data⟩ := req
  dsimp only at hins hlen ⊢
  subst hins
  have hmem : length.toNat ≤
      (cla :: 0xE2 :: p1 :: p2 :: length :: (data ++ env.trailing)).length := by
    simp only [List.length_cons, List.length_append]
    omega
  have hlog : ∃ log : Bytes, (if 0 < length.toNat ∧ length.toNat ≤ 16 then
      readN (cla :: 0xE2 :: p1 :: p2 :: length :: (data ++ env.trailing)) length.toNat
      else some []) = some log := by
    split
    · exact ⟨_, by rw [readN, if_pos hmem]⟩
    · exact ⟨[], rfl⟩
  obtain ⟨log, hlog⟩ := hlog
  have hshort : ¬ (ApduRequest.bytes ⟨cla, 0xE2, p1, p2, length, data⟩).length < 5 := by
    simp [ApduRequest.bytes]
  rw [receiveApdu, if_neg (Int.not_lt.2 hopen), if_neg hshort]
  simp only [ApduRequest.bytes, List.cons_append, List.nil_append, readAt_cons_succ,
    readAt_cons_zero, Option.bind_eq_bind, Option.bind_some, hlog, List.drop_succ_cons,
    List.drop_zero]
  rw [if_neg (by decide)]
  cases state.segmentBuffer.append (· + 512) data <;> rfl

/-- A segment that more follow is buffered. -/
theorem apduTransport_continue {k : ℕ} {log : List Bytes} (hopen : 0 ≤ state.logicChannel)
    {cla p2 : UInt8} {data : Bytes} (hlen : data.length ≤ 255) :
    apduTransport env (ApduRequest.bytes ⟨cla, 0xE2, 0x11, p2, UInt8.ofNat data.length, data⟩)
        ⟨k, some state, log⟩ =
      match state.segmentBuffer.append (· + 512) data with
      | none => some (⟨k + 1, none, log⟩, none)
      | some b => some (⟨k + 1, some { state with segmentBuffer := b }, log⟩,
          some [0x90, 0x00]) := by
  have hlength : (UInt8.ofNat data.length).toNat = data.length :=
    UInt8.toNat_ofNat_of_lt (by simp only [UInt8.size]; omega)
  have hreceive := @receiveApdu_bytes state (env k) hopen
    ⟨cla, 0xE2, 0x11, p2, UInt8.ofNat data.length, data⟩ rfl hlength.le
  rw [if_pos (by simp)] at hreceive
  simp only [apduTransport, hreceive]
  cases state.segmentBuffer.append (· + 512) data <;> rfl

/-- The last segment completes the command. -/
theorem apduTransport_last {k : ℕ} {log : List Bytes} (hopen : 0 ≤ state.logicChannel)
    {cla p2 : UInt8} {data : Bytes} (hlen : data.length ≤ 255)
    (hbuf : state.segmentBuffer.data = [] → state.segmentBuffer = .null)
    (htotal : state.segmentBuffer.data.length + data.length < 2 ^ 32) :
    let cmd := state.segmentBuffer.data ++ data
    let outcome := processEs10xCommand (env k) { state with segmentBuffer := .null }
      (.ofBytes (env k) cmd)
    apduTransport env (ApduRequest.bytes ⟨cla, 0xE2, 0x91, p2, UInt8.ofNat data.length, data⟩)
        ⟨k, some state, log⟩ =
      some (⟨k + 1, outcome.map (·.1), log ++ [cmd]⟩, outcome.bind (·.2)) := by
  intro cmd outcome
  have hlength : (UInt8.ofNat data.length).toNat = data.length :=
    UInt8.toNat_ofNat_of_lt (by simp only [UInt8.size]; omega)
  have hreceive := @receiveApdu_bytes state (env k) hopen
    ⟨cla, 0xE2, 0x91, p2, UInt8.ofNat data.length, data⟩ rfl hlength.le
  have hcomplete : receiveApdu (env k) state
      (ApduRequest.bytes ⟨cla, 0xE2, 0x91, p2, UInt8.ofNat data.length, data⟩) =
        some ({ state with segmentBuffer := .null }, .complete (.ofBytes (env k) cmd)) := by
    rw [hreceive, if_neg (by simp)]
    by_cases hdata : state.segmentBuffer.data = []
    · have hstate : { state with segmentBuffer := .null } = state := by
        rw [← hbuf hdata]
      rw [if_pos hdata, hstate]
      simp only [cmd, hdata, List.nil_append]
    · rw [if_neg hdata, if_pos htotal]
  have htake : (Command.ofBytes (env k) cmd).mem.take (Command.ofBytes (env k) cmd).len = cmd :=
    List.take_left
  simp only [apduTransport, hcomplete, htake]
  rfl

/-! ## The LPA's side -/

section Transmit

variable {σ : Type} {transmit : Bytes → Program σ Bytes} {req : ApduRequest} {s s' : σ}
  {resp body : Bytes}

/-- The request as it is sent, with the logical channel in its class byte. -/
def onChannel (channel : ℤ) (req : ApduRequest) : ApduRequest :=
  { req with cla := (req.cla &&& 0xF0) ||| UInt8.ofNat (channel % 16).toNat }

/-- A request that is not answered is a failure. -/
theorem transmitIter_fails (h : transmit (onChannel channel req).bytes s = some (s', none)) :
    es10xTransmitIter transmit channel bound req resp s = some (s', none) :=
  bind_of_fails (bind_of_fails h)

theorem apduResponse_append (body : Bytes) (sw1 sw2 : UInt8) :
    apduResponse (body ++ [sw1, sw2]) = some ⟨body, sw1.toNat, sw2.toNat⟩ := by
  simp [apduResponse, readAt_append_right]

/-- An answer with the status word `9000` is collected. -/
theorem transmitIter_ok
    (h : transmit (onChannel channel req).bytes s = some (s', some (body ++ [0x90, 0x00]))) :
    es10xTransmitIter transmit channel (bound + 1) req resp s = some (s', some (resp ++ body)) := by
  have hsent : es10xTransmit transmit channel req s = some (s', some ⟨body, 0x90, 0x00⟩) := by
    refine (bind_of_returns h).trans ?_
    rw [apduResponse_append]
    rfl
  refine (bind_of_returns hsent).trans ?_
  rw [collectResponse]
  dsimp only
  rw [if_neg (by decide), if_pos (by decide)]
  rfl

/-- An answer that is a status word only adds nothing. -/
theorem transmitIter_ack
    (h : transmit (onChannel channel req).bytes s = some (s', some [0x90, 0x00])) :
    es10xTransmitIter transmit channel (bound + 1) req resp s = some (s', some resp) := by
  rw [← List.nil_append [0x90, 0x00]] at h
  simpa using transmitIter_ok h

/-- An answer with the status word `6D00` is a failure. -/
theorem transmitIter_unsupported
    (h : transmit (onChannel channel req).bytes s = some (s', some [0x6D, 0x00])) :
    es10xTransmitIter transmit channel (bound + 1) req resp s = some (s', none) := by
  have hsent : es10xTransmit transmit channel req s = some (s', some ⟨[], 0x6D, 0x00⟩) :=
    (bind_of_returns h).trans rfl
  refine (bind_of_returns hsent).trans ?_
  rw [collectResponse]
  dsimp only
  rw [if_neg (by decide), if_neg (by decide)]
  rfl

end Transmit

/-! ## One segment -/

/-- The memory that the command is read from still holds `rest` at the position. -/
def Source.Holds (source : Source) (body : Bytes) (pos : ℕ) (rest : Bytes) : Prop :=
  match source with
  | .memory bytes => bytes.drop pos = rest
  | .requestBody _ => (body.drop pos).take rest.length = rest

variable {source : Source} {body rest : Bytes} {pos k seq n : ℕ} {log : List Bytes}

theorem Source.holds_command (source : Source) (body : Bytes) :
    source.Holds body 0 (source.command body) := by
  cases source with
  | memory bytes => rfl
  | requestBody len => simp [Source.Holds, Source.command]

theorem Source.Holds.read {σ : Type} {i : Interface σ} (h : source.Holds i.body pos rest)
    (hn : n ≤ rest.length) : source.read pos n i = some (i, some (rest.take n)) := by
  cases source with
  | memory bytes =>
    simp only [Source.Holds] at h
    simp only [Source.read, h, readN, if_pos hn, Option.map_some]
  | requestBody len =>
    simp only [Source.Holds] at h
    have hle : rest.length ≤ (i.body.drop pos).length := by
      have := congrArg List.length h
      rw [List.length_take] at this
      omega
    have htake : (i.body.drop pos).take n = rest.take n := by
      rw [← h, List.take_take, Nat.min_eq_left]
      simpa [h] using hn
    simp only [Source.read, readN, if_pos (hn.trans hle), htake, Option.map_some]

/-- Building a request overwrites only what has been read before. -/
theorem Source.Holds.next (h : source.Holds body pos rest) (hn : n ≤ rest.length) :
    source.Holds (rest.take n ++ body.drop n) (pos + n) (rest.drop n) := by
  cases source with
  | memory bytes =>
    simp only [Source.Holds] at h ⊢
    rw [← h, List.drop_drop]
  | requestBody len =>
    simp only [Source.Holds] at h ⊢
    have hlen : (rest.take n).length = n := by
      rw [List.length_take]
      omega
    have hdrop : (rest.take n ++ body.drop n).drop (pos + n) = (body.drop pos).drop n := by
      rw [Nat.add_comm, ← List.drop_drop, List.drop_left' hlen, List.drop_drop, List.drop_drop,
        Nat.add_comm]
    rw [hdrop, List.length_drop, ← List.drop_take]
    exact congrArg (List.drop n) h

theorem buildrequest_eq {σ : Type} {p1 p2 : UInt8} {derReq : Bytes} {i : Interface σ}
    (h : derReq.length ≤ i.body.length) :
    es10xCommandBuildrequest p1 p2 derReq i =
      some ({ i with body := derReq ++ i.body.drop derReq.length },
        some ⟨0x80, 0xE2, p1, p2, UInt8.ofNat derReq.length, derReq⟩) :=
  if_pos h

theorem onPartner_eq {σ α : Type} {x : Program σ α} {i : Interface σ} {s : σ} {r : Option α}
    (h : x i.partner = some (s, r)) : onPartner x i = some ({ i with partner := s }, r) := by
  rw [onPartner, h]
  rfl

/-- **A segment that more follow**: the card appends it to its buffer. -/
theorem commandIter_continue (hopen : 0 ≤ state.logicChannel) (hmss : mss ≤ 255)
    (hbody : body.length = 255) (hsource : source.Holds body pos rest) (hlong : mss < rest.length) :
    let body' := rest.take mss ++ body.drop mss
    es10xCommandIter (apduTransport env) channel mss (bound + 1) source (n + 1) rest.length pos seq
        [] ⟨body, ⟨k, some state, log⟩⟩ =
      match state.segmentBuffer.append (· + 512) (rest.take mss) with
      | none => some (⟨body', ⟨k + 1, none, log⟩⟩, none)
      | some b =>
        es10xCommandIter (apduTransport env) channel mss (bound + 1) source n (rest.drop mss).length
          (pos + mss) (seq + 1) []
          ⟨body', ⟨k + 1, some { state with segmentBuffer := b }, log⟩⟩ := by
  intro body'
  have hlen : (rest.take mss).length = mss := by
    rw [List.length_take]
    omega
  have hread := @Source.Holds.read source rest pos mss ApduSession ⟨body, ⟨k, some state, log⟩⟩
    hsource hlong.le
  have hbuild := @buildrequest_eq ApduSession 0x11 (UInt8.ofNat seq) (rest.take mss)
    ⟨body, ⟨k, some state, log⟩⟩ (by rw [hlen, hbody]; exact hmss)
  rw [hlen] at hbuild
  have hsend := @apduTransport_continue env state k log hopen
    ((0x80 &&& 0xF0) ||| UInt8.ofNat (channel % 16).toNat) (UInt8.ofNat seq) (rest.take mss)
    (by rw [hlen]; exact hmss)
  rw [hlen] at hsend
  rw [es10xCommandIter, if_neg (by omega)]
  simp only [gt_iff_lt, if_pos hlong]
  rw [bind_of_returns hread, bind_of_returns hbuild]
  cases happ : state.segmentBuffer.append (· + 512) (rest.take mss) with
  | none =>
    rw [happ] at hsend
    exact bind_of_fails (onPartner_eq (transmitIter_fails hsend))
  | some b =>
    rw [happ] at hsend
    rw [bind_of_returns (onPartner_eq (transmitIter_ack hsend)), List.length_drop]

/-- The outcome of a command for the LPA: only a body with the status word `9000` is a result. -/
inductive Answers : Outcome → Option Bytes → Prop
  | crash : Answers none none
  | error {s : EuiccState} : Answers (some (s, none)) none
  | unsupported {s : EuiccState} : Answers (some (s, some [0x6D, 0x00])) none
  | ok {s : EuiccState} {respBody : Bytes} :
      Answers (some (s, some (respBody ++ [0x90, 0x00]))) (some respBody)

theorem Answers.of_ok {s : EuiccState} {respBody : Bytes} {result : Option Bytes}
    (h : Answers (some (s, some (respBody ++ [0x90, 0x00]))) result) : result = some respBody := by
  generalize hr : respBody ++ [0x90, 0x00] = r at h
  cases h with
  | unsupported =>
    rw [← List.nil_append [0x6D, 0x00]] at hr
    exact absurd (List.append_inj' hr rfl).2 (by decide)
  | ok => rw [List.append_cancel_right hr]

theorem answers_process (env : Env) (s : EuiccState) (cmd : Command) :
    ∃ result, Answers (processEs10xCommand env s cmd) result := by
  cases h : processEs10xCommand env s cmd with
  | none => exact ⟨_, .crash⟩
  | some outcome =>
    obtain ⟨s', r⟩ := outcome
    obtain ⟨-, rfl, rfl⟩ | ⟨-, _, _, -, ⟨-, rfl, rfl⟩ | ⟨r', -, -, rfl⟩⟩ :=
      processEs10xCommand_cases h
    · exact ⟨_, .error⟩
    · exact ⟨_, .unsupported⟩
    · cases r' with
      | none => exact ⟨_, .error⟩
      | some respBody => exact ⟨_, .ok⟩

/-- **The last segment**: the card processes the whole command, and its answer is the result. -/
theorem commandIter_last (hopen : 0 ≤ state.logicChannel) (hmss : mss ≤ 255)
    (hbody : body.length = 255) (hsource : source.Holds body pos rest) (hpos : 0 < rest.length)
    (hlast : rest.length ≤ mss)
    (hbuf : state.segmentBuffer.data = [] → state.segmentBuffer = .null)
    (htotal : state.segmentBuffer.data.length + rest.length < 2 ^ 32) {result : Option Bytes}
    (hresult : Answers (processEs10xCommand (env k) { state with segmentBuffer := .null }
      (.ofBytes (env k) (state.segmentBuffer.data ++ rest))) result) :
    es10xCommandIter (apduTransport env) channel mss (bound + 1) source (n + 2) rest.length pos seq
        [] ⟨body, ⟨k, some state, log⟩⟩ =
      some (⟨rest ++ body.drop rest.length, ⟨k + 1,
        (processEs10xCommand (env k) { state with segmentBuffer := .null }
          (.ofBytes (env k) (state.segmentBuffer.data ++ rest))).map (·.1),
        log ++ [state.segmentBuffer.data ++ rest]⟩⟩, result) := by
  have hread := @Source.Holds.read source rest pos rest.length ApduSession
    ⟨body, ⟨k, some state, log⟩⟩ hsource le_rfl
  rw [List.take_length] at hread
  have hbuild := @buildrequest_eq ApduSession 0x91 (UInt8.ofNat seq) rest
    ⟨body, ⟨k, some state, log⟩⟩ (by rw [hbody]; omega)
  have hsend := @apduTransport_last env state k log hopen
    ((0x80 &&& 0xF0) ||| UInt8.ofNat (channel % 16).toNat) (UInt8.ofNat seq) rest (by omega) hbuf
    htotal
  dsimp only at hsend
  rw [es10xCommandIter, if_neg (by omega)]
  simp only [gt_iff_lt, if_neg (Nat.not_lt.2 hlast)]
  rw [bind_of_returns hread, bind_of_returns hbuild]
  cases h : processEs10xCommand (env k) { state with segmentBuffer := .null }
    (.ofBytes (env k) (state.segmentBuffer.data ++ rest)) with
  | none =>
    rw [h] at hresult hsend
    cases hresult
    exact bind_of_fails (onPartner_eq (transmitIter_fails hsend))
  | some outcome =>
    rw [h] at hresult hsend
    cases hresult with
    | error => exact bind_of_fails (onPartner_eq (transmitIter_fails hsend))
    | unsupported => exact bind_of_fails (onPartner_eq (transmitIter_unsupported hsend))
    | ok =>
      rw [bind_of_returns (onPartner_eq (transmitIter_ok hsend)), Nat.sub_self, es10xCommandIter]
      rfl

/-! ## All segments -/

/-- The first `q` segments of a command. -/
def continued (mss : ℕ) : ℕ → Bytes → List Bytes
  | 0, _ => []
  | q + 1, rest => rest.take mss :: continued mss q (rest.drop mss)

variable {q : ℕ}

theorem length_continued (mss q : ℕ) (rest : Bytes) : (continued mss q rest).length = q := by
  induction q generalizing rest with
  | zero => rfl
  | succ q ih => rw [continued, List.length_cons, ih]

theorem length_of_mem_continued (h : q * mss ≤ rest.length) :
    ∀ p ∈ continued mss q rest, p.length = mss := by
  induction q generalizing rest with
  | zero => simp [continued]
  | succ q ih =>
    rw [Nat.succ_mul] at h
    rw [continued, List.forall_mem_cons, List.length_take]
    exact ⟨by omega, ih (by rw [List.length_drop]; omega)⟩

/-- **All segments**, if the card has room for those that are continued: it processes what it has
buffered and all of the command. -/
theorem commandIter_completes (hopen : 0 ≤ state.logicChannel) (hmss : mss ≤ 255) (hpos : 0 < mss)
    (hbody : body.length = 255) (hsource : source.Holds body pos rest)
    (hq : q * mss < rest.length) (hq' : rest.length ≤ (q + 1) * mss) (hn : q + 2 ≤ n)
    (hbuf : state.segmentBuffer.data = [] → state.segmentBuffer = .null)
    (htotal : state.segmentBuffer.data.length + rest.length < 2 ^ 32) {b : GrowBuf}
    (hroom : (continued mss q rest).foldlM (append (· + 512)) state.segmentBuffer = some b)
    {result : Option Bytes}
    (hresult : Answers (processEs10xCommand (env (k + q)) { state with segmentBuffer := .null }
      (.ofBytes (env (k + q)) (state.segmentBuffer.data ++ rest))) result) :
    ∃ body', es10xCommandIter (apduTransport env) channel mss (bound + 1) source n rest.length pos
        seq [] ⟨body, ⟨k, some state, log⟩⟩ =
      some (⟨body', ⟨k + q + 1,
        (processEs10xCommand (env (k + q)) { state with segmentBuffer := .null }
          (.ofBytes (env (k + q)) (state.segmentBuffer.data ++ rest))).map (·.1),
        log ++ [state.segmentBuffer.data ++ rest]⟩⟩, result) := by
  induction q generalizing n state body rest pos k seq with
  | zero =>
    obtain ⟨n, rfl⟩ : ∃ m, n = m + 2 := ⟨n - 2, by omega⟩
    exact ⟨_, commandIter_last hopen hmss hbody hsource (by omega) (by omega) hbuf htotal hresult⟩
  | succ q ih =>
    obtain ⟨n, rfl⟩ : ∃ m, n = m + 1 := ⟨n - 1, by omega⟩
    have hmul : (q + 1) * mss = q * mss + mss := Nat.succ_mul q mss
    have hmul' : (q + 1 + 1) * mss = (q + 1) * mss + mss := Nat.succ_mul (q + 1) mss
    rw [continued, List.foldlM_cons, Option.bind_eq_bind] at hroom
    obtain ⟨b', happ, hroom⟩ := Option.bind_eq_some_iff.1 hroom
    have hdata := append_data happ
    have hcmd : b'.data ++ rest.drop mss = state.segmentBuffer.data ++ rest := by
      rw [hdata, List.append_assoc, List.take_append_drop]
    have hstep := @commandIter_continue env state channel mss bound source body rest pos k seq n log
      hopen hmss hbody hsource (by omega)
    rw [happ] at hstep
    dsimp only at hstep
    rw [hstep]
    have hne : b'.data ≠ [] := by
      rw [hdata]
      refine List.append_ne_nil_of_right_ne_nil _ ?_
      rw [Ne, List.take_eq_nil_iff]
      rintro (h | rfl)
      · omega
      · simp at hq
    have hk : k + (q + 1) = k + 1 + q := by omega
    rw [← hcmd, hk] at hresult ⊢
    have hlen : (rest.drop mss).length = rest.length - mss := List.length_drop
    have hbody' : (rest.take mss ++ body.drop mss).length = 255 := by
      rw [List.length_append, List.length_take, List.length_drop]
      omega
    have htotal' : b'.data.length + (rest.drop mss).length < 2 ^ 32 := by
      rw [← List.length_append, hcmd, List.length_append]
      exact htotal
    exact @ih { state with segmentBuffer := b' } _ _ _ _ _ _ hopen hbody'
      (hsource.next (by omega)) (by omega) (by omega) (by omega) (fun h => absurd h hne) htotal'
      hroom hresult

/-- **Without room** the card crashes before it processes the command. -/
theorem commandIter_crashes (hopen : 0 ≤ state.logicChannel) (hmss : mss ≤ 255)
    (hbody : body.length = 255) (hsource : source.Holds body pos rest)
    (hq : q * mss < rest.length) (hn : q + 1 ≤ n)
    (hroom : (continued mss q rest).foldlM (append (· + 512)) state.segmentBuffer = none) :
    ∃ body' k', es10xCommandIter (apduTransport env) channel mss (bound + 1) source n rest.length
        pos seq [] ⟨body, ⟨k, some state, log⟩⟩ = some (⟨body', ⟨k', none, log⟩⟩, none) := by
  induction q generalizing n state body rest pos k seq with
  | zero => cases hroom
  | succ q ih =>
    obtain ⟨n, rfl⟩ : ∃ m, n = m + 1 := ⟨n - 1, by omega⟩
    have hmul : (q + 1) * mss = q * mss + mss := Nat.succ_mul q mss
    have hlen : (rest.drop mss).length = rest.length - mss := List.length_drop
    have hbody' : (rest.take mss ++ body.drop mss).length = 255 := by
      rw [List.length_append, List.length_take, List.length_drop]
      omega
    have hstep := @commandIter_continue env state channel mss bound source body rest pos k seq n log
      hopen hmss hbody hsource (by omega)
    rw [continued, List.foldlM_cons, Option.bind_eq_bind] at hroom
    cases happ : state.segmentBuffer.append (· + 512) (rest.take mss) with
    | none =>
      rw [happ] at hstep
      exact ⟨_, _, hstep⟩
    | some b =>
      rw [happ] at hstep hroom
      dsimp only at hstep
      rw [hstep]
      exact @ih { state with segmentBuffer := b } _ _ _ _ _ _ hopen hbody'
        (hsource.next (by omega)) (by omega) (by omega) hroom

/-! ## Commands of any length -/

theorem processEs10xCommand_segmentBuffer {env : Env} {s s' : EuiccState} {cmd : Command}
    {r : Option Bytes} (h : processEs10xCommand env s cmd = some (s', r)) :
    s'.segmentBuffer = s.segmentBuffer := by
  obtain ⟨-, rfl, -⟩ | ⟨-, _, _, -, ⟨-, rfl, -⟩ | ⟨_, hh, -, -⟩⟩ := processEs10xCommand_cases h
  · rfl
  · rfl
  · exact (handle_keeps hh).2

/-- Sent with `es10xCommand`, the command is processed exactly once and as it is, the segment buffer
is empty afterwards, and a body that the card answers with the status word `9000` is what
`es10xCommand` returns. -/
def Reassembled (env : ℕ → Env) (channel : ℤ) (mss bound : ℕ) (source : Source) (body : Bytes)
    (state : EuiccState) : Prop :=
  let cmd := source.command body
  let last := (cmd.length - 1) / mss
  ∃ i result, es10xCommand (apduTransport env) channel mss bound source
      ⟨body, ⟨0, some state, []⟩⟩ = some (i, result) ∧
    i.partner.processed = [cmd] ∧
    (∀ s', i.partner.card = some s' → s'.segmentBuffer.data = []) ∧
    ∀ s' respBody, processEs10xCommand (env last) state (.ofBytes (env last) cmd) =
      some (s', some (respBody ++ [0x90, 0x00])) →
        i.partner.card = some s' ∧ result = some respBody

section Reassembly

variable (hopen : 0 ≤ state.logicChannel) (hempty : state.segmentBuffer = .null) (hpos : 1 ≤ mss)
  (hmss : mss ≤ 255) (hbody : body.length = 255) (hne : source.command body ≠ [])
  (hlen : (source.command body).length < 2 ^ 32)

include hpos hne hlen hempty in
theorem foldlM_continued (last : ℕ) (hlast : last = ((source.command body).length - 1) / mss) :
    last * mss < (source.command body).length ∧
      (source.command body).length ≤ (last + 1) * mss ∧
      (GrowthsFit mss 512 last → ∃ b, (continued mss last (source.command body)).foldlM
        (append (· + 512)) state.segmentBuffer = some b) ∧
      (¬ GrowthsFit mss 512 last → (continued mss last (source.command body)).foldlM
        (append (· + 512)) state.segmentBuffer = none) := by
  have hcmd := List.length_pos_of_ne_nil hne
  have hle : last * mss ≤ (source.command body).length - 1 := by
    rw [hlast]
    exact Nat.div_mul_le_self _ _
  have hlt : (source.command body).length - 1 < (last + 1) * mss := by
    rw [hlast, Nat.mul_comm]
    exact Nat.lt_mul_div_succ _ hpos
  have hgrown := @Grown.foldlM_append mss 512 0 null
    (continued mss last (source.command body)) grown_null (fun i hi => by omega)
    (length_of_mem_continued (by omega)) hpos (by decide)
    (by rw [length_continued, Nat.zero_add]; omega)
  rw [length_continued, Nat.zero_add] at hgrown
  rw [hempty]
  exact ⟨by omega, by omega, fun h => (hgrown.1 h).imp fun b hb => hb.1, hgrown.2⟩

include hopen hempty hpos hmss hbody hne hlen in
/-- A command arrives when no capacity wraps. -/
theorem reassembled_of_fits
    (hfits : GrowthsFit mss 512 (((source.command body).length - 1) / mss)) :
    Reassembled env channel mss (bound + 1) source body state := by
  obtain ⟨hq, hq', hroom, -⟩ := foldlM_continued hempty hpos hne hlen _ rfl
  obtain ⟨b, hroom⟩ := hroom hfits
  have hdata : state.segmentBuffer.data = [] := by rw [hempty]; rfl
  have hstate : { state with segmentBuffer := .null } = state := by rw [← hempty]
  set last := ((source.command body).length - 1) / mss with hlast
  have hle : last ≤ (source.command body).length - 1 := Nat.div_le_self _ _
  have hcmd := List.length_pos_of_ne_nil hne
  obtain ⟨result, hresult⟩ := answers_process (env last) state
    (.ofBytes (env last) (source.command body))
  have hrun := @commandIter_completes env state channel mss bound source body
    (source.command body) 0 0 0 ((source.command body).length + 1) [] last hopen hmss hpos hbody
    (source.holds_command body) hq hq' (by omega) (fun _ => hempty)
    (by rw [hdata, List.length_nil]; omega) b hroom result
  rw [hstate, hdata, List.nil_append, Nat.zero_add] at hrun
  obtain ⟨body', hrun⟩ := hrun hresult
  refine ⟨_, result, hrun, rfl, fun s' hs' => ?_, fun s' respBody hs' => ?_⟩
  · obtain ⟨⟨_, r⟩, hp, rfl⟩ := Option.map_eq_some_iff.1 hs'
    rw [processEs10xCommand_segmentBuffer hp, hdata]
  · rw [← hlast] at hs'
    rw [hs'] at hresult
    exact ⟨by rw [hs']; rfl, hresult.of_ok⟩

include hopen hempty hpos hmss hbody hne hlen in
/-- A command does not arrive when a capacity wraps. -/
theorem not_reassembled
    (hfits : ¬ GrowthsFit mss 512 (((source.command body).length - 1) / mss)) :
    ¬ Reassembled env channel mss (bound + 1) source body state := by
  obtain ⟨hq, hq', -, hroom⟩ := foldlM_continued hempty hpos hne hlen _ rfl
  have hle := Nat.div_le_self ((source.command body).length - 1) mss
  have hcmd := List.length_pos_of_ne_nil hne
  obtain ⟨body', k', hrun⟩ := @commandIter_crashes env state channel mss bound source body
    (source.command body) 0 0 0 ((source.command body).length + 1) [] _ hopen hmss hbody
    (source.holds_command body) hq (by omega) (hroom hfits)
  rintro ⟨i, result, hrun', hprocessed, -⟩
  cases hrun.symm.trans hrun'
  cases hprocessed

end Reassembly

/-- **A command arrives, whole and once, exactly if no capacity of the card's buffer wraps.** -/
theorem segmentation_iff (hopen : 0 ≤ state.logicChannel) (hempty : state.segmentBuffer = .null)
    (hpos : 1 ≤ mss) (hmss : mss ≤ 255) (hbody : body.length = 255)
    (hne : source.command body ≠ []) (hlen : (source.command body).length < 2 ^ 32) :
    Reassembled env channel mss (bound + 1) source body state ↔
      GrowthsFit mss 512 (((source.command body).length - 1) / mss) := by
  constructor
  · intro h
    by_contra hfits
    exact not_reassembled hopen hempty hpos hmss hbody hne hlen hfits h
  · exact reassembled_of_fits hopen hempty hpos hmss hbody hne hlen

/-- A request for the card's information, in two segments from the request buffer itself. -/
theorem segmentation_iff_sample :
    Reassembled (fun _ => sampleEnv) 1 2 1 (.requestBody 3)
      ([0xBF, 0x20, 0x00] ++ List.replicate 252 0) { euiccStateInit with logicChannel := 1 } := by
  have hcommand : Source.command ([0xBF, 0x20, 0x00] ++ List.replicate 252 0) (.requestBody 3) =
      [0xBF, 0x20, 0x00] := rfl
  have hfits : GrowthsFit 2 512 ((([0xBF, 0x20, 0x00] : Bytes).length - 1) / 2) := by
    intro i hi
    rcases Nat.eq_zero_or_pos i with rfl | hi0
    · decide
    · have := Nat.mul_le_mul_right (growStep 2 512) hi0
      simp only [growStep, List.length_cons, List.length_nil] at hi this
      omega
  rw [← hcommand] at hfits
  exact (segmentation_iff (by decide) rfl (by decide) (by decide)
    (by rw [List.length_append, List.length_replicate]; rfl) (by rw [hcommand]; decide)
    (by rw [hcommand]; decide)).2 hfits

/-- **A command of 2^32 - 1 bytes is lost**, with segments of 120 bytes. -/
theorem segmentation_fails : ¬ ∀ (env : ℕ → Env) (channel : ℤ) (mss : ℕ) (source : Source)
    (body : Bytes) (state : EuiccState), 0 ≤ state.logicChannel → state.segmentBuffer = .null →
    1 ≤ mss → mss ≤ 255 → body.length = 255 → source.command body ≠ [] →
    (source.command body).length < 2 ^ 32 → Reassembled env channel mss 1 source body state := by
  intro h
  obtain ⟨cmd, hcmd⟩ : ∃ cmd : Bytes, cmd.length = 2 ^ 32 - 1 :=
    ⟨List.replicate (2 ^ 32 - 1) 0, List.length_replicate⟩
  have hlen : (Source.command (List.replicate 255 0) (.memory cmd)).length = 2 ^ 32 - 1 := hcmd
  have hne : Source.command (List.replicate 255 0) (.memory cmd) ≠ [] :=
    List.ne_nil_of_length_pos (by omega)
  have hwraps : ¬ GrowthsFit 120 512
      (((Source.command (List.replicate 255 0) (.memory cmd)).length - 1) / 120) := by
    rw [hlen]
    intro hfits
    exact absurd (hfits 7158278 (by norm_num [growStep])) (by norm_num [growStep])
  have hlt : (Source.command (List.replicate 255 0) (.memory cmd)).length < 2 ^ 32 := by
    rw [hlen]
    decide
  have hopen : 0 ≤ ({ euiccStateInit with logicChannel := 1 } : EuiccState).logicChannel := by
    decide
  exact not_reassembled hopen rfl (by decide) (by decide) List.length_replicate hne hlt hwraps
    (h (fun _ => sampleEnv) 1 120 (.memory cmd) (List.replicate 255 0) _ hopen rfl (by decide)
      (by decide) List.length_replicate hne hlt)

end VirtualRsp.Lpa.Apdu
