import VirtualRsp.Card.Frame
import VirtualRsp.Foundations.Program

/-!
# Commands in APDUs

The LPA sends a command in segments of at most `es10x_mss` bytes, each in an APDU that it builds in
the request buffer of its APDU interface; the command itself may lie in that buffer. The card
buffers all segments but the last, and processes them together with the last one.

`es10xCommand` is the LPA's side, a program over any partner that answers APDUs, and
`apduTransport` the card as such a partner.
-/

namespace VirtualRsp.Lpa.Apdu

open Card Program

variable {σ α : Type}

/-! ## The APDU interface -/

/-- The APDU interface: the body of its request buffer, and the partner behind it. -/
structure Interface (σ : Type) where
  body : Bytes
  partner : σ

/-- Run a program of the partner. -/
def onPartner (x : Program σ α) : Program (Interface σ) α := fun i =>
  (x i.partner).map fun r => ({ i with partner := r.1 }, r.2)

/-- A request as it stands in the request buffer: the header, and the part of the body that is
sent. -/
structure ApduRequest where
  cla : UInt8
  ins : UInt8
  p1 : UInt8
  p2 : UInt8
  length : UInt8
  data : Bytes

/-- The bytes that are sent. -/
def ApduRequest.bytes (req : ApduRequest) : Bytes :=
  [req.cla, req.ins, req.p1, req.p2, req.length] ++ req.data

/-- A response without its status word, and the status word. -/
structure ApduResponse where
  data : Bytes
  sw1 : ℕ
  sw2 : ℕ

/-- Take the status word off. -/
def apduResponse (response : Bytes) : Option ApduResponse :=
  if response.length < 2 then none
  else do
    let sw1 ← readAt response (response.length - 2)
    let sw2 ← readAt response (response.length - 1)
    return ⟨response.take (response.length - 2), sw1, sw2⟩

/-- `euicc_apdu_transmit`. -/
def euiccApduTransmit (transmit : Bytes → Program σ Bytes) (req : ApduRequest) :
    Program σ ApduResponse := do
  let response ← transmit req.bytes
  .ofOption (apduResponse response)

/-- Send a request on the logical channel. -/
def es10xTransmit (transmit : Bytes → Program σ Bytes) (channel : ℤ) (req : ApduRequest) :
    Program σ ApduResponse :=
  euiccApduTransmit transmit
    { req with cla := (req.cla &&& 0xF0) ||| UInt8.ofNat (channel % 16).toNat }

/-! ## Segments -/

/-- Collect a response: as long as the partner says that there is more, ask for it. The bound is
on the number of responses. -/
def collectResponse (transmit : Bytes → Program σ Bytes) (channel : ℤ) :
    ℕ → ApduResponse → Bytes → Program σ Bytes
  | 0, _, _ => fun _ => none
  | n + 1, response, resp =>
    let resp := resp ++ response.data
    if response.sw1 = 0x61 then do
      let response ← es10xTransmit transmit channel
        ⟨0x80, 0xC0, 0x00, 0x00, UInt8.ofNat response.sw2, []⟩
      collectResponse transmit channel n response resp
    else if response.sw1 / 16 = 9 then pure resp
    else fail

/-- Send a request and append what is answered to `resp`. -/
def es10xTransmitIter (transmit : Bytes → Program σ Bytes) (channel : ℤ) (bound : ℕ)
    (req : ApduRequest) (resp : Bytes) : Program σ Bytes := do
  let response ← es10xTransmit transmit channel req
  collectResponse transmit channel bound response resp

/-- Build a `STORE DATA` request: its data are copied to the body of the request buffer. -/
def es10xCommandBuildrequest (p1 p2 : UInt8) (derReq : Bytes) :
    Program (Interface σ) ApduRequest := fun i =>
  if derReq.length ≤ i.body.length then
    some ({ i with body := derReq ++ i.body.drop derReq.length },
      some ⟨0x80, 0xE2, p1, p2, UInt8.ofNat derReq.length, derReq⟩)
  else none

/-- Where the caller's command lies: somewhere else in memory, or at the start of the body of the
request buffer itself. -/
inductive Source
  | memory (bytes : Bytes)
  | requestBody (len : ℕ)

/-- The command. -/
def Source.command (body : Bytes) : Source → Bytes
  | .memory bytes => bytes
  | .requestBody len => body.take len

/-- Read `n` bytes of the command from a position on, as they are now. -/
def Source.read (source : Source) (pos n : ℕ) : Program (Interface σ) Bytes := fun i =>
  let mem := match source with
    | .memory bytes => bytes
    | .requestBody _ => i.body
  (readN (mem.drop pos) n).map fun data => (i, some data)

/-- Send the remaining `reqLen` bytes of a command, from a position on. Of the counter of segments
only the low byte is sent. The bound is on the number of segments. -/
def es10xCommandIter (transmit : Bytes → Program σ Bytes) (channel : ℤ) (mss bound : ℕ)
    (source : Source) : ℕ → ℕ → ℕ → ℕ → Bytes → Program (Interface σ) Bytes
  | 0, _, _, _, _ => fun _ => none
  | n + 1, reqLen, reqPtr, reqseq, resp =>
    if reqLen = 0 then pure resp
    else do
      let (rlen, p1) := if reqLen > mss then (mss, 0x11) else (reqLen, 0x91)
      let derReq ← source.read reqPtr rlen
      let req ← es10xCommandBuildrequest p1 (UInt8.ofNat reqseq) derReq
      let resp ← onPartner (es10xTransmitIter transmit channel bound req resp)
      es10xCommandIter transmit channel mss bound source n (reqLen - rlen) (reqPtr + rlen)
        (reqseq + 1) resp

/-- Send a command and return what is answered to it. -/
def es10xCommand (transmit : Bytes → Program σ Bytes) (channel : ℤ) (mss bound : ℕ)
    (source : Source) : Program (Interface σ) Bytes := fun i =>
  let reqLen := (source.command i.body).length
  es10xCommandIter transmit channel mss bound source (reqLen + 1) reqLen 0 0 [] i

/-! ## The card -/

/-- The card behind the interface: the number of APDUs it has served, its state unless it has
crashed, and the commands it has processed. -/
structure ApduSession where
  served : ℕ
  card : Option EuiccState
  processed : List Bytes

/-- Hand an APDU to the card. A card that faults is gone, and gives no answer any more. -/
def apduTransport (env : ℕ → Env) (command : Bytes) : Program ApduSession Bytes := fun session =>
  match session.card with
  | none => some (session, none)
  | some state =>
    match receiveApdu (env session.served) state command with
    | none => some (⟨session.served + 1, none, session.processed⟩, none)
    | some (state, .reply response) =>
      some (⟨session.served + 1, some state, session.processed⟩, response)
    | some (state, .complete cmd) =>
      let outcome := processEs10xCommand (env session.served) state cmd
      some (⟨session.served + 1, outcome.map (·.1),
        session.processed ++ [cmd.mem.take cmd.len]⟩, outcome.bind (·.2))

/-- **The card behind the interface** is the card that serves APDUs. -/
theorem apduTransport_eq (env : ℕ → Env) (command : Bytes) (k : ℕ) (state : EuiccState)
    (processed : List Bytes) :
    (apduTransport env command ⟨k, some state, processed⟩).map (fun r => (r.1.card, r.2)) =
      some ((apduHandleTransmit (env k) state command).map (·.1),
        (apduHandleTransmit (env k) state command).bind (·.2)) := by
  simp only [apduTransport, apduHandleTransmit, Option.bind_eq_bind]
  cases receiveApdu (env k) state command with
  | none => rfl
  | some r =>
    obtain ⟨state', apdu⟩ := r
    cases apdu with
    | reply response => rfl
    | complete cmd => rfl

end VirtualRsp.Lpa.Apdu
