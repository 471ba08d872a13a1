import VirtualRsp.Card.Authenticate
import VirtualRsp.Card.Install
import VirtualRsp.Card.PrepareDownload
import VirtualRsp.Card.Profiles
import VirtualRsp.Foundations.Run

/-!
# The card daemon

`processEs10xCommand` reads the tag of a command, looks into a `BF36` wrapper, and hands the command
to its handler; `apduHandleTransmit` takes commands out of APDUs and puts segmented ones together;
`handleRequest` serves the requests of a client; `daemonStep` is the main loop, in which the state
outlives the clients.
-/

namespace VirtualRsp.Card

/-! ## Commands -/

/-- The commands of the card, and everything else. -/
inductive Es10xCommand
  | getEuiccChallenge
  | getEuiccInfo1
  | getEuiccData
  | getConfiguredAddresses
  | authenticateServer
  | prepareDownload
  | getEuiccInfo2
  | cancelSession
  | initialiseSecureChannel
  | bppData
  | sequenceOf86
  | enableProfile
  | disableProfile
  | deleteProfile
  | getProfilesInfo
  | unsupported
  deriving DecidableEq

/-- The command of a tag. -/
def Es10xCommand.ofTag : ℕ → Es10xCommand
  | 0xBF2E => .getEuiccChallenge
  | 0xBF20 => .getEuiccInfo1
  | 0xBF3E => .getEuiccData
  | 0xBF3C => .getConfiguredAddresses
  | 0xBF38 => .authenticateServer
  | 0xBF21 => .prepareDownload
  | 0xBF22 => .getEuiccInfo2
  | 0xBF41 => .cancelSession
  | 0xBF23 => .initialiseSecureChannel
  | 0x86 | 0x87 | 0x88 | 0xA0 | 0xA1 | 0xA2 => .bppData
  | 0xA3 => .sequenceOf86
  | 0xBF31 => .enableProfile
  | 0xBF32 => .disableProfile
  | 0xBF33 => .deleteProfile
  | 0xBF2D => .getProfilesInfo
  | _ => .unsupported

/-- The handlers; an unsupported command has none. -/
def Es10xCommand.handle (env : Env) (state : EuiccState) (cmd : Command) : Es10xCommand → Outcome
  | .getEuiccChallenge => Card.getEuiccChallenge env state
  | .getEuiccInfo1 => Card.getEuiccInfo1 state
  | .getEuiccData => Card.getEuiccData state
  | .getConfiguredAddresses => Card.getConfiguredAddresses state
  | .authenticateServer => Card.authenticateServer env state cmd
  | .prepareDownload => Card.prepareDownload env state cmd
  | .getEuiccInfo2 => Card.getEuiccInfo2 env state
  | .cancelSession => Card.cancelSession env state
  | .initialiseSecureChannel => Card.initialiseSecureChannel env state cmd
  | .bppData => Card.bppData state cmd
  | .sequenceOf86 => Card.sequenceOf86 env state cmd
  | .enableProfile => Card.enableProfile state cmd
  | .disableProfile => Card.disableProfile state cmd
  | .deleteProfile => Card.deleteProfile state cmd
  | .getProfilesInfo => Card.getProfilesInfo state
  | .unsupported => some (state, none)

/-- The tag a command starts with. -/
def commandTag (cmd : Command) : Option ℕ := do
  let t ← readAt cmd.mem 0
  if t % 32 = 31 then return t * 256 + (← readAt cmd.mem 1)
  else return t

/-- The command inside a `BF36` wrapper: behind the tag and the length field, if there is a tag left
then. The log shows the first bytes of both. -/
def unwrapBf36 (cmd : Command) : Option (Command × ℕ) := do
  let _ ← readN cmd.mem (min cmd.len 20)
  let ptr := cmd.mem.drop 2
  let len := cmd.len - 2
  if len = 0 then return (cmd, 0xBF36)
  let lenByte ← readAt ptr 0
  let (ptr, len) := skipLength lenByte ptr len
  if len < 2 then return (cmd, 0xBF36)
  let inner : Command := ⟨ptr, len⟩
  let tag ← commandTag inner
  let _ ← readN inner.mem (min inner.len 20)
  return (inner, tag)

/-- Find out which command a request is, and where it starts. -/
def decodeCommand (cmd : Command) : Option (Command × Es10xCommand) := do
  let tag ← commandTag cmd
  let (cmd, tag) ← (if tag = 0xBF36 then unwrapBf36 cmd else some (cmd, tag) : Option (Command × ℕ))
  return (cmd, .ofTag tag)

/-- Process a command. The response has the status bytes at its end: `9000`, or `6D00` for an
unsupported command, of which the log shows the first bytes. -/
def processEs10xCommand (env : Env) (state : EuiccState) (cmd : Command) : Outcome :=
  if cmd.len < 2 then some (state, none)
  else do
    let (cmd, es10x) ← decodeCommand cmd
    if es10x = .unsupported then
      let _ ← readN cmd.mem (min cmd.len 16)
      return (state, some [0x6D, 0x00])
    else
      let (state, respBody) ← es10x.handle env state cmd
      return (state, respBody.map (· ++ [0x90, 0x00]))

/-! ## APDUs -/

/-- What an APDU asks for: an answer right away, or a complete command to be processed. -/
inductive Apdu
  | reply (response : Option Bytes)
  | complete (cmd : Command)

/-- Take an APDU apart. Commands come in segments; all but the last are buffered, and the last one
is put together with them. -/
def receiveApdu (env : Env) (state : EuiccState) (command : Bytes) :
    Option (EuiccState × Apdu) :=
  if state.logicChannel < 0 then some (state, .reply none)
  else if command.length < 5 then some (state, .reply none)
  else do
    let mem := command ++ env.trailing
    let ins ← readAt mem 1
    let p1 ← readAt mem 2
    let lc ← readAt mem 4
    let _ ← (if 0 < lc ∧ lc ≤ 16 then readN mem lc else some [] : Option Bytes)
    if ins ≠ 0xE2 then return (state, .reply (some [0x6D, 0x00]))
    let es10xData := command.drop 5
    if p1 < 0x80 then
      let segmentBuffer ← state.segmentBuffer.append (· + 512) es10xData
      return ({ state with segmentBuffer := segmentBuffer }, .reply (some [0x90, 0x00]))
    else if state.segmentBuffer.data = [] then
      return (state, .complete (.ofBytes env es10xData))
    else if state.segmentBuffer.data.length + es10xData.length < 2 ^ 32 then
      return ({ state with segmentBuffer := .null },
        .complete (.ofBytes env (state.segmentBuffer.data ++ es10xData)))
    else none

/-- Serve an APDU. -/
def apduHandleTransmit (env : Env) (state : EuiccState) (command : Bytes) : Outcome := do
  match ← receiveApdu env state command with
  | (state, .reply response) => return (state, response)
  | (state, .complete cmd) => processEs10xCommand env state cmd

/-! ## Requests -/

/-- The functions a client can call. -/
inductive Func
  | connect
  | disconnect
  | logicChannelOpen
  | logicChannelClose
  | transmit
  | unknown
  deriving DecidableEq

/-- A request: the function and its parameter. -/
structure Request where
  func : Func
  param : Bytes
  deriving DecidableEq

/-- The response to a request: an error code, and data if there is any. -/
structure Response where
  ecode : ℤ
  data : Bytes
  deriving DecidableEq

/-- The response to an APDU. -/
def Response.ofTransmit : Option Bytes → Response
  | none => ⟨-1, []⟩
  | some data => ⟨0, data⟩

/-- Serve a request. -/
def handleRequest (env : Env) (state : EuiccState) (request : Request) :
    Option (EuiccState × Response) :=
  match request.func with
  | .connect => some (apduHandleConnect env, ⟨0, []⟩)
  | .disconnect => (apduHandleDisconnect state).map fun state => (state, ⟨0, []⟩)
  | .logicChannelOpen =>
    let (state, channel) := apduHandleLogicChannelOpen state request.param
    some (state, ⟨channel.getD (-1), []⟩)
  | .logicChannelClose =>
    match request.param with
    | [] => some (state, ⟨0, []⟩)
    | channel :: _ => some (apduHandleLogicChannelClose state channel, ⟨0, []⟩)
  | .transmit =>
    (apduHandleTransmit env state request.param).map fun r => (r.1, .ofTransmit r.2)
  | .unknown => some (state, ⟨-1, []⟩)

/-- What serving a request hands to the handlers, if it processes a command: the state, the command
and its kind. -/
def handlerInput (env : Env) (state : EuiccState) (request : Request) :
    Option (EuiccState × Command × Es10xCommand) :=
  if request.func = .transmit then
    match receiveApdu env state request.param with
    | some (state, .complete cmd) =>
      if cmd.len < 2 then none else (decodeCommand cmd).map fun r => (state, r.1, r.2)
    | _ => none
  else none

/-- The kind of command that serving a request processes. -/
def processedCommand (env : Env) (state : EuiccState) (request : Request) : Option Es10xCommand :=
  (handlerInput env state request).map fun r => r.2.2

/-! ## The main loop -/

/-- The state of the daemon: it is kept from client to client. -/
structure Daemon where
  globalState : EuiccState
  globalStateInitialized : Bool

/-- What happens to the daemon: a client connects, or sends a request. -/
inductive Event
  | accept
  | request (env : Env) (request : Request)

/-- The daemon at its start: all memory is zero. -/
def Daemon.start : Daemon where
  globalState := { euiccStateInit with
    eid := [], rootSmds := [], logicChannel := 0, notificationSeqNumber := 0 }
  globalStateInitialized := false

/-- The profiles of a daemon, in order. -/
def Daemon.profiles (daemon : Daemon) : Option (List ProfileMetadata) :=
  daemon.globalState.profiles.toList

/-- One event. The first client finds a freshly initialised state; without a client there are no
requests. -/
def daemonStep (daemon : Daemon) : Event → Option Daemon
  | .accept =>
    if daemon.globalStateInitialized then some daemon
    else some ⟨euiccStateInit, true⟩
  | .request env request =>
    if daemon.globalStateInitialized then
      (handleRequest env daemon.globalState request).map fun r => ⟨r.1, true⟩
    else none

end VirtualRsp.Card
