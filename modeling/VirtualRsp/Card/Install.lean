import VirtualRsp.Card.Info

/-!
# Profile installation

The commands of a bound profile package: `BF23` opens the secure channel, the commands with tags
`86`, `87`, `88` and `A0` to `A2` add bytes to the package, and `A3` adds bytes and installs what
has been collected. The card does not decrypt anything: what it installs is the bytes of the
package.

* `initialiseSecureChannel`, `bppData`, `sequenceOf86`: the three handlers;
* `installProfile`: the new profile goes to the front of the list, disabled, and the package buffer
  is emptied.
-/

namespace VirtualRsp.Card

/-! ## Opening the secure channel -/

/-- The content of a `BF23` command: behind the tag and the length, if the command is long enough to
have them. -/
def bf23Content (cmd : Command) : Option (Bytes × ℕ) :=
  if cmd.len ≤ 4 then some (cmd.mem, cmd.len)
  else do
    let b₀ ← readAt cmd.mem 0
    if b₀ ≠ 0xBF then return (cmd.mem, cmd.len)
    let b₁ ← readAt cmd.mem 1
    if b₁ ≠ 0x23 then return (cmd.mem, cmd.len)
    let lenByte ← readAt cmd.mem 2
    return skipLength lenByte (cmd.mem.drop 2) (cmd.len - 2)

/-- What is at a pointer, read as the server's one-time public key: `5F 49`, a short length, and a
value that fits. -/
def smdpOtpkAt (ptr : Bytes) (remaining : ℕ) : Option (Option Bytes) := do
  let a ← readAt ptr 0
  let b ← readAt ptr 1
  if a = 0x5F ∧ b = 0x49 then
    let len ← readAt ptr 2
    if len < 0x80 ∧ 3 + len ≤ remaining then return some (← readN (ptr.drop 3) len)
    else return none
  else return none

/-- One round of the walk to the server's one-time public key. A field with a long length is left
byte by byte. -/
def smdpOtpkBody : Bytes × ℕ → Option (Ctl (Bytes × ℕ) (Option Bytes))
  | (ptr, remaining) =>
    if remaining ≤ 3 then some (.done none)
    else do
      match ← smdpOtpkAt ptr remaining with
      | some smdpOtpk => return .done (some smdpOtpk)
      | none =>
        let skipLen ← readAt ptr 1
        if 0x80 ≤ skipLen then return .next (ptr.drop 1, remaining - 1)
        else return .next (ptr.drop (2 + skipLen), sub32 remaining (2 + skipLen))

/-- The result of an intermediate command, with an empty signature. -/
def intermediateResult (state : EuiccState) : Option Bytes := do
  let pir ← puts 256 [] [buildTlv 0x80 state.transactionId,
    buildTlv 0xBF2F (buildTlv 0x80 [0x00]), [0x06, 0x03, 0x04, 0x00, 0x7F],
    [0xA2, 0x02, 0xA0, 0x00]]
  let final ← puts 512 [] [buildTlv 0xBF27 pir, buildTlv 0x5F37 (List.replicate 64 0)]
  return buildTlv 0xBF37 final

/-- `BF23`: check the transaction identifier, take the server's one-time public key and derive the
session keys. -/
def initialiseSecureChannel (env : Env) (state : EuiccState) (cmd : Command) : Outcome := do
  let (ptr, remaining) ← bf23Content cmd
  let transactionIdFound ← scan (transactionIdBody []) ptr remaining
  if transactionIdFound ≠ state.transactionId then return (state, none)
  match ← scan smdpOtpkBody ptr remaining with
  | none => return (state, none)
  | some smdpOtpk =>
    if smdpOtpk.length ≠ 65 then return (state, none)
    let state := { state with smdpOtpk := some smdpOtpk }
    match state.euiccOtsk with
    | none => return (state, none)
    | some euiccOtsk =>
      match deriveSessionKeysEcka env euiccOtsk smdpOtpk with
      | none => return (state, none)
      | some (enc, mac) =>
        let state := { state with
          sessionKeyEnc := enc
          sessionKeyMac := mac
          sessionKeysDerived := true
          bppCommandsReceived := state.bppCommandsReceived + 1 }
        return (state, some (← intermediateResult state))

/-! ## Collecting the package -/

/-- The data of a segment: as many bytes behind the header as the byte after the tag says, if the
command is that long. -/
def segmentData (cmd : Command) : Option Bytes :=
  if cmd.len < 3 then some []
  else do
    let dataLen ← readAt cmd.mem 1
    if cmd.len < 2 + dataLen then return []
    else readN (cmd.mem.drop 2) dataLen

/-- Append the data of a segment to the package. -/
def storeSegment (state : EuiccState) (cmd : Command) : Option EuiccState := do
  let data ← segmentData cmd
  let package ← state.boundProfilePackage.append (· * 2) data
  return { state with
    bppCommandsReceived := state.bppCommandsReceived + 1
    boundProfilePackage := package }

/-- The tags `86`, `87`, `88`, `A0`, `A1` and `A2`: append to the package. -/
def bppData (state : EuiccState) (cmd : Command) : Outcome := do
  let state ← storeSegment state cmd
  return (state, some (← intermediateResult state))

/-! ## Installing -/

/-- The ICCID every installed profile gets. -/
def installIccid : Bytes := ascii "8949449999999990049"

/-- The AID every installed profile gets. -/
def installAid : Bytes := ascii "A0000005591010FFFFFFFF8900001000"

/-- The metadata of a new profile: fixed identifiers, disabled, and the matching identifier, cut to
63 characters, as its name. -/
def newProfile (matchingId package : Bytes) : ProfileMetadata where
  iccid := installIccid
  isdpAid := installAid
  state := .disabled
  profileName :=
    if 0 < (cstr matchingId).length then (cstr matchingId).take 63 else ascii "Unknown Profile"
  serviceProviderName := ascii "OsmocomSPN"
  profileData := package

/-- Install what was collected, unless that is nothing. -/
def installProfile (state : EuiccState) : Option EuiccState :=
  if state.boundProfilePackage.data = [] then some state
  else do
    let installed ← state.installedProfiles.append (· * 2) state.boundProfilePackage.data
    return { state with
      installedProfiles := installed
      profiles := state.profiles.push (newProfile state.matchingId state.boundProfilePackage.data)
      boundProfilePackage := .null }

/-- A sequence number in big-endian bytes without leading zeros. -/
def seqNumBytes (n : ℕ) : Bytes :=
  ((Der.beBytes 4 n).take 3).dropWhile (· = 0) ++ (Der.beBytes 4 n).drop 3

theorem length_seqNumBytes (n : ℕ) : (seqNumBytes n).length ≤ 4 := by
  have h := (List.dropWhile_sublist (· = 0) (l := (Der.beBytes 4 n).take 3)).length_le
  have h4 := Der.length_beBytes 4 n
  rw [seqNumBytes, List.length_append, List.length_drop]
  rw [List.length_take] at h
  omega

/-- The metadata of the notification about an installation. -/
def notificationMetadata (seqNumber : ℕ) : Bytes :=
  buildTlv 0xBF2F (buildTlv 0x80 (seqNumBytes seqNumber) ++ [0x81, 0x02, 0x01, 0x80] ++
    buildTlv 0x0C (ascii "localhost"))

/-- The result of a successful installation: the AID and the answer of the interpreter. -/
def successResult : Bytes :=
  buildTlv 0xA2 (buildTlv 0xA0 (buildTlv 0x30
    ([0x4F, 0x10, 0xA0, 0x00, 0x00, 0x05, 0x59, 0x10, 0x10, 0xFF, 0xFF, 0xFF, 0xFF, 0x89, 0x00,
      0x00, 0x10, 0x00] ++ [0x04, 0x02, 0x90, 0x00])))

/-- The data of the profile installation result. -/
def profileInstallationResultData (state : EuiccState) : Option Bytes :=
  (puts 256 [] [buildTlv 0x80 state.transactionId,
    notificationMetadata state.notificationSeqNumber, [0x06, 0x03, 0x88, 0x37, 0x0A],
    successResult]).map (buildTlv 0xBF27)

/-- The signed profile installation result, which reports success in any case; without a signature
the error `-1`. -/
def profileInstallationResult (env : Env) (state : EuiccState) : Option (Option Bytes) := do
  let data ← profileInstallationResultData state
  match ← signWithKey env state data with
  | none => return none
  | some signature =>
    return some (buildTlv 0xBF37 (← puts 2048 [] [data, buildTlv 0x5F37 signature]))

/-- The tag `A3`: append to the package, install it, and report. -/
def sequenceOf86 (env : Env) (state : EuiccState) (cmd : Command) : Outcome := do
  let state ← storeSegment state cmd
  let state ← installProfile state
  return (state, ← profileInstallationResult env state)

end VirtualRsp.Card
