import VirtualRsp.Card.Info

/-!
# Preparing a download

`prepareDownload` is the card's handler of a `PrepareDownloadRequest` (`BF21`). It takes the
transaction identifier from what follows the first byte `30`, and the server's signature from the
first place where the bytes `5F 37` are followed by a short length that fits the command
(`findSmdpSignature2`). A fresh key pair is stored for the session, its public half is sent in
`euiccSigned2`, and the signature is over `euiccSigned2` and the server's signature
(`prepareDownloadInput`).
-/

namespace VirtualRsp.Card

/-! ## Reading the request -/

/-- One round of the search for `smdpSigned2`: the first byte `30` ends it. -/
def findSmdpSigned2Body (transactionId : Bytes) : Bytes × ℕ → Option (Ctl (Bytes × ℕ) Bytes)
  | (ptr, remaining) =>
    if remaining ≤ 2 then some (.done transactionId)
    else do
      let b ← readAt ptr 0
      if b = 0x30 then
        let len ← readAt ptr 1
        if len < 0x80 ∧ 2 + len ≤ remaining then
          return .done (← scan (transactionIdBody transactionId) (ptr.drop 2) len)
        else return .done transactionId
      else return .next (ptr.drop 1, remaining - 1)

/-- The transaction identifier after the request: the one found in it, or the one of the state. -/
def findTransactionId (state : EuiccState) (cmd : Command) : Option Bytes :=
  scan (findSmdpSigned2Body state.transactionId) cmd.mem cmd.len

/-- What is at offset `i` of a command, read as a signature: the bytes `5F 37`, a short length, and
a value that fits the command. Reading stops at the first byte that differs. -/
def smdpSignature2At (cmd : Command) (i : ℕ) : Option (Option Bytes) := do
  let a ← readAt cmd.mem i
  if a ≠ 0x5F then return none
  let b ← readAt cmd.mem (i + 1)
  if b ≠ 0x37 then return none
  let len ← readAt cmd.mem (i + 2)
  if len < 0x80 ∧ (i + 3 + len) % 2 ^ 32 ≤ cmd.len then
    return some (← readN (cmd.mem.drop (i + 3)) len)
  else return none

/-- One round of the search for the signature. The last offset is computed without regard to
commands of less than three bytes. -/
def findSmdpSignature2Body (cmd : Command) (i : ℕ) : Option (Ctl ℕ (Option Bytes)) :=
  if sub32 cmd.len 3 ≤ i then some (.done none)
  else do
    match ← smdpSignature2At cmd i with
    | some sig => return .done (some sig)
    | none => return .next (i + 1)

/-- The server's signature in the request, as a data object of the form the server verifies: with
the length `40` whatever the length was. -/
def findSmdpSignature2 (cmd : Command) : Option (Option Bytes) :=
  (loop (findSmdpSignature2Body cmd) (cmd.mem.length + 1) 0).map
    (Option.map ([0x5F, 0x37, 0x40] ++ ·))

/-! ## The response -/

/-- The data object `euiccSigned2`. -/
def euiccSigned2 (transactionId : Bytes) (euiccOtpk : Vector UInt8 65) : Option Bytes :=
  (puts 256 [] [buildTlv 0x80 transactionId, buildTlv 0x5F49 euiccOtpk.toList]).map (buildTlv 0x30)

/-- The bytes that are signed: `euiccSigned2` and the server's signature, if it was found. -/
def prepareDownloadInput (signed2 : Bytes) (smdpSignature2 : Option Bytes) : Bytes :=
  signed2 ++ smdpSignature2.getD []

/-- `BF21`: prepare the download. The request's signature is not verified. -/
def prepareDownload (env : Env) (state : EuiccState) (cmd : Command) : Outcome := do
  let transactionId ← findTransactionId state cmd
  let smdpSignature2 ← findSmdpSignature2 cmd
  let state := { state with transactionId := transactionId }
  match env.ecKeypair with
  | none => return (state, none)
  | some keypair =>
    match keypair.pub with
    | none => return (state, none)
    | some euiccOtpk =>
      let state := { state with euiccOtpk := some euiccOtpk, euiccOtsk := keypair.priv }
      match keypair.priv with
      | none => return (state, none)
      | some _ =>
        let signed2 ← euiccSigned2 transactionId euiccOtpk
        match ← signWithKey env state (prepareDownloadInput signed2 smdpSignature2) with
        | none => return (state, none)
        | some signature =>
          let resp ← puts 512 [] [signed2, buildTlv 0x5F37 signature]
          return (state, some (buildTlv 0xBF21 (buildTlv 0xA0 resp)))

end VirtualRsp.Card
