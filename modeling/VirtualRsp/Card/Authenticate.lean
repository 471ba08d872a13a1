import VirtualRsp.Card.Info

/-!
# Mutual authentication

`authenticateServer` is the card's handler of an `AuthenticateServerRequest` (`BF38`). The request
is not parsed: the handler looks for the first byte `30`, takes what follows for `serverSigned1`,
and walks over its fields; then it looks for bytes `A0` until one of them starts something with a
matching identifier in it. What was found is echoed in the signed response.

Both inner walks are `walkFields`, a loop over fields with one-byte tags and lengths.
-/

namespace VirtualRsp.Card

/-! ## Walking over fields -/

/-- One round of a walk over fields of one-byte tags and short lengths. `act` sees the tag, the
length and a pointer to the value, and stops the walk or goes on. -/
def walkBody {α : Type} (act : ℕ → ℕ → Bytes → α → Option (Ctl α α)) :
    (Bytes × ℕ) × α → Option (Ctl ((Bytes × ℕ) × α) α)
  | ((ptr, remaining), acc) =>
    if remaining ≤ 2 then some (.done acc)
    else do
      let tag ← readAt ptr 0
      let fieldLen ← readAt ptr 1
      if 0x80 ≤ fieldLen ∨ remaining < 2 + fieldLen then return .done acc
      match ← act tag fieldLen (ptr.drop 2) acc with
      | .done acc => return .done acc
      | .next acc => return .next ((ptr.drop (2 + fieldLen), remaining - (2 + fieldLen)), acc)

/-- The walk over `remaining` bytes from `ptr` on, starting with `acc`. -/
def walkFields {α : Type} (act : ℕ → ℕ → Bytes → α → Option (Ctl α α)) (ptr : Bytes)
    (remaining : ℕ) (acc : α) : Option α :=
  loop (walkBody act) (ptr.length + 1) ((ptr, remaining), acc)

/-! ## Reading the request -/

/-- What the handler takes from `serverSigned1`. -/
structure ServerSigned1 where
  transactionId : Bytes
  serverChallenge : Bytes
  serverAddress : Bytes

/-- What a field of `serverSigned1` sets: a transaction identifier of at most 16 bytes, a challenge
of exactly 16, or the address. -/
def serverSigned1Field (tag fieldLen : ℕ) (ptr : Bytes) (acc : ServerSigned1) :
    Option (Ctl ServerSigned1 ServerSigned1) :=
  if tag = 0x80 ∧ fieldLen ≤ 16 then
    (readN ptr fieldLen).map fun v => .next { acc with transactionId := v }
  else if tag = 0x84 ∧ fieldLen = 16 then
    (readN ptr 16).map fun v => .next { acc with serverChallenge := v }
  else if tag = 0x83 ∧ 0 < fieldLen ∧ fieldLen < 256 then
    (readN ptr fieldLen).map fun v => .next { acc with serverAddress := v }
  else some (.next acc)

/-- One round of the search for `serverSigned1`: the first byte `30` ends it, and its fields are
read if its length has the short form. -/
def findServerSigned1Body (acc : ServerSigned1) :
    Bytes × ℕ → Option (Ctl (Bytes × ℕ) ServerSigned1)
  | (ptr, remaining) =>
    if remaining ≤ 2 then some (.done acc)
    else do
      let b ← readAt ptr 0
      if b = 0x30 then
        let len ← readAt ptr 1
        if len < 0x80 then
          let acc ← walkFields serverSigned1Field (ptr.drop 2) len acc
          return .done acc
        else return .done acc
      else return .next (ptr.drop 1, remaining - 1)

/-- The first field `80` of at least one byte is the matching identifier. -/
def ctxParams1Field (tag fieldLen : ℕ) (ptr : Bytes) (acc : Option Bytes) :
    Option (Ctl (Option Bytes) (Option Bytes)) :=
  if tag = 0x80 ∧ 0 < fieldLen ∧ fieldLen < 256 then
    (readN ptr fieldLen).map fun v => .done (some v)
  else some (.next acc)

/-- One round of the search for the matching identifier: every byte `A0` is tried until one leads to
it. -/
def findMatchingIdBody : Bytes × ℕ → Option (Ctl (Bytes × ℕ) (Option Bytes))
  | (ptr, remaining) =>
    if remaining ≤ 2 then some (.done none)
    else do
      let b ← readAt ptr 0
      if b = 0xA0 then
        let len ← readAt ptr 1
        if len < 0x80 then
          match ← walkFields ctxParams1Field (ptr.drop 2) len none with
          | some matchingId => return .done (some matchingId)
          | none => return .next (ptr.drop 1, remaining - 1)
        else return .next (ptr.drop 1, remaining - 1)
      else return .next (ptr.drop 1, remaining - 1)

/-- The fields of `serverSigned1` the handler finds in a command, over what the state has already;
without an address in the request, it is a default one. -/
def findServerSigned1 (state : EuiccState) (cmd : Command) : Option ServerSigned1 :=
  scan (findServerSigned1Body ⟨state.transactionId, state.serverChallenge, ascii "localhost"⟩)
    cmd.mem cmd.len

/-- The matching identifier the handler finds in a command; without one, it is empty. -/
def findMatchingId (cmd : Command) : Option Bytes :=
  (scan findMatchingIdBody cmd.mem cmd.len).map (·.getD [])

/-! ## The response -/

/-- The second information record as the authentication response has it. -/
def buildEuiccinfo2 : Bytes :=
  [0x81, 0x03, 0x02, 0x01, 0x00] ++ [0x82, 0x03, 0x02, 0x02, 0x00] ++
    [0x83, 0x03, 0x01, 0x00, 0x00] ++
    [0x84, 0x0D, 0x81, 0x01, 0x00, 0x82, 0x04, 0x00, 0x04, 0x9C, 0x68, 0x83, 0x02, 0x22, 0x23] ++
    [0x85, 0x01, 0x00] ++ [0x86, 0x03, 0x11, 0x02, 0x00] ++ [0x87, 0x03, 0x02, 0x03, 0x00] ++
    [0x88, 0x02, 0x02, 0x9C] ++ [0xA9, 0x00] ++ [0xAA, 0x00] ++ [0x04, 0x03, 0x01, 0x00, 0x00] ++
    [0x0C, 0x0E] ++ ascii "OSMOCOM-TEST-1"

/-- The device information. -/
def deviceInfo : Bytes :=
  [0x80, 0x04, 0x35, 0x29, 0x06, 0x11] ++ buildTlv 0xA1 [0x85, 0x03, 0x0F, 0x00, 0x00]

/-- The context parameters: the matching identifier, if there is one, and the device. -/
def ctxParams (matchingId : Bytes) : Option Bytes :=
  puts 256 [] [if 0 < (cstr matchingId).length then buildTlv 0x80 (cstr matchingId) else [],
    buildTlv 0xA1 deviceInfo]

/-- The data object `euiccSigned1`. -/
def euiccSigned1 (fields : ServerSigned1) (matchingId : Bytes) : Option Bytes := do
  let ctx ← ctxParams matchingId
  let signed1 ← puts 512 [] [buildTlv 0x80 fields.transactionId,
    buildTlv 0x83 fields.serverAddress, buildTlv 0x84 fields.serverChallenge,
    buildTlv 0xBF22 buildEuiccinfo2, buildTlv 0xA0 ctx]
  return buildTlv 0x30 signed1

/-- `BF38`: authenticate the server. The request's signature is not looked at. -/
def authenticateServer (env : Env) (state : EuiccState) (cmd : Command) : Outcome := do
  let fields ← findServerSigned1 state cmd
  let matchingId ← findMatchingId cmd
  let state := { state with
    transactionId := fields.transactionId
    serverChallenge := fields.serverChallenge
    matchingId := matchingId }
  let signed1 ← euiccSigned1 fields matchingId
  match ← signWithKey env state signed1 with
  | none => return (state, none)
  | some signature =>
    let resp ← puts 2048 [] [signed1, buildTlv 0x5F37 signature, state.euiccCert.getD [],
      state.eumCert.getD []]
    return (state, some (buildTlv 0xBF38 (buildTlv 0xA0 resp)))

end VirtualRsp.Card
