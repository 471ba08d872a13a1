import VirtualRsp.Card.Crypto
import VirtualRsp.Card.Tlv
import VirtualRsp.Lpa.Hexutil

/-!
# Information commands of the card

The commands that answer from the state or from constants: the challenge, the two information
records, the EID, the configured addresses, and the answer to a cancelled session. Only the
challenge changes the state.
-/

namespace VirtualRsp.Card

/-- What a command does: the next state with the response body, or with the error `-1`; a fault has
no outcome. -/
abbrev Outcome := Option (EuiccState × Option Bytes)

/-- `BF2E`: a fresh challenge. -/
def getEuiccChallenge (env : Env) (state : EuiccState) : Outcome :=
  let euiccChallenge := (List.range 16).map env.rand
  some ({ state with euiccChallenge := euiccChallenge },
    some (buildTlv 0xBF2E (buildTlv 0x80 euiccChallenge)))

/-- The identifier of the certificate issuer's public key, as an octet string. -/
def ciPk : Bytes :=
  [0x04, 0x14, 0x4C, 0x2B, 0xD6, 0x1A, 0x42, 0x3D, 0x91, 0x25, 0x04, 0x92, 0xC7, 0x5C, 0x64, 0x22,
    0xA1, 0x47, 0x51, 0xDC, 0x94, 0x4A]

/-- `BF20`: the version and the key identifiers. -/
def getEuiccInfo1 (state : EuiccState) : Outcome :=
  some (state, some (buildTlv 0xBF20
    (buildTlv 0x82 [0x02, 0x02, 0x00] ++ buildTlv 0xA9 ciPk ++ buildTlv 0xAA ciPk)))

/-- `BF3E`: the EID, which must be 32 hexadecimal digits. -/
def getEuiccData (state : EuiccState) : Outcome :=
  match Lpa.hex2bin 16 state.eid with
  | none => some (state, none)
  | some eid =>
    if eid.length ≠ 16 then some (state, none)
    else some (state, some (buildTlv 0xBF3E (buildTlv 0x5A eid)))

/-- `BF3C`: the root SM-DS address and, if there is one, the default SM-DP+ address before it. -/
def getConfiguredAddresses (state : EuiccState) : Outcome := do
  let smds ← put 256 [] (buildTlv 0x81 state.rootSmds)
  let addr ← (if state.defaultSmdp = [] then some smds
    else put 256 (buildTlv 0x80 state.defaultSmdp) smds : Option Bytes)
  return (state, some (buildTlv 0xBF3C addr))

/-- The fields of the second information record as `BF22` sends it. The last one is written over the
accreditation number but counted after it, so as many bytes as that number has are
sent without having been written. -/
def euiccInfo2Fields (env : Env) : Bytes :=
  buildTlv 0x81 [0x02, 0x01, 0x00] ++ buildTlv 0x82 [0x02, 0x02, 0x00] ++
    buildTlv 0x83 [0x01, 0x00, 0x00] ++
    buildTlv 0x84 [0x81, 0x01, 0x00, 0x82, 0x03, 0x04, 0x73, 0x52, 0x83, 0x02, 0x17, 0x52] ++
    buildTlv 0x85 [0x00] ++ buildTlv 0x86 [0x09, 0x02, 0x00] ++ buildTlv 0x87 [0x02, 0x03, 0x00] ++
    buildTlv 0x88 [0x00] ++ buildTlv 0xA9 ciPk ++ buildTlv 0xAA ciPk ++
    buildTlv 0x99 [0x06, 0xC0] ++ [0x00, 0x00, 0x01] ++
    buildTlv 0xAC (buildTlv 0x80 (ascii "1.2.840.1234567/myPlatformLabel") ++
      buildTlv 0x81 (ascii "https://mycompany.com/myDLOARegistrar")) ++ env.uninit.toList

/-- `BF22`: the second information record. -/
def getEuiccInfo2 (env : Env) (state : EuiccState) : Outcome :=
  some (state, some (buildTlv 0xBF22 (euiccInfo2Fields env)))

/-- Sign with the key of the card; without a key, or when signing fails, the error `-1`. -/
def signWithKey (env : Env) (state : EuiccState) (data : Bytes) : Option (Option Bytes) :=
  match state.euiccPrivateKey with
  | none => some none
  | some pkey => ecdsaSign env data pkey

/-- The data a cancelled session signs: the transaction, a fixed object identifier and a fixed
reason. -/
def cancelSessionSigned (state : EuiccState) : Option Bytes :=
  (puts 128 [] [buildTlv 0x80 state.transactionId, [0x81, 0x03, 0x88, 0x37, 0x0A],
    [0x82, 0x01, 0x00]]).map (buildTlv 0x30)

/-- `BF41`: the signed answer to a cancelled session; the request is not looked at. -/
def cancelSession (env : Env) (state : EuiccState) : Outcome := do
  let signed ← cancelSessionSigned state
  match ← signWithKey env state signed with
  | none => return (state, none)
  | some signature =>
    let resp ← puts 256 [] [signed, buildTlv 0x5F37 signature]
    return (state, some (buildTlv 0xBF41 (buildTlv 0xA0 resp)))

end VirtualRsp.Card
