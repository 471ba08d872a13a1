import Mathlib.Tactic.SplitIfs
import VirtualRsp.Foundations.Der
import VirtualRsp.Foundations.LinkedList

/-!
# The state of the virtual eUICC

`EuiccState` is the state record of the card daemon: identification data, the logical channel, what
the authentication exchange left behind, keys, the buffers for command segments and for the bound
profile package, and the linked list of installed profiles. Character arrays are represented by
the C strings they hold, byte arrays with a length by their bytes, and pointers that may be
`NULL` by an `Option`.

`Env` is what a step takes from outside the program: random numbers, the files, OpenSSL's
elliptic-curve operations, and the bytes that happen to lie behind a buffer or on the stack.
-/

namespace VirtualRsp.Card

/-- The state of an installed profile. -/
inductive ProfileState
  | disabled
  | enabled
  deriving DecidableEq

/-- The metadata of an installed profile, with the profile package stored for it. -/
structure ProfileMetadata where
  iccid : Bytes
  isdpAid : Bytes
  state : ProfileState
  profileName : Bytes
  serviceProviderName : Bytes
  profileData : Bytes
  deriving DecidableEq

/-- The handle of a loaded private key. -/
abbrev PrivateKey := ℕ

/-- A fresh elliptic-curve key pair: what can be extracted of its public point (uncompressed) and
of its private scalar. -/
structure KeyPair where
  pub : Option (Vector UInt8 65)
  priv : Option (Vector UInt8 32)

/-- What one step of the program takes from its environment. -/
structure Env where
  /-- The bytes behind the end of a received command. -/
  trailing : Bytes
  /-- The low bytes of successive results of `rand`. -/
  rand : ℕ → UInt8
  /-- Stack bytes that were never written. -/
  uninit : Vector UInt8 13
  /-- Key generation on P-256. -/
  ecKeypair : Option KeyPair
  /-- ECDSA with SHA-256: the numbers `r` and `s` of a signature over the data. -/
  sign : PrivateKey → Bytes → Option (ℕ × ℕ)
  /-- The x-coordinate of the product of a private scalar and a public point. -/
  ecdh : Vector UInt8 32 → Bytes → Option (Vector UInt8 32)
  sha256 : Bytes → Vector UInt8 32
  /-- The contents of the files that can be opened. -/
  file : String → Option Bytes
  pemReadPrivateKey : Bytes → Option PrivateKey

/-- The state of the eUICC. -/
structure EuiccState where
  eid : Bytes
  defaultSmdp : Bytes
  rootSmds : Bytes
  logicChannel : ℤ
  aid : Bytes
  euiccChallenge : Bytes
  serverChallenge : Bytes
  transactionId : Bytes
  euiccCert : Option Bytes
  eumCert : Option Bytes
  euiccPrivateKey : Option PrivateKey
  segmentBuffer : GrowBuf
  bppCommandsReceived : ℕ
  notificationSeqNumber : ℕ
  matchingId : Bytes
  euiccOtpk : Option (Vector UInt8 65)
  euiccOtsk : Option (Vector UInt8 32)
  smdpOtpk : Option Bytes
  sessionKeyEnc : Bytes
  sessionKeyMac : Bytes
  sessionKeysDerived : Bool
  boundProfilePackage : GrowBuf
  installedProfiles : GrowBuf
  profiles : LinkedList ProfileMetadata

/-- A cleared 16-byte array. -/
def zeros16 : Bytes := List.replicate 16 0

/-- The state with default values, whatever it was before. -/
def euiccStateInit : EuiccState where
  eid := ascii "89049032001001234500012345678901"
  defaultSmdp := ascii ""
  rootSmds := ascii "testrootsmds.gsma.com"
  logicChannel := -1
  aid := []
  euiccChallenge := zeros16
  serverChallenge := zeros16
  transactionId := []
  euiccCert := none
  eumCert := none
  euiccPrivateKey := none
  segmentBuffer := .null
  bppCommandsReceived := 0
  notificationSeqNumber := 1
  matchingId := []
  euiccOtpk := none
  euiccOtsk := none
  smdpOtpk := none
  sessionKeyEnc := zeros16
  sessionKeyMac := zeros16
  sessionKeysDerived := false
  boundProfilePackage := .null
  installedProfiles := .null
  profiles := .empty

/-- Free everything the state owns. The profile list is freed node by node, which needs the chain
of its nodes to end. -/
def euiccStateReset (state : EuiccState) : Option EuiccState :=
  state.profiles.nodes.map fun _ =>
    { state with
      logicChannel := -1
      aid := []
      transactionId := []
      euiccChallenge := zeros16
      serverChallenge := zeros16
      segmentBuffer := .null
      euiccPrivateKey := none
      euiccCert := none
      eumCert := none
      euiccOtpk := none
      euiccOtsk := none
      smdpOtpk := none
      sessionKeyEnc := zeros16
      sessionKeyMac := zeros16
      sessionKeysDerived := false
      boundProfilePackage := .null
      installedProfiles := .null
      profiles := .empty }

/-! ## Certificates -/

/-- The contents of a file; an empty file counts as an error. -/
def loadFile (env : Env) (path : String) : Option Bytes := (env.file path).filter (· ≠ [])

/-- Load the two certificates and the private key; `false` when one of them is missing. What is
missing leaves its field as it was. -/
def euiccStateLoadCertificates (env : Env) (state : EuiccState) (certBaseDir : String) :
    EuiccState × Bool :=
  let euiccCert := loadFile env (certBaseDir ++ "/eUICC/CERT_EUICC_ECDSA_NIST.der")
  let eumCert := loadFile env (certBaseDir ++ "/EUM/CERT_EUM_ECDSA_NIST.der")
  let pkey := (env.file (certBaseDir ++ "/eUICC/SK_EUICC_ECDSA_NIST.pem")).bind
    env.pemReadPrivateKey
  ({ state with
      euiccCert := euiccCert.or state.euiccCert
      eumCert := eumCert.or state.eumCert
      euiccPrivateKey := pkey.or state.euiccPrivateKey },
    euiccCert.isSome && eumCert.isSome && pkey.isSome)

/-- Start over from the default state and load the certificates from the first directory that has
all of them. -/
def apduHandleConnect (env : Env) : EuiccState :=
  let first := euiccStateLoadCertificates env euiccStateInit "pySim/smdpp-data/generated"
  if first.2 then first.1
  else
    let second := euiccStateLoadCertificates env first.1 "../pySim/smdpp-data/generated"
    if second.2 then second.1
    else (euiccStateLoadCertificates env second.1 "../../pySim/smdpp-data/generated").1

/-- A disconnect resets the state. -/
def apduHandleDisconnect (state : EuiccState) : Option EuiccState := euiccStateReset state

/-- **Connecting** changes nothing of the default state but the certificates and the key. -/
theorem apduHandleConnect_frame (env : Env) :
    ∃ c c' k, apduHandleConnect env =
      { euiccStateInit with euiccCert := c, eumCert := c', euiccPrivateKey := k } := by
  dsimp only [apduHandleConnect]
  split_ifs <;> exact ⟨_, _, _, rfl⟩

/-! ## The logical channel -/

/-- The application identifier of the ISD-R. -/
def expectedAid : Bytes :=
  [0xA0, 0x00, 0x00, 0x05, 0x59, 0x10, 0x10, 0xFF, 0xFF, 0xFF, 0xFF, 0x89, 0x00, 0x00, 0x01, 0x00]

/-- Open channel 1 for the ISD-R; `none` for any other application. -/
def apduHandleLogicChannelOpen (state : EuiccState) (aid : Bytes) : EuiccState × Option ℤ :=
  if aid = expectedAid then ({ state with logicChannel := 1, aid := aid }, some 1)
  else (state, none)

/-- Close the channel if it is the current one. -/
def apduHandleLogicChannelClose (state : EuiccState) (channel : UInt8) : EuiccState :=
  if state.logicChannel = channel.toNat then { state with logicChannel := -1, aid := [] } else state

end VirtualRsp.Card
