import VirtualRsp.Lpa.Base64Lengths
import VirtualRsp.Lpa.Derutil
import VirtualRsp.Lpa.Es10x
import VirtualRsp.Lpa.Hexutil

/-!
# Profile management of the LPA

`getProfilesInfo` lists the profiles of a card, and `enableProfile`, `disableProfile` and
`deleteProfile` ask the card to change the state of one of them, which is named by its ICCID or, in
32 characters, by its AID. The first two put the identifier into a data object `A0` of its own; the
last does not.
-/

namespace VirtualRsp.Lpa

variable {σ : Type}

/-- The state of a profile as the LPA reads it. -/
inductive ListedState
  | null
  | disabled
  | enabled
  | undefined
  deriving DecidableEq

/-- The state of a number. -/
def ListedState.ofCode : ℕ → ListedState
  | 0 => .disabled
  | 1 => .enabled
  | _ => .undefined

/-- The type of an icon as the LPA reads it. -/
inductive IconType
  | null
  | jpeg
  | png
  | undefined
  deriving DecidableEq

/-- The icon type of a number. -/
def IconType.ofCode : ℕ → IconType
  | 0 => .jpeg
  | 1 => .png
  | _ => .undefined

/-- The class of a profile as the LPA reads it. -/
inductive ProfileClass
  | null
  | test
  | provisioning
  | operational
  | undefined
  deriving DecidableEq

/-- The class of a number. -/
def ProfileClass.ofCode : ℕ → ProfileClass
  | 0 => .test
  | 1 => .provisioning
  | 2 => .operational
  | _ => .undefined

/-- An entry of the listing. -/
structure ProfileInfo where
  iccid : Bytes
  isdpAid : Bytes
  profileState : ListedState
  profileNickname : Option Bytes
  serviceProviderName : Option Bytes
  profileName : Option Bytes
  iconType : IconType
  icon : Option Bytes
  profileClass : ProfileClass
  deriving DecidableEq

/-- An entry before its fields have been read. -/
def ProfileInfo.init : ProfileInfo := ⟨[], [], .null, none, none, none, .null, none, .null⟩

/-- A number as an `int`, which keeps the low 32 bits. -/
def bin2int (buffer : Bytes) : ℕ := bin2long buffer % 2 ^ 32

/-- Read a field of an entry. An identifier that does not fit its text is left empty. -/
def readProfileField (p : ProfileInfo) (node : Node) : Option ProfileInfo :=
  if node.tag = 0x5A then
    (bin2gsmbcd 21 node.value).map fun iccid => { p with iccid := iccid.getD p.iccid }
  else if node.tag = 0x4F then
    (bin2hex 33 node.value).map fun isdpAid => { p with isdpAid := isdpAid.1.getD p.isdpAid }
  else if node.tag = 0x94 then
    (Base64.encodeText node.value).map fun icon => { p with icon := icon }
  else some <|
    if node.tag = 0x9F70 then { p with profileState := .ofCode (bin2int node.value) }
    else if node.tag = 0x90 then { p with profileNickname := some node.value }
    else if node.tag = 0x91 then { p with serviceProviderName := some node.value }
    else if node.tag = 0x92 then { p with profileName := some node.value }
    else if node.tag = 0x93 then { p with iconType := .ofCode (bin2int node.value) }
    else if node.tag = 0x95 then { p with profileClass := .ofCode (bin2int node.value) }
    else p

/-- The entries of a listing: the objects `E3`, in order. -/
def readProfileInfos (respbuf : Bytes) : Option (Option (List ProfileInfo)) :=
  match (findTag 0xBF2D respbuf).bind fun node => findTag 0xA0 node.value with
  | none => some none
  | some profileInfoListOk =>
    (((unpackAll profileInfoListOk.value).filter (·.tag = 0xE3)).mapM fun node =>
      (unpackAll node.value).foldlM readProfileField .init).map some

/-- `es10c_get_profiles_info`. -/
def getProfilesInfo (command : Bytes → Program σ Bytes) : Program σ (List ProfileInfo) := do
  let respbuf ← command (pack 0xBF2D [])
  .liftFault (readProfileInfos respbuf)

/-- The data object of an identifier: a text of 32 characters is an AID, any other an ICCID. -/
def profileIdentifierChoice (strId : Bytes) : Option (Option Bytes) :=
  if strId.length = 32 then some ((hex2bin 16 strId).map (pack 0x4F))
  else (gsmbcd2bin 16 strId 10).map (Option.map (pack 0x5A))

/-- The refresh flag as it is sent, if it is sent. -/
def refreshFlagByte (refreshFlag : UInt8) : UInt8 := if refreshFlag % 0x80 = 0 then 0 else 0xFF

/-- The request of a management command; with a refresh flag, the identifier is wrapped. The request
must fit a buffer of 255 bytes. -/
def manageRequest (opTag : ℕ) (choice : Bytes) (refreshFlag : UInt8) : Option Bytes :=
  let request := if 0x80 ≤ refreshFlag then
      pack opTag (pack 0xA0 choice ++ pack 0x81 [refreshFlagByte refreshFlag])
    else pack opTag choice
  if request.length ≤ 255 then some request else none

/-- `es10c_enable_disable_delete_profile`: the result code of the card. -/
def enableDisableDeleteProfile (command : Bytes → Program σ Bytes) (opTag : ℕ) (strId : Bytes)
    (refreshFlag : UInt8) : Program σ ℕ := do
  let choice ← .liftFault (profileIdentifierChoice strId)
  let request ← .ofOption (manageRequest opTag choice refreshFlag)
  let respbuf ← command request
  let response ← .ofOption (findTag opTag respbuf)
  let result ← .ofOption (findTag 0x80 response.value)
  return bin2int result.value

/-- The refresh flag of an enable or a disable request. -/
def refreshFlagOf (refreshFlag : Bool) : UInt8 := if refreshFlag then 0xFF else 0x80

/-- `es10c_enable_profile`. -/
def enableProfile (command : Bytes → Program σ Bytes) (id : Bytes) (refreshFlag : Bool) :
    Program σ ℕ :=
  enableDisableDeleteProfile command 0xBF31 id (refreshFlagOf refreshFlag)

/-- `es10c_disable_profile`. -/
def disableProfile (command : Bytes → Program σ Bytes) (id : Bytes) (refreshFlag : Bool) :
    Program σ ℕ :=
  enableDisableDeleteProfile command 0xBF32 id (refreshFlagOf refreshFlag)

/-- `es10c_delete_profile`. -/
def deleteProfile (command : Bytes → Program σ Bytes) (id : Bytes) : Program σ ℕ :=
  enableDisableDeleteProfile command 0xBF33 id 0

end VirtualRsp.Lpa
