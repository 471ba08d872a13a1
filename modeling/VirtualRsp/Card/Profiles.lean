import VirtualRsp.Card.Info

/-!
# Profile management

The commands that enable, disable, delete and list the installed profiles. The first three read
their request with the same parser (`parseTarget`), which keeps the last ICCID and the last AID of
the top-level fields, look for the first profile that has either (`findProfile`), and answer with a
result code: 0 for success, 1 when there is no such profile, 2 when it is in the wrong state.
-/

namespace VirtualRsp.Card

/-! ## The request -/

/-- The identifiers a request asks for, in the buffers they are decoded into. -/
structure Target where
  iccid : Bytes
  aid : Bytes
  deriving DecidableEq

/-- The cleared buffers, of 21 and 33 bytes. -/
def Target.init : Target := ⟨List.replicate 21 0, List.replicate 33 0⟩

/-- Decode the nibbles of an ICCID from position `2 * i` of the buffer on, the low nibble first; a
nibble `F` leaves its position as it was. -/
def decodeIccid : ℕ → Bytes → Bytes → Bytes
  | _, [], buf => buf
  | i, b :: bs, buf =>
    let high := b.toNat / 16
    let low := b.toNat % 16
    let buf := if low ≠ 0xF then buf.set (2 * i) (UInt8.ofNat (48 + low)) else buf
    let buf := if high ≠ 0xF then buf.set (2 * i + 1) (UInt8.ofNat (48 + high)) else buf
    decodeIccid (i + 1) bs buf

/-- The digit of a nibble in upper case. -/
def upperHexDigit (n : ℕ) : UInt8 := if n < 10 then UInt8.ofNat (48 + n) else UInt8.ofNat (55 + n)

/-- Print the bytes of an AID from position `2 * i` of the buffer on, each with two digits and a
NUL. -/
def decodeAid : ℕ → Bytes → Bytes → Bytes
  | _, [], buf => buf
  | i, b :: bs, buf =>
    decodeAid (i + 1) bs (((buf.set (2 * i) (upperHexDigit (b.toNat / 16))).set (2 * i + 1)
      (upperHexDigit (b.toNat % 16))).set (2 * i + 2) 0)

/-- A tag of one or two bytes, and how many. -/
def innerTag (ptr : Bytes) : Option (ℕ × ℕ) := do
  let t₀ ← readAt ptr 0
  if t₀ % 32 = 31 then return (t₀ * 256 + (← readAt ptr 1), 2)
  else return (t₀, 1)

/-- A length of one to three bytes, and how many; a byte that announces more than is left is taken
for a length itself. -/
def innerLen (ptr : Bytes) (remaining : ℕ) : Option (ℕ × ℕ) := do
  let l₀ ← readAt ptr 0
  if l₀ = 0x81 ∧ 2 ≤ remaining then return (← readAt ptr 1, 2)
  else if l₀ = 0x82 ∧ 3 ≤ remaining then
    return ((← readAt ptr 1) * 256 + (← readAt ptr 2), 3)
  else return (l₀, 1)

/-- What a field of a request sets. -/
def targetField (tag len : ℕ) (ptr : Bytes) (target : Target) : Option Target :=
  if tag = 0x5A ∧ len ≤ 10 then
    (readN ptr len).map fun v => { target with iccid := decodeIccid 0 v target.iccid }
  else if tag = 0x4F ∧ len ≤ 16 then
    (readN ptr len).map fun v => { target with aid := decodeAid 0 v target.aid }
  else some target

/-- One round over the fields of a request. -/
def parseTargetBody :
    (Bytes × ℕ) × Target → Option (Ctl ((Bytes × ℕ) × Target) Target)
  | ((ptr, remaining), target) =>
    if remaining < 2 then some (.done target)
    else do
      let (tag, tagLen) ← innerTag ptr
      let ptr := ptr.drop tagLen
      let remaining := remaining - tagLen
      if remaining < 1 then return .done target
      let (len, lenBytes) ← innerLen ptr remaining
      let ptr := ptr.drop lenBytes
      let remaining := remaining - lenBytes
      if remaining < len then return .done target
      let target ← targetField tag len ptr target
      return .next ((ptr.drop len, remaining - len), target)

/-- The identifiers in a request: behind its tag of two bytes and its length. -/
def parseTarget (cmd : Command) : Option Target := do
  let ptr := cmd.mem.drop 2
  let remaining := sub32 cmd.len 2
  let (ptr, remaining) ← (if 0 < remaining then
      (readAt ptr 0).map fun lenByte => skipLength lenByte ptr remaining
    else some (ptr, remaining) : Option (Bytes × ℕ))
  loop parseTargetBody (ptr.length + 1) ((ptr, remaining), .init)

/-- Whether a profile is the one a request asks for. -/
def Target.matches (target : Target) (profile : ProfileMetadata) : Bool :=
  0 < (cstr target.iccid).length && profile.iccid = cstr target.iccid ||
    0 < (cstr target.aid).length && profile.isdpAid = cstr target.aid

/-! ## The result -/

/-- The response of a management command: its tag around a result code. -/
def resultResponse (tag : ℕ) (resultCode : UInt8) : Bytes := buildTlv tag [0x80, 0x01, resultCode]

/-- Enable the profile at `target` and disable every other one. -/
def enableAt (profiles : LinkedList ProfileMetadata) (target : ℕ) :
    Option (LinkedList ProfileMetadata) := do
  let profiles ← profiles.mapNodes fun p profile =>
    if profile.state = .enabled ∧ p ≠ target then { profile with state := .disabled } else profile
  profiles.update target fun profile => { profile with state := .enabled }

/-- The list and the result code of an enable request. -/
def enableStep (profiles : LinkedList ProfileMetadata) (target : Target) :
    Option (LinkedList ProfileMetadata × UInt8) := do
  let (_, p) ← profiles.findPrev target.matches
  if p = 0 then return (profiles, 0x01)
  else return (← enableAt profiles p, 0x00)

/-- The list and the result code of a disable request. -/
def disableStep (profiles : LinkedList ProfileMetadata) (target : Target) :
    Option (LinkedList ProfileMetadata × UInt8) := do
  let (_, p) ← profiles.findPrev target.matches
  if p = 0 then return (profiles, 0x01)
  else
    let cell ← profiles.cells p
    if cell.val.state ≠ .enabled then return (profiles, 0x02)
    else
      return (← profiles.update p fun profile => { profile with state := .disabled }, 0x00)

/-- The list and the result code of a delete request. -/
def deleteStep (profiles : LinkedList ProfileMetadata) (target : Target) :
    Option (LinkedList ProfileMetadata × UInt8) := do
  let (prev, p) ← profiles.findPrev target.matches
  if p = 0 then return (profiles, 0x01)
  else
    let cell ← profiles.cells p
    if cell.val.state = .enabled then return (profiles, 0x02)
    else return (← profiles.unlink prev p, 0x00)

/-- A management command: parse the request, change the list, report the result code. -/
def manageProfile (tag : ℕ)
    (step : LinkedList ProfileMetadata → Target → Option (LinkedList ProfileMetadata × UInt8))
    (state : EuiccState) (cmd : Command) : Outcome := do
  let target ← parseTarget cmd
  let (profiles, resultCode) ← step state.profiles target
  return ({ state with profiles := profiles }, some (resultResponse tag resultCode))

/-- `BF31`. -/
def enableProfile : EuiccState → Command → Outcome := manageProfile 0xBF31 enableStep

/-- `BF32`. -/
def disableProfile : EuiccState → Command → Outcome := manageProfile 0xBF32 disableStep

/-- `BF33`. -/
def deleteProfile : EuiccState → Command → Outcome := manageProfile 0xBF33 deleteStep

/-! ## The listing -/

/-- The nibble for the digit at a position of an ICCID; `F` behind its end. -/
def iccidNibble (iccid : Bytes) (i : ℕ) : UInt8 := (iccid[i]?.map (· - 48)).getD 0xF

/-- The ten bytes of an ICCID, the first digit of a byte in its high nibble. -/
def iccidBcd (iccid : Bytes) : Bytes :=
  (List.range 10).map fun i => (iccidNibble iccid (2 * i) <<< 4) ||| iccidNibble iccid (2 * i + 1)

/-- The number of a profile state. -/
def ProfileState.toByte : ProfileState → UInt8
  | .disabled => 0
  | .enabled => 1

/-- A field that is left out when it is empty. -/
def optionalTlv (tag : ℕ) (value : Bytes) : Bytes := if value = [] then [] else buildTlv tag value

/-- The entry of a profile in the listing; an AID that is no hexadecimal text has no length. -/
def profileInfo (profile : ProfileMetadata) : Option Bytes := do
  let aid ← (if profile.isdpAid = [] then some []
    else (Lpa.hex2bin 16 profile.isdpAid).map (buildTlv 0x4F) : Option Bytes)
  let info ← puts 512 [] [buildTlv 0x5A (iccidBcd profile.iccid), aid,
    buildTlv 0x9F70 [profile.state.toByte], optionalTlv 0x91 profile.serviceProviderName,
    optionalTlv 0x92 profile.profileName]
  return buildTlv 0xE3 info

/-- `BF2D`: the list of all profiles, in order, in a buffer of 8192 bytes. -/
def getProfilesInfo (state : EuiccState) : Outcome := do
  let nodes ← state.profiles.nodes
  let infos ← nodes.mapM fun node => profileInfo node.2
  let list ← puts 8192 [] infos
  return (state, some (buildTlv 0xBF2D (buildTlv 0xA0 list)))

end VirtualRsp.Card
