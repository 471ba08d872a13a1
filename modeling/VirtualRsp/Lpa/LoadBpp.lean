import VirtualRsp.Lpa.Base64Lengths
import VirtualRsp.Lpa.Derutil
import VirtualRsp.Lpa.Es10x

/-!
# Loading a bound profile package

`loadBoundProfilePackage` takes a bound profile package apart and sends it to the card piece by
piece: the header of the package with the request that opens the secure channel, the first sequence
of `87` as a whole, the header of the sequence of `88` and then its segments, the second sequence of
`87` if there is one, the header of the sequence of `86` and then its segments. Every response is a
profile installation result, of which the LPA reads the sequence number and the outcome
(`readInstallationResult`).
-/

namespace VirtualRsp.Lpa

variable {σ : Type}

/-- The commands of a bound profile package, as an error result names them. -/
inductive BppCommandId
  | initialiseSecureChannel
  | configureIsdp
  | storeMetadata
  | storeMetadata2
  | replaceSessionKeys
  | loadProfileElements
  | undefined
  deriving DecidableEq

/-- The command of a number. -/
def BppCommandId.ofCode : ℕ → BppCommandId
  | 0 => .initialiseSecureChannel
  | 1 => .configureIsdp
  | 2 => .storeMetadata
  | 3 => .storeMetadata2
  | 4 => .replaceSessionKeys
  | 5 => .loadProfileElements
  | _ => .undefined

/-- The reason of an error: a known one is kept as its number, any other is undefined. -/
def errorReason (n : ℕ) : ℕ := if 1 ≤ n ∧ n ≤ 15 ∨ n = 127 then n else 0xFF

/-- What the LPA reads from the last response. -/
structure LoadResult where
  seqNumber : ℕ
  bppCommandId : BppCommandId
  errorReason : ℕ
  deriving DecidableEq

/-- The result before a response has been read. -/
def LoadResult.init : LoadResult := ⟨0, .undefined, 0xFF⟩

/-- A field of an error result. -/
def readErrorResult (result : LoadResult) (node : Node) : LoadResult :=
  if node.tag = 0x80 then { result with bppCommandId := .ofCode (bin2long node.value) }
  else if node.tag = 0x81 then { result with errorReason := errorReason (bin2long node.value) }
  else result

/-- Read a profile installation result; the second component says whether it reports success. -/
def readInstallationResult (respbuf : Bytes) : LoadResult × Bool :=
  let nodes := do
    let pir ← findTag 0xBF37 respbuf
    let data ← findTag 0xBF27 pir.value
    let notificationMetadata ← findTag 0xBF2F data.value
    let finalResult ← findTag 0xA2 data.value
    let (choice, _) ← unpackFirst finalResult.value
    return (notificationMetadata, choice)
  match nodes with
  | none => (.init, false)
  | some (notificationMetadata, choice) =>
    let seqNumber :=
      ((findTag 0x80 notificationMetadata.value).map fun n => bin2long n.value).getD 0
    let result := { LoadResult.init with seqNumber := seqNumber }
    if choice.tag = 0xA0 then (result, true)
    else if choice.tag = 0xA1 then ((unpackAll choice.value).foldl readErrorResult result, false)
    else (result, false)

/-- The LPA while it loads a package: the partner it talks to, and the result of the last command.
-/
structure LoadState (σ : Type) where
  partner : σ
  result : LoadResult

/-- Send a piece of the package. An empty response is taken for success. -/
def loadTx (command : Bytes → Program σ Bytes) (reqbuf : Bytes) : Program (LoadState σ) Unit :=
  fun s =>
    match command reqbuf s.partner with
    | none => none
    | some (partner, none) => some (⟨partner, .init⟩, none)
    | some (partner, some respbuf) =>
      if respbuf = [] then some (⟨partner, .init⟩, some ())
      else
        let (result, success) := readInstallationResult respbuf
        some (⟨partner, result⟩, if success then some () else none)

/-- Load a bound profile package given as a base64 text. -/
def loadBoundProfilePackage (command : Bytes → Program σ Bytes) (b64BoundProfilePackage : Bytes) :
    Program (LoadState σ) Unit := do
  let bpp ← .liftFault (Base64.decodeText b64BoundProfilePackage)
  let boundProfilePackage ← .ofOption (findTag 0xBF36 bpp)
  let opening ← .ofOption (upToTag 0xBF23 boundProfilePackage.value)
  loadTx command (boundProfilePackage.header ++ opening)
  let firstSequenceOf87 ← .ofOption (findTag 0xA0 boundProfilePackage.value)
  loadTx command firstSequenceOf87.self
  let sequenceOf88 ← .ofOption (findTag 0xA1 boundProfilePackage.value)
  loadTx command sequenceOf88.header
  .each (fun node => loadTx command node.self) (unpackAll sequenceOf88.value)
  (match findTag 0xA2 boundProfilePackage.value with
    | none => pure ()
    | some secondSequenceOf87 => loadTx command secondSequenceOf87.self : Program _ Unit)
  let sequenceOf86 ← .ofOption (findTag 0xA3 boundProfilePackage.value)
  loadTx command sequenceOf86.header
  .each (fun node => loadTx command node.self) (unpackAll sequenceOf86.value)

end VirtualRsp.Lpa
