import VirtualRsp.Lpa.AuthenticateClient
import VirtualRsp.Lpa.CancelSession
import VirtualRsp.Lpa.Dialogue
import VirtualRsp.Lpa.Metadata
import VirtualRsp.Lpa.Notifications
import VirtualRsp.Lpa.PackagePieces
import VirtualRsp.Lpa.ServerRequests
import VirtualRsp.Protocol.ActivationCode

/-!
# The applet that downloads a profile

The applet `download` makes the seven steps of a download one after the other. Before the step that
prepares the download it shows the metadata of the profile to the user, and may ask for consent. The
user can interrupt it before every step. When anything fails, it asks the card to cancel the session
and passes the card's response on to the server.

* `download`: the applet, from where the address of the server is known. The lines that only name a
  step, and the messages of errors, are left out;
* `authenticateServerR_sends`, `prepareDownloadR_sends`, `load_log`: what the functions that talk to
  the card send, whatever the card is.
-/

namespace VirtualRsp.Lpa.Download

open Program Protocol

variable {σ : Type}

/-! ## The applet -/

/-- The parts of a run. -/
inductive Part
  | call (step : Step)
  | preview
  deriving DecidableEq

/-- All parts, in order. -/
def Part.all : List Part :=
  [.call .getEuiccChallengeAndInfo, .call .initiateAuthentication, .call .authenticateServer,
    .call .authenticateClient, .preview, .call .prepareDownload, .call .getBoundProfilePackage,
    .call .loadBoundProfilePackage]

/-- What happens around a run: what the memory holds, before which parts the user has interrupted
it, and what he types when he is asked. -/
structure Surroundings where
  heap : Heap
  ctx : Sha256.Ctx
  imei : Vector UInt8 8
  interrupted : Part → Bool
  getchar : ℤ

/-- What the applet is called with. -/
structure DownloadOptions extends Activation.Parameters where
  interactivePreview : Bool

/-- The LPA during a run. -/
structure Session (σ : Type) where
  dialogue : Dialogue σ
  http : HttpContext

/-- Say something. -/
def say {α : Type} (x : Program (Dialogue σ) α) : Program (Session σ) α := fun s =>
  (x s.dialogue).map fun r => (⟨r.1, s.http⟩, r.2)

/-- The URL of a function of the server. -/
def es9Url (serverAddress function : Bytes) : Bytes :=
  ascii "https://" ++ serverAddress ++ ascii "/gsma/rsp2/es9plus/" ++ function

/-- A string, or null for a null pointer. -/
def stringOrNull : Option Bytes → Json
  | none => .null
  | some s => .string s

/-- The body of a request within a session. -/
def sessionText (c : CJson) (transactionId : Option Bytes) (key value : Bytes) : Bytes :=
  c.printUnformatted
    (.object [(ascii "transactionId", stringOrNull transactionId), (key, .string value)])

/-- The text behind a pointer. -/
def Pointer.toText : Pointer → Option Bytes
  | text s => some s
  | _ => none

/-- Where the answer to InitiateAuthentication is stored; nothing is there before. -/
structure InitiateMemory where
  transactionIdHttp : Option Bytes
  b64ServerSigned1 : Option Bytes
  b64ServerSignature1 : Option Bytes
  b64EuiccCiPKIdToBeUsed : Option Bytes
  b64ServerCertificate : Option Bytes

/-- The keys of the answer to InitiateAuthentication. -/
def initiateKeys : List (Key InitiateMemory) :=
  [⟨ascii "transactionId", false, fun ptr m => { m with transactionIdHttp := ptr.toText }⟩,
    ⟨ascii "serverSigned1", false, fun ptr m => { m with b64ServerSigned1 := ptr.toText }⟩,
    ⟨ascii "serverSignature1", false, fun ptr m => { m with b64ServerSignature1 := ptr.toText }⟩,
    ⟨ascii "euiccCiPKIdToBeUsed", false,
      fun ptr m => { m with b64EuiccCiPKIdToBeUsed := ptr.toText }⟩,
    ⟨ascii "serverCertificate", false, fun ptr m => { m with b64ServerCertificate := ptr.toText }⟩]

/-- `es9p_initiate_authentication_r`, behind the transmission: the transaction id is set also if a
later key is missing. -/
def readInitiate (c : CJson) (reply : Reply) : Option Bytes × Option AuthenticateServerParam :=
  let (m, success) := transJson c reply initiateKeys ⟨none, none, none, none, none⟩
  (m.transactionIdHttp,
    if success then do
      return ⟨base64Trim (← m.b64ServerSigned1), base64Trim (← m.b64ServerSignature1),
        base64Trim (← m.b64EuiccCiPKIdToBeUsed), base64Trim (← m.b64ServerCertificate)⟩
    else none)

/-- `es9p_get_bound_profile_package_r`, behind the transmission. -/
def readPackage (c : CJson) (reply : Reply) : Option Bytes :=
  let (text, success) := transJson c reply
    [⟨ascii "boundProfilePackage", false, fun ptr _ => ptr.toText⟩] none
  if success then text.map base64Trim else none

/-- The answer to a post, as a result. -/
def replyOf (p : Partner σ) (url text : Bytes) : Program (Dialogue σ) Reply := fun d =>
  (p.post url text d).map fun r => (r.1, some r.2)

/-- `es9p_authenticate_client_r`: the nested form is asked for only if the flat one fails. -/
def authenticateClientTwice (c : CJson) (heap : Heap) (p : Partner σ) (url text : Bytes) :
    Program (Dialogue σ) PrepareDownloadParam := do
  let flat ← replyOf p url text
  let nested ← if (transJson c flat keysV22 heap.initial).2 then pure none else replyOf p url text
  liftFault ((authenticateClientR c heap flat nested heap.initial).map fun r =>
    if r.2 then some r.1 else none)

/-- The load of a package, without the result of its commands. -/
def load (p : Partner σ) (b64BoundProfilePackage : Bytes) : Program (Dialogue σ) Unit := fun d =>
  (Lpa.loadBoundProfilePackage p.send b64BoundProfilePackage ⟨d, .init⟩).map fun r =>
    (r.1.partner, r.2)

/-- A call transmits if the context has what it needs. -/
def transmit {α β : Type} (needs : HttpContext → Option α) (x : α → Program (Dialogue σ) β)
    (call : Option β → Call) : Program (Session σ) Unit := fun s =>
  match needs s.http with
  | none => some (s, none)
  | some needed =>
    (x needed s.dialogue).map fun r =>
      let called := (call r.2).run s.http
      (⟨r.1, called.1⟩, if called.2.success then some () else none)

/-- What a call needs, if its own output is not pending. -/
def needs {α β : Type} (own : HttpContext → Option β) (needed : HttpContext → Option α)
    (http : HttpContext) : Option α := if (own http).isSome then none else needed http

section

variable (c : CJson) (p : Partner σ) (around : Surroundings) (options : DownloadOptions)

/-- The functions of the steps. -/
def perform : Step → Program (Session σ) Unit
  | .getEuiccChallengeAndInfo =>
    transmit
      (fun http => if http.b64EuiccChallenge.isSome || http.b64EuiccInfo1.isSome then none
        else some ())
      (fun _ => do
        let challenge ← getEuiccChallengeR p.send
        let info ← getEuiccInfoR p.send
        return (challenge, info))
      fun r => .getEuiccChallengeAndInfo (r.map Prod.fst) (r.map Prod.snd)
  | .initiateAuthentication =>
    transmit (needs HttpContext.authenticateServerParam challengeAndInfo)
      (fun x => do
        let reply ← replyOf p (es9Url options.serverAddress (ascii "initiateAuthentication"))
          (c.printUnformatted (.object [(ascii "smdpAddress", .string options.serverAddress),
            (ascii "euiccChallenge", .string x.1), (ascii "euiccInfo1", .string x.2)]))
        return readInitiate c reply)
      fun r => .initiateAuthentication (r.bind Prod.fst) (r.bind Prod.snd)
  | .authenticateServer =>
    transmit (needs HttpContext.b64AuthenticateServerResponse HttpContext.authenticateServerParam)
      (fun param =>
        authenticateServerR p.send around.imei param ⟨options.matchingId, options.imei⟩)
      .authenticateServer
  | .authenticateClient => fun s =>
    transmit (needs HttpContext.prepareDownloadParam HttpContext.b64AuthenticateServerResponse)
      (fun response => authenticateClientTwice c around.heap p
        (es9Url options.serverAddress (ascii "authenticateClient"))
        (sessionText c s.http.transactionIdHttp (ascii "authenticateServerResponse") response))
      .authenticateClient s
  | .prepareDownload =>
    transmit (needs HttpContext.b64PrepareDownloadResponse HttpContext.prepareDownloadParam)
      (fun param => prepareDownloadR p.send around.ctx param options.confirmationCode)
      .prepareDownload
  | .getBoundProfilePackage => fun s =>
    transmit (needs HttpContext.b64BoundProfilePackage HttpContext.b64PrepareDownloadResponse)
      (fun response => do
        let reply ← replyOf p (es9Url options.serverAddress (ascii "getBoundProfilePackage"))
          (sessionText c s.http.transactionIdHttp (ascii "prepareDownloadResponse") response)
        .ofOption (readPackage c reply))
      .getBoundProfilePackage s
  | .loadBoundProfilePackage =>
    transmit HttpContext.b64BoundProfilePackage (load p) fun r => .loadBoundProfilePackage r.isSome

/-- `CANCELPOINT`. -/
def cancelPoint (part : Part) : Program (Session σ) Unit :=
  if around.interrupted part then .fail else pure ()

/-- `euicc_icontype2str`. -/
def icontype2str : IconType → Option Bytes
  | .null => none
  | .jpeg => some (ascii "jpeg")
  | .png => some (ascii "png")
  | .undefined => some (ascii "unknown")

/-- `euicc_profileclass2str`. -/
def profileclass2str : ProfileClass → Option Bytes
  | .null => none
  | .test => some (ascii "test")
  | .provisioning => some (ascii "provisioning")
  | .operational => some (ascii "operational")
  | .undefined => some (ascii "unknown")

/-- The line that shows metadata. -/
def previewLine (metadata : Metadata) : Bytes :=
  c.printUnformatted (.object [(ascii "type", .string (ascii "progress")),
    (ascii "payload", .object [(ascii "code", .number 0),
      (ascii "message", .string (ascii "es8p_meatadata_parse")),
      (ascii "data", .object [(ascii "iccid", .string metadata.iccid),
        (ascii "serviceProviderName", stringOrNull (metadata.serviceProviderName.map cstr)),
        (ascii "profileName", stringOrNull (metadata.profileName.map cstr)),
        (ascii "iconType", stringOrNull (icontype2str metadata.iconType)),
        (ascii "icon", stringOrNull metadata.icon),
        (ascii "profileClass", stringOrNull (profileclass2str metadata.profileClass))])])])

/-- Whether the user wants the profile. -/
def Surroundings.consents : Bool := around.getchar = 0x79 || around.getchar = 0x59

/-- Show the metadata, and ask for consent. Without it the flag of an interrupt is set, which is
looked at next. -/
def preview : Program (Session σ) Unit := fun s =>
  match s.http.prepareDownloadParam with
  | none => none
  | some param =>
    match param.b64ProfileMetadata with
    | .null => some (s, some ())
    | .text b64ProfileMetadata =>
      (do
        cancelPoint around .preview
        let profileMetadata ← liftFault (metadataParse b64ProfileMetadata)
        say (printLine (previewLine c profileMetadata))
        if options.interactivePreview && !around.consents then .fail else pure ()) s
    | _ => none

/-- A part of the run. -/
def performPart : Part → Program (Session σ) Unit
  | .call step => do
    cancelPoint around (.call step)
    perform c p around options step
  | .preview => preview c around options

/-- The response of the card when it has cancelled a session. -/
def cancelSession (http : HttpContext) : Program (Dialogue σ) Unit := do
  let response ← es10bCancelSession p.send http.transactionIdBin none .endUserRejection
  let _ ← p.post (es9Url options.serverAddress (ascii "cancelSession"))
    (sessionText c http.transactionIdHttp (ascii "cancelSessionResponse") response)

/-- The applet `download`. -/
def download : Program (Dialogue σ) Unit := fun d =>
  match Program.each (performPart c p around options) Part.all ⟨d, .init⟩ with
  | none => none
  | some (s, some ()) => some (s.dialogue, some ())
  | some (s, none) => (cancelSession c p options s.http s.dialogue).map fun r => (r.1, none)

end

/-! ## What a transmission says -/

/-- A function that talks to a card, whatever the card is. -/
abbrev CardFunction (α : Type) := ∀ τ : Type, (Bytes → Program τ Bytes) → Program τ α

/-- The function sends one command, and returns what it makes of the response. -/
def Relays {α : Type} (f : CardFunction α) (reqbuf : Bytes)
    (result : Bytes → Option (Option α)) : Prop :=
  ∀ τ command, f τ command = do
    let respbuf ← command reqbuf
    .liftFault (result respbuf)

/-- The function fails and sends nothing. -/
def Refuses {α : Type} (f : CardFunction α) : Prop := ∀ τ command, f τ command = .fail

/-- The challenge in a response, in base64. -/
def readEuiccChallenge (respbuf : Bytes) : Option (Option Bytes) :=
  match (findTag 0xBF2E respbuf).bind fun tmpnode => findTag 0x80 tmpnode.value with
  | none => some none
  | some tmpnode => Base64.encodeText tmpnode.value

/-- An object of a response with its tag, in base64. -/
def readSelf (tag : ℕ) (respbuf : Bytes) : Option (Option Bytes) :=
  match findTag tag respbuf with
  | none => some none
  | some tmpnode => Base64.encodeText tmpnode.self

/-- The information in a response, in base64. -/
def readEuiccInfo : Bytes → Option (Option Bytes) := readSelf 0xBF20

/-- The response to a cancellation, in base64. -/
def readCancellation : Bytes → Option (Option Bytes) := readSelf 0xBF41

/-- The response to an authentication, in base64, with the transaction identifier of the server. -/
def readAuthenticateServer (transactionId respbuf : Bytes) : Option (Option (Bytes × Bytes)) :=
  (Base64.encodeText respbuf).map (Option.map (Prod.mk transactionId))

variable {p : Partner σ}

theorem transmit_cases {α β : Type} {needs : HttpContext → Option α}
    {x : α → Program (Dialogue σ) β} {call : Option β → Call} {s t : Session σ} {r : Option Unit}
    (needed : α) (hneeds : needs s.http = some needed)
    (h : transmit needs x call s = some (t, r)) :
    ∃ a, x needed s.dialogue = some (t.dialogue, a) ∧ t.http = ((call a).run s.http).1 ∧
      r = if ((call a).run s.http).2.success then some () else none := by
  rw [transmit, hneeds] at h
  obtain ⟨⟨u, a⟩, hx, h⟩ := Option.map_eq_some_iff.1 h
  cases h
  exact ⟨a, hx, rfl, rfl⟩

section

variable {d t : Dialogue σ}

theorem replyOf_log {url text : Bytes} {r : Option Reply}
    (h : replyOf p url text d = some (t, r)) :
    ∃ answer, r = some answer ∧ t.log = d.log ++ [.post url text answer] := by
  obtain ⟨⟨u, answer⟩, hpost, h⟩ := Option.map_eq_some_iff.1 h
  cases h
  exact ⟨answer, rfl, post_log hpost⟩

theorem getEuiccChallengeR_eq (command : Bytes → Program σ Bytes) :
    getEuiccChallengeR command =
      command (pack 0xBF2E []) >>= fun respbuf => liftFault (readEuiccChallenge respbuf) := by
  refine congrArg (command (pack 0xBF2E []) >>= ·) (funext fun respbuf => ?_)
  rw [readEuiccChallenge]
  cases findTag 0xBF2E respbuf with
  | none => rfl
  | some tmpnode =>
    rw [ofOption_bind rfl, Option.bind_some]
    cases findTag 0x80 tmpnode.value with
    | none => rfl
    | some tmpnode => rfl

theorem getEuiccInfoR_eq (command : Bytes → Program σ Bytes) :
    getEuiccInfoR command =
      command (pack 0xBF20 []) >>= fun respbuf => liftFault (readEuiccInfo respbuf) := by
  refine congrArg (command (pack 0xBF20 []) >>= ·) (funext fun respbuf => ?_)
  rw [readEuiccInfo, readSelf]
  cases findTag 0xBF20 respbuf with
  | none => rfl
  | some tmpnode => rfl

theorem es10bCancelSessionR_eq (command : Bytes → Program σ Bytes) {transactionId request : Bytes}
    {reason : CancelSessionReason} (h : cancelSessionRequest transactionId reason = some request) :
    es10bCancelSessionR command transactionId reason =
      command request >>= fun respbuf => liftFault (readCancellation respbuf) := by
  rw [es10bCancelSessionR, ofOption_bind h]
  refine congrArg (command request >>= ·) (funext fun respbuf => ?_)
  rw [readCancellation, readSelf]
  cases findTag 0xBF41 respbuf with
  | none => rfl
  | some tmpnode => rfl

/-- The function sends one command, or it fails or faults and sends nothing. -/
inductive SendsOnce {α : Type} (IsResult : (Bytes → Option (Option α)) → Prop)
    (f : CardFunction α) : Prop
  | relays {reqbuf : Bytes} {result : Bytes → Option (Option α)} (hresult : IsResult result)
    (h : Relays f reqbuf result)
  | refuses (h : Refuses f)
  | faults (h : ∀ τ command, f τ command = fun _ => none)

theorem SendsOnce.ofOption {α β : Type} {IsResult : (Bytes → Option (Option α)) → Prop}
    {o : Option β} {f : β → CardFunction α} (h : ∀ b, SendsOnce IsResult (f b)) :
    SendsOnce IsResult fun τ command => Program.ofOption o >>= fun b => f b τ command := by
  cases o with
  | none => exact .refuses fun _ _ => rfl
  | some b => exact h b

theorem SendsOnce.liftFault {α β : Type} {IsResult : (Bytes → Option (Option α)) → Prop}
    {o : Option (Option β)} {f : β → CardFunction α} (h : ∀ b, SendsOnce IsResult (f b)) :
    SendsOnce IsResult fun τ command => Program.liftFault o >>= fun b => f b τ command := by
  rcases o with _ | _ | b
  · exact .faults fun _ _ => rfl
  · exact .refuses fun _ _ => rfl
  · exact h b

theorem SendsOnce.readText {α : Type} {IsResult : (Bytes → Option (Option α)) → Prop}
    {ptr : Pointer} {f : Bytes → CardFunction α} (h : ∀ s, SendsOnce IsResult (f s)) :
    SendsOnce IsResult fun τ command => Download.readText ptr >>= fun s => f s τ command := by
  cases ptr with
  | text s => exact h s
  | null => exact .faults fun _ _ => rfl
  | stale address => exact .faults fun _ _ => rfl
  | json value => exact .faults fun _ _ => rfl

/-- **The request for the authentication** is one command. -/
theorem authenticateServerR_sends (imei : Vector UInt8 8) (param : AuthenticateServerParam)
    (paramUser : AuthenticateServerParamUser) :
    SendsOnce (fun result => ∃ transactionId, result = readAuthenticateServer transactionId)
      fun _ command => authenticateServerR command imei param paramUser := by
  refine .liftFault fun serverSigned1 => .liftFault fun serverSignature1 => ?_
  refine .liftFault fun euiccCiPKIdToBeUsed => .liftFault fun serverCertificate => ?_
  refine .ofOption fun serverSigned1 => .ofOption fun transactionId => ?_
  refine .ofOption fun serverSignature1 => .ofOption fun euiccCiPKIdToBeUsed => ?_
  refine .ofOption fun serverCertificate => .liftFault fun deviceInfo => ?_
  refine .liftFault fun reqbuf => ?_
  refine @SendsOnce.relays _ _ _ reqbuf _ ⟨transactionId.value, rfl⟩ fun _ command => ?_
  refine congrArg (command reqbuf >>= ·) (funext fun respbuf => ?_)
  exact liftFault_map _ (Prod.mk transactionId.value)

/-- **The request for the download**, in the same way. -/
theorem prepareDownloadR_sends (ctx : Sha256.Ctx) (param : PrepareDownloadParam)
    (confirmationCode : Option Bytes) :
    SendsOnce (· = Base64.encodeText)
      fun _ command => prepareDownloadR command ctx param confirmationCode := by
  refine .readText fun b64SmdpSigned2 => .readText fun b64SmdpSignature2 => ?_
  refine .readText fun b64SmdpCertificate => .liftFault fun smdpSigned2 => ?_
  refine .liftFault fun smdpSignature2 => .liftFault fun smdpCertificate => ?_
  refine .ofOption fun smdpSigned2 => .ofOption fun smdpSignature2 => ?_
  refine .ofOption fun smdpCertificate => .ofOption fun transactionId => ?_
  refine .ofOption fun ccRequiredFlag => .liftFault fun hashCc => ?_
  refine .liftFault fun reqbuf => .relays rfl fun _ _ => rfl

/-- A load goes on with commands. -/
def Commands (s s' : LoadState (Dialogue σ)) : Prop :=
  ∃ log, s'.partner.log = s.partner.log ++ log ∧ ∀ x ∈ log, x.request.isSome

theorem Commands.refl (s : LoadState (Dialogue σ)) : Commands s s := ⟨[], by simp, by simp⟩

theorem Commands.trans (s t u : LoadState (Dialogue σ)) (h : Commands s t) (h' : Commands t u) :
    Commands s u := by
  obtain ⟨log, hlog, hall⟩ := h
  obtain ⟨log', hlog', hall'⟩ := h'
  refine ⟨log ++ log', by rw [hlog', hlog, List.append_assoc], ?_⟩
  rw [List.forall_mem_append]
  exact ⟨hall, hall'⟩

/-- A piece is one command. -/
theorem loadTx_log {reqbuf : Bytes} {s s' : LoadState (Dialogue σ)} {r : Option Unit}
    (h : loadTx p.send reqbuf s = some (s', r)) :
    ∃ response, s'.partner.log = s.partner.log ++ [.command reqbuf response] := by
  rw [loadTx] at h
  split at h
  · cases h
  · rename_i hsend
    cases h
    exact ⟨none, send_log hsend⟩
  · rename_i respbuf hsend
    refine ⟨some respbuf, ?_⟩
    rw [← send_log hsend]
    split at h
    · cases h
      rfl
    · simp only [Option.some.injEq, Prod.mk.injEq] at h
      rw [← h.1]

theorem loadTx_moves (reqbuf : Bytes) : Moves Commands (loadTx p.send reqbuf) := by
  intro s s' r h
  obtain ⟨response, hlog⟩ := loadTx_log h
  exact ⟨_, hlog, by simp [Exchange.request]⟩

theorem loadBoundProfilePackage_moves (package : Bytes) :
    Moves Commands (Lpa.loadBoundProfilePackage p.send package) := by
  have hdecode := moves_liftFault Commands.refl (σ := LoadState (Dialogue σ))
    (Base64.decodeText package)
  have hfind {α : Type} (o : Option α) :
      Moves Commands (.ofOption o : Program (LoadState (Dialogue σ)) α) :=
    moves_ofOption Commands.refl o
  have heach (nodes : List Node) :=
    Moves.each Commands.refl Commands.trans (fun node => loadTx_moves (p := p) node.self) nodes
  refine hdecode.bind Commands.trans fun bpp => (hfind _).bind Commands.trans fun b => ?_
  refine (hfind _).bind Commands.trans fun opening => ?_
  refine (loadTx_moves _).bind Commands.trans fun _ => ?_
  refine (hfind _).bind Commands.trans fun a0 => (loadTx_moves _).bind Commands.trans fun _ => ?_
  refine (hfind _).bind Commands.trans fun a1 => (loadTx_moves _).bind Commands.trans fun _ => ?_
  refine (heach _).bind Commands.trans fun _ => ?_
  refine Moves.bind Commands.trans ?_ fun _ => ?_
  · cases findTag 0xA2 b.value with
    | none => exact moves_pure Commands.refl ()
    | some a2 => exact loadTx_moves _
  · refine (hfind _).bind Commands.trans fun a3 => ?_
    exact (loadTx_moves _).bind Commands.trans fun _ => heach _

theorem each_sendPiece_log {pieces : List Piece} {s s' : LoadState (Sent (Dialogue σ))}
    (h : (Program.each (sendPiece p.send) pieces).Returns s () s') :
    ∃ log, s'.partner.partner.log = s.partner.partner.log ++ log ∧
      log.map Exchange.request = pieces.map fun piece => some piece.bytes := by
  induction pieces generalizing s with
  | nil =>
    obtain rfl := returns_each_nil.1 h
    exact ⟨[], by simp, rfl⟩
  | cons piece pieces ih =>
    obtain ⟨u, hu, h⟩ := returns_each_cons.1 h
    have hforget := sendPiece_projects p.send piece s
    rw [hu] at hforget
    obtain ⟨response, hlog⟩ := loadTx_log hforget.symm
    obtain ⟨log, hlog', hrequests⟩ := ih h
    refine ⟨.command piece.bytes response :: log, ?_, ?_⟩
    · rw [hlog']
      change (forget u).partner.log ++ log = _
      rw [hlog]
      simp [forget]
    · rw [List.map_cons, hrequests]
      rfl

/-- **The load** says nothing but commands, and if it succeeds, the pieces of the package. -/
theorem load_log {package : Bytes} {r : Option Unit} (h : load p package d = some (t, r)) :
    ∃ log, t.log = d.log ++ log ∧ (∀ x ∈ log, x.request.isSome) ∧
      (r = some () → ∃ bpp parts, Base64.decodeText package = some (some bpp) ∧
        findParts bpp = some parts ∧
        log.map Exchange.request = parts.pieces.map fun piece => some piece.bytes) := by
  obtain ⟨⟨s, a⟩, hload, h⟩ := Option.map_eq_some_iff.1 h
  cases h
  obtain ⟨log, hlog, hall⟩ := loadBoundProfilePackage_moves package hload
  refine ⟨log, hlog, hall, ?_⟩
  rintro rfl
  have hforget := loadPieces_forget p.send package ⟨⟨d, []⟩, .init⟩
  rw [forget, hload] at hforget
  obtain ⟨⟨s', a⟩, hpieces, hs⟩ := Option.map_eq_some_iff.1 hforget
  simp only [Prod.mk.injEq, Option.map_eq_some_iff] at hs
  obtain ⟨rfl, _, rfl, -⟩ := hs
  obtain ⟨bpp, parts, hbpp, hparts, heach⟩ := returns_loadPieces.1 hpieces
  obtain ⟨log', hlog', hrequests⟩ := each_sendPiece_log heach
  have hsame : log = log' := List.append_cancel_left (hlog.symm.trans hlog')
  exact ⟨bpp, parts, hbpp, hparts, hsame ▸ hrequests⟩

end

end VirtualRsp.Lpa.Download
