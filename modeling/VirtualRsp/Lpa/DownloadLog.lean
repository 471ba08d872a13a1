import VirtualRsp.Lpa.DownloadApplet

/-!
# All that a download says

`download_log` is about all that a run of the applet `download` says to the card and to the server,
and shows to the user, whatever they answer. The guards of the steps never refuse one, and what a
step sends is made of what was answered before.

* `Says`: what a step says and what it makes of the answers, from what is pending;
* `Went`: parts of a run that come to their end. Behind the preview the user has consented, if he
  was asked;
* `Stopped`, `Cancels`: where a run stops, and what it says then.
-/

namespace VirtualRsp.Lpa.Download

open Program Protocol

variable {σ : Type}

/-! ## What a step says -/

section

variable (c : CJson) (around : Surroundings) (options : DownloadOptions)

/-- The posts of a session. -/
def sessionPost (http : HttpContext) (function key value : Bytes) (answer : Reply) : Exchange :=
  .post (es9Url options.serverAddress function) (sessionText c http.transactionIdHttp key value)
    answer

/-- What a call says, from what is pending, with what it makes of the answers. -/
inductive Says (http : HttpContext) : Call → List Exchange → Prop
  | noChallenge {response : Option Bytes}
    (h : response.elim (some none) readEuiccChallenge = some none) :
    Says http (.getEuiccChallengeAndInfo none none) [.command (pack 0xBF2E []) response]
  | noInfo {respbuf challenge : Bytes} {response : Option Bytes}
    (hchallenge : readEuiccChallenge respbuf = some (some challenge))
    (h : response.elim (some none) readEuiccInfo = some none) :
    Says http (.getEuiccChallengeAndInfo none none)
      [.command (pack 0xBF2E []) (some respbuf), .command (pack 0xBF20 []) response]
  | challengeAndInfo {respbuf respbuf' challenge info : Bytes}
    (hchallenge : readEuiccChallenge respbuf = some (some challenge))
    (hinfo : readEuiccInfo respbuf' = some (some info)) :
    Says http (.getEuiccChallengeAndInfo (some challenge) (some info))
      [.command (pack 0xBF2E []) (some respbuf), .command (pack 0xBF20 []) (some respbuf')]
  | initiateAuthentication {challenge info : Bytes} {answer : Reply}
    (hchallenge : http.b64EuiccChallenge = some challenge)
    (hinfo : http.b64EuiccInfo1 = some info) :
    Says http (.initiateAuthentication (readInitiate c answer).1 (readInitiate c answer).2)
      [.post (es9Url options.serverAddress (ascii "initiateAuthentication"))
        (c.printUnformatted (.object [(ascii "smdpAddress", .string options.serverAddress),
          (ascii "euiccChallenge", .string challenge), (ascii "euiccInfo1", .string info)])) answer]
  | noAuthenticateServer {param : AuthenticateServerParam}
    (hparam : http.authenticateServerParam = some param)
    (h : Refuses fun _ command =>
      authenticateServerR command around.imei param ⟨options.matchingId, options.imei⟩) :
    Says http (.authenticateServer none) []
  | authenticateServer {param : AuthenticateServerParam} {transactionId reqbuf : Bytes}
    {response : Option Bytes} {r : Option (Bytes × Bytes)}
    (hparam : http.authenticateServerParam = some param)
    (h : Relays (fun _ command =>
        authenticateServerR command around.imei param ⟨options.matchingId, options.imei⟩) reqbuf
      (readAuthenticateServer transactionId))
    (hread : response.elim (some none) (readAuthenticateServer transactionId) = some r) :
    Says http (.authenticateServer r) [.command reqbuf response]
  | authenticateClient {authenticated : Bytes} {flat : Reply} {r : PrepareDownloadParam × Bool}
    (hpending : http.b64AuthenticateServerResponse = some authenticated)
    (hflat : (transJson c flat keysV22 around.heap.initial).2 = true)
    (h : authenticateClientR c around.heap flat none around.heap.initial = some r) :
    Says http (.authenticateClient (if r.2 then some r.1 else none))
      [sessionPost c options http (ascii "authenticateClient")
        (ascii "authenticateServerResponse") authenticated flat]
  | authenticateClientTwice {authenticated : Bytes} {flat nested : Reply}
    {r : PrepareDownloadParam × Bool}
    (hpending : http.b64AuthenticateServerResponse = some authenticated)
    (hflat : (transJson c flat keysV22 around.heap.initial).2 = false)
    (h : authenticateClientR c around.heap flat nested around.heap.initial = some r) :
    Says http (.authenticateClient (if r.2 then some r.1 else none))
      ([flat, nested].map (sessionPost c options http (ascii "authenticateClient")
        (ascii "authenticateServerResponse") authenticated))
  | noPrepareDownload {param : PrepareDownloadParam}
    (hparam : http.prepareDownloadParam = some param)
    (h : Refuses fun _ command =>
      prepareDownloadR command around.ctx param options.confirmationCode) :
    Says http (.prepareDownload none) []
  | prepareDownload {param : PrepareDownloadParam} {reqbuf : Bytes} {response r : Option Bytes}
    (hparam : http.prepareDownloadParam = some param)
    (h : Relays (fun _ command =>
      prepareDownloadR command around.ctx param options.confirmationCode) reqbuf Base64.encodeText)
    (hread : response.elim (some none) Base64.encodeText = some r) :
    Says http (.prepareDownload r) [.command reqbuf response]
  | getBoundProfilePackage {prepared : Bytes} {answer : Reply}
    (hpending : http.b64PrepareDownloadResponse = some prepared) :
    Says http (.getBoundProfilePackage (readPackage c answer))
      [sessionPost c options http (ascii "getBoundProfilePackage")
        (ascii "prepareDownloadResponse") prepared answer]
  | loadBoundProfilePackage {package : Bytes} {success : Bool} {log : List Exchange}
    (hpackage : http.b64BoundProfilePackage = some package)
    (hcommands : ∀ x ∈ log, x.request.isSome)
    (hpieces : success = true → ∃ bpp parts, Base64.decodeText package = some (some bpp) ∧
      findParts bpp = some parts ∧
      log.map Exchange.request = parts.pieces.map fun piece => some piece.bytes) :
    Says http (.loadBoundProfilePackage success) log

/-- The metadata that is shown. -/
def Shown (http : HttpContext) (profileMetadata : Option Metadata) : Prop :=
  ∃ param b64, http.prepareDownloadParam = some param ∧ param.b64ProfileMetadata = .text b64 ∧
    metadataParse b64 = some profileMetadata

/-- Parts of a run that come to their end, from one context to another, with what they say. -/
inductive Went : List Part → HttpContext → HttpContext → List Exchange → Prop
  | nil {http : HttpContext} : Went [] http http []
  | call {call : Call} {step : Step} {parts : List Part} {http http' : HttpContext}
    {log log' : List Exchange} (hstep : call.stepOf = some step)
    (hgoes : around.interrupted (.call step) = false) (hsaid : Says c around options http call log)
    (hsuccess : (call.run http).2.success = true) (h : Went parts (call.run http).1 http' log') :
    Went (.call step :: parts) http http' (log ++ log')
  | preview {parts : List Part} {http http' : HttpContext} {profileMetadata : Metadata}
    {log : List Exchange} (hgoes : around.interrupted .preview = false)
    (hshown : Shown http (some profileMetadata))
    (hconsents : options.interactivePreview = true → around.consents = true)
    (h : Went parts http http' log) :
    Went (.preview :: parts) http http' (.print (previewLine c profileMetadata) :: log)

/-- A part that the run stops at, with what it has said. -/
inductive Stopped : Part → HttpContext → HttpContext → List Exchange → Prop
  | interrupted {part : Part} {http : HttpContext} (h : around.interrupted part = true) :
    Stopped part http http []
  | call {call : Call} {step : Step} {http : HttpContext} {log : List Exchange}
    (hstep : call.stepOf = some step) (hsaid : Says c around options http call log)
    (hfails : (call.run http).2.success = false) :
    Stopped (.call step) http (call.run http).1 log
  | unreadable {http : HttpContext} (h : Shown http none) : Stopped .preview http http []
  | rejected {http : HttpContext} {profileMetadata : Metadata}
    (hshown : Shown http (some profileMetadata)) (hasked : options.interactivePreview = true)
    (h : around.consents = false) :
    Stopped .preview http http [.print (previewLine c profileMetadata)]

/-- What is said when a run has failed: the card is asked to cancel the transaction if there is one,
and its response goes to the server. -/
inductive Cancels (http : HttpContext) : List Exchange → Prop
  | nothing (h : http.transactionIdBin.getD [] = []) : Cancels http []
  | tooLong {transactionId : Bytes} (hid : http.transactionIdBin = some transactionId)
    (h : cancelSessionRequest transactionId .endUserRejection = none) : Cancels http []
  | unanswered {transactionId request : Bytes} {response : Option Bytes}
    (hid : http.transactionIdBin = some transactionId) (hne : transactionId ≠ [])
    (hrequest : cancelSessionRequest transactionId .endUserRejection = some request)
    (h : response.elim (some none) readCancellation = some none) :
    Cancels http [.command request response]
  | posted {transactionId request respbuf b64 : Bytes} {answer : Reply}
    (hid : http.transactionIdBin = some transactionId) (hne : transactionId ≠ [])
    (hrequest : cancelSessionRequest transactionId .endUserRejection = some request)
    (h : readCancellation respbuf = some (some b64)) :
    Cancels http [.command request (some respbuf),
      sessionPost c options http (ascii "cancelSession") (ascii "cancelSessionResponse") b64 answer]

end

variable {c : CJson} {p : Partner σ} {around : Surroundings} {options : DownloadOptions}

/-! ## What is pending before a part -/

/-- The part after a part. -/
def Part.next : Part → Option Part
  | .call .getEuiccChallengeAndInfo => some (.call .initiateAuthentication)
  | .call .initiateAuthentication => some (.call .authenticateServer)
  | .call .authenticateServer => some (.call .authenticateClient)
  | .call .authenticateClient => some .preview
  | .preview => some (.call .prepareDownload)
  | .call .prepareDownload => some (.call .getBoundProfilePackage)
  | .call .getBoundProfilePackage => some (.call .loadBoundProfilePackage)
  | .call .loadBoundProfilePackage => none

/-- A context of a transaction in which nothing is pending. -/
def begun (id : Option Bytes) (idBin : Bytes) : HttpContext :=
  { HttpContext.init with transactionIdHttp := id, transactionIdBin := some idBin }

/-- The context before a part, or at the end: the output of the last step is pending, and no other.
-/
def Ready : Option Part → HttpContext → Prop
  | some (.call .getEuiccChallengeAndInfo), http => http = .init
  | some (.call .initiateAuthentication), http => ∃ challenge info,
    http = { HttpContext.init with
      b64EuiccChallenge := some challenge
      b64EuiccInfo1 := some info }
  | some (.call .authenticateServer), http => ∃ id param,
    http = { HttpContext.init with transactionIdHttp := id, authenticateServerParam := some param }
  | some (.call .authenticateClient), http => ∃ id idBin response,
    http = { begun id idBin with b64AuthenticateServerResponse := some response }
  | some .preview, http | some (.call .prepareDownload), http => ∃ id idBin param,
    http = { begun id idBin with prepareDownloadParam := some param } ∧
      param.b64ProfileMetadata ≠ .null
  | some (.call .getBoundProfilePackage), http => ∃ id idBin response,
    http = { begun id idBin with b64PrepareDownloadResponse := some response }
  | some (.call .loadBoundProfilePackage), http => ∃ id idBin package,
    http = { begun id idBin with b64BoundProfilePackage := some package }
  | none, http => ∃ id idBin, http = begun id idBin

theorem trimParam_ne_null {heap : Heap} {q q' : PrepareDownloadParam}
    (h : trimParam heap q = some q') : q'.b64ProfileMetadata ≠ .null := by
  have htrim : trimPointer heap q.b64ProfileMetadata = some q'.b64ProfileMetadata :=
    trimParam_eq_some.1 h .profileMetadata
  intro hnull
  rw [hnull] at htrim
  cases hptr : q.b64ProfileMetadata with
  | stale address =>
    rw [hptr] at htrim
    obtain ⟨_, -, htrim⟩ := Option.map_eq_some_iff.1 htrim
    cases htrim
  | null => rw [hptr] at htrim; cases htrim
  | text s => rw [hptr] at htrim; cases htrim
  | json value => rw [hptr] at htrim; cases htrim

/-- The metadata is there if the call is successful. -/
theorem metadata_ne_null {heap : Heap} {flat nested : Reply} {resp : PrepareDownloadParam}
    {r : PrepareDownloadParam × Bool}
    (h : authenticateClientR c heap flat nested resp = some r) (hsuccess : r.2 = true) :
    r.1.b64ProfileMetadata ≠ .null := by
  rw [authenticateClientR] at h
  split at h
  · obtain ⟨q, htrim, rfl⟩ := Option.map_eq_some_iff.1 h
    exact trimParam_ne_null htrim
  split at h
  · cases h
    cases hsuccess
  unfold readRequest at h
  split at h
  · cases h
  · cases h
    cases hsuccess
  split at h
  · simp only at h
    split at h
    · cases h
      cases hsuccess
    · obtain ⟨q, htrim, rfl⟩ := Option.map_eq_some_iff.1 h
      exact trimParam_ne_null htrim
  · cases h

/-- **A step that succeeds** leaves what the next part needs. -/
theorem ready_next {call : Call} {step : Step} {http : HttpContext} {log : List Exchange}
    (hready : Ready (some (.call step)) http) (hstep : call.stepOf = some step)
    (hsaid : Says c around options http call log) (hsuccess : (call.run http).2.success = true) :
    Ready (Part.next (.call step)) (call.run http).1 := by
  have hanswer {flat nested : Reply} {r : PrepareDownloadParam × Bool}
      (h : authenticateClientR c around.heap flat nested around.heap.initial = some r)
      (hready : Ready (some (.call .authenticateClient)) http)
      (hsuccess : (authenticateClient http (if r.2 then some r.1 else none)).2.success = true) :
      Ready (some .preview) (authenticateClient http (if r.2 then some r.1 else none)).1 := by
    obtain ⟨id, idBin, response, rfl⟩ := hready
    cases hr : r.2 with
    | false => rw [hr] at hsuccess; cases hsuccess
    | true => exact ⟨id, idBin, r.1, rfl, metadata_ne_null h hr⟩
  cases hsaid with
  | noChallenge => cases hstep; cases hready; cases hsuccess
  | noInfo => cases hstep; cases hready; cases hsuccess
  | challengeAndInfo => cases hstep; cases hready; exact ⟨_, _, rfl⟩
  | @initiateAuthentication _ _ answer =>
    cases hstep
    obtain ⟨challenge, info, rfl⟩ := hready
    cases hparam : (readInitiate c answer).2 with
    | none => rw [hparam] at hsuccess; cases hsuccess
    | some param => exact ⟨_, _, rfl⟩
  | noAuthenticateServer => cases hstep; obtain ⟨id, param, rfl⟩ := hready; cases hsuccess
  | @authenticateServer _ _ _ _ r =>
    cases hstep
    obtain ⟨id, param, rfl⟩ := hready
    cases r with
    | none => cases hsuccess
    | some r => exact ⟨_, _, _, rfl⟩
  | authenticateClient hpending hflat h => cases hstep; exact hanswer h hready hsuccess
  | authenticateClientTwice hpending hflat h => cases hstep; exact hanswer h hready hsuccess
  | noPrepareDownload => cases hstep; obtain ⟨id, idBin, param, rfl, -⟩ := hready; cases hsuccess
  | @prepareDownload _ _ _ r =>
    cases hstep
    obtain ⟨id, idBin, param, rfl, -⟩ := hready
    cases r with
    | none => cases hsuccess
    | some r => exact ⟨_, _, _, rfl⟩
  | @getBoundProfilePackage _ answer =>
    cases hstep
    obtain ⟨id, idBin, response, rfl⟩ := hready
    cases hpackage : readPackage c answer with
    | none => rw [hpackage] at hsuccess; cases hsuccess
    | some package => exact ⟨_, _, _, rfl⟩
  | loadBoundProfilePackage =>
    cases hstep
    obtain ⟨id, idBin, package, rfl⟩ := hready
    exact ⟨_, _, rfl⟩

/-! ## The steps -/

section

variable {http : HttpContext} {d t : Dialogue σ}

theorem challengeAndInfo_says {r : Option (Bytes × Bytes)}
    (h : (do
      let challenge ← getEuiccChallengeR p.send
      let info ← getEuiccInfoR p.send
      return (challenge, info) : Program (Dialogue σ) (Bytes × Bytes)) d = some (t, r)) :
    ∃ log, t.log = d.log ++ log ∧ Says c around options http
      (.getEuiccChallengeAndInfo (r.map Prod.fst) (r.map Prod.snd)) log := by
  obtain ⟨hchallenge, rfl⟩ | ⟨challenge, u, hchallenge, h⟩ := bind_cases h
  · rw [getEuiccChallengeR_eq] at hchallenge
    obtain ⟨response, hlog, hnone⟩ := send_liftFault hchallenge
    exact ⟨_, hlog, .noChallenge hnone.symm⟩
  rw [Returns, getEuiccChallengeR_eq] at hchallenge
  obtain ⟨response, hlog, hsome⟩ := send_liftFault hchallenge
  obtain ⟨respbuf, rfl, hread⟩ := response_of_read hsome
  obtain ⟨hinfo, rfl⟩ | ⟨info, v, hinfo, h⟩ := bind_cases h
  · rw [getEuiccInfoR_eq] at hinfo
    obtain ⟨response, hlog', hnone⟩ := send_liftFault hinfo
    exact ⟨_, by rw [hlog', hlog, List.append_assoc]; rfl, .noInfo hread hnone.symm⟩
  · rw [Returns, getEuiccInfoR_eq] at hinfo
    obtain ⟨response, hlog', hsome'⟩ := send_liftFault hinfo
    obtain ⟨respbuf', rfl, hread'⟩ := response_of_read hsome'
    cases h
    exact ⟨_, by rw [hlog', hlog, List.append_assoc]; rfl, .challengeAndInfo hread hread'⟩

/-- A function that sends one command has sent it, or it has sent nothing. -/
theorem SendsOnce.log {α : Type} {IsResult : (Bytes → Option (Option α)) → Prop}
    {f : CardFunction α} (hf : SendsOnce IsResult f) {r : Option α}
    (h : f _ p.send d = some (t, r)) :
    (∃ reqbuf result response, IsResult result ∧ Relays f reqbuf result ∧
      t.log = d.log ++ [.command reqbuf response] ∧
        some r = response.elim (some none) result) ∨
      (Refuses f ∧ t.log = d.log ∧ r = none) := by
  cases hf with
  | @relays reqbuf result hresult hrelays =>
    rw [hrelays] at h
    obtain ⟨response, hlog, hread⟩ := send_liftFault h
    exact .inl ⟨reqbuf, result, response, hresult, hrelays, hlog, hread⟩
  | refuses hrefuses =>
    rw [hrefuses] at h
    cases h
    exact .inr ⟨hrefuses, rfl, rfl⟩
  | faults hfaults =>
    rw [hfaults] at h
    cases h

theorem authenticateServer_says {param : AuthenticateServerParam}
    (hparam : http.authenticateServerParam = some param) {r : Option (Bytes × Bytes)}
    (h : authenticateServerR p.send around.imei param ⟨options.matchingId, options.imei⟩ d =
      some (t, r)) :
    ∃ log, t.log = d.log ++ log ∧ Says c around options http (.authenticateServer r) log := by
  have hsends := authenticateServerR_sends around.imei param ⟨options.matchingId, options.imei⟩
  obtain ⟨reqbuf, _, response, ⟨transactionId, rfl⟩, hrelays, hlog, hread⟩ |
    ⟨hrefuses, hlog, rfl⟩ := hsends.log h
  · exact ⟨_, hlog, .authenticateServer hparam hrelays hread.symm⟩
  · exact ⟨[], by simpa using hlog, .noAuthenticateServer hparam hrefuses⟩

theorem prepareDownload_says {param : PrepareDownloadParam}
    (hparam : http.prepareDownloadParam = some param) {r : Option Bytes}
    (h : prepareDownloadR p.send around.ctx param options.confirmationCode d = some (t, r)) :
    ∃ log, t.log = d.log ++ log ∧ Says c around options http (.prepareDownload r) log := by
  have hsends := prepareDownloadR_sends around.ctx param options.confirmationCode
  obtain ⟨reqbuf, _, response, rfl, hrelays, hlog, hread⟩ | ⟨hrefuses, hlog, rfl⟩ := hsends.log h
  · exact ⟨_, hlog, .prepareDownload hparam hrelays hread.symm⟩
  · exact ⟨[], by simpa using hlog, .noPrepareDownload hparam hrefuses⟩

theorem authenticateClient_says {authenticated : Bytes}
    (hpending : http.b64AuthenticateServerResponse = some authenticated)
    {r : Option PrepareDownloadParam}
    (h : authenticateClientTwice c around.heap p
      (es9Url options.serverAddress (ascii "authenticateClient"))
      (sessionText c http.transactionIdHttp (ascii "authenticateServerResponse") authenticated) d =
        some (t, r)) :
    ∃ log, t.log = d.log ++ log ∧ Says c around options http (.authenticateClient r) log := by
  obtain ⟨hflat, rfl⟩ | ⟨flat, u, hflat, h⟩ := bind_cases h
  · obtain ⟨answer, hr, -⟩ := replyOf_log hflat
    cases hr
  obtain ⟨_, hr, hlog⟩ := replyOf_log hflat
  cases hr
  cases hkeys : (transJson c flat keysV22 around.heap.initial).2 with
  | true =>
    rw [hkeys, if_pos rfl] at h
    obtain ⟨_, hread, h⟩ := Option.map_eq_some_iff.1 h
    cases h
    obtain ⟨r, hr, rfl⟩ := Option.map_eq_some_iff.1 hread
    exact ⟨_, hlog, .authenticateClient hpending hkeys hr⟩
  | false =>
    rw [hkeys, if_neg (by decide)] at h
    obtain ⟨hnested, rfl⟩ | ⟨nested, v, hnested, h⟩ := bind_cases h
    · obtain ⟨answer, hr, -⟩ := replyOf_log hnested
      cases hr
    obtain ⟨_, hr, hlog'⟩ := replyOf_log hnested
    cases hr
    obtain ⟨_, hread, h⟩ := Option.map_eq_some_iff.1 h
    cases h
    obtain ⟨r, hr, rfl⟩ := Option.map_eq_some_iff.1 hread
    exact ⟨_, by rw [hlog', hlog, List.append_assoc]; rfl,
      .authenticateClientTwice hpending hkeys hr⟩

theorem getBoundProfilePackage_says {prepared : Bytes}
    (hpending : http.b64PrepareDownloadResponse = some prepared) {r : Option Bytes}
    (h : (do
      let reply ← replyOf p (es9Url options.serverAddress (ascii "getBoundProfilePackage"))
        (sessionText c http.transactionIdHttp (ascii "prepareDownloadResponse") prepared)
      .ofOption (readPackage c reply) : Program (Dialogue σ) Bytes) d = some (t, r)) :
    ∃ log, t.log = d.log ++ log ∧ Says c around options http (.getBoundProfilePackage r) log := by
  obtain ⟨hreply, rfl⟩ | ⟨answer, u, hreply, h⟩ := bind_cases h
  · obtain ⟨answer, hr, -⟩ := replyOf_log hreply
    cases hr
  obtain ⟨_, hr, hlog⟩ := replyOf_log hreply
  cases hr
  have hr : r = readPackage c answer ∧ t = u := by
    cases hpackage : readPackage c answer with
    | none => rw [hpackage] at h; cases h; exact ⟨rfl, rfl⟩
    | some package => rw [hpackage] at h; cases h; exact ⟨rfl, rfl⟩
  obtain ⟨rfl, rfl⟩ := hr
  exact ⟨_, hlog, .getBoundProfilePackage hpending⟩

theorem initiateAuthentication_says {challenge info : Bytes}
    (hchallenge : http.b64EuiccChallenge = some challenge) (hinfo : http.b64EuiccInfo1 = some info)
    {r : Option (Option Bytes × Option AuthenticateServerParam)}
    (h : (do
      let reply ← replyOf p (es9Url options.serverAddress (ascii "initiateAuthentication"))
        (c.printUnformatted (.object [(ascii "smdpAddress", .string options.serverAddress),
          (ascii "euiccChallenge", .string challenge), (ascii "euiccInfo1", .string info)]))
      return readInitiate c reply :
        Program (Dialogue σ) (Option Bytes × Option AuthenticateServerParam)) d = some (t, r)) :
    ∃ log, t.log = d.log ++ log ∧ Says c around options http
      (.initiateAuthentication (r.bind Prod.fst) (r.bind Prod.snd)) log := by
  obtain ⟨hreply, rfl⟩ | ⟨answer, u, hreply, h⟩ := bind_cases h
  · obtain ⟨answer, hr, -⟩ := replyOf_log hreply
    cases hr
  obtain ⟨_, hr, hlog⟩ := replyOf_log hreply
  cases hr
  cases h
  exact ⟨_, hlog, .initiateAuthentication hchallenge hinfo⟩

end

variable {s t : Session σ} {r : Option Unit}

/-- **What a step says**, when what it needs is pending. -/
theorem perform_says {step : Step} (hready : Ready (some (.call step)) s.http)
    (h : perform c p around options step s = some (t, r)) :
    ∃ call log, call.stepOf = some step ∧ t.dialogue.log = s.dialogue.log ++ log ∧
      Says c around options s.http call log ∧ t.http = (call.run s.http).1 ∧
      r = if (call.run s.http).2.success then some () else none := by
  cases step with
  | getEuiccChallengeAndInfo =>
    rw [perform] at h
    have hneeds : s.http = .init := hready
    obtain ⟨a, hx, hhttp, hr⟩ := transmit_cases () (by rw [hneeds]; rfl) h
    obtain ⟨log, hlog, hsaid⟩ := challengeAndInfo_says hx
    exact ⟨_, log, rfl, hlog, hsaid, hhttp, hr⟩
  | initiateAuthentication =>
    rw [perform] at h
    obtain ⟨challenge, info, hneeds⟩ := hready
    obtain ⟨a, hx, hhttp, hr⟩ := transmit_cases (challenge, info) (by rw [hneeds]; rfl) h
    have hchallenge : s.http.b64EuiccChallenge = some challenge := by rw [hneeds]
    have hinfo : s.http.b64EuiccInfo1 = some info := by rw [hneeds]
    obtain ⟨log, hlog, hsaid⟩ := initiateAuthentication_says hchallenge hinfo hx
    exact ⟨_, log, rfl, hlog, hsaid, hhttp, hr⟩
  | authenticateServer =>
    rw [perform] at h
    obtain ⟨id, param, hneeds⟩ := hready
    obtain ⟨a, hx, hhttp, hr⟩ := transmit_cases param (by rw [hneeds]; rfl) h
    have hparam : s.http.authenticateServerParam = some param := by rw [hneeds]
    obtain ⟨log, hlog, hsaid⟩ := authenticateServer_says hparam hx
    exact ⟨_, log, rfl, hlog, hsaid, hhttp, hr⟩
  | authenticateClient =>
    rw [perform] at h
    obtain ⟨id, idBin, response, hneeds⟩ := hready
    obtain ⟨a, hx, hhttp, hr⟩ := transmit_cases response (by rw [hneeds]; rfl) h
    obtain ⟨log, hlog, hsaid⟩ := authenticateClient_says (by rw [hneeds]) hx
    exact ⟨_, log, rfl, hlog, hsaid, hhttp, hr⟩
  | prepareDownload =>
    rw [perform] at h
    obtain ⟨id, idBin, param, hneeds, -⟩ := hready
    obtain ⟨a, hx, hhttp, hr⟩ := transmit_cases param (by rw [hneeds]; rfl) h
    have hparam : s.http.prepareDownloadParam = some param := by rw [hneeds]
    obtain ⟨log, hlog, hsaid⟩ := prepareDownload_says hparam hx
    exact ⟨_, log, rfl, hlog, hsaid, hhttp, hr⟩
  | getBoundProfilePackage =>
    rw [perform] at h
    obtain ⟨id, idBin, response, hneeds⟩ := hready
    obtain ⟨a, hx, hhttp, hr⟩ := transmit_cases response (by rw [hneeds]; rfl) h
    obtain ⟨log, hlog, hsaid⟩ := getBoundProfilePackage_says (by rw [hneeds]) hx
    exact ⟨_, log, rfl, hlog, hsaid, hhttp, hr⟩
  | loadBoundProfilePackage =>
    rw [perform] at h
    obtain ⟨id, idBin, package, hneeds⟩ := hready
    obtain ⟨a, hx, hhttp, hr⟩ := transmit_cases package (by rw [hneeds]) h
    obtain ⟨log, hlog, hall, hpieces⟩ := load_log hx
    refine ⟨_, log, rfl, hlog, ?_, hhttp, hr⟩
    refine .loadBoundProfilePackage (by rw [hneeds]) hall fun hsome => ?_
    obtain ⟨_, rfl⟩ := Option.isSome_iff_exists.1 hsome
    exact hpieces rfl

/-! ## The whole run -/

theorem cancelPoint_cases {part : Part} {α : Type} {x : Program (Session σ) α} {r : Option α}
    (h : (do cancelPoint around part; x) s = some (t, r)) :
    (around.interrupted part = true ∧ t = s ∧ r = none) ∨
      (around.interrupted part = false ∧ x s = some (t, r)) := by
  cases hpart : around.interrupted part with
  | true =>
    simp only [cancelPoint, hpart, if_true] at h
    cases h
    exact .inl ⟨rfl, rfl, rfl⟩
  | false =>
    simp only [cancelPoint, hpart, Bool.false_eq_true, if_false] at h
    exact .inr ⟨rfl, h⟩

/-- **The preview** shows the metadata, and ends in the same context. -/
theorem preview_says (hready : Ready (some .preview) s.http)
    (h : preview c around options s = some (t, r)) :
    ∃ log, t.dialogue.log = s.dialogue.log ++ log ∧ t.http = s.http ∧
      ((r = some () ∧ Went c around options [.preview] s.http t.http log) ∨
        (r = none ∧ Stopped c around options .preview s.http t.http log)) := by
  obtain ⟨id, idBin, param, hhttp, hne⟩ := hready
  have hparam : s.http.prepareDownloadParam = some param := by rw [hhttp]
  rw [preview, hparam] at h
  simp only at h
  split at h
  · rename_i hnull
    exact absurd hnull hne
  swap
  · cases h
  rename_i b64 htext
  obtain ⟨hinterrupted, rfl, rfl⟩ | ⟨hgoes, h⟩ := cancelPoint_cases h
  · exact ⟨[], by simp, rfl, .inr ⟨rfl, .interrupted hinterrupted⟩⟩
  obtain ⟨hparse, rfl⟩ | ⟨profileMetadata, u, hparse, h⟩ := bind_cases h
  · obtain ⟨a, hmetadata, hparse⟩ := Option.map_eq_some_iff.1 hparse
    cases hparse
    exact ⟨[], by simp, rfl, .inr ⟨rfl, .unreadable ⟨param, b64, hparam, htext, hmetadata⟩⟩⟩
  obtain ⟨a, hmetadata, hparse⟩ := Option.map_eq_some_iff.1 hparse
  cases hparse
  have hshown : Shown s.http (some profileMetadata) := ⟨param, b64, hparam, htext, hmetadata⟩
  obtain ⟨hprint, rfl⟩ | ⟨_, u, hprint, h⟩ := bind_cases h
  · cases hprint
  cases hprint
  refine ⟨[.print (previewLine c profileMetadata)], ?_⟩
  cases hasked : options.interactivePreview && !around.consents with
  | true =>
    rw [hasked, if_pos rfl] at h
    cases h
    rw [Bool.and_eq_true, Bool.not_eq_true'] at hasked
    exact ⟨rfl, rfl, .inr ⟨rfl, .rejected hshown hasked.1 hasked.2⟩⟩
  | false =>
    rw [hasked, if_neg (by decide)] at h
    cases h
    refine ⟨rfl, rfl, .inl ⟨rfl, .preview hgoes hshown (fun hinteractive => ?_) .nil⟩⟩
    simpa [hinteractive] using hasked

/-- **A part** of a run goes to its end, and what the next part needs is pending, or the run stops
there. -/
theorem performPart_says {part : Part} (hready : Ready (some part) s.http)
    (h : performPart c p around options part s = some (t, r)) :
    ∃ log, t.dialogue.log = s.dialogue.log ++ log ∧
      ((r = some () ∧ Ready part.next t.http ∧ Went c around options [part] s.http t.http log) ∨
        (r = none ∧ Stopped c around options part s.http t.http log)) := by
  cases part with
  | preview =>
    obtain ⟨log, hlog, hhttp, ⟨hr, hwent⟩ | ⟨hr, hstopped⟩⟩ := preview_says hready h
    · exact ⟨log, hlog, .inl ⟨hr, hhttp ▸ hready, hwent⟩⟩
    · exact ⟨log, hlog, .inr ⟨hr, hstopped⟩⟩
  | call step =>
    obtain ⟨hinterrupted, rfl, rfl⟩ | ⟨hgoes, h⟩ := cancelPoint_cases h
    · exact ⟨[], by simp, .inr ⟨rfl, .interrupted hinterrupted⟩⟩
    obtain ⟨call, log, hstep, hlog, hsaid, hhttp, hr⟩ := perform_says hready h
    refine ⟨log, hlog, ?_⟩
    rw [hhttp]
    cases hsuccess : (call.run s.http).2.success with
    | true =>
      rw [hsuccess] at hr
      refine .inl ⟨hr, ready_next hready hstep hsaid hsuccess, ?_⟩
      rw [← List.append_nil log]
      exact .call hstep hgoes hsaid hsuccess .nil
    | false =>
      rw [hsuccess] at hr
      exact .inr ⟨hr, .call hstep hsaid hsuccess⟩

theorem Went.append {parts parts' : List Part} {http http' http'' : HttpContext}
    {log log' : List Exchange} (h : Went c around options parts http http' log)
    (h' : Went c around options parts' http' http'' log') :
    Went c around options (parts ++ parts') http http'' (log ++ log') := by
  induction h with
  | nil => exact h'
  | call hstep hgoes hsaid hsuccess _ ih =>
    rw [List.append_assoc]
    exact .call hstep hgoes hsaid hsuccess (ih h')
  | preview hgoes hshown hconsents _ ih => exact .preview hgoes hshown hconsents (ih h')

/-- The first part of a list, or the end. -/
def InOrder : Option Part → List Part → Prop
  | next, [] => next = none
  | next, part :: parts => next = some part ∧ InOrder part.next parts

/-- What the parts of a run have said. -/
theorem parts_log {next : Option Part} {parts : List Part} (horder : InOrder next parts)
    (hready : Ready next s.http)
    (h : Program.each (performPart c p around options) parts s = some (t, r)) :
    ∃ log, t.dialogue.log = s.dialogue.log ++ log ∧
      ((r = some () ∧ Went c around options parts s.http t.http log) ∨
        r = none ∧ ∃ done part rest http said last, parts = done ++ part :: rest ∧
          log = said ++ last ∧ Went c around options done s.http http said ∧
          Ready (some part) http ∧ Stopped c around options part http t.http last) := by
  induction parts generalizing next s with
  | nil =>
    cases h
    exact ⟨[], by simp, .inl ⟨rfl, .nil⟩⟩
  | cons part parts ih =>
    obtain ⟨rfl, horder⟩ := horder
    obtain ⟨hpart, rfl⟩ | ⟨_, u, hpart, h⟩ := bind_cases h
    · obtain ⟨log, hlog, ⟨hr, -⟩ | ⟨-, hstopped⟩⟩ := performPart_says hready hpart
      · cases hr
      · exact ⟨log, hlog,
          .inr ⟨rfl, [], part, parts, s.http, [], log, rfl, rfl, .nil, hready, hstopped⟩⟩
    · obtain ⟨log, hlog, ⟨-, hnext, hwent⟩ | ⟨hr, -⟩⟩ := performPart_says hready hpart
      swap
      · cases hr
      obtain ⟨log', hlog', hrest⟩ := ih horder hnext h
      refine ⟨log ++ log', by rw [hlog', hlog, List.append_assoc], ?_⟩
      obtain ⟨hr, hwent'⟩ | ⟨hr, done, x, rest, http, said, last, rfl, rfl, hdone, hstopped⟩ :=
        hrest
      · exact .inl ⟨hr, hwent.append hwent'⟩
      · exact .inr ⟨hr, part :: done, x, rest, http, log ++ said, last, rfl, by simp,
          hwent.append hdone, hstopped⟩

/-- The parts behind the authentication of the server. -/
def Part.inTransaction : Part → Bool
  | .call .getEuiccChallengeAndInfo => false
  | .call .initiateAuthentication => false
  | .call .authenticateServer => false
  | _ => true

/-- The card has begun a transaction before just these parts. -/
theorem Ready.transactionIdBin {part : Part} {http : HttpContext}
    (hready : Ready (some part) http) :
    http.transactionIdBin.isSome = part.inTransaction := by
  cases part with
  | preview => obtain ⟨id, idBin, param, rfl, -⟩ := hready; rfl
  | call step =>
    cases step with
    | getEuiccChallengeAndInfo => cases hready; rfl
    | initiateAuthentication => obtain ⟨challenge, info, rfl⟩ := hready; rfl
    | authenticateServer => obtain ⟨id, param, rfl⟩ := hready; rfl
    | authenticateClient => obtain ⟨id, idBin, response, rfl⟩ := hready; rfl
    | prepareDownload => obtain ⟨id, idBin, param, rfl, -⟩ := hready; rfl
    | getBoundProfilePackage => obtain ⟨id, idBin, response, rfl⟩ := hready; rfl
    | loadBoundProfilePackage => obtain ⟨id, idBin, package, rfl⟩ := hready; rfl

/-- And so it has if the run stops at one of them. -/
theorem transactionIdBin_stopped {part : Part} {http http' : HttpContext} {log : List Exchange}
    (hready : Ready (some part) http) (h : Stopped c around options part http http' log) :
    http'.transactionIdBin.isSome = part.inTransaction := by
  cases h with
  | interrupted => exact hready.transactionIdBin
  | unreadable => exact hready.transactionIdBin
  | rejected => exact hready.transactionIdBin
  | @call call step _ _ hstep hsaid hfails =>
    cases hsaid with
    | noChallenge => cases hstep; cases hready; rfl
    | noInfo => cases hstep; cases hready; rfl
    | challengeAndInfo => cases hstep; cases hready; rfl
    | @initiateAuthentication _ _ answer =>
      cases hstep
      obtain ⟨challenge, info, rfl⟩ := hready
      cases (readInitiate c answer).2 <;> rfl
    | noAuthenticateServer => cases hstep; obtain ⟨id, param, rfl⟩ := hready; rfl
    | @authenticateServer _ _ _ _ r =>
      cases hstep
      obtain ⟨id, param, rfl⟩ := hready
      cases r with
      | none => rfl
      | some r => cases hfails
    | @authenticateClient _ _ r =>
      cases hstep
      obtain ⟨id, idBin, response, rfl⟩ := hready
      cases r.2 <;> rfl
    | @authenticateClientTwice _ _ _ r =>
      cases hstep
      obtain ⟨id, idBin, response, rfl⟩ := hready
      cases r.2 <;> rfl
    | noPrepareDownload => cases hstep; obtain ⟨id, idBin, param, rfl, -⟩ := hready; rfl
    | @prepareDownload _ _ _ r =>
      cases hstep
      obtain ⟨id, idBin, param, rfl, -⟩ := hready
      cases r <;> rfl
    | @getBoundProfilePackage _ answer =>
      cases hstep
      obtain ⟨id, idBin, response, rfl⟩ := hready
      cases readPackage c answer <;> rfl
    | loadBoundProfilePackage =>
      cases hstep
      obtain ⟨id, idBin, package, rfl⟩ := hready
      rfl

theorem cancelSession_says {http : HttpContext} {d t : Dialogue σ} {r : Option Unit}
    (h : cancelSession c p options http d = some (t, r)) :
    ∃ log, t.log = d.log ++ log ∧ Cancels c options http log := by
  rw [cancelSession] at h
  cases hid : http.transactionIdBin with
  | none =>
    rw [hid] at h
    cases h
    exact ⟨[], by simp, .nothing (by rw [hid]; rfl)⟩
  | some transactionId =>
    rw [hid] at h
    simp only [es10bCancelSession, Option.isSome_none, Bool.false_eq_true, if_false] at h
    by_cases hne : transactionId = []
    · rw [if_pos (by rw [hne]; rfl)] at h
      cases h
      exact ⟨[], by simp, .nothing (by rw [hid, hne]; rfl)⟩
    rw [if_neg (by rwa [List.length_eq_zero_iff])] at h
    cases hrequest : cancelSessionRequest transactionId .endUserRejection with
    | none =>
      rw [es10bCancelSessionR, hrequest] at h
      cases h
      exact ⟨[], by simp, .tooLong hid hrequest⟩
    | some request =>
      rw [es10bCancelSessionR_eq _ hrequest] at h
      obtain ⟨hsend, rfl⟩ | ⟨b64, u, hsend, h⟩ := bind_cases h
      · obtain ⟨response, hlog, hnone⟩ := send_liftFault hsend
        exact ⟨_, hlog, .unanswered hid hne hrequest hnone.symm⟩
      · obtain ⟨response, hlog, hread⟩ := send_liftFault hsend
        obtain ⟨respbuf, rfl, hb64⟩ := response_of_read hread
        have hpost : ∃ answer, t.log = u.log ++ [sessionPost c options http (ascii "cancelSession")
            (ascii "cancelSessionResponse") b64 answer] := by
          obtain ⟨hpost, -⟩ | ⟨answer, v, hpost, h⟩ := bind_cases h
          · exact ⟨none, post_log hpost⟩
          · cases h
            exact ⟨some answer, post_log hpost⟩
        obtain ⟨answer, hlog'⟩ := hpost
        exact ⟨_, by rw [hlog', hlog, List.append_assoc]; rfl, .posted hid hne hrequest hb64⟩

/-- What is said in a run that has ended with `r`. If it returns, it has gone through all the parts.
If not, it has gone through some of them, in order, and stopped at the next one; then it has
cancelled the transaction if the card has begun one. -/
def Told (c : CJson) (around : Surroundings) (options : DownloadOptions) (r : Option Unit)
    (log : List Exchange) : Prop :=
  (r = some () ∧ ∃ http, Went c around options Part.all .init http log) ∨
    r = none ∧ ∃ done part rest http http' said last cancellation,
      Part.all = done ++ part :: rest ∧ log = said ++ last ++ cancellation ∧
      Went c around options done .init http said ∧
      Stopped c around options part http http' last ∧ Cancels c options http' cancellation ∧
      http'.transactionIdBin.isSome = part.inTransaction

/-- A card that answers every command in the same way each time. -/
def appletCard (request : Bytes) : Bytes :=
  if request = pack 0xBF2E [] then Der.tlv 0xBF2E (Der.tlv 0x80 [7])
  else if request = pack 0xBF20 [] then Der.tlv 0xBF20 []
  else if [0xBF, 0x38] <+: request then Der.tlv 0xBF38 []
  else if [0xBF, 0x41] <+: request then Der.tlv 0xBF41 []
  else []

/-- The members of every answer of the server. -/
def appletAnswer : List (Bytes × Json) :=
  [(ascii "header", .object [(ascii "functionExecutionStatus", .null)]),
    (ascii "transactionId", .string (ascii "AB")),
    (ascii "serverSigned1", .string (base64Encode (Der.tlv 0x30 (Der.tlv 0x80 [0xAB])))),
    (ascii "serverSignature1", .string (base64Encode (Der.tlv 0x5F37 []))),
    (ascii "euiccCiPKIdToBeUsed", .string (base64Encode (Der.tlv 0x04 []))),
    (ascii "serverCertificate", .string (base64Encode (Der.tlv 0x30 []))),
    (ascii "profileMetadata", .string (base64Encode (Der.tlv 0xBF25 (Der.tlv 0x5A [0x98])))),
    (ascii "smdpSigned2",
      .string (base64Encode (Der.tlv 0x30 (Der.tlv 0x80 [0xAB] ++ Der.tlv 0x01 [0])))),
    (ascii "smdpSignature2", .string (base64Encode (Der.tlv 0x5F37 []))),
    (ascii "smdpCertificate", .string (base64Encode (Der.tlv 0x30 []))),
    (ascii "boundProfilePackage", .string (base64Encode (Der.tlv 0xBF36
      (Der.tlv 0xBF23 [] ++ Der.tlv 0xA0 [] ++ Der.tlv 0xA1 [] ++ Der.tlv 0xA3 []))))]

/-- A JSON library that reads this answer from every text. -/
def appletJson : CJson := ⟨fun _ => [], fun _ => some (.object appletAnswer)⟩

def appletPartner : Partner Unit where
  command request := fun s => some (s, some (appletCard request))
  transmit _ _ := fun s => some (s, some (200, []))

/-- Memory that was never written, and a user who types `getchar`. -/
def appletSurroundings (getchar : ℤ) : Surroundings :=
  ⟨⟨⟨.stale 0, .stale 0, .stale 0, .stale 0⟩, fun _ => none, fun _ => none⟩, sampleCtx,
    .replicate 8 0, fun _ => false, getchar⟩

/-- `download -s smdp -p`. -/
def appletOptions : DownloadOptions := ⟨⟨ascii "smdp", none, none, none⟩, true⟩

def appletRun (getchar : ℤ) : Option (Dialogue Unit × Option Unit) :=
  download appletJson appletPartner (appletSurroundings getchar) appletOptions ⟨(), []⟩

/-- With `y` the profile is downloaded, and with `n` the session is cancelled. -/
theorem appletRun_result : (appletRun 0x79).map Prod.snd = some (some ()) ∧
    (appletRun 0x6E).map Prod.snd = some none := by
  decide +kernel

end VirtualRsp.Lpa.Download
