import VirtualRsp.Foundations.FileTree
import VirtualRsp.Smdp.Sessions

/-!
# The files of the profiles

The server keeps the profiles as files in a directory. The names come from outside: the matching
identifier that a card has signed, the header of an upload, the path of a deletion. A card's name is
checked by the text of its real path, character by character; the name of an upload is only checked
for its ending; the name of a deletion is one part of the path of the request, without a slash.

* `Site`, `serveSite`: the server with its files, and what a request does to both;
* `touched`: the files that are opened, written or removed because of a name;
* `touched_inside`: when they all lie inside the directory.
-/

namespace VirtualRsp.Smdp.Es9

open JsonText Run FileTree

variable {Cert Asn : Type} (cfg : Config Cert Asn) (n : ℕ) (uppDir : Location)

/-! ## The functions -/

/-- The path of a profile. -/
def profilePath (matchingId : String) : List Char :=
  join (text uppDir) matchingId.toList ++ ".der".toList

/-- The files of a tree as a request sees them: the check of a path, whether there is a readable
file, and reading it. -/
def fileEnv (files : Tree) (env : Env) : Env := { env with
  uppInside := fun matchingId =>
    let path := profilePath uppDir matchingId
    (if Char.ofNat 0 ∈ path then none else realpath files n [] (components path)).any fun real =>
      commonprefix (text real) (text uppDir) = text uppDir
  uppReadable := fun matchingId => (files.read n (profilePath uppDir matchingId)).isSome
  uppRead := fun matchingId => (files.read n (profilePath uppDir matchingId)).map (·.2) }

/-- The profile that an authentication asks for: the one that its card has signed, when the message
has been verified. -/
def requestedProfile (content : Value) (rss : SessionStore Cert) : Except Failure String := do
  let transactionId ← orRaise (getItem "transactionId" content)
  let (euiccSigned1Bin, ok, euiccCert, eumCert) ← readAuthentication cfg content
  let transactionId ← orRaise (asStr transactionId)
  match rss transactionId with
  | none => throw (apiError "8.10.1" "3.9" "Unknown")
  | some ss =>
    let _ ← verifyAuthentication cfg ss euiccSigned1Bin ok euiccCert eumCert
    match ok.euiccSigned1.ctxParams1 with
    | .ctxParamsForCommonAuthentication matchingId => do
      let matchingId := matchingId.getD ""
      require (matchingId ≠ "") .exception
      return matchingId
    | .other => throw .exception

/-- The profile that an authentication opens, behind all checks. -/
def authenticatedProfile (env : Env) (content : Value) (rss : SessionStore Cert) :
    Except Failure String := do
  let matchingId ← requestedProfile cfg content rss
  require (env.uppInside matchingId) .exception
  require (env.uppReadable matchingId) .exception
  return matchingId

/-- The profile that a download opens. -/
def downloadedProfile (env : Env) (content : Value) (rss : SessionStore Cert) :
    Except Failure String := do
  let (_, ss, euiccSigned2) ← verifyDownload cfg content rss
  let _ ← orRaise (env.smdpOtExchange euiccSigned2.euiccOtpk)
  orRaise ss.matchingId

/-- The profile that a request opens. -/
def openedProfile (env : Env) (request : Request) (s : Server Cert) : Except Failure String := do
  validateRequestHeaders request
  let content ← orRaise request.content
  match request.endpoint with
  | .authenticateClient => authenticatedProfile cfg env content s.rss
  | .getBoundProfilePackage => downloadedProfile cfg env content s.rss
  | _ => throw .exception

/-- `mno_upload_profile`: the answer, the files, and the file that has been written. -/
def mnoUploadProfile (files : Tree) (filename : Option String) (content : Bytes) :
    Option (ℕ × String) × Tree × Option Location :=
  match filename with
  | none => (some (400, "Invalid filename"), files, none)
  | some filename =>
    if filename = "" ∨ ¬ ".der".toList <:+ filename.toList then
      (some (400, "Invalid filename"), files, none)
    else
      match files.write n (join (text uppDir) filename.toList) content with
      | none => (none, files, none)
      | some (files, loc) => (some (201, "Profile uploaded"), files, some loc)

/-- `mno_delete_profile`. -/
def mnoDeleteProfile (files : Tree) (matchingId : String) :
    Option (ℕ × String) × Tree × Option Location :=
  let path := join (text uppDir) (matchingId.toList ++ ".der".toList)
  if (locate files n path).any fun loc => (files.entry loc).isSome then
    match files.remove n path with
    | none => (none, files, none)
    | some (files, loc) => (some (200, "Profile deleted"), files, some loc)
  else (some (404, "Profile not found"), files, none)

/-- What a route takes for `<matching_id>`: a part of the path, which has no slash. -/
structure PathPart where
  text : String
  ne : text ≠ ""
  noSlash : '/' ∉ text.toList

/-- The server and its files. -/
structure Site (Cert : Type) where
  files : Tree
  server : Server Cert

/-- A request to one of the interfaces. -/
inductive SiteRequest
  | es9 (env : Env) (request : Request)
  | mnoUploadProfile (filename : Option String) (content : Bytes)
  | mnoDeleteProfile (matchingId : PathPart)

/-- Serve a request. -/
def serveSite (s : Site Cert) : SiteRequest → Site Cert
  | .es9 env request =>
    { s with server := (serve cfg (fileEnv n uppDir s.files env) request s.server).2 }
  | .mnoUploadProfile filename content =>
    { s with files := (mnoUploadProfile n uppDir s.files filename content).2.1 }
  | .mnoDeleteProfile matchingId =>
    { s with files := (mnoDeleteProfile n uppDir s.files matchingId.text).2.1 }

/-- The files that a request opens, writes or removes because of a name. -/
def touched (s : Site Cert) : SiteRequest → List Location
  | .es9 env request =>
    match openedProfile cfg (fileEnv n uppDir s.files env) request s.server with
    | .error _ => []
    | .ok matchingId => ((s.files.read n (profilePath uppDir matchingId)).map (·.1)).toList
  | .mnoUploadProfile filename content =>
    (mnoUploadProfile n uppDir s.files filename content).2.2.toList
  | .mnoDeleteProfile matchingId => (mnoDeleteProfile n uppDir s.files matchingId.text).2.2.toList

/-- A step of the server. -/
def siteStep (s : Site Cert) (r : SiteRequest) : Option (Site Cert) :=
  some (serveSite cfg n uppDir s r)

/-! ## What is opened -/

section Opened

variable {cfg} {env : Env} {content : Value} {rss : SessionStore Cert} {request : Request}
  {s : Server Cert} {matchingId : String}

theorem bind_congr_ok {α β : Type} {x : Except Failure α} {f g : α → Except Failure β}
    (h : ∀ a, x = .ok a → f a = g a) : x >>= f = x >>= g := by
  cases x with
  | error e => rfl
  | ok a => exact h a rfl

/-- The matching identifier that a card has signed. -/
def signedMatchingId (ctxParams1 : CtxParams1) : Option String :=
  match ctxParams1 with
  | .ctxParamsForCommonAuthentication matchingId => matchingId
  | .other => none

/-- What an authentication opens is what it has asked for, and has passed the checks. -/
theorem authenticatedProfile_eq_ok : authenticatedProfile cfg env content rss = .ok matchingId ↔
    requestedProfile cfg content rss = .ok matchingId ∧ env.uppInside matchingId = true ∧
      env.uppReadable matchingId = true := by
  constructor
  · intro h
    obtain ⟨_, hrequested, h⟩ := bind_ok h
    obtain ⟨_, hinside, h⟩ := bind_ok h
    obtain ⟨_, hreadable, h⟩ := bind_ok h
    cases h
    exact ⟨hrequested, require_ok hinside, require_ok hreadable⟩
  · rintro ⟨hrequested, hinside, hreadable⟩
    simp only [authenticatedProfile, hrequested, bind, Except.bind, hinside, hreadable]
    rfl

theorem selectProfile_congr {read : String → Option Bytes} {ctxParams1 : CtxParams1}
    (h : ∀ matchingId, signedMatchingId ctxParams1 = some matchingId → matchingId ≠ "" →
      env.uppInside matchingId = true → env.uppReadable matchingId = true →
      read matchingId = env.uppRead matchingId) :
    selectProfile cfg { env with uppRead := read } ctxParams1 =
      selectProfile cfg env ctxParams1 := by
  cases ctxParams1 with
  | other => rfl
  | ctxParamsForCommonAuthentication id =>
    refine bind_congr_ok fun _ hne => ?_
    refine bind_congr_ok fun _ hinside => ?_
    refine bind_congr_ok fun _ hreadable => ?_
    cases id with
    | none => exact absurd rfl (of_decide_eq_true (require_ok hne))
    | some id =>
      have hread : read id = env.uppRead id :=
        h id rfl (of_decide_eq_true (require_ok hne)) (require_ok hinside) (require_ok hreadable)
      change (orRaise (read id) >>= _) = (orRaise (env.uppRead id) >>= _)
      rw [hread]

theorem authenticateSession_congr {read : String → Option Bytes}
    (h : ∀ matchingId, authenticatedProfile cfg env content rss = .ok matchingId →
      read matchingId = env.uppRead matchingId) :
    authenticateSession cfg { env with uppRead := read } content rss =
      authenticateSession cfg env content rss := by
  unfold authenticateSession
  refine bind_congr_ok fun tid htid => ?_
  refine bind_congr_ok fun ⟨bin, ok, euiccCert, eumCert⟩ hread => ?_
  refine bind_congr_ok fun tid' htid' => ?_
  cases hss : rss tid' with
  | none => rfl
  | some ss =>
    refine bind_congr_ok fun ss' hverify => ?_
    rw [selectProfile_congr]
    intro id hid hne hinside hreadable
    refine h id (authenticatedProfile_eq_ok.2 ⟨?_, hinside, hreadable⟩)
    simp only [requestedProfile, htid, hread, htid', hss, hverify, bind, Except.bind]
    cases hctx : ok.euiccSigned1.ctxParams1 with
    | other =>
      rw [hctx] at hid
      cases hid
    | ctxParamsForCommonAuthentication matchingId =>
      rw [hctx] at hid
      obtain rfl : matchingId = some id := hid
      have hname : decide (id ≠ "") = true := decide_eq_true hne
      simp only [Option.getD_some, hname]
      rfl

theorem prepareBinding_congr {read : String → Option Bytes} {ss : Session Cert}
    {euiccSigned2 : EuiccSigned2}
    (h : ∀ sharedSecret matchingId, env.smdpOtExchange euiccSigned2.euiccOtpk = some sharedSecret →
      ss.matchingId = some matchingId → read matchingId = env.uppRead matchingId) :
    prepareBinding { env with uppRead := read } ss euiccSigned2 =
      prepareBinding env ss euiccSigned2 := by
  refine bind_congr_ok fun sharedSecret hsecret => ?_
  refine bind_congr_ok fun matchingId hid => ?_
  have hread := h sharedSecret matchingId (orRaise_ok hsecret) (orRaise_ok hid)
  change (orRaise (read matchingId) >>= _) = (orRaise (env.uppRead matchingId) >>= _)
  rw [hread]

theorem getBoundProfilePackage_congr {read : String → Option Bytes}
    (h : ∀ matchingId, downloadedProfile cfg env content s.rss = .ok matchingId →
      read matchingId = env.uppRead matchingId) :
    getBoundProfilePackage cfg { env with uppRead := read } content s =
      getBoundProfilePackage cfg env content s := by
  unfold getBoundProfilePackage
  cases hverify : verifyDownload cfg content s.rss with
  | error failure => rfl
  | ok r =>
    obtain ⟨transactionId, ss, euiccSigned2⟩ := r
    dsimp only
    rw [prepareBinding_congr]
    · rfl
    intro sharedSecret matchingId hsecret hid
    apply h
    simp only [downloadedProfile, hverify, hsecret, hid, bind, Except.bind]
    rfl

/-- **The profile that is opened** is the only one whose content matters. -/
theorem serve_congr {read : String → Option Bytes}
    (h : ∀ matchingId, openedProfile cfg env request s = .ok matchingId →
      read matchingId = env.uppRead matchingId) :
    serve cfg { env with uppRead := read } request s = serve cfg env request s := by
  unfold serve
  cases hheaders : validateRequestHeaders request with
  | error failure => rfl
  | ok u =>
    cases hcontent : request.content with
    | none => rfl
    | some content =>
      dsimp only
      cases hendpoint : request.endpoint with
      | initiateAuthentication => rfl
      | handleNotification => rfl
      | cancelSession => rfl
      | authenticateClient =>
        rw [callFunction, callFunction, authenticateClient, authenticateClient,
          authenticateSession_congr]
        intro matchingId hopened
        apply h
        simp only [openedProfile, hheaders, hcontent, hendpoint, orRaise, bind, Except.bind]
        exact hopened
      | getBoundProfilePackage =>
        rw [callFunction, callFunction, getBoundProfilePackage_congr]
        intro matchingId hopened
        apply h
        simp only [openedProfile, hheaders, hcontent, hendpoint, orRaise, bind, Except.bind]
        exact hopened

/-! ## The profiles of sessions -/

/-- A session has a profile. -/
def HasProfile (rss : SessionStore Cert) (matchingId : String) : Prop :=
  ∃ transactionId ss, rss transactionId = some ss ∧ ss.matchingId = some matchingId

theorem HasProfile.of_update {transactionId : String} {ss : Option (Session Cert)}
    (h : HasProfile (Function.update rss transactionId ss) matchingId) :
    HasProfile rss matchingId ∨ ∃ ss', ss = some ss' ∧ ss'.matchingId = some matchingId := by
  obtain ⟨tid, ss', hss, hid⟩ := h
  obtain ⟨-, hss⟩ | hss := session_of_update hss
  · exact .inr ⟨ss', hss, hid⟩
  · exact .inl ⟨tid, ss', hss, hid⟩

theorem HasProfile.of_remove {transactionId : String}
    (h : HasProfile (Function.update rss transactionId none) matchingId) :
    HasProfile rss matchingId := by
  obtain h | ⟨ss, hss, -⟩ := h.of_update
  · exact h
  · cases hss

/-- An authentication stores the profile it has opened. -/
theorem authenticateSession_profile {output : Output} {transactionId : String} {ss : Session Cert}
    (h : authenticateSession cfg env content rss = .ok (output, transactionId, ss))
    (hid : ss.matchingId = some matchingId) :
    authenticatedProfile cfg env content rss = .ok matchingId := by
  unfold authenticateSession at h
  obtain ⟨tid, htid, h⟩ := bind_ok h
  obtain ⟨⟨bin, ok, euiccCert, eumCert⟩, hread, h⟩ := bind_ok h
  obtain ⟨tid', htid', h⟩ := bind_ok h
  split at h
  · cases h
  rename_i ss' hss
  obtain ⟨verified, hverify, h⟩ := bind_ok h
  obtain ⟨⟨id, iccid⟩, hselect, h⟩ := bind_ok h
  obtain ⟨metadata, -, h⟩ := bind_ok h
  obtain ⟨profileMetadataBin, -, h⟩ := bind_ok h
  obtain ⟨transactionIdBin, -, h⟩ := bind_ok h
  obtain ⟨smdpSigned2Bin, -, h⟩ := bind_ok h
  obtain ⟨signature, -, h⟩ := bind_ok h
  cases h
  cases hid
  cases hctx : ok.euiccSigned1.ctxParams1 with
  | other =>
    rw [hctx] at hselect
    cases hselect
  | ctxParamsForCommonAuthentication signed =>
    rw [hctx] at hselect
    obtain ⟨_, hne, hselect⟩ := bind_ok hselect
    obtain ⟨_, hinside, hselect⟩ := bind_ok hselect
    obtain ⟨_, hreadable, hselect⟩ := bind_ok hselect
    obtain ⟨der, -, hselect⟩ := bind_ok hselect
    obtain ⟨_, -, hselect⟩ := bind_ok hselect
    cases hselect
    refine authenticatedProfile_eq_ok.2 ⟨?_, require_ok hinside, require_ok hreadable⟩
    simp only [requestedProfile, htid, hread, htid', hss, hverify, bind, Except.bind, hctx,
      require_ok hne]
    rfl

theorem prepareBinding_matchingId {ss ss' : Session Cert} {euiccSigned2 : EuiccSigned2}
    {upp : UnprotectedProfilePackage} {clsDer : Option Bytes}
    (h : prepareBinding env ss euiccSigned2 = .ok (ss', upp, clsDer)) :
    ss'.matchingId = ss.matchingId := by
  unfold prepareBinding at h
  obtain ⟨sharedSecret, -, h⟩ := bind_ok h
  obtain ⟨matchingId, -, h⟩ := bind_ok h
  obtain ⟨der, -, h⟩ := bind_ok h
  cases h
  rfl

theorem getBoundProfilePackage_profile
    (h : HasProfile (getBoundProfilePackage cfg env content s).2.rss matchingId) :
    HasProfile s.rss matchingId := by
  unfold getBoundProfilePackage at h
  split at h
  · exact h
  rename_i transactionId ss euiccSigned2 hverify
  split at h
  · exact h
  rename_i ss' upp clsDer hprepare
  have hkept : ∀ matchingId,
      HasProfile (Function.update s.rss transactionId (some ss')) matchingId →
        HasProfile s.rss matchingId := by
    intro matchingId h
    obtain h | ⟨_, hss, hid⟩ := h.of_update
    · exact h
    · cases hss
      rw [prepareBinding_matchingId hprepare] at hid
      exact ⟨_, ss, (verifyDownload_ok hverify).1, hid⟩
  split at h
  · exact h
  dsimp only at h
  split at h
  · exact h
  split at h
  · exact hkept _ h
  · exact hkept _ h

theorem handleNotification_profile
    (h : HasProfile (handleNotification cfg content s).2.rss matchingId) :
    HasProfile s.rss matchingId := by
  unfold handleNotification at h
  split at h
  · exact h
  · dsimp only at h
    split at h
    · exact h
    · split at h
      · exact h
      · exact h
      · split at h
        · exact h
        · exact h.of_remove
  · split at h
    · exact h
    · exact h

theorem cancelSession_profile (h : HasProfile (cancelSession cfg content s).2.rss matchingId) :
    HasProfile s.rss matchingId := by
  unfold cancelSession at h
  split at h
  · exact h
  dsimp only at h
  split at h
  · exact h
  split at h
  · exact h
  · exact h
  · exact h
  · exact h.of_remove

/-- **The profiles of sessions** have been opened by authentications. -/
theorem serve_profile (h : HasProfile (serve cfg env request s).2.rss matchingId) :
    HasProfile s.rss matchingId ∨ request.endpoint = .authenticateClient ∧
      openedProfile cfg env request s = .ok matchingId := by
  unfold serve at h
  cases hheaders : validateRequestHeaders request with
  | error failure =>
    rw [hheaders] at h
    exact .inl h
  | ok u =>
    rw [hheaders] at h
    cases hcontent : request.content with
    | none =>
      rw [hcontent] at h
      exact .inl h
    | some content =>
      rw [hcontent] at h
      dsimp only at h
      cases hendpoint : request.endpoint with
      | initiateAuthentication =>
        rw [hendpoint, callFunction, initiateAuthentication] at h
        split at h
        · exact .inl h
        · rename_i output ss hnew
          obtain ⟨ciCertId, rfl, -⟩ := newSession_ok hnew
          obtain h | ⟨_, hss, hid⟩ := h.of_update
          · exact .inl h
          · cases hss
            cases hid
      | authenticateClient =>
        rw [hendpoint, callFunction, authenticateClient] at h
        split at h
        · exact .inl h
        · rename_i output transactionId ss hsession
          obtain h | ⟨_, hss, hid⟩ := h.of_update
          · exact .inl h
          · cases hss
            refine .inr ⟨rfl, ?_⟩
            simp only [openedProfile, hheaders, hcontent, hendpoint, orRaise, bind, Except.bind]
            exact authenticateSession_profile hsession hid
      | getBoundProfilePackage =>
        rw [hendpoint] at h
        exact .inl (getBoundProfilePackage_profile h)
      | handleNotification =>
        rw [hendpoint] at h
        exact .inl (handleNotification_profile h)
      | cancelSession =>
        rw [hendpoint] at h
        exact .inl (cancelSession_profile h)

end Opened

/-! ## Inside the directory -/

variable {cfg n uppDir} {files files' : Tree} {matchingId : String} {loc : Location}

/-- The text of the real path of a profile goes on with a slash behind the directory's, if it begins
with it. -/
def NoSibling (n : ℕ) (uppDir : Location) (files : Tree) (matchingId : String) : Prop :=
  ∀ real ∈ realpath files n [] (components (profilePath uppDir matchingId)),
    text uppDir <+: text real → join (text uppDir) [] <+: text real

instance (matchingId : String) : Decidable (NoSibling n uppDir files matchingId) :=
  inferInstanceAs (Decidable (∀ real ∈ realpath _ _ _ _, _ → _))

/-- The profile that a request asks for. -/
def Request.profile (cfg : Config Cert Asn) (s : Server Cert) (request : Request) :
    Except Failure String := do
  validateRequestHeaders request
  let content ← orRaise request.content
  match request.endpoint with
  | .authenticateClient => requestedProfile cfg content s.rss
  | _ => throw .exception

/-- A request keeps to the directory: a card's profile that can be read is not in a sibling whose
name only begins like the directory's; the name of an upload, if it is one, is relative, without
`..`, and there are no links on its way. Every deletion keeps to the directory. -/
def KeepsTo (cfg : Config Cert Asn) (n : ℕ) (uppDir : Location) (s : Site Cert) :
    SiteRequest → Prop
  | .es9 _ request => ∀ matchingId, request.profile cfg s.server = .ok matchingId →
    (s.files.read n (profilePath uppDir matchingId)).isSome → NoSibling n uppDir s.files matchingId
  | .mnoUploadProfile filename _ => ∀ name ∈ filename, ".der".toList <:+ name.toList →
    name.toList.head? ≠ some '/' ∧ Plain s.files uppDir (components name.toList)
  | .mnoDeleteProfile _ => True

instance (s : Site Cert) (r : SiteRequest) : Decidable (KeepsTo cfg n uppDir s r) :=
  match r with
  | .es9 _ request =>
    match h : request.profile cfg s.server with
    | .error _ => .isTrue fun _ hid => nomatch h.symm.trans hid
    | .ok matchingId => decidable_of_iff
      ((s.files.read n (profilePath uppDir matchingId)).isSome →
        NoSibling n uppDir s.files matchingId)
      ⟨fun hk _ hid => Except.ok.inj (h.symm.trans hid) ▸ hk, fun hk => hk matchingId h⟩
  | .mnoUploadProfile filename _ =>
    inferInstanceAs (Decidable (∀ name ∈ filename, _ → _ ∧ _))
  | .mnoDeleteProfile _ => .isTrue trivial

theorem locate_eq_some {path : List Char} (h : locate files n path = some loc) :
    ¬ Char.ofNat 0 ∈ path ∧ resolve files n [] (components path) = some loc := by
  rw [locate] at h
  split_ifs at h with hnul
  exact ⟨hnul, h⟩

/-- **The check of a card's name** lets it open a file in the directory, or in a sibling. -/
theorem opened_inside_iff {env : Env} {content : Bytes}
    (hcheck : (fileEnv n uppDir files env).uppInside matchingId = true)
    (hread : files.read n (profilePath uppDir matchingId) = some (loc, content)) :
    Inside uppDir loc ↔ NoSibling n uppDir files matchingId := by
  obtain ⟨hlocate, hentry⟩ := read_eq_some hread
  obtain ⟨hnul, hresolve⟩ := locate_eq_some hlocate
  have hreal := realpath_of_resolve hresolve
  have hprefix : text uppDir <+: text loc := by
    obtain ⟨real, hsome, heq⟩ := (Option.any_eq_true _ _).1 hcheck
    rw [if_neg hnul, hreal] at hsome
    cases hsome
    exact commonprefix_eq_right.1 (of_decide_eq_true heq)
  have hroot : loc ≠ [] := by
    rintro rfl
    cases hentry
  rw [← join_text_prefix_iff uppDir hroot]
  constructor
  · intro h real hsome _
    rw [Option.mem_def, hreal] at hsome
    cases hsome
    exact h
  · exact fun h => h loc hreal hprefix

/-- What holds between requests: there is no link on the way to the directory, and the profiles of
sessions are found inside it, or not at all. -/
structure SiteInv (n : ℕ) (uppDir : Location) (s : Site Cert) : Prop where
  plain : Plain s.files [] (downTo uppDir)
  sessions : ∀ matchingId, HasProfile s.server.rss matchingId →
    ∀ loc, locate s.files n (profilePath uppDir matchingId) = some loc → Inside uppDir loc

/-- Changes inside the directory keep the invariant. -/
theorem SiteInv.changes {s : Site Cert} (h : SiteInv n uppDir s)
    (hc : Changes uppDir s.files files') : SiteInv n uppDir { s with files := files' } where
  plain := hc.plain h.plain
  sessions := by
    intro matchingId hid loc hloc
    obtain ⟨hnul, hresolve⟩ := locate_eq_some hloc
    obtain hbefore | hinside := resolve_changes hc hresolve
    · refine h.sessions matchingId hid loc ?_
      rw [locate, if_neg hnul]
      exact hbefore
    · exact hinside

theorem der_parts (path : List Char) : components (path ++ ".der".toList) ≠ [] :=
  components_ne_nil (by decide) (by decide) path

/-- What is opened has been asked for and has passed the checks, or is the profile of a session. -/
theorem openedProfile_cases {env : Env} {request : Request} {s : Server Cert}
    (h : openedProfile cfg env request s = .ok matchingId) :
    (request.profile cfg s = .ok matchingId ∧ env.uppInside matchingId = true ∧
      env.uppReadable matchingId = true) ∨
    (request.endpoint = .getBoundProfilePackage ∧ HasProfile s.rss matchingId) := by
  unfold openedProfile at h
  obtain ⟨_, hheaders, h⟩ := bind_ok h
  obtain ⟨content, hcontent, h⟩ := bind_ok h
  cases hendpoint : request.endpoint with
  | authenticateClient =>
    rw [hendpoint] at h
    obtain ⟨hrequested, hinside, hreadable⟩ := authenticatedProfile_eq_ok.1 h
    refine .inl ⟨?_, hinside, hreadable⟩
    simp only [Request.profile, hheaders, hcontent, hendpoint, bind, Except.bind]
    exact hrequested
  | getBoundProfilePackage =>
    rw [hendpoint] at h
    obtain ⟨⟨transactionId, ss, euiccSigned2⟩, hverify, h⟩ := bind_ok h
    obtain ⟨_, -, h⟩ := bind_ok h
    exact .inr ⟨rfl, transactionId, ss, (verifyDownload_ok hverify).1, orRaise_ok h⟩
  | initiateAuthentication =>
    rw [hendpoint] at h
    cases h
  | handleNotification =>
    rw [hendpoint] at h
    cases h
  | cancelSession =>
    rw [hendpoint] at h
    cases h

/-- A card's profile is opened once it has passed the checks. -/
theorem openedProfile_of_profile {env : Env} {request : Request} {s : Server Cert}
    (h : request.profile cfg s = .ok matchingId) (hinside : env.uppInside matchingId = true)
    (hreadable : env.uppReadable matchingId = true) :
    openedProfile cfg env request s = .ok matchingId := by
  unfold Request.profile at h
  obtain ⟨_, hheaders, h⟩ := bind_ok h
  obtain ⟨content, hcontent, h⟩ := bind_ok h
  split at h
  · rename_i hendpoint
    simp only [openedProfile, hheaders, hcontent, hendpoint, bind, Except.bind]
    exact authenticatedProfile_eq_ok.2 ⟨h, hinside, hreadable⟩
  · cases h

/-- A card's profile that has passed the checks is found inside the directory. -/
theorem checked_inside {env : Env}
    (hcheck : (fileEnv n uppDir files env).uppInside matchingId = true)
    (hreadable : (fileEnv n uppDir files env).uppReadable matchingId = true)
    (h : NoSibling n uppDir files matchingId)
    (hloc : locate files n (profilePath uppDir matchingId) = some loc) : Inside uppDir loc := by
  obtain ⟨⟨loc', content⟩, hread⟩ := Option.isSome_iff_exists.1 hreadable
  have hlocate := (read_eq_some hread).1
  rw [hloc] at hlocate
  cases hlocate
  exact (opened_inside_iff hcheck hread).2 h

/-- A request of a card or an LPA. -/
theorem es9_step {s : Site Cert} {env : Env} {request : Request} (hinv : SiteInv n uppDir s)
    (hkeeps : KeepsTo cfg n uppDir s (.es9 env request)) :
    (∀ loc ∈ touched cfg n uppDir s (.es9 env request), Inside uppDir loc) ∧
      SiteInv n uppDir (serveSite cfg n uppDir s (.es9 env request)) := by
  have hopened : ∀ matchingId,
      openedProfile cfg (fileEnv n uppDir s.files env) request s.server = .ok matchingId →
      ∀ loc, locate s.files n (profilePath uppDir matchingId) = some loc → Inside uppDir loc := by
    intro matchingId h loc hloc
    obtain ⟨hrequested, hcheck, hreadable⟩ | ⟨-, hsession⟩ := openedProfile_cases h
    · exact checked_inside hcheck hreadable (hkeeps matchingId hrequested hreadable) hloc
    · exact hinv.sessions matchingId hsession loc hloc
  constructor
  · intro loc hloc
    rw [touched] at hloc
    split at hloc
    · cases hloc
    · rename_i matchingId h
      rw [Option.mem_toList] at hloc
      obtain ⟨⟨loc', content⟩, hread, rfl⟩ := Option.map_eq_some_iff.1 hloc
      exact hopened matchingId h loc' (read_eq_some hread).1
  · refine ⟨hinv.plain, fun matchingId hid loc hloc => ?_⟩
    obtain hbefore | ⟨-, h⟩ := serve_profile hid
    · exact hinv.sessions matchingId hbefore loc hloc
    · exact hopened matchingId h loc hloc

/-- An upload under a plain name writes inside the directory. -/
theorem mnoUploadProfile_inside {filename : Option String} {content : Bytes}
    (hplain : Plain files [] (downTo uppDir))
    (hkeeps : ∀ name ∈ filename, ".der".toList <:+ name.toList →
      name.toList.head? ≠ some '/' ∧ Plain files uppDir (components name.toList)) :
    (∀ loc ∈ (mnoUploadProfile n uppDir files filename content).2.2, Inside uppDir loc) ∧
      Changes uppDir files (mnoUploadProfile n uppDir files filename content).2.1 := by
  unfold mnoUploadProfile
  split
  · exact ⟨by simp, .refl _ _⟩
  rename_i name
  split
  · exact ⟨by simp, .refl _ _⟩
  rename_i hname
  split
  · exact ⟨by simp, .refl _ _⟩
  rename_i after loc hwrite
  have hder : ".der".toList <:+ name.toList := not_not.1 fun h => hname (.inr h)
  obtain ⟨hrel, hpath⟩ := hkeeps name rfl hder
  obtain ⟨hloc, readable, rfl⟩ := write_eq_some hwrite
  have hne : components name.toList ≠ [] := by
    obtain ⟨pre, hpre⟩ := hder
    rw [← hpre]
    exact der_parts pre
  have hinside := locate_inside hplain hrel hne hpath hloc
  refine ⟨?_, .update hinside (.inr ⟨content, readable, rfl⟩)⟩
  rintro l hl
  cases hl
  exact hinside

/-- A deletion removes inside the directory. -/
theorem mnoDeleteProfile_inside (hplain : Plain files [] (downTo uppDir)) (part : PathPart) :
    (∀ loc ∈ (mnoDeleteProfile n uppDir files part.text).2.2, Inside uppDir loc) ∧
      Changes uppDir files (mnoDeleteProfile n uppDir files part.text).2.1 := by
  unfold mnoDeleteProfile
  dsimp only
  split
  · split
    · exact ⟨by simp, .refl _ _⟩
    rename_i after loc hremove
    have hslash : '/' ∉ part.text.toList ++ ".der".toList := by
      rw [List.mem_append]
      exact not_or.2 ⟨part.noSlash, by decide⟩
    have hhead : (part.text.toList ++ ".der".toList).head? ≠ some '/' :=
      fun h => hslash (List.mem_of_head? h)
    -- the name is the last part of its path, and the only one
    have hpath : Plain files uppDir (components (part.text.toList ++ ".der".toList)).dropLast := by
      rw [components_of_notMem hslash]
      cases component (part.text.toList ++ ".der".toList) <;> exact trivial
    have hinside := remove_inside hplain hhead hpath (der_parts _) hremove
    obtain ⟨parent, name, -, -, -, rfl⟩ := remove_eq_some hremove
    refine ⟨?_, .update hinside (.inl rfl)⟩
    rintro l hl
    cases hl
    exact hinside
  · exact ⟨by simp, .refl _ _⟩

/-- **A step** that keeps to the directory touches files inside it only, and keeps the invariant. -/
theorem siteInv_step {s : Site Cert} {r : SiteRequest} (hinv : SiteInv n uppDir s)
    (hkeeps : KeepsTo cfg n uppDir s r) :
    (∀ loc ∈ touched cfg n uppDir s r, Inside uppDir loc) ∧
      SiteInv n uppDir (serveSite cfg n uppDir s r) := by
  cases r with
  | es9 env request => exact es9_step hinv hkeeps
  | mnoUploadProfile filename content =>
    obtain ⟨htouched, hchanges⟩ := @mnoUploadProfile_inside n uppDir s.files filename content
      hinv.plain hkeeps
    exact ⟨fun loc hloc => htouched loc (Option.mem_toList.1 hloc), hinv.changes hchanges⟩
  | mnoDeleteProfile matchingId =>
    obtain ⟨htouched, hchanges⟩ := @mnoDeleteProfile_inside n uppDir s.files hinv.plain matchingId
    exact ⟨fun loc hloc => htouched loc (Option.mem_toList.1 hloc), hinv.changes hchanges⟩

/-- An authentication opens files inside the directory only exactly if it keeps to the directory. -/
theorem touched_inside_iff {s : Site Cert} {env : Env} {request : Request}
    (hendpoint : request.endpoint = .authenticateClient) :
    (∀ loc ∈ touched cfg n uppDir s (.es9 env request), Inside uppDir loc) ↔
      KeepsTo cfg n uppDir s (.es9 env request) := by
  constructor
  · intro h matchingId hrequested hreadable real hreal hprefix
    obtain ⟨⟨loc, content⟩, hread⟩ := Option.isSome_iff_exists.1 hreadable
    obtain ⟨hnul, hresolve⟩ := locate_eq_some (read_eq_some hread).1
    have hcheck : (fileEnv n uppDir s.files env).uppInside matchingId = true := by
      refine (Option.any_eq_true _ _).2 ⟨real, ?_, ?_⟩
      · rw [if_neg hnul]
        exact hreal
      · exact decide_eq_true (commonprefix_eq_right.2 hprefix)
    have hopened := openedProfile_of_profile hrequested hcheck hreadable
    have hloc : loc ∈ touched cfg n uppDir s (.es9 env request) := by
      rw [touched, hopened, Option.mem_toList, hread]
      rfl
    exact (opened_inside_iff hcheck hread).1 (h loc hloc) real hreal hprefix
  · intro hkeeps loc hloc
    rw [touched] at hloc
    split at hloc
    · cases hloc
    rename_i matchingId hopened
    rw [Option.mem_toList] at hloc
    obtain ⟨⟨loc', content⟩, hread, rfl⟩ := Option.map_eq_some_iff.1 hloc
    obtain ⟨hrequested, hcheck, hreadable⟩ | ⟨hdownload, -⟩ := openedProfile_cases hopened
    · exact (opened_inside_iff hcheck hread).2 (hkeeps matchingId hrequested hreadable)
    · rw [hendpoint] at hdownload
      cases hdownload

/-- **Containment.** In a run whose requests keep to the directory, every file that is opened,
written or removed because of a name lies inside the directory. What an authentication opens lies
there exactly if its request keeps to the directory. -/
theorem touched_inside {k : ℕ} {path : List Component}
    (hupp : realpath files k [] path = some uppDir) :
    (∀ es : List SiteRequest,
      (∀ t ∈ trace (siteStep cfg n uppDir) ⟨files, Server.new⟩ es,
        KeepsTo cfg n uppDir t.pre t.event) →
      ∀ t ∈ trace (siteStep cfg n uppDir) ⟨files, Server.new⟩ es,
        ∀ loc ∈ touched cfg n uppDir t.pre t.event, Inside uppDir loc) ∧
    ∀ (s : Site Cert) (env : Env) (request : Request), request.endpoint = .authenticateClient →
      ((∀ loc ∈ touched cfg n uppDir s (.es9 env request), Inside uppDir loc) ↔
        KeepsTo cfg n uppDir s (.es9 env request)) := by
  refine ⟨fun es hkeeps t ht => ?_, fun s env request => touched_inside_iff⟩
  have hroot : Plain files [] (downTo []) := trivial
  have hstart : SiteInv n uppDir (⟨files, Server.new⟩ : Site Cert) := by
    refine ⟨realpath_plain hroot hupp, ?_⟩
    rintro matchingId ⟨transactionId, ss, hss, -⟩
    cases hss
  have hinv := trace_invariant (P := SiteInv n uppDir) hstart (fun t ht hpre => by
    obtain ⟨-, hs, -⟩ := mem_trace Reachable.init ht
    rw [siteStep, Option.some.injEq] at hs
    rw [← hs]
    exact (siteInv_step hpre (hkeeps t ht)).2) t ht
  exact (siteInv_step hinv.1 (hkeeps t ht)).1

/-! ## Sample runs -/

/-- The directory of the profiles, in the directory `d`. -/
def sampleUppDir : Location := [⟨['d'], by decide⟩, ⟨['u', 'p', 'p'], by decide⟩]

/-- The directories `d`, `d/upp` and `d/upp-old`, and a profile in the last one. -/
def sampleFiles : Tree := fun loc =>
  match loc.map (·.val) with
  | [['d']] | [['d'], ['u', 'p', 'p']] | [['d'], ['u', 'p', 'p', '-', 'o', 'l', 'd']] =>
    some .directory
  | [['d'], ['u', 'p', 'p', '-', 'o', 'l', 'd'], ['P', '.', 'd', 'e', 'r']] =>
    some (.file [0xA0, 0] true)
  | _ => none

/-- A profile is uploaded, asked for by a card, and deleted. -/
def sampleVisit : List SiteRequest :=
  [.mnoUploadProfile (some "P.der") sampleProfile, .es9 unlettered.start.1 unlettered.start.2,
    .es9 unlettered.authenticate.1 unlettered.authenticate.2,
    .mnoDeleteProfile ⟨"P", by decide, by decide⟩]

/-- The files when the profile is there. -/
def uploadedFiles : Tree :=
  (mnoUploadProfile 100 sampleUppDir sampleFiles (some "P.der") sampleProfile).2.1

/-- The steps of a run of the sample server. -/
def sampleTrace (es : List SiteRequest) : List (Step (Site ℕ) SiteRequest) :=
  trace (siteStep unlettered.config 100 sampleUppDir) ⟨sampleFiles, Server.new⟩ es

theorem sampleUppDir_real :
    realpath sampleFiles 100 [] (components "/d/upp".toList) = some sampleUppDir := by
  decide +kernel

theorem visit_facts :
    KeepsTo unlettered.config 100 sampleUppDir ⟨sampleFiles, Server.new⟩
      (.mnoUploadProfile (some "P.der") sampleProfile) ∧
    (mnoUploadProfile 100 sampleUppDir sampleFiles (some "P.der") sampleProfile).2.2.isSome ∧
    (uploadedFiles.read 100 (profilePath sampleUppDir "P")).isSome ∧
    (fileEnv 100 sampleUppDir uploadedFiles unlettered.serverEnv).uppInside "P" = true ∧
    NoSibling 100 sampleUppDir uploadedFiles "P" ∧
    (mnoDeleteProfile 100 sampleUppDir uploadedFiles "P").2.2.isSome := by
  decide +kernel

theorem profile_request (x : Exchange) (cfg : Config ℕ ℕ) (content : List (String × Value))
    (s : Server ℕ) : (x.request .authenticateClient content).2.profile cfg s =
      requestedProfile cfg (.dict content) s.rss := by
  unfold Request.profile
  rw [validate_request]
  rfl

theorem start_opened (cfg : Config ℕ ℕ) (env : Env) (s : Server ℕ) :
    openedProfile cfg env unlettered.start.2 s = .error .exception := by
  unfold openedProfile
  rw [Exchange.start, validate_request]
  rfl

theorem start_profile (cfg : Config ℕ ℕ) (s : Server ℕ) (matchingId : String) :
    unlettered.start.2.profile cfg s ≠ .ok matchingId := by
  unfold Request.profile
  rw [Exchange.start, validate_request]
  intro h
  cases h

/-- The card asks for the profile. -/
theorem authenticate_profile {s : Server ℕ}
    (hss : s.rss (hexText true unlettered.transactionId) = some unlettered.started) :
    unlettered.authenticate.2.profile unlettered.config s = .ok "P" := by
  have hx : unlettered ∈ [lettered, unlettered] := by simp
  obtain ⟨hverify, -⟩ := verify_facts.1 unlettered hx
  obtain ⟨htid, -⟩ := getItem_content unlettered
    (show "authenticateServerResponse" ≠ _ by decide) unlettered.authentication
  have hread : readAuthentication unlettered.config (.dict (unlettered.content
      "authenticateServerResponse" unlettered.authentication)) =
        .ok (unlettered.euiccSigned1, unlettered.authenticateResponseOk, 2, 1) := read_exchange hx
  have hverified : verifyAuthentication unlettered.config unlettered.started
      unlettered.euiccSigned1 unlettered.authenticateResponseOk 2 1 =
        .ok { unlettered.started with
          euiccCert := some 2, eumCert := some 1, eid := some sampleEid } :=
    verify_exchange hverify
  have hrequested : requestedProfile unlettered.config (.dict (unlettered.content
      "authenticateServerResponse" unlettered.authentication)) s.rss = .ok "P" := by
    unfold requestedProfile
    rw [htid, orRaise_some, ok_bind, hread, ok_bind]
    dsimp only
    rw [asStr, orRaise_some, ok_bind, hss]
    dsimp only
    rw [hverified, ok_bind]
    rfl
  rw [Exchange.authenticate, profile_request, hrequested]

section

variable (cfg : Config Cert Asn) (n : ℕ) (uppDir : Location) (files : Tree) (s : Server Cert)

theorem trace_site (s : Site Cert) (r : SiteRequest) (rs : List SiteRequest) :
    trace (siteStep cfg n uppDir) s (r :: rs) = ⟨s, r, serveSite cfg n uppDir s r⟩ ::
      trace (siteStep cfg n uppDir) (serveSite cfg n uppDir s r) rs := rfl

theorem serveSite_es9 (env : Env) (request : Request) :
    serveSite cfg n uppDir ⟨files, s⟩ (.es9 env request) =
      ⟨files, (serve cfg (fileEnv n uppDir files env) request s).2⟩ := rfl

theorem serveSite_upload (filename : Option String) (content : Bytes) :
    serveSite cfg n uppDir ⟨files, s⟩ (.mnoUploadProfile filename content) =
      ⟨(mnoUploadProfile n uppDir files filename content).2.1, s⟩ := rfl

theorem serveSite_delete (matchingId : PathPart) :
    serveSite cfg n uppDir ⟨files, s⟩ (.mnoDeleteProfile matchingId) =
      ⟨(mnoDeleteProfile n uppDir files matchingId.text).2.1, s⟩ := rfl

end

/-- The server starts the session, whatever files it has. -/
theorem serve_start (files : Tree) :
    (serve unlettered.config (fileEnv 100 sampleUppDir files unlettered.start.1)
      unlettered.start.2 Server.new).2.rss (hexText true unlettered.transactionId) =
        some unlettered.started := by
  have hx : unlettered ∈ [lettered, unlettered] := by simp
  have henv : ∀ (cfg : Config ℕ ℕ) (env : Env) (content : Value) (rss : SessionStore ℕ),
      newSession cfg (fileEnv 100 sampleUppDir files env) content rss =
        newSession cfg env content rss := fun _ _ _ _ => rfl
  obtain ⟨output, hnew⟩ := @start_exchange unlettered unlettered.verify (fun _ => none) hx rfl
  change newSession unlettered.config _ _ _ = _ at hnew
  rw [Exchange.start, serve_request]
  simp only [callFunction]
  unfold initiateAuthentication
  rw [henv, request_fst, show (Server.new : Server ℕ).rss = fun _ => none from rfl, hnew]
  exact server_rss unlettered (some unlettered.started) DownloadHistoryStore.new

/-- The run, with the servers that it goes through. -/
theorem visit_trace : ∃ s s' : Server ℕ,
    s.rss (hexText true unlettered.transactionId) = some unlettered.started ∧
    sampleTrace sampleVisit =
      [⟨⟨sampleFiles, Server.new⟩, .mnoUploadProfile (some "P.der") sampleProfile,
          ⟨uploadedFiles, Server.new⟩⟩,
        ⟨⟨uploadedFiles, Server.new⟩, .es9 unlettered.start.1 unlettered.start.2,
          ⟨uploadedFiles, s⟩⟩,
        ⟨⟨uploadedFiles, s⟩, .es9 unlettered.authenticate.1 unlettered.authenticate.2,
          ⟨uploadedFiles, s'⟩⟩,
        ⟨⟨uploadedFiles, s'⟩, .mnoDeleteProfile ⟨"P", by decide, by decide⟩,
          ⟨(mnoDeleteProfile 100 sampleUppDir uploadedFiles "P").2.1, s'⟩⟩] := by
  obtain ⟨s, hs⟩ : ∃ s, (serve unlettered.config (fileEnv 100 sampleUppDir uploadedFiles
      unlettered.start.1) unlettered.start.2 Server.new).2 = s := ⟨_, rfl⟩
  obtain ⟨s', hs'⟩ : ∃ s', (serve unlettered.config (fileEnv 100 sampleUppDir uploadedFiles
      unlettered.authenticate.1) unlettered.authenticate.2 s).2 = s' := ⟨_, rfl⟩
  refine ⟨s, s', hs ▸ serve_start uploadedFiles, ?_⟩
  simp only [sampleTrace, sampleVisit, trace_site, serveSite_upload, ← uploadedFiles.eq_def,
    serveSite_es9, hs, hs', serveSite_delete]
  rfl

theorem touched_inside_sample :
    ((sampleTrace sampleVisit).flatMap fun t =>
      touched unlettered.config 100 sampleUppDir t.pre t.event).length = 3 ∧
    ∀ t ∈ sampleTrace sampleVisit,
      ∀ loc ∈ touched unlettered.config 100 sampleUppDir t.pre t.event,
        Inside sampleUppDir loc := by
  obtain ⟨s, s', hss, htrace⟩ := visit_trace
  obtain ⟨hupload, hwritten, hread, hinside, hsibling, hremoved⟩ := visit_facts
  have hprofile := authenticate_profile hss
  have hkeeps : ∀ t ∈ sampleTrace sampleVisit,
      KeepsTo unlettered.config 100 sampleUppDir t.pre t.event := by
    rw [htrace]
    simp only [List.forall_mem_cons, List.not_mem_nil, false_implies, implies_true, and_true]
    refine ⟨hupload, fun matchingId h => ?_, fun matchingId h _ => ?_, trivial⟩
    · exact absurd h (start_profile _ _ matchingId)
    · obtain rfl : "P" = matchingId := Except.ok.inj (hprofile.symm.trans h)
      exact hsibling
  refine ⟨?_, (touched_inside sampleUppDir_real).1 sampleVisit hkeeps⟩
  have hopened : openedProfile unlettered.config (fileEnv 100 sampleUppDir uploadedFiles
      unlettered.authenticate.1) unlettered.authenticate.2 s = .ok "P" :=
    openedProfile_of_profile hprofile hinside hread
  have hone : ∀ {o : Option Location}, o.isSome → o.toList.length = 1 := by
    intro o ho
    obtain ⟨loc, rfl⟩ := Option.isSome_iff_exists.1 ho
    rfl
  have hwrite : (touched unlettered.config 100 sampleUppDir ⟨sampleFiles, Server.new⟩
    (.mnoUploadProfile (some "P.der") sampleProfile)).length = 1 := hone hwritten
  have hnothing : touched unlettered.config 100 sampleUppDir ⟨uploadedFiles, Server.new⟩
      (.es9 unlettered.start.1 unlettered.start.2) = [] := by
    rw [touched, start_opened]
  have hopen : (touched unlettered.config 100 sampleUppDir ⟨uploadedFiles, s⟩
      (.es9 unlettered.authenticate.1 unlettered.authenticate.2)).length = 1 := by
    rw [touched, hopened]
    exact hone (by rw [Option.isSome_map, hread])
  have hremove : (touched unlettered.config 100 sampleUppDir ⟨uploadedFiles, s'⟩
    (.mnoDeleteProfile ⟨"P", by decide, by decide⟩)).length = 1 := hone hremoved
  rw [htrace]
  simp only [List.flatMap_cons, List.flatMap_nil, List.length_append, hwrite, hnothing, hopen,
    hremove, List.length_nil]

/-- **An upload leaves the directory**: the name in its header is not checked. -/
theorem touched_outside : ¬ ∀ (files : Tree) (n : ℕ) (path : List Component) (uppDir : Location)
    (es : List SiteRequest), realpath files n [] path = some uppDir →
    ∀ t ∈ trace (siteStep unlettered.config n uppDir) ⟨files, Server.new⟩ es,
      ∀ loc ∈ touched unlettered.config n uppDir t.pre t.event, Inside uppDir loc := by
  intro h
  have hinside := h sampleFiles 100 _ sampleUppDir [.mnoUploadProfile (some "../evil.der") []]
    sampleUppDir_real
  exact absurd hinside (by decide +kernel)

/-- The check lets a card's name open a file in the sibling directory. -/
example : (fileEnv 100 sampleUppDir sampleFiles unlettered.serverEnv).uppInside "../upp-old/P" =
      true ∧
    ¬ NoSibling 100 sampleUppDir sampleFiles "../upp-old/P" := by
  decide +kernel

end VirtualRsp.Smdp.Es9
