import VirtualRsp.Card.Authenticate
import VirtualRsp.Foundations.Run
import VirtualRsp.Smdp.Es9

/-!
# Safety of the server's sessions

Whatever an LPA sends, a session changes in a few ways only (`Effect`): it is started, a card
authenticates, a package is prepared, and it is removed by a signed message of its card.

`sessions_safe` says of every run: a session has a certificate only since a card with this
certificate has authenticated to it, with a chain to a loaded CI and a signature over the challenge
that was generated for the session; a package is sent only on a signature by the session's
certificate; and only a message that is signed by it removes the session.
-/

namespace VirtualRsp.Smdp.Es9

open JsonText Run

variable {Cert Asn : Type} {cfg : Config Cert Asn} {env : Env}

/-! ## Success -/

theorem orRaise_ok {α : Type} {o : Option α} {a : α} (h : orRaise o = .ok a) : o = some a := by
  cases o with
  | none => cases h
  | some b => exact congrArg some (Except.ok.inj h)

theorem orRaise_some {α : Type} (a : α) : orRaise (some a) = .ok a := rfl

theorem ok_bind {α β : Type} (a : α) (f : α → Except Failure β) : (Except.ok a >>= f) = f a := rfl

theorem require_ok {c : Bool} {failure : Failure} {u : Unit} (h : require c failure = .ok u) :
    c = true := by
  unfold require at h
  split_ifs at h with hc
  exact hc

theorem bind_ok {α β : Type} {x : Except Failure α} {f : α → Except Failure β} {b : β}
    (h : (x >>= f) = .ok b) : ∃ a, x = .ok a ∧ f a = .ok b := by
  cases x with
  | error e => cases h
  | ok a => exact ⟨a, rfl, h⟩

/-! ## What was checked -/

/-- The card with this certificate authenticates for a transaction and a challenge: the certificates
of its response form a chain to a loaded CI, it has signed the data in the response, its identifier
is in the range, and the challenge is among the data. -/
def Authenticates (cfg : Config Cert Asn) (content : Value) (transactionId : String)
    (challenge : Bytes) (euiccCert : Cert) : Prop :=
  (getItem "transactionId" content).bind asStr = some transactionId ∧
    ∃ bin ok euiccSigned1Bin eumCert eid,
      (getItem "authenticateServerResponse" content).bind b64decodeValue = some bin ∧
      cfg.lib.decodeAuthenticateServerResponse bin = .ok (.authenticateResponseOk ok) ∧
      extractEuiccSigned1 cfg.lib.tlv bin = some euiccSigned1Bin ∧
      (cfg.lib.encodeCertificate ok.euiccCertificate).bind cfg.lib.loadDerX509Certificate =
        some euiccCert ∧
      (cfg.lib.encodeCertificate ok.eumCertificate).bind cfg.lib.loadDerX509Certificate =
        some eumCert ∧
      (∃ ciCert ∈ cfg.ciCerts, Chain cfg.lib.toX509 ciCert [eumCert] euiccCert) ∧
      cfg.lib.ecdsaVerify euiccCert ok.euiccSignature1 euiccSigned1Bin = some true ∧
      cfg.lib.serialNumber euiccCert = some eid ∧
      validateEidRange cfg.lib.toX509 eid eumCert = true ∧
      ok.euiccSigned1.serverChallenge = challenge

/-- The card of a session is ready for its download: it has signed the data of its response and the
session's `smdpSignature2`, and the transaction is among the data. -/
def Downloads (cfg : Config Cert Asn) (content : Value) (transactionId : String)
    (ss : Session Cert) : Prop :=
  (getItem "transactionId" content).bind asStr = some transactionId ∧
    ∃ bin euiccSigned2 euiccSignature2 euiccSigned2Bin euiccCert smdpSignature2Do,
      (getItem "prepareDownloadResponse" content).bind b64decodeValue = some bin ∧
      cfg.lib.decodePrepareDownloadResponse bin =
        some (.downloadResponseOk euiccSigned2 euiccSignature2) ∧
      extractEuiccSigned2 cfg.lib.tlv bin = some euiccSigned2Bin ∧
      ss.euiccCert = some euiccCert ∧ ss.smdpSignature2Do = some smdpSignature2Do ∧
      cfg.lib.ecdsaVerify euiccCert euiccSignature2 (euiccSigned2Bin ++ smdpSignature2Do) =
        some true ∧
      cfg.lib.h2b transactionId = some euiccSigned2.transactionId

/-- A notification about an installation, signed by a card and naming a transaction. -/
def Notifies (cfg : Config Cert Asn) (content : Value) (transactionId : String)
    (euiccCert : Cert) : Prop :=
  ∃ bin pird euiccSignPIR pirdBin,
    (getItem "pendingNotification" content).bind b64decodeValue = some bin ∧
    cfg.lib.decodePendingNotification bin = some (.profileInstallationResult pird euiccSignPIR) ∧
    cfg.lib.encodeProfileInstallationResultData pird = some pirdBin ∧
    cfg.lib.ecdsaVerify euiccCert euiccSignPIR pirdBin = some true ∧
    cfg.lib.b2h pird.transactionId = transactionId

/-- A cancellation, signed by a card and naming a transaction. -/
def Cancels (cfg : Config Cert Asn) (content : Value) (transactionId : String)
    (euiccCert : Cert) : Prop :=
  (getItem "transactionId" content).bind asStr = some transactionId ∧
    ∃ bin ecsr signature ecsrBin,
      (getItem "cancelSessionResponse" content).bind b64decodeValue = some bin ∧
      cfg.lib.decodeCancelSessionResponse bin = some (.cancelSessionResponseOk ecsr signature) ∧
      cfg.lib.encodeEuiccCancelSessionSigned ecsr = some ecsrBin ∧
      cfg.lib.ecdsaVerify euiccCert signature ecsrBin = some true ∧
      cfg.lib.h2b transactionId = some ecsr.transactionId

/-! ## The functions -/

theorem ciGetCertForPkid_mem {x : X509 Cert} {ciPkid : Bytes} {certs : List Cert} {cert : Cert}
    (h : ciGetCertForPkid x ciPkid certs = some (some cert)) : cert ∈ certs := by
  induction certs with
  | nil => cases h
  | cons c certs ih =>
    unfold ciGetCertForPkid at h
    split at h
    · cases h
    · split_ifs at h
      · cases h
        exact List.mem_cons_self
      · exact List.mem_cons_of_mem _ (ih h)

/-- The set that chains are checked with has a loaded CI as its root and one more certificate. -/
theorem certificateSet_ok {ciPkid : Bytes} {eumCert : Cert} {cs : CertificateSet Cert}
    (h : certificateSet cfg ciPkid eumCert = .ok cs) :
    cs.rootCert ∈ cfg.ciCerts ∧ cs.intermediateCerts.map Prod.snd = [eumCert] := by
  obtain ⟨found, hfound, h⟩ := bind_ok h
  obtain ⟨ciCert, hci, h⟩ := bind_ok h
  obtain ⟨cs', hnew, h⟩ := bind_ok h
  obtain rfl := orRaise_ok hci
  obtain rfl := CertificateSet.new_eq (orRaise_ok hnew)
  obtain ⟨ski, rfl⟩ := CertificateSet.addIntermediateCert_eq (orRaise_ok h)
  exact ⟨ciGetCertForPkid_mem (orRaise_ok hfound), rfl⟩

theorem newSession_ok {content : Value} {rss : SessionStore Cert} {output : Output}
    {ss : Session Cert} (h : newSession cfg env content rss = .ok (output, ss)) :
    ∃ ciCertId, ss = Session.new (hexText true (uuid4 env.uuidRandom)) env.serverChallenge.toList
      ciCertId ∧ rss ss.transactionId = none := by
  unfold newSession at h
  obtain ⟨⟨euiccChallenge, ciCert⟩, -, h⟩ := bind_ok h
  obtain ⟨_, hfresh, h⟩ := bind_ok h
  obtain ⟨transactionIdBin, -, h⟩ := bind_ok h
  obtain ⟨serverSigned1Bin, -, h⟩ := bind_ok h
  obtain ⟨serverSignature1, -, h⟩ := bind_ok h
  obtain ⟨serverCertAki, -, h⟩ := bind_ok h
  obtain ⟨ciCertId, -, h⟩ := bind_ok h
  cases h
  exact ⟨ciCertId, rfl, Option.isNone_iff_eq_none.1 (require_ok hfresh)⟩

theorem readAuthentication_ok {content : Value} {euiccSigned1Bin : Bytes}
    {ok : AuthenticateResponseOk Asn} {euiccCert eumCert : Cert}
    (h : readAuthentication cfg content = .ok (euiccSigned1Bin, ok, euiccCert, eumCert)) :
    ∃ bin, (getItem "authenticateServerResponse" content).bind b64decodeValue = some bin ∧
      cfg.lib.decodeAuthenticateServerResponse bin = .ok (.authenticateResponseOk ok) ∧
      extractEuiccSigned1 cfg.lib.tlv bin = some euiccSigned1Bin ∧
      (cfg.lib.encodeCertificate ok.euiccCertificate).bind cfg.lib.loadDerX509Certificate =
        some euiccCert ∧
      (cfg.lib.encodeCertificate ok.eumCertificate).bind cfg.lib.loadDerX509Certificate =
        some eumCert := by
  unfold readAuthentication at h
  obtain ⟨bin, hbin, h⟩ := bind_ok h
  split at h
  · cases h
  · cases h
  · cases h
  · rename_i ok' hdecode
    obtain ⟨signed, hsigned, h⟩ := bind_ok h
    obtain ⟨euicc, heuicc, h⟩ := bind_ok h
    obtain ⟨eum, heum, h⟩ := bind_ok h
    cases h
    exact ⟨bin, orRaise_ok hbin, hdecode, orRaise_ok hsigned, orRaise_ok heuicc, orRaise_ok heum⟩

theorem verifyAuthentication_ok {ss ss' : Session Cert} {euiccSigned1Bin : Bytes}
    {ok : AuthenticateResponseOk Asn} {euiccCert eumCert : Cert}
    (h : verifyAuthentication cfg ss euiccSigned1Bin ok euiccCert eumCert = .ok ss') :
    (∃ eid,
      ss' = { ss with euiccCert := some euiccCert, eumCert := some eumCert, eid := some eid } ∧
      cfg.lib.serialNumber euiccCert = some eid ∧
      validateEidRange cfg.lib.toX509 eid eumCert = true) ∧
    (∃ ciCert ∈ cfg.ciCerts, Chain cfg.lib.toX509 ciCert [eumCert] euiccCert) ∧
    cfg.lib.ecdsaVerify euiccCert ok.euiccSignature1 euiccSigned1Bin = some true ∧
    ok.euiccSigned1.serverChallenge = ss.serverChallenge := by
  unfold verifyAuthentication at h
  obtain ⟨authKeyId, -, h⟩ := bind_ok h
  obtain ⟨-, -, h⟩ := bind_ok h
  obtain ⟨cs, hset, h⟩ := bind_ok h
  obtain ⟨-, -, h⟩ := bind_ok h
  obtain ⟨_, hchain, h⟩ := bind_ok h
  obtain ⟨valid, hvalid, h⟩ := bind_ok h
  obtain ⟨_, hsignature, h⟩ := bind_ok h
  obtain ⟨eid, heid, h⟩ := bind_ok h
  obtain ⟨_, hrange, h⟩ := bind_ok h
  obtain ⟨_, hchallenge, h⟩ := bind_ok h
  cases h
  obtain rfl : valid = true := require_ok hsignature
  obtain ⟨hroot, hintermediates⟩ := certificateSet_ok hset
  have hverified := CertificateSet.chain_of_verifyCertChain (of_decide_eq_true (require_ok hchain))
  rw [hintermediates] at hverified
  exact ⟨⟨eid, rfl, orRaise_ok heid, require_ok hrange⟩, ⟨_, hroot, hverified⟩, orRaise_ok hvalid,
    of_decide_eq_true (require_ok hchallenge)⟩

/-- An authentication that is stored: the card has authenticated to the session. -/
theorem authenticateSession_ok {content : Value} {rss : SessionStore Cert} {output : Output}
    {transactionId : String} {ss' : Session Cert}
    (h : authenticateSession cfg env content rss = .ok (output, transactionId, ss')) :
    ∃ ss euiccCert, rss transactionId = some ss ∧ ss'.serverChallenge = ss.serverChallenge ∧
      ss'.euiccCert = some euiccCert ∧
      Authenticates cfg content transactionId ss.serverChallenge euiccCert := by
  unfold authenticateSession at h
  obtain ⟨tid, htid, h⟩ := bind_ok h
  obtain ⟨⟨euiccSigned1Bin, ok, euiccCert, eumCert⟩, hread, h⟩ := bind_ok h
  obtain ⟨tid', htid', h⟩ := bind_ok h
  split at h
  · cases h
  · rename_i ss hss
    obtain ⟨verified, hverify, h⟩ := bind_ok h
    obtain ⟨⟨matchingId, iccid⟩, -, h⟩ := bind_ok h
    obtain ⟨metadata, -, h⟩ := bind_ok h
    obtain ⟨profileMetadataBin, -, h⟩ := bind_ok h
    obtain ⟨transactionIdBin, -, h⟩ := bind_ok h
    obtain ⟨smdpSigned2Bin, -, h⟩ := bind_ok h
    obtain ⟨signature, -, h⟩ := bind_ok h
    cases h
    obtain ⟨⟨eid, rfl, heid, hrange⟩, hchain, hsignature, hchallenge⟩ :=
      verifyAuthentication_ok hverify
    obtain ⟨bin, hbin, hdecode, hsigned, heuicc, heum⟩ := readAuthentication_ok hread
    refine ⟨ss, euiccCert, hss, rfl, rfl, ?_, bin, ok, euiccSigned1Bin, eumCert, eid, hbin, hdecode,
      hsigned, heuicc, heum, hchain, hsignature, heid, hrange, hchallenge⟩
    rw [orRaise_ok htid]
    exact orRaise_ok htid'

theorem verifyDownload_ok {content : Value} {rss : SessionStore Cert} {transactionId : String}
    {ss : Session Cert} {euiccSigned2 : EuiccSigned2}
    (h : verifyDownload cfg content rss = .ok (transactionId, ss, euiccSigned2)) :
    rss transactionId = some ss ∧ Downloads cfg content transactionId ss := by
  unfold verifyDownload at h
  obtain ⟨tid, htid, h⟩ := bind_ok h
  split at h
  · cases h
  · rename_i ss' hss
    obtain ⟨bin, hbin, h⟩ := bind_ok h
    obtain ⟨response, hdecode, h⟩ := bind_ok h
    split at h
    · cases h
    · rename_i signed2 signature2
      obtain ⟨signedBin, hsigned, h⟩ := bind_ok h
      obtain ⟨euiccCert, hcert, h⟩ := bind_ok h
      obtain ⟨smdpSignature2Do, hdo, h⟩ := bind_ok h
      obtain ⟨valid, hvalid, h⟩ := bind_ok h
      obtain ⟨_, hsignature, h⟩ := bind_ok h
      obtain ⟨transactionIdBin, hid, h⟩ := bind_ok h
      obtain ⟨_, heq, h⟩ := bind_ok h
      cases h
      obtain rfl : valid = true := require_ok hsignature
      refine ⟨hss, orRaise_ok htid, bin, euiccSigned2, signature2, signedBin, euiccCert,
        smdpSignature2Do, orRaise_ok hbin, orRaise_ok hdecode, orRaise_ok hsigned,
        orRaise_ok hcert, orRaise_ok hdo, orRaise_ok hvalid, ?_⟩
      rw [orRaise_ok hid, of_decide_eq_true (require_ok heq)]

/-- Preparing a package leaves the challenge and the certificate. -/
theorem prepareBinding_ok {ss ss' : Session Cert} {euiccSigned2 : EuiccSigned2}
    {upp : UnprotectedProfilePackage} {clsDer : Option Bytes}
    (h : prepareBinding env ss euiccSigned2 = .ok (ss', upp, clsDer)) :
    ss'.serverChallenge = ss.serverChallenge ∧ ss'.euiccCert = ss.euiccCert := by
  unfold prepareBinding at h
  obtain ⟨sharedSecret, -, h⟩ := bind_ok h
  obtain ⟨matchingId, -, h⟩ := bind_ok h
  obtain ⟨der, -, h⟩ := bind_ok h
  cases h
  exact ⟨rfl, rfl⟩

/-- A cancellation that is accepted. -/
theorem cancelSession_ok {lib : CancelLib Cert} {rss : RspSessions Cert}
    {transactionId transactionId' : String} {response : Bytes}
    (h : (Smdp.cancelSession lib rss transactionId response).1 = .ok transactionId') :
    transactionId' = transactionId ∧ ∃ ss euiccCert ecsr signature ecsrBin,
      rss.lookup transactionId = some ss ∧ ss.euiccCert = some euiccCert ∧
      (b64decode response).bind lib.decodeCancelSessionResponse =
        some (.cancelSessionResponseOk ecsr signature) ∧
      lib.encodeEuiccCancelSessionSigned ecsr = some ecsrBin ∧
      lib.ecdsaVerify euiccCert signature ecsrBin = some true ∧
      lib.h2b transactionId = some ecsr.transactionId := by
  unfold Smdp.cancelSession cancelSessionWith at h
  split at h
  · cases h
  · rename_i ss hss
    split at h
    · cases h
    · cases h
    · rename_i ecsr signature hdecode
      split at h
      · cases h
      · rename_i ecsrBin hencode
        split at h
        · cases h
        · rename_i euiccCert hcert
          split at h
          · cases h
          · cases h
          · rename_i hverify
            split_ifs at h
            split at h
            · cases h
            · rename_i tid htid
              split_ifs at h with hid
              cases h
              refine ⟨rfl, ss, euiccCert, ecsr, signature, ecsrBin, hss, hcert, hdecode, hencode,
                hverify, ?_⟩
              rw [htid, not_not.1 hid]

/-! ## Effects -/

/-- What a request may do to the sessions. -/
inductive Effect (cfg : Config Cert Asn) (env : Env) (request : Request) (rss : SessionStore Cert) :
    SessionStore Cert → Prop
  | kept : Effect cfg env request rss rss
  | started {ss : Session Cert} {ciCertId : Bytes} (hendpoint : request.endpoint =
      .initiateAuthentication) (hss : ss = Session.new (hexText true (uuid4 env.uuidRandom))
      env.serverChallenge.toList ciCertId) (hfresh : rss ss.transactionId = none) :
      Effect cfg env request rss (Function.update rss ss.transactionId (some ss))
  | authenticated {content : Value} {transactionId : String} {ss ss' : Session Cert}
      {euiccCert : Cert} (hendpoint : request.endpoint = .authenticateClient)
      (hcontent : request.content = some content) (hss : rss transactionId = some ss)
      (hchallenge : ss'.serverChallenge = ss.serverChallenge)
      (hcert : ss'.euiccCert = some euiccCert)
      (h : Authenticates cfg content transactionId ss.serverChallenge euiccCert) :
      Effect cfg env request rss (Function.update rss transactionId (some ss'))
  | prepared {transactionId : String} {ss ss' : Session Cert} (hss : rss transactionId = some ss)
      (hchallenge : ss'.serverChallenge = ss.serverChallenge)
      (hcert : ss'.euiccCert = ss.euiccCert) :
      Effect cfg env request rss (Function.update rss transactionId (some ss'))
  | notified {content : Value} {transactionId : String} {ss : Session Cert} {euiccCert : Cert}
      (hendpoint : request.endpoint = .handleNotification)
      (hcontent : request.content = some content) (hss : rss transactionId = some ss)
      (hcert : ss.euiccCert = some euiccCert) (h : Notifies cfg content transactionId euiccCert) :
      Effect cfg env request rss (Function.update rss transactionId none)
  | cancelled {content : Value} {transactionId : String} {ss : Session Cert} {euiccCert : Cert}
      (hendpoint : request.endpoint = .cancelSession)
      (hcontent : request.content = some content) (hss : rss transactionId = some ss)
      (hcert : ss.euiccCert = some euiccCert) (h : Cancels cfg content transactionId euiccCert) :
      Effect cfg env request rss (Function.update rss transactionId none)

section

variable {request : Request} {content : Value}

theorem initiateAuthentication_effect (hendpoint : request.endpoint = .initiateAuthentication)
    (s : Server Cert) :
    Effect cfg env request s.rss (initiateAuthentication cfg env content s).2.rss := by
  unfold initiateAuthentication
  split
  · exact .kept
  · rename_i output ss hnew
    obtain ⟨ciCertId, hss, hfresh⟩ := newSession_ok hnew
    exact .started hendpoint hss hfresh

theorem authenticateClient_effect (hendpoint : request.endpoint = .authenticateClient)
    (hcontent : request.content = some content) (s : Server Cert) :
    Effect cfg env request s.rss (authenticateClient cfg env content s).2.rss := by
  unfold authenticateClient
  split
  · exact .kept
  · rename_i output transactionId ss' hsession
    obtain ⟨ss, euiccCert, hss, hchallenge, hcert, h⟩ := authenticateSession_ok hsession
    exact .authenticated hendpoint hcontent hss hchallenge hcert h

theorem getBoundProfilePackage_effect (s : Server Cert) :
    Effect cfg env request s.rss (getBoundProfilePackage cfg env content s).2.rss := by
  unfold getBoundProfilePackage
  split
  · exact .kept
  · rename_i transactionId ss euiccSigned2 hverify
    split
    · exact .kept
    · rename_i ss' upp clsDer hprepare
      obtain ⟨hchallenge, hcert⟩ := prepareBinding_ok hprepare
      have hprepared : Effect cfg env request s.rss
          (Function.update s.rss transactionId (some ss')) :=
        .prepared (verifyDownload_ok hverify).1 hchallenge hcert
      split
      · exact .kept
      · dsimp only
        split
        · exact .kept
        · split
          · exact hprepared
          · exact hprepared

theorem handleNotification_effect (hendpoint : request.endpoint = .handleNotification)
    (hcontent : request.content = some content) (s : Server Cert) :
    Effect cfg env request s.rss (handleNotification cfg content s).2.rss := by
  unfold handleNotification
  split
  · exact .kept
  · rename_i pird euiccSignPIR hdecode
    obtain ⟨bin, hbin, hdecode⟩ := Option.bind_eq_some_iff.1 hdecode
    dsimp only
    split
    · exact .kept
    · rename_i ss hss
      split
      · exact .kept
      · exact .kept
      · rename_i hverify
        obtain ⟨pirdBin, hencode, hverify⟩ := Option.bind_eq_some_iff.1 hverify
        obtain ⟨euiccCert, hcert, hverify⟩ := Option.bind_eq_some_iff.1 hverify
        split
        · exact .kept
        · exact .notified hendpoint hcontent hss hcert
            ⟨bin, pird, euiccSignPIR, pirdBin, hbin, hdecode, hencode, hverify, rfl⟩
  · split
    · exact .kept
    · exact .kept

theorem cancelSession_effect (hendpoint : request.endpoint = .cancelSession)
    (hcontent : request.content = some content) (s : Server Cert) :
    Effect cfg env request s.rss (cancelSession cfg content s).2.rss := by
  unfold cancelSession
  split
  · exact .kept
  · rename_i transactionId hid
    dsimp only
    split
    · exact .kept
    · rename_i hresponse
      split
      · exact .kept
      · exact .kept
      · exact .kept
      · rename_i transactionId' hok
        obtain ⟨rfl, ss, euiccCert, ecsr, signature, ecsrBin, hss, hcert, hdecode, hencode, hverify,
          htid⟩ := cancelSession_ok hok
        obtain ⟨bin, hbin, hdecode⟩ := Option.bind_eq_some_iff.1 hdecode
        cases hsession : s.rss transactionId' with
        | none => simp [hsession] at hss
        | some session =>
          obtain ⟨text, htext⟩ := Option.ne_none_iff_exists'.1 (hresponse session hsession)
          rw [hsession, Option.toList_some, List.map_singleton, List.lookup_cons_self,
            Option.some.injEq] at hss
          rw [← hss] at hcert
          rw [htext, Option.getD_some] at hbin
          refine .cancelled hendpoint hcontent hsession hcert ⟨hid, bin, ecsr, signature, ecsrBin,
            ?_, hdecode, hencode, hverify, htid⟩
          obtain ⟨value, hvalue, htext⟩ := Option.bind_eq_some_iff.1 htext
          rw [hvalue, Option.bind_some, b64decodeValue, htext, Option.bind_some, hbin]

/-- **Effects.** Every request has one of these effects on the sessions. -/
theorem serve_effect (request : Request) (s : Server Cert) :
    Effect cfg env request s.rss (serve cfg env request s).2.rss := by
  unfold serve
  split
  · exact .kept
  · split
    · exact .kept
    · rename_i content hcontent
      cases hendpoint : request.endpoint with
      | initiateAuthentication => exact initiateAuthentication_effect hendpoint s
      | authenticateClient => exact authenticateClient_effect hendpoint hcontent s
      | getBoundProfilePackage => exact getBoundProfilePackage_effect s
      | handleNotification => exact handleNotification_effect hendpoint hcontent s
      | cancelSession => exact cancelSession_effect hendpoint hcontent s

end

/-! ## Runs -/

/-- A step of the server: requests with what happens around them. -/
abbrev ServerStep (Cert : Type) := Step (Server Cert) (Env × Request)

/-- The server after some requests. -/
def after (cfg : Config Cert Asn) (es : List (Env × Request)) : Server Cert :=
  es.foldl (fun s e => (serve cfg e.1 e.2 s).2) Server.new

theorem after_concat (es : List (Env × Request)) (e : Env × Request) :
    after cfg (es ++ [e]) = (serve cfg e.1 e.2 (after cfg es)).2 := by
  rw [after, List.foldl_append]
  rfl

/-- The steps of one request more. -/
theorem trace_concat (es : List (Env × Request)) (e : Env × Request) :
    trace (step cfg) Server.new (es ++ [e]) = trace (step cfg) Server.new es ++
      [⟨after cfg es, e, after cfg (es ++ [e])⟩] := by
  have key : ∀ s : Server Cert, trace (step cfg) s (es ++ [e]) = trace (step cfg) s es ++
      [⟨es.foldl (fun s e => (serve cfg e.1 e.2 s).2) s, e,
        (es ++ [e]).foldl (fun s e => (serve cfg e.1 e.2 s).2) s⟩] := by
    induction es with
    | nil =>
      intro s
      rfl
    | cons e' es ih =>
      intro s
      exact congrArg (_ :: ·) (ih (serve cfg e'.1 e'.2 s).2)
  exact key Server.new

/-- The transaction has no session after the step. -/
def Absent (transactionId : String) (t : ServerStep Cert) : Prop := t.post.rss transactionId = none

/-- The step starts the session of a transaction and generates its challenge. -/
def Starts (transactionId : String) (challenge : Bytes) (_past : List (ServerStep Cert))
    (t : ServerStep Cert) : Prop :=
  t.event.2.endpoint = .initiateAuthentication ∧ t.pre.rss transactionId = none ∧
    (t.post.rss transactionId).isSome ∧ hexText true (uuid4 t.event.1.uuidRandom) = transactionId ∧
    t.event.1.serverChallenge.toList = challenge

/-- In the step, a card with this certificate authenticates to the session, with the challenge that
was generated when the session was started. -/
def AuthenticatesTo (cfg : Config Cert Asn) (transactionId : String) (euiccCert : Cert)
    (past : List (ServerStep Cert)) (t : ServerStep Cert) : Prop :=
  t.event.2.endpoint = .authenticateClient ∧ ∃ content challenge,
    t.event.2.content = some content ∧
    Authenticates cfg content transactionId challenge euiccCert ∧
    Since (Absent transactionId) (Starts transactionId challenge) past

/-- Where the sessions of a server come from. -/
def Explained (cfg : Config Cert Asn) (past : List (ServerStep Cert)) (s : Server Cert) : Prop :=
  ∀ transactionId ss, s.rss transactionId = some ss →
    Since (Absent transactionId) (Starts transactionId ss.serverChallenge) past ∧
    ∀ euiccCert, ss.euiccCert = some euiccCert →
      Since (Absent transactionId) (AuthenticatesTo cfg transactionId euiccCert) past

theorem Since.last {σ ε : Type*} {reset : Step σ ε → Prop}
    {P : List (Step σ ε) → Step σ ε → Prop} {past : List (Step σ ε)} {t : Step σ ε} (h : P past t) :
    Since reset P (past ++ [t]) :=
  ⟨past, t, [], rfl, h, by simp⟩

/-- A session of an updated store is the new one, or was there before. -/
theorem session_of_update {rss : SessionStore Cert} {tid transactionId : String}
    {new : Option (Session Cert)} {ss : Session Cert}
    (h : Function.update rss tid new transactionId = some ss) :
    transactionId = tid ∧ new = some ss ∨ rss transactionId = some ss := by
  by_cases hid : transactionId = tid
  · subst hid
    rw [Function.update_self] at h
    exact .inl ⟨rfl, h⟩
  · rw [Function.update_of_ne hid] at h
    exact .inr h

/-- A step after which there still is a session keeps the explanations of the one before. -/
theorem Explained.keep {past : List (ServerStep Cert)} {t : ServerStep Cert}
    (h : Explained cfg past t.pre) {transactionId : String} {old : Session Cert}
    (hold : t.pre.rss transactionId = some old) (hpresent : ¬ Absent transactionId t) :
    Since (Absent transactionId) (Starts transactionId old.serverChallenge) (past ++ [t]) ∧
      ∀ euiccCert, old.euiccCert = some euiccCert →
        Since (Absent transactionId) (AuthenticatesTo cfg transactionId euiccCert)
          (past ++ [t]) := by
  obtain ⟨hstarts, hauthenticates⟩ := h transactionId old hold
  exact ⟨hstarts.concat hpresent,
    fun euiccCert hcert => (hauthenticates euiccCert hcert).concat hpresent⟩

/-- **Step.** A request explains the sessions it changes and keeps the explanations of the others.
-/
theorem Explained.step {past : List (ServerStep Cert)} {pre : Server Cert} (env : Env)
    (request : Request) (h : Explained cfg past pre) :
    Explained cfg (past ++ [⟨pre, (env, request), (serve cfg env request pre).2⟩])
      (serve cfg env request pre).2 := by
  have heffect : Effect cfg env request pre.rss (serve cfg env request pre).2.rss :=
    serve_effect request pre
  generalize (serve cfg env request pre).2 = post at heffect ⊢
  intro transactionId ss hss
  have hpresent : ¬ Absent transactionId (⟨pre, (env, request), post⟩ : ServerStep Cert) := by
    intro habsent
    exact nomatch hss.symm.trans habsent
  generalize hrss : post.rss = rss at heffect
  rw [hrss] at hss
  cases heffect with
  | kept => exact h.keep hss hpresent
  | @started new ciCertId hendpoint hnew hfresh =>
    obtain ⟨rfl, hnewest⟩ | hss := session_of_update hss
    · cases hnewest
      refine ⟨Since.last ⟨hendpoint, hfresh, ?_, ?_, ?_⟩, fun euiccCert hcert => ?_⟩
      · rw [hrss, Function.update_self]
        rfl
      · rw [hnew]
        rfl
      · rw [hnew]
        rfl
      · rw [hnew] at hcert
        cases hcert
    · exact h.keep hss hpresent
  | authenticated hendpoint hcontent hold hchallenge hcert hchecked =>
    obtain ⟨rfl, hnewest⟩ | hss := session_of_update hss
    · cases hnewest
      rw [hchallenge]
      refine ⟨(h.keep hold hpresent).1, fun euiccCert' hcert' => ?_⟩
      obtain rfl := Option.some.inj (hcert.symm.trans hcert')
      exact Since.last ⟨hendpoint, _, _, hcontent, hchecked, (h transactionId _ hold).1⟩
    · exact h.keep hss hpresent
  | prepared hold hchallenge hcert =>
    obtain ⟨rfl, hnewest⟩ | hss := session_of_update hss
    · cases hnewest
      rw [hchallenge, hcert]
      exact h.keep hold hpresent
    · exact h.keep hss hpresent
  | notified hendpoint hcontent hold hcert hchecked =>
    obtain ⟨-, hnone⟩ | hss := session_of_update hss
    · cases hnone
    · exact h.keep hss hpresent
  | cancelled hendpoint hcontent hold hcert hchecked =>
    obtain ⟨-, hnone⟩ | hss := session_of_update hss
    · cases hnone
    · exact h.keep hss hpresent

theorem explained_of_trace {es : List (Env × Request)} {past rest : List (ServerStep Cert)}
    {t : ServerStep Cert} (h : trace (step cfg) Server.new es = past ++ t :: rest) :
    Explained cfg past t.pre ∧ Explained cfg (past ++ [t]) t.post := by
  have hstep : ∀ ts t rest, trace (step cfg) Server.new es = ts ++ t :: rest →
      Explained cfg ts t.pre → Explained cfg (ts ++ [t]) t.post := by
    intro ts t rest h hpre
    have hmem : t ∈ trace (step cfg) Server.new es := by
      rw [h]
      exact List.mem_append_right _ List.mem_cons_self
    obtain ⟨pre, ⟨env, request⟩, post⟩ := t
    have hpost := Option.some.inj (mem_trace .init hmem).2.1
    dsimp only at hpost hpre ⊢
    rw [← hpost]
    exact hpre.step env request
  have hnew : Explained cfg [] Server.new := by
    intro transactionId ss hss
    cases hss
  have hpre := past_invariant (I := Explained cfg) hnew hstep h
  exact ⟨hpre, hstep _ _ _ h hpre⟩

/-- A package is sent for a session whose card is ready. -/
theorem serve_package {request : Request} {s : Server Cert} {output : Output}
    (hendpoint : request.endpoint = .getBoundProfilePackage)
    (h : (serve cfg env request s).1 = .ok (some output)) :
    ∃ content transactionId ss, request.content = some content ∧
      output.lookup "transactionId" = some transactionId ∧ s.rss transactionId = some ss ∧
      Downloads cfg content transactionId ss := by
  unfold serve at h
  split at h
  · cases h
  · split at h
    · cases h
    · rename_i content hcontent
      rw [hendpoint] at h
      change (getBoundProfilePackage cfg env content s).1 = _ at h
      unfold getBoundProfilePackage at h
      split at h
      · cases h
      · rename_i transactionId ss euiccSigned2 hverify
        obtain ⟨hss, hdownloads⟩ := verifyDownload_ok hverify
        split at h
        · cases h
        · split at h
          · cases h
          · dsimp only at h
            split at h
            · cases h
            · split at h
              · cases h
              · cases h
                exact ⟨content, transactionId, ss, hcontent, rfl, hss, hdownloads⟩

/-- A session that an update removes is the one that it is about. -/
theorem removed_of_update {rss : SessionStore Cert} {tid transactionId : String}
    {new : Option (Session Cert)} {ss : Session Cert} (hss : rss transactionId = some ss)
    (h : Function.update rss tid new transactionId = none) : transactionId = tid ∧ new = none := by
  by_cases hid : transactionId = tid
  · subst hid
    rw [Function.update_self] at h
    exact ⟨rfl, h⟩
  · rw [Function.update_of_ne hid, hss] at h
    cases h

/-- A session is removed by a signed message of its card only. -/
theorem removed_signed {request : Request} {s : Server Cert} {transactionId : String}
    {ss : Session Cert} (hss : s.rss transactionId = some ss)
    (hremoved : (serve cfg env request s).2.rss transactionId = none) :
    ∃ content euiccCert, request.content = some content ∧ ss.euiccCert = some euiccCert ∧
      (request.endpoint = .handleNotification ∧ Notifies cfg content transactionId euiccCert ∨
        request.endpoint = .cancelSession ∧ Cancels cfg content transactionId euiccCert) := by
  have heffect : Effect cfg env request s.rss (serve cfg env request s).2.rss :=
    serve_effect request s
  generalize (serve cfg env request s).2.rss = rss at heffect hremoved
  cases heffect with
  | kept => exact nomatch hss.symm.trans hremoved
  | started hendpoint hnew hfresh => exact nomatch (removed_of_update hss hremoved).2
  | authenticated hendpoint hcontent hsession hchallenge hcert h =>
    exact nomatch (removed_of_update hss hremoved).2
  | prepared hsession hchallenge hcert => exact nomatch (removed_of_update hss hremoved).2
  | notified hendpoint hcontent hsession hcert h =>
    obtain ⟨rfl, -⟩ := removed_of_update hss hremoved
    obtain rfl := Option.some.inj (hss.symm.trans hsession)
    exact ⟨_, _, hcontent, hcert, Or.inl ⟨hendpoint, h⟩⟩
  | cancelled hendpoint hcontent hsession hcert h =>
    obtain ⟨rfl, -⟩ := removed_of_update hss hremoved
    obtain rfl := Option.some.inj (hss.symm.trans hsession)
    exact ⟨_, _, hcontent, hcert, Or.inr ⟨hendpoint, h⟩⟩

/-- **Safety of sessions.** In every run, after every step: a session was started by a request that
generated its challenge, and has a certificate only since a card with this certificate has
authenticated to it. A package is sent only if the session's card has signed for it, and a session
is removed only by a message that its card has signed and that names it. -/
theorem sessions_safe {es : List (Env × Request)} {past rest : List (ServerStep Cert)}
    {t : ServerStep Cert} (h : trace (step cfg) Server.new es = past ++ t :: rest) :
    Explained cfg (past ++ [t]) t.post ∧
    (∀ output, t.event.2.endpoint = .getBoundProfilePackage →
      (serve cfg t.event.1 t.event.2 t.pre).1 = .ok (some output) →
        ∃ content transactionId ss, t.event.2.content = some content ∧
          output.lookup "transactionId" = some transactionId ∧
          t.pre.rss transactionId = some ss ∧ Downloads cfg content transactionId ss) ∧
    ∀ transactionId ss, t.pre.rss transactionId = some ss → t.post.rss transactionId = none →
      ∃ content euiccCert, t.event.2.content = some content ∧ ss.euiccCert = some euiccCert ∧
        (t.event.2.endpoint = .handleNotification ∧ Notifies cfg content transactionId euiccCert ∨
          t.event.2.endpoint = .cancelSession ∧ Cancels cfg content transactionId euiccCert) := by
  refine ⟨(explained_of_trace h).2, fun output => serve_package,
    fun transactionId ss hss hnone => ?_⟩
  have hmem : t ∈ trace (step cfg) Server.new es := by
    rw [h]
    exact List.mem_append_right _ List.mem_cons_self
  have hpost := Option.some.inj (mem_trace .init hmem).2.1
  rw [← hpost] at hnone
  exact removed_signed hss hnone

/-! ## A run -/

theorem base64Encode_ascii (bs : Bytes) : ∀ c ∈ Lpa.base64Encode bs, c.toNat < 128 := by
  have hchar : ∀ n, (Lpa.basis64 n).toNat < 128 := by
    intro n
    unfold Lpa.basis64
    split_ifs <;> simp only [UInt8.toNat_ofNat', UInt8.reduceToNat] <;> omega
  induction bs using Lpa.base64Encode.induct with
  | case1 a b c r ih =>
    simp only [Lpa.base64Encode, List.forall_mem_cons, hchar, true_and]
    exact ih
  | case2 a b => simp [Lpa.base64Encode, hchar]
  | case3 a => simp [Lpa.base64Encode, hchar]
  | case4 => simp [Lpa.base64Encode]

/-- Values in base64 are decoded. -/
theorem b64decodeValue_b64encode2str (bs : Bytes) :
    b64decodeValue (.str (b64encode2str bs)) = some bs := by
  have hcode : ∀ n < 128, (Char.ofNat n).toNat = n := by decide
  have hchar : ∀ c ∈ Lpa.base64Encode bs, (Char.ofNat c.toNat).toNat = c.toNat :=
    fun c hc => hcode _ (base64Encode_ascii bs c hc)
  have hascii : asciiBytes (.str (b64encode2str bs)) = some (Lpa.base64Encode bs) := by
    have hall : (b64encode2str bs).toList.all fun c => c.toNat < 128 := by
      rw [b64encode2str, String.toList_ofList, List.all_map, List.all_eq_true]
      intro c hc
      simpa [hchar c hc] using base64Encode_ascii bs c hc
    simp only [asciiBytes, asStr, Option.bind_some, hall, if_true]
    rw [b64encode2str, String.toList_ofList, List.map_map, Option.some.injEq]
    refine (List.map_congr_left fun c hc => ?_).trans (List.map_id _)
    simp [hchar c hc]
  rw [b64decodeValue, hascii, Option.bind_some, b64decode_base64Encode]

/-- The bytes of a text of hexadecimal digits. -/
def textToBytes (s : String) : Option Bytes :=
  Lpa.hexPairs (s.toList.map fun c => UInt8.ofNat c.toNat)

/-- Exchange the characters of every pair. -/
def swapPairs : List Char → List Char
  | a :: b :: r => b :: a :: swapPairs r
  | r => r

/-- A signature: two numbers of 32 octets. -/
def sampleSignature (rs : ℕ × ℕ) : Bytes := Der.beBytes 32 rs.1 ++ Der.beBytes 32 rs.2

/-- The information of a card that knows the key of the CI. -/
def sampleInfo1 : Bytes :=
  let keys := Der.tlv 0x04 (sampleKeyIdentifier 0)
  Der.tlv 0xBF20 (Der.tlv 0x82 [2, 2, 0] ++ Der.tlv 0xA9 keys ++ Der.tlv 0xAA keys)

/-- A card's first message: an address, a challenge and its information. -/
def sampleInitiation : List (String × Value) :=
  [("smdpAddress", .str "h:8443"), ("euiccChallenge", .str (b64encode2str (List.replicate 16 1))),
    ("euiccInfo1", .str (b64encode2str sampleInfo1))]

/-- The ICCID in the header of a profile. -/
def sampleIccid : Bytes := [0x89, 0x49, 0x44, 0x99, 0x99, 0x99, 0x99, 0x99, 0x90, 0x04]

/-- A profile: a header and the end. -/
def sampleProfile : Bytes :=
  Der.tlv 0xA0 (Der.tlv 0x80 [2] ++ Der.tlv 0x81 [3] ++ Der.tlv 0x83 sampleIccid ++
    Der.tlv 0xA5 [] ++ Der.tlv 0xA6 []) ++
  Der.tlv 0xAA (Der.tlv 0xA0 (Der.tlv 0x80 [] ++ Der.tlv 0x81 [1]))

/-- The name under which the server knows itself in its packages. -/
def sampleHostId : Bytes := "mahlzeit".toUTF8.toList

/-- SHA-256 of the secret of the private key 1 and the base point, with a counter and the shared
information of the server and the card, too. -/
def exchangeSha256 (bs : Bytes) : Vector UInt8 32 :=
  let info := sharedInfo sampleHostId
    [0x89, 0x04, 0x90, 0x32, 0x12, 0x34, 0x51, 0x23, 0x45, 0x12, 0x34, 0x56, 0x78, 0x90, 0x12, 0x35]
  if bs = (Card.octets Card.sampleX).toList ++ [0, 0, 0, 1] ++ info then
    Card.octets 0x5ab33b63364362ef368b8ef9d28f6c0b66f490cf33b269f2ff26a2fc942a039d
  else if bs = (Card.octets Card.sampleX).toList ++ [0, 0, 0, 2] ++ info then
    Card.octets 0x190ec38d0d63b0dd2bcf07956a086bb1ceb7d11b0e98cd51df9758c019be5c50
  else sampleSha256 bs

/-- A function that is in use for one argument only. -/
def only {α β : Type} [DecidableEq α] (a : α) (b other : β) : α → β :=
  fun a' => if a' = a then b else other

theorem only_self {α β : Type} [DecidableEq α] (a : α) (b other : β) : only a b other a = b :=
  if_pos rfl

theorem only_eq {α β : Type} [DecidableEq α] {a a' : α} {b other r : β}
    (h : only a b other a' = r) (hr : other ≠ r) : a' = a ∧ b = r := by
  unfold only at h
  split_ifs at h with ha
  · exact ⟨ha, h⟩
  · exact absurd h hr

/-- What is random when the server and the card of the samples meet: the transaction, and the
signatures, which are made with the keys of the certificates. -/
structure Exchange where
  random : UInt8
  serverSignature1 : ℕ × ℕ
  euiccSignature1 : ℕ × ℕ
  smdpSignature2 : ℕ × ℕ
  euiccSignature2 : ℕ × ℕ
  smdpSign : ℕ × ℕ
  euiccSignPIR : ℕ × ℕ

namespace Exchange

variable (x : Exchange)

/-- The transaction. -/
def transactionId : Bytes := uuid4 (Vector.replicate 16 x.random)

/-- What the server signs when the card has started the session. -/
def serverSigned1 : Bytes :=
  Der.tlv 0x30 (Der.tlv 0x80 x.transactionId ++ Der.tlv 0x81 (List.replicate 16 1) ++
    Der.tlv 0x83 "h".toUTF8.toList ++ Der.tlv 0x84 (List.replicate 16 0x5C))

/-- What the card signs when it authenticates. -/
def euiccSigned1 : Bytes :=
  Der.tlv 0x30 (Der.tlv 0x80 x.transactionId ++ Der.tlv 0x83 "h".toUTF8.toList ++
    Der.tlv 0x84 (List.replicate 16 0x5C) ++ Der.tlv 0xBF22 Card.buildEuiccinfo2 ++
    Der.tlv 0xA0 (Der.tlv 0x80 "P".toUTF8.toList ++ Der.tlv 0xA1 Card.deviceInfo))

/-- Its response. -/
def authentication : Bytes :=
  Der.tlv 0xBF38 (Der.tlv 0xA0 (x.euiccSigned1 ++
    Der.tlv 0x5F37 (sampleSignature x.euiccSignature1) ++ sampleCertificate 2 ++
    sampleCertificate 1))

/-- What the server signs before the download, besides the card's signature. -/
def smdpSigned2 : Bytes := Der.tlv 0x30 (Der.tlv 0x80 x.transactionId ++ Der.tlv 0x01 [0])

/-- What the card signs before the download, besides the server's signature. -/
def euiccSigned2 : Bytes :=
  Der.tlv 0x30 (Der.tlv 0x80 x.transactionId ++ Der.tlv 0x5F49 Card.sampleSmdpOtpk)

/-- The card's response before the download. -/
def preparation : Bytes :=
  Der.tlv 0xBF21 (Der.tlv 0xA0 (x.euiccSigned2 ++
    Der.tlv 0x5F37 (sampleSignature x.euiccSignature2)))

/-- The server's request to open the channel. -/
def iscr : InitialiseSecureChannelRequest :=
  ⟨1, x.transactionId, ⟨[0x88], [16], sampleHostId⟩, Card.sampleSmdpOtpk,
    sampleSignature x.smdpSign⟩

/-- What the server signs for the channel. -/
def iscrSigned : Bytes :=
  Der.tlv 0x82 [1] ++ Der.tlv 0x80 x.transactionId ++
    Der.tlv 0xA6 (Der.tlv 0x80 [0x88] ++ Der.tlv 0x81 [16] ++ Der.tlv 0x84 sampleHostId) ++
    Der.tlv 0x5F49 Card.sampleSmdpOtpk ++ Der.tlv 0x5F49 Card.sampleSmdpOtpk

/-- The result of the installation. -/
def result : ProfileInstallationResultData where
  transactionId := x.transactionId
  notificationMetadata := ⟨1, ([0x80], 1), "localhost", none⟩
  smdpOid := [2, 999, 10]
  finalResult := .successResult [0xA0, 0x00, 0x00, 0x05, 0x59, 0x10, 0x10, 0xFF, 0xFF, 0xFF, 0xFF,
    0x89, 0x00, 0x00, 0x10, 0x00] [0x90, 0x00]

/-- The result in DER. -/
def resultDer : Bytes :=
  Der.tlv 0xBF27 (Der.tlv 0x80 x.transactionId ++
    Der.tlv 0xBF2F (Der.tlv 0x80 [1] ++ Der.tlv 0x81 [0x07, 0x80] ++
      Der.tlv 0x0C "localhost".toUTF8.toList) ++
    Der.tlv 0x06 [0x88, 0x37, 0x0A] ++
    Der.tlv 0xA2 (Der.tlv 0xA0 (Der.tlv 0x4F [0xA0, 0x00, 0x00, 0x05, 0x59, 0x10, 0x10, 0xFF, 0xFF,
      0xFF, 0xFF, 0x89, 0x00, 0x00, 0x10, 0x00] ++ Der.tlv 0x04 [0x90, 0x00])))

/-- The notification about the installation. -/
def notification : Bytes :=
  Der.tlv 0xBF37 (x.resultDer ++ Der.tlv 0x5F37 (sampleSignature x.euiccSignPIR))

/-- What is signed, with the certificates of the keys. -/
def signed : List (ℕ × Bytes × (ℕ × ℕ)) :=
  [(3, x.serverSigned1, x.serverSignature1), (2, x.euiccSigned1, x.euiccSignature1),
    (4, x.smdpSigned2 ++ Der.tlv 0x5F37 (sampleSignature x.euiccSignature1), x.smdpSignature2),
    (2, x.euiccSigned2 ++ Der.tlv 0x5F37 (sampleSignature x.smdpSignature2), x.euiccSignature2),
    (4, x.iscrSigned, x.smdpSign), (2, x.resultDer, x.euiccSignPIR)]

/-- The signature of data. -/
def sign (cert : ℕ) (data : Bytes) : Option (ℕ × ℕ) :=
  (x.signed.find? fun s => s.1 = cert ∧ s.2.1 = data).map fun s => s.2.2

/-- Whether a signature is the one of data. -/
def verify (cert : ℕ) (signature data : Bytes) : Option Bool :=
  if signature.length = 64 then
    some ((x.sign cert data).any fun rs => sampleSignature rs = signature)
  else none

/-- Libraries for the packages. -/
def libraries : Libraries :=
  { sampleLib with
    x963kdf := x963 exchangeSha256
    h2b := textToBytes
    storeMetadataRequest := ⟨fun smr => some (storeMetadataOctets smr), fun _ => none⟩
    initialiseSecureChannelRequest := .single x.iscr (encodeIscr x.iscr)
    replaceSessionKeysRequest := ⟨fun rsk => some (encodeRsk rsk), fun _ => none⟩ }

/-- What is decoded of the card's response. -/
def authenticateResponseOk : AuthenticateResponseOk ℕ :=
  ⟨⟨List.replicate 16 0x5C, .ctxParamsForCommonAuthentication (some "P")⟩,
    sampleSignature x.euiccSignature1, 2, 1⟩

/-- Libraries for the messages of the exchange, which verify signatures like this. -/
def libWith (ecdsaVerify : ℕ → Bytes → Bytes → Option Bool) : Es9Lib ℕ ℕ :=
  { sampleX509, x.libraries with
    decodeCancelSessionResponse := fun _ => none
    encodeEuiccCancelSessionSigned := fun _ => none
    ecdsaVerify := ecdsaVerify
    b2h := hexText false
    swapNibbles := fun s => some (String.ofList (swapPairs s.toList))
    decodeEuiccInfo1 :=
      only sampleInfo1 (some ⟨[sampleKeyIdentifier 0], none, some [sampleKeyIdentifier 0]⟩) none
    encodeServerSigned1 := fun signed => some
      (Der.tlv 0x30 (Der.tlv 0x80 signed.transactionId ++ Der.tlv 0x81 signed.euiccChallenge ++
        Der.tlv 0x83 signed.serverAddress.toUTF8.toList ++ Der.tlv 0x84 signed.serverChallenge))
    decodeAuthenticateServerResponse :=
      only x.authentication (.ok (.authenticateResponseOk x.authenticateResponseOk))
        (.error (.exception ""))
    encodeCertificate := fun n => some (sampleCertificate n)
    encodeSmdpSigned2 := fun signed => some
      (Der.tlv 0x30 (Der.tlv 0x80 signed.transactionId ++
        Der.tlv 0x01 [if signed.ccRequiredFlag then 0xFF else 0]))
    decodePrepareDownloadResponse :=
      only x.preparation (some (.downloadResponseOk ⟨x.transactionId, Card.sampleSmdpOtpk⟩
        (sampleSignature x.euiccSignature2))) none
    decodePendingNotification :=
      only x.notification (some (.profileInstallationResult x.result
        (sampleSignature x.euiccSignPIR))) none
    encodeProfileInstallationResultData := only x.result (some x.resultDer) none
    encodeNotificationMetadata := fun _ => none
    headerIccid := only sampleProfile (some sampleIccid) none }

/-- The server, with libraries that verify signatures like this. -/
def configWith (ecdsaVerify : ℕ → Bytes → Bytes → Option Bool) : Config ℕ ℕ :=
  ⟨x.libWith ecdsaVerify, "h", [0], 3, 4⟩

theorem configWith_h2b (ecdsaVerify : ℕ → Bytes → Bytes → Option Bool) :
    (x.configWith ecdsaVerify).lib.h2b = textToBytes := rfl

/-- The server. -/
def config : Config ℕ ℕ := x.configWith x.verify

/-- What happens around the requests. -/
def serverEnv : Env where
  uuidRandom := Vector.replicate 16 x.random
  serverChallenge := Vector.replicate 16 0x5C
  dpAuthSign data := (x.sign 3 data).map sampleSignature
  dpPbSign data := (x.sign 4 data).map sampleSignature
  smdpOtpk := Card.sampleSmdpOtpk
  smdpOtExchange point := (Card.sampleEcdh (Card.octets 1) point).map Vector.toList
  timestamp := "2025-01-01T00:00:00Z"
  uppInside name := name = "P"
  uppReadable name := name = "P"
  uppRead name := if name = "P" then some sampleProfile else none

/-- A request with the headers of an LPA. -/
def request (endpoint : Endpoint) (content : List (String × Value)) : Env × Request :=
  (x.serverEnv, ⟨endpoint, some "application/json", some "gsma/rsp/v2.1.0", some (.dict content)⟩)

/-- A message in base64 for the transaction. -/
def content (name : String) (message : Bytes) : List (String × Value) :=
  [("transactionId", .str (hexText true x.transactionId)), (name, .str (b64encode2str message))]

/-- The card starts a session. -/
def start : Env × Request := x.request .initiateAuthentication sampleInitiation

/-- It authenticates. -/
def authenticate : Env × Request :=
  x.request .authenticateClient (x.content "authenticateServerResponse" x.authentication)

/-- It asks for its package. -/
def getPackage : Env × Request :=
  x.request .getBoundProfilePackage (x.content "prepareDownloadResponse" x.preparation)

/-- It has installed the profile. -/
def notify : Env × Request :=
  x.request .handleNotification
    [("pendingNotification", .str (b64encode2str x.notification))]

end Exchange

/-- An exchange with letters in the transaction. -/
def lettered : Exchange where
  random := 0xAB
  serverSignature1 :=
    (0x76543fd04fe730dbd31ab5ecbca9d160a858e8f2f88cecfca390ad2bc005a1ea,
      0x78843f90c8ec969141863fd07f5ac2934cdf6a090d09b910ea2a2b12084b2cc1)
  euiccSignature1 :=
    (0x0335e5883d55e779e43d4187bd1cd62d2b8c2be7c3e435cace9e72a64b21cc1e,
      0x22e6054d12ffa257e02b6cca4b4fe78a34ef805810239aa4c1177add336d81df)
  smdpSignature2 :=
    (0x05558d355582dd0afed336c1158918d2c8bf4eb7fb50debb4b27896396e4257c,
      0x648dfd49743e606790ca291e8c99ae1e31b4e26e61d0a72ceea457c58b78d559)
  euiccSignature2 :=
    (0x6bee8f44d68914164928f278734562f4d41fd54709884df661ac12a50e861e93,
      0x187cd123423b030682c8d8b3eeee9176611116d10f4d4f3e2d809568a38cfaa8)
  smdpSign :=
    (0x5544716db8f12c232dc305bc2e750d0a18350fc76bcd0ea6ffb842932c2ae5d7,
      0x30a1719e5573cfb66b3cbebef4a94795c423eb9586eb52e0fae77faef4d3211c)
  euiccSignPIR :=
    (0x0dd285e6c259321fe4b29ff9b5dd5721a6d94265af2358c5f5799cb44f66ee94,
      0x3535e3c54d08cae20262d47aa582e498c550d54fa9b700be44a0ed90f6f636ca)

/-- An exchange with decimal digits only in the transaction. -/
def unlettered : Exchange where
  random := 0x11
  serverSignature1 :=
    (0x6e866cffa82a7665bd2a07dd7757a6342d6098ba4c67f65445b598ddc7326416,
      0x77907d10d618af98ac2134f9bea583880b0373480e247b10710988bc82b30354)
  euiccSignature1 :=
    (0x7f13b5a042eb966cff752ae330738496afbfd45436aff348a2c6be3b7e5b5c7b,
      0x1a3cb8123f61ac3bdeabedc783d376cd7530e9ff27a059cee94312a141a9aa81)
  smdpSignature2 :=
    (0x3383dd881d884567e30432148cda0ff46f69a41db59f9078c261702dad82ed17,
      0x081afb855a7b6aeab04ec0460cb32ebeee565e7d5744ac99b36d992a041a5088)
  euiccSignature2 :=
    (0x2b64a6c0a1ea7a6250976b9e4f65e9be78c9650b646d04cc646f9dc6f509a80b,
      0x540311d342f920359b424ae9b64527340731ac67723c2512b81f0457ef8c4af7)
  smdpSign :=
    (0x1f99a7d7706a8c4ce6f76d0845576f3c4c5b183ad3cebc854dacb9d2339270c4,
      0x6c685b632aa8d7f641457995ba35e5411c2781427388410f0f5b457786ea463a)
  euiccSignPIR :=
    (0x5cf82b3ace5f6709e78cc9f9b66d3b1db6eb01311451aa4a91faa436475d50d7,
      0x468494042b88eeefc21aa7afe4d4363f48cf4a628b10b9929e2ff91b95667578)

section

variable (x : Exchange)

theorem getItem_content {name : String} (hname : name ≠ "transactionId") (message : Bytes) :
    getItem "transactionId" (.dict (x.content name message)) =
        some (.str (hexText true x.transactionId)) ∧
      (getItem name (.dict (x.content name message))).bind b64decodeValue = some message := by
  have hne : (name == "transactionId") = false := beq_eq_false_iff_ne.2 hname
  simp [getItem, Exchange.content, List.lookup_cons, hne, b64decodeValue_b64encode2str]

theorem getItem_notification (message : Bytes) :
    (getItem "pendingNotification" (.dict [("pendingNotification",
      .str (b64encode2str message))])).bind b64decodeValue = some message := by
  simp [getItem, b64decodeValue_b64encode2str]

/-- The requests have the headers of an LPA. -/
theorem validate_request (endpoint : Endpoint) (content : List (String × Value)) :
    validateRequestHeaders (x.request endpoint content).2 = .ok () := by
  have htype : "application/json".startsWith "application/json" = true := by decide +kernel
  have hprotocol : "gsma/rsp/v2.1.0".startsWith "gsma/rsp/v" = true := by decide +kernel
  simp [validateRequestHeaders, Exchange.request, htype, hprotocol, require, bind, Except.bind]

theorem request_fst (endpoint : Endpoint) (content : List (String × Value)) :
    (x.request endpoint content).1 = x.serverEnv := rfl

theorem serve_request (cfg : Config ℕ ℕ) (env : Env) (endpoint : Endpoint)
    (content : List (String × Value)) (s : Server ℕ) :
    serve cfg env (x.request endpoint content).2 s =
      callFunction cfg env endpoint (.dict content) s := by
  unfold serve
  rw [validate_request]
  rfl

end

/-! ## The steps of an exchange -/

/-- The metadata of the profile. -/
def sampleMetadata : ProfileMetadata where
  iccidBin := [0x98, 0x94, 0x44, 0x99, 0x99, 0x99, 0x99, 0x99, 0x09, 0x40]
  spn := "OsmocomSPN"
  profileName := "P"
  icon := none
  iconType := none
  notifications := ["enable", "disable", "delete"].map fun event => (event, "h")


namespace Exchange

variable (x : Exchange)

/-- The session when it is started. -/
def started : Session ℕ :=
  Session.new (hexText true x.transactionId) (List.replicate 16 0x5C) (sampleKeyIdentifier 0)

/-- The session when the card has authenticated. -/
def authenticated : Session ℕ :=
  { x.started with
    euiccCert := some 2
    eumCert := some 1
    eid := some sampleEid
    profileMetadata := some sampleMetadata
    matchingId := some "P"
    smdpSignature2Do := some (Der.tlv 0x5F37 (sampleSignature x.smdpSignature2)) }

/-- The session when its package is sent. -/
def bound : Session ℕ :=
  { x.authenticated with
    euiccOtpk := some Card.sampleSmdpOtpk
    smdpOtpk := some Card.sampleSmdpOtpk
    hostId := some sampleHostId
    sharedSecret := some (Card.octets Card.sampleX).toList }

/-- The history with the download. -/
def recorded : DownloadHistoryStore :=
  (recordBinding x.config x.serverEnv (hexText true x.transactionId) x.bound
    DownloadHistoryStore.new).toOption.getD DownloadHistoryStore.new

/-- The server with a session and a history. -/
def server (ss : Option (Session ℕ)) (history : DownloadHistoryStore) : Server ℕ :=
  ⟨Function.update (fun _ => none) (hexText true x.transactionId) ss, history⟩

end Exchange

section

theorem server_rss (x : Exchange) (ss : Option (Session ℕ)) (history : DownloadHistoryStore) :
    (x.server ss history).rss (hexText true x.transactionId) = ss := by
  simp [Exchange.server]

theorem server_update (x : Exchange) (ss ss' : Option (Session ℕ))
    (history : DownloadHistoryStore) :
    Function.update (x.server ss history).rss (hexText true x.transactionId) ss' =
      (x.server ss' history).rss := by
  simp [Exchange.server]

variable {x : Exchange} {ecdsaVerify : ℕ → Bytes → Bytes → Option Bool} {rss : SessionStore ℕ}

theorem ok_of_toOption {α : Type} {r : Except Failure α} {a : α} (h : r.toOption = some a) :
    r = .ok a := by
  cases r with
  | error failure => cases h
  | ok b => exact congrArg Except.ok (Option.some.inj h)

theorem sample_facts :
    (checkInitiation lettered.config (.dict sampleInitiation)).toOption =
      some (List.replicate 16 1, 0) ∧
    (sampleX509.loadDerX509Certificate (sampleCertificate 2) = some 2 ∧
      sampleX509.loadDerX509Certificate (sampleCertificate 1) = some 1) ∧
    ((certificateSet lettered.config (sampleKeyIdentifier 0) 1).toOption.map fun cs =>
      cs.verifyCertChain sampleX509 2) = some .verified ∧
    validateEidRange sampleX509 sampleEid 1 = true ∧
    (selectProfile lettered.config lettered.serverEnv
      (.ctxParamsForCommonAuthentication (some "P"))).toOption = some ("P", sampleIccid) ∧
    (profileMetadata lettered.config "P" sampleIccid).toOption = some sampleMetadata ∧
    (sampleMetadata.genStoreMetadataRequest lettered.libraries).isSome ∧
    Card.sampleEcdh (Card.octets 1) Card.sampleSmdpOtpk = some (Card.octets Card.sampleX) := by
  decide +kernel

theorem exchange_facts : ∀ x ∈ [lettered, unlettered],
    textToBytes (hexText true x.transactionId) = some x.transactionId ∧
    x.serverEnv.dpAuthSign x.serverSigned1 = some (sampleSignature x.serverSignature1) ∧
    extractEuiccSigned1 derBertlv x.authentication = some x.euiccSigned1 ∧
    x.serverEnv.dpPbSign (x.smdpSigned2 ++ [0x5F, 0x37, 0x40] ++
      sampleSignature x.euiccSignature1) = some (sampleSignature x.smdpSignature2) ∧
    extractEuiccSigned2 derBertlv x.preparation = some x.euiccSigned2 ∧
    [0x5F, 0x37, 0x40] ++ sampleSignature x.smdpSignature2 =
      Der.tlv 0x5F37 (sampleSignature x.smdpSignature2) ∧
    (recordBinding x.config x.serverEnv (hexText true x.transactionId) x.bound
      DownloadHistoryStore.new).isOk ∧
    (((protectionKeys derBertlv).bind fun bsp => ProtectedProfilePackage.fromUpp x.libraries
      (some sampleProfile) ⟨some sampleMetadata⟩ bsp).bind fun r =>
        x.bound.toState.bind fun state => (BoundProfilePackage.fromPpp r.1).encode x.libraries
          (some sampleProfile) state x.serverEnv.dpPbSign).isSome := by
  decide +kernel

theorem start_exchange (hx : x ∈ [lettered, unlettered])
    (hnew : rss (hexText true x.transactionId) = none) : ∃ output,
    newSession (x.configWith ecdsaVerify) x.serverEnv (.dict sampleInitiation) rss =
      .ok (output, x.started) := by
  obtain ⟨hid, hsign, -⟩ := exchange_facts x hx
  have hcheck : checkInitiation (x.configWith ecdsaVerify) (.dict sampleInitiation) =
      .ok (List.replicate 16 1, 0) := by
    have h := sample_facts.1
    change (checkInitiation (x.configWith ecdsaVerify) _).toOption = _ at h
    exact ok_of_toOption h
  have hfresh : require (rss (hexText true x.transactionId)).isNone .exception = .ok () := by
    rw [hnew]
    rfl
  have hrandom : hexText true (uuid4 x.serverEnv.uuidRandom) = hexText true x.transactionId := rfl
  have hsigned : (x.configWith ecdsaVerify).lib.encodeServerSigned1 ⟨x.transactionId,
      List.replicate 16 1, (x.configWith ecdsaVerify).serverHostname,
      x.serverEnv.serverChallenge.toList⟩ = some x.serverSigned1 := rfl
  unfold newSession
  rw [hcheck]
  simp only [bind, Except.bind, hrandom, hfresh, Exchange.configWith_h2b, hid, orRaise, hsigned,
    hsign]
  exact ⟨_, rfl⟩

theorem read_exchange (hx : x ∈ [lettered, unlettered]) :
    readAuthentication (x.configWith ecdsaVerify)
      (.dict (x.content "authenticateServerResponse" x.authentication)) =
        .ok (x.euiccSigned1, x.authenticateResponseOk, 2, 1) := by
  obtain ⟨-, -, hextract, -⟩ := exchange_facts x hx
  obtain ⟨-, ⟨heuicc, heum⟩, -⟩ := sample_facts
  obtain ⟨-, hitem⟩ := getItem_content x
    (show "authenticateServerResponse" ≠ _ by decide) x.authentication
  have hdecode : (x.configWith ecdsaVerify).lib.decodeAuthenticateServerResponse =
      only x.authentication (.ok (.authenticateResponseOk x.authenticateResponseOk))
        (.error (.exception "")) := rfl
  have hextract' : extractEuiccSigned1 (x.configWith ecdsaVerify).lib.tlv x.authentication =
    some x.euiccSigned1 := hextract
  have hload : loadCertificate (x.configWith ecdsaVerify)
      x.authenticateResponseOk.euiccCertificate = .ok 2 := congrArg orRaise heuicc
  have hload' : loadCertificate (x.configWith ecdsaVerify)
      x.authenticateResponseOk.eumCertificate = .ok 1 := congrArg orRaise heum
  unfold readAuthentication
  rw [hitem, orRaise_some, ok_bind, hdecode, only_self]
  dsimp only
  rw [hextract', orRaise_some, ok_bind, hload, ok_bind, hload', ok_bind]
  rfl

theorem verify_exchange
    (hverify : ecdsaVerify 2 (sampleSignature x.euiccSignature1) x.euiccSigned1 = some true) :
    verifyAuthentication (x.configWith ecdsaVerify) x.started x.euiccSigned1
      x.authenticateResponseOk 2 1 =
        .ok { x.started with euiccCert := some 2, eumCert := some 1, eid := some sampleEid } := by
  obtain ⟨-, -, hchain, hrange, -⟩ := sample_facts
  obtain ⟨cs, hcs, hverified⟩ := Option.map_eq_some_iff.1 hchain
  have hset : certificateSet (x.configWith ecdsaVerify) (sampleKeyIdentifier 0) 1 = .ok cs :=
    ok_of_toOption hcs
  have hverify' : (x.configWith ecdsaVerify).lib.ecdsaVerify 2
      x.authenticateResponseOk.euiccSignature1 x.euiccSigned1 = some true := hverify
  have hverified' : cs.verifyCertChain (x.configWith ecdsaVerify).lib.toX509 2 = .verified :=
    hverified
  have hrange' : validateEidRange (x.configWith ecdsaVerify).lib.toX509 sampleEid 1 = true :=
    hrange
  have haki : (x.configWith ecdsaVerify).lib.authorityKeyIdentifier 1 =
    some (some (sampleKeyIdentifier 0)) := rfl
  have hserial : (x.configWith ecdsaVerify).lib.serialNumber 2 = some sampleEid := rfl
  have hci : x.started.ciCertId = sampleKeyIdentifier 0 := rfl
  have hchallenge : x.authenticateResponseOk.euiccSigned1.serverChallenge =
    x.started.serverChallenge := rfl
  unfold verifyAuthentication
  simp only [haki, orRaise_some, ok_bind, hci, decide_true, hset, hverified', hverify', hserial,
    hrange', hchallenge]
  rfl

theorem authenticate_exchange (hx : x ∈ [lettered, unlettered])
    (hverify : ecdsaVerify 2 (sampleSignature x.euiccSignature1) x.euiccSigned1 = some true)
    (hss : rss (hexText true x.transactionId) = some x.started) : ∃ output,
    authenticateSession (x.configWith ecdsaVerify) x.serverEnv
      (.dict (x.content "authenticateServerResponse" x.authentication)) rss =
        .ok (output, hexText true x.transactionId, x.authenticated) := by
  obtain ⟨hid, -, -, hsign, -, hdo, -⟩ := exchange_facts x hx
  obtain ⟨-, -, -, -, hprofile, hmetadata, hstored, -⟩ := sample_facts
  obtain ⟨stored, hstored⟩ := Option.isSome_iff_exists.1 hstored
  obtain ⟨htid, -⟩ := getItem_content x
    (show "authenticateServerResponse" ≠ _ by decide) x.authentication
  have hprofile' : selectProfile (x.configWith ecdsaVerify) x.serverEnv
      x.authenticateResponseOk.euiccSigned1.ctxParams1 = .ok ("P", sampleIccid) :=
    ok_of_toOption hprofile
  have hmetadata' : profileMetadata (x.configWith ecdsaVerify) "P" sampleIccid =
    .ok sampleMetadata := ok_of_toOption hmetadata
  have hstored' : sampleMetadata.genStoreMetadataRequest
    (x.configWith ecdsaVerify).lib.toLibraries = some stored := hstored
  have hid' : textToBytes x.started.transactionId = some x.transactionId := hid
  have hsigned : (x.configWith ecdsaVerify).lib.encodeSmdpSigned2 ⟨x.transactionId, false⟩ =
    some x.smdpSigned2 := rfl
  have hsign' : x.serverEnv.dpPbSign (x.smdpSigned2 ++ [0x5F, 0x37, 0x40] ++
    x.authenticateResponseOk.euiccSignature1) = some (sampleSignature x.smdpSignature2) := hsign
  unfold authenticateSession
  rw [htid, orRaise_some, ok_bind, read_exchange hx, ok_bind]
  dsimp only
  rw [asStr, orRaise_some, ok_bind, hss]
  dsimp only
  rw [verify_exchange hverify, ok_bind, hprofile', ok_bind]
  dsimp only
  rw [hmetadata', ok_bind, hstored', orRaise_some, ok_bind, Exchange.configWith_h2b, hid',
    orRaise_some, ok_bind, hsigned,
    orRaise_some, ok_bind, hsign', orRaise_some, ok_bind, hdo]
  exact ⟨_, rfl⟩

theorem download_exchange (hx : x ∈ [lettered, unlettered])
    (hverify : ecdsaVerify 2 (sampleSignature x.euiccSignature2)
      (x.euiccSigned2 ++ Der.tlv 0x5F37 (sampleSignature x.smdpSignature2)) = some true)
    (hss : rss (hexText true x.transactionId) = some x.authenticated) :
    verifyDownload (x.configWith ecdsaVerify)
      (.dict (x.content "prepareDownloadResponse" x.preparation)) rss =
        .ok (hexText true x.transactionId, x.authenticated,
          ⟨x.transactionId, Card.sampleSmdpOtpk⟩) := by
  obtain ⟨hid, -, -, -, hextract, -⟩ := exchange_facts x hx
  obtain ⟨htid, hitem⟩ := getItem_content x
    (show "prepareDownloadResponse" ≠ _ by decide) x.preparation
  have hdecode : (x.configWith ecdsaVerify).lib.decodePrepareDownloadResponse =
    only x.preparation (some (.downloadResponseOk ⟨x.transactionId, Card.sampleSmdpOtpk⟩
      (sampleSignature x.euiccSignature2))) none := rfl
  have hextract' : extractEuiccSigned2 (x.configWith ecdsaVerify).lib.tlv x.preparation =
    some x.euiccSigned2 := hextract
  have hverify' : (x.configWith ecdsaVerify).lib.ecdsaVerify 2
      (sampleSignature x.euiccSignature2)
      (x.euiccSigned2 ++ Der.tlv 0x5F37 (sampleSignature x.smdpSignature2)) = some true := hverify
  have hcert : x.authenticated.euiccCert = some 2 := rfl
  have hdo : x.authenticated.smdpSignature2Do =
    some (Der.tlv 0x5F37 (sampleSignature x.smdpSignature2)) := rfl
  unfold verifyDownload
  rw [htid, Option.bind_some, asStr, orRaise_some, ok_bind, hss]
  dsimp only
  rw [hitem, orRaise_some, ok_bind, hdecode, only_self, orRaise_some, ok_bind]
  dsimp only
  rw [hextract', orRaise_some, ok_bind, hcert, orRaise_some, ok_bind, hdo, orRaise_some, ok_bind,
    hverify', orRaise_some, ok_bind, Exchange.configWith_h2b, hid, orRaise_some, ok_bind,
    decide_eq_true rfl]
  rfl

theorem binding_exchange :
    prepareBinding x.serverEnv x.authenticated ⟨x.transactionId, Card.sampleSmdpOtpk⟩ =
      .ok (x.bound, ⟨some sampleMetadata⟩, some sampleProfile) := by
  obtain ⟨-, -, -, -, -, -, -, hshared⟩ := sample_facts
  have hsecret : x.serverEnv.smdpOtExchange Card.sampleSmdpOtpk =
    some (Card.octets Card.sampleX).toList := congrArg (Option.map Vector.toList) hshared
  unfold prepareBinding
  rw [hsecret]
  rfl

theorem record_exchange (hx : x ∈ [lettered, unlettered]) :
    recordBinding (x.configWith ecdsaVerify) x.serverEnv (hexText true x.transactionId) x.bound
      DownloadHistoryStore.new = .ok x.recorded := by
  obtain ⟨-, -, -, -, -, -, hrecord, -⟩ := exchange_facts x hx
  change recordBinding x.config x.serverEnv (hexText true x.transactionId) x.bound
    DownloadHistoryStore.new = .ok x.recorded
  unfold Exchange.recorded
  generalize recordBinding x.config x.serverEnv (hexText true x.transactionId) x.bound
    DownloadHistoryStore.new = result at hrecord ⊢
  cases result with
  | error failure => cases hrecord
  | ok history => rfl

theorem getPackage_exchange (hx : x ∈ [lettered, unlettered])
    (hverify : ecdsaVerify 2 (sampleSignature x.euiccSignature2)
      (x.euiccSigned2 ++ Der.tlv 0x5F37 (sampleSignature x.smdpSignature2)) = some true) :
    ∃ output, getBoundProfilePackage (x.configWith ecdsaVerify) x.serverEnv
      (.dict (x.content "prepareDownloadResponse" x.preparation))
      (x.server (some x.authenticated) DownloadHistoryStore.new) =
        (.ok (some output), x.server (some x.bound) x.recorded) := by
  obtain ⟨-, -, -, -, -, -, -, hpackage⟩ := exchange_facts x hx
  have hdownload := download_exchange hx hverify
    (server_rss x (some x.authenticated) DownloadHistoryStore.new)
  have hrecord : recordBinding (x.configWith ecdsaVerify) x.serverEnv
      (hexText true x.transactionId) x.bound
      (x.server (some x.authenticated) DownloadHistoryStore.new).downloadHistory =
        .ok x.recorded := record_exchange hx
  obtain ⟨⟨bpp, bpp'⟩, hpackage⟩ := Option.isSome_iff_exists.1 hpackage
  obtain ⟨⟨ppp, bsp⟩, hprotect, hencode⟩ := Option.bind_eq_some_iff.1 hpackage
  have hprotect' : ((protectionKeys (x.configWith ecdsaVerify).lib.tlv).bind fun bsp =>
      ProtectedProfilePackage.fromUpp (x.configWith ecdsaVerify).lib.toLibraries
        (some sampleProfile) ⟨some sampleMetadata⟩ bsp) = some (ppp, bsp) := hprotect
  have hencode' : (x.bound.toState.bind fun state => (BoundProfilePackage.fromPpp ppp).encode
      (x.configWith ecdsaVerify).lib.toLibraries (some sampleProfile) state
        x.serverEnv.dpPbSign) = some (bpp, bpp') := hencode
  unfold getBoundProfilePackage
  rw [hdownload]
  dsimp only
  rw [binding_exchange]
  dsimp only
  rw [hrecord]
  dsimp only
  rw [hprotect']
  dsimp only
  rw [hencode']
  dsimp only
  exact ⟨_, congrArg (Prod.mk _) (congrArg (Server.mk · x.recorded) (server_update ..))⟩

/-- **The exchange.** The card authenticates, gets its package, and the session is there until it is
closed. -/
theorem exchange_run (hx : x ∈ [lettered, unlettered])
    (hverify : ecdsaVerify 2 (sampleSignature x.euiccSignature1) x.euiccSigned1 = some true)
    (hverify' : ecdsaVerify 2 (sampleSignature x.euiccSignature2)
      (x.euiccSigned2 ++ Der.tlv 0x5F37 (sampleSignature x.smdpSignature2)) = some true) :
    after (x.configWith ecdsaVerify) [x.start, x.authenticate] =
      x.server (some x.authenticated) DownloadHistoryStore.new ∧
    (∃ output, (serve (x.configWith ecdsaVerify) x.getPackage.1 x.getPackage.2
      (after (x.configWith ecdsaVerify) [x.start, x.authenticate])).1 = .ok (some output)) ∧
    after (x.configWith ecdsaVerify) [x.start, x.authenticate, x.getPackage] =
      x.server (some x.bound) x.recorded := by
  have hstart : after (x.configWith ecdsaVerify) [x.start] =
      x.server (some x.started) DownloadHistoryStore.new := by
    obtain ⟨output, hnew⟩ := @start_exchange x ecdsaVerify (fun _ => none) hx rfl
    rw [← List.nil_append [x.start], after_concat, Exchange.start, serve_request, request_fst]
    simp only [callFunction]
    unfold initiateAuthentication
    rw [show (after (x.configWith ecdsaVerify) []).rss = fun _ => none from rfl, hnew]
    rfl
  have hauthenticate : after (x.configWith ecdsaVerify) [x.start, x.authenticate] =
      x.server (some x.authenticated) DownloadHistoryStore.new := by
    obtain ⟨output, hok⟩ := authenticate_exchange hx hverify
      (server_rss x (some x.started) DownloadHistoryStore.new)
    rw [← List.singleton_append, after_concat, hstart, Exchange.authenticate, serve_request,
      request_fst]
    simp only [callFunction]
    unfold authenticateClient
    rw [hok]
    exact congrArg (Server.mk · _) (server_update ..)
  obtain ⟨output, hpackage⟩ := getPackage_exchange hx hverify'
  have hserve : serve (x.configWith ecdsaVerify) x.getPackage.1 x.getPackage.2
      (after (x.configWith ecdsaVerify) [x.start, x.authenticate]) =
        (.ok (some output), x.server (some x.bound) x.recorded) := by
    rw [hauthenticate, Exchange.getPackage, serve_request, request_fst]
    exact hpackage
  refine ⟨hauthenticate, ⟨output, congrArg Prod.fst hserve⟩, ?_⟩
  have hlist : [x.start, x.authenticate, x.getPackage] =
    [x.start, x.authenticate] ++ [x.getPackage] := rfl
  rw [hlist, after_concat, hserve]

end

theorem verify_facts : (∀ x ∈ [lettered, unlettered],
      x.verify 2 (sampleSignature x.euiccSignature1) x.euiccSigned1 = some true ∧
      x.verify 2 (sampleSignature x.euiccSignature2)
        (x.euiccSigned2 ++ Der.tlv 0x5F37 (sampleSignature x.smdpSignature2)) = some true ∧
      x.verify 2 (sampleSignature x.euiccSignPIR) x.resultDer = some true) ∧
    hexText false unlettered.transactionId = hexText true unlettered.transactionId ∧
    (unlettered.recorded.updateDownload (hexText true unlettered.transactionId) "failed"
      unlettered.result.finalResult.value).isSome := by
  decide +kernel

/-- With the notification the session is gone, when its identifier has no letters. -/
theorem notify_exchange : (handleNotification unlettered.config (.dict [("pendingNotification",
      .str (b64encode2str unlettered.notification))])
      (unlettered.server (some unlettered.bound) unlettered.recorded)).2.rss
        (hexText true unlettered.transactionId) = none := by
  obtain ⟨hverify, hid, hhistory⟩ := verify_facts
  obtain ⟨history, hhistory⟩ := Option.isSome_iff_exists.1 hhistory
  obtain ⟨-, -, hverify⟩ := hverify unlettered (by simp)
  have hdecode : unlettered.config.lib.decodePendingNotification =
    only unlettered.notification (some (.profileInstallationResult unlettered.result
      (sampleSignature unlettered.euiccSignPIR))) none := rfl
  have hencode : unlettered.config.lib.encodeProfileInstallationResultData =
    only unlettered.result (some unlettered.resultDer) none := rfl
  have hid' : unlettered.config.lib.b2h unlettered.result.transactionId =
    hexText true unlettered.transactionId := hid
  have hcert : unlettered.bound.euiccCert = some 2 := rfl
  have hverify' : unlettered.config.lib.ecdsaVerify 2 (sampleSignature unlettered.euiccSignPIR)
    unlettered.resultDer = some true := hverify
  have hstatus : isStr "success" unlettered.result.finalResult.value = false := rfl
  unfold handleNotification
  rw [getItem_notification, Option.bind_some, hdecode, only_self]
  dsimp only
  rw [hid', server_rss]
  dsimp only
  rw [hencode, only_self, Option.bind_some, hcert, Option.bind_some, hverify']
  dsimp only
  rw [hstatus]
  simp only [Bool.false_eq_true, if_false]
  have hhistory' : (unlettered.server (some unlettered.bound)
      unlettered.recorded).downloadHistory.updateDownload (hexText true unlettered.transactionId)
        "failed" unlettered.result.finalResult.value = some history := hhistory
  rw [hhistory']
  dsimp only
  rw [server_update, server_rss]

theorem sessions_safe_sample :
    (∃ content transactionId ss, unlettered.getPackage.2.content = some content ∧
      (after unlettered.config [unlettered.start, unlettered.authenticate]).rss transactionId =
        some ss ∧
      Downloads unlettered.config content transactionId ss) ∧
    (∃ content euiccCert, unlettered.notify.2.content = some content ∧
      (after unlettered.config [unlettered.start, unlettered.authenticate,
        unlettered.getPackage]).rss (hexText true unlettered.transactionId) =
          some unlettered.bound ∧
      (after unlettered.config ([unlettered.start, unlettered.authenticate,
        unlettered.getPackage] ++ [unlettered.notify])).rss
          (hexText true unlettered.transactionId) = none ∧
      unlettered.bound.euiccCert = some euiccCert ∧
      (unlettered.notify.2.endpoint = .handleNotification ∧
          Notifies unlettered.config content (hexText true unlettered.transactionId) euiccCert ∨
        unlettered.notify.2.endpoint = .cancelSession ∧
          Cancels unlettered.config content (hexText true unlettered.transactionId) euiccCert)) ∧
    Explained unlettered.config
      (trace (step unlettered.config) Server.new [unlettered.start, unlettered.authenticate] ++
        [⟨after unlettered.config [unlettered.start, unlettered.authenticate],
          unlettered.getPackage,
          after unlettered.config ([unlettered.start, unlettered.authenticate] ++
            [unlettered.getPackage])⟩])
      (after unlettered.config ([unlettered.start, unlettered.authenticate] ++
        [unlettered.getPackage])) := by
  have hx : unlettered ∈ [lettered, unlettered] := by simp
  obtain ⟨hverify, hverify', -⟩ := verify_facts.1 unlettered hx
  obtain ⟨-, ⟨output, hserve⟩, hbound⟩ := exchange_run hx hverify hverify'
  change after unlettered.config _ = _ at hbound
  -- the servers are variables here, so that nothing evaluates them
  have hpackage : ∀ {past : List (ServerStep ℕ)} {es : List (Env × Request)} {s s' : Server ℕ},
      trace (step unlettered.config) Server.new es = past ++ [⟨s, unlettered.getPackage, s'⟩] →
      (serve unlettered.config unlettered.getPackage.1 unlettered.getPackage.2 s).1 =
        .ok (some output) →
        Explained unlettered.config (past ++ [⟨s, unlettered.getPackage, s'⟩]) s' ∧
        ∃ content transactionId ss, unlettered.getPackage.2.content = some content ∧
          s.rss transactionId = some ss ∧
          Downloads unlettered.config content transactionId ss := by
    intro past es s s' h hserve
    obtain ⟨hexplained, hpackage, -⟩ := sessions_safe h
    obtain ⟨content, transactionId, ss, hcontent, -, hlive, hdownloads⟩ :=
      hpackage output rfl hserve
    exact ⟨hexplained, content, transactionId, ss, hcontent, hlive, hdownloads⟩
  have hremoval : ∀ {past : List (ServerStep ℕ)} {es : List (Env × Request)} {s s' : Server ℕ},
      trace (step unlettered.config) Server.new es = past ++ [⟨s, unlettered.notify, s'⟩] →
      s.rss (hexText true unlettered.transactionId) = some unlettered.bound →
      s'.rss (hexText true unlettered.transactionId) = none →
        ∃ content euiccCert, unlettered.notify.2.content = some content ∧
          unlettered.bound.euiccCert = some euiccCert ∧
          (unlettered.notify.2.endpoint = .handleNotification ∧
              Notifies unlettered.config content (hexText true unlettered.transactionId)
                euiccCert ∨
            unlettered.notify.2.endpoint = .cancelSession ∧
              Cancels unlettered.config content (hexText true unlettered.transactionId)
                euiccCert) :=
    fun h hss hnone => (sessions_safe h).2.2 _ _ hss hnone
  have hss : (after unlettered.config [unlettered.start, unlettered.authenticate,
      unlettered.getPackage]).rss (hexText true unlettered.transactionId) =
        some unlettered.bound := by
    rw [hbound, server_rss]
  have hnone : (after unlettered.config ([unlettered.start, unlettered.authenticate,
      unlettered.getPackage] ++ [unlettered.notify])).rss
        (hexText true unlettered.transactionId) = none := by
    rw [after_concat, hbound, Exchange.notify, serve_request, request_fst]
    simp only [callFunction]
    exact notify_exchange
  obtain ⟨hexplained, hdownloads⟩ := hpackage (trace_concat [unlettered.start,
    unlettered.authenticate] unlettered.getPackage) hserve
  obtain ⟨content, euiccCert, hcontent, hcert, hmessage⟩ := hremoval (trace_concat
    [unlettered.start, unlettered.authenticate, unlettered.getPackage] unlettered.notify) hss hnone
  exact ⟨hdownloads, ⟨content, euiccCert, hcontent, hss, hnone, hcert, hmessage⟩, hexplained⟩

end VirtualRsp.Smdp.Es9
