import VirtualRsp.Smdp.Sessions

/-!
# Where sessions come from

A closer look at what the server has checked of a card: what a session has after any request
(`Origin`) is from the session that was there before, from a new one, or from an authentication with
all that was checked of it (`Authenticated`).

* `serve_origin`: every request leaves sessions of these kinds only;
* `serve_bound`: a package is made for the key in a response whose signature was checked, and with
  the secret that is shared with this key;
* `cancelSession_removed`: a session that is cancelled was named with an object identifier that is
  not the one of a card.
-/

namespace VirtualRsp.Smdp.Es9

open JsonText

variable {Cert Asn : Type} {cfg : Config Cert Asn} {env : Env} {request : Request} {content : Value}
  {s : Server Cert} {ss ss' : Session Cert} {transactionId : String}

/-! ## Authentications -/

/-- What the server has checked and kept when a card authenticates. -/
structure Authenticated (cfg : Config Cert Asn) (content : Value) (ss : Session Cert)
    (bin data : Bytes) (ok : AuthenticateResponseOk Asn) (name : String) : Prop where
  response : (getItem "authenticateServerResponse" content).bind b64decodeValue = some bin
  decoded : cfg.lib.decodeAuthenticateServerResponse bin = .ok (.authenticateResponseOk ok)
  extracted : extractEuiccSigned1 cfg.lib.tlv bin = some data
  verified : ∀ euiccCert, ss.euiccCert = some euiccCert →
    cfg.lib.ecdsaVerify euiccCert ok.euiccSignature1 data = some true
  serverChallenge : ok.euiccSigned1.serverChallenge = ss.serverChallenge
  ctxParams1 : ok.euiccSigned1.ctxParams1 = .ctxParamsForCommonAuthentication (some name)
  matchingId : ss.matchingId = some name
  smdpSignature2Do : ∃ signature, ss.smdpSignature2Do = some ([0x5F, 0x37, 0x40] ++ signature)

theorem selectProfile_ok {ctx : CtxParams1} {matchingId : String} {iccid : Bytes}
    (h : selectProfile cfg env ctx = .ok (matchingId, iccid)) :
    ctx = .ctxParamsForCommonAuthentication (some matchingId) := by
  unfold selectProfile at h
  split at h
  · rename_i name
    obtain ⟨_, hname, h⟩ := bind_ok h
    obtain ⟨_, -, h⟩ := bind_ok h
    obtain ⟨_, -, h⟩ := bind_ok h
    obtain ⟨der, -, h⟩ := bind_ok h
    obtain ⟨iccid', -, h⟩ := bind_ok h
    cases h
    cases name with
    | none => simp [require] at hname
    | some name => rfl
  · cases h

theorem authenticateSession_authenticated {rss : SessionStore Cert} {output : Output}
    (h : authenticateSession cfg env content rss = .ok (output, transactionId, ss')) :
    ∃ bin data ok name, Authenticated cfg content ss' bin data ok name := by
  unfold authenticateSession at h
  obtain ⟨tid, -, h⟩ := bind_ok h
  obtain ⟨⟨data, ok, euiccCert, eumCert⟩, hread, h⟩ := bind_ok h
  obtain ⟨tid', -, h⟩ := bind_ok h
  split at h
  · cases h
  · rename_i ss hss
    obtain ⟨verified, hverify, h⟩ := bind_ok h
    obtain ⟨⟨name, iccid⟩, hprofile, h⟩ := bind_ok h
    obtain ⟨metadata, -, h⟩ := bind_ok h
    obtain ⟨profileMetadataBin, -, h⟩ := bind_ok h
    obtain ⟨transactionIdBin, -, h⟩ := bind_ok h
    obtain ⟨smdpSigned2Bin, -, h⟩ := bind_ok h
    obtain ⟨signature, -, h⟩ := bind_ok h
    cases h
    obtain ⟨⟨eid, rfl, -, -⟩, -, hsignature, hchallenge⟩ := verifyAuthentication_ok hverify
    obtain ⟨bin, hbin, hdecode, hdata, -, -⟩ := readAuthentication_ok hread
    refine ⟨bin, data, ok, name, hbin, hdecode, hdata, ?_, hchallenge, selectProfile_ok hprofile,
      rfl, signature, rfl⟩
    rintro _ ⟨⟩
    exact hsignature

/-- Two states of a session of one card. -/
structure Keeps (ss ss' : Session Cert) : Prop where
  serverChallenge : ss'.serverChallenge = ss.serverChallenge
  euiccCert : ss'.euiccCert = ss.euiccCert
  matchingId : ss'.matchingId = ss.matchingId
  smdpSignature2Do : ss'.smdpSignature2Do = ss.smdpSignature2Do

theorem prepareBinding_keeps {euiccSigned2 : EuiccSigned2} {upp : UnprotectedProfilePackage}
    {clsDer : Option Bytes} (h : prepareBinding env ss euiccSigned2 = .ok (ss', upp, clsDer)) :
    Keeps ss ss' ∧ ss'.euiccOtpk = some euiccSigned2.euiccOtpk ∧
      ∃ secret, env.smdpOtExchange euiccSigned2.euiccOtpk = some secret ∧
        ss'.sharedSecret = some secret := by
  unfold prepareBinding at h
  obtain ⟨secret, hsecret, h⟩ := bind_ok h
  obtain ⟨matchingId, -, h⟩ := bind_ok h
  obtain ⟨der, -, h⟩ := bind_ok h
  cases h
  exact ⟨⟨rfl, rfl, rfl, rfl⟩, rfl, secret, orRaise_ok hsecret, rfl⟩

/-- Where a session comes from that is there after a request. -/
inductive Origin (cfg : Config Cert Asn) (request : Request) (s : Server Cert)
    (transactionId : String) (ss' : Session Cert) : Prop
  | kept {ss : Session Cert} (hss : s.rss transactionId = some ss) (h : Keeps ss ss')
  | started (h : ss'.euiccCert = none)
  | authenticated {content : Value} {bin data : Bytes} {ok : AuthenticateResponseOk Asn}
      {name : String} (hendpoint : request.endpoint = .authenticateClient)
      (hcontent : request.content = some content)
      (h : Authenticated cfg content ss' bin data ok name)

theorem Origin.same (hss : s.rss transactionId = some ss') :
    Origin cfg request s transactionId ss' :=
  .kept hss ⟨rfl, rfl, rfl, rfl⟩

theorem getBoundProfilePackage_origin
    (hss : (getBoundProfilePackage cfg env content s).2.rss transactionId = some ss') :
    Origin cfg request s transactionId ss' := by
  unfold getBoundProfilePackage at hss
  split at hss
  · exact .same hss
  · rename_i tid ss euiccSigned2 hverify
    split at hss
    · exact .same hss
    · rename_i new upp clsDer hprepare
      have hnew : Function.update s.rss tid (some new) transactionId = some ss' →
          Origin cfg request s transactionId ss' := by
        intro h
        obtain ⟨rfl, hnewest⟩ | hold := session_of_update h
        · cases hnewest
          exact .kept (verifyDownload_ok hverify).1 (prepareBinding_keeps hprepare).1
        · exact .same hold
      split at hss
      · exact .same hss
      · dsimp only at hss
        split at hss
        · exact .same hss
        · split at hss
          · exact hnew hss
          · exact hnew hss

/-- **Origins.** -/
theorem serve_origin (hss : (serve cfg env request s).2.rss transactionId = some ss') :
    Origin cfg request s transactionId ss' := by
  have removed : ∀ {tid : String},
      Function.update s.rss tid none transactionId = some ss' →
        Origin cfg request s transactionId ss' := by
    intro tid h
    obtain ⟨-, hnone⟩ | hold := session_of_update h
    · cases hnone
    · exact .same hold
  unfold serve at hss
  split at hss
  · exact .same hss
  split at hss
  · exact .same hss
  rename_i content hcontent
  cases hendpoint : request.endpoint with
  | initiateAuthentication =>
    rw [hendpoint] at hss
    change (initiateAuthentication cfg env content s).2.rss transactionId = _ at hss
    unfold initiateAuthentication at hss
    split at hss
    · exact .same hss
    · rename_i output new hnew
      obtain ⟨ciCertId, rfl, -⟩ := newSession_ok hnew
      obtain ⟨-, hnewest⟩ | hold := session_of_update hss
      · cases hnewest
        exact .started rfl
      · exact .same hold
  | authenticateClient =>
    rw [hendpoint] at hss
    change (authenticateClient cfg env content s).2.rss transactionId = _ at hss
    unfold authenticateClient at hss
    split at hss
    · exact .same hss
    · rename_i output tid new hsession
      obtain ⟨-, hnewest⟩ | hold := session_of_update hss
      · cases hnewest
        obtain ⟨bin, data, ok, name, h⟩ := authenticateSession_authenticated hsession
        exact .authenticated hendpoint hcontent h
      · exact .same hold
  | getBoundProfilePackage =>
    rw [hendpoint] at hss
    exact getBoundProfilePackage_origin hss
  | handleNotification =>
    rw [hendpoint] at hss
    change (handleNotification cfg content s).2.rss transactionId = _ at hss
    unfold handleNotification at hss
    split at hss
    · exact .same hss
    · dsimp only at hss
      split at hss
      · exact .same hss
      · split at hss
        · exact .same hss
        · exact .same hss
        · split at hss
          · exact .same hss
          · exact removed hss
    · split at hss
      · exact .same hss
      · exact .same hss
  | cancelSession =>
    rw [hendpoint] at hss
    change (cancelSession cfg content s).2.rss transactionId = _ at hss
    unfold cancelSession at hss
    split at hss
    · exact .same hss
    · dsimp only at hss
      split at hss
      · exact .same hss
      · split at hss
        · exact .same hss
        · exact .same hss
        · exact .same hss
        · exact removed hss

/-! ## Packages and cancellations -/

/-- What the server has checked when it makes a package for a card. -/
structure Bound (cfg : Config Cert Asn) (content : Value) (transactionId : String)
    (ss ss' : Session Cert) (bin data signature : Bytes) (euiccSigned2 : EuiccSigned2) :
    Prop where
  outerId : (getItem "transactionId" content).bind asStr = some transactionId
  response : (getItem "prepareDownloadResponse" content).bind b64decodeValue = some bin
  decoded : cfg.lib.decodePrepareDownloadResponse bin =
    some (.downloadResponseOk euiccSigned2 signature)
  extracted : extractEuiccSigned2 cfg.lib.tlv bin = some data
  verified : ∃ euiccCert smdpSignature2Do, ss.euiccCert = some euiccCert ∧
    ss.smdpSignature2Do = some smdpSignature2Do ∧
    cfg.lib.ecdsaVerify euiccCert signature (data ++ smdpSignature2Do) = some true
  signedId : cfg.lib.h2b transactionId = some euiccSigned2.transactionId
  euiccOtpk : ss'.euiccOtpk = some euiccSigned2.euiccOtpk

theorem verifyDownload_bound {rss : SessionStore Cert} {euiccSigned2 : EuiccSigned2}
    (h : verifyDownload cfg content rss = .ok (transactionId, ss, euiccSigned2))
    (hotpk : ss'.euiccOtpk = some euiccSigned2.euiccOtpk) :
    ∃ bin data signature,
      Bound cfg content transactionId ss ss' bin data signature euiccSigned2 := by
  unfold verifyDownload at h
  obtain ⟨tid, htid, h⟩ := bind_ok h
  split at h
  · cases h
  rename_i ss₀ hss
  obtain ⟨bin, hbin, h⟩ := bind_ok h
  obtain ⟨response, hdecode, h⟩ := bind_ok h
  split at h
  · cases h
  rename_i signed2 signature2
  obtain ⟨signedBin, hsigned, h⟩ := bind_ok h
  obtain ⟨euiccCert, hcert, h⟩ := bind_ok h
  obtain ⟨smdpSignature2Do, hdo, h⟩ := bind_ok h
  obtain ⟨valid, hvalid, h⟩ := bind_ok h
  obtain ⟨_, hsignature, h⟩ := bind_ok h
  obtain ⟨transactionIdBin, hid, h⟩ := bind_ok h
  obtain ⟨_, heq, h⟩ := bind_ok h
  cases h
  obtain rfl : valid = true := require_ok hsignature
  refine ⟨bin, signedBin, signature2, orRaise_ok htid, orRaise_ok hbin, orRaise_ok hdecode,
    orRaise_ok hsigned, ⟨euiccCert, smdpSignature2Do, orRaise_ok hcert, orRaise_ok hdo,
      orRaise_ok hvalid⟩, ?_, hotpk⟩
  rw [orRaise_ok hid, of_decide_eq_true (require_ok heq)]

/-- What a package is made of: the secret that is shared with the card's key is kept in the session,
and the package is encoded with the members of the session. -/
structure Made (cfg : Config Cert Asn) (env : Env) (ss' : Session Cert) (euiccOtpk : Bytes)
    (output : Output) : Prop where
  sharedSecret : ∃ secret, env.smdpOtExchange euiccOtpk = some secret ∧
    ss'.sharedSecret = some secret
  encoded : ∃ state ppp clsDer bpp bpp', ss'.toState = some state ∧
    (BoundProfilePackage.fromPpp ppp).encode cfg.lib.toLibraries clsDer state env.dpPbSign =
      some (bpp, bpp') ∧
    output.lookup "boundProfilePackage" = some (b64encode2str bpp)

/-- **A package** is sent for a session that is kept, with the key of the response. -/
theorem serve_bound {output : Output} (hendpoint : request.endpoint = .getBoundProfilePackage)
    (h : (serve cfg env request s).1 = .ok (some output)) :
    ∃ content transactionId ss ss' bin data signature euiccSigned2,
      request.content = some content ∧ output.lookup "transactionId" = some transactionId ∧
      s.rss transactionId = some ss ∧
      (serve cfg env request s).2.rss transactionId = some ss' ∧
      Bound cfg content transactionId ss ss' bin data signature euiccSigned2 ∧
      Made cfg env ss' euiccSigned2.euiccOtpk output := by
  unfold serve at h ⊢
  split at h
  · cases h
  split at h
  · cases h
  rename_i content hcontent
  have hserve : callFunction cfg env .getBoundProfilePackage content s =
      getBoundProfilePackage cfg env content s := rfl
  rw [hendpoint, hserve] at h ⊢
  unfold getBoundProfilePackage at h ⊢
  split at h
  · cases h
  rename_i tid ss euiccSigned2 hverify
  split at h
  · cases h
  rename_i new upp clsDer hprepare
  split at h
  · cases h
  dsimp only at h ⊢
  split at h
  · cases h
  rename_i ppp bsp hprotect
  split at h
  · cases h
  rename_i bpp bpp' hencode
  cases h
  obtain ⟨state, hstate, hencode⟩ := Option.bind_eq_some_iff.1 hencode
  obtain ⟨-, hotpk, hsecret⟩ := prepareBinding_keeps hprepare
  obtain ⟨bin, data, signature, hbound⟩ := verifyDownload_bound hverify hotpk
  exact ⟨content, tid, ss, new, bin, data, signature, euiccSigned2, hcontent, rfl,
    (verifyDownload_ok hverify).1, Function.update_self .., hbound, hsecret,
    state, ppp, clsDer, bpp, bpp', hstate, hencode, rfl⟩

/-- A cancellation that is accepted has the object identifier that is asked for. -/
theorem cancelSessionWith_ok {lib : CancelLib Cert} {oid : List ℕ} {rss : RspSessions Cert}
    {transactionId' : String} {response : Bytes}
    (h : (cancelSessionWith lib oid rss transactionId response).1 = .ok transactionId') :
    ∃ session euiccCert ecsr signature data, rss.lookup transactionId = some session ∧
      session.euiccCert = some euiccCert ∧
      (b64decode response).bind lib.decodeCancelSessionResponse =
        some (.cancelSessionResponseOk ecsr signature) ∧
      lib.encodeEuiccCancelSessionSigned ecsr = some data ∧
      lib.ecdsaVerify euiccCert signature data = some true ∧ ecsr.smdpOid = oid := by
  unfold cancelSessionWith at h
  split at h
  · cases h
  rename_i session hsession
  split at h
  · cases h
  · cases h
  rename_i ecsr signature hdecode
  split at h
  · cases h
  rename_i data hencode
  split at h
  · cases h
  rename_i euiccCert hcert
  split at h
  · cases h
  · cases h
  rename_i hverify
  split_ifs at h with hoid
  exact ⟨session, euiccCert, ecsr, signature, data, hsession, hcert, hdecode, hencode, hverify,
    not_not.1 hoid⟩

/-- **A session that is cancelled** has been so by a signed message with the object identifier of an
extension. -/
theorem cancelSession_removed (hss : s.rss transactionId = some ss)
    (h : (cancelSession cfg content s).2.rss transactionId = none) :
    ∃ bin ecsr signature data euiccCert,
      (getItem "cancelSessionResponse" content).bind b64decodeValue = some bin ∧
      cfg.lib.decodeCancelSessionResponse bin = some (.cancelSessionResponseOk ecsr signature) ∧
      cfg.lib.encodeEuiccCancelSessionSigned ecsr = some data ∧
      ss.euiccCert = some euiccCert ∧
      cfg.lib.ecdsaVerify euiccCert signature data = some true ∧
      ecsr.smdpOid = subjectAltNameOid := by
  have hkept : s.rss transactionId ≠ none := by
    rw [hss]
    exact Option.some_ne_none ss
  unfold cancelSession at h
  split at h
  · exact absurd h hkept
  rename_i tid hid
  dsimp only at h
  split at h
  · exact absurd h hkept
  rename_i hresponse
  split at h
  · exact absurd h hkept
  · exact absurd h hkept
  · exact absurd h hkept
  rename_i tid' hok
  obtain ⟨rfl, -⟩ := cancelSession_ok hok
  obtain ⟨rfl, -⟩ := removed_of_update hss h
  obtain ⟨session, euiccCert, ecsr, signature, data, hsession, hcert, hdecode, hencode, hverify,
    hoid⟩ := cancelSessionWith_ok hok
  obtain ⟨bin, hbin, hdecode⟩ := Option.bind_eq_some_iff.1 hdecode
  obtain ⟨text, htext⟩ := Option.ne_none_iff_exists'.1 (hresponse ss hss)
  rw [hss, Option.toList_some, List.map_singleton, List.lookup_cons_self,
    Option.some.injEq] at hsession
  rw [← hsession] at hcert
  rw [htext, Option.getD_some] at hbin
  obtain ⟨value, hvalue, htext⟩ := Option.bind_eq_some_iff.1 htext
  refine ⟨bin, ecsr, signature, data, euiccCert, ?_, hdecode, hencode, hcert, hverify, hoid⟩
  rw [hvalue, Option.bind_some, b64decodeValue, htext, Option.bind_some, hbin]

end VirtualRsp.Smdp.Es9
