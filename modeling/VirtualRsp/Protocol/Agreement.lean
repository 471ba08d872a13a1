import VirtualRsp.Card.Signing
import VirtualRsp.Foundations.Interleaving
import VirtualRsp.Smdp.SessionOrigins

/-!
# Agreement of card and server

A card and a server in one world: what an LPA sends to either of them, in any order and whatever it
is, is an event. The only assumption on the messages is that signatures cannot be forged
(`Unforged`): what the server verifies with the certificate of the card was signed by the card
before.

* `session_agreement`: a session with the certificate of the card is for a challenge and a profile
  that the card has signed;
* `package_agreement`: a package is made for a key that the card has signed for this transaction, to
  the server's own signature;
* `removal_agreement`: a session of the card is only removed when the card has signed that it has
  installed the profile; it is never cancelled.
-/

namespace VirtualRsp.Protocol.Agreement

open Card Run JsonText
open Smdp hiding cancelSession
open Smdp.Es9 hiding Env Request cancelSession

variable {Cert Asn : Type}

/-! ## The world -/

/-- What a request to the server is, with what happens around it. -/
abbrev ServerEvent := Es9.Env × Es9.Request

/-- A step of the card or of the server. -/
abbrev WorldStep (Cert : Type) := Step (Daemon × Server Cert) (Event ⊕ ServerEvent)

/-- The runs of card and server together. -/
def worldTrace (cfg : Config Cert Asn) (es : List (Event ⊕ ServerEvent)) : List (WorldStep Cert) :=
  trace (interleave daemonStep (Es9.step cfg)) (.start, Server.new) es

/-- The card has signed the message. -/
def Signed (past : List (WorldStep Cert)) (m : SignedMessage) : Prop :=
  ∃ u ∈ past.filterMap Step.left, signedIn u = some m

/-- A request to the server comes with a signature over some data. -/
inductive Presents (cfg : Config Cert Asn) (s : Server Cert) (request : Es9.Request)
    (content : Value) : Bytes → Bytes → Prop
  | authentication {bin data : Bytes} {ok : AuthenticateResponseOk Asn}
      (hendpoint : request.endpoint = .authenticateClient)
      (hbin : (getItem "authenticateServerResponse" content).bind b64decodeValue = some bin)
      (hdecode : cfg.lib.decodeAuthenticateServerResponse bin = .ok (.authenticateResponseOk ok))
      (hdata : extractEuiccSigned1 cfg.lib.tlv bin = some data) :
      Presents cfg s request content ok.euiccSignature1 data
  | download {transactionId : String} {ss : Session Cert} {bin signature data : Bytes}
      {euiccSigned2 : Es9.EuiccSigned2} {smdpSignature2Do : Bytes}
      (hendpoint : request.endpoint = .getBoundProfilePackage)
      (hid : (getItem "transactionId" content).bind asStr = some transactionId)
      (hss : s.rss transactionId = some ss)
      (hbin : (getItem "prepareDownloadResponse" content).bind b64decodeValue = some bin)
      (hdecode : cfg.lib.decodePrepareDownloadResponse bin =
        some (.downloadResponseOk euiccSigned2 signature))
      (hdata : extractEuiccSigned2 cfg.lib.tlv bin = some data)
      (hdo : ss.smdpSignature2Do = some smdpSignature2Do) :
      Presents cfg s request content signature (data ++ smdpSignature2Do)
  | installation {bin signature data : Bytes} {pird : ProfileInstallationResultData}
      (hendpoint : request.endpoint = .handleNotification)
      (hbin : (getItem "pendingNotification" content).bind b64decodeValue = some bin)
      (hdecode : cfg.lib.decodePendingNotification bin =
        some (.profileInstallationResult pird signature))
      (hdata : cfg.lib.encodeProfileInstallationResultData pird = some data) :
      Presents cfg s request content signature data
  | cancellation {bin signature data : Bytes} {ecsr : EuiccCancelSessionSigned}
      (hendpoint : request.endpoint = .cancelSession)
      (hbin : (getItem "cancelSessionResponse" content).bind b64decodeValue = some bin)
      (hdecode : cfg.lib.decodeCancelSessionResponse bin =
        some (.cancelSessionResponseOk ecsr signature))
      (hdata : cfg.lib.encodeEuiccCancelSessionSigned ecsr = some data) :
      Presents cfg s request content signature data

/-- **Signatures cannot be forged**: what a request presents and the certificate verifies has been
signed by the card. -/
def Unforged (cfg : Config Cert Asn) (cert : Cert) (ts : List (WorldStep Cert)) : Prop :=
  ∀ past t rest, ts = past ++ t :: rest → ∀ e content signature data, t.event = .inr e →
    e.2.content = some content → Presents cfg t.pre.2 e.2 content signature data →
    cfg.lib.ecdsaVerify cert signature data = some true →
      ∃ m, Signed past m ∧ m.octets = data

/-- What is decoded of the signed data of an authentication, if they are these objects. -/
def DecodesSigned1 (objs : List (ℕ × Bytes)) (signed : EuiccSigned1) : Prop :=
  ∃ transactionId serverAddress euiccInfo2 ctxParams1 more,
    objs = (0x80, transactionId) :: (0x83, serverAddress) :: (0x84, signed.serverChallenge) ::
      (0xBF22, euiccInfo2) :: (0xA0, ctxParams1) :: more ∧
    ∀ ctx, ctxParams1 = Der.tlvs ctx → (∀ x ∈ ctx, Der.IsTag x.1) → ∃ matchingId,
      signed.ctxParams1 = .ctxParamsForCommonAuthentication matchingId ∧
      matchingId.map (fun s => s.toUTF8.toList) = (ctx.head?.filter (·.1 = 0x80)).map Prod.snd

/-- What the ASN.1 library does: what it decodes is complete, and has the members that the objects
of its DER encoding have; and what it encodes begins with its members. -/
structure Asn1 (lib : Es9Lib Cert Asn) : Prop where
  tlv : lib.tlv.Lawful
  complete1 : ∀ bin ok data, lib.decodeAuthenticateServerResponse bin =
    .ok (.authenticateResponseOk ok) → extractEuiccSigned1 lib.tlv bin = some data →
      ∀ rest, lib.tlv.returnOneRawtlv (data ++ rest) = some (0x30, data, rest)
  complete2 : ∀ bin euiccSigned2 signature data, lib.decodePrepareDownloadResponse bin =
    some (.downloadResponseOk euiccSigned2 signature) →
      extractEuiccSigned2 lib.tlv bin = some data →
      ∀ rest, lib.tlv.returnOneRawtlv (data ++ rest) = some (0x30, data, rest)
  signed1 : ∀ bin ok objs, lib.decodeAuthenticateServerResponse bin =
    .ok (.authenticateResponseOk ok) →
      extractEuiccSigned1 lib.tlv bin = some (Der.tlv 0x30 (Der.tlvs objs)) →
      (∀ x ∈ objs, Der.IsTag x.1) → (Der.tlvs objs).length < 2 ^ 32 →
      DecodesSigned1 objs ok.euiccSigned1
  signed2 : ∀ bin euiccSigned2 signature objs, lib.decodePrepareDownloadResponse bin =
    some (.downloadResponseOk euiccSigned2 signature) →
      extractEuiccSigned2 lib.tlv bin = some (Der.tlv 0x30 (Der.tlvs objs)) →
      (∀ x ∈ objs, Der.IsTag x.1) → (Der.tlvs objs).length < 2 ^ 32 →
      ∃ more, objs = (0x80, euiccSigned2.transactionId) :: (0x5F49, euiccSigned2.euiccOtpk) :: more
  installation : ∀ pird data, lib.encodeProfileInstallationResultData pird = some data →
    ∃ more, data = Der.tlv 0xBF27 (Der.tlv 0x80 pird.transactionId ++ more)
  cancellation : ∀ ecsr data, lib.encodeEuiccCancelSessionSigned ecsr = some data →
    ∃ more, data = Der.tlv 0x30 (Der.tlv 0x80 ecsr.transactionId ++
      (Der.tlv 0x81 (oidBytes ecsr.smdpOid) ++ more))

/-- The library writes results as `rsp.asn` has them: a success begins with the identifier of the
application. -/
def WritesResults (lib : Es9Lib Cert Asn) : Prop :=
  ∀ pird data, lib.encodeProfileInstallationResultData pird = some data →
    ∃ metadata smdpOid result, data = Der.tlv 0xBF27 (Der.tlvs [(0x80, pird.transactionId),
        (0xBF2F, metadata), (0x06, smdpOid), (0xA2, result)]) ∧
      ((∃ aid more, result = Der.tlv 0xA0 (Der.tlv 0x4F aid ++ more)) ∨
        ∃ more, result = Der.tlv 0xA1 more)

variable {cfg : Config Cert Asn} {cert : Cert} {es : List (Event ⊕ ServerEvent)}
  {past rest : List (WorldStep Cert)} {t : WorldStep Cert}

/-! ## Runs of the world -/

/-- A step of the world is one of the card, or one of the server. -/
theorem worldStep_cases (h : worldTrace cfg es = past ++ t :: rest) :
    (∃ e, t.event = .inl e ∧ t.post.2 = t.pre.2) ∨
      ∃ e, t.event = .inr e ∧ t.post.2 = (serve cfg e.1 e.2 t.pre.2).2 := by
  have hmem : t ∈ worldTrace cfg es := by
    rw [h]
    exact List.mem_append_right _ List.mem_cons_self
  have hstep := (mem_trace .init hmem).2.1
  cases hevent : t.event with
  | inl e =>
    rw [hevent] at hstep
    obtain ⟨daemon, -, hpost⟩ := Option.map_eq_some_iff.1 hstep
    exact .inl ⟨e, rfl, (congrArg Prod.snd hpost).symm⟩
  | inr e =>
    rw [hevent] at hstep
    exact .inr ⟨e, rfl, (congrArg Prod.snd (Option.some.inj hstep)).symm⟩

theorem Signed.append {m : SignedMessage} (h : Signed past m) (more : List (WorldStep Cert)) :
    Signed (past ++ more) m := by
  obtain ⟨u, hu, hm⟩ := h
  rw [Signed, List.filterMap_append]
  exact ⟨u, List.mem_append_left _ hu, hm⟩

/-- What the card has signed is in bounds. -/
theorem Signed.bounded (h : worldTrace cfg es = past ++ t :: rest) {m : SignedMessage}
    (hm : Signed past m) : m.Bounded := by
  obtain ⟨u, hu, hm⟩ := hm
  obtain ⟨as, has⟩ := (@trace_interleave _ _ _ _ daemonStep (Es9.step cfg) .start Server.new es).1
  refine @signedIn_bounded u as ?_ m hm
  change (worldTrace cfg es).filterMap Step.left = _ at has
  rw [← has, h, List.filterMap_append]
  exact List.mem_append_left _ hu

/-! ## What was signed -/

section

variable {m : SignedMessage} {bin : Bytes}

/-- The library takes the octets of a message apart. -/
theorem returnOneRawtlv_octets {tlv : Bertlv} (htlv : tlv.Lawful) (hm : m.Bounded) :
    tlv.returnOneRawtlv m.octets =
      some (m.tag, Der.tlv m.tag (Der.tlvs m.objects), m.trailer) :=
  htlv.returnOneRawtlv_eq _ _ _ m.isTag_tag (SignedMessage.length_objects_lt hm)

/-- **Authentication.** Data that are decoded as those of an authentication are signed for one. -/
theorem authentication_of_octets (hlib : Asn1 cfg.lib) (hm : m.Bounded)
    {ok : AuthenticateResponseOk Asn}
    (hdecode : cfg.lib.decodeAuthenticateServerResponse bin = .ok (.authenticateResponseOk ok))
    (hdata : extractEuiccSigned1 cfg.lib.tlv bin = some m.octets) :
    ∃ fields matchingId name, m = .authentication fields matchingId ∧
      fields.serverChallenge = ok.euiccSigned1.serverChallenge ∧
      ok.euiccSigned1.ctxParams1 = .ctxParamsForCommonAuthentication name ∧
      (name.map fun s => s.toUTF8.toList).getD [] = matchingId := by
  have hcomplete := hlib.complete1 bin ok _ hdecode hdata []
  rw [List.append_nil, returnOneRawtlv_octets hlib.tlv hm, Option.some.injEq, Prod.mk.injEq,
    Prod.mk.injEq] at hcomplete
  obtain ⟨htag, hobject, -⟩ := hcomplete
  rw [← hobject, htag] at hdata
  obtain ⟨transactionId, serverAddress, euiccInfo2, ctxParams1, more, hobjects, hctx⟩ :=
    hlib.signed1 bin ok _ hdecode hdata m.isTag_objects (SignedMessage.length_objects_lt hm)
  cases m with
  | authentication fields matchingId =>
    simp only [SignedMessage.objects, List.cons.injEq, Prod.mk.injEq, true_and] at hobjects
    obtain ⟨-, -, hchallenge, -, rfl, -⟩ := hobjects
    obtain ⟨name, hname, hid⟩ := hctx _ rfl (SignedMessage.isTag_ctxParams matchingId)
    refine ⟨fields, matchingId, name, rfl, hchallenge, hname, ?_⟩
    rw [hid]
    split
    · rename_i hnil
      rw [hnil]
      rfl
    · rfl
  | download => simp [SignedMessage.objects] at hobjects
  | cancellation => simp [SignedMessage.objects] at hobjects
  | installation => simp [SignedMessage.tag] at htag

/-- **Downloads.** Data that are decoded as those of a download, and a signature, are signed for
one. -/
theorem download_of_octets (hlib : Asn1 cfg.lib) (hm : m.Bounded) {euiccSigned2 : Es9.EuiccSigned2}
    {signature data smdpSignature2Do : Bytes}
    (hdecode : cfg.lib.decodePrepareDownloadResponse bin =
      some (.downloadResponseOk euiccSigned2 signature))
    (hdata : extractEuiccSigned2 cfg.lib.tlv bin = some data) (hdo : smdpSignature2Do ≠ [])
    (hoctets : m.octets = data ++ smdpSignature2Do) :
    ∃ euiccOtpk, m = .download euiccSigned2.transactionId euiccOtpk smdpSignature2Do ∧
      euiccOtpk.toList = euiccSigned2.euiccOtpk := by
  have hcomplete := hlib.complete2 bin _ _ _ hdecode hdata smdpSignature2Do
  rw [← hoctets, returnOneRawtlv_octets hlib.tlv hm, Option.some.injEq, Prod.mk.injEq,
    Prod.mk.injEq] at hcomplete
  obtain ⟨htag, rfl, htrailer⟩ := hcomplete
  rw [htag] at hdata
  obtain ⟨more, hobjects⟩ :=
    hlib.signed2 bin _ _ _ hdecode hdata m.isTag_objects (SignedMessage.length_objects_lt hm)
  cases m with
  | download transactionId euiccOtpk smdpSignature2 =>
    simp only [SignedMessage.objects, List.cons.injEq, Prod.mk.injEq, true_and] at hobjects
    obtain ⟨rfl, hotpk, -⟩ := hobjects
    obtain rfl : smdpSignature2 = smdpSignature2Do := htrailer
    exact ⟨euiccOtpk, rfl, hotpk⟩
  | authentication => exact absurd htrailer.symm hdo
  | cancellation => exact absurd htrailer.symm hdo
  | installation => exact absurd htrailer.symm hdo

/-- **Installations.** -/
theorem installation_of_octets (hlib : Asn1 cfg.lib) (hm : m.Bounded)
    {pird : ProfileInstallationResultData}
    (hdata : cfg.lib.encodeProfileInstallationResultData pird = some m.octets) :
    ∃ seqNumber, m = .installation pird.transactionId seqNumber := by
  obtain ⟨more, hoctets⟩ := hlib.installation pird _ hdata
  have hlen := SignedMessage.length_octets_lt hm
  rw [hoctets, Der.length_tlv, List.length_append, Der.length_tlv] at hlen
  rw [SignedMessage.octets, ← List.append_nil (Der.tlv 0xBF27 _)] at hoctets
  obtain ⟨htag, hobjects, -⟩ := Der.tlv_append_inj m.isTag_tag (by decide)
    (SignedMessage.length_objects_lt_pow hm)
    (Der.lt_pow_of_lt (by rw [List.length_append, Der.length_tlv]; omega)) hoctets
  cases m with
  | installation transactionId seqNumber =>
    simp only [SignedMessage.objects, Der.tlvs_cons] at hobjects
    have hid : transactionId.length ≤ 16 := hm.1
    have htid : Der.IsTag 0x80 := by decide
    obtain ⟨-, rfl, -⟩ := Der.tlv_append_inj htid htid (Der.lt_pow_of_lt (by omega))
      (Der.lt_pow_of_lt (by omega)) hobjects
    exact ⟨seqNumber, rfl⟩
  | authentication => simp [SignedMessage.tag] at htag
  | download => simp [SignedMessage.tag] at htag
  | cancellation => simp [SignedMessage.tag] at htag

/-- **Results** of the card are not written like this by a library that follows `rsp.asn`. -/
theorem not_result (hlib : Asn1 cfg.lib) (hwrites : WritesResults cfg.lib) (hm : m.Bounded)
    {pird : ProfileInstallationResultData} :
    cfg.lib.encodeProfileInstallationResultData pird ≠ some m.octets := by
  intro hdata
  obtain ⟨seqNumber, rfl⟩ := installation_of_octets hlib hm hdata
  obtain ⟨metadata, smdpOid, result, hoctets, hresult⟩ := hwrites pird _ hdata
  have hlen := SignedMessage.length_octets_lt hm
  rw [hoctets, Der.length_tlv] at hlen
  rw [SignedMessage.octets, ← List.append_nil (Der.tlv 0xBF27 (Der.tlvs _))] at hoctets
  obtain ⟨-, hobjects, -⟩ := Der.tlv_append_inj (SignedMessage.isTag_tag _) (by decide)
    (SignedMessage.length_objects_lt_pow hm) (Der.lt_pow_of_lt (by omega)) hoctets
  have hobjs := Der.tlvs_inj (SignedMessage.isTag_objects _) (by simp [Der.IsTag])
    (SignedMessage.length_objects_lt_pow hm) hobjects
  simp only [SignedMessage.objects, List.cons.injEq, Prod.mk.injEq, true_and, and_true] at hobjs
  obtain ⟨-, -, hvalue⟩ := hobjs
  have hshort := congrArg List.length hvalue
  have hsmall : (Der.tlvs [(0xA0, Der.tlvs [(0x30, Der.tlvs [(0x4F, [0xA0, 0x00, 0x00, 0x05, 0x59,
      0x10, 0x10, 0xFF, 0xFF, 0xFF, 0xFF, 0x89, 0x00, 0x00, 0x10, 0x00]),
      (0x04, [0x90, 0x00])])])]).length = 26 := by decide
  rw [hsmall] at hshort
  simp only [Der.tlvs_cons, Der.tlvs_nil, List.append_nil] at hvalue
  obtain ⟨aid, more, rfl⟩ | ⟨more, rfl⟩ := hresult
  -- a success: behind the tag `A0` there is `30` here, and `4F` there
  · rw [Der.length_tlv, List.length_append, Der.length_tlv] at hshort
    rw [← List.append_nil (Der.tlv 0xA0 _), ← List.append_nil (Der.tlv 0xA0 (_ ++ more))] at hvalue
    obtain ⟨-, hinner, -⟩ := Der.tlv_append_inj (by decide) (by decide) (by decide)
      (Der.lt_pow_of_lt (by rw [List.length_append, Der.length_tlv]; omega)) hvalue
    rw [← List.append_nil (Der.tlv 0x30 _)] at hinner
    obtain ⟨htag, -⟩ := Der.tlv_append_inj (by decide) (by decide) (by decide)
      (Der.lt_pow_of_lt (by omega)) hinner
    cases htag
  · rw [Der.length_tlv] at hshort
    rw [← List.append_nil (Der.tlv 0xA0 _), ← List.append_nil (Der.tlv 0xA1 more)] at hvalue
    obtain ⟨htag, -⟩ := Der.tlv_append_inj (by decide) (by decide) (by decide)
      (Der.lt_pow_of_lt (by omega)) hvalue
    cases htag

/-- **Cancellations** are not signed with the object identifier that the server asks for. -/
theorem not_cancellation (hlib : Asn1 cfg.lib) (hm : m.Bounded) {ecsr : EuiccCancelSessionSigned}
    (hoid : ecsr.smdpOid = subjectAltNameOid) :
    cfg.lib.encodeEuiccCancelSessionSigned ecsr ≠ some m.octets := by
  intro hdata
  obtain ⟨more, hoctets⟩ := hlib.cancellation ecsr _ hdata
  have hlen := SignedMessage.length_octets_lt hm
  rw [hoctets, Der.length_tlv, List.length_append, Der.length_tlv, List.length_append,
    Der.length_tlv] at hlen
  rw [SignedMessage.octets, ← List.append_nil (Der.tlv 0x30 (Der.tlv 0x80 _ ++ _))] at hoctets
  obtain ⟨htag, hobjects, -⟩ := Der.tlv_append_inj m.isTag_tag (by decide)
    (SignedMessage.length_objects_lt_pow hm)
    (Der.lt_pow_of_lt (by
      rw [List.length_append, Der.length_tlv, List.length_append, Der.length_tlv]
      omega)) hoctets
  have htid : Der.IsTag 0x80 := by decide
  have hshort : ∀ {transactionId : Bytes}, transactionId.length ≤ 16 →
      transactionId.length < 256 ^ 126 := fun hle => Der.lt_pow_of_lt (by omega)
  have hrest : ∀ {transactionId r : Bytes}, transactionId.length ≤ 16 →
      Der.tlv 0x80 transactionId ++ r = Der.tlv 0x80 ecsr.transactionId ++
        (Der.tlv 0x81 (oidBytes ecsr.smdpOid) ++ more) →
      r = Der.tlv 0x81 [0x55, 0x1D, 0x11] ++ more := by
    intro transactionId r hle h
    have hbytes : oidBytes ecsr.smdpOid = [0x55, 0x1D, 0x11] := by
      rw [hoid]
      decide
    rw [← hbytes]
    exact (Der.tlv_append_inj htid htid (hshort hle) (Der.lt_pow_of_lt (by omega)) h).2.2
  cases m with
  | authentication fields matchingId =>
    simp only [SignedMessage.objects, Der.tlvs_cons] at hobjects
    have haddress := hm.1.serverAddress
    obtain ⟨h, -⟩ := Der.tlv_append_inj (by decide) (by decide) (Der.lt_pow_of_lt (by omega))
      (Der.lt_pow_of_lt (by simp)) (hrest hm.1.transactionId hobjects)
    cases h
  | download transactionId euiccOtpk smdpSignature2 =>
    simp only [SignedMessage.objects, Der.tlvs_cons] at hobjects
    obtain ⟨h, -⟩ := Der.tlv_append_inj (by decide) (by decide) (Der.lt_pow_of_lt (by simp))
      (Der.lt_pow_of_lt (by simp)) (hrest hm.1 hobjects)
    cases h
  | cancellation transactionId =>
    simp only [SignedMessage.objects, Der.tlvs_cons] at hobjects
    obtain ⟨-, h, -⟩ := Der.tlv_append_inj (by decide) (by decide) (Der.lt_pow_of_lt (by simp))
      (Der.lt_pow_of_lt (by simp)) (hrest hm hobjects)
    simp at h
  | installation => simp [SignedMessage.tag] at htag

end

/-! ## Agreement -/

/-- The card has signed the challenge of a session, and the profile that the session is for. -/
def SessionSigned (past : List (WorldStep Cert)) (ss : Session Cert) : Prop :=
  ∃ fields name, Signed past (.authentication fields name.toUTF8.toList) ∧
    fields.serverChallenge = ss.serverChallenge ∧ ss.matchingId = some name

/-- What the sessions of a card rest on. -/
def Agreed (cert : Cert) (past : List (WorldStep Cert)) (s : Server Cert) : Prop :=
  ∀ transactionId ss, s.rss transactionId = some ss → ss.euiccCert = some cert →
    SessionSigned past ss ∧
      ∃ signature, ss.smdpSignature2Do = some ([0x5F, 0x37, 0x40] ++ signature)

theorem SessionSigned.append {ss : Session Cert} (h : SessionSigned past ss)
    (more : List (WorldStep Cert)) : SessionSigned (past ++ more) ss := by
  obtain ⟨fields, name, hsigned, h⟩ := h
  exact ⟨fields, name, hsigned.append more, h⟩

/-- **Step.** -/
theorem Agreed.step (hlib : Asn1 cfg.lib) (hunforged : Unforged cfg cert (worldTrace cfg es))
    (h : worldTrace cfg es = past ++ t :: rest) (hpre : Agreed cert past t.pre.2) :
    Agreed cert (past ++ [t]) t.post.2 := by
  intro transactionId ss' hss' hcert
  obtain ⟨e, -, hpost⟩ | ⟨e, hevent, hpost⟩ := worldStep_cases h
  · rw [hpost] at hss'
    obtain ⟨hsigned, hdo⟩ := hpre transactionId ss' hss' hcert
    exact ⟨hsigned.append [t], hdo⟩
  · rw [hpost] at hss'
    cases serve_origin hss' with
    | kept hss hkeeps =>
      rw [hkeeps.euiccCert] at hcert
      obtain ⟨⟨fields, name, hsigned, hchallenge, hid⟩, hdo⟩ := hpre transactionId _ hss hcert
      refine ⟨⟨fields, name, hsigned.append [t], ?_, ?_⟩, ?_⟩
      · rw [hkeeps.serverChallenge, hchallenge]
      · rw [hkeeps.matchingId, hid]
      · rw [hkeeps.smdpSignature2Do]
        exact hdo
    | started hnone =>
      rw [hnone] at hcert
      cases hcert
    | authenticated hendpoint hcontent hauth =>
      obtain ⟨m, hsigned, rfl⟩ := hunforged past t rest h e _ _ _ hevent hcontent
        (.authentication hendpoint hauth.response hauth.decoded hauth.extracted)
        (hauth.verified cert hcert)
      obtain ⟨fields, matchingId, name, rfl, hchallenge, hctx, rfl⟩ :=
        authentication_of_octets hlib (hsigned.bounded h) hauth.decoded hauth.extracted
      rw [hauth.ctxParams1] at hctx
      cases hctx
      refine ⟨⟨fields, _, hsigned.append [t], ?_, hauth.matchingId⟩, hauth.smdpSignature2Do⟩
      rw [hchallenge, hauth.serverChallenge]

theorem agreed_of_trace (hlib : Asn1 cfg.lib) (hunforged : Unforged cfg cert (worldTrace cfg es))
    (h : worldTrace cfg es = past ++ t :: rest) :
    Agreed cert past t.pre.2 ∧ Agreed cert (past ++ [t]) t.post.2 := by
  have hpre : Agreed cert past t.pre.2 := by
    refine past_invariant (I := fun past (s : Daemon × Server Cert) => Agreed cert past s.2) ?_ ?_ h
    · intro transactionId ss hss
      cases hss
    · exact fun _ _ _ h hpre => hpre.step hlib hunforged h
  exact ⟨hpre, hpre.step hlib hunforged h⟩

variable {transactionId : String} {ss : Session Cert} {e : ServerEvent}

/-- **Agreement on sessions.** In every run of card and server, whatever either of them is sent: a
session with the certificate of the card is for a challenge and for a profile that the card has
signed together. -/
theorem session_agreement (hlib : Asn1 cfg.lib) (hunforged : Unforged cfg cert (worldTrace cfg es))
    (h : worldTrace cfg es = past ++ t :: rest) (hss : t.post.2.rss transactionId = some ss)
    (hcert : ss.euiccCert = some cert) : SessionSigned (past ++ [t]) ss :=
  ((agreed_of_trace hlib hunforged h).2 transactionId ss hss hcert).1

/-- **Agreement on packages.** A package that is sent to a session of the card is made for a
one-time key that the card has signed before, for this transaction and with the signature of the
server that is kept in the session: the secret of the session is the one that is shared with this
key, and the package is encoded with the members of the session. The card had signed the challenge
and the profile of the session. -/
theorem package_agreement (hlib : Asn1 cfg.lib) (hunforged : Unforged cfg cert (worldTrace cfg es))
    (h : worldTrace cfg es = past ++ t :: rest) (hevent : t.event = .inr e)
    (hendpoint : e.2.endpoint = .getBoundProfilePackage) {output : Output}
    (hserve : (serve cfg e.1 e.2 t.pre.2).1 = .ok (some output)) :
    ∃ transactionId ss ss', output.lookup "transactionId" = some transactionId ∧
      t.pre.2.rss transactionId = some ss ∧ t.post.2.rss transactionId = some ss' ∧
      (ss.euiccCert = some cert → ∃ tid euiccOtpk smdpSignature2Do,
        Signed past (.download tid euiccOtpk smdpSignature2Do) ∧
        cfg.lib.h2b transactionId = some tid ∧ ss.smdpSignature2Do = some smdpSignature2Do ∧
        ss'.euiccOtpk = some euiccOtpk.toList ∧ Made cfg e.1 ss' euiccOtpk.toList output ∧
        SessionSigned past ss) := by
  obtain ⟨content, transactionId, ss, ss', bin, data, signature, euiccSigned2, hcontent, hlookup,
    hss, hss', hbound, hmade⟩ := serve_bound hendpoint hserve
  obtain ⟨e', he', -⟩ | ⟨e', he', hpost⟩ := worldStep_cases h
  · rw [hevent] at he'
    cases he'
  rw [hevent] at he'
  cases he'
  rw [← hpost] at hss'
  refine ⟨transactionId, ss, ss', hlookup, hss, hss', fun hcert => ?_⟩
  obtain ⟨hsigned, signature', hdo⟩ :=
    (agreed_of_trace hlib hunforged h).1 transactionId ss hss hcert
  obtain ⟨euiccCert, smdpSignature2Do, hcert', hdo', hverify⟩ := hbound.verified
  obtain rfl := Option.some.inj (hcert.symm.trans hcert')
  obtain rfl := Option.some.inj (hdo.symm.trans hdo')
  obtain ⟨m, hm, hoctets⟩ := hunforged past t rest h e content signature _ hevent hcontent
    (.download hendpoint hbound.outerId hss hbound.response hbound.decoded hbound.extracted hdo)
    hverify
  obtain ⟨euiccOtpk, rfl, hotpk⟩ := download_of_octets hlib (hm.bounded h) hbound.decoded
    hbound.extracted (by simp) hoctets
  exact ⟨_, euiccOtpk, _, hm, hbound.signedId, hdo, hotpk ▸ hbound.euiccOtpk, hotpk ▸ hmade,
    hsigned⟩

/-- A session of the card is only removed with a result that the card has signed. -/
theorem removed_installed (hlib : Asn1 cfg.lib)
    (hunforged : Unforged cfg cert (worldTrace cfg es))
    (h : worldTrace cfg es = past ++ t :: rest) (hss : t.pre.2.rss transactionId = some ss)
    (hcert : ss.euiccCert = some cert) (hnone : t.post.2.rss transactionId = none) :
    ∃ e pird m, t.event = .inr e ∧ e.2.endpoint = .handleNotification ∧
      cfg.lib.b2h pird.transactionId = transactionId ∧ Signed past m ∧
      cfg.lib.encodeProfileInstallationResultData pird = some m.octets := by
  obtain ⟨e, -, hpost⟩ | ⟨e, hevent, hpost⟩ := worldStep_cases h
  · rw [hpost, hss] at hnone
    cases hnone
  rw [hpost] at hnone
  obtain ⟨content, euiccCert, hcontent, hcert', hmessage⟩ := removed_signed hss hnone
  obtain rfl := Option.some.inj (hcert.symm.trans hcert')
  obtain ⟨hendpoint, bin, pird, signature, data, hbin, hdecode, hencode, hverify, hid⟩ |
    ⟨hendpoint, -⟩ := hmessage
  · obtain ⟨m, hm, rfl⟩ := hunforged past t rest h e content signature data hevent hcontent
      (.installation hendpoint hbin hdecode hencode) hverify
    exact ⟨e, pird, m, hevent, hendpoint, hid, hm, hencode⟩
  · have hremoved : (Es9.cancelSession cfg content t.pre.2).2.rss transactionId = none := by
      unfold serve at hnone
      split at hnone
      · rw [hss] at hnone
        cases hnone
      · rw [hcontent, hendpoint] at hnone
        exact hnone
    obtain ⟨bin, ecsr, signature, data, euiccCert, hbin, hdecode, hencode, hcert', hverify, hoid⟩ :=
      cancelSession_removed hss hremoved
    obtain rfl := Option.some.inj (hcert.symm.trans hcert')
    obtain ⟨m, hm, rfl⟩ := hunforged past t rest h e content signature data hevent hcontent
      (.cancellation hendpoint hbin hdecode hencode) hverify
    exact absurd hencode (not_cancellation hlib (hm.bounded h) hoid)

/-- **Agreement on removals.** A session of the card is only removed when the card has signed that
it has installed a profile in this transaction; a message of the card that cancels it has no effect.
And if the library writes results as `rsp.asn` has them, the session is not removed at all: the card
puts the members of its result into one more sequence. -/
theorem removal_agreement (hlib : Asn1 cfg.lib) (hunforged : Unforged cfg cert (worldTrace cfg es))
    (h : worldTrace cfg es = past ++ t :: rest) (hss : t.pre.2.rss transactionId = some ss)
    (hcert : ss.euiccCert = some cert) :
    (t.post.2.rss transactionId = none →
      ∃ e tid seqNumber, t.event = .inr e ∧ e.2.endpoint = .handleNotification ∧
        cfg.lib.b2h tid = transactionId ∧ Signed past (.installation tid seqNumber)) ∧
    (WritesResults cfg.lib → t.post.2.rss transactionId ≠ none) := by
  have hremoved := fun hnone => removed_installed hlib hunforged h hss hcert hnone
  refine ⟨fun hnone => ?_, fun hwrites hnone => ?_⟩
  · obtain ⟨e, pird, m, hevent, hendpoint, hid, hm, hencode⟩ := hremoved hnone
    obtain ⟨seqNumber, rfl⟩ := installation_of_octets hlib (hm.bounded h) hencode
    exact ⟨e, _, seqNumber, hevent, hendpoint, hid, hm⟩
  · obtain ⟨-, pird, m, -, -, -, hm, hencode⟩ := hremoved hnone
    exact not_result hlib hwrites (hm.bounded h) hencode

/-! ## A run -/

/-- What the card signs in the run. -/
def runMessages : List SignedMessage :=
  [.authentication ⟨unlettered.transactionId, List.replicate 16 0x5C, [0x68]⟩ [0x50],
    .download unlettered.transactionId (Card.samplePublicKey (Card.octets 1))
      (Der.tlv 0x5F37 (sampleSignature unlettered.smdpSignature2)),
    .installation unlettered.transactionId [0x01]]

/-- Its signatures. -/
def runSignatures : List (ℕ × ℕ) :=
  [unlettered.euiccSignature1, unlettered.euiccSignature2,
    (0x731cdb8b2378e3735c605853f65960699b675a67cb80256f41f73ce06445f43f,
      0x1e2ec4f4005de0c52fd843f1bf5e11d2719367fa874c0d7a7b24c0efa642a708)]

/-- The signature of data by the card. -/
def runSign (data : Bytes) : Option (ℕ × ℕ) :=
  ((runMessages.map SignedMessage.octets).zip runSignatures).lookup data

/-- Whether a signature is the card's. -/
def runVerify (cert : ℕ) (signature data : Bytes) : Option Bool :=
  if signature.length = 64 then
    some (cert = 2 ∧ (runSign data).any fun rs => sampleSignature rs = signature)
  else none

/-- The server of the run. -/
def runConfig : Config ℕ ℕ := unlettered.configWith runVerify

/-- The notification about the installation, as this card writes it. -/
def runNotification : Bytes :=
  Der.tlv 0xBF37 (Der.tlv 0xBF27 (Der.tlvs
      (SignedMessage.installation unlettered.transactionId [0x01]).objects) ++
    Der.tlv 0x5F37 (sampleSignature
      (0x731cdb8b2378e3735c605853f65960699b675a67cb80256f41f73ce06445f43f,
        0x1e2ec4f4005de0c52fd843f1bf5e11d2719367fa874c0d7a7b24c0efa642a708)))

/-- What happens around the requests to the card. -/
def runCardEnv : Card.Env := { Card.sampleEnv with
  sign := fun _ data => runSign data
  file := fun path =>
    if path = "pySim/smdpp-data/generated/eUICC/CERT_EUICC_ECDSA_NIST.der" then
      some (sampleCertificate 2)
    else if path = "pySim/smdpp-data/generated/EUM/CERT_EUM_ECDSA_NIST.der" then
      some (sampleCertificate 1)
    else some [0x2D] }

/-- A command to the card. -/
def runCommand (data : Bytes) : Event :=
  .request runCardEnv ⟨.transmit, [0x80, 0xE2, 0x91, 0x00, UInt8.ofNat data.length] ++ data⟩

/-- The card authenticates, prepares a download and installs a profile. -/
def runCard : List Event :=
  [.accept, .request runCardEnv ⟨.connect, []⟩,
    .request runCardEnv ⟨.logicChannelOpen, expectedAid⟩,
    runCommand (Der.tlv 0xBF38 (Der.tlv 0x30 (Der.tlv 0x80 unlettered.transactionId ++
      Der.tlv 0x83 [0x68] ++ Der.tlv 0x84 (List.replicate 16 0x5C)) ++
      Der.tlv 0xA0 (Der.tlv 0x80 [0x50]))),
    runCommand (Der.tlv 0xBF21 (unlettered.smdpSigned2 ++
      Der.tlv 0x5F37 (sampleSignature unlettered.smdpSignature2))),
    runCommand [0xA3, 0x01, 0x55]]

/-- The server has the notification. -/
def runNotify : ServerEvent :=
  unlettered.request .handleNotification
    [("pendingNotification", .str (b64encode2str runNotification))]

/-- The world in which the card has its run, and then the server. -/
def runWorld (es : List ServerEvent) : List (Event ⊕ ServerEvent) :=
  runCard.map .inl ++ es.map .inr

/-- In its run the card signs these messages, and its responses have them inside. -/
theorem runCard_facts : (∀ data ∈ runMessages.map SignedMessage.octets,
      (trace daemonStep .start runCard).any fun u => (signedIn u).any fun m => m.octets = data) ∧
    (exec daemonStep .start runCard).isSome ∧
    runMessages.map SignedMessage.octets = [unlettered.euiccSigned1,
      unlettered.euiccSigned2 ++ Der.tlv 0x5F37 (sampleSignature unlettered.smdpSignature2),
      Der.tlv 0xBF27 (Der.tlvs
        (SignedMessage.installation unlettered.transactionId [0x01]).objects)] := by
  decide +kernel

theorem worldTrace_runWorld (es : List ServerEvent) : ∃ daemon,
    worldTrace runConfig (runWorld es) =
      (trace daemonStep .start runCard).map (fun t =>
        ⟨(t.pre, Server.new), .inl t.event, (t.post, Server.new)⟩) ++
      (trace (Es9.step runConfig) Server.new es).map (fun t =>
        ⟨(daemon, t.pre), .inr t.event, (daemon, t.post)⟩) := by
  obtain ⟨-, hexec, -⟩ := runCard_facts
  obtain ⟨daemon, hdaemon⟩ := Option.isSome_iff_exists.1 hexec
  exact ⟨daemon, trace_inl_inr hdaemon es⟩

/-- What is verified is one of the messages. -/
theorem runVerify_mem {cert : ℕ} {signature data : Bytes}
    (h : runVerify cert signature data = some true) :
    data ∈ runMessages.map SignedMessage.octets := by
  unfold runVerify at h
  split_ifs at h
  obtain ⟨-, hsign⟩ := of_decide_eq_true (Option.some.inj h)
  obtain ⟨rs, hrs, -⟩ := (Option.any_eq_true _ _).1 hsign
  obtain ⟨before, after, hzip, -⟩ := List.lookup_eq_some_iff.1 hrs
  have hmem : (data, rs) ∈ (runMessages.map SignedMessage.octets).zip runSignatures := by
    rw [hzip]
    exact List.mem_append_right _ List.mem_cons_self
  exact (List.of_mem_zip hmem).1

/-- The steps of the card are before those of the server, and what it signs is signed there. -/
theorem run_signed {es : List ServerEvent} {past rest : List (WorldStep ℕ)} {t : WorldStep ℕ}
    {e : ServerEvent} {data : Bytes} (h : worldTrace runConfig (runWorld es) = past ++ t :: rest)
    (hevent : t.event = .inr e) (hdata : data ∈ runMessages.map SignedMessage.octets) :
    ∃ m, Signed past m ∧ m.octets = data := by
  obtain ⟨u, hu, hm⟩ := List.any_eq_true.1 (runCard_facts.1 data hdata)
  obtain ⟨m, hm, hoctets⟩ := (Option.any_eq_true _ _).1 hm
  refine ⟨m, ⟨u, ?_, hm⟩, of_decide_eq_true hoctets⟩
  obtain ⟨daemon, htrace⟩ := worldTrace_runWorld es
  rw [h] at htrace
  have hleft : Step.left (⟨(u.pre, Server.new), .inl u.event, (u.post, Server.new)⟩ :
      WorldStep ℕ) = some u := rfl
  have hpast : ∃ more, past = (trace daemonStep .start runCard).map (fun t =>
      (⟨(t.pre, Server.new), .inl t.event, (t.post, Server.new)⟩ : WorldStep ℕ)) ++ more := by
    obtain ⟨more, hcard, hrest⟩ | ⟨more, hpast, -⟩ := List.append_eq_append_iff.1 htrace
    · cases more with
      | nil => exact ⟨[], by rw [List.append_nil, hcard, List.append_nil]⟩
      | cons v more =>
        obtain ⟨rfl, -⟩ := List.cons.inj hrest
        have hmem := List.mem_append_right past (List.mem_cons_self (a := t) (l := more))
        rw [← hcard] at hmem
        obtain ⟨v, -, rfl⟩ := List.mem_map.1 hmem
        cases hevent
    · exact ⟨more, hpast⟩
  obtain ⟨more, rfl⟩ := hpast
  rw [List.filterMap_append]
  exact List.mem_append_left _ (List.mem_filterMap.2 ⟨_, List.mem_map_of_mem hu, hleft⟩)

theorem run_unforged (es : List ServerEvent) :
    Unforged runConfig 2 (worldTrace runConfig (runWorld es)) :=
  fun _ _ _ h _ _ _ _ hevent _ _ hverify => run_signed h hevent (runVerify_mem hverify)

theorem run_objects {objs objs' : List (ℕ × Bytes)} (h : ∀ x ∈ objs, Der.IsTag x.1)
    (h' : ∀ x ∈ objs', Der.IsTag x.1) (hlt : (Der.tlvs objs).length < 2 ^ 32)
    (hlt' : (Der.tlvs objs').length < 2 ^ 32)
    (heq : Der.tlv 0x30 (Der.tlvs objs) = Der.tlv 0x30 (Der.tlvs objs')) : objs = objs' := by
  rw [← List.append_nil (Der.tlv _ (Der.tlvs objs)), ← List.append_nil (Der.tlv _ (Der.tlvs objs'))]
    at heq
  obtain ⟨-, hobjs, -⟩ := Der.tlv_append_inj (by decide) (by decide)
    (Der.lt_pow_of_lt (by omega)) (Der.lt_pow_of_lt (by omega)) heq
  exact Der.tlvs_inj h h' (Der.lt_pow_of_lt (by omega)) hobjs

/-- The responses have what the card signs inside. -/
theorem run_extracted : extractEuiccSigned1 derBertlv unlettered.authentication =
      some (Der.tlv 0x30 (Der.tlvs (SignedMessage.authentication ⟨unlettered.transactionId,
        List.replicate 16 0x5C, [0x68]⟩ [0x50]).objects)) ∧
    extractEuiccSigned2 derBertlv unlettered.preparation =
      some (Der.tlv 0x30 (Der.tlvs (SignedMessage.download unlettered.transactionId
        (Card.samplePublicKey (Card.octets 1)) []).objects)) := by
  decide +kernel

theorem run_decode1 {bin : Bytes} {ok : AuthenticateResponseOk ℕ}
    (h : runConfig.lib.decodeAuthenticateServerResponse bin = .ok (.authenticateResponseOk ok)) :
    bin = unlettered.authentication ∧ unlettered.authenticateResponseOk = ok := by
  obtain ⟨hbin, hok⟩ := @only_eq _ _ _ unlettered.authentication _ _ _ _ h nofun
  exact ⟨hbin, by simpa using hok⟩

theorem run_decode2 {bin signature : Bytes} {euiccSigned2 : Es9.EuiccSigned2}
    (h : runConfig.lib.decodePrepareDownloadResponse bin =
      some (.downloadResponseOk euiccSigned2 signature)) :
    bin = unlettered.preparation ∧
      ⟨unlettered.transactionId, Card.sampleSmdpOtpk⟩ = euiccSigned2 := by
  obtain ⟨hbin, hok⟩ := @only_eq _ _ _ unlettered.preparation _ _ _ _ h nofun
  simp only [Option.some.injEq, PrepareDownloadResponse.downloadResponseOk.injEq] at hok
  exact ⟨hbin, hok.1⟩

theorem run_asn1 : Asn1 runConfig.lib where
  tlv := derBertlv_lawful
  complete1 := by
    intro bin ok data hdecode hdata rest
    obtain ⟨rfl, -⟩ := run_decode1 hdecode
    obtain rfl := Option.some.inj (run_extracted.1.symm.trans hdata)
    exact derBertlv_lawful.returnOneRawtlv_eq 0x30 _ rest (by decide) (by decide +kernel)
  complete2 := by
    intro bin euiccSigned2 signature data hdecode hdata rest
    obtain ⟨rfl, -⟩ := run_decode2 hdecode
    obtain rfl := Option.some.inj (run_extracted.2.symm.trans hdata)
    exact derBertlv_lawful.returnOneRawtlv_eq 0x30 _ rest (by decide) (by decide +kernel)
  signed1 := by
    intro bin ok objs hdecode hdata htags hlt
    obtain ⟨rfl, rfl⟩ := run_decode1 hdecode
    have hobjs := run_objects (SignedMessage.isTag_objects _) htags (by decide +kernel) hlt
      (Option.some.inj (run_extracted.1.symm.trans hdata))
    refine ⟨_, _, _, _, [], hobjs.symm, fun ctx hctx htags => ⟨_, rfl, ?_⟩⟩
    obtain rfl := Der.tlvs_inj (SignedMessage.isTag_ctxParams [0x50]) htags (by decide +kernel) hctx
    decide +kernel
  signed2 := by
    intro bin euiccSigned2 signature objs hdecode hdata htags hlt
    obtain ⟨rfl, rfl⟩ := run_decode2 hdecode
    have hobjs := run_objects (SignedMessage.isTag_objects _) htags (by decide +kernel) hlt
      (Option.some.inj (run_extracted.2.symm.trans hdata))
    exact ⟨[], hobjs.symm⟩
  installation := by
    intro pird data h
    obtain ⟨rfl, hdata⟩ := @only_eq _ _ _ unlettered.result _ _ _ _ h nofun
    obtain rfl : unlettered.resultDer = data := Option.some.inj hdata
    rw [Exchange.resultDer]
    simp only [List.append_assoc]
    exact ⟨_, rfl⟩
  cancellation := by
    intro ecsr data h
    cases h

theorem run_writesResults : WritesResults runConfig.lib := by
  intro pird data h
  obtain ⟨rfl, hdata⟩ := @only_eq _ _ _ unlettered.result _ _ _ _ h nofun
  obtain rfl : unlettered.resultDer = data := Option.some.inj hdata
  refine ⟨Der.tlv 0x80 [1] ++ Der.tlv 0x81 [0x07, 0x80] ++
      Der.tlv 0x0C "localhost".toUTF8.toList, [0x88, 0x37, 0x0A],
    Der.tlv 0xA0 (Der.tlv 0x4F [0xA0, 0x00, 0x00, 0x05, 0x59, 0x10, 0x10, 0xFF, 0xFF, 0xFF, 0xFF,
      0x89, 0x00, 0x00, 0x10, 0x00] ++ Der.tlv 0x04 [0x90, 0x00]), ?_, .inl ⟨_, _, rfl⟩⟩
  rw [Exchange.resultDer]
  simp only [Der.tlvs_cons, Der.tlvs_nil, List.append_nil, List.append_assoc]
  rfl

/-- The last step of the run. -/
theorem run_last (es : List ServerEvent) (e : ServerEvent) : ∃ daemon past s s',
    s = after runConfig es ∧ s' = after runConfig (es ++ [e]) ∧
    worldTrace runConfig (runWorld (es ++ [e])) =
      past ++ [⟨(daemon, s), .inr e, (daemon, s')⟩] := by
  obtain ⟨daemon, htrace⟩ := worldTrace_runWorld (es ++ [e])
  rw [trace_concat, List.map_append, ← List.append_assoc] at htrace
  exact ⟨daemon, _, _, _, rfl, rfl, htrace⟩

/-- The signatures of the responses are the card's. -/
theorem run_verify : runVerify 2 (sampleSignature unlettered.euiccSignature1)
      unlettered.euiccSigned1 = some true ∧
    runVerify 2 (sampleSignature unlettered.euiccSignature2) (unlettered.euiccSigned2 ++
      Der.tlv 0x5F37 (sampleSignature unlettered.smdpSignature2)) = some true := by
  decide +kernel

/-- What the server of the run comes to. -/
theorem run_exchange : after runConfig [unlettered.start, unlettered.authenticate] =
      unlettered.server (some unlettered.authenticated) DownloadHistoryStore.new ∧
    ∃ output, (serve runConfig unlettered.getPackage.1 unlettered.getPackage.2
      (unlettered.server (some unlettered.authenticated) DownloadHistoryStore.new)).1 =
        .ok (some output) := by
  obtain ⟨hauthenticated, hserve, -⟩ :=
    @exchange_run unlettered runVerify (by simp) run_verify.1 run_verify.2
  rw [hauthenticated] at hserve
  exact ⟨hauthenticated, hserve⟩

theorem session_agreement_run : ∃ past t rest ss,
    worldTrace runConfig (runWorld [unlettered.start, unlettered.authenticate]) =
      past ++ t :: rest ∧
    t.post.2.rss (hexText true unlettered.transactionId) = some ss ∧ ss.euiccCert = some 2 ∧
    SessionSigned (past ++ [t]) ss := by
  obtain ⟨daemon, past, s, s', -, hs', h⟩ := run_last [unlettered.start] unlettered.authenticate
  have hss : s'.rss (hexText true unlettered.transactionId) = some unlettered.authenticated := by
    rw [hs', List.singleton_append, run_exchange.1]
    exact server_rss ..
  exact ⟨past, _, [], _, h, hss, rfl, session_agreement run_asn1 (run_unforged _) h hss rfl⟩

theorem package_agreement_run : ∃ past t rest output,
    worldTrace runConfig (runWorld [unlettered.start, unlettered.authenticate,
      unlettered.getPackage]) = past ++ t :: rest ∧
    ∃ transactionId ss ss', output.lookup "transactionId" = some transactionId ∧
      t.pre.2.rss transactionId = some ss ∧ t.post.2.rss transactionId = some ss' ∧
      (ss.euiccCert = some 2 → ∃ tid euiccOtpk smdpSignature2Do,
        Signed past (.download tid euiccOtpk smdpSignature2Do) ∧
        runConfig.lib.h2b transactionId = some tid ∧
        ss.smdpSignature2Do = some smdpSignature2Do ∧
        ss'.euiccOtpk = some euiccOtpk.toList ∧
        Made runConfig unlettered.serverEnv ss' euiccOtpk.toList output ∧
        SessionSigned past ss) := by
  obtain ⟨daemon, past, s, s', hs, -, h⟩ :=
    run_last [unlettered.start, unlettered.authenticate] unlettered.getPackage
  obtain ⟨output, hserve⟩ := run_exchange.2
  rw [← run_exchange.1, ← hs] at hserve
  exact ⟨past, _, [], output, h, package_agreement run_asn1 (run_unforged _) h rfl rfl hserve⟩

theorem removal_agreement_run : ∃ past t rest,
    worldTrace runConfig (runWorld [unlettered.start, unlettered.authenticate, runNotify]) =
      past ++ t :: rest ∧ t.event = .inr runNotify ∧
    (∃ m, Signed past m ∧
      m.octets = (SignedMessage.installation unlettered.transactionId [0x01]).octets) ∧
    (t.post.2.rss (hexText true unlettered.transactionId) = none →
      ∃ e tid seqNumber, t.event = .inr e ∧ e.2.endpoint = .handleNotification ∧
        runConfig.lib.b2h tid = hexText true unlettered.transactionId ∧
        Signed past (.installation tid seqNumber)) ∧
    t.post.2.rss (hexText true unlettered.transactionId) ≠ none := by
  obtain ⟨daemon, past, s, s', hs, -, h⟩ :=
    run_last [unlettered.start, unlettered.authenticate] runNotify
  have hss : s.rss (hexText true unlettered.transactionId) = some unlettered.authenticated := by
    rw [hs, run_exchange.1]
    exact server_rss ..
  obtain ⟨hremoved, hkept⟩ := removal_agreement run_asn1 (run_unforged _) h hss rfl
  exact ⟨past, _, [], h, rfl, run_signed h rfl (by simp [runMessages]),
    hremoved, hkept run_writesResults⟩

end VirtualRsp.Protocol.Agreement
