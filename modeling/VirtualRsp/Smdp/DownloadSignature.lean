import VirtualRsp.Card.Echo
import VirtualRsp.Smdp.Sessions

/-!
# The signature on a prepared download

In its answer to a `PrepareDownloadRequest` the card signs `euiccSigned2` and the server's signature
(`signedData`); the server checks the card's signature over what it cuts out of the response and the
data object `5F37` that it has built itself (`verifiedData`).

`euiccSigned2` is the same on both sides. The server's signature is not: the card takes the first
place of the request that looks like one. `signedData_agrees_iff` says when it takes the right one.
-/

namespace VirtualRsp.Smdp.Es9

open Card

variable {env : Card.Env} {data : Bytes}

/-! ## The first signature of a command -/

/-- The first place of a command that the card takes for a signature. -/
structure FirstSignature (data : Bytes) (i len : ℕ) : Prop where
  signature : SignatureAt data i len
  fits : (i + 3 + len) % 2 ^ 32 ≤ data.length
  first : ∀ j len', j < i → SignatureAt data j len' → data.length < (j + 3 + len') % 2 ^ 32

theorem FirstSignature.unique {i j len len' : ℕ} (h : FirstSignature data i len)
    (h' : FirstSignature data j len') : i = j ∧ len = len' := by
  obtain hlt | rfl | hlt := Nat.lt_trichotomy i j
  · have := h'.first i len hlt h.signature
    have := h.fits
    omega
  · exact ⟨rfl, Option.some.inj (h.signature.length.symm.trans h'.signature.length)⟩
  · have := h.first j len' hlt h'.signature
    have := h'.fits
    omega

/-- At or before every place that looks like a signature is the first one. -/
theorem exists_firstSignature {k len : ℕ} (hat : SignatureAt data k len)
    (hfits : (k + 3 + len) % 2 ^ 32 ≤ data.length) :
    ∃ i len', i ≤ k ∧ FirstSignature data i len' := by
  classical
  have hex : ∃ i len', SignatureAt data i len' ∧ (i + 3 + len') % 2 ^ 32 ≤ data.length :=
    ⟨k, len, hat, hfits⟩
  obtain ⟨len', hat', hfits'⟩ := Nat.find_spec hex
  refine ⟨Nat.find hex, len', Nat.find_min' hex ⟨len, hat, hfits⟩, hat', hfits', ?_⟩
  intro j len'' hj hj'
  by_contra hle
  exact Nat.find_min hex hj ⟨len'', hj', not_lt.1 hle⟩

/-- **The search** copies what the first signature's length announces. -/
theorem findSmdpSignature2_of_first {i len : ℕ} (h : FirstSignature data i len)
    (trailing : Bytes) :
    findSmdpSignature2 ⟨data ++ trailing, data.length⟩ =
      (readN ((data ++ trailing).drop (i + 3)) len).map fun sig =>
        some ([0x5F, 0x37, 0x40] ++ sig) := by
  have hinside := h.signature.inside
  have hsub : sub32 data.length 3 = data.length - 3 := sub32_of_le (by omega)
  have hskip := @loop_skip _ (findSmdpSignature2Body ⟨data ++ trailing, data.length⟩) 0 i
    (Nat.zero_le i) (fun j _ hj => findSmdpSignature2Body_next (by omega)
      (smdpSignature2At_none trailing (by omega) fun len' => h.first j len' hj))
    ((data ++ trailing).length - i + 1)
  have hrounds : (data ++ trailing).length - i + 1 + (i - 0) = (data ++ trailing).length + 1 := by
    rw [List.length_append]
    omega
  have hbody : findSmdpSignature2Body ⟨data ++ trailing, data.length⟩ i =
      (readN ((data ++ trailing).drop (i + 3)) len).map fun sig => .done (some sig) := by
    rw [findSmdpSignature2Body, hsub, if_neg (by omega),
      smdpSignature2At_eq trailing h.signature h.fits]
    cases readN ((data ++ trailing).drop (i + 3)) len <;> rfl
  rw [hrounds] at hskip
  rw [findSmdpSignature2, hskip]
  cases hread : readN ((data ++ trailing).drop (i + 3)) len with
  | none =>
    rw [hread] at hbody
    rw [loop_fault hbody]
    rfl
  | some sig =>
    rw [hread] at hbody
    rw [loop_done hbody]
    rfl

/-! ## The signature of a request -/

section

variable (request : PrepareDownloadRequest)

/-- What is before the signature in a request. -/
def beforeSignature : Bytes :=
  Der.tagBytes 0xBF21 ++ Der.lenBytes request.content.length ++ Der.tlv 0x30 request.smdpSigned2

/-- The request's signature is the first thing in it that looks like one, or what looks like one
before it has the same bytes. -/
def Unmistakable : Prop :=
  ∀ i len, i < (beforeSignature request).length → FirstSignature request.octets i len →
    (request.octets.drop (i + 3)).take len = request.smdpSignature2

end

variable {request : PrepareDownloadRequest}

theorem octets_eq (h64 : request.smdpSignature2.length = 64) :
    request.octets = beforeSignature request ++
      ([0x5F, 0x37, 0x40] ++ (request.smdpSignature2 ++ request.trailer)) := by
  have htlv : Der.tlv 0x5F37 request.smdpSignature2 =
      [0x5F, 0x37, 0x40] ++ request.smdpSignature2 := by
    rw [Der.tlv, h64]
    rfl
  simp only [PrepareDownloadRequest.octets, Der.tlv.eq_1 0xBF21, beforeSignature,
    PrepareDownloadRequest.content, htlv, List.append_assoc]

theorem signatureAt_signature (h64 : request.smdpSignature2.length = 64) :
    SignatureAt request.octets (beforeSignature request).length 64 := by
  rw [octets_eq h64]
  refine ⟨?_, ?_, ?_, ?_, by decide⟩
  · simp only [List.length_append, List.length_cons, h64]
    omega
  · rw [readAt_append_right le_rfl, Nat.sub_self]
    rfl
  · rw [readAt_append_right (Nat.le_add_right _ _), Nat.add_sub_cancel_left]
    rfl
  · rw [readAt_append_right (Nat.le_add_right _ _), Nat.add_sub_cancel_left]
    rfl

/-- **The card finds the server's signature** exactly if it is unmistakable. -/
theorem findSmdpSignature2_eq_iff (h64 : request.smdpSignature2.length = 64)
    (hlt : request.octets.length < 2 ^ 32) :
    findSmdpSignature2 (.ofBytes env request.octets) =
        some (some ([0x5F, 0x37, 0x40] ++ request.smdpSignature2)) ↔
      Unmistakable request := by
  have hat := signatureAt_signature h64
  have hend : (beforeSignature request).length + 67 ≤ request.octets.length := by
    rw [octets_eq h64]
    simp only [List.length_append, List.length_cons, h64]
    omega
  obtain ⟨i, len, hi, hfirst⟩ := exists_firstSignature hat (by omega)
  rw [Command.ofBytes, findSmdpSignature2_of_first hfirst env.trailing]
  have hshort := hfirst.signature.short
  -- a value of 64 bytes before the signature lies in the request
  have hread : i < (beforeSignature request).length → len = 64 →
      readN ((request.octets ++ env.trailing).drop (i + 3)) len =
        some ((request.octets.drop (i + 3)).take len) := by
    intro hlt hlen
    have hle : len ≤ (request.octets.drop (i + 3)).length := by
      rw [List.length_drop]
      omega
    rw [List.drop_append_of_le_length (by omega), readN, if_pos, List.take_append_of_le_length hle]
    rw [List.length_append]
    omega
  obtain hlt | rfl := Nat.lt_or_eq_of_le hi
  · constructor
    · intro h j len' hj hfirst'
      obtain ⟨rfl, rfl⟩ := hfirst.unique hfirst'
      obtain ⟨sig, hsig, heq⟩ := Option.map_eq_some_iff.1 h
      obtain rfl := List.append_cancel_left (Option.some.inj heq)
      have hlen : len = 64 := (readN_eq_some hsig).2.symm.trans h64
      exact Option.some.inj ((hread hlt hlen).symm.trans hsig)
    · intro h
      have hvalue := h i len hlt hfirst
      have hlen : len = 64 := by
        have := congrArg List.length hvalue
        rw [List.length_take, List.length_drop, h64] at this
        omega
      rw [hread hlt hlen, hvalue]
      rfl
  · refine iff_of_true ?_ fun j len' hj hfirst' => absurd (hfirst.unique hfirst').1 (by omega)
    obtain rfl := Option.some.inj (hfirst.signature.length.symm.trans hat.length)
    have hdrop : (request.octets ++ env.trailing).drop ((beforeSignature request).length + 3) =
        request.smdpSignature2 ++ (request.trailer ++ env.trailing) := by
      rw [octets_eq h64, List.append_assoc, ← List.drop_drop, List.drop_left]
      simp
    rw [hdrop, readN_append h64]
    rfl

/-! ## The signed data -/

variable {state state' : EuiccState} {cmd : Command} {tlv : Bertlv}

/-- The data that the card signs in its answer. -/
def signedData (env : Card.Env) (state : EuiccState) (cmd : Command) : Option Bytes := do
  let transactionId ← findTransactionId state cmd
  let smdpSignature2 ← findSmdpSignature2 cmd
  let euiccOtpk ← env.ecKeypair.bind fun keypair => keypair.pub
  let signed2 ← Card.euiccSigned2 transactionId euiccOtpk
  return prepareDownloadInput signed2 smdpSignature2

/-- The data that the server checks a card's signature over, in a session. -/
def verifiedData {Cert : Type} (tlv : Bertlv) (ss : Session Cert) (response : Bytes) :
    Option Bytes := do
  let euiccSigned2Bin ← extractEuiccSigned2 tlv response
  let smdpSignature2Do ← ss.smdpSignature2Do
  return euiccSigned2Bin ++ smdpSignature2Do

/-- A download is prepared only for a signature over `verifiedData`. -/
theorem Downloads.verifiedData {Cert Asn : Type} {cfg : Config Cert Asn} {content : JsonText.Value}
    {transactionId : String} {ss : Session Cert} (h : Downloads cfg content transactionId ss) :
    ∃ bin euiccSigned2 euiccSignature2 euiccCert data,
      (getItem "prepareDownloadResponse" content).bind b64decodeValue = some bin ∧
      cfg.lib.decodePrepareDownloadResponse bin =
        some (.downloadResponseOk euiccSigned2 euiccSignature2) ∧
      verifiedData cfg.lib.tlv ss bin = some data ∧
      ss.euiccCert = some euiccCert ∧
      cfg.lib.ecdsaVerify euiccCert euiccSignature2 data = some true := by
  obtain ⟨-, bin, euiccSigned2, euiccSignature2, signedBin, euiccCert, smdpSignature2Do, hbin,
    hdecode, hsigned, hcert, hdo, hverify, -⟩ := h
  refine ⟨bin, euiccSigned2, euiccSignature2, euiccCert, _, hbin, hdecode, ?_, hcert, hverify⟩
  simp only [Es9.verifiedData, hsigned, hdo, Option.bind_eq_bind, Option.bind_some]
  rfl

/-- The signature that a card gets is the one behind the data object's header in its session. -/
theorem authenticateSession_smdpSignature2 {Cert Asn : Type} {cfg : Config Cert Asn} {env : Env}
    {content : JsonText.Value} {rss : SessionStore Cert} {output : Output}
    {transactionId : String} {ss : Session Cert}
    (h : authenticateSession cfg env content rss = .ok (output, transactionId, ss)) :
    ∃ signature, ss.smdpSignature2Do = some ([0x5F, 0x37, 0x40] ++ signature) ∧
      ("smdpSignature2", b64encode2str ([0x5F, 0x37, 0x40] ++ signature)) ∈ output := by
  unfold authenticateSession at h
  obtain ⟨tid, -, h⟩ := bind_ok h
  obtain ⟨⟨euiccSigned1Bin, ok, euiccCert, eumCert⟩, -, h⟩ := bind_ok h
  obtain ⟨tid', -, h⟩ := bind_ok h
  split at h
  · cases h
  obtain ⟨verified, -, h⟩ := bind_ok h
  obtain ⟨⟨matchingId, iccid⟩, -, h⟩ := bind_ok h
  obtain ⟨metadata, -, h⟩ := bind_ok h
  obtain ⟨profileMetadataBin, -, h⟩ := bind_ok h
  obtain ⟨transactionIdBin, -, h⟩ := bind_ok h
  obtain ⟨smdpSigned2Bin, -, h⟩ := bind_ok h
  obtain ⟨signature, -, h⟩ := bind_ok h
  cases h
  exact ⟨signature, rfl, by simp⟩

/-- What the server cuts out of a response of the card's form. -/
theorem extractEuiccSigned_tlv (htlv : tlv.Lawful) {tag : ℕ} (ht : Der.IsTag tag)
    {fields rest : Bytes} (hlt : (Der.tlv 0xA0 (Der.tlv 0x30 fields ++ rest)).length < 2 ^ 32) :
    extractEuiccSigned tlv tag (Der.tlv tag (Der.tlv 0xA0 (Der.tlv 0x30 fields ++ rest))) =
      some (Der.tlv 0x30 fields) := by
  have hA0 := Der.length_tlv 0xA0 (Der.tlv 0x30 fields ++ rest)
  have h30 := Der.length_tlv 0x30 fields
  rw [List.length_append] at hA0
  have houter := htlv.parseOneRawtag_eq tag _ [] ht hlt
  have hchoice := htlv.parseOneRawtag_eq 0xA0 (Der.tlv 0x30 fields ++ rest) [] (by decide)
    (by rw [List.length_append]; omega)
  have hsigned := htlv.returnOneRawtlv_eq 0x30 fields rest (by decide) (by omega)
  rw [List.append_nil] at houter hchoice
  simp [extractEuiccSigned, houter, hchoice, hsigned]

/-- An answer of the card holds a signature over `signedData`. -/
theorem signedData_answer {resp : Bytes}
    (h : prepareDownload env state cmd = some (state', some resp)) :
    ∃ fields smdpSignature2 signature,
      findSmdpSignature2 cmd = some smdpSignature2 ∧
      signedData env state cmd = some (prepareDownloadInput (Der.tlv 0x30 fields) smdpSignature2) ∧
      signWithKey env state' (prepareDownloadInput (Der.tlv 0x30 fields) smdpSignature2) =
        some (some signature) ∧
      resp = Der.tlv 0xBF21 (Der.tlv 0xA0 (Der.tlv 0x30 fields ++ Der.tlv 0x5F37 signature)) ∧
      (Der.tlv 0xA0 (Der.tlv 0x30 fields ++ Der.tlv 0x5F37 signature)).length < 2 ^ 32 := by
  obtain ⟨transactionId, smdpSignature2, euiccOtpk, signed2, signature, htid, hsig, hotpk, hsigned,
    hsign, hresp, hlen, -⟩ := prepareDownload_answer h
  have hdata : signedData env state cmd = some (prepareDownloadInput signed2 smdpSignature2) := by
    simp only [signedData, htid, hsig, hotpk, hsigned, Option.bind_eq_bind, Option.bind_some]
    rfl
  obtain ⟨fields, -, rfl⟩ := Option.map_eq_some_iff.1 hsigned
  rw [buildTlv_eq] at hdata hsign hresp hlen
  exact ⟨fields, smdpSignature2, signature, hsig, hdata, hsign, hresp, hlen⟩

/-- **Agreement.** The data that the card signs for a request with the server's signature are the
data that the server checks exactly if the signature is unmistakable in the request. -/
theorem signedData_agrees_iff {Cert : Type} {ss : Session Cert} (htlv : tlv.Lawful)
    (h64 : request.smdpSignature2.length = 64) (hlt : request.octets.length < 2 ^ 32)
    (hss : ss.smdpSignature2Do = some ([0x5F, 0x37, 0x40] ++ request.smdpSignature2))
    {resp : Bytes}
    (h : prepareDownload env state (.ofBytes env request.octets) = some (state', some resp)) :
    (∃ data signature, signedData env state (.ofBytes env request.octets) = some data ∧
      signWithKey env state' data = some (some signature) ∧
      ∃ signed2, resp = Der.tlv 0xBF21 (Der.tlv 0xA0 (signed2 ++ Der.tlv 0x5F37 signature))) ∧
    (signedData env state (.ofBytes env request.octets) = verifiedData tlv ss resp ↔
      Unmistakable request) := by
  obtain ⟨fields, smdpSignature2, signature, hfound, hdata, hsign, rfl, hlen⟩ := signedData_answer h
  refine ⟨⟨_, signature, hdata, hsign, Der.tlv 0x30 fields, rfl⟩, ?_⟩
  have hverified : verifiedData tlv ss (Der.tlv 0xBF21 (Der.tlv 0xA0
      (Der.tlv 0x30 fields ++ Der.tlv 0x5F37 signature))) =
        some (Der.tlv 0x30 fields ++ ([0x5F, 0x37, 0x40] ++ request.smdpSignature2)) := by
    have hextract := extractEuiccSigned_tlv htlv (show Der.IsTag 0xBF21 by decide) hlen
    simp only [verifiedData, extractEuiccSigned2, hextract, hss, Option.bind_eq_bind,
      Option.bind_some]
    rfl
  rw [hverified, hdata, ← findSmdpSignature2_eq_iff h64 hlt, hfound, prepareDownloadInput,
    Option.some.injEq, List.append_cancel_left_eq, Option.some.injEq]
  cases smdpSignature2 with
  | none => simp
  | some sig => simp

/-! ## Sample requests -/

/-- A request for a transaction. -/
def samplePreparation (transactionId : Vector UInt8 16) : PrepareDownloadRequest where
  transactionId := transactionId.toList
  transactionId_pos := by simp
  transactionId_le := by simp
  ccRequiredFlag := false
  bppEuiccOtpk := none
  smdpSignature2 := List.replicate 64 7
  hashCc := none
  smdpCertificate := [0x02, 0x01, 0x05]

/-- A card with a key. -/
def sampleCard : EuiccState := { euiccStateInit with euiccPrivateKey := some 1 }

/-- A session of the server with the signature of the request. -/
def sampleSession : Session Unit :=
  { Session.new "" [] [] with
    smdpSignature2Do := some ([0x5F, 0x37, 0x40] ++ List.replicate 64 7) }

/-- The card's answer to the request. -/
def sampleAnswer (transactionId : Vector UInt8 16) : Option (EuiccState × Option Bytes) :=
  prepareDownload Card.sampleEnv sampleCard
    (.ofBytes Card.sampleEnv (samplePreparation transactionId).octets)

theorem signedData_agrees_iff_sample : ∃ state' resp,
    sampleAnswer (Vector.replicate 16 1) = some (state', some resp) ∧
    (∃ data signature, signedData Card.sampleEnv sampleCard
        (.ofBytes Card.sampleEnv (samplePreparation (Vector.replicate 16 1)).octets) = some data ∧
      signWithKey Card.sampleEnv state' data = some (some signature) ∧
      ∃ signed2, resp = Der.tlv 0xBF21 (Der.tlv 0xA0 (signed2 ++ Der.tlv 0x5F37 signature))) ∧
    (signedData Card.sampleEnv sampleCard
        (.ofBytes Card.sampleEnv (samplePreparation (Vector.replicate 16 1)).octets) =
          verifiedData derBertlv sampleSession resp ↔
      Unmistakable (samplePreparation (Vector.replicate 16 1))) := by
  have hanswer : ((sampleAnswer (Vector.replicate 16 1)).bind (·.2)).isSome := by decide +kernel
  obtain ⟨resp, h⟩ := Option.isSome_iff_exists.1 hanswer
  obtain ⟨⟨state', _⟩, hstate, rfl⟩ := Option.bind_eq_some_iff.1 h
  exact ⟨state', resp, hstate, signedData_agrees_iff derBertlv_lawful (by decide)
    (by decide +kernel) rfl hstate⟩

/-- An identifier as `uuid4` generates them. -/
def sampleUuid : Vector UInt8 16 := #v[0x5F, 0x37, 2, 0, 0, 0, 0x40, 0, 0x80, 0, 0, 0, 0, 0, 0, 0]

/-- **A transaction identifier that looks like a signature** is signed in its place. -/
theorem signedData_disagrees : ¬ ∀ (env : Card.Env) (state state' : EuiccState)
    (request : PrepareDownloadRequest) (ss : Session Unit) (resp : Bytes),
    request.smdpSignature2.length = 64 → request.octets.length < 2 ^ 32 →
    ss.smdpSignature2Do = some ([0x5F, 0x37, 0x40] ++ request.smdpSignature2) →
    prepareDownload env state (.ofBytes env request.octets) = some (state', some resp) →
    signedData env state (.ofBytes env request.octets) = verifiedData derBertlv ss resp := by
  intro h
  have hanswer : (sampleAnswer sampleUuid).any fun r => r.2.any fun resp =>
      signedData Card.sampleEnv sampleCard
          (.ofBytes Card.sampleEnv (samplePreparation sampleUuid).octets) ≠
        verifiedData derBertlv sampleSession resp := by
    decide +kernel
  obtain ⟨⟨state', r⟩, hstate, hr⟩ := (Option.any_eq_true _ _).1 hanswer
  obtain ⟨resp, rfl, hne⟩ := (Option.any_eq_true _ _).1 hr
  exact of_decide_eq_true hne
    (h _ _ _ _ sampleSession resp (by decide) (by decide +kernel) rfl hstate)

end VirtualRsp.Smdp.Es9
