import VirtualRsp.Card.Invariant

/-!
# Failed commands

A command that fails answers with the error `-1`. Most handlers that can fail do so after they have
already written to the state: the transaction identifier is taken over while the request is read,
the one-time keys are stored before anything is signed, the server's key before the session keys are
derived, and the profile is installed before its result is signed.

* `prepareDownload_state`, `initialiseSecureChannel_state`, ...: the state a command leaves, whether
  it fails or not.
* `failed_iff`: a failed command leaves the profiles, the package and the session as they were
  exactly if what it had written before it failed was there already.
-/

namespace VirtualRsp.Card

variable {env : Env} {s s' : EuiccState} {cmd : Command} {r : Option Bytes}

/-! ## The state a command leaves -/

/-- **Authentication** takes over what it has read. -/
theorem authenticateServer_state (h : authenticateServer env s cmd = some (s', r)) :
    ∃ fields matchingId, findServerSigned1 s cmd = some fields ∧
      findMatchingId cmd = some matchingId ∧
      s' = { s with
        transactionId := fields.transactionId
        serverChallenge := fields.serverChallenge
        matchingId := matchingId } := by
  simp only [authenticateServer, Option.bind_eq_bind, Option.bind_eq_some_iff] at h
  obtain ⟨fields, hf, matchingId, hm, _, -, sig, -, h⟩ := h
  refine ⟨fields, matchingId, hf, hm, ?_⟩
  cases sig with
  | none => cases h; rfl
  | some sig =>
    obtain ⟨_, -, h⟩ := Option.bind_eq_some_iff.1 h
    cases h
    rfl

/-- The one-time key pair that a download is prepared with: its public half, and its private half if
that can be extracted. -/
def freshOtpk (env : Env) : Option (Vector UInt8 65 × Option (Vector UInt8 32)) :=
  env.ecKeypair.bind fun keypair => keypair.pub.map fun pub => (pub, keypair.priv)

/-- **Preparing a download** takes over the transaction identifier, and a new key pair. -/
theorem prepareDownload_state (h : prepareDownload env s cmd = some (s', r)) :
    ∃ transactionId, findTransactionId s cmd = some transactionId ∧
      ((freshOtpk env = none ∧ s' = { s with transactionId := transactionId } ∧ r = none) ∨
        ∃ pub priv, freshOtpk env = some (pub, priv) ∧ s' = { s with
          transactionId := transactionId
          euiccOtpk := some pub
          euiccOtsk := priv }) := by
  simp only [prepareDownload, Option.bind_eq_bind, Option.bind_eq_some_iff] at h
  obtain ⟨transactionId, ht, _, -, h⟩ := h
  refine ⟨transactionId, ht, ?_⟩
  split at h
  · rename_i hk
    cases h
    exact .inl ⟨by simp [freshOtpk, hk], rfl, rfl⟩
  rename_i keypair hk
  split at h
  · rename_i hp
    cases h
    exact .inl ⟨by simp [freshOtpk, hk, hp], rfl, rfl⟩
  rename_i pub hp
  refine .inr ⟨pub, keypair.priv, by simp [freshOtpk, hk, hp], ?_⟩
  split at h
  · cases h
    rfl
  obtain ⟨_, -, h⟩ := Option.bind_eq_some_iff.1 h
  obtain ⟨sig, -, h⟩ := Option.bind_eq_some_iff.1 h
  cases sig with
  | none => cases h; rfl
  | some sig =>
    obtain ⟨_, -, h⟩ := Option.bind_eq_some_iff.1 h
    cases h
    rfl

/-- The server's one-time key that a `BF23` command brings for the transaction of the card. -/
def acceptedOtpk (state : EuiccState) (cmd : Command) : Option Bytes := do
  let (ptr, remaining) ← bf23Content cmd
  let transactionIdFound ← scan (transactionIdBody []) ptr remaining
  if transactionIdFound ≠ state.transactionId then none
  else
    let smdpOtpk ← scan smdpOtpkBody ptr remaining
    smdpOtpk.filter fun pk => pk.length = 65

/-- The session keys from the card's one-time key, if there is one. -/
def deriveFrom (env : Env) (euiccOtsk : Option (Vector UInt8 32)) (smdpOtpk : Bytes) :
    Option (Bytes × Bytes) :=
  euiccOtsk.bind fun otsk => deriveSessionKeysEcka env otsk smdpOtpk

/-- **Opening the secure channel**: a key that is accepted is stored, and the session keys if they
can be derived. -/
theorem initialiseSecureChannel_state (h : initialiseSecureChannel env s cmd = some (s', r)) :
    (acceptedOtpk s cmd = none ∧ s' = s ∧ r = none) ∨
      ∃ smdpOtpk, acceptedOtpk s cmd = some smdpOtpk ∧
        ((deriveFrom env s.euiccOtsk smdpOtpk = none ∧ s' = { s with smdpOtpk := some smdpOtpk } ∧
            r = none) ∨
          ∃ enc mac, deriveFrom env s.euiccOtsk smdpOtpk = some (enc, mac) ∧ r.isSome ∧
            s' = { s with
              smdpOtpk := some smdpOtpk
              sessionKeyEnc := enc
              sessionKeyMac := mac
              sessionKeysDerived := true
              bppCommandsReceived := s.bppCommandsReceived + 1 }) := by
  simp only [initialiseSecureChannel, Option.bind_eq_bind, Option.bind_eq_some_iff] at h
  obtain ⟨⟨ptr, remaining⟩, hcontent, tid, htid, h⟩ := h
  dsimp only at h htid
  split at h
  · rename_i hne
    cases h
    exact .inl ⟨by simp [acceptedOtpk, hcontent, htid, hne], rfl, rfl⟩
  rename_i heq
  obtain ⟨pk, hpk, h⟩ := Option.bind_eq_some_iff.1 h
  have hacc : acceptedOtpk s cmd = pk.filter fun pk => pk.length = 65 := by
    simp only [acceptedOtpk, hcontent, Option.bind_eq_bind, Option.bind_some, htid, if_neg heq, hpk]
  cases pk with
  | none =>
    cases h
    exact .inl ⟨hacc, rfl, rfl⟩
  | some pk =>
    dsimp only at h
    split at h
    · rename_i hlen
      cases h
      exact .inl ⟨hacc.trans (by simp [hlen]), rfl, rfl⟩
    rename_i hlen
    refine .inr ⟨pk, hacc.trans (by simpa using hlen), ?_⟩
    split at h
    · rename_i hsk
      cases h
      exact .inl ⟨by simp [deriveFrom, hsk], rfl, rfl⟩
    rename_i otsk hsk
    split at h
    · rename_i hd
      cases h
      exact .inl ⟨by simp [deriveFrom, hsk, hd], rfl, rfl⟩
    rename_i enc mac hd
    obtain ⟨_, -, h⟩ := Option.bind_eq_some_iff.1 h
    cases h
    exact .inr ⟨enc, mac, by simp [deriveFrom, hsk, hd], rfl, rfl⟩

/-! ## What a failed command leaves -/

/-- What a failed command should leave unchanged. -/
structure Unchanged (s s' : EuiccState) : Prop where
  profiles : s'.profiles = s.profiles
  installedProfiles : s'.installedProfiles = s.installedProfiles
  boundProfilePackage : s'.boundProfilePackage = s.boundProfilePackage
  euiccOtpk : s'.euiccOtpk = s.euiccOtpk
  euiccOtsk : s'.euiccOtsk = s.euiccOtsk
  smdpOtpk : s'.smdpOtpk = s.smdpOtpk
  sessionKeyEnc : s'.sessionKeyEnc = s.sessionKeyEnc
  sessionKeyMac : s'.sessionKeyMac = s.sessionKeyMac
  sessionKeysDerived : s'.sessionKeysDerived = s.sessionKeysDerived
  transactionId : s'.transactionId = s.transactionId

theorem Unchanged.refl (s : EuiccState) : Unchanged s s :=
  ⟨rfl, rfl, rfl, rfl, rfl, rfl, rfl, rfl, rfl, rfl⟩

/-- What a command writes before it can fail is there already. -/
def Harmless (env : Env) (s : EuiccState) (cmd : Command) : Es10xCommand → Prop
  | .authenticateServer =>
    ∀ fields, findServerSigned1 s cmd = some fields → fields.transactionId = s.transactionId
  | .prepareDownload =>
    (∀ transactionId, findTransactionId s cmd = some transactionId →
        transactionId = s.transactionId) ∧
      ∀ pub priv, freshOtpk env = some (pub, priv) → s.euiccOtpk = some pub ∧ s.euiccOtsk = priv
  | .initialiseSecureChannel =>
    ∀ smdpOtpk, acceptedOtpk s cmd = some smdpOtpk → s.smdpOtpk = some smdpOtpk
  | .sequenceOf86 => s.boundProfilePackage.data = [] ∧ segmentData cmd = some []
  | _ => True

theorem authenticateServer_failed (h : authenticateServer env s cmd = some (s', none)) :
    Unchanged s s' ↔ Harmless env s cmd .authenticateServer := by
  obtain ⟨fields, matchingId, hf, -, rfl⟩ := authenticateServer_state h
  constructor
  · intro hk fields' hf'
    cases hf.symm.trans hf'
    exact hk.transactionId
  · intro hh
    exact ⟨rfl, rfl, rfl, rfl, rfl, rfl, rfl, rfl, rfl, hh fields hf⟩

theorem prepareDownload_failed (h : prepareDownload env s cmd = some (s', none)) :
    Unchanged s s' ↔ Harmless env s cmd .prepareDownload := by
  obtain ⟨transactionId, ht, ⟨hpair, rfl, -⟩ | ⟨pub, priv, hpair, rfl⟩⟩ := prepareDownload_state h
  · constructor
    · intro hk
      refine ⟨fun transactionId' ht' => ?_, fun pub priv hp => ?_⟩
      · cases ht.symm.trans ht'
        exact hk.transactionId
      · cases hpair.symm.trans hp
    · intro hh
      exact ⟨rfl, rfl, rfl, rfl, rfl, rfl, rfl, rfl, rfl, hh.1 _ ht⟩
  · constructor
    · intro hk
      refine ⟨fun transactionId' ht' => ?_, fun pub' priv' hp => ?_⟩
      · cases ht.symm.trans ht'
        exact hk.transactionId
      · cases hpair.symm.trans hp
        exact ⟨hk.euiccOtpk.symm, hk.euiccOtsk.symm⟩
    · intro hh
      obtain ⟨hpk, hsk⟩ := hh.2 _ _ hpair
      exact ⟨rfl, rfl, rfl, hpk.symm, hsk.symm, rfl, rfl, rfl, rfl, hh.1 _ ht⟩

theorem initialiseSecureChannel_failed (h : initialiseSecureChannel env s cmd = some (s', none)) :
    Unchanged s s' ↔ Harmless env s cmd .initialiseSecureChannel := by
  obtain ⟨hacc, rfl, -⟩ | ⟨otpk, hacc, ⟨-, rfl, -⟩ | ⟨_, _, -, hr, -⟩⟩ :=
    initialiseSecureChannel_state h
  · refine iff_of_true (.refl _) fun otpk hotpk => ?_
    cases hacc.symm.trans hotpk
  · constructor
    · intro hk otpk' hotpk
      cases hacc.symm.trans hotpk
      exact hk.smdpOtpk.symm
    · intro hh
      exact ⟨rfl, rfl, rfl, rfl, rfl, (hh _ hacc).symm, rfl, rfl, rfl, rfl⟩
  · cases hr

/-- A profile that is installed is new in the heap. -/
theorem push_ne (l : LinkedList ProfileMetadata) (profile : ProfileMetadata) :
    l.push profile ≠ l := by
  intro h
  have := congrArg LinkedList.brk h
  simp [LinkedList.push] at this

/-- **An installation that cannot be signed** has been made. -/
theorem sequenceOf86_failed (h : sequenceOf86 env s cmd = some (s', none)) :
    Unchanged s s' ↔ Harmless env s cmd .sequenceOf86 := by
  obtain ⟨t, hstore, hinstall⟩ := sequenceOf86_frame h
  obtain ⟨data, pkg, hdata, hpkg, rfl⟩ := storeSegment_frame hstore
  have happ := GrowBuf.append_data hpkg
  obtain ⟨hempty, rfl⟩ | ⟨hne, installed, rfl⟩ := installProfile_frame hinstall
  · have hnone : s.boundProfilePackage.data = [] ∧ data = [] :=
      List.append_eq_nil_iff.1 (happ ▸ hempty)
    have hpkg' : pkg = s.boundProfilePackage := by
      rw [hnone.2, GrowBuf.append_nil] at hpkg
      exact (Option.some.inj hpkg).symm
    exact iff_of_true ⟨rfl, rfl, hpkg', rfl, rfl, rfl, rfl, rfl, rfl, rfl⟩
      ⟨hnone.1, hnone.2 ▸ hdata⟩
  · refine iff_of_false (fun hk => push_ne _ _ hk.profiles) ?_
    rintro ⟨hs, hd⟩
    obtain rfl : data = [] := Option.some.inj (hdata.symm.trans hd)
    exact hne (happ.trans (by rw [hs]; rfl))

/-- **A failed command** leaves the profiles, the package and the session as they were exactly if
what it had written before it failed was there already. -/
theorem failed_iff (h : processEs10xCommand env s cmd = some (s', none)) :
    Unchanged s s' ↔ (2 ≤ cmd.len → ∀ inner c, decodeCommand cmd = some (inner, c) →
      Harmless env s inner c) := by
  obtain ⟨hlen, rfl, -⟩ | ⟨hlen, inner, c, hd, ⟨-, -, hr⟩ | ⟨r', hh, -, hr⟩⟩ :=
    processEs10xCommand_cases h
  · exact iff_of_true (.refl _) fun hlen' => absurd hlen (Nat.not_lt.2 hlen')
  · cases hr
  · have hcond : (2 ≤ cmd.len → ∀ inner' c', decodeCommand cmd = some (inner', c') →
        Harmless env s inner' c') ↔ Harmless env s inner c := by
      constructor
      · intro hall
        exact hall hlen inner c hd
      · intro hharm _ inner' c' hd'
        cases hd.symm.trans hd'
        exact hharm
    rw [hcond]
    obtain rfl : r' = none := Option.map_eq_none_iff.1 hr.symm
    cases c with
    | getEuiccChallenge => cases hh
    | getEuiccInfo1 => cases hh
    | getEuiccData => exact iff_of_true (getEuiccData_frame hh ▸ .refl _) trivial
    | getConfiguredAddresses =>
      exact iff_of_true (getConfiguredAddresses_frame hh ▸ .refl _) trivial
    | authenticateServer => exact authenticateServer_failed hh
    | prepareDownload => exact prepareDownload_failed hh
    | getEuiccInfo2 => cases hh
    | cancelSession => exact iff_of_true (cancelSession_frame hh ▸ .refl _) trivial
    | initialiseSecureChannel => exact initialiseSecureChannel_failed hh
    | bppData =>
      simp only [Es10xCommand.handle, bppData, Option.bind_eq_bind, Option.bind_eq_some_iff] at hh
      obtain ⟨_, -, _, -, hh⟩ := hh
      cases hh
    | sequenceOf86 => exact sequenceOf86_failed hh
    | enableProfile =>
      obtain ⟨_, _, _, -, -, -, hr⟩ := manageProfile_frame hh
      cases hr
    | disableProfile =>
      obtain ⟨_, _, _, -, -, -, hr⟩ := manageProfile_frame hh
      cases hr
    | deleteProfile =>
      obtain ⟨_, _, _, -, -, -, hr⟩ := manageProfile_frame hh
      cases hr
    | getProfilesInfo => exact iff_of_true (getProfilesInfo_frame hh ▸ .refl _) trivial
    | unsupported => exact iff_of_true (by cases hh; exact .refl _) trivial

/-- An environment in which nothing can be signed. -/
def sampleUnsigned : Env := { sampleEnv with sign := fun _ _ => none }

/-- The state after a client has connected. -/
def sampleConnected : EuiccState := apduHandleConnect sampleUnsigned

/-- A command that installs a profile of one byte. -/
def sampleA3 : Command := .ofBytes sampleUnsigned [0xA3, 0x01, 0x55]

theorem sampleA3_fails : ∃ s', processEs10xCommand sampleUnsigned sampleConnected sampleA3 =
    some (s', none) ∧ s'.installedProfiles.data = [0x55] := by
  have h : (processEs10xCommand sampleUnsigned sampleConnected sampleA3).map
      (fun r => (r.1.installedProfiles.data, r.2)) = some ([0x55], none) := by
    decide +kernel
  obtain ⟨⟨s', r⟩, hp, hr⟩ := Option.map_eq_some_iff.1 h
  obtain ⟨hi, rfl⟩ := Prod.mk.inj hr
  exact ⟨s', hp, hi⟩

theorem failed_iff_sample : ∃ s',
    processEs10xCommand sampleUnsigned sampleConnected sampleA3 = some (s', none) ∧
    (Unchanged sampleConnected s' ↔ (2 ≤ sampleA3.len → ∀ inner c,
      decodeCommand sampleA3 = some (inner, c) →
      Harmless sampleUnsigned sampleConnected inner c)) := by
  obtain ⟨s', hp, -⟩ := sampleA3_fails
  exact ⟨s', hp, failed_iff hp⟩

/-- **A profile is installed by a command that fails**: its result cannot be signed. -/
theorem failed_keeps_fails : ¬ ∀ (env : Env) (s s' : EuiccState) (cmd : Command),
    processEs10xCommand env s cmd = some (s', none) → Unchanged s s' := by
  intro h
  obtain ⟨s', hp, hi⟩ := sampleA3_fails
  have hkept := congrArg GrowBuf.data (h _ _ _ _ hp).installedProfiles
  obtain ⟨_, _, _, hc⟩ := apduHandleConnect_frame sampleUnsigned
  rw [hi, sampleConnected, hc] at hkept
  cases hkept

end VirtualRsp.Card
