import VirtualRsp.Card.Dispatch

/-!
# What each command changes

One lemma for each command of the card says which fields of the state it can change
(`authenticateServer_frame`, `prepareDownload_frame`, ...). Together they give the cases of a
processed command (`processEs10xCommand_cases`) and of a served request: the list of profiles is
only touched by the installation and the three management commands, and by the client connecting or
disconnecting.
-/

namespace VirtualRsp.Card

variable {env : Env} {s s' : EuiccState} {cmd : Command} {r : Option Bytes}

/-! ## The handlers -/

theorem getEuiccChallenge_frame (h : getEuiccChallenge env s = some (s', r)) :
    ∃ c, s' = { s with euiccChallenge := c } := by
  cases h
  exact ⟨_, rfl⟩

theorem getEuiccInfo1_frame (h : getEuiccInfo1 s = some (s', r)) : s' = s := by
  cases h
  rfl

theorem getEuiccData_frame (h : getEuiccData s = some (s', r)) : s' = s := by
  rw [getEuiccData] at h
  split at h
  · cases h
    rfl
  · split at h <;> cases h <;> rfl

theorem getConfiguredAddresses_frame (h : getConfiguredAddresses s = some (s', r)) : s' = s := by
  simp only [getConfiguredAddresses, Option.bind_eq_bind, Option.bind_eq_some_iff] at h
  obtain ⟨_, -, _, -, h⟩ := h
  cases h
  rfl

theorem getEuiccInfo2_frame (h : getEuiccInfo2 env s = some (s', r)) : s' = s := by
  cases h
  rfl

theorem cancelSession_frame (h : cancelSession env s = some (s', r)) : s' = s := by
  simp only [cancelSession, Option.bind_eq_bind, Option.bind_eq_some_iff] at h
  obtain ⟨_, -, sig, -, h⟩ := h
  cases sig with
  | none => cases h; rfl
  | some sig =>
    obtain ⟨_, -, h⟩ := Option.bind_eq_some_iff.1 h
    cases h
    rfl

theorem getProfilesInfo_frame (h : getProfilesInfo s = some (s', r)) : s' = s := by
  simp only [getProfilesInfo, Option.bind_eq_bind, Option.bind_eq_some_iff] at h
  obtain ⟨_, -, _, -, _, -, h⟩ := h
  cases h
  rfl

/-- **Authentication** sets the transaction, the challenge and the matching identifier. -/
theorem authenticateServer_frame (h : authenticateServer env s cmd = some (s', r)) :
    ∃ t c m, s' = { s with transactionId := t, serverChallenge := c, matchingId := m } := by
  simp only [authenticateServer, Option.bind_eq_bind, Option.bind_eq_some_iff] at h
  obtain ⟨_, -, _, -, _, -, sig, -, h⟩ := h
  cases sig with
  | none => cases h; exact ⟨_, _, _, rfl⟩
  | some sig =>
    obtain ⟨_, -, h⟩ := Option.bind_eq_some_iff.1 h
    cases h
    exact ⟨_, _, _, rfl⟩

/-- **Preparing a download** sets the transaction and the one-time key pair. -/
theorem prepareDownload_frame (h : prepareDownload env s cmd = some (s', r)) :
    ∃ t pk sk, s' = { s with transactionId := t, euiccOtpk := pk, euiccOtsk := sk } := by
  simp only [prepareDownload, Option.bind_eq_bind, Option.bind_eq_some_iff] at h
  obtain ⟨_, -, _, -, h⟩ := h
  split at h
  · cases h; exact ⟨_, _, _, rfl⟩
  split at h
  · cases h; exact ⟨_, _, _, rfl⟩
  split at h
  · cases h; exact ⟨_, _, _, rfl⟩
  obtain ⟨_, -, h⟩ := Option.bind_eq_some_iff.1 h
  obtain ⟨sig, -, h⟩ := Option.bind_eq_some_iff.1 h
  cases sig with
  | none => cases h; exact ⟨_, _, _, rfl⟩
  | some sig =>
    obtain ⟨_, -, h⟩ := Option.bind_eq_some_iff.1 h
    cases h
    exact ⟨_, _, _, rfl⟩

/-- **Opening the secure channel** sets the server's one-time key and the session keys. -/
theorem initialiseSecureChannel_frame (h : initialiseSecureChannel env s cmd = some (s', r)) :
    ∃ pk enc mac d n, s' = { s with
      smdpOtpk := pk
      sessionKeyEnc := enc
      sessionKeyMac := mac
      sessionKeysDerived := d
      bppCommandsReceived := n } := by
  simp only [initialiseSecureChannel, Option.bind_eq_bind, Option.bind_eq_some_iff] at h
  obtain ⟨_, -, _, -, h⟩ := h
  split at h
  · cases h; exact ⟨_, _, _, _, _, rfl⟩
  obtain ⟨pk, -, h⟩ := Option.bind_eq_some_iff.1 h
  split at h
  · cases h; exact ⟨_, _, _, _, _, rfl⟩
  split at h
  · cases h; exact ⟨_, _, _, _, _, rfl⟩
  split at h
  · cases h; exact ⟨_, _, _, _, _, rfl⟩
  split at h
  · cases h; exact ⟨_, _, _, _, _, rfl⟩
  obtain ⟨_, -, h⟩ := Option.bind_eq_some_iff.1 h
  cases h
  exact ⟨_, _, _, _, _, rfl⟩

/-- **Storing a segment** appends its data to the package. -/
theorem storeSegment_frame (h : storeSegment s cmd = some s') :
    ∃ data pkg, segmentData cmd = some data ∧
      s.boundProfilePackage.append (· * 2) data = some pkg ∧
      s' = { s with
        bppCommandsReceived := s.bppCommandsReceived + 1
        boundProfilePackage := pkg } := by
  simp only [storeSegment, Option.bind_eq_bind, Option.bind_eq_some_iff] at h
  obtain ⟨data, hd, pkg, hp, h⟩ := h
  cases h
  exact ⟨data, pkg, hd, hp, rfl⟩

theorem bppData_frame (h : bppData s cmd = some (s', r)) : storeSegment s cmd = some s' := by
  simp only [bppData, Option.bind_eq_bind, Option.bind_eq_some_iff] at h
  obtain ⟨_, hs, _, -, h⟩ := h
  cases h
  exact hs

/-- **Installing** adds a profile at the front, or nothing when nothing was collected. -/
theorem installProfile_frame (h : installProfile s = some s') :
    (s.boundProfilePackage.data = [] ∧ s' = s) ∨
      (s.boundProfilePackage.data ≠ [] ∧ ∃ installed, s' = { s with
        installedProfiles := installed
        profiles := s.profiles.push (newProfile s.matchingId s.boundProfilePackage.data)
        boundProfilePackage := .null }) := by
  rw [installProfile] at h
  split at h
  · cases h
    exact .inl ⟨‹_›, rfl⟩
  · obtain ⟨_, -, h⟩ := Option.bind_eq_some_iff.1 h
    cases h
    exact .inr ⟨‹_›, _, rfl⟩

theorem sequenceOf86_frame (h : sequenceOf86 env s cmd = some (s', r)) :
    ∃ t, storeSegment s cmd = some t ∧ installProfile t = some s' := by
  simp only [sequenceOf86, Option.bind_eq_bind, Option.bind_eq_some_iff] at h
  obtain ⟨t, hs, _, hi, _, -, h⟩ := h
  cases h
  exact ⟨t, hs, hi⟩

/-- **Management** changes the list as its step says, and answers with the step's result code. -/
theorem manageProfile_frame {tag : ℕ}
    {step : LinkedList ProfileMetadata → Target → Option (LinkedList ProfileMetadata × UInt8)}
    (h : manageProfile tag step s cmd = some (s', r)) :
    ∃ target l code, parseTarget cmd = some target ∧ step s.profiles target = some (l, code) ∧
      s' = { s with profiles := l } ∧ r = some (resultResponse tag code) := by
  simp only [manageProfile, Option.bind_eq_bind, Option.bind_eq_some_iff] at h
  obtain ⟨target, ht, ⟨l, code⟩, hs, h⟩ := h
  cases h
  exact ⟨target, l, code, ht, hs, rfl, rfl⟩

/-! ## Commands and requests -/

/-- A processed command is too short, unsupported, or handled by its handler. -/
theorem processEs10xCommand_cases (h : processEs10xCommand env s cmd = some (s', r)) :
    (cmd.len < 2 ∧ s' = s ∧ r = none) ∨
      (2 ≤ cmd.len ∧ ∃ inner c, decodeCommand cmd = some (inner, c) ∧
        ((c = .unsupported ∧ s' = s ∧ r = some [0x6D, 0x00]) ∨
          ∃ r', c.handle env s inner = some (s', r') ∧ c ≠ .unsupported ∧
            r = r'.map (· ++ [0x90, 0x00]))) := by
  rw [processEs10xCommand] at h
  split at h
  · cases h
    exact .inl ⟨‹_›, rfl, rfl⟩
  · rename_i hlen
    obtain ⟨⟨inner, c⟩, hd, h⟩ := Option.bind_eq_some_iff.1 h
    refine .inr ⟨by omega, inner, c, hd, ?_⟩
    dsimp only at h
    split at h
    · obtain ⟨_, -, h⟩ := Option.bind_eq_some_iff.1 h
      cases h
      exact .inl ⟨‹_›, rfl, rfl⟩
    · obtain ⟨⟨t, r'⟩, hh, h⟩ := Option.bind_eq_some_iff.1 h
      cases h
      exact .inr ⟨r', hh, ‹_›, rfl⟩

/-- The tag of a command is the tag of a data object. -/
theorem commandTag_eq (cmd : Command) : commandTag cmd = (Der.readTag cmd.mem).map Prod.fst := by
  rw [commandTag]
  match cmd.mem with
  | [] => rfl
  | b :: r =>
    simp only [readAt_cons_zero, readAt_cons_succ, Option.bind_eq_bind, Option.bind_some,
      Der.readTag]
    split
    · cases r <;> rfl
    · rfl

/-- A command with the tag of a data object, other than a wrapper, is what it seems. -/
theorem decodeCommand_tag {tag : ℕ} (ht : Der.IsTag tag) (hw : tag ≠ 0xBF36) (rest : Bytes) :
    decodeCommand (.ofBytes env (Der.tagBytes tag ++ rest)) =
      some (.ofBytes env (Der.tagBytes tag ++ rest), .ofTag tag) := by
  rw [decodeCommand, commandTag_eq, Command.ofBytes, List.append_assoc, Der.readTag_tagBytes ht]
  simp [hw]

/-- If it is processed, it is handed to the handler of its tag. -/
theorem processEs10xCommand_tag {tag : ℕ} (ht : Der.IsTag tag) (hw : tag ≠ 0xBF36)
    {rest body : Bytes}
    (h : processEs10xCommand env s (.ofBytes env (Der.tagBytes tag ++ rest)) =
      some (s', some (body ++ [0x90, 0x00]))) :
    (Es10xCommand.ofTag tag).handle env s (.ofBytes env (Der.tagBytes tag ++ rest)) =
      some (s', some body) := by
  obtain ⟨-, -, hr⟩ | ⟨-, inner, c, hd, ⟨-, -, hr⟩ | ⟨body', hh, -, hr⟩⟩ :=
    processEs10xCommand_cases h
  · cases hr
  · exact absurd (@List.append_inj' _ _ _ [] _ (Option.some.inj hr) rfl).2 (by decide)
  · rw [decodeCommand_tag ht hw] at hd
    cases hd
    obtain ⟨b, rfl, hb⟩ := Option.map_eq_some_iff.1 hr.symm
    rw [hh, List.append_cancel_right hb]

/-- What the handler does is the outcome. -/
theorem processEs10xCommand_of_handle {tag : ℕ} (ht : Der.IsTag tag) (hw : tag ≠ 0xBF36)
    {rest : Bytes} (hlen : 2 ≤ (Der.tagBytes tag ++ rest).length)
    (hu : Es10xCommand.ofTag tag ≠ .unsupported)
    (hh : (Es10xCommand.ofTag tag).handle env s (.ofBytes env (Der.tagBytes tag ++ rest)) =
      some (s', r)) :
    processEs10xCommand env s (.ofBytes env (Der.tagBytes tag ++ rest)) =
      some (s', r.map (· ++ [0x90, 0x00])) := by
  have hlen' : ¬ (Command.ofBytes env (Der.tagBytes tag ++ rest)).len < 2 := Nat.not_lt.2 hlen
  rw [processEs10xCommand, if_neg hlen', decodeCommand_tag ht hw]
  simp [hu, hh]

/-- What receiving an APDU does to the state. -/
inductive ReceiveEffect (env : Env) (s : EuiccState) (param : Bytes) : EuiccState → Apdu → Prop
  | refuse (response : Option Bytes) : ReceiveEffect env s param s (.reply response)
  | buffer {b : GrowBuf} (h : s.segmentBuffer.append (· + 512) (param.drop 5) = some b) :
      ReceiveEffect env s param { s with segmentBuffer := b } (.reply (some [0x90, 0x00]))
  | complete (hopen : 0 ≤ s.logicChannel) {b : GrowBuf} (hb : b.data = []) :
      ReceiveEffect env s param { s with segmentBuffer := b }
        (.complete (.ofBytes env (s.segmentBuffer.data ++ param.drop 5)))

/-- **Receiving an APDU** refuses it, buffers its data, or puts it together with the buffered
data. -/
theorem receiveApdu_effect {param : Bytes} {apdu : Apdu}
    (h : receiveApdu env s param = some (s', apdu)) : ReceiveEffect env s param s' apdu := by
  rw [receiveApdu] at h
  split at h
  · cases h; exact .refuse _
  rename_i hopen
  split at h
  · cases h; exact .refuse _
  simp only [Option.bind_eq_bind, Option.bind_eq_some_iff] at h
  obtain ⟨ins, -, p1, -, lc, -, _, -, h⟩ := h
  split at h
  · cases h; exact .refuse _
  split at h
  · obtain ⟨b, hb, h⟩ := Option.bind_eq_some_iff.1 h
    cases h
    exact .buffer hb
  split at h
  · rename_i hempty
    cases h
    have := @ReceiveEffect.complete env s param (Int.not_lt.1 hopen) _ hempty
    rwa [hempty] at this
  split at h
  · cases h
    exact .complete (Int.not_lt.1 hopen) rfl
  · cases h

/-- Receiving an APDU only touches the segment buffer. -/
theorem receiveApdu_frame {param : Bytes} {apdu : Apdu}
    (h : receiveApdu env s param = some (s', apdu)) : ∃ b, s' = { s with segmentBuffer := b } := by
  cases receiveApdu_effect h <;> exact ⟨_, rfl⟩

/-- The three management commands, with the tags of their responses and their steps. -/
inductive Management : Es10xCommand → ℕ →
    (LinkedList ProfileMetadata → Target → Option (LinkedList ProfileMetadata × UInt8)) → Prop
  | enable : Management .enableProfile 0xBF31 enableStep
  | disable : Management .disableProfile 0xBF32 disableStep
  | delete : Management .deleteProfile 0xBF33 deleteStep

/-- Whether a command adds to the collected package. -/
def Es10xCommand.collects : Es10xCommand → Bool
  | .bppData | .sequenceOf86 => true
  | _ => false

/-- What a handled command does to the state. -/
inductive HandleEffect (s : EuiccState) (cmd : Command) :
    EuiccState → Option Bytes → Es10xCommand → Prop
  | same {r : Option Bytes} {c : Es10xCommand} (hc : c.collects = false) : HandleEffect s cmd s r c
  | challenge (challenge : Bytes) {r : Option Bytes} :
      HandleEffect s cmd { s with euiccChallenge := challenge } r .getEuiccChallenge
  | authenticate (transactionId serverChallenge matchingId : Bytes) {r : Option Bytes} :
      HandleEffect s cmd { s with
        transactionId := transactionId
        serverChallenge := serverChallenge
        matchingId := matchingId } r .authenticateServer
  | prepare (transactionId : Bytes) (otpk : Option (Vector UInt8 65))
      (otsk : Option (Vector UInt8 32)) {r : Option Bytes} :
      HandleEffect s cmd { s with
        transactionId := transactionId
        euiccOtpk := otpk
        euiccOtsk := otsk } r .prepareDownload
  | channel (smdpOtpk : Option Bytes) (enc mac : Bytes) (derived : Bool) (count : ℕ)
      {r : Option Bytes} :
      HandleEffect s cmd { s with
        smdpOtpk := smdpOtpk
        sessionKeyEnc := enc
        sessionKeyMac := mac
        sessionKeysDerived := derived
        bppCommandsReceived := count } r .initialiseSecureChannel
  | store {s' : EuiccState} {r : Option Bytes} (h : storeSegment s cmd = some s') :
      HandleEffect s cmd s' r .bppData
  | install {t s' : EuiccState} {r : Option Bytes} (hs : storeSegment s cmd = some t)
      (hi : installProfile t = some s') : HandleEffect s cmd s' r .sequenceOf86
  | manage {c : Es10xCommand} {tag : ℕ}
      {step : LinkedList ProfileMetadata → Target → Option (LinkedList ProfileMetadata × UInt8)}
      (hm : Management c tag step) {target : Target} {l : LinkedList ProfileMetadata} {code : UInt8}
      (hs : step s.profiles target = some (l, code)) :
      HandleEffect s cmd { s with profiles := l } (some (resultResponse tag code)) c

/-- **Every command** does one of these. -/
theorem handle_effect {c : Es10xCommand} (h : c.handle env s cmd = some (s', r)) :
    HandleEffect s cmd s' r c := by
  have manage : ∀ {tag step}, Management c tag step → manageProfile tag step s cmd = some (s', r) →
      HandleEffect s cmd s' r c := by
    intro tag step hm h
    obtain ⟨target, l, code, -, hs, rfl, rfl⟩ := manageProfile_frame h
    exact .manage hm hs
  cases c with
  | getEuiccChallenge => obtain ⟨_, rfl⟩ := getEuiccChallenge_frame h; exact .challenge _
  | getEuiccInfo1 => exact getEuiccInfo1_frame h ▸ .same rfl
  | getEuiccData => exact getEuiccData_frame h ▸ .same rfl
  | getConfiguredAddresses => exact getConfiguredAddresses_frame h ▸ .same rfl
  | authenticateServer =>
    obtain ⟨_, _, _, rfl⟩ := authenticateServer_frame h
    exact .authenticate _ _ _
  | prepareDownload => obtain ⟨_, _, _, rfl⟩ := prepareDownload_frame h; exact .prepare _ _ _
  | getEuiccInfo2 => exact getEuiccInfo2_frame h ▸ .same rfl
  | cancelSession => exact cancelSession_frame h ▸ .same rfl
  | initialiseSecureChannel =>
    obtain ⟨_, _, _, _, _, rfl⟩ := initialiseSecureChannel_frame h
    exact .channel _ _ _ _ _
  | bppData => exact .store (bppData_frame h)
  | sequenceOf86 =>
    obtain ⟨t, hs, hi⟩ := sequenceOf86_frame h
    exact .install hs hi
  | enableProfile => exact manage .enable h
  | disableProfile => exact manage .disable h
  | deleteProfile => exact manage .delete h
  | getProfilesInfo => exact getProfilesInfo_frame h ▸ .same rfl
  | unsupported => cases h; exact .same rfl

/-- **No command changes** the sequence number of the notifications or the buffered segments. -/
theorem handle_keeps {c : Es10xCommand} (h : c.handle env s cmd = some (s', r)) :
    s'.notificationSeqNumber = s.notificationSeqNumber ∧ s'.segmentBuffer = s.segmentBuffer := by
  cases handle_effect h with
  | store hs => obtain ⟨_, _, -, -, rfl⟩ := storeSegment_frame hs; exact ⟨rfl, rfl⟩
  | install hs hi =>
    obtain ⟨_, _, -, -, rfl⟩ := storeSegment_frame hs
    obtain ⟨-, rfl⟩ | ⟨-, _, rfl⟩ := installProfile_frame hi <;> exact ⟨rfl, rfl⟩
  | _ => exact ⟨rfl, rfl⟩

/-- **Only two commands** touch the one-time key and the flag of the session keys, and none the
logical channel. -/
theorem handle_keeps_session {c : Es10xCommand} (h : c.handle env s cmd = some (s', r)) :
    s'.logicChannel = s.logicChannel ∧
      (c ≠ .prepareDownload → s'.euiccOtsk = s.euiccOtsk) ∧
      (c ≠ .initialiseSecureChannel → s'.sessionKeysDerived = s.sessionKeysDerived) := by
  cases handle_effect h with
  | prepare => exact ⟨rfl, fun h => absurd rfl h, fun _ => rfl⟩
  | channel => exact ⟨rfl, fun _ => rfl, fun h => absurd rfl h⟩
  | store hs =>
    obtain ⟨_, _, -, -, rfl⟩ := storeSegment_frame hs
    exact ⟨rfl, fun _ => rfl, fun _ => rfl⟩
  | install hs hi =>
    obtain ⟨_, _, -, -, rfl⟩ := storeSegment_frame hs
    obtain ⟨-, rfl⟩ | ⟨-, _, rfl⟩ := installProfile_frame hi <;>
      exact ⟨rfl, fun _ => rfl, fun _ => rfl⟩
  | _ => exact ⟨rfl, fun _ => rfl, fun _ => rfl⟩

/-- What a handled command does to the profiles. -/
inductive ProfilesEffect (s s' : EuiccState) (r : Option Bytes) : Es10xCommand → Prop
  | same {c : Es10xCommand} (h : s'.profiles = s.profiles) : ProfilesEffect s s' r c
  | install (matchingId : Bytes) {package : Bytes} (hp : package ≠ [])
      (h : s'.profiles = s.profiles.push (newProfile matchingId package)) :
      ProfilesEffect s s' r .sequenceOf86
  | manage {c : Es10xCommand} {tag : ℕ}
      {step : LinkedList ProfileMetadata → Target → Option (LinkedList ProfileMetadata × UInt8)}
      (hm : Management c tag step) {target : Target} {code : UInt8}
      (hs : step s.profiles target = some (s'.profiles, code))
      (hr : r = some (resultResponse tag code)) : ProfilesEffect s s' r c

/-- **The profiles under a command**: they stay as they are, unless the command installs a profile
or manages one. -/
theorem handle_profilesEffect {c : Es10xCommand} (h : c.handle env s cmd = some (s', r)) :
    ProfilesEffect s s' r c := by
  cases handle_effect h with
  | store hs =>
    obtain ⟨_, _, -, -, rfl⟩ := storeSegment_frame hs
    exact .same rfl
  | install hs hi =>
    obtain ⟨_, _, -, -, rfl⟩ := storeSegment_frame hs
    obtain ⟨-, rfl⟩ | ⟨hp, _, rfl⟩ := installProfile_frame hi
    · exact .same rfl
    · exact .install _ hp rfl
  | manage hm hs => exact .manage hm hs rfl
  | _ => exact .same rfl

/-- **A request that processes a command** runs its handler, with the segment buffer emptied if it
held the first part of the command, and is answered with what the handler returns. -/
theorem handleRequest_processed {request : Request} {response : Response} {t : EuiccState}
    {c : Es10xCommand} (h : handleRequest env s request = some (s', response))
    (hc : handlerInput env s request = some (t, cmd, c)) (hu : c ≠ .unsupported) :
    ∃ r, c.handle env t cmd = some (s', r) ∧
      response = .ofTransmit (r.map (· ++ [0x90, 0x00])) := by
  rw [handlerInput] at hc
  split at hc
  · rename_i hf
    simp only [handleRequest, hf, Option.map_eq_some_iff] at h
    obtain ⟨⟨t', r⟩, ht, h⟩ := h
    cases h
    obtain ⟨⟨t', apdu⟩, hr, ht⟩ := Option.bind_eq_some_iff.1 ht
    rw [hr] at hc
    cases apdu with
    | reply response => cases hc
    | complete cmd' =>
      dsimp only at hc
      split at hc
      · cases hc
      · rename_i hlen
        obtain ⟨⟨inner, c'⟩, hd, hc⟩ := Option.map_eq_some_iff.1 hc
        cases hc
        obtain ⟨hlt, -, -⟩ | ⟨-, inner', c', hd', hh⟩ := processEs10xCommand_cases ht
        · exact absurd hlt hlen
        · rw [hd] at hd'
          cases hd'
          obtain ⟨hu', -, -⟩ | ⟨r', hh, -, rfl⟩ := hh
          · exact absurd hu' hu
          · exact ⟨r', hh, rfl⟩
  · cases hc

/-- The state a handler starts from is the one before the request, up to the segment buffer. -/
theorem handlerInput_frame {request : Request} {t : EuiccState} {c : Es10xCommand}
    (hc : handlerInput env s request = some (t, cmd, c)) :
    ∃ b, t = { s with segmentBuffer := b } := by
  rw [handlerInput] at hc
  split at hc
  · split at hc
    · rename_i hr
      split at hc
      · cases hc
      · obtain ⟨_, -, hc⟩ := Option.map_eq_some_iff.1 hc
        cases hc
        exact receiveApdu_frame hr
    · cases hc
  · cases hc

/-- What a client that connects or disconnects leaves of the state. -/
structure EuiccState.Cleared (s : EuiccState) : Prop where
  logicChannel : s.logicChannel = -1
  segmentBuffer : s.segmentBuffer = .null
  euiccOtsk : s.euiccOtsk = none
  sessionKeysDerived : s.sessionKeysDerived = false
  boundProfilePackage : s.boundProfilePackage = .null
  profiles : s.profiles = .empty

/-- What serving a request does. -/
inductive Served (env : Env) (s : EuiccState) (request : Request) : EuiccState → Response → Prop
  | session {s' : EuiccState} {response : Response}
      (hf : request.func = .connect ∨ request.func = .disconnect) (h : s'.Cleared)
      (hn : s'.notificationSeqNumber = s.notificationSeqNumber ∨ s'.notificationSeqNumber = 1) :
      Served env s request s' response
  | openChannel {response : Response} (hf : request.func = .logicChannelOpen)
      (haid : request.param = expectedAid) :
      Served env s request { s with logicChannel := 1, aid := request.param } response
  | closeChannel {response : Response} (hf : request.func = .logicChannelClose) :
      Served env s request { s with logicChannel := -1, aid := [] } response
  | same {response : Response} (hf : request.func = .logicChannelOpen ∨
      request.func = .logicChannelClose ∨ request.func = .unknown) : Served env s request s response
  | apdu {s' : EuiccState} {apdu : Apdu} {response : Response} (hf : request.func = .transmit)
      (ha : ReceiveEffect env s request.param s' apdu)
      (hc : ∀ input, handlerInput env s request = some input → input.2.2 = .unsupported) :
      Served env s request s' response
  | command {s' t : EuiccState} {full cmd : Command} {c : Es10xCommand} {r : Option Bytes}
      (hf : request.func = .transmit)
      (ha : ReceiveEffect env s request.param t (.complete full))
      (hc : handlerInput env s request = some (t, cmd, c))
      (hh : c.handle env t cmd = some (s', r)) :
      Served env s request s' (.ofTransmit (r.map (· ++ [0x90, 0x00])))

theorem cleared_connect (env : Env) : (apduHandleConnect env).Cleared := by
  obtain ⟨_, _, _, hc⟩ := apduHandleConnect_frame env
  rw [hc]
  exact ⟨rfl, rfl, rfl, rfl, rfl, rfl⟩

/-- **Every request** does one of these. -/
theorem handleRequest_served {request : Request} {response : Response}
    (h : handleRequest env s request = some (s', response)) :
    Served env s request s' response := by
  rw [handleRequest] at h
  cases hf : request.func with
  | connect =>
    rw [hf] at h
    obtain ⟨_, _, _, hc⟩ := apduHandleConnect_frame env
    cases h
    exact .session (.inl hf) (cleared_connect env)
      (.inr (congrArg EuiccState.notificationSeqNumber hc))
  | disconnect =>
    rw [hf] at h
    simp only [apduHandleDisconnect, euiccStateReset, Option.map_map, Option.map_eq_some_iff] at h
    obtain ⟨_, -, h⟩ := h
    cases h
    exact .session (.inr hf) ⟨rfl, rfl, rfl, rfl, rfl, rfl⟩ (.inl rfl)
  | logicChannelOpen =>
    rw [hf] at h
    simp only [apduHandleLogicChannelOpen] at h
    split at h
    · cases h; exact .openChannel hf ‹_›
    · cases h; exact .same (.inl hf)
  | logicChannelClose =>
    rw [hf] at h
    dsimp only at h
    split at h
    · cases h; exact .same (.inr (.inl hf))
    · simp only [apduHandleLogicChannelClose] at h
      split at h
      · cases h; exact .closeChannel hf
      · cases h; exact .same (.inr (.inl hf))
  | transmit =>
    rw [hf] at h
    obtain ⟨⟨t, r⟩, ht, h⟩ := Option.map_eq_some_iff.1 h
    cases h
    obtain ⟨⟨t, apdu⟩, hr, ht⟩ := Option.bind_eq_some_iff.1 ht
    have ha := receiveApdu_effect hr
    cases apdu with
    | reply response =>
      cases ht
      refine .apdu hf ha fun input hin => ?_
      simp [handlerInput, hf, hr] at hin
    | complete cmd =>
      obtain ⟨hlen, rfl, -⟩ | ⟨hlen, inner, c, hd, hc⟩ := processEs10xCommand_cases ht
      · refine .apdu hf ha fun input hin => ?_
        simp [handlerInput, hf, hr, hlen] at hin
      · have hin : handlerInput env s request = some (t, inner, c) := by
          rw [handlerInput, if_pos hf, hr]
          simp only [if_neg (Nat.not_lt.2 hlen), hd, Option.map_some]
        obtain ⟨hu, rfl, -⟩ | ⟨r', hh, -, rfl⟩ := hc
        · refine .apdu hf ha fun input hin' => ?_
          cases hin.symm.trans hin'
          exact hu
        · exact .command hf ha hin hh
  | unknown =>
    rw [hf] at h
    cases h
    exact .same (.inr (.inr hf))

/-- What a served request does to the profiles and to the sequence number. -/
inductive RequestEffect (env : Env) (s s' : EuiccState) (request : Request) (response : Response) :
    Prop
  | same (h : s'.profiles = s.profiles)
      (hn : s'.notificationSeqNumber = s.notificationSeqNumber)
  | session (hf : request.func = .connect ∨ request.func = .disconnect)
      (h : s'.profiles = .empty)
      (hn : s'.notificationSeqNumber = s.notificationSeqNumber ∨ s'.notificationSeqNumber = 1)
  | command {c : Es10xCommand} {b : GrowBuf} {cmd : Command} {r : Option Bytes}
      (hc : handlerInput env s request = some ({ s with segmentBuffer := b }, cmd, c))
      (hh : c.handle env { s with segmentBuffer := b } cmd = some (s', r))
      (hr : response = .ofTransmit (r.map (· ++ [0x90, 0x00])))

/-- **The profiles under a request**: apart from a processed command, only a client that connects or
disconnects touches them. -/
theorem handleRequest_effect {request : Request} {response : Response}
    (h : handleRequest env s request = some (s', response)) :
    RequestEffect env s s' request response := by
  cases handleRequest_served h with
  | session hf h hn => exact .session hf h.profiles hn
  | openChannel hf haid => exact .same rfl rfl
  | closeChannel hf => exact .same rfl rfl
  | same hf => exact .same rfl rfl
  | apdu hf ha => cases ha <;> exact .same rfl rfl
  | command hf ha hc hh =>
    cases ha with
    | complete hopen hb => exact .command hc hh rfl

end VirtualRsp.Card
