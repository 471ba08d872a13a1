import VirtualRsp.Card.Identifiers

/-!
# Sessions of the card

A profile should only be installed in a session: after the server has been authenticated, the
download prepared and the secure channel opened, in that order. The card does not ask for that. It
stores a package as it comes, without decrypting it, and never reads whether it has session keys.

* `installation_needs_no_session`: a run that installs a profile without any session;
* `installation_session`: what does precede an installation, and what precedes the session keys.
-/

namespace VirtualRsp.Card

open Run

/-! ## Steps of a session -/

/-- The state is initialised or reset. -/
def Reinitialises (t : Step Daemon Event) : Prop :=
  match t.event with
  | .accept => t.pre.globalStateInitialized = false
  | .request _ request => request.func = .connect ∨ request.func = .disconnect

/-- The logical channel to the ISD-R is opened. -/
def OpensChannel (t : Step Daemon Event) : Prop :=
  ∃ env request, t.event = .request env request ∧ request.func = .logicChannelOpen ∧
    request.param = expectedAid

/-- The step processes a command and answers it with data. -/
def Succeeds (c : Es10xCommand) (t : Step Daemon Event) : Prop :=
  ∃ env request state cmd response, t.event = .request env request ∧
    handlerInput env t.pre.globalState request = some (state, cmd, c) ∧
    c.handle env state cmd = some (t.post.globalState, some response)

/-- A download is prepared, and the card keeps a one-time private key. -/
def StoresOneTimeKey (t : Step Daemon Event) : Prop :=
  ∃ env request state cmd, t.event = .request env request ∧
    handlerInput env t.pre.globalState request = some (state, cmd, .prepareDownload) ∧
    t.post.globalState.euiccOtsk.isSome

/-- What the card takes for the transaction identifier of a `BF23` command: the empty one if its
walk finds none. -/
def bf23TransactionId (cmd : Command) : Option Bytes := do
  let (ptr, remaining) ← bf23Content cmd
  scan (transactionIdBody []) ptr remaining

/-- The secure channel is opened for what the card takes for its transaction, and since the card was
last initialised a one-time key has been stored. -/
def AgreesOnKeys (past : List (Step Daemon Event)) (t : Step Daemon Event) : Prop :=
  (∃ env request state cmd response, t.event = .request env request ∧
    handlerInput env t.pre.globalState request = some (state, cmd, .initialiseSecureChannel) ∧
    initialiseSecureChannel env state cmd = some (t.post.globalState, some response) ∧
    bf23TransactionId cmd = some t.pre.globalState.transactionId) ∧
  Since Reinitialises (fun _ u => StoresOneTimeKey u) past

/-- Since the card was last initialised, the server has been authenticated, then the download
prepared, then the secure channel opened, all for the same transaction. -/
def EstablishedSession (transactionId : Bytes) (past : List (Step Daemon Event)) : Prop :=
  Since Reinitialises (fun past v => Succeeds .initialiseSecureChannel v ∧
      v.post.globalState.sessionKeysDerived = true ∧
      v.post.globalState.transactionId = transactionId ∧
    Since Reinitialises (fun past u => Succeeds .prepareDownload u ∧
        u.post.globalState.transactionId = transactionId ∧
      Since Reinitialises (fun _ w => Succeeds .authenticateServer w ∧
        w.post.globalState.transactionId = transactionId) past) past) past

/-! ## What brings each of them about -/

variable {env : Env} {s s' : EuiccState} {request : Request} {response : Response}
  {cmd : Command} {r : Option Bytes}

/-- **Session keys** come from a request for the card's transaction and a one-time key, and then the
request is answered with data. -/
theorem initialiseSecureChannel_derives
    (h : initialiseSecureChannel env s cmd = some (s', r)) :
    (r = none ∧ s'.sessionKeysDerived = s.sessionKeysDerived) ∨
      (r.isSome ∧ bf23TransactionId cmd = some s.transactionId ∧ s.euiccOtsk.isSome) := by
  simp only [initialiseSecureChannel, Option.bind_eq_bind, Option.bind_eq_some_iff] at h
  obtain ⟨⟨ptr, remaining⟩, hcontent, tid, htid, h⟩ := h
  dsimp only at h htid
  split at h
  · cases h; exact .inl ⟨rfl, rfl⟩
  rename_i hne
  obtain ⟨pk, -, h⟩ := Option.bind_eq_some_iff.1 h
  split at h
  · cases h; exact .inl ⟨rfl, rfl⟩
  split at h
  · cases h; exact .inl ⟨rfl, rfl⟩
  split at h
  · cases h; exact .inl ⟨rfl, rfl⟩
  rename_i otsk hotsk
  split at h
  · cases h; exact .inl ⟨rfl, rfl⟩
  obtain ⟨_, -, h⟩ := Option.bind_eq_some_iff.1 h
  cases h
  refine .inr ⟨rfl, ?_, ?_⟩
  · rw [bf23TransactionId, hcontent]
    exact htid.trans (congrArg some (Decidable.not_not.1 hne))
  · exact Option.isSome_iff_exists.2 ⟨_, hotsk⟩

/-- The client connects or disconnects. -/
def Request.IsSession (request : Request) : Prop :=
  request.func = .connect ∨ request.func = .disconnect

/-- **A request** clears the session, or opens the logical channel, or leaves the rest to a
command. -/
theorem handleRequest_session (h : handleRequest env s request = some (s', response)) :
    (request.IsSession ∧ s'.Cleared) ∨
      (¬ request.IsSession ∧
        (0 ≤ s'.logicChannel → 0 ≤ s.logicChannel ∨
          request.func = .logicChannelOpen ∧ request.param = expectedAid) ∧
        ((s'.euiccOtsk = s.euiccOtsk ∧ s'.sessionKeysDerived = s.sessionKeysDerived) ∨
          ∃ b cmd c r, handlerInput env s request = some ({ s with segmentBuffer := b }, cmd, c) ∧
            c.handle env { s with segmentBuffer := b } cmd = some (s', r))) := by
  cases handleRequest_served h with
  | session hf h hn => exact .inl ⟨hf, h⟩
  | openChannel hf haid =>
    exact .inr ⟨by simp [Request.IsSession, hf], fun _ => .inr ⟨hf, haid⟩, .inl ⟨rfl, rfl⟩⟩
  | closeChannel hf =>
    exact .inr ⟨by simp [Request.IsSession, hf], fun h : (0 : ℤ) ≤ -1 => absurd h (by decide),
      .inl ⟨rfl, rfl⟩⟩
  | same hf =>
    refine .inr ⟨?_, fun h => .inl h, .inl ⟨rfl, rfl⟩⟩
    rcases hf with hf | hf | hf <;> simp [Request.IsSession, hf]
  | apdu hf ha hc =>
    have hno : ¬ request.IsSession := by simp [Request.IsSession, hf]
    cases ha <;> exact .inr ⟨hno, fun h => .inl h, .inl ⟨rfl, rfl⟩⟩
  | command hf ha hc hh =>
    have hno : ¬ request.IsSession := by simp [Request.IsSession, hf]
    have hch := (handle_keeps_session hh).1
    cases ha with
    | complete hopen hb => exact .inr ⟨hno, fun _ => .inl hopen, .inr ⟨_, _, _, _, hc, hh⟩⟩

/-! ## Steps of the daemon -/

variable {t : Step Daemon Event}

/-- A client is connected and its channel open. -/
def ChannelOpen (daemon : Daemon) : Prop :=
  daemon.globalStateInitialized = true ∧ 0 ≤ daemon.globalState.logicChannel

/-- **The channel is open** only if it was before or is opened by the step. -/
theorem channel_step (hs : daemonStep t.pre t.event = some t.post) (h : ChannelOpen t.post) :
    OpensChannel t ∨ (ChannelOpen t.pre ∧ ¬ Reinitialises t) := by
  obtain ⟨pre, event, post⟩ := t
  dsimp only at hs h
  obtain ⟨-, -, rfl⟩ | ⟨rfl, hinit, rfl⟩ | ⟨env, request, state, response, rfl, hinit, hh, rfl⟩ :=
    daemonStep_cases hs
  · exact absurd h.2 (by decide)
  · exact .inr ⟨h, by simp [Reinitialises, hinit]⟩
  · have hopen : 0 ≤ state.logicChannel := h.2
    obtain ⟨-, hc⟩ | ⟨hno, hch, -⟩ := handleRequest_session hh
    · rw [hc.logicChannel] at hopen
      exact absurd hopen (by decide)
    · rcases hch hopen with hpre | ⟨hf, haid⟩
      · exact .inr ⟨⟨hinit, hpre⟩, hno⟩
      · exact .inl ⟨env, request, rfl, hf, haid⟩

/-- **A one-time key** was there before or is stored by the step. -/
theorem otsk_step (hs : daemonStep t.pre t.event = some t.post)
    (h : t.post.globalState.euiccOtsk.isSome) :
    StoresOneTimeKey t ∨ (t.pre.globalState.euiccOtsk.isSome ∧ ¬ Reinitialises t) := by
  obtain ⟨pre, event, post⟩ := t
  dsimp only at hs h
  obtain ⟨-, -, rfl⟩ | ⟨rfl, hinit, rfl⟩ | ⟨env, request, state, response, rfl, -, hh, rfl⟩ :=
    daemonStep_cases hs
  · cases h
  · exact .inr ⟨h, by simp [Reinitialises, hinit]⟩
  · obtain ⟨-, hc⟩ | ⟨hno, -, ⟨hsk, -⟩ | ⟨b, cmd, c, r, hin, hc⟩⟩ := handleRequest_session hh
    · rw [hc.euiccOtsk] at h
      cases h
    · exact .inr ⟨hsk ▸ h, hno⟩
    · by_cases hprep : c = .prepareDownload
      · subst hprep
        exact .inl ⟨env, request, _, cmd, rfl, hin, h⟩
      · exact .inr ⟨(handle_keeps_session hc).2.1 hprep ▸ h, hno⟩

/-- **Session keys** were there before or are derived by the step. -/
theorem keys_step (hs : daemonStep t.pre t.event = some t.post)
    (h : t.post.globalState.sessionKeysDerived = true) :
    Succeeds .initialiseSecureChannel t ∨
      (t.pre.globalState.sessionKeysDerived = true ∧ ¬ Reinitialises t) := by
  obtain ⟨pre, event, post⟩ := t
  dsimp only at hs h
  obtain ⟨-, -, rfl⟩ | ⟨rfl, hinit, rfl⟩ | ⟨env, request, state, response, rfl, -, hh, rfl⟩ :=
    daemonStep_cases hs
  · cases h
  · exact .inr ⟨h, by simp [Reinitialises, hinit]⟩
  · obtain ⟨-, hc⟩ | ⟨hno, -, ⟨-, hk⟩ | ⟨b, cmd, c, r, hin, hc⟩⟩ := handleRequest_session hh
    · rw [hc.sessionKeysDerived] at h
      cases h
    · exact .inr ⟨hk ▸ h, hno⟩
    · by_cases hch : c = .initialiseSecureChannel
      · subst hch
        obtain ⟨-, hk⟩ | ⟨hr, -, -⟩ := initialiseSecureChannel_derives hc
        · exact .inr ⟨hk ▸ h, hno⟩
        · obtain ⟨r, rfl⟩ := Option.isSome_iff_exists.1 hr
          exact .inl ⟨env, request, _, cmd, r, rfl, hin, hc⟩
      · exact .inr ⟨(handle_keeps_session hc).2.2 hch ▸ h, hno⟩

/-- **What is installed** goes through an open channel, and every step with something to install
adds a profile. -/
theorem adds_iff_installs (hr : Reachable daemonStep .start t.pre)
    (hs : daemonStep t.pre t.event = some t.post) :
    (∃ profile, Adds t.pre t.post profile) ↔ Installs t := by
  obtain ⟨pre, event, post⟩ := t
  dsimp only at hr hs ⊢
  constructor
  · rintro ⟨profile, ha⟩
    obtain ⟨-, -, rfl⟩ | ⟨-, -, rfl⟩ | ⟨env, request, state, response, rfl, -, hh, rfl⟩ :=
      daemonStep_cases hs
    · obtain ⟨ps, -, hps⟩ := ha
      cases hps
    · obtain ⟨ps, hpre, hps⟩ := ha
      rw [hpre] at hps
      have := congrArg List.length (Option.some.inj hps)
      simp at this
    · obtain ⟨package, hp, hne, -⟩ := handleRequest_adds hr hh ha
      exact ⟨env, request, package, rfl, hp, hne⟩
  · rintro ⟨env, request, package, rfl, hp, hne⟩
    obtain ⟨he, -⟩ | ⟨he, -⟩ | ⟨env', request', state, response, he, -, hh, rfl⟩ :=
      daemonStep_cases hs
    · cases he
    · cases he
    · cases he
      obtain ⟨xs, hl, -⟩ := (daemonInv_of_reachable hr).profiles
      obtain ⟨k, hk⟩ := handleRequest_installs hh hp hne hl
      exact ⟨_, xs.map Prod.snd, LinkedList.toList_eq hl, LinkedList.toList_eq hk⟩

/-- Commands are only processed over an open channel. -/
theorem handlerInput_open {input : EuiccState × Command × Es10xCommand}
    (h : handlerInput env s request = some input) : 0 ≤ s.logicChannel := by
  unfold handlerInput at h
  split at h
  · split at h
    · rename_i hr
      cases receiveApdu_effect hr with
      | complete hopen hb => exact hopen
    · cases h
  · cases h

theorem installs_open (hs : daemonStep t.pre t.event = some t.post) (h : Installs t) :
    ChannelOpen t.pre := by
  obtain ⟨env, request, package, he, hp, -⟩ := h
  obtain ⟨b, cmd, u, hin, -, -⟩ := packageToInstall_eq_some hp
  obtain ⟨he', -⟩ | ⟨he', -⟩ | ⟨_, _, _, _, -, hinit, -⟩ := daemonStep_cases hs
  · cases he.symm.trans he'
  · cases he.symm.trans he'
  · exact ⟨hinit, handlerInput_open hin⟩

/-! ## Runs -/

/-- **Sessions of a run.** Profiles are added by exactly the steps that process an `A3` command with
a package to install, over a channel that has been opened since the card was last initialised. Every
secure channel is opened for the card's transaction and after a one-time key has been stored, and
there are session keys only since a secure channel has been opened. -/
theorem installation_session {events : List Event} {past rest : List (Step Daemon Event)}
    {t : Step Daemon Event} (h : trace daemonStep .start events = past ++ t :: rest) :
    ((∃ profile, Adds t.pre t.post profile) ↔ Installs t) ∧
      (Installs t → Since Reinitialises (fun _ u => OpensChannel u) past) ∧
      (Succeeds .initialiseSecureChannel t → AgreesOnKeys past t) ∧
      (t.pre.globalState.sessionKeysDerived = true → Since Reinitialises AgreesOnKeys past) := by
  have hstep : ∀ {ts u rest}, trace daemonStep .start events = ts ++ u :: rest →
      Reachable daemonStep .start u.pre ∧ daemonStep u.pre u.event = some u.post := by
    intro ts u rest h
    obtain ⟨hr, hs, -⟩ := mem_trace .init (h ▸ by simp : u ∈ trace daemonStep .start events)
    exact ⟨hr, hs⟩
  have hotsk : ∀ {ts u rest}, trace daemonStep .start events = ts ++ u :: rest →
      u.pre.globalState.euiccOtsk.isSome →
        Since Reinitialises (fun _ u => StoresOneTimeKey u) ts := by
    intro ts u rest h hsk
    exact since_of_trace (F := fun d => d.globalState.euiccOtsk.isSome) (by decide)
      (fun ts u rest h => otsk_step (hstep h).2) h hsk
  have hkeys : ∀ {ts u rest}, trace daemonStep .start events = ts ++ u :: rest →
      Succeeds .initialiseSecureChannel u → AgreesOnKeys ts u := by
    rintro ts u rest h ⟨env, request, state, cmd, response, he, hin, hh⟩
    obtain ⟨b, rfl⟩ := handlerInput_frame hin
    obtain ⟨h0, -⟩ | ⟨-, htid, hsk⟩ := initialiseSecureChannel_derives hh
    · cases h0
    · exact ⟨⟨env, request, _, cmd, response, he, hin, hh, htid⟩, hotsk h hsk⟩
  obtain ⟨hr, hs⟩ := hstep h
  refine ⟨adds_iff_installs hr hs, fun hi => ?_, hkeys h, fun hk => ?_⟩
  · exact since_of_trace (F := ChannelOpen) (fun h => absurd h.1 (by decide))
      (fun ts u rest h => channel_step (hstep h).2) h (installs_open hs hi)
  · refine since_of_trace (F := fun d => d.globalState.sessionKeysDerived = true)
      (by decide) ?_ h hk
    intro ts u rest hu hF
    rcases keys_step (hstep hu).2 hF with hP | hpre
    · exact .inl (hkeys hu hP)
    · exact .inr hpre

/-- A client prepares a download, opens the secure channel and installs a profile. -/
def sampleSession : List Event :=
  [.accept, .request sampleEnv ⟨.connect, []⟩,
    .request sampleEnv ⟨.logicChannelOpen, expectedAid⟩,
    .request sampleEnv ⟨.transmit, [0x80, 0xE2, 0x91, 0x00, 0x08, 0xBF, 0x21, 0x05, 0x30, 0x03,
      0x80, 0x01, 0x05]⟩,
    .request sampleEnv ⟨.transmit, [0x80, 0xE2, 0x91, 0x00, 0x4A, 0xBF, 0x23, 0x47, 0x80, 0x01,
      0x05, 0x5F, 0x49, 0x41] ++ sampleSmdpOtpk⟩,
    .request sampleEnv ⟨.transmit, [0x80, 0xE2, 0x91, 0x00, 0x03, 0xA3, 0x01, 0x55]⟩]

/-- The session keys are there before the last step of the run. -/
theorem sampleSession_keys : ((trace daemonStep .start sampleSession).map fun t =>
    (t.pre.globalState.sessionKeysDerived, t.post.globalState.sessionKeysDerived)) =
      [(false, false), (false, false), (false, false), (false, false), (false, true),
        (true, true)] := by
  decide +kernel

theorem installation_session_sample : ∃ past t u,
    trace daemonStep .start sampleSession = past ++ [t, u] ∧
      t.post.globalState.sessionKeysDerived = true ∧
      (((∃ profile, Adds t.pre t.post profile) ↔ Installs t) ∧
        (Installs t → Since Reinitialises (fun _ v => OpensChannel v) past) ∧
        (Succeeds .initialiseSecureChannel t → AgreesOnKeys past t) ∧
        (t.pre.globalState.sessionKeysDerived = true → Since Reinitialises AgreesOnKeys past)) ∧
      ((∃ profile, Adds u.pre u.post profile) ↔ Installs u) ∧
        (Installs u → Since Reinitialises (fun _ v => OpensChannel v) (past ++ [t])) ∧
        (Succeeds .initialiseSecureChannel u → AgreesOnKeys (past ++ [t]) u) ∧
        Since Reinitialises AgreesOnKeys (past ++ [t]) := by
  have hkeys := sampleSession_keys
  change _ = List.replicate 4 (false, false) ++ [(false, true), (true, true)] at hkeys
  obtain ⟨past, us, htrace, -, hlast⟩ := List.map_eq_append_iff.1 hkeys
  obtain ⟨t, us, rfl, ht, hlast⟩ := List.map_eq_cons_iff.1 hlast
  obtain ⟨u, us, rfl, hu, hlast⟩ := List.map_eq_cons_iff.1 hlast
  obtain rfl := List.map_eq_nil_iff.1 hlast
  obtain ⟨-, hpost⟩ := Prod.mk.inj ht
  obtain ⟨hpre, -⟩ := Prod.mk.inj hu
  have htrace' : trace daemonStep .start sampleSession = (past ++ [t]) ++ u :: [] := by
    rw [htrace, List.append_assoc]
    rfl
  obtain ⟨hadds, hopens, hagrees, hsince⟩ := installation_session htrace'
  exact ⟨past, t, u, htrace, hpost, installation_session htrace, hadds, hopens, hagrees,
    hsince hpre⟩

/-! ## A run without a session -/

/-- **A package is installed without a session**: nothing but a connection and an open channel comes
before it. -/
theorem installation_needs_no_session : ¬ ∀ events past t rest profile,
    trace daemonStep .start events = past ++ t :: rest → Adds t.pre t.post profile →
      EstablishedSession t.pre.globalState.transactionId past := by
  intro h
  have hlast : (trace daemonStep .start sampleInstall).getLast?.map (fun t =>
      (t.pre.profiles, t.post.profiles.map List.length)) = some (some [], some 1) := by
    decide +kernel
  have hnone : (trace daemonStep .start sampleInstall).all (fun t =>
      match t.event with
      | .accept => true
      | .request env request =>
        processedCommand env t.pre.globalState request ≠ some .initialiseSecureChannel) = true := by
    decide +kernel
  rcases List.eq_nil_or_concat (trace daemonStep .start sampleInstall) with h0 | ⟨past, t, ht⟩
  · rw [h0] at hlast
    cases hlast
  · rw [List.concat_eq_append] at ht
    rw [ht] at hlast hnone
    simp only [List.getLast?_append, List.getLast?_singleton, Option.some_or, Option.map_some,
      Option.some.injEq, Prod.mk.injEq, Option.map_eq_some_iff] at hlast
    obtain ⟨hpre, ps, hpost, hps⟩ := hlast
    obtain ⟨profile, rfl⟩ := List.length_eq_one_iff.1 hps
    obtain ⟨past', v, later, rfl, ⟨⟨env, request, state, cmd, response, he, hin, -⟩, -⟩, -⟩ :=
      h _ past t [] profile ht ⟨[], hpre, hpost⟩
    have hv := List.all_eq_true.1 hnone v (by simp)
    rw [he] at hv
    simp [processedCommand, hin] at hv

end VirtualRsp.Card
