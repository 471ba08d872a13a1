import VirtualRsp.Card.Identifiers

/-!
# Isolation of downloads

A download that is abandoned should leave nothing behind: what is installed next should contain only
payload that has come since its secure channel was opened, and a command only data of its own
transmission. The card collects payload and segments in two buffers. Opening a secure channel does
not empty the first of them, the first segment of a transmission does not empty the second, and
neither does a cancelled session or a command that fails.

* `isolation`: runs in which both buffers are empty whenever something new starts are isolated;
* `isolation_fails`: a cancelled download becomes the beginning of the next profile, and a segment
  left behind the beginning of the next command.
-/

namespace VirtualRsp.Card

open Run

/-! ## What has been received -/

/-- An event, and whether the client means its APDU to be the first one of a transmission. -/
structure ClientEvent where
  event : Event
  first : Bool

/-- The daemon does not see what the client means. -/
def clientStep (daemon : Daemon) (e : ClientEvent) : Option Daemon := daemonStep daemon e.event

/-- Whether a request is a successful `InitialiseSecureChannel`. -/
def opensSecureChannel (env : Env) (state : EuiccState) (request : Request) : Bool :=
  match handlerInput env state request with
  | some (state, cmd, .initialiseSecureChannel) =>
    (initialiseSecureChannel env state cmd).any fun r => r.2.isSome
  | _ => false

/-- The payload of a request. -/
def payloadReceived (env : Env) (state : EuiccState) (request : Request) : Bytes :=
  match handlerInput env state request with
  | some (_, cmd, c) => if c.collects then (segmentData cmd).getD [] else []
  | none => []

/-- The payload received since the last secure channel was opened, after one more step. -/
def payloadAfter (payload : Bytes) (t : Step Daemon ClientEvent) : Bytes :=
  match t.event.event with
  | .accept => payload
  | .request env request =>
    if opensSecureChannel env t.pre.globalState request then []
    else payload ++ payloadReceived env t.pre.globalState request

/-- The payload received since the last secure channel was opened. -/
def payloadSince (ts : List (Step Daemon ClientEvent)) : Bytes := ts.foldl payloadAfter []

/-- The data received since the last APDU that begins a transmission, after one more step. -/
def transmissionAfter (sent : Bytes) (t : Step Daemon ClientEvent) : Bytes :=
  match t.event.event with
  | .accept => sent
  | .request _ request =>
    if request.func = .transmit then
      (if t.event.first then [] else sent) ++ request.param.drop 5
    else sent

/-- The data received since the last APDU that begins a transmission. -/
def transmissionSince (ts : List (Step Daemon ClientEvent)) : Bytes := ts.foldl transmissionAfter []

/-! ## Isolation -/

/-- If a step adds a profile, the profile's data are payload received since the last secure channel
was opened. -/
def InstallsOnlyNew (past : List (Step Daemon ClientEvent)) (t : Step Daemon ClientEvent) : Prop :=
  ∀ profile, Adds t.pre t.post profile → profile.profileData <:+ payloadSince (past ++ [t])

/-- The bytes of the command that a step takes out of APDUs. -/
def dispatchedCommand (t : Step Daemon ClientEvent) : Option Bytes :=
  match t.event.event with
  | .accept => none
  | .request env request =>
    if request.func = .transmit then
      match receiveApdu env t.pre.globalState request.param with
      | some (_, .complete cmd) => some (cmd.mem.take cmd.len)
      | _ => none
    else none

/-- If a step takes a command out of APDUs, the command consists of data received since the
transmission began. -/
def DispatchesOnlyNew (past : List (Step Daemon ClientEvent)) (t : Step Daemon ClientEvent) :
    Prop :=
  ∀ cmd, dispatchedCommand t = some cmd → cmd.Sublist (transmissionSince (past ++ [t]))

/-- A secure channel is opened only when no payload is left, and a transmission begins only when no
segment is left. -/
def StartsClean (t : Step Daemon ClientEvent) : Prop :=
  match t.event.event with
  | .accept => True
  | .request env request =>
    (opensSecureChannel env t.pre.globalState request →
      t.pre.globalState.boundProfilePackage.data = []) ∧
    (request.func = .transmit → t.event.first → t.pre.globalState.segmentBuffer.data = [])

instance : DecidablePred StartsClean
  | ⟨_, ⟨.accept, _⟩, _⟩ => inferInstanceAs (Decidable True)
  | ⟨pre, ⟨.request env request, first⟩, _⟩ =>
    inferInstanceAs (Decidable ((opensSecureChannel env pre.globalState request →
      pre.globalState.boundProfilePackage.data = []) ∧
      (request.func = .transmit → first → pre.globalState.segmentBuffer.data = [])))

/-! ## Runs -/

variable {env : Env} {s s' : EuiccState} {request : Request} {response : Response}

theorem payloadReceived_eq_nil
    (h : ∀ input, handlerInput env s request = some input → input.2.2.collects = false) :
    payloadReceived env s request = [] := by
  rw [payloadReceived]
  cases hin : handlerInput env s request with
  | none => rfl
  | some input =>
    have hc := h input hin
    obtain ⟨_, cmd, c⟩ := input
    exact if_neg (by rw [hc]; exact Bool.false_ne_true)

theorem handlerInput_of_ne (hf : request.func ≠ .transmit) : handlerInput env s request = none :=
  if_neg hf

/-- **A command** appends its payload to the package, or empties it. -/
theorem handle_package {cmd : Command} {c : Es10xCommand} {r : Option Bytes}
    (h : c.handle env s cmd = some (s', r)) :
    s'.boundProfilePackage.data <:+
      s.boundProfilePackage.data ++ if c.collects then (segmentData cmd).getD [] else [] := by
  have hstore : ∀ {t}, storeSegment s cmd = some t →
      t.boundProfilePackage.data = s.boundProfilePackage.data ++ (segmentData cmd).getD [] := by
    intro t ht
    obtain ⟨data, pkg, hd, hp, rfl⟩ := storeSegment_frame ht
    rw [hd]
    exact GrowBuf.append_data hp
  have hkeep : ∀ {pkg : Bytes} {c : Es10xCommand}, c.collects = false →
      pkg <:+ pkg ++ if c.collects then (segmentData cmd).getD [] else [] := by
    intro pkg c hc
    rw [hc]
    exact (List.append_nil pkg).symm ▸ List.suffix_rfl
  cases handle_effect h with
  | same hc => exact hkeep hc
  | store hs => exact hstore hs ▸ List.suffix_rfl
  | install hs hi =>
    obtain ⟨-, rfl⟩ | ⟨-, _, rfl⟩ := installProfile_frame hi
    · exact hstore hs ▸ List.suffix_rfl
    · exact List.nil_suffix
  | manage hm hs => exact hkeep (by cases hm <;> rfl)
  | _ => exact hkeep rfl

/-- **The package** grows by the payload of a request, or is emptied. -/
theorem handleRequest_package (h : handleRequest env s request = some (s', response)) :
    s'.boundProfilePackage.data <:+
      s.boundProfilePackage.data ++ payloadReceived env s request := by
  have hkeep : (∀ input, handlerInput env s request = some input → input.2.2.collects = false) →
      s.boundProfilePackage.data <:+
        s.boundProfilePackage.data ++ payloadReceived env s request := by
    intro hc
    exact ⟨[], by rw [payloadReceived_eq_nil hc, List.append_nil, List.nil_append]⟩
  have hother : request.func ≠ .transmit → ∀ input, handlerInput env s request = some input →
      input.2.2.collects = false := by
    intro hf input hin
    cases (handlerInput_of_ne hf).symm.trans hin
  cases handleRequest_served h with
  | session hf h hn => rw [h.boundProfilePackage]; exact List.nil_suffix
  | openChannel hf haid => exact hkeep (hother (by simp [hf]))
  | closeChannel hf => exact hkeep (hother (by simp [hf]))
  | same hf => exact hkeep (hother (by rcases hf with hf | hf | hf <;> simp [hf]))
  | apdu hf ha hc =>
    have hcollects : ∀ input, handlerInput env s request = some input →
        input.2.2.collects = false := fun input hin => by rw [hc input hin]; rfl
    cases ha <;> exact hkeep hcollects
  | command hf ha hc hh =>
    have hp := handle_package hh
    rw [payloadReceived, hc]
    cases ha with
    | complete hopen hb => exact hp

/-- **The segment buffer** grows by the data of an APDU, or is emptied. -/
theorem handleRequest_segments (h : handleRequest env s request = some (s', response)) :
    s'.segmentBuffer.data.Sublist
      (s.segmentBuffer.data ++ if request.func = .transmit then request.param.drop 5 else []) := by
  cases handleRequest_served h with
  | session hf h hn => rw [h.segmentBuffer]; exact List.nil_sublist _
  | openChannel hf haid => exact List.sublist_append_left _ _
  | closeChannel hf => exact List.sublist_append_left _ _
  | same hf => exact List.sublist_append_left _ _
  | apdu hf ha hc =>
    rw [if_pos hf]
    cases ha with
    | refuse response => exact List.sublist_append_left _ _
    | buffer hb => exact (GrowBuf.append_data hb).symm ▸ List.Sublist.refl _
    | complete hopen hb => exact hb.symm ▸ List.nil_sublist _
  | command hf ha hc hh =>
    rw [(handle_keeps hh).2]
    cases ha with
    | complete hopen hb => exact hb.symm ▸ List.nil_sublist _

/-- Opening a secure channel brings no payload. -/
theorem payloadReceived_of_opens (h : opensSecureChannel env s request = true) :
    payloadReceived env s request = [] := by
  refine payloadReceived_eq_nil fun input hin => ?_
  rw [opensSecureChannel, hin] at h
  split at h
  · rename_i hin'
    cases hin'
    rfl
  · cases h

/-- The buffers hold only what has been received since the last secure channel was opened and since
the last transmission began. -/
def Collected (past : List (Step Daemon ClientEvent)) (daemon : Daemon) : Prop :=
  daemon.globalState.boundProfilePackage.data <:+ payloadSince past ∧
    daemon.globalState.segmentBuffer.data.Sublist (transmissionSince past)

variable {past : List (Step Daemon ClientEvent)} {t : Step Daemon ClientEvent}

theorem payloadSince_concat : payloadSince (past ++ [t]) = payloadAfter (payloadSince past) t := by
  rw [payloadSince, List.foldl_append]
  rfl

theorem transmissionSince_concat :
    transmissionSince (past ++ [t]) = transmissionAfter (transmissionSince past) t := by
  rw [transmissionSince, List.foldl_append]
  rfl

theorem suffix_append_append {xs ys zs : Bytes} (h : xs <:+ ys) : xs ++ zs <:+ ys ++ zs := by
  obtain ⟨ws, rfl⟩ := h
  exact ⟨ws, (List.append_assoc ws xs zs).symm⟩

/-- **A clean step** leaves in the buffers only what is new. -/
theorem collected_step (hc : Collected past t.pre) (hclean : StartsClean t)
    (hs : clientStep t.pre t.event = some t.post) : Collected (past ++ [t]) t.post := by
  obtain ⟨hpkg, hseg⟩ := hc
  rw [Collected, payloadSince_concat, transmissionSince_concat]
  obtain ⟨he, -, hpost⟩ | ⟨he, -, hpost⟩ | ⟨env, request, state, response, he, -, hh, hpost⟩ :=
    daemonStep_cases hs
  · rw [hpost]
    exact ⟨List.nil_suffix, List.nil_sublist _⟩
  · rw [hpost, payloadAfter, transmissionAfter, he]
    exact ⟨hpkg, hseg⟩
  · rw [StartsClean, he] at hclean
    obtain ⟨hopens, hfirst⟩ := hclean
    have hp := handleRequest_package hh
    have hg := handleRequest_segments hh
    rw [hpost, payloadAfter, transmissionAfter, he]
    refine ⟨?_, ?_⟩
    · dsimp only
      split
      · rename_i ho
        rwa [hopens ho, payloadReceived_of_opens ho] at hp
      · exact hp.trans (suffix_append_append hpkg)
    · dsimp only
      split
      · rename_i hf
        rw [if_pos hf] at hg
        refine hg.trans (List.Sublist.append ?_ (List.Sublist.refl _))
        split
        · rename_i hb
          rw [hfirst hf hb]
        · exact hseg
      · rename_i hf
        rw [if_neg hf, List.append_nil] at hg
        exact hg.trans hseg

theorem reachable_of_client {daemon : Daemon} (h : Reachable clientStep .start daemon) :
    Reachable daemonStep .start daemon := by
  induction h with
  | init => exact .init
  | step _ hs ih => exact ih.step hs

/-- **What a step installs** was in the package, or is its own payload. -/
theorem adds_package {profile : ProfileMetadata} (hr : Reachable clientStep .start t.pre)
    (hs : clientStep t.pre t.event = some t.post) (ha : Adds t.pre t.post profile) :
    ∃ env request, t.event.event = .request env request ∧
      opensSecureChannel env t.pre.globalState request = false ∧
      profile.profileData = t.pre.globalState.boundProfilePackage.data ++
        payloadReceived env t.pre.globalState request := by
  have hr := reachable_of_client hr
  obtain ⟨-, -, hpost⟩ | ⟨-, -, hpost⟩ | ⟨env, request, state, response, he, -, hh, hpost⟩ :=
    daemonStep_cases hs
  · obtain ⟨ps, -, hps⟩ := ha
    rw [hpost] at hps
    cases hps
  · obtain ⟨ps, hpre, hps⟩ := ha
    rw [hpost, hpre] at hps
    have := congrArg List.length (Option.some.inj hps)
    simp at this
  · rw [hpost] at ha
    obtain ⟨package, hp, -, rfl⟩ := handleRequest_adds hr hh ha
    obtain ⟨b, cmd, u, hin, hu, rfl⟩ := packageToInstall_eq_some hp
    refine ⟨env, request, he, by rw [opensSecureChannel, hin], ?_⟩
    obtain ⟨data, pkg, hd, hpkg, rfl⟩ := storeSegment_frame hu
    rw [payloadReceived, hin]
    change pkg.data = _ ++ (segmentData cmd).getD []
    rw [hd]
    exact GrowBuf.append_data hpkg

theorem dispatchedCommand_eq_some {cmd : Bytes} (h : dispatchedCommand t = some cmd) :
    ∃ env request state full, t.event.event = .request env request ∧ request.func = .transmit ∧
      receiveApdu env t.pre.globalState request.param = some (state, .complete full) ∧
      full.mem.take full.len = cmd := by
  unfold dispatchedCommand at h
  split at h
  · cases h
  · rename_i env request he
    split_ifs at h with hf
    split at h
    · rename_i state full hc
      exact ⟨env, request, state, full, he, hf, hc, Option.some.inj h⟩
    · cases h

/-- **Isolation.** When secure channels are opened and transmissions begin only with empty buffers,
every profile consists of payload received since the last secure channel was opened, and every
command of data received since its transmission began. -/
theorem isolation {events : List ClientEvent}
    (hclean : ∀ t ∈ trace clientStep .start events, StartsClean t)
    {past rest : List (Step Daemon ClientEvent)} {t : Step Daemon ClientEvent}
    (h : trace clientStep .start events = past ++ t :: rest) :
    InstallsOnlyNew past t ∧ DispatchesOnlyNew past t := by
  have hmem : ∀ {ts t rest}, trace clientStep .start events = ts ++ t :: rest →
      t ∈ trace clientStep .start events := fun h => h ▸ by simp
  have hcol : Collected past t.pre := by
    refine past_invariant (I := Collected) ⟨List.nil_suffix, List.nil_sublist _⟩ ?_ h
    intro ts u rest hu hc
    exact collected_step hc (hclean u (hmem hu)) (mem_trace .init (hmem hu)).2.1
  obtain ⟨hr, hs, -⟩ := mem_trace .init (hmem h)
  have hclean := hclean t (hmem h)
  refine ⟨fun profile ha => ?_, fun cmd hcmd => ?_⟩
  · obtain ⟨env, request, he, ho, hdata⟩ := adds_package hr hs ha
    rw [payloadSince_concat, payloadAfter, he]
    dsimp only
    rw [ho, if_neg Bool.false_ne_true, hdata]
    exact suffix_append_append hcol.1
  · obtain ⟨env, request, state, full, he, hf, hc, rfl⟩ := dispatchedCommand_eq_some hcmd
    rw [StartsClean, he] at hclean
    rw [transmissionSince_concat, transmissionAfter, he]
    dsimp only
    rw [if_pos hf]
    cases receiveApdu_effect hc with
    | complete hopen hb =>
      rw [Command.ofBytes, List.take_left']
      · refine List.Sublist.append ?_ (List.Sublist.refl _)
        split
        · rename_i hb
          rw [hclean.2 hf hb]
        · exact hcol.2
      · rfl

/-! ## A cancelled download -/

/-- A request of the client, and whether it begins a transmission. -/
def sampleSend (p1 : UInt8) (data : Bytes) (first : Bool) : ClientEvent :=
  ⟨.request sampleEnv ⟨.transmit, [0x80, 0xE2, p1, 0x00, UInt8.ofNat data.length] ++ data⟩, first⟩

/-- A session up to the secure channel. -/
def sampleOpen : List ClientEvent :=
  [sampleSend 0x91 [0xBF, 0x2E, 0x00] true, sampleSend 0x91 [0xBF, 0x38, 0x00] true,
    sampleSend 0x91 [0xBF, 0x21, 0x00] true,
    sampleSend 0x91 ([0xBF, 0x23, 0x46, 0x80, 0x00, 0x5F, 0x49, 0x41] ++ sampleSmdpOtpk) true]

/-- A client connects and opens the channel. -/
def sampleConnect : List ClientEvent :=
  [⟨.accept, false⟩, ⟨.request sampleEnv ⟨.connect, []⟩, false⟩,
    ⟨.request sampleEnv ⟨.logicChannelOpen, expectedAid⟩, false⟩]

/-- A download is cancelled after the payload `11`, and another one brings the payload `22`. -/
def sampleCancelled : List ClientEvent :=
  sampleConnect ++ sampleOpen ++ [sampleSend 0x91 [0x86, 0x01, 0x11] true,
    sampleSend 0x91 [0xBF, 0x41, 0x00] true] ++ sampleOpen ++
    [sampleSend 0x91 [0xA3, 0x01, 0x22] true]

/-- A transmission stops after its first segment `BF`, and another one brings `BF20` as a whole. -/
def sampleInterrupted : List ClientEvent :=
  sampleConnect ++ [sampleSend 0x11 [0xBF] true, sampleSend 0x91 [0xBF, 0x20, 0x00] true]

/-- A download that is cancelled before any payload leaves nothing behind. -/
def sampleClean : List ClientEvent :=
  sampleConnect ++ sampleOpen ++ [sampleSend 0x91 [0xBF, 0x41, 0x00] true] ++ sampleOpen ++
    [sampleSend 0x91 [0xA3, 0x01, 0x22] true]

theorem isolation_sample : ∃ past t, trace clientStep .start sampleClean = past ++ [t] ∧
    InstallsOnlyNew past t ∧ DispatchesOnlyNew past t := by
  have hclean : ∀ t ∈ trace clientStep .start sampleClean, StartsClean t := by decide +kernel
  have hne : trace clientStep .start sampleClean ≠ [] := by
    intro h
    have := congrArg List.length h
    revert this
    decide +kernel
  have h := (List.dropLast_append_getLast hne).symm
  exact ⟨_, _, h, isolation hclean h⟩

/-- **A cancelled download is not isolated**: the profile that is installed next begins with its
payload. And a command begins with the segment that an interrupted transmission left. -/
theorem isolation_fails :
    (¬ ∀ events past t rest, trace clientStep .start events = past ++ t :: rest →
      InstallsOnlyNew past t) ∧
    ¬ ∀ events past t rest, trace clientStep .start events = past ++ t :: rest →
      DispatchesOnlyNew past t := by
  refine ⟨fun h => ?_, fun h => ?_⟩
  · have hlast : (trace clientStep .start sampleCancelled).getLast?.map (fun t =>
        (t.pre.profiles, t.post.profiles.map fun ps => ps.map (·.profileData))) =
          some (some [], some [[0x11, 0x22]]) := by decide +kernel
    have hpayload : payloadSince (trace clientStep .start sampleCancelled) = [0x22] := by
      decide +kernel
    rcases List.eq_nil_or_concat (trace clientStep .start sampleCancelled) with h0 | ⟨past, t, ht⟩
    · rw [h0] at hlast
      cases hlast
    · rw [List.concat_eq_append] at ht
      rw [ht] at hlast hpayload
      simp only [List.getLast?_append, List.getLast?_singleton, Option.some_or, Option.map_some,
        Option.some.injEq, Prod.mk.injEq, Option.map_eq_some_iff] at hlast
      obtain ⟨hpre, ps, hpost, hps⟩ := hlast
      obtain ⟨profile, rfl, hdata⟩ := List.map_eq_singleton_iff.1 hps
      have := h _ past t [] ht profile ⟨[], hpre, hpost⟩
      rw [hpayload, hdata] at this
      exact absurd this (by decide)
  · have hlast : (trace clientStep .start sampleInterrupted).getLast?.bind dispatchedCommand =
        some [0xBF, 0xBF, 0x20, 0x00] := by decide +kernel
    have hsent : transmissionSince (trace clientStep .start sampleInterrupted) =
        [0xBF, 0x20, 0x00] := by decide +kernel
    rcases List.eq_nil_or_concat (trace clientStep .start sampleInterrupted) with h0 | ⟨past, t, ht⟩
    · rw [h0] at hlast
      cases hlast
    · rw [List.concat_eq_append] at ht
      rw [ht] at hlast hsent
      simp only [List.getLast?_append, List.getLast?_singleton, Option.some_or,
        Option.bind_some] at hlast
      have := h _ past t [] ht _ hlast
      rw [hsent] at this
      exact absurd this (by decide)

end VirtualRsp.Card
