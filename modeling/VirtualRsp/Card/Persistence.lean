import VirtualRsp.Card.Invariant

/-!
# Persistence of installed profiles

The list of profiles should only change in a step that processes an installation or a management
command. Of the other commands this holds: none of them touches the list. But a client that connects
initialises the whole state, and one that disconnects resets it, so the steps that keep the list are
those that do not connect or disconnect while a profile is installed (`persistence_iff`).
-/

namespace VirtualRsp.Card

open Run

/-- The commands that may change the list of profiles. -/
def Es10xCommand.ChangesProfiles (c : Es10xCommand) : Prop :=
  c = .sequenceOf86 ∨ c = .enableProfile ∨ c = .disableProfile ∨ c = .deleteProfile

/-- A step that processes a command that may change the list of profiles. -/
def MayChangeProfiles (t : Step Daemon Event) : Prop :=
  ∃ env request c, t.event = .request env request ∧
    processedCommand env t.pre.globalState request = some c ∧ c.ChangesProfiles

/-- What persistence asks of a step. -/
def KeepsProfiles (t : Step Daemon Event) : Prop :=
  ¬ MayChangeProfiles t → t.post.profiles = t.pre.profiles

/-- No client connects or disconnects while a profile is installed. -/
def NoSessionChange (t : Step Daemon Event) : Prop :=
  ∀ env request, t.event = .request env request →
    request.func = .connect ∨ request.func = .disconnect → t.pre.profiles = some []

/-- A command that does not install or manage keeps the list. -/
theorem handle_keeps_profiles {env : Env} {s s' : EuiccState} {cmd : Command} {r : Option Bytes}
    {c : Es10xCommand} (h : c.handle env s cmd = some (s', r)) (hc : ¬ c.ChangesProfiles) :
    s'.profiles = s.profiles := by
  cases handle_profilesEffect h with
  | same h => exact h
  | install matchingId hp h => exact absurd (.inl rfl) hc
  | manage hm hs hr =>
    refine absurd ?_ hc
    cases hm with
    | enable => exact .inr (.inl rfl)
    | disable => exact .inr (.inr (.inl rfl))
    | delete => exact .inr (.inr (.inr rfl))

/-- Serving a request, the list is kept exactly if no installed profile is lost by connecting or
disconnecting. -/
theorem keepsProfiles_request {daemon : Daemon} {env : Env} {request : Request}
    {state : EuiccState} {response : Response}
    (h : handleRequest env daemon.globalState request = some (state, response)) :
    KeepsProfiles ⟨daemon, .request env request, ⟨state, true⟩⟩ ↔
      NoSessionChange ⟨daemon, .request env request, ⟨state, true⟩⟩ := by
  by_cases hf : request.func = .connect ∨ request.func = .disconnect
  · -- connecting and disconnecting process no command, and leave an empty list
    have hnone : processedCommand env daemon.globalState request = none := by
      rw [processedCommand, handlerInput, if_neg, Option.map_none]
      rcases hf with hf | hf <;> rw [hf] <;> decide
    have hempty : state.profiles.toList = some [] := by
      rw [handleRequest] at h
      rcases hf with hf | hf
      · rw [hf] at h
        cases h
        obtain ⟨_, _, _, hc⟩ := apduHandleConnect_frame env
        rw [congrArg EuiccState.profiles hc]
        exact LinkedList.toList_eq LinkedList.empty_repr
      · rw [hf] at h
        simp only [apduHandleDisconnect, euiccStateReset, Option.map_map,
          Option.map_eq_some_iff] at h
        obtain ⟨_, -, h⟩ := h
        cases h
        exact LinkedList.toList_eq LinkedList.empty_repr
    constructor
    · rintro hk env' request' he -
      have hno : ¬ MayChangeProfiles ⟨daemon, .request env request, ⟨state, true⟩⟩ := by
        rintro ⟨env', request', c, he, hc, -⟩
        cases he
        rw [hnone] at hc
        cases hc
      exact (hk hno).symm.trans hempty
    · rintro hn -
      exact hempty.trans (hn env request rfl hf).symm
  · refine ⟨fun _ env' request' he hf' => ?_, fun _ hno => ?_⟩
    · cases he
      exact absurd hf' hf
    · refine congrArg LinkedList.toList ?_
      cases handleRequest_effect h with
      | same h _ => exact h
      | session hf' _ _ => exact absurd hf' hf
      | @command c b cmd r hc hh hr =>
        have hp : processedCommand env daemon.globalState request = some c := by
          rw [processedCommand, hc, Option.map_some]
        exact handle_keeps_profiles (s := { daemon.globalState with segmentBuffer := b }) hh
          fun hch => hno ⟨env, request, c, rfl, hp, hch⟩

/-- **Persistence holds of exactly the runs** in which no client connects or disconnects while a
profile is installed. -/
theorem persistence_iff (events : List Event) :
    (∀ t ∈ trace daemonStep .start events, KeepsProfiles t) ↔
      ∀ t ∈ trace daemonStep .start events, NoSessionChange t := by
  refine forall_trace_congr (fun t hr ht => ?_) events
  obtain ⟨pre, event, post⟩ := t
  dsimp only at hr ht
  obtain ⟨rfl, h0, rfl⟩ | ⟨rfl, -, rfl⟩ | ⟨env, request, state, response, rfl, -, hh, rfl⟩ :=
    daemonStep_cases ht
  · obtain rfl := (daemonInv_of_reachable hr).start h0
    exact ⟨fun _ env request he => (nomatch he), fun _ _ => rfl⟩
  · exact ⟨fun _ env request he => (nomatch he), fun _ _ => rfl⟩
  · exact keepsProfiles_request hh

/-! ## A run that loses a profile -/

/-- Whether a step changes the profiles although it processes no command. -/
def changesWithoutCommand (t : Step Daemon Event) : Bool :=
  match t.event with
  | .accept => false
  | .request env request =>
    processedCommand env t.pre.globalState request = none && t.post.profiles ≠ t.pre.profiles

/-- **A disconnect loses the installed profile.** -/
theorem persistence_fails :
    ¬ ∀ events, ∀ t ∈ trace daemonStep .start events, KeepsProfiles t := by
  intro h
  have hlost : (trace daemonStep .start
      (sampleInstall ++ [.request sampleEnv ⟨.disconnect, []⟩])).any changesWithoutCommand =
        true := by
    decide +kernel
  obtain ⟨t, ht, hlost⟩ := List.any_eq_true.1 hlost
  rw [changesWithoutCommand] at hlost
  split at hlost
  · cases hlost
  · rename_i env request he
    simp only [Bool.and_eq_true, decide_eq_true_eq] at hlost
    refine hlost.2 (h _ t ht ?_)
    rintro ⟨env', request', c, he', hc, -⟩
    rw [he] at he'
    cases he'
    rw [hlost.1] at hc
    cases hc

end VirtualRsp.Card
