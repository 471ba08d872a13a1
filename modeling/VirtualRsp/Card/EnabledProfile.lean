import VirtualRsp.Card.Invariant

/-!
# The enabled profile

At most one installed profile is enabled, whatever was sent to the card
(`enabledProfile_invariant`). An enable request disables the profile that was enabled before, a
delete request never removes an enabled profile, and a management request that reports an error has
changed nothing.
-/

namespace VirtualRsp.Card

open Run

/-- A management command on a represented list: the answer carries a result code, and unless the
code is 0, the list is the one before. -/
theorem management_response {env : Env} {s s' : EuiccState} {cmd : Command} {r : Option Bytes}
    {c : Es10xCommand} {tag : ℕ}
    {step : LinkedList ProfileMetadata → Target → Option (LinkedList ProfileMetadata × UInt8)}
    (hm : Management c tag step) {xs : List (ℕ × ProfileMetadata)} (hl : s.profiles.Repr xs)
    (hh : c.handle env s cmd = some (s', r)) :
    ∃ code, r = some (resultResponse tag code) ∧ (code ≠ 0 → s'.profiles = s.profiles) := by
  have key : manageProfile tag step s cmd = some (s', r) := by cases hm <;> exact hh
  obtain ⟨target, l, code, -, hs, rfl, rfl⟩ := manageProfile_frame key
  exact ⟨code, rfl, (hm.storeStep hl hs).2⟩

/-- A delete command on a represented list keeps the enabled profiles. -/
theorem deleteProfile_keeps_enabled {s s' : EuiccState} {cmd : Command} {r : Option Bytes}
    {xs : List (ℕ × ProfileMetadata)} (hl : s.profiles.Repr xs)
    (hh : deleteProfile s cmd = some (s', r)) :
    ∃ ys, s'.profiles.Repr ys ∧ (ys.map Prod.snd).filter (·.state = .enabled) =
      (xs.map Prod.snd).filter (·.state = .enabled) := by
  obtain ⟨target, l, code, -, hs, rfl, -⟩ := manageProfile_frame hh
  obtain ⟨l', code', ys, hs', hr, ho, -⟩ := deleteStep_refines target hl
  rw [hs] at hs'
  cases hs'
  have hkeep := @delete_keeps_enabled target.matches (xs.map Prod.snd)
  rw [ho] at hkeep
  exact ⟨ys, hr, hkeep⟩

/-- **The enabled-profile invariant.** In every reachable state the list of profiles is finite and
acyclic and at most one profile is enabled; a processed delete command keeps every enabled profile;
and a processed management command answers with a result code and, unless that is 0, leaves the list
exactly as it was. -/
theorem enabledProfile_invariant {daemon : Daemon} (h : Reachable daemonStep .start daemon) :
    ∃ xs, daemon.globalState.profiles.Repr xs ∧ (xs.map Prod.fst).Nodup ∧
      (xs.map Prod.snd).countP (·.state = .enabled) ≤ 1 ∧
      ∀ env request state response c,
        handleRequest env daemon.globalState request = some (state, response) →
        processedCommand env daemon.globalState request = some c →
        (c = .deleteProfile → ∃ ys, state.profiles.Repr ys ∧
          (ys.map Prod.snd).filter (·.state = .enabled) =
            (xs.map Prod.snd).filter (·.state = .enabled)) ∧
        ∀ tag step, Management c tag step → ∃ code,
          response = ⟨0, resultResponse tag code ++ [0x90, 0x00]⟩ ∧
            (code ≠ 0 → state.profiles = daemon.globalState.profiles) := by
  obtain ⟨xs, hl, hi⟩ := (daemonInv_of_reachable h).profiles
  refine ⟨xs, hl, hl.nodup, hi.atMostOne, fun env request state response c hh hc => ?_⟩
  obtain ⟨⟨t, cmd, c⟩, hin, rfl⟩ := Option.map_eq_some_iff.1 hc
  obtain ⟨b, rfl⟩ := handlerInput_frame hin
  refine ⟨?_, ?_⟩
  · rintro rfl
    obtain ⟨r, hd, -⟩ := handleRequest_processed hh hin (by decide)
    exact deleteProfile_keeps_enabled (s := { daemon.globalState with segmentBuffer := b }) hl hd
  · intro tag step hm
    obtain ⟨r, hd, rfl⟩ := handleRequest_processed hh hin (by cases hm <;> decide)
    obtain ⟨code, rfl, hcode⟩ :=
      management_response (s := { daemon.globalState with segmentBuffer := b }) hm hl hd
    exact ⟨code, rfl, hcode⟩

/-- A request about the profile with this AID. -/
def sampleManage (tag : UInt8) : Request :=
  ⟨.transmit, [0x80, 0xE2, 0x91, 0x00, 0x15, 0xBF, tag, 0x12, 0x4F, 0x10, 0xA0, 0x00, 0x00, 0x05,
    0x59, 0x10, 0x10, 0xFF, 0xFF, 0xFF, 0xFF, 0x89, 0x00, 0x00, 0x10, 0x00]⟩

/-- A profile is installed and enabled. -/
def sampleEnabled : List Event := sampleInstall ++ [.request sampleEnv (sampleManage 0x31)]

/-- The run ends with one enabled profile, and a delete request for it is refused. -/
theorem sampleEnabled_facts : (exec daemonStep .start sampleEnabled).any fun daemon =>
    (daemon.globalState.profiles.toList.any fun ps => ps.countP (·.state = .enabled) = 1) ∧
    processedCommand sampleEnv daemon.globalState (sampleManage 0x33) = some .deleteProfile ∧
    (handleRequest sampleEnv daemon.globalState (sampleManage 0x33)).any fun r =>
      r.2 = ⟨0, [0xBF, 0x33, 0x03, 0x80, 0x01, 0x02, 0x90, 0x00]⟩ := by
  decide +kernel

/-- In the sample run one profile is enabled, and the request to delete it answers with the code 2
and changes nothing. -/
theorem enabledProfile_invariant_sample :
    ∃ daemon xs, exec daemonStep .start sampleEnabled = some daemon ∧
      daemon.globalState.profiles.Repr xs ∧ (xs.map Prod.fst).Nodup ∧
      (xs.map Prod.snd).countP (·.state = .enabled) = 1 ∧
      ∃ state response,
        handleRequest sampleEnv daemon.globalState (sampleManage 0x33) = some (state, response) ∧
        (∃ ys, state.profiles.Repr ys ∧ (ys.map Prod.snd).filter (·.state = .enabled) =
          (xs.map Prod.snd).filter (·.state = .enabled)) ∧
        response = ⟨0, resultResponse 0xBF33 2 ++ [0x90, 0x00]⟩ ∧
        state.profiles = daemon.globalState.profiles := by
  obtain ⟨daemon, hd, hfacts⟩ := (Option.any_eq_true _ _).1 sampleEnabled_facts
  obtain ⟨hcount, hc, hh⟩ := of_decide_eq_true hfacts
  obtain ⟨⟨state, response⟩, hh, hresponse⟩ := (Option.any_eq_true _ _).1 hh
  obtain rfl := of_decide_eq_true hresponse
  obtain ⟨xs, hl, hnd, -, hrequest⟩ := enabledProfile_invariant (Reachable.init.of_exec hd)
  obtain ⟨hdelete, hmanage⟩ := hrequest _ _ _ _ _ hh hc
  obtain ⟨code, hcode, hkeeps⟩ := hmanage _ _ .delete
  have hone : (xs.map Prod.snd).countP (·.state = .enabled) = 1 := by
    rw [LinkedList.toList, LinkedList.nodes_eq hl] at hcount
    exact of_decide_eq_true hcount
  have hne : code ≠ 0 := by
    rintro rfl
    exact absurd hcode (by decide)
  exact ⟨daemon, xs, hd, hl, hnd, hone, state, _, hh, hdelete rfl, rfl, hkeeps hne⟩

end VirtualRsp.Card
