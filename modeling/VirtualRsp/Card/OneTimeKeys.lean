import VirtualRsp.Card.Failures

/-!
# One-time keys and session keys

The session keys belong to a pair of one-time keys: the private key that `BF21` stores and the
server's key that `BF23` stores. A flag says that they have been derived. `BF21` stores a new key
without clearing the flag, and `BF23` stores the server's key before it is known whether the keys
can be derived, so the flag can stay from earlier keys.

* `OtpkMatches`: the public key is always the one of the stored private key.
* `sessionKeys_match`: along a run in which no key is replaced while the flag is set, the session
  keys are those of the stored one-time keys.
* `sessionKeys_stale`: a run in which they are not.

What is relied on of OpenSSL is in `Consistent`: successful computations of one run agree with
one reference, and the halves of a key pair belong together.
-/

namespace VirtualRsp.Card

open Run

/-- What a run relies on: the same curve and the same hash throughout. -/
structure Consistent (reference : Env) (publicKey : Vector UInt8 32 → Vector UInt8 65)
    (env : Env) : Prop where
  keypair : ∀ pub priv, freshOtpk env = some (pub, some priv) → pub = publicKey priv
  ecdh : ∀ priv point secret, env.ecdh priv point = some secret →
    reference.ecdh priv point = some secret
  sha256 : env.sha256 = reference.sha256

/-- The session keys are those of the stored one-time keys. -/
def SessionKeysMatch (reference : Env) (publicKey : Vector UInt8 32 → Vector UInt8 65)
    (s : EuiccState) : Prop :=
  s.sessionKeysDerived = true → ∃ euiccOtsk smdpOtpk, s.euiccOtsk = some euiccOtsk ∧
    s.smdpOtpk = some smdpOtpk ∧
    deriveSessionKeysEcka reference euiccOtsk smdpOtpk =
      some (s.sessionKeyEnc, s.sessionKeyMac) ∧
    s.euiccOtpk = some (publicKey euiccOtsk)

/-- The stored public key is the one of the stored private key. -/
def OtpkMatches (publicKey : Vector UInt8 32 → Vector UInt8 65) (s : EuiccState) : Prop :=
  ∀ euiccOtsk, s.euiccOtsk = some euiccOtsk → s.euiccOtpk = some (publicKey euiccOtsk)

/-- No one-time key is replaced while there are session keys, unless by itself or by one for which
session keys are derived at once. -/
def KeepsKeys (env : Env) (s : EuiccState) (cmd : Command) : Es10xCommand → Prop
  | .prepareDownload => s.sessionKeysDerived = true → ∀ pub priv,
    freshOtpk env = some (pub, priv) → s.euiccOtpk = some pub ∧ s.euiccOtsk = priv
  | .initialiseSecureChannel => s.sessionKeysDerived = true → ∀ smdpOtpk,
    acceptedOtpk s cmd = some smdpOtpk → deriveFrom env s.euiccOtsk smdpOtpk = none →
      s.smdpOtpk = some smdpOtpk
  | _ => True

variable {reference env : Env} {publicKey : Vector UInt8 32 → Vector UInt8 65}
  {s s' : EuiccState} {cmd : Command} {r : Option Bytes}

theorem Consistent.derive (h : Consistent reference publicKey env) {euiccOtsk : Vector UInt8 32}
    {smdpOtpk : Bytes} {keys : Bytes × Bytes}
    (hd : deriveSessionKeysEcka env euiccOtsk smdpOtpk = some keys) :
    deriveSessionKeysEcka reference euiccOtsk smdpOtpk = some keys := by
  rw [deriveSessionKeysEcka] at hd ⊢
  split_ifs at hd ⊢ with hlen hform
  obtain ⟨secret, hsecret, rfl⟩ := Option.map_eq_some_iff.1 hd
  rw [h.ecdh _ _ _ hsecret, Option.map_some, h.sha256]

/-! ## One command -/

/-- The fields in question are only written by two commands. -/
theorem handle_keeps_keys {c : Es10xCommand} (h : c.handle env s cmd = some (s', r))
    (hp : c ≠ .prepareDownload) (hc : c ≠ .initialiseSecureChannel) :
    s'.euiccOtpk = s.euiccOtpk ∧ s'.euiccOtsk = s.euiccOtsk ∧ s'.smdpOtpk = s.smdpOtpk ∧
      s'.sessionKeyEnc = s.sessionKeyEnc ∧ s'.sessionKeyMac = s.sessionKeyMac ∧
      s'.sessionKeysDerived = s.sessionKeysDerived := by
  cases handle_effect h with
  | prepare => exact absurd rfl hp
  | channel => exact absurd rfl hc
  | store hs =>
    obtain ⟨_, _, -, -, rfl⟩ := storeSegment_frame hs
    exact ⟨rfl, rfl, rfl, rfl, rfl, rfl⟩
  | install hs hi =>
    obtain ⟨_, _, -, -, rfl⟩ := storeSegment_frame hs
    obtain ⟨-, rfl⟩ | ⟨-, _, rfl⟩ := installProfile_frame hi <;>
      exact ⟨rfl, rfl, rfl, rfl, rfl, rfl⟩
  | _ => exact ⟨rfl, rfl, rfl, rfl, rfl, rfl⟩

theorem handle_otpkMatches {c : Es10xCommand} (h : c.handle env s cmd = some (s', r))
    (hlib : Consistent reference publicKey env) (hi : OtpkMatches publicKey s) :
    OtpkMatches publicKey s' := by
  by_cases hp : c = .prepareDownload
  · subst hp
    obtain ⟨_, -, ⟨-, rfl, -⟩ | ⟨pub, priv, hpair, rfl⟩⟩ := prepareDownload_state h
    · exact hi
    · intro euiccOtsk hsk
      obtain rfl : priv = some euiccOtsk := hsk
      exact congrArg some (hlib.keypair _ _ hpair)
  by_cases hc : c = .initialiseSecureChannel
  · subst hc
    obtain ⟨-, rfl, -⟩ | ⟨_, -, ⟨-, rfl, -⟩ | ⟨_, _, -, -, rfl⟩⟩ := initialiseSecureChannel_state h
    · exact hi
    · exact hi
    · exact hi
  · obtain ⟨hpk, hsk, -⟩ := handle_keeps_keys h hp hc
    intro euiccOtsk hotsk
    exact hpk.trans (hi euiccOtsk (hsk ▸ hotsk))

/-- **A command** that replaces no key under the flag keeps the match. -/
theorem handle_sessionKeysMatch {c : Es10xCommand} (h : c.handle env s cmd = some (s', r))
    (hlib : Consistent reference publicKey env) (hotpk : OtpkMatches publicKey s)
    (hk : KeepsKeys env s cmd c) (hi : SessionKeysMatch reference publicKey s) :
    SessionKeysMatch reference publicKey s' := by
  by_cases hp : c = .prepareDownload
  · subst hp
    obtain ⟨_, -, ⟨-, rfl, -⟩ | ⟨pub, priv, hpair, rfl⟩⟩ := prepareDownload_state h
    · exact hi
    · intro hflag
      obtain ⟨hpub, hpriv⟩ := hk hflag pub priv hpair
      obtain ⟨euiccOtsk, smdpOtpk, hsk, hsmdp, hd, hpk⟩ := hi hflag
      exact ⟨euiccOtsk, smdpOtpk, hpriv.symm.trans hsk, hsmdp, hd, hpub.symm.trans hpk⟩
  by_cases hc : c = .initialiseSecureChannel
  · subst hc
    obtain ⟨-, rfl, -⟩ | ⟨smdpOtpk, hacc, ⟨hnone, rfl, -⟩ | ⟨enc, mac, hd, -, rfl⟩⟩ :=
      initialiseSecureChannel_state h
    · exact hi
    · intro hflag
      obtain ⟨euiccOtsk, smdpOtpk', hsk, hsmdp, hd, hpk⟩ := hi hflag
      exact ⟨euiccOtsk, smdpOtpk', hsk, (hk hflag _ hacc hnone).symm.trans hsmdp, hd, hpk⟩
    · intro _
      obtain ⟨euiccOtsk, hsk, hd⟩ := Option.bind_eq_some_iff.1 hd
      exact ⟨euiccOtsk, smdpOtpk, hsk, rfl, hlib.derive hd, hotpk euiccOtsk hsk⟩
  · obtain ⟨hpk, hsk, hsmdp, henc, hmac, hder⟩ := handle_keeps_keys h hp hc
    intro hflag
    obtain ⟨euiccOtsk, smdpOtpk, h1, h2, h3, h4⟩ := hi (hder ▸ hflag)
    refine ⟨euiccOtsk, smdpOtpk, hsk.trans h1, hsmdp.trans h2, ?_, hpk.trans h4⟩
    rw [henc, hmac]
    exact h3

/-! ## Runs -/

/-- The environment of an event, if it has one, is consistent. -/
def EventConsistent (reference : Env) (publicKey : Vector UInt8 32 → Vector UInt8 65)
    (event : Event) : Prop :=
  ∀ env request, event = .request env request → Consistent reference publicKey env

/-- A step that replaces no one-time key while there are session keys. -/
def StepKeepsKeys (t : Step Daemon Event) : Prop :=
  ∀ env request state cmd c, t.event = .request env request →
    handlerInput env t.pre.globalState request = some (state, cmd, c) → KeepsKeys env state cmd c

/-- What holds before and after every step. -/
structure KeyInv (reference : Env) (publicKey : Vector UInt8 32 → Vector UInt8 65)
    (daemon : Daemon) : Prop where
  sessionKeys : SessionKeysMatch reference publicKey daemon.globalState
  otpk : OtpkMatches publicKey daemon.globalState

theorem keyInv_of_none (daemon : Daemon) (hsk : daemon.globalState.euiccOtsk = none)
    (hder : daemon.globalState.sessionKeysDerived = false) :
    KeyInv reference publicKey daemon :=
  ⟨fun h => absurd (hder.symm.trans h) (by decide),
    fun _ h => nomatch hsk.symm.trans h⟩

/-- **A step** keeps the invariant. -/
theorem keyInv_step {t : Step Daemon Event} (hs : daemonStep t.pre t.event = some t.post)
    (hlib : EventConsistent reference publicKey t.event) (hk : StepKeepsKeys t)
    (hi : KeyInv reference publicKey t.pre) : KeyInv reference publicKey t.post := by
  obtain ⟨pre, event, post⟩ := t
  dsimp only at hs hlib hi ⊢
  obtain ⟨-, -, rfl⟩ | ⟨-, -, rfl⟩ | ⟨env, request, state, response, rfl, -, hh, rfl⟩ :=
    daemonStep_cases hs
  · exact keyInv_of_none _ rfl rfl
  · exact hi
  · have hconsistent := hlib env request rfl
    cases handleRequest_served hh with
    | session hf h hn => exact keyInv_of_none _ h.euiccOtsk h.sessionKeysDerived
    | openChannel hf haid => exact ⟨hi.sessionKeys, hi.otpk⟩
    | closeChannel hf => exact ⟨hi.sessionKeys, hi.otpk⟩
    | same hf => exact ⟨hi.sessionKeys, hi.otpk⟩
    | apdu hf ha hc => cases ha <;> exact ⟨hi.sessionKeys, hi.otpk⟩
    | command hf ha hc hcmd =>
      obtain ⟨b, rfl⟩ := handlerInput_frame hc
      have hkeep := hk env request _ _ _ rfl hc
      have hotpk : OtpkMatches publicKey { pre.globalState with segmentBuffer := b } := hi.otpk
      have hkeys : SessionKeysMatch reference publicKey
          { pre.globalState with segmentBuffer := b } := hi.sessionKeys
      exact ⟨handle_sessionKeysMatch hcmd hconsistent hotpk hkeep hkeys,
        handle_otpkMatches hcmd hconsistent hotpk⟩

/-- **Session keys match the one-time keys** along every run in which no one-time key is replaced
while there are session keys, unless by itself or by one for which session keys are derived. -/
theorem sessionKeys_match {events : List Event}
    (hlib : ∀ t ∈ trace daemonStep .start events, EventConsistent reference publicKey t.event)
    (hk : ∀ t ∈ trace daemonStep .start events, StepKeepsKeys t) :
    ∀ t ∈ trace daemonStep .start events,
      SessionKeysMatch reference publicKey t.pre.globalState ∧
        SessionKeysMatch reference publicKey t.post.globalState := by
  have h : ∀ t ∈ trace daemonStep .start events,
      KeyInv reference publicKey t.pre ∧ KeyInv reference publicKey t.post :=
    trace_invariant (keyInv_of_none .start rfl rfl)
      fun t ht hi => keyInv_step (mem_trace .init ht).2.1 (hlib t ht) (hk t ht) hi
  intro t ht
  exact ⟨(h t ht).1.sessionKeys, (h t ht).2.sessionKeys⟩

/-! ## Stale keys -/

/-- An environment that generates the key pair of a private key. -/
def sampleKeyEnv (priv : Vector UInt8 32) : Env :=
  { sampleEnv with
    ecKeypair := some ⟨some (samplePublicKey priv), some priv⟩
    ecdh := sampleEcdh
    sha256 := sampleDigest }

theorem sampleKeyEnv_consistent (k priv : Vector UInt8 32) :
    Consistent (sampleKeyEnv k) samplePublicKey (sampleKeyEnv priv) where
  keypair := by
    intro pub priv' h
    cases h
    rfl
  ecdh := fun _ _ _ h => h
  sha256 := rfl

/-- A request of a client, with a key pair for the private key. -/
def sampleKeyRequest (priv : ℕ) (func : Func) (param : Bytes) : Event :=
  .request (sampleKeyEnv (octets priv)) ⟨func, param⟩

/-- The APDU of a command. -/
def sampleApdu (command : Bytes) : Bytes :=
  [0x80, 0xE2, 0x91, 0x00, UInt8.ofNat command.length] ++ command

/-- A command that prepares a download. -/
def sampleBf21 : Bytes := sampleApdu [0xBF, 0x21, 0x05, 0x30, 0x03, 0x80, 0x01, 0x05]

/-- A client prepares a download and opens the secure channel. -/
def sampleKeys : List Event :=
  [.accept, sampleKeyRequest 1 .connect [], sampleKeyRequest 1 .logicChannelOpen expectedAid,
    sampleKeyRequest 1 .transmit sampleBf21,
    sampleKeyRequest 1 .transmit
      (sampleApdu ([0xBF, 0x23, 0x47, 0x80, 0x01, 0x05, 0x5F, 0x49, 0x41] ++ sampleSmdpOtpk))]

theorem sampleKeyRequest_consistent (priv : ℕ) (func : Func) (param : Bytes) :
    EventConsistent (sampleKeyEnv (octets 1)) samplePublicKey
      (sampleKeyRequest priv func param) := by
  intro env request h
  cases h
  exact sampleKeyEnv_consistent _ _

theorem sampleKeys_consistent : ∀ event ∈ sampleKeys ++ [sampleKeyRequest 2 .transmit sampleBf21],
    EventConsistent (sampleKeyEnv (octets 1)) samplePublicKey event := by
  have haccept : EventConsistent (sampleKeyEnv (octets 1)) samplePublicKey .accept := by
    intro env request h
    cases h
  simp only [sampleKeys, List.cons_append, List.nil_append, List.forall_mem_cons]
  exact ⟨haccept, sampleKeyRequest_consistent _ _ _, sampleKeyRequest_consistent _ _ _,
    sampleKeyRequest_consistent _ _ _, sampleKeyRequest_consistent _ _ _,
    sampleKeyRequest_consistent _ _ _, by simp⟩

theorem sessionKeys_match_sample : ∃ t ∈ trace daemonStep .start sampleKeys,
    t.post.globalState.sessionKeysDerived = true ∧
      SessionKeysMatch (sampleKeyEnv (octets 1)) samplePublicKey t.post.globalState := by
  have hbefore : ((trace daemonStep .start sampleKeys).all fun t =>
      !t.pre.globalState.sessionKeysDerived) = true := by
    decide +kernel
  have hlast : ((trace daemonStep .start sampleKeys).getLast?.map fun t =>
      t.post.globalState.sessionKeysDerived) = some true := by
    decide +kernel
  obtain ⟨t, ht, hflag⟩ := Option.map_eq_some_iff.1 hlast
  have hmem : t ∈ trace daemonStep .start sampleKeys := List.mem_of_getLast? ht
  have hconsistent : ∀ u ∈ trace daemonStep .start sampleKeys,
      EventConsistent (sampleKeyEnv (octets 1)) samplePublicKey u.event := fun u hu =>
    sampleKeys_consistent _ (List.mem_append_left _ (event_mem_of_mem_trace hu))
  have hkeeps : ∀ u ∈ trace daemonStep .start sampleKeys, StepKeepsKeys u := by
    -- the flag is not set before the last step
    intro u hu env request state cmd c he hin
    obtain ⟨b, rfl⟩ := handlerInput_frame hin
    have hnone : u.pre.globalState.sessionKeysDerived ≠ true := by
      simpa using List.all_eq_true.1 hbefore u hu
    cases c with
    | prepareDownload => exact fun h => absurd h hnone
    | initialiseSecureChannel => exact fun h => absurd h hnone
    | _ => trivial
  exact ⟨t, hmem, hflag, (sessionKeys_match hconsistent hkeeps t hmem).2⟩

/-- **Stale session keys**: a second download is prepared while there are session keys. -/
theorem sessionKeys_stale : ¬ ∀ (reference : Env)
    (publicKey : Vector UInt8 32 → Vector UInt8 65) (events : List Event),
    (∀ t ∈ trace daemonStep .start events, EventConsistent reference publicKey t.event) →
      ∀ t ∈ trace daemonStep .start events,
        SessionKeysMatch reference publicKey t.post.globalState := by
  intro h
  have hall := h (sampleKeyEnv (octets 1)) samplePublicKey
    (sampleKeys ++ [sampleKeyRequest 2 .transmit sampleBf21])
    fun t ht => sampleKeys_consistent _ (event_mem_of_mem_trace ht)
  have hlast : ((trace daemonStep .start
      (sampleKeys ++ [sampleKeyRequest 2 .transmit sampleBf21])).getLast?.map fun t =>
        (t.post.globalState.sessionKeysDerived, t.post.globalState.euiccOtsk,
          t.post.globalState.smdpOtpk, t.post.globalState.sessionKeyEnc)) =
      some (true, some (octets 2), some sampleSmdpOtpk,
        [254, 154, 232, 201, 123, 176, 195, 74, 251, 149, 229, 47, 94, 25, 129, 158]) := by
    decide +kernel
  obtain ⟨t, ht, hfields⟩ := Option.map_eq_some_iff.1 hlast
  simp only [Prod.mk.injEq] at hfields
  obtain ⟨hflag, hsk, hsmdp, henc⟩ := hfields
  obtain ⟨euiccOtsk, smdpOtpk, hsk', hsmdp', hd, -⟩ := hall t (List.mem_of_getLast? ht) hflag
  cases hsk.symm.trans hsk'
  cases hsmdp.symm.trans hsmdp'
  have hderived : (deriveSessionKeysEcka (sampleKeyEnv (octets 1)) (octets 2)
      sampleSmdpOtpk).map Prod.fst ≠
        some [254, 154, 232, 201, 123, 176, 195, 74, 251, 149, 229, 47, 94, 25, 129, 158] := by
    decide +kernel
  rw [hd, Option.map_some, henc] at hderived
  exact hderived rfl

end VirtualRsp.Card
