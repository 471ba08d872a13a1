import VirtualRsp.Card.ProfileStore

/-!
# Invariants of the card

Every event of the daemon does to the list of profiles what one step of the profile store does
(`RequestEffect.storeStep`). What the store keeps therefore holds of the card in every reachable
state (`Reachable.storeInv`): the list in the heap is finite and acyclic, at most one profile is
enabled, and every profile has the form in which it was installed, up to its state.
-/

namespace VirtualRsp.Card

open Run

/-! ## Steps of the store -/

/-- A profile as an installation writes it. -/
structure ProfileMetadata.WellFormed (profile : ProfileMetadata) : Prop where
  iccid : profile.iccid = installIccid
  isdpAid : profile.isdpAid = installAid
  serviceProviderName : profile.serviceProviderName = ascii "OsmocomSPN"
  profileName_ne : profile.profileName ≠ []
  profileName_length : profile.profileName.length ≤ 63
  profileName_nul : 0 ∉ profile.profileName

theorem newProfile_wellFormed (matchingId package : Bytes) :
    (newProfile matchingId package).WellFormed where
  iccid := rfl
  isdpAid := rfl
  serviceProviderName := rfl
  profileName_ne := by
    dsimp only [newProfile]
    split
    · rename_i h
      exact List.ne_nil_of_length_pos (by rw [List.length_take]; omega)
    · decide
  profileName_length := by
    dsimp only [newProfile]
    split
    · rw [List.length_take]; omega
    · decide
  profileName_nul := by
    dsimp only [newProfile]
    split
    · exact fun h => zero_notMem_cstr _ (List.mem_of_mem_take h)
    · decide

theorem ProfileMetadata.WellFormed.setState {profile : ProfileMetadata} (h : profile.WellFormed)
    (state : ProfileState) : (profile.setState state).WellFormed :=
  ⟨h.iccid, h.isdpAid, h.serviceProviderName, h.profileName_ne, h.profileName_length,
    h.profileName_nul⟩

/-- One step of the store. -/
inductive StoreStep (xs : List ProfileMetadata) : List ProfileMetadata → Prop
  | same : StoreStep xs xs
  | clear : StoreStep xs []
  | install (matchingId : Bytes) {package : Bytes} (hp : package ≠ []) :
      StoreStep xs (newProfile matchingId package :: xs)
  | enable (P : ProfileMetadata → Bool) : StoreStep xs (enableFirst P xs).1
  | disable (P : ProfileMetadata → Bool) : StoreStep xs (disableFirst P xs).1
  | delete (P : ProfileMetadata → Bool) : StoreStep xs (deleteFirst P xs).1

/-- What holds of every store. -/
structure StoreInv (xs : List ProfileMetadata) : Prop where
  atMostOne : AtMostOneEnabled xs
  wellFormed : ∀ x ∈ xs, x.WellFormed

theorem mem_enableFirst {P : ProfileMetadata → Bool} {xs : List ProfileMetadata}
    {y : ProfileMetadata} (h : y ∈ (enableFirst P xs).1) :
    y ∈ xs ∨ ∃ x ∈ xs, ∃ state, y = x.setState state := by
  rw [enableFirst] at h
  split at h
  · exact .inl h
  · rename_i pre x post hm
    obtain ⟨rfl, -, -⟩ := firstMatch_some.1 hm
    simp only [List.mem_append, List.mem_map, List.mem_cons] at h
    refine .inr ?_
    obtain ⟨z, hz, rfl⟩ | rfl | ⟨z, hz, rfl⟩ := h
    · exact ⟨z, by simp [hz], _, rfl⟩
    · exact ⟨x, by simp, _, rfl⟩
    · exact ⟨z, by simp [hz], _, rfl⟩

theorem mem_disableFirst {P : ProfileMetadata → Bool} {xs : List ProfileMetadata}
    {y : ProfileMetadata} (h : y ∈ (disableFirst P xs).1) :
    y ∈ xs ∨ ∃ x ∈ xs, ∃ state, y = x.setState state := by
  rw [disableFirst] at h
  split at h
  · exact .inl h
  · rename_i pre x post hm
    obtain ⟨rfl, -, -⟩ := firstMatch_some.1 hm
    split_ifs at h
    · exact .inl h
    · simp only [List.mem_append, List.mem_cons] at h
      obtain h | rfl | h := h
      · exact .inl (by simp [h])
      · exact .inr ⟨x, by simp, _, rfl⟩
      · exact .inl (by simp [h])

theorem mem_deleteFirst {P : ProfileMetadata → Bool} {xs : List ProfileMetadata}
    {y : ProfileMetadata} (h : y ∈ (deleteFirst P xs).1) : y ∈ xs := by
  rw [deleteFirst] at h
  split at h
  · exact h
  · rename_i pre x post hm
    obtain ⟨rfl, -, -⟩ := firstMatch_some.1 hm
    split_ifs at h
    · exact h
    · simp only [List.mem_append, List.mem_cons] at h ⊢
      tauto

/-- **The store's invariant** is kept by every step. -/
theorem StoreStep.inv {xs ys : List ProfileMetadata} (h : StoreStep xs ys) (hi : StoreInv xs) :
    StoreInv ys := by
  have hset : ∀ y, (y ∈ xs ∨ ∃ x ∈ xs, ∃ state, y = x.setState state) → y.WellFormed := by
    rintro y (hy | ⟨x, hx, state, rfl⟩)
    · exact hi.wellFormed y hy
    · exact (hi.wellFormed x hx).setState state
  cases h with
  | same => exact hi
  | clear => exact ⟨Nat.zero_le _, by simp⟩
  | install matchingId hp =>
    refine ⟨?_, ?_⟩
    · have h := hi.atMostOne
      rw [AtMostOneEnabled, List.countP_cons_of_neg (by simp [newProfile])]
      exact h
    · intro x hx
      rcases List.mem_cons.1 hx with rfl | hx
      · exact newProfile_wellFormed _ _
      · exact hi.wellFormed x hx
  | enable P => exact ⟨enable_atMostOne hi.atMostOne, fun y hy => hset y (mem_enableFirst hy)⟩
  | disable P => exact ⟨disable_atMostOne hi.atMostOne, fun y hy => hset y (mem_disableFirst hy)⟩
  | delete P =>
    exact ⟨delete_atMostOne hi.atMostOne, fun y hy => hi.wellFormed y (mem_deleteFirst hy)⟩

/-! ## Steps of the daemon -/

variable {env : Env} {s s' : EuiccState} {request : Request} {response : Response}
  {xs : List (ℕ × ProfileMetadata)}

/-- The step of a management command on the heap is a step of the store. -/
theorem Management.storeStep {c : Es10xCommand} {tag : ℕ}
    {step : LinkedList ProfileMetadata → Target → Option (LinkedList ProfileMetadata × UInt8)}
    (hm : Management c tag step) {l l' : LinkedList ProfileMetadata} {target : Target}
    {code : UInt8} (hl : l.Repr xs) (hs : step l target = some (l', code)) :
    (∃ ys, l'.Repr ys ∧ StoreStep (xs.map Prod.snd) (ys.map Prod.snd)) ∧ (code ≠ 0 → l' = l) := by
  have key : ∀ op, Refines step op → (∀ P zs, StoreStep zs (op P zs).1) →
      (∃ ys, l'.Repr ys ∧ StoreStep (xs.map Prod.snd) (ys.map Prod.snd)) ∧
        (code ≠ 0 → l' = l) := by
    intro op href hop
    obtain ⟨l₁, code₁, ys, h₁, hr, ho, hc⟩ := href target hl
    rw [hs] at h₁
    cases h₁
    refine ⟨⟨ys, hr, ?_⟩, hc⟩
    have := hop target.matches (xs.map Prod.snd)
    rwa [ho] at this
  cases hm with
  | enable => exact key _ enableStep_refines fun P zs => .enable P
  | disable => exact key _ disableStep_refines fun P zs => .disable P
  | delete => exact key _ deleteStep_refines fun P zs => .delete P

theorem ProfilesEffect.storeStep {r : Option Bytes} {c : Es10xCommand}
    (h : ProfilesEffect s s' r c) (hl : s.profiles.Repr xs) :
    ∃ ys, s'.profiles.Repr ys ∧ StoreStep (xs.map Prod.snd) (ys.map Prod.snd) := by
  cases h with
  | same h => exact ⟨xs, h ▸ hl, .same⟩
  | install matchingId hp h => exact ⟨_, h ▸ LinkedList.push_repr hl _, .install _ hp⟩
  | manage hm hs hr => exact (hm.storeStep hl hs).1

/-- **A request** does to the profiles what a step of the store does. -/
theorem RequestEffect.storeStep (h : RequestEffect env s s' request response)
    (hl : s.profiles.Repr xs) :
    ∃ ys, s'.profiles.Repr ys ∧ StoreStep (xs.map Prod.snd) (ys.map Prod.snd) := by
  cases h with
  | same h hn => exact ⟨xs, h ▸ hl, .same⟩
  | session hf h hn => exact ⟨[], h ▸ LinkedList.empty_repr, .clear⟩
  | command hc hh hr =>
    exact (handle_profilesEffect hh).storeStep (s := { s with segmentBuffer := _ }) hl

/-- A step of the daemon: the first client is let in, another client is let in, or a request is
served. -/
theorem daemonStep_cases {daemon daemon' : Daemon} {event : Event}
    (h : daemonStep daemon event = some daemon') :
    (event = .accept ∧ daemon.globalStateInitialized = false ∧ daemon' = ⟨euiccStateInit, true⟩) ∨
      (event = .accept ∧ daemon.globalStateInitialized = true ∧ daemon' = daemon) ∨
      ∃ env request state response, event = .request env request ∧
        daemon.globalStateInitialized = true ∧
        handleRequest env daemon.globalState request = some (state, response) ∧
        daemon' = ⟨state, true⟩ := by
  cases event with
  | accept =>
    rw [daemonStep] at h
    split_ifs at h with hi
    · cases h; exact .inr (.inl ⟨rfl, hi, rfl⟩)
    · cases h; exact .inl ⟨rfl, by simpa using hi, rfl⟩
  | request env request =>
    rw [daemonStep] at h
    split_ifs at h with hi
    obtain ⟨⟨state, response⟩, hh, rfl⟩ := Option.map_eq_some_iff.1 h
    exact .inr (.inr ⟨env, request, state, response, rfl, hi, hh, rfl⟩)

/-- What holds of every reachable daemon: its list of profiles represents a store with the store's
invariant; before the first client it is as at the start, and then the sequence number is the
initial one. -/
structure DaemonInv (daemon : Daemon) : Prop where
  profiles : ∃ xs, daemon.globalState.profiles.Repr xs ∧ StoreInv (xs.map Prod.snd)
  start : daemon.globalStateInitialized = false → daemon = .start
  seqNumber : daemon.globalStateInitialized = true → daemon.globalState.notificationSeqNumber = 1

theorem RequestEffect.seqNumber (h : RequestEffect env s s' request response)
    (hn : s.notificationSeqNumber = 1) : s'.notificationSeqNumber = 1 := by
  cases h with
  | same _ h => exact h.trans hn
  | session _ _ h => exact h.elim (·.trans hn) id
  | command _ hh _ => exact (handle_keeps hh).1.trans hn

/-- **Every reachable state** of the daemon satisfies the invariant. -/
theorem daemonInv_of_reachable {daemon : Daemon} (h : Reachable daemonStep .start daemon) :
    DaemonInv daemon := by
  have hempty : StoreInv (([] : List (ℕ × ProfileMetadata)).map Prod.snd) :=
    ⟨Nat.zero_le _, by simp⟩
  refine h.invariant ⟨⟨[], LinkedList.empty_repr, hempty⟩, fun _ => rfl, fun h => by cases h⟩ ?_
  rintro d e d' - ⟨⟨xs, hl, hi⟩, h0, hn⟩ hs
  obtain ⟨-, -, rfl⟩ | ⟨-, -, rfl⟩ | ⟨env, request, state, response, -, hinit, hh, rfl⟩ :=
    daemonStep_cases hs
  · exact ⟨⟨[], LinkedList.empty_repr, hempty⟩, by simp, fun _ => rfl⟩
  · exact ⟨⟨xs, hl, hi⟩, h0, hn⟩
  · obtain ⟨ys, hys, hst⟩ := (handleRequest_effect hh).storeStep hl
    exact ⟨⟨ys, hys, hst.inv hi⟩, by simp, fun _ => (handleRequest_effect hh).seqNumber (hn hinit)⟩

/-! ## A sample run -/

/-- An environment in which every file can be read, every signature is `(1, 1)`, and the fresh key
pair is the one of the private key 1. -/
def sampleEnv : Env where
  trailing := []
  rand _ := 0
  uninit := Vector.replicate 13 0
  ecKeypair := some ⟨some (samplePublicKey (octets 1)), some (octets 1)⟩
  sign _ _ := some (1, 1)
  ecdh := sampleEcdh
  sha256 := sampleDigest
  file _ := some [0x30, 0x00]
  pemReadPrivateKey _ := some 1

/-- A client connects, opens the channel, and sends a package of one byte with tag `A3`. -/
def sampleInstall : List Event :=
  [.accept, .request sampleEnv ⟨.connect, []⟩,
    .request sampleEnv ⟨.logicChannelOpen, expectedAid⟩,
    .request sampleEnv ⟨.transmit, [0x80, 0xE2, 0x91, 0x00, 0x03, 0xA3, 0x01, 0x55]⟩]

end VirtualRsp.Card
