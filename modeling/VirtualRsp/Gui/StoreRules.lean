import VirtualRsp.Gui.ProfileStore

/-!
# The rules of the profile store

The store promises that at most one profile is enabled and that an enabled profile is not deleted;
profiles are told apart by their `matching_id`, unless it is empty.

* `findTarget_eq_some`: the searches of the store find the first match.
* `enableProfile_cases` and the like: what a call can do.
* `rules_iff`: the rules hold along a run exactly if no call adds an enabled profile next to one
  that is enabled; `add_profile` keeps the state of the profile it adds.
-/

namespace VirtualRsp.Gui.ProfileStore

open Run

/-! ## Searches -/

/-- What a search finds is the first match. -/
theorem findTarget_eq_some {cond : Profile → Bool} {profiles : List Profile} {p : Profile} {k : ℕ} :
    findTarget cond profiles = some (p, k) ↔ profiles[k]? = some p ∧ cond p = true ∧
      ∀ j < k, ∀ q, profiles[j]? = some q → cond q = false := by
  unfold findTarget
  rw [List.find?_eq_some_iff_getElem]
  constructor
  · rintro ⟨hp, i, hi, he, hlt⟩
    simp only [List.length_zipIdx] at hi
    simp only [List.getElem_zipIdx, Nat.zero_add, Prod.mk.injEq] at he
    obtain ⟨rfl, rfl⟩ := he
    refine ⟨List.getElem?_eq_getElem hi, hp, fun j hj q hq => ?_⟩
    obtain ⟨hjl, rfl⟩ := List.getElem?_eq_some_iff.1 hq
    simpa using hlt j hj
  · rintro ⟨hk, hp, hlt⟩
    obtain ⟨hkl, rfl⟩ := List.getElem?_eq_some_iff.1 hk
    refine ⟨hp, k, by simpa using hkl, by simp, fun j hj => ?_⟩
    simpa using hlt j hj _ (List.getElem?_eq_getElem (by omega))

theorem findTarget_eq_none {cond : Profile → Bool} {profiles : List Profile} :
    findTarget cond profiles = none ↔ ∀ p ∈ profiles, cond p = false := by
  unfold findTarget
  rw [List.find?_eq_none]
  constructor
  · intro h p hp
    obtain ⟨k, hk, rfl⟩ := List.getElem_of_mem hp
    have := h (profiles[k], k) (List.mk_mem_zipIdx_iff_getElem?.2 (List.getElem?_eq_getElem hk))
    simpa using this
  · rintro h ⟨p, k⟩ hp
    have := h p (List.mem_of_getElem? (List.mk_mem_zipIdx_iff_getElem?.1 hp))
    simp [this]

/-! ## The calls, one after the other -/

/-- Set the EID. -/
def setEid (eid now : String) (data : ProfileDb) : ProfileDb :=
  writeAtomic now { data with eid := eid }

/-- The contents of a new file. -/
def initialDb (now : String) : ProfileDb :=
  { eid := "89049032001001234500012345678901", profiles := [], lastModified := now }

/-- The calls that write. -/
inductive Request
  | operation (op : Operation) (now : String)
  | setEid (eid now : String)

/-- What a call returns and leaves; `set_eid` returns nothing. -/
def serve (data : ProfileDb) : Request → Option Returned × ProfileDb
  | .operation op now =>
    let (returned, written) := call (op, now) data
    (some returned, written.getD data)
  | .setEid eid now => (none, setEid eid now data)

/-- One call. -/
def step (data : ProfileDb) (request : Request) : Option ProfileDb := some (serve data request).2

/-- Whether a call has returned `False`. -/
def refused : Returned → Bool
  | .added success => !success
  | .done success _ => !success

/-- What `enable_profile` leaves when it enables the profile at an index. -/
def enabledAt (k : ℕ) (profiles : List Profile) : List Profile :=
  (profiles.mapIdx fun i p =>
    if i ≠ k && p.state = ProfileState.ENABLED then { p with state := ProfileState.DISABLED }
    else p).modify k fun p => { p with state := ProfileState.ENABLED }

/-- What `disable_profile` leaves when it disables the profile at an index. -/
def disabledAt (k : ℕ) (profiles : List Profile) : List Profile :=
  profiles.modify k fun p => { p with state := ProfileState.DISABLED }

@[simp] theorem length_enabledAt (k : ℕ) (profiles : List Profile) :
    (enabledAt k profiles).length = profiles.length := by
  simp [enabledAt]

@[simp] theorem length_disabledAt (k : ℕ) (profiles : List Profile) :
    (disabledAt k profiles).length = profiles.length := by
  simp [disabledAt]

theorem getElem?_enabledAt (k i : ℕ) (profiles : List Profile) :
    (enabledAt k profiles)[i]? = profiles[i]?.map fun p =>
      if k = i then { p with state := ProfileState.ENABLED }
      else if p.state = ProfileState.ENABLED then { p with state := ProfileState.DISABLED }
      else p := by
  rw [enabledAt, List.getElem?_modify, List.getElem?_mapIdx]
  cases profiles[i]? with
  | none => rfl
  | some p => by_cases hk : k = i <;> simp [hk, eq_comm]

theorem getElem?_disabledAt (k i : ℕ) (profiles : List Profile) :
    (disabledAt k profiles)[i]? = profiles[i]?.map fun p =>
      if k = i then { p with state := ProfileState.DISABLED } else p := by
  rw [disabledAt, List.getElem?_modify]
  rcases Nat.decEq k i with hk | hk <;> simp [hk]

theorem enableProfile_cases (iccid isdpAid : Option String) (now : String) (data : ProfileDb) :
    enableProfile iccid isdpAid now data = (.done false "Profile not found", none) ∨
      ∃ k, enableProfile iccid isdpAid now data = (.done true "Profile enabled",
        some (writeAtomic now { data with profiles := enabledAt k data.profiles })) := by
  unfold enableProfile
  split
  · exact .inl rfl
  · exact .inr ⟨_, rfl⟩

theorem disableProfile_cases (iccid isdpAid : Option String) (now : String) (data : ProfileDb) :
    (∃ message, disableProfile iccid isdpAid now data = (.done false message, none)) ∨
      ∃ k, disableProfile iccid isdpAid now data = (.done true "Profile disabled",
        some (writeAtomic now { data with profiles := disabledAt k data.profiles })) := by
  unfold disableProfile
  split
  · exact .inl ⟨_, rfl⟩
  · split
    · exact .inl ⟨_, rfl⟩
    · exact .inr ⟨_, rfl⟩

theorem deleteProfile_cases (iccid isdpAid matchingId : Option String) (now : String)
    (data : ProfileDb) :
    (∃ message, deleteProfile iccid isdpAid matchingId now data = (.done false message, none)) ∨
      ∃ k target, data.profiles[k]? = some target ∧ target.state ≠ ProfileState.ENABLED ∧
        deleteProfile iccid isdpAid matchingId now data = (.done true "Profile deleted",
          some (writeAtomic now { data with profiles := data.profiles.eraseIdx k })) := by
  unfold deleteProfile
  split
  · exact .inl ⟨_, rfl⟩
  · rename_i target k hk
    split
    · exact .inl ⟨_, rfl⟩
    · rename_i hs
      exact .inr ⟨k, target, (findTarget_eq_some.1 hk).1, hs, rfl⟩

/-! ## The rules -/

/-- At most one profile is enabled, and matching ids that are not empty belong to one profile. -/
structure Rules (profiles : List Profile) : Prop where
  oneEnabled : profiles.Pairwise fun p q =>
    ¬ (p.state = ProfileState.ENABLED ∧ q.state = ProfileState.ENABLED)
  distinctIds : (profiles.map Profile.matchingId).Pairwise fun a b => a ≠ "" → a ≠ b

/-- What the rules ask of a call: they hold afterwards, a call that returns `False` leaves the
profiles unchanged, and a deletion leaves every profile that is enabled. -/
structure Kept (t : Step ProfileDb Request) : Prop where
  rules : Rules t.post.profiles
  refused : ∀ r, (serve t.pre t.event).1 = some r → refused r = true →
    t.post.profiles = t.pre.profiles
  deleted : ∀ iccid isdpAid matchingId now,
    t.event = .operation (.deleteProfile iccid isdpAid matchingId) now →
      t.post.profiles.filter (fun p => p.state = ProfileState.ENABLED) =
        t.pre.profiles.filter (fun p => p.state = ProfileState.ENABLED)

/-- A profile that is added is not enabled, or none is, or its matching id is taken. -/
def Admissible (t : Step ProfileDb Request) : Prop :=
  ∀ profile now, t.event = .operation (.addProfile profile) now →
    profile.state = ProfileState.ENABLED →
      (∀ existing ∈ t.pre.profiles, existing.state ≠ ProfileState.ENABLED) ∨
        profile.matchingId ≠ "" ∧
          ∃ existing ∈ t.pre.profiles, existing.matchingId = profile.matchingId

theorem Rules.nil : Rules [] := ⟨by simp, by simp⟩

theorem Rules.sublist {profiles profiles' : List Profile} (h : Rules profiles)
    (hs : profiles'.Sublist profiles) : Rules profiles' :=
  ⟨h.oneEnabled.sublist hs, h.distinctIds.sublist (hs.map _)⟩

/-- Enabling changes nothing but states. -/
theorem map_enabledAt {α : Type*} {f : Profile → α} (hf : ∀ p s, f { p with state := s } = f p)
    (k : ℕ) (profiles : List Profile) : (enabledAt k profiles).map f = profiles.map f := by
  apply List.ext_getElem?
  intro i
  rw [List.getElem?_map, List.getElem?_map, getElem?_enabledAt, Option.map_map]
  congr 1
  funext p
  simp only [Function.comp_apply]
  split
  · exact hf p _
  · split
    · exact hf p _
    · rfl

/-- Disabling changes nothing but states. -/
theorem map_disabledAt {α : Type*} {f : Profile → α} (hf : ∀ p s, f { p with state := s } = f p)
    (k : ℕ) (profiles : List Profile) : (disabledAt k profiles).map f = profiles.map f := by
  apply List.ext_getElem?
  intro i
  rw [List.getElem?_map, List.getElem?_map, getElem?_disabledAt, Option.map_map]
  congr 1
  funext p
  simp only [Function.comp_apply]
  split
  · exact hf p _
  · rfl

theorem disabled_ne_enabled : ProfileState.DISABLED ≠ ProfileState.ENABLED := by decide

/-- After `enable_profile` only its target can be enabled. -/
theorem enabledAt_state {k i : ℕ} {profiles : List Profile} {p : Profile}
    (h : (enabledAt k profiles)[i]? = some p) (hp : p.state = ProfileState.ENABLED) : k = i := by
  rw [getElem?_enabledAt, Option.map_eq_some_iff] at h
  obtain ⟨q, -, rfl⟩ := h
  by_contra hk
  rw [if_neg hk] at hp
  split at hp
  · exact absurd hp disabled_ne_enabled
  · contradiction

theorem Rules.enabledAt {profiles : List Profile} (h : Rules profiles) (k : ℕ) :
    Rules (enabledAt k profiles) := by
  refine ⟨?_, by rw [map_enabledAt fun _ _ => rfl]; exact h.distinctIds⟩
  rw [List.pairwise_iff_getElem]
  rintro i j hi hj hij ⟨hp, hq⟩
  have hki := enabledAt_state (List.getElem?_eq_getElem hi) hp
  have hkj := enabledAt_state (List.getElem?_eq_getElem hj) hq
  omega

theorem disabledAt_state {k i : ℕ} {profiles : List Profile} {p : Profile}
    (h : (disabledAt k profiles)[i]? = some p) (hp : p.state = ProfileState.ENABLED) :
    profiles[i]? = some p := by
  rw [getElem?_disabledAt, Option.map_eq_some_iff] at h
  obtain ⟨q, hq, rfl⟩ := h
  split at hp
  · exact absurd hp disabled_ne_enabled
  · rename_i hk
    rw [if_neg hk, hq]

theorem Rules.disabledAt {profiles : List Profile} (h : Rules profiles) (k : ℕ) :
    Rules (disabledAt k profiles) := by
  refine ⟨?_, by rw [map_disabledAt fun _ _ => rfl]; exact h.distinctIds⟩
  have h1 := List.pairwise_iff_getElem.1 h.oneEnabled
  rw [List.pairwise_iff_getElem]
  rintro i j hi hj hij ⟨hp, hq⟩
  have hpi := List.getElem?_eq_some_iff.1 (disabledAt_state (List.getElem?_eq_getElem hi) hp)
  have hqj := List.getElem?_eq_some_iff.1 (disabledAt_state (List.getElem?_eq_getElem hj) hq)
  obtain ⟨hi', hpi⟩ := hpi
  obtain ⟨hj', hqj⟩ := hqj
  exact h1 i j hi' hj' hij ⟨hpi ▸ hp, hqj ▸ hq⟩

theorem Rules.eraseIdx {profiles : List Profile} (h : Rules profiles) (k : ℕ) :
    Rules (profiles.eraseIdx k) :=
  h.sublist (List.eraseIdx_sublist _ _)

theorem rules_append_singleton {profiles : List Profile} {p : Profile} (h : Rules profiles) :
    Rules (profiles ++ [p]) ↔
      (∀ q ∈ profiles, ¬ (q.state = ProfileState.ENABLED ∧ p.state = ProfileState.ENABLED)) ∧
        ∀ q ∈ profiles, q.matchingId ≠ "" → q.matchingId ≠ p.matchingId := by
  constructor
  · rintro ⟨h1, h2⟩
    rw [List.pairwise_append] at h1
    rw [List.map_append, List.pairwise_append] at h2
    exact ⟨fun q hq => h1.2.2 q hq p (by simp),
      fun q hq => h2.2.2 _ (List.mem_map_of_mem hq) _ (by simp)⟩
  · rintro ⟨h1, h2⟩
    refine ⟨?_, ?_⟩
    · rw [List.pairwise_append]
      exact ⟨h.oneEnabled, by simp, by simpa using h1⟩
    · rw [List.map_append, List.pairwise_append]
      exact ⟨h.distinctIds, by simp, by simpa using h2⟩

theorem filter_eraseIdx {p : Profile → Bool} {profiles : List Profile} {k : ℕ} {target : Profile}
    (hk : profiles[k]? = some target) (hp : p target = false) :
    (profiles.eraseIdx k).filter p = profiles.filter p := by
  induction profiles generalizing k with
  | nil => rfl
  | cons q profiles ih =>
    cases k with
    | zero =>
      simp only [List.getElem?_cons_zero, Option.some.injEq] at hk
      subst hk
      rw [List.eraseIdx_cons_zero, List.filter_cons_of_neg (by simp [hp])]
    | succ k =>
      rw [List.getElem?_cons_succ] at hk
      simp only [List.eraseIdx_cons_succ, List.filter_cons, ih hk]

theorem kept_setEid {pre : ProfileDb} (hr : Rules pre.profiles) (eid now : String) :
    Kept ⟨pre, .setEid eid now, (serve pre (.setEid eid now)).2⟩ where
  rules := hr
  refused := by
    intro r h
    cases h
  deleted := by
    intro iccid isdpAid matchingId now' he
    cases he

theorem kept_enableProfile {pre : ProfileDb} (hr : Rules pre.profiles)
    (iccid isdpAid : Option String) (now : String) :
    Kept ⟨pre, .operation (.enableProfile iccid isdpAid) now,
      (serve pre (.operation (.enableProfile iccid isdpAid) now)).2⟩ := by
  rcases enableProfile_cases iccid isdpAid now pre with
    h | ⟨k, h⟩
  · refine ⟨?_, ?_, ?_⟩
    · simpa [serve, call, h] using hr
    · simp [serve, call, h]
    · intro iccid' isdpAid' matchingId now' he
      cases he
  · refine ⟨?_, ?_, ?_⟩
    · simpa [serve, call, h, writeAtomic] using hr.enabledAt k
    · simp [serve, call, h, refused]
    · intro iccid' isdpAid' matchingId now' he
      cases he

theorem kept_disableProfile {pre : ProfileDb} (hr : Rules pre.profiles)
    (iccid isdpAid : Option String) (now : String) :
    Kept ⟨pre, .operation (.disableProfile iccid isdpAid) now,
      (serve pre (.operation (.disableProfile iccid isdpAid) now)).2⟩ := by
  rcases disableProfile_cases iccid isdpAid now pre with
    ⟨message, h⟩ | ⟨k, h⟩
  · refine ⟨?_, ?_, ?_⟩
    · simpa [serve, call, h] using hr
    · simp [serve, call, h]
    · intro iccid' isdpAid' matchingId now' he
      cases he
  · refine ⟨?_, ?_, ?_⟩
    · simpa [serve, call, h, writeAtomic] using hr.disabledAt k
    · simp [serve, call, h, refused]
    · intro iccid' isdpAid' matchingId now' he
      cases he

theorem kept_deleteProfile {pre : ProfileDb} (hr : Rules pre.profiles)
    (iccid isdpAid matchingId : Option String) (now : String) :
    Kept ⟨pre, .operation (.deleteProfile iccid isdpAid matchingId) now,
      (serve pre (.operation (.deleteProfile iccid isdpAid matchingId) now)).2⟩ := by
  rcases deleteProfile_cases iccid isdpAid matchingId now pre with
    ⟨message, h⟩ | ⟨k, target, hk, ht, h⟩
  · refine ⟨?_, ?_, ?_⟩
    · simpa [serve, call, h] using hr
    · simp [serve, call, h]
    · simp [serve, call, h]
  · refine ⟨?_, ?_, ?_⟩
    · simpa [serve, call, h, writeAtomic] using hr.eraseIdx k
    · simp [serve, call, h, refused]
    · intro _ _ _ _ _
      simpa [serve, call, h, writeAtomic] using filter_eraseIdx hk (by simpa using ht)

theorem addProfile_cases (profile : Profile) (now : String) (data : ProfileDb) :
    ((profile.matchingId ≠ "" ∧ ∃ existing ∈ data.profiles,
        existing.matchingId = profile.matchingId) ∧
      addProfile profile now data = (.added false, none)) ∨
    (∀ existing ∈ data.profiles, existing.matchingId ≠ "" →
        existing.matchingId ≠ profile.matchingId) ∧
      addProfile profile now data = (.added true,
        some (writeAtomic now { data with profiles := data.profiles ++ [profile] })) := by
  unfold addProfile
  split
  · rename_i h
    obtain ⟨q, hq, hqm⟩ := List.any_eq_true.1 h
    simp only [Bool.and_eq_true, decide_eq_true_eq] at hqm
    exact .inl ⟨⟨hqm.2, q, hq, hqm.1⟩, rfl⟩
  · rename_i h
    refine .inr ⟨fun q hq hne he => h (List.any_eq_true.2 ⟨q, hq, ?_⟩), rfl⟩
    simp only [Bool.and_eq_true, decide_eq_true_eq]
    exact ⟨he, he ▸ hne⟩

theorem kept_addProfile_iff {pre : ProfileDb} (hr : Rules pre.profiles) (profile : Profile)
    (now : String) :
    Kept ⟨pre, .operation (.addProfile profile) now,
        (serve pre (.operation (.addProfile profile) now)).2⟩ ↔
      (profile.state = ProfileState.ENABLED →
        (∀ existing ∈ pre.profiles, existing.state ≠ ProfileState.ENABLED) ∨
          profile.matchingId ≠ "" ∧
            ∃ existing ∈ pre.profiles, existing.matchingId = profile.matchingId) := by
  rcases addProfile_cases profile now pre with
    ⟨htaken, h⟩ | ⟨hnew, h⟩
  · refine ⟨fun _ _ => .inr htaken, fun _ => ⟨?_, ?_, ?_⟩⟩
    · simpa [serve, call, h] using hr
    · simp [serve, call, h]
    · intro iccid isdpAid matchingId now' he
      cases he
  · have hpost : (serve pre (.operation (.addProfile profile) now)).2.profiles =
        pre.profiles ++ [profile] := by
      simp only [serve, call, h, Option.getD_some, writeAtomic]
    constructor
    · intro hk hp
      have hrules := hk.rules
      simp only [hpost] at hrules
      exact .inl fun q hq hqe => ((rules_append_singleton hr).1 hrules).1 q hq ⟨hqe, hp⟩
    · intro hadm
      refine ⟨?_, ?_, ?_⟩
      · simp only [hpost]
        refine (rules_append_singleton hr).2 ⟨?_, hnew⟩
        rintro q hq ⟨hqe, hpe⟩
        rcases hadm hpe with hnone | ⟨hne, q', hq', he⟩
        · exact hnone q hq hqe
        · exact hnew q' hq' (he ▸ hne) he
      · simp [serve, call, h, refused]
      · intro iccid isdpAid matchingId now' he
        cases he

/-- A call is as the rules ask, or it adds a profile that breaks them. -/
theorem kept_iff {t : Step ProfileDb Request} (hr : Rules t.pre.profiles)
    (hs : step t.pre t.event = some t.post) : Kept t ↔ Admissible t := by
  obtain ⟨pre, event, post⟩ := t
  obtain rfl : (serve pre event).2 = post := Option.some.inj hs
  cases event with
  | setEid eid now =>
    refine iff_of_true (kept_setEid hr eid now) ?_
    intro profile now' he
    cases he
  | operation op now =>
    cases op with
    | addProfile profile =>
      rw [kept_addProfile_iff hr]
      constructor
      · intro h profile' now' he
        cases he
        exact h
      · intro h
        exact h profile now rfl
    | enableProfile iccid isdpAid =>
      refine iff_of_true (kept_enableProfile hr iccid isdpAid now) ?_
      intro profile now' he
      cases he
    | disableProfile iccid isdpAid =>
      refine iff_of_true (kept_disableProfile hr iccid isdpAid now) ?_
      intro profile now' he
      cases he
    | deleteProfile iccid isdpAid matchingId =>
      refine iff_of_true (kept_deleteProfile hr iccid isdpAid matchingId now) ?_
      intro profile now' he
      cases he

/-- As long as every call is as the rules ask up to a point, they hold at the start of it. -/
theorem forall_kept_iff {data : ProfileDb} (hr : Rules data.profiles) (requests : List Request) :
    (∀ t ∈ trace step data requests, Kept t) ↔ ∀ t ∈ trace step data requests, Admissible t := by
  induction requests generalizing data with
  | nil => simp [trace]
  | cons request requests ih =>
    have hstep : step data request = some (serve data request).2 := rfl
    have hiff : Kept ⟨data, request, (serve data request).2⟩ ↔
        Admissible ⟨data, request, (serve data request).2⟩ := kept_iff hr hstep
    simp only [trace, hstep, List.forall_mem_cons]
    constructor
    · rintro ⟨hk, hks⟩
      exact ⟨hiff.1 hk, (ih hk.rules).1 hks⟩
    · rintro ⟨ha, has⟩
      have hk := hiff.2 ha
      exact ⟨hk, (ih hk.rules).2 has⟩

/-- **The rules of the store**: from a new file, all calls of a run are as the rules ask exactly if
no call adds an enabled profile with a new or empty matching id while a profile is enabled. -/
theorem rules_iff (now : String) (requests : List Request) :
    (∀ t ∈ trace step (initialDb now) requests, Kept t) ↔
      ∀ t ∈ trace step (initialDb now) requests, Admissible t :=
  forall_kept_iff Rules.nil requests

/-- **Two enabled profiles**: both are added as enabled. -/
theorem rules_fail : ¬ ∀ (now : String) (requests : List Request),
    ∀ t ∈ trace step (initialDb now) requests, Kept t := by
  intro h
  have hk := h "2025-01-01T00:00:00Z"
    [.operation (.addProfile { sampleProfile "TS48v1_A" with state := ProfileState.ENABLED })
      "2025-01-01T00:00:01Z",
     .operation (.addProfile { sampleProfile "TS48v2_A" with state := ProfileState.ENABLED })
      "2025-01-01T00:00:02Z"] _ (List.mem_cons_of_mem _ (List.mem_cons_self ..))
  have hne := hk.rules.oneEnabled
  exact absurd hne (by decide)

end VirtualRsp.Gui.ProfileStore
