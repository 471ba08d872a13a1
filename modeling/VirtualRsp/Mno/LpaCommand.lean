import Mathlib.Data.Nat.Find
import VirtualRsp.Gui.StoreRules

/-!
# The operator's command service

`LpaCommandService` takes the profile that the user has chosen by its ICCID. Several profiles have
the same one: every download of the control panel is recorded with the ICCID of the test profiles.

* `reachable_entries`: the ICCIDs of the profiles that the download paths add are not empty, and
  their matching ids are distinct unless they are empty.
* `chosen_iff`: the commands hit a profile exactly if it is the first one with its ICCID and has a
  matching id.
-/

namespace VirtualRsp.Mno

open Gui Gui.ProfileStore Run

/-! ## The commands -/

/-- The first profile with an ICCID, an ISD-P AID or a matching id. The ICCID only counts without a
matching id. -/
def getProfile (iccid isdpAid matchingId : Option String) (data : ProfileDb) : Option Profile :=
  data.profiles.find? fun p => matchesArg matchingId p.matchingId ||
    (matchesArg iccid p.iccid && !given matchingId || matchesArg isdpAid p.isdpAid)

namespace LpaCommandService

/-- A call of the store, with what it leaves. -/
def run (data : ProfileDb) (outcome : Returned × Option ProfileDb) : (Bool × String) × ProfileDb :=
  match outcome with
  | (.done success message, written) => ((success, message), written.getD data)
  | (.added success, written) => ((success, ""), written.getD data)

/-- Enable the profile with an ICCID. The card's answer to the command that follows is ignored. -/
def enableProfile (iccid now : String) (data : ProfileDb) : (Bool × String) × ProfileDb :=
  let ((success, msg), data) := run data (ProfileStore.enableProfile (some iccid) none now data)
  if !success then ((false, msg), data)
  else ((true, s!"Profile {iccid} enabled"), data)

/-- Disable the profile with an ICCID. -/
def disableProfile (iccid now : String) (data : ProfileDb) : (Bool × String) × ProfileDb :=
  let ((success, msg), data) := run data (ProfileStore.disableProfile (some iccid) none now data)
  if !success then ((false, msg), data)
  else ((true, s!"Profile {iccid} disabled"), data)

/-- Delete the profile with an ICCID, by its matching id. -/
def deleteProfile (iccid now : String) (data : ProfileDb) : (Bool × String) × ProfileDb :=
  match getProfile (some iccid) none none data with
  | none => ((false, "Profile not found"), data)
  | some profile =>
    let ((success, msg), data) :=
      run data (ProfileStore.deleteProfile none none (some profile.matchingId) now data)
    if !success then ((false, msg), data)
    else ((true, s!"Profile {iccid} deleted"), data)

end LpaCommandService

/-! ## The download paths -/

/-- `s.ljust(width, fillchar)`. -/
def ljust (width : ℕ) (fillchar : Char) (s : List Char) : List Char :=
  s ++ List.replicate (width - s.length) fillchar

/-- The ICCID that `download_profile` makes up. -/
def generatedIccid (matchingId : String) : String :=
  let tail := matchingId.toList.drop (matchingId.toList.length - 17)
  String.ofList ('8' :: '9' :: ljust 17 '0' ((tail.filter fun c => c ≠ '-').take 17))

/-- A match of `ICCID=(\d+), Name=([^\s,]+)` in the logs of the card. -/
structure LogMatch where
  iccid : String
  name : String
  iccid_ne : iccid ≠ ""
  name_ne : name ≠ ""

/-- The readings of the clock when a profile is added: for its own entry, and when the file is
written. -/
structure Readings where
  installedAt : String
  lastModified : String

/-- The profile that a download path adds, from the ICCID and the matching id. -/
def downloaded (iccid matchingId installedAt : String) : Profile :=
  { iccid := iccid, isdpAid := "", state := ProfileState.DISABLED, profileName := matchingId,
    serviceProvider := "OsmocomSPN", matchingId := matchingId, installedAt := installedAt }

/-- Add a profile and go on whatever the store returns. -/
def record (profile : Profile) (now : String) (data : ProfileDb) : ProfileDb :=
  (addProfile profile now data).2.getD data

/-- The end of a successful download of the control panel. -/
def recordDownload (matchingId : String) (clock : Readings) (data : ProfileDb) : ProfileDb :=
  record (downloaded "8949449999999990049" matchingId clock.installedAt) clock.lastModified data

/-- The end of a successful `download_profile`. -/
def downloadProfile (matchingId : String) (clock : Readings) (data : ProfileDb) : ProfileDb :=
  record (downloaded (generatedIccid matchingId) matchingId clock.installedAt) clock.lastModified
    data

/-- Add the profiles found in the logs that are not in the store; the clock is read for each. -/
def syncAllProfilesFromLogs (found : List (LogMatch × Readings)) (data : ProfileDb) : ProfileDb :=
  found.foldl (fun data m =>
    match getProfile none none (some m.1.name) data with
    | none =>
      record (downloaded m.1.iccid m.1.name m.2.installedAt) m.2.lastModified data
    | some _ => data) data

/-- What changes the store: the download paths, and the calls of the store on what they have
added. -/
inductive Event
  | panelDownload (matchingId : String) (clock : Readings)
  | commandDownload (matchingId : String) (clock : Readings)
  | syncFromLogs (found : List (LogMatch × Readings))
  | enable (iccid isdpAid : Option String) (now : String)
  | disable (iccid isdpAid : Option String) (now : String)
  | delete (iccid isdpAid matchingId : Option String) (now : String)
  | setEid (eid now : String)

/-- One step of the store. -/
def step (data : ProfileDb) : Event → Option ProfileDb
  | .panelDownload matchingId clock => some (recordDownload matchingId clock data)
  | .commandDownload matchingId clock => some (downloadProfile matchingId clock data)
  | .syncFromLogs found => some (syncAllProfilesFromLogs found data)
  | .enable iccid isdpAid now => some (serve data (.operation (.enableProfile iccid isdpAid) now)).2
  | .disable iccid isdpAid now =>
    some (serve data (.operation (.disableProfile iccid isdpAid) now)).2
  | .delete iccid isdpAid matchingId now =>
    some (serve data (.operation (.deleteProfile iccid isdpAid matchingId) now)).2
  | .setEid eid now => some (serve data (.setEid eid now)).2

/-! ## The entries of the store -/

/-- What holds of the entries that downloads make. -/
structure Entries (profiles : List Profile) : Prop where
  iccids : "" ∉ profiles.map Profile.iccid
  rules : Rules profiles

theorem Entries.enabledAt {profiles : List Profile} (h : Entries profiles) (k : ℕ) :
    Entries (enabledAt k profiles) :=
  ⟨by rw [map_enabledAt fun _ _ => rfl]; exact h.iccids, h.rules.enabledAt k⟩

theorem Entries.disabledAt {profiles : List Profile} (h : Entries profiles) (k : ℕ) :
    Entries (disabledAt k profiles) :=
  ⟨by rw [map_disabledAt fun _ _ => rfl]; exact h.iccids, h.rules.disabledAt k⟩

theorem Entries.eraseIdx {profiles : List Profile} (h : Entries profiles) (k : ℕ) :
    Entries (profiles.eraseIdx k) :=
  ⟨fun hm => h.iccids (((List.eraseIdx_sublist _ _).map _).subset hm), h.rules.eraseIdx k⟩

theorem Entries.iccid_ne {profiles : List Profile} (h : Entries profiles) {k : ℕ} {p : Profile}
    (hk : profiles[k]? = some p) : p.iccid ≠ "" := by
  intro he
  exact h.iccids (he ▸ List.mem_map_of_mem (List.mem_of_getElem? hk))

theorem Entries.record {profile : Profile} {now : String} {data : ProfileDb}
    (h : Entries data.profiles) (hi : profile.iccid ≠ "")
    (hs : profile.state = ProfileState.DISABLED) :
    Entries (record profile now data).profiles := by
  have hk := (kept_addProfile_iff h.rules profile now).2
    fun he => absurd (hs.symm.trans he) disabled_ne_enabled
  refine ⟨?_, hk.rules⟩
  rcases addProfile_cases profile now data with
    ⟨-, ha⟩ | ⟨-, ha⟩
  · simpa only [Mno.record, ha, Option.getD] using h.iccids
  · simp only [Mno.record, ha, Option.getD_some, writeAtomic, List.map_append, List.map_cons,
      List.map_nil, List.mem_append, List.mem_singleton, not_or]
    exact ⟨h.iccids, hi.symm⟩

theorem generatedIccid_ne (matchingId : String) : generatedIccid matchingId ≠ "" := by
  intro h
  have := congrArg String.toList h
  simp [generatedIccid] at this

theorem Entries.syncAllProfilesFromLogs {found : List (LogMatch × Readings)} {data : ProfileDb}
    (h : Entries data.profiles) : Entries (syncAllProfilesFromLogs found data).profiles := by
  unfold Mno.syncAllProfilesFromLogs
  induction found generalizing data with
  | nil => exact h
  | cons m found ih =>
    rw [List.foldl_cons]
    apply ih
    split
    · exact h.record m.1.iccid_ne rfl
    · exact h

theorem Entries.step {data data' : ProfileDb} {event : Event} (h : Entries data.profiles)
    (hs : step data event = some data') : Entries data'.profiles := by
  cases event with
  | panelDownload matchingId clock =>
    obtain rfl := Option.some.inj hs
    exact h.record (by simp [downloaded]) rfl
  | commandDownload matchingId clock =>
    obtain rfl := Option.some.inj hs
    exact h.record (generatedIccid_ne matchingId) rfl
  | syncFromLogs found =>
    obtain rfl := Option.some.inj hs
    exact h.syncAllProfilesFromLogs
  | enable iccid isdpAid now =>
    obtain rfl := Option.some.inj hs
    rcases enableProfile_cases iccid isdpAid now data
      with ha | ⟨k, ha⟩
    · simpa only [serve, call, ha, Option.getD] using h
    · simpa only [serve, call, ha, Option.getD, writeAtomic] using h.enabledAt k
  | disable iccid isdpAid now =>
    obtain rfl := Option.some.inj hs
    rcases disableProfile_cases iccid isdpAid now data
      with ⟨message, ha⟩ | ⟨k, ha⟩
    · simpa only [serve, call, ha, Option.getD] using h
    · simpa only [serve, call, ha, Option.getD, writeAtomic] using h.disabledAt k
  | delete iccid isdpAid matchingId now =>
    obtain rfl := Option.some.inj hs
    rcases deleteProfile_cases iccid isdpAid matchingId now data with
      ⟨message, ha⟩ | ⟨k, target, -, -, ha⟩
    · simpa only [serve, call, ha, Option.getD] using h
    · simpa only [serve, call, ha, Option.getD, writeAtomic] using h.eraseIdx k
  | setEid eid now =>
    obtain rfl := Option.some.inj hs
    exact h

/-- In every reachable store ICCIDs are not empty and the rules of the store hold. -/
theorem reachable_entries {now : String} {data : ProfileDb}
    (h : Reachable step (initialDb now) data) : Entries data.profiles := by
  have h0 : Entries (initialDb now).profiles := ⟨List.not_mem_nil, Rules.nil⟩
  exact h.invariant (P := fun data => Entries data.profiles) h0 fun _ _ _ _ hP hs => hP.step hs

/-! ## The chosen profile -/

/-- A command fails and leaves the store, or it succeeds and changes the profiles as given. -/
def FailsOr (outcome : (Bool × String) × ProfileDb) (data : ProfileDb) (now : String)
    (profiles : List Profile) : Prop :=
  (outcome.1.1 = false ∧ outcome.2 = data) ∨
    (outcome.1.1 = true ∧ outcome.2 = writeAtomic now { data with profiles := profiles })

/-- The commands hit the profile at an index; it can be enabled and then disabled, and it can be
deleted once it is not enabled. -/
structure Chosen (data : ProfileDb) (k : ℕ) (p : Profile) (now : String) : Prop where
  enable : FailsOr (LpaCommandService.enableProfile p.iccid now data) data now
    (enabledAt k data.profiles)
  disable : FailsOr (LpaCommandService.disableProfile p.iccid now data) data now
    (disabledAt k data.profiles)
  delete : FailsOr (LpaCommandService.deleteProfile p.iccid now data) data now
    (data.profiles.eraseIdx k)
  enabled : (LpaCommandService.enableProfile p.iccid now data).1.1 = true
  disabled : (LpaCommandService.disableProfile p.iccid now
    (LpaCommandService.enableProfile p.iccid now data).2).1.1 = true
  deleted : (LpaCommandService.deleteProfile p.iccid now
    (LpaCommandService.disableProfile p.iccid now data).2).1.1 = true

/-- No profile before an index has the given ICCID. -/
def FirstWithIccid (profiles : List Profile) (k : ℕ) (iccid : String) : Prop :=
  ∀ j < k, (profiles.map Profile.iccid)[j]? ≠ some iccid

@[simp] theorem matchesArg_none (value : String) : matchesArg none value = false := rfl

theorem matchesArg_some {arg : String} (h : arg ≠ "") (value : String) :
    matchesArg (some arg) value = decide (arg = value) := by
  simp [matchesArg, given, h]

@[simp] theorem matchesArg_empty (value : String) : matchesArg (some "") value = false := by
  simp [matchesArg, given]

/-- Where a search by ICCID ends. -/
theorem exists_first {profiles : List Profile} {k : ℕ} {p : Profile} (hk : profiles[k]? = some p) :
    ∃ j q, profiles[j]? = some q ∧ q.iccid = p.iccid ∧ FirstWithIccid profiles j p.iccid := by
  have hex : ∃ j, (profiles.map Profile.iccid)[j]? = some p.iccid :=
    ⟨k, by rw [List.getElem?_map, hk]; rfl⟩
  classical
  have hj := Nat.find_spec hex
  rw [List.getElem?_map, Option.map_eq_some_iff] at hj
  obtain ⟨q, hq, he⟩ := hj
  exact ⟨Nat.find hex, q, hq, he, fun i hi => Nat.find_min hex hi⟩

theorem findTarget_iccid {profiles : List Profile} {k : ℕ} {p : Profile} {iccid : String}
    (hi : iccid ≠ "") (hk : profiles[k]? = some p) (hp : p.iccid = iccid)
    (hf : FirstWithIccid profiles k iccid) :
    findTarget (fun p => matchesArg (some iccid) p.iccid || matchesArg none p.isdpAid) profiles =
      some (p, k) := by
  rw [findTarget_eq_some]
  refine ⟨hk, by simp [matchesArg_some hi, hp], fun j hj q hq => ?_⟩
  have hne := hf j hj
  rw [List.getElem?_map, hq] at hne
  simpa [matchesArg_some hi, eq_comm] using hne

theorem enableProfile_first {data : ProfileDb} {k : ℕ} {p : Profile} {iccid : String}
    (now : String) (hi : iccid ≠ "") (hk : data.profiles[k]? = some p) (hp : p.iccid = iccid)
    (hf : FirstWithIccid data.profiles k iccid) :
    LpaCommandService.enableProfile iccid now data =
      ((true, s!"Profile {iccid} enabled"),
        writeAtomic now { data with profiles := enabledAt k data.profiles }) := by
  have ht := findTarget_iccid hi hk hp hf
  simp only [LpaCommandService.enableProfile, ProfileStore.enableProfile, ht]
  rfl

theorem disableProfile_first {data : ProfileDb} {k : ℕ} {p : Profile} {iccid : String}
    (now : String) (hi : iccid ≠ "") (hk : data.profiles[k]? = some p) (hp : p.iccid = iccid)
    (hf : FirstWithIccid data.profiles k iccid) :
    LpaCommandService.disableProfile iccid now data =
      if p.state ≠ ProfileState.ENABLED then ((false, "Profile already disabled"), data)
      else ((true, s!"Profile {iccid} disabled"),
        writeAtomic now { data with profiles := disabledAt k data.profiles }) := by
  have ht := findTarget_iccid hi hk hp hf
  simp only [LpaCommandService.disableProfile, ProfileStore.disableProfile, ht]
  split <;> rfl

theorem getProfile_first {data : ProfileDb} {k : ℕ} {p : Profile} {iccid : String}
    (hi : iccid ≠ "") (hk : data.profiles[k]? = some p) (hp : p.iccid = iccid)
    (hf : FirstWithIccid data.profiles k iccid) :
    getProfile (some iccid) none none data = some p := by
  unfold getProfile
  obtain ⟨hkl, rfl⟩ := List.getElem?_eq_some_iff.1 hk
  rw [List.find?_eq_some_iff_getElem]
  refine ⟨by simp [matchesArg_some hi, given, hp], k, hkl, rfl, fun j hj => ?_⟩
  have hne := hf j hj
  rw [List.getElem?_map, List.getElem?_eq_getElem (by omega)] at hne
  simp only [Option.map_some, ne_eq, Option.some.injEq] at hne
  simp [matchesArg_some hi, Ne.symm hne]

/-- A matching id that is not empty leads to its one profile. -/
theorem findTarget_matchingId {profiles : List Profile} {k : ℕ} {p : Profile} (h : Rules profiles)
    (hk : profiles[k]? = some p) (hm : p.matchingId ≠ "") :
    findTarget (fun q => matchesArg (some p.matchingId) q.matchingId ||
      (matchesArg none q.iccid && !given (some p.matchingId) || matchesArg none q.isdpAid))
      profiles = some (p, k) := by
  rw [findTarget_eq_some]
  refine ⟨hk, by simp [matchesArg_some hm], fun j hj q hq => ?_⟩
  have hids := List.pairwise_iff_getElem.1 h.distinctIds
  obtain ⟨hkl, rfl⟩ := List.getElem?_eq_some_iff.1 hk
  obtain ⟨hjl, rfl⟩ := List.getElem?_eq_some_iff.1 hq
  have hne := hids j k (by simpa using hjl) (by simpa using hkl) hj
  simp only [List.getElem_map] at hne
  simp only [matchesArg_some hm, matchesArg_none, Bool.false_and, Bool.or_false,
    decide_eq_false_iff_not]
  intro he
  exact hne (he ▸ hm) he.symm

theorem deleteProfile_first {data : ProfileDb} {k : ℕ} {p : Profile} {iccid : String}
    (now : String) (h : Rules data.profiles) (hi : iccid ≠ "") (hk : data.profiles[k]? = some p)
    (hp : p.iccid = iccid) (hf : FirstWithIccid data.profiles k iccid) :
    LpaCommandService.deleteProfile iccid now data =
      if p.matchingId = "" then ((false, "Profile not found"), data)
      else if p.state = ProfileState.ENABLED then
        ((false, "Cannot delete enabled profile (disable it first)"), data)
      else ((true, s!"Profile {iccid} deleted"),
        writeAtomic now { data with profiles := data.profiles.eraseIdx k }) := by
  have hg := getProfile_first hi hk hp hf
  by_cases hm : p.matchingId = ""
  · have hn : findTarget (fun q => matchesArg (some p.matchingId) q.matchingId ||
        (matchesArg none q.iccid && !given (some p.matchingId) || matchesArg none q.isdpAid))
        data.profiles = none := by
      rw [findTarget_eq_none]
      intro q _
      simp [hm]
    rw [if_pos hm]
    simp only [LpaCommandService.deleteProfile, ProfileStore.deleteProfile, hg, hn]
    rfl
  · have ht := findTarget_matchingId h hk hm
    rw [if_neg hm]
    simp only [LpaCommandService.deleteProfile, ProfileStore.deleteProfile, hg, ht]
    split <;> rfl

theorem FirstWithIccid.enabledAt {profiles : List Profile} {k : ℕ} {iccid : String}
    (h : FirstWithIccid profiles k iccid) (i : ℕ) :
    FirstWithIccid (enabledAt i profiles) k iccid := by
  intro j hj
  rw [map_enabledAt fun _ _ => rfl]
  exact h j hj

theorem FirstWithIccid.disabledAt {profiles : List Profile} {k : ℕ} {iccid : String}
    (h : FirstWithIccid profiles k iccid) (i : ℕ) :
    FirstWithIccid (disabledAt i profiles) k iccid := by
  intro j hj
  rw [map_disabledAt fun _ _ => rfl]
  exact h j hj

/-- Different targets leave different profiles. -/
theorem enabledAt_injective {profiles : List Profile} {j k : ℕ} {q : Profile}
    (hj : profiles[j]? = some q) (h : enabledAt j profiles = enabledAt k profiles) : k = j := by
  have hq : (enabledAt j profiles)[j]? = some { q with state := ProfileState.ENABLED } := by
    rw [getElem?_enabledAt, hj]
    simp
  exact enabledAt_state (h ▸ hq) rfl

/-- Disabling the first profile with an ICCID leaves it there, not enabled. -/
theorem disableProfile_leaves {data : ProfileDb} {k : ℕ} {p : Profile} (now : String)
    (h : Entries data.profiles) (hk : data.profiles[k]? = some p)
    (hf : FirstWithIccid data.profiles k p.iccid) :
    ∃ q, (LpaCommandService.disableProfile p.iccid now data).2.profiles[k]? = some q ∧
      q.iccid = p.iccid ∧ q.matchingId = p.matchingId ∧ q.state ≠ ProfileState.ENABLED ∧
      Rules (LpaCommandService.disableProfile p.iccid now data).2.profiles ∧
      FirstWithIccid (LpaCommandService.disableProfile p.iccid now data).2.profiles k p.iccid := by
  rw [disableProfile_first now (h.iccid_ne hk) hk rfl hf]
  split
  · rename_i hs
    exact ⟨p, hk, rfl, rfl, hs, h.rules, hf⟩
  · refine ⟨{ p with state := ProfileState.DISABLED }, ?_, rfl, rfl, disabled_ne_enabled,
      h.rules.disabledAt k, hf.disabledAt k⟩
    simp [writeAtomic, getElem?_disabledAt, hk]

theorem chosen_of_first {data : ProfileDb} {k : ℕ} {p : Profile} {now : String}
    (h : Entries data.profiles) (hk : data.profiles[k]? = some p)
    (hf : FirstWithIccid data.profiles k p.iccid) (hm : p.matchingId ≠ "") :
    Chosen data k p now := by
  have hi := h.iccid_ne hk
  have hen := enableProfile_first now hi hk rfl hf
  have hdis := disableProfile_first now hi hk rfl hf
  have hdel := deleteProfile_first now h.rules hi hk rfl hf
  refine ⟨?_, ?_, ?_, by rw [hen], ?_, ?_⟩
  · rw [hen]
    exact .inr ⟨rfl, rfl⟩
  · rw [hdis]
    split
    · exact .inl ⟨rfl, rfl⟩
    · exact .inr ⟨rfl, rfl⟩
  · rw [hdel, if_neg hm]
    split
    · exact .inl ⟨rfl, rfl⟩
    · exact .inr ⟨rfl, rfl⟩
  · rw [hen]
    have hk' : (enabledAt k data.profiles)[k]? =
        some { p with state := ProfileState.ENABLED } := by
      rw [getElem?_enabledAt, hk]
      simp
    rw [disableProfile_first (p := { p with state := ProfileState.ENABLED }) now hi hk' rfl
      (hf.enabledAt k)]
    rfl
  · obtain ⟨q, hq, hqi, hqm, hqs, hr, hqf⟩ := disableProfile_leaves now h hk hf
    rw [deleteProfile_first now hr hi hq hqi hqf, if_neg (hqm ▸ hm), if_neg hqs]

/-- **The commands hit the chosen profile** exactly if no profile before it has its ICCID and its
matching id is not empty. -/
theorem chosen_iff {start : String} {data : ProfileDb}
    (h : Reachable step (initialDb start) data) {k : ℕ} {p : Profile}
    (hk : data.profiles[k]? = some p) (now : String) :
    Chosen data k p now ↔
      (∀ j < k, ∀ q, data.profiles[j]? = some q → q.iccid ≠ p.iccid) ∧ p.matchingId ≠ "" := by
  have he := reachable_entries h
  have hfirst : FirstWithIccid data.profiles k p.iccid ↔
      ∀ j < k, ∀ q, data.profiles[j]? = some q → q.iccid ≠ p.iccid := by
    simp [FirstWithIccid, List.getElem?_map]
  rw [← hfirst]
  constructor
  · intro hc
    -- the search ends at the first profile with the ICCID, and that is what is enabled
    obtain ⟨j, q, hq, hqi, hf⟩ := exists_first hk
    have hen := hc.enable
    rw [enableProfile_first now (he.iccid_ne hk) hq hqi hf] at hen
    rcases hen with ⟨hfalse, -⟩ | ⟨-, heq⟩
    · cases hfalse
    · obtain rfl := enabledAt_injective hq (congrArg ProfileDb.profiles heq)
      refine ⟨hf, fun hm => ?_⟩
      obtain ⟨q', hq', hqi', hqm, -, hr, hqf⟩ := disableProfile_leaves now he hk hf
      have hdel := hc.deleted
      rw [deleteProfile_first now hr (he.iccid_ne hk) hq' hqi' hqf,
        if_pos (hqm.trans hm)] at hdel
      cases hdel
  · rintro ⟨hf, hm⟩
    exact chosen_of_first he hk hf hm

/-- The store after two downloads of the control panel. -/
def sampleDb : ProfileDb :=
  recordDownload "TS48v2_A" ⟨"2025-01-01T00:00:03Z", "2025-01-01T00:00:04Z"⟩
    (recordDownload "TS48v1_A" ⟨"2025-01-01T00:00:01Z", "2025-01-01T00:00:02Z"⟩
      (initialDb "2025-01-01T00:00:00Z"))

theorem sampleDb_reachable : Reachable step (initialDb "2025-01-01T00:00:00Z") sampleDb :=
  .step (e := .panelDownload "TS48v2_A" ⟨"2025-01-01T00:00:03Z", "2025-01-01T00:00:04Z"⟩)
    (.step (e := .panelDownload "TS48v1_A" ⟨"2025-01-01T00:00:01Z", "2025-01-01T00:00:02Z"⟩)
      .init rfl) rfl

theorem chosen_iff_sample : Chosen sampleDb 0
    (downloaded "8949449999999990049" "TS48v1_A" "2025-01-01T00:00:01Z") "2025-01-01T00:00:05Z" :=
  (chosen_iff sampleDb_reachable rfl "2025-01-01T00:00:05Z").2
    ⟨fun j hj => absurd hj (Nat.not_lt_zero j), by decide⟩

/-- **The wrong profile is enabled**: the second of two downloads is chosen, the first is hit. -/
theorem chosen_fails : ¬ ∀ start data, Reachable step (initialDb start) data → ∀ (k : ℕ)
    (p : Profile), data.profiles[k]? = some p → ∀ now, Chosen data k p now := by
  intro h
  have hc := (h _ _ sampleDb_reachable 1 _ rfl "2025-01-01T00:00:05Z").enable
  rcases hc with ⟨hfalse, -⟩ | ⟨-, heq⟩
  · exact absurd hfalse (by decide)
  · exact absurd heq (by decide)

end VirtualRsp.Mno
