import Mathlib.Data.List.Permutation
import VirtualRsp.Foundations.ReadModifyWrite

/-!
# The shared profile store

Two applications, the GUI and the one of the operator, each have a `ProfileStore` on the same file.
Every call that changes profiles reads the file with `_read_db` and replaces it with
`_write_atomic`. The lock of each of the two is on a file of its own and is gone when it returns, so
another replacement can come in between.

* `updates_serializable`: when no call replaces contents that it has not read, the outcome is the
  one of a serial order.
* `updates_lost`: two profiles added at the same time, of which one is lost.
-/

namespace VirtualRsp.Gui

open ReadModifyWrite Run

namespace ProfileState

/-- A profile that is not in use. -/
def DISABLED : String := "disabled"

/-- The profile in use. -/
def ENABLED : String := "enabled"

end ProfileState

/-- The entry of a profile. -/
structure Profile where
  iccid : String
  isdpAid : String
  state : String
  profileName : String
  serviceProvider : String
  matchingId : String
  installedAt : String
  deriving DecidableEq

/-- The contents of the file. -/
structure ProfileDb where
  eid : String
  profiles : List Profile
  lastModified : String
  deriving DecidableEq

/-- The calls that change profiles, with their optional arguments. -/
inductive Operation
  | addProfile (profile : Profile)
  | enableProfile (iccid isdpAid : Option String)
  | disableProfile (iccid isdpAid : Option String)
  | deleteProfile (iccid isdpAid matchingId : Option String)
  deriving DecidableEq

/-- What a call returns. -/
inductive Returned
  | added (success : Bool)
  | done (success : Bool) (message : String)
  deriving DecidableEq

namespace ProfileStore

/-! ## The calls -/

/-- Whether an optional argument counts as given: `None` and the empty string do not. -/
def given (arg : Option String) : Bool := arg.any fun s => s ≠ ""

/-- `arg and value == arg`. -/
def matchesArg (arg : Option String) (value : String) : Bool := given arg && arg = some value

/-- The first profile with a property, and its index. -/
def findTarget (cond : Profile → Bool) (profiles : List Profile) : Option (Profile × ℕ) :=
  profiles.zipIdx.find? fun (p, _) => cond p

/-- The contents that `_write_atomic` leaves, at the time `now`. -/
def writeAtomic (now : String) (data : ProfileDb) : ProfileDb := { data with lastModified := now }

/-- Add a profile, unless there is one with the same matching id. -/
def addProfile (profile : Profile) (now : String) (data : ProfileDb) :
    Returned × Option ProfileDb :=
  if data.profiles.any fun existing =>
      existing.matchingId = profile.matchingId && profile.matchingId ≠ "" then
    (.added false, none)
  else
    (.added true, some (writeAtomic now { data with profiles := data.profiles ++ [profile] }))

/-- Enable a profile and disable all others. -/
def enableProfile (iccid isdpAid : Option String) (now : String) (data : ProfileDb) :
    Returned × Option ProfileDb :=
  match findTarget (fun p => matchesArg iccid p.iccid || matchesArg isdpAid p.isdpAid)
      data.profiles with
  | none => (.done false "Profile not found", none)
  | some (_, targetIdx) =>
    let disabled := data.profiles.mapIdx fun i p =>
      if i ≠ targetIdx && p.state = ProfileState.ENABLED then
        { p with state := ProfileState.DISABLED } else p
    let profiles := disabled.modify targetIdx fun p => { p with state := ProfileState.ENABLED }
    (.done true "Profile enabled", some (writeAtomic now { data with profiles := profiles }))

/-- Disable a profile. -/
def disableProfile (iccid isdpAid : Option String) (now : String) (data : ProfileDb) :
    Returned × Option ProfileDb :=
  match findTarget (fun p => matchesArg iccid p.iccid || matchesArg isdpAid p.isdpAid)
      data.profiles with
  | none => (.done false "Profile not found", none)
  | some (target, targetIdx) =>
    if target.state ≠ ProfileState.ENABLED then (.done false "Profile already disabled", none)
    else
      let profiles := data.profiles.modify targetIdx fun p =>
        { p with state := ProfileState.DISABLED }
      (.done true "Profile disabled", some (writeAtomic now { data with profiles := profiles }))

/-- Delete a profile that is not enabled. The ICCID only counts without a matching id. -/
def deleteProfile (iccid isdpAid matchingId : Option String) (now : String) (data : ProfileDb) :
    Returned × Option ProfileDb :=
  match findTarget (fun p => matchesArg matchingId p.matchingId ||
      (matchesArg iccid p.iccid && !given matchingId || matchesArg isdpAid p.isdpAid))
      data.profiles with
  | none => (.done false "Profile not found", none)
  | some (target, targetIdx) =>
    if target.state = ProfileState.ENABLED then
      (.done false "Cannot delete enabled profile (disable it first)", none)
    else
      (.done true "Profile deleted",
        some (writeAtomic now { data with profiles := data.profiles.eraseIdx targetIdx }))

/-- A call of an operation, with the time at which it writes: what it returns and what it writes,
if anything, when the file holds `data`. -/
def call : Operation × String → ProfileDb → Returned × Option ProfileDb
  | (.addProfile profile, now), data => addProfile profile now data
  | (.enableProfile iccid isdpAid, now), data => enableProfile iccid isdpAid now data
  | (.disableProfile iccid isdpAid, now), data => disableProfile iccid isdpAid now data
  | (.deleteProfile iccid isdpAid matchingId, now), data =>
    deleteProfile iccid isdpAid matchingId now data

/-! ## Two applications -/

/-- The applications that have a store on the file. -/
inductive Client
  | gui
  | mno
  deriving DecidableEq

/-- The file, and the calls of the two applications. -/
abbrev State := ReadModifyWrite.State ProfileDb (Operation × String) Returned Client

/-- Reading and writing, by either application. -/
abbrev Event := ReadModifyWrite.Event Client (Operation × String)

/-- **Updates are serializable**: when every replacement finds the file that its call has read and
all calls have returned, the file and the results are those of the calls in some serial order that
keeps the order of each application. -/
theorem updates_serializable {data : ProfileDb} {es : List Event} {s : State}
    (hu : ∀ t ∈ trace (step call) (initial data) es, Undisturbed call t.pre t.event)
    (he : exec (step call) (initial data) es = some s) (hq : ∀ client, s.pending client = none) :
    Serializable call data s :=
  serializable hu he hq

/-- A file without profiles. -/
def sampleDb : ProfileDb :=
  { eid := "89049032001001234500012345678901", profiles := [],
    lastModified := "2025-01-01T00:00:00Z" }

/-- A profile with the given matching id. -/
def sampleProfile (matchingId : String) : Profile :=
  { iccid := "8949449999999990023", isdpAid := "A0000005591010FFFFFFFF8900001100",
    state := ProfileState.DISABLED, profileName := "Test", serviceProvider := "OsmocomSPN",
    matchingId := matchingId, installedAt := "2025-01-01T00:00:00Z" }

/-- The GUI adds a profile. -/
def sampleAddGui : Operation × String :=
  (.addProfile (sampleProfile "TS48v1_A"), "2025-01-01T00:00:01Z")

/-- The operator's application adds another one. -/
def sampleAddMno : Operation × String :=
  (.addProfile (sampleProfile "TS48v2_A"), "2025-01-01T00:00:02Z")

/-- The operator's application disables a profile. -/
def sampleDisableMno : Operation × String :=
  (.disableProfile (some "8949449999999990023") none, "2025-01-01T00:00:02Z")

/-- The operator's application looks for the profile before the GUI has added it, and returns after
that. -/
def sampleRun : List Event :=
  [.read .mno sampleDisableMno, .read .gui sampleAddGui, .finish .gui, .finish .mno]

theorem updates_serializable_sample : ∃ s, exec (step call) (initial sampleDb) sampleRun = some s ∧
    Serializable call sampleDb s := by
  have hu : ∀ t ∈ trace (step call) (initial sampleDb) sampleRun,
      Undisturbed call t.pre t.event := by
    refine List.forall_mem_cons.2 ⟨trivial, List.forall_mem_cons.2 ⟨trivial,
      List.forall_mem_cons.2 ⟨?_, List.forall_mem_cons.2 ⟨?_, fun _ h => nomatch h⟩⟩⟩⟩
    · intro op read hp _
      cases hp
      rfl
    · intro op read hp hw
      cases hp
      exact absurd hw (by decide)
  refine ⟨_, rfl, updates_serializable hu rfl ?_⟩
  intro client
  cases client <;> rfl

/-- **A lost update**: both applications read the file, both add a profile, and the second
replacement drops the profile of the first. Both calls report success, and no serial order leaves
that file. -/
theorem updates_lost : ∃ s : State, exec (step call) (initial sampleDb)
    [.read .gui sampleAddGui, .read .mno sampleAddMno, .finish .gui, .finish .mno] = some s ∧
      (∀ client, s.pending client = none) ∧
      s.results .gui = [(sampleAddGui, .added true)] ∧
      s.results .mno = [(sampleAddMno, .added true)] ∧
      s.file.profiles = [sampleProfile "TS48v2_A"] ∧
      ∀ order : List (Client × Operation × String),
        order.Perm [(.gui, sampleAddGui), (.mno, sampleAddMno)] →
          s.file ≠ (serial call sampleDb order).1 := by
  refine ⟨_, rfl, ?_, rfl, rfl, rfl, ?_⟩
  · intro client
    cases client <;> rfl
  · intro order ho
    rcases List.perm_pair.1 ho with rfl | rfl <;> decide

end ProfileStore

end VirtualRsp.Gui
