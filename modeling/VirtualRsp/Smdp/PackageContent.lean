import Mathlib.Data.List.Induction
import VirtualRsp.Smdp.BoundPackage

/-!
# The content of unprotected packages

`from_der` is meant to make an instance that holds the octets it was given. It keeps them in the
class, so that all instances hold the octets of the latest call (`clsDer_after`). `PackageCall` is a
call on packages, `packagesAfter` the state that a sequence of calls leads to, `created` the octets
that the instances were created from.

An instance answers with the octets it was created from exactly in the sequences of calls where the
latest `from_der` before each `to_der` was given the same octets (`toDer_own_iff`). Under the same
condition `from_upp` protects them (`fromUpp_own`).
-/

namespace VirtualRsp.Smdp

variable {lib : Libraries}

/-- A call on packages. The instances are counted in the order in which they are created. -/
inductive PackageCall
  | fromDer (der : Bytes) (metadata : Option ProfileMetadata)
  | toDer (inst : ℕ)
  | fromUpp (inst : ℕ) (bsp : BspInstance)

/-- What the class keeps, and the instances. -/
structure Packages where
  clsDer : Option Bytes
  upps : List UnprotectedProfilePackage

/-- What a call gives. -/
inductive PackageResult
  | package (inst : ℕ)
  | octets (der : Option Bytes)
  | protectedPackage (ppp : Option (ProtectedProfilePackage × BspInstance))
  | noInstance

/-- Carry out a call. -/
def Packages.call (lib : Libraries) (s : Packages) : PackageCall → Packages × PackageResult
  | .fromDer der metadata =>
    let (upp, clsDer) := UnprotectedProfilePackage.fromDer der metadata
    (⟨clsDer, s.upps ++ [upp]⟩, .package s.upps.length)
  | .toDer inst =>
    match s.upps[inst]? with
    | some _ => (s, .octets (UnprotectedProfilePackage.toDer s.clsDer))
    | none => (s, .noInstance)
  | .fromUpp inst bsp =>
    match s.upps[inst]? with
    | some upp => (s, .protectedPackage (ProtectedProfilePackage.fromUpp lib s.clsDer upp bsp))
    | none => (s, .noInstance)

/-- The state after a sequence of calls. -/
def packagesAfter (lib : Libraries) (calls : List PackageCall) : Packages :=
  calls.foldl (fun s call => (s.call lib call).1) ⟨none, []⟩

/-- The octets and the metadata that a call creates an instance from. -/
def PackageCall.source : PackageCall → Option (Bytes × Option ProfileMetadata)
  | .fromDer der metadata => some (der, metadata)
  | .toDer _ => none
  | .fromUpp _ _ => none

/-- What the instances were created from. -/
def sources (calls : List PackageCall) : List (Bytes × Option ProfileMetadata) :=
  calls.filterMap PackageCall.source

/-- The octets that the instances were created from. -/
def created (calls : List PackageCall) : List Bytes := (sources calls).map Prod.fst

theorem packagesAfter_concat (calls : List PackageCall) (call : PackageCall) :
    packagesAfter lib (calls ++ [call]) = ((packagesAfter lib calls).call lib call).1 := by
  rw [packagesAfter, List.foldl_append]
  rfl

/-- A step: only `from_der` changes the state. -/
theorem call_state (s : Packages) (call : PackageCall) : (s.call lib call).1 =
    match call.source with
    | some (der, metadata) => ⟨some der, s.upps ++ [⟨metadata⟩]⟩
    | none => s := by
  cases call with
  | fromDer der metadata => rfl
  | toDer inst =>
    simp only [Packages.call]
    split <;> rfl
  | fromUpp inst bsp =>
    simp only [Packages.call]
    split <;> rfl

/-- **After any calls** the class keeps the octets of the latest `from_der`, and there is an
instance for each. -/
theorem packagesAfter_eq (calls : List PackageCall) : packagesAfter lib calls =
    ⟨(created calls).getLast?, (sources calls).map fun source => ⟨source.2⟩⟩ := by
  induction calls using List.reverseRecOn with
  | nil => rfl
  | append_singleton calls call ih =>
    rw [packagesAfter_concat, call_state, ih]
    cases h : call.source with
    | none =>
      have hsources : sources (calls ++ [call]) = sources calls := by
        rw [sources, List.filterMap_append, List.filterMap_cons_none h, List.filterMap_nil,
          List.append_nil, sources]
      rw [created, created, hsources]
    | some source =>
      obtain ⟨der, metadata⟩ := source
      have hsources : sources (calls ++ [call]) = sources calls ++ [(der, metadata)] := by
        rw [sources, List.filterMap_append, List.filterMap_cons_some h, List.filterMap_nil, sources]
      simp only [created, hsources, List.map_append, List.map_cons, List.map_nil,
        List.getLast?_concat]

theorem clsDer_after (lib : Libraries) (calls : List PackageCall) :
    (packagesAfter lib calls).clsDer = (created calls).getLast? := by
  rw [packagesAfter_eq]

theorem upps_after (lib : Libraries) (calls : List PackageCall) (inst : ℕ) :
    (packagesAfter lib calls).upps[inst]? =
      (sources calls)[inst]?.map fun source => ⟨source.2⟩ := by
  rw [packagesAfter_eq, List.getElem?_map]

/-- The instance that octets were created for. -/
theorem exists_source {calls : List PackageCall} {inst : ℕ} {der : Bytes}
    (h : (created calls)[inst]? = some der) :
    ∃ metadata, (sources calls)[inst]? = some (der, metadata) := by
  rw [created, List.getElem?_map, Option.map_eq_some_iff] at h
  obtain ⟨⟨der, metadata⟩, hsource, rfl⟩ := h
  exact ⟨metadata, hsource⟩

/-- What `to_der` of an instance gives: the octets of the latest `from_der`. -/
theorem toDer_after {calls : List PackageCall} {inst : ℕ} {der : Bytes}
    (h : (created calls)[inst]? = some der) :
    ((packagesAfter lib calls).call lib (.toDer inst)).2 = .octets (created calls).getLast? := by
  obtain ⟨metadata, hsource⟩ := exists_source h
  have hupp := upps_after lib calls inst
  rw [hsource, Option.map_some] at hupp
  rw [Packages.call, hupp, ← clsDer_after lib]
  rfl

/-- **Whose octets an instance gives.** In a sequence of calls, every `to_der` gives the octets that
its instance was created from exactly when the latest `from_der` before each of them was given the
same octets. -/
theorem toDer_own_iff (lib : Libraries) (calls : List PackageCall) :
    (∀ past inst rest der, calls = past ++ .toDer inst :: rest →
      (created past)[inst]? = some der →
      ((packagesAfter lib past).call lib (.toDer inst)).2 = .octets (some der)) ↔
    ∀ past inst rest der, calls = past ++ .toDer inst :: rest →
      (created past)[inst]? = some der → (created past).getLast? = some der := by
  constructor
  · intro hown past inst rest der hcalls hder
    have hoctets := hown past inst rest der hcalls hder
    rw [toDer_after hder] at hoctets
    exact PackageResult.octets.inj hoctets
  · intro hlatest past inst rest der hcalls hder
    rw [toDer_after hder, hlatest past inst rest der hcalls hder]

/-- What `from_upp` protects: the octets of the latest `from_der`, under the metadata of the
instance. -/
theorem fromUpp_after {calls : List PackageCall} {inst : ℕ} {der : Bytes}
    {metadata : Option ProfileMetadata} (h : (sources calls)[inst]? = some (der, metadata))
    (bsp : BspInstance) :
    ((packagesAfter lib calls).call lib (.fromUpp inst bsp)).2 = .protectedPackage
      (ProtectedProfilePackage.fromUpp lib (created calls).getLast? ⟨metadata⟩ bsp) := by
  have hupp := upps_after lib calls inst
  rw [h, Option.map_some] at hupp
  rw [Packages.call, hupp, clsDer_after]

/-- The octets of the instance are protected under the same condition. -/
theorem fromUpp_own {calls : List PackageCall} {inst : ℕ} {der : Bytes}
    {metadata : Option ProfileMetadata} (h : (sources calls)[inst]? = some (der, metadata))
    (hlatest : (created calls).getLast? = some der) (bsp : BspInstance) :
    ((packagesAfter lib calls).call lib (.fromUpp inst bsp)).2 =
      .protectedPackage (ProtectedProfilePackage.fromUpp lib (some der) ⟨metadata⟩ bsp) := by
  rw [fromUpp_after h, hlatest]

/-- Two packages, and the first asked for its octets. -/
theorem toDer_not_own :
    ((packagesAfter sampleLib [.fromDer [1] none, .fromDer [2] none]).call sampleLib (.toDer 0)).2 =
      .octets (some [2]) ∧
    (created [.fromDer [1] none, .fromDer [2] none])[0]? = some [1] :=
  ⟨rfl, rfl⟩

end VirtualRsp.Smdp
