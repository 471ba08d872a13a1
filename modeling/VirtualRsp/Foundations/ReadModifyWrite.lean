import Mathlib.Logic.Function.Basic
import VirtualRsp.Foundations.Run

/-!
# Read-modify-write calls on a shared file

Clients share a file of type `D`. A call of the operation `op` reads the whole file, computes its
result and perhaps new contents (`call op`), and replaces the file as a whole, all in separate
steps. Each client makes its calls one after the other; the steps of different clients interleave.

`serial` makes calls without interleaving. `serializable`: when every replacement finds the file
that its call has read, the outcome of a run is the one of a serial order. A call that replaces
nothing takes its place in that order where it reads, every other call where it writes.
-/

namespace VirtualRsp.ReadModifyWrite

open Run

variable {D ι R κ : Type*}

/-- The shared file, the calls under way with the contents they have read, and the operations each
client has completed with their results. -/
structure State (D ι R κ : Type*) where
  file : D
  pending : κ → Option (ι × D)
  results : κ → List (ι × R)

/-- The two steps of a call. -/
inductive Event (κ ι : Type*)
  | read (client : κ) (op : ι)
  | finish (client : κ)

/-- The state before any call. -/
def initial (file : D) : State D ι R κ := ⟨file, fun _ => none, fun _ => []⟩

variable (call : ι → D → R × Option D)

/-- The contents after a call: those it writes, else those it has read. -/
def after (op : ι) (file : D) : D := (call op file).2.getD file

/-- The calls made one after the other: the contents at the end and the results. -/
def serial : D → List (κ × ι) → D × List (κ × ι × R)
  | file, [] => (file, [])
  | file, (client, op) :: order =>
    let rest := serial (after call op file) order
    (rest.1, (client, op, (call op file).1) :: rest.2)

theorem serial_concat (file : D) (order : List (κ × ι)) (client : κ) (op : ι) :
    serial call file (order ++ [(client, op)]) =
      (after call op (serial call file order).1,
        (serial call file order).2 ++ [(client, op, (call op (serial call file order).1).1)]) := by
  induction order generalizing file with
  | nil => rfl
  | cons head order ih =>
    obtain ⟨client', op'⟩ := head
    simp only [List.cons_append, serial, ih]

/-! ## Runs -/

variable [DecidableEq κ]

/-- One step. A client with a call under way starts no other. -/
def step (s : State D ι R κ) : Event κ ι → Option (State D ι R κ)
  | .read client op =>
    match s.pending client with
    | none => some { s with pending := Function.update s.pending client (some (op, s.file)) }
    | some _ => none
  | .finish client =>
    match s.pending client with
    | none => none
    | some (op, read) =>
      some
        { file := (call op read).2.getD s.file
          pending := Function.update s.pending client none
          results :=
            Function.update s.results client (s.results client ++ [(op, (call op read).1)]) }

/-- The results of one client. -/
def resultsOf (client : κ) (results : List (κ × ι × R)) : List (ι × R) :=
  results.filterMap fun result => if result.1 = client then some result.2 else none

/-- What has happened is what happens in some serial order that keeps the order of each client. -/
def Serializable (file : D) (s : State D ι R κ) : Prop :=
  ∃ order : List (κ × ι), s.file = (serial call file order).1 ∧
    ∀ client, s.results client = resultsOf client (serial call file order).2

/-- The step does not replace contents that its call has not read. -/
def Undisturbed (s : State D ι R κ) : Event κ ι → Prop
  | .read _ _ => True
  | .finish client =>
    ∀ op read, s.pending client = some (op, read) → (call op read).2.isSome → s.file = read

@[simp] theorem resultsOf_concat_self (client : κ) (results : List (κ × ι × R)) (r : ι × R) :
    resultsOf client (results ++ [(client, r)]) = resultsOf client results ++ [r] := by
  simp [resultsOf]

theorem resultsOf_concat_of_ne {client client' : κ} (h : client' ≠ client)
    (results : List (κ × ι × R)) (r : ι × R) :
    resultsOf client (results ++ [(client', r)]) = resultsOf client results := by
  simp [resultsOf, h]

/-! ## The invariant -/

/-- The result of a call under way that will replace nothing: it has taken its place already. -/
def early : Option (ι × D) → List (ι × R)
  | none => []
  | some (op, read) => if (call op read).2.isSome then [] else [(op, (call op read).1)]

/-- There is a serial order of the completed calls and of the calls under way that replace
nothing. -/
def Ordered (file : D) (s : State D ι R κ) : Prop :=
  ∃ order : List (κ × ι), s.file = (serial call file order).1 ∧
    ∀ client, s.results client ++ early call (s.pending client) =
      resultsOf client (serial call file order).2

variable {call} {file : D} {s s' : State D ι R κ}

theorem ordered_initial : Ordered call file (initial file : State D ι R κ) :=
  ⟨[], rfl, fun _ => rfl⟩

/-- With one more call at the end of the order only the results of its client change. -/
theorem resultsOf_serial_concat (order : List (κ × ι)) (client : κ) (op : ι)
    {results : κ → List (ι × R)}
    (hr : ∀ c, results c = resultsOf c (serial call file order).2) (c : κ) :
    resultsOf c (serial call file (order ++ [(client, op)])).2 =
      Function.update results client
        (results client ++ [(op, (call op (serial call file order).1).1)]) c := by
  rw [serial_concat]
  by_cases hc : c = client
  · subst hc
    rw [resultsOf_concat_self, Function.update_self, hr]
  · rw [resultsOf_concat_of_ne (Ne.symm hc), Function.update_of_ne hc, hr]

theorem ordered_read {client : κ} {op : ι} (h : Ordered call file s)
    (hs : step call s (.read client op) = some s') : Ordered call file s' := by
  obtain ⟨order, hf, hr⟩ := h
  cases hp : s.pending client with
  | some p => simp [step, hp] at hs
  | none =>
    simp only [step, hp, Option.some.injEq] at hs
    subst hs
    have hclient := hr client
    rw [hp] at hclient
    cases hw : (call op s.file).2.isSome with
    | true =>
      refine ⟨order, hf, fun c => ?_⟩
      by_cases hc : c = client
      · subst hc
        simpa [early, hw] using hclient
      · simpa [Function.update_of_ne hc] using hr c
    | false =>
      -- The call replaces nothing, so it can take its place now.
      have hnone : (call op s.file).2 = none := by simpa using hw
      refine ⟨order ++ [(client, op)], ?_, fun c => ?_⟩
      · rw [serial_concat, ← hf]
        simp [after, hnone]
      · rw [resultsOf_serial_concat order client op hr, ← hf]
        by_cases hc : c = client
        · subst hc
          simp [early, hp, hw]
        · simp [Function.update_of_ne hc]

theorem ordered_finish {client : κ} (h : Ordered call file s)
    (hu : Undisturbed call s (.finish client))
    (hs : step call s (.finish client) = some s') : Ordered call file s' := by
  obtain ⟨order, hf, hr⟩ := h
  cases hp : s.pending client with
  | none => simp [step, hp] at hs
  | some p =>
    obtain ⟨op, read⟩ := p
    simp only [step, hp, Option.some.injEq] at hs
    subst hs
    cases hw : (call op read).2 with
    | none =>
      refine ⟨order, by simpa [hw] using hf, fun c => ?_⟩
      by_cases hc : c = client
      · subst hc
        simpa [hp, early, hw] using hr c
      · simpa [Function.update_of_ne hc] using hr c
    | some new =>
      -- The file is the one that the call has read, so the call can take its place now.
      have hread : s.file = read := hu op read hp (by simp [hw])
      refine ⟨order ++ [(client, op)], ?_, fun c => ?_⟩
      · rw [serial_concat, ← hf]
        simp [after, hread, hw]
      · rw [resultsOf_serial_concat order client op hr, ← hf, hread]
        by_cases hc : c = client
        · subst hc
          simp [hp, early, hw]
        · simp [Function.update_of_ne hc]

theorem ordered_step {e : Event κ ι} (h : Ordered call file s) (hu : Undisturbed call s e)
    (hs : step call s e = some s') : Ordered call file s' := by
  cases e with
  | read client op => exact ordered_read h hs
  | finish client => exact ordered_finish h hu hs

theorem ordered_exec {es : List (Event κ ι)} (h : Ordered call file s)
    (hu : ∀ t ∈ trace (step call) s es, Undisturbed call t.pre t.event)
    (he : exec (step call) s es = some s') : Ordered call file s' := by
  induction es generalizing s with
  | nil =>
    simp only [exec, Option.some.injEq] at he
    exact he ▸ h
  | cons e es ih =>
    simp only [exec, Option.bind_eq_some_iff] at he
    obtain ⟨t, ht, he⟩ := he
    rw [trace, ht] at hu
    obtain ⟨hu₁, hu⟩ := List.forall_mem_cons.1 hu
    exact ih (ordered_step h hu₁ ht) hu he

/-- **Serializability.** When every replacement of a run finds the file that its call has read and
no call is under way at the end, the outcome is the one of a serial order. -/
theorem serializable {es : List (Event κ ι)}
    (hu : ∀ t ∈ trace (step call) (initial file) es, Undisturbed call t.pre t.event)
    (he : exec (step call) (initial file) es = some s) (hq : ∀ client, s.pending client = none) :
    Serializable call file s := by
  obtain ⟨order, hf, hr⟩ := ordered_exec ordered_initial hu he
  refine ⟨order, hf, fun client => ?_⟩
  rw [← hr client, hq client]
  simp [early]

end VirtualRsp.ReadModifyWrite
