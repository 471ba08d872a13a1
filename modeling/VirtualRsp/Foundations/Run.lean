import Mathlib.Data.List.Basic
import Mathlib.Data.List.Induction

/-!
# Runs of a deterministic step function

A program that serves events one after the other is a partial function `step : σ → ε → Option σ`;
`none` means that the program has no further behaviour worth describing (a fault). `trace` lists
the steps a sequence of events makes, `Reachable` the states some sequence leads to.

The rules are the usual ones: an invariant is shown once for a step and then holds of every
reachable state (`Reachable.invariant`) or along one run (`trace_invariant`), every step of a trace
starts and ends in reachable states (`mem_trace`), and a property of steps that is equivalent to
another at reachable states is equivalent to it along every trace (`forall_trace_congr`). What is
kept just by the steps of one kind holds all along just the runs of such steps (`forall_trace_iff`).

What a step owes to the steps before it is an invariant of the state and of the past
(`past_invariant`). `Since` says that something has happened since the last reset; it holds whenever
a state has a feature that only this brings about and that every reset takes away
(`since_of_trace`).
-/

namespace VirtualRsp.Run

variable {σ ε : Type*} {step : σ → ε → Option σ} {init : σ}

/-- One step of a run: the state before, the event, the state after. -/
structure Step (σ ε : Type*) where
  pre : σ
  event : ε
  post : σ

/-- The steps that a sequence of events makes; a fault ends the run. -/
def trace (step : σ → ε → Option σ) : σ → List ε → List (Step σ ε)
  | _, [] => []
  | s, e :: es =>
    match step s e with
    | none => []
    | some s' => ⟨s, e, s'⟩ :: trace step s' es

/-- The state a sequence of events leads to, unless a fault ends the run before. -/
def exec (step : σ → ε → Option σ) : σ → List ε → Option σ
  | s, [] => some s
  | s, e :: es => (step s e).bind fun s' => exec step s' es

/-- Reachable from `init` by steps of the program. -/
inductive Reachable (step : σ → ε → Option σ) (init : σ) : σ → Prop
  | init : Reachable step init init
  | step {s s' : σ} {e : ε} (h : Reachable step init s) (hs : step s e = some s') :
      Reachable step init s'

theorem Reachable.of_exec {s s' : σ} {es : List ε} (h : Reachable step init s)
    (he : exec step s es = some s') : Reachable step init s' := by
  induction es generalizing s with
  | nil => simp only [exec, Option.some.injEq] at he; exact he ▸ h
  | cons e es ih =>
    simp only [exec, Option.bind_eq_some_iff] at he
    obtain ⟨t, ht, he⟩ := he
    exact ih (h.step ht) he

/-- **Invariant rule.** What holds at the start and is kept by every step from a reachable state
holds of every reachable state. -/
theorem Reachable.invariant {P : σ → Prop} (h0 : P init)
    (hstep : ∀ s e s', Reachable step init s → P s → step s e = some s' → P s') {s : σ}
    (h : Reachable step init s) : P s := by
  induction h with
  | init => exact h0
  | step h hs ih => exact hstep _ _ _ h ih hs

/-- Every step of a trace from a reachable state is a step between reachable states. -/
theorem mem_trace {s : σ} {es : List ε} (h : Reachable step init s) {t : Step σ ε}
    (ht : t ∈ trace step s es) :
    Reachable step init t.pre ∧ step t.pre t.event = some t.post ∧
      Reachable step init t.post := by
  induction es generalizing s with
  | nil => simp [trace] at ht
  | cons e es ih =>
    rw [trace] at ht
    cases hs : step s e with
    | none => simp [hs] at ht
    | some s' =>
      simp only [hs, List.mem_cons] at ht
      rcases ht with rfl | ht
      · exact ⟨h, hs, h.step hs⟩
      · exact ih (h.step hs) ht

theorem event_mem_of_mem_trace {s : σ} {es : List ε} {t : Step σ ε} (ht : t ∈ trace step s es) :
    t.event ∈ es := by
  induction es generalizing s with
  | nil => simp [trace] at ht
  | cons e es ih =>
    rw [trace] at ht
    cases hs : step s e with
    | none => simp [hs] at ht
    | some s' =>
      simp only [hs, List.mem_cons] at ht
      rcases ht with rfl | ht
      · exact List.mem_cons_self
      · exact List.mem_cons_of_mem _ (ih ht)

/-- **Along a run**: what holds at its start and is kept by each of its steps holds before and after
every one of them. -/
theorem trace_invariant {P : σ → Prop} {s : σ} {es : List ε} (h0 : P s)
    (hstep : ∀ t ∈ trace step s es, P t.pre → P t.post) :
    ∀ t ∈ trace step s es, P t.pre ∧ P t.post := by
  induction es generalizing s with
  | nil => simp [trace]
  | cons e es ih =>
    rw [trace] at hstep ⊢
    cases hs : step s e with
    | none => simp
    | some s' =>
      simp only [hs, List.forall_mem_cons] at hstep ⊢
      have h' : P s' := hstep.1 h0
      exact ⟨⟨h0, h'⟩, ih h' hstep.2⟩

/-- A property of steps that agrees with another at reachable states agrees with it along every
trace. -/
theorem forall_trace_congr {P Q : Step σ ε → Prop}
    (hPQ : ∀ t : Step σ ε, Reachable step init t.pre → step t.pre t.event = some t.post →
      (P t ↔ Q t)) (es : List ε) :
    (∀ t ∈ trace step init es, P t) ↔ ∀ t ∈ trace step init es, Q t := by
  have key : ∀ t ∈ trace step init es, P t ↔ Q t := fun t ht =>
    let ⟨h, hs, _⟩ := mem_trace Reachable.init ht
    hPQ t h hs
  exact forall₂_congr key

/-- What holds at the start of a run, and after a step just if the step has `Q`, holds after every
step just if all of them have `Q`. An invariant may help. -/
theorem forall_trace_iff {I P : σ → Prop} {Q : Step σ ε → Prop}
    (hstep : ∀ s e s', I s → P s → step s e = some s' → I s' ∧ (P s' ↔ Q ⟨s, e, s'⟩)) {s : σ}
    (hI : I s) (hP : P s) (es : List ε) :
    (∀ t ∈ trace step s es, P t.post) ↔ ∀ t ∈ trace step s es, Q t := by
  induction es generalizing s with
  | nil => simp [trace]
  | cons e es ih =>
    rw [trace]
    cases hs : step s e with
    | none => simp
    | some s' =>
      obtain ⟨hI', hiff⟩ := hstep s e s' hI hP hs
      rw [List.forall_mem_cons, List.forall_mem_cons, hiff]
      exact and_congr_right fun hQ => ih hI' (hiff.2 hQ)

/-! ## The past of a step -/

theorem trace_head {s : σ} {es : List ε} {t : Step σ ε} {rest : List (Step σ ε)}
    (h : trace step s es = t :: rest) : t.pre = s := by
  cases es with
  | nil => cases h
  | cons e es =>
    rw [trace] at h
    split at h
    · cases h
    · obtain ⟨rfl, -⟩ := List.cons.inj h
      rfl

theorem trace_next {s : σ} {es : List ε} {ts rest : List (Step σ ε)} {u t : Step σ ε}
    (h : trace step s es = ts ++ u :: t :: rest) : t.pre = u.post := by
  induction es generalizing s ts with
  | nil => simp [trace] at h
  | cons e es ih =>
    rw [trace] at h
    split at h
    · simp at h
    · cases ts with
      | nil =>
        simp only [List.nil_append, List.cons.injEq] at h
        obtain ⟨rfl, h⟩ := h
        exact trace_head h
      | cons v ts =>
        simp only [List.cons_append, List.cons.injEq] at h
        exact ih h.2

/-- **Invariants of the past**: what holds at the start and is kept by every step of a run holds of
the state before each step and the steps before it. -/
theorem past_invariant {I : List (Step σ ε) → σ → Prop} {es : List ε} (h0 : I [] init)
    (hstep : ∀ ts t rest, trace step init es = ts ++ t :: rest → I ts t.pre →
      I (ts ++ [t]) t.post) {ts rest : List (Step σ ε)} {t : Step σ ε}
    (h : trace step init es = ts ++ t :: rest) : I ts t.pre := by
  induction ts using List.reverseRecOn generalizing t rest with
  | nil => exact trace_head h ▸ h0
  | append_singleton ts u ih =>
    rw [List.append_assoc] at h
    rw [trace_next h]
    exact hstep ts u _ h (ih h)

/-- Since the last step that resets, a step has been made that has `P` of its past. -/
def Since (reset : Step σ ε → Prop) (P : List (Step σ ε) → Step σ ε → Prop)
    (ts : List (Step σ ε)) : Prop :=
  ∃ past t later, ts = past ++ t :: later ∧ P past t ∧ ∀ u ∈ later, ¬ reset u

theorem Since.concat {reset : Step σ ε → Prop} {P : List (Step σ ε) → Step σ ε → Prop}
    {ts : List (Step σ ε)} (h : Since reset P ts) {t : Step σ ε} (ht : ¬ reset t) :
    Since reset P (ts ++ [t]) := by
  obtain ⟨past, u, later, rfl, hu, hlater⟩ := h
  refine ⟨past, u, later ++ [t], by simp, hu, fun v hv => ?_⟩
  rcases List.mem_append.1 hv with hv | hv
  · exact hlater v hv
  · rw [List.mem_singleton.1 hv]
    exact ht

/-- **Features and their causes**: a feature that only steps with `P` bring about, and that no reset
leaves, is there only since such a step. -/
theorem since_of_trace {reset : Step σ ε → Prop} {P : List (Step σ ε) → Step σ ε → Prop}
    {F : σ → Prop} {es : List ε} (h0 : ¬ F init)
    (hstep : ∀ ts t rest, trace step init es = ts ++ t :: rest → F t.post →
      P ts t ∨ (F t.pre ∧ ¬ reset t)) {ts rest : List (Step σ ε)} {t : Step σ ε}
    (h : trace step init es = ts ++ t :: rest) (hF : F t.pre) : Since reset P ts := by
  refine past_invariant (I := fun ts s => F s → Since reset P ts) (fun hF => absurd hF h0) ?_ h hF
  intro ts t rest h ih hF
  rcases hstep ts t rest h hF with hP | ⟨hpre, hreset⟩
  · exact ⟨ts, t, [], rfl, hP, by simp⟩
  · exact (ih hpre).concat hreset

end VirtualRsp.Run
