import Mathlib.Data.List.Basic

/-!
# Two parties in lock-step

A sender turns items into messages and a receiver turns messages into items; both keep a state of
the same type, and both may fail. If the receiver undoes one step of the sender and ends in the same
state (`Undoes`), then it undoes any number of them (`Undoes.all`), and two parties that start in
the same state stay in the same state (`run_undoes`).
-/

namespace VirtualRsp.LockStep

variable {σ α β ι : Type*}

/-- From the same state, `receive` gives back what `send` was given, and leads to the same state. -/
def Undoes (receive : β → σ → Option (α × σ)) (send : α → σ → Option (β × σ)) : Prop :=
  ∀ a s b s', send a s = some (b, s') → receive b s = some (a, s')

/-- A step for every element of a list, in order. -/
def all (step : α → σ → Option (β × σ)) : List α → σ → Option (List β × σ)
  | [], s => some ([], s)
  | a :: as, s => do
    let (b, s) ← step a s
    let (bs, s) ← all step as s
    return (b :: bs, s)

theorem all_cons_eq_some {step : α → σ → Option (β × σ)} {a : α} {as : List α} {s s' : σ}
    {bs : List β} : all step (a :: as) s = some (bs, s') ↔
      ∃ b t cs, step a s = some (b, t) ∧ all step as t = some (cs, s') ∧ bs = b :: cs := by
  simp only [all, Option.bind_eq_bind, Option.bind_eq_some_iff]
  constructor
  · rintro ⟨⟨b, t⟩, hb, ⟨cs, t'⟩, hcs, h⟩
    cases h
    exact ⟨b, t, cs, hb, hcs, rfl⟩
  · rintro ⟨b, t, cs, hb, hcs, rfl⟩
    exact ⟨(b, t), hb, (cs, s'), hcs, rfl⟩

/-- What every step takes from an element to its result, all steps do. -/
theorem all_map {γ : Type*} {step : α → σ → Option (β × σ)} {f : α → γ} {g : β → γ}
    (h : ∀ a s b s', step a s = some (b, s') → g b = f a) {as : List α} {s s' : σ} {bs : List β}
    (hall : all step as s = some (bs, s')) : bs.map g = as.map f := by
  induction as generalizing s bs with
  | nil =>
    cases hall
    rfl
  | cons a as ih =>
    obtain ⟨b, t, cs, hb, hcs, rfl⟩ := all_cons_eq_some.1 hall
    rw [List.map_cons, List.map_cons, h a s b t hb, ih hcs]

/-- What is true of the result of every step is true of all results. -/
theorem all_forall {step : α → σ → Option (β × σ)} {P : β → Prop}
    (h : ∀ a s b s', step a s = some (b, s') → P b) {as : List α} {s s' : σ} {bs : List β}
    (hall : all step as s = some (bs, s')) : ∀ b ∈ bs, P b := by
  induction as generalizing s bs with
  | nil =>
    cases hall
    exact List.forall_mem_nil _
  | cons a as ih =>
    obtain ⟨b, t, cs, hb, hcs, rfl⟩ := all_cons_eq_some.1 hall
    exact List.forall_mem_cons.2 ⟨h a s b t hb, ih hcs⟩

/-- **Any number of steps** are undone. -/
theorem Undoes.all {receive : β → σ → Option (α × σ)} {send : α → σ → Option (β × σ)}
    (h : Undoes receive send) : Undoes (LockStep.all receive) (LockStep.all send) := by
  intro as
  induction as with
  | nil =>
    intro s bs s' hs
    cases hs
    rfl
  | cons a as ih =>
    intro s bs s' hs
    obtain ⟨b, t, cs, hb, hcs, rfl⟩ := all_cons_eq_some.1 hs
    exact all_cons_eq_some.2 ⟨a, t, as, h a s b t hb, ih t cs s' hcs, rfl⟩

/-! ## Runs -/

/-- A run of both parties over a list of operations: what the receiver gets at each step, and the
states of the sender and the receiver after it. The run ends when the sender fails; it is `none`
when the receiver fails. -/
def run (send : ι → σ → Option (β × σ)) (receive : ι → β → σ → Option (α × σ)) :
    List ι → σ → σ → Option (List (α × σ × σ))
  | [], _, _ => some []
  | i :: is, s, r =>
    match send i s with
    | none => some []
    | some (b, s) => do
      let (a, r) ← receive i b r
      let steps ← run send receive is s r
      return (a, s, r) :: steps

/-- **Lock-step.** The receiver never fails, gets what was sent, and is in the sender's state after
every step; and the run goes on as long as the sender does not fail. -/
theorem run_undoes {send : ι → σ → Option (β × σ)} {receive : ι → β → σ → Option (α × σ)}
    {item : ι → α} (h : ∀ i s b s', send i s = some (b, s') → receive i b s = some (item i, s'))
    (is : List ι) (s : σ) :
    ∃ steps, run send receive is s s = some steps ∧
      steps.map Prod.fst = (is.map item).take steps.length ∧
      (∀ step ∈ steps, step.2.1 = step.2.2) ∧
      ((all send is s).isSome → steps.length = is.length) := by
  induction is generalizing s with
  | nil => exact ⟨[], rfl, rfl, by simp, fun _ => rfl⟩
  | cons i is ih =>
    cases hs : send i s with
    | none => exact ⟨[], by rw [run, hs], rfl, by simp, by simp [all, hs]⟩
    | some sent =>
      obtain ⟨b, t⟩ := sent
      obtain ⟨steps, hrun, hitems, hsame, hlen⟩ := ih t
      have hreceive := h i s b t hs
      refine ⟨(item i, t, t) :: steps, ?_, ?_, ?_, fun hall => ?_⟩
      · simp only [run, hs, hreceive, Option.bind_eq_bind, Option.bind_some, hrun]
        rfl
      · simp [hitems]
      · rw [List.forall_mem_cons]
        exact ⟨rfl, hsame⟩
      · have hall' : (all send is t).isSome := by
          obtain ⟨⟨bs, s'⟩, hbs⟩ := Option.isSome_iff_exists.1 hall
          obtain ⟨b', t', cs, hb', hcs, -⟩ := all_cons_eq_some.1 hbs
          rw [hs] at hb'
          cases hb'
          rw [hcs]
          rfl
        rw [List.length_cons, List.length_cons, hlen hall']

end VirtualRsp.LockStep
