import VirtualRsp.Foundations.Run

/-!
# Two machines side by side

Two machines take turns in any order (`interleave`). What each of them does in a run of both is a
run of its own (`trace_interleave`), so that an invariant of one machine holds in every run of both,
and `past_left`, `past_right` carry a step and its past over.
-/

namespace VirtualRsp.Run

variable {α β ε δ : Type*} {stepA : α → ε → Option α} {stepB : β → δ → Option β}

/-- An event is one of the first machine or one of the second. -/
def interleave (stepA : α → ε → Option α) (stepB : β → δ → Option β) (s : α × β) :
    ε ⊕ δ → Option (α × β)
  | .inl e => (stepA s.1 e).map fun a => (a, s.2)
  | .inr d => (stepB s.2 d).map fun b => (s.1, b)

/-- A step of the first machine. -/
def Step.left (t : Step (α × β) (ε ⊕ δ)) : Option (Step α ε) :=
  match t.event with
  | .inl e => some ⟨t.pre.1, e, t.post.1⟩
  | .inr _ => none

/-- A step of the second machine. -/
def Step.right (t : Step (α × β) (ε ⊕ δ)) : Option (Step β δ) :=
  match t.event with
  | .inl _ => none
  | .inr d => some ⟨t.pre.2, d, t.post.2⟩

/-- **Each machine's part** of a run is a run. -/
theorem trace_interleave (a : α) (b : β) (es : List (ε ⊕ δ)) :
    (∃ as, (trace (interleave stepA stepB) (a, b) es).filterMap Step.left = trace stepA a as) ∧
      ∃ bs, (trace (interleave stepA stepB) (a, b) es).filterMap Step.right = trace stepB b bs := by
  induction es generalizing a b with
  | nil => exact ⟨⟨[], rfl⟩, ⟨[], rfl⟩⟩
  | cons e es ih =>
    cases e with
    | inl e =>
      cases ha : stepA a e with
      | none =>
        have hstep : interleave stepA stepB (a, b) (.inl e) = none := by simp [interleave, ha]
        rw [trace, hstep]
        exact ⟨⟨[], rfl⟩, ⟨[], rfl⟩⟩
      | some a' =>
        have hstep : interleave stepA stepB (a, b) (.inl e) = some (a', b) := by
          simp [interleave, ha]
        obtain ⟨⟨as, has⟩, ⟨bs, hbs⟩⟩ := ih a' b
        rw [trace, hstep]
        refine ⟨⟨e :: as, ?_⟩, ⟨bs, hbs⟩⟩
        rw [trace, ha]
        exact congrArg (List.cons _) has
    | inr d =>
      cases hb : stepB b d with
      | none =>
        have hstep : interleave stepA stepB (a, b) (.inr d) = none := by simp [interleave, hb]
        rw [trace, hstep]
        exact ⟨⟨[], rfl⟩, ⟨[], rfl⟩⟩
      | some b' =>
        have hstep : interleave stepA stepB (a, b) (.inr d) = some (a, b') := by
          simp [interleave, hb]
        obtain ⟨⟨as, has⟩, ⟨bs, hbs⟩⟩ := ih a b'
        rw [trace, hstep]
        refine ⟨⟨as, has⟩, ⟨d :: bs, ?_⟩⟩
        rw [trace, hb]
        exact congrArg (List.cons _) hbs

variable {a : α} {b : β} {es : List (ε ⊕ δ)} {past rest : List (Step (α × β) (ε ⊕ δ))}
  {t : Step (α × β) (ε ⊕ δ)}

/-- A step of the first machine, with its past, in a run of its own. -/
theorem past_left (h : trace (interleave stepA stepB) (a, b) es = past ++ t :: rest)
    {u : Step α ε} (hu : t.left = some u) :
    ∃ as, trace stepA a as = past.filterMap Step.left ++ u :: rest.filterMap Step.left := by
  obtain ⟨as, has⟩ := (@trace_interleave _ _ _ _ stepA stepB a b es).1
  rw [h, List.filterMap_append, List.filterMap_cons_some hu] at has
  exact ⟨as, has.symm⟩

/-- A step of the second machine, with its past, in a run of its own. -/
theorem past_right (h : trace (interleave stepA stepB) (a, b) es = past ++ t :: rest)
    {u : Step β δ} (hu : t.right = some u) :
    ∃ bs, trace stepB b bs = past.filterMap Step.right ++ u :: rest.filterMap Step.right := by
  obtain ⟨bs, hbs⟩ := (@trace_interleave _ _ _ _ stepA stepB a b es).2
  rw [h, List.filterMap_append, List.filterMap_cons_some hu] at hbs
  exact ⟨bs, hbs.symm⟩

/-- **One machine and then the other**: the steps of both, one after the other. -/
theorem trace_inl_inr {as : List ε} {a' : α} (h : exec stepA a as = some a') (ds : List δ) :
    trace (interleave stepA stepB) (a, b) (as.map .inl ++ ds.map .inr) =
      (trace stepA a as).map (fun t => ⟨(t.pre, b), .inl t.event, (t.post, b)⟩) ++
        (trace stepB b ds).map (fun t => ⟨(a', t.pre), .inr t.event, (a', t.post)⟩) := by
  induction as generalizing a with
  | nil =>
    obtain rfl := Option.some.inj h
    induction ds generalizing b with
    | nil => rfl
    | cons d ds ih =>
      cases hb : stepB b d with
      | none => simp [trace, interleave, hb]
      | some b' =>
        have hrest := @ih b'
        simp only [List.map_nil, List.nil_append] at hrest
        simp [trace, interleave, hb, hrest]
  | cons e as ih =>
    obtain ⟨a'', ha, h⟩ := Option.bind_eq_some_iff.1 h
    simp [trace, interleave, ha, ih h]

end VirtualRsp.Run
