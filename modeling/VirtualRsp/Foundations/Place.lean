import VirtualRsp.Foundations.Run

/-!
# A place for one value

A state has a place that is empty or holds one value. A step puts a value there only when the place
is empty, it takes exactly the value that is there, and no other step changes the place unless it
clears it (`Place`).

In every run that starts with an empty place, values are taken at most as often as they are put
(`Place.countP_takes_le`), and the value that a step takes is the one that was put by the last step
that touched the place (`Place.puts_since`). So no two steps take the same value
(`Place.puts_between`).
-/

namespace VirtualRsp.Run

variable {σ ε α : Type*} {step : σ → ε → Option σ} {init : σ}

/-- A place for one value: what it holds, and what the steps put there, take from there, and clear.
-/
structure Place (step : σ → ε → Option σ) (α : Type*) where
  content : σ → Option α
  puts : Step σ ε → Option α
  takes : Step σ ε → Option α
  clears : Step σ ε → Bool
  content_of_puts : ∀ t v, step t.pre t.event = some t.post → puts t = some v →
    content t.pre = none
  content_of_takes : ∀ t v, step t.pre t.event = some t.post → takes t = some v →
    content t.pre = some v
  content_post : ∀ t, step t.pre t.event = some t.post → content t.post =
    (puts t).or (if (takes t).isSome || clears t then none else content t.pre)

namespace Place

/-- How many values there are. -/
def held (o : Option α) : ℕ := if o.isSome then 1 else 0

@[simp] theorem held_none : held (none : Option α) = 0 := rfl

@[simp] theorem held_some (v : α) : held (some v) = 1 := rfl

variable (P : Place step α)

theorem puts_of_takes {t : Step σ ε} (ht : step t.pre t.event = some t.post) {v : α}
    (h : P.takes t = some v) : P.puts t = none := by
  rw [Option.eq_none_iff_forall_ne_some]
  intro w hw
  have hpre := P.content_of_takes t v ht h
  rw [P.content_of_puts t w ht hw] at hpre
  cases hpre

/-- A step takes no more than it puts and finds. -/
theorem held_step {t : Step σ ε} (ht : step t.pre t.event = some t.post) :
    held (P.takes t) + held (P.content t.post) ≤ held (P.puts t) + held (P.content t.pre) := by
  rw [P.content_post t ht]
  cases htakes : P.takes t with
  | some v =>
    rw [P.puts_of_takes ht htakes, P.content_of_takes t v ht htakes]
    simp
  | none =>
    cases hputs : P.puts t with
    | some v => simp
    | none => cases hclears : P.clears t <;> simp

theorem countP_takes_le_add (s : σ) (es : List ε) :
    (trace step s es).countP (fun t => (P.takes t).isSome) ≤
      (trace step s es).countP (fun t => (P.puts t).isSome) + held (P.content s) := by
  induction es generalizing s with
  | nil => exact Nat.zero_le _
  | cons e es ih =>
    rw [trace]
    cases hs : step s e with
    | none => exact Nat.zero_le _
    | some s' =>
      have hstep := @held_step _ _ _ _ P ⟨s, e, s'⟩ hs
      have hrest := ih s'
      simp only [held] at hstep hrest
      simp only [List.countP_cons, held]
      omega

/-- **Counts**: values are taken at most as often as they are put. -/
theorem countP_takes_le (h0 : P.content init = none) (es : List ε) :
    (trace step init es).countP (fun t => (P.takes t).isSome) ≤
      (trace step init es).countP (fun t => (P.puts t).isSome) := by
  have h := P.countP_takes_le_add init es
  rwa [h0, held_none, Nat.add_zero] at h

/-- A step that puts a value, takes one, or clears the place. -/
def Touches (t : Step σ ε) : Prop := (P.puts t).isSome ∨ (P.takes t).isSome ∨ P.clears t

theorem puts_of_content_post {t : Step σ ε} (ht : step t.pre t.event = some t.post) {v : α}
    (h : P.content t.post = some v) :
    P.puts t = some v ∨ P.content t.pre = some v ∧ ¬ P.Touches t := by
  rw [P.content_post t ht] at h
  cases hputs : P.puts t with
  | some w =>
    rw [hputs, Option.some_or] at h
    exact Or.inl h
  | none =>
    rw [hputs, Option.none_or] at h
    split at h
    · cases h
    · rename_i hnot
      refine Or.inr ⟨h, ?_⟩
      rintro (hputs' | htouch)
      · rw [hputs] at hputs'
        cases hputs'
      · exact hnot (Bool.or_eq_true_iff.2 htouch)

/-- **Where a value comes from**: the last step that touched the place put it there. -/
theorem puts_since (h0 : P.content init = none) {es : List ε} {ts rest : List (Step σ ε)}
    {t : Step σ ε} (h : trace step init es = ts ++ t :: rest) {v : α} (ht : P.takes t = some v) :
    Since P.Touches (fun _ u => P.puts u = some v) ts := by
  have hmem : ∀ {u}, u ∈ trace step init es → step u.pre u.event = some u.post :=
    fun hu => (mem_trace Reachable.init hu).2.1
  refine @since_of_trace _ _ _ _ _ _ (fun s => P.content s = some v) es ?_ ?_ ts rest t h ?_
  · rw [h0]
    exact Option.some_ne_none v ∘ Eq.symm
  · intro ts u rest hu hpost
    apply P.puts_of_content_post (hmem _) hpost
    rw [hu]
    exact List.mem_append_right _ List.mem_cons_self
  · apply P.content_of_takes t v (hmem _) ht
    rw [h]
    exact List.mem_append_right _ List.mem_cons_self

/-- **No value is taken twice**: between two steps that take values the second value is put. -/
theorem puts_between (h0 : P.content init = none) {es : List ε}
    {ts us rest : List (Step σ ε)} {t u : Step σ ε}
    (h : trace step init es = ts ++ t :: (us ++ u :: rest)) (ht : (P.takes t).isSome) {v : α}
    (hu : P.takes u = some v) : ∃ w ∈ us, P.puts w = some v := by
  have hsplit : trace step init es = (ts ++ t :: us) ++ u :: rest := by
    rw [h, List.append_assoc, List.cons_append]
  obtain ⟨past, w, later, heq, hw, hlater⟩ := P.puts_since h0 hsplit hu
  have htouch : P.Touches t := Or.inr (Or.inl ht)
  have hne : w ≠ t := by
    rintro rfl
    obtain ⟨v', hv'⟩ := Option.isSome_iff_exists.1 ht
    have hmem : w ∈ trace step init es := by
      rw [h]
      exact List.mem_append_right _ List.mem_cons_self
    rw [P.puts_of_takes (mem_trace Reachable.init hmem).2.1 hv'] at hw
    cases hw
  -- the first of the two steps touches the place, so the value is put behind it
  rcases List.append_eq_append_iff.1 heq with ⟨as, -, has⟩ | ⟨bs, -, hbs⟩
  · cases as with
    | nil => exact absurd (List.cons.inj has).1.symm hne
    | cons a as =>
      refine ⟨w, ?_, hw⟩
      rw [(List.cons.inj has).2]
      exact List.mem_append_right _ List.mem_cons_self
  · cases bs with
    | nil => exact absurd (List.cons.inj hbs).1 hne
    | cons b bs =>
      refine absurd htouch (hlater t ?_)
      rw [(List.cons.inj hbs).2]
      exact List.mem_append_right _ List.mem_cons_self

end Place

end VirtualRsp.Run
