import VirtualRsp.Foundations.Memory

/-!
# Programs over a state

`Program σ α` is a sequential program over a state: it faults (`none`), stops with an error and the
state it has reached, or returns a result. Errors propagate through sequencing, which is how C code
with a `goto err` after every call behaves.

`Returns x s a s'` says that `x` started in `s` returns `a` in `s'`. A sequence returns exactly when
its parts return one after the other (`returns_bind`, `returns_each_cons`).
-/

namespace VirtualRsp

/-- A program that may fault or stop with an error. -/
def Program (σ α : Type) := σ → Option (σ × Option α)

namespace Program

variable {σ α β : Type}

/-- Stop with an error. -/
def fail : Program σ α := fun s => some (s, none)

instance : Monad (Program σ) where
  pure a := fun s => some (s, some a)
  bind x f := fun s =>
    match x s with
    | none => none
    | some (t, none) => some (t, none)
    | some (t, some a) => f a t

/-- A result that may be missing. -/
def ofOption : Option α → Program σ α
  | none => fail
  | some a => pure a

/-- A computation that may fault and may fail. -/
def liftFault (x : Option (Option α)) : Program σ α := fun s => x.map fun a => (s, a)

/-- Change the state. -/
def alter (f : σ → σ) : Program σ Unit := fun s => some (f s, some ())

/-- What the state shows, or an error. -/
def fetch (f : σ → Option α) : Program σ α := fun s => some (s, f s)

/-- Started in `s`, the program returns `a` in `s'`. -/
def Returns (x : Program σ α) (s : σ) (a : α) (s' : σ) : Prop := x s = some (s', some a)

theorem returns_pure {a b : α} {s s' : σ} :
    (pure a : Program σ α).Returns s b s' ↔ a = b ∧ s = s' := by
  simp [Returns, pure, and_comm]

theorem returns_fail {a : α} {s s' : σ} : ¬ (fail : Program σ α).Returns s a s' := by
  simp [Returns, fail]

/-- **Sequencing**: both parts return. -/
theorem returns_bind {x : Program σ α} {f : α → Program σ β} {s s' : σ} {b : β} :
    (x >>= f).Returns s b s' ↔ ∃ a t, x.Returns s a t ∧ (f a).Returns t b s' := by
  simp only [Returns, bind]
  split
  · rename_i h
    simp [h]
  · rename_i t h
    simp [h]
  · rename_i t a h
    constructor
    · exact fun h' => ⟨a, t, h, h'⟩
    · rintro ⟨a', t', ha, h'⟩
      rw [h] at ha
      cases ha
      exact h'

/-- The rest of a sequence runs from where its first part returns. -/
theorem bind_of_returns {x : Program σ α} {f : α → Program σ β} {s t : σ} {a : α}
    (h : x s = some (t, some a)) : (x >>= f) s = f a t := by
  simp only [bind, h]

/-- A sequence stops where its first part fails. -/
theorem bind_of_fails {x : Program σ α} {f : α → Program σ β} {s t : σ}
    (h : x s = some (t, none)) : (x >>= f) s = some (t, none) := by
  simp only [bind, h]

/-- A sequence faults where its first part does. -/
theorem bind_of_faults {x : Program σ α} {f : α → Program σ β} {s : σ} (h : x s = none) :
    (x >>= f) s = none := by
  simp only [bind, h]

theorem returns_ofOption {o : Option α} {a : α} {s s' : σ} :
    (ofOption o : Program σ α).Returns s a s' ↔ o = some a ∧ s = s' := by
  cases o with
  | none => simp [ofOption, returns_fail]
  | some b => simp [ofOption, returns_pure]

theorem ofOption_bind {o : Option α} {a : α} (h : o = some a) (f : α → Program σ β) :
    (ofOption o >>= f) = f a := by
  rw [h]
  rfl

theorem returns_liftFault {x : Option (Option α)} {a : α} {s s' : σ} :
    (liftFault x : Program σ α).Returns s a s' ↔ x = some (some a) ∧ s = s' := by
  simp only [Returns, liftFault, Option.map_eq_some_iff, Prod.mk.injEq]
  constructor
  · rintro ⟨_, hx, rfl, rfl⟩
    exact ⟨hx, rfl⟩
  · rintro ⟨hx, rfl⟩
    exact ⟨_, hx, rfl, rfl⟩

theorem liftFault_bind {x : Option (Option α)} {a : α} (h : x = some (some a))
    (f : α → Program σ β) : (liftFault x >>= f) = f a := by
  rw [h]
  rfl

/-- What is done with a result may be done before. -/
theorem liftFault_map (x : Option (Option α)) (g : α → β) :
    (liftFault x >>= fun a => pure (g a) : Program σ β) = liftFault (x.map (Option.map g)) := by
  rcases x with _ | _ | a <;> rfl

theorem returns_fetch {f : σ → Option α} {a : α} {s s' : σ} :
    (fetch f).Returns s a s' ↔ f s = some a ∧ s = s' := by
  simp [Returns, fetch, and_comm]

theorem fetch_none {f : σ → Option α} {s : σ} (h : f s = none) : fetch f s = some (s, none) := by
  rw [fetch, h]

/-- Run a program for every element of a list, in order. -/
def each (f : α → Program σ Unit) : List α → Program σ Unit
  | [] => pure ()
  | x :: xs => do
    f x
    each f xs

theorem returns_each_nil {f : α → Program σ Unit} {s s' : σ} {u : Unit} :
    (each f []).Returns s u s' ↔ s = s' := by
  simp [each, returns_pure]

theorem returns_each_cons {f : α → Program σ Unit} {x : α} {xs : List α} {s s' : σ} {u : Unit} :
    (each f (x :: xs)).Returns s u s' ↔
      ∃ t, (f x).Returns s () t ∧ (each f xs).Returns t () s' := by
  rw [each, returns_bind]
  exact ⟨fun ⟨_, t, h⟩ => ⟨t, h⟩, fun ⟨t, h⟩ => ⟨(), t, h⟩⟩

theorem returns_each_append {f : α → Program σ Unit} {xs ys : List α} {s s' : σ} {u : Unit} :
    (each f (xs ++ ys)).Returns s u s' ↔
      ∃ t, (each f xs).Returns s () t ∧ (each f ys).Returns t () s' := by
  induction xs generalizing s with
  | nil =>
    simp only [List.nil_append, returns_each_nil]
    exact ⟨fun h => ⟨s, rfl, h⟩, fun ⟨_, hs, h⟩ => hs ▸ h⟩
  | cons x xs ih =>
    simp only [List.cons_append, returns_each_cons, ih]
    exact ⟨fun ⟨t, hx, t', hxs, hys⟩ => ⟨t', ⟨t, hx, hxs⟩, hys⟩,
      fun ⟨t', ⟨t, hx, hxs⟩, hys⟩ => ⟨t, hx, t', hxs, hys⟩⟩

theorem each_map {f : α → Program σ Unit} {g : β → α} (xs : List β) :
    each f (xs.map g) = each (fun x => f (g x)) xs := by
  induction xs with
  | nil => rfl
  | cons x xs ih => rw [List.map_cons, each, each, ih]

/-- Every element's run is part of a run over the list. -/
theorem returns_of_mem {f : α → Program σ Unit} {xs : List α} {s s' : σ}
    (h : (each f xs).Returns s () s') {x : α} (hx : x ∈ xs) : ∃ t t', (f x).Returns t () t' := by
  obtain ⟨pre, post, rfl⟩ := List.append_of_mem hx
  obtain ⟨t, -, hpost⟩ := returns_each_append.1 h
  obtain ⟨t', hx, -⟩ := returns_each_cons.1 hpost
  exact ⟨t, t', hx⟩

/-- **Running over a list**: what relates the elements that were run to the state, and holds after
every one of them, holds at the end. -/
theorem returns_each_of_step {f : α → Program σ Unit} {P : List α → σ → Prop} {xs : List α}
    (hstep : ∀ done x s, x ∈ xs → P done s → ∃ t, (f x).Returns s () t ∧ P (done ++ [x]) t)
    (done : List α) {s : σ} (h : P done s) :
    ∃ t, (each f xs).Returns s () t ∧ P (done ++ xs) t := by
  induction xs generalizing done s with
  | nil =>
    refine ⟨s, returns_each_nil.2 rfl, ?_⟩
    rwa [List.append_nil]
  | cons x xs ih =>
    obtain ⟨t, hx, ht⟩ := hstep done x s List.mem_cons_self h
    obtain ⟨t', hxs, ht'⟩ :=
      ih (fun done y s hy => hstep done y s (List.mem_cons_of_mem x hy)) _ ht
    rw [List.append_assoc, List.singleton_append] at ht'
    exact ⟨t', returns_each_cons.2 ⟨t, hx, hxs⟩, ht'⟩

/-! ## Runs that end early -/

/-- A sequence ends with an error in its first part, or with what its second part does. -/
theorem bind_cases {x : Program σ α} {f : α → Program σ β} {s t : σ} {r : Option β}
    (h : (x >>= f) s = some (t, r)) :
    (x s = some (t, none) ∧ r = none) ∨ ∃ a u, x.Returns s a u ∧ f a u = some (t, r) := by
  simp only [bind] at h
  split at h
  · cases h
  · rename_i u hx
    cases h
    exact .inl ⟨hx, rfl⟩
  · rename_i u a hx
    exact .inr ⟨a, u, hx, h⟩

/-- **A run over a list** comes to its end, or it ends with an error at one of the elements. -/
theorem each_cases {f : α → Program σ Unit} {xs : List α} {s t : σ} {r : Option Unit}
    (h : each f xs s = some (t, r)) :
    ((each f xs).Returns s () t ∧ r = some ()) ∨
      ∃ done x rest u, xs = done ++ x :: rest ∧ (each f done).Returns s () u ∧
        f x u = some (t, none) ∧ r = none := by
  induction xs generalizing s with
  | nil =>
    cases h
    exact .inl ⟨returns_each_nil.2 rfl, rfl⟩
  | cons x xs ih =>
    obtain ⟨hx, rfl⟩ | ⟨_, u, hx, h⟩ := bind_cases h
    · exact .inr ⟨[], x, xs, s, rfl, returns_each_nil.2 rfl, hx, rfl⟩
    · obtain ⟨hxs, rfl⟩ | ⟨done, y, rest, v, rfl, hdone, hy, rfl⟩ := ih h
      · exact .inl ⟨returns_each_cons.2 ⟨u, hx, hxs⟩, rfl⟩
      · exact .inr ⟨x :: done, y, rest, v, rfl, returns_each_cons.2 ⟨u, hx, hdone⟩, hy, rfl⟩

/-! ## What a program does to the state -/

/-- The program does not fault, and it relates the state it starts in to the one it ends in, with a
result or an error. -/
def Relates (R : σ → σ → Prop) (x : Program σ α) : Prop := ∀ s, ∃ s' r, x s = some (s', r) ∧ R s s'

theorem Relates.bind {R : σ → σ → Prop} (htrans : ∀ s t u, R s t → R t u → R s u)
    {x : Program σ α} {f : α → Program σ β} (hx : Relates R x) (hf : ∀ a, Relates R (f a)) :
    Relates R (x >>= f) := by
  intro s
  obtain ⟨t, _ | a, ht, hR⟩ := hx s
  · exact ⟨t, none, bind_of_fails ht, hR⟩
  · obtain ⟨u, r, hu, hR'⟩ := hf a t
    exact ⟨u, r, (bind_of_returns ht).trans hu, htrans s t u hR hR'⟩

theorem Relates.each {R : σ → σ → Prop} (hrefl : ∀ s, R s s)
    (htrans : ∀ s t u, R s t → R t u → R s u) {f : α → Program σ Unit}
    (hf : ∀ a, Relates R (f a)) (xs : List α) : Relates R (Program.each f xs) := by
  induction xs with
  | nil => exact fun s => ⟨s, some (), rfl, hrefl s⟩
  | cons x xs ih => exact (hf x).bind htrans fun _ => ih

theorem relates_fetch {R : σ → σ → Prop} (hrefl : ∀ s, R s s) (f : σ → Option α) :
    Relates R (fetch f) := fun s => ⟨s, f s, rfl, hrefl s⟩

theorem relates_ofOption {R : σ → σ → Prop} (hrefl : ∀ s, R s s) (o : Option α) :
    Relates R (ofOption o) := by
  intro s
  cases o with
  | none => exact ⟨s, none, rfl, hrefl s⟩
  | some a => exact ⟨s, some a, rfl, hrefl s⟩

/-- The same for a program that may fault: whatever it ends with, it relates the two states. -/
def Moves (R : σ → σ → Prop) (x : Program σ α) : Prop :=
  ∀ ⦃s s' r⦄, x s = some (s', r) → R s s'

theorem Moves.bind {R : σ → σ → Prop} (htrans : ∀ s t u, R s t → R t u → R s u)
    {x : Program σ α} {f : α → Program σ β} (hx : Moves R x) (hf : ∀ a, Moves R (f a)) :
    Moves R (x >>= f) := by
  intro s t r h
  obtain ⟨h, -⟩ | ⟨a, u, hu, h⟩ := bind_cases h
  · exact hx h
  · exact htrans s u t (hx hu) (hf a h)

theorem moves_pure {R : σ → σ → Prop} (hrefl : ∀ s, R s s) (a : α) :
    Moves R (pure a : Program σ α) := by
  intro s t r h
  cases h
  exact hrefl s

theorem Moves.each {R : σ → σ → Prop} (hrefl : ∀ s, R s s)
    (htrans : ∀ s t u, R s t → R t u → R s u) {f : α → Program σ Unit}
    (hf : ∀ a, Moves R (f a)) (xs : List α) : Moves R (Program.each f xs) := by
  induction xs with
  | nil => exact moves_pure hrefl ()
  | cons x xs ih => exact (hf x).bind htrans fun _ => ih

theorem moves_ofOption {R : σ → σ → Prop} (hrefl : ∀ s, R s s) (o : Option α) :
    Moves R (ofOption o) := by
  intro s t r h
  cases o with
  | none => cases h; exact hrefl s
  | some a => cases h; exact hrefl s

theorem moves_liftFault {R : σ → σ → Prop} (hrefl : ∀ s, R s s) (x : Option (Option α)) :
    Moves R (liftFault x) := by
  intro s t r h
  obtain ⟨a, -, h⟩ := Option.map_eq_some_iff.1 h
  cases h
  exact hrefl s

/-! ## A view of the state -/

variable {τ α' β' : Type}

/-- Seen through a view of its states and of its results, a program does what another one does. -/
def Projects (view : τ → σ) (g : α' → α) (x : Program τ α') (y : Program σ α) : Prop :=
  ∀ s, (x s).map (fun r => (view r.1, r.2.map g)) = y (view s)

theorem projects_pure {view : τ → σ} {g : α' → α} {a : α'} :
    Projects view g (pure a) (pure (g a)) := fun _ => rfl

theorem projects_ofOption {view : τ → σ} {g : α' → α} (o : Option α') :
    Projects view g (ofOption o) (ofOption (o.map g)) := by
  cases o with
  | none => exact fun _ => rfl
  | some a => exact fun _ => rfl

theorem projects_ofOption_id {view : τ → σ} (o : Option α) :
    Projects view id (ofOption o) (ofOption o) := by
  have h := @projects_ofOption _ _ _ _ view id o
  rwa [Option.map_id, id] at h

theorem projects_liftFault {view : τ → σ} (x : Option (Option α)) :
    Projects view id (liftFault x) (liftFault x) := by
  intro s
  rcases x with _ | _ | a <;> rfl

theorem Projects.bind {view : τ → σ} {g : α' → α} {g' : β' → β} {x : Program τ α'}
    {y : Program σ α} {f : α' → Program τ β'} {k : α → Program σ β} (hx : Projects view g x y)
    (hf : ∀ a, Projects view g' (f a) (k (g a))) : Projects view g' (x >>= f) (y >>= k) := by
  intro s
  have h := hx s
  simp only [Bind.bind]
  rw [← h]
  cases x s with
  | none => rfl
  | some r =>
    obtain ⟨t, _ | a⟩ := r
    · rfl
    · exact hf a t

theorem projects_each {view : τ → σ} {g : α' → α} {f : α' → Program τ Unit}
    {k : α → Program σ Unit} (h : ∀ a, Projects view id (f a) (k (g a))) (xs : List α') :
    Projects view id (each f xs) (each k (xs.map g)) := by
  induction xs with
  | nil => exact projects_pure
  | cons x xs ih => exact (h x).bind fun _ => ih

end Program

end VirtualRsp
