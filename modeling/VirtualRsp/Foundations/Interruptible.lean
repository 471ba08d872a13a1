import Mathlib.Data.List.Basic

/-!
# Programs that may be interrupted

A program with exceptions returns, raises an exception, or is stopped from outside before it comes
to an end (`Ended`). Its `Course` is the list of the states it passes through, the state in which it
ends, and how it ends. `tryFinally` and `tryExcept` are `try: .. finally: ..` and
`try: .. except: ..; raise`: the one runs a block in either case, the other only after an exception,
and neither runs anything after a stop.

`Ensures x s I Q R S` says of a program started in `s`: every state that it passes through has `I`,
it returns only with `Q`, it raises only with `R`, and it is stopped only if `S`. There is one rule
for each construct (`Ensures.bind`, `Ensures.tryFinally`, `Ensures.tryExcept`,
`Ensures.operation`).
-/

namespace VirtualRsp

/-- How a program ends. -/
inductive Ended (ε α : Type)
  | returned (a : α)
  | raised (e : ε)
  | stopped

/-- The states a program passes through, the last one, and how it ends. -/
structure Course (σ ε α : Type) where
  visited : List σ
  final : σ
  ended : Ended ε α

/-- A program that may raise an exception or be stopped. -/
def Interruptible (σ ε α : Type) := σ → Course σ ε α

namespace Interruptible

variable {σ ε α β : Type}

instance : Monad (Interruptible σ ε) where
  pure a := fun s => ⟨[], s, .returned a⟩
  bind x f := fun s =>
    match x s with
    | ⟨visited, t, .returned a⟩ =>
      ⟨visited ++ (f a t).visited, (f a t).final, (f a t).ended⟩
    | ⟨visited, t, .raised e⟩ => ⟨visited, t, .raised e⟩
    | ⟨visited, t, .stopped⟩ => ⟨visited, t, .stopped⟩

/-- The present state. -/
def get : Interruptible σ ε σ := fun s => ⟨[], s, .returned s⟩

/-- Raise an exception. -/
def raise (e : ε) : Interruptible σ ε α := fun s => ⟨[], s, .raised e⟩

/-- What becomes of an operation. -/
inductive Verdict (ε : Type)
  | succeeds
  | raises (e : ε)
  | stops

/-- An operation that has an effect if it succeeds, and possibly another if it does not. -/
def operation (verdict : Verdict ε) (success failure : σ → σ) : Interruptible σ ε Unit := fun s =>
  match verdict with
  | .succeeds => ⟨[success s], success s, .returned ()⟩
  | .raises e => ⟨[failure s], failure s, .raised e⟩
  | .stops => ⟨[failure s], failure s, .stopped⟩

/-- A block that runs after something has ended: an exception of the block takes the place of that
end. -/
def followedBy (visited : List σ) (ended : Ended ε α) (block : Course σ ε Unit) : Course σ ε α :=
  match block with
  | ⟨visited', t, .returned _⟩ => ⟨visited ++ visited', t, ended⟩
  | ⟨visited', t, .raised e⟩ => ⟨visited ++ visited', t, .raised e⟩
  | ⟨visited', t, .stopped⟩ => ⟨visited ++ visited', t, .stopped⟩

/-- `try: body finally: block`. -/
def tryFinally (body : Interruptible σ ε α) (block : Interruptible σ ε Unit) :
    Interruptible σ ε α := fun s =>
  match body s with
  | ⟨visited, t, .returned a⟩ => followedBy visited (.returned a) (block t)
  | ⟨visited, t, .raised e⟩ => followedBy visited (.raised e) (block t)
  | ⟨visited, t, .stopped⟩ => ⟨visited, t, .stopped⟩

/-- `try: body except: block; raise`. -/
def tryExcept (body : Interruptible σ ε α) (block : Interruptible σ ε Unit) :
    Interruptible σ ε α := fun s =>
  match body s with
  | ⟨visited, t, .returned a⟩ => ⟨visited, t, .returned a⟩
  | ⟨visited, t, .raised e⟩ => followedBy visited (.raised e) (block t)
  | ⟨visited, t, .stopped⟩ => ⟨visited, t, .stopped⟩

/-! ## What a program ensures -/

/-- What holds of the course of a program. -/
structure Holds (c : Course σ ε α) (I : σ → Prop) (Q : α → σ → Prop) (R : ε → σ → Prop)
    (S : Prop) : Prop where
  visited : ∀ t ∈ c.visited, I t
  final : I c.final
  returned : ∀ a, c.ended = .returned a → Q a c.final
  raised : ∀ e, c.ended = .raised e → R e c.final
  stopped : c.ended = .stopped → S

/-- What holds of the course of a program from a state on. -/
def Ensures (x : Interruptible σ ε α) (s : σ) (I : σ → Prop) (Q : α → σ → Prop)
    (R : ε → σ → Prop) (S : Prop) : Prop := Holds (x s) I Q R S

variable {I : σ → Prop} {R : ε → σ → Prop} {S : Prop} {s : σ}

theorem Holds.prepend {c : Course σ ε α} {Q : α → σ → Prop} (h : Holds c I Q R S)
    {visited : List σ} (hvisited : ∀ t ∈ visited, I t) :
    Holds ⟨visited ++ c.visited, c.final, c.ended⟩ I Q R S where
  visited := List.forall_mem_append.2 ⟨hvisited, h.visited⟩
  final := h.final
  returned := h.returned
  raised := h.raised
  stopped := h.stopped

theorem Holds.of_returned {visited : List σ} {t : σ} {a : α} {Q : α → σ → Prop}
    (hvisited : ∀ u ∈ visited, I u) (hfinal : I t) (hQ : Q a t) :
    Holds (⟨visited, t, .returned a⟩ : Course σ ε α) I Q R S where
  visited := hvisited
  final := hfinal
  returned _ h := by
    cases h
    exact hQ
  raised _ h := by cases h
  stopped h := by cases h

theorem Holds.of_raised {visited : List σ} {t : σ} {e : ε} {Q : α → σ → Prop}
    (hvisited : ∀ u ∈ visited, I u) (hfinal : I t) (hR : R e t) :
    Holds (⟨visited, t, .raised e⟩ : Course σ ε α) I Q R S where
  visited := hvisited
  final := hfinal
  returned _ h := by cases h
  raised _ h := by
    cases h
    exact hR
  stopped h := by cases h

theorem Holds.of_stopped {visited : List σ} {t : σ} {Q : α → σ → Prop}
    (hvisited : ∀ u ∈ visited, I u) (hfinal : I t) (hS : S) :
    Holds (⟨visited, t, .stopped⟩ : Course σ ε α) I Q R S where
  visited := hvisited
  final := hfinal
  returned _ h := by cases h
  raised _ h := by cases h
  stopped _ := hS

theorem Ensures.pure {a : α} {Q : α → σ → Prop} (hI : I s) (hQ : Q a s) :
    Ensures (pure a : Interruptible σ ε α) s I Q R S :=
  Holds.of_returned (List.forall_mem_nil _) hI hQ

theorem Ensures.get {Q : σ → σ → Prop} (hI : I s) (hQ : Q s s) :
    Ensures (get : Interruptible σ ε σ) s I Q R S :=
  Holds.of_returned (List.forall_mem_nil _) hI hQ

theorem Ensures.raise {e : ε} {Q : α → σ → Prop} (hI : I s) (hR : R e s) :
    Ensures (raise e : Interruptible σ ε α) s I Q R S :=
  Holds.of_raised (List.forall_mem_nil _) hI hR

/-- **An operation**: a postcondition for each verdict. -/
theorem Ensures.operation {verdict : Verdict ε} {success failure : σ → σ} {Q : Unit → σ → Prop}
    (hsuccess : verdict = .succeeds → I (success s) ∧ Q () (success s))
    (hraises : ∀ e, verdict = .raises e → I (failure s) ∧ R e (failure s))
    (hstops : verdict = .stops → I (failure s) ∧ S) :
    Ensures (operation verdict success failure) s I Q R S := by
  have hone : ∀ {t : σ}, I t → ∀ u ∈ [t], I u := fun h => List.forall_mem_singleton.2 h
  cases verdict with
  | succeeds =>
    obtain ⟨hI, hQ⟩ := hsuccess rfl
    exact Holds.of_returned (hone hI) hI hQ
  | raises e =>
    obtain ⟨hI, hR⟩ := hraises e rfl
    exact Holds.of_raised (hone hI) hI hR
  | stops =>
    obtain ⟨hI, hS⟩ := hstops rfl
    exact Holds.of_stopped (hone hI) hI hS

/-- Conditions that follow from others. -/
theorem Ensures.mono {x : Interruptible σ ε α} {I' : σ → Prop} {Q Q' : α → σ → Prop}
    {R' : ε → σ → Prop} {S' : Prop} (h : Ensures x s I Q R S) (hI : ∀ t, I t → I' t)
    (hQ : ∀ a t, I t → Q a t → Q' a t) (hR : ∀ e t, I t → R e t → R' e t) (hS : S → S') :
    Ensures x s I' Q' R' S' where
  visited t ht := hI t (h.visited t ht)
  final := hI _ h.final
  returned a ha := hQ a _ h.final (h.returned a ha)
  raised e he := hR e _ h.final (h.raised e he)
  stopped hstop := hS (h.stopped hstop)

/-- **Sequencing**. -/
theorem Ensures.bind {x : Interruptible σ ε α} {f : α → Interruptible σ ε β} {Q : α → σ → Prop}
    {Q' : β → σ → Prop} (hx : Ensures x s I Q R S)
    (hf : ∀ a t, I t → Q a t → Ensures (f a) t I Q' R S) : Ensures (x >>= f) s I Q' R S := by
  unfold Ensures at hx ⊢
  simp only [Bind.bind]
  generalize x s = course at hx ⊢
  obtain ⟨visited, t, ended⟩ := course
  cases ended with
  | returned a => exact (hf a t hx.final (hx.returned a rfl)).prepend hx.visited
  | raised e => exact Holds.of_raised hx.visited hx.final (hx.raised e rfl)
  | stopped => exact Holds.of_stopped hx.visited hx.final (hx.stopped rfl)

theorem Holds.followedBy {visited : List σ} {block : Course σ ε Unit} {ended : Ended ε α}
    {P : σ → Prop} {Q : α → σ → Prop} (hvisited : ∀ t ∈ visited, I t)
    (hblock : Holds block I (fun _ => P) R S)
    (hended : ∀ t, I t → P t → Holds ⟨[], t, ended⟩ I Q R S) :
    Holds (followedBy visited ended block) I Q R S := by
  have hall : ∀ t ∈ visited ++ block.visited, I t :=
    List.forall_mem_append.2 ⟨hvisited, hblock.visited⟩
  obtain ⟨visited', t, ended'⟩ := block
  cases ended' with
  | returned u =>
    have hlast := (hended t hblock.final (hblock.returned u rfl)).prepend hall
    rwa [List.append_nil] at hlast
  | raised e => exact Holds.of_raised hall hblock.final (hblock.raised e rfl)
  | stopped => exact Holds.of_stopped hall hblock.final (hblock.stopped rfl)

/-- **`try: .. finally: ..`**: the block runs after the body, whether it has returned or raised. -/
theorem Ensures.tryFinally {body : Interruptible σ ε α} {block : Interruptible σ ε Unit}
    {Q Q' : α → σ → Prop} {E : ε → σ → Prop} (hbody : Ensures body s I Q E S)
    (hreturned : ∀ a t, I t → Q a t → Ensures block t I (fun _ => Q' a) R S)
    (hraised : ∀ e t, I t → E e t → Ensures block t I (fun _ => R e) R S) :
    Ensures (tryFinally body block) s I Q' R S := by
  unfold Ensures at *
  unfold Interruptible.tryFinally
  generalize body s = course at hbody ⊢
  obtain ⟨visited, t, ended⟩ := course
  cases ended with
  | returned a =>
    exact Holds.followedBy hbody.visited (hreturned a t hbody.final (hbody.returned a rfl))
      fun _ hI hQ => Holds.of_returned (List.forall_mem_nil _) hI hQ
  | raised e =>
    exact Holds.followedBy hbody.visited (hraised e t hbody.final (hbody.raised e rfl))
      fun _ hI hR => Holds.of_raised (List.forall_mem_nil _) hI hR
  | stopped => exact Holds.of_stopped hbody.visited hbody.final (hbody.stopped rfl)

/-- **`try: .. except: ..; raise`**: the block runs only after an exception. -/
theorem Ensures.tryExcept {body : Interruptible σ ε α} {block : Interruptible σ ε Unit}
    {Q : α → σ → Prop} {E : ε → σ → Prop} (hbody : Ensures body s I Q E S)
    (hraised : ∀ e t, I t → E e t → Ensures block t I (fun _ => R e) R S) :
    Ensures (tryExcept body block) s I Q R S := by
  unfold Ensures at *
  unfold Interruptible.tryExcept
  generalize body s = course at hbody ⊢
  obtain ⟨visited, t, ended⟩ := course
  cases ended with
  | returned a => exact Holds.of_returned hbody.visited hbody.final (hbody.returned a rfl)
  | raised e =>
    exact Holds.followedBy hbody.visited (hraised e t hbody.final (hbody.raised e rfl))
      fun _ hI hR => Holds.of_raised (List.forall_mem_nil _) hI hR
  | stopped => exact Holds.of_stopped hbody.visited hbody.final (hbody.stopped rfl)

end Interruptible

end VirtualRsp
