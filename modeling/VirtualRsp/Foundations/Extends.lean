import VirtualRsp.Foundations.Loop
import VirtualRsp.Foundations.Memory

/-!
# Computations that go through more often

A computation that may fault is extended by one that goes through, with a related result, wherever
the first one does. The rules follow the structure of a computation: `Extends.bind`, `Extends.ite`
and `loop_extends`. Reading a memory is extended by reading a longer one that begins with it
(`readAt_extends`, `readN_extends`).
-/

namespace VirtualRsp

variable {α α' β β' σ σ' : Type*}

/-- Where the first computation goes through, the second one does, with a related result. -/
def Extends (R : α → β → Prop) (m : Option α) (n : Option β) : Prop :=
  ∀ a, m = some a → ∃ b, n = some b ∧ R a b

namespace Extends

variable {R : α → α' → Prop} {S : β → β' → Prop} {m : Option α} {n : Option α'}

theorem value {a : α} {b : α'} (h : R a b) : Extends R (some a) (some b) := by
  intro c hc
  cases hc
  exact ⟨b, rfl, h⟩

theorem bind (h : Extends R m n) {k : α → Option β} {k' : α' → Option β'}
    (hk : ∀ a b, R a b → Extends S (k a) (k' b)) : Extends S (m.bind k) (n.bind k') := by
  intro c hc
  obtain ⟨a, ha, hka⟩ := Option.bind_eq_some_iff.1 hc
  obtain ⟨b, hb, hab⟩ := h a ha
  obtain ⟨d, hd, hcd⟩ := hk a b hab c hka
  exact ⟨d, by rw [hb, Option.bind_some, hd], hcd⟩

theorem map (h : Extends R m n) {f : α → β} {f' : α' → β'} (hf : ∀ a b, R a b → S (f a) (f' b)) :
    Extends S (m.map f) (n.map f') := by
  intro c hc
  obtain ⟨a, ha, rfl⟩ := Option.map_eq_some_iff.1 hc
  obtain ⟨b, hb, hab⟩ := h a ha
  exact ⟨f' b, by rw [hb, Option.map_some], hf a b hab⟩

theorem map_eq {n : Option α} (h : Extends Eq m n) (f : α → β) : Extends Eq (m.map f) (n.map f) :=
  h.map fun _ _ => congrArg f

theorem ite {p : Prop} [Decidable p] {m₁ m₂ : Option α} {n₁ n₂ : Option α'}
    (hthen : p → Extends R m₁ n₁) (helse : ¬ p → Extends R m₂ n₂) :
    Extends R (if p then m₁ else m₂) (if p then n₁ else n₂) := by
  by_cases hp : p
  · rw [if_pos hp, if_pos hp]
    exact hthen hp
  · rw [if_neg hp, if_neg hp]
    exact helse hp

/-- What has gone through gives the same in what extends it. -/
theorem eq_of_isSome {n : Option α} (h : Extends Eq m n) (hm : m.isSome) : n = m := by
  obtain ⟨a, rfl⟩ := Option.isSome_iff_exists.1 hm
  obtain ⟨b, rfl, rfl⟩ := h a rfl
  rfl

end Extends

/-- Both stop with the same result, or go on from related states. -/
inductive Ctl.Rel (R : σ → σ' → Prop) : Ctl σ β → Ctl σ' β → Prop
  | next {s : σ} {s' : σ'} (h : R s s') : Ctl.Rel R (.next s) (.next s')
  | done (b : β) : Ctl.Rel R (.done b) (.done b)

/-- **Simulation rule.** A loop is extended by one whose rounds extend its rounds and that has at
least as many. -/
theorem loop_extends {R : σ → σ' → Prop} {body : σ → Option (Ctl σ β)}
    {body' : σ' → Option (Ctl σ' β)}
    (hbody : ∀ s s', R s s' → Extends (Ctl.Rel R) (body s) (body' s')) {n m : ℕ} (hnm : n ≤ m)
    {s : σ} {s' : σ'} (h : R s s') : Extends Eq (loop body n s) (loop body' m s') := by
  intro b hb
  induction n generalizing m s s' with
  | zero => cases hb
  | succ n ih =>
    obtain ⟨m, rfl⟩ := Nat.exists_eq_add_one_of_ne_zero (by omega : m ≠ 0)
    cases hround : body s with
    | none =>
      rw [loop_fault hround] at hb
      cases hb
    | some ctl =>
      obtain ⟨ctl', hround', hrel⟩ := hbody s s' h ctl hround
      cases hrel with
      | next hnext =>
        rw [loop_next hround] at hb
        rw [loop_next hround']
        exact ih (by omega) hnext hb
      | done b' =>
        rw [loop_done hround] at hb
        exact ⟨b', loop_done hround' m, (Option.some.inj hb).symm⟩

/-! ## Reading a longer memory -/

section

variable {p q : Bytes}

theorem readAt_extends (h : p <+: q) (i : ℕ) : Extends Eq (readAt p i) (readAt q i) := by
  obtain ⟨rest, rfl⟩ := h
  intro b hb
  by_cases hi : i < p.length
  · exact ⟨b, by rw [readAt_append_left hi, hb], rfl⟩
  · rw [readAt, List.getElem?_eq_none (not_lt.1 hi)] at hb
    cases hb

theorem readN_extends (h : p <+: q) (n : ℕ) : Extends Eq (readN p n) (readN q n) := by
  obtain ⟨rest, rfl⟩ := h
  intro xs hxs
  by_cases hn : n ≤ p.length
  · rw [readN, if_pos hn] at hxs
    refine ⟨xs, ?_, rfl⟩
    rw [readN, if_pos (by rw [List.length_append]; omega), List.take_append_of_le_length hn, hxs]
  · rw [readN, if_neg hn] at hxs
    cases hxs

end

end VirtualRsp
