import Mathlib.Data.List.Basic

/-!
# While loops that may fault

A C loop is a body from a loop state to either the next loop state or the result; the body faults
(`none`) when it touches memory it must not touch. `loop` runs the body with a bound on the number
of rounds, so that it is a total and computable function. The bound does not matter once it exceeds
a measure that the body decreases (`loop_isSome`, `loop_mono`).

* `loop_invariant`: an invariant of the rounds holds at the result, and `loop_result` what every
  last round gives;
* `loop_mono`: a result found within a bound is found within every larger one;
* `loop_isSome`: a loop without faults ends;
* `loop_skip`: the rounds of a counter that only go on.
-/

namespace VirtualRsp

/-- What one round of a loop does: go on from a new state, or stop with a result. -/
inductive Ctl (σ β : Type*)
  | next (s : σ)
  | done (b : β)

variable {σ β : Type*} {body : σ → Option (Ctl σ β)}

/-- At most `n` rounds of `body` from `s`; no result is a fault. -/
def loop (body : σ → Option (Ctl σ β)) : ℕ → σ → Option β
  | 0, _ => none
  | n + 1, s =>
    match body s with
    | none => none
    | some (.done b) => some b
    | some (.next s') => loop body n s'

theorem loop_next {s s' : σ} (h : body s = some (.next s')) (n : ℕ) :
    loop body (n + 1) s = loop body n s' := by
  rw [loop, h]

theorem loop_done {s : σ} {b : β} (h : body s = some (.done b)) (n : ℕ) :
    loop body (n + 1) s = some b := by
  rw [loop, h]

/-- A last round, with any rounds to go. -/
theorem loop_of_done {s : σ} {b : β} (h : body s = some (.done b)) {n : ℕ} (hn : 0 < n) :
    loop body n s = some b := by
  rw [← Nat.succ_pred_eq_of_pos hn]
  exact loop_done h n.pred

/-- A round that goes on, with any rounds to go. -/
theorem loop_of_next {s s' : σ} (h : body s = some (.next s')) {n : ℕ} (hn : 0 < n) :
    loop body n s = loop body (n - 1) s' := by
  rw [← Nat.succ_pred_eq_of_pos hn]
  exact loop_next h n.pred

theorem loop_fault {s : σ} (h : body s = none) (n : ℕ) : loop body (n + 1) s = none := by
  rw [loop, h]

/-- **Invariant rule.** If every round keeps `P`, and stopping from `P` gives `Q`, then `Q` holds
of the result. -/
theorem loop_invariant {P : σ → Prop} {Q : β → Prop}
    (hnext : ∀ s s', P s → body s = some (.next s') → P s')
    (hdone : ∀ s b, P s → body s = some (.done b) → Q b) {n : ℕ} {s : σ} {b : β} (hs : P s)
    (h : loop body n s = some b) : Q b := by
  induction n generalizing s with
  | zero => simp [loop] at h
  | succ n ih =>
    rw [loop] at h
    split at h
    · cases h
    · rename_i b' hb
      cases h
      exact hdone _ _ hs hb
    · rename_i s' hs'
      exact ih (hnext _ _ hs hs') h

/-- What every round that stops gives holds of the result. -/
theorem loop_result {Q : β → Prop} (hdone : ∀ s b, body s = some (.done b) → Q b) {n : ℕ} {s : σ}
    {b : β} (h : loop body n s = some b) : Q b :=
  loop_invariant (P := fun _ => True) (fun _ _ _ _ => trivial) (fun s b _ => hdone s b) trivial h

theorem loop_mono {n m : ℕ} (hnm : n ≤ m) {s : σ} {b : β} (h : loop body n s = some b) :
    loop body m s = some b := by
  induction n generalizing m s with
  | zero => simp [loop] at h
  | succ n ih =>
    obtain ⟨m, rfl⟩ := Nat.exists_eq_add_one_of_ne_zero (by omega : m ≠ 0)
    rw [loop] at h ⊢
    split at h
    · cases h
    · exact h
    · exact ih (by omega) h

/-- **Termination**: a loop without faults ends within a bound that exceeds a measure that every
round decreases. -/
theorem loop_isSome (μ : σ → ℕ) (hμ : ∀ s s', body s = some (.next s') → μ s' < μ s)
    (hbody : ∀ s, (body s).isSome) {n : ℕ} {s : σ} (hn : μ s < n) : (loop body n s).isSome := by
  induction n generalizing s with
  | zero => omega
  | succ n ih =>
    obtain ⟨ctl, hctl⟩ := Option.isSome_iff_exists.1 (hbody s)
    cases ctl with
    | done b =>
      rw [loop_done hctl]
      rfl
    | next s' =>
      have := hμ s s' hctl
      rw [loop_next hctl]
      exact ih (by omega)

/-- Rounds that only count up are skipped. -/
theorem loop_skip {body : ℕ → Option (Ctl ℕ β)} {i k : ℕ} (hik : i ≤ k)
    (h : ∀ j, i ≤ j → j < k → body j = some (.next (j + 1))) (n : ℕ) :
    loop body (n + (k - i)) i = loop body n k := by
  obtain ⟨m, rfl⟩ := Nat.exists_eq_add_of_le hik
  rw [Nat.add_sub_cancel_left]
  induction m generalizing n with
  | zero => rfl
  | succ m ih =>
    have hrounds : n + (m + 1) = n + 1 + m := by omega
    have hskip := ih (n + 1) (Nat.le_add_right i m) fun j hij hj => h j hij (by omega)
    rw [hrounds, hskip]
    exact loop_next (h (i + m) (by omega) (by omega)) n

end VirtualRsp
