import Mathlib.Tactic.Ring
import VirtualRsp.Foundations.Memory

/-!
# Pieces of equal length in a growing buffer

A buffer that grows by `extra` bytes beyond what it needs receives pieces of `m` bytes, one after
the other. A growth makes room for `extra / m` more pieces, so the buffer grows at the pieces
number 1, `growStep m extra + 1`, `2 * growStep m extra + 1` and so on. Appending faults at the
first of these growths whose size does not fit into 32 bits (`isSome_appendAll`).
-/

namespace VirtualRsp.GrowBuf

/-- How many pieces of `m` bytes lie between two growths. -/
def growStep (m extra : ℕ) : ℕ := extra / m + 1

/-- The buffer after `k` pieces of `m` bytes: it has last grown `r` pieces ago. -/
def Grown (m extra k : ℕ) (b : GrowBuf) : Prop :=
  b.data.length = k * m ∧ ((k = 0 ∧ b.capacity = 0) ∨ ∃ i r, r < growStep m extra ∧
    k = i * growStep m extra + 1 + r ∧ b.capacity = (i * growStep m extra + 1) * m + extra)

variable {m extra k : ℕ} {b b' : GrowBuf} {x : Bytes}

theorem grown_null : Grown m extra 0 null := ⟨(Nat.zero_mul m).symm, .inl ⟨rfl, rfl⟩⟩

theorem mul_le_extra {d : ℕ} (hd : d < growStep m extra) : d * m ≤ extra :=
  (Nat.mul_le_mul_right m (Nat.le_of_lt_succ hd)).trans (Nat.div_mul_le_self extra m)

theorem extra_lt_mul (hm : 0 < m) : extra < growStep m extra * m := by
  rw [Nat.mul_comm]
  exact Nat.lt_mul_div_succ extra hm

/-- What is needed for one more piece. -/
theorem Grown.length (hb : Grown m extra k b) (hx : x.length = m) :
    b.data.length + x.length = (k + 1) * m := by
  rw [hb.1, hx, Nat.succ_mul]

/-- Between two growths there is room for a piece. -/
theorem Grown.append_fits (hb : Grown m extra k b) (hx : x.length = m)
    (hlt : (k + 1) * m < 2 ^ 32) (hk : ∀ i, k ≠ i * growStep m extra) :
    ∃ b', b.append (· + extra) x = some b' ∧ Grown m extra (k + 1) b' := by
  have hneed := hb.length hx
  obtain ⟨-, ⟨rfl, -⟩ | ⟨i, r, hr, rfl, hcap⟩⟩ := hb
  · exact absurd (Nat.zero_mul _).symm (hk 0)
  have hr' : r + 1 < growStep m extra := by
    refine lt_of_le_of_ne hr fun he => hk (i + 1) ?_
    rw [Nat.succ_mul]
    omega
  have hroom : (i * growStep m extra + 1 + r + 1) * m ≤ b.capacity := by
    have hle := mul_le_extra hr'
    have heq : (i * growStep m extra + 1 + r + 1) * m =
        (i * growStep m extra + 1) * m + (r + 1) * m := by ring
    omega
  have hnew : b.newCapacity (· + extra) x = b.capacity := by
    rw [newCapacity, hneed, Nat.mod_eq_of_lt hlt, if_neg (Nat.not_lt.2 hroom)]
  refine ⟨_, by rw [append, dif_pos (by rw [hnew, hneed]; exact hroom)], ?_, .inr ?_⟩
  · rw [List.length_append, hneed]
  · exact ⟨i, r + 1, hr', by omega, hnew.trans hcap⟩

/-- At a growth, a piece is appended exactly if the new capacity does not wrap. -/
theorem Grown.append_grows {i : ℕ} (hb : Grown m extra (i * growStep m extra) b)
    (hx : x.length = m) (hm : 0 < m) (hextra : extra < 2 ^ 32)
    (hlt : (i * growStep m extra + 1) * m < 2 ^ 32) :
    ((i * growStep m extra + 1) * m + extra < 2 ^ 32 →
      ∃ b', b.append (· + extra) x = some b' ∧ Grown m extra (i * growStep m extra + 1) b') ∧
    (2 ^ 32 ≤ (i * growStep m extra + 1) * m + extra → b.append (· + extra) x = none) := by
  have hneed := hb.length hx
  have hfull : b.capacity < (i * growStep m extra + 1) * m := by
    obtain ⟨-, ⟨h0, hcap⟩ | ⟨j, r, hr, hj, hcap⟩⟩ := hb
    · rw [hcap, h0]
      omega
    · have hij : i = j + 1 := by
        rcases Nat.lt_trichotomy i (j + 1) with hi | hi | hi
        · have := Nat.mul_le_mul_right (growStep m extra) (Nat.le_of_lt_succ hi)
          omega
        · exact hi
        · have := Nat.mul_le_mul_right (growStep m extra) (Nat.succ_le_of_lt hi)
          simp only [Nat.succ_mul] at this
          omega
      have hmul : extra < growStep m extra * m := extra_lt_mul hm
      have heq : (i * growStep m extra + 1) * m =
          (j * growStep m extra + 1) * m + growStep m extra * m := by
        rw [hij]
        ring
      omega
  have hnew : b.newCapacity (· + extra) x =
      ((i * growStep m extra + 1) * m + extra) % 2 ^ 32 := by
    rw [newCapacity, hneed, Nat.mod_eq_of_lt hlt, if_pos hfull]
  constructor
  · intro hok
    rw [Nat.mod_eq_of_lt hok] at hnew
    refine ⟨_, by rw [append, dif_pos (by rw [hnew, hneed]; omega)], ?_, .inr ?_⟩
    · rw [List.length_append, hneed]
    · exact ⟨i, 0, Nat.succ_pos _, rfl, hnew⟩
  · intro hwrap
    rw [append, dif_neg]
    rw [hnew, hneed]
    omega

/-- The capacities of the growths for `k` pieces fit into 32 bits. -/
def GrowthsFit (m extra k : ℕ) : Prop :=
  ∀ i, i * growStep m extra + 1 ≤ k → (i * growStep m extra + 1) * m + extra < 2 ^ 32

theorem GrowthsFit.mono {n : ℕ} (h : GrowthsFit m extra n) (hk : k ≤ n) : GrowthsFit m extra k :=
  fun i hi => h i (hi.trans hk)

/-- One more piece. -/
theorem Grown.append_iff (hb : Grown m extra k b) (hk : GrowthsFit m extra k) (hx : x.length = m)
    (hm : 0 < m) (hextra : extra < 2 ^ 32) (hlt : (k + 1) * m < 2 ^ 32) :
    (GrowthsFit m extra (k + 1) →
      ∃ b', b.append (· + extra) x = some b' ∧ Grown m extra (k + 1) b') ∧
    (¬ GrowthsFit m extra (k + 1) → b.append (· + extra) x = none) := by
  by_cases hi : ∃ i, k = i * growStep m extra
  · obtain ⟨i, rfl⟩ := hi
    obtain ⟨hfits, hwraps⟩ := hb.append_grows hx hm hextra hlt
    refine ⟨fun h => hfits (h i le_rfl), fun h => hwraps ?_⟩
    by_contra hlt'
    refine h fun j hj => ?_
    rcases Nat.lt_or_eq_of_le hj with hj | hj
    · exact hk j (by omega)
    · rw [hj]
      omega
  · obtain ⟨b', happ, hb'⟩ := hb.append_fits hx hlt fun i hk => hi ⟨i, hk⟩
    refine ⟨fun _ => ⟨b', happ, hb'⟩, fun h => absurd (fun j hj => ?_) h⟩
    refine hk j (Nat.le_of_lt_succ (lt_of_le_of_ne hj fun he => hi ⟨j, ?_⟩))
    omega

/-- **Pieces are appended** exactly if the capacities of all growths fit into 32 bits. -/
theorem Grown.foldlM_append {pieces : List Bytes} (hb : Grown m extra k b)
    (hk : GrowthsFit m extra k) (hpieces : ∀ p ∈ pieces, p.length = m) (hm : 0 < m)
    (hextra : extra < 2 ^ 32) (hlt : (k + pieces.length) * m < 2 ^ 32) :
    (GrowthsFit m extra (k + pieces.length) →
      ∃ b', pieces.foldlM (append (· + extra)) b = some b' ∧
        Grown m extra (k + pieces.length) b') ∧
    (¬ GrowthsFit m extra (k + pieces.length) →
      pieces.foldlM (append (· + extra)) b = none) := by
  induction pieces generalizing k b with
  | nil => exact ⟨fun _ => ⟨b, rfl, hb⟩, fun h => absurd hk h⟩
  | cons x pieces ih =>
    rw [List.forall_mem_cons] at hpieces
    have hlen : k + (x :: pieces).length = k + 1 + pieces.length := by
      rw [List.length_cons]
      omega
    rw [hlen] at hlt ⊢
    have hlt' : (k + 1) * m < 2 ^ 32 :=
      lt_of_le_of_lt (Nat.mul_le_mul_right m (Nat.le_add_right _ _)) hlt
    obtain ⟨hfits, hwraps⟩ := hb.append_iff hk hpieces.1 hm hextra hlt'
    rw [List.foldlM_cons]
    by_cases h : GrowthsFit m extra (k + 1)
    · obtain ⟨b', happ, hb'⟩ := hfits h
      rw [happ, Option.bind_eq_bind, Option.bind_some]
      exact ih hb' h hpieces.2 hlt
    · refine ⟨fun h' => absurd (h'.mono (Nat.le_add_right _ _)) h, fun _ => ?_⟩
      rw [hwraps h]
      rfl

end VirtualRsp.GrowBuf
