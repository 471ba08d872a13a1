import Mathlib.Algebra.Ring.Int.Defs
import VirtualRsp.Foundations.Der

/-!
# Two's complement

Big-endian bytes as a signed number. A number that is not negative is written by as many bytes as
hold twice the number (`signed_beBytes`, `lt_of_signed`), which is what makes an encoding the
shortest one (`Shortest`).
-/

namespace VirtualRsp.TwosComplement

/-- The signed number that bytes write: with the top bit set it is negative. -/
def signed (bs : Bytes) : ℤ :=
  if 2 * Der.ofBe 0 bs < 256 ^ bs.length then Der.ofBe 0 bs else Der.ofBe 0 bs - 256 ^ bs.length

/-- Bytes that write a number, at least one, and no more than any others that write it. -/
def Shortest (n : ℤ) (bs : Bytes) : Prop :=
  bs ≠ [] ∧ signed bs = n ∧ ∀ bs', bs' ≠ [] → signed bs' = n → bs.length ≤ bs'.length

theorem signed_beBytes {k n : ℕ} (h : 2 * n < 256 ^ k) : signed (Der.beBytes k n) = n := by
  rw [signed, Der.ofBe_beBytes, Der.length_beBytes, Nat.zero_mul, Nat.zero_add,
    Nat.mod_eq_of_lt (by omega), if_pos h]

theorem lt_of_signed {bs : Bytes} {n : ℕ} (h : signed bs = n) : 2 * n < 256 ^ bs.length := by
  have hlt := Der.ofBe_lt bs
  have hcast : ((256 ^ bs.length : ℕ) : ℤ) = 256 ^ bs.length := Int.natCast_pow ..
  rw [signed] at h
  split at h
  · rename_i hsmall
    have : Der.ofBe 0 bs = n := by omega
    omega
  · omega

/-- **The shortest encoding** of a number that is not negative: one byte less does not hold twice
the number. -/
theorem shortest_beBytes {k n : ℕ} (hk : 0 < k) (h : 2 * n < 256 ^ k)
    (hmin : k = 1 ∨ 256 ^ (k - 1) ≤ 2 * n) : Shortest n (Der.beBytes k n) := by
  refine ⟨?_, signed_beBytes h, ?_⟩
  · intro hnil
    have := congrArg List.length hnil
    rw [Der.length_beBytes, List.length_nil] at this
    omega
  · intro bs hne hbs
    have hpos := List.length_pos_iff.2 hne
    rw [Der.length_beBytes]
    rcases hmin with rfl | hmin
    · exact hpos
    · by_contra hlt
      have hpow : 256 ^ bs.length ≤ 256 ^ (k - 1) := Nat.pow_le_pow_right (by decide) (by omega)
      have := lt_of_signed hbs
      omega

end VirtualRsp.TwosComplement
