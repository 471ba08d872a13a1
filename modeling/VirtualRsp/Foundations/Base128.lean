import Mathlib.Data.Nat.Init
import VirtualRsp.Foundations.Loop
import VirtualRsp.Foundations.Memory

/-!
# Numbers in base 128

A number in base 128 takes as few bytes as it can, most significant first; the high bit of a byte
says that another one follows. `continued` are the bytes of a number when more follow it.
-/

namespace VirtualRsp.Base128

/-- The bytes of a number that are not the last: none for zero. -/
def continued (n : ℕ) : Bytes :=
  if n = 0 then [] else continued (n / 128) ++ [UInt8.ofNat (128 + n % 128)]
decreasing_by exact Nat.div_lt_self (Nat.pos_of_ne_zero ‹_›) (by omega)

/-- The bytes of a number. -/
def bytes (n : ℕ) : Bytes := continued (n / 128) ++ [UInt8.ofNat (n % 128)]

@[simp] theorem continued_zero : continued 0 = [] := by
  rw [continued, if_pos rfl]

theorem continued_of_ne {n : ℕ} (h : n ≠ 0) :
    continued n = continued (n / 128) ++ [UInt8.ofNat (128 + n % 128)] := by
  rw [continued, if_neg h]

theorem length_bytes (n : ℕ) : (bytes n).length = (continued (n / 128)).length + 1 := by
  rw [bytes, List.length_append, List.length_singleton]

/-- The number that the digits before a byte and the byte make. -/
theorem shift_or_low (m b : ℕ) : m <<< 7 ||| (b &&& 0x7F) = m * 128 + b % 128 := by
  have hlow : b &&& 0x7F = b % 128 := Nat.and_two_pow_sub_one_eq_mod b 7
  rw [hlow, ← Nat.shiftLeft_add_eq_or_of_lt (by omega : b % 128 < 2 ^ 7), Nat.shiftLeft_eq]

/-- The high bit of a byte. -/
theorem and_high_eq_zero (b : UInt8) : b.toNat &&& 0x80 = 0 ↔ b.toNat < 128 := by
  have hall : ∀ b : Fin 256, b.val &&& 0x80 = 0 ↔ b.val < 128 := by decide +kernel
  exact hall ⟨b.toNat, b.toNat_lt⟩

/-! ## Reading -/

/-- Read a number at an offset: a byte past the end is an error. -/
def readBody (data : Bytes) : ℕ × ℕ → Option (Ctl (ℕ × ℕ) (ℕ × ℕ))
  | (value, offset) => do
    let b ← readAt data offset
    let value := value <<< 7 ||| (b &&& 0x7F)
    let offset := offset + 1
    return if b &&& 0x80 = 0 then .done (value, offset) else .next (value, offset)

theorem readBody_append (before rest : Bytes) (b : UInt8) (value : ℕ) :
    readBody (before ++ b :: rest) (value, before.length) = some
      (if b.toNat < 128 then .done (value * 128 + b.toNat % 128, before.length + 1)
      else .next (value * 128 + b.toNat % 128, before.length + 1)) := by
  have hread : readAt (before ++ b :: rest) before.length = some b.toNat := by
    rw [readAt_append_right le_rfl, Nat.sub_self]
    rfl
  simp only [readBody, hread, Option.bind_eq_bind, Option.bind_some, shift_or_low,
    and_high_eq_zero]
  rfl

/-- The bytes before the last are read with one round each. -/
theorem loop_continued (n : ℕ) (before rest : Bytes) (rounds : ℕ) :
    loop (readBody (before ++ continued n ++ rest)) (rounds + (continued n).length)
        (0, before.length) =
      loop (readBody (before ++ continued n ++ rest)) rounds
        (n, (before ++ continued n).length) := by
  induction n using Nat.strong_induction_on generalizing rest rounds with
  | _ n ih =>
    by_cases hzero : n = 0
    · rw [hzero, continued_zero, List.append_nil]
      rfl
    · have hbyte : (UInt8.ofNat (128 + n % 128)).toNat = 128 + n % 128 :=
        UInt8.toNat_ofNat_of_lt (by simp only [UInt8.size]; omega)
      have hdiv := ih (n / 128) (Nat.div_lt_self (by omega) (by omega))
        (UInt8.ofNat (128 + n % 128) :: rest) (rounds + 1)
      have hround := readBody_append (before ++ continued (n / 128)) rest
        (UInt8.ofNat (128 + n % 128)) (n / 128)
      have hdata : before ++ continued n ++ rest = before ++ continued (n / 128) ++
          UInt8.ofNat (128 + n % 128) :: rest := by
        rw [continued_of_ne hzero]
        simp only [List.append_assoc, List.singleton_append]
      have hlength : (continued n).length = (continued (n / 128)).length + 1 := by
        rw [continued_of_ne hzero, List.length_append, List.length_singleton]
      have hvalue : n / 128 * 128 + (128 + n % 128) % 128 = n := by omega
      rw [hbyte, if_neg (by omega), hvalue] at hround
      rw [hdata, hlength, ← Nat.add_assoc, Nat.add_right_comm, hdiv, loop_next hround,
        List.length_append, List.length_append, hlength, Nat.add_assoc]

/-- **Reading a number back**, whatever stands before and behind it. -/
theorem loop_bytes (n : ℕ) (before rest : Bytes) {rounds : ℕ}
    (hrounds : (bytes n).length ≤ rounds) :
    loop (readBody (before ++ bytes n ++ rest)) rounds (0, before.length) =
      some (n, (before ++ bytes n).length) := by
  have hbyte : (UInt8.ofNat (n % 128)).toNat = n % 128 :=
    UInt8.toNat_ofNat_of_lt (by simp only [UInt8.size]; omega)
  have hdata : before ++ bytes n ++ rest =
      before ++ continued (n / 128) ++ UInt8.ofNat (n % 128) :: rest := by
    simp only [bytes, List.append_assoc, List.singleton_append]
  have hround := readBody_append (before ++ continued (n / 128)) rest (UInt8.ofNat (n % 128))
    (n / 128)
  have hvalue : n / 128 * 128 + n % 128 % 128 = n := by omega
  rw [hbyte, if_pos (by omega), hvalue] at hround
  rw [length_bytes] at hrounds
  obtain ⟨k, rfl⟩ := Nat.exists_eq_add_of_le hrounds
  have hk : (continued (n / 128)).length + 1 + k = k + 1 + (continued (n / 128)).length := by omega
  rw [hdata, hk, loop_continued, loop_done hround, bytes, ← List.append_assoc]
  simp only [List.length_append, List.length_singleton]

end VirtualRsp.Base128
