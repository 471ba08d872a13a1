import VirtualRsp.Foundations.Memory

/-!
# Base64

The texts and the bytes of base64: `decodedBytes` are the bytes that a text stands for, up to its
first character outside the alphabet, padding included; a single character left over is ignored.
`base64Encode` is the text of bytes. The functions of the LPA, with the lengths that they compute,
are in `Base64Lengths`.
-/

namespace VirtualRsp.Lpa

/-- The value of a character; 64 for a character outside the alphabet. -/
def pr2six (c : UInt8) : ℕ :=
  let c := c.toNat
  if 65 ≤ c ∧ c ≤ 90 then c - 65
  else if 97 ≤ c ∧ c ≤ 122 then c - 71
  else if 48 ≤ c ∧ c ≤ 57 then c + 4
  else if c = 43 then 62
  else if c = 47 then 63
  else 64

/-- The bytes of a list of six-bit values. -/
def decodeGroups : List ℕ → Bytes
  | a :: b :: c :: d :: r =>
    UInt8.ofNat (a * 4 + b / 16) :: UInt8.ofNat (b * 16 + c / 4) :: UInt8.ofNat (c * 64 + d) ::
      decodeGroups r
  | [a, b, c] => [UInt8.ofNat (a * 4 + b / 16), UInt8.ofNat (b * 16 + c / 4)]
  | [a, b] => [UInt8.ofNat (a * 4 + b / 16)]
  | [_] => []
  | [] => []

/-- The bytes that a text stands for. -/
def decodedBytes (bufcoded : Bytes) : Bytes :=
  decodeGroups ((bufcoded.map pr2six).takeWhile (· ≤ 63))

/-- A character of the alphabet. -/
def basis64 (n : ℕ) : UInt8 :=
  if n < 26 then UInt8.ofNat (n + 65)
  else if n < 52 then UInt8.ofNat (n + 71)
  else if n < 62 then UInt8.ofNat (n - 4)
  else if n = 62 then 43
  else 47

/-- The text of bytes. -/
def base64Encode : Bytes → Bytes
  | a :: b :: c :: r =>
    basis64 (a.toNat / 4) :: basis64 (a.toNat % 4 * 16 + b.toNat / 16) ::
      basis64 (b.toNat % 16 * 4 + c.toNat / 64) :: basis64 (c.toNat % 64) :: base64Encode r
  | [a, b] =>
    [basis64 (a.toNat / 4), basis64 (a.toNat % 4 * 16 + b.toNat / 16), basis64 (b.toNat % 16 * 4),
      61]
  | [a] => [basis64 (a.toNat / 4), basis64 (a.toNat % 4 * 16), 61, 61]
  | [] => []

/-! ## Decoding what was encoded -/

theorem pr2six_basis64 {n : ℕ} (h : n < 64) : pr2six (basis64 n) = n := by
  have key : ∀ n : Fin 64, pr2six (basis64 n) = n := by decide
  exact key ⟨n, h⟩

theorem ofNat_toNat_of_eq {b : UInt8} {n : ℕ} (h : n % 256 = b.toNat) : UInt8.ofNat n = b :=
  UInt8.toNat_inj.1 ((UInt8.toNat_ofNat' ..).trans h)

theorem takeWhile_sixBits {n : ℕ} (h : n < 64) (l : List ℕ) :
    (n :: l).takeWhile (· ≤ 63) = n :: l.takeWhile (· ≤ 63) :=
  List.takeWhile_cons_of_pos (by simpa using Nat.le_of_lt_succ h)

/-- **Encoded bytes are decoded to themselves.** -/
theorem decodedBytes_encode (bs : Bytes) : decodedBytes (base64Encode bs) = bs := by
  have h61 : pr2six 61 = 64 := rfl
  have h64 : ∀ l : List ℕ, (64 :: l).takeWhile (· ≤ 63) = [] := fun _ => rfl
  induction bs using base64Encode.induct with
  | case1 a b c r ih =>
    have ha := a.toNat_lt
    have hb := b.toNat_lt
    have hc := c.toNat_lt
    have h1 : a.toNat / 4 < 64 := by omega
    have h2 : a.toNat % 4 * 16 + b.toNat / 16 < 64 := by omega
    have h3 : b.toNat % 16 * 4 + c.toNat / 64 < 64 := by omega
    have h4 : c.toNat % 64 < 64 := by omega
    rw [decodedBytes] at ih
    rw [base64Encode, decodedBytes, List.map_cons, List.map_cons, List.map_cons, List.map_cons,
      pr2six_basis64 h1, pr2six_basis64 h2, pr2six_basis64 h3, pr2six_basis64 h4,
      takeWhile_sixBits h1, takeWhile_sixBits h2, takeWhile_sixBits h3, takeWhile_sixBits h4,
      decodeGroups, ih, ofNat_toNat_of_eq (b := a) (by omega),
      ofNat_toNat_of_eq (b := b) (by omega), ofNat_toNat_of_eq (b := c) (by omega)]
  | case2 a b =>
    have ha := a.toNat_lt
    have hb := b.toNat_lt
    have h1 : a.toNat / 4 < 64 := by omega
    have h2 : a.toNat % 4 * 16 + b.toNat / 16 < 64 := by omega
    have h3 : b.toNat % 16 * 4 < 64 := by omega
    rw [base64Encode, decodedBytes, List.map_cons, List.map_cons, List.map_cons, List.map_cons,
      pr2six_basis64 h1, pr2six_basis64 h2, pr2six_basis64 h3, h61, takeWhile_sixBits h1,
      takeWhile_sixBits h2, takeWhile_sixBits h3, h64, decodeGroups,
      ofNat_toNat_of_eq (b := a) (by omega), ofNat_toNat_of_eq (b := b) (by omega)]
  | case3 a =>
    have ha := a.toNat_lt
    have h1 : a.toNat / 4 < 64 := by omega
    have h2 : a.toNat % 4 * 16 < 64 := by omega
    rw [base64Encode, decodedBytes, List.map_cons, List.map_cons, List.map_cons, List.map_cons,
      pr2six_basis64 h1, pr2six_basis64 h2, h61, takeWhile_sixBits h1, takeWhile_sixBits h2, h64,
      decodeGroups, ofNat_toNat_of_eq (b := a) (by omega)]
  | case4 => rfl

end VirtualRsp.Lpa
