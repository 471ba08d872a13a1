import Mathlib.Tactic.IntervalCases
import VirtualRsp.Foundations.CInt
import VirtualRsp.Foundations.Memory

/-!
# Hexadecimal and BCD texts

The conversions that the LPA library and the card share: bytes to lower-case hexadecimal and back,
and the swapped-nibble form (`gsmbcd`) in which a card stores the digits of an ICCID. Sizes and
counters have 32 bits, results are `int`s. A result of `none` is the error `-1`; where the source
runs off the end of a buffer, the outer option is `none`. The buffers themselves are in `GsmBcd`.

* `hex2bin_flatMap`: the hexadecimal form reads back;
* `gsmbcd2bin_swap`: a text of hexadecimal digits with its pairs swapped reads back as well.
-/

namespace VirtualRsp.Lpa

/-- The digit of a nibble. -/
def hexDigit (n : ℕ) : UInt8 := if n < 10 then UInt8.ofNat (48 + n) else UInt8.ofNat (87 + n)

/-- The value of a hexadecimal digit of either case. -/
def hexVal (c : UInt8) : Option ℕ :=
  if 48 ≤ c.toNat ∧ c.toNat ≤ 57 then some (c.toNat - 48)
  else if 97 ≤ c.toNat ∧ c.toNat ≤ 102 then some (c.toNat - 87)
  else if 65 ≤ c.toNat ∧ c.toNat ≤ 70 then some (c.toNat - 55)
  else none

/-- The two digits of a byte. -/
def hexByte (b : UInt8) : Bytes := [hexDigit (b.toNat / 16), hexDigit (b.toNat % 16)]

/-- `euicc_hexutil_bin2hex`: the text that it writes, if it writes any, and its result. The size
that it asks for wraps, and a number of digits from 2³¹ on is negative as an `int`. -/
def bin2hex (outputLen : ℕ) (bin : Bytes) : Option (Option Bytes × ℤ) :=
  if outputLen < (2 * bin.length + 1) % 2 ^ 32 then some (none, -1)
  else if outputLen < 2 * bin.length + 1 then none
  else some (some (bin.flatMap hexByte), asInt (2 * bin.length % 2 ^ 32))

/-- The bytes of pairs of digits; any other character is an error. -/
def hexPairs : Bytes → Option Bytes
  | [] => some []
  | [_] => none
  | a :: b :: r =>
    match hexVal a, hexVal b with
    | some x, some y => (hexPairs r).map (UInt8.ofNat (16 * x + y) :: ·)
    | _, _ => none

/-- `euicc_hexutil_hex2bin_r`. -/
def hex2binR (outputLen : ℕ) (input : Bytes) : Option Bytes :=
  if input.length % 2 ≠ 0 ∨ outputLen < input.length / 2 then none else hexPairs input

/-- The characters of a text that are counted in 32 bits. -/
def counted (input : Bytes) : Bytes := input.take (input.length % 2 ^ 32)

/-- `euicc_hexutil_hex2bin`. -/
def hex2bin (outputLen : ℕ) (input : Bytes) : Option Bytes := hex2binR outputLen (counted input)

/-- Exchange the characters of every pair. -/
def gsmbcdSwapChars : Bytes → Bytes
  | a :: b :: r => b :: a :: gsmbcdSwapChars r
  | r => r

/-- The digits that are converted to BCD: with an `f` if there is an odd number, pairs swapped. -/
def bcdText (input : Bytes) : Bytes :=
  gsmbcdSwapChars (counted input ++ List.replicate ((counted input).length % 2) 102)

/-- `euicc_hexutil_gsmbcd2bin`: the bytes of the digits, which are padded with `ff`; more bytes than
`paddingTo` make the length of the padding negative. The digits are copied to a block whose size
wraps if there are 2³² - 1 of them. -/
def gsmbcd2bin (outputLen : ℕ) (input : Bytes) (paddingTo : ℕ) : Option (Option Bytes) :=
  if outputLen < paddingTo then some none
  else if input.length % 2 ^ 32 = 2 ^ 32 - 1 then none
  else
    match hex2binR outputLen (bcdText input) with
    | none => some none
    | some bytes => if paddingTo < bytes.length then none else some (some bytes)

/-- Drop trailing `f`s, but never the first character. -/
def trimF : Bytes → Bytes
  | [] => []
  | a :: r => a :: (r.reverse.dropWhile (· = 102)).reverse

/-- `euicc_hexutil_bin2gsmbcd`: without any byte, the loop that swaps the pairs starts from the
length `-1` and leaves the buffer; a negative number of digits is an error. -/
def bin2gsmbcd (outputLen : ℕ) (bin : Bytes) : Option (Option Bytes) :=
  match bin2hex outputLen bin with
  | none => none
  | some (none, _) => some none
  | some (some hex, n) =>
    if n < 0 then some none
    else if hex = [] then none
    else some (some (trimF (gsmbcdSwapChars hex)))

/-! ## Reading back -/

theorem hexVal_hexDigit {n : ℕ} (h : n < 16) : hexVal (hexDigit n) = some n := by
  interval_cases n <;> rfl

theorem hexPairs_flatMap (bin : Bytes) : hexPairs (bin.flatMap hexByte) = some bin := by
  induction bin with
  | nil => rfl
  | cons b bin ih =>
    have hb := b.toNat_lt
    have hhi : hexVal (hexDigit (b.toNat / 16)) = some (b.toNat / 16) := hexVal_hexDigit (by omega)
    have hlo : hexVal (hexDigit (b.toNat % 16)) = some (b.toNat % 16) := hexVal_hexDigit (by omega)
    simp only [List.flatMap_cons, hexByte, List.cons_append, List.nil_append, hexPairs, hhi, hlo,
      ih, Option.map_some, Nat.div_add_mod, UInt8.ofNat_toNat]

theorem length_flatMap_hexByte (bin : Bytes) : (bin.flatMap hexByte).length = 2 * bin.length := by
  induction bin with
  | nil => rfl
  | cons b bin ih =>
    simp only [List.flatMap_cons, List.length_append, ih, hexByte, List.length_cons,
      List.length_nil]
    omega

theorem bin2hex_of_lt {n : ℕ} {bin : Bytes} (hn : 2 * bin.length + 1 ≤ n)
    (h : bin.length < 2 ^ 31) :
    bin2hex n bin = some (some (bin.flatMap hexByte), asInt (2 * bin.length)) := by
  rw [bin2hex, Nat.mod_eq_of_lt (by omega), if_neg (by omega), if_neg (by omega),
    Nat.mod_eq_of_lt (by omega)]

theorem counted_of_lt {input : Bytes} (h : input.length < 2 ^ 32) : counted input = input := by
  rw [counted, Nat.mod_eq_of_lt h, List.take_length]

theorem hex2bin_of_lt {n : ℕ} {input : Bytes} (h : input.length < 2 ^ 32) :
    hex2bin n input = hex2binR n input := by
  rw [hex2bin, counted_of_lt h]

/-- **Hexadecimal texts read back.** -/
theorem hex2bin_flatMap {m : ℕ} {bin : Bytes} (h : bin.length < 2 ^ 31) (hm : bin.length ≤ m) :
    hex2bin m (bin.flatMap hexByte) = some bin := by
  have hlen := length_flatMap_hexByte bin
  rw [hex2bin_of_lt (by omega), hex2binR, if_neg (by omega), hexPairs_flatMap]

theorem gsmbcdSwapChars_swap (t : Bytes) : gsmbcdSwapChars (gsmbcdSwapChars t) = t := by
  induction t using gsmbcdSwapChars.induct with
  | case1 a b r ih => simp only [gsmbcdSwapChars, ih]
  | case2 r h =>
    match r, h with
    | [], _ => rfl
    | [a], _ => rfl
    | a :: b :: r, h => exact absurd rfl (h a b r)

theorem length_gsmbcdSwapChars (t : Bytes) : (gsmbcdSwapChars t).length = t.length := by
  induction t using gsmbcdSwapChars.induct with
  | case1 a b r ih => simp only [gsmbcdSwapChars, List.length_cons, ih]
  | case2 r h =>
    match r, h with
    | [], _ => rfl
    | [a], _ => rfl
    | a :: b :: r, h => exact absurd rfl (h a b r)

/-- **Swapped texts read back**, as long as no trailing `f` was dropped from them. -/
theorem gsmbcd2bin_swap {n k : ℕ} {bin : Bytes} (hk : k ≤ n) (hbin : bin.length ≤ k)
    (h : bin.length < 2 ^ 31) :
    gsmbcd2bin n (gsmbcdSwapChars (bin.flatMap hexByte)) k = some (some bin) := by
  have hlen := length_flatMap_hexByte bin
  have hswap := length_gsmbcdSwapChars (bin.flatMap hexByte)
  have hcounted := @counted_of_lt (gsmbcdSwapChars (bin.flatMap hexByte)) (by omega)
  have heven : (gsmbcdSwapChars (bin.flatMap hexByte)).length % 2 = 0 := by omega
  have htext : bcdText (gsmbcdSwapChars (bin.flatMap hexByte)) = bin.flatMap hexByte := by
    rw [bcdText, hcounted, heven, List.replicate_zero, List.append_nil, gsmbcdSwapChars_swap]
  rw [gsmbcd2bin, if_neg (by omega), if_neg (by omega), htext, hex2binR, if_neg (by omega),
    hexPairs_flatMap]
  simp only [if_neg (Nat.not_lt.2 hbin)]

end VirtualRsp.Lpa
