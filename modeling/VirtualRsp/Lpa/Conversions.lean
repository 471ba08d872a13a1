import Mathlib.Data.Nat.Bitwise
import VirtualRsp.Foundations.TwosComplement
import VirtualRsp.Lpa.CancelSession

/-!
# Integers and bit strings

The conversions between values and the contents of DER data objects: `convertLong2bin` and
`bin2long` for integers, `bits2bin` and `bin2bitsStr` for bit strings whose bits have names. Writes
go to buffers and fault outside of them; a conversion that refuses leaves its buffer alone.

* `long2bin_eq`: an integer is written in the shortest form, or not at all.
* `bin2bitsStr_bits2bin`: the names of the bits that were written come back in ascending order.
-/

namespace VirtualRsp.Lpa.Convert

open TwosComplement

/-! ## Integers -/

/-- The loop that writes a number from its highest byte down; the first argument is the number of
bytes left. -/
def writeBytes (value len : ℕ) : ℕ → Bytes → Option Bytes
  | 0, buffer => some buffer
  | left + 1, buffer => do
    let byte := value >>> (left * 8) &&& 0xFF
    writeBytes value len left (← store buffer (len - (left + 1)) [UInt8.ofNat byte])

/-- `euicc_derutil_convert_long2bin`, for numbers that are not negative: the buffer afterwards, and
the length or an error. -/
def long2bin (buffer : Bytes) (value : ℕ) : Option (Bytes × Option ℕ) :=
  let len := requiredLen value 7 1 1
  if buffer.length < len then some (buffer, none)
  else (writeBytes value len len buffer).map fun buffer => (buffer, some len)

/-- The number of bytes is the least one that holds twice the number, but at least one. -/
theorem requiredLen_spec {value : ℕ} (hv : value < 2 ^ 63) (n i : ℕ) (hi : 0 < i) (hn : i + n = 8)
    (hmin : i = 1 ∨ 256 ^ (i - 1) ≤ value) :
    0 < requiredLen value n i i ∧ 2 * value < 256 ^ requiredLen value n i i ∧
      (requiredLen value n i i = 1 ∨ 256 ^ (requiredLen value n i i - 1) ≤ 2 * value) := by
  induction n generalizing i with
  | zero =>
    obtain rfl : i = 8 := by omega
    refine ⟨hi, ?_, Or.inr ?_⟩
    · change 2 * value < 256 ^ 8
      omega
    · change 256 ^ 7 ≤ 2 * value
      omega
  | succ n ih =>
    obtain ⟨k, rfl⟩ := Nat.exists_eq_add_one_of_ne_zero (Nat.ne_of_gt hi)
    rw [Nat.add_sub_cancel] at hmin
    rw [requiredLen, Nat.add_sub_cancel]
    have hpos : 0 < 256 ^ k := Nat.pow_pos (by decide)
    have hpow : 256 ^ (k + 1) = 256 ^ k * 256 := Nat.pow_succ ..
    have hpow' : 256 ^ (k + 2) = 256 ^ k * 65536 := Nat.pow_add ..
    by_cases hbig : value / 256 ^ (k + 1) = 0
    · have hlt : value < 256 ^ (k + 1) :=
        (Nat.div_eq_zero_iff.1 hbig).resolve_left (by omega)
      rw [if_neg (by omega)]
      have hhigh : value / 256 ^ k < 256 := (Nat.div_lt_iff_lt_mul hpos).2 (by omega)
      rw [Nat.mod_eq_of_lt hhigh]
      split
      · rename_i hsign
        have hle := (Nat.le_div_iff_mul_le hpos).1 hsign.2
        refine ⟨Nat.succ_pos _, ?_, Or.inr ?_⟩
        · change 2 * value < 256 ^ (k + 2)
          omega
        · rw [Nat.add_sub_cancel]
          omega
      · rename_i hsign
        refine ⟨hi, ?_, ?_⟩
        · rcases Nat.eq_zero_or_pos value with rfl | hvpos
          · exact Nat.pow_pos (by decide)
          · have hsmall : value / 256 ^ k < 128 := Nat.not_le.1 fun hle => hsign ⟨hvpos, hle⟩
            have := (Nat.div_lt_iff_lt_mul hpos).1 hsmall
            omega
        · rw [Nat.add_sub_cancel]
          exact hmin.imp_right fun hle => by omega
    · rw [if_pos hbig]
      have hle : 256 ^ (k + 1) ≤ value := by
        by_contra hlt
        exact hbig (Nat.div_eq_of_lt (Nat.not_le.1 hlt))
      exact ih (k + 2) (Nat.succ_pos _) (by omega) (Or.inr hle)

theorem writeBytes_eq (value : ℕ) {len left : ℕ} (hle : left ≤ len) {buffer : Bytes}
    (hroom : len ≤ buffer.length) :
    writeBytes value len left buffer = store buffer (len - left) (Der.beBytes left value) := by
  induction left generalizing buffer with
  | zero => exact (store_nil (by omega)).symm
  | succ left ih =>
    have hbyte : UInt8.ofNat (value >>> (left * 8) &&& 0xFF) =
        UInt8.ofNat (value / 256 ^ left) := by
      have hmask : value >>> (left * 8) &&& 0xFF = value >>> (left * 8) % 256 :=
        Nat.and_two_pow_sub_one_eq_mod _ 8
      rw [hmask, Nat.shiftRight_eq_div_pow, Nat.mul_comm, Nat.pow_mul]
      apply UInt8.toNat_inj.1
      rw [UInt8.toNat_ofNat', UInt8.toNat_ofNat']
      exact Nat.mod_mod _ _
    have hcons := store_append buffer (len - (left + 1)) [UInt8.ofNat (value / 256 ^ left)]
      (Der.beBytes left value)
    rw [List.singleton_append] at hcons
    rw [writeBytes, Der.beBytes, hcons, hbyte]
    cases hs : store buffer (len - (left + 1)) [UInt8.ofNat (value / 256 ^ left)] with
    | none => rfl
    | some buffer' =>
      have hnext : len - (left + 1) + 1 = len - left := by omega
      have hlen := length_of_store hs
      rw [Option.bind_some, List.length_singleton, hnext]
      exact ih (by omega) (by omega)

/-- The bytes of a number. -/
def longBytes (value : ℕ) : Bytes := Der.beBytes (requiredLen value 7 1 1) value

/-- **Writing an integer**: the shortest bytes at the start of the buffer if they fit, and nothing
at all otherwise. -/
theorem long2bin_eq (buffer : Bytes) (value : ℕ) :
    long2bin buffer value =
      if buffer.length < (longBytes value).length then some (buffer, none)
      else some (longBytes value ++ buffer.drop (longBytes value).length,
        some (longBytes value).length) := by
  have hlen : (longBytes value).length = requiredLen value 7 1 1 := Der.length_beBytes ..
  rw [long2bin, hlen]
  split
  · rfl
  · rename_i hroom
    rw [writeBytes_eq value le_rfl (by omega), Nat.sub_self, store,
      if_pos (by rw [Der.length_beBytes]; omega), Der.length_beBytes, List.take_zero,
      List.nil_append, Nat.zero_add]
    rfl

/-- The octets of a number in a request are what is written to the buffer. -/
theorem convertLong2bin_agrees (buffer : Bytes) (value : ℕ) :
    convertLong2bin buffer.length value =
      (long2bin buffer value).bind fun r => r.2.map fun len => r.1.take len := by
  have hlen : (longBytes value).length = requiredLen value 7 1 1 := Der.length_beBytes _ _
  rw [long2bin_eq, convertLong2bin, hlen]
  split
  · rfl
  · change _ = some ((longBytes value ++ _).take (requiredLen value 7 1 1))
    rw [← hlen, List.take_left, hlen, longBytes]

theorem longBytes_shortest {value : ℕ} (hv : value < 2 ^ 63) :
    Shortest value (longBytes value) := by
  obtain ⟨hpos, hlt, hmin⟩ := requiredLen_spec hv 7 1 Nat.one_pos rfl (Or.inl rfl)
  exact shortest_beBytes hpos hlt hmin

theorem bin2long_longBytes {value : ℕ} (hv : value < 2 ^ 63) :
    bin2long (longBytes value) = value := by
  obtain ⟨-, hlt, -⟩ := requiredLen_spec hv 7 1 Nat.one_pos rfl (Or.inl rfl)
  have hmod : value % 256 ^ requiredLen value 7 1 1 = value := Nat.mod_eq_of_lt (by omega)
  rw [bin2long, longBytes, Der.ofBe_beBytes, Nat.zero_mul, Nat.zero_add, hmod,
    Nat.mod_eq_of_lt (by omega)]

/-! ## Bit strings -/

/-- The greatest bit number, zero if there is none. -/
def maxBit (bits : List ℕ) : ℕ := bits.foldl (fun max b => if max < b then b else max) 0

/-- `euicc_derutil_convert_bits2bin_sizeof`: the byte with the number of unused bits, and the bytes
up to the greatest bit. -/
def bits2binSizeof (bits : List ℕ) : ℕ := (maxBit bits + 8) % 2 ^ 32 / 8 + 1

/-- `buffer[(bit / 8) + 1] |= 1 << (7 - (bit % 8))`. -/
def setBit (buffer : Bytes) (bit : ℕ) : Option Bytes := do
  let b ← buffer[bit / 8 + 1]?
  return buffer.set (bit / 8 + 1) (UInt8.ofNat (b.toNat ||| 1 <<< (7 - bit % 8)))

/-- `euicc_derutil_convert_bits2bin`: the buffer afterwards, or `none` for an error, which leaves
it alone. -/
def bits2bin (buffer : Bytes) (bits : List ℕ) : Option (Option Bytes) :=
  if buffer.length < bits2binSizeof bits then some none
  else do
    let buffer ← memset buffer 0 0 buffer.length
    let buffer ← store buffer 0 [0]
    return some (← bits.foldlM setBit buffer)

/-- `euicc_derutil_convert_bits2bin_alloc`, with the memory that is handed out. -/
def bits2binAlloc (malloc : ℕ → Bytes) (bits : List ℕ) : Option (Option Bytes) :=
  bits2bin (malloc (bits2binSizeof bits)) bits

/-- The bits of a byte that are in use: of the last one, behind which there is nothing, some are
not. More than eight unused bits shift by a negative number. -/
def flagsReg (unused b : ℕ) (behind : Bytes) : Option ℕ :=
  if behind = [] then
    if unused ≤ 8 then some (b &&& (0xFF - 0xFF >>> (8 - unused))) else none
  else some b

variable {α : Type}

/-- The loop over the bits of a byte, of which the first has the number `base`: both passes of
`euicc_derutil_convert_bin2bits_str` run it, and act on the bits that are set. The first argument is
the number of rounds left. -/
def scanByte (act : α → ℕ → Option α) (max_cap_len base : ℕ) : ℕ → ℕ → ℕ → α → Option α
  | 0, _, _, acc => some acc
  | left + 1, i, flags_reg, acc =>
    if base + i < max_cap_len then do
      let acc ← if flags_reg &&& 0x80 ≠ 0 then act acc (base + i) else some acc
      scanByte act max_cap_len base left (i + 1) (flags_reg <<< 1) acc
    else some acc

/-- The loop over the bytes. A bit number is an `int`. -/
def scanBytes (act : α → ℕ → Option α) (max_cap_len unused : ℕ) : ℕ → Bytes → α → Option α
  | _, [], acc => some acc
  | j, b :: buffer, acc => do
    let flags_reg ← flagsReg unused b.toNat buffer
    if j * 8 < 2 ^ 31 then
      let acc ← scanByte act max_cap_len (j * 8) 8 0 flags_reg acc
      scanBytes act max_cap_len unused (j + 1) buffer acc
    else none

/-- The first pass counts. -/
def countFlag (flags_count _bit : ℕ) : Option ℕ := some (flags_count + 1)

/-- The second pass writes names to an array, with the place of the next one. -/
def writeFlag (desc : List String) (s : List (Option String) × ℕ) (bit : ℕ) :
    Option (List (Option String) × ℕ) := do
  let name ← desc[bit]?
  if s.2 < s.1.length then return (s.1.set s.2 (some name), s.2 + 1) else none

/-- `euicc_derutil_convert_bin2bits_str`: the array of names, with a null pointer behind them, or
`none` for an error. -/
def bin2bitsStr (buffer : Bytes) (desc : List String) : Option (Option (List (Option String))) :=
  match buffer with
  | [] => some none
  | unused :: buffer => do
    let flags_count ← scanBytes countFlag desc.length unused.toNat 0 buffer 0
    let s ← scanBytes (writeFlag desc) desc.length unused.toNat 0 buffer
      (List.replicate (flags_count + 1) none, 0)
    return some s.1

/-! ## What a scan visits -/

/-- The numbers of the bits of a byte that are set, of those that are below the limit. -/
def byteFlags (limit base b : ℕ) : List ℕ :=
  ((List.range 8).filter fun i => base + i < limit ∧ b.testBit (7 - i)).map (base + ·)

theorem and_high_ne_zero (b i : ℕ) (hi : i ≤ 7) : (b <<< i) &&& 0x80 ≠ 0 ↔ b.testBit (7 - i) := by
  have hmask : (b <<< i) &&& 2 ^ 7 = ((b <<< i).testBit 7).toNat * 2 ^ 7 := Nat.and_two_pow ..
  rw [show (0x80 : ℕ) = 2 ^ 7 from rfl, hmask, Nat.testBit_shiftLeft]
  cases b.testBit (7 - i) <;> simp [hi]

theorem scanByte_from (act : α → ℕ → Option α) (limit base b left i : ℕ) (hi : i + left = 8)
    (acc : α) :
    scanByte act limit base left i (b <<< i) acc =
      (((List.range' i left).filter fun i => base + i < limit ∧ b.testBit (7 - i)).map
        (base + ·)).foldlM act acc := by
  induction left generalizing i acc with
  | zero => rfl
  | succ left ih =>
    rw [scanByte]
    by_cases hlimit : base + i < limit
    · have hshift : b <<< i <<< 1 = b <<< (i + 1) := (Nat.shiftLeft_add b i 1).symm
      have hrest := fun acc => ih (i + 1) (by omega) acc
      rw [if_pos hlimit, hshift, List.range'_succ]
      by_cases hbit : b.testBit (7 - i)
      · rw [if_pos ((and_high_ne_zero b i (by omega)).2 hbit),
          List.filter_cons_of_pos (by simp [hlimit, hbit]), List.map_cons, List.foldlM_cons]
        simp only [hrest]
      · rw [if_neg fun h => hbit ((and_high_ne_zero b i (by omega)).1 h),
          List.filter_cons_of_neg (by simp [hbit])]
        simp only [hrest, Option.bind_eq_bind, Option.bind_some]
    · have hnil : (List.range' i (left + 1)).filter
          (fun i => base + i < limit ∧ b.testBit (7 - i)) = [] := by
        rw [List.filter_eq_nil_iff]
        intro k hk
        have := (List.mem_range'_1.1 hk).1
        simp only [decide_eq_true_eq]
        omega
      rw [if_neg hlimit, hnil]
      rfl

theorem scanByte_eq (act : α → ℕ → Option α) (limit base b : ℕ) (acc : α) :
    scanByte act limit base 8 0 b acc = (byteFlags limit base b).foldlM act acc := by
  have h := scanByte_from act limit base b 8 0 rfl acc
  rwa [← List.range_eq_range'] at h

/-- The numbers of the bits that are set in bytes, of which the first is the `j`th. -/
def flags (limit unused : ℕ) : ℕ → Bytes → List ℕ
  | _, [] => []
  | j, b :: buffer =>
    byteFlags limit (j * 8)
        (if buffer = [] then b.toNat &&& (0xFF - 0xFF >>> (8 - unused)) else b.toNat) ++
      flags limit unused (j + 1) buffer

/-- **A scan** acts on the bits that are set, in ascending order. -/
theorem scanBytes_eq (act : α → ℕ → Option α) (limit : ℕ) {unused : ℕ} (hu : unused ≤ 8) {j : ℕ}
    {buffer : Bytes} (hlen : (j + buffer.length) * 8 ≤ 2 ^ 31) (acc : α) :
    scanBytes act limit unused j buffer acc = (flags limit unused j buffer).foldlM act acc := by
  induction buffer generalizing j acc with
  | nil => rfl
  | cons b buffer ih =>
    rw [List.length_cons] at hlen
    have hreg : flagsReg unused b.toNat buffer =
        some (if buffer = [] then b.toNat &&& (0xFF - 0xFF >>> (8 - unused)) else b.toNat) := by
      rw [flagsReg, if_pos hu]
      split <;> rfl
    rw [scanBytes, flags, hreg, List.foldlM_append]
    simp only [Option.bind_eq_bind, Option.bind_some, scanByte_eq,
      if_pos (by omega : j * 8 < 2 ^ 31)]
    congr 1
    funext acc
    exact ih (by omega) acc

theorem lt_of_mem_flags {limit unused j p : ℕ} {buffer : Bytes}
    (h : p ∈ flags limit unused j buffer) : p < limit := by
  induction buffer generalizing j with
  | nil => exact absurd h List.not_mem_nil
  | cons b buffer ih =>
    rcases List.mem_append.1 h with h | h
    · obtain ⟨i, hi, rfl⟩ := List.mem_map.1 h
      have := (List.mem_filter.1 hi).2
      simp only [decide_eq_true_eq] at this
      exact this.1
    · exact ih h

/-! ## The two passes -/

theorem foldlM_countFlag (ps : List ℕ) (n : ℕ) : ps.foldlM countFlag n = some (n + ps.length) := by
  induction ps generalizing n with
  | nil => rfl
  | cons p ps ih =>
    rw [List.foldlM_cons, countFlag, Option.bind_eq_bind, Option.bind_some, ih, List.length_cons]
    congr 1
    omega

/-- The names of bits. -/
def names (desc : List String) (ps : List ℕ) : List String := ps.filterMap (desc[·]?)

theorem foldlM_writeFlag (desc : List String) {ps : List ℕ} (h : ∀ p ∈ ps, p < desc.length)
    (written : List String) (k : ℕ) :
    ps.foldlM (writeFlag desc)
        (written.map some ++ List.replicate (ps.length + k) none, written.length) =
      some ((written ++ names desc ps).map some ++ List.replicate k none,
        written.length + ps.length) := by
  induction ps generalizing written with
  | nil => simp [names]
  | cons p ps ih =>
    obtain ⟨hp, hps⟩ := List.forall_mem_cons.1 h
    have hname : desc[p]? = some desc[p] := List.getElem?_eq_getElem hp
    have hwrite : writeFlag desc
        (written.map some ++ List.replicate ((p :: ps).length + k) none, written.length) p =
        some ((written ++ [desc[p]]).map some ++ List.replicate (ps.length + k) none,
          (written ++ [desc[p]]).length) := by
      have hroom : List.length (written.map some ++
          List.replicate ((p :: ps).length + k) (none : Option String)) > written.length := by
        simp only [List.length_append, List.length_map, List.length_replicate, List.length_cons]
        omega
      have hsplit : (p :: ps).length + k = (ps.length + k) + 1 := by
        rw [List.length_cons]
        omega
      simp only [writeFlag, hname, Option.bind_eq_bind, Option.bind_some, if_pos hroom]
      rw [hsplit, List.replicate_succ, List.set_append_right _ _ (by simp)]
      simp
    rw [List.foldlM_cons, hwrite, Option.bind_eq_bind, Option.bind_some, ih hps]
    simp [names, hname]
    omega

/-- **The names of a bit string**: those of its bits that are set, in ascending order. -/
theorem bin2bitsStr_eq {unused : UInt8} (hu : unused.toNat ≤ 8) {buffer : Bytes}
    (hlen : buffer.length * 8 ≤ 2 ^ 31) (desc : List String) :
    bin2bitsStr (unused :: buffer) desc =
      some (some ((names desc (flags desc.length unused.toNat 0 buffer)).map some ++ [none])) := by
  have hlen' : (0 + buffer.length) * 8 ≤ 2 ^ 31 := by omega
  have hflags : ∀ p ∈ flags desc.length unused.toNat 0 buffer, p < desc.length :=
    fun p hp => lt_of_mem_flags hp
  have hwrite := foldlM_writeFlag desc hflags [] 1
  rw [bin2bitsStr, scanBytes_eq countFlag desc.length hu hlen', foldlM_countFlag,
    Option.bind_eq_bind, Option.bind_some, scanBytes_eq (writeFlag desc) desc.length hu hlen',
    Nat.zero_add]
  rw [List.map_nil, List.nil_append, List.nil_append] at hwrite
  change ((List.foldlM (writeFlag desc) (List.replicate _ none, 0) _).bind _) = _
  rw [List.length_nil] at hwrite
  rw [hwrite]
  rfl

/-- A scan that ends has counted no further than an `int`. -/
theorem le_of_scanBytes {act : α → ℕ → Option α} {limit unused j : ℕ} {buffer : Bytes}
    {acc acc' : α} (h : scanBytes act limit unused j buffer acc = some acc')
    (hj : j * 8 ≤ 2 ^ 31) : (j + buffer.length) * 8 ≤ 2 ^ 31 := by
  induction buffer generalizing j acc with
  | nil => exact hj
  | cons b buffer ih =>
    simp only [scanBytes, Option.bind_eq_bind, Option.bind_eq_some_iff,
      Option.ite_none_right_eq_some] at h
    obtain ⟨_, -, hlt, acc, -, h⟩ := h
    have := ih h (by omega)
    rw [List.length_cons]
    omega

theorem le_of_bin2bitsStr {unused : UInt8} {buffer : Bytes} {desc : List String}
    {names : Option (List (Option String))}
    (h : bin2bitsStr (unused :: buffer) desc = some names) : buffer.length * 8 ≤ 2 ^ 31 := by
  simp only [bin2bitsStr, Option.bind_eq_bind, Option.bind_eq_some_iff] at h
  obtain ⟨flags_count, hscan, -⟩ := h
  have := le_of_scanBytes hscan (by decide)
  omega

/-! ## Reading back what was written -/

/-- The bit with a number, in the bytes behind the number of unused bits. -/
def bitAt (data : Bytes) (p : ℕ) : Bool := (data[p / 8]?.getD 0).toNat.testBit (7 - p % 8)

theorem bitAt_cons_low (b : UInt8) (data : Bytes) {i : ℕ} (hi : i < 8) :
    bitAt (b :: data) i = b.toNat.testBit (7 - i) := by
  rw [bitAt, Nat.div_eq_of_lt hi, Nat.mod_eq_of_lt hi]
  rfl

theorem bitAt_cons_high (b : UInt8) (data : Bytes) (i : ℕ) :
    bitAt (b :: data) (8 + i) = bitAt data i := by
  have hdiv : (8 + i) / 8 = i / 8 + 1 := by omega
  have hmod : (8 + i) % 8 = i % 8 := by omega
  rw [bitAt, hdiv, hmod, List.getElem?_cons_succ]
  rfl

/-- With no bits unused, the bits that are set are all of those below the limit. -/
theorem flags_eq_filter (limit j : ℕ) (data : Bytes) :
    flags limit 0 j data = (List.range' (j * 8) (8 * data.length)).filter
      fun p => p < limit ∧ bitAt data (p - j * 8) := by
  induction data generalizing j with
  | nil => rfl
  | cons b data ih =>
    have hall : (if data = [] then b.toNat &&& (0xFF - 0xFF >>> (8 - 0)) else b.toNat) =
        b.toNat := by
      have hmask : b.toNat &&& 0xFF = b.toNat % 256 := Nat.and_two_pow_sub_one_eq_mod _ 8
      split
      · change b.toNat &&& 0xFF = b.toNat
        rw [hmask, Nat.mod_eq_of_lt b.toNat_lt]
      · rfl
    have hsplit : 8 * (b :: data).length = 8 + 8 * data.length := by
      rw [List.length_cons]
      omega
    rw [flags, hall, hsplit, ← List.range'_append_1, List.filter_append]
    congr 1
    · rw [byteFlags, List.range'_eq_map_range, List.filter_map]
      congr 1
      apply List.filter_congr
      intro i hi
      have hlt := List.mem_range.1 hi
      simp only [Function.comp_apply, Nat.add_sub_cancel_left, bitAt_cons_low b data hlt]
    · have hnext : j * 8 + 8 = (j + 1) * 8 := by omega
      rw [ih, hnext]
      apply List.filter_congr
      intro p hp
      have hle := (List.mem_range'_1.1 hp).1
      have hp : p - j * 8 = 8 + (p - (j + 1) * 8) := by omega
      rw [hp, bitAt_cons_high]

/-- Setting a bit sets this bit. -/
theorem setBit_spec (b₀ : UInt8) {data : Bytes} {bit : ℕ} (hbit : bit / 8 < data.length) :
    ∃ data', setBit (b₀ :: data) bit = some (b₀ :: data') ∧ data'.length = data.length ∧
      ∀ p, bitAt data' p = (bitAt data p || decide (p = bit)) := by
  have hread : (b₀ :: data)[bit / 8 + 1]? = some data[bit / 8] := by
    rw [List.getElem?_cons_succ, List.getElem?_eq_getElem hbit]
  refine ⟨data.set (bit / 8) (UInt8.ofNat (data[bit / 8].toNat ||| 1 <<< (7 - bit % 8))), ?_,
    List.length_set, ?_⟩
  · simp only [setBit, hread, Option.bind_eq_bind, Option.bind_some, List.set_cons_succ]
    rfl
  · intro p
    rw [bitAt, bitAt, List.getElem?_set]
    by_cases hp : bit / 8 = p / 8
    · have hpow : (2 : ℕ) ^ (7 - bit % 8) < 2 ^ 8 := Nat.pow_lt_pow_right (by decide) (by omega)
      have hbyte := data[bit / 8].toNat_lt
      have hlt : data[bit / 8].toNat ||| 1 <<< (7 - bit % 8) < 2 ^ 8 := by
        rw [Nat.one_shiftLeft]
        exact Nat.or_lt_two_pow hbyte hpow
      have hread' : data[p / 8]? = some data[bit / 8] := by
        rw [← hp, List.getElem?_eq_getElem hbit]
      have hiff : (7 - bit % 8 = 7 - p % 8) ↔ p = bit := by omega
      rw [if_pos hp, if_pos hbit, hread', Option.getD_some, Option.getD_some, UInt8.toNat_ofNat',
        Nat.mod_eq_of_lt hlt, Nat.testBit_or, Nat.one_shiftLeft, Nat.testBit_two_pow,
        decide_eq_decide.2 hiff]
    · have hne : p ≠ bit := fun h => hp (by rw [h])
      rw [if_neg hp, decide_eq_false hne, Bool.or_false]

theorem foldlM_setBit (b₀ : UInt8) {bits : List ℕ} {data : Bytes}
    (h : ∀ bit ∈ bits, bit / 8 < data.length) :
    ∃ data', bits.foldlM setBit (b₀ :: data) = some (b₀ :: data') ∧
      data'.length = data.length ∧ ∀ p, bitAt data' p = (bitAt data p || decide (p ∈ bits)) := by
  induction bits generalizing data with
  | nil => exact ⟨data, rfl, rfl, fun p => by simp⟩
  | cons bit bits ih =>
    obtain ⟨hbit, hbits⟩ := List.forall_mem_cons.1 h
    obtain ⟨data₁, hset, hlen₁, hbitAt₁⟩ := setBit_spec b₀ hbit
    obtain ⟨data', hfold, hlen, hbitAt⟩ := @ih data₁ (by rwa [hlen₁])
    refine ⟨data', ?_, hlen.trans hlen₁, ?_⟩
    · rw [List.foldlM_cons, hset, Option.bind_eq_bind, Option.bind_some, hfold]
    · intro p
      rw [hbitAt, hbitAt₁, Bool.or_assoc]
      simp

theorem le_maxBit_from (bits : List ℕ) (m : ℕ) :
    m ≤ bits.foldl (fun max b => if max < b then b else max) m ∧
      ∀ bit ∈ bits, bit ≤ bits.foldl (fun max b => if max < b then b else max) m := by
  induction bits generalizing m with
  | nil => exact ⟨le_rfl, fun _ h => absurd h List.not_mem_nil⟩
  | cons b bits ih =>
    obtain ⟨hm, hbits⟩ := ih (if m < b then b else m)
    rw [List.foldl_cons, List.forall_mem_cons]
    split at hm <;> rename_i hlt
    · rw [if_pos hlt] at hbits ⊢
      exact ⟨by omega, hm, hbits⟩
    · rw [if_neg hlt] at hbits ⊢
      exact ⟨hm, by omega, hbits⟩

theorem le_maxBit {bits : List ℕ} {bit : ℕ} (h : bit ∈ bits) : bit ≤ maxBit bits :=
  (le_maxBit_from bits 0).2 bit h

theorem maxBit_le {bits : List ℕ} {n : ℕ} (h : ∀ bit ∈ bits, bit ≤ n) : maxBit bits ≤ n := by
  have hfrom : ∀ (bits : List ℕ) (m : ℕ), m ≤ n → (∀ bit ∈ bits, bit ≤ n) →
      bits.foldl (fun max b => if max < b then b else max) m ≤ n := by
    intro bits
    induction bits with
    | nil => exact fun m hm _ => hm
    | cons b bits ih =>
      intro m hm h
      obtain ⟨hb, hbits⟩ := List.forall_mem_cons.1 h
      apply ih _ _ hbits
      dsimp only
      split
      · exact hb
      · exact hm
  exact hfrom bits 0 (Nat.zero_le n) h

/-- Which numbers of a range have a property does not depend on its end, as long as it is behind
them. -/
theorem filter_range_eq {q : ℕ → Bool} {n m : ℕ} (hn : ∀ p, q p = true → p < n)
    (hm : ∀ p, q p = true → p < m) : (List.range n).filter q = (List.range m).filter q := by
  have hextend : ∀ n k, (∀ p, q p = true → p < n) →
      (List.range (n + k)).filter q = (List.range n).filter q := by
    intro n k h
    have hnil : ((List.range k).map (n + ·)).filter q = [] := by
      rw [List.filter_eq_nil_iff]
      intro p hp hq
      obtain ⟨i, -, rfl⟩ := List.mem_map.1 hp
      have := h _ hq
      omega
    rw [List.range_add, List.filter_append, hnil, List.append_nil]
  rcases Nat.le_total n m with hle | hle
  · obtain ⟨k, rfl⟩ := Nat.exists_eq_add_of_le hle
    exact (hextend n k hn).symm
  · obtain ⟨k, rfl⟩ := Nat.exists_eq_add_of_le hle
    exact hextend m k hm

/-- The bits of a set, in ascending order. -/
def ascending (desc : List String) (bits : List ℕ) : List ℕ :=
  (List.range desc.length).filter (· ∈ bits)

/-- **The names of the bits that were written**, in a buffer of the size that is computed or of a
greater one whose bits can be numbered. -/
theorem bin2bitsStr_bits2bin {desc : List String} {bits : List ℕ}
    (h : ∀ bit ∈ bits, bit < desc.length) (hd : desc.length < 2 ^ 31) {buffer : Bytes}
    (hroom : bits2binSizeof bits ≤ buffer.length) (hlen : buffer.length ≤ 2 ^ 28 + 1) :
    ∃ buffer', bits2bin buffer bits = some (some buffer') ∧
      bin2bitsStr buffer' desc =
        some (some ((names desc (ascending desc bits)).map some ++ [none])) := by
  have hmax : maxBit bits < 2 ^ 31 := by
    have := @maxBit_le bits (2 ^ 31 - 1) fun bit hbit => by
      have := h bit hbit
      omega
    omega
  have hsize : bits2binSizeof bits = maxBit bits / 8 + 2 := by
    rw [bits2binSizeof, Nat.mod_eq_of_lt (by omega)]
    omega
  obtain ⟨n, hn⟩ := Nat.exists_eq_add_one_of_ne_zero (by omega : buffer.length ≠ 0)
  have hzeros : memset buffer 0 0 buffer.length = some (0 :: List.replicate n 0) := by
    rw [memset, if_pos (by omega), hn, Nat.zero_add, ← hn, List.drop_length, List.append_nil,
      List.take_zero, List.nil_append, hn, List.replicate_succ]
  have hfirst : store (0 :: List.replicate n 0) 0 [0] = some (0 :: List.replicate n 0) := by
    simp [store]
  obtain ⟨data, hset, hdata, hbitAt⟩ := @foldlM_setBit 0 bits (List.replicate n 0) (by
    intro bit hbit
    have := le_maxBit hbit
    rw [List.length_replicate]
    omega)
  rw [List.length_replicate] at hdata
  refine ⟨0 :: data, ?_, ?_⟩
  · rw [bits2bin, if_neg (by omega), hzeros]
    simp only [Option.bind_eq_bind, Option.bind_some, hfirst, hset]
    rfl
  · have hflags : flags desc.length 0 0 data = ascending desc bits := by
      rw [flags_eq_filter, Nat.zero_mul, ← List.range_eq_range', hdata, ascending]
      have hcongr : ∀ p, decide (p < desc.length ∧ bitAt data (p - 0) = true) =
          decide (p ∈ bits) := by
        intro p
        have hzero : bitAt (List.replicate n 0) p = false := by
          rw [bitAt, List.getElem?_replicate]
          split <;> exact Nat.zero_testBit _
        rw [Nat.sub_zero, hbitAt, hzero, Bool.false_or, decide_eq_decide, decide_eq_true_eq]
        exact and_iff_right_of_imp (h p)
      simp only [hcongr]
      apply filter_range_eq
      · intro p hp
        have := le_maxBit (of_decide_eq_true hp)
        omega
      · exact fun p hp => h p (of_decide_eq_true hp)
    have hnames := @bin2bitsStr_eq 0 (by decide) data (by omega) desc
    rwa [show (0 : UInt8).toNat = 0 from rfl, hflags] at hnames

/-- The size that is computed for the bits of a table of names. -/
theorem bits2binSizeof_le {desc : List String} {bits : List ℕ}
    (h : ∀ bit ∈ bits, bit < desc.length) (hd : desc.length < 2 ^ 31) :
    bits2binSizeof bits ≤ 2 ^ 28 + 1 := by
  have hmax := @maxBit_le bits (2 ^ 31 - 2) fun bit hbit => by
    have := h bit hbit
    omega
  rw [bits2binSizeof, Nat.mod_eq_of_lt (by omega)]
  omega

/-- **The conversions**: an integer that is not negative is written in its shortest form, which
reads back, and a buffer that is too short for it is left alone; a set of bits is written so that
their names come back in ascending order, in the memory that is allocated for them and in larger
buffers.
-/
theorem conversions {value : ℕ} (hv : value < 2 ^ 63) {desc : List String} {bits : List ℕ}
    (h : ∀ bit ∈ bits, bit < desc.length) (hd : desc.length < 2 ^ 31) :
    (∃ bs, Shortest value bs ∧ bin2long bs = value ∧ ∀ buffer : Bytes,
      (bs.length ≤ buffer.length →
        long2bin buffer value = some (bs ++ buffer.drop bs.length, some bs.length)) ∧
      (buffer.length < bs.length → long2bin buffer value = some (buffer, none))) ∧
    (∀ malloc : ℕ → Bytes, (∀ n, (malloc n).length = n) → ∃ buffer,
      bits2binAlloc malloc bits = some (some buffer) ∧ bin2bitsStr buffer desc =
        some (some ((names desc (ascending desc bits)).map some ++ [none]))) ∧
    ∀ buffer : Bytes, bits2binSizeof bits ≤ buffer.length → buffer.length ≤ 2 ^ 28 + 1 →
      ∃ buffer', bits2bin buffer bits = some (some buffer') ∧ bin2bitsStr buffer' desc =
        some (some ((names desc (ascending desc bits)).map some ++ [none])) := by
  refine ⟨⟨longBytes value, longBytes_shortest hv, bin2long_longBytes hv, ?_⟩, ?_, ?_⟩
  · intro buffer
    rw [long2bin_eq]
    exact ⟨fun hroom => if_neg (Nat.not_lt.2 hroom), fun hshort => if_pos hshort⟩
  · intro malloc hmalloc
    have hsize := bits2binSizeof_le h hd
    exact bin2bitsStr_bits2bin h hd (hmalloc _).ge (by rwa [hmalloc])
  · intro buffer hroom hlen
    exact bin2bitsStr_bits2bin h hd hroom hlen

/-- A number whose top bit would make it negative, and two bits of a table of three names. -/
theorem conversions_sample :
    (∃ bs, Shortest (128 : ℕ) bs ∧ bin2long bs = 128 ∧ ∀ buffer : Bytes,
      (bs.length ≤ buffer.length →
        long2bin buffer 128 = some (bs ++ buffer.drop bs.length, some bs.length)) ∧
      (buffer.length < bs.length → long2bin buffer 128 = some (buffer, none))) ∧
    (∀ malloc : ℕ → Bytes, (∀ n, (malloc n).length = n) → ∃ buffer,
      bits2binAlloc malloc [2, 0] = some (some buffer) ∧
        bin2bitsStr buffer ["pprUpdateControl", "ppr1", "ppr2"] =
          some (some ((names ["pprUpdateControl", "ppr1", "ppr2"]
            (ascending ["pprUpdateControl", "ppr1", "ppr2"] [2, 0])).map some ++ [none]))) ∧
    ∀ buffer : Bytes, bits2binSizeof [2, 0] ≤ buffer.length → buffer.length ≤ 2 ^ 28 + 1 →
      ∃ buffer', bits2bin buffer [2, 0] = some (some buffer') ∧
        bin2bitsStr buffer' ["pprUpdateControl", "ppr1", "ppr2"] =
          some (some ((names ["pprUpdateControl", "ppr1", "ppr2"]
            (ascending ["pprUpdateControl", "ppr1", "ppr2"] [2, 0])).map some ++ [none])) :=
  conversions (by decide) (by decide) (by decide)

example : ∃ buffer, bits2bin [9, 9] [2, 0] = some (some buffer) ∧
    bin2bitsStr buffer ["pprUpdateControl", "ppr1", "ppr2"] =
      some (some [some "pprUpdateControl", some "ppr2", none]) :=
  ⟨[0, 0xA0], by decide, by decide⟩

end VirtualRsp.Lpa.Convert
