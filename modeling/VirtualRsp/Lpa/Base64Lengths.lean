import VirtualRsp.Foundations.CInt
import VirtualRsp.Foundations.Loop
import VirtualRsp.Lpa.Base64

/-!
# Base64 and the lengths that are computed for it

`decode` and `encode` are the base64 functions with their loops over pointers; what they write is
returned as a list, next to their result. `decodeLen` and `encodeLen` are the sizes that callers
allocate. All counts are `int`s. `trim` is the loop that takes blanks out of a text in place.
`decodeText` and `encodeText` are what the callers do: they ask for the size, allocate and convert,
and a size or a result below zero is an error.

* `base64_iff`: trimming and decoding give back what was encoded, and no more is written than was
  allocated, as long as the counts fit an `int`. This is so up to `maxLen` bytes;
* `decodeText_encode_iff`: `decodeText` gives back what was encoded under the same bound.
-/

namespace VirtualRsp.Lpa.Base64

/-! ## Decoding -/

/-- The bytes of a group of four six-bit values. -/
def firstByte (p q : ℕ) : UInt8 := UInt8.ofNat (p <<< 2 ||| q >>> 4)

def secondByte (p q : ℕ) : UInt8 := UInt8.ofNat (p <<< 4 ||| q >>> 2)

def thirdByte (p q : ℕ) : UInt8 := UInt8.ofNat (p <<< 6 ||| q)

/-- How many characters of the alphabet a text begins with; a NUL is none. -/
def alphabetLen (bufcoded : Bytes) : ℕ := (bufcoded.takeWhile (pr2six · ≤ 63)).length

/-- The difference of two pointers, as an `int`. -/
def nprbytes (bufcoded : Bytes) : ℤ := asInt (alphabetLen bufcoded % 2 ^ 32)

/-- `((nprbytes + 3) / 4) * 3`. -/
def groupBytes (nprbytes : ℤ) : Option ℤ := do
  let n ← checked (nprbytes + 3)
  checked (n.tdiv 4 * 3)

/-- `euicc_base64_decode_len`. -/
def decodeLen (bufcoded : Bytes) : Option ℤ := do
  let nbytesdecoded ← groupBytes (nprbytes bufcoded)
  checked (nbytesdecoded + 1)

/-- What was written, what is left to read, and how many characters of it. -/
structure DecodeState where
  bufout : Bytes
  bufin : Bytes
  nprbytes : ℤ

/-- One round of the loop of `euicc_base64_decode`. -/
def decodeBody (s : DecodeState) : Option (Ctl DecodeState DecodeState) :=
  if 4 < s.nprbytes then do
    let p ← s.bufin[0]?
    let q ← s.bufin[1]?
    let r ← s.bufin[2]?
    let t ← s.bufin[3]?
    return .next ⟨s.bufout ++ [firstByte (pr2six p) (pr2six q), secondByte (pr2six q) (pr2six r),
      thirdByte (pr2six r) (pr2six t)], s.bufin.drop 4, s.nprbytes - 4⟩
  else some (.done s)

/-- Write a byte of the last group if there are more than `n` characters of it. -/
def lastByte (s : DecodeState) (n : ℕ) (byte : ℕ → ℕ → UInt8) : Option Bytes :=
  if n < s.nprbytes then do
    let p ← s.bufin[n - 1]?
    let q ← s.bufin[n]?
    return [byte (pr2six p) (pr2six q)]
  else some []

/-- The last group, and the NUL behind it. -/
def decodeTail (s : DecodeState) : Option Bytes := do
  let first ← lastByte s 1 firstByte
  let second ← lastByte s 2 secondByte
  let third ← lastByte s 3 thirdByte
  return s.bufout ++ first ++ second ++ third ++ [0]

/-- `euicc_base64_decode`: what it writes, and its result. -/
def decode (bufcoded : Bytes) : Option (Bytes × ℤ) := do
  let nbytesdecoded ← groupBytes (nprbytes bufcoded)
  let s ← loop decodeBody (bufcoded.length + 1) ⟨[], bufcoded, nprbytes bufcoded⟩
  let bufout ← decodeTail s
  let missing ← checked (4 - s.nprbytes)
  let nbytesdecoded ← checked (nbytesdecoded - missing % 4)
  return (bufout, nbytesdecoded)

/-! ## Encoding -/

/-- The characters of a group of three bytes; a byte that is missing is zero. -/
def firstChar (a : ℕ) : UInt8 := basis64 (a >>> 2 &&& 0x3F)

def secondChar (a b : ℕ) : UInt8 := basis64 ((a &&& 0x3) <<< 4 ||| (b &&& 0xF0) >>> 4)

def thirdChar (b c : ℕ) : UInt8 := basis64 ((b &&& 0xF) <<< 2 ||| (c &&& 0xC0) >>> 6)

def fourthChar (c : ℕ) : UInt8 := basis64 (c &&& 0x3F)

/-- One round of the loop of `euicc_base64_encode`. -/
def encodeBody (string : Bytes) (s : Bytes × ℕ) : Option (Ctl (Bytes × ℕ) (Bytes × ℕ)) :=
  if s.2 + 2 < string.length then do
    let a ← readAt string s.2
    let b ← readAt string (s.2 + 1)
    let c ← readAt string (s.2 + 2)
    return .next (s.1 ++ [firstChar a, secondChar a b, thirdChar b c, fourthChar c], s.2 + 3)
  else some (.done s)

/-- The last group with its padding, and the NUL behind it. -/
def encodeTail (string : Bytes) (s : Bytes × ℕ) : Option Bytes :=
  if s.2 < string.length then do
    let a ← readAt string s.2
    if s.2 = string.length - 1 then return s.1 ++ [firstChar a, secondChar a 0, 61, 61, 0]
    else
      let b ← readAt string (s.2 + 1)
      return s.1 ++ [firstChar a, secondChar a b, thirdChar b 0, 61, 0]
  else some (s.1 ++ [0])

/-- `euicc_base64_encode`: what it writes. -/
def encode (string : Bytes) : Option Bytes := do
  encodeTail string (← loop (encodeBody string) (string.length + 1) ([], 0))

/-- `euicc_base64_encode_len`. -/
def encodeLen (len : ℤ) : Option ℤ := do
  let n ← checked (len + 2)
  let n ← checked (n.tdiv 3 * 4)
  checked (n + 1)

/-! ## Trimming -/

/-- The characters that are taken out of a text. -/
def IsBlank (c : UInt8) : Prop := c = 10 ∨ c = 13 ∨ c = 32 ∨ c = 9

instance (c : UInt8) : Decidable (IsBlank c) := inferInstanceAs (Decidable (_ ∨ _))

/-- One round of the loop of `es9p_base64_trim`; a blank is taken out by moving what is behind it,
with the NUL. -/
def trimBody (s : Bytes × ℕ) : Option (Ctl (Bytes × ℕ) Bytes) := do
  let c ← s.1[s.2]?
  if c = 0 then return .done s.1
  else if IsBlank c then
    let behind ← readN (s.1.drop (s.2 + 1)) (cstr (s.1.drop s.2)).length
    return .next (← store s.1 s.2 behind, s.2)
  else return .next (s.1, s.2 + 1)

/-- `es9p_base64_trim` on a buffer. -/
def trim (str : Bytes) : Option Bytes := loop trimBody (str.length + 1) (str, 0)

/-! ## The calls -/

/-- What the callers of `euicc_base64_decode` do: they allocate the computed length and decode into
it. There is no memory of a negative size, and a negative result is an error. -/
def decodeText (bufcoded : Bytes) : Option (Option Bytes) := do
  let len ← decodeLen bufcoded
  if len < 0 then return none
  let (bufplain, nbytesdecoded) ← decode bufcoded
  if len < bufplain.length then none
  else if nbytesdecoded < 0 then return none
  else return some (bufplain.take nbytesdecoded.toNat)

/-- What the callers of `euicc_base64_encode` do. Their lengths are `uint32_t`s, which become
`int`s. -/
def encodeText (string : Bytes) : Option (Option Bytes) := do
  let len := asInt (string.length % 2 ^ 32)
  let size ← encodeLen len
  if size < 0 then return none
  let encoded ← encode (string.take len.toNat)
  if size < encoded.length then none
  else return some (cstr encoded)

/-! ## Blanks -/

/-- A text is another one with blanks between its characters. -/
inductive Inserted : Bytes → Bytes → Prop
  | nil : Inserted [] []
  | keep {text text' : Bytes} (c : UInt8) : Inserted text text' → Inserted (c :: text) (c :: text')
  | blank {text text' : Bytes} (c : UInt8) (h : IsBlank c) :
    Inserted text text' → Inserted text (c :: text')

/-! ## What trimming leaves -/

theorem trim_from {before todo rest : Bytes} {fuel : ℕ} (h : 0 ∉ todo)
    (hfuel : todo.length < fuel) :
    ∃ rest', loop trimBody fuel (before ++ todo ++ 0 :: rest, before.length) =
      some (before ++ todo.filter (¬ IsBlank ·) ++ 0 :: rest') := by
  induction todo generalizing before rest fuel with
  | nil =>
    have hround : trimBody (before ++ [] ++ 0 :: rest, before.length) =
        some (.done (before ++ [] ++ 0 :: rest)) := by
      simp [trimBody]
    exact ⟨rest, loop_of_done hround hfuel⟩
  | cons c todo ih =>
    rw [List.length_cons] at hfuel
    have hc : c ≠ 0 := fun e => h (e ▸ List.mem_cons_self)
    have htodo : 0 ∉ todo := fun hmem => h (List.mem_cons_of_mem c hmem)
    have hread : (before ++ c :: todo ++ 0 :: rest)[before.length]? = some c := by simp
    by_cases hblank : IsBlank c
    · have hstr : cstr ((before ++ c :: todo ++ 0 :: rest).drop before.length) = c :: todo := by
        rw [List.append_assoc, List.drop_left, cstr, List.takeWhile_append_of_pos]
        · simp
        · intro b hb
          simpa using fun e : b = 0 => h (e ▸ hb)
      have hbehind : readN ((before ++ c :: todo ++ 0 :: rest).drop (before.length + 1))
          (c :: todo).length = some (todo ++ [0]) := by
        have hdrop : (before ++ c :: todo ++ 0 :: rest).drop (before.length + 1) =
            (todo ++ [0]) ++ rest := by
          rw [← List.drop_drop, List.append_assoc, List.drop_left]
          simp
        rw [hdrop]
        exact readN_append (by simp)
      have hmove : store (before ++ c :: todo ++ 0 :: rest) before.length (todo ++ [0]) =
          some (before ++ (todo ++ [0]) ++ 0 :: rest) :=
        store_over rfl (by simp)
      have hround : trimBody (before ++ c :: todo ++ 0 :: rest, before.length) =
          some (.next (before ++ todo ++ 0 :: 0 :: rest, before.length)) := by
        simp only [trimBody, hread, hstr, hbehind, hmove, Option.bind_eq_bind, Option.bind_some,
          if_neg hc, if_pos hblank]
        simp
      obtain ⟨rest', hrest⟩ := @ih before (0 :: rest) (fuel - 1) htodo (by omega)
      refine ⟨rest', ?_⟩
      rw [loop_of_next hround (by omega), hrest, List.filter_cons_of_neg (by simpa using hblank)]
    · have hround : trimBody (before ++ c :: todo ++ 0 :: rest, before.length) =
          some (.next (before ++ [c] ++ todo ++ 0 :: rest, (before ++ [c]).length)) := by
        simp only [trimBody, hread, Option.bind_eq_bind, Option.bind_some, if_neg hc,
          if_neg hblank]
        simp
      obtain ⟨rest', hrest⟩ := @ih (before ++ [c]) rest (fuel - 1) htodo (by omega)
      refine ⟨rest', ?_⟩
      rw [loop_of_next hround (by omega), hrest, List.filter_cons_of_pos (by simpa using hblank)]
      simp

/-- **Trimming** leaves the characters of a text that are no blanks. -/
theorem trim_eq {text : Bytes} (h : 0 ∉ text) (after : Bytes) :
    ∃ str, trim (text ++ 0 :: after) = some str ∧ cstr str = text.filter (¬ IsBlank ·) := by
  obtain ⟨rest', hrest⟩ := @trim_from [] text after ((text ++ 0 :: after).length + 1) h
    (by rw [List.length_append]; omega)
  refine ⟨_, hrest, ?_⟩
  rw [List.nil_append, cstr, List.takeWhile_append_of_pos]
  · simp
  · intro b hb
    simpa using fun e : b = 0 => h (e ▸ List.mem_of_mem_filter hb)

theorem filter_of_inserted {text text' : Bytes} (h : Inserted text text')
    (hblank : ∀ c ∈ text, ¬ IsBlank c) : text'.filter (¬ IsBlank ·) = text := by
  induction h with
  | nil => rfl
  | keep c _ ih =>
    obtain ⟨hc, hrest⟩ := List.forall_mem_cons.1 hblank
    rw [List.filter_cons_of_pos (by simpa using hc), ih hrest]
  | blank c hc _ ih => rw [List.filter_cons_of_neg (by simpa using hc), ih hblank]

theorem zero_notMem_of_inserted {text text' : Bytes} (h : Inserted text text') (h0 : 0 ∉ text) :
    0 ∉ text' := by
  induction h with
  | nil => exact h0
  | keep c _ ih =>
    rw [List.mem_cons, not_or] at h0 ⊢
    exact ⟨h0.1, ih h0.2⟩
  | blank c hc _ ih =>
    rw [List.mem_cons, not_or]
    refine ⟨?_, ih h0⟩
    rintro rfl
    exact absurd hc (by decide)

/-- The characters of an encoding are neither blanks nor NUL. -/
theorem basis64_visible (n : ℕ) : ¬ IsBlank (basis64 n) ∧ basis64 n ≠ 0 := by
  by_cases hn : n < 64
  · have hall : ∀ n : Fin 64, ¬ IsBlank (basis64 n) ∧ basis64 n ≠ 0 := by decide +kernel
    exact hall ⟨n, hn⟩
  · have h47 : basis64 n = 47 := by
      rw [basis64, if_neg (by omega), if_neg (by omega), if_neg (by omega), if_neg (by omega)]
    rw [h47]
    decide

theorem base64Encode_visible (bs : Bytes) :
    ∀ c ∈ base64Encode bs, ¬ IsBlank c ∧ c ≠ 0 := by
  have hpad : ¬ IsBlank 61 ∧ (61 : UInt8) ≠ 0 := by decide
  induction bs using base64Encode.induct with
  | case1 a b c r ih => simpa [base64Encode, basis64_visible] using ih
  | case2 a b => simp [base64Encode, basis64_visible, hpad]
  | case3 a => simp [base64Encode, basis64_visible, hpad]
  | case4 => exact fun c hc => absurd hc List.not_mem_nil

/-! ## What is decoded -/

theorem firstByte_eq (p : ℕ) {q : ℕ} (hq : q < 64) :
    firstByte p q = UInt8.ofNat (p * 4 + q / 16) := by
  have hlow : q >>> 4 = q / 16 := Nat.shiftRight_eq_div_pow q 4
  rw [firstByte, hlow, ← Nat.shiftLeft_add_eq_or_of_lt (by omega : q / 16 < 2 ^ 2),
    Nat.shiftLeft_eq]

theorem secondByte_eq (p : ℕ) {q : ℕ} (hq : q < 64) :
    secondByte p q = UInt8.ofNat (p * 16 + q / 4) := by
  have hlow : q >>> 2 = q / 4 := Nat.shiftRight_eq_div_pow q 2
  rw [secondByte, hlow, ← Nat.shiftLeft_add_eq_or_of_lt (by omega : q / 4 < 2 ^ 4),
    Nat.shiftLeft_eq]

theorem thirdByte_eq (p : ℕ) {q : ℕ} (hq : q < 64) : thirdByte p q = UInt8.ofNat (p * 64 + q) := by
  rw [thirdByte, ← Nat.shiftLeft_add_eq_or_of_lt (by omega : q < 2 ^ 6), Nat.shiftLeft_eq]

/-- The rounds, and the last group: they decode the characters that are counted. The last group has
one to four characters, unless there are none at all. -/
theorem decode_from (xs rest bufout : Bytes) (hx : ∀ c ∈ xs, pr2six c < 64) {fuel : ℕ}
    (hfuel : xs.length < fuel) :
    ∃ s, loop decodeBody fuel ⟨bufout, xs ++ rest, xs.length⟩ = some s ∧
      decodeTail s = some (bufout ++ decodeGroups (xs.map pr2six) ++ [0]) ∧
      ∃ q : ℕ, (xs.length : ℤ) = 4 * q + s.nprbytes ∧ 0 ≤ s.nprbytes ∧ s.nprbytes ≤ 4 ∧
        (s.nprbytes = 0 → xs.length = 0) := by
  induction hn : xs.length using Nat.strong_induction_on generalizing xs bufout fuel with
  | _ n ih =>
  subst hn
  have hshort : xs.length ≤ 4 →
      loop decodeBody fuel ⟨bufout, xs ++ rest, xs.length⟩ =
        some ⟨bufout, xs ++ rest, xs.length⟩ := by
    intro hle
    have hround : decodeBody ⟨bufout, xs ++ rest, xs.length⟩ =
        some (.done ⟨bufout, xs ++ rest, xs.length⟩) := by
      rw [decodeBody, if_neg (by simp only; omega)]
    exact loop_of_done hround (by omega)
  rcases xs with _ | ⟨a, _ | ⟨b, _ | ⟨c, _ | ⟨d, _ | ⟨e, r⟩⟩⟩⟩⟩
  · refine ⟨_, hshort (by simp), ?_, 0, by simp, by simp, by simp, by simp⟩
    simp [decodeTail, lastByte, decodeGroups]
  · refine ⟨_, hshort (by simp), ?_, 0, by simp, by simp, by simp, by simp⟩
    simp [decodeTail, lastByte, decodeGroups]
  · refine ⟨_, hshort (by simp), ?_, 0, by simp, by simp, by simp, by simp⟩
    have hb : pr2six b < 64 := hx b (by simp)
    simp [decodeTail, lastByte, decodeGroups, firstByte_eq _ hb]
  · refine ⟨_, hshort (by simp), ?_, 0, by simp, by simp, by simp, by simp⟩
    have hb : pr2six b < 64 := hx b (by simp)
    have hc : pr2six c < 64 := hx c (by simp)
    simp [decodeTail, lastByte, decodeGroups, firstByte_eq _ hb, secondByte_eq _ hc]
  · refine ⟨_, hshort (by simp), ?_, 0, by simp, by simp, by simp, by simp⟩
    have hb : pr2six b < 64 := hx b (by simp)
    have hc : pr2six c < 64 := hx c (by simp)
    have hd : pr2six d < 64 := hx d (by simp)
    simp [decodeTail, lastByte, decodeGroups, firstByte_eq _ hb, secondByte_eq _ hc,
      thirdByte_eq _ hd]
  · have hb : pr2six b < 64 := hx b (by simp)
    have hc : pr2six c < 64 := hx c (by simp)
    have hd : pr2six d < 64 := hx d (by simp)
    simp only [List.length_cons] at hfuel ih
    have hround : decodeBody ⟨bufout, a :: b :: c :: d :: e :: r ++ rest,
        ((a :: b :: c :: d :: e :: r).length : ℕ)⟩ =
        some (.next ⟨bufout ++ decodeGroups [pr2six a, pr2six b, pr2six c, pr2six d],
          e :: r ++ rest, ((e :: r).length : ℕ)⟩) := by
      rw [decodeBody, if_pos (by simp only [List.length_cons]; omega)]
      simp [decodeGroups, firstByte_eq _ hb, secondByte_eq _ hc, thirdByte_eq _ hd]
      omega
    obtain ⟨s, hs, htail, q, hq, hlow, hhigh, hzero⟩ := @ih (r.length + 1) (by omega) (e :: r)
      (bufout ++ decodeGroups [pr2six a, pr2six b, pr2six c, pr2six d])
      (fun x hxr => hx x (by simp [List.mem_cons.1 hxr])) (fuel - 1)
      (by simp only [List.length_cons]; omega) rfl
    refine ⟨s, ?_, ?_, q + 1, ?_, hlow, hhigh, ?_⟩
    · rw [loop_of_next hround (by omega)]
      exact hs
    · rw [htail]
      simp [decodeGroups]
    · simp only [List.length_cons] at hq ⊢
      omega
    · intro h0
      exact absurd (hzero h0) (by simp)

/-- The sizes of groups, for counts that fit. -/
theorem groupBytes_of {n : ℕ} (h : n ≤ 2 ^ 31 - 4) :
    groupBytes n = some (((n + 3) / 4 * 3 : ℕ) : ℤ) := by
  have hdiv : ((n : ℤ) + 3).tdiv 4 = ((n + 3) / 4 : ℕ) := by
    rw [Int.tdiv_eq_ediv_of_nonneg (by omega)]
    omega
  rw [groupBytes, checked_of (by omega) (by omega), Option.bind_eq_bind, Option.bind_some, hdiv,
    checked_of (by omega) (by omega)]
  norm_cast

theorem length_decodeGroups (xs : List ℕ) : (decodeGroups xs).length = xs.length * 3 / 4 := by
  induction xs using decodeGroups.induct with
  | case1 a b c d r ih =>
    simp only [decodeGroups, List.length_cons, ih]
    omega
  | case2 a b c => simp [decodeGroups]
  | case3 a b => simp [decodeGroups]
  | case4 a => simp [decodeGroups]
  | case5 => rfl

/-- The characters of the alphabet that a text begins with. -/
theorem take_alphabetLen (bufcoded : Bytes) :
    bufcoded.take (alphabetLen bufcoded) = bufcoded.takeWhile (pr2six · ≤ 63) :=
  (List.prefix_iff_eq_take.1 (List.takeWhile_prefix _)).symm

theorem le_alphabetLen {bufcoded : Bytes} {n : ℕ} (hn : nprbytes bufcoded = n) :
    n ≤ alphabetLen bufcoded := by
  have hnat : n = alphabetLen bufcoded % 2 ^ 32 := by
    have hcast : asInt (alphabetLen bufcoded % 2 ^ 32) = n := hn
    rw [asInt] at hcast
    split at hcast <;> omega
  exact hnat ▸ Nat.mod_le _ _

/-- A size is only computed for a count in the range. -/
theorem nprbytes_le {bufcoded : Bytes} {len : ℤ} (h : decodeLen bufcoded = some len) :
    nprbytes bufcoded ≤ 2 ^ 31 - 4 := by
  simp only [decodeLen, groupBytes, Option.bind_eq_bind, Option.bind_eq_some_iff,
    checked_eq_some] at h
  obtain ⟨-, ⟨-, ⟨⟨-, hlt⟩, -⟩, -⟩, -⟩ := h
  omega

theorem alphabetLen_le (bufcoded : Bytes) : alphabetLen bufcoded ≤ bufcoded.length :=
  (List.takeWhile_prefix _).length_le

/-- **Decoding**, when the count is a number of characters of the alphabet: that many characters are
decoded, and as many bytes as they stand for are written with a NUL behind them. -/
theorem decode_eq {bufcoded : Bytes} {n : ℕ} (hn : nprbytes bufcoded = n) (hle : n ≤ 2 ^ 31 - 4)
    (hn' : n ≤ alphabetLen bufcoded) :
    decode bufcoded = some (decodeGroups ((bufcoded.take n).map pr2six) ++ [0],
      ((n * 3 / 4 : ℕ) : ℤ)) := by
  have hlen := alphabetLen_le bufcoded
  have hx : ∀ c ∈ bufcoded.take n, pr2six c < 64 := by
    intro c hc
    have hmem : c ∈ bufcoded.takeWhile (pr2six · ≤ 63) := by
      rw [← take_alphabetLen]
      exact List.take_subset_take_left bufcoded hn' hc
    have := List.mem_takeWhile_imp hmem
    exact Nat.lt_succ_of_le (of_decide_eq_true this)
  have htake : (bufcoded.take n).length = n := List.length_take_of_le (by omega)
  obtain ⟨s, hs, htail, q, hq, hlow, hhigh, hzero⟩ :=
    @decode_from (bufcoded.take n) (bufcoded.drop n) [] hx (bufcoded.length + 1) (by omega)
  rw [List.take_append_drop, htake] at hs
  rw [htake] at hq hzero
  rw [List.nil_append] at htail
  rw [decode, hn, groupBytes_of hle, Option.bind_eq_bind, Option.bind_some, hs]
  simp only [Option.bind_eq_bind, Option.bind_some, htail]
  rw [checked_of (by omega) (by omega), Option.bind_some]
  have hresult : (((n + 3) / 4 * 3 : ℕ) : ℤ) - (4 - s.nprbytes) % 4 = (n * 3 / 4 : ℕ) := by
    obtain h | h | h | h | h : s.nprbytes = 0 ∨ s.nprbytes = 1 ∨ s.nprbytes = 2 ∨
        s.nprbytes = 3 ∨ s.nprbytes = 4 := by omega
    all_goals
      rw [h] at hq hzero ⊢
      omega
  rw [hresult, checked_of (by omega) (by omega)]
  rfl

/-- Division of a negative number rounds towards zero. -/
theorem tdiv_of_neg {n : ℤ} (h : n ≤ 0) : n.tdiv 4 = -(-n / 4) := by
  have hneg := Int.neg_tdiv (-n) 4
  have hpos : (-n).tdiv 4 = -n / 4 := Int.tdiv_eq_ediv_of_nonneg (by omega)
  rwa [Int.neg_neg, hpos] at hneg

theorem groups_nonpos {n : ℤ} (h : n < 0) : (n + 3).tdiv 4 ≤ 0 := by
  by_cases h3 : n + 3 ≤ 0
  · rw [tdiv_of_neg h3]
    omega
  · rw [Int.tdiv_eq_ediv_of_nonneg (by omega)]
    omega

/-- A count that is negative: nothing is decoded, and a NUL is written. -/
theorem decode_neg {bufcoded : Bytes} (hn : nprbytes bufcoded < 0) :
    decode bufcoded = do
      let nbytesdecoded ← groupBytes (nprbytes bufcoded)
      let missing ← checked (4 - nprbytes bufcoded)
      let nbytesdecoded ← checked (nbytesdecoded - missing % 4)
      return ([0], nbytesdecoded) := by
  have hstop : decodeBody ⟨[], bufcoded, nprbytes bufcoded⟩ =
      some (.done ⟨[], bufcoded, nprbytes bufcoded⟩) := by
    rw [decodeBody, if_neg (by simp only; omega)]
  have htail : decodeTail ⟨[], bufcoded, nprbytes bufcoded⟩ = some [0] := by
    simp only [decodeTail, lastByte]
    rw [if_neg (by omega), if_neg (by omega), if_neg (by omega)]
    rfl
  simp only [decode, loop_done hstop, htail, Option.bind_eq_bind, Option.bind_some]

theorem result_of_neg {bufcoded out : Bytes} {r : ℤ} (hn : nprbytes bufcoded < 0)
    (h : decode bufcoded = some (out, r)) : out = [0] ∧ r ≤ 0 := by
  have hgroups := groups_nonpos hn
  rw [decode_neg hn] at h
  simp only [groupBytes, Option.bind_eq_bind, Option.bind_eq_some_iff, checked_eq_some,
    Option.pure_def, Option.some.injEq, Prod.mk.injEq] at h
  obtain ⟨n, ⟨m, ⟨-, rfl⟩, -, rfl⟩, missing, ⟨-, rfl⟩, r', ⟨-, rfl⟩, rfl, rfl⟩ := h
  exact ⟨rfl, by omega⟩

theorem decodeLen_of {bufcoded : Bytes} {n : ℕ} (hn : nprbytes bufcoded = n)
    (hle : n ≤ 2 ^ 31 - 4) : decodeLen bufcoded = some (((n + 3) / 4 * 3 + 1 : ℕ) : ℤ) := by
  rw [decodeLen, hn, groupBytes_of hle, Option.bind_eq_bind, Option.bind_some,
    checked_of (by omega) (by omega)]
  norm_cast

/-- What a call of `decode` is relied on for: it writes no more than its caller has allocated. -/
def Bounded (bufcoded : Bytes) : Prop :=
  ∃ len out r, decodeLen bufcoded = some len ∧ decode bufcoded = some (out, r) ∧
    (out.length : ℤ) ≤ len

/-- Decoding stays within what is allocated when the count is in this range; the division rounds a
small negative count up to zero. -/
theorem bounded_iff_nprbytes (bufcoded : Bytes) :
    Bounded bufcoded ↔ -6 ≤ nprbytes bufcoded ∧ nprbytes bufcoded ≤ 2 ^ 31 - 4 := by
  have hmod := Nat.mod_lt (alphabetLen bufcoded) (by decide : 0 < 2 ^ 32)
  have hbounds : -2 ^ 31 ≤ nprbytes bufcoded ∧ nprbytes bufcoded < 2 ^ 31 := asInt_bounds hmod
  by_cases hneg : nprbytes bufcoded < 0
  · have hgroups := groups_nonpos hneg
    constructor
    · rintro ⟨len, out, r, hlen, hout, hle⟩
      obtain ⟨rfl, -⟩ := result_of_neg hneg hout
      simp only [decodeLen, groupBytes, Option.bind_eq_bind, Option.bind_eq_some_iff,
        checked_eq_some] at hlen
      obtain ⟨n, ⟨m, ⟨-, rfl⟩, -, rfl⟩, -, rfl⟩ := hlen
      rw [List.length_singleton] at hle
      refine ⟨?_, by omega⟩
      by_contra hlow
      rw [tdiv_of_neg (by omega)] at hle
      omega
    · rintro ⟨hlow, -⟩
      have hzero : (nprbytes bufcoded + 3).tdiv 4 = 0 := by
        by_cases h3 : nprbytes bufcoded + 3 ≤ 0
        · rw [tdiv_of_neg h3]
          omega
        · rw [Int.tdiv_eq_ediv_of_nonneg (by omega)]
          omega
      have hgroup : groupBytes (nprbytes bufcoded) = some 0 := by
        rw [groupBytes, checked_of (by omega) (by omega), Option.bind_eq_bind, Option.bind_some,
          hzero]
        rfl
      refine ⟨1, [0], 0 - (4 - nprbytes bufcoded) % 4, ?_, ?_, by simp⟩
      · rw [decodeLen, hgroup]
        rfl
      · rw [decode_neg hneg, hgroup]
        simp only [Option.bind_eq_bind, Option.bind_some]
        rw [checked_of (by omega) (by omega), Option.bind_some, checked_of (by omega) (by omega)]
        rfl
  · obtain ⟨n, hn⟩ := Int.eq_ofNat_of_zero_le (Int.not_lt.1 hneg)
    constructor
    · rintro ⟨len, out, r, hlen, -, -⟩
      have hle := nprbytes_le hlen
      omega
    · rintro ⟨-, hle⟩
      refine ⟨_, _, _, decodeLen_of hn (by omega), decode_eq hn (by omega) (le_alphabetLen hn), ?_⟩
      have htake : (bufcoded.take n).length = n := by
        exact List.length_take_of_le ((le_alphabetLen hn).trans (alphabetLen_le bufcoded))
      rw [List.length_append, length_decodeGroups, List.length_map, htake, List.length_singleton]
      omega

/-- The numbers of characters whose count, kept as an `int`, is in the range. -/
def Countable (n : ℕ) : Prop := n % 2 ^ 32 ≤ 2 ^ 31 - 4 ∨ 2 ^ 32 - 6 ≤ n % 2 ^ 32

/-- **When decoding stays within what is allocated.** -/
theorem bounded_iff (bufcoded : Bytes) :
    Bounded bufcoded ↔ Countable (alphabetLen bufcoded) := by
  have hmod := Nat.mod_lt (alphabetLen bufcoded) (by decide : 0 < 2 ^ 32)
  rw [bounded_iff_nprbytes, nprbytes, asInt, Countable]
  split <;> omega

/-! ## What is encoded -/

theorem firstChar_eq (a : UInt8) : firstChar a.toNat = basis64 (a.toNat / 4) := by
  have ha := a.toNat_lt
  have hmask : a.toNat >>> 2 &&& 0x3F = a.toNat >>> 2 % 64 := Nat.and_two_pow_sub_one_eq_mod _ 6
  have hshift : a.toNat >>> 2 = a.toNat / 4 := Nat.shiftRight_eq_div_pow a.toNat 2
  rw [firstChar, hmask, hshift, Nat.mod_eq_of_lt (by omega)]

theorem secondChar_eq (a b : UInt8) :
    secondChar a.toNat b.toNat = basis64 (a.toNat % 4 * 16 + b.toNat / 16) := by
  have hb := b.toNat_lt
  have hmask : b.toNat >>> 4 &&& 0xF = b.toNat >>> 4 % 16 := Nat.and_two_pow_sub_one_eq_mod _ 4
  have hshift : b.toNat >>> 4 = b.toNat / 16 := Nat.shiftRight_eq_div_pow b.toNat 4
  have hlow : (b.toNat &&& 0xF0) >>> 4 = b.toNat / 16 := by
    rw [Nat.shiftRight_and_distrib]
    change b.toNat >>> 4 &&& 0xF = _
    rw [hmask, hshift, Nat.mod_eq_of_lt (by omega)]
  have hhigh : a.toNat &&& 0x3 = a.toNat % 4 := Nat.and_two_pow_sub_one_eq_mod _ 2
  rw [secondChar, hlow, hhigh, ← Nat.shiftLeft_add_eq_or_of_lt (by omega : b.toNat / 16 < 2 ^ 4),
    Nat.shiftLeft_eq]

theorem thirdChar_eq (b c : UInt8) :
    thirdChar b.toNat c.toNat = basis64 (b.toNat % 16 * 4 + c.toNat / 64) := by
  have hc := c.toNat_lt
  have hmask : c.toNat >>> 6 &&& 0x3 = c.toNat >>> 6 % 4 := Nat.and_two_pow_sub_one_eq_mod _ 2
  have hshift : c.toNat >>> 6 = c.toNat / 64 := Nat.shiftRight_eq_div_pow c.toNat 6
  have hlow : (c.toNat &&& 0xC0) >>> 6 = c.toNat / 64 := by
    rw [Nat.shiftRight_and_distrib]
    change c.toNat >>> 6 &&& 0x3 = _
    rw [hmask, hshift, Nat.mod_eq_of_lt (by omega)]
  have hhigh : b.toNat &&& 0xF = b.toNat % 16 := Nat.and_two_pow_sub_one_eq_mod _ 4
  rw [thirdChar, hlow, hhigh, ← Nat.shiftLeft_add_eq_or_of_lt (by omega : c.toNat / 64 < 2 ^ 2),
    Nat.shiftLeft_eq]

theorem fourthChar_eq (c : UInt8) : fourthChar c.toNat = basis64 (c.toNat % 64) := by
  have hmask : c.toNat &&& 0x3F = c.toNat % 64 := Nat.and_two_pow_sub_one_eq_mod _ 6
  rw [fourthChar, hmask]

/-- The byte that stands `i` bytes behind what has been read. -/
theorem readAt_behind (before : Bytes) (b : UInt8) (skipped todo : Bytes) {i : ℕ}
    (hi : skipped.length = i) :
    readAt (before ++ (skipped ++ b :: todo)) (before.length + i) = some b.toNat := by
  subst hi
  rw [readAt_append_right (Nat.le_add_right _ _), Nat.add_sub_cancel_left,
    readAt_append_right le_rfl, Nat.sub_self]
  rfl

theorem encode_stop {before todo out : Bytes} (h : todo.length ≤ 2) {fuel : ℕ} (hfuel : 0 < fuel) :
    loop (encodeBody (before ++ todo)) fuel (out, before.length) = some (out, before.length) := by
  have hround : encodeBody (before ++ todo) (out, before.length) =
      some (.done (out, before.length)) := by
    rw [encodeBody, if_neg (by rw [List.length_append]; simp only; omega)]
  exact loop_of_done hround hfuel

/-- The rounds, and the last group. -/
theorem encode_from (before todo out : Bytes) {fuel : ℕ} (hfuel : todo.length < fuel) :
    (loop (encodeBody (before ++ todo)) fuel (out, before.length)).bind
        (encodeTail (before ++ todo)) = some (out ++ base64Encode todo ++ [0]) := by
  induction todo using base64Encode.induct generalizing before out fuel with
  | case1 a b c r ih =>
    simp only [List.length_cons] at hfuel
    have ha := readAt_behind before a [] (b :: c :: r) rfl
    have hb := readAt_behind before b [a] (c :: r) rfl
    have hc := readAt_behind before c [a, b] r rfl
    simp only [List.nil_append, List.cons_append, List.length_nil, Nat.add_zero,
      List.length_cons, Nat.zero_add] at ha hb hc
    have hround : encodeBody (before ++ a :: b :: c :: r) (out, before.length) =
        some (.next (out ++ [firstChar a.toNat, secondChar a.toNat b.toNat,
          thirdChar b.toNat c.toNat, fourthChar c.toNat], (before ++ [a, b, c]).length)) := by
      rw [encodeBody, if_pos (by simp only [List.length_append, List.length_cons]; omega)]
      simp only [ha, hb, hc, Option.bind_eq_bind, Option.bind_some, List.length_append]
      rfl
    have hmore : before ++ a :: b :: c :: r = (before ++ [a, b, c]) ++ r := by simp
    rw [loop_of_next hround (by omega), hmore, ih _ _ (by omega), firstChar_eq, secondChar_eq,
      thirdChar_eq, fourthChar_eq]
    simp [base64Encode]
  | case2 a b =>
    have ha := readAt_behind before a [] [b] rfl
    have hb := readAt_behind before b [a] [] rfl
    simp only [List.nil_append, List.cons_append, List.length_nil, Nat.add_zero,
      List.length_singleton] at ha hb
    have hzero : thirdChar b.toNat 0 = basis64 (b.toNat % 16 * 4) := thirdChar_eq b 0
    rw [encode_stop le_rfl (by omega), Option.bind_some, encodeTail,
      if_pos (by simp only [List.length_append, List.length_cons]; omega)]
    simp only [ha, hb, Option.bind_eq_bind, Option.bind_some]
    rw [if_neg (by simp only [List.length_append, List.length_cons, List.length_nil]; omega)]
    simp [base64Encode, firstChar_eq, secondChar_eq, hzero]
  | case3 a =>
    have ha := readAt_behind before a [] [] rfl
    simp only [List.nil_append, List.length_nil, Nat.add_zero] at ha
    have hzero : secondChar a.toNat 0 = basis64 (a.toNat % 4 * 16) := secondChar_eq a 0
    rw [encode_stop (by simp) (by omega), Option.bind_some, encodeTail,
      if_pos (by simp only [List.length_append, List.length_cons]; omega)]
    simp only [ha, Option.bind_eq_bind, Option.bind_some]
    rw [if_pos (by simp only [List.length_append, List.length_cons, List.length_nil]; omega)]
    simp [base64Encode, firstChar_eq, hzero]
  | case4 =>
    rw [encode_stop (by simp) (by omega), Option.bind_some, encodeTail,
      if_neg (by simp)]
    simp [base64Encode]

/-- **Encoding** writes the encoded text and a NUL. -/
theorem encode_eq (string : Bytes) : encode string = some (base64Encode string ++ [0]) :=
  encode_from [] string [] (Nat.lt_succ_self _)

theorem length_base64Encode (bs : Bytes) : (base64Encode bs).length = (bs.length + 2) / 3 * 4 := by
  induction bs using base64Encode.induct with
  | case1 a b c r ih =>
    simp only [base64Encode, List.length_cons, ih]
    omega
  | case2 a b => simp [base64Encode]
  | case3 a => simp [base64Encode]
  | case4 => rfl

/-- Of an encoded text all but the padding is in the alphabet. -/
theorem alphabetLen_base64Encode (bs : Bytes) :
    alphabetLen (base64Encode bs) = (4 * bs.length + 2) / 3 := by
  have hdigit : ∀ n < 64, ∀ l : Bytes,
      alphabetLen (basis64 n :: l) = alphabetLen l + 1 := by
    intro n hn l
    have hmem : pr2six (basis64 n) ≤ 63 := by
      rw [pr2six_basis64 hn]
      omega
    rw [alphabetLen, List.takeWhile_cons_of_pos (by simpa using hmem), List.length_cons]
    rfl
  have hpad : ∀ l : Bytes, alphabetLen (61 :: l) = 0 := fun l => rfl
  induction bs using base64Encode.induct with
  | case1 a b c r ih =>
    have ha := a.toNat_lt
    have hb := b.toNat_lt
    have hc := c.toNat_lt
    rw [base64Encode, hdigit _ (by omega), hdigit _ (by omega), hdigit _ (by omega),
      hdigit _ (by omega), ih]
    simp only [List.length_cons]
    omega
  | case2 a b =>
    have ha := a.toNat_lt
    have hb := b.toNat_lt
    rw [base64Encode, hdigit _ (by omega), hdigit _ (by omega), hdigit _ (by omega), hpad]
    simp
  | case3 a =>
    have ha := a.toNat_lt
    rw [base64Encode, hdigit _ (by omega), hdigit _ (by omega), hpad]
    simp
  | case4 => rfl

/-! ## When the lengths fit -/

/-- The number of bytes whose encoded text is counted without overflow. -/
def maxLen : ℕ := 1610612733

/-- What a call of `encode` is relied on for: it writes as much as its caller has allocated. -/
def Exact (x : Bytes) : Prop :=
  ∃ len out, encodeLen x.length = some len ∧ encode x = some out ∧ (out.length : ℤ) = len

/-- **When as much is written as is allocated.** -/
theorem exact_iff (x : Bytes) : Exact x ↔ x.length ≤ maxLen := by
  have hdiv : ((x.length : ℤ) + 2).tdiv 3 = ((x.length + 2) / 3 : ℕ) := by
    rw [Int.tdiv_eq_ediv_of_nonneg (by omega)]
    omega
  constructor
  · rintro ⟨len, out, hlen, -, -⟩
    simp only [encodeLen, Option.bind_eq_bind, Option.bind_eq_some_iff,
      checked_eq_some] at hlen
    obtain ⟨n, ⟨-, rfl⟩, m, ⟨-, rfl⟩, ⟨-, hlt⟩, -⟩ := hlen
    rw [hdiv] at hlt
    rw [maxLen]
    omega
  · intro hle
    rw [maxLen] at hle
    refine ⟨((x.length + 2) / 3 * 4 + 1 : ℕ), _, ?_, encode_eq x, ?_⟩
    · rw [encodeLen, checked_of (by omega) (by omega), Option.bind_eq_bind, Option.bind_some, hdiv,
        checked_of (by omega) (by omega), Option.bind_some, checked_of (by omega) (by omega)]
      norm_cast
    · rw [List.length_append, length_base64Encode, List.length_singleton]

theorem decodeText_of_nprbytes {bufcoded : Bytes} {n : ℕ} (hn : nprbytes bufcoded = n)
    (hle : n ≤ 2 ^ 31 - 4) (hn' : n ≤ alphabetLen bufcoded) :
    decodeText bufcoded = some (some (decodeGroups ((bufcoded.take n).map pr2six))) := by
  have hlen := alphabetLen_le bufcoded
  have hgroups : (decodeGroups ((bufcoded.take n).map pr2six)).length = n * 3 / 4 := by
    rw [length_decodeGroups, List.length_map, List.length_take_of_le (by omega)]
  rw [decodeText, decodeLen_of hn hle, Option.bind_eq_bind, Option.bind_some, if_neg (by omega),
    decode_eq hn hle hn']
  simp only [Option.bind_eq_bind, Option.bind_some, List.length_append, hgroups,
    List.length_singleton]
  rw [if_neg (by omega), if_neg (by omega), Int.toNat_natCast, List.take_left' hgroups]
  rfl

theorem decodedBytes_eq (bufcoded : Bytes) : decodedBytes bufcoded =
    decodeGroups ((bufcoded.take (alphabetLen bufcoded)).map pr2six) := by
  rw [take_alphabetLen, decodedBytes, List.takeWhile_map]
  rfl

/-- **What the callers get** of a text with fewer than 2³² - 6 characters of the alphabet: the bytes
that it stands for, as long as they can be counted. -/
theorem decodeText_eq_some {bufcoded bin : Bytes} (h : alphabetLen bufcoded < 2 ^ 32 - 6) :
    decodeText bufcoded = some (some bin) ↔
      alphabetLen bufcoded ≤ 2 ^ 31 - 4 ∧ decodedBytes bufcoded = bin := by
  have hmod : alphabetLen bufcoded % 2 ^ 32 = alphabetLen bufcoded := Nat.mod_eq_of_lt (by omega)
  by_cases hle : alphabetLen bufcoded ≤ 2 ^ 31 - 4
  · have hn : nprbytes bufcoded = alphabetLen bufcoded := by
      rw [nprbytes, hmod, asInt_of_lt (by omega)]
    rw [decodeText_of_nprbytes hn hle le_rfl, ← decodedBytes_eq, and_iff_right hle,
      Option.some.injEq, Option.some.injEq]
  · refine iff_of_false ?_ fun h' => hle h'.1
    rw [decodeText]
    by_cases hsmall : alphabetLen bufcoded < 2 ^ 31
    · have hn : nprbytes bufcoded = alphabetLen bufcoded := by
        rw [nprbytes, hmod, asInt_of_lt hsmall]
      rw [decodeLen, hn, groupBytes, checked_eq_none (by omega)]
      intro h'
      cases h'
    · have hn : nprbytes bufcoded = alphabetLen bufcoded - 2 ^ 32 := by
        rw [nprbytes, hmod, asInt, if_neg hsmall]
      have hdiv := tdiv_of_neg (show nprbytes bufcoded + 3 ≤ 0 by omega)
      intro h'
      simp only [decodeLen, groupBytes, Option.bind_eq_bind, Option.bind_eq_some_iff,
        checked_eq_some] at h'
      obtain ⟨len, ⟨_, ⟨_, ⟨-, rfl⟩, -, rfl⟩, -, rfl⟩, h'⟩ := h'
      rw [if_pos (by omega)] at h'
      cases h'

/-- **No more bytes are decoded** than can be encoded. -/
theorem length_of_decodeText {bufcoded bin : Bytes} (h : decodeText bufcoded = some (some bin)) :
    bin.length ≤ maxLen := by
  simp only [decodeText, Option.bind_eq_bind, Option.bind_eq_some_iff] at h
  obtain ⟨len, hlen, h⟩ := h
  split at h
  · cases h
  · obtain ⟨⟨out, r⟩, hout, h⟩ := Option.bind_eq_some_iff.1 h
    simp only [Option.pure_def, Option.ite_none_left_eq_some] at h
    obtain ⟨-, h⟩ := h
    split at h
    · cases h
    · cases h
      refine (List.length_take_le _ _).trans ?_
      by_cases hneg : nprbytes bufcoded < 0
      · obtain ⟨-, hr⟩ := result_of_neg hneg hout
        omega
      · obtain ⟨n, hn⟩ := Int.eq_ofNat_of_zero_le (Int.not_lt.1 hneg)
        have hle := nprbytes_le hlen
        rw [decode_eq hn (by omega) (le_alphabetLen hn)] at hout
        cases hout
        rw [maxLen]
        omega

/-- **An encoded text is decoded** just when its length can be computed. -/
theorem decodeText_encode_iff {bs : Bytes} :
    decodeText (base64Encode bs) = some (some bs) ↔ bs.length ≤ maxLen := by
  have hcount := alphabetLen_base64Encode bs
  constructor
  · exact length_of_decodeText
  · intro hle
    rw [maxLen] at hle
    exact (decodeText_eq_some (by omega)).2 ⟨by omega, decodedBytes_encode bs⟩

theorem decodeText_encode {bs : Bytes} (h : bs.length ≤ maxLen) :
    decodeText (base64Encode bs) = some (some bs) := decodeText_encode_iff.2 h

theorem cstr_base64Encode (bs : Bytes) : cstr (base64Encode bs ++ [0]) = base64Encode bs := by
  rw [cstr, List.takeWhile_append_of_pos]
  · simp
  · intro c hc
    simpa using (base64Encode_visible bs c hc).2

/-- **What the callers of the encoder get**, as long as the length fits. -/
theorem encodeText_eq_some {bs text : Bytes} (h : bs.length < 2 ^ 31) :
    encodeText bs = some (some text) ↔ bs.length ≤ maxLen ∧ base64Encode bs = text := by
  have hlen : asInt (bs.length % 2 ^ 32) = bs.length := by
    rw [Nat.mod_eq_of_lt (by omega), asInt_of_lt h]
  rw [encodeText]
  simp only [hlen, Int.toNat_natCast, List.take_length, encode_eq, Option.bind_eq_bind,
    Option.bind_some, cstr_base64Encode]
  by_cases hle : bs.length ≤ maxLen
  · obtain ⟨len, out, hsize, hout, heq⟩ := (exact_iff bs).2 hle
    rw [encode_eq, Option.some.injEq] at hout
    subst hout
    rw [hsize, Option.bind_some, if_neg (by omega), if_neg (by omega), and_iff_right hle]
    simp
  · refine iff_of_false ?_ fun h' => hle h'.1
    rw [Option.bind_eq_some_iff]
    rintro ⟨size, hsize, -⟩
    rw [maxLen] at hle
    have hdiv : ((bs.length : ℤ) + 2).tdiv 3 = ((bs.length + 2) / 3 : ℕ) := by
      rw [Int.tdiv_eq_ediv_of_nonneg (by omega)]
      omega
    simp only [encodeLen, Option.bind_eq_bind, Option.bind_eq_some_iff, checked_eq_some] at hsize
    obtain ⟨n, ⟨-, rfl⟩, m, ⟨-, rfl⟩, ⟨-, hlt⟩, -⟩ := hsize
    rw [hdiv] at hlt
    omega

theorem encodeText_of_le {bs : Bytes} (h : bs.length ≤ maxLen) :
    encodeText bs = some (some (base64Encode bs)) := by
  refine (encodeText_eq_some ?_).2 ⟨h, rfl⟩
  rw [maxLen] at h
  omega

/-- What trimming and decoding are relied on for: they give back what was encoded. -/
def Decodes (x text after : Bytes) : Prop :=
  ∃ str, trim (text ++ 0 :: after) = some str ∧ decode (cstr str) = some (x ++ [0], (x.length : ℤ))

/-- **When an encoded text with blanks is decoded.** -/
theorem decodes_iff {x text : Bytes} (hx : x.length < 2 ^ 31) (h : Inserted (base64Encode x) text)
    (after : Bytes) : Decodes x text after ↔ x.length ≤ maxLen := by
  have hvisible := base64Encode_visible x
  have h0 : 0 ∉ text :=
    zero_notMem_of_inserted h fun hmem => (hvisible 0 hmem).2 rfl
  obtain ⟨str, htrim, hstr⟩ := trim_eq h0 after
  rw [filter_of_inserted h fun c hc => (hvisible c hc).1] at hstr
  have hiff : Decodes x text after ↔
      decode (base64Encode x) = some (x ++ [0], (x.length : ℤ)) := by
    constructor
    · rintro ⟨str', htrim', hdecode⟩
      rw [htrim, Option.some.injEq] at htrim'
      rwa [← htrim', hstr] at hdecode
    · intro hdecode
      exact ⟨str, htrim, by rwa [hstr]⟩
  have hcount := alphabetLen_base64Encode x
  have hmod : alphabetLen (base64Encode x) % 2 ^ 32 = (4 * x.length + 2) / 3 := by
    rw [hcount, Nat.mod_eq_of_lt (by omega)]
  rw [hiff, maxLen]
  constructor
  · intro hdecode
    by_contra hlarge
    by_cases hsmall : (4 * x.length + 2) / 3 < 2 ^ 31
    · have hn : nprbytes (base64Encode x) = ((4 * x.length + 2) / 3 : ℕ) := by
        rw [nprbytes, hmod, asInt_of_lt hsmall]
      rw [decode, hn, groupBytes, checked_eq_none (by omega)] at hdecode
      cases hdecode
    · have hneg : nprbytes (base64Encode x) < 0 := by
        rw [nprbytes, hmod]
        exact asInt_neg hsmall (by omega)
      obtain ⟨-, hr⟩ := result_of_neg hneg hdecode
      omega
  · intro hle
    have hn : nprbytes (base64Encode x) = ((4 * x.length + 2) / 3 : ℕ) := by
      rw [nprbytes, hmod, asInt_of_lt (by omega)]
    rw [decode_eq hn (by omega) hcount.ge, ← hcount, take_alphabetLen]
    have hback := decodedBytes_encode x
    rw [decodedBytes, List.takeWhile_map] at hback
    have hlen : alphabetLen (base64Encode x) * 3 / 4 = x.length := by
      rw [hcount]
      omega
    rw [hlen]
    exact congrArg (fun bin => some (bin ++ [0], (x.length : ℤ))) hback

/-- **When the base64 functions and their lengths agree**: on any bytes with any blanks in their
encoded text, and on any text that is decoded. -/
theorem base64_iff {x text : Bytes} (hx : x.length < 2 ^ 31)
    (h : Inserted (base64Encode x) text) (after bufcoded : Bytes) :
    (Decodes x text after ↔ x.length ≤ maxLen) ∧ (Exact x ↔ x.length ≤ maxLen) ∧
      (Bounded bufcoded ↔ Countable (alphabetLen bufcoded)) :=
  ⟨decodes_iff hx h after, exact_iff x, bounded_iff bufcoded⟩

/-- The text `QU I=`, and a text with one character left over. -/
theorem base64_iff_sample :
    (Decodes (ascii "AB") (ascii "QU I=") [7] ↔ (ascii "AB").length ≤ maxLen) ∧
      (Exact (ascii "AB") ↔ (ascii "AB").length ≤ maxLen) ∧
      (Bounded (ascii "QUJDR") ↔ Countable (alphabetLen (ascii "QUJDR"))) := by
  have hencoded : base64Encode (ascii "AB") = [81, 85, 73, 61] := by decide
  have htext : ascii "QU I=" = [81, 85, 32, 73, 61] := by decide
  have h : Inserted (base64Encode (ascii "AB")) (ascii "QU I=") := by
    rw [hencoded, htext]
    exact .keep 81 (.keep 85 (.blank 32 (by decide) (.keep 73 (.keep 61 .nil))))
  exact base64_iff (by decide) h [7] (ascii "QUJDR")

/-- As many bytes as make a text whose length is not an `int`. -/
theorem base64_overflow : ¬ Exact (List.replicate 1610612734 0) := by
  rintro ⟨len, out, hlen, -, -⟩
  rw [List.length_replicate] at hlen
  have hnone : encodeLen (1610612734 : ℕ) = none := by decide
  rw [hnone] at hlen
  cases hlen

end VirtualRsp.Lpa.Base64
