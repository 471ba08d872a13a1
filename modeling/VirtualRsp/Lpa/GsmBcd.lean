import Mathlib.Data.List.Induction
import VirtualRsp.Foundations.CInt
import VirtualRsp.Foundations.Loop
import VirtualRsp.Lpa.Hexutil

/-!
# BCD conversions and their buffers

The conversions of `Lpa.Hexutil` with the buffers that they write to, the 32-bit counters and the
`int` results. A function returns the buffer afterwards and its result; an access outside of a
buffer is a fault.

* `gsmbcd2bin_eq`, `bin2gsmbcd_eq`: what the conversions do with buffers that are large enough.
* `gsmbcd_iff`: when they do what their callers rely on. The padding of `gsmbcd2bin` has a negative
  length when there are more bytes than are padded to, and `bin2gsmbcd` takes one from the length of
  an empty text.
-/

namespace VirtualRsp.Lpa.Hexutil

/-! ## The conversions -/

/-- One round of the loop of `gsmbcd_swap_chars`. -/
def swapBody (inputLen : ℕ) (s : Bytes × ℕ) : Option (Ctl (Bytes × ℕ) Bytes) :=
  if s.2 < inputLen then do
    let a ← s.1[s.2]?
    let b ← s.1[s.2 + 1]?
    return .next ((s.1.set s.2 b).set (s.2 + 1) a, (s.2 + 2) % 2 ^ 32)
  else some (.done s.1)

/-- `gsmbcd_swap_chars`. -/
def gsmbcdSwapChars (input : Bytes) (inputLen : ℕ) : Option Bytes :=
  loop (swapBody inputLen) (inputLen + 1) (input, 0)

/-- The loop of `euicc_hexutil_bin2hex`. -/
def hexLoop (s : Bytes × ℕ) : Bytes → Option (Bytes × ℕ)
  | [] => some s
  | b :: bin => do
    let s ← emit s [hexDigit (b.toNat / 16)]
    let s ← emit s [hexDigit (b.toNat % 16)]
    hexLoop s bin

/-- `euicc_hexutil_bin2hex`. -/
def bin2hex (output bin : Bytes) : Option (Bytes × ℤ) :=
  if output.length < (2 * bin.length + 1) % 2 ^ 32 then some (output, -1)
  else do
    let s ← hexLoop (output, 0) bin
    return ((← emit s [0]).1, asInt s.2)

/-- The loop of `euicc_hexutil_hex2bin_r`. -/
def binLoop (output : Bytes) (bytes : ℕ) : Bytes → Option (Bytes × ℤ)
  | a :: b :: input =>
    match hexVal a, hexVal b with
    | some x, some y => do
      binLoop (← store output bytes [UInt8.ofNat (16 * x + y)]) (bytes + 1) input
    | _, _ => some (output, -1)
  | _ => some (output, asInt bytes)

/-- `euicc_hexutil_hex2bin_r`. -/
def hex2binR (output input : Bytes) : Option (Bytes × ℤ) :=
  if input.length % 2 ≠ 0 ∨ output.length < input.length / 2 then some (output, -1)
  else binLoop output 0 input

/-- `euicc_hexutil_gsmbcd2bin`; the text is copied to a block of as many characters as are counted,
rounded up to an even number. -/
def gsmbcd2bin (output input : Bytes) (paddingTo : ℕ) : Option (Bytes × ℤ) :=
  if output.length < paddingTo then some (output, -1)
  else do
    let n := input.length % 2 ^ 32
    let size := (n + n % 2) % 2 ^ 32
    let bin ← store (List.replicate size 0) 0 (input.take n)
    let bin ← memset bin n 102 (n % 2)
    let bin ← gsmbcdSwapChars bin size
    let r ← hex2binR output bin
    if r.2 = -1 then return (r.1, -1)
    else
      let bytes := asUInt32 r.2
      return (← memset r.1 bytes 0xFF (sub32 paddingTo bytes), r.2)

/-- The loop of `euicc_hexutil_bin2gsmbcd`. -/
def trim (output : Bytes) : ℕ → Option (Bytes × ℤ)
  | 0 => some (output, 0)
  | n + 1 => do
    if (← output[n + 1]?) = 102 then trim (output.set (n + 1) 0) n
    else return (output, n + 1)

/-- `euicc_hexutil_bin2gsmbcd`. -/
def bin2gsmbcd (output bin : Bytes) : Option (Bytes × ℤ) := do
  let r ← bin2hex output bin
  if r.2 < 0 then return (r.1, -1)
  else
    let n := r.2 - 1
    let output ← gsmbcdSwapChars r.1 (asUInt32 n)
    if n ≤ 0 then return (output, n)
    else trim output n.toNat

/-! ## The loops -/

/-- The rounds behind the pairs that have been exchanged. The bound of the loop may be one less than
the number of characters. -/
theorem swapChars_from {inputLen : ℕ} (before todo rest : Bytes) (fuel : ℕ)
    (heven : todo.length % 2 = 0) (hbefore : before.length % 2 = 0)
    (hlen : inputLen ≤ (before ++ todo).length) (hlen' : (before ++ todo).length ≤ inputLen + 1)
    (hlt : (before ++ todo).length < 2 ^ 32) (hfuel : todo.length / 2 < fuel) :
    loop (swapBody inputLen) fuel (before ++ todo ++ rest, before.length) =
      some (before ++ Lpa.gsmbcdSwapChars todo ++ rest) := by
  induction todo using gsmbcdSwapChars.induct generalizing before fuel with
  | case1 a b todo ih =>
    simp only [List.length_append, List.length_cons] at heven hlen hlen' hlt hfuel
    have hround : swapBody inputLen (before ++ a :: b :: todo ++ rest, before.length) =
        some (.next (before ++ [b, a] ++ todo ++ rest, (before ++ [b, a]).length)) := by
      rw [swapBody, if_pos (by simp only; omega)]
      have ha : (before ++ a :: b :: todo ++ rest)[before.length]? = some a := by simp
      have hb : (before ++ a :: b :: todo ++ rest)[before.length + 1]? = some b := by
        simp
      have hset : ((before ++ a :: b :: todo ++ rest).set before.length b).set
          (before.length + 1) a = before ++ [b, a] ++ todo ++ rest := by
        simp [List.set_append_right]
      simp only [ha, hb, hset, Option.bind_eq_bind, Option.bind_some, List.length_append,
        List.length_cons, List.length_nil]
      rw [Nat.mod_eq_of_lt (by omega)]
      rfl
    have hpair : (before ++ [b, a]).length = before.length + 2 := by simp
    rw [loop_of_next hround (by omega), ih (before ++ [b, a]) (fuel - 1) (by omega) (by omega)
      (by rw [List.length_append]; omega) (by rw [List.length_append]; omega)
      (by rw [List.length_append]; omega) (by omega)]
    simp [Lpa.gsmbcdSwapChars]
  | case2 todo hshort =>
    have hnil : todo = [] := by
      rcases todo with _ | ⟨a, _ | ⟨b, r⟩⟩
      · rfl
      · simp at heven
      · exact absurd rfl (hshort a b r)
    subst hnil
    have hround : swapBody inputLen (before ++ [] ++ rest, before.length) =
        some (.done (before ++ [] ++ rest)) := by
      rw [List.append_nil] at hlen
      rw [swapBody, if_neg (by simp only; omega)]
    rw [loop_of_done hround hfuel]
    rfl

/-- **Exchanging pairs in place**: the bound of the loop may be one less than the number of
characters. -/
theorem gsmbcdSwapChars_eq {inputLen : ℕ} {text rest : Bytes} (heven : text.length % 2 = 0)
    (hlen : inputLen ≤ text.length) (hlen' : text.length ≤ inputLen + 1)
    (hlt : text.length < 2 ^ 32) :
    gsmbcdSwapChars (text ++ rest) inputLen = some (Lpa.gsmbcdSwapChars text ++ rest) := by
  exact swapChars_from [] text rest (inputLen + 1) heven rfl hlen hlen' hlt (by omega)

/-- With the bound `-1` the loop leaves every buffer. -/
theorem gsmbcdSwapChars_fault {output : Bytes} (h : output.length < 2 ^ 32) :
    gsmbcdSwapChars output (2 ^ 32 - 1) = none := by
  have hloop : ∀ fuel i, i % 2 = 0 → i < 2 ^ 32 → ∀ buf : Bytes, buf.length < 2 ^ 32 →
      loop (swapBody (2 ^ 32 - 1)) fuel (buf, i) = none := by
    intro fuel
    induction fuel with
    | zero => exact fun _ _ _ _ _ => rfl
    | succ fuel ih =>
      intro i heven hi buf hbuf
      have hbound : (buf, i).2 < 2 ^ 32 - 1 := by
        change i < 2 ^ 32 - 1
        omega
      cases ha : buf[i]? with
      | none =>
        have hround : swapBody (2 ^ 32 - 1) (buf, i) = none := by
          rw [swapBody, if_pos hbound]
          simp [ha]
        exact loop_fault hround fuel
      | some a =>
        cases hb : buf[i + 1]? with
        | none =>
          have hround : swapBody (2 ^ 32 - 1) (buf, i) = none := by
            rw [swapBody, if_pos hbound]
            simp [ha, hb]
          exact loop_fault hround fuel
        | some b =>
          obtain ⟨hlt, -⟩ := List.getElem?_eq_some_iff.1 hb
          have hround : swapBody (2 ^ 32 - 1) (buf, i) =
              some (.next ((buf.set i b).set (i + 1) a, i + 2)) := by
            rw [swapBody, if_pos hbound, Nat.mod_eq_of_lt (by simp only; omega)]
            simp [ha, hb]
          rw [loop_next hround]
          exact ih (i + 2) (by omega) (by omega) _ (by simpa using hbuf)
  exact hloop _ 0 rfl (by decide) output h

theorem hexLoop_eq (s : Bytes × ℕ) (h : s.2 ≤ s.1.length) (bin : Bytes) :
    hexLoop s bin = emit s (bin.flatMap hexByte) := by
  induction bin generalizing s with
  | nil => simp [hexLoop, emit, store_nil h]
  | cons b bin ih =>
    rw [hexLoop, List.flatMap_cons, emit_append, hexByte,
      emit_cons s _ [hexDigit (b.toNat % 16)], Option.bind_assoc]
    simp only [Option.bind_eq_bind]
    cases emit s [hexDigit (b.toNat / 16)] with
    | none => rfl
    | some s₁ =>
      simp only [Option.bind_some]
      cases h₂ : emit s₁ [hexDigit (b.toNat % 16)] with
      | none => rfl
      | some s₂ => exact ih s₂ (emit_le h₂)

/-- A pair that reads is two digits, and a byte. -/
theorem hexPairs_pair {a b : UInt8} {input bin : Bytes}
    (h : hexPairs (a :: b :: input) = some bin) :
    ∃ x y bin', hexVal a = some x ∧ hexVal b = some y ∧ hexPairs input = some bin' ∧
      bin = UInt8.ofNat (16 * x + y) :: bin' := by
  rw [hexPairs] at h
  split at h
  · rename_i x y hx hy
    obtain ⟨bin', hbin, rfl⟩ := Option.map_eq_some_iff.1 h
    exact ⟨x, y, bin', hx, hy, hbin, rfl⟩
  · cases h

theorem length_of_hexPairs {input bin : Bytes} (h : hexPairs input = some bin) :
    input.length = 2 * bin.length := by
  induction input using hexPairs.induct generalizing bin with
  | case1 =>
    cases h
    rfl
  | case2 => cases h
  | case3 a b input x y hb ha ih =>
    obtain ⟨_, _, bin, -, -, hbin, rfl⟩ := hexPairs_pair h
    simp only [List.length_cons, ih hbin]
    omega
  | case4 a b input hno =>
    obtain ⟨x, y, -, hx, hy, -⟩ := hexPairs_pair h
    exact absurd hy (hno x y hx)

/-- Every character of a text of pairs is a digit, or it is not read. -/
theorem hexPairs_eq_none {input : Bytes} (heven : input.length % 2 = 0) :
    hexPairs input = none ↔ ∃ c ∈ input, hexVal c = none := by
  induction input using hexPairs.induct with
  | case1 => simp [hexPairs]
  | case2 => simp at heven
  | case3 a b input x y hb ha ih =>
    simp only [List.length_cons] at heven
    simp [hexPairs, ha, hb, ih (by omega)]
  | case4 a b input hno =>
    rw [hexPairs]
    cases ha : hexVal a with
    | none => simp [ha]
    | some x =>
      cases hb : hexVal b with
      | none => simp [hb]
      | some y => exact absurd hb (hno x y ha)

theorem binLoop_of_some {input bin : Bytes} (h : hexPairs input = some bin) {output : Bytes}
    {bytes : ℕ} (hbytes : bytes ≤ output.length) :
    binLoop output bytes input =
      (store output bytes bin).map fun output => (output, asInt (bytes + bin.length)) := by
  induction input using hexPairs.induct generalizing bin output bytes with
  | case1 =>
    cases h
    rw [store_nil hbytes]
    rfl
  | case2 => cases h
  | case3 a b input x y hb ha ih =>
    obtain ⟨x', y', bin, hx, hy, hbin, rfl⟩ := hexPairs_pair h
    obtain rfl : x = x' := Option.some.inj (ha.symm.trans hx)
    obtain rfl : y = y' := Option.some.inj (hb.symm.trans hy)
    simp only [binLoop, ha, hb, Option.bind_eq_bind]
    have hcons := store_append output bytes [UInt8.ofNat (16 * x + y)] bin
    rw [List.singleton_append] at hcons
    rw [hcons]
    cases hs : store output bytes [UInt8.ofNat (16 * x + y)] with
    | none => rfl
    | some output' =>
      have hle : bytes + 1 ≤ output'.length := store_le hs
      have hcount : bytes + (UInt8.ofNat (16 * x + y) :: bin).length = bytes + 1 + bin.length := by
        rw [List.length_cons]
        omega
      rw [Option.bind_some, Option.bind_some, ih hbin hle, hcount]
      rfl
  | case4 a b input hno =>
    obtain ⟨x, y, -, hx, hy, -⟩ := hexPairs_pair h
    exact absurd hy (hno x y hx)

theorem binLoop_of_none {input : Bytes} (heven : input.length % 2 = 0)
    (h : hexPairs input = none) {output : Bytes} {bytes : ℕ}
    (hroom : bytes + input.length / 2 ≤ output.length) :
    ∃ output', binLoop output bytes input = some (output', -1) ∧
      output'.length = output.length := by
  induction input using hexPairs.induct generalizing output bytes with
  | case1 => cases h
  | case2 => simp at heven
  | case3 a b input x y hb ha ih =>
    simp only [hexPairs, ha, hb, Option.map_eq_none_iff] at h
    simp only [List.length_cons] at heven hroom
    have hstore : ∃ output', store output bytes [UInt8.ofNat (16 * x + y)] = some output' := by
      rw [store, if_pos (by rw [List.length_singleton]; omega)]
      exact ⟨_, rfl⟩
    obtain ⟨output₁, hs⟩ := hstore
    have hlen := length_of_store hs
    obtain ⟨output', hloop, hlen'⟩ := @ih (by omega) h output₁ (bytes + 1) (by omega)
    refine ⟨output', ?_, by rw [hlen', hlen]⟩
    simp only [binLoop, ha, hb, hs, Option.bind_eq_bind, Option.bind_some]
    exact hloop
  | case4 a b input hno =>
    refine ⟨output, ?_, rfl⟩
    rw [binLoop]
    split
    · rename_i x y hx hy
      exact absurd hy (hno x y hx)
    · rfl

/-- A text that reads is written to the start of the buffer. -/
theorem hex2binR_of_some {output input bin : Bytes}
    (h : Lpa.hex2binR output.length input = some bin) :
    hex2binR output input = some (bin ++ output.drop bin.length, asInt bin.length) := by
  rw [Lpa.hex2binR, Option.ite_none_left_eq_some] at h
  obtain ⟨hok, h⟩ := h
  have hlen := length_of_hexPairs h
  rw [hex2binR, if_neg hok, binLoop_of_some h (Nat.zero_le _), store, if_pos (by omega)]
  simp

/-- Any other text is an error, and nothing is written outside of the buffer. -/
theorem hex2binR_of_none {output input : Bytes} (h : Lpa.hex2binR output.length input = none) :
    ∃ output', hex2binR output input = some (output', -1) ∧
      output'.length = output.length := by
  rw [Lpa.hex2binR] at h
  rw [hex2binR]
  split at h
  · rename_i hbad
    exact ⟨output, if_pos hbad, rfl⟩
  · rename_i hok
    rw [if_neg hok]
    exact binLoop_of_none (by omega) h (by omega)

/-! ## To BCD -/

/-- How many bytes the counted characters make. -/
def converted (input : Bytes) : ℕ := (input.length % 2 ^ 32 + 1) / 2

theorem length_counted (input : Bytes) : (counted input).length = input.length % 2 ^ 32 := by
  rw [counted, List.length_take]
  exact Nat.min_eq_left (Nat.mod_le _ _)

theorem length_bcdText (input : Bytes) : (bcdText input).length = 2 * converted input := by
  rw [bcdText, length_gsmbcdSwapChars, List.length_append, List.length_replicate, length_counted,
    converted]
  omega

theorem mem_gsmbcdSwapChars {c : UInt8} {text : Bytes} :
    c ∈ Lpa.gsmbcdSwapChars text ↔ c ∈ text := by
  induction text using gsmbcdSwapChars.induct with
  | case1 a b text ih =>
    simp only [Lpa.gsmbcdSwapChars, List.mem_cons, ih]
    exact or_left_comm
  | case2 text h => rw [Lpa.gsmbcdSwapChars.eq_2 text h]

/-- The text that is converted does not read when one of its characters is no hexadecimal digit. -/
theorem hexPairs_bcdText_eq_none (input : Bytes) :
    hexPairs (bcdText input) = none ↔ ∃ c ∈ counted input, hexVal c = none := by
  rw [hexPairs_eq_none (by rw [length_bcdText]; omega)]
  have hf : hexVal 102 = some 15 := by decide
  constructor
  · rintro ⟨c, hc, hval⟩
    rw [bcdText, mem_gsmbcdSwapChars, List.mem_append] at hc
    rcases hc with hc | hc
    · exact ⟨c, hc, hval⟩
    · rw [List.eq_of_mem_replicate hc, hf] at hval
      cases hval
  · rintro ⟨c, hc, hval⟩
    refine ⟨c, ?_, hval⟩
    rw [bcdText, mem_gsmbcdSwapChars]
    exact List.mem_append_left _ hc

/-- **To BCD**: the copy of the text is converted; it fits its block unless the rounded number of
characters does not fit 32 bits. -/
theorem gsmbcd2bin_eq {output input : Bytes} {paddingTo : ℕ} (hp : paddingTo ≤ output.length)
    (hn : input.length % 2 ^ 32 ≠ 2 ^ 32 - 1) :
    gsmbcd2bin output input paddingTo = (hex2binR output (bcdText input)).bind fun r =>
      if r.2 = -1 then some (r.1, -1)
      else (memset r.1 (asUInt32 r.2) 0xFF (sub32 paddingTo (asUInt32 r.2))).map
        fun output => (output, r.2) := by
  have hlen := length_counted input
  have hmod := Nat.mod_lt input.length (by decide : 0 < 2 ^ 32)
  have hsize : (counted input ++ List.replicate ((counted input).length % 2) 102).length =
      input.length % 2 ^ 32 + input.length % 2 ^ 32 % 2 := by
    rw [List.length_append, List.length_replicate, hlen]
  have hlt : input.length % 2 ^ 32 + input.length % 2 ^ 32 % 2 < 2 ^ 32 := by omega
  have hcopy : store (List.replicate (input.length % 2 ^ 32 + input.length % 2 ^ 32 % 2) 0) 0
      (counted input) =
        some (counted input ++ List.replicate (input.length % 2 ^ 32 % 2) 0) := by
    rw [store, if_pos (by rw [hlen, List.length_replicate]; omega), List.take_zero, List.nil_append,
      Nat.zero_add, hlen, List.drop_replicate, Nat.add_sub_cancel_left]
  have hpad : memset (counted input ++ List.replicate (input.length % 2 ^ 32 % 2) 0)
      (input.length % 2 ^ 32) 102 (input.length % 2 ^ 32 % 2) =
        some (counted input ++ List.replicate ((counted input).length % 2) 102) := by
    have hover := @store_over (counted input) (List.replicate (input.length % 2 ^ 32 % 2) 0) []
      (List.replicate (input.length % 2 ^ 32 % 2) 102) _ hlen (by simp)
    rw [List.append_nil, List.append_nil] at hover
    rw [memset_eq_store, hover, hlen]
  have hswap := @gsmbcdSwapChars_eq _ _ [] (by omega) hsize.ge (by omega) (by omega)
  rw [List.append_nil, List.append_nil] at hswap
  rw [gsmbcd2bin, if_neg (Nat.not_lt.2 hp)]
  simp only [Nat.mod_eq_of_lt hlt, Option.bind_eq_bind]
  change ((store _ 0 (counted input)).bind _) = _
  rw [hcopy, Option.bind_some, hpad, Option.bind_some, hswap, Option.bind_some, bcdText]
  congr 1
  funext r
  split
  · rfl
  · cases memset r.1 (asUInt32 r.2) 0xFF (sub32 paddingTo (asUInt32 r.2)) <;> rfl

/-- What a call of `gsmbcd2bin` is relied on for: it stays within its buffers, and it reports an
error or writes the converted bytes, padded with `ff`, and returns their number. -/
def Converts (output input : Bytes) (paddingTo : ℕ) : Prop :=
  ∃ output' result, gsmbcd2bin output input paddingTo = some (output', result) ∧
    output'.length = output.length ∧
    (result = -1 ∨ ∃ bin, hexPairs (bcdText input) = some bin ∧ result = bin.length ∧
      output' = bin ++ List.replicate (paddingTo - bin.length) 0xFF ++
        output.drop (max bin.length paddingTo))

/-- The calls for which the length of the padding is not negative. -/
def Convertible (output input : Bytes) (paddingTo : ℕ) : Prop :=
  input.length % 2 ^ 32 ≠ 2 ^ 32 - 1 ∧
    ((∃ c ∈ counted input, hexVal c = none) ∨ output.length < converted input ∨
      converted input ≤ paddingTo)

theorem hex2binR_bcdText (outputLen : ℕ) (input : Bytes) :
    Lpa.hex2binR outputLen (bcdText input) =
      if outputLen < converted input then none else hexPairs (bcdText input) := by
  rw [Lpa.hex2binR, length_bcdText, Nat.mul_mod_right, Nat.mul_div_cancel_left _ Nat.two_pos]
  simp

theorem length_of_bcdText {input bin : Bytes} (h : hexPairs (bcdText input) = some bin) :
    bin.length = converted input := by
  have := length_of_hexPairs h
  rw [length_bcdText] at this
  omega

/-- A text that reads, with room for the bytes: the padding decides. -/
theorem gsmbcd2bin_of_some {output input bin : Bytes} {paddingTo : ℕ}
    (hp : paddingTo ≤ output.length) (ho : output.length < 2 ^ 32)
    (hn : input.length % 2 ^ 32 ≠ 2 ^ 32 - 1) (hroom : converted input ≤ output.length)
    (h : hexPairs (bcdText input) = some bin) :
    gsmbcd2bin output input paddingTo =
      if bin.length ≤ paddingTo then
        some (bin ++ List.replicate (paddingTo - bin.length) 0xFF ++ output.drop paddingTo,
          (bin.length : ℤ))
      else none := by
  have hmod := Nat.mod_lt input.length (by decide : 0 < 2 ^ 32)
  have hlen := length_of_bcdText h
  have hsmall : bin.length < 2 ^ 31 := by
    rw [hlen, converted]
    omega
  have hhex : Lpa.hex2binR output.length (bcdText input) = some bin := by
    rw [hex2binR_bcdText, if_neg (Nat.not_lt.2 hroom), h]
  rw [gsmbcd2bin_eq hp hn, hex2binR_of_some hhex, Option.bind_some, asInt_of_lt hsmall,
    if_neg (by omega), asUInt32_of_lt (by omega)]
  by_cases hle : bin.length ≤ paddingTo
  · have hdrop : (bin ++ output.drop bin.length).drop (bin.length + (paddingTo - bin.length)) =
        output.drop paddingTo := by
      rw [← List.drop_drop, List.drop_left, List.drop_drop, Nat.add_sub_cancel' hle]
    rw [if_pos hle, sub32_of_le hle, memset, if_pos (by simp; omega), List.take_left, hdrop]
    rfl
  · rw [if_neg hle, sub32, if_neg hle, memset, if_neg (by simp; omega)]
    rfl

/-- A number of characters that wraps when it is rounded up: the block for the copy is empty. -/
theorem gsmbcd2bin_fault {output input : Bytes} {paddingTo : ℕ} (hp : paddingTo ≤ output.length)
    (hn : input.length % 2 ^ 32 = 2 ^ 32 - 1) : gsmbcd2bin output input paddingTo = none := by
  have hlen := length_counted input
  rw [gsmbcd2bin, if_neg (Nat.not_lt.2 hp), hn]
  change (store [] 0 (input.take (2 ^ 32 - 1))).bind _ = none
  rw [counted, hn] at hlen
  rw [store, if_neg (by rw [hlen]; decide), Option.bind_none]

/-- **When `gsmbcd2bin` does what it is relied on for.** -/
theorem converts_iff {output input : Bytes} {paddingTo : ℕ} (hp : paddingTo ≤ output.length)
    (ho : output.length < 2 ^ 32) :
    Converts output input paddingTo ↔ Convertible output input paddingTo := by
  constructor
  · rintro ⟨output', result, heq, -, -⟩
    have hn : input.length % 2 ^ 32 ≠ 2 ^ 32 - 1 := by
      intro hn
      rw [gsmbcd2bin_fault hp hn] at heq
      cases heq
    refine ⟨hn, ?_⟩
    cases h : hexPairs (bcdText input) with
    | none => exact Or.inl ((hexPairs_bcdText_eq_none input).1 h)
    | some bin =>
      by_cases hroom : converted input ≤ output.length
      · rw [gsmbcd2bin_of_some hp ho hn hroom h] at heq
        split at heq
        · rename_i hle
          rw [length_of_bcdText h] at hle
          exact Or.inr (Or.inr hle)
        · cases heq
      · exact Or.inr (Or.inl (Nat.not_le.1 hroom))
  · rintro ⟨hn, hcond⟩
    cases hhex : Lpa.hex2binR output.length (bcdText input) with
    | none =>
      obtain ⟨output', hbin, hlen⟩ := hex2binR_of_none hhex
      refine ⟨output', -1, ?_, hlen, Or.inl rfl⟩
      rw [gsmbcd2bin_eq hp hn, hbin]
      rfl
    | some bin =>
      rw [hex2binR_bcdText, Option.ite_none_left_eq_some] at hhex
      obtain ⟨hroom, h⟩ := hhex
      have hle : bin.length ≤ paddingTo := by
        rw [length_of_bcdText h]
        rcases hcond with hbad | hsmall | hle
        · rw [(hexPairs_bcdText_eq_none input).2 hbad] at h
          cases h
        · exact absurd hsmall hroom
        · exact hle
      refine ⟨_, _, (gsmbcd2bin_of_some hp ho hn (Nat.not_lt.1 hroom) h).trans (if_pos hle), ?_,
        Or.inr ⟨bin, h, rfl, by rw [Nat.max_eq_right hle]⟩⟩
      simp only [List.length_append, List.length_replicate, List.length_drop]
      omega

/-! ## From BCD -/

theorem bin2hex_of_small {output bin : Bytes} (hb : bin.length < 2 ^ 31)
    (hroom : 2 * bin.length + 1 ≤ output.length) :
    bin2hex output bin = some (bin.flatMap hexByte ++ 0 :: output.drop (2 * bin.length + 1),
      asInt (2 * bin.length)) := by
  have hlen := length_flatMap_hexByte bin
  have htext : emit (output, 0) (bin.flatMap hexByte) =
      some (bin.flatMap hexByte ++ output.drop (2 * bin.length), 2 * bin.length) := by
    rw [emit, store, if_pos (by rw [hlen]; simp only; omega), hlen]
    simp
  have hnul : emit (bin.flatMap hexByte ++ output.drop (2 * bin.length), 2 * bin.length) [0] =
      some (bin.flatMap hexByte ++ 0 :: output.drop (2 * bin.length + 1),
        2 * bin.length + 1) := by
    have hdrop : (bin.flatMap hexByte ++ output.drop (2 * bin.length)).drop (2 * bin.length + 1) =
        output.drop (2 * bin.length + 1) := by
      rw [← List.drop_drop, List.drop_left' hlen, List.drop_drop]
    rw [emit, store, List.length_singleton, hdrop, List.take_left' hlen, if_pos (by
      simp only [List.length_append, hlen, List.length_drop]
      omega), List.append_assoc]
    rfl
  rw [bin2hex, Nat.mod_eq_of_lt (by omega), if_neg (by omega), hexLoop_eq _ (Nat.zero_le _), htext]
  simp only [Option.bind_eq_bind, Option.bind_some, hnul]
  rfl

/-- Bytes whose number doubled does not fit 32 bits are written over the end of the buffer. -/
theorem bin2hex_fault {output bin : Bytes} (ho : output.length < 2 ^ 32)
    (hb : ¬ bin.length < 2 ^ 31) (hcheck : ¬ output.length < (2 * bin.length + 1) % 2 ^ 32) :
    bin2hex output bin = none := by
  rw [bin2hex, if_neg hcheck, hexLoop_eq _ (Nat.zero_le _), emit, store,
    if_neg (by rw [length_flatMap_hexByte]; simp only; omega)]
  rfl

/-- The loop that drops trailing `f`s leaves zeros in their place, and the first character. -/
theorem trim_eq (a : UInt8) (text rest : Bytes) :
    ∃ zeros : Bytes, (∀ z ∈ zeros, z = 0) ∧ trim (a :: text ++ rest) text.length =
      some (trimF (a :: text) ++ zeros ++ rest, (((trimF (a :: text)).length - 1 : ℕ) : ℤ)) := by
  induction text using List.reverseRecOn generalizing rest with
  | nil => exact ⟨[], by simp, rfl⟩
  | append_singleton text c ih =>
    have hread : (a :: (text ++ [c]) ++ rest)[text.length + 1]? = some c := by simp
    rw [List.length_append, List.length_singleton, trim, hread]
    simp only [Option.bind_eq_bind, Option.bind_some]
    by_cases hc : c = 102
    · subst hc
      have hset : (a :: (text ++ [102]) ++ rest).set (text.length + 1) 0 =
          a :: text ++ 0 :: rest := by simp
      have htrim : trimF (a :: (text ++ [102])) = trimF (a :: text) := by simp [trimF]
      obtain ⟨zeros, hzeros, heq⟩ := ih (0 :: rest)
      refine ⟨zeros ++ [0], ?_, ?_⟩
      · intro z hz
        rcases List.mem_append.1 hz with hz | hz
        · exact hzeros z hz
        · exact List.mem_singleton.1 hz
      · rw [if_pos rfl, hset, heq, htrim]
        simp
    · have htrim : trimF (a :: (text ++ [c])) = a :: (text ++ [c]) := by simp [trimF, hc]
      refine ⟨[], by simp, ?_⟩
      rw [if_neg hc, htrim]
      simp

/-- **From BCD**: the pairs are exchanged and trailing `f`s are overwritten with zeros. -/
theorem bin2gsmbcd_eq {output bin : Bytes} (hpos : 0 < bin.length) (hb : bin.length < 2 ^ 30)
    (hroom : 2 * bin.length + 1 ≤ output.length) :
    ∃ zeros : Bytes, (∀ z ∈ zeros, z = 0) ∧ bin2gsmbcd output bin =
      some (trimF (Lpa.gsmbcdSwapChars (bin.flatMap hexByte)) ++ zeros ++
          0 :: output.drop (2 * bin.length + 1),
        (((trimF (Lpa.gsmbcdSwapChars (bin.flatMap hexByte))).length - 1 : ℕ) : ℤ)) := by
  have hlen := length_flatMap_hexByte bin
  have hswap := @gsmbcdSwapChars_eq (2 * bin.length - 1) (bin.flatMap hexByte)
    (0 :: output.drop (2 * bin.length + 1)) (by omega) (by omega) (by omega) (by omega)
  have hbound : asUInt32 (asInt (2 * bin.length) - 1) = 2 * bin.length - 1 := by
    rw [asInt_of_lt (by omega), asUInt32]
    omega
  have hcount : (asInt (2 * bin.length) - 1).toNat = 2 * bin.length - 1 := by
    rw [asInt_of_lt (by omega)]
    omega
  rw [bin2gsmbcd, bin2hex_of_small (by omega) hroom]
  simp only [Option.bind_eq_bind, Option.bind_some, hbound, hswap, hcount]
  rw [asInt_of_lt (by omega), if_neg (by omega), if_neg (by omega)]
  have htext := length_gsmbcdSwapChars (bin.flatMap hexByte)
  rw [hlen] at htext
  cases hcons : Lpa.gsmbcdSwapChars (bin.flatMap hexByte) with
  | nil =>
    rw [hcons, List.length_nil] at htext
    omega
  | cons a text =>
    rw [hcons, List.length_cons] at htext
    rw [show 2 * bin.length - 1 = text.length by omega]
    exact trim_eq a text _

/-- A number of digits that is negative as an `int` is taken for an error. -/
theorem bin2gsmbcd_of_large {output bin : Bytes} (hb : bin.length < 2 ^ 31)
    (hlarge : ¬ bin.length < 2 ^ 30) (hroom : 2 * bin.length + 1 ≤ output.length) :
    ∃ output', bin2gsmbcd output bin = some (output', -1) := by
  refine ⟨bin.flatMap hexByte ++ 0 :: output.drop (2 * bin.length + 1), ?_⟩
  rw [bin2gsmbcd, bin2hex_of_small hb hroom]
  simp only [Option.bind_eq_bind, Option.bind_some]
  rw [if_pos (asInt_neg (by omega) (by omega))]
  rfl

/-- No bytes: the loop that exchanges pairs has the bound `-1`. -/
theorem bin2gsmbcd_nil {output : Bytes} (ho : output.length < 2 ^ 32) (hroom : 1 ≤ output.length) :
    bin2gsmbcd output [] = none := by
  rw [bin2gsmbcd, @bin2hex_of_small output [] (by decide) hroom]
  have hfault := @gsmbcdSwapChars_fault (0 :: output.drop 1) (by simp; omega)
  simp only [Option.bind_eq_bind, Option.bind_some]
  change (gsmbcdSwapChars (0 :: output.drop 1) (2 ^ 32 - 1)).bind _ = none
  rw [hfault, Option.bind_none]

/-- **When `bin2gsmbcd` stays within its buffer.** -/
theorem bin2gsmbcd_isSome_iff {output bin : Bytes} (ho : output.length < 2 ^ 32) :
    (bin2gsmbcd output bin).isSome ↔
      output.length < (2 * bin.length + 1) % 2 ^ 32 ∨ 0 < bin.length ∧ bin.length < 2 ^ 31 := by
  by_cases hcheck : output.length < (2 * bin.length + 1) % 2 ^ 32
  · have hrefused : bin2gsmbcd output bin = some (output, -1) := by
      rw [bin2gsmbcd, bin2hex, if_pos hcheck]
      rfl
    rw [hrefused]
    exact ⟨fun _ => Or.inl hcheck, fun _ => rfl⟩
  · rw [or_iff_right hcheck]
    by_cases hb : bin.length < 2 ^ 31
    · have hroom : 2 * bin.length + 1 ≤ output.length := by
        rw [Nat.mod_eq_of_lt (by omega)] at hcheck
        exact Nat.not_lt.1 hcheck
      cases bin with
      | nil =>
        rw [bin2gsmbcd_nil ho hroom]
        simp
      | cons b bin =>
        have hpos : 0 < (b :: bin).length := Nat.succ_pos _
        refine iff_of_true ?_ ⟨hpos, hb⟩
        by_cases hsmall : (b :: bin).length < 2 ^ 30
        · obtain ⟨zeros, -, heq⟩ := bin2gsmbcd_eq hpos hsmall hroom
          rw [heq]
          rfl
        · obtain ⟨output', heq⟩ := bin2gsmbcd_of_large hb hsmall hroom
          rw [heq]
          rfl
    · have hfault : bin2gsmbcd output bin = none := by
        rw [bin2gsmbcd, bin2hex_fault ho hb hcheck]
        rfl
      rw [hfault]
      exact iff_of_false Bool.false_ne_true fun h => hb h.2

/-! ## Without the buffers -/

/-- **The text of `bin2hex`** in its buffer. -/
theorem bin2hex_agrees {output : Bytes} (ho : output.length < 2 ^ 32) (bin : Bytes) :
    bin2hex output bin = (Lpa.bin2hex output.length bin).map fun r =>
      (r.1.elim output fun text => text ++ 0 :: output.drop (2 * bin.length + 1), r.2) := by
  by_cases hcheck : output.length < (2 * bin.length + 1) % 2 ^ 32
  · rw [bin2hex, if_pos hcheck, Lpa.bin2hex, if_pos hcheck]
    rfl
  · by_cases hb : bin.length < 2 ^ 31
    · have hroom : 2 * bin.length + 1 ≤ output.length := by
        rw [Nat.mod_eq_of_lt (by omega)] at hcheck
        exact Nat.not_lt.1 hcheck
      rw [bin2hex_of_small hb hroom, bin2hex_of_lt hroom hb]
      rfl
    · rw [bin2hex_fault ho hb hcheck, Lpa.bin2hex, if_neg hcheck, if_pos (by omega)]
      rfl

/-- **The bytes of `gsmbcd2bin`** in its buffer. -/
theorem gsmbcd2bin_agrees {output : Bytes} (ho : output.length < 2 ^ 32) (input : Bytes)
    (paddingTo : ℕ) :
    (gsmbcd2bin output input paddingTo).map
        (fun r => if r.2 = -1 then none else some (r.1.take r.2.toNat)) =
      Lpa.gsmbcd2bin output.length input paddingTo := by
  rw [Lpa.gsmbcd2bin]
  by_cases hp : output.length < paddingTo
  · rw [gsmbcd2bin, if_pos hp, if_pos hp]
    rfl
  · rw [if_neg hp]
    have hp' := Nat.not_lt.1 hp
    by_cases hn : input.length % 2 ^ 32 = 2 ^ 32 - 1
    · rw [gsmbcd2bin_fault hp' hn, if_pos hn]
      rfl
    · rw [if_neg hn]
      cases hhex : Lpa.hex2binR output.length (bcdText input) with
      | none =>
        obtain ⟨output', hbin, -⟩ := hex2binR_of_none hhex
        rw [gsmbcd2bin_eq hp' hn, hbin]
        rfl
      | some bin =>
        rw [hex2binR_bcdText, Option.ite_none_left_eq_some] at hhex
        obtain ⟨hroom, h⟩ := hhex
        rw [gsmbcd2bin_of_some hp' ho hn (Nat.not_lt.1 hroom) h]
        by_cases hle : bin.length ≤ paddingTo
        · simp only [if_pos hle, if_neg (Nat.not_lt.2 hle), Option.map_some]
          rw [if_neg (by omega), Int.toNat_natCast, List.append_assoc, List.take_left]
        · simp only [if_neg hle, if_pos (Nat.not_le.1 hle)]
          rfl

theorem zero_notMem_hexText (bin : Bytes) : 0 ∉ bin.flatMap hexByte := by
  have hdigit : ∀ n < 16, hexDigit n ≠ 0 := by decide
  intro h
  obtain ⟨a, -, ha⟩ := List.mem_flatMap.1 h
  have hlt := a.toNat_lt
  simp only [hexByte, List.mem_cons, List.not_mem_nil, or_false] at ha
  rcases ha with ha | ha
  · exact hdigit _ (by omega) ha.symm
  · exact hdigit _ (by omega) ha.symm

theorem mem_of_mem_trimF {c : UInt8} {text : Bytes} (h : c ∈ trimF text) : c ∈ text := by
  cases text with
  | nil => exact h
  | cons a text =>
    rw [trimF, List.mem_cons, List.mem_reverse] at h
    rcases h with rfl | h
    · exact List.mem_cons_self
    · exact List.mem_cons_of_mem a
        (List.mem_reverse.1 ((List.dropWhile_sublist _).subset h))

/-- The characters in front of a NUL. -/
theorem cstr_of_zeros {text zeros rest : Bytes} (ht : 0 ∉ text) (hz : ∀ z ∈ zeros, z = 0) :
    cstr (text ++ zeros ++ 0 :: rest) = text := by
  have htext : ∀ b ∈ text, decide (b ≠ 0) = true := fun b hb => by
    simpa using fun e : b = 0 => ht (e ▸ hb)
  rw [cstr, List.append_assoc, List.takeWhile_append_of_pos htext]
  have hnil : (zeros ++ 0 :: rest).takeWhile (· ≠ 0) = [] := by
    cases zeros with
    | nil => rfl
    | cons z zeros => simp [hz z List.mem_cons_self]
  rw [hnil, List.append_nil]

/-- **The text of `bin2gsmbcd`** in its buffer. -/
theorem bin2gsmbcd_agrees {output : Bytes} (ho : output.length < 2 ^ 32) (bin : Bytes) :
    (bin2gsmbcd output bin).map (fun r => if r.2 < 0 then none else some (cstr r.1)) =
      Lpa.bin2gsmbcd output.length bin := by
  rw [Lpa.bin2gsmbcd]
  by_cases hcheck : output.length < (2 * bin.length + 1) % 2 ^ 32
  · rw [bin2gsmbcd, bin2hex, Lpa.bin2hex, if_pos hcheck, if_pos hcheck]
    rfl
  · by_cases hb : bin.length < 2 ^ 31
    · have hroom : 2 * bin.length + 1 ≤ output.length := by
        rw [Nat.mod_eq_of_lt (by omega)] at hcheck
        exact Nat.not_lt.1 hcheck
      have hlen := length_flatMap_hexByte bin
      rw [bin2hex_of_lt hroom hb]
      dsimp only
      by_cases hsmall : bin.length < 2 ^ 30
      · rw [asInt_of_lt (by omega), if_neg (by omega)]
        by_cases hnil : bin = []
        · subst hnil
          rw [bin2gsmbcd_nil ho (by omega)]
          rfl
        · have hpos := List.length_pos_iff.2 hnil
          obtain ⟨zeros, hzeros, heq⟩ := bin2gsmbcd_eq hpos hsmall hroom
          have h0 : 0 ∉ trimF (Lpa.gsmbcdSwapChars (bin.flatMap hexByte)) := fun h =>
            zero_notMem_hexText bin (mem_gsmbcdSwapChars.1 (mem_of_mem_trimF h))
          rw [heq, Option.map_some, if_neg (by simp only; omega), cstr_of_zeros h0 hzeros,
            if_neg (List.ne_nil_of_length_pos (by omega))]
      · obtain ⟨output', heq⟩ := bin2gsmbcd_of_large hb hsmall hroom
        rw [heq, if_pos (asInt_neg (by omega) (by omega))]
        rfl
    · rw [bin2gsmbcd, bin2hex_fault ho hb hcheck, Lpa.bin2hex, if_neg hcheck, if_pos (by omega)]
      rfl

/-! ## Digits there and back -/

/-- The characters of decimal digits. -/
def IsDigit (c : UInt8) : Prop := 48 ≤ c.toNat ∧ c.toNat ≤ 57

instance (c : UInt8) : Decidable (IsDigit c) := inferInstanceAs (Decidable (_ ∧ _))

/-- Converted and back, digits are the same text again. -/
def RoundTrips (digits output : Bytes) (paddingTo : ℕ) (text : Bytes) : Prop :=
  ∃ (output' : Bytes) (k : ℕ) (text' : Bytes) (r : ℤ),
    gsmbcd2bin output digits paddingTo = some (output', (k : ℤ)) ∧
      bin2gsmbcd text (output'.take k) = some (text', r) ∧ 0 ≤ r ∧ cstr text' = digits

/-- A decimal digit or the filler is the digit of its value. -/
theorem hexVal_of_digit {c : UInt8} (h : IsDigit c ∨ c = 102) :
    ∃ n < 16, hexVal c = some n ∧ hexDigit n = c := by
  rcases h with ⟨hlow, hhigh⟩ | rfl
  · refine ⟨c.toNat - 48, by omega, if_pos ⟨hlow, hhigh⟩, ?_⟩
    rw [hexDigit, if_pos (by omega), Nat.add_sub_cancel' hlow, UInt8.ofNat_toNat]
  · exact ⟨15, by decide, by decide, by decide⟩

/-- Texts of such digits are what their bytes are written as. -/
theorem flatMap_of_hexPairs {text bin : Bytes} (hd : ∀ c ∈ text, IsDigit c ∨ c = 102)
    (h : hexPairs text = some bin) : bin.flatMap hexByte = text := by
  induction text using hexPairs.induct generalizing bin with
  | case1 =>
    cases h
    rfl
  | case2 => cases h
  | case3 a b text x y hb ha ih =>
    obtain ⟨hda, hd⟩ := List.forall_mem_cons.1 hd
    obtain ⟨hdb, hd⟩ := List.forall_mem_cons.1 hd
    obtain ⟨x, hx', hvala, hdiga⟩ := hexVal_of_digit hda
    obtain ⟨y, hy', hvalb, hdigb⟩ := hexVal_of_digit hdb
    obtain ⟨x', y', bin, hx, hy, hbin, rfl⟩ := hexPairs_pair h
    obtain rfl : x = x' := Option.some.inj (hvala.symm.trans hx)
    obtain rfl : y = y' := Option.some.inj (hvalb.symm.trans hy)
    have hbyte : (UInt8.ofNat (16 * x + y)).toNat = 16 * x + y :=
      UInt8.toNat_ofNat_of_lt (by simp only [UInt8.size]; omega)
    rw [List.flatMap_cons, ih hd hbin, hexByte, hbyte, Nat.mul_add_div (by decide),
      Nat.div_eq_of_lt hy', Nat.add_zero, Nat.mul_add_mod, Nat.mod_eq_of_lt hy', hdiga, hdigb]
    rfl
  | case4 a b text hno =>
    obtain ⟨x, y, -, hx, hy, -⟩ := hexPairs_pair h
    exact absurd hy (hno x y hx)

theorem hexPairs_of_digits {text : Bytes} (heven : text.length % 2 = 0)
    (hd : ∀ c ∈ text, IsDigit c ∨ c = 102) : ∃ bin, hexPairs text = some bin := by
  rw [← Option.ne_none_iff_exists', ne_eq, hexPairs_eq_none heven]
  rintro ⟨c, hc, hval⟩
  obtain ⟨n, -, hn, -⟩ := hexVal_of_digit (hd c hc)
  rw [hval] at hn
  cases hn

/-- Dropping the filler from digits leaves the digits. -/
theorem trimF_digits {digits : Bytes} (hd : ∀ c ∈ digits, IsDigit c) (hne : digits ≠ []) (k : ℕ) :
    trimF (digits ++ List.replicate k 102) = digits := by
  cases digits with
  | nil => exact absurd rfl hne
  | cons a digits =>
    have hdrop : (digits ++ List.replicate k 102).reverse.dropWhile (· = 102) =
        digits.reverse := by
      rw [List.reverse_append, List.reverse_replicate, List.dropWhile_append_of_pos (by simp),
        List.dropWhile_eq_self_iff]
      intro hpos hlast
      have hmem := hd _ (List.mem_cons_of_mem a (List.mem_reverse.1 (List.getElem_mem hpos)))
      rw [of_decide_eq_true hlast] at hmem
      exact absurd hmem (by decide)
    rw [List.cons_append, trimF, hdrop, List.reverse_reverse]

/-- **When digits come back**, with room for them in the buffers. -/
theorem roundTrips_iff {digits : Bytes} (hd : ∀ c ∈ digits, IsDigit c) {output text : Bytes}
    {paddingTo : ℕ} (hp : paddingTo ≤ output.length) (ho : output.length < 2 ^ 32)
    (ht : text.length < 2 ^ 32) (hpad : (digits.length + 1) / 2 ≤ paddingTo)
    (htext : 2 * ((digits.length + 1) / 2) + 1 ≤ text.length) :
    RoundTrips digits output paddingTo text ↔ 0 < digits.length ∧ digits.length < 2 ^ 31 - 1 := by
  have hcounted : counted digits = digits := by
    rw [counted, Nat.mod_eq_of_lt (by omega), List.take_length]
  have hconverted : converted digits = (digits.length + 1) / 2 := by
    rw [converted, Nat.mod_eq_of_lt (by omega)]
  have hn : digits.length % 2 ^ 32 ≠ 2 ^ 32 - 1 := by omega
  have hpadded : ∀ c ∈ digits ++ List.replicate (digits.length % 2) 102, IsDigit c ∨ c = 102 := by
    intro c hc
    rcases List.mem_append.1 hc with hc | hc
    · exact Or.inl (hd c hc)
    · exact Or.inr (List.eq_of_mem_replicate hc)
  have hbcd : ∀ c ∈ bcdText digits, IsDigit c ∨ c = 102 := by
    intro c hc
    rw [bcdText, mem_gsmbcdSwapChars, hcounted] at hc
    exact hpadded c hc
  obtain ⟨bin, hbin⟩ := hexPairs_of_digits (by rw [length_bcdText]; omega) hbcd
  have hlen : bin.length = (digits.length + 1) / 2 := (length_of_bcdText hbin).trans hconverted
  have hto := gsmbcd2bin_of_some hp ho hn (by omega) hbin
  rw [if_pos (by omega)] at hto
  have htake : (bin ++ List.replicate (paddingTo - bin.length) 0xFF ++
      output.drop paddingTo).take bin.length = bin := by
    rw [List.append_assoc, List.take_left]
  have hiff : RoundTrips digits output paddingTo text ↔
      ∃ text' r, bin2gsmbcd text bin = some (text', r) ∧ 0 ≤ r ∧ cstr text' = digits := by
    constructor
    · rintro ⟨output', k, text', r, hk, hr⟩
      rw [hto, Option.some.injEq, Prod.mk.injEq] at hk
      obtain ⟨rfl, hk⟩ := hk
      obtain rfl := Int.ofNat_inj.1 hk
      rw [htake] at hr
      exact ⟨text', r, hr⟩
    · rintro ⟨text', r, hr⟩
      refine ⟨_, _, text', r, hto, ?_⟩
      rwa [htake]
  rw [hiff]
  constructor
  · rintro ⟨text', r, hr, hnonneg, -⟩
    constructor
    · by_contra hzero
      rw [List.length_eq_zero_iff.1 (by omega : bin.length = 0),
        bin2gsmbcd_nil ht (by omega)] at hr
      cases hr
    · by_contra hlarge
      obtain ⟨text₁, heq⟩ := @bin2gsmbcd_of_large text bin (by omega) (by omega) (by omega)
      rw [heq] at hr
      cases hr
      exact absurd hnonneg (by decide)
  · rintro ⟨hpos, hlt⟩
    obtain ⟨zeros, hzeros, heq⟩ := @bin2gsmbcd_eq text bin (by omega) (by omega) (by omega)
    refine ⟨_, _, heq, Int.natCast_nonneg _, ?_⟩
    have hback : trimF (Lpa.gsmbcdSwapChars (bin.flatMap hexByte)) = digits := by
      rw [flatMap_of_hexPairs hbcd hbin, bcdText, gsmbcdSwapChars_swap, hcounted]
      exact trimF_digits hd (List.length_pos_iff.1 hpos) _
    rw [hback]
    apply cstr_of_zeros _ hzeros
    intro hmem
    exact absurd (hd 0 hmem) (by decide)

/-- **When the BCD conversions are safe and inverse to each other**: `gsmbcd2bin` on any text,
`bin2gsmbcd` on any bytes, and both on decimal digits with room for them. -/
theorem gsmbcd_iff {output input : Bytes} {paddingTo : ℕ} (hp : paddingTo ≤ output.length)
    (ho : output.length < 2 ^ 32) {text : Bytes} (ht : text.length < 2 ^ 32) (bin : Bytes)
    {digits : Bytes} (hd : ∀ c ∈ digits, IsDigit c)
    (hpad : (digits.length + 1) / 2 ≤ paddingTo)
    (htext : 2 * ((digits.length + 1) / 2) + 1 ≤ text.length) :
    (Converts output input paddingTo ↔ Convertible output input paddingTo) ∧
    ((bin2gsmbcd text bin).isSome ↔
      text.length < (2 * bin.length + 1) % 2 ^ 32 ∨ 0 < bin.length ∧ bin.length < 2 ^ 31) ∧
    (RoundTrips digits output paddingTo text ↔
      0 < digits.length ∧ digits.length < 2 ^ 31 - 1) :=
  ⟨converts_iff hp ho, bin2gsmbcd_isSome_iff ht, roundTrips_iff hd hp ho ht hpad htext⟩

/-- An ICCID of nineteen digits in ten bytes. -/
theorem gsmbcd_iff_sample :
    (Converts (List.replicate 10 0) (ascii "8988211000000123456") 10 ↔
      Convertible (List.replicate 10 0) (ascii "8988211000000123456") 10) ∧
    ((bin2gsmbcd (List.replicate 21 0) [0x98, 0xF2]).isSome ↔
      (List.replicate 21 (0 : UInt8)).length < (2 * [0x98, 0xF2].length + 1) % 2 ^ 32 ∨
        0 < [0x98, 0xF2].length ∧ [0x98, 0xF2].length < 2 ^ 31) ∧
    (RoundTrips (ascii "8988211000000123456") (List.replicate 10 0) 10 (List.replicate 21 0) ↔
      0 < (ascii "8988211000000123456").length ∧
        (ascii "8988211000000123456").length < 2 ^ 31 - 1) :=
  gsmbcd_iff (by decide) (by decide) (by decide) _ (by decide +kernel) (by decide) (by decide)

/-- The IMEI of a device, which is padded to no length: the padding leaves the buffer. And no bytes
at all, as in an empty ICCID. -/
theorem gsmbcd_faults :
    ¬ Converts (List.replicate 8 0) (ascii "356938035643809") 0 ∧
      ¬ (bin2gsmbcd (List.replicate 21 0) []).isSome := by
  constructor
  · rintro ⟨output', result, h, -⟩
    have hfault : gsmbcd2bin (List.replicate 8 0) (ascii "356938035643809") 0 = none := by
      decide +kernel
    rw [hfault] at h
    cases h
  · rw [bin2gsmbcd_nil (by decide) (by decide)]
    exact Bool.false_ne_true

end VirtualRsp.Lpa.Hexutil
