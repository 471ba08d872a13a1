import VirtualRsp.Card.State

/-!
# Data objects of the card

`buildTlv` writes every data object the card sends; it is the DER encoding of the foundations
(`buildTlv_eq`). `Command` is a received command as the handlers see it, a pointer and a length,
and `skipLength` the way they step over a length field.
-/

namespace VirtualRsp.Card

/-- A data object with a tag of one or two bytes. -/
def buildTlv (tag : ℕ) (value : Bytes) : Bytes := Der.encode tag value

/-- **The card's encoder** writes DER. -/
theorem buildTlv_eq (tag : ℕ) (value : Bytes) : buildTlv tag value = Der.tlv tag value :=
  Der.encode_eq tag value

/-! ## Commands -/

/-- A command in memory: the bytes that can be read from its first one on, and its length as an
unsigned 32-bit number. -/
structure Command where
  mem : Bytes
  len : ℕ

/-- A command that was received as `data`, followed in memory by other bytes. -/
def Command.ofBytes (env : Env) (data : Bytes) : Command := ⟨data ++ env.trailing, data.length⟩

/-- Step over a length field of one, two or three bytes, as its first byte says. -/
def skipLength (lenByte : ℕ) (ptr : Bytes) (remaining : ℕ) : Bytes × ℕ :=
  if lenByte < 0x80 then (ptr.drop 1, sub32 remaining 1)
  else if lenByte = 0x81 then (ptr.drop 2, sub32 remaining 2)
  else if lenByte = 0x82 then (ptr.drop 3, sub32 remaining 3)
  else (ptr, remaining)

/-- Lengths of up to two bytes are stepped over. -/
theorem skipLength_lenBytes {n : ℕ} (hn : n < 2 ^ 16) (rest : Bytes) (remaining : ℕ) :
    ∃ b, readAt (Der.lenBytes n ++ rest) 0 = some b ∧
      skipLength b (Der.lenBytes n ++ rest) remaining =
        (rest, sub32 remaining (Der.lenBytes n).length) := by
  rw [Der.lenBytes]
  split
  · rename_i hshort
    have hb : (UInt8.ofNat n).toNat = n :=
      UInt8.toNat_ofNat_of_lt (by simp only [UInt8.size]; omega)
    refine ⟨n, by rw [List.singleton_append, readAt_cons_zero, hb], ?_⟩
    rw [skipLength, if_pos hshort]
    rfl
  · have hk := Der.byteLen_le (n := n) (k := 2) (by omega) (by omega)
    have hb : (UInt8.ofNat (128 + Der.byteLen n)).toNat = 128 + Der.byteLen n :=
      UInt8.toNat_ofNat_of_lt (by simp only [UInt8.size]; omega)
    refine ⟨128 + Der.byteLen n, by rw [List.cons_append, readAt_cons_zero, hb], ?_⟩
    obtain hk | hk : Der.byteLen n = 1 ∨ Der.byteLen n = 2 := by
      have : 0 < Der.byteLen n := Nat.succ_pos _
      omega
    · rw [hk]
      rfl
    · rw [hk]
      rfl

/-- Longer lengths are not. -/
theorem skipLength_lenBytes_long {n : ℕ} (hn : 2 ^ 16 ≤ n) (hn' : n < 2 ^ 32) (rest : Bytes)
    (remaining : ℕ) :
    ∃ b, (b = 0x83 ∨ b = 0x84) ∧ readAt (Der.lenBytes n ++ rest) 0 = some b ∧
      skipLength b (Der.lenBytes n ++ rest) remaining = (Der.lenBytes n ++ rest, remaining) := by
  have hk := Der.byteLen_le (n := n) (k := 4) (by omega) (by omega)
  have hk' : 2 < Der.byteLen n := by
    by_contra hle
    have h1 := Der.lt_pow_byteLen n
    have h2 : 256 ^ Der.byteLen n ≤ 256 ^ 2 := Nat.pow_le_pow_right (by omega) (by omega)
    omega
  have hb : (UInt8.ofNat (128 + Der.byteLen n)).toNat = 128 + Der.byteLen n :=
    UInt8.toNat_ofNat_of_lt (by simp only [UInt8.size]; omega)
  refine ⟨128 + Der.byteLen n, by omega, ?_, ?_⟩
  · rw [Der.lenBytes, if_neg (by omega), List.cons_append, readAt_cons_zero, hb]
  · rw [skipLength, if_neg (by omega), if_neg (by omega), if_neg (by omega)]

/-- A loop over the bytes of a command; every round reads at the pointer and then moves it on, so
the readable bytes bound the number of rounds. -/
def scan {β : Type*} (body : Bytes × ℕ → Option (Ctl (Bytes × ℕ) β)) (ptr : Bytes)
    (remaining : ℕ) : Option β :=
  loop body (ptr.length + 1) (ptr, remaining)

/-- One round of the walk to a transaction identifier: the first field `80` of at most 16 bytes that
fits ends it. A field is stepped over without a look at how much is left. -/
def transactionIdBody (default : Bytes) : Bytes × ℕ → Option (Ctl (Bytes × ℕ) Bytes)
  | (ptr, remaining) =>
    if remaining ≤ 2 then some (.done default)
    else do
      let tag ← readAt ptr 0
      let len ← readAt ptr 1
      if tag = 0x80 ∧ len ≤ 16 ∧ 2 + len ≤ remaining then
        return .done (← readN (ptr.drop 2) len)
      else if 0x80 ≤ len then return .done default
      else return .next (ptr.drop (2 + len), sub32 remaining (2 + len))

end VirtualRsp.Card
