import VirtualRsp.Foundations.Der

/-!
# AES with keys of 128 bits

The block cipher as the standard defines it: a block is four columns of four bytes, and a round
substitutes the bytes, shifts the rows, mixes the columns and adds a key. On it rest the two modes
that are used here, the chaining of blocks and the authentication code CMAC.

* `invRounds_rounds`: decryption undoes encryption, one round after the other;
* `cbcDecrypt_cbcEncrypt`, `length_cbcEncrypt`: the same for texts of any number of blocks.
-/

namespace VirtualRsp.Rijndael

/-! ## Bytes -/

/-- The substitution of bytes, in rows of 16. -/
def sboxRows : List ℕ :=
  [0x637c777bf26b6fc53001672bfed7ab76, 0xca82c97dfa5947f0add4a2af9ca472c0,
    0xb7fd9326363ff7cc34a5e5f171d83115, 0x04c723c31896059a071280e2eb27b275,
    0x09832c1a1b6e5aa0523bd6b329e32f84, 0x53d100ed20fcb15b6acbbe394a4c58cf,
    0xd0efaafb434d338545f9027f503c9fa8, 0x51a3408f929d38f5bcb6da2110fff3d2,
    0xcd0c13ec5f974417c4a77e3d645d1973, 0x60814fdc222a908846eeb814de5e0bdb,
    0xe0323a0a4906245cc2d3ac629195e479, 0xe7c8376d8dd54ea96c56f4ea657aae08,
    0xba78252e1ca6b4c6e8dd741f4bbd8b8a, 0x703eb5664803f60e613557b986c11d9e,
    0xe1f8981169d98e949b1e87e9ce5528df, 0x8ca1890dbfe6426841992d0fb054bb16]

/-- The inverse substitution. -/
def invSboxRows : List ℕ :=
  [0x52096ad53036a538bf40a39e81f3d7fb, 0x7ce339829b2fff87348e4344c4dee9cb,
    0x547b9432a6c2233dee4c950b42fac34e, 0x082ea16628d924b2765ba2496d8bd125,
    0x72f8f66486689816d4a45ccc5d65b692, 0x6c704850fdedb9da5e154657a78d9d84,
    0x90d8ab008cbcd30af7e45805b8b34506, 0xd02c1e8fca3f0f02c1afbd0301138a6b,
    0x3a9111414f67dcea97f2cfcef0b4e673, 0x96ac7422e7ad3585e2f937e81c75df6e,
    0x47f11a711d29c5896fb7620eaa18be1b, 0xfc563e4bc6d279209adbc0fe78cd5af4,
    0x1fdda8338807c731b11210592780ec5f, 0x60517fa919b54a0d2de57a9f93c99cef,
    0xa0e03b4dae2af5b0c8ebbb3c83539961, 0x172b047eba77d626e169146355210c7d]

/-- Look up a byte in rows of 16. -/
def lookup (rows : List ℕ) (b : UInt8) : UInt8 :=
  UInt8.ofNat (rows.getD (b.toNat / 16) 0 >>> (8 * (15 - b.toNat % 16)))

def sbox (b : UInt8) : UInt8 := lookup sboxRows b

def invSbox (b : UInt8) : UInt8 := lookup invSboxRows b

theorem invSbox_sbox (b : UInt8) : invSbox (sbox b) = b := by
  have hall : ∀ n < 256, invSbox (sbox (UInt8.ofNat n)) = UInt8.ofNat n := by
    decide +kernel
  have h := hall b.toNat b.toNat_lt
  rwa [UInt8.ofNat_toNat] at h

/-- The product with `x` in the field of 256 elements, whose polynomial is `1B` behind `x ^ 8`. -/
def xtime (b : UInt8) : UInt8 :=
  let carry := b >>> 7
  (b <<< 1) ^^^ (carry ^^^ (carry <<< 1) ^^^ (carry <<< 3) ^^^ (carry <<< 4))

theorem xor_left_comm (a b c : UInt8) : a ^^^ (b ^^^ c) = b ^^^ (a ^^^ c) := by
  rw [← UInt8.xor_assoc, UInt8.xor_comm a b, UInt8.xor_assoc]

theorem xor_cancel (a b : UInt8) : a ^^^ (a ^^^ b) = b := by
  rw [← UInt8.xor_assoc, UInt8.xor_self, UInt8.zero_xor]

theorem xtime_xor (a b : UInt8) : xtime (a ^^^ b) = xtime a ^^^ xtime b := by
  simp only [xtime, UInt8.shiftRight_xor, UInt8.shiftLeft_xor]
  ac_rfl

/-! ## Words and blocks -/

/-- A column, or a word of the key. -/
structure Word where
  b0 : UInt8
  b1 : UInt8
  b2 : UInt8
  b3 : UInt8
  deriving DecidableEq

/-- A block. -/
structure Block where
  c0 : Word
  c1 : Word
  c2 : Word
  c3 : Word
  deriving DecidableEq

namespace Word

def xor (v w : Word) : Word := ⟨v.b0 ^^^ w.b0, v.b1 ^^^ w.b1, v.b2 ^^^ w.b2, v.b3 ^^^ w.b3⟩

def map (f : UInt8 → UInt8) (w : Word) : Word := ⟨f w.b0, f w.b1, f w.b2, f w.b3⟩

def bytes (w : Word) : Bytes := [w.b0, w.b1, w.b2, w.b3]

/-- The first four bytes, with zeros for those that are missing. -/
def ofBytes (bs : Bytes) : Word := ⟨bs.getD 0 0, bs.getD 1 0, bs.getD 2 0, bs.getD 3 0⟩

/-- The product of a column with the polynomial `3 x ^ 3 + x ^ 2 + x + 2`. -/
def mix (w : Word) : Word :=
  ⟨xtime w.b0 ^^^ (xtime w.b1 ^^^ w.b1) ^^^ w.b2 ^^^ w.b3,
    w.b0 ^^^ xtime w.b1 ^^^ (xtime w.b2 ^^^ w.b2) ^^^ w.b3,
    w.b0 ^^^ w.b1 ^^^ xtime w.b2 ^^^ (xtime w.b3 ^^^ w.b3),
    (xtime w.b0 ^^^ w.b0) ^^^ w.b1 ^^^ w.b2 ^^^ xtime w.b3⟩

/-- The inverse product: the polynomial has order four. -/
def invMix (w : Word) : Word := w.mix.mix.mix

theorem mix_mix (w : Word) : w.mix.mix =
    ⟨w.b0 ^^^ xtime (xtime (w.b0 ^^^ w.b2)), w.b1 ^^^ xtime (xtime (w.b1 ^^^ w.b3)),
      w.b2 ^^^ xtime (xtime (w.b0 ^^^ w.b2)), w.b3 ^^^ xtime (xtime (w.b1 ^^^ w.b3))⟩ := by
  obtain ⟨a, b, c, d⟩ := w
  simp only [mix, xtime_xor, mk.injEq]
  refine ⟨?_, ?_, ?_, ?_⟩ <;>
    simp only [UInt8.xor_assoc, UInt8.xor_comm, xor_left_comm, xor_cancel, UInt8.xor_self,
      UInt8.zero_xor]

theorem invMix_mix (w : Word) : w.mix.invMix = w := by
  obtain ⟨a, b, c, d⟩ := w
  rw [invMix, mix_mix, mix_mix]
  simp only [xtime_xor, mk.injEq]
  refine ⟨?_, ?_, ?_, ?_⟩ <;>
    simp only [UInt8.xor_assoc, UInt8.xor_comm, xor_left_comm, UInt8.xor_self, UInt8.xor_zero]

theorem xor_xor (v w : Word) : (v.xor w).xor w = v := by
  simp only [xor, UInt8.xor_assoc, UInt8.xor_self, UInt8.xor_zero]

theorem map_map {f g : UInt8 → UInt8} (h : ∀ b, g (f b) = b) (w : Word) : (w.map f).map g = w := by
  simp only [map, h]

theorem length_bytes (w : Word) : w.bytes.length = 4 := rfl

theorem ofBytes_append (w : Word) (rest : Bytes) : ofBytes (w.bytes ++ rest) = w := rfl

theorem bytes_ofBytes {bs : Bytes} (h : 4 ≤ bs.length) : (ofBytes bs).bytes = bs.take 4 := by
  obtain ⟨a, bs, rfl⟩ := List.exists_cons_of_length_pos (by omega : 0 < bs.length)
  obtain ⟨b, bs, rfl⟩ := List.exists_cons_of_length_pos (by simp at h; omega : 0 < bs.length)
  obtain ⟨c, bs, rfl⟩ := List.exists_cons_of_length_pos (by simp at h; omega : 0 < bs.length)
  obtain ⟨d, bs, rfl⟩ := List.exists_cons_of_length_pos (by simp at h; omega : 0 < bs.length)
  rfl

end Word

namespace Block

def xor (s k : Block) : Block := ⟨s.c0.xor k.c0, s.c1.xor k.c1, s.c2.xor k.c2, s.c3.xor k.c3⟩

def bytes (s : Block) : Bytes := s.c0.bytes ++ (s.c1.bytes ++ (s.c2.bytes ++ s.c3.bytes))

/-- The first 16 bytes, with zeros for those that are missing. -/
def ofBytes (bs : Bytes) : Block :=
  ⟨.ofBytes bs, .ofBytes (bs.drop 4), .ofBytes (bs.drop 8), .ofBytes (bs.drop 12)⟩

def subBytes (s : Block) : Block := ⟨s.c0.map sbox, s.c1.map sbox, s.c2.map sbox, s.c3.map sbox⟩

def invSubBytes (s : Block) : Block :=
  ⟨s.c0.map invSbox, s.c1.map invSbox, s.c2.map invSbox, s.c3.map invSbox⟩

/-- The row of number `i` moves `i` columns to the left. -/
def shiftRows (s : Block) : Block :=
  ⟨⟨s.c0.b0, s.c1.b1, s.c2.b2, s.c3.b3⟩, ⟨s.c1.b0, s.c2.b1, s.c3.b2, s.c0.b3⟩,
    ⟨s.c2.b0, s.c3.b1, s.c0.b2, s.c1.b3⟩, ⟨s.c3.b0, s.c0.b1, s.c1.b2, s.c2.b3⟩⟩

/-- The row of number `i` moves `i` columns to the right. -/
def invShiftRows (s : Block) : Block :=
  ⟨⟨s.c0.b0, s.c3.b1, s.c2.b2, s.c1.b3⟩, ⟨s.c1.b0, s.c0.b1, s.c3.b2, s.c2.b3⟩,
    ⟨s.c2.b0, s.c1.b1, s.c0.b2, s.c3.b3⟩, ⟨s.c3.b0, s.c2.b1, s.c1.b2, s.c0.b3⟩⟩

def mixColumns (s : Block) : Block := ⟨s.c0.mix, s.c1.mix, s.c2.mix, s.c3.mix⟩

def invMixColumns (s : Block) : Block := ⟨s.c0.invMix, s.c1.invMix, s.c2.invMix, s.c3.invMix⟩

theorem xor_xor (s k : Block) : (s.xor k).xor k = s := by
  simp only [xor, Word.xor_xor]

theorem invSubBytes_subBytes (s : Block) : s.subBytes.invSubBytes = s := by
  simp only [subBytes, invSubBytes, Word.map_map invSbox_sbox]

theorem invShiftRows_shiftRows (s : Block) : s.shiftRows.invShiftRows = s := rfl

theorem invMixColumns_mixColumns (s : Block) : s.mixColumns.invMixColumns = s := by
  simp only [mixColumns, invMixColumns, Word.invMix_mix]

theorem length_bytes (s : Block) : s.bytes.length = 16 := rfl

theorem ofBytes_append (s : Block) (rest : Bytes) : ofBytes (s.bytes ++ rest) = s := rfl

theorem bytes_ofBytes {bs : Bytes} (h : 16 ≤ bs.length) : (ofBytes bs).bytes = bs.take 16 := by
  have hword : ∀ i, i ≤ 12 → (Word.ofBytes (bs.drop i)).bytes = (bs.drop i).take 4 :=
    fun i hi => Word.bytes_ofBytes (by rw [List.length_drop]; omega)
  have htake : bs.take 16 = bs.take 4 ++ ((bs.drop 4).take 4 ++
      ((bs.drop 8).take 4 ++ (bs.drop 12).take 4)) := by
    rw [show 16 = 4 + (4 + (4 + 4)) from rfl, List.take_add, List.take_add, List.take_add,
      List.drop_drop, List.drop_drop]
  rw [ofBytes, bytes, Word.bytes_ofBytes (by omega), hword 4 (by omega), hword 8 (by omega),
    hword 12 (by omega), htake]

end Block

/-! ## The cipher -/

/-- The constants of the rounds. -/
def rcon : List UInt8 := [0x01, 0x02, 0x04, 0x08, 0x10, 0x20, 0x40, 0x80, 0x1b, 0x36]

/-- The key of the next round. -/
def nextKey (r : UInt8) (k : Block) : Block :=
  let c0 := k.c0.xor ⟨sbox k.c3.b1 ^^^ r, sbox k.c3.b2, sbox k.c3.b3, sbox k.c3.b0⟩
  let c1 := k.c1.xor c0
  let c2 := k.c2.xor c1
  ⟨c0, c1, c2, k.c3.xor c2⟩

/-- The keys of the rounds. -/
def keySchedule : List UInt8 → Block → List Block
  | [], _ => []
  | r :: rs, k => nextKey r k :: keySchedule rs (nextKey r k)

/-- The rounds of the encryption. The last one does not mix the columns. -/
def rounds : List Block → Block → Block
  | [], s => s
  | [k], s => s.subBytes.shiftRows.xor k
  | k :: ks, s => rounds ks (s.subBytes.shiftRows.mixColumns.xor k)

/-- The rounds of the decryption. -/
def invRounds : List Block → Block → Block
  | [], s => s
  | [k], s => (s.xor k).invShiftRows.invSubBytes
  | k :: ks, s => ((invRounds ks s).xor k).invMixColumns.invShiftRows.invSubBytes

theorem invRounds_rounds (ks : List Block) (s : Block) : invRounds ks (rounds ks s) = s := by
  fun_induction rounds ks s with
  | case1 => rfl
  | case2 k s =>
    rw [invRounds, Block.xor_xor, Block.invShiftRows_shiftRows, Block.invSubBytes_subBytes]
  | case3 k ks s hks ih =>
    rw [invRounds, ih, Block.xor_xor, Block.invMixColumns_mixColumns, Block.invShiftRows_shiftRows,
      Block.invSubBytes_subBytes]
    exact hks

/-- Encrypt a block. -/
def encrypt (key s : Block) : Block := rounds (keySchedule rcon key) (s.xor key)

/-- Decrypt a block. -/
def decrypt (key s : Block) : Block := (invRounds (keySchedule rcon key) s).xor key

theorem decrypt_encrypt (key s : Block) : decrypt key (encrypt key s) = s := by
  rw [decrypt, encrypt, invRounds_rounds, Block.xor_xor]

/-! ## Chains of blocks -/

/-- Encrypt the first blocks of a text, each one added to the one before. -/
def encryptBlocks (key : Block) : ℕ → Block → Bytes → Bytes
  | 0, _, data => data
  | n + 1, prev, data =>
    let c := encrypt key ((Block.ofBytes data).xor prev)
    c.bytes ++ encryptBlocks key n c (data.drop 16)

/-- Decrypt the first blocks of a text. -/
def decryptBlocks (key : Block) : ℕ → Block → Bytes → Bytes
  | 0, _, data => data
  | n + 1, prev, data =>
    let c := Block.ofBytes data
    ((decrypt key c).xor prev).bytes ++ decryptBlocks key n c (data.drop 16)

/-- Encrypt a text of whole blocks. -/
def cbcEncrypt (key iv data : Bytes) : Bytes :=
  encryptBlocks (.ofBytes key) (data.length / 16) (.ofBytes iv) data

/-- Decrypt a text of whole blocks. -/
def cbcDecrypt (key iv data : Bytes) : Bytes :=
  decryptBlocks (.ofBytes key) (data.length / 16) (.ofBytes iv) data

theorem length_encryptBlocks (key : Block) {n : ℕ} (prev : Block) {data : Bytes}
    (h : 16 * n ≤ data.length) : (encryptBlocks key n prev data).length = data.length := by
  induction n generalizing prev data with
  | zero => rfl
  | succ n ih =>
    rw [encryptBlocks, List.length_append, Block.length_bytes,
      ih _ (by rw [List.length_drop]; omega), List.length_drop]
    omega

theorem decryptBlocks_encryptBlocks (key : Block) {n : ℕ} (prev : Block) {data : Bytes}
    (h : 16 * n ≤ data.length) :
    decryptBlocks key n prev (encryptBlocks key n prev data) = data := by
  induction n generalizing prev data with
  | zero => rfl
  | succ n ih =>
    have hrest := @ih (encrypt key ((Block.ofBytes data).xor prev)) (data.drop 16)
      (by rw [List.length_drop]; omega)
    rw [encryptBlocks, decryptBlocks, Block.ofBytes_append, decrypt_encrypt, Block.xor_xor,
      Block.bytes_ofBytes (by omega), List.drop_left' (Block.length_bytes _), hrest,
      List.take_append_drop]

theorem length_cbcEncrypt (key iv data : Bytes) : (cbcEncrypt key iv data).length = data.length :=
  length_encryptBlocks _ _ (Nat.mul_div_le _ _)

theorem cbcDecrypt_cbcEncrypt (key iv data : Bytes) :
    cbcDecrypt key iv (cbcEncrypt key iv data) = data := by
  rw [cbcDecrypt, length_cbcEncrypt]
  exact decryptBlocks_encryptBlocks _ _ (Nat.mul_div_le _ _)

/-! ## Authentication -/

/-- The double of a block as an element of the field of `2 ^ 128` elements. -/
def double (s : Block) : Block :=
  let n := Der.ofBe 0 s.bytes
  .ofBytes (Der.beBytes 16 (2 * n % 2 ^ 128 ^^^ if 2 ^ 127 ≤ n then 0x87 else 0))

/-- The state behind the first blocks of a text. -/
def macBlocks (key : Block) : ℕ → Block → Bytes → Block
  | 0, x, _ => x
  | n + 1, x, data => macBlocks key n (encrypt key ((Block.ofBytes data).xor x)) (data.drop 16)

/-- The code of a text: a last block that is whole is added to one key made from zero, and one that
is not to another, behind the byte `80` and zeros. -/
def cmac (key data : Bytes) : Vector UInt8 16 :=
  let key := Block.ofBytes key
  let n := (data.length - 1) / 16
  let rest := data.drop (16 * n)
  let k1 := double (encrypt key (.ofBytes []))
  let last := if rest.length = 16 then (Block.ofBytes rest).xor k1
    else (Block.ofBytes (rest ++ [0x80])).xor (double k1)
  let s := encrypt key (last.xor (macBlocks key n (.ofBytes []) data))
  ⟨s.bytes.toArray, rfl⟩

/-- The examples of the standards: a block, and the code of the empty text. -/
example : encrypt (.ofBytes (Der.beBytes 16 0x2b7e151628aed2a6abf7158809cf4f3c))
      (.ofBytes (Der.beBytes 16 0x3243f6a8885a308d313198a2e0370734)) =
    .ofBytes (Der.beBytes 16 0x3925841d02dc09fbdc118597196a0b32) ∧
    (cmac (Der.beBytes 16 0x2b7e151628aed2a6abf7158809cf4f3c) []).toList =
      Der.beBytes 16 0xbb1d6929e95937287fa37d129b756746 := by
  decide +kernel

end VirtualRsp.Rijndael
