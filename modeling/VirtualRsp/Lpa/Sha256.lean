import Mathlib.Data.List.GetD
import VirtualRsp.Foundations.Loop
import VirtualRsp.Foundations.Sha2

/-!
# SHA-256 in the LPA

The LPA's own SHA-256, with which it hashes a confirmation code. A context (`Ctx`) keeps the bytes
behind the last full block in a buffer of 64 bytes, and `update` compresses the buffer whenever it
is full.

* `k_eq`, `transform_eq`: the constants and the compression are those of the standard;
* `Holds`: what a context has after some bytes, which every byte keeps (`push_holds`);
* `digest_eq`: what `final` writes is the digest of all bytes that were given, however they were
  cut into pieces.
-/

namespace VirtualRsp.Lpa.Sha256

/-! ## Words -/

def rotright (a b : UInt32) : UInt32 := (a >>> b) ||| (a <<< (32 - b))

def ch (x y z : UInt32) : UInt32 := (x &&& y) ^^^ (~~~x &&& z)

def maj (x y z : UInt32) : UInt32 := (x &&& y) ^^^ (x &&& z) ^^^ (y &&& z)

def ep0 (x : UInt32) : UInt32 := rotright x 2 ^^^ rotright x 13 ^^^ rotright x 22

def ep1 (x : UInt32) : UInt32 := rotright x 6 ^^^ rotright x 11 ^^^ rotright x 25

def sig0 (x : UInt32) : UInt32 := rotright x 7 ^^^ rotright x 18 ^^^ (x >>> 3)

def sig1 (x : UInt32) : UInt32 := rotright x 17 ^^^ rotright x 19 ^^^ (x >>> 10)

/-- The constants of the rounds. -/
def k : List UInt32 :=
  [0x428a2f98, 0x71374491, 0xb5c0fbcf, 0xe9b5dba5, 0x3956c25b, 0x59f111f1, 0x923f82a4, 0xab1c5ed5,
    0xd807aa98, 0x12835b01, 0x243185be, 0x550c7dc3, 0x72be5d74, 0x80deb1fe, 0x9bdc06a7, 0xc19bf174,
    0xe49b69c1, 0xefbe4786, 0x0fc19dc6, 0x240ca1cc, 0x2de92c6f, 0x4a7484aa, 0x5cb0a9dc, 0x76f988da,
    0x983e5152, 0xa831c66d, 0xb00327c8, 0xbf597fc7, 0xc6e00bf3, 0xd5a79147, 0x06ca6351, 0x14292967,
    0x27b70a85, 0x2e1b2138, 0x4d2c6dfc, 0x53380d13, 0x650a7354, 0x766a0abb, 0x81c2c92e, 0x92722c85,
    0xa2bfe8a1, 0xa81a664b, 0xc24b8b70, 0xc76c51a3, 0xd192e819, 0xd6990624, 0xf40e3585, 0x106aa070,
    0x19a4c116, 0x1e376c08, 0x2748774c, 0x34b0bcb5, 0x391c0cb3, 0x4ed8aa4a, 0x5b9cca4f, 0x682e6ff3,
    0x748f82ee, 0x78a5636f, 0x84c87814, 0x8cc70208, 0x90befffa, 0xa4506ceb, 0xbef9a3f7, 0xc67178f2]

/-! ## Compression -/

/-- The eight words of a state, and the variables of the rounds. -/
structure Registers where
  a : UInt32
  b : UInt32
  c : UInt32
  d : UInt32
  e : UInt32
  f : UInt32
  g : UInt32
  h : UInt32

/-- The four bytes from `j` on, as a word. -/
def word (data : Bytes) (j : ℕ) : UInt32 :=
  (data.getD j 0).toUInt32 <<< 24 ||| (data.getD (j + 1) 0).toUInt32 <<< 16 |||
    (data.getD (j + 2) 0).toUInt32 <<< 8 ||| (data.getD (j + 3) 0).toUInt32

/-- One round of the loop that fills `m`, of which the first `i` words are there. -/
def extendSchedule (m : List UInt32) (i : ℕ) : List UInt32 :=
  m ++ [sig1 (m.getD (i - 2) 0) + m.getD (i - 7) 0 + sig0 (m.getD (i - 15) 0) + m.getD (i - 16) 0]

/-- The words `m` of a block. -/
def schedule (data : Bytes) : List UInt32 :=
  (List.range' 16 48).foldl extendSchedule ((List.range 16).map fun i => word data (4 * i))

/-- A round. -/
def round (m : List UInt32) (r : Registers) (i : ℕ) : Registers :=
  let t1 := r.h + ep1 r.e + ch r.e r.f r.g + k.getD i 0 + m.getD i 0
  let t2 := ep0 r.a + maj r.a r.b r.c
  ⟨t1 + t2, r.a, r.b, r.c, r.d + t1, r.e, r.f, r.g⟩

/-- `sha256_transform`. -/
def transform (state : Registers) (data : Bytes) : Registers :=
  let r := (List.range 64).foldl (round (schedule data)) state
  ⟨state.a + r.a, state.b + r.b, state.c + r.c, state.d + r.d, state.e + r.e, state.f + r.f,
    state.g + r.g, state.h + r.h⟩

/-! ## The context -/

/-- `EUICC_SHA256_CTX`. -/
structure Ctx where
  data : Vector UInt8 64
  datalen : ℕ
  bitlen : UInt64
  state : Registers

/-- `euicc_sha256_init`; the buffer is left as it is. -/
def init (ctx : Ctx) : Ctx :=
  { ctx with
    datalen := 0
    bitlen := 0
    state := ⟨0x6a09e667, 0xbb67ae85, 0x3c6ef372, 0xa54ff53a, 0x510e527f, 0x9b05688c, 0x1f83d9ab,
      0x5be0cd19⟩ }

/-- One byte: it goes into the buffer, which is compressed when it is full. -/
def push (ctx : Ctx) (c : UInt8) : Option Ctx :=
  if h : ctx.datalen < 64 then
    let data := ctx.data.set ctx.datalen c
    if ctx.datalen + 1 = 64 then
      some ⟨data, 0, ctx.bitlen + 512, transform ctx.state data.toList⟩
    else some { ctx with data := data, datalen := ctx.datalen + 1 }
  else none

/-- One round of `euicc_sha256_update`. The counter has 32 bits. -/
def updateBody (data : Bytes) : ℕ × Ctx → Option (Ctl (ℕ × Ctx) Ctx)
  | (i, ctx) =>
    match data[i]? with
    | none => some (.done ctx)
    | some c => (push ctx c).map fun ctx => .next ((i + 1) % 2 ^ 32, ctx)

/-- `euicc_sha256_update`, as far as it gets in `rounds` rounds. -/
def updateWithin (rounds : ℕ) (ctx : Ctx) (data : Bytes) : Option Ctx :=
  loop (updateBody data) rounds (0, ctx)

/-- `euicc_sha256_update`. -/
def update (ctx : Ctx) (data : Bytes) : Option Ctx := updateWithin (data.length + 1) ctx data

/-- Write `f j` at every place `j` from `i` on, up to `n`. -/
def fill (f : ℕ → UInt8) (data : Vector UInt8 64) (i n : ℕ) : Vector UInt8 64 :=
  (List.range' i (n - i)).foldl (fun data j => data.setIfInBounds j (f j)) data

/-- A byte of the length in bits; the last byte of the buffer is the lowest. -/
def bitlenByte (bitlen : UInt64) (j : ℕ) : UInt8 := (bitlen >>> UInt64.ofNat (8 * (63 - j))).toUInt8

/-- Byte `i` of a word of the digest. -/
def hashByte (w : UInt32) (i : ℕ) : UInt8 := (w >>> UInt32.ofNat (24 - i * 8) &&& 0xff).toUInt8

/-- The digest. -/
def hash (state : Registers) : Bytes :=
  [state.a, state.b, state.c, state.d, state.e, state.f, state.g, state.h].flatMap fun w =>
    (List.range 4).map (hashByte w)

/-- `euicc_sha256_final`. -/
def final (ctx : Ctx) : Option Bytes :=
  if h : ctx.datalen < 64 then
    let marked := ctx.data.set ctx.datalen 0x80
    let bitlen := bitlenByte (ctx.bitlen + UInt64.ofNat (ctx.datalen * 8))
    if ctx.datalen < 56 then
      let data := fill (fun _ => 0x00) marked (ctx.datalen + 1) 56
      some (hash (transform ctx.state (fill bitlen data 56 64).toList))
    else
      let data := fill (fun _ => 0x00) marked (ctx.datalen + 1) 64
      let state := transform ctx.state data.toList
      let data := fill (fun _ => 0x00) data 0 56
      some (hash (transform state (fill bitlen data 56 64).toList))
  else none

/-- The digest of some pieces, computed in a context that held anything. -/
def digest (ctx : Ctx) (pieces : List Bytes) : Option Bytes := do
  final (← pieces.foldlM update (init ctx))

/-! ## The constants -/

/-- A constant is checked against the root it begins: `c` is the whole part of the root. -/
theorem rootBits_eq {n p c : ℕ} {w : UInt32} (hn : 0 < n)
    (hle : (w.toNat + 2 ^ 32 * c) ^ n ≤ p * 2 ^ (32 * n))
    (hlt : p * 2 ^ (32 * n) < (w.toNat + 2 ^ 32 * c + 1) ^ n) : w.toBitVec = Sha2.rootBits n p := by
  apply BitVec.eq_of_toNat_eq
  rw [Sha2.rootBits, Sha2.root_eq hn hle hlt, BitVec.toNat_ofNat, Nat.add_mul_mod_self_left,
    Nat.mod_eq_of_lt w.toNat_lt]
  rfl

theorem k_eq {t : ℕ} (ht : t < 64) : (k.getD t 0).toBitVec = Sha2.roundConstant t := by
  have hroots : ∀ t < 64, ∃ c < 7,
      ((k.getD t 0).toNat + 2 ^ 32 * c) ^ 3 ≤ Sha2.primes.getD t 0 * 2 ^ (32 * 3) ∧
      Sha2.primes.getD t 0 * 2 ^ (32 * 3) < ((k.getD t 0).toNat + 2 ^ 32 * c + 1) ^ 3 := by
    decide +kernel
  obtain ⟨c, -, hle, hlt⟩ := hroots t ht
  exact rootBits_eq (by omega) hle hlt

/-- The words of the code as those of the standard. -/
def Registers.words (r : Registers) : Sha2.State :=
  ⟨r.a.toBitVec, r.b.toBitVec, r.c.toBitVec, r.d.toBitVec, r.e.toBitVec, r.f.toBitVec,
    r.g.toBitVec, r.h.toBitVec⟩

theorem words_init (ctx : Ctx) : (init ctx).state.words = Sha2.initial := by
  have hroot : ∀ {p : ℕ} {w : UInt32}, (∃ c < 5, (w.toNat + 2 ^ 32 * c) ^ 2 ≤ p * 2 ^ (32 * 2) ∧
      p * 2 ^ (32 * 2) < (w.toNat + 2 ^ 32 * c + 1) ^ 2) → w.toBitVec = Sha2.rootBits 2 p := by
    rintro p w ⟨c, -, hle, hlt⟩
    exact rootBits_eq (by omega) hle hlt
  simp only [init, Registers.words, Sha2.initial, Sha2.State.mk.injEq]
  exact ⟨hroot (by decide), hroot (by decide), hroot (by decide), hroot (by decide),
    hroot (by decide), hroot (by decide), hroot (by decide), hroot (by decide)⟩

/-! ## The compression -/

/-- Bytes that are shifted to their places and joined are the digits of a number. -/
theorem toNat_join (b₀ b₁ b₂ b₃ : UInt8) :
    (b₀.toUInt32 <<< 24 ||| b₁.toUInt32 <<< 16 ||| b₂.toUInt32 <<< 8 ||| b₃.toUInt32).toNat =
      ((b₀.toNat * 256 + b₁.toNat) * 256 + b₂.toNat) * 256 + b₃.toNat := by
  have hor : ∀ (a : ℕ) (b : UInt8), a <<< 8 ||| b.toNat = a * 256 + b.toNat := by
    intro a b
    rw [← Nat.shiftLeft_add_eq_or_of_lt b.toNat_lt, Nat.shiftLeft_eq]
  have hshift : ∀ (b : UInt8) {n : ℕ}, n ≤ 24 → b.toNat <<< n % 4294967296 = b.toNat <<< n := by
    intro b n hn
    apply Nat.mod_eq_of_lt
    calc b.toNat <<< n = b.toNat * 2 ^ n := Nat.shiftLeft_eq _ _
      _ < 2 ^ 8 * 2 ^ n := Nat.mul_lt_mul_of_pos_right b.toNat_lt (Nat.pow_pos (by omega))
      _ ≤ 2 ^ 8 * 2 ^ 24 := Nat.mul_le_mul_left _ (Nat.pow_le_pow_right (by omega) hn)
  calc (b₀.toUInt32 <<< 24 ||| b₁.toUInt32 <<< 16 ||| b₂.toUInt32 <<< 8 ||| b₃.toUInt32).toNat
      = b₀.toNat <<< 24 ||| b₁.toNat <<< 16 ||| b₂.toNat <<< 8 ||| b₃.toNat := by
        simp [hshift]
    _ = ((b₀.toNat <<< 8 ||| b₁.toNat) <<< 8 ||| b₂.toNat) <<< 8 ||| b₃.toNat := by
        simp only [Nat.shiftLeft_or_distrib, ← Nat.shiftLeft_add]
    _ = _ := by rw [hor, hor, hor]

/-- A word of a block. -/
theorem word_eq {data : Bytes} {t : ℕ} (h : 4 * t + 4 ≤ data.length) :
    (word data (4 * t)).toBitVec = Sha2.word data t := by
  have hget : ∀ i, data.getD (4 * t + i) 0 = (data.drop (4 * t)).getD i 0 := by
    intro i
    rw [List.getD_eq_getElem?_getD, List.getD_eq_getElem?_getD, List.getElem?_drop]
  have hlength : 4 ≤ (data.drop (4 * t)).length := by
    rw [List.length_drop]
    omega
  rw [word, Sha2.word, hget 1, hget 2, hget 3, ← Nat.add_zero (4 * t), hget 0, Nat.add_zero]
  generalize data.drop (4 * t) = bytes at hlength
  obtain _ | ⟨b₀, _ | ⟨b₁, _ | ⟨b₂, _ | ⟨b₃, bytes⟩⟩⟩⟩ := bytes
  · cases hlength
  · simp at hlength
  · simp at hlength
  · simp at hlength
  · apply BitVec.eq_of_toNat_eq
    have h₀ := b₀.toNat_lt
    have h₁ := b₁.toNat_lt
    have h₂ := b₂.toNat_lt
    have h₃ := b₃.toNat_lt
    rw [BitVec.toNat_ofNat]
    refine (toNat_join b₀ b₁ b₂ b₃).trans (Eq.symm ?_)
    simp only [Der.ofBe, List.take_succ_cons, List.take_zero, List.foldl_cons, List.foldl_nil]
    omega

/-- The words of a block are those of the standard. -/
theorem schedule_eq {data : Bytes} (h : data.length = 64) :
    ∀ t < 64, ((schedule data).getD t 0).toBitVec = Sha2.schedule data t := by
  have hrun : ∀ n ≤ 48, ∀ m, m = (List.range' 16 n).foldl extendSchedule
      ((List.range 16).map fun i => word data (4 * i)) →
      m.length = 16 + n ∧ ∀ t < 16 + n, (m.getD t 0).toBitVec = Sha2.schedule data t := by
    intro n hn
    induction n with
    | zero =>
      rintro _ rfl
      refine ⟨by simp, fun t ht => ?_⟩
      rw [Sha2.schedule_of_lt ht, ← word_eq (by omega)]
      simp [List.getD_eq_getElem?_getD, ht]
    | succ n ih =>
      rintro _ rfl
      obtain ⟨hlength, hwords⟩ := ih (by omega) _ rfl
      rw [List.range'_concat, List.foldl_append, Nat.one_mul]
      generalize (List.range' 16 n).foldl extendSchedule _ = m at hlength hwords
      simp only [List.foldl_cons, List.foldl_nil, extendSchedule]
      refine ⟨by simp [hlength, Nat.add_assoc], fun t ht => ?_⟩
      rcases Nat.lt_or_ge t (16 + n) with hlt | hge
      · rw [List.getD_append _ _ _ _ (by omega)]
        exact hwords t hlt
      · obtain rfl : t = 16 + n := by omega
        rw [List.getD_append_right _ _ _ _ (by omega), hlength, Nat.sub_self,
          Sha2.schedule_of_le (by omega), ← hwords _ (by omega), ← hwords _ (by omega),
          ← hwords _ (by omega), ← hwords _ (by omega)]
        rfl
  exact (hrun 48 le_rfl _ rfl).2

theorem words_round {m : List UInt32} {w : ℕ → Sha2.Word} {t : ℕ} (ht : t < 64)
    (hw : (m.getD t 0).toBitVec = w t) (r : Registers) :
    (round m r t).words = Sha2.round w r.words t := by
  simp only [Sha2.round, ← k_eq ht, ← hw]
  rfl

/-- **The compression** is that of the standard. -/
theorem words_transform {data : Bytes} (h : data.length = 64) (state : Registers) :
    (transform state data).words = Sha2.compress state.words data := by
  have hrounds : ∀ n ≤ 64, ((List.range n).foldl (round (schedule data)) state).words =
      (List.range n).foldl (Sha2.round (Sha2.schedule data)) state.words := by
    intro n hn
    induction n with
    | zero => rfl
    | succ n ih =>
      rw [List.range_succ, List.foldl_append, List.foldl_append, List.foldl_cons, List.foldl_cons,
        List.foldl_nil, List.foldl_nil, words_round (by omega) (schedule_eq h n (by omega)),
        ih (by omega)]
  rw [Sha2.compress, ← hrounds 64 le_rfl]
  simp only [transform, Registers.words, Sha2.State.add, UInt32.toBitVec_add, BitVec.add_comm]

/-! ## The buffer -/

theorem toList_fill {f : ℕ → UInt8} {data : Vector UInt8 64} {i n : ℕ} (hin : i ≤ n)
    (hn : n ≤ 64) : (fill f data i n).toList =
      data.toList.take i ++ (List.range' i (n - i)).map f ++ data.toList.drop n := by
  obtain ⟨m, rfl⟩ := Nat.exists_eq_add_of_le hin
  rw [fill, Nat.add_sub_cancel_left]
  induction m with
  | zero => simp
  | succ m ih =>
    have hlength : (data.toList.take i ++ (List.range' i m).map f).length = i + m := by
      simp
      omega
    have hdrop : data.toList.drop (i + m) =
        data.toList.get ⟨i + m, by simp; omega⟩ :: data.toList.drop (i + (m + 1)) :=
      List.drop_eq_getElem_cons _
    rw [List.range'_concat, Nat.one_mul, List.foldl_append, List.foldl_cons, List.foldl_nil,
      Vector.toList_setIfInBounds, ih (by omega) (by omega), hdrop,
      List.set_append_right _ _ (Nat.le_of_eq hlength), hlength, Nat.sub_self, List.set_cons_zero,
      List.map_append, List.map_singleton, ← List.append_assoc, List.append_assoc _ [_]]
    rfl

theorem length_toList_fill (f : ℕ → UInt8) (data : Vector UInt8 64) (i n : ℕ) :
    (fill f data i n).toList.length = 64 := Vector.length_toList

/-- The bytes of the length. -/
theorem map_bitlenByte (n : ℕ) :
    (List.range' 56 8).map (bitlenByte (UInt64.ofNat n)) = Der.beBytes 8 n := by
  have hbyte : ∀ k < 8, (UInt64.ofNat n >>> UInt64.ofNat (8 * k)).toUInt8 =
      UInt8.ofNat (n / 256 ^ k) := by
    intro k hk
    apply UInt8.toNat_inj.1
    have hpow : 2 ^ 64 = 2 ^ (8 * k) * 2 ^ (64 - 8 * k) := by
      rw [← Nat.pow_add, Nat.add_sub_cancel' (by omega)]
    rw [UInt64.toNat_toUInt8, UInt64.toNat_shiftRight, UInt64.toNat_ofNat', UInt64.toNat_ofNat',
      UInt8.toNat_ofNat', Nat.mod_eq_of_lt (show 8 * k < 2 ^ 64 by omega),
      Nat.mod_eq_of_lt (show 8 * k < 64 by omega), Nat.shiftRight_eq_div_pow, hpow,
      Nat.mod_mul_right_div_self, Nat.mod_mod_of_dvd _ (Nat.pow_dvd_pow 2 (by omega)),
      show 256 = 2 ^ 8 from rfl, ← Nat.pow_mul]
  simp only [Der.beBytes, ← hbyte 7 (by omega), ← hbyte 6 (by omega), ← hbyte 5 (by omega),
    ← hbyte 4 (by omega), ← hbyte 3 (by omega), ← hbyte 2 (by omega), ← hbyte 1 (by omega),
    ← hbyte 0 (by omega)]
  rfl

/-- The digest that is written is that of the words. -/
theorem hash_eq (state : Registers) : hash state = state.words.octets := by
  have hbyte : ∀ (w : UInt32), ∀ i < 4, hashByte w i = UInt8.ofNat (w.toNat / 256 ^ (3 - i)) := by
    intro w i hi
    apply UInt8.toNat_inj.1
    have hmask : ∀ m : ℕ, m &&& 255 = m % 256 := fun m => Nat.and_two_pow_sub_one_eq_mod m 8
    rw [hashByte, UInt32.toNat_toUInt8, UInt32.toNat_and, UInt32.toNat_shiftRight,
      UInt32.toNat_ofNat', UInt8.toNat_ofNat', Nat.mod_eq_of_lt (show 24 - i * 8 < 2 ^ 32 by omega),
      Nat.mod_eq_of_lt (show 24 - i * 8 < 32 by omega), Nat.shiftRight_eq_div_pow,
      show (0xff : UInt32).toNat = 255 from rfl, hmask, show 256 = 2 ^ 8 from rfl, ← Nat.pow_mul,
      Nat.mod_mod, show 8 * (3 - i) = 24 - i * 8 by omega]
  have hword : ∀ w : UInt32, (List.range 4).map (hashByte w) = Der.beBytes 4 w.toBitVec.toNat := by
    intro w
    simp only [Der.beBytes, List.range, List.range.loop, List.map_cons, List.map_nil,
      hbyte w 0 (by omega), hbyte w 1 (by omega), hbyte w 2 (by omega), hbyte w 3 (by omega)]
    rfl
  simp only [hash, Sha2.State.octets, Registers.words, List.flatMap_cons, List.flatMap_nil, hword]

/-! ## Running -/

/-- What a context has after some bytes. -/
structure Holds (ctx : Ctx) (bytes : Bytes) : Prop where
  datalen : ctx.datalen = (BlockHash.rest 64 bytes).length
  data : ctx.data.toList.take ctx.datalen = BlockHash.rest 64 bytes
  bitlen : ctx.bitlen = UInt64.ofNat (512 * (bytes.length / 64))
  state : ctx.state.words = BlockHash.chain Sha2.compress 64 Sha2.initial bytes

theorem holds_init (ctx : Ctx) : Holds (init ctx) [] where
  datalen := by rw [BlockHash.rest_nil]; rfl
  data := by rw [BlockHash.rest_nil]; rfl
  bitlen := rfl
  state := by rw [BlockHash.chain_nil, words_init]

theorem Holds.datalen_lt {ctx : Ctx} {bytes : Bytes} (h : Holds ctx bytes) : ctx.datalen < 64 := by
  rw [h.datalen]
  exact BlockHash.length_rest_lt (by omega) bytes

theorem Holds.length_take {ctx : Ctx} {bytes : Bytes} (h : Holds ctx bytes) :
    (ctx.data.toList.take ctx.datalen).length = ctx.datalen := by
  rw [h.data, h.datalen]

/-- The buffer with a byte behind the rest. -/
theorem Holds.toList_set {ctx : Ctx} {bytes : Bytes} (h : Holds ctx bytes) (c : UInt8) :
    (ctx.data.set ctx.datalen c h.datalen_lt).toList =
      BlockHash.rest 64 bytes ++ c :: ctx.data.toList.drop (ctx.datalen + 1) := by
  have hlt : ctx.datalen < ctx.data.toList.length := by
    rw [Vector.length_toList]
    exact h.datalen_lt
  rw [Vector.toList_set, List.set_eq_take_append_cons_drop, if_pos hlt, h.data]

/-- **One more byte** is kept. -/
theorem push_holds {ctx : Ctx} {bytes : Bytes} (h : Holds ctx bytes) (c : UInt8) :
    ∃ ctx', push ctx c = some ctx' ∧ Holds ctx' (bytes ++ [c]) := by
  have hrest := h.datalen
  have hmod := @BlockHash.length_rest _ 64 bytes
  have hset := h.toList_set c
  by_cases hfull : ctx.datalen + 1 = 64
  · have hlength : (BlockHash.rest 64 bytes ++ [c]).length = 64 := by
      rw [List.length_append, ← hrest]
      exact hfull
    obtain ⟨hchain, hempty⟩ :=
      BlockHash.chain_append_of_eq Sha2.compress Sha2.initial (by omega) hlength
    rw [hfull, List.drop_of_length_le Vector.length_toList.le] at hset
    refine ⟨_, by rw [push, dif_pos h.datalen_lt, if_pos hfull], ?_, ?_, ?_, ?_⟩
    · rw [hempty]
      rfl
    · rw [hempty, List.take_zero]
    · have hdiv : (bytes ++ [c]).length / 64 = bytes.length / 64 + 1 := by
        rw [List.length_append, List.length_singleton]
        omega
      rw [h.bitlen, hdiv, Nat.mul_add, UInt64.ofNat_add]
      rfl
    · rw [words_transform Vector.length_toList, h.state, hset, hchain]
  · have hlength : (BlockHash.rest 64 bytes ++ [c]).length < 64 := by
      have := h.datalen_lt
      rw [List.length_append, List.length_singleton]
      omega
    obtain ⟨hchain, hrest'⟩ := BlockHash.chain_append_of_lt Sha2.compress Sha2.initial hlength
    refine ⟨_, by rw [push, dif_pos h.datalen_lt, if_neg hfull], ?_, ?_, ?_, ?_⟩
    · rw [hrest', List.length_append, ← hrest]
      rfl
    · rw [hrest', hset, List.append_cons]
      exact List.take_left' (by rw [List.length_append, ← hrest]; rfl)
    · have hdiv : (bytes ++ [c]).length / 64 = bytes.length / 64 := by
        rw [List.length_append, List.length_singleton]
        omega
      rw [h.bitlen, hdiv]
    · rw [h.state, hchain]

/-- A piece is kept if its bytes can be counted; otherwise the loop goes on for ever. -/
theorem update_holds {ctx : Ctx} {bytes : Bytes} (h : Holds ctx bytes) {data : Bytes}
    (hdata : data.length < 2 ^ 32) :
    ∃ ctx', update ctx data = some ctx' ∧ Holds ctx' (bytes ++ data) := by
  have hrun : ∀ m i, i + m = data.length → ∀ ctx, Holds ctx (bytes ++ data.take i) →
      ∃ ctx', loop (updateBody data) (m + 1) (i, ctx) = some ctx' ∧ Holds ctx' (bytes ++ data) := by
    intro m
    induction m with
    | zero =>
      intro i hi ctx hctx
      rw [List.take_of_length_le (by omega)] at hctx
      refine ⟨ctx, loop_done ?_ 0, hctx⟩
      rw [updateBody, List.getElem?_eq_none (by omega)]
    | succ m ih =>
      intro i hi ctx hctx
      obtain ⟨ctx', hpush, hholds⟩ := push_holds hctx data[i]
      rw [List.append_assoc, List.take_append_getElem] at hholds
      obtain ⟨ctx'', hloop, hholds'⟩ := ih (i + 1) (by omega) ctx' hholds
      refine ⟨ctx'', (loop_next ?_ _).trans hloop, hholds'⟩
      rw [updateBody, List.getElem?_eq_getElem (by omega)]
      dsimp only
      rw [hpush, Option.map_some, Nat.mod_eq_of_lt (by omega)]
  exact hrun data.length 0 (Nat.zero_add _) ctx (by simpa using h)

/-- The counter comes back to the first byte before it reaches the end of a longer piece. -/
theorem updateWithin_eq_none (ctx : Ctx) {data : Bytes} (hdata : 2 ^ 32 ≤ data.length)
    (rounds : ℕ) : updateWithin rounds ctx data = none := by
  have hrun : ∀ i < 2 ^ 32, ∀ ctx, loop (updateBody data) rounds (i, ctx) = none := by
    induction rounds with
    | zero => exact fun _ _ _ => rfl
    | succ rounds ih =>
      intro i hi ctx
      rw [loop, updateBody, List.getElem?_eq_getElem (by omega)]
      dsimp only
      cases push ctx data[i] with
      | none => rfl
      | some ctx' => exact ih _ (Nat.mod_lt _ (by omega)) ctx'
  exact hrun 0 (by omega) ctx

/-- The buffer with the marker and zeros behind the rest. -/
theorem Holds.take_fill {ctx : Ctx} {bytes : Bytes} (h : Holds ctx bytes) {n : ℕ}
    (hn : ctx.datalen < n) (hn' : n ≤ 64) :
    (fill (fun _ => 0x00) (ctx.data.set ctx.datalen 0x80 h.datalen_lt)
        (ctx.datalen + 1) n).toList.take n =
      BlockHash.rest 64 bytes ++ 0x80 ::
        List.replicate (n - (BlockHash.rest 64 bytes).length - 1) 0x00 := by
  have hrest := h.datalen
  have hmarked : (ctx.data.set ctx.datalen 0x80 h.datalen_lt).toList.take (ctx.datalen + 1) =
      BlockHash.rest 64 bytes ++ [0x80] := by
    rw [h.toList_set, List.append_cons]
    exact List.take_left' (by rw [List.length_append, ← hrest]; rfl)
  have hlength : (BlockHash.rest 64 bytes ++ [0x80] ++
      List.replicate (n - (ctx.datalen + 1)) (0x00 : UInt8)).length = n := by
    rw [List.length_append, List.length_append, List.length_replicate, ← hrest,
      List.length_singleton]
    omega
  rw [toList_fill hn hn', hmarked, List.map_const', List.length_range', List.take_left' hlength,
    List.append_assoc, List.singleton_append, hrest, Nat.sub_add_eq]

/-- **The digest** of what a context has. -/
theorem final_eq {ctx : Ctx} {bytes : Bytes} (h : Holds ctx bytes) :
    final ctx = some (Sha2.sha256 bytes) := by
  have hrest := h.datalen
  have hmod := @BlockHash.length_rest _ 64 bytes
  have hlt := h.datalen_lt
  -- the number of bits, which the code and the standard both write with 64 bits
  have hbits : ctx.bitlen + UInt64.ofNat (ctx.datalen * 8) = UInt64.ofNat (8 * bytes.length) := by
    rw [h.bitlen, ← UInt64.ofNat_add]
    congr 1
    omega
  have hfield : ∀ data : Vector UInt8 64,
      (fill (bitlenByte (ctx.bitlen + UInt64.ofNat (ctx.datalen * 8))) data 56 64).toList =
        data.toList.take 56 ++ Der.beBytes 8 (8 * bytes.length) := by
    intro data
    rw [toList_fill (by omega) le_rfl, hbits, map_bitlenByte,
      List.drop_of_length_le Vector.length_toList.le, List.append_nil]
  rw [Sha2.sha256, Sha2.padded, final, dif_pos hlt]
  dsimp only
  split
  · rename_i hshort
    rw [hash_eq, words_transform (length_toList_fill _ _ _ _), h.state, hfield,
      h.take_fill hshort (by omega), BlockHash.chain_padding_of_le, List.append_assoc,
      List.cons_append, Der.length_beBytes]
    rw [Der.length_beBytes, ← hrest]
    omega
  · rename_i hlong
    have hfull := h.take_fill hlt le_rfl
    rw [List.take_of_length_le (length_toList_fill _ _ _ _).le] at hfull
    have hempty : ∀ data : Vector UInt8 64, (fill (fun _ => 0x00) data 0 56).toList.take 56 =
        List.replicate 56 0x00 := by
      intro data
      rw [toList_fill (by omega) (by omega), List.take_zero, List.nil_append, List.map_const',
        List.length_range', List.take_left' (List.length_replicate ..)]
    rw [hash_eq, words_transform (length_toList_fill _ _ _ _),
      words_transform (length_toList_fill _ _ _ _), h.state, hfield, hempty, hfull,
      BlockHash.chain_padding_of_lt, Der.length_beBytes]
    · omega
    · rw [Der.length_beBytes]
      omega
    · rw [Der.length_beBytes, ← hrest]
      omega

/-! ## The digest -/

theorem foldlM_update {pieces : List Bytes} (h : ∀ piece ∈ pieces, piece.length < 2 ^ 32)
    {ctx : Ctx} {bytes : Bytes} (hctx : Holds ctx bytes) :
    ∃ ctx', pieces.foldlM update ctx = some ctx' ∧ Holds ctx' (bytes ++ pieces.flatten) := by
  induction pieces generalizing ctx bytes with
  | nil => exact ⟨ctx, rfl, by rwa [List.flatten_nil, List.append_nil]⟩
  | cons piece pieces ih =>
    obtain ⟨ctx', hupdate, hholds⟩ := update_holds hctx (h piece List.mem_cons_self)
    obtain ⟨ctx'', hfold, hholds'⟩ := ih (fun p hp => h p (List.mem_cons_of_mem piece hp)) hholds
    refine ⟨ctx'', ?_, ?_⟩
    · rw [List.foldlM_cons, hupdate]
      exact hfold
    · rwa [List.flatten_cons, ← List.append_assoc]

theorem foldlM_update_eq_none {pieces : List Bytes} {piece : Bytes} (hmem : piece ∈ pieces)
    (h : 2 ^ 32 ≤ piece.length) (ctx : Ctx) : pieces.foldlM update ctx = none := by
  induction pieces generalizing ctx with
  | nil => cases hmem
  | cons first pieces ih =>
    rw [List.foldlM_cons]
    rcases List.mem_cons.1 hmem with rfl | hmem
    · rw [update, updateWithin_eq_none ctx h]
      rfl
    · cases update ctx first with
      | none => rfl
      | some ctx' => exact ih hmem ctx'

theorem digest_of_lt {ctx : Ctx} {pieces : List Bytes}
    (h : ∀ piece ∈ pieces, piece.length < 2 ^ 32) :
    digest ctx pieces = some (Sha2.sha256 pieces.flatten) := by
  obtain ⟨ctx', hfold, hholds⟩ := foldlM_update h (holds_init ctx)
  rw [digest, hfold]
  exact final_eq hholds

/-- **The LPA's digest** of some pieces is the SHA-256 of all their bytes, whatever the context held
before and however the bytes were cut, if every piece is shorter than `2 ^ 32`. For a longer piece
`update` never ends. -/
theorem digest_eq (ctx : Ctx) (pieces : List Bytes) :
    (digest ctx pieces = if ∀ piece ∈ pieces, piece.length < 2 ^ 32 then
      some (Sha2.sha256 pieces.flatten) else none) ∧
    ∀ piece : Bytes, 2 ^ 32 ≤ piece.length → ∀ rounds, updateWithin rounds ctx piece = none := by
  refine ⟨?_, fun piece h rounds => updateWithin_eq_none ctx h rounds⟩
  split
  · rename_i h
    exact digest_of_lt h
  · rename_i h
    simp only [not_forall, Nat.not_lt] at h
    obtain ⟨piece, hmem, hlong⟩ := h
    rw [digest, foldlM_update_eq_none hmem hlong]
    rfl

example : digest ⟨.replicate 64 0xA5, 3, 7, ⟨1, 2, 3, 4, 5, 6, 7, 8⟩⟩ [[0x61], [0x62, 0x63]] =
    some [0xba, 0x78, 0x16, 0xbf, 0x8f, 0x01, 0xcf, 0xea, 0x41, 0x41, 0x40, 0xde, 0x5d, 0xae, 0x22,
      0x23, 0xb0, 0x03, 0x61, 0xa3, 0x96, 0x17, 0x7a, 0x9c, 0xb4, 0x10, 0xff, 0x61, 0xf2, 0x00,
      0x15, 0xad] := by
  decide +kernel

end VirtualRsp.Lpa.Sha256
