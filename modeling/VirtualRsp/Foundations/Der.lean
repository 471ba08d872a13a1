import Mathlib.Data.Nat.Log
import Mathlib.Tactic.SplitIfs
import VirtualRsp.Foundations.Memory

/-!
# DER data objects

Tag, length, value, as bytes. Tags are numbers of one or two bytes, a tag is followed by a second
byte when the low five bits of its first are all ones (`IsTag`). Lengths below 128 take one byte;
longer ones take a byte with the number of length bytes and then the length, big-endian and
without leading zeros.

`readTag` and `readLen` read the two parts of a header back, whatever follows it
(`readTag_tagBytes`, `readLen_lenBytes`), which is what every decoder of the development rests on.
`objects` are the data objects that octets consist of, up to the first that does not fit.
`encode` is the loop by which programs write data objects; it writes DER (`encode_eq`).
-/

namespace VirtualRsp.Der

/-! ## Big-endian numbers -/

/-- The low `k` bytes of `n`, most significant first. -/
def beBytes : ℕ → ℕ → Bytes
  | 0, _ => []
  | k + 1, n => UInt8.ofNat (n / 256 ^ k) :: beBytes k n

/-- The number written by big-endian bytes, after the digits `acc`. -/
def ofBe (acc : ℕ) (bs : Bytes) : ℕ := bs.foldl (fun a b => a * 256 + b.toNat) acc

@[simp] theorem length_beBytes (k n : ℕ) : (beBytes k n).length = k := by
  induction k with
  | zero => rfl
  | succ k ih => simp [beBytes, ih]

theorem ofBe_beBytes (k n acc : ℕ) : ofBe acc (beBytes k n) = acc * 256 ^ k + n % 256 ^ k := by
  induction k generalizing acc with
  | zero => simp [beBytes, ofBe, Nat.mod_one]
  | succ k ih =>
    have h := ih (acc * 256 + n / 256 ^ k % 256)
    simp only [ofBe, beBytes, List.foldl_cons, UInt8.toNat_ofNat'] at h ⊢
    rw [show (2 : ℕ) ^ 8 = 256 from rfl, h, Nat.pow_succ, Nat.mod_mul, Nat.add_mul, Nat.mul_assoc,
      Nat.mul_comm 256, Nat.mul_comm (n / 256 ^ k % 256)]
    omega

theorem ofBe_eq (acc : ℕ) (bs : Bytes) : ofBe acc bs = acc * 256 ^ bs.length + ofBe 0 bs := by
  induction bs generalizing acc with
  | nil => simp [ofBe]
  | cons b bs ih =>
    have h := ih (acc * 256 + b.toNat)
    have h0 := ih (0 * 256 + b.toNat)
    simp only [ofBe, List.foldl_cons, List.length_cons] at h h0 ⊢
    rw [h, h0, Nat.pow_succ, Nat.add_mul, Nat.add_mul, Nat.mul_assoc, Nat.mul_comm 256]
    omega

theorem ofBe_lt (bs : Bytes) : ofBe 0 bs < 256 ^ bs.length := by
  induction bs with
  | nil => simp [ofBe]
  | cons b bs ih =>
    have hb : b.toNat + 1 ≤ 256 := b.toNat_lt
    have hmul := Nat.mul_le_mul_right (256 ^ bs.length) hb
    rw [Nat.add_mul, Nat.one_mul] at hmul
    have hcons : ofBe 0 (b :: bs) = ofBe b.toNat bs := by simp [ofBe]
    rw [hcons, ofBe_eq, List.length_cons, Nat.pow_succ, Nat.mul_comm _ 256]
    omega

/-- Bytes are determined by how many they are and by the number they write. -/
theorem beBytes_ofBe (acc : ℕ) (bs : Bytes) : beBytes bs.length (ofBe acc bs) = bs := by
  induction bs generalizing acc with
  | nil => rfl
  | cons b bs ih =>
    have hdiv : ofBe acc (b :: bs) / 256 ^ bs.length = acc * 256 + b.toNat := by
      change ofBe (acc * 256 + b.toNat) bs / 256 ^ bs.length = _
      rw [ofBe_eq, Nat.mul_comm, Nat.mul_add_div (Nat.pow_pos (by omega)),
        Nat.div_eq_of_lt (ofBe_lt bs), Nat.add_zero]
    have hbyte : UInt8.ofNat (acc * 256 + b.toNat) = b := by
      apply UInt8.toNat_inj.1
      rw [UInt8.toNat_ofNat']
      have := b.toNat_lt
      omega
    rw [List.length_cons, beBytes, hdiv, hbyte]
    exact congrArg (b :: ·) (ih (acc * 256 + b.toNat))

theorem ofBe_replicate_zero (k : ℕ) (bs : Bytes) :
    ofBe 0 (List.replicate k 0 ++ bs) = ofBe 0 bs := by
  induction k with
  | zero => rfl
  | succ k ih => exact ih

/-- The number of bytes a positive number takes. -/
def byteLen (n : ℕ) : ℕ := n.log2 / 8 + 1

theorem lt_pow_byteLen (n : ℕ) : n < 256 ^ byteLen n := by
  rw [byteLen, show 256 = 2 ^ 8 from rfl, ← Nat.pow_mul]
  exact lt_of_lt_of_le Nat.lt_log2_self (Nat.pow_le_pow_right (by omega) (by omega))

theorem byteLen_le {n k : ℕ} (hk : 0 < k) (h : n < 256 ^ k) : byteLen n ≤ k := by
  rcases Nat.eq_zero_or_pos n with rfl | hn
  · exact hk
  · rw [show 256 = 2 ^ 8 from rfl, ← Nat.pow_mul] at h
    have := (Nat.log2_lt (by omega)).2 h
    rw [byteLen]
    omega

/-! ## Tags and lengths -/

/-- The tags in use: one byte whose low five bits are not all ones, or two bytes of which the
first has all ones there. -/
def IsTag (t : ℕ) : Prop :=
  (t < 256 ∧ t % 32 ≠ 31) ∨ (256 ≤ t ∧ t < 65536 ∧ t / 256 % 32 = 31)

instance (t : ℕ) : Decidable (IsTag t) := inferInstanceAs (Decidable (_ ∨ _))

/-- The bytes of a tag. -/
def tagBytes (t : ℕ) : Bytes :=
  if t / 256 = 0 then [UInt8.ofNat t] else [UInt8.ofNat (t / 256), UInt8.ofNat t]

/-- The bytes of a length. -/
def lenBytes (n : ℕ) : Bytes :=
  if n < 128 then [UInt8.ofNat n] else UInt8.ofNat (128 + byteLen n) :: beBytes (byteLen n) n

/-- A data object. -/
def tlv (t : ℕ) (v : Bytes) : Bytes := tagBytes t ++ lenBytes v.length ++ v

/-- Read a tag of one or two bytes. -/
def readTag : Bytes → Option (ℕ × Bytes)
  | [] => none
  | b :: r =>
    if b.toNat % 32 = 31 then
      match r with
      | [] => none
      | c :: r => some (b.toNat * 256 + c.toNat, r)
    else some (b.toNat, r)

/-- Read a length in short or long form. -/
def readLen : Bytes → Option (ℕ × Bytes)
  | [] => none
  | b :: r =>
    if b.toNat < 128 then some (b.toNat, r)
    else if b.toNat - 128 ≤ r.length then
      some (ofBe 0 (r.take (b.toNat - 128)), r.drop (b.toNat - 128))
    else none

/-- The object that octets begin with: its tag, its value and what follows it. -/
def object (bs : Bytes) : Option (ℕ × Bytes × Bytes) := do
  let (tag, r) ← readTag bs
  let (n, r) ← readLen r
  if n ≤ r.length then return (tag, r.take n, r.drop n) else none

/-- The objects of octets. Every one takes octets away, so their number bounds that of the objects.
-/
def objectsFuel : ℕ → Bytes → List (ℕ × Bytes)
  | 0, _ => []
  | fuel + 1, bs =>
    match object bs with
    | none => []
    | some (tag, value, rest) => (tag, value) :: objectsFuel fuel rest

/-- The objects that octets consist of, one after the other. -/
def objects (bs : Bytes) : List (ℕ × Bytes) := objectsFuel bs.length bs

theorem readTag_tagBytes {t : ℕ} (h : IsTag t) (r : Bytes) :
    readTag (tagBytes t ++ r) = some (t, r) := by
  rcases h with ⟨h1, h2⟩ | ⟨h1, h2, h3⟩
  · have h0 : t / 256 = 0 := by omega
    have ht : (UInt8.ofNat t).toNat = t := UInt8.toNat_ofNat_of_lt h1
    simp [tagBytes, h0, readTag, ht, h2]
  · have h0 : t / 256 ≠ 0 := by omega
    have ht : (UInt8.ofNat (t / 256)).toNat = t / 256 :=
      UInt8.toNat_ofNat_of_lt (by simp only [UInt8.size]; omega)
    have ht' : (UInt8.ofNat t).toNat = t % 256 := UInt8.toNat_ofNat' ..
    simp only [tagBytes, h0, if_false, List.cons_append, List.nil_append, readTag, ht, h3, if_true,
      ht', Option.some.injEq, Prod.mk.injEq, and_true]
    omega

/-- A length that is counted in a word can be written. -/
theorem lt_pow_of_lt {n : ℕ} (h : n < 2 ^ 33) : n < 256 ^ 126 := Nat.lt_of_lt_of_le h (by decide)

theorem readLen_lenBytes {n : ℕ} (h : n < 256 ^ 126) (r : Bytes) :
    readLen (lenBytes n ++ r) = some (n, r) := by
  rw [lenBytes]
  split
  · rename_i hn
    have ht : (UInt8.ofNat n).toNat = n :=
      UInt8.toNat_ofNat_of_lt (by simp only [UInt8.size]; omega)
    simp [readLen, ht, hn]
  · have hb := byteLen_le (by omega) h
    have ht : (UInt8.ofNat (128 + byteLen n)).toNat = 128 + byteLen n :=
      UInt8.toNat_ofNat_of_lt (by simp only [UInt8.size]; omega)
    have hlen := length_beBytes (byteLen n) n
    have h0 : ¬ 128 + byteLen n < 128 := by omega
    simp only [List.cons_append, readLen, ht, h0, if_false, Nat.add_sub_cancel_left,
      List.length_append, hlen, Nat.le_add_right, if_true]
    rw [List.take_left' hlen, List.drop_left' hlen, ofBe_beBytes,
      Nat.mod_eq_of_lt (lt_pow_byteLen n), Nat.zero_mul, Nat.zero_add]

/-- Reading a tag takes bytes off the front. -/
theorem readTag_suffix {bs r : Bytes} {t : ℕ} (h : readTag bs = some (t, r)) :
    ∃ tagBytes, bs = tagBytes ++ r ∧ 0 < tagBytes.length := by
  match bs with
  | [] => cases h
  | [b] =>
    simp only [readTag] at h
    split_ifs at h
    cases h
    exact ⟨[b], rfl, Nat.one_pos⟩
  | b :: c :: bs =>
    simp only [readTag] at h
    split_ifs at h
    · cases h
      exact ⟨[b, c], rfl, Nat.succ_pos 1⟩
    · cases h
      exact ⟨[b], rfl, Nat.one_pos⟩

/-- Reading a length takes bytes off the front. -/
theorem readLen_suffix {bs r : Bytes} {n : ℕ} (h : readLen bs = some (n, r)) :
    ∃ lenBytes, bs = lenBytes ++ r ∧ 0 < lenBytes.length := by
  cases bs with
  | nil => cases h
  | cons b bs =>
    simp only [readLen] at h
    split_ifs at h
    · simp only [Option.some.injEq, Prod.mk.injEq] at h
      obtain ⟨-, rfl⟩ := h
      exact ⟨[b], rfl, Nat.one_pos⟩
    · simp only [Option.some.injEq, Prod.mk.injEq] at h
      obtain ⟨-, rfl⟩ := h
      refine ⟨b :: bs.take (b.toNat - 128), ?_, Nat.succ_pos _⟩
      rw [List.cons_append, List.take_append_drop]

theorem length_of_object {bs value rest : Bytes} {tag : ℕ}
    (h : object bs = some (tag, value, rest)) : rest.length < bs.length := by
  simp only [object, Option.bind_eq_bind, Option.bind_eq_some_iff] at h
  obtain ⟨⟨tag, r⟩, htag, ⟨n, r'⟩, hlen, h⟩ := h
  obtain ⟨tagBytes, rfl, hpos⟩ := readTag_suffix htag
  obtain ⟨lenBytes, rfl, -⟩ := readLen_suffix hlen
  split_ifs at h
  cases h
  simp only [List.length_append, List.length_drop]
  omega

theorem objectsFuel_of_le {fuel fuel' : ℕ} {bs : Bytes} (h : bs.length ≤ fuel)
    (h' : bs.length ≤ fuel') : objectsFuel fuel bs = objectsFuel fuel' bs := by
  have hnil : object [] = none := rfl
  induction fuel generalizing fuel' bs with
  | zero =>
    obtain rfl := List.length_eq_zero_iff.1 (Nat.le_zero.1 h)
    cases fuel' with
    | zero => rfl
    | succ fuel' => rw [objectsFuel, objectsFuel, hnil]
  | succ fuel ih =>
    cases fuel' with
    | zero =>
      obtain rfl := List.length_eq_zero_iff.1 (Nat.le_zero.1 h')
      rw [objectsFuel, objectsFuel, hnil]
    | succ fuel' =>
      rw [objectsFuel, objectsFuel]
      cases hobject : object bs with
      | none => rfl
      | some o =>
        have hlt := length_of_object hobject
        exact congrArg (_ :: ·) (ih (by omega) (by omega))

/-- **The first object**, and the objects of the rest. -/
theorem objects_of_object {bs value rest : Bytes} {tag : ℕ}
    (h : object bs = some (tag, value, rest)) : objects bs = (tag, value) :: objects rest := by
  have hlt := length_of_object h
  obtain ⟨n, hn⟩ := Nat.exists_eq_add_one_of_ne_zero (show bs.length ≠ 0 by omega)
  rw [objects, hn, objectsFuel, h]
  exact congrArg (_ :: ·) (objectsFuel_of_le (by omega) le_rfl)

theorem object_of {bs r value rest : Bytes} {tag : ℕ} (htag : readTag bs = some (tag, r))
    (hlen : readLen r = some (value.length, value ++ rest)) :
    object bs = some (tag, value, rest) := by
  simp only [object, htag, hlen, Option.bind_eq_bind, Option.bind_some, List.length_append,
    Nat.le_add_right, if_true, List.take_left, List.drop_left]
  rfl

theorem readLen_short {len : UInt8} {value rest : Bytes} (hlen : value.length = len.toNat)
    (hshort : len.toNat < 0x80) :
    readLen (len :: (value ++ rest)) = some (value.length, value ++ rest) := by
  rw [readLen, if_pos hshort, hlen]

/-- An object with a tag of one byte and a short length. -/
theorem object_short {t len : UInt8} {value rest : Bytes} (ht : t.toNat % 32 ≠ 31)
    (hlen : value.length = len.toNat) (hshort : len.toNat < 0x80) :
    object (t :: len :: (value ++ rest)) = some (t.toNat, value, rest) :=
  object_of (if_neg ht) (readLen_short hlen hshort)

/-- An object with a tag of two bytes and a short length. -/
theorem object_two {t u len : UInt8} {value rest : Bytes} (ht : t.toNat % 32 = 31)
    (hlen : value.length = len.toNat) (hshort : len.toNat < 0x80) :
    object (t :: u :: len :: (value ++ rest)) = some (t.toNat * 256 + u.toNat, value, rest) :=
  object_of (if_pos ht) (readLen_short hlen hshort)

theorem length_tagBytes_pos (t : ℕ) : 0 < (tagBytes t).length := by
  rw [tagBytes]; split <;> simp

theorem length_lenBytes_pos (n : ℕ) : 0 < (lenBytes n).length := by
  rw [lenBytes]; split <;> simp

/-- Lengths up to 65535 take at most three bytes. -/
theorem length_lenBytes_le_three {n : ℕ} (h : n < 65536) : (lenBytes n).length ≤ 3 := by
  have hle := byteLen_le (n := n) (k := 2) (by omega) (by omega)
  rw [lenBytes]
  split
  · simp
  · rw [List.length_cons, length_beBytes]
    omega

/-- Lengths from 256 to 65535 take three bytes. -/
theorem length_lenBytes_three {n : ℕ} (h : 256 ≤ n) (hlt : n < 65536) :
    (lenBytes n).length = 3 := by
  have hle := byteLen_le (n := n) (k := 2) (by omega) (by omega)
  have hpos : 0 < byteLen n := Nat.succ_pos _
  have hne : byteLen n ≠ 1 := by
    intro hone
    have := lt_pow_byteLen n
    rw [hone] at this
    omega
  rw [lenBytes, if_neg (by omega), List.length_cons, length_beBytes]
  omega

theorem lenBytes_ne_nil (n : ℕ) : lenBytes n ≠ [] := by
  rw [lenBytes]; split <;> simp

theorem lenBytes_append_ne_nil (n : ℕ) (r : Bytes) : lenBytes n ++ r ≠ [] :=
  List.append_ne_nil_of_left_ne_nil (lenBytes_ne_nil n) r

theorem length_tlv (t : ℕ) (v : Bytes) :
    (tlv t v).length = (tagBytes t).length + (lenBytes v.length).length + v.length := by
  simp [tlv, Nat.add_assoc]

/-- A short object with a one-byte tag. -/
theorem tlv_short {t : ℕ} (ht : t < 256) {v : Bytes} (hv : v.length < 0x80) :
    tlv t v = UInt8.ofNat t :: UInt8.ofNat v.length :: v := by
  rw [tlv, tagBytes, if_pos (Nat.div_eq_of_lt ht), lenBytes, if_pos hv]
  rfl

/-- The header of an object takes at most seven bytes. -/
theorem length_tlv_le (t : ℕ) {v : Bytes} (hv : v.length < 2 ^ 32) :
    (tlv t v).length ≤ v.length + 7 := by
  have ht : (tagBytes t).length ≤ 2 := by rw [tagBytes]; split <;> simp
  have hl : (lenBytes v.length).length ≤ 5 := by
    have := byteLen_le (n := v.length) (k := 4) (by omega) (by omega)
    rw [lenBytes]
    split <;> simp only [List.length_cons, List.length_nil, length_beBytes] <;> omega
  rw [length_tlv]
  omega

/-! ## Several objects -/

/-- Data objects one after the other. -/
def tlvs (objs : List (ℕ × Bytes)) : Bytes := objs.flatMap fun x => tlv x.1 x.2

@[simp] theorem tlvs_nil : tlvs [] = [] := rfl

@[simp] theorem tlvs_cons (x : ℕ × Bytes) (objs : List (ℕ × Bytes)) :
    tlvs (x :: objs) = tlv x.1 x.2 ++ tlvs objs := rfl

@[simp] theorem tlvs_append (xs ys : List (ℕ × Bytes)) : tlvs (xs ++ ys) = tlvs xs ++ tlvs ys :=
  List.flatMap_append

/-- **An encoded object** is read back. -/
theorem object_tlv {tag : ℕ} (ht : IsTag tag) {value : Bytes} (hv : value.length < 256 ^ 126)
    (rest : Bytes) : object (tlv tag value ++ rest) = some (tag, value, rest) := by
  have htag : readTag (tlv tag value ++ rest) =
      some (tag, lenBytes value.length ++ (value ++ rest)) := by
    rw [tlv, List.append_assoc, List.append_assoc, readTag_tagBytes ht]
  exact object_of htag (readLen_lenBytes hv (value ++ rest))

theorem length_le_tlvs {objs : List (ℕ × Bytes)} {x : ℕ × Bytes} (hx : x ∈ objs) :
    x.2.length ≤ (tlvs objs).length := by
  obtain ⟨pre, post, rfl⟩ := List.append_of_mem hx
  simp only [tlvs_append, tlvs_cons, List.length_append, length_tlv]
  omega

theorem length_objs_le_tlvs (objs : List (ℕ × Bytes)) : objs.length ≤ (tlvs objs).length := by
  induction objs with
  | nil => exact Nat.zero_le _
  | cons x objs ih =>
    have := length_tagBytes_pos x.1
    simp only [tlvs_cons, List.length_append, List.length_cons, length_tlv]
    omega

/-- An object is told apart from what follows it. -/
theorem tlv_append_inj {t t' : ℕ} {v v' r r' : Bytes} (ht : IsTag t) (ht' : IsTag t')
    (hv : v.length < 256 ^ 126) (hv' : v'.length < 256 ^ 126)
    (h : tlv t v ++ r = tlv t' v' ++ r') : t = t' ∧ v = v' ∧ r = r' := by
  simp only [tlv, List.append_assoc] at h
  have htag := readTag_tagBytes ht (lenBytes v.length ++ (v ++ r))
  rw [h, readTag_tagBytes ht', Option.some.injEq, Prod.mk.injEq] at htag
  obtain ⟨rfl, hrest⟩ := htag
  have hlen := readLen_lenBytes hv (v ++ r)
  rw [← hrest, readLen_lenBytes hv', Option.some.injEq, Prod.mk.injEq] at hlen
  obtain ⟨hlength, hvalue⟩ := hlen
  obtain ⟨hvv, hrr⟩ := List.append_inj hvalue hlength
  exact ⟨rfl, hvv.symm, hrr.symm⟩

/-- Objects are determined by their bytes. -/
theorem tlvs_inj {xs ys : List (ℕ × Bytes)} (hxs : ∀ x ∈ xs, IsTag x.1) (hys : ∀ y ∈ ys, IsTag y.1)
    (hlen : (tlvs xs).length < 256 ^ 126) (h : tlvs xs = tlvs ys) : xs = ys := by
  induction xs generalizing ys with
  | nil =>
    cases ys with
    | nil => rfl
    | cons y ys =>
      have := length_objs_le_tlvs (y :: ys)
      rw [← h] at this
      cases this
  | cons x xs ih =>
    cases ys with
    | nil =>
      have := length_objs_le_tlvs (x :: xs)
      rw [h] at this
      cases this
    | cons y ys =>
      have hx := length_le_tlvs (List.mem_cons_self (a := x) (l := xs))
      have hy := length_le_tlvs (List.mem_cons_self (a := y) (l := ys))
      have hrest : (tlvs xs).length ≤ (tlvs (x :: xs)).length := by
        rw [tlvs_cons, List.length_append]
        omega
      rw [← h] at hy
      obtain ⟨ht, hv, hr⟩ := tlv_append_inj (hxs x List.mem_cons_self) (hys y List.mem_cons_self)
        (by omega) (by omega) h
      rw [Prod.ext ht hv, ih (fun z hz => hxs z (List.mem_cons_of_mem x hz))
        (fun z hz => hys z (List.mem_cons_of_mem y hz)) (by omega) hr]

/-! ## An encoder -/

/-- The number of bytes of a length, by shifting it until it is zero; the first argument bounds
the rounds. -/
def lengthLen : ℕ → ℕ → ℕ
  | 0, _ => 0
  | fuel + 1, n => if n = 0 then 0 else lengthLen fuel (n / 256) + 1

/-- A data object as a program writes it: the tag in one or two bytes, the length in the short form
or behind the number of its bytes. -/
def encode (tag : ℕ) (value : Bytes) : Bytes :=
  (if tag / 256 ≠ 0 then [UInt8.ofNat (tag / 256)] else []) ++ [UInt8.ofNat tag] ++
    (if value.length < 0x80 then [UInt8.ofNat value.length]
     else
      let lengthlen := lengthLen value.length value.length
      UInt8.ofNat (0x80 + lengthlen) :: beBytes lengthlen value.length) ++
    value

theorem lengthLen_eq {fuel n : ℕ} (hn : 0 < n) (hf : n ≤ fuel) : lengthLen fuel n = byteLen n := by
  induction fuel generalizing n with
  | zero => omega
  | succ fuel ih =>
    rw [lengthLen, if_neg (by omega)]
    by_cases h : n < 256
    · rw [Nat.div_eq_of_lt h]
      have : lengthLen fuel 0 = 0 := by cases fuel <;> rfl
      have := (Nat.log2_lt (k := 8) (by omega)).2 h
      rw [byteLen]
      omega
    · have hlog : n.log2 = (n / 256).log2 + 8 := by
        have h0 : n / 256 ≠ 0 := by omega
        refine (Nat.log2_eq_iff (by omega)).2 ⟨?_, ?_⟩
        · have := Nat.log2_self_le h0
          rw [Nat.pow_add]
          omega
        · have := Nat.lt_log2_self (n := n / 256)
          rw [show (n / 256).log2 + 8 + 1 = (n / 256).log2 + 1 + 8 by omega, Nat.pow_add]
          omega
      rw [ih (by omega) (by omega), byteLen, byteLen, hlog]
      omega

/-- **The encoder** writes the data object. -/
theorem encode_eq (tag : ℕ) (value : Bytes) : encode tag value = tlv tag value := by
  have hlen : (if value.length < 0x80 then [UInt8.ofNat value.length]
      else UInt8.ofNat (0x80 + lengthLen value.length value.length) ::
        beBytes (lengthLen value.length value.length) value.length) =
      lenBytes value.length := by
    rw [lenBytes]
    split
    · rfl
    · rw [lengthLen_eq (by omega) le_rfl]
  have htag : (if tag / 256 ≠ 0 then [UInt8.ofNat (tag / 256)] else []) ++ [UInt8.ofNat tag] =
      tagBytes tag := by
    rw [tagBytes]
    by_cases h : tag / 256 = 0 <;> simp [h]
  rw [encode, tlv]
  simp only [hlen, htag]

end VirtualRsp.Der
