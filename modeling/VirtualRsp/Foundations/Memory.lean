import Mathlib.Algebra.Group.Nat.Defs
import Mathlib.Data.List.Basic
import Mathlib.Data.List.TakeWhile

/-!
# Bounded memory

What the C functions do with bytes, with the accesses that C leaves undefined as faults (`none`).

* A read pointer is the list of the bytes that can be read from it on, so `p++` is `p.drop 1`;
  `readAt` and `readN` fault past the end of that list.
* `put` appends to a buffer of fixed size and faults on an overrun; `store` writes at an offset of a
  block, and `emit` at a pointer that it moves on.
* A `GrowBuf` is a `malloc`ed buffer with a 32-bit capacity that is enlarged by `realloc` when an
  append does not fit; the computation of the new capacity can wrap, and then the copy faults.
* `sub32` is the subtraction of unsigned 32-bit integers, and `cstr` the text of a C string.
-/

namespace VirtualRsp

/-- Bytes as a program sees them. -/
abbrev Bytes := List UInt8

/-- The bytes of a text constant. -/
def ascii (s : String) : Bytes := s.toList.map fun c => UInt8.ofNat c.toNat

/-- Subtraction of `uint32_t`: below zero it wraps. -/
def sub32 (a b : ℕ) : ℕ := if b ≤ a then a - b else a + 2 ^ 32 - b

theorem sub32_of_le {a b : ℕ} (h : b ≤ a) : sub32 a b = a - b := if_pos h

/-- The characters of a C string: up to the first NUL. -/
def cstr (buf : Bytes) : Bytes := buf.takeWhile (· ≠ 0)

theorem cstr_eq_self {buf : Bytes} (h : 0 ∉ buf) : cstr buf = buf :=
  List.takeWhile_eq_self_iff.2 fun b hb => by
    simpa using fun e : b = 0 => h (e ▸ hb)

theorem zero_notMem_cstr (buf : Bytes) : 0 ∉ cstr buf := fun h => by
  simpa using List.mem_takeWhile_imp h

/-! ## Reading -/

/-- The byte at offset `i`. -/
def readAt (p : Bytes) (i : ℕ) : Option ℕ := p[i]?.map UInt8.toNat

/-- `memcpy` of `n` bytes from `p`. -/
def readN (p : Bytes) (n : ℕ) : Option Bytes := if n ≤ p.length then some (p.take n) else none

theorem readN_append {xs p : Bytes} {n : ℕ} (h : xs.length = n) : readN (xs ++ p) n = some xs := by
  subst h
  simp [readN]

theorem readN_eq_some {p xs : Bytes} {n : ℕ} (h : readN p n = some xs) :
    xs = p.take n ∧ xs.length = n := by
  rw [readN] at h
  split at h
  · cases h
    exact ⟨rfl, by rw [List.length_take]; omega⟩
  · cases h

@[simp] theorem readAt_cons_zero (b : UInt8) (p : Bytes) : readAt (b :: p) 0 = some b.toNat := rfl

@[simp] theorem readAt_cons_succ (b : UInt8) (p : Bytes) (i : ℕ) :
    readAt (b :: p) (i + 1) = readAt p i := rfl

theorem readAt_append_left {p : Bytes} {i : ℕ} (h : i < p.length) (q : Bytes) :
    readAt (p ++ q) i = readAt p i := by
  rw [readAt, readAt, List.getElem?_append_left h]

theorem readAt_append_right {p : Bytes} {i : ℕ} (h : p.length ≤ i) (q : Bytes) :
    readAt (p ++ q) i = readAt q (i - p.length) := by
  rw [readAt, readAt, List.getElem?_append_right h]

/-! ## Writing -/

/-- Append to a buffer of `cap` bytes. -/
def put (cap : ℕ) (buf xs : Bytes) : Option Bytes :=
  if buf.length + xs.length ≤ cap then some (buf ++ xs) else none

theorem put_eq_some {cap : ℕ} {buf xs out : Bytes} :
    put cap buf xs = some out ↔ buf.length + xs.length ≤ cap ∧ out = buf ++ xs := by
  rw [put]
  split
  · simp [*, eq_comm]
  · simp [*]

/-- Append several pieces, one after the other. -/
def puts (cap : ℕ) (buf : Bytes) (pieces : List Bytes) : Option Bytes :=
  pieces.foldlM (put cap) buf

theorem puts_eq_some {cap : ℕ} {buf out : Bytes} {pieces : List Bytes}
    (h : puts cap buf pieces = some out) : out = buf ++ pieces.flatten := by
  induction pieces generalizing buf with
  | nil => simpa [puts, eq_comm] using h
  | cons x pieces ih =>
    simp only [puts, List.foldlM_cons, Option.bind_eq_bind, Option.bind_eq_some_iff] at h
    obtain ⟨mid, hmid, h⟩ := h
    obtain ⟨-, rfl⟩ := put_eq_some.1 hmid
    simpa using ih h

theorem length_puts_le {cap : ℕ} {buf out : Bytes} {pieces : List Bytes} (hb : buf.length ≤ cap)
    (h : puts cap buf pieces = some out) : out.length ≤ cap := by
  induction pieces generalizing buf with
  | nil =>
    simp only [puts, List.foldlM_nil, Option.pure_def, Option.some.injEq] at h
    exact h ▸ hb
  | cons x pieces ih =>
    simp only [puts, List.foldlM_cons, Option.bind_eq_bind, Option.bind_eq_some_iff] at h
    obtain ⟨mid, hmid, h⟩ := h
    obtain ⟨hle, rfl⟩ := put_eq_some.1 hmid
    exact ih (by rw [List.length_append]; exact hle) h

theorem puts_of_le {cap : ℕ} {buf : Bytes} {pieces : List Bytes}
    (h : buf.length + pieces.flatten.length ≤ cap) :
    puts cap buf pieces = some (buf ++ pieces.flatten) := by
  induction pieces generalizing buf with
  | nil => simp [puts]
  | cons x pieces ih =>
    simp only [List.flatten_cons, List.length_append] at h
    have hx : put cap buf x = some (buf ++ x) := put_eq_some.2 ⟨by omega, rfl⟩
    have := @ih (buf ++ x) (by simp only [List.length_append]; omega)
    simpa [puts, hx] using this

/-- Write at an offset of a block of memory. -/
def store (block : Bytes) (offset : ℕ) (xs : Bytes) : Option Bytes :=
  if offset + xs.length ≤ block.length then
    some (block.take offset ++ xs ++ block.drop (offset + xs.length))
  else none

theorem store_nil {block : Bytes} {offset : ℕ} (h : offset ≤ block.length) :
    store block offset [] = some block := by
  simp [store, h]

/-- Writing over a part of a block. -/
theorem store_over {before old rest xs : Bytes} {offset : ℕ} (hoffset : before.length = offset)
    (hlen : xs.length = old.length) :
    store (before ++ old ++ rest) offset xs = some (before ++ xs ++ rest) := by
  subst hoffset
  have hdrop : (before ++ old ++ rest).drop (before.length + xs.length) = rest := by
    rw [hlen, ← List.length_append, List.drop_left]
  rw [store, if_pos, hdrop, List.append_assoc before old, List.take_left]
  simp only [List.length_append]
  omega

/-- Writing in two parts. -/
theorem store_append (block : Bytes) (offset : ℕ) (xs ys : Bytes) :
    store block offset (xs ++ ys) =
      (store block offset xs).bind fun block => store block (offset + xs.length) ys := by
  unfold store
  rw [List.length_append]
  by_cases hx : offset + xs.length ≤ block.length
  · have hlen : (block.take offset ++ xs ++ block.drop (offset + xs.length)).length =
        block.length := by
      simp only [List.length_append, List.length_take, List.length_drop]
      omega
    have hoff : (block.take offset ++ xs).length = offset + xs.length := by
      simp only [List.length_append, List.length_take]
      omega
    rw [if_pos hx, Option.bind_some, hlen, Nat.add_assoc]
    by_cases hy : offset + (xs.length + ys.length) ≤ block.length
    · have hdrop : (block.take offset ++ xs ++ block.drop (offset + xs.length)).drop
          (offset + (xs.length + ys.length)) = block.drop (offset + (xs.length + ys.length)) := by
        rw [← Nat.add_assoc, ← List.drop_drop, List.drop_left' hoff, List.drop_drop]
      rw [if_pos hy, if_pos hy, List.take_left' hoff, hdrop]
      simp only [List.append_assoc]
    · rw [if_neg hy, if_neg hy]
  · rw [if_neg hx, if_neg (by omega), Option.bind_none]

theorem length_of_store {block block' xs : Bytes} {offset : ℕ}
    (h : store block offset xs = some block') : block'.length = block.length := by
  rw [store] at h
  split at h
  · cases h
    simp only [List.length_append, List.length_take, List.length_drop]
    omega
  · cases h

theorem store_le {block block' xs : Bytes} {offset : ℕ}
    (h : store block offset xs = some block') : offset + xs.length ≤ block'.length := by
  have hlen := length_of_store h
  rw [store] at h
  split at h
  · rwa [hlen]
  · cases h

/-- `memset` at an offset of a block. -/
def memset (block : Bytes) (offset : ℕ) (c : UInt8) (n : ℕ) : Option Bytes :=
  if offset + n ≤ block.length then
    some (block.take offset ++ List.replicate n c ++ block.drop (offset + n))
  else none

theorem memset_eq_store (block : Bytes) (offset : ℕ) (c : UInt8) (n : ℕ) :
    memset block offset c n = store block offset (List.replicate n c) := by
  rw [memset, store, List.length_replicate]

/-- Write at a pointer and move it on. -/
def emit (s : Bytes × ℕ) (xs : Bytes) : Option (Bytes × ℕ) :=
  (store s.1 s.2 xs).map fun block => (block, s.2 + xs.length)

theorem emit_append (s : Bytes × ℕ) (xs ys : Bytes) :
    emit s (xs ++ ys) = (emit s xs).bind fun s => emit s ys := by
  simp only [emit, store_append]
  cases store s.1 s.2 xs with
  | none => rfl
  | some block => simp [Nat.add_assoc]

theorem emit_nil {s : Bytes × ℕ} (h : s.2 ≤ s.1.length) : emit s [] = some s := by
  simp [emit, store_nil h]

theorem emit_le {s s' : Bytes × ℕ} {xs : Bytes} (h : emit s xs = some s') :
    s'.2 ≤ s'.1.length := by
  rw [emit, Option.map_eq_some_iff] at h
  obtain ⟨block, h, rfl⟩ := h
  exact store_le h

theorem emit_cons (s : Bytes × ℕ) (b : UInt8) (xs : Bytes) :
    emit s (b :: xs) = (emit s [b]).bind fun s => emit s xs :=
  emit_append s [b] xs

/-- Writing as many bytes as a block has. -/
theorem emit_full {block xs : Bytes} (h : block.length = xs.length) :
    emit (block, 0) xs = some (xs, xs.length) := by
  simp [emit, store, h]

theorem store_of_emit (buffer : Bytes) (ptr : ℕ) (xs : Bytes) :
    (emit (buffer, ptr) xs).bind (fun s => some s.1) = store buffer ptr xs := by
  rw [emit]
  cases store buffer ptr xs <;> rfl

/-- A buffer on the heap, which never holds more than the 32-bit size it was allocated with. -/
structure GrowBuf where
  data : Bytes
  capacity : ℕ
  fits : data.length ≤ capacity
  capacity_lt : capacity < 2 ^ 32
  deriving DecidableEq

namespace GrowBuf

/-- No buffer allocated. -/
def null : GrowBuf := ⟨[], 0, le_rfl, by decide⟩

/-- The capacity after making room for `xs`: the old one if it suffices, else what `realloc` is
asked for. -/
def newCapacity (grow : ℕ → ℕ) (b : GrowBuf) (xs : Bytes) : ℕ :=
  let required := (b.data.length + xs.length) % 2 ^ 32
  if b.capacity < required then grow required % 2 ^ 32 else b.capacity

theorem newCapacity_lt (grow : ℕ → ℕ) (b : GrowBuf) (xs : Bytes) :
    b.newCapacity grow xs < 2 ^ 32 := by
  dsimp only [newCapacity]
  split
  · exact Nat.mod_lt _ (by decide)
  · exact b.capacity_lt

/-- Append `xs`; the copy faults when the computation of the new capacity has wrapped. -/
def append (grow : ℕ → ℕ) (b : GrowBuf) (xs : Bytes) : Option GrowBuf :=
  if h : b.data.length + xs.length ≤ b.newCapacity grow xs then
    some ⟨b.data ++ xs, b.newCapacity grow xs, by simpa using h, b.newCapacity_lt grow xs⟩
  else none

@[simp] theorem null_data : null.data = [] := rfl

theorem append_data {grow : ℕ → ℕ} {b b' : GrowBuf} {xs : Bytes}
    (h : b.append grow xs = some b') : b'.data = b.data ++ xs := by
  rw [append] at h
  split at h
  · cases h
    rfl
  · cases h

/-- Appending nothing changes nothing. -/
theorem append_nil (grow : ℕ → ℕ) (b : GrowBuf) : b.append grow [] = some b := by
  have hb := b.fits
  have hlt := b.capacity_lt
  have hc : b.newCapacity grow [] = b.capacity := by
    rw [newCapacity, List.length_nil, Nat.add_zero, Nat.mod_eq_of_lt (by omega),
      if_neg (by omega)]
  rw [append, dif_pos (by rw [hc]; simpa using hb)]
  simp only [hc, List.append_nil]

end GrowBuf

end VirtualRsp
