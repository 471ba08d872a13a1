import VirtualRsp.Foundations.Program

/-!
# Reading memory with a pointer and a count

A C parser is given an address and a number of bytes. It keeps a pointer to the next byte and counts
down how many are left (`Cursor`). A read outside of the bytes that it was given is a fault, and so
is a count that would go below zero, which an unsigned number does not.

`Reads` relates such a program to a function on the list of the bytes that are left: without faults
it computes the same, and its cursor stays where the function is in the list (`Cursor.At`). The rule
for sequencing is `Reads.bind`.
-/

namespace VirtualRsp

/-- An address and a number of bytes there. -/
structure Slice where
  memory : Bytes
  ptr : ℕ
  len : ℕ

/-- Bytes that can be read, as many as 32 bits count. -/
structure Buffer extends Slice where
  fits : ptr + len ≤ memory.length
  len_lt : len < 2 ^ 32

namespace Slice

/-- The bytes of a slice. -/
def bytes (s : Slice) : Bytes := (s.memory.drop s.ptr).take s.len

/-- Read a byte of a slice. -/
def read (s : Slice) (p : ℕ) : Option UInt8 :=
  if s.ptr ≤ p ∧ p < s.ptr + s.len then s.memory[p]? else none

/-- The bytes of a part of a slice. -/
theorem bytes_part (s : Slice) {offset len : ℕ} (h : offset + len ≤ s.len) :
    (⟨s.memory, s.ptr + offset, len⟩ : Slice).bytes = (s.bytes.drop offset).take len := by
  have hmin : min len (s.len - offset) = len := by omega
  rw [bytes, bytes, List.drop_take, List.drop_drop, List.take_take, hmin]

end Slice

theorem Buffer.length_bytes (b : Buffer) : b.bytes.length = b.len := by
  have := b.fits
  rw [Slice.bytes, List.length_take, List.length_drop]
  omega

/-- The pointer to the next byte, and how many bytes are left. -/
structure Cursor where
  cptr : ℕ
  rlen : ℕ

namespace Cursor

/-- The cursor at the start of a slice. -/
def start (s : Slice) : Cursor := ⟨s.ptr, s.len⟩

/-- An error if less than `n` bytes are left. -/
def require (n : ℕ) : Program Cursor Unit := fun c =>
  some (c, if c.rlen < n then none else some ())

/-- The next byte: `*cptr`, then `cptr++` and `rlen--`. -/
def next (s : Slice) : Program Cursor UInt8 := fun c =>
  if c.rlen = 0 then none
  else (s.read c.cptr).map fun b => (⟨c.cptr + 1, c.rlen - 1⟩, some b)

/-- The cursor stands in the slice, with the bytes `xs` left. -/
def At (s : Slice) (c : Cursor) (xs : Bytes) : Prop :=
  s.ptr ≤ c.cptr ∧ c.cptr + c.rlen = s.ptr + s.len ∧ c.rlen = xs.length ∧
    ∃ after, s.memory.drop c.cptr = xs ++ after

theorem at_start (b : Buffer) : (start b.toSlice).At b.toSlice b.bytes :=
  ⟨le_rfl, rfl, b.length_bytes.symm, _, (List.take_append_drop _ _).symm⟩

theorem At.next {s : Slice} {c : Cursor} {b : UInt8} {xs : Bytes} (h : c.At s (b :: xs)) :
    Cursor.next s c = some (⟨c.cptr + 1, c.rlen - 1⟩, some b) ∧
      At s ⟨c.cptr + 1, c.rlen - 1⟩ xs := by
  obtain ⟨hptr, hend, hlen, after, hafter⟩ := h
  rw [List.length_cons] at hlen
  have hbyte : s.memory[c.cptr]? = some b := by
    have hget := congrArg (fun l => l[0]?) hafter
    rwa [List.getElem?_drop, Nat.add_zero] at hget
  refine ⟨?_, ?_, ?_, ?_, after, ?_⟩
  · rw [Cursor.next, if_neg (by omega), Slice.read, if_pos (by omega), hbyte]
    rfl
  · exact Nat.le_succ_of_le hptr
  · change c.cptr + 1 + (c.rlen - 1) = s.ptr + s.len
    omega
  · change c.rlen - 1 = xs.length
    omega
  · change s.memory.drop (c.cptr + 1) = xs ++ after
    rw [← List.drop_drop, hafter]
    rfl

end Cursor

open Cursor

variable {α β : Type}

/-- On the bytes that are left, the program computes the function; it has no faults. -/
def Reads (s : Slice) (p : Program Cursor α) (f : Bytes → Option (α × Bytes)) : Prop :=
  ∀ c xs, c.At s xs →
    ∃ c', p c = some (c', (f xs).map Prod.fst) ∧ ∀ r, f xs = some r → c'.At s r.2

namespace Reads

variable {s : Slice}

theorem pure (a : α) : Reads s (Pure.pure a) fun xs => some (a, xs) := by
  intro c xs h
  refine ⟨c, rfl, ?_⟩
  rintro _ ⟨⟩
  exact h

/-- **Sequencing**. -/
theorem bind {p : Program Cursor α} {q : α → Program Cursor β} {f : Bytes → Option (α × Bytes)}
    {g : α → Bytes → Option (β × Bytes)} (hp : Reads s p f) (hq : ∀ a, Reads s (q a) (g a)) :
    Reads s (p >>= q) fun xs => (f xs).bind fun r => g r.1 r.2 := by
  intro c xs h
  obtain ⟨c', hc', hat⟩ := hp c xs h
  dsimp only
  cases hf : f xs with
  | none =>
    rw [hf] at hc'
    refine ⟨c', Program.bind_of_fails hc', ?_⟩
    rintro _ ⟨⟩
  | some r =>
    rw [hf] at hc'
    rw [Program.bind_of_returns hc', Option.bind_some]
    exact hq r.1 c' r.2 (hat r hf)

/-- Two functions with the same results. -/
theorem congr {p : Program Cursor α} {f g : Bytes → Option (α × Bytes)} (h : Reads s p f)
    (hfg : ∀ xs, f xs = g xs) : Reads s p g := by
  rwa [← funext hfg]

theorem ite {p q : Program Cursor α} {f g : Bytes → Option (α × Bytes)} {b : Prop} [Decidable b]
    (hp : Reads s p f) (hq : Reads s q g) :
    Reads s (if b then p else q) fun xs => if b then f xs else g xs := by
  by_cases hb : b
  · simp only [if_pos hb]
    exact hp
  · simp only [if_neg hb]
    exact hq

theorem require (n : ℕ) :
    Reads s (Cursor.require n) fun xs => if xs.length < n then none else some ((), xs) := by
  intro c xs h
  dsimp only
  refine ⟨c, ?_, ?_⟩
  · rw [Cursor.require, h.2.2.1]
    split <;> rfl
  · intro r hr
    split at hr
    · cases hr
    · cases hr
      exact h

/-- Reading a byte that is there. -/
theorem byte {q : UInt8 → Program Cursor β} {g : UInt8 → Bytes → Option (β × Bytes)}
    (hq : ∀ b, Reads s (q b) (g b)) :
    Reads s (do Cursor.require 1; q (← Cursor.next s)) fun
      | [] => none
      | b :: xs => g b xs := by
  intro c xs h
  cases xs with
  | nil =>
    have hstop : Cursor.require 1 c = some (c, none) := by
      rw [Cursor.require, h.2.2.1, List.length_nil, if_pos Nat.one_pos]
    refine ⟨c, Program.bind_of_fails hstop, ?_⟩
    rintro _ ⟨⟩
  | cons b xs =>
    have hgo : Cursor.require 1 c = some (c, some ()) := by
      rw [Cursor.require, h.2.2.1, if_neg (by simp)]
    obtain ⟨hnext, hat⟩ := h.next
    rw [Program.bind_of_returns hgo, Program.bind_of_returns hnext]
    exact hq b _ xs hat

end Reads

end VirtualRsp
