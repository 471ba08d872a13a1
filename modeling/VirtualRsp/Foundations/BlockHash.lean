import Mathlib.Data.List.Basic

/-!
# Hash functions that take blocks

A text is cut into blocks of `size` elements, and a compression function takes one block after the
other into a state (`chain`). What is behind the last full block is the rest of the text (`rest`).

* `chain_append_of_lt`, `chain_append_of_eq`: what more elements do to the state and to the rest,
  which is what a program that keeps the rest in a buffer does;
* `padding`: a marker, zeros, and a field up to the end of a block. It takes the rest to one block
  (`chain_padding_of_le`) or to two (`chain_padding_of_lt`).
-/

namespace VirtualRsp.BlockHash

variable {β σ : Type*}

/-- The block of a text with number `i`. -/
def block (size : ℕ) (xs : List β) (i : ℕ) : List β := (xs.drop (i * size)).take size

/-- The state behind the first blocks of a text. -/
def iterate (compress : σ → List β → σ) (size : ℕ) (s : σ) (xs : List β) : ℕ → σ
  | 0 => s
  | n + 1 => compress (iterate compress size s xs n) (block size xs n)

/-- The state behind all full blocks. -/
def chain (compress : σ → List β → σ) (size : ℕ) (s : σ) (xs : List β) : σ :=
  iterate compress size s xs (xs.length / size)

/-- What is behind the last full block. -/
def rest (size : ℕ) (xs : List β) : List β := xs.drop (xs.length / size * size)

variable {compress : σ → List β → σ} {size : ℕ} {s : σ}

theorem length_rest (xs : List β) : (rest size xs).length = xs.length % size := by
  have := Nat.div_add_mod' xs.length size
  rw [rest, List.length_drop]
  omega

theorem length_rest_lt (hsize : 0 < size) (xs : List β) : (rest size xs).length < size := by
  rw [length_rest]
  exact Nat.mod_lt _ hsize

@[simp] theorem chain_nil : chain compress size s [] = s := by
  simp [chain, iterate]

@[simp] theorem rest_nil : rest size ([] : List β) = [] := by
  simp [rest]

/-- A block is not changed by what is behind it. -/
theorem block_append {xs : List β} {i : ℕ} (h : (i + 1) * size ≤ xs.length) (ys : List β) :
    block size (xs ++ ys) i = block size xs i := by
  rw [Nat.add_mul, Nat.one_mul] at h
  rw [block, block, List.drop_append_of_le_length (by omega),
    List.take_append_of_le_length (by rw [List.length_drop]; omega)]

theorem iterate_append {xs : List β} {n : ℕ} (h : n * size ≤ xs.length) (ys : List β) :
    iterate compress size s (xs ++ ys) n = iterate compress size s xs n := by
  induction n with
  | zero => rfl
  | succ n ih =>
    have hn : n * size ≤ xs.length := Nat.le_trans (Nat.mul_le_mul_right size n.le_succ) h
    rw [iterate, iterate, ih hn, block_append h]

/-- The rest, with more elements behind it, is what is behind the full blocks. -/
theorem drop_append (xs ys : List β) :
    (xs ++ ys).drop (xs.length / size * size) = rest size xs ++ ys :=
  List.drop_append_of_le_length (Nat.div_mul_le_self _ _)

/-- **More elements that do not fill a block** leave the state as it is, and the rest grows. -/
theorem chain_append_of_lt (compress : σ → List β → σ) (s : σ) {xs ys : List β}
    (h : (rest size xs ++ ys).length < size) :
    chain compress size s (xs ++ ys) = chain compress size s xs ∧
      rest size (xs ++ ys) = rest size xs ++ ys := by
  have hsize : 0 < size := by omega
  rw [List.length_append, length_rest] at h
  have hdiv : (xs ++ ys).length / size = xs.length / size := by
    have := Nat.div_add_mod' xs.length size
    rw [List.length_append, Nat.div_eq_iff hsize]
    omega
  refine ⟨?_, ?_⟩
  · rw [chain, chain, hdiv, iterate_append (Nat.div_mul_le_self _ _)]
  · rw [rest, hdiv, drop_append]

/-- **More elements that fill a block** are compressed together with the rest. -/
theorem chain_append_of_eq (compress : σ → List β → σ) (s : σ) {xs ys : List β} (hsize : 0 < size)
    (h : (rest size xs ++ ys).length = size) :
    chain compress size s (xs ++ ys) =
        compress (chain compress size s xs) (rest size xs ++ ys) ∧
      rest size (xs ++ ys) = [] := by
  have hlength := h
  rw [List.length_append, length_rest] at hlength
  have hdiv : (xs ++ ys).length / size = xs.length / size + 1 := by
    have := Nat.div_add_mod' xs.length size
    rw [List.length_append, Nat.div_eq_iff hsize, Nat.add_mul]
    omega
  refine ⟨?_, ?_⟩
  · rw [chain, chain, hdiv, iterate, iterate_append (Nat.div_mul_le_self _ _), block, drop_append,
      List.take_of_length_le (Nat.le_of_eq h)]
  · apply List.eq_nil_of_length_eq_zero
    have := Nat.div_add_mod' xs.length size
    rw [rest, List.length_drop, hdiv, Nat.add_mul, List.length_append]
    omega

/-! ## Padding -/

/-- What is put behind a text of `n` elements: a marker, zeros, and a field that ends a block. -/
def padding (size : ℕ) (marker zero : β) (field : List β) (n : ℕ) : List β :=
  marker :: (List.replicate ((2 * size - 1 - field.length - n % size) % size) zero ++ field)

variable {xs field : List β} (marker zero : β)

/-- The padding is in the block of the rest if there is room for it. -/
theorem chain_padding_of_le (h : (rest size xs).length + 1 + field.length ≤ size) :
    chain compress size s (xs ++ padding size marker zero field xs.length) =
      compress (chain compress size s xs) (rest size xs ++ marker ::
        (List.replicate (size - field.length - (rest size xs).length - 1) zero ++ field)) := by
  have hzeros : (2 * size - 1 - field.length - xs.length % size) % size =
      size - field.length - (rest size xs).length - 1 := by
    have hsplit : 2 * size - 1 - field.length - xs.length % size =
        size - field.length - (rest size xs).length - 1 + size := by
      rw [← length_rest]
      omega
    rw [hsplit, Nat.add_mod_right, Nat.mod_eq_of_lt (by omega)]
  rw [padding, hzeros]
  refine (chain_append_of_eq _ _ (by omega) ?_).1
  simp only [List.length_append, List.length_cons, List.length_replicate]
  omega

/-- Otherwise the marker and some zeros fill the block of the rest, and the field is in a second
one. -/
theorem chain_padding_of_lt (hsize : 0 < size) (hfield : field.length ≤ size)
    (h : size < (rest size xs).length + 1 + field.length) :
    chain compress size s (xs ++ padding size marker zero field xs.length) =
      compress (compress (chain compress size s xs) (rest size xs ++ marker ::
          List.replicate (size - (rest size xs).length - 1) zero))
        (List.replicate (size - field.length) zero ++ field) := by
  have hrest := length_rest_lt hsize xs
  have hzeros : (2 * size - 1 - field.length - xs.length % size) % size =
      (size - (rest size xs).length - 1) + (size - field.length) := by
    rw [← length_rest, Nat.mod_eq_of_lt (by omega)]
    omega
  rw [padding, hzeros, ← List.replicate_append_replicate, List.append_assoc, ← List.cons_append,
    ← List.append_assoc]
  have hfirst : (rest size xs ++ marker ::
      List.replicate (size - (rest size xs).length - 1) zero).length = size := by
    simp only [List.length_append, List.length_cons, List.length_replicate]
    omega
  obtain ⟨hchain, hempty⟩ := chain_append_of_eq compress s hsize hfirst
  rw [← hchain, (chain_append_of_eq _ _ hsize ?_).1, hempty, List.nil_append]
  rw [hempty]
  simp only [List.nil_append, List.length_append, List.length_replicate]
  omega

end VirtualRsp.BlockHash
