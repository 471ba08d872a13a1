import Mathlib.Data.List.Basic

/-!
# Delimited frames on a stream

A stream of items is cut into frames by a delimiter that no frame contains. A transport hands the
stream over in pieces (`recv`), and a reader with a buffer of `n` items can only see whether one of
the next `n` items is the delimiter.

* `nextFrame` is what such a reader can do at best, as a function of the stream alone;
* `nextFrames_frames`: on a stream of frames that fit, followed by `n` items without a delimiter,
  it returns exactly the frames and then nothing any more;
* `recv_flatten`, `recv_ne_nil`: a read moves items from the front of the stream to the reader.
-/

namespace VirtualRsp.Framing

variable {α : Type*}

/-! ## Frames -/

section Frames

variable [DecidableEq α] (delim : α)

/-- The frames, each with the delimiter after it. -/
def frames (items : List (List α)) : List α := items.flatMap fun item => item ++ [delim]

/-- The next frame and the rest of the stream, if the delimiter is among the next `n` items. -/
def nextFrame (n : ℕ) (stream : List α) : Option (List α) × List α :=
  match (stream.take n).findIdx? (· = delim) with
  | some i => (some (stream.take i), stream.drop (i + 1))
  | none => (none, stream)

/-- What `k` attempts to read a frame return. -/
def nextFrames (n : ℕ) : ℕ → List α → List (Option (List α))
  | 0, _ => []
  | k + 1, stream =>
    (nextFrame delim n stream).1 :: nextFrames n k (nextFrame delim n stream).2

variable {delim} {n : ℕ}

theorem findIdx?_append_delim {item : List α} (h : delim ∉ item) (rest : List α) :
    (item ++ delim :: rest).findIdx? (· = delim) = some item.length := by
  have hitem : item.findIdx? (· = delim) = none := by
    rw [List.findIdx?_eq_none_iff]
    intro x hx
    simpa using ne_of_mem_of_not_mem hx h
  simp [List.findIdx?_append, hitem, List.findIdx?_cons]

theorem nextFrame_cons {item : List α} (h : delim ∉ item) (hn : item.length < n)
    (rest : List α) : nextFrame delim n (item ++ delim :: rest) = (some item, rest) := by
  have htake : (item ++ delim :: rest).take n =
      item ++ delim :: rest.take (n - item.length - 1) := by
    rw [List.take_append, List.take_of_length_le (by omega)]
    obtain ⟨j, hj⟩ : ∃ j, n - item.length = j + 1 := ⟨n - item.length - 1, by omega⟩
    rw [hj, List.take_succ_cons, Nat.add_sub_cancel]
  rw [nextFrame, htake, findIdx?_append_delim h]
  simp

theorem nextFrame_none {stream : List α} (h : delim ∉ stream.take n) :
    nextFrame delim n stream = (none, stream) := by
  have hidx : (stream.take n).findIdx? (· = delim) = none := by
    rw [List.findIdx?_eq_none_iff]
    intro x hx
    simpa using ne_of_mem_of_not_mem hx h
  rw [nextFrame, hidx]

/-- **Frames that fit are read back**, and after them nothing as long as no delimiter is in
sight. -/
theorem nextFrames_frames {items : List (List α)}
    (h : ∀ item ∈ items, delim ∉ item ∧ item.length < n) {tail : List α}
    (htail : delim ∉ tail.take n) (m : ℕ) :
    nextFrames delim n (items.length + m) (frames delim items ++ tail) =
      items.map some ++ List.replicate m none := by
  induction items with
  | nil =>
    induction m with
    | zero => rfl
    | succ m ih =>
      have hnext : nextFrame delim n (frames delim [] ++ tail) = (none, frames delim [] ++ tail) :=
        nextFrame_none htail
      rw [List.length_nil, Nat.zero_add] at ih ⊢
      rw [nextFrames, hnext, ih]
      rfl
  | cons item items ih =>
    rw [List.forall_mem_cons] at h
    have hnext : nextFrame delim n (frames delim (item :: items) ++ tail) =
        (some item, frames delim items ++ tail) := by
      have := nextFrame_cons h.1.1 h.1.2 (frames delim items ++ tail)
      simpa [frames] using this
    rw [List.length_cons, Nat.succ_add, nextFrames, hnext, ih h.2]
    rfl

end Frames

/-! ## The transport -/

/-- Read at most `n` items. The transport hands over its next piece, or as much of it as there is
room for; it fails when the connection is closed. -/
def recv (n : ℕ) : List (List α) → Option (List α × List (List α))
  | [] => none
  | piece :: pieces =>
    if piece.length ≤ n then some (piece, pieces)
    else some (piece.take n, piece.drop n :: pieces)

variable {n : ℕ} {pieces pieces' : List (List α)} {received : List α}

theorem recv_flatten (h : recv n pieces = some (received, pieces')) :
    received ++ pieces'.flatten = pieces.flatten ∧ received.length ≤ n := by
  cases pieces with
  | nil => cases h
  | cons piece pieces =>
    rw [recv] at h
    split_ifs at h with hp
    · cases h
      exact ⟨rfl, hp⟩
    · cases h
      refine ⟨?_, List.length_take_le _ _⟩
      rw [List.flatten_cons, ← List.append_assoc, List.take_append_drop, List.flatten_cons]

/-- No read is empty when no piece is. -/
theorem recv_ne_nil (hn : 0 < n) (hp : ∀ piece ∈ pieces, piece ≠ [])
    (h : recv n pieces = some (received, pieces')) :
    received ≠ [] ∧ ∀ piece ∈ pieces', piece ≠ [] := by
  cases pieces with
  | nil => cases h
  | cons piece pieces =>
    rw [List.forall_mem_cons] at hp
    rw [recv] at h
    split_ifs at h with hlen
    · cases h
      exact hp
    · cases h
      rw [List.forall_mem_cons]
      refine ⟨?_, ?_, hp.2⟩
      · rw [Ne, List.take_eq_nil_iff]
        exact fun h => h.elim (Nat.pos_iff_ne_zero.1 hn) hp.1
      · rw [Ne, List.drop_eq_nil_iff]
        exact hlen

theorem recv_eq_none : recv n pieces = none ↔ pieces = [] := by
  cases pieces with
  | nil => simp [recv]
  | cons piece pieces =>
    rw [recv]
    split_ifs <;> simp

end VirtualRsp.Framing
