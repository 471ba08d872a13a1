import Mathlib.Data.List.Basic

/-!
# Items laid out one after the other

Items of given sizes stand one after the other from a start on (`place`). Where an item stands says
which items are before it, if no item is empty (`prefix_unique`, `prefix_next`). A list of intervals
tiles a range when each begins where the one before it ends (`Tiles`).
-/

namespace VirtualRsp.Tiling

variable {α : Type*} {size : α → ℕ}

/-- The size of all items. -/
def total (size : α → ℕ) : List α → ℕ
  | [] => 0
  | x :: xs => size x + total size xs

@[simp] theorem total_nil : total size [] = 0 := rfl

@[simp] theorem total_cons (x : α) (xs : List α) :
    total size (x :: xs) = size x + total size xs := rfl

@[simp] theorem total_append (xs ys : List α) :
    total size (xs ++ ys) = total size xs + total size ys := by
  induction xs with
  | nil => rw [List.nil_append, total_nil, Nat.zero_add]
  | cons x xs ih => rw [List.cons_append, total_cons, total_cons, ih, Nat.add_assoc]

/-- The items with their places, from a start on. -/
def place (size : α → ℕ) : ℕ → List α → List (ℕ × α)
  | _, [] => []
  | start, x :: xs => (start, x) :: place size (start + size x) xs

theorem map_snd_place (start : ℕ) (xs : List α) : (place size start xs).map Prod.snd = xs := by
  induction xs generalizing start with
  | nil => rfl
  | cons x xs ih => rw [place, List.map_cons, ih]

theorem mem_place {start : ℕ} {y : ℕ × α} {xs : List α} (h : y ∈ place size start xs) :
    ∃ before after, xs = before ++ y.2 :: after ∧ y.1 = start + total size before := by
  induction xs generalizing start with
  | nil => exact absurd h List.not_mem_nil
  | cons x xs ih =>
    rcases List.mem_cons.1 h with rfl | h
    · exact ⟨[], xs, rfl, rfl⟩
    · obtain ⟨before, after, rfl, hy⟩ := ih h
      exact ⟨x :: before, after, rfl, by rw [hy, total_cons, Nat.add_assoc]⟩

/-- The first item with a property: the items before it decide its place. -/
theorem find?_place {start ptr : ℕ} {x : α} {xs : List α} {p : α → Bool}
    (h : (place size start xs).find? (fun y => p y.2) = some (ptr, x)) :
    ∃ before after, xs = before ++ x :: after ∧ p x = true ∧ (∀ y ∈ before, p y = false) ∧
      ptr = start + total size before := by
  induction xs generalizing start with
  | nil => cases h
  | cons y ys ih =>
    rw [place, List.find?_cons] at h
    cases hy : p y with
    | true =>
      simp only [hy, Option.some.injEq, Prod.mk.injEq] at h
      obtain ⟨rfl, rfl⟩ := h
      exact ⟨[], ys, rfl, hy, fun _ hmem => absurd hmem List.not_mem_nil, rfl⟩
    | false =>
      simp only [hy] at h
      obtain ⟨before, after, rfl, hx, hbefore, rfl⟩ := ih h
      exact ⟨y :: before, after, rfl, hx, List.forall_mem_cons.2 ⟨hy, hbefore⟩, by
        rw [total_cons, Nat.add_assoc]⟩

theorem find?_place_append {start : ℕ} {x : α} {before after : List α} {p : α → Bool}
    (hx : p x = true) (hbefore : ∀ y ∈ before, p y = false) :
    (place size start (before ++ x :: after)).find? (fun y => p y.2) =
      some (start + total size before, x) := by
  induction before generalizing start with
  | nil => simp [place, hx]
  | cons y ys ih =>
    obtain ⟨hy, hys⟩ := List.forall_mem_cons.1 hbefore
    rw [List.cons_append, place, List.find?_cons]
    simp only [hy, ih hys, total_cons, Nat.add_assoc]

theorem find?_place_eq_none {start : ℕ} {xs : List α} {p : α → Bool} :
    (place size start xs).find? (fun y => p y.2) = none ↔ ∀ y ∈ xs, p y = false := by
  induction xs generalizing start with
  | nil => simp [place]
  | cons y ys ih =>
    rw [place, List.find?_cons, List.forall_mem_cons]
    cases hy : p y <;> simp [ih]

/-- **Items before a place**: two beginnings of a list of the same size are the same. -/
theorem prefix_unique {before before' after after' : List α}
    (hpos : ∀ x ∈ before ++ after, 0 < size x) (h : before ++ after = before' ++ after')
    (htotal : total size before = total size before') : before = before' := by
  induction before generalizing before' with
  | nil =>
    cases before' with
    | nil => rfl
    | cons y ys =>
      have hy := hpos y (by rw [h]; exact List.mem_cons_self)
      rw [total_nil, total_cons] at htotal
      omega
  | cons x xs ih =>
    have hx := hpos x List.mem_cons_self
    cases before' with
    | nil =>
      rw [total_nil, total_cons] at htotal
      omega
    | cons y ys =>
      rw [List.cons_append, List.cons_append, List.cons.injEq] at h
      obtain ⟨rfl, h⟩ := h
      rw [total_cons, total_cons, Nat.add_left_cancel_iff] at htotal
      rw [ih (fun z hz => hpos z (List.mem_cons_of_mem _ hz)) h htotal]

/-- A beginning that ends behind the start of an item, and not behind its end, ends with the item.
-/
theorem prefix_next {before before' after after' : List α} {x : α}
    (hpos : ∀ y ∈ before ++ x :: after, 0 < size y) (h : before ++ x :: after = before' ++ after')
    (hlt : total size before < total size before')
    (hle : total size before' ≤ total size before + size x) : before' = before ++ [x] := by
  induction before generalizing before' with
  | nil =>
    cases before' with
    | nil => exact absurd hlt (Nat.lt_irrefl _)
    | cons y ys =>
      rw [List.nil_append, List.cons_append, List.cons.injEq] at h
      obtain ⟨rfl, rfl⟩ := h
      rw [total_nil, total_cons, Nat.zero_add] at hle
      cases ys with
      | nil => rfl
      | cons z zs =>
        have hz := hpos z (by simp)
        rw [total_cons] at hle
        omega
  | cons w ws ih =>
    cases before' with
    | nil =>
      rw [total_nil] at hlt
      omega
    | cons y ys =>
      rw [List.cons_append, List.cons_append, List.cons.injEq] at h
      obtain ⟨rfl, h⟩ := h
      rw [total_cons, total_cons] at hlt hle
      rw [ih (fun z hz => hpos z (List.mem_cons_of_mem _ hz)) h (by omega) (by omega),
        List.cons_append]

/-! ## Tilings -/

/-- Intervals, each given by its start and its length, that cover a range one after the other. -/
def Tiles : ℕ → ℕ → List (ℕ × ℕ) → Prop
  | start, stop, [] => start = stop
  | start, stop, i :: is => i.1 = start ∧ Tiles (i.1 + i.2) stop is

/-- Items that stand one after the other tile the range from their start to their end. -/
theorem tiles_place_append (start stop : ℕ) (xs : List α) (is : List (ℕ × ℕ)) :
    Tiles start stop ((place size start xs).map (fun y => (y.1, size y.2)) ++ is) ↔
      Tiles (start + total size xs) stop is := by
  induction xs generalizing start with
  | nil => rfl
  | cons x xs ih =>
    rw [place, List.map_cons, List.cons_append, Tiles, total_cons, ← Nat.add_assoc, ih]
    exact and_iff_right rfl

theorem tiles_place (start stop : ℕ) (xs : List α) :
    Tiles start stop ((place size start xs).map fun y => (y.1, size y.2)) ↔
      start + total size xs = stop := by
  rw [← List.append_nil ((place size start xs).map _), tiles_place_append, Tiles]

/-- An interval splits what is tiled before it from what is tiled after it. -/
theorem tiles_append_cons {start stop : ℕ} {is js : List (ℕ × ℕ)} {i : ℕ × ℕ} :
    Tiles start stop (is ++ i :: js) ↔ Tiles start i.1 is ∧ Tiles (i.1 + i.2) stop js := by
  induction is generalizing start with
  | nil =>
    rw [List.nil_append, Tiles, Tiles, eq_comm]
  | cons k is ih =>
    rw [List.cons_append, Tiles, Tiles, ih, and_assoc]

end VirtualRsp.Tiling
