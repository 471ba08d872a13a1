import Mathlib.Data.List.Basic
import Mathlib.Logic.Function.Basic

/-!
# Grouping the elements of a list

Two ways to group a list, as programs do it in one pass. A dictionary of lists, to which every
element is appended under its key, holds for each key the elements with that key, in order
(`appendAll_eq`). A list that is cut where a new run starts is the elements before the first start,
followed by the runs (`IsRuns`); there is one way to cut it (`IsRuns.unique`), which `splitRuns`
computes.
-/

namespace VirtualRsp.Grouping

variable {α κ : Type*}

/-! ## Dictionaries of lists -/

/-- Append to the list of a key, which is new if there was none. -/
def appendTo [DecidableEq κ] (d : κ → Option (List α)) (k : κ) (x : α) : κ → Option (List α) :=
  Function.update d k (some ((d k).getD [] ++ [x]))

/-- Append every element to the list of its key. -/
def appendAll [DecidableEq κ] (key : α → κ) (d : κ → Option (List α)) (xs : List α) :
    κ → Option (List α) :=
  xs.foldl (fun d x => appendTo d (key x) x) d

/-- A list that is there if it has elements. -/
def unlessNil (xs : List α) : Option (List α) := if xs = [] then none else some xs

theorem unlessNil_inj {xs ys : List α} (h : unlessNil xs = unlessNil ys) : xs = ys := by
  rw [unlessNil, unlessNil] at h
  split at h
  · rename_i hxs
    split at h
    · rename_i hys
      rw [hxs, hys]
    · cases h
  · split at h
    · cases h
    · exact Option.some.inj h

/-- **The lists of a dictionary** after a pass: what they were, and behind it the elements with
their key. -/
theorem appendAll_eq [DecidableEq κ] (key : α → κ) {f : κ → List α} (xs : List α) (k : κ) :
    appendAll key (fun k => unlessNil (f k)) xs k =
      unlessNil (f k ++ xs.filter fun x => key x = k) := by
  induction xs generalizing f with
  | nil =>
    rw [List.filter_nil, List.append_nil]
    rfl
  | cons x xs ih =>
    have hstep : appendTo (fun k => unlessNil (f k)) (key x) x =
        fun k => unlessNil (f k ++ if key x = k then [x] else []) := by
      funext k
      by_cases hk : key x = k
      · subst hk
        rw [appendTo, Function.update_self, if_pos rfl, unlessNil, unlessNil]
        split <;> simp [*]
      · rw [appendTo, Function.update_of_ne (Ne.symm hk), if_neg hk, List.append_nil]
    rw [appendAll, List.foldl_cons, hstep]
    refine (@ih fun k => f k ++ if key x = k then [x] else []).trans ?_
    by_cases hk : key x = k
    · simp [hk]
    · simp [hk]

/-! ## Runs -/

/-- The list is the elements `leading`, none of which starts a run, and the runs after them, each of
which has one start, at its beginning. -/
structure IsRuns (start : α → Bool) (xs leading : List α) (runs : List (List α)) : Prop where
  append_flatten : leading ++ runs.flatten = xs
  leading : ∀ x ∈ leading, start x = false
  runs : ∀ run ∈ runs, ∃ x rest, run = x :: rest ∧ start x = true ∧ ∀ y ∈ rest, start y = false

/-- Only what is in the list matters. -/
theorem IsRuns.congr {start start' : α → Bool} {xs leading : List α} {runs : List (List α)}
    (h : IsRuns start xs leading runs) (hs : ∀ x ∈ xs, start' x = start x) :
    IsRuns start' xs leading runs := by
  obtain ⟨rfl, hleading, hruns⟩ := h
  refine ⟨rfl, fun x hx => (hs x (List.mem_append_left _ hx)).trans (hleading x hx),
    fun run hrun => ?_⟩
  obtain ⟨x, rest, rfl, hx, hrest⟩ := hruns run hrun
  have hmem : ∀ y ∈ x :: rest, start' y = start y := fun y hy =>
    hs y (List.mem_append_right _ (List.mem_flatten.2 ⟨_, hrun, hy⟩))
  rw [List.forall_mem_cons] at hmem
  exact ⟨x, rest, rfl, hmem.1.trans hx, fun y hy => (hmem.2 y hy).trans (hrest y hy)⟩

/-- Cut a list where runs start. -/
def splitRuns (start : α → Bool) : List α → List α × List (List α)
  | [] => ([], [])
  | x :: xs =>
    if start x then ([], (x :: (splitRuns start xs).1) :: (splitRuns start xs).2)
    else (x :: (splitRuns start xs).1, (splitRuns start xs).2)

variable {start : α → Bool}

theorem isRuns_splitRuns (start : α → Bool) (xs : List α) :
    IsRuns start xs (splitRuns start xs).1 (splitRuns start xs).2 := by
  induction xs with
  | nil => exact ⟨rfl, by simp [splitRuns], by simp [splitRuns]⟩
  | cons x xs ih =>
    obtain ⟨hflat, hleading, hruns⟩ := ih
    rw [splitRuns]
    split
    · rename_i hx
      refine ⟨?_, by simp, List.forall_mem_cons.2 ⟨⟨x, _, rfl, hx, hleading⟩, hruns⟩⟩
      rw [List.nil_append, List.flatten_cons, List.cons_append, hflat]
    · rename_i hx
      refine ⟨?_, List.forall_mem_cons.2 ⟨Bool.not_eq_true _ ▸ hx, hleading⟩, hruns⟩
      rw [List.cons_append, hflat]

theorem splitRuns_append {leading : List α} (h : ∀ x ∈ leading, start x = false) (xs : List α) :
    splitRuns start (leading ++ xs) =
      (leading ++ (splitRuns start xs).1, (splitRuns start xs).2) := by
  induction leading with
  | nil => rfl
  | cons x leading ih =>
    obtain ⟨hx, h⟩ := List.forall_mem_cons.1 h
    rw [List.cons_append, splitRuns, ih h, hx]
    rfl

/-- **The runs are unique.** -/
theorem IsRuns.unique {xs leading : List α} {runs : List (List α)}
    (h : IsRuns start xs leading runs) : splitRuns start xs = (leading, runs) := by
  obtain ⟨rfl, hleading, hruns⟩ := h
  have hflat : splitRuns start runs.flatten = ([], runs) := by
    induction runs with
    | nil => rfl
    | cons run runs ih =>
      obtain ⟨⟨x, rest, rfl, hx, hrest⟩, hrest'⟩ := List.forall_mem_cons.1 hruns
      rw [List.flatten_cons, List.cons_append, splitRuns, if_pos hx, splitRuns_append hrest,
        ih hrest', List.append_nil]
  rw [splitRuns_append hleading, hflat, List.append_nil]

/-- Without a start there are no runs. -/
theorem splitRuns_of_forall {xs : List α} (h : ∀ x ∈ xs, start x = false) :
    splitRuns start xs = (xs, []) := by
  have := splitRuns_append h []
  rwa [List.append_nil, splitRuns, List.append_nil] at this

theorem exists_mem_splitRuns {xs : List α} {x : α} (hx : x ∈ xs) (hstart : start x = true) :
    ∃ rest, x :: rest ∈ (splitRuns start xs).2 := by
  obtain ⟨hflat, hleading, hruns⟩ := isRuns_splitRuns start xs
  rw [← hflat] at hx
  rcases List.mem_append.1 hx with hx | hx
  · rw [hleading x hx] at hstart
    cases hstart
  · obtain ⟨run, hrun, hx⟩ := List.mem_flatten.1 hx
    obtain ⟨y, rest, rfl, -, hrest⟩ := hruns run hrun
    rcases List.mem_cons.1 hx with rfl | hx
    · exact ⟨rest, hrun⟩
    · rw [hrest x hx] at hstart
      cases hstart

end VirtualRsp.Grouping
