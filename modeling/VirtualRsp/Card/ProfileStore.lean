import VirtualRsp.Card.Frame

/-!
# The profile store

What the list of profiles is for, without the heap: a store is a list of profiles, and the three
management commands change it at the first profile that matches a request. The card's linked list
refines it (`enableStep_refines`, `disableStep_refines`, `deleteStep_refines`): whatever list is
represented in the heap, the card's traversals end, and they do to it what the store says.

At most one profile of a store is enabled, and every operation keeps it so (`enable_atMostOne`,
`disable_atMostOne`, `delete_atMostOne`).
-/

namespace VirtualRsp.Card

/-! ## The abstract store -/

/-- A list cut at its first element that satisfies `P`. -/
def firstMatch {α : Type*} (P : α → Bool) (xs : List α) : Option (List α × α × List α) :=
  match xs.dropWhile (!P ·) with
  | [] => none
  | x :: post => some (xs.takeWhile (!P ·), x, post)

theorem firstMatch_none {α : Type*} {P : α → Bool} {xs : List α} :
    firstMatch P xs = none ↔ ∀ x ∈ xs, P x = false := by
  rw [firstMatch]
  split
  · rename_i h
    simpa using h
  · rename_i x post h
    simp only [reduceCtorEq, false_iff, not_forall]
    refine ⟨x, (List.dropWhile_sublist _).subset (h ▸ List.mem_cons_self), ?_⟩
    have := List.head_dropWhile_not (!P ·) (l := xs) (by simp [h])
    simpa [h] using this

theorem firstMatch_some {α : Type*} {P : α → Bool} {xs pre post : List α} {x : α} :
    firstMatch P xs = some (pre, x, post) ↔
      xs = pre ++ x :: post ∧ (∀ y ∈ pre, P y = false) ∧ P x = true := by
  constructor
  · intro h
    rw [firstMatch] at h
    split at h
    · cases h
    · rename_i x post hd
      cases h
      refine ⟨?_, fun y hy => by simpa using List.mem_takeWhile_imp hy, ?_⟩
      · rw [← hd, List.takeWhile_append_dropWhile]
      · have := List.head_dropWhile_not (!P ·) (l := xs) (by simp [hd])
        simpa [hd] using this
  · rintro ⟨rfl, hpre, hx⟩
    have hd : (pre ++ x :: post).dropWhile (!P ·) = x :: post := by
      rw [List.dropWhile_append_of_pos fun y hy => by simp [hpre y hy]]
      simp [hx]
    have ht : (pre ++ x :: post).takeWhile (!P ·) = pre := by
      rw [List.takeWhile_append_of_pos fun y hy => by simp [hpre y hy]]
      simp [hx]
    rw [firstMatch, hd, ht]

/-- A profile in another state. -/
def ProfileMetadata.setState (state : ProfileState) (profile : ProfileMetadata) :
    ProfileMetadata :=
  { profile with state := state }

/-- Enable the first match and disable all others. -/
def enableFirst (P : ProfileMetadata → Bool) (xs : List ProfileMetadata) :
    List ProfileMetadata × UInt8 :=
  match firstMatch P xs with
  | none => (xs, 0x01)
  | some (pre, x, post) =>
    (pre.map (.setState .disabled) ++ x.setState .enabled :: post.map (.setState .disabled), 0x00)

/-- Disable the first match, which must be enabled. -/
def disableFirst (P : ProfileMetadata → Bool) (xs : List ProfileMetadata) :
    List ProfileMetadata × UInt8 :=
  match firstMatch P xs with
  | none => (xs, 0x01)
  | some (pre, x, post) =>
    if x.state ≠ .enabled then (xs, 0x02) else (pre ++ x.setState .disabled :: post, 0x00)

/-- Delete the first match, which must not be enabled. -/
def deleteFirst (P : ProfileMetadata → Bool) (xs : List ProfileMetadata) :
    List ProfileMetadata × UInt8 :=
  match firstMatch P xs with
  | none => (xs, 0x01)
  | some (pre, x, post) => if x.state = .enabled then (xs, 0x02) else (pre ++ post, 0x00)

/-- At most one profile is enabled. -/
def AtMostOneEnabled (xs : List ProfileMetadata) : Prop := xs.countP (·.state = .enabled) ≤ 1

theorem setState_disabled_of_ne {x : ProfileMetadata} (h : x.state ≠ .enabled) :
    x.setState .disabled = x := by
  obtain ⟨_, _, state, _, _, _⟩ := x
  cases state with
  | disabled => rfl
  | enabled => exact absurd rfl h

theorem countP_map_disabled (xs : List ProfileMetadata) :
    (xs.map (ProfileMetadata.setState .disabled)).countP (fun x => x.state = .enabled) = 0 := by
  simp [List.countP_map, List.countP_eq_zero, ProfileMetadata.setState]

theorem enable_atMostOne {P : ProfileMetadata → Bool} {xs : List ProfileMetadata}
    (h : AtMostOneEnabled xs) : AtMostOneEnabled (enableFirst P xs).1 := by
  rw [enableFirst]
  split
  · exact h
  · rename_i pre x post _
    rw [AtMostOneEnabled, List.countP_append, List.countP_cons, countP_map_disabled,
      countP_map_disabled]
    split <;> omega

theorem disable_atMostOne {P : ProfileMetadata → Bool} {xs : List ProfileMetadata}
    (h : AtMostOneEnabled xs) : AtMostOneEnabled (disableFirst P xs).1 := by
  rw [disableFirst]
  split
  · exact h
  · rename_i pre x post hm
    split_ifs
    · exact h
    · obtain ⟨rfl, -, -⟩ := firstMatch_some.1 hm
      simp only [AtMostOneEnabled, List.countP_append, List.countP_cons] at h ⊢
      have : ¬ (x.setState .disabled).state = .enabled := by simp [ProfileMetadata.setState]
      simp only [this, decide_false, Bool.false_eq_true, if_false]
      omega

theorem delete_atMostOne {P : ProfileMetadata → Bool} {xs : List ProfileMetadata}
    (h : AtMostOneEnabled xs) : AtMostOneEnabled (deleteFirst P xs).1 := by
  rw [deleteFirst]
  split
  · exact h
  · rename_i pre x post hm
    split_ifs
    · exact h
    · obtain ⟨rfl, -, -⟩ := firstMatch_some.1 hm
      simp only [AtMostOneEnabled, List.countP_append, List.countP_cons] at h ⊢
      omega

/-- **Deleting** keeps every profile that is enabled. -/
theorem delete_keeps_enabled {P : ProfileMetadata → Bool} {xs : List ProfileMetadata} :
    (deleteFirst P xs).1.filter (·.state = .enabled) = xs.filter (·.state = .enabled) := by
  rw [deleteFirst]
  split
  · rfl
  · rename_i pre x post hm
    split_ifs with hx
    · rfl
    · obtain ⟨rfl, -, -⟩ := firstMatch_some.1 hm
      simp [hx]

/-! ## The list in the heap -/

variable {l : LinkedList ProfileMetadata} {xs : List (ℕ × ProfileMetadata)}

/-- A cut of the profiles is a cut of the nodes. -/
theorem firstMatch_nodes (P : ProfileMetadata → Bool) (xs : List (ℕ × ProfileMetadata)) :
    firstMatch P (xs.map Prod.snd) =
      (firstMatch (fun x => P x.2) xs).map fun (pre, x, post) =>
        (pre.map Prod.snd, x.2, post.map Prod.snd) := by
  cases h : firstMatch (fun x => P x.2) xs with
  | none =>
    rw [Option.map_none, firstMatch_none]
    intro p hp
    obtain ⟨x, hx, rfl⟩ := List.mem_map.1 hp
    exact firstMatch_none.1 h x hx
  | some c =>
    obtain ⟨pre, x, post⟩ := c
    obtain ⟨rfl, hpre, hx⟩ := firstMatch_some.1 h
    rw [Option.map_some, firstMatch_some]
    refine ⟨by simp, fun p hp => ?_, hx⟩
    obtain ⟨y, hy, rfl⟩ := List.mem_map.1 hp
    exact hpre y hy

/-- A step on the heap refines an operation on the store: it ends, on a list that represents the
operation's result, and with its result code; and it leaves the list alone unless that is 0. -/
def Refines
    (step : LinkedList ProfileMetadata → Target → Option (LinkedList ProfileMetadata × UInt8))
    (op : (ProfileMetadata → Bool) → List ProfileMetadata → List ProfileMetadata × UInt8) : Prop :=
  ∀ {l xs} target, LinkedList.Repr l xs →
    ∃ l' code ys, step l target = some (l', code) ∧ LinkedList.Repr l' ys ∧
      op target.matches (xs.map Prod.snd) = (ys.map Prod.snd, code) ∧ (code ≠ 0 → l' = l)

theorem enableAt_repr {pre post : List (ℕ × ProfileMetadata)} {x : ℕ × ProfileMetadata}
    (h : l.Repr (pre ++ x :: post)) : ∃ l' ys, enableAt l x.1 = some l' ∧ l'.Repr ys ∧
      ys.map Prod.snd = (pre.map Prod.snd).map (.setState .disabled) ++ x.2.setState .enabled ::
        (post.map Prod.snd).map (.setState .disabled) := by
  obtain ⟨m, hm, hmr⟩ := LinkedList.mapNodes_repr h fun p profile =>
    if profile.state = .enabled ∧ p ≠ x.1 then { profile with state := .disabled } else profile
  simp only [List.map_append, List.map_cons] at hmr
  obtain ⟨l', hl, hr⟩ := LinkedList.update_repr_append hmr fun profile =>
    { profile with state := .enabled }
  have henable : enableAt l x.1 = some l' := by
    simp only [enableAt, hm, Option.bind_eq_bind, Option.bind_some]
    exact hl
  refine ⟨l', _, henable, hr, ?_⟩
  have hnd := h.nodup
  simp only [List.map_append, List.map_cons, List.nodup_append, List.nodup_cons, List.mem_map,
    List.mem_cons] at hnd
  obtain ⟨-, ⟨hpost, -⟩, hdisj⟩ := hnd
  have key : ∀ zs : List (ℕ × ProfileMetadata), (∀ y ∈ zs, y.1 ≠ x.1) →
      (zs.map fun y => (y.1, if y.2.state = .enabled ∧ y.1 ≠ x.1 then
        { y.2 with state := .disabled } else y.2)).map Prod.snd =
        (zs.map Prod.snd).map (.setState .disabled) := by
    intro zs hzs
    rw [List.map_map, List.map_map]
    refine List.map_congr_left fun y hy => ?_
    by_cases he : y.2.state = .enabled
    · simp [he, hzs y hy, ProfileMetadata.setState]
    · simp [he, setState_disabled_of_ne he]
  rw [List.map_append, List.map_cons, key pre fun y hy => hdisj y.1 ⟨y, hy, rfl⟩ x.1 (.inl rfl),
    key post fun y hy e => hpost ⟨y, hy, e⟩]
  simp [ProfileMetadata.setState]

/-- **Enabling** on the heap refines enabling in the store. -/
theorem enableStep_refines : Refines enableStep enableFirst := by
  intro l xs target h
  rw [enableFirst, firstMatch_nodes]
  cases hm : firstMatch (fun x => target.matches x.2) xs with
  | none =>
    obtain ⟨prev, hf⟩ := LinkedList.findPrev_none h (firstMatch_none.1 hm)
    exact ⟨l, 1, xs, by simp [enableStep, hf], h, rfl, fun _ => rfl⟩
  | some c =>
    obtain ⟨pre, x, post⟩ := c
    obtain ⟨rfl, hpre, hx⟩ := firstMatch_some.1 hm
    obtain ⟨hf, h0⟩ := LinkedList.findPrev_some h hpre hx
    obtain ⟨l', ys, hl, hr, hys⟩ := enableAt_repr h
    exact ⟨l', 0, ys, by simp [enableStep, hf, h0, hl], hr, by simp [hys], fun h => absurd rfl h⟩

/-- **Disabling** on the heap refines disabling in the store. -/
theorem disableStep_refines : Refines disableStep disableFirst := by
  intro l xs target h
  rw [disableFirst, firstMatch_nodes]
  cases hm : firstMatch (fun x => target.matches x.2) xs with
  | none =>
    obtain ⟨prev, hf⟩ := LinkedList.findPrev_none h (firstMatch_none.1 hm)
    exact ⟨l, 1, xs, by simp [disableStep, hf], h, rfl, fun _ => rfl⟩
  | some c =>
    obtain ⟨pre, x, post⟩ := c
    obtain ⟨rfl, hpre, hx⟩ := firstMatch_some.1 hm
    obtain ⟨hf, h0⟩ := LinkedList.findPrev_some h hpre hx
    obtain ⟨-, q, hc⟩ := h.chain.mem_cells (x := x) (by simp)
    by_cases he : x.2.state = .enabled
    · obtain ⟨l', hl, hr⟩ := LinkedList.update_repr_append h fun profile =>
        { profile with state := .disabled }
      exact ⟨l', 0, _, by simp [disableStep, hf, h0, hc, he, hl], hr,
        by simp [he, ProfileMetadata.setState], fun h => absurd rfl h⟩
    · exact ⟨l, 2, _, by simp [disableStep, hf, h0, hc, he], h, by simp [he], fun _ => rfl⟩

/-- **Deleting** on the heap refines deleting from the store. -/
theorem deleteStep_refines : Refines deleteStep deleteFirst := by
  intro l xs target h
  rw [deleteFirst, firstMatch_nodes]
  cases hm : firstMatch (fun x => target.matches x.2) xs with
  | none =>
    obtain ⟨prev, hf⟩ := LinkedList.findPrev_none h (firstMatch_none.1 hm)
    exact ⟨l, 1, xs, by simp [deleteStep, hf], h, rfl, fun _ => rfl⟩
  | some c =>
    obtain ⟨pre, x, post⟩ := c
    obtain ⟨rfl, hpre, hx⟩ := firstMatch_some.1 hm
    obtain ⟨hf, h0⟩ := LinkedList.findPrev_some h hpre hx
    obtain ⟨-, q, hc⟩ := h.chain.mem_cells (x := x) (by simp)
    by_cases he : x.2.state = .enabled
    · exact ⟨l, 2, _, by simp [deleteStep, hf, h0, hc, he], h, by simp [he], fun _ => rfl⟩
    · obtain ⟨l', hl, hr⟩ := LinkedList.unlink_repr h
      exact ⟨l', 0, _, by simp [deleteStep, hf, h0, hc, he, hl], hr, by simp [he],
        fun h => absurd rfl h⟩

end VirtualRsp.Card
