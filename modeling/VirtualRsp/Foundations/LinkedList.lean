import Mathlib.Data.List.Nodup
import Mathlib.Data.List.Perm.Subperm
import Mathlib.Logic.Function.Basic
import VirtualRsp.Foundations.Loop

/-!
# Singly linked lists in a heap

A C list of `struct node { ...; struct node *next; }` is a head pointer into a heap of cells;
address `0` is `NULL`, and addresses from `brk` on were never handed out by the allocator. The
traversals are the loops of the source: they follow `next` and fault on a dangling pointer, and on
a cyclic list they would never end.

`Repr l xs` says that the cells reachable from the head are, in order, the addresses and values
`xs`; its chain is finite, so the list is acyclic (`Chain.nodup`) and every loop over it ends
within the number of addresses handed out (`Repr.length_lt`). Each operation has one rule:
`nodes_eq`, `push_repr`, `findPrev_eq`, `mapNodes_repr`, `update_repr`, `unlink_repr`,
`link_repr`.
-/

namespace VirtualRsp

/-- A list node: its value and the address of the next node. -/
structure Cell (α : Type*) where
  val : α
  next : ℕ

/-- A heap of list nodes with the pointer to the first one. -/
structure LinkedList (α : Type*) where
  cells : ℕ → Option (Cell α)
  head : ℕ
  brk : ℕ

namespace LinkedList

variable {α : Type*}

/-- The list with no node, on an unused heap. -/
def empty : LinkedList α := ⟨fun _ => none, 0, 1⟩

/-! ## The operations -/

/-- One round of the walk that collects the nodes; the accumulator is in reverse. -/
def nodesBody (cells : ℕ → Option (Cell α)) :
    ℕ × List (ℕ × α) → Option (Ctl (ℕ × List (ℕ × α)) (List (ℕ × α)))
  | (0, acc) => some (.done acc.reverse)
  | (p + 1, acc) =>
    match cells (p + 1) with
    | none => none
    | some c => some (.next (c.next, (p + 1, c.val) :: acc))

/-- The nodes from the head on, with their addresses. -/
def nodes (l : LinkedList α) : Option (List (ℕ × α)) :=
  loop (nodesBody l.cells) (l.brk + 1) (l.head, [])

/-- The values from the head on. -/
def toList (l : LinkedList α) : Option (List α) := l.nodes.map (List.map Prod.snd)

/-- `malloc` a node, point it at the old head, make it the head. -/
def push (l : LinkedList α) (a : α) : LinkedList α :=
  ⟨Function.update l.cells l.brk (some ⟨a, l.head⟩), l.brk, l.brk + 1⟩

/-- One round of the search, on the previous and the current pointer. -/
def findBody (cells : ℕ → Option (Cell α)) (P : α → Bool) : ℕ × ℕ → Option (Ctl (ℕ × ℕ) (ℕ × ℕ))
  | (prev, 0) => some (.done (prev, 0))
  | (prev, p + 1) =>
    match cells (p + 1) with
    | none => none
    | some c => if P c.val then some (.done (prev, p + 1)) else some (.next (p + 1, c.next))

/-- The first node whose value satisfies `P` and the node before it; `NULL` for a node that is
not there. -/
def findPrev (l : LinkedList α) (P : α → Bool) : Option (ℕ × ℕ) :=
  loop (findBody l.cells P) (l.brk + 1) (0, l.head)

/-- One round of a pass over all nodes that rewrites their values. -/
def mapBody (f : ℕ → α → α) : ((ℕ → Option (Cell α)) × ℕ) →
    Option (Ctl ((ℕ → Option (Cell α)) × ℕ) (ℕ → Option (Cell α)))
  | (cells, 0) => some (.done cells)
  | (cells, p + 1) =>
    match cells (p + 1) with
    | none => none
    | some c =>
      some (.next (Function.update cells (p + 1) (some ⟨f (p + 1) c.val, c.next⟩), c.next))

/-- Rewrite the value of every node, which may depend on the node's address. -/
def mapNodes (l : LinkedList α) (f : ℕ → α → α) : Option (LinkedList α) :=
  (loop (mapBody f) (l.brk + 1) (l.cells, l.head)).map fun cells => { l with cells := cells }

/-- Rewrite the value of the node at `p`. -/
def update (l : LinkedList α) (p : ℕ) (f : α → α) : Option (LinkedList α) :=
  (l.cells p).map fun c => { l with cells := Function.update l.cells p (some ⟨f c.val, c.next⟩) }

/-- Take the node `p`, which follows `prev` (or is the head when `prev` is `NULL`), out of the
list and free it. -/
def unlink (l : LinkedList α) (prev p : ℕ) : Option (LinkedList α) :=
  (l.cells p).bind fun c =>
    if prev = 0 then some { l with head := c.next, cells := Function.update l.cells p none }
    else (l.cells prev).map fun d =>
      { l with
        cells := Function.update (Function.update l.cells prev (some ⟨d.val, c.next⟩)) p none }

/-- `malloc` a node that no other one points at. -/
def malloc (l : LinkedList α) (a : α) : LinkedList α :=
  { l with cells := Function.update l.cells l.brk (some ⟨a, 0⟩), brk := l.brk + 1 }

/-- Point the node `p` at `q`. -/
def setNext (l : LinkedList α) (p q : ℕ) : Option (LinkedList α) :=
  (l.cells p).map fun c => { l with cells := Function.update l.cells p (some ⟨c.val, q⟩) }

/-- Make `q` the first node if there is none, and point `p` at it otherwise. -/
def link (l : LinkedList α) (p q : ℕ) : Option (LinkedList α) :=
  if l.head = 0 then some { l with head := q } else l.setNext p q

/-! ## Chains -/

/-- Following `next` from an address visits exactly these nodes and ends at `NULL`. -/
inductive Chain (cells : ℕ → Option (Cell α)) : ℕ → List (ℕ × α) → Prop
  | nil : Chain cells 0 []
  | cons {p q : ℕ} {a : α} {xs : List (ℕ × α)} (hp : p ≠ 0) (hc : cells p = some ⟨a, q⟩)
      (h : Chain cells q xs) : Chain cells p ((p, a) :: xs)

namespace Chain

variable {cells cells' : ℕ → Option (Cell α)} {p : ℕ} {xs ys : List (ℕ × α)}

theorem unique (h : Chain cells p xs) (h' : Chain cells p ys) : xs = ys := by
  induction h generalizing ys with
  | nil =>
    cases h' with
    | nil => rfl
    | cons hp => exact absurd rfl hp
  | cons hp hc h ih =>
    cases h' with
    | nil => exact absurd rfl hp
    | cons hp' hc' h' =>
      rw [hc] at hc'
      cases hc'
      rw [ih h']

/-- Every node of a chain starts a chain of its own, the rest of the list from it on. -/
theorem suffix (h : Chain cells p xs) {x : ℕ × α} (hx : x ∈ xs) :
    ∃ pre post, xs = pre ++ x :: post ∧ Chain cells x.1 (x :: post) := by
  induction h with
  | nil => simp at hx
  | @cons p q a xs hp hc h ih =>
    rcases List.mem_cons.1 hx with rfl | hx
    · exact ⟨[], xs, rfl, cons hp hc h⟩
    · obtain ⟨pre, post, rfl, hch⟩ := ih hx
      exact ⟨(p, a) :: pre, post, rfl, hch⟩

/-- **A finite chain is acyclic**: no address occurs twice. -/
theorem nodup (h : Chain cells p xs) : (xs.map Prod.fst).Nodup := by
  induction h with
  | nil => simp
  | @cons p q a xs hp hc h ih =>
    refine List.nodup_cons.2 ⟨fun hmem => ?_, ih⟩
    obtain ⟨x, hx, rfl⟩ := List.mem_map.1 hmem
    obtain ⟨pre, post, hxs, hch⟩ := h.suffix hx
    -- the chain from `x` would be both the whole list and a proper suffix of it
    have := congrArg List.length (hch.unique (cons hp hc h))
    rw [hxs] at this
    simp only [List.length_cons, List.length_append] at this
    omega

theorem mem_cells (h : Chain cells p xs) {x : ℕ × α} (hx : x ∈ xs) :
    x.1 ≠ 0 ∧ ∃ q, cells x.1 = some ⟨x.2, q⟩ := by
  induction h with
  | nil => simp at hx
  | cons hp hc h ih =>
    rcases List.mem_cons.1 hx with rfl | hx
    · exact ⟨hp, _, hc⟩
    · exact ih hx

/-- A chain only depends on its own cells. -/
theorem congr (h : Chain cells p xs) (he : ∀ x ∈ xs, cells' x.1 = cells x.1) :
    Chain cells' p xs := by
  induction h with
  | nil => exact nil
  | cons hp hc h ih =>
    exact cons hp ((he _ List.mem_cons_self).trans hc) (ih fun x hx => he x (by simp [hx]))

/-- Rewriting one cell's value. -/
theorem update_val (h : Chain cells p xs) (r : ℕ) (f : α → α) {c : Cell α} (hc : cells r = some c) :
    Chain (Function.update cells r (some ⟨f c.val, c.next⟩)) p
      (xs.map fun x => if x.1 = r then (x.1, f x.2) else x) := by
  induction h with
  | nil => exact nil
  | @cons p q a xs hp hp' h ih =>
    by_cases hpr : p = r
    · subst hpr
      rw [hp'] at hc
      cases hc
      simp only [List.map_cons, if_true]
      exact cons hp (Function.update_self ..) ih
    · simp only [List.map_cons, hpr, if_false]
      exact cons hp (by rw [Function.update_of_ne hpr, hp']) ih

/-- Pointing a node at another chain replaces what comes after it. -/
theorem relink {s q : ℕ} {pre post : List (ℕ × α)} {d : ℕ × α}
    (h : Chain cells s (pre ++ d :: post)) (hq : Chain cells q ys) (hd : d.1 ∉ ys.map Prod.fst) :
    Chain (Function.update cells d.1 (some ⟨d.2, q⟩)) s (pre ++ d :: ys) := by
  have hnd := h.nodup
  induction pre generalizing s with
  | nil =>
    cases h with
    | cons hs hc h =>
      refine cons hs (Function.update_self ..) (hq.congr fun x hx => ?_)
      exact Function.update_of_ne (fun e => hd (List.mem_map.2 ⟨x, hx, e⟩)) ..
  | cons y pre ih =>
    cases h with
    | cons hs hc h =>
      simp only [List.cons_append, List.map_cons, List.map_append, List.nodup_cons,
        List.mem_append, List.mem_cons, not_or] at hnd
      exact cons hs (by rw [Function.update_of_ne hnd.1.2.1, hc]) (ih h h.nodup)

end Chain

/-! ## Represented lists -/

/-- The list `l` holds exactly the nodes `xs`, in order. -/
structure Repr (l : LinkedList α) (xs : List (ℕ × α)) : Prop where
  chain : Chain l.cells l.head xs
  fresh : ∀ p, l.brk ≤ p → l.cells p = none
  brk_pos : 0 < l.brk

theorem empty_repr : Repr (empty : LinkedList α) [] := ⟨.nil, fun _ _ => rfl, Nat.one_pos⟩

namespace Repr

variable {l : LinkedList α} {xs ys : List (ℕ × α)}

theorem unique (h : Repr l xs) (h' : Repr l ys) : xs = ys := h.chain.unique h'.chain

theorem nodup (h : Repr l xs) : (xs.map Prod.fst).Nodup := h.chain.nodup

theorem lt_brk (h : Repr l xs) {x : ℕ × α} (hx : x ∈ xs) : x.1 < l.brk := by
  obtain ⟨-, q, hq⟩ := h.chain.mem_cells hx
  by_contra hlt
  rw [h.fresh _ (Nat.not_lt.1 hlt)] at hq
  cases hq

/-- A represented list is shorter than the number of addresses handed out. -/
theorem length_lt (h : Repr l xs) : xs.length < l.brk := by
  have hnd : (0 :: xs.map Prod.fst).Nodup := by
    refine List.nodup_cons.2 ⟨fun h0 => ?_, h.nodup⟩
    obtain ⟨x, hx, hx0⟩ := List.mem_map.1 h0
    exact (h.chain.mem_cells hx).1 hx0
  have hsub : 0 :: xs.map Prod.fst ⊆ List.range l.brk := by
    intro p hp
    rw [List.mem_range]
    rcases List.mem_cons.1 hp with rfl | hp
    · exact h.brk_pos
    · obtain ⟨x, hx, rfl⟩ := List.mem_map.1 hp
      exact h.lt_brk hx
  have := (hnd.subperm hsub).length_le
  simp only [List.length_cons, List.length_map, List.length_range] at this
  omega

end Repr

theorem nodesLoop_eq {cells : ℕ → Option (Cell α)} {p : ℕ} {xs : List (ℕ × α)}
    (h : Chain cells p xs) (acc : List (ℕ × α)) (n : ℕ) (hn : xs.length < n) :
    loop (nodesBody cells) n (p, acc) = some (acc.reverse ++ xs) := by
  induction h generalizing acc n with
  | nil =>
    obtain ⟨n, rfl⟩ := Nat.exists_eq_add_one_of_ne_zero (by omega : n ≠ 0)
    rw [loop_done rfl, List.append_nil]
  | @cons p q a xs hp hc h ih =>
    obtain ⟨n, rfl⟩ := Nat.exists_eq_add_one_of_ne_zero (by omega : n ≠ 0)
    obtain ⟨p, rfl⟩ := Nat.exists_eq_succ_of_ne_zero hp
    have hb : nodesBody cells (p + 1, acc) = some (.next (q, (p + 1, a) :: acc)) := by
      simp only [nodesBody, hc]
    rw [loop_next hb, ih _ n (by simpa using hn)]
    simp

theorem nodes_eq {l : LinkedList α} {xs : List (ℕ × α)} (h : Repr l xs) : l.nodes = some xs := by
  have := h.length_lt
  exact nodesLoop_eq h.chain [] _ (by omega)

theorem toList_eq {l : LinkedList α} {xs : List (ℕ × α)} (h : Repr l xs) :
    l.toList = some (xs.map Prod.snd) := by
  rw [toList, nodes_eq h, Option.map_some]

theorem push_repr {l : LinkedList α} {xs : List (ℕ × α)} (h : Repr l xs) (a : α) :
    Repr (l.push a) ((l.brk, a) :: xs) where
  chain := by
    refine .cons (Nat.ne_of_gt h.brk_pos) (Function.update_self ..) (h.chain.congr ?_)
    exact fun x hx => Function.update_of_ne (Nat.ne_of_lt (h.lt_brk hx)) ..
  fresh p hp := by
    have hp : l.brk + 1 ≤ p := hp
    exact (Function.update_of_ne (by omega) ..).trans (h.fresh p (by omega))
  brk_pos := Nat.succ_pos _

/-- The address before the end of a part of the list that starts after `prev`. -/
def lastAddr (prev : ℕ) (pre : List (ℕ × α)) : ℕ := (pre.getLast?.map Prod.fst).getD prev

@[simp] theorem lastAddr_nil (prev : ℕ) : lastAddr prev ([] : List (ℕ × α)) = prev := rfl

theorem lastAddr_cons (prev : ℕ) (x : ℕ × α) (pre : List (ℕ × α)) :
    lastAddr prev (x :: pre) = lastAddr x.1 pre := by
  cases pre with
  | nil => rfl
  | cons y pre =>
    simp only [lastAddr, List.getLast?_cons, Option.map_some, Option.getD_some]

theorem findLoop_eq {cells : ℕ → Option (Cell α)} (P : α → Bool) {p : ℕ} {xs : List (ℕ × α)}
    (h : Chain cells p xs) (prev n : ℕ) (hn : xs.length < n) :
    loop (findBody cells P) n (prev, p) =
      some (lastAddr prev (xs.takeWhile fun x => !P x.2),
        ((xs.find? fun x => P x.2).map Prod.fst).getD 0) := by
  induction h generalizing prev n with
  | nil =>
    obtain ⟨n, rfl⟩ := Nat.exists_eq_add_one_of_ne_zero (by omega : n ≠ 0)
    rw [loop_done rfl]
    rfl
  | @cons p q a xs hp hc h ih =>
    obtain ⟨n, rfl⟩ := Nat.exists_eq_add_one_of_ne_zero (by omega : n ≠ 0)
    obtain ⟨p, rfl⟩ := Nat.exists_eq_succ_of_ne_zero hp
    cases hP : P a with
    | true =>
      have hb : findBody cells P (prev, p + 1) = some (.done (prev, p + 1)) := by
        simp only [findBody, hc, hP, if_true]
      rw [loop_done hb]
      simp [hP]
    | false =>
      have hb : findBody cells P (prev, p + 1) = some (.next (p + 1, q)) := by
        simp [findBody, hc, hP]
      rw [loop_next hb, ih _ n (by simpa using hn)]
      simp [hP, lastAddr_cons]

/-- **The search** stops at the first node that satisfies `P`. -/
theorem findPrev_eq {l : LinkedList α} {xs : List (ℕ × α)} (h : Repr l xs) (P : α → Bool) :
    l.findPrev P = some (lastAddr 0 (xs.takeWhile fun x => !P x.2),
      ((xs.find? fun x => P x.2).map Prod.fst).getD 0) := by
  have := h.length_lt
  exact findLoop_eq P h.chain 0 _ (by omega)

theorem findPrev_none {l : LinkedList α} {xs : List (ℕ × α)} (h : Repr l xs) {P : α → Bool}
    (hP : ∀ x ∈ xs, P x.2 = false) : ∃ prev, l.findPrev P = some (prev, 0) := by
  have hfind : xs.find? (fun x => P x.2) = none :=
    List.find?_eq_none.2 fun x hx => by simp [hP x hx]
  exact ⟨_, by rw [findPrev_eq h P, hfind, Option.map_none, Option.getD_none]⟩

theorem findPrev_some {l : LinkedList α} {pre post : List (ℕ × α)} {x : ℕ × α}
    (h : Repr l (pre ++ x :: post)) {P : α → Bool} (hpre : ∀ y ∈ pre, P y.2 = false)
    (hx : P x.2 = true) : l.findPrev P = some (lastAddr 0 pre, x.1) ∧ x.1 ≠ 0 := by
  refine ⟨(findPrev_eq h P).trans ?_, (h.chain.mem_cells (x := x) (by simp)).1⟩
  have hfind : (pre ++ x :: post).find? (fun x => P x.2) = some x :=
    List.find?_eq_some_iff_append.2 ⟨hx, pre, post, rfl, fun y hy => by simp [hpre y hy]⟩
  have htake : (pre ++ x :: post).takeWhile (fun x => !P x.2) = pre := by
    rw [List.takeWhile_append_of_pos fun y hy => by simp [hpre y hy]]
    simp [hx]
  rw [hfind, htake]
  rfl

theorem mapLoop_eq (f : ℕ → α → α) {cells : ℕ → Option (Cell α)} {p : ℕ} {xs : List (ℕ × α)}
    (h : Chain cells p xs) (n : ℕ) (hn : xs.length < n) :
    ∃ cells', loop (mapBody f) n (cells, p) = some cells' ∧
      Chain cells' p (xs.map fun x => (x.1, f x.1 x.2)) ∧
      ∀ q, q ∉ xs.map Prod.fst → cells' q = cells q := by
  induction xs generalizing cells p n with
  | nil =>
    cases h
    obtain ⟨n, rfl⟩ := Nat.exists_eq_add_one_of_ne_zero (by omega : n ≠ 0)
    exact ⟨cells, loop_done rfl n, .nil, fun _ _ => rfl⟩
  | cons x xs ih =>
    obtain ⟨n, rfl⟩ := Nat.exists_eq_add_one_of_ne_zero (by omega : n ≠ 0)
    have hnd := h.nodup
    cases h with
    | @cons p q a xs hp hc h =>
      simp only [List.map_cons, List.nodup_cons] at hnd
      obtain ⟨p, rfl⟩ := Nat.exists_eq_succ_of_ne_zero hp
      -- the rest of the list does not run through the rewritten node
      have hq : Chain (Function.update cells (p + 1) (some ⟨f (p + 1) a, q⟩)) q xs :=
        h.congr fun x hx => Function.update_of_ne
          (fun e => hnd.1 (List.mem_map.2 ⟨x, hx, e⟩)) ..
      obtain ⟨cells', hl, hch, hfr⟩ := ih hq n (by simpa using hn)
      have hb : mapBody f (cells, p + 1) = some (.next
          (Function.update cells (p + 1) (some ⟨f (p + 1) a, q⟩), q)) := by
        simp only [mapBody, hc]
      refine ⟨cells', (loop_next hb n).trans hl, .cons hp ?_ hch, fun r hr => ?_⟩
      · rw [hfr _ hnd.1, Function.update_self]
      · simp only [List.map_cons, List.mem_cons, not_or] at hr
        rw [hfr r hr.2, Function.update_of_ne hr.1]

theorem mapNodes_repr {l : LinkedList α} {xs : List (ℕ × α)} (h : Repr l xs) (f : ℕ → α → α) :
    ∃ l', l.mapNodes f = some l' ∧ Repr l' (xs.map fun x => (x.1, f x.1 x.2)) := by
  have hlen := h.length_lt
  obtain ⟨cells', hl, hch, hfr⟩ := mapLoop_eq f h.chain (l.brk + 1) (by omega)
  refine ⟨{ l with cells := cells' }, by rw [mapNodes, hl, Option.map_some], hch,
    fun p hp => ?_, h.brk_pos⟩
  refine (hfr p fun hmem => ?_).trans (h.fresh p hp)
  obtain ⟨x, hx, rfl⟩ := List.mem_map.1 hmem
  exact absurd (h.lt_brk hx) (Nat.not_lt.2 hp)

theorem update_repr {l : LinkedList α} {xs : List (ℕ × α)} (h : Repr l xs) (f : α → α)
    {p : ℕ} {a : α} (hp : (p, a) ∈ xs) :
    ∃ l', l.update p f = some l' ∧
      Repr l' (xs.map fun x => if x.1 = p then (x.1, f x.2) else x) := by
  obtain ⟨-, q, hq⟩ := h.chain.mem_cells hp
  refine ⟨{ l with cells := Function.update l.cells p (some ⟨f a, q⟩) }, by rw [update, hq]; rfl,
    h.chain.update_val p f hq, fun r hr => ?_, h.brk_pos⟩
  have : p < l.brk := h.lt_brk hp
  have hr : l.brk ≤ r := hr
  exact (Function.update_of_ne (by omega) ..).trans (h.fresh r hr)

/-- Rewriting one node's value, in place. -/
theorem update_repr_append {l : LinkedList α} {pre post : List (ℕ × α)} {x : ℕ × α}
    (h : Repr l (pre ++ x :: post)) (f : α → α) :
    ∃ l', l.update x.1 f = some l' ∧ Repr l' (pre ++ (x.1, f x.2) :: post) := by
  obtain ⟨l', hl, hr⟩ := update_repr h f (p := x.1) (a := x.2) (by simp)
  refine ⟨l', hl, ?_⟩
  have hnd := h.nodup
  simp only [List.map_append, List.map_cons, List.nodup_append, List.nodup_cons, List.mem_map,
    List.mem_cons] at hnd
  obtain ⟨-, ⟨hpost, -⟩, hdisj⟩ := hnd
  have key : ∀ zs : List (ℕ × α), (∀ y ∈ zs, y.1 ≠ x.1) →
      zs.map (fun y => if y.1 = x.1 then (y.1, f y.2) else y) = zs := fun zs hzs =>
    (List.map_congr_left fun y hy => if_neg (hzs y hy)).trans (List.map_id' _)
  rwa [List.map_append, List.map_cons, if_pos rfl,
    key pre fun y hy => hdisj y.1 ⟨y, hy, rfl⟩ x.1 (.inl rfl),
    key post fun y hy e => hpost ⟨y, hy, e⟩] at hr

/-- Pointing the node before `p` past it, and freeing `p`, takes `p` out of the chain. -/
theorem Chain.skip {cells : ℕ → Option (Cell α)} {pre post : List (ℕ × α)} {d : ℕ × α}
    {s p r : ℕ} {a : α} (h : Chain cells s (pre ++ d :: (p, a) :: post))
    (hc : cells p = some ⟨a, r⟩) :
    Chain (Function.update (Function.update cells d.1 (some ⟨d.2, r⟩)) p none) s
      (pre ++ d :: post) := by
  have hnd := h.nodup
  induction pre generalizing s with
  | nil =>
    cases h with
    | @cons _ t _ _ hs0 hsc h =>
      cases h with
      | @cons _ u _ _ hp0 hpc hpost =>
        simp only [List.nil_append, List.map_cons, List.nodup_cons, List.mem_cons, not_or] at hnd
        rw [hc] at hpc
        cases hpc
        refine .cons hs0 ?_ (hpost.congr fun x hx => ?_)
        · rw [Function.update_of_ne hnd.1.1, Function.update_self]
        · have hx' : x.1 ∈ post.map Prod.fst := List.mem_map.2 ⟨x, hx, rfl⟩
          rw [Function.update_of_ne fun e => hnd.2.1 (by rwa [e] at hx'),
            Function.update_of_ne fun e => hnd.1.2 (by rwa [e] at hx')]
  | cons y pre ih =>
    cases h with
    | @cons _ t _ _ hs0 hsc h =>
      simp only [List.cons_append, List.map_cons, List.map_append, List.nodup_cons,
        List.mem_append, List.mem_cons, not_or] at hnd
      refine .cons hs0 ?_ (ih h h.nodup)
      rw [Function.update_of_ne hnd.1.2.2.1, Function.update_of_ne hnd.1.2.1, hsc]

/-- **Unlinking**: freeing a node after pointing its predecessor, or the head, past it. -/
theorem unlink_repr {l : LinkedList α} {pre post : List (ℕ × α)} {p : ℕ} {a : α}
    (h : Repr l (pre ++ (p, a) :: post)) :
    ∃ l', l.unlink (lastAddr 0 pre) p = some l' ∧ Repr l' (pre ++ post) := by
  have hp : p < l.brk := h.lt_brk (x := (p, a)) (by simp)
  obtain ⟨hp0, r, hc⟩ := h.chain.mem_cells (x := (p, a)) (by simp)
  rcases List.eq_nil_or_concat pre with rfl | ⟨pre, d, rfl⟩
  · have hnd := h.nodup
    have hch := h.chain
    simp only [List.nil_append, List.map_cons, List.nodup_cons] at hnd hch
    refine ⟨{ l with head := r, cells := Function.update l.cells p none }, ?_, ?_,
      fun s hs => ?_, h.brk_pos⟩
    · simp only [unlink, hc, Option.bind_some, lastAddr_nil, if_true]
    · generalize hhead : l.head = s at hch
      cases hch with
      | cons _ hc' hpost =>
        rw [hc] at hc'
        cases hc'
        exact hpost.congr fun x hx => Function.update_of_ne
          (fun e => hnd.1 (List.mem_map.2 ⟨x, hx, e⟩)) ..
    · have hs : l.brk ≤ s := hs
      exact (Function.update_of_ne (by omega) ..).trans (h.fresh s hs)
  · have hd : d ∈ pre.concat d ++ (p, a) :: post := by simp
    obtain ⟨hd0, t, hdc⟩ := h.chain.mem_cells hd
    have hdlt := h.lt_brk hd
    have hlast : lastAddr 0 (pre.concat d) = d.1 := by simp [lastAddr]
    have hch := h.chain
    simp only [List.concat_eq_append, List.append_assoc, List.singleton_append] at hch ⊢
    refine ⟨{ l with cells :=
        Function.update (Function.update l.cells d.1 (some ⟨d.2, r⟩)) p none }, ?_,
      hch.skip hc, fun s hs => ?_, h.brk_pos⟩
    · rw [← List.concat_eq_append, hlast, unlink, hc, Option.bind_some, if_neg hd0, hdc]
      rfl
    · have hs : l.brk ≤ s := hs
      exact (Function.update_of_ne (by omega) ..).trans
        ((Function.update_of_ne (by omega) ..).trans (h.fresh s hs))

/-! ## Linking new nodes -/

/-- The cells other than a new one are as they were. -/
theorem malloc_of_ne (l : LinkedList α) (a : α) {p : ℕ} (hp : p ≠ l.brk) :
    (l.malloc a).cells p = l.cells p := Function.update_of_ne hp ..

theorem malloc_chain {l : LinkedList α} {xs ys : List (ℕ × α)} {p : ℕ} (h : Repr l xs)
    (hp : Chain l.cells p ys) (a : α) :
    Chain (l.malloc a).cells p ys ∧ Chain (l.malloc a).cells l.brk [(l.brk, a)] := by
  refine ⟨hp.congr fun y hy => malloc_of_ne l a fun e => ?_,
    .cons (Nat.ne_of_gt h.brk_pos) (Function.update_self ..) .nil⟩
  obtain ⟨-, q, hq⟩ := hp.mem_cells hy
  rw [e] at hq
  exact absurd (hq.symm.trans (h.fresh _ (Nat.le_refl _))) (Option.some_ne_none _)

theorem head_eq {l : LinkedList α} {xs : List (ℕ × α)} (h : Repr l xs) :
    l.head = lastAddr 0 (xs.take 1) := by
  have hch := h.chain
  cases xs with
  | nil =>
    generalize l.head = s at hch
    cases hch
    rfl
  | cons x xs =>
    generalize l.head = s at hch
    cases hch
    rfl

/-- **Linking a new node** behind the node at `p`, wherever that is in the list, makes it the last
one: what came after `p` is no longer reached. -/
theorem link_repr {l : LinkedList α} {xs : List (ℕ × α)} (h : Repr l xs) (a : α) {n : ℕ}
    (hn : n = 0 → xs = []) :
    ∃ l', (l.malloc a).link (lastAddr 0 (xs.take n)) l.brk = some l' ∧
      Repr l' (xs.take n ++ [(l.brk, a)]) ∧ l'.brk = l.brk + 1 ∧
      ∀ p, p ∉ xs.map Prod.fst → p ≠ l.brk → l'.cells p = l.cells p := by
  obtain ⟨hold, hnew⟩ := malloc_chain h h.chain a
  have hfresh : ∀ p, l.brk + 1 ≤ p → (l.malloc a).cells p = none := fun p hp =>
    (malloc_of_ne l a (by omega)).trans (h.fresh p (by omega))
  rcases List.eq_nil_or_concat (xs.take n) with hnil | ⟨pre, d, hcat⟩
  · obtain rfl : xs = [] := (List.take_eq_nil_iff.1 hnil).elim hn id
    have hhead : l.head = 0 := head_eq h
    refine ⟨{ l.malloc a with head := l.brk }, if_pos hhead, ?_, rfl, fun p _ hp =>
      malloc_of_ne l a hp⟩
    rw [List.take_nil]
    exact ⟨hnew, hfresh, Nat.succ_pos _⟩
  · rw [List.concat_eq_append] at hcat
    have hxs : xs = pre ++ d :: xs.drop n := by
      rw [← List.singleton_append, ← List.append_assoc, ← hcat, List.take_append_drop]
    have hlast : lastAddr 0 (xs.take n) = d.1 := by simp [hcat, lastAddr]
    have hmem : d ∈ xs := by
      rw [hxs]
      simp
    obtain ⟨-, q, hq⟩ := hold.mem_cells hmem
    have hdlt := h.lt_brk hmem
    have hhead : (l.malloc a).head ≠ 0 := by
      intro hzero
      have hch : Chain l.cells (l.malloc a).head xs := h.chain
      rw [hzero] at hch
      rw [hch.unique .nil] at hmem
      exact absurd hmem List.not_mem_nil
    refine ⟨{ l.malloc a with
        cells := Function.update (l.malloc a).cells d.1 (some ⟨d.2, l.brk⟩) }, ?_,
      ⟨?_, fun p hp => ?_, Nat.succ_pos _⟩, rfl, fun p hp hne => ?_⟩
    · rw [hlast, link, if_neg hhead, setNext, hq]
      rfl
    · rw [hcat, List.append_assoc, List.singleton_append]
      rw [hxs] at hold
      refine hold.relink hnew ?_
      rw [List.map_singleton, List.mem_singleton]
      exact Nat.ne_of_lt hdlt
    · have hp : l.brk + 1 ≤ p := hp
      exact (Function.update_of_ne (by omega) ..).trans (hfresh p hp)
    · have hpd : p ≠ d.1 := fun e => hp (List.mem_map.2 ⟨d, hmem, e.symm⟩)
      exact (Function.update_of_ne hpd ..).trans (malloc_of_ne l a hne)

/-! ## Lists that grow at their end -/

/-- A list with the pointer to its last node that a loop keeps while it builds the list. -/
structure Growing (l : LinkedList α) (last : ℕ) (xs : List (ℕ × α)) : Prop where
  repr : l.Repr xs
  last_eq : last = lastAddr 0 xs

theorem empty_growing : Growing (empty : LinkedList α) 0 [] := ⟨empty_repr, rfl⟩

/-- A new node behind the last one. -/
theorem Growing.link {l : LinkedList α} {last : ℕ} {xs : List (ℕ × α)} (h : Growing l last xs)
    (a : α) : ∃ l', (l.malloc a).link last l.brk = some l' ∧
      Growing l' l.brk (xs ++ [(l.brk, a)]) := by
  obtain ⟨l', hlink, hrepr, -, -⟩ := link_repr h.repr a (n := xs.length) List.length_eq_zero_iff.1
  rw [List.take_length] at hlink hrepr
  rw [← h.last_eq] at hlink
  exact ⟨l', hlink, hrepr, by simp [lastAddr]⟩

end LinkedList

end VirtualRsp
