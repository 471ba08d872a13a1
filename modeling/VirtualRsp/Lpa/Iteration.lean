import VirtualRsp.Foundations.Base128
import VirtualRsp.Foundations.Cursor
import VirtualRsp.Lpa.PackagePieces

/-!
# Walking through data objects with pointers

`unpackFirst`, `unpackNext`, `findAliasTags` and `findTag` are the readers of data objects as the C
code has them, with the pointer to the next byte and the 32-bit count of the bytes that are left. A
read outside of the buffer is a fault; so is a count of remaining bytes that wraps.

On every buffer they have no faults and do what `Lpa.unpackFirst` and `Lpa.unpackAll` do on the
bytes (`unpackFirst_eq`, `iterate_eq`, `findAliasTags_eq`). So the walk ends, its nodes lie in the
buffer one after the other, and the search finds the first of them with the tag
(`iteration_safe`).
-/

namespace VirtualRsp.Lpa.Walk

open Cursor Tiling

/-! ## The readers -/

/-- `struct euicc_derutil_node` as the readers fill it; pointers are addresses. -/
structure DerNode where
  tag : ℕ
  length : ℕ
  value : ℕ
  selfPtr : ℕ
  selfLength : ℕ
  deriving DecidableEq

/-- The tag: one byte, or two if the low five bits of the first are all ones. -/
def readTag (s : Slice) : Program Cursor ℕ := do
  require 1
  let tag ← next s
  if tag.toNat &&& 0x1F = 0x1F then
    require 1
    let low ← next s
    return (tag.toNat <<< 8 ||| low.toNat) % 2 ^ 16
  else return tag.toNat

/-- The loop over the bytes of a length; `length` is a `uint32_t`. -/
def lengthBytes (s : Slice) : ℕ → ℕ → Program Cursor ℕ
  | 0, length => pure length
  | lengthlen + 1, length => do
    let b ← next s
    lengthBytes s lengthlen ((length <<< 8 ||| b.toNat) % 2 ^ 32)

/-- The length, in the short or in the long form. -/
def readLength (s : Slice) : Program Cursor ℕ := do
  require 1
  let length ← next s
  if length.toNat &&& 0x80 = 0 then return length.toNat
  else
    let lengthlen := length.toNat &&& 0x7F
    require lengthlen
    lengthBytes s lengthlen 0

/-- The header of an object whose value is in the slice as well. -/
def readHeader (s : Slice) : Program Cursor (ℕ × ℕ) := do
  let tag ← readTag s
  let length ← readLength s
  require length
  return (tag, length)

/-- `euicc_derutil_unpack_first`: a node, or `none` for the result -1. -/
def unpackFirst (s : Slice) : Option (Option DerNode) :=
  (readHeader s (start s)).map fun r => r.2.map fun header =>
    ⟨header.1, header.2, r.1.cptr, s.ptr, (r.1.cptr - s.ptr + header.2) % 2 ^ 32⟩

/-- `euicc_derutil_unpack_next`; the rest of the buffer is what is behind the node before. -/
def unpackNext (s : Slice) (prev : DerNode) : Option (Option DerNode) :=
  let cptr := prev.selfPtr + prev.selfLength
  if s.ptr ≤ cptr ∧ cptr - s.ptr ≤ s.len then
    unpackFirst ⟨s.memory, cptr, s.len - (cptr - s.ptr)⟩
  else none

/-- The empty node at the start of a buffer, which a walk starts with. -/
def emptyNode (s : Slice) : DerNode := ⟨0, 0, 0, s.ptr, 0⟩

/-- One round of a walk, with the nodes so far. -/
def iterateBody (s : Slice) (st : DerNode × List DerNode) :
    Option (Ctl (DerNode × List DerNode) (List DerNode)) :=
  (unpackNext s st.1).map fun
    | none => .done st.2
    | some node => .next (node, st.2 ++ [node])

/-- The nodes that `while (euicc_derutil_unpack_next(&n, &n, buffer, buffer_len) == 0)` yields. A
node takes a byte at least, which bounds the rounds. -/
def iterate (s : Slice) : Option (List DerNode) :=
  loop (iterateBody s) (s.len + 1) (emptyNode s, [])

/-- One round of a search. -/
def findAliasTagsBody (s : Slice) (tags : List ℕ) (prev : DerNode) :
    Option (Ctl DerNode (Option DerNode)) :=
  (unpackNext s prev).map fun
    | none => .done none
    | some node => if node.tag ∈ tags then .done (some node) else .next node

/-- `euicc_derutil_unpack_find_alias_tags`. -/
def findAliasTags (s : Slice) (tags : List ℕ) : Option (Option DerNode) :=
  loop (findAliasTagsBody s tags) (s.len + 1) (emptyNode s)

/-- `euicc_derutil_unpack_find_tag`. -/
def findTag (s : Slice) (tag : ℕ) : Option (Option DerNode) := findAliasTags s [tag]

/-! ## What the readers of a header compute -/

theorem and_five_bits (n : ℕ) : n &&& 0x1F = n % 32 := Nat.and_two_pow_sub_one_eq_mod n 5

theorem and_seven_bits {n : ℕ} (hn : n < 256) (h : ¬ n < 128) : n &&& 0x7F = n - 128 := by
  have hmod : n &&& 0x7F = n % 128 := Nat.and_two_pow_sub_one_eq_mod n 7
  omega

theorem shift_or_byte (n : ℕ) (b : UInt8) : n <<< 8 ||| b.toNat = n * 256 + b.toNat := by
  rw [← Nat.shiftLeft_add_eq_or_of_lt (i := 8) b.toNat_lt, Nat.shiftLeft_eq]

theorem readTag_reads (s : Slice) : Reads s (readTag s) Der.readTag := by
  refine Reads.congr (Reads.byte fun tag =>
    Reads.ite (Reads.byte fun low => Reads.pure _) (Reads.pure _)) ?_
  intro xs
  cases xs with
  | nil => rfl
  | cons tag xs =>
    simp only [Der.readTag, and_five_bits]
    split
    · cases xs with
      | nil => rfl
      | cons low xs =>
        have hlow := low.toNat_lt
        have htag := tag.toNat_lt
        simp only [shift_or_byte]
        rw [Nat.mod_eq_of_lt (by omega)]
    · rfl

/-- The accumulator of a length keeps the low 32 bits. -/
theorem ofBe_mod (acc : ℕ) (bs : Bytes) :
    Der.ofBe (acc % 2 ^ 32) bs % 2 ^ 32 = Der.ofBe acc bs % 2 ^ 32 := by
  rw [Der.ofBe_eq (acc % 2 ^ 32), Der.ofBe_eq acc, Nat.add_mod, Nat.mod_mul_mod, ← Nat.add_mod]

theorem lengthBytes_spec {s : Slice} (lengthlen acc : ℕ) {c : Cursor} {xs : Bytes} (h : c.At s xs)
    (hlen : lengthlen ≤ xs.length) (hacc : acc < 2 ^ 32) :
    ∃ c', lengthBytes s lengthlen acc c =
        some (c', some (Der.ofBe acc (xs.take lengthlen) % 2 ^ 32)) ∧
      c'.At s (xs.drop lengthlen) := by
  induction lengthlen generalizing acc c xs with
  | zero =>
    exact ⟨c, by rw [List.take_zero, Der.ofBe, List.foldl_nil, Nat.mod_eq_of_lt hacc]; rfl, h⟩
  | succ lengthlen ih =>
    cases xs with
    | nil => cases hlen
    | cons b xs =>
      obtain ⟨hnext, hat⟩ := h.next
      have hmod : (acc <<< 8 ||| b.toNat) % 2 ^ 32 < 2 ^ 32 := Nat.mod_lt _ (by decide)
      obtain ⟨c', hc', hat'⟩ := ih _ hat (Nat.le_of_succ_le_succ hlen) hmod
      refine ⟨c', ?_, hat'⟩
      rw [lengthBytes, Program.bind_of_returns hnext, hc', shift_or_byte, ofBe_mod]
      rfl

/-- The length of an object: what is read of it is kept in 32 bits. -/
theorem readLength_reads (s : Slice) :
    Reads s (readLength s) fun xs => (Der.readLen xs).map fun r => (r.1 % 2 ^ 32, r.2) := by
  have hlong : ∀ lengthlen, Reads s (do require lengthlen; lengthBytes s lengthlen 0) fun xs =>
      if lengthlen ≤ xs.length then
        some (Der.ofBe 0 (xs.take lengthlen) % 2 ^ 32, xs.drop lengthlen)
      else none := by
    intro lengthlen c xs h
    by_cases hle : lengthlen ≤ xs.length
    · obtain ⟨c', hc', hat⟩ := lengthBytes_spec lengthlen 0 h hle (by decide)
      have hgo : require lengthlen c = some (c, some ()) := by
        rw [require, h.2.2.1, if_neg (by omega)]
      rw [Program.bind_of_returns hgo]
      simp only [if_pos hle]
      refine ⟨c', hc', ?_⟩
      rintro _ ⟨⟩
      exact hat
    · have hstop : require lengthlen c = some (c, none) := by
        rw [require, h.2.2.1, if_pos (by omega)]
      simp only [if_neg hle]
      refine ⟨c, Program.bind_of_fails hstop, ?_⟩
      rintro _ ⟨⟩
  refine Reads.congr (Reads.byte fun length => Reads.ite (Reads.pure _) (hlong _)) ?_
  intro xs
  cases xs with
  | nil => rfl
  | cons b xs =>
    simp only [Der.readLen, Base128.and_high_eq_zero]
    by_cases hb : b.toNat < 128
    · rw [if_pos hb, if_pos hb, Option.map_some, Nat.mod_eq_of_lt (by omega)]
    · rw [and_seven_bits b.toNat_lt hb, if_neg hb, if_neg hb]
      by_cases hle : b.toNat - 128 ≤ xs.length
      · rw [if_pos hle, if_pos hle, Option.map_some]
      · rw [if_neg hle, if_neg hle, Option.map_none]

/-- The header of the first object. -/
def header (xs : Bytes) : Option ((ℕ × ℕ) × Bytes) := do
  let (tag, cptr) ← Der.readTag xs
  let (length, cptr) ← Der.readLen cptr
  let length := length % 2 ^ 32
  if cptr.length < length then none
  else return ((tag, length), cptr)

theorem readHeader_reads (s : Slice) : Reads s (readHeader s) header := by
  refine Reads.congr ((readTag_reads s).bind fun tag => (readLength_reads s).bind fun length =>
    (Reads.require length).bind fun _ => Reads.pure (tag, length)) ?_
  intro xs
  rw [header]
  cases Der.readTag xs with
  | none => rfl
  | some t =>
    simp only [Option.bind_some, Option.bind_eq_bind]
    cases Der.readLen t.2 with
    | none => rfl
    | some l =>
      simp only [Option.map_some, Option.bind_some]
      split <;> rfl

theorem unpackFirst_header (xs : Bytes) :
    Lpa.unpackFirst xs = (header xs).map fun r =>
      (⟨r.1.1, xs.take (xs.length - r.2.length), r.2.take r.1.2⟩, r.2.drop r.1.2) := by
  rw [Lpa.unpackFirst, header]
  cases Der.readTag xs with
  | none => rfl
  | some t =>
    simp only [Option.bind_some, Option.bind_eq_bind]
    cases Der.readLen t.2 with
    | none => rfl
    | some l =>
      simp only [Option.bind_some]
      split <;> rfl

theorem length_of_header {xs : Bytes} {r : (ℕ × ℕ) × Bytes} (h : header xs = some r) :
    r.1.2 ≤ r.2.length ∧ r.2.length ≤ xs.length := by
  simp only [header, Option.bind_eq_bind, Option.bind_eq_some_iff] at h
  obtain ⟨⟨tag, afterTag⟩, htag, ⟨length, cptr⟩, hlen, h⟩ := h
  obtain ⟨tagBytes, rfl, -⟩ := Der.readTag_suffix htag
  obtain ⟨lenBytes, rfl, -⟩ := Der.readLen_suffix hlen
  split at h
  · cases h
  · rename_i hroom
    cases h
    refine ⟨Nat.not_lt.1 hroom, ?_⟩
    simp only [List.length_append]
    omega

/-! ## Walks -/

/-- The node of an object at its place. -/
def DerNode.of (x : ℕ × Node) : DerNode :=
  ⟨x.2.tag, x.2.value.length, x.1 + x.2.header.length, x.1, x.2.size⟩

/-- **The first object** of a buffer is read without faults. -/
theorem unpackFirst_eq (b : Buffer) :
    unpackFirst b.toSlice =
      some ((Lpa.unpackFirst b.bytes).map fun r => DerNode.of (b.ptr, r.1)) := by
  obtain ⟨c, hc, hat⟩ := readHeader_reads b.toSlice _ _ (at_start b)
  rw [unpackFirst, hc, unpackFirst_header, Option.map_some]
  congr 1
  cases hh : header b.bytes with
  | none => rfl
  | some r =>
    obtain ⟨hptr, hend, hrlen, -⟩ := hat r hh
    obtain ⟨hvalue, hrest⟩ := length_of_header hh
    have hlen := b.length_bytes
    have hlt := b.len_lt
    have hheader : (b.bytes.take (b.bytes.length - r.2.length)).length = c.cptr - b.ptr := by
      rw [List.length_take]
      omega
    have hval : (r.2.take r.1.2).length = r.1.2 := List.length_take_of_le hvalue
    simp only [Option.map_some, DerNode.of, size_eq, hheader, hval]
    rw [Nat.mod_eq_of_lt (by omega), Nat.add_sub_cancel' hptr]

/-- The bytes `rest` of the buffer are behind the node. -/
def After (b : Buffer) (prev : DerNode) (rest : Bytes) : Prop :=
  ∃ offset ≤ b.len, prev.selfPtr + prev.selfLength = b.ptr + offset ∧ rest = b.bytes.drop offset

theorem after_emptyNode (b : Buffer) : After b (emptyNode b.toSlice) b.bytes :=
  ⟨0, Nat.zero_le _, rfl, rfl⟩

/-- **The next object** is the first one of what is behind the node. -/
theorem unpackNext_spec {b : Buffer} {prev : DerNode} {rest : Bytes} (h : After b prev rest) :
    unpackNext b.toSlice prev = some ((Lpa.unpackFirst rest).map fun r =>
        DerNode.of (prev.selfPtr + prev.selfLength, r.1)) ∧
      ∀ r, Lpa.unpackFirst rest = some r →
        After b (DerNode.of (prev.selfPtr + prev.selfLength, r.1)) r.2 := by
  obtain ⟨offset, hoffset, hend, rfl⟩ := h
  have hlen := b.length_bytes
  have hsub : b.ptr + offset - b.ptr = offset := Nat.add_sub_cancel_left ..
  let later : Buffer := ⟨⟨b.memory, b.ptr + offset, b.len - offset⟩,
    by have := b.fits; change b.ptr + offset + (b.len - offset) ≤ b.memory.length; omega,
    by have := b.len_lt; change b.len - offset < _; omega⟩
  have hbytes : later.bytes = b.bytes.drop offset := by
    rw [show later.toSlice = ⟨b.memory, b.ptr + offset, b.len - offset⟩ from rfl,
      Slice.bytes_part b.toSlice (by omega)]
    exact List.take_of_length_le (by rw [List.length_drop]; omega)
  rw [hend]
  constructor
  · rw [unpackNext, hend, if_pos ⟨Nat.le_add_right _ _, by omega⟩, hsub, ← hbytes]
    exact unpackFirst_eq later
  · intro r hr
    obtain ⟨hself, -⟩ := unpackFirst_self hr
    have hsize := congrArg List.length hself
    rw [List.length_append, List.length_drop] at hsize
    refine ⟨offset + r.1.self.length, by omega, by rw [← Nat.add_assoc]; rfl, ?_⟩
    rw [← List.drop_drop, ← hself, List.drop_left]

theorem iterate_from {b : Buffer} (fuel : ℕ) {prev : DerNode} {rest : Bytes} (h : After b prev rest)
    (hfuel : rest.length < fuel) (nodes : List DerNode) :
    loop (iterateBody b.toSlice) fuel (prev, nodes) = some (nodes ++
      (place Node.size (prev.selfPtr + prev.selfLength) (unpackAllFuel fuel rest)).map
        DerNode.of) := by
  induction fuel generalizing prev rest nodes with
  | zero => cases hfuel
  | succ fuel ih =>
    obtain ⟨hnext, hafter⟩ := unpackNext_spec h
    rw [unpackAllFuel]
    cases hr : Lpa.unpackFirst rest with
    | none =>
      have hdone : iterateBody b.toSlice (prev, nodes) = some (.done nodes) := by
        rw [iterateBody, hnext, hr]
        rfl
      rw [loop_done hdone]
      exact congrArg some (List.append_nil nodes).symm
    | some r =>
      have hgo : iterateBody b.toSlice (prev, nodes) = some (.next
          (DerNode.of (prev.selfPtr + prev.selfLength, r.1),
            nodes ++ [DerNode.of (prev.selfPtr + prev.selfLength, r.1)])) := by
        rw [iterateBody, hnext, hr]
        rfl
      obtain ⟨hself, hpos⟩ := unpackFirst_self hr
      have hsize := congrArg List.length hself
      rw [List.length_append, Node.self, List.length_append] at hsize
      rw [loop_next hgo, ih (hafter r hr) (by omega), List.append_assoc]
      rfl

/-- **The walk** ends, without faults, with the objects of the buffer. -/
theorem iterate_eq (b : Buffer) :
    iterate b.toSlice = some ((unpackAllAt b.ptr b.bytes).map DerNode.of) := by
  rw [unpackAllAt, unpackAll, b.length_bytes]
  exact iterate_from (b.len + 1) (after_emptyNode b) (by rw [b.length_bytes]; omega) []

theorem findAliasTags_from {b : Buffer} (tags : List ℕ) (fuel : ℕ) {prev : DerNode} {rest : Bytes}
    (h : After b prev rest) (hfuel : rest.length < fuel) :
    loop (findAliasTagsBody b.toSlice tags) fuel prev =
      some (((place Node.size (prev.selfPtr + prev.selfLength) (unpackAllFuel fuel rest)).map
        DerNode.of).find? (·.tag ∈ tags)) := by
  induction fuel generalizing prev rest with
  | zero => cases hfuel
  | succ fuel ih =>
    obtain ⟨hnext, hafter⟩ := unpackNext_spec h
    rw [unpackAllFuel]
    cases hr : Lpa.unpackFirst rest with
    | none =>
      have hdone : findAliasTagsBody b.toSlice tags prev = some (.done none) := by
        rw [findAliasTagsBody, hnext, hr]
        rfl
      rw [loop_done hdone]
      rfl
    | some r =>
      rw [place, List.map_cons, List.find?_cons]
      generalize hnode : DerNode.of (prev.selfPtr + prev.selfLength, r.1) = node
      have hround : findAliasTagsBody b.toSlice tags prev =
          some (if node.tag ∈ tags then .done (some node) else .next node) := by
        rw [findAliasTagsBody, hnext, hr, ← hnode]
        rfl
      by_cases htag : node.tag ∈ tags
      · rw [if_pos htag] at hround
        rw [loop_done hround]
        simp [htag]
      · rw [if_neg htag] at hround
        obtain ⟨hself, hpos⟩ := unpackFirst_self hr
        have hsize := congrArg List.length hself
        rw [List.length_append, Node.self, List.length_append] at hsize
        have hrest := ih (hafter r hr) (by omega)
        rw [hnode] at hrest
        rw [loop_next hround, hrest, decide_eq_false htag]
        subst hnode
        rfl

/-- **The search** ends, without faults, with the first object with one of the tags. -/
theorem findAliasTags_eq (b : Buffer) (tags : List ℕ) :
    findAliasTags b.toSlice tags =
      some (((unpackAllAt b.ptr b.bytes).map DerNode.of).find? (·.tag ∈ tags)) := by
  rw [unpackAllAt, unpackAll, b.length_bytes]
  exact findAliasTags_from tags (b.len + 1) (after_emptyNode b) (by rw [b.length_bytes]; omega)

/-! ## Where the nodes are -/

/-- A node with its header and its value in a slice: the header in front, and as many bytes of value
as the node says. -/
def DerNode.Inside (s : Slice) (node : DerNode) : Prop :=
  s.ptr ≤ node.selfPtr ∧ node.selfPtr < node.value ∧
    node.value + node.length = node.selfPtr + node.selfLength ∧
    node.value + node.length ≤ s.ptr + s.len

/-- Nodes that stand one after the other from an address on. -/
def Adjacent : ℕ → List DerNode → Prop
  | _, [] => True
  | ptr, node :: nodes => node.selfPtr = ptr ∧ Adjacent (ptr + node.selfLength) nodes

theorem adjacent_place (ptr : ℕ) (nodes : List Node) :
    Adjacent ptr ((place Node.size ptr nodes).map DerNode.of) := by
  induction nodes generalizing ptr with
  | nil => trivial
  | cons node nodes ih => exact ⟨rfl, ih (ptr + node.size)⟩

theorem inside_of_mem {b : Buffer} {x : ℕ × Node} (hx : x ∈ unpackAllAt b.ptr b.bytes) :
    (DerNode.of x).Inside b.toSlice := by
  obtain ⟨before, after, hnodes, hptr⟩ := mem_place hx
  have hheader : 0 < x.2.header.length := by
    apply @length_header_pos b.bytes
    rw [hnodes]
    exact List.mem_append_right _ List.mem_cons_self
  have hlen := total_unpackAll_le b.bytes
  rw [hnodes, total_append, total_cons, b.length_bytes] at hlen
  have hsize := size_eq x.2
  refine ⟨?_, ?_, ?_, ?_⟩
  · change b.ptr ≤ x.1
    omega
  · change x.1 < x.1 + x.2.header.length
    omega
  · change x.1 + x.2.header.length + x.2.value.length = x.1 + x.2.size
    omega
  · change x.1 + x.2.header.length + x.2.value.length ≤ b.ptr + b.len
    omega

/-- **Walking through any buffer**: the walk ends without a read outside of the buffer and without a
count that wraps, its nodes lie in the buffer one after the other from its start, and the search for
a tag finds the first of them with the tag, and nothing if there is none. -/
theorem iteration_safe (b : Buffer) :
    ∃ nodes, iterate b.toSlice = some nodes ∧ (∀ node ∈ nodes, node.Inside b.toSlice) ∧
      Adjacent b.ptr nodes ∧
      ∀ tag, findTag b.toSlice tag = some (nodes.find? (·.tag = tag)) := by
  refine ⟨_, iterate_eq b, ?_, adjacent_place _ _, ?_⟩
  · intro node hnode
    obtain ⟨x, hx, rfl⟩ := List.mem_map.1 hnode
    exact inside_of_mem hx
  · intro tag
    rw [findTag, findAliasTags_eq]
    simp only [List.mem_singleton]

end VirtualRsp.Lpa.Walk
