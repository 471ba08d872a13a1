import VirtualRsp.Lpa.Iteration
import VirtualRsp.Protocol.Codec

/-!
# Packing a tree of data objects and walking through it

`Shows` compares a tree of nodes with what the pointers of `euicc_derutil_unpack_next` show of a
memory, level by level: a node and those that follow it are the nodes of one walk, and the nodes
below it are those of the walk through its value.

`pack_walk`: what `euicc_derutil_pack` writes of a tree shows the tree.
-/

namespace VirtualRsp.Codec.PackNode

open Lpa Tiling

/-- Every node has a header, with a tag of one or two bytes. -/
def Tagged : PackNode → Prop
  | .null => True
  | .node tag _ headless _ _ _ child next =>
    headless = false ∧ Der.IsTag tag ∧ Tagged child ∧ Tagged next

/-- A node and those that follow it: their tags and what they contain. -/
def siblings : PackNode → List (ℕ × Bytes)
  | .null => []
  | .node tag _ _ value _ _ child next => (tag, content value child) :: siblings next

/-- The bytes of a node and of its value. -/
def selfBytes (memory : Bytes) (d : Walk.DerNode) : Bytes :=
  (⟨memory, d.selfPtr, d.selfLength⟩ : Slice).bytes

def valueBytes (memory : Bytes) (d : Walk.DerNode) : Bytes :=
  (⟨memory, d.value, d.length⟩ : Slice).bytes

/-- The nodes of a walk are those of a tree: the same tags in the same order; a leaf has its value,
and the value of any other node is the concatenation of the nodes that a walk through it yields,
which are those of its children. -/
def Shows (memory : Bytes) : PackNode → List Walk.DerNode → Prop
  | .null, nodes => nodes = []
  | .node _ _ _ _ _ _ _ _, [] => False
  | .node tag _ _ value _ _ child next, d :: nodes =>
    d.tag = tag ∧ valueBytes memory d = content value child ∧
      (child ≠ .null → ∃ children, Walk.iterate ⟨memory, d.value, d.length⟩ = some children ∧
        valueBytes memory d = children.flatMap (selfBytes memory) ∧ Shows memory child children) ∧
      Shows memory next nodes

theorem encoding_eq_tlvs {node : PackNode} (ht : node.Tagged) :
    node.encoding = Der.tlvs node.siblings := by
  induction node with
  | null => rfl
  | node tag length headless value selfLength selfPtr child next ihc ihn =>
    obtain ⟨rfl, -, -, hnext⟩ := ht
    rw [siblings, Der.tlvs_cons, ← ihn hnext]
    rfl

theorem isTag_of_siblings {node : PackNode} (ht : node.Tagged) :
    ∀ t ∈ node.siblings.map Prod.fst, Der.IsTag t := by
  induction node with
  | null => exact fun t h => absurd h List.not_mem_nil
  | node tag length headless value selfLength selfPtr child next ihc ihn =>
    obtain ⟨-, htag, -, hnext⟩ := ht
    exact List.forall_mem_cons.2 ⟨htag, ihn hnext⟩

/-- The nodes that the objects of a level have when the level stands at an address. -/
def nodesAt (ptr : ℕ) (objs : List (ℕ × Bytes)) : List Walk.DerNode :=
  (place Node.size ptr (objs.map fun x => Node.of x.1 x.2)).map Walk.DerNode.of

theorem nodesAt_cons (ptr tag : ℕ) (value : Bytes) (objs : List (ℕ × Bytes)) :
    nodesAt ptr ((tag, value) :: objs) = Walk.DerNode.of (ptr, .of tag value) ::
      nodesAt (ptr + (Der.tlv tag value).length) objs := rfl

/-- **A level**: the walk through an encoded level yields its objects. -/
theorem iterate_siblings {node : PackNode} (ht : node.Tagged) (hlen : node.encoding.length < 2 ^ 32)
    {memory after : Bytes} {ptr : ℕ} (hptr : ptr ≤ memory.length)
    (hmem : memory.drop ptr = node.encoding ++ after) :
    Walk.iterate ⟨memory, ptr, node.encoding.length⟩ = some (nodesAt ptr node.siblings) := by
  have hfits : ptr + node.encoding.length ≤ memory.length := by
    have := congrArg List.length hmem
    rw [List.length_drop, List.length_append] at this
    omega
  let b : Buffer := ⟨⟨memory, ptr, node.encoding.length⟩, hfits, hlen⟩
  have hbytes : b.bytes = Der.tlvs node.siblings := by
    change (memory.drop ptr).take node.encoding.length = _
    rw [hmem, List.take_left, encoding_eq_tlvs ht]
  rw [encoding_eq_tlvs ht] at hlen
  change Walk.iterate b.toSlice = _
  rw [Walk.iterate_eq, unpackAllAt, hbytes, unpackAll_tlvs (isTag_of_siblings ht) hlen]
  rfl

/-- The memory of a level is the concatenation of its nodes. -/
theorem flatMap_selfBytes {objs : List (ℕ × Bytes)} {memory after : Bytes} {ptr : ℕ}
    (hmem : memory.drop ptr = Der.tlvs objs ++ after) :
    (nodesAt ptr objs).flatMap (selfBytes memory) = Der.tlvs objs := by
  induction objs generalizing ptr with
  | nil => rfl
  | cons x objs ih =>
    rw [Der.tlvs_cons, List.append_assoc] at hmem
    have hself : selfBytes memory (Walk.DerNode.of (ptr, .of x.1 x.2)) = Der.tlv x.1 x.2 := by
      change (memory.drop ptr).take (Der.tlv x.1 x.2).length = _
      rw [hmem, List.take_left]
    have hrest : memory.drop (ptr + (Der.tlv x.1 x.2).length) = Der.tlvs objs ++ after := by
      rw [← List.drop_drop, hmem, List.drop_left]
    rw [nodesAt_cons, List.flatMap_cons, hself, ih hrest, Der.tlvs_cons]

/-- **An encoded tree shows the tree**, wherever it stands and whatever follows it. -/
theorem shows_of_memory {node : PackNode} (hw : node.WellFormed) (ht : node.Tagged)
    (hlen : node.encoding.length < 2 ^ 32) {memory after : Bytes} {ptr : ℕ}
    (hmem : memory.drop ptr = node.encoding ++ after) :
    Shows memory node (nodesAt ptr node.siblings) := by
  induction node generalizing ptr after with
  | null => rfl
  | node tag length headless value selfLength selfPtr child next ihc ihn =>
    have hchildLen := length_child_lt hw hlen
    have henc := encoding_node hw
    obtain ⟨rfl, htag, hchild, hnext⟩ := ht
    change _ = Der.tlv tag (content value child) ++ next.encoding at henc
    rw [henc, List.append_assoc] at hmem
    rw [henc, List.length_append] at hlen
    set header := Der.tagBytes tag ++ Der.lenBytes (content value child).length with hheader
    have hvalueMem : memory.drop (ptr + header.length) =
        content value child ++ (next.encoding ++ after) := by
      rw [← List.drop_drop, hmem, Der.tlv, List.append_assoc, List.drop_left]
    have hvalue : valueBytes memory (Walk.DerNode.of (ptr, .of tag (content value child))) =
        content value child := by
      change (memory.drop (ptr + header.length)).take (content value child).length = _
      rw [hvalueMem, List.take_left]
    refine ⟨rfl, hvalue, ?_, ?_⟩
    · intro hne
      have hcontent : content value child = child.encoding := if_neg hne
      have hptr : ptr + header.length ≤ memory.length := by
        have hmemLen := congrArg List.length hmem
        have htagLen := Der.length_tagBytes_pos tag
        simp only [List.length_drop, List.length_append, Der.tlv] at hmemLen
        rw [hheader, List.length_append]
        omega
      rw [hcontent] at hvalueMem
      refine ⟨nodesAt (ptr + header.length) child.siblings, ?_, ?_,
        ihc hw.2.2.1 hchild hchildLen hvalueMem⟩
      · change Walk.iterate ⟨memory, ptr + header.length, (content value child).length⟩ = _
        rw [hcontent]
        exact iterate_siblings hchild hchildLen hptr hvalueMem
      · rw [encoding_eq_tlvs hchild] at hvalueMem
        rw [hvalue, hcontent, flatMap_selfBytes hvalueMem, encoding_eq_tlvs hchild]
    · apply ihn hw.2.2.2 hnext (by omega)
      change memory.drop (ptr + (Der.tlv tag (content value child)).length) = _
      rw [← List.drop_drop, hmem, List.drop_left]

/-- **Packing and unpacking are inverse**: `euicc_derutil_pack` refuses a buffer that is too small;
in any other it writes the encoding of the tree, as many bytes as it announces and none behind them,
and walking through these bytes shows the tree. -/
theorem pack_walk {node : PackNode} (hw : node.WellFormed) (ht : node.Tagged)
    (hlen : node.encoding.length < 2 ^ 31) {buffer : Bytes} (hb : buffer.length < 2 ^ 32) :
    (buffer.length < node.encoding.length → pack buffer node = none) ∧
    (node.encoding.length ≤ buffer.length → ∃ memory nodes,
      pack buffer node = some (some memory, node.encoding.length) ∧
      memory = node.encoding ++ buffer.drop node.encoding.length ∧
      Walk.iterate ⟨memory, 0, node.encoding.length⟩ = some nodes ∧
      Shows memory node nodes) := by
  have hlen32 : node.encoding.length < 2 ^ 32 := by omega
  refine ⟨?_, ?_⟩
  · intro hsmall
    simp only [pack, sizes_eq hw hlen32, if_pos hsmall]
  · intro hroom
    refine ⟨_, nodesAt 0 node.siblings, pack_eq hw hb hroom, rfl, ?_, ?_⟩
    · exact iterate_siblings ht hlen32 (Nat.zero_le _) rfl
    · exact shows_of_memory hw ht hlen32 rfl

/-- A tree with a constructed node, two leaves below it, one of them long, and a leaf beside it. -/
def sampleTree : PackNode :=
  .node 0xBF2D 0 false none 0 0
    (.node 0x5C 2 false (some [0x9F, 0x70]) 0 0 .null
      (.node 0x9F70 130 false (some (List.replicate 130 7)) 0 0 .null .null))
    (.node 0x80 0 false none 0 0 .null .null)

theorem pack_walk_sampleTree :
    (List.length (List.replicate 200 (0 : UInt8)) < sampleTree.encoding.length →
      pack (List.replicate 200 0) sampleTree = none) ∧
    (sampleTree.encoding.length ≤ List.length (List.replicate 200 (0 : UInt8)) →
      ∃ memory nodes,
        pack (List.replicate 200 0) sampleTree = some (some memory, sampleTree.encoding.length) ∧
        memory = sampleTree.encoding ++
          (List.replicate 200 0).drop sampleTree.encoding.length ∧
        Walk.iterate ⟨memory, 0, sampleTree.encoding.length⟩ = some nodes ∧
        Shows memory sampleTree nodes) :=
  pack_walk (by simp [sampleTree, WellFormed]) (by simp [sampleTree, Tagged, Der.IsTag])
    (by decide +kernel) (by rw [List.length_replicate]; decide)

end VirtualRsp.Codec.PackNode
