import VirtualRsp.Card.Tlv
import VirtualRsp.Lpa.Derutil

/-!
# The encoders of the card and of the LPA

`build_tlv` and `euicc_derutil_pack` first compute the size of what they write and then write it,
in separate passes that have to agree. Here both are as in the source, with memory of the size that
was computed, in which a write out of bounds is a fault.

* `PackNode` is the tree of nodes that `euicc_derutil_pack` takes, `sizes`, `ptrs` and `copydata`
  are its three passes, and `encoding` is the bytes that a tree stands for.
* `pack_eq`: `euicc_derutil_pack` writes the encoding of the tree.
* `codec_agree`: for one object both encoders write the same bytes, as many as announced, and
  `euicc_derutil_unpack_first` reads them back.
-/

namespace VirtualRsp.Codec

/-! ## Headers -/

/-- The size of the tag and the length of an object. -/
def sizeofHeader (tag length : ℕ) : ℕ :=
  (if tag >>> 8 ≠ 0 then 2 else 1) +
    (if length < 0x80 then 1 else 1 + Der.lengthLen length length)

/-- Write the tag. -/
def emitTag (s : Bytes × ℕ) (tag : ℕ) : Option (Bytes × ℕ) := do
  let s ← if tag >>> 8 ≠ 0 then emit s [UInt8.ofNat (tag >>> 8)] else some s
  emit s [UInt8.ofNat tag]

/-- Write the low `k` bytes of a length, from the highest down. -/
def emitBytes (s : Bytes × ℕ) : ℕ → ℕ → Option (Bytes × ℕ)
  | 0, _ => some s
  | k + 1, length => do emitBytes (← emit s [UInt8.ofNat (length >>> (8 * k))]) k length

/-- Write the length. -/
def emitLength (s : Bytes × ℕ) (length : ℕ) : Option (Bytes × ℕ) :=
  if length < 0x80 then emit s [UInt8.ofNat length]
  else do
    let lengthlen := Der.lengthLen length length
    emitBytes (← emit s [UInt8.ofNat (0x80 + lengthlen)]) lengthlen length

theorem emitTag_eq (s : Bytes × ℕ) (tag : ℕ) : emitTag s tag = emit s (Der.tagBytes tag) := by
  rw [emitTag, Der.tagBytes, Nat.shiftRight_eq_div_pow]
  by_cases h : tag / 2 ^ 8 = 0
  · have h' : tag / 256 = 0 := h
    simp [h']
  · have h' : ¬ tag / 256 = 0 := h
    rw [if_pos h, if_neg h']
    exact (emit_append s _ _).symm

theorem emitBytes_eq {s : Bytes × ℕ} (h : s.2 ≤ s.1.length) (k length : ℕ) :
    emitBytes s k length = emit s (Der.beBytes k length) := by
  induction k generalizing s with
  | zero => exact (emit_nil h).symm
  | succ k ih =>
    have hdiv : length >>> (8 * k) = length / 256 ^ k := by
      rw [Nat.shiftRight_eq_div_pow, show 256 = 2 ^ 8 from rfl, ← Nat.pow_mul]
    rw [emitBytes, Der.beBytes, emit_cons s _ (Der.beBytes k length), hdiv]
    cases he : emit s [UInt8.ofNat (length / 256 ^ k)] with
    | none => rfl
    | some s' => exact ih (emit_le he)

theorem emitLength_eq (s : Bytes × ℕ) (length : ℕ) :
    emitLength s length = emit s (Der.lenBytes length) := by
  rw [emitLength, Der.lenBytes]
  split
  · rfl
  · rename_i h
    rw [Der.lengthLen_eq (by omega) le_rfl,
      emit_cons s _ (Der.beBytes (Der.byteLen length) length)]
    change (emit s [UInt8.ofNat (128 + Der.byteLen length)]).bind
      (fun s => emitBytes s (Der.byteLen length) length) = _
    cases he : emit s [UInt8.ofNat (128 + Der.byteLen length)] with
    | none => rfl
    | some s' => exact emitBytes_eq (emit_le he) (Der.byteLen length) length

theorem sizeofHeader_eq (tag length : ℕ) :
    sizeofHeader tag length = (Der.tagBytes tag).length + (Der.lenBytes length).length := by
  rw [sizeofHeader, Der.tagBytes, Der.lenBytes, Nat.shiftRight_eq_div_pow]
  have htag : (if tag / 2 ^ 8 ≠ 0 then 2 else 1) = (if tag / 256 = 0 then [UInt8.ofNat tag]
      else [UInt8.ofNat (tag / 256), UInt8.ofNat tag]).length := by
    by_cases h : tag / 256 = 0 <;> simp [h]
  rw [htag]
  congr 1
  split
  · rfl
  · rw [Der.lengthLen_eq (by omega) le_rfl, List.length_cons, Der.length_beBytes, Nat.add_comm]

/-! ## The encoder of the card -/

/-- Memory that is handed out, with contents that nothing is known of. -/
structure Malloc where
  block : ℕ → Bytes
  length_block (n : ℕ) : (block n).length = n

/-- Write the value. -/
def emitValue (s : Bytes × ℕ) (value : Bytes) : Option (Bytes × ℕ) :=
  if 0 < value.length then emit s value else some s

/-- `build_tlv`: the buffer it leaves and the length it announces. -/
def buildTlv (malloc : Malloc) (tag : ℕ) (value : Bytes) : Option (Bytes × ℕ) := do
  let total_len := (sizeofHeader tag value.length + value.length) % 2 ^ 32
  let s ← emitTag (malloc.block total_len, 0) tag
  let s ← emitLength s value.length
  let s ← emitValue s value
  return (s.1, total_len)

theorem emitHeader_eq (s : Bytes × ℕ) (tag length : ℕ) :
    ((emitTag s tag).bind fun s => emitLength s length) =
      emit s (Der.tagBytes tag ++ Der.lenBytes length) := by
  rw [emit_append, emitTag_eq]
  simp only [emitLength_eq]

/-- The three parts of an object, one after the other. -/
theorem emitObject_eq (s : Bytes × ℕ) (tag : ℕ) (value : Bytes) :
    ((emitTag s tag).bind fun s => (emitLength s value.length).bind fun s =>
      emitValue s value) = emit s (Der.tlv tag value) := by
  rw [Der.tlv, List.append_assoc, emit_append, emitTag_eq]
  congr 1
  funext s
  rw [emit_append, emitLength_eq]
  cases he : emit s (Der.lenBytes value.length) with
  | none => rfl
  | some s' =>
    simp only [Option.bind_some, emitValue]
    split
    · rfl
    · rw [List.length_eq_zero_iff.1 (by omega : value.length = 0), emit_nil (emit_le he)]

/-- **The card's encoder** leaves the object in a buffer of its length. -/
theorem buildTlv_eq (malloc : Malloc) (tag : ℕ) {value : Bytes}
    (hv : (Der.tlv tag value).length < 2 ^ 32) :
    buildTlv malloc tag value = some (Der.tlv tag value, (Der.tlv tag value).length) := by
  have htotal : (sizeofHeader tag value.length + value.length) % 2 ^ 32 =
      (Der.tlv tag value).length := by
    rw [sizeofHeader_eq, ← Der.length_tlv, Nat.mod_eq_of_lt hv]
  have hemit := emitObject_eq (malloc.block (Der.tlv tag value).length, 0) tag value
  rw [emit_full (malloc.length_block _)] at hemit
  obtain ⟨s₁, h₁, hemit⟩ := Option.bind_eq_some_iff.1 hemit
  obtain ⟨s₂, h₂, h₃⟩ := Option.bind_eq_some_iff.1 hemit
  rw [buildTlv, htotal]
  simp only [Option.bind_eq_bind, Option.pure_def]
  rw [h₁, Option.bind_some, h₂, Option.bind_some, h₃, Option.bind_some]

/-! ## The encoder of the LPA -/

/-- The nodes that `euicc_derutil_pack` takes, with `length`, `self.length` and `self.ptr` as its
passes leave them; pointers are offsets into the buffer. -/
inductive PackNode
  | null
  | node (tag length : ℕ) (headless : Bool) (value : Option Bytes) (selfLength selfPtr : ℕ)
      (child next : PackNode)
  deriving DecidableEq

namespace PackNode

/-- A node before packing, without what the passes compute. -/
def new (tag length : ℕ) (headless : Bool) (value : Option Bytes) (child next : PackNode) :
    PackNode :=
  .node tag length headless value 0 0 child next

/-- The size of a node whose length is known. -/
def sizeofSingleNode (tag length : ℕ) (headless : Bool) : ℕ :=
  if headless then length else (sizeofHeader tag length + length) % 2 ^ 32

/-- The first pass: the lengths of all nodes from the last one on, and the size of them all, which
is also what the length of their parent becomes. -/
def sizes : PackNode → PackNode × ℕ
  | .null => (.null, 0)
  | .node tag length headless value _ ptr child next =>
    let children := sizes child
    let length := if child ≠ .null then children.2 else length
    let selfLength := sizeofSingleNode tag length headless
    let rest := sizes next
    (.node tag length headless value selfLength ptr children.1 rest.1,
      (selfLength + rest.2) % 2 ^ 32)

/-- The second pass: where every node is written. -/
def ptrs : PackNode → ℕ → PackNode
  | .null, _ => .null
  | .node tag length headless value selfLength _ child next, wptr =>
    .node tag length headless value selfLength wptr (ptrs child (wptr + selfLength - length))
      (ptrs next (wptr + selfLength))

/-- Write a node, but not its children. -/
def copydataSingleNode (buffer : Bytes) (tag length : ℕ) (headless : Bool) (value : Option Bytes)
    (selfPtr : ℕ) (child : PackNode) : Option Bytes :=
  if headless then do store buffer selfPtr (← readN (value.getD []) length)
  else do
    let s ← emitTag (buffer, selfPtr) tag
    let s ← emitLength s length
    match value with
    | none => return s.1
    | some value =>
      if child = .null then return (← emit s (← readN value length)).1 else return s.1

/-- The third pass: write all nodes. -/
def copydata (buffer : Bytes) : PackNode → Option Bytes
  | .null => some buffer
  | .node tag length headless value _ selfPtr child next => do
    let buffer ← copydataSingleNode buffer tag length headless value selfPtr child
    let buffer ← copydata buffer child
    copydata buffer next

/-- `euicc_derutil_pack`: the buffer afterwards and the size; `none` is the result -1, and a write
out of bounds makes the buffer `none`. -/
def pack (buffer : Bytes) (node : PackNode) : Option (Option Bytes × ℕ) :=
  let (node, required_size) := sizes node
  if buffer.length < required_size then none
  else some (copydata buffer (ptrs node 0), required_size)

/-! ## What is written -/

/-- The bytes that a tree stands for. -/
def encoding : PackNode → Bytes
  | .null => []
  | .node tag _ headless value _ _ child next =>
    (if headless then value.getD []
     else Der.tlv tag (if child = .null then value.getD [] else encoding child)) ++ encoding next

/-- Leaves have the length of their value, and only leaves are without a header. -/
def WellFormed : PackNode → Prop
  | .null => True
  | .node _ length headless value _ _ child next =>
    (child = .null → length = (value.getD []).length) ∧ (headless = true → child = .null) ∧
      WellFormed child ∧ WellFormed next

@[simp] theorem sizes_null : sizes .null = (.null, 0) := rfl

theorem sizes_fst_eq_null {node : PackNode} : (sizes node).1 = .null ↔ node = .null := by
  cases node <;> simp [sizes]

theorem ptrs_eq_null {node : PackNode} {wptr : ℕ} : ptrs node wptr = .null ↔ node = .null := by
  cases node <;> simp [ptrs]

/-- What a node contains. -/
def content (value : Option Bytes) (child : PackNode) : Bytes :=
  if child = .null then value.getD [] else child.encoding

/-- What a node stands for without those that follow it. -/
def object (tag : ℕ) (headless : Bool) (xs : Bytes) : Bytes :=
  if headless then xs else Der.tlv tag xs

variable {tag length selfLength selfPtr : ℕ} {headless : Bool} {value : Option Bytes}
  {child next : PackNode}

theorem encoding_node
    (hw : (node tag length headless value selfLength selfPtr child next).WellFormed) :
    (node tag length headless value selfLength selfPtr child next).encoding =
      object tag headless (content value child) ++ next.encoding := by
  cases headless with
  | true => simp [encoding, object, content, hw.2.1 rfl]
  | false => rfl

theorem length_content_le (tag : ℕ) (headless : Bool) (xs : Bytes) :
    xs.length ≤ (object tag headless xs).length := by
  rw [object]
  split
  · exact le_rfl
  · rw [Der.length_tlv]
    omega

/-- The size of a node, once its length is that of its contents. -/
theorem sizeofSingleNode_eq {xs : Bytes} (h : (object tag headless xs).length < 2 ^ 32) :
    sizeofSingleNode tag xs.length headless = (object tag headless xs).length := by
  rw [object] at h ⊢
  rw [sizeofSingleNode]
  split
  · rfl
  · rename_i hh
    rw [if_neg hh] at h
    rw [sizeofHeader_eq, ← Der.length_tlv, Nat.mod_eq_of_lt h]

theorem sizes_node
    (hw : (node tag length headless value selfLength selfPtr child next).WellFormed)
    (hlen : (node tag length headless value selfLength selfPtr child next).encoding.length < 2 ^ 32)
    (hc : (sizes child).2 = child.encoding.length) (hn : (sizes next).2 = next.encoding.length) :
    sizes (node tag length headless value selfLength selfPtr child next) =
      (.node tag (content value child).length headless value
        (object tag headless (content value child)).length selfPtr (sizes child).1 (sizes next).1,
        (node tag length headless value selfLength selfPtr child next).encoding.length) := by
  have henc := encoding_node hw
  have hobj : (object tag headless (content value child)).length < 2 ^ 32 := by
    rw [henc, List.length_append] at hlen
    omega
  have hl : (if child ≠ .null then (sizes child).2 else length) =
      (content value child).length := by
    rw [content]
    by_cases h : child = .null
    · simp [h, hw.1 h]
    · simp [h, hc]
  have hsize : ((object tag headless (content value child)).length + (sizes next).2) % 2 ^ 32 =
      (node tag length headless value selfLength selfPtr child next).encoding.length := by
    rw [hn, ← List.length_append, ← henc, Nat.mod_eq_of_lt hlen]
  simp only [sizes, hl, sizeofSingleNode_eq hobj, hsize]

theorem length_child_lt
    (hw : (node tag length headless value selfLength selfPtr child next).WellFormed) {n : ℕ}
    (hlen : (node tag length headless value selfLength selfPtr child next).encoding.length < n) :
    child.encoding.length < n := by
  have hle := length_content_le tag headless (content value child)
  rw [encoding_node hw, List.length_append] at hlen
  by_cases h : child = .null
  · rw [h]
    exact Nat.zero_lt_of_lt hlen
  · rw [content, if_neg h] at hle hlen
    omega

/-- **The first pass** finds the size of what a tree stands for. -/
theorem sizes_eq {node : PackNode} (hw : node.WellFormed)
    (hlen : node.encoding.length < 2 ^ 32) : (sizes node).2 = node.encoding.length := by
  induction node with
  | null => rfl
  | node tag length headless value selfLength selfPtr child next ihc ihn =>
    have hnext : next.encoding.length < 2 ^ 32 := by
      rw [encoding_node hw, List.length_append] at hlen
      omega
    rw [sizes_node hw hlen (ihc hw.2.2.1 (length_child_lt hw hlen)) (ihn hw.2.2.2 hnext)]

theorem readN_length (xs : Bytes) : readN xs xs.length = some xs := by
  simp [readN]

/-- A node without children is written as a whole. -/
theorem copydataSingleNode_leaf (buffer : Bytes) (tag selfPtr : ℕ) (headless : Bool)
    (value : Option Bytes) :
    copydataSingleNode buffer tag (value.getD []).length headless value selfPtr .null =
      store buffer selfPtr (object tag headless (value.getD [])) := by
  cases headless with
  | true => simp [copydataSingleNode, object, readN_length]
  | false =>
    have h := emitHeader_eq (buffer, selfPtr) tag (value.getD []).length
    rw [copydataSingleNode, object, if_neg Bool.false_ne_true, if_neg Bool.false_ne_true,
      ← store_of_emit, Der.tlv, emit_append, ← h]
    simp only [Option.bind_eq_bind, Option.bind_assoc]
    congr 1
    funext s
    cases he : emitLength s (value.getD []).length with
    | none => rfl
    | some s' =>
      cases value with
      | none => 
        rw [emitLength_eq] at he
        simp [emit_nil (emit_le he)]
      | some value => simp [readN_length]

/-- Of a node with children the header is written. -/
theorem copydataSingleNode_parent (buffer : Bytes) (tag length selfPtr : ℕ)
    (value : Option Bytes) (hc : child ≠ .null) :
    copydataSingleNode buffer tag length false value selfPtr child =
      store buffer selfPtr (Der.tagBytes tag ++ Der.lenBytes length) := by
  have h := emitHeader_eq (buffer, selfPtr) tag length
  rw [copydataSingleNode, if_neg Bool.false_ne_true, ← store_of_emit, ← h]
  simp only [Option.bind_eq_bind, Option.bind_assoc]
  congr 1
  funext s
  cases emitLength s length with
  | none => rfl
  | some s' => cases value <;> simp [hc]

/-- A node and its children, when the children are written as they should. -/
theorem copydata_object (tag : ℕ) (value : Option Bytes) (hh : headless = true → child = .null)
    (hchild : ∀ buffer wptr, wptr ≤ buffer.length →
      copydata buffer (ptrs (sizes child).1 wptr) = store buffer wptr child.encoding)
    (buffer : Bytes) (wptr : ℕ) :
    let childPtr := wptr + (object tag headless (content value child)).length -
      (content value child).length
    ((copydataSingleNode buffer tag (content value child).length headless value wptr
        (ptrs (sizes child).1 childPtr)).bind fun buffer =>
      copydata buffer (ptrs (sizes child).1 childPtr)) =
      store buffer wptr (object tag headless (content value child)) := by
  intro childPtr
  by_cases h : child = .null
  · subst h
    have hleaf := copydataSingleNode_leaf buffer tag wptr headless value
    simp only [content, if_true, sizes_null, ptrs, copydata]
    rw [hleaf]
    simp
  · have hheader : headless = false := by
      by_contra hne
      exact h (hh (by simpa using hne))
    subst hheader
    have hparent : ptrs (sizes child).1 childPtr ≠ .null := by
      simpa [ptrs_eq_null, sizes_fst_eq_null]
    have hptr : childPtr =
        wptr + (Der.tagBytes tag ++ Der.lenBytes child.encoding.length).length := by
      simp only [childPtr, content, if_neg h, object, Bool.false_eq_true, if_false, Der.tlv,
        List.length_append]
      omega
    rw [copydataSingleNode_parent _ _ _ _ _ hparent, hptr]
    simp only [content, if_neg h, object, Bool.false_eq_true, if_false]
    rw [Der.tlv, store_append _ _ (_ ++ _) child.encoding]
    cases hs : store buffer wptr (Der.tagBytes tag ++ Der.lenBytes child.encoding.length) with
    | none => rfl
    | some buffer' => exact hchild buffer' _ (store_le hs)

/-- **The second and the third pass** write what a tree stands for. -/
theorem copydata_eq {node : PackNode} (hw : node.WellFormed)
    (hlen : node.encoding.length < 2 ^ 32) {buffer : Bytes} {wptr : ℕ}
    (hptr : wptr ≤ buffer.length) :
    copydata buffer (ptrs (sizes node).1 wptr) = store buffer wptr node.encoding := by
  induction node generalizing buffer wptr with
  | null => exact (store_nil hptr).symm
  | node tag length headless value selfLength selfPtr child next ihc ihn =>
    have henc := encoding_node hw
    have hnext : next.encoding.length < 2 ^ 32 := by
      rw [henc, List.length_append] at hlen
      omega
    have hchild := length_child_lt hw hlen
    have hobject := copydata_object tag value hw.2.1
      (fun buffer wptr h => ihc hw.2.2.1 hchild h) buffer wptr
    rw [sizes_node hw hlen (sizes_eq hw.2.2.1 hchild) (sizes_eq hw.2.2.2 hnext), henc,
      store_append]
    simp only [ptrs, copydata, Option.bind_eq_bind]
    rw [← Option.bind_assoc, hobject]
    cases hs : store buffer wptr (object tag headless (content value child)) with
    | none => rfl
    | some buffer' => exact ihn hw.2.2.2 hnext (store_le hs)

/-- **The LPA's encoder** writes what a tree stands for at the start of the buffer and announces its
size. -/
theorem pack_eq {node : PackNode} (hw : node.WellFormed) {buffer : Bytes}
    (hb : buffer.length < 2 ^ 32) (hroom : node.encoding.length ≤ buffer.length) :
    pack buffer node = some (some (node.encoding ++ buffer.drop node.encoding.length),
      node.encoding.length) := by
  have hlen : node.encoding.length < 2 ^ 32 := by omega
  simp only [pack, sizes_eq hw hlen, if_neg (Nat.not_lt.2 hroom)]
  rw [copydata_eq hw hlen (Nat.zero_le _)]
  simp [store, hroom]

/-- The one node of an object. -/
def single (tag : ℕ) (value : Bytes) : PackNode :=
  new tag value.length false (some value) .null .null

theorem single_wellFormed (tag : ℕ) (value : Bytes) : (single tag value).WellFormed :=
  ⟨fun _ => rfl, fun _ => rfl, trivial, trivial⟩

@[simp] theorem single_encoding (tag : ℕ) (value : Bytes) :
    (single tag value).encoding = Der.tlv tag value :=
  List.append_nil _

end PackNode

/-- The encoder that the handlers of the card use in the model is `build_tlv`. -/
theorem buildTlv_eq_card (malloc : Malloc) (tag : ℕ) {value : Bytes}
    (hv : (Der.tlv tag value).length < 2 ^ 32) :
    buildTlv malloc tag value =
      some (Card.buildTlv tag value, (Card.buildTlv tag value).length) := by
  rw [Card.buildTlv_eq, buildTlv_eq malloc tag hv]

/-- The encoder that the commands of the LPA use in the model is `euicc_derutil_pack` on nested
nodes: the children of a node are its value. -/
theorem encoding_eq_pack {tag : ℕ} {value : Option Bytes} {child : PackNode}
    (hc : child ≠ .null) :
    (PackNode.new tag 0 false value child .null).encoding = Lpa.pack tag child.encoding := by
  rw [Lpa.pack, Der.encode_eq]
  simp [PackNode.new, PackNode.encoding, hc]

/-- **The encoders and the decoder agree**, on every object with a tag of one or two bytes. -/
theorem codec_agree {tag : ℕ} (ht : Der.IsTag tag) {value : Bytes} (hv : value.length < 2 ^ 31) :
    ∃ bytes : Bytes,
      (∀ malloc, buildTlv malloc tag value = some (bytes, bytes.length)) ∧
      (∀ buffer : Bytes, bytes.length ≤ buffer.length → buffer.length < 2 ^ 32 →
        PackNode.pack buffer (.single tag value) =
          some (some (bytes ++ buffer.drop bytes.length), bytes.length)) ∧
      ∀ rest, ∃ node, Lpa.unpackFirst (bytes ++ rest) = some (node, rest) ∧ node.tag = tag ∧
        node.value = value ∧ node.self.length = bytes.length := by
  have hlen := Der.length_tlv_le tag (v := value) (by omega)
  refine ⟨Der.tlv tag value, fun malloc => buildTlv_eq malloc tag (by omega), ?_, ?_⟩
  · intro buffer hroom hb
    have hpack := PackNode.pack_eq (PackNode.single_wellFormed tag value) hb
      (by rwa [PackNode.single_encoding])
    rwa [PackNode.single_encoding] at hpack
  · intro rest
    exact ⟨.of tag value, Lpa.unpackFirst_tlv ht (by omega) rest, rfl, rfl, rfl⟩

theorem codec_agree_sample : ∃ bytes : Bytes,
    (∀ malloc, buildTlv malloc 0xBF2D (List.replicate 300 0x55) = some (bytes, bytes.length)) ∧
    (∀ buffer : Bytes, bytes.length ≤ buffer.length → buffer.length < 2 ^ 32 →
      PackNode.pack buffer (.single 0xBF2D (List.replicate 300 0x55)) =
        some (some (bytes ++ buffer.drop bytes.length), bytes.length)) ∧
    ∀ rest, ∃ node, Lpa.unpackFirst (bytes ++ rest) = some (node, rest) ∧ node.tag = 0xBF2D ∧
      node.value = List.replicate 300 0x55 ∧ node.self.length = bytes.length :=
  codec_agree (by decide) (by rw [List.length_replicate]; decide)

end VirtualRsp.Codec
