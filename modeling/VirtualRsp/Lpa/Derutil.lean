import VirtualRsp.Foundations.Der

/-!
# The LPA's DER utilities

`unpackFirst` reads one data object, with every access checked against the length of the buffer;
`unpackAll` is the sequence of objects that `euicc_derutil_unpack_next` walks through, up to the
first that does not fit; `findTag` takes the first of them with a tag. `pack` writes an object.

On objects that were encoded the reader gets back what was written (`unpackFirst_tlv`,
`unpackAll_tlvs`).
-/

namespace VirtualRsp.Lpa

/-- A data object that was read: the tag, the bytes of the tag and the length, and the value. -/
structure Node where
  tag : ℕ
  header : Bytes
  value : Bytes
  deriving DecidableEq

/-- The whole object. -/
def Node.self (node : Node) : Bytes := node.header ++ node.value

/-- Read the first object of a buffer; the second component is what follows it. A length is kept in
32 bits. -/
def unpackFirst (buffer : Bytes) : Option (Node × Bytes) := do
  let (tag, cptr) ← Der.readTag buffer
  let (length, cptr) ← Der.readLen cptr
  let length := length % 2 ^ 32
  if cptr.length < length then none
  else
    return (⟨tag, buffer.take (buffer.length - cptr.length), cptr.take length⟩, cptr.drop length)

/-- The objects of a buffer, one after the other; every one takes bytes away, so the length of the
buffer bounds their number. -/
def unpackAllFuel : ℕ → Bytes → List Node
  | 0, _ => []
  | fuel + 1, buffer =>
    match unpackFirst buffer with
    | none => []
    | some (node, rest) => node :: unpackAllFuel fuel rest

/-- The objects of a buffer. -/
def unpackAll (buffer : Bytes) : List Node := unpackAllFuel (buffer.length + 1) buffer

/-- The first object with a tag. -/
def findTag (tag : ℕ) (buffer : Bytes) : Option Node := (unpackAll buffer).find? (·.tag = tag)

/-- The bytes of a buffer up to the end of the first object with a tag. -/
def upToTag (tag : ℕ) (buffer : Bytes) : Option Bytes :=
  match (unpackAll buffer).dropWhile (·.tag ≠ tag) with
  | [] => none
  | node :: _ =>
    some (((unpackAll buffer).takeWhile (·.tag ≠ tag)).flatMap Node.self ++ node.self)

/-- Write an object. -/
def pack (tag : ℕ) (value : Bytes) : Bytes := Der.encode tag value

/-- The number in a value; the source keeps it in a `long`. -/
def bin2long (buffer : Bytes) : ℕ := Der.ofBe 0 buffer % 2 ^ 64

/-! ## What is read -/

/-- An object that was read is what the buffer begins with. -/
theorem unpackFirst_self {buffer rest : Bytes} {node : Node}
    (h : unpackFirst buffer = some (node, rest)) :
    node.self ++ rest = buffer ∧ 0 < node.header.length := by
  simp only [unpackFirst, Option.bind_eq_bind, Option.bind_eq_some_iff] at h
  obtain ⟨⟨tag, afterTag⟩, htag, ⟨length, cptr⟩, hlen, h⟩ := h
  obtain ⟨tagBytes, rfl, hpos⟩ := Der.readTag_suffix htag
  obtain ⟨lenBytes, rfl, -⟩ := Der.readLen_suffix hlen
  split at h
  · cases h
  · cases h
    have hheader : (tagBytes ++ (lenBytes ++ cptr)).take
        ((tagBytes ++ (lenBytes ++ cptr)).length - cptr.length) = tagBytes ++ lenBytes := by
      rw [← List.append_assoc]
      exact List.take_left' (by simp only [List.length_append]; omega)
    simp only [Node.self, hheader]
    refine ⟨?_, by rw [List.length_append]; omega⟩
    rw [List.append_assoc (tagBytes ++ lenBytes), List.take_append_drop, List.append_assoc]

/-- The objects of a buffer are what it begins with; each has a header. -/
theorem unpackAllFuel_self (fuel : ℕ) (buffer : Bytes) :
    (∃ rest, (unpackAllFuel fuel buffer).flatMap Node.self ++ rest = buffer) ∧
      ∀ node ∈ unpackAllFuel fuel buffer, 0 < node.header.length := by
  induction fuel generalizing buffer with
  | zero => exact ⟨⟨buffer, rfl⟩, fun _ h => absurd h List.not_mem_nil⟩
  | succ fuel ih =>
    rw [unpackAllFuel]
    split
    · exact ⟨⟨buffer, rfl⟩, fun _ h => absurd h List.not_mem_nil⟩
    · rename_i node rest hfirst
      obtain ⟨hself, hpos⟩ := unpackFirst_self hfirst
      obtain ⟨⟨rest', hrest⟩, hnodes⟩ := ih rest
      refine ⟨⟨rest', ?_⟩, List.forall_mem_cons.2 ⟨hpos, hnodes⟩⟩
      rw [List.flatMap_cons, List.append_assoc, hrest, hself]

theorem unpackAll_self (buffer : Bytes) :
    ∃ rest, (unpackAll buffer).flatMap Node.self ++ rest = buffer :=
  (unpackAllFuel_self _ buffer).1

theorem length_header_pos {buffer : Bytes} {node : Node} (h : node ∈ unpackAll buffer) :
    0 < node.header.length :=
  (unpackAllFuel_self _ buffer).2 node h

/-! ## Reading what was written -/

/-- The object a tag and a value are encoded to. -/
def Node.of (tag : ℕ) (value : Bytes) : Node :=
  ⟨tag, Der.tagBytes tag ++ Der.lenBytes value.length, value⟩

@[simp] theorem Node.of_tag (tag : ℕ) (value : Bytes) : (Node.of tag value).tag = tag := rfl

@[simp] theorem Node.of_value (tag : ℕ) (value : Bytes) : (Node.of tag value).value = value := rfl

@[simp] theorem Node.of_self (tag : ℕ) (value : Bytes) :
    (Node.of tag value).self = Der.tlv tag value := rfl

/-- **An encoded object is read back**, whatever follows it. -/
theorem unpackFirst_tlv {tag : ℕ} (ht : Der.IsTag tag) {value : Bytes}
    (hv : value.length < 2 ^ 32) (rest : Bytes) :
    unpackFirst (Der.tlv tag value ++ rest) = some (.of tag value, rest) := by
  have hlen : value.length < 256 ^ 126 := Der.lt_pow_of_lt (by omega)
  simp only [unpackFirst, Der.tlv, List.append_assoc, Der.readTag_tagBytes ht,
    Der.readLen_lenBytes hlen, Option.bind_eq_bind, Option.bind_some, Nat.mod_eq_of_lt hv,
    List.length_append]
  rw [if_neg (by omega)]
  have htake : ∀ a b c : Bytes, (a ++ (b ++ c)).take (a.length + (b.length + c.length) - c.length) =
      a ++ b := by
    intro a b c
    rw [← List.append_assoc]
    exact List.take_left' (by rw [List.length_append]; omega)
  have h := htake (Der.tagBytes tag) (Der.lenBytes value.length) (value ++ rest)
  rw [List.length_append] at h
  rw [h, List.take_left' rfl, List.drop_left' rfl]
  rfl

theorem unpackAllFuel_tlvs {objs : List (ℕ × Bytes)} (ht : ∀ t ∈ objs.map Prod.fst, Der.IsTag t)
    (hlen : (Der.tlvs objs).length < 2 ^ 32) {fuel : ℕ} (hf : objs.length < fuel) :
    unpackAllFuel fuel (Der.tlvs objs) = objs.map fun x => .of x.1 x.2 := by
  induction objs generalizing fuel with
  | nil =>
    obtain ⟨fuel, rfl⟩ := Nat.exists_eq_add_one_of_ne_zero (Nat.ne_zero_of_lt hf)
    rfl
  | cons x objs ih =>
    obtain ⟨fuel, rfl⟩ := Nat.exists_eq_add_one_of_ne_zero (by omega : fuel ≠ 0)
    have hx : x.2.length ≤ (Der.tlvs (x :: objs)).length :=
      Der.length_le_tlvs List.mem_cons_self
    rw [List.map_cons, List.forall_mem_cons] at ht
    rw [Der.tlvs_cons, unpackAllFuel, unpackFirst_tlv ht.1 (by omega)]
    rw [Der.tlvs_cons, List.length_append] at hlen
    simp only [List.map_cons, List.cons.injEq, true_and]
    exact ih ht.2 (by omega) (by simpa using hf)

/-- **Encoded objects are read back**, one after the other. -/
theorem unpackAll_tlvs {objs : List (ℕ × Bytes)} (ht : ∀ t ∈ objs.map Prod.fst, Der.IsTag t)
    (hlen : (Der.tlvs objs).length < 2 ^ 32) :
    unpackAll (Der.tlvs objs) = objs.map fun x => .of x.1 x.2 := by
  have := Der.length_objs_le_tlvs objs
  exact unpackAllFuel_tlvs ht hlen (by omega)

/-- Searching encoded objects for a tag finds the first object encoded with it. -/
theorem findTag_tlvs {objs : List (ℕ × Bytes)} (ht : ∀ t ∈ objs.map Prod.fst, Der.IsTag t)
    (hlen : (Der.tlvs objs).length < 2 ^ 32) (tag : ℕ) :
    findTag tag (Der.tlvs objs) = (objs.find? (·.1 = tag)).map fun x => .of x.1 x.2 := by
  rw [findTag, unpackAll_tlvs ht hlen, List.find?_map]
  rfl

/-- A single encoded object. -/
theorem findTag_tlv {tag : ℕ} (ht : Der.IsTag tag) {value : Bytes}
    (hlen : (Der.tlv tag value).length < 2 ^ 32) :
    findTag tag (Der.tlv tag value) = some (.of tag value) := by
  have h := @findTag_tlvs [(tag, value)] (by simpa using ht) (by simpa using hlen) tag
  simpa using h

/-! ## Objects with a common tag -/

/-- Values that are written with the same tag. -/
def segments (tag : ℕ) (values : List Bytes) : List (ℕ × Bytes) := values.map fun v => (tag, v)

theorem unpackAll_segments {tag : ℕ} (ht : Der.IsTag tag) {values : List Bytes}
    (hlen : (Der.tlvs (segments tag values)).length < 2 ^ 32) :
    unpackAll (Der.tlvs (segments tag values)) = values.map (Node.of tag) := by
  have htags : ∀ t ∈ (segments tag values).map Prod.fst, Der.IsTag t := by
    intro t h
    obtain ⟨x, hx, rfl⟩ := List.mem_map.1 h
    obtain ⟨v, -, rfl⟩ := List.mem_map.1 hx
    exact ht
  rw [unpackAll_tlvs htags hlen, segments, List.map_map]
  rfl

theorem tlvs_segments_eq_nil {tag : ℕ} {values : List Bytes} :
    Der.tlvs (segments tag values) = [] ↔ values = [] := by
  have := Der.length_objs_le_tlvs (segments tag values)
  refine ⟨fun h => ?_, fun h => h ▸ rfl⟩
  rw [h, segments, List.length_map] at this
  exact List.length_eq_zero_iff.1 (by simpa using this)

end VirtualRsp.Lpa
