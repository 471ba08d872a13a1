import Mathlib.Tactic.NormNum
import VirtualRsp.Foundations.Der

/-!
# The TLV library of the server

The SM-DP+ reads and writes data objects with a library (`Bertlv`). What it relies on is that the
library follows BER with lengths in the definite form (`Bertlv.Lawful`); `derBertlv` is a library
that does.
-/

namespace VirtualRsp.Smdp

/-- The functions of the TLV library. A result of `none` is an exception. -/
structure Bertlv where
  encodeTag : ℕ → Option Bytes
  encodeLen : ℕ → Option Bytes
  /-- The value of the object at the start. -/
  parseOne : Bytes → Option Bytes
  /-- The tag and the value of the object at the start, and what follows it. -/
  parseOneRawtag : Bytes → Option (ℕ × Bytes × Bytes)
  /-- The tag of the object at the start, the object itself, and what follows it. -/
  returnOneRawtlv : Bytes → Option (ℕ × Bytes × Bytes)

/-- Tags and lengths are those of BER; lengths take at most 32 bits. An object that is cut off has
the value that is there. -/
structure Bertlv.Lawful (tlv : Bertlv) : Prop where
  encodeTag_eq : ∀ tag, Der.IsTag tag → tlv.encodeTag tag = some (Der.tagBytes tag)
  encodeLen_eq : ∀ n, tlv.encodeLen n = if n < 2 ^ 32 then some (Der.lenBytes n) else none
  parseOne_eq : ∀ (tag : UInt8) (n : ℕ) (rest : Bytes), tag.toNat % 32 ≠ 31 → n < 2 ^ 32 →
    tlv.parseOne (tag :: (Der.lenBytes n ++ rest)) = some (rest.take n)
  parseOneRawtag_eq : ∀ (tag : ℕ) (value rest : Bytes), Der.IsTag tag → value.length < 2 ^ 32 →
    tlv.parseOneRawtag (Der.tlv tag value ++ rest) = some (tag, value, rest)
  returnOneRawtlv_eq : ∀ (tag : ℕ) (value rest : Bytes), Der.IsTag tag → value.length < 2 ^ 32 →
    tlv.returnOneRawtlv (Der.tlv tag value ++ rest) = some (tag, Der.tlv tag value, rest)

/-- The object at the start: its tag, its value, itself, and what follows. -/
def readObject (bs : Bytes) : Option (ℕ × Bytes × Bytes × Bytes) := do
  let (tag, r) ← Der.readTag bs
  let (n, r) ← Der.readLen r
  return (tag, r.take n, bs.take (bs.length - (r.drop n).length), r.drop n)

/-- A library that follows the format. -/
def derBertlv : Bertlv where
  encodeTag tag := some (Der.tagBytes tag)
  encodeLen n := if n < 2 ^ 32 then some (Der.lenBytes n) else none
  parseOne bs := (readObject bs).map fun o => o.2.1
  parseOneRawtag bs := (readObject bs).map fun o => (o.1, o.2.1, o.2.2.2)
  returnOneRawtlv bs := (readObject bs).map fun o => (o.1, o.2.2.1, o.2.2.2)

theorem readObject_cons {tag : UInt8} (ht : tag.toNat % 32 ≠ 31) {n : ℕ} (hn : n < 2 ^ 32)
    (rest : Bytes) : ∃ object, readObject (tag :: (Der.lenBytes n ++ rest)) =
      some (tag.toNat, rest.take n, object, rest.drop n) := by
  have htag : Der.readTag (tag :: (Der.lenBytes n ++ rest)) =
      some (tag.toNat, Der.lenBytes n ++ rest) := if_neg ht
  have hlen := Der.readLen_lenBytes (Der.lt_pow_of_lt (hn.trans (by decide))) rest
  exact ⟨_, by simp only [readObject, htag, hlen, Option.bind_eq_bind, Option.bind_some]; rfl⟩

theorem readObject_tlv {tag : ℕ} (ht : Der.IsTag tag) {value : Bytes}
    (hn : value.length < 2 ^ 32) (rest : Bytes) :
    readObject (Der.tlv tag value ++ rest) = some (tag, value, Der.tlv tag value, rest) := by
  have htag : Der.readTag (Der.tlv tag value ++ rest) =
      some (tag, Der.lenBytes value.length ++ (value ++ rest)) := by
    rw [Der.tlv, List.append_assoc, List.append_assoc, Der.readTag_tagBytes ht]
  have hlen := Der.readLen_lenBytes (Der.lt_pow_of_lt (hn.trans (by decide))) (value ++ rest)
  simp only [readObject, htag, hlen, Option.bind_eq_bind, Option.bind_some, List.drop_left,
    List.take_left, List.length_append, Nat.add_sub_cancel]
  rfl

theorem derBertlv_lawful : derBertlv.Lawful where
  encodeTag_eq _ _ := rfl
  encodeLen_eq _ := rfl
  parseOne_eq tag n rest ht hn := by
    obtain ⟨object, h⟩ := readObject_cons ht hn rest
    simp only [derBertlv, h, Option.map_some]
  parseOneRawtag_eq tag value rest ht hn := by
    simp only [derBertlv, readObject_tlv ht hn, Option.map_some]
  returnOneRawtlv_eq tag value rest ht hn := by
    simp only [derBertlv, readObject_tlv ht hn, Option.map_some]

end VirtualRsp.Smdp
