import VirtualRsp.Foundations.Base128

/-!
# Object identifiers

The server decodes object identifiers with a function of its own, because that of its ASN.1 library
splits the first subidentifier wrongly (`fixedDecodeObjectIdentifier`). `Oid` is an object
identifier with its rule on the first two arcs, `Oid.octets` its content octets in BER.

The decoder gives the dotted form of what was encoded, wherever the octets stand in a buffer, and
no two object identifiers have the same dotted form (`decode_octets`). Only numbers of up to 4300
digits can be written, so an object identifier with a longer arc is an exception (`long_arc`).
-/

namespace VirtualRsp.Smdp

/-! ## Decoding -/

/-- Read a subidentifier: its value, and the offset behind it. -/
def readSubidentifier (data : Bytes) (offset : ℕ) : Option (ℕ × ℕ) :=
  loop (Base128.readBody data) (data.length + 1) (0, offset)

/-- A round of the loop over the arcs after the second. -/
def arcsBody (data : Bytes) (endOffset : ℕ) : ℕ × List ℕ → Option (Ctl (ℕ × List ℕ) (List ℕ))
  | (offset, arcs) =>
    if offset < endOffset then do
      let (subid, offset) ← readSubidentifier data offset
      return .next (offset, arcs ++ [subid])
    else some (.done arcs)

/-- How many digits `str` writes at most. -/
def maxStrDigits : ℕ := 4300

/-- `str` of a number; one with too many digits is an exception. -/
def str (n : ℕ) : Option String := if n < 10 ^ maxStrDigits then some n.repr else none

/-- `'.'.join(str(x) for x in arcs)`. -/
def joinArcs (arcs : List ℕ) : Option String := (arcs.mapM str).map (".".intercalate ·)

/-- Decode an object identifier; `none` is an exception. -/
def fixedDecodeObjectIdentifier (data : Bytes) (offset endOffset : ℕ) : Option String := do
  let (subid, offset) ← readSubidentifier data offset
  let (first, second) :=
    if subid < 40 then (0, subid) else if subid < 80 then (1, subid - 40) else (2, subid - 80)
  let arcs ← loop (arcsBody data endOffset) (data.length + 1) (offset, [first, second])
  joinArcs arcs

/-! ## Encoding -/

/-- An object identifier. -/
structure Oid where
  first : ℕ
  second : ℕ
  rest : List ℕ
  valid : first ≤ 1 ∧ second < 40 ∨ first = 2

namespace Oid

/-- Its arcs. -/
def arcs (oid : Oid) : List ℕ := oid.first :: oid.second :: oid.rest

/-- Its dotted form. -/
def dotted (oid : Oid) : String := ".".intercalate (oid.arcs.map Nat.repr)

/-- All arcs can be written. -/
def Writable (oid : Oid) : Prop := ∀ arc ∈ oid.arcs, arc < 10 ^ maxStrDigits

instance (oid : Oid) : Decidable oid.Writable := List.decidableBAll _ _

/-- Its content octets: the first two arcs in one subidentifier, and one for each other arc. -/
def octets (oid : Oid) : Bytes :=
  Base128.bytes (40 * oid.first + oid.second) ++ oid.rest.flatMap Base128.bytes

end Oid

/-! ## Decoding inverts encoding -/

theorem readSubidentifier_bytes (n : ℕ) (before rest : Bytes) :
    readSubidentifier (before ++ Base128.bytes n ++ rest) before.length =
      some (n, (before ++ Base128.bytes n).length) := by
  apply Base128.loop_bytes
  simp only [List.length_append]
  omega

/-- The loop over the arcs reads what is left of the content. -/
theorem loop_arcs (rest : List ℕ) (before behind : Bytes) (arcs : List ℕ) {rounds : ℕ}
    (hrounds : (rest.flatMap Base128.bytes).length < rounds) :
    loop (arcsBody (before ++ rest.flatMap Base128.bytes ++ behind)
        (before ++ rest.flatMap Base128.bytes).length) rounds (before.length, arcs) =
      some (arcs ++ rest) := by
  induction rest generalizing before arcs rounds with
  | nil =>
    apply loop_of_done _ (Nat.zero_lt_of_lt hrounds)
    rw [arcsBody, if_neg, List.append_nil]
    simp
  | cons n rest ih =>
    rw [List.flatMap_cons] at hrounds ⊢
    have hn := Base128.length_bytes n
    have hdata : before ++ (Base128.bytes n ++ rest.flatMap Base128.bytes) ++ behind =
        before ++ Base128.bytes n ++ (rest.flatMap Base128.bytes ++ behind) := by
      simp only [List.append_assoc]
    have hround : arcsBody (before ++ (Base128.bytes n ++ rest.flatMap Base128.bytes) ++ behind)
        (before ++ (Base128.bytes n ++ rest.flatMap Base128.bytes)).length (before.length, arcs) =
        some (.next ((before ++ Base128.bytes n).length, arcs ++ [n])) := by
      rw [arcsBody, if_pos, hdata, readSubidentifier_bytes]
      · rfl
      · simp only [List.length_append]
        omega
    rw [List.length_append] at hrounds
    have hrest := ih (before ++ Base128.bytes n) (arcs ++ [n]) (by omega : _ < rounds - 1)
    rw [loop_of_next hround (by omega)]
    simp only [List.append_assoc, List.singleton_append] at hrest ⊢
    exact hrest

/-- The first subidentifier is split into the two arcs that it was made from. -/
theorem split_first (oid : Oid) :
    (if 40 * oid.first + oid.second < 40 then (0, 40 * oid.first + oid.second)
      else if 40 * oid.first + oid.second < 80 then (1, 40 * oid.first + oid.second - 40)
      else (2, 40 * oid.first + oid.second - 80)) = (oid.first, oid.second) := by
  have hvalid := oid.valid
  split
  · rw [Prod.mk.injEq]
    omega
  · split <;> rw [Prod.mk.injEq] <;> omega

/-- Arcs are joined if all of them can be written. -/
theorem joinArcs_eq (arcs : List ℕ) :
    joinArcs arcs = if ∀ arc ∈ arcs, arc < 10 ^ maxStrDigits then
      some (".".intercalate (arcs.map Nat.repr)) else none := by
  have hmap : arcs.mapM str = if ∀ arc ∈ arcs, arc < 10 ^ maxStrDigits then
      some (arcs.map Nat.repr) else none := by
    induction arcs with
    | nil => rfl
    | cons n arcs ih =>
      rw [List.mapM_cons, str, ih]
      simp only [List.forall_mem_cons]
      by_cases hn : n < 10 ^ maxStrDigits
      · by_cases hall : ∀ arc ∈ arcs, arc < 10 ^ maxStrDigits
        · simp only [if_pos hn, if_pos hall, if_pos (And.intro hn hall), Option.bind_eq_bind,
            Option.bind_some, Option.pure_def, List.map_cons]
        · simp only [if_pos hn, if_neg hall, if_neg fun h : _ ∧ _ => hall h.2,
            Option.bind_eq_bind, Option.bind_some, Option.bind_none]
      · simp only [if_neg hn, if_neg fun h : _ ∧ _ => hn h.1, Option.bind_eq_bind,
          Option.bind_none]
  rw [joinArcs, hmap]
  split <;> rfl

theorem decode_eq (oid : Oid) (before behind : Bytes) :
    fixedDecodeObjectIdentifier (before ++ oid.octets ++ behind) before.length
      (before.length + oid.octets.length) =
      if oid.Writable then some oid.dotted else none := by
  have hdata : before ++ oid.octets ++ behind =
      before ++ Base128.bytes (40 * oid.first + oid.second) ++
        (oid.rest.flatMap Base128.bytes ++ behind) := by
    simp only [Oid.octets, List.append_assoc]
  have hend : before.length + oid.octets.length =
      (before ++ Base128.bytes (40 * oid.first + oid.second) ++
        oid.rest.flatMap Base128.bytes).length := by
    simp only [Oid.octets, List.length_append, Nat.add_assoc]
  have hread := readSubidentifier_bytes (40 * oid.first + oid.second) before
    (oid.rest.flatMap Base128.bytes ++ behind)
  have hloop := loop_arcs oid.rest (before ++ Base128.bytes (40 * oid.first + oid.second)) behind
    [oid.first, oid.second] (Nat.lt_succ_self _)
  have hrounds : (oid.rest.flatMap Base128.bytes).length + 1 ≤
      (before ++ Base128.bytes (40 * oid.first + oid.second) ++
        (oid.rest.flatMap Base128.bytes ++ behind)).length + 1 := by
    simp only [List.length_append]
    omega
  rw [List.append_assoc _ (oid.rest.flatMap Base128.bytes)] at hloop
  rw [hdata, hend, fixedDecodeObjectIdentifier]
  simp only [hread, Option.bind_eq_bind, Option.bind_some, split_first,
    loop_mono hrounds hloop]
  exact joinArcs_eq oid.arcs

/-! ## Dotted forms -/

theorem dot_notMem_repr (n : ℕ) : '.' ∉ n.repr.toList := by
  intro h
  rw [Nat.toList_repr] at h
  have hdigit := Nat.isDigit_of_mem_toDigits (by omega) (by omega) h
  exact absurd hdigit (by decide)

/-- Arcs are determined by their dotted form. -/
theorem arcs_injective {arcs arcs' : List ℕ} (hne : arcs ≠ []) (hne' : arcs' ≠ [])
    (h : ".".intercalate (arcs.map Nat.repr) = ".".intercalate (arcs'.map Nat.repr)) :
    arcs = arcs' := by
  have hsplit : ∀ l : List ℕ, l ≠ [] →
      (".".intercalate (l.map Nat.repr)).toList.splitOn '.' = l.map fun n => n.repr.toList := by
    intro l hl
    have hdot : ".".toList = ['.'] := rfl
    rw [String.toList_intercalate, List.map_map, hdot]
    apply List.splitOn_intercalate
    · intro digits hdigits
      obtain ⟨n, -, rfl⟩ := List.mem_map.1 hdigits
      exact dot_notMem_repr n
    · simpa using hl
  have hlists : arcs.map (fun n => n.repr.toList) = arcs'.map (fun n => n.repr.toList) := by
    rw [← hsplit arcs hne, ← hsplit arcs' hne', h]
  refine List.map_injective_iff.2 ?_ hlists
  intro m n hmn
  have hdigits : Nat.toDigits 10 m = Nat.toDigits 10 n := by
    rw [← Nat.toList_repr, ← Nat.toList_repr]
    exact hmn
  rw [← @Nat.ofDigitChars_ten_toDigits m, hdigits, Nat.ofDigitChars_ten_toDigits]

/-- **Decoding inverts encoding**: the content octets of an object identifier whose arcs can be
written, anywhere in a buffer, are decoded into its dotted form, and others are an exception; no
other object identifier has the same dotted form. -/
theorem decode_octets (oid : Oid) (before behind : Bytes) :
    fixedDecodeObjectIdentifier (before ++ oid.octets ++ behind) before.length
      (before.length + oid.octets.length) = (if oid.Writable then some oid.dotted else none) ∧
    ∀ oid' : Oid, oid' ≠ oid → oid'.dotted ≠ oid.dotted := by
  refine ⟨decode_eq oid before behind, fun oid' hne hdotted => hne ?_⟩
  have harcs := arcs_injective (List.cons_ne_nil _ _) (List.cons_ne_nil _ _) hdotted
  obtain ⟨first, second, rest, valid⟩ := oid
  obtain ⟨first', second', rest', valid'⟩ := oid'
  simp only [List.cons.injEq] at harcs
  obtain ⟨rfl, rfl, rfl⟩ := harcs
  rfl

/-- An object identifier whose second arc has 4301 digits. -/
def longOid : Oid := ⟨2, 10 ^ maxStrDigits, [], .inr rfl⟩

/-- **A long arc** is an exception. -/
theorem long_arc : ¬ ∀ (oid : Oid) (before behind : Bytes),
    fixedDecodeObjectIdentifier (before ++ oid.octets ++ behind) before.length
      (before.length + oid.octets.length) = some oid.dotted := by
  intro h
  have hlong : ¬ longOid.Writable := fun hall =>
    lt_irrefl _ (hall (10 ^ maxStrDigits) (by simp [Oid.arcs, longOid]))
  have hdecode := h longOid [] []
  rw [decode_eq, if_neg hlong] at hdecode
  cases hdecode

end VirtualRsp.Smdp
