import Mathlib.Data.List.Forall2
import VirtualRsp.Foundations.LinkedList
import VirtualRsp.Lpa.Conversions
import VirtualRsp.Lpa.ManageProfiles

/-!
# The rules authorisation table

The LPA asks the card for its rules and decodes them into linked lists: one entry a rule, each with
a list of the operators that the rule allows. New entries are linked behind the last one. New
operators are linked behind the first one, because the pointer that should follow the end of the
list stays where it was set first: of three operators or more, only the first and the last remain
(`kept`). An operator's field without octets is left a null pointer.

* `getRat`: the command and its three loops, over the memory they build the lists in;
* `Shown`: the lists show every rule with every operator;
* `getRat_iff`: when they do.
-/

namespace VirtualRsp.Lpa.RulesTable

open Program

/-! ## Decoding -/

/-- `struct es10b_operation_id`, without its link; a field is a text or a null pointer. -/
structure OperationId where
  plmn : Option Bytes
  gid1 : Option Bytes
  gid2 : Option Bytes
  deriving DecidableEq

/-- `struct es10b_rat`, without its link: arrays of names, and the first operator. -/
structure Rat where
  pprIds : Option (List (Option String))
  allowedOperators : ℕ
  pprFlags : Option (List (Option String))

/-- The memory of the call: the operators of all rules, of which the head is `operations_wptr`; the
entries, of which the head is `*ratList`; the last entry; and the entry that is being filled. -/
structure Memory where
  operations : LinkedList OperationId
  rats : LinkedList Rat
  ratListWptr : ℕ
  rat : Rat

/-- Before the first rule. -/
def Memory.start : Memory := ⟨.empty, .empty, 0, ⟨none, 0, none⟩⟩

/-- The text of a value, in memory for the number of its digits, which is kept in 32 bits; with a
number that does not fit, the text goes beyond it. -/
def fieldText (value : Bytes) : Option (Option Bytes) :=
  (bin2hex ((value.length * 2 + 1) % 2 ^ 32) value).map Prod.fst

/-- Store the text of a value in the operator that is being filled. -/
def setText (value : Bytes) (set : OperationId → Option Bytes → OperationId) :
    Program OperationId Unit := fun p =>
  (fieldText value).map fun text => (set p text, some ())

/-- A field of an operator. -/
def readOperatorField (n_operator : Node) : Program OperationId Unit :=
  if n_operator.value = [] then pure ()
  else if n_operator.tag = 0x80 then
    setText n_operator.value fun p plmn => { p with plmn := plmn }
  else if n_operator.tag = 0x81 then
    setText n_operator.value fun p gid1 => { p with gid1 := gid1 }
  else if n_operator.tag = 0x82 then
    setText n_operator.value fun p gid2 => { p with gid2 := gid2 }
  else pure ()

/-- An operator, linked behind `operations_wptr` unless that is null. -/
def readOperator (n_allowed_operator : Node) : Program (LinkedList OperationId) Unit := fun l => do
  let (p, done) ← each readOperatorField (unpackAll n_allowed_operator.value) ⟨none, none, none⟩
  let l ← (l.malloc p).link l.head l.brk
  return (l, done)

/-- The operators of a rule, from an empty list on. -/
def readOperators (value : Bytes) : Program Memory Unit := fun m =>
  (each readOperator (unpackAll value) { m.operations with head := 0 }).map fun r =>
    ({ m with operations := r.1, rat := { m.rat with allowedOperators := r.1.head } }, r.2)

/-- The names of the bits of a rule's `pprIds`. -/
def pprIdNames : List String := ["pprUpdateControl", "ppr1", "ppr2", "ppr3"]

/-- The names of the bits of its `pprFlags`. -/
def pprFlagNames : List String := ["consentRequired"]

/-- Names of bits, stored in the entry that is being filled. -/
def readBits (value : Bytes) (desc : List String) (set : Rat → List (Option String) → Rat) :
    Program Memory Unit := do
  let names ← liftFault (Convert.bin2bitsStr value desc)
  alter fun m => { m with rat := set m.rat names }

/-- A field of a rule. -/
def readRuleField (tmpchildnode : Node) : Program Memory Unit :=
  if tmpchildnode.tag = 0x80 then
    readBits tmpchildnode.value pprIdNames fun rat names => { rat with pprIds := some names }
  else if tmpchildnode.tag = 0xA1 then readOperators tmpchildnode.value
  else if tmpchildnode.tag = 0x82 then
    readBits tmpchildnode.value pprFlagNames fun rat names => { rat with pprFlags := some names }
  else pure ()

/-- A new entry. -/
def newRat : Program Memory Unit := alter fun m => { m with rat := ⟨none, 0, none⟩ }

/-- Link the entry behind the last one, or make it the first. -/
def linkRat : Program Memory Unit := fun m => do
  let rats ← (m.rats.malloc m.rat).link m.ratListWptr m.rats.brk
  return ({ m with rats := rats, ratListWptr := m.rats.brk }, some ())

/-- A rule. -/
def readRule (n_profile : Node) : Program Memory Unit := do
  newRat
  each readRuleField (unpackAll n_profile.value)
  linkRat

variable {σ : Type}

/-- `es10b_get_rat`: the lists, in the memory that they are built in. -/
def getRat (command : Bytes → Program σ Bytes) : Program σ Memory := do
  let respbuf ← command (pack 0xBF43 [])
  let response ← .ofOption (findTag 0xBF43 respbuf)
  let table ← .ofOption (findTag 0xA0 response.value)
  liftFault ((each readRule (unpackAll table.value) .start).map fun r => r.2.map fun _ => r.1)

/-! ## The response -/

/-- An operator: its `mccMnc` and, if they are there, its two group identifiers. -/
structure Operator where
  plmn : Bytes
  gid1 : Option Bytes
  gid2 : Option Bytes

/-- A bit string: the number of unused bits, and the octets. -/
structure BitString where
  unused : UInt8
  data : Bytes
  unused_le : unused.toNat ≤ 7

/-- A rule of the table. -/
structure Rule where
  pprIds : BitString
  allowedOperators : List Operator
  pprFlags : BitString

/-- The fields of an operator. -/
def Operator.fields (operator : Operator) : List (ℕ × Bytes) :=
  (0x80, operator.plmn) :: (operator.gid1.toList.map fun gid1 => (0x81, gid1)) ++
    operator.gid2.toList.map fun gid2 => (0x82, gid2)

/-- The contents of a bit string. -/
def BitString.contents (bits : BitString) : Bytes := bits.unused :: bits.data

/-- The fields of a rule. -/
def Rule.fields (rule : Rule) : List (ℕ × Bytes) :=
  [(0x80, rule.pprIds.contents),
    (0xA1, Der.tlvs (segments 0x30 (rule.allowedOperators.map fun o => Der.tlvs o.fields))),
    (0x82, rule.pprFlags.contents)]

/-- The `GetRatResponse` with a table of rules. -/
def getRatResponse (table : List Rule) : Bytes :=
  Der.tlv 0xBF43 (Der.tlv 0xA0 (Der.tlvs (segments 0x30 (table.map fun r => Der.tlvs r.fields))))

/-! ## What the lists should show -/

/-- The text of a value. -/
def digits (value : Bytes) : Option Bytes := some (value.flatMap hexByte)

/-- The text of a value; no octets are a null pointer. -/
def digitsOrNull (value : Bytes) : Option Bytes := if value = [] then none else digits value

/-- An element of the list of operators, under a way to show values. -/
def Operator.shown (text : Bytes → Option Bytes) (operator : Operator) : OperationId :=
  ⟨text operator.plmn, operator.gid1.bind text, operator.gid2.bind text⟩

/-- The list has one entry a rule, in order, and each entry has a list with one element for each
operator of its rule, in order, with the operator's values. -/
def Shown (text : Bytes → Option Bytes) (table : List Rule) (m : Memory) : Prop :=
  ∃ rats, LinkedList.Chain m.rats.cells m.rats.head rats ∧
    List.Forall₂ (fun rule rat => ∃ operators,
      LinkedList.Chain m.operations.cells rat.allowedOperators operators ∧
        operators.map Prod.snd = rule.allowedOperators.map (Operator.shown text))
      table (rats.map Prod.snd)

/-- What remains of a list of operators: the first and the last. -/
def kept {α : Type*} (xs : List α) : List α := xs.take 1 ++ xs.tail.getLast?.toList

/-- The values of an operator are short enough for their texts. -/
def Operator.Fits (operator : Operator) : Prop := ∀ x ∈ operator.fields, x.2.length * 2 + 1 < 2 ^ 32

/-- So are the values of a rule, whose bits are counted by an `int`. -/
structure Rule.Fits (rule : Rule) : Prop where
  pprIds : rule.pprIds.data.length * 8 ≤ 2 ^ 31
  pprFlags : rule.pprFlags.data.length * 8 ≤ 2 ^ 31
  operators : ∀ operator ∈ rule.allowedOperators, operator.Fits

/-! ## Operators -/

variable {operator : Operator} {rule : Rule} {table : List Rule}

theorem fieldText_eq (value : Bytes) :
    fieldText value = if value.length * 2 + 1 < 2 ^ 32 then some (digits value) else none := by
  have hcomm : value.length * 2 + 1 = 2 * value.length + 1 := by omega
  rw [fieldText, bin2hex, hcomm, if_neg (lt_irrefl _)]
  by_cases h : 2 * value.length + 1 < 2 ^ 32
  · rw [Nat.mod_eq_of_lt h, if_neg (lt_irrefl _), if_pos h]
    rfl
  · have hmod := Nat.mod_lt (2 * value.length + 1) (by decide : 0 < 2 ^ 32)
    rw [if_pos (by omega), if_neg h]
    rfl

theorem setText_returns {value : Bytes} {set : OperationId → Option Bytes → OperationId}
    {p p' : OperationId} :
    (setText value set).Returns p () p' ↔
      value.length * 2 + 1 < 2 ^ 32 ∧ set p (digits value) = p' := by
  rw [Returns, setText, fieldText_eq]
  split
  · rename_i h
    simp only [Option.map_some, Option.some.injEq, Prod.mk.injEq, and_true, h, true_and]
  · rename_i h
    simp only [Option.map_none, reduceCtorEq, h, false_and]

/-- A field with octets has a text only if it fits. -/
theorem fits_of_returns {x : ℕ × Bytes} (hx : x.1 = 0x80 ∨ x.1 = 0x81 ∨ x.1 = 0x82)
    {p p' : OperationId} (h : (readOperatorField (.of x.1 x.2)).Returns p () p') :
    x.2.length * 2 + 1 < 2 ^ 32 := by
  rw [readOperatorField, Node.of_value, Node.of_tag] at h
  split at h
  · rename_i hnil
    rw [hnil]
    decide
  · rcases hx with hx | hx | hx
    all_goals
      simp only [hx, if_true, Nat.reduceEqDiff, if_false] at h
      exact (setText_returns.1 h).1

/-- A field that may be missing is stored by what reads its tag. -/
theorem returns_field {tag : ℕ} {f : OperationId → Option Bytes → OperationId}
    (hread : ∀ value, value ≠ [] → readOperatorField (.of tag value) = setText value f)
    {field : Option Bytes} (h : ∀ value ∈ field, value.length * 2 + 1 < 2 ^ 32) {p : OperationId}
    (hp : f p none = p) :
    (each readOperatorField ((field.toList.map fun value => (tag, value)).map
      fun x => Node.of x.1 x.2)).Returns p () (f p (field.bind digitsOrNull)) := by
  cases field with
  | none => exact returns_each_nil.2 hp.symm
  | some value =>
    refine returns_each_cons.2 ⟨_, ?_, returns_each_nil.2 rfl⟩
    rw [Option.bind_some, digitsOrNull]
    split
    · rename_i hnil
      rw [hp, readOperatorField, if_pos (by exact hnil)]
      exact returns_pure.2 ⟨rfl, rfl⟩
    · rename_i hne
      rw [hread value hne]
      exact setText_returns.2 ⟨h value rfl, rfl⟩

/-- **The fields of an operator.** -/
theorem returns_fields (h : operator.Fits) :
    (each readOperatorField (operator.fields.map fun x => Node.of x.1 x.2)).Returns
      ⟨none, none, none⟩ () (operator.shown digitsOrNull) := by
  have hfields : operator.fields = ((some operator.plmn).toList.map fun v => (0x80, v)) ++
      ((operator.gid1.toList.map fun v => (0x81, v)) ++
        operator.gid2.toList.map fun v => (0x82, v)) := rfl
  have hmem : ∀ {tag : ℕ} {field : Option Bytes}, (∀ x ∈ field.toList.map fun v => (tag, v),
      x.2.length * 2 + 1 < 2 ^ 32) → ∀ value ∈ field, value.length * 2 + 1 < 2 ^ 32 :=
    fun h value hv => h _ (List.mem_map.2 ⟨value, Option.mem_toList.2 hv, rfl⟩)
  rw [Operator.Fits, hfields, List.forall_mem_append, List.forall_mem_append] at h
  rw [hfields, List.map_append, List.map_append]
  refine returns_each_append.2 ⟨_, returns_field (f := fun p plmn => { p with plmn := plmn })
    (fun value hne => ?_) (hmem h.1) rfl, returns_each_append.2 ⟨_,
    returns_field (f := fun p gid1 => { p with gid1 := gid1 }) (fun value hne => ?_)
      (hmem h.2.1) rfl,
    returns_field (f := fun p gid2 => { p with gid2 := gid2 }) (fun value hne => ?_)
      (hmem h.2.2) rfl⟩⟩
  · exact if_neg hne
  · exact if_neg hne
  · exact if_neg hne

theorem fields_tag {x : ℕ × Bytes} (hx : x ∈ operator.fields) :
    x.1 = 0x80 ∨ x.1 = 0x81 ∨ x.1 = 0x82 := by
  rw [Operator.fields, List.cons_append, List.mem_cons, List.mem_append] at hx
  rcases hx with rfl | hx | hx
  · exact .inl rfl
  · obtain ⟨value, -, rfl⟩ := List.mem_map.1 hx
    exact .inr (.inl rfl)
  · obtain ⟨value, -, rfl⟩ := List.mem_map.1 hx
    exact .inr (.inr rfl)

/-- The data object of an operator. -/
def Operator.node (operator : Operator) : Node := .of 0x30 (Der.tlvs operator.fields)

theorem unpackAll_operator (hlen : (Der.tlvs operator.fields).length < 2 ^ 32) :
    unpackAll operator.node.value = operator.fields.map fun x => Node.of x.1 x.2 := by
  refine unpackAll_tlvs (fun t ht => ?_) hlen
  obtain ⟨x, hx, rfl⟩ := List.mem_map.1 ht
  rcases fields_tag hx with h | h | h
  · exact h ▸ by decide
  · exact h ▸ by decide
  · exact h ▸ by decide

/-- An operator that was read fits. -/
theorem fits_of_readOperator (hlen : (Der.tlvs operator.fields).length < 2 ^ 32)
    {l l' : LinkedList OperationId} (h : (readOperator operator.node).Returns l () l') :
    operator.Fits := by
  intro x hx
  rw [Returns, readOperator, unpackAll_operator hlen] at h
  obtain ⟨⟨p, done⟩, hfields, h⟩ := Option.bind_eq_some_iff.1 h
  obtain ⟨_, -, h⟩ := Option.bind_eq_some_iff.1 h
  obtain rfl : done = some () := congrArg Prod.snd (Option.some.inj h)
  obtain ⟨_, _, hx'⟩ := returns_of_mem hfields (List.mem_map_of_mem hx)
  exact fits_of_returns (fields_tag hx) hx'

theorem kept_concat {α : Type*} (xs : List α) (x : α) :
    kept (xs ++ [x]) = (kept xs).take 1 ++ [x] := by
  cases xs with
  | nil => rfl
  | cons y xs => simp [kept]

theorem kept_eq_self {α : Type*} {xs : List α} (h : xs.length ≤ 2) : kept xs = xs := by
  rcases xs with _ | ⟨x, _ | ⟨y, _ | ⟨z, xs⟩⟩⟩
  · rfl
  · rfl
  · rfl
  · simp at h

theorem length_kept_le {α : Type*} (xs : List α) : (kept xs).length ≤ 2 := by
  rcases xs with _ | ⟨x, xs⟩
  · exact Nat.zero_le _
  · cases h : xs.getLast? <;> simp [kept, h]

/-- The operators that were read are linked in new memory, beside what was there before. -/
structure Linked (before : LinkedList OperationId) (done : List Operator)
    (l : LinkedList OperationId) (xs : List (ℕ × OperationId)) : Prop where
  repr : l.Repr xs
  values : xs.map Prod.snd = kept (done.map (Operator.shown digitsOrNull))
  new : ∀ x ∈ xs, before.brk ≤ x.1
  brk_le : before.brk ≤ l.brk
  frame : ∀ p < before.brk, l.cells p = before.cells p

/-- **One operator** is linked behind the first one. -/
theorem Linked.step {before l : LinkedList OperationId} {done : List Operator}
    {xs : List (ℕ × OperationId)} (h : Linked before done l xs) (hfits : operator.Fits)
    (hlen : (Der.tlvs operator.fields).length < 2 ^ 32) :
    ∃ l', (readOperator operator.node).Returns l () l' ∧
      ∃ xs', Linked before (done ++ [operator]) l' xs' := by
  obtain ⟨l', hlink, hrepr, hbrk, hframe⟩ :=
    LinkedList.link_repr h.repr (operator.shown digitsOrNull) (n := 1) (by simp)
  have hfields := returns_fields hfits
  refine ⟨l', ?_, xs.take 1 ++ [(l.brk, operator.shown digitsOrNull)], hrepr, ?_, ?_, ?_, ?_⟩
  · rw [← LinkedList.head_eq h.repr] at hlink
    rw [Returns] at hfields ⊢
    simp only [readOperator, unpackAll_operator hlen, hfields, Option.bind_eq_bind,
      Option.bind_some, hlink]
    rfl
  · rw [List.map_append, List.map_take, h.values, List.map_append, List.map_singleton,
      List.map_singleton, kept_concat]
  · intro x hx
    rcases List.mem_append.1 hx with hx | hx
    · exact h.new x (List.mem_of_mem_take hx)
    · rw [List.mem_singleton.1 hx]
      exact h.brk_le
  · have := h.brk_le
    omega
  · intro p hp
    have := h.brk_le
    rw [hframe p (fun hmem => ?_) (by omega), h.frame p hp]
    obtain ⟨x, hx, rfl⟩ := List.mem_map.1 hmem
    exact absurd (h.new x hx) (by omega)

/-- **The operators of a rule.** -/
theorem returns_operators {operators : List Operator} (hfits : ∀ o ∈ operators, o.Fits)
    (hlen : ∀ o ∈ operators, (Der.tlvs o.fields).length < 2 ^ 32) {before : LinkedList OperationId}
    (h : LinkedList.Repr { before with head := 0 } []) :
    ∃ l, (each readOperator (operators.map Operator.node)).Returns { before with head := 0 } () l ∧
      ∃ xs, Linked before operators l xs := by
  rw [each_map]
  exact returns_each_of_step (P := fun done l => ∃ xs, Linked before done l xs)
    (fun done o l ho ⟨xs, h⟩ => h.step (hfits o ho) (hlen o ho)) []
    ⟨[], h, rfl, by simp, Nat.le_refl _, fun _ _ => rfl⟩

/-! ## Rules -/

/-- The data object of a rule. -/
def Rule.node (rule : Rule) : Node := .of 0x30 (Der.tlvs rule.fields)

/-- The entries that were linked for the rules so far; of the operators of a rule, those that are
kept. -/
structure Progress (m : Memory) (done : List Rule) (rats : List (ℕ × Rat)) : Prop where
  repr : m.rats.Repr rats
  last : m.ratListWptr = LinkedList.lastAddr 0 rats
  operations : LinkedList.Repr { m.operations with head := 0 } []
  entries : List.Forall₂ (fun rule rat => ∃ operators,
    LinkedList.Chain m.operations.cells rat.allowedOperators operators ∧
      operators.map Prod.snd = kept (rule.allowedOperators.map (Operator.shown digitsOrNull)))
    done (rats.map Prod.snd)

/-- Reading the names of bits touches the entry only. -/
theorem returns_readBits {bits : BitString} (h : bits.data.length * 8 ≤ 2 ^ 31)
    (desc : List String) (f : Rat → List (Option String) → Rat) (m : Memory) :
    ∃ names, (readBits bits.contents desc f).Returns m () { m with rat := f m.rat names } := by
  obtain ⟨names, hnames⟩ : ∃ names, Convert.bin2bitsStr bits.contents desc = some (some names) :=
    ⟨_, Convert.bin2bitsStr_eq (Nat.le_succ_of_le bits.unused_le) h desc⟩
  refine ⟨names, returns_bind.2 ⟨names, m, ?_, rfl⟩⟩
  rw [Returns, liftFault, hnames]
  rfl

theorem le_of_readBits {bits : BitString} {desc : List String}
    {f : Rat → List (Option String) → Rat} {m m' : Memory}
    (h : (readBits bits.contents desc f).Returns m () m') : bits.data.length * 8 ≤ 2 ^ 31 := by
  obtain ⟨names, t, hbits, -⟩ := returns_bind.1 h
  rw [Returns, liftFault, BitString.contents] at hbits
  obtain ⟨r, hr, -⟩ := Option.map_eq_some_iff.1 hbits
  exact Convert.le_of_bin2bitsStr hr

theorem unpackAll_rule (hlen : (Der.tlvs rule.fields).length < 2 ^ 32) :
    unpackAll rule.node.value = rule.fields.map fun x => Node.of x.1 x.2 := by
  have htags : rule.fields.map Prod.fst = [0x80, 0xA1, 0x82] := rfl
  refine unpackAll_tlvs ?_ hlen
  rw [htags]
  decide

/-- The data objects of the operators of a rule. -/
theorem unpackAll_operators (hlen : (Der.tlvs rule.fields).length < 2 ^ 32) :
    unpackAll (Der.tlvs (segments 0x30 (rule.allowedOperators.map fun o => Der.tlvs o.fields))) =
        rule.allowedOperators.map Operator.node ∧
      ∀ o ∈ rule.allowedOperators, (Der.tlvs o.fields).length < 2 ^ 32 := by
  have hin : (Der.tlvs (segments 0x30 (rule.allowedOperators.map fun o =>
      Der.tlvs o.fields))).length ≤ (Der.tlvs rule.fields).length :=
    Der.length_le_tlvs (x := (0xA1, _)) (List.mem_cons_of_mem _ List.mem_cons_self)
  refine ⟨?_, fun o ho => ?_⟩
  · rw [unpackAll_segments (by decide) (by omega), List.map_map]
    rfl
  · have ho : (Der.tlvs o.fields).length ≤ (Der.tlvs (segments 0x30
        (rule.allowedOperators.map fun o => Der.tlvs o.fields))).length :=
      Der.length_le_tlvs (x := (0x30, _))
        (List.mem_map.2 ⟨_, List.mem_map.2 ⟨o, ho, rfl⟩, rfl⟩)
    omega

/-- Lists in memory from before the operators of a rule stay as they are. -/
theorem Linked.chain {before l : LinkedList OperationId} {done : List Operator}
    {xs ys : List (ℕ × OperationId)} {p : ℕ} (h : Linked before done l xs)
    (hfresh : LinkedList.Repr { before with head := 0 } [])
    (hp : LinkedList.Chain before.cells p ys) : LinkedList.Chain l.cells p ys := by
  refine hp.congr fun y hy => h.frame _ ?_
  obtain ⟨-, q, hq⟩ := hp.mem_cells hy
  by_contra hlt
  have hnone : before.cells y.1 = none := hfresh.fresh _ (Nat.not_lt.1 hlt)
  rw [hnone] at hq
  cases hq

/-- **One rule** is linked behind the last one. -/
theorem Progress.step {m : Memory} {done : List Rule} {rats : List (ℕ × Rat)}
    (h : Progress m done rats) (hfits : rule.Fits)
    (hlen : (Der.tlvs rule.fields).length < 2 ^ 32) :
    ∃ m', (readRule rule.node).Returns m () m' ∧ ∃ rats', Progress m' (done ++ [rule]) rats' := by
  obtain ⟨hoperators, holen⟩ := unpackAll_operators hlen
  obtain ⟨l, hl, xs, hlinked⟩ := returns_operators hfits.operators holen h.operations
  let m₁ : Memory := { m with rat := ⟨none, 0, none⟩ }
  obtain ⟨pprIds, hids⟩ := returns_readBits hfits.pprIds pprIdNames
    (fun rat names => { rat with pprIds := some names }) m₁
  let m₂ : Memory := { m with operations := l, rat := ⟨some pprIds, l.head, none⟩ }
  obtain ⟨pprFlags, hflags⟩ := returns_readBits hfits.pprFlags pprFlagNames
    (fun rat names => { rat with pprFlags := some names }) m₂
  let rat : Rat := ⟨some pprIds, l.head, some pprFlags⟩
  obtain ⟨rats', hlink, hrepr, -, -⟩ := LinkedList.link_repr h.repr rat (n := rats.length)
    List.length_eq_zero_iff.1
  rw [List.take_length, ← h.last] at hlink
  rw [List.take_length] at hrepr
  have hread : (readOperators (Der.tlvs (segments 0x30
      (rule.allowedOperators.map fun o => Der.tlvs o.fields)))).Returns
      { m₁ with rat := ⟨some pprIds, 0, none⟩ } () m₂ := by
    rw [Returns] at hl ⊢
    rw [readOperators, hoperators, hl]
    rfl
  refine ⟨⟨l, rats', m.rats.brk, rat⟩, ?_, rats ++ [(m.rats.brk, rat)], hrepr, ?_, ?_, ?_⟩
  · refine returns_bind.2 ⟨(), m₁, rfl, returns_bind.2 ⟨(), { m₂ with rat := rat }, ?_, ?_⟩⟩
    · rw [unpackAll_rule hlen]
      exact returns_each_cons.2 ⟨_, hids, returns_each_cons.2 ⟨_, hread,
        returns_each_cons.2 ⟨_, hflags, returns_each_nil.2 rfl⟩⟩⟩
    · rw [Returns, linkRat]
      change ((m.rats.malloc rat).link m.ratListWptr m.rats.brk).bind _ = _
      rw [hlink]
      rfl
  · simp [LinkedList.lastAddr]
  · exact ⟨.nil, hlinked.repr.fresh, hlinked.repr.brk_pos⟩
  · rw [List.map_append, List.map_singleton]
    refine List.rel_append (h.entries.imp ?_) (.cons ⟨xs, hlinked.repr.chain, hlinked.values⟩ .nil)
    rintro rule rat ⟨operators, hchain, hvalues⟩
    exact ⟨operators, hlinked.chain h.operations hchain, hvalues⟩

/-- A rule that was read fits. -/
theorem fits_of_readRule (hlen : (Der.tlvs rule.fields).length < 2 ^ 32) {m m' : Memory}
    (h : (readRule rule.node).Returns m () m') : rule.Fits := by
  obtain ⟨_, m₁, -, h⟩ := returns_bind.1 h
  obtain ⟨_, m₂, h, -⟩ := returns_bind.1 h
  obtain ⟨hoperators, holen⟩ := unpackAll_operators hlen
  rw [unpackAll_rule hlen] at h
  obtain ⟨m₃, hids, h⟩ := returns_each_cons.1 h
  obtain ⟨m₄, hread, h⟩ := returns_each_cons.1 h
  obtain ⟨m₅, hflags, -⟩ := returns_each_cons.1 h
  have hids : (readBits rule.pprIds.contents pprIdNames
      fun rat names => { rat with pprIds := some names }).Returns m₁ () m₃ := hids
  have hread : (readOperators (Der.tlvs (segments 0x30
      (rule.allowedOperators.map fun o => Der.tlvs o.fields)))).Returns m₃ () m₄ := hread
  have hflags : (readBits rule.pprFlags.contents pprFlagNames
      fun rat names => { rat with pprFlags := some names }).Returns m₄ () m₅ := hflags
  rw [Returns, readOperators, hoperators, Option.map_eq_some_iff] at hread
  obtain ⟨⟨l, r⟩, hl, hr⟩ := hread
  obtain rfl : r = some () := congrArg Prod.snd hr
  refine ⟨le_of_readBits hids, le_of_readBits hflags, fun o ho => ?_⟩
  obtain ⟨_, _, ho'⟩ := returns_of_mem hl (List.mem_map_of_mem ho)
  exact fits_of_readOperator (holen o ho) ho'

/-! ## The whole table -/

theorem returns_rules (hfits : ∀ rule ∈ table, rule.Fits)
    (hlen : ∀ rule ∈ table, (Der.tlvs rule.fields).length < 2 ^ 32) :
    ∃ m, (each readRule (table.map Rule.node)).Returns .start () m ∧
      ∃ rats, Progress m table rats := by
  rw [each_map]
  exact returns_each_of_step (P := fun done m => ∃ rats, Progress m done rats)
    (fun done rule m hr ⟨rats, h⟩ => h.step (hfits rule hr) (hlen rule hr)) []
    ⟨[], LinkedList.empty_repr, rfl, LinkedList.empty_repr, .nil⟩

/-- Lists in step, of which one relation between the elements decides another one. -/
theorem forall₂_iff {α β : Type*} {R S : α → β → Prop} {P : α → Prop} {xs : List α} {ys : List β}
    (h : List.Forall₂ R xs ys) (hiff : ∀ x y, R x y → (S x y ↔ P x)) :
    List.Forall₂ S xs ys ↔ ∀ x ∈ xs, P x := by
  induction h with
  | nil => simp
  | cons hxy _ ih => rw [List.forall₂_cons, List.forall_mem_cons, ih, hiff _ _ hxy]

/-- What remains of a list shows all of it. -/
theorem kept_eq_iff {operators : List Operator} {text : Bytes → Option Bytes} :
    kept (operators.map (Operator.shown digitsOrNull)) = operators.map (Operator.shown text) ↔
      operators.length ≤ 2 ∧ ∀ o ∈ operators, o.shown digitsOrNull = o.shown text := by
  constructor
  · intro h
    have hle := length_kept_le (operators.map (Operator.shown digitsOrNull))
    rw [h, List.length_map] at hle
    rw [kept_eq_self (by rwa [List.length_map])] at h
    exact ⟨hle, List.map_inj_left.1 h⟩
  · rintro ⟨hle, h⟩
    rw [kept_eq_self (by rwa [List.length_map])]
    exact List.map_inj_left.2 h

theorem Progress.shown_iff {m : Memory} {rats : List (ℕ × Rat)} (h : Progress m table rats)
    (text : Bytes → Option Bytes) :
    Shown text table m ↔ ∀ rule ∈ table, rule.allowedOperators.length ≤ 2 ∧
      ∀ o ∈ rule.allowedOperators, o.shown digitsOrNull = o.shown text := by
  refine Iff.trans (b := List.Forall₂ (fun rule rat => ∃ operators,
    LinkedList.Chain m.operations.cells rat.allowedOperators operators ∧
      operators.map Prod.snd = rule.allowedOperators.map (Operator.shown text))
    table (rats.map Prod.snd)) ?_ (forall₂_iff h.entries fun rule rat hrat => ?_)
  · constructor
    · rintro ⟨rats', hchain, hall⟩
      rwa [hchain.unique h.repr.chain] at hall
    · exact fun hall => ⟨rats, h.repr.chain, hall⟩
  · obtain ⟨operators, hchain, hvalues⟩ := hrat
    rw [← kept_eq_iff, ← hvalues]
    constructor
    · rintro ⟨operators', hchain', h⟩
      rwa [hchain'.unique hchain] at h
    · exact fun h => ⟨operators, hchain, h⟩

/-! ## The command -/

/-- The lengths of the data objects of a response. -/
theorem length_response (hlen : (getRatResponse table).length < 2 ^ 32) :
    (Der.tlv 0xA0 (Der.tlvs (segments 0x30 (table.map fun r => Der.tlvs r.fields)))).length <
        2 ^ 32 ∧
      (Der.tlvs (segments 0x30 (table.map fun r => Der.tlvs r.fields))).length < 2 ^ 32 ∧
      ∀ rule ∈ table, (Der.tlvs rule.fields).length < 2 ^ 32 := by
  rw [getRatResponse, Der.length_tlv] at hlen
  have hA0 : (Der.tlv 0xA0 (Der.tlvs (segments 0x30 (table.map fun r =>
      Der.tlvs r.fields)))).length < 2 ^ 32 := by omega
  have hrules := hA0
  rw [Der.length_tlv] at hrules
  refine ⟨hA0, by omega, fun rule hr => ?_⟩
  have hle : (Der.tlvs rule.fields).length ≤
      (Der.tlvs (segments 0x30 (table.map fun r => Der.tlvs r.fields))).length :=
    Der.length_le_tlvs (x := (0x30, _)) (List.mem_map.2 ⟨_, List.mem_map.2 ⟨rule, hr, rfl⟩, rfl⟩)
  omega

/-- The loop runs over the rules of the response. -/
theorem getRat_returns {command : Bytes → Program σ Bytes} {s t : σ} {m : Memory}
    (hcmd : (command (pack 0xBF43 [])).Returns s (getRatResponse table) t)
    (hlen : (getRatResponse table).length < 2 ^ 32) :
    (getRat command).Returns s m t ↔
      (each readRule (table.map Rule.node)).Returns .start () m := by
  obtain ⟨hA0, hrules, -⟩ := length_response hlen
  have hresponse : findTag 0xBF43 (getRatResponse table) = some (.of 0xBF43 _) :=
    findTag_tlv (by decide) hlen
  have htable := @findTag_tlv 0xA0 (by decide) _ hA0
  have hnodes : unpackAll (Der.tlvs (segments 0x30 (table.map fun r => Der.tlvs r.fields))) =
      table.map Rule.node := by
    rw [unpackAll_segments (by decide) hrules, List.map_map]
    rfl
  rw [Returns, getRat, bind_of_returns hcmd]
  rw [bind_of_returns (by rw [hresponse]; rfl),
    bind_of_returns (by rw [Node.of_value, htable]; rfl), Node.of_value, hnodes, liftFault, Returns]
  cases each readRule (table.map Rule.node) .start with
  | none => simp
  | some r =>
    obtain ⟨m', _ | _⟩ := r
    · simp
    · simp

/-- **The lists** show the table under a way to show values. -/
theorem getRat_shown_iff {command : Bytes → Program σ Bytes} {s t : σ}
    (hcmd : (command (pack 0xBF43 [])).Returns s (getRatResponse table) t)
    (hlen : (getRatResponse table).length < 2 ^ 32) (text : Bytes → Option Bytes) :
    (∃ m, (getRat command).Returns s m t ∧ Shown text table m) ↔
      ∀ rule ∈ table, rule.Fits ∧ rule.allowedOperators.length ≤ 2 ∧
        ∀ o ∈ rule.allowedOperators, o.shown digitsOrNull = o.shown text := by
  obtain ⟨-, -, hrules⟩ := length_response hlen
  simp only [getRat_returns hcmd hlen]
  constructor
  · rintro ⟨m, hm, hshown⟩
    have hfits : ∀ rule ∈ table, rule.Fits := by
      intro rule hr
      obtain ⟨_, _, h⟩ := returns_of_mem hm (List.mem_map_of_mem hr)
      exact fits_of_readRule (hrules rule hr) h
    obtain ⟨m', hm', rats, hprogress⟩ := returns_rules hfits hrules
    rw [Returns] at hm hm'
    rw [hm] at hm'
    cases hm'
    exact fun rule hr => ⟨hfits rule hr, (hprogress.shown_iff text).1 hshown rule hr⟩
  · intro h
    obtain ⟨m, hm, rats, hprogress⟩ := returns_rules (fun rule hr => (h rule hr).1) hrules
    exact ⟨m, hm, (hprogress.shown_iff text).2 fun rule hr => (h rule hr).2⟩

/-- None of the values of an operator is empty. -/
def Operator.HasOctets (operator : Operator) : Prop := ∀ x ∈ operator.fields, x.2 ≠ []

theorem digitsOrNull_eq_iff {value : Bytes} : digitsOrNull value = digits value ↔ value ≠ [] := by
  rw [digitsOrNull]
  split
  · rename_i hnil
    simp [digits, hnil]
  · rename_i hne
    exact iff_of_true rfl hne

theorem shown_eq_iff : operator.shown digitsOrNull = operator.shown digits ↔
    operator.HasOctets := by
  obtain ⟨plmn, gid1, gid2⟩ := operator
  have hfield : ∀ field : Option Bytes, field.bind digitsOrNull = field.bind digits ↔
      ∀ value ∈ field, value ≠ [] := by
    intro field
    cases field with
    | none => simp
    | some value => simpa using digitsOrNull_eq_iff
  simp [Operator.shown, Operator.HasOctets, Operator.fields, digitsOrNull_eq_iff, hfield, or_imp,
    forall_and]

/-- **The rules authorisation table.** The lists show every rule with every operator and its values
if and only if the values fit, no rule has three operators, and no field of an operator is empty. A
null pointer in place of a value without octets leaves the condition on the operators. -/
theorem getRat_iff {command : Bytes → Program σ Bytes} {s t : σ}
    (hcmd : (command (pack 0xBF43 [])).Returns s (getRatResponse table) t)
    (hlen : (getRatResponse table).length < 2 ^ 32) :
    ((∃ m, (getRat command).Returns s m t ∧ Shown digits table m) ↔
      ∀ rule ∈ table, rule.Fits ∧ rule.allowedOperators.length ≤ 2 ∧
        ∀ operator ∈ rule.allowedOperators, operator.HasOctets) ∧
    ((∃ m, (getRat command).Returns s m t ∧ Shown digitsOrNull table m) ↔
      ∀ rule ∈ table, rule.Fits ∧ rule.allowedOperators.length ≤ 2) := by
  constructor
  · rw [getRat_shown_iff hcmd hlen]
    simp only [shown_eq_iff]
  · rw [getRat_shown_iff hcmd hlen]
    simp

/-- A rule for three operators. -/
def sampleRule : Rule :=
  ⟨⟨4, [0x60], by decide⟩, [⟨[0x62, 0xF2, 0x10], none, none⟩, ⟨[0x62, 0xF2, 0x20], some [1], none⟩,
    ⟨[0x62, 0xF2, 0x30], none, some [2, 3]⟩], ⟨7, [0x80], by decide⟩⟩

/-- A rule without operators, and one with the first two. -/
def sampleTable : List Rule :=
  [{ sampleRule with allowedOperators := [] },
    { sampleRule with allowedOperators := sampleRule.allowedOperators.take 2 }]

/-- A card that answers with a table. -/
def answer (table : List Rule) (_derReq : Bytes) : Program Unit Bytes := pure (getRatResponse table)

theorem answer_returns (table : List Rule) :
    (answer table (pack 0xBF43 [])).Returns () (getRatResponse table) () := rfl

theorem getRat_iff_sample :
    ((∃ m, (getRat (answer sampleTable)).Returns () m () ∧ Shown digits sampleTable m) ↔
      ∀ rule ∈ sampleTable, rule.Fits ∧ rule.allowedOperators.length ≤ 2 ∧
        ∀ operator ∈ rule.allowedOperators, operator.HasOctets) ∧
    ((∃ m, (getRat (answer sampleTable)).Returns () m () ∧ Shown digitsOrNull sampleTable m) ↔
      ∀ rule ∈ sampleTable, rule.Fits ∧ rule.allowedOperators.length ≤ 2) :=
  getRat_iff (answer_returns sampleTable) (by decide +kernel)

/-- Of a rule's three operators, the second one is lost. -/
theorem getRat_loses :
    ¬ ∃ m, (getRat (answer [sampleRule])).Returns () m () ∧ Shown digitsOrNull [sampleRule] m := by
  intro h
  have hrule := (getRat_shown_iff (answer_returns [sampleRule]) (by decide +kernel)
    digitsOrNull).1 h sampleRule (List.mem_singleton.2 rfl)
  exact absurd hrule.2.1 (by decide)

end VirtualRsp.Lpa.RulesTable
