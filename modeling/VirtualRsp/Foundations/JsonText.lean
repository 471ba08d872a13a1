import Mathlib.Data.Int.Notation
import Mathlib.Data.List.Basic
import Mathlib.Tactic.SplitIfs

/-!
# Writing values as JSON and reading them back

Values of a program (`Value`) are written as a sequence of JSON tokens, piece by piece (`write`); an
octet string has no form in JSON, and the writer stops where it meets one. `load` reads a whole
text. JSON has one kind of sequence, so tuples come back as lists (`Value.loaded`); that is all that
changes (`load_write`).
-/

namespace VirtualRsp.JsonText

/-- A value of a program. The entries of a dictionary are in order. -/
inductive Value
  | null
  | int (i : ℤ)
  | str (s : String)
  | bytes (bs : List UInt8)
  | tuple (items : List Value)
  | list (items : List Value)
  | dict (items : List (String × Value))

/-- The tokens of JSON. -/
inductive Token
  | null
  | int (i : ℤ)
  | str (s : String)
  | lbrack
  | rbrack
  | lbrace
  | rbrace
  | comma
  | colon
  deriving DecidableEq

/-! ## Writing -/

/-- What a writer has put out, and whether it came to the end. -/
abbrev Written := List Token × Bool

/-- Tokens that can always be written. -/
def put (toks : List Token) : Written := (toks, true)

/-- One after the other, unless the first stops. -/
def Written.andThen (a b : Written) : Written := if a.2 then (a.1 ++ b.1, b.2) else a

theorem andThen_snd {a b : Written} : (a.andThen b).2 = true ↔ a.2 = true ∧ b.2 = true := by
  unfold Written.andThen
  split_ifs with h <;> simp [h]

theorem andThen_fst {a b : Written} (h : a.2 = true) : (a.andThen b).1 = a.1 ++ b.1 := by
  rw [Written.andThen, if_pos h]

mutual

/-- Write a value. -/
def write : Value → Written
  | .null => put [.null]
  | .int i => put [.int i]
  | .str s => put [.str s]
  | .bytes _ => ([], false)
  | .tuple items => (put [.lbrack]).andThen ((writeItems true items).andThen (put [.rbrack]))
  | .list items => (put [.lbrack]).andThen ((writeItems true items).andThen (put [.rbrack]))
  | .dict items => (put [.lbrace]).andThen ((writePairs true items).andThen (put [.rbrace]))

/-- Write the items of a sequence, with a comma before each but the first. -/
def writeItems (first : Bool) : List Value → Written
  | [] => put []
  | v :: vs =>
    (put (if first then [] else [.comma])).andThen ((write v).andThen (writeItems false vs))

/-- Write the entries of a dictionary. -/
def writePairs (first : Bool) : List (String × Value) → Written
  | [] => put []
  | (k, v) :: kvs =>
    (put ((if first then [] else [.comma]) ++ [.str k, .colon])).andThen
      ((write v).andThen (writePairs false kvs))

end

/-! ## Reading -/

/-- Read items up to the closing bracket. The number bounds the rounds. -/
def readItems (read : List Token → Option (Value × List Token)) :
    ℕ → List Token → Option (List Value × List Token)
  | 0, _ => none
  | n + 1, toks => do
    let (v, toks) ← read toks
    match toks with
    | .comma :: toks => do
      let (vs, toks) ← readItems read n toks
      return (v :: vs, toks)
    | .rbrack :: toks => return ([v], toks)
    | _ => none

/-- Read entries up to the closing brace. -/
def readPairs (read : List Token → Option (Value × List Token)) :
    ℕ → List Token → Option (List (String × Value) × List Token)
  | 0, _ => none
  | n + 1, toks =>
    match toks with
    | .str k :: .colon :: toks => do
      let (v, toks) ← read toks
      match toks with
      | .comma :: toks => do
        let (kvs, toks) ← readPairs read n toks
        return ((k, v) :: kvs, toks)
      | .rbrace :: toks => return ([(k, v)], toks)
      | _ => none
    | _ => none

/-- Read a value, and return what follows it. The number bounds the depth and the items. -/
def read : ℕ → List Token → Option (Value × List Token)
  | 0, _ => none
  | n + 1, toks =>
    match toks with
    | .null :: toks => some (.null, toks)
    | .int i :: toks => some (.int i, toks)
    | .str s :: toks => some (.str s, toks)
    | .lbrack :: .rbrack :: toks => some (.list [], toks)
    | .lbrack :: toks => (readItems (read n) n toks).map fun r => (.list r.1, r.2)
    | .lbrace :: .rbrace :: toks => some (.dict [], toks)
    | .lbrace :: toks => (readPairs (read n) n toks).map fun r => (.dict r.1, r.2)
    | _ => none

/-- Read a whole text. -/
def load (toks : List Token) : Option Value :=
  match read (toks.length + 1) toks with
  | some (v, []) => some v
  | _ => none

/-! ## What comes back -/

mutual

/-- The value with lists for tuples. -/
def Value.loaded : Value → Value
  | .null => .null
  | .int i => .int i
  | .str s => .str s
  | .bytes bs => .bytes bs
  | .tuple items => .list (loadedItems items)
  | .list items => .list (loadedItems items)
  | .dict items => .dict (loadedPairs items)

/-- The items with lists for tuples. -/
def loadedItems : List Value → List Value
  | [] => []
  | v :: vs => v.loaded :: loadedItems vs

/-- The entries with lists for tuples. -/
def loadedPairs : List (String × Value) → List (String × Value)
  | [] => []
  | (k, v) :: kvs => (k, v.loaded) :: loadedPairs kvs

end

theorem loadedItems_eq_map (items : List Value) : loadedItems items = items.map Value.loaded := by
  induction items with
  | nil => rfl
  | cons v vs ih => rw [loadedItems, ih, List.map_cons]

theorem loadedPairs_eq_map (kvs : List (String × Value)) :
    loadedPairs kvs = kvs.map fun kv => (kv.1, kv.2.loaded) := by
  induction kvs with
  | nil => rfl
  | cons kv kvs ih => rw [loadedPairs, ih, List.map_cons]

mutual

/-- Tuples and lists are written alike. -/
theorem write_loaded : ∀ v : Value, write v.loaded = write v
  | .null | .int _ | .str _ | .bytes _ => by rw [Value.loaded]
  | .tuple items => by rw [Value.loaded, write, write, writeItems_loaded]
  | .list items => by rw [Value.loaded, write, write, writeItems_loaded]
  | .dict kvs => by rw [Value.loaded, write, write, writePairs_loaded]

theorem writeItems_loaded : ∀ (items : List Value) (first : Bool),
    writeItems first (loadedItems items) = writeItems first items
  | [], _ => rfl
  | v :: vs, first => by
    rw [loadedItems, writeItems, writeItems, write_loaded v, writeItems_loaded vs]

theorem writePairs_loaded : ∀ (kvs : List (String × Value)) (first : Bool),
    writePairs first (loadedPairs kvs) = writePairs first kvs
  | [], _ => rfl
  | (k, v) :: kvs, first => by
    rw [loadedPairs, writePairs, writePairs, write_loaded v, writePairs_loaded kvs]

end

/-! ## What can be written -/

theorem writeItems_snd {items : List Value} {first : Bool} :
    (writeItems first items).2 = true ↔ ∀ v ∈ items, (write v).2 = true := by
  induction items generalizing first with
  | nil => simp [writeItems, put]
  | cons v vs ih =>
    rw [writeItems, andThen_snd, andThen_snd, ih, List.forall_mem_cons]
    simp [put]

theorem writePairs_snd {kvs : List (String × Value)} {first : Bool} :
    (writePairs first kvs).2 = true ↔ ∀ kv ∈ kvs, (write kv.2).2 = true := by
  induction kvs generalizing first with
  | nil => simp [writePairs, put]
  | cons kv kvs ih =>
    obtain ⟨k, v⟩ := kv
    rw [writePairs, andThen_snd, andThen_snd, ih, List.forall_mem_cons]
    simp [put]

theorem write_list_snd {items : List Value} :
    (write (.list items)).2 = true ↔ ∀ v ∈ items, (write v).2 = true := by
  rw [write, andThen_snd, andThen_snd, writeItems_snd]
  simp [put]

theorem write_dict_snd {kvs : List (String × Value)} :
    (write (.dict kvs)).2 = true ↔ ∀ kv ∈ kvs, (write kv.2).2 = true := by
  rw [write, andThen_snd, andThen_snd, writePairs_snd]
  simp [put]

/-! ## Round trip -/

theorem put_andThen (toks : List Token) (b : Written) :
    (put toks).andThen b = (toks ++ b.1, b.2) := rfl

/-- The text of a sequence that is written to the end. -/
theorem write_bracketed {opening closing : Token} {b : Written}
    (h : ((put [opening]).andThen (b.andThen (put [closing]))).2 = true) :
    b.2 = true ∧ ((put [opening]).andThen (b.andThen (put [closing]))).1 =
      opening :: (b.1 ++ [closing]) := by
  obtain ⟨hb, -⟩ := andThen_snd.1 (andThen_snd.1 h).2
  refine ⟨hb, ?_⟩
  rw [put_andThen, andThen_fst hb]
  rfl

/-- A value that is written to the end begins with a token that closes nothing. -/
theorem write_eq_cons {v : Value} (h : (write v).2 = true) :
    ∃ t ts, (write v).1 = t :: ts ∧ t ≠ .rbrack := by
  cases v with
  | bytes bs => simp [write] at h
  | null | int _ | str _ => exact ⟨_, _, rfl, by simp⟩
  | tuple items | list items | dict items =>
    rw [write] at h ⊢
    rw [(write_bracketed h).2]
    exact ⟨_, _, rfl, by simp⟩

theorem writeItems_false_cons (v : Value) (vs : List Value) :
    writeItems false (v :: vs) =
      (.comma :: (writeItems true (v :: vs)).1, (writeItems true (v :: vs)).2) := by
  rw [writeItems, writeItems, put_andThen, put_andThen]
  rfl

theorem writePairs_false_cons (kv : String × Value) (kvs : List (String × Value)) :
    writePairs false (kv :: kvs) =
      (.comma :: (writePairs true (kv :: kvs)).1, (writePairs true (kv :: kvs)).2) := by
  obtain ⟨k, v⟩ := kv
  rw [writePairs, writePairs, put_andThen, put_andThen]
  rfl

theorem writeItems_true_cons {v : Value} {vs : List Value}
    (h : (writeItems true (v :: vs)).2 = true) :
    (write v).2 = true ∧ (writeItems false vs).2 = true ∧
      (writeItems true (v :: vs)).1 = (write v).1 ++ (writeItems false vs).1 := by
  rw [writeItems, put_andThen] at h
  obtain ⟨hv, hvs⟩ := andThen_snd.1 h
  refine ⟨hv, hvs, ?_⟩
  rw [writeItems, put_andThen, andThen_fst hv]
  rfl

theorem writePairs_true_cons {k : String} {v : Value} {kvs : List (String × Value)}
    (h : (writePairs true ((k, v) :: kvs)).2 = true) :
    (write v).2 = true ∧ (writePairs false kvs).2 = true ∧
      (writePairs true ((k, v) :: kvs)).1 =
        .str k :: .colon :: ((write v).1 ++ (writePairs false kvs).1) := by
  rw [writePairs, put_andThen] at h
  obtain ⟨hv, hkvs⟩ := andThen_snd.1 h
  refine ⟨hv, hkvs, ?_⟩
  rw [writePairs, put_andThen, andThen_fst hv]
  rfl

/-- Items are read back, whatever follows the closing bracket. -/
def ReadsItems (items : List Value) : Prop :=
  ∀ (m r : ℕ) (rest : List Token), items ≠ [] → (writeItems true items).2 = true →
    (writeItems true items).1.length ≤ m → (writeItems true items).1.length ≤ r →
    readItems (read m) r ((writeItems true items).1 ++ .rbrack :: rest) =
      some (loadedItems items, rest)

/-- Entries are read back, whatever follows the closing brace. -/
def ReadsPairs (kvs : List (String × Value)) : Prop :=
  ∀ (m r : ℕ) (rest : List Token), kvs ≠ [] → (writePairs true kvs).2 = true →
    (writePairs true kvs).1.length ≤ m → (writePairs true kvs).1.length ≤ r →
    readPairs (read m) r ((writePairs true kvs).1 ++ .rbrace :: rest) =
      some (loadedPairs kvs, rest)

/-- A value is read back, whatever follows it. -/
def Reads (v : Value) : Prop :=
  ∀ (n : ℕ) (rest : List Token), (write v).2 = true → (write v).1.length ≤ n →
    read n ((write v).1 ++ rest) = some (v.loaded, rest)

theorem read_sequence {v : Value} {items : List Value}
    (hwrite : write v =
      (put [.lbrack]).andThen ((writeItems true items).andThen (put [.rbrack])))
    (hloaded : v.loaded = .list (loadedItems items)) (hitems : ReadsItems items) : Reads v := by
  intro n rest h hn
  rw [hwrite] at h hn ⊢
  obtain ⟨hall, htext⟩ := write_bracketed h
  rw [htext] at hn ⊢
  rw [hloaded]
  obtain ⟨m, rfl⟩ : ∃ m, n = m + 1 := ⟨n - 1, by rw [List.length_cons] at hn; omega⟩
  cases items with
  | nil => rfl
  | cons v vs =>
    obtain ⟨hv, -, hcons⟩ := writeItems_true_cons hall
    obtain ⟨t, ts, ht, hne⟩ := write_eq_cons hv
    rw [List.length_cons, List.length_append] at hn
    have hread := hitems m m rest (List.cons_ne_nil _ _) hall (by omega) (by omega)
    have hopen : (writeItems true (v :: vs)).1 ++ .rbrack :: rest =
        t :: (ts ++ (writeItems false vs).1 ++ .rbrack :: rest) := by
      rw [hcons, ht]
      simp
    rw [hopen] at hread
    rw [List.cons_append, List.append_assoc, List.singleton_append, hopen, read, hread]
    · rfl
    · intro toks' heq
      exact hne (List.cons.inj heq).1

theorem read_dict {kvs : List (String × Value)} (hkvs : ReadsPairs kvs) :
    Reads (.dict kvs) := by
  intro n rest h hn
  rw [write] at h hn ⊢
  obtain ⟨hall, htext⟩ := write_bracketed h
  rw [htext] at hn ⊢
  obtain ⟨m, rfl⟩ : ∃ m, n = m + 1 := ⟨n - 1, by rw [List.length_cons] at hn; omega⟩
  cases kvs with
  | nil => rfl
  | cons kv kvs =>
    obtain ⟨k, v⟩ := kv
    obtain ⟨-, -, hcons⟩ := writePairs_true_cons hall
    rw [List.length_cons, List.length_append] at hn
    have hread := hkvs m m rest (List.cons_ne_nil _ _) hall (by omega) (by omega)
    rw [hcons] at hread ⊢
    rw [List.cons_append, List.append_assoc, List.singleton_append, List.cons_append, read]
    · rw [← List.cons_append, hread]
      rfl
    · intro toks' heq
      cases (List.cons.inj heq).1

theorem readItems_cons {v : Value} {vs : List Value} (hv : Reads v) (hvs : ReadsItems vs) :
    ReadsItems (v :: vs) := by
  intro m r rest _ h hm hr
  obtain ⟨hwritten, hrest, hcons⟩ := writeItems_true_cons h
  obtain ⟨t, ts, ht, -⟩ := write_eq_cons hwritten
  rw [hcons] at hm hr ⊢
  rw [List.length_append] at hm hr
  have hpos : 0 < (write v).1.length := by rw [ht]; exact Nat.succ_pos _
  obtain ⟨r, rfl⟩ : ∃ r', r = r' + 1 := ⟨r - 1, by omega⟩
  rw [readItems, List.append_assoc, hv m _ hwritten (by omega)]
  cases vs with
  | nil => rfl
  | cons w ws =>
    rw [writeItems_false_cons] at hrest hm hr ⊢
    rw [List.length_cons] at hm hr
    have hread := hvs m r rest (List.cons_ne_nil _ _) hrest (by omega) (by omega)
    simp only [Option.bind_eq_bind, Option.bind_some, List.cons_append, hread]
    rfl

theorem readPairs_cons {k : String} {v : Value} {kvs : List (String × Value)} (hv : Reads v)
    (hkvs : ReadsPairs kvs) : ReadsPairs ((k, v) :: kvs) := by
  intro m r rest _ h hm hr
  obtain ⟨hwritten, hrest, hcons⟩ := writePairs_true_cons h
  rw [hcons] at hm hr ⊢
  simp only [List.length_cons, List.length_append] at hm hr
  obtain ⟨r, rfl⟩ : ∃ r', r = r' + 1 := ⟨r - 1, by omega⟩
  rw [List.cons_append, List.cons_append, readPairs, List.append_assoc,
    hv m _ hwritten (by omega)]
  cases kvs with
  | nil => rfl
  | cons kv kvs =>
    rw [writePairs_false_cons] at hrest hm hr ⊢
    rw [List.length_cons] at hm hr
    have hread := hkvs m r rest (List.cons_ne_nil _ _) hrest (by omega) (by omega)
    simp only [Option.bind_eq_bind, Option.bind_some, List.cons_append, hread]
    rfl

mutual

theorem read_write : ∀ v : Value, Reads v
  | .null | .int _ | .str _ => by
    intro n rest _ hn
    obtain ⟨m, rfl⟩ := Nat.exists_eq_succ_of_ne_zero (Nat.one_le_iff_ne_zero.1 hn)
    rfl
  | .bytes _ => by
    intro n rest h
    simp [write] at h
  | .tuple items => read_sequence (by rw [write]) (by rw [Value.loaded]) (readItems_write items)
  | .list items => read_sequence (by rw [write]) (by rw [Value.loaded]) (readItems_write items)
  | .dict kvs => read_dict (readPairs_write kvs)

theorem readItems_write : ∀ items : List Value, ReadsItems items
  | [] => fun _ _ _ hne => absurd rfl hne
  | v :: vs => readItems_cons (read_write v) (readItems_write vs)

theorem readPairs_write : ∀ kvs : List (String × Value), ReadsPairs kvs
  | [] => fun _ _ _ hne => absurd rfl hne
  | (_, v) :: kvs => readPairs_cons (read_write v) (readPairs_write kvs)

end

/-- **Round trip.** A value that is written to the end is loaded, with lists for tuples. -/
theorem load_write {v : Value} (h : (write v).2 = true) :
    load (write v).1 = some v.loaded := by
  have hread := read_write v ((write v).1.length + 1) [] h (Nat.le_succ _)
  rw [List.append_nil] at hread
  rw [load, hread]

end VirtualRsp.JsonText
