import Mathlib.Data.List.Infix
import VirtualRsp.Foundations.Tiling
import VirtualRsp.Lpa.LoadBpp

/-!
# The pieces of a bound profile package

`loadPieces` is the load of a bound profile package with the pointers into the package that the LPA
computes: every piece that is sent is recorded with its place (`Piece`). Without the record it is
`loadBoundProfilePackage` (`loadPieces_forget`).

* `Parts`: the objects that the load finds in a package, and the pieces that it makes of them.
* `load_segmentation`: the pieces of a well-formed package.
* `load_covers_iff`: the packages whose load, when it is reported as successful, has sent every byte
  once and in order. The load searches for objects by their tags, and it takes the end of an
  object's content and an object that does not fit for the same thing, so that it skips what it does
  not look for.
-/

namespace VirtualRsp.Lpa

open Program Tiling

variable {σ : Type}

/-! ## Objects at their places -/

/-- The bytes that an object takes. -/
def Node.size (node : Node) : ℕ := node.self.length

/-- The objects of a buffer that stands at `ptr`, with their places. -/
def unpackAllAt (ptr : ℕ) (buffer : Bytes) : List (ℕ × Node) :=
  place Node.size ptr (unpackAll buffer)

/-- The first object with a tag, with its place. -/
def findTagAt (tag ptr : ℕ) (buffer : Bytes) : Option (ℕ × Node) :=
  (unpackAllAt ptr buffer).find? fun x => x.2.tag = tag

/-- Where the value of an object stands. -/
def valuePtr (x : ℕ × Node) : ℕ := x.1 + x.2.header.length

/-! ## The load -/

/-- What is passed to a command: a pointer into the package, and the bytes there. -/
structure Piece where
  ptr : ℕ
  bytes : Bytes
  deriving DecidableEq

/-- The partner, and the pieces that were passed to its commands. -/
structure Sent (σ : Type) where
  partner : σ
  pieces : List Piece

/-- A command that is recorded. -/
def recorded (command : Bytes → Program σ Bytes) (ptr : ℕ) (reqbuf : Bytes) :
    Program (Sent σ) Bytes := fun s =>
  (command reqbuf s.partner).map fun r => (⟨r.1, s.pieces ++ [⟨ptr, reqbuf⟩]⟩, r.2)

/-- Send a piece. -/
def sendPiece (command : Bytes → Program σ Bytes) (piece : Piece) :
    Program (LoadState (Sent σ)) Unit :=
  loadTx (recorded command piece.ptr) piece.bytes

/-- An object as a piece, and its header as one. -/
def selfPiece (x : ℕ × Node) : Piece := ⟨x.1, x.2.self⟩

def headerPiece (x : ℕ × Node) : Piece := ⟨x.1, x.2.header⟩

/-- Send an object if there is one. -/
def sendIfFound (command : Bytes → Program σ Bytes) :
    Option (ℕ × Node) → Program (LoadState (Sent σ)) Unit
  | none => pure ()
  | some x => sendPiece command (selfPiece x)

/-- Load a bound profile package given as a base64 text. -/
def loadPieces (command : Bytes → Program σ Bytes) (b64BoundProfilePackage : Bytes) :
    Program (LoadState (Sent σ)) Unit := do
  let bpp ← liftFault (Base64.decodeText b64BoundProfilePackage)
  let boundProfilePackage ← .ofOption (findTagAt 0xBF36 0 bpp)
  let ptr := valuePtr boundProfilePackage
  let opening ← .ofOption (upToTag 0xBF23 boundProfilePackage.2.value)
  sendPiece command ⟨boundProfilePackage.1, boundProfilePackage.2.header ++ opening⟩
  let firstSequenceOf87 ← .ofOption (findTagAt 0xA0 ptr boundProfilePackage.2.value)
  sendPiece command (selfPiece firstSequenceOf87)
  let sequenceOf88 ← .ofOption (findTagAt 0xA1 ptr boundProfilePackage.2.value)
  sendPiece command (headerPiece sequenceOf88)
  .each (fun x => sendPiece command (selfPiece x))
    (unpackAllAt (valuePtr sequenceOf88) sequenceOf88.2.value)
  sendIfFound command (findTagAt 0xA2 ptr boundProfilePackage.2.value)
  let sequenceOf86 ← .ofOption (findTagAt 0xA3 ptr boundProfilePackage.2.value)
  sendPiece command (headerPiece sequenceOf86)
  .each (fun x => sendPiece command (selfPiece x))
    (unpackAllAt (valuePtr sequenceOf86) sequenceOf86.2.value)

/-! ## Without the record -/

/-- The load without the record of the pieces. -/
def forget (s : LoadState (Sent σ)) : LoadState σ := ⟨s.partner.partner, s.result⟩

theorem map_snd_unpackAllAt (ptr : ℕ) (buffer : Bytes) :
    (unpackAllAt ptr buffer).map Prod.snd = unpackAll buffer :=
  map_snd_place _ _

theorem findTag_eq (tag ptr : ℕ) (buffer : Bytes) :
    findTag tag buffer = (findTagAt tag ptr buffer).map Prod.snd := by
  rw [findTag, findTagAt, ← map_snd_unpackAllAt ptr buffer, List.find?_map]
  rfl

theorem sendPiece_projects (command : Bytes → Program σ Bytes) (piece : Piece) :
    Projects forget id (sendPiece command piece) (loadTx command piece.bytes) := by
  intro s
  simp only [sendPiece, loadTx, recorded, forget]
  cases command piece.bytes s.partner.partner with
  | none => rfl
  | some r =>
    obtain ⟨partner, _ | respbuf⟩ := r
    · rfl
    · simp only [Option.map_some]
      split <;> simp

theorem each_projects (command : Bytes → Program σ Bytes) (ptr : ℕ) (buffer : Bytes) :
    Projects forget id (each (fun x => sendPiece command (selfPiece x)) (unpackAllAt ptr buffer))
      (each (fun node => loadTx command node.self) (unpackAll buffer)) := by
  have h := @projects_each _ _ _ _ (@forget σ) Prod.snd
    (fun x => sendPiece command (selfPiece x)) (fun node => loadTx command node.self)
    (fun x => sendPiece_projects command (selfPiece x)) (unpackAllAt ptr buffer)
  rwa [map_snd_unpackAllAt] at h

theorem findTag_projects (tag ptr : ℕ) (buffer : Bytes) :
    Projects (@forget σ) Prod.snd (ofOption (findTagAt tag ptr buffer))
      (ofOption (findTag tag buffer)) := by
  rw [findTag_eq tag ptr]
  exact projects_ofOption _

/-- **Without the record** the load is `loadBoundProfilePackage`. -/
theorem loadPieces_forget (command : Bytes → Program σ Bytes) (text : Bytes) :
    Projects forget id (loadPieces command text) (loadBoundProfilePackage command text) := by
  refine (projects_liftFault _).bind fun bpp => ?_
  refine (findTag_projects _ _ _).bind fun b => ?_
  refine (projects_ofOption_id _).bind fun opening => ?_
  refine (sendPiece_projects _ _).bind fun _ => ?_
  refine (findTag_projects _ _ _).bind fun a0 => ?_
  refine (sendPiece_projects _ _).bind fun _ => ?_
  refine (findTag_projects _ _ _).bind fun a1 => ?_
  refine (sendPiece_projects _ _).bind fun _ => ?_
  refine (each_projects _ _ _).bind fun _ => ?_
  refine Projects.bind (g := id) ?_ fun _ => ?_
  · rw [findTag_eq 0xA2 (valuePtr b)]
    cases findTagAt 0xA2 (valuePtr b) b.2.value with
    | none => exact projects_pure
    | some x => exact sendPiece_projects _ _
  · refine (findTag_projects _ _ _).bind fun a3 => ?_
    refine (sendPiece_projects _ _).bind fun _ => ?_
    exact each_projects _ _ _

/-! ## The parts of a package -/

/-- The objects that the load finds. -/
structure Parts where
  boundProfilePackage : ℕ × Node
  opening : Bytes
  firstSequenceOf87 : ℕ × Node
  sequenceOf88 : ℕ × Node
  secondSequenceOf87 : Option (ℕ × Node)
  sequenceOf86 : ℕ × Node
  deriving DecidableEq

/-- Find them in the bytes of a package. -/
def findParts (bpp : Bytes) : Option Parts := do
  let boundProfilePackage ← findTagAt 0xBF36 0 bpp
  let find := fun tag => findTagAt tag (valuePtr boundProfilePackage) boundProfilePackage.2.value
  let opening ← upToTag 0xBF23 boundProfilePackage.2.value
  let firstSequenceOf87 ← find 0xA0
  let sequenceOf88 ← find 0xA1
  let sequenceOf86 ← find 0xA3
  return ⟨boundProfilePackage, opening, firstSequenceOf87, sequenceOf88, find 0xA2, sequenceOf86⟩

/-- The pieces that the load makes of them. -/
def Parts.pieces (p : Parts) : List Piece :=
  ⟨p.boundProfilePackage.1, p.boundProfilePackage.2.header ++ p.opening⟩ ::
    selfPiece p.firstSequenceOf87 :: headerPiece p.sequenceOf88 ::
    ((unpackAllAt (valuePtr p.sequenceOf88) p.sequenceOf88.2.value).map selfPiece ++
      p.secondSequenceOf87.toList.map selfPiece ++
      headerPiece p.sequenceOf86 ::
        (unpackAllAt (valuePtr p.sequenceOf86) p.sequenceOf86.2.value).map selfPiece)

theorem returns_sendIfFound {command : Bytes → Program σ Bytes} {o : Option (ℕ × Node)}
    {s s' : LoadState (Sent σ)} {u : Unit} : (sendIfFound command o).Returns s u s' ↔
      (each (sendPiece command) (o.toList.map selfPiece)).Returns s () s' := by
  cases o with
  | none => simp [sendIfFound, returns_pure, returns_each_nil]
  | some x =>
    simp only [sendIfFound, Option.toList_some, List.map_cons, List.map_nil, returns_each_cons,
      returns_each_nil]
    exact ⟨fun h => ⟨s', h, rfl⟩, fun ⟨_, h, hs⟩ => hs ▸ h⟩

theorem findParts_eq_some {bpp : Bytes} {p : Parts} : findParts bpp = some p ↔
    findTagAt 0xBF36 0 bpp = some p.boundProfilePackage ∧
      upToTag 0xBF23 p.boundProfilePackage.2.value = some p.opening ∧
      findTagAt 0xA0 (valuePtr p.boundProfilePackage) p.boundProfilePackage.2.value =
        some p.firstSequenceOf87 ∧
      findTagAt 0xA1 (valuePtr p.boundProfilePackage) p.boundProfilePackage.2.value =
        some p.sequenceOf88 ∧
      findTagAt 0xA2 (valuePtr p.boundProfilePackage) p.boundProfilePackage.2.value =
        p.secondSequenceOf87 ∧
      findTagAt 0xA3 (valuePtr p.boundProfilePackage) p.boundProfilePackage.2.value =
        some p.sequenceOf86 := by
  simp only [findParts, Option.bind_eq_bind, Option.bind_eq_some_iff, Option.pure_def,
    Option.some.injEq]
  constructor
  · rintro ⟨b, hb, opening, hopening, a0, ha0, a1, ha1, a3, ha3, rfl⟩
    exact ⟨hb, hopening, ha0, ha1, rfl, ha3⟩
  · rintro ⟨hb, hopening, ha0, ha1, ha2, ha3⟩
    refine ⟨_, hb, _, hopening, _, ha0, _, ha1, _, ha3, ?_⟩
    rw [ha2]

/-- **What a successful load is**: the text has been decoded, the parts have been found, and their
pieces sent one after the other. -/
theorem returns_loadPieces {command : Bytes → Program σ Bytes} {text : Bytes}
    {s s' : LoadState (Sent σ)} : (loadPieces command text).Returns s () s' ↔
      ∃ bpp p, Base64.decodeText text = some (some bpp) ∧ findParts bpp = some p ∧
        (each (sendPiece command) p.pieces).Returns s () s' := by
  simp only [loadPieces, returns_bind, returns_liftFault, returns_ofOption, returns_sendIfFound,
    findParts_eq_some, Parts.pieces, returns_each_cons, returns_each_append, each_map]
  constructor
  · rintro ⟨bpp, _, ⟨hbpp, rfl⟩, b, _, ⟨hb, rfl⟩, opening, _, ⟨hopening, rfl⟩, _, s₁, h₁, a0, _,
      ⟨ha0, rfl⟩, _, s₂, h₂, a1, _, ⟨ha1, rfl⟩, _, s₃, h₃, _, s₄, h₄, _, s₅, h₅, a3, _, ⟨ha3, rfl⟩,
      _, s₆, h₆, h₇⟩
    exact ⟨bpp, ⟨b, opening, a0, a1, _, a3⟩, hbpp, ⟨hb, hopening, ha0, ha1, rfl, ha3⟩,
      s₁, h₁, s₂, h₂, s₃, h₃, s₅, ⟨s₄, h₄, h₅⟩, s₆, h₆, h₇⟩
  · rintro ⟨bpp, ⟨b, opening, a0, a1, a2, a3⟩, hbpp, ⟨hb, hopening, ha0, ha1, ha2, ha3⟩,
      s₁, h₁, s₂, h₂, s₃, h₃, s₅, ⟨s₄, h₄, h₅⟩, s₆, h₆, h₇⟩
    exact ⟨bpp, s, ⟨hbpp, rfl⟩, b, s, ⟨hb, rfl⟩, opening, s, ⟨hopening, rfl⟩, (), s₁, h₁, a0, s₁,
      ⟨ha0, rfl⟩, (), s₂, h₂, a1, s₂, ⟨ha1, rfl⟩, (), s₃, h₃, (), s₄, h₄, (), s₅, ha2.symm ▸ h₅, a3,
      s₅, ⟨ha3, rfl⟩, (), s₆, h₆, h₇⟩

/-! ## What is sent -/

/-- A piece that is sent with success is recorded. -/
theorem sendPiece_pieces {command : Bytes → Program σ Bytes} {piece : Piece}
    {s s' : LoadState (Sent σ)} (h : (sendPiece command piece).Returns s () s') :
    s'.partner.pieces = s.partner.pieces ++ [piece] := by
  rw [Returns, sendPiece, loadTx] at h
  cases hc : command piece.bytes s.partner.partner with
  | none =>
    rw [recorded, hc] at h
    cases h
  | some reply =>
    rw [recorded, hc] at h
    obtain ⟨partner, _ | respbuf⟩ := reply
    · cases h
    · simp only [Option.map_some] at h
      split at h
      · cases h
        rfl
      · simp only [Option.some.injEq, Prod.mk.injEq] at h
        obtain ⟨rfl, -⟩ := h
        rfl

theorem each_pieces {command : Bytes → Program σ Bytes} {pieces : List Piece}
    {s s' : LoadState (Sent σ)} (h : (each (sendPiece command) pieces).Returns s () s') :
    s'.partner.pieces = s.partner.pieces ++ pieces := by
  induction pieces generalizing s with
  | nil => rw [← returns_each_nil.1 h, List.append_nil]
  | cons piece pieces ih =>
    obtain ⟨t, h₁, h₂⟩ := returns_each_cons.1 h
    rw [ih h₂, sendPiece_pieces h₁, List.append_assoc, List.singleton_append]

/-- The partner answers commands, one after the other, with success: with no data, or with a profile
installation result that reports success. -/
def AnswersSuccess (command : Bytes → Program σ Bytes) : List Bytes → σ → Prop
  | [], _ => True
  | reqbuf :: reqbufs, s => ∃ s' respbuf, command reqbuf s = some (s', some respbuf) ∧
      (respbuf = [] ∨ (readInstallationResult respbuf).2 = true) ∧ AnswersSuccess command reqbufs s'

/-- A partner that answers with no data. -/
theorem answersSuccess_silent (reqbufs : List Bytes) :
    AnswersSuccess (fun _ s => some (s, some [])) reqbufs () := by
  induction reqbufs with
  | nil => trivial
  | cons reqbuf reqbufs ih => exact ⟨(), [], rfl, .inl rfl, ih⟩

theorem each_returns {command : Bytes → Program σ Bytes} {pieces : List Piece}
    {s : LoadState (Sent σ)}
    (h : AnswersSuccess command (pieces.map Piece.bytes) s.partner.partner) :
    ∃ s', (each (sendPiece command) pieces).Returns s () s' := by
  induction pieces generalizing s with
  | nil => exact ⟨s, returns_each_nil.2 rfl⟩
  | cons piece pieces ih =>
    obtain ⟨partner, respbuf, hc, hsuccess, h⟩ := h
    have hsend : ∃ t, (sendPiece command piece).Returns s () t ∧ t.partner.partner = partner := by
      simp only [Returns, sendPiece, loadTx, recorded, hc, Option.map_some]
      by_cases hempty : respbuf = []
      · rw [if_pos hempty]
        exact ⟨_, rfl, rfl⟩
      · rw [if_neg hempty, if_pos (hsuccess.resolve_left hempty)]
        exact ⟨_, rfl, rfl⟩
    obtain ⟨t, ht, rfl⟩ := hsend
    obtain ⟨s', h'⟩ := ih h
    exact ⟨s', returns_each_cons.2 ⟨t, ht, h'⟩⟩

/-! ## Where the parts stand -/

theorem length_flatMap_self (nodes : List Node) :
    (nodes.flatMap Node.self).length = total Node.size nodes := by
  induction nodes with
  | nil => rfl
  | cons node nodes ih => rw [List.flatMap_cons, List.length_append, ih, total_cons, Node.size]

theorem size_eq (node : Node) : node.size = node.header.length + node.value.length := by
  rw [Node.size, Node.self, List.length_append]

theorem size_pos {buffer : Bytes} {node : Node} (h : node ∈ unpackAll buffer) :
    0 < node.size := by
  have := length_header_pos h
  rw [size_eq]
  omega

/-- The objects of a buffer do not reach beyond its end. -/
theorem total_unpackAll_le (buffer : Bytes) :
    total Node.size (unpackAll buffer) ≤ buffer.length := by
  obtain ⟨rest, h⟩ := unpackAll_self buffer
  rw [← length_flatMap_self]
  conv_rhs => rw [← h, List.length_append]
  exact Nat.le_add_right _ _

/-- Every byte of a buffer belongs to one of its objects. -/
def Whole (buffer : Bytes) : Prop := (unpackAll buffer).flatMap Node.self = buffer

theorem whole_iff {buffer : Bytes} :
    Whole buffer ↔ total Node.size (unpackAll buffer) = buffer.length := by
  obtain ⟨rest, h⟩ := unpackAll_self buffer
  rw [Whole, ← length_flatMap_self]
  constructor
  · intro hwhole
    rw [hwhole]
  · intro hlen
    have hrest : rest.length = 0 := by
      have := congrArg List.length h
      rw [List.length_append] at this
      omega
    rw [List.length_eq_zero_iff.1 hrest, List.append_nil] at h
    exact h

/-- The object that a search finds. -/
theorem findTagAt_eq_some {tag ptr : ℕ} {buffer : Bytes} {x : ℕ × Node}
    (h : findTagAt tag ptr buffer = some x) :
    ∃ before after, unpackAll buffer = before ++ x.2 :: after ∧ x.2.tag = tag ∧
      (∀ node ∈ before, node.tag ≠ tag) ∧ x.1 = ptr + total Node.size before := by
  obtain ⟨before, after, heq, htag, hbefore, hptr⟩ :=
    @find?_place _ Node.size ptr x.1 x.2 _ (fun node => decide (node.tag = tag)) h
  exact ⟨before, after, heq, of_decide_eq_true htag,
    fun node hnode => of_decide_eq_false (hbefore node hnode), hptr⟩

theorem findTagAt_append {tag ptr : ℕ} {buffer : Bytes} {before after : List Node} {node : Node}
    (h : unpackAll buffer = before ++ node :: after) (htag : node.tag = tag)
    (hbefore : ∀ other ∈ before, other.tag ≠ tag) :
    findTagAt tag ptr buffer = some (ptr + total Node.size before, node) := by
  rw [findTagAt, unpackAllAt, h]
  exact @find?_place_append _ Node.size ptr node before after (fun node => decide (node.tag = tag))
    (decide_eq_true htag) fun other hother => decide_eq_false (hbefore other hother)

theorem findTagAt_eq_none {tag ptr : ℕ} {buffer : Bytes} :
    findTagAt tag ptr buffer = none ↔ ∀ node ∈ unpackAll buffer, node.tag ≠ tag := by
  rw [findTagAt, unpackAllAt]
  refine (@find?_place_eq_none _ Node.size ptr _ (fun node => decide (node.tag = tag))).trans ?_
  simp only [decide_eq_false_iff_not, ne_eq]

theorem upToTag_append {tag : ℕ} {buffer : Bytes} {before after : List Node} {node : Node}
    (h : unpackAll buffer = before ++ node :: after) (htag : node.tag = tag)
    (hbefore : ∀ other ∈ before, other.tag ≠ tag) :
    upToTag tag buffer = some ((before ++ [node]).flatMap Node.self) := by
  have hpass : ∀ other ∈ before, decide (other.tag ≠ tag) = true :=
    fun other hother => decide_eq_true (hbefore other hother)
  have hstop : decide (node.tag ≠ tag) = false := decide_eq_false (not_not_intro htag)
  rw [upToTag, h, List.dropWhile_append_of_pos hpass, List.takeWhile_append_of_pos hpass,
    List.dropWhile_cons_of_neg (by rw [hstop]; exact Bool.false_ne_true),
    List.takeWhile_cons_of_neg (by rw [hstop]; exact Bool.false_ne_true), List.append_nil,
    List.flatMap_append, List.flatMap_singleton]

theorem upToTag_eq_some {tag : ℕ} {buffer opening : Bytes} (h : upToTag tag buffer = some opening) :
    ∃ before node after, unpackAll buffer = before ++ node :: after ∧ node.tag = tag ∧
      (∀ other ∈ before, other.tag ≠ tag) ∧
      opening = (before ++ [node]).flatMap Node.self := by
  have hfound : (findTagAt tag 0 buffer).isSome := by
    rw [Option.isSome_iff_ne_none]
    intro hnone
    have hpass := findTagAt_eq_none.1 hnone
    have hdrop : (unpackAll buffer).dropWhile (fun node => decide (node.tag ≠ tag)) = [] :=
      List.dropWhile_eq_nil_iff.2 fun node hnode => decide_eq_true (hpass node hnode)
    rw [upToTag, hdrop] at h
    cases h
  obtain ⟨x, hx⟩ := Option.isSome_iff_exists.1 hfound
  obtain ⟨before, after, heq, htag, hbefore, -⟩ := findTagAt_eq_some hx
  rw [upToTag_append heq htag hbefore, Option.some.injEq] at h
  exact ⟨before, x.2, after, heq, htag, hbefore, h.symm⟩

/-! ## The bytes at their places -/

/-- The bytes of a value are in a buffer where they are said to stand. -/
theorem stands_add {bpp buffer bytes : Bytes} {ptr n : ℕ} (hbuffer : buffer <+: bpp.drop ptr)
    (hbytes : bytes <+: buffer.drop n) : bytes <+: bpp.drop (ptr + n) := by
  rw [← List.drop_drop]
  exact hbytes.trans (hbuffer.drop n)

theorem self_stands {bpp buffer : Bytes} {ptr : ℕ} {x : ℕ × Node}
    (hbuffer : buffer <+: bpp.drop ptr) (hx : x ∈ unpackAllAt ptr buffer) :
    x.2.self <+: bpp.drop x.1 := by
  obtain ⟨before, after, heq, hptr⟩ := mem_place hx
  obtain ⟨rest, hrest⟩ := unpackAll_self buffer
  rw [hptr]
  refine stands_add hbuffer ?_
  rw [heq, List.flatMap_append, List.flatMap_cons, List.append_assoc, List.append_assoc] at hrest
  rw [← length_flatMap_self, ← hrest, List.drop_left]
  exact List.prefix_append _ _

theorem value_stands {bpp : Bytes} {x : ℕ × Node} (h : x.2.self <+: bpp.drop x.1) :
    x.2.value <+: bpp.drop (valuePtr x) := by
  refine stands_add h ?_
  rw [Node.self, List.drop_left]

/-- **Pieces are parts of the package**: the bytes of a piece are those at its pointer. -/
theorem pieces_stand {bpp : Bytes} {p : Parts} (hp : findParts bpp = some p) :
    ∀ piece ∈ p.pieces, piece.bytes <+: bpp.drop piece.ptr := by
  obtain ⟨hb, hopening, ha0, ha1, ha2, ha3⟩ := findParts_eq_some.1 hp
  have hfound : ∀ {tag ptr : ℕ} {buffer : Bytes} {x : ℕ × Node}, buffer <+: bpp.drop ptr →
      findTagAt tag ptr buffer = some x → x.2.self <+: bpp.drop x.1 :=
    fun hbuffer hx => self_stands hbuffer (List.mem_of_find?_eq_some hx)
  have hheader : ∀ {x : ℕ × Node}, x.2.self <+: bpp.drop x.1 → x.2.header <+: bpp.drop x.1 :=
    fun hself => (List.prefix_append _ _).trans hself
  have hchildren : ∀ {x : ℕ × Node}, x.2.self <+: bpp.drop x.1 →
      ∀ piece ∈ (unpackAllAt (valuePtr x) x.2.value).map selfPiece,
        piece.bytes <+: bpp.drop piece.ptr :=
    fun hself => List.forall_mem_map.2 fun _ hchild => self_stands (value_stands hself) hchild
  have hself := hfound (List.prefix_refl bpp) hb
  have hvalue := value_stands hself
  have h1 := hfound hvalue ha1
  have h3 := hfound hvalue ha3
  refine List.forall_mem_cons.2 ⟨?_, List.forall_mem_cons.2 ⟨hfound hvalue ha0,
    List.forall_mem_cons.2 ⟨hheader h1, List.forall_mem_append.2 ⟨List.forall_mem_append.2
      ⟨hchildren h1, ?_⟩, List.forall_mem_cons.2 ⟨hheader h3, hchildren h3⟩⟩⟩⟩⟩
  · obtain ⟨before, node, after, heq, -, -, hopening⟩ := upToTag_eq_some hopening
    obtain ⟨rest, hrest⟩ := unpackAll_self p.boundProfilePackage.2.value
    refine List.IsPrefix.trans ?_ hself
    have hchildren : before ++ node :: after = (before ++ [node]) ++ after := by
      rw [List.append_assoc, List.singleton_append]
    rw [hopening, Node.self, List.prefix_append_right_inj, ← hrest, heq, hchildren,
      @List.flatMap_append _ _ (before ++ [node]), List.append_assoc]
    exact List.prefix_append _ _
  · refine List.forall_mem_map.2 fun x hx => ?_
    apply hfound hvalue
    exact ha2.trans (Option.mem_toList.1 hx)

/-! ## Packages that are sent completely -/

/-- The interval of a piece. -/
def Piece.interval (piece : Piece) : ℕ × ℕ := (piece.ptr, piece.bytes.length)

/-- The bytes of an object are in exactly one of the pieces, in the order of the object. -/
def Covers (x : ℕ × Node) (pieces : List Piece) : Prop :=
  Tiles x.1 (x.1 + x.2.size) (pieces.map Piece.interval)

/-- The tags that the load looks for in a package. -/
def partTags : List ℕ := [0xBF23, 0xA0, 0xA1, 0xA2, 0xA3]

theorem not_mem_partTags {tag : ℕ} : tag ∉ partTags ↔
    tag ≠ 0xBF23 ∧ tag ≠ 0xA0 ∧ tag ≠ 0xA1 ∧ tag ≠ 0xA2 ∧ tag ≠ 0xA3 := by
  simp only [partTags, List.mem_cons, List.not_mem_nil, or_false, not_or, ne_eq]

/-- The tags of the children of a package: each tag that is looked for comes once and in its place,
no other child comes among them or behind them, and the second sequence of `87` may be missing. -/
def InOrder (tags : List ℕ) : Prop :=
  ∃ others, (∀ tag ∈ others, tag ∉ partTags) ∧
    (tags = others ++ partTags ∨ tags = others ++ [0xBF23, 0xA0, 0xA1, 0xA3])

/-- The children are in order, and the package, the sequence of `88` and the sequence of `86`
consist of objects to their ends. -/
structure Parts.Complete (p : Parts) : Prop where
  inOrder : InOrder ((unpackAll p.boundProfilePackage.2.value).map Node.tag)
  whole : Whole p.boundProfilePackage.2.value
  wholeSequenceOf88 : Whole p.sequenceOf88.2.value
  wholeSequenceOf86 : Whole p.sequenceOf86.2.value

theorem map_selfPiece_interval (ptr : ℕ) (buffer : Bytes) :
    ((unpackAllAt ptr buffer).map selfPiece).map Piece.interval =
      (place Node.size ptr (unpackAll buffer)).map fun x => (x.1, x.2.size) := by
  rw [List.map_map]
  rfl

theorem covers_pieces_iff (p : Parts) : Covers p.boundProfilePackage p.pieces ↔
    p.firstSequenceOf87.1 = valuePtr p.boundProfilePackage + p.opening.length ∧
      p.sequenceOf88.1 = p.firstSequenceOf87.1 + p.firstSequenceOf87.2.size ∧
      Tiles (valuePtr p.sequenceOf88 + total Node.size (unpackAll p.sequenceOf88.2.value))
        p.sequenceOf86.1 (p.secondSequenceOf87.toList.map fun x => (x.1, x.2.size)) ∧
      valuePtr p.sequenceOf86 + total Node.size (unpackAll p.sequenceOf86.2.value) =
        p.boundProfilePackage.1 + p.boundProfilePackage.2.size := by
  have hopening : (p.boundProfilePackage.2.header ++ p.opening).length =
      p.boundProfilePackage.2.header.length + p.opening.length := List.length_append
  rw [Covers, Parts.pieces]
  simp only [List.map_cons, List.map_append, map_selfPiece_interval, Tiles, Piece.interval,
    selfPiece, headerPiece, hopening, true_and, ← Nat.add_assoc]
  refine and_congr_right fun _ => and_congr_right fun _ => ?_
  rw [List.append_assoc]
  refine (tiles_place_append _ _ _ _).trans (tiles_append_cons.trans (and_congr ?_ ?_))
  · rw [List.map_map]
    rfl
  · exact tiles_place _ _ _

/-- The next piece begins where the objects of a sequence end: the sequence consists of objects to
its end, and the next piece is the next child. -/
theorem whole_of_next {ptr : ℕ} {buffer : Bytes} {before after before' after' : List Node}
    {x : ℕ × Node} (heq : unpackAll buffer = before ++ x.2 :: after)
    (heq' : unpackAll buffer = before' ++ after') (hx : x.1 = ptr + total Node.size before)
    (hnext : valuePtr x + total Node.size (unpackAll x.2.value) =
      ptr + total Node.size before') :
    before' = before ++ [x.2] ∧ Whole x.2.value := by
  have hheader : 0 < x.2.header.length := by
    apply @length_header_pos buffer
    rw [heq]
    exact List.mem_append_right _ List.mem_cons_self
  have hvalue := total_unpackAll_le x.2.value
  have hsize := size_eq x.2
  rw [valuePtr] at hnext
  have hbefore' : before' = before ++ [x.2] := by
    refine @prefix_next _ Node.size before before' after after' x.2 ?_ (heq ▸ heq') (by omega)
      (by omega)
    rw [← heq]
    exact fun node hnode => size_pos hnode
  refine ⟨hbefore', whole_iff.2 ?_⟩
  rw [hbefore', total_append, total_cons, total_nil] at hnext
  omega

/-- The objects of a sequence end where the buffer ends: the sequence is the last child, and both
consist of objects to their ends. -/
theorem whole_of_last {ptr : ℕ} {buffer : Bytes} {before after : List Node} {x : ℕ × Node}
    (heq : unpackAll buffer = before ++ x.2 :: after) (hx : x.1 = ptr + total Node.size before)
    (hlast : valuePtr x + total Node.size (unpackAll x.2.value) = ptr + buffer.length) :
    after = [] ∧ Whole buffer ∧ Whole x.2.value := by
  have hall := total_unpackAll_le buffer
  have hvalue := total_unpackAll_le x.2.value
  have hsize := size_eq x.2
  have hpos : ∀ node ∈ after, 0 < node.size := by
    intro node hnode
    apply @size_pos buffer
    rw [heq]
    exact List.mem_append_right _ (List.mem_cons_of_mem _ hnode)
  rw [heq, total_append, total_cons] at hall
  rw [valuePtr] at hlast
  refine ⟨?_, whole_iff.2 ?_, whole_iff.2 (by omega)⟩
  · cases after with
    | nil => rfl
    | cons node nodes =>
      have := hpos node List.mem_cons_self
      rw [total_cons] at hall
      omega
  · rw [heq, total_append, total_cons]
    omega

/-- A child that begins where another one ends is the next one. -/
theorem next_of_total {buffer : Bytes} {x : Node} {before after before' after' : List Node}
    (heq : unpackAll buffer = before ++ x :: after) (heq' : unpackAll buffer = before' ++ after')
    (htotal : total Node.size before' = total Node.size before + x.size) :
    before' = before ++ [x] := by
  apply @prefix_unique _ Node.size before' (before ++ [x]) after' after
  · rw [← heq']
    exact fun node hnode => size_pos hnode
  · rw [← heq', heq, List.append_assoc, List.singleton_append]
  · rw [htotal, total_append, total_cons, total_nil, Nat.add_zero]

/-- A load that sends every byte has found the children in order. -/
theorem complete_of_covers {bpp : Bytes} {p : Parts} (hp : findParts bpp = some p)
    (h : Covers p.boundProfilePackage p.pieces) : p.Complete := by
  obtain ⟨-, hopening, ha0, ha1, ha2, ha3⟩ := findParts_eq_some.1 hp
  obtain ⟨h₀, h₁, h₂, h₃⟩ := (covers_pieces_iff p).1 h
  have hend : p.boundProfilePackage.1 + p.boundProfilePackage.2.size =
      valuePtr p.boundProfilePackage + p.boundProfilePackage.2.value.length := by
    rw [size_eq, valuePtr, Nat.add_assoc]
  rw [hend] at h₃
  obtain ⟨others, n23, after23, heq23, htag23, hothers23, hopening⟩ := upToTag_eq_some hopening
  obtain ⟨before0, after0, heq0, htag0, hothers0, hptr0⟩ := findTagAt_eq_some ha0
  obtain ⟨before1, after1, heq1, htag1, hothers1, hptr1⟩ := findTagAt_eq_some ha1
  obtain ⟨before3, after3, heq3, htag3, hothers3, hptr3⟩ := findTagAt_eq_some ha3
  obtain ⟨rfl, hwhole, hwhole86⟩ := whole_of_last heq3 hptr3 h₃
  rw [hopening, length_flatMap_self, total_append, total_cons, total_nil] at h₀
  obtain rfl := next_of_total heq23 heq0 (by omega)
  obtain rfl := next_of_total heq0 heq1 (by omega)
  cases hsecond : p.secondSequenceOf87 with
  | none =>
    rw [hsecond, Option.toList_none, List.map_nil, Tiles, hptr3] at h₂
    obtain ⟨rfl, hwhole88⟩ := whole_of_next heq1 heq3 hptr1 h₂
    refine ⟨⟨others.map Node.tag, ?_, Or.inr ?_⟩, hwhole, hwhole88, hwhole86⟩
    · refine List.forall_mem_map.2 fun node hnode => not_mem_partTags.2 ⟨hothers23 node hnode,
        hothers0 node ?_, hothers1 node ?_, ?_, hothers3 node ?_⟩
      · simp [hnode]
      · simp [hnode]
      · apply findTagAt_eq_none.1 (hsecond ▸ ha2)
        rw [heq23]
        exact List.mem_append_left _ hnode
      · simp [hnode]
    · rw [heq3]
      simp [htag23, htag0, htag1, htag3]
  | some a2 =>
    rw [hsecond] at ha2 h₂
    obtain ⟨before2, after2, heq2, htag2, hothers2, hptr2⟩ := findTagAt_eq_some ha2
    simp only [Option.toList_some, List.map_cons, List.map_nil, Tiles] at h₂
    obtain ⟨hstart, hstop⟩ := h₂
    obtain ⟨rfl, hwhole88⟩ := whole_of_next heq1 heq2 hptr1 (hstart ▸ hptr2)
    obtain rfl := next_of_total heq2 heq3 (by omega)
    refine ⟨⟨others.map Node.tag, ?_, Or.inl ?_⟩, hwhole, hwhole88, hwhole86⟩
    · refine List.forall_mem_map.2 fun node hnode => not_mem_partTags.2 ⟨hothers23 node hnode,
        hothers0 node ?_, hothers1 node ?_, hothers2 node ?_, hothers3 node ?_⟩
      all_goals simp [hnode]
    · rw [heq3]
      simp [htag23, htag0, htag1, htag2, htag3, partTags]

/-- Where the load finds the parts of a package whose children are in order. -/
theorem findParts_of_order {bpp : Bytes} {b : ℕ × Node} (hb : findTagAt 0xBF36 0 bpp = some b)
    {others : List Node} {n23 a0 a1 a3 : Node} {second : Option Node}
    (heq : unpackAll b.2.value = others ++ n23 :: a0 :: a1 :: (second.toList ++ [a3]))
    (hothers : ∀ node ∈ others, node.tag ∉ partTags) (h23 : n23.tag = 0xBF23)
    (h0 : a0.tag = 0xA0) (h1 : a1.tag = 0xA1) (h2 : ∀ a2 ∈ second, a2.tag = 0xA2)
    (h3 : a3.tag = 0xA3) :
    findParts bpp = some
      { boundProfilePackage := b
        opening := (others ++ [n23]).flatMap Node.self
        firstSequenceOf87 := (valuePtr b + total Node.size (others ++ [n23]), a0)
        sequenceOf88 := (valuePtr b + total Node.size (others ++ [n23, a0]), a1)
        secondSequenceOf87 :=
          second.map fun a2 => (valuePtr b + total Node.size (others ++ [n23, a0, a1]), a2)
        sequenceOf86 :=
          (valuePtr b + total Node.size (others ++ n23 :: a0 :: a1 :: second.toList), a3) } := by
  have hother : ∀ {tag : ℕ}, tag ∈ partTags → ∀ node ∈ others, node.tag ≠ tag :=
    fun htag node hnode heq => hothers node hnode (heq ▸ htag)
  have hfind : ∀ {tag : ℕ} {between after : List Node} {node : Node}, tag ∈ partTags →
      unpackAll b.2.value = others ++ between ++ node :: after → node.tag = tag →
      (∀ x ∈ between, x.tag ≠ tag) → findTagAt tag (valuePtr b) b.2.value =
        some (valuePtr b + total Node.size (others ++ between), node) := by
    intro tag between after node htag heq hnode hbetween
    exact findTagAt_append heq hnode (List.forall_mem_append.2 ⟨hother htag, hbetween⟩)
  rw [findParts_eq_some]
  refine ⟨hb, upToTag_append heq h23 (hother (by decide)), ?_, ?_, ?_, ?_⟩
  · apply hfind (by decide) _ h0
    · simp [h23]
    · exact a1 :: (second.toList ++ [a3])
    · rw [heq, List.append_assoc, List.singleton_append]
  · apply hfind (by decide) _ h1
    · simp [h23, h0]
    · exact second.toList ++ [a3]
    · rw [heq, List.append_assoc]
      rfl
  · cases second with
    | none =>
      rw [Option.map_none, findTagAt_eq_none, heq]
      refine List.forall_mem_append.2 ⟨hother (by decide), ?_⟩
      simp [h23, h0, h1, h3]
    | some a2 =>
      apply hfind (by decide) _ (h2 a2 rfl)
      · simp [h23, h0, h1]
      · exact [a3]
      · rw [heq, List.append_assoc]
        rfl
  · apply hfind (by decide) _ h3
    · have hsecond : ∀ a2 ∈ second.toList, a2.tag ≠ 0xA3 := by
        intro a2 ha2
        rw [h2 a2 (Option.mem_toList.1 ha2)]
        decide
      simp only [List.forall_mem_cons, h23, h0, h1]
      exact ⟨by decide, by decide, by decide, hsecond⟩
    · exact []
    · rw [heq, List.append_assoc]
      rfl

/-- Children in order, one by one. -/
theorem InOrder.nodes {nodes : List Node} (h : InOrder (nodes.map Node.tag)) :
    ∃ others n23 a0 a1 second a3,
      nodes = others ++ n23 :: a0 :: a1 :: (Option.toList second ++ [a3]) ∧
        (∀ node ∈ others, node.tag ∉ partTags) ∧ n23.tag = 0xBF23 ∧ a0.tag = 0xA0 ∧
        a1.tag = 0xA1 ∧ (∀ a2 ∈ second, a2.tag = 0xA2) ∧ a3.tag = 0xA3 := by
  obtain ⟨tags, htags, h | h⟩ := h
  all_goals
    obtain ⟨others, parts, rfl, rfl, hparts⟩ := List.map_eq_append_iff.1 h
    simp only [partTags, List.map_eq_cons_iff, List.map_eq_nil_iff] at hparts
  · obtain ⟨n23, _, rfl, h23, a0, _, rfl, h0, a1, _, rfl, h1, a2, _, rfl, h2, a3, _, rfl, h3,
      rfl⟩ := hparts
    exact ⟨others, n23, a0, a1, some a2, a3, rfl, fun _ h => htags _ (List.mem_map_of_mem h), h23,
      h0, h1, fun _ h => Option.some.inj h ▸ h2, h3⟩
  · obtain ⟨n23, _, rfl, h23, a0, _, rfl, h0, a1, _, rfl, h1, a3, _, rfl, h3, rfl⟩ := hparts
    exact ⟨others, n23, a0, a1, none, a3, rfl, fun _ h => htags _ (List.mem_map_of_mem h), h23, h0,
      h1, fun _ h => absurd h (Option.not_mem_none _), h3⟩

/-- A load of children in order sends every byte. -/
theorem covers_of_complete {bpp : Bytes} {p : Parts} (hp : findParts bpp = some p)
    (h : p.Complete) : Covers p.boundProfilePackage p.pieces := by
  have hb := (findParts_eq_some.1 hp).1
  obtain ⟨hinOrder, hwhole, hwhole88, hwhole86⟩ := h
  obtain ⟨others, n23, a0, a1, second, a3, heq, hothers, h23, h0, h1, h2, h3⟩ := hinOrder.nodes
  have hend : p.boundProfilePackage.1 + p.boundProfilePackage.2.size =
      valuePtr p.boundProfilePackage + p.boundProfilePackage.2.value.length := by
    rw [size_eq, valuePtr, Nat.add_assoc]
  rw [covers_pieces_iff, hend, whole_iff.1 hwhole88, whole_iff.1 hwhole86, ← whole_iff.1 hwhole,
    heq]
  rw [findParts_of_order hb heq hothers h23 h0 h1 h2 h3, Option.some.injEq] at hp
  generalize p.boundProfilePackage = b at *
  subst hp
  simp only [length_flatMap_self, total_append, total_cons, total_nil, size_eq, valuePtr]
  refine ⟨trivial, by omega, ?_, by omega⟩
  cases second with
  | none =>
    simp only [Option.map_none, Option.toList_none, List.map_nil, Tiles, total_nil]
    omega
  | some a2 =>
    simp only [Option.map_some, Option.toList_some, List.map_cons, List.map_nil, Tiles, total_cons,
      total_nil, size_eq]
    omega

/-- A load whose commands are all answered with success has passed exactly the pieces. -/
theorem load_returns {command : Bytes → Program σ Bytes} {text bpp : Bytes} {p : Parts}
    (htext : Base64.decodeText text = some (some bpp)) (hp : findParts bpp = some p)
    {s : LoadState (Sent σ)}
    (h : AnswersSuccess command (p.pieces.map Piece.bytes) s.partner.partner) :
    ∃ s', (loadPieces command text).Returns s () s' ∧
      s'.partner.pieces = s.partner.pieces ++ p.pieces := by
  obtain ⟨s', h'⟩ := each_returns h
  exact ⟨s', returns_loadPieces.2 ⟨bpp, p, htext, hp, h'⟩, each_pieces h'⟩

/-- **When a load that is reported as successful has sent the package**: in every run every byte was
in exactly one piece, in the order of the package, just when the parts are complete. -/
theorem load_covers_iff (text : Bytes) :
    (∀ {σ : Type} (command : Bytes → Program σ Bytes) (s s' : LoadState (Sent σ)),
      s.partner.pieces = [] → (loadPieces command text).Returns s () s' →
      ∃ bpp x, Base64.decodeText text = some (some bpp) ∧ findTagAt 0xBF36 0 bpp = some x ∧
        Covers x s'.partner.pieces ∧
        ∀ piece ∈ s'.partner.pieces, piece.bytes <+: bpp.drop piece.ptr) ↔
    ∀ bpp p, Base64.decodeText text = some (some bpp) → findParts bpp = some p → p.Complete := by
  constructor
  · intro h bpp p htext hp
    obtain ⟨s', hreturns, hpieces⟩ := load_returns htext hp (s := ⟨⟨(), []⟩, .init⟩)
      (answersSuccess_silent _)
    obtain ⟨bpp', x, htext', hx, hcovers, -⟩ := h _ ⟨⟨(), []⟩, .init⟩ s' rfl hreturns
    rw [htext, Option.some.injEq, Option.some.injEq] at htext'
    subst htext'
    rw [(findParts_eq_some.1 hp).1, Option.some.injEq] at hx
    rw [hpieces, List.nil_append, ← hx] at hcovers
    exact complete_of_covers hp hcovers
  · intro h σ command s s' hs hreturns
    obtain ⟨bpp, p, htext, hp, heach⟩ := returns_loadPieces.1 hreturns
    have hpieces := each_pieces heach
    rw [hs, List.nil_append] at hpieces
    rw [hpieces]
    exact ⟨bpp, _, htext, (findParts_eq_some.1 hp).1, covers_of_complete hp (h bpp p htext hp),
      pieces_stand hp⟩

/-- A package whose sequence of `88` ends with a segment that says to be longer than what is there.
-/
def truncatedPackage : Bytes :=
  [0xBF, 0x36, 0x0E, 0xBF, 0x23, 0x00, 0xA0, 0x00, 0xA1, 0x05, 0x88, 0x01, 0xAA, 0x88, 0x05, 0xA3,
    0x00]

/-- Its load is reported as successful, and the last segment is not sent. -/
theorem truncated_segment_left_out :
    ¬ ∀ (text : Bytes) {σ : Type} (command : Bytes → Program σ Bytes)
      (s s' : LoadState (Sent σ)), s.partner.pieces = [] →
      (loadPieces command text).Returns s () s' →
      ∃ bpp x, Base64.decodeText text = some (some bpp) ∧ findTagAt 0xBF36 0 bpp = some x ∧
        Covers x s'.partner.pieces ∧
        ∀ piece ∈ s'.partner.pieces, piece.bytes <+: bpp.drop piece.ptr := by
  intro h
  have htext := @Base64.decodeText_encode truncatedPackage (by decide)
  have hp : findParts truncatedPackage = some
      { boundProfilePackage := (0, ⟨0xBF36, [0xBF, 0x36, 0x0E], truncatedPackage.drop 3⟩)
        opening := [0xBF, 0x23, 0x00]
        firstSequenceOf87 := (6, ⟨0xA0, [0xA0, 0x00], []⟩)
        sequenceOf88 := (8, ⟨0xA1, [0xA1, 0x05], [0x88, 0x01, 0xAA, 0x88, 0x05]⟩)
        secondSequenceOf87 := none
        sequenceOf86 := (15, ⟨0xA3, [0xA3, 0x00], []⟩) } := by
    decide +kernel
  obtain ⟨s', hreturns, hpieces⟩ := load_returns htext hp (s := ⟨⟨(), []⟩, .init⟩)
    (answersSuccess_silent _)
  obtain ⟨bpp, x, htext', hx, hcovers, -⟩ := h _ _ ⟨⟨(), []⟩, .init⟩ s' rfl hreturns
  rw [htext, Option.some.injEq, Option.some.injEq] at htext'
  subst htext'
  rw [(findParts_eq_some.1 hp).1, Option.some.injEq] at hx
  rw [hpieces, List.nil_append, ← hx] at hcovers
  have hwhole : Whole [0x88, 0x01, 0xAA, 0x88, 0x05] :=
    (complete_of_covers hp hcovers).wholeSequenceOf88
  rw [whole_iff] at hwhole
  revert hwhole
  decide +kernel

/-! ## Well-formed packages -/

/-- The contents of a package: of its children, and of the segments of the two sequences of
segments. -/
structure PackageContents where
  initialiseSecureChannelRequest : Bytes
  firstSequenceOf87 : Bytes
  sequenceOf88 : List Bytes
  secondSequenceOf87 : Option Bytes
  sequenceOf86 : List Bytes

namespace PackageContents

variable (p : PackageContents)

/-- The header that a content is encoded with. -/
def header (tag : ℕ) (value : Bytes) : Bytes := Der.tagBytes tag ++ Der.lenBytes value.length

/-- The children of the package. -/
def children : List (ℕ × Bytes) :=
  (0xBF23, p.initialiseSecureChannelRequest) :: (0xA0, p.firstSequenceOf87) ::
    (0xA1, Der.tlvs (segments 0x88 p.sequenceOf88)) ::
    ((p.secondSequenceOf87.map fun value => (0xA2, value)).toList ++
      [(0xA3, Der.tlvs (segments 0x86 p.sequenceOf86))])

/-- The package. -/
def encode : Bytes := Der.tlv 0xBF36 (Der.tlvs p.children)

/-- What the card should get. -/
def payloads : List Bytes :=
  (header 0xBF36 (Der.tlvs p.children) ++ Der.tlv 0xBF23 p.initialiseSecureChannelRequest) ::
    Der.tlv 0xA0 p.firstSequenceOf87 ::
    header 0xA1 (Der.tlvs (segments 0x88 p.sequenceOf88)) ::
    (p.sequenceOf88.map (Der.tlv 0x88) ++ (p.secondSequenceOf87.map (Der.tlv 0xA2)).toList ++
      header 0xA3 (Der.tlvs (segments 0x86 p.sequenceOf86)) :: p.sequenceOf86.map (Der.tlv 0x86))

theorem flatten_segments (tag : ℕ) (values : List Bytes) :
    (values.map (Der.tlv tag)).flatten = Der.tlvs (segments tag values) := by
  induction values with
  | nil => rfl
  | cons value values ih =>
    rw [List.map_cons, List.flatten_cons, ih, segments, segments, List.map_cons, Der.tlvs_cons]

/-- The payloads are the package. -/
theorem flatten_payloads : p.payloads.flatten = p.encode := by
  cases h : p.secondSequenceOf87 with
  | none => simp [payloads, encode, children, header, h, flatten_segments, Der.tlv, Der.tlvs_cons]
  | some value =>
    simp [payloads, encode, children, header, h, flatten_segments, Der.tlv, Der.tlvs_cons]

theorem isTag_children : ∀ t ∈ p.children.map Prod.fst, Der.IsTag t := by
  cases h : p.secondSequenceOf87 <;> simp [children, h, Der.IsTag]

theorem length_tlvs_children_lt (hlen : p.encode.length < 2 ^ 32) :
    (Der.tlvs p.children).length < 2 ^ 32 := by
  rw [encode, Der.length_tlv] at hlen
  omega

theorem length_child_lt (hlen : p.encode.length < 2 ^ 32) {x : ℕ × Bytes} (hx : x ∈ p.children) :
    x.2.length < 2 ^ 32 :=
  lt_of_le_of_lt (Der.length_le_tlvs hx) (p.length_tlvs_children_lt hlen)

theorem unpackAll_sequenceOf88 (hlen : p.encode.length < 2 ^ 32) :
    unpackAll (Der.tlvs (segments 0x88 p.sequenceOf88)) = p.sequenceOf88.map (Node.of 0x88) := by
  apply unpackAll_segments (by decide)
  exact p.length_child_lt hlen (x := (0xA1, Der.tlvs (segments 0x88 p.sequenceOf88)))
    (by simp [children])

theorem unpackAll_sequenceOf86 (hlen : p.encode.length < 2 ^ 32) :
    unpackAll (Der.tlvs (segments 0x86 p.sequenceOf86)) = p.sequenceOf86.map (Node.of 0x86) := by
  apply unpackAll_segments (by decide)
  exact p.length_child_lt hlen (x := (0xA3, Der.tlvs (segments 0x86 p.sequenceOf86)))
    (by simp [children])

theorem findTagAt_encode (hlen : p.encode.length < 2 ^ 32) :
    findTagAt 0xBF36 0 p.encode = some (0, .of 0xBF36 (Der.tlvs p.children)) := by
  have htag : ∀ t ∈ [(0xBF36, Der.tlvs p.children)].map Prod.fst, Der.IsTag t := by
    simp [Der.IsTag]
  have hone : Der.tlvs [(0xBF36, Der.tlvs p.children)] = p.encode := by
    simp [Der.tlvs_cons, encode]
  have heq := unpackAll_tlvs htag (by rwa [hone])
  rw [hone] at heq
  exact @findTagAt_append _ _ _ [] _ _ heq rfl fun _ h => absurd h List.not_mem_nil

/-- The load finds the parts, and makes the payloads of them. -/
theorem findParts_encode (hlen : p.encode.length < 2 ^ 32) :
    ∃ parts, findParts p.encode = some parts ∧ parts.pieces.map Piece.bytes = p.payloads := by
  have heq : unpackAll (Der.tlvs p.children) =
      [] ++ .of 0xBF23 p.initialiseSecureChannelRequest :: .of 0xA0 p.firstSequenceOf87 ::
        .of 0xA1 (Der.tlvs (segments 0x88 p.sequenceOf88)) ::
          ((p.secondSequenceOf87.map (Node.of 0xA2)).toList ++
            [.of 0xA3 (Der.tlvs (segments 0x86 p.sequenceOf86))]) := by
    rw [unpackAll_tlvs p.isTag_children (p.length_tlvs_children_lt hlen)]
    cases h : p.secondSequenceOf87 <;> simp [children, h]
  refine ⟨_, findParts_of_order (p.findTagAt_encode hlen) heq
    (fun _ h => absurd h List.not_mem_nil) rfl rfl rfl ?_ rfl, ?_⟩
  · intro a2 ha2
    obtain ⟨value, -, rfl⟩ := Option.map_eq_some_iff.1 ha2
    rfl
  · have hself : ∀ ptr buffer, ((unpackAllAt ptr buffer).map selfPiece).map Piece.bytes =
        (unpackAll buffer).map Node.self := by
      intro ptr buffer
      rw [← map_snd_unpackAllAt ptr buffer, List.map_map, List.map_map]
      rfl
    simp only [Parts.pieces, List.map_cons, List.map_append, hself, Node.of_value,
      p.unpackAll_sequenceOf88 hlen, p.unpackAll_sequenceOf86 hlen]
    have htlv : ∀ tag, Node.self ∘ Node.of tag = Der.tlv tag := fun _ => funext fun _ => rfl
    have hheader : ∀ tag value, (Node.of tag value).header = header tag value := fun _ _ => rfl
    cases h : p.secondSequenceOf87 <;>
      simp [payloads, h, selfPiece, headerPiece, htlv, hheader]

end PackageContents

/-- **The load of a well-formed package**: its text is decoded to it, and the load of a text that is
decoded to it passes the payloads one after the other to the card, is successful when they are
answered with success, and the payloads are the package. -/
theorem load_segmentation (p : PackageContents) (hlen : p.encode.length ≤ Base64.maxLen) :
    Base64.decodeText (base64Encode p.encode) = some (some p.encode) ∧
      (∀ (text : Bytes), Base64.decodeText text = some (some p.encode) →
        ∀ {σ : Type} (command : Bytes → Program σ Bytes) (s : LoadState (Sent σ)),
        AnswersSuccess command p.payloads s.partner.partner →
        ∃ s', (loadPieces command text).Returns s () s' ∧
          s'.partner.pieces.map Piece.bytes = s.partner.pieces.map Piece.bytes ++ p.payloads) ∧
      p.payloads.flatten = p.encode := by
  refine ⟨Base64.decodeText_encode hlen, ?_, p.flatten_payloads⟩
  intro text htext σ command s hcommand
  rw [Base64.maxLen] at hlen
  obtain ⟨parts, hparts, hbytes⟩ := p.findParts_encode (by omega)
  obtain ⟨s', hreturns, hpieces⟩ := load_returns htext hparts (hbytes ▸ hcommand)
  refine ⟨s', hreturns, ?_⟩
  rw [hpieces, List.map_append, hbytes]

/-- A package with two segments in the sequence of `88`, and a partner that answers with no data. -/
theorem load_segmentation_sample :
    ∃ s', (loadPieces (fun _ s => some (s, some [])) (base64Encode
      (PackageContents.encode ⟨[0x80], [0x87, 0x00], [[0x01, 0x02], []], none, [[0x03]]⟩))).Returns
        ⟨⟨(), []⟩, .init⟩ () s' ∧
      s'.partner.pieces.map Piece.bytes = [[0xBF, 0x36, 0x15, 0xBF, 0x23, 0x01, 0x80],
        [0xA0, 0x02, 0x87, 0x00], [0xA1, 0x06], [0x88, 0x02, 0x01, 0x02], [0x88, 0x00],
        [0xA3, 0x03], [0x86, 0x01, 0x03]] := by
  obtain ⟨htext, hload, -⟩ := load_segmentation
    ⟨[0x80], [0x87, 0x00], [[0x01, 0x02], []], none, [[0x03]]⟩ (by decide +kernel)
  obtain ⟨s', hreturns, hpieces⟩ := hload _ htext _ ⟨⟨(), []⟩, .init⟩ (answersSuccess_silent _)
  exact ⟨s', hreturns, hpieces.trans (by decide +kernel)⟩

/-- A package that is one byte too long. -/
def longPackage : PackageContents := ⟨List.replicate 1610612714 0, [], [], none, []⟩

theorem length_longPackage : longPackage.encode.length = 1610612734 := by
  have hlen : (Der.lenBytes 1610612714).length = 5 := by decide
  have hlen' : (Der.lenBytes 1610612727).length = 5 := by decide
  have hchildren : (Der.tlvs longPackage.children).length = 1610612727 := by
    change (Der.tlvs [(0xBF23, List.replicate 1610612714 0), (0xA0, []), (0xA1, []),
      (0xA3, [])]).length = _
    simp only [Der.tlvs_cons, Der.tlvs_nil, List.length_append, Der.length_tlv,
      List.length_replicate, hlen, List.length_nil]
    decide
  rw [PackageContents.encode, Der.length_tlv, hchildren, hlen']
  decide

/-- **A package that is too long** is not loaded from its text. -/
theorem long_package_not_loaded :
    ¬ ∀ (p : PackageContents) {σ : Type} (command : Bytes → Program σ Bytes)
      (s : LoadState (Sent σ)), AnswersSuccess command p.payloads s.partner.partner →
      ∃ s', (loadPieces command (base64Encode p.encode)).Returns s () s' ∧
        s'.partner.pieces.map Piece.bytes = s.partner.pieces.map Piece.bytes ++ p.payloads := by
  intro h
  obtain ⟨s', hreturns, -⟩ := h longPackage _ ⟨⟨(), []⟩, .init⟩ (answersSuccess_silent _)
  obtain ⟨bpp, -, htext, -⟩ := returns_loadPieces.1 hreturns
  have hcount := Base64.alphabetLen_base64Encode longPackage.encode
  rw [length_longPackage] at hcount
  have hdecoded := (Base64.decodeText_eq_some (by omega)).1 htext
  omega

end VirtualRsp.Lpa
