import Mathlib.Data.List.Infix
import Mathlib.Logic.Function.Basic
import VirtualRsp.Foundations.Memory

/-!
# A tree of files

Files, directories and symbolic links at the locations of a tree, and paths that lead there. The
system walks a path with `resolve`; it follows links, goes up at `..`, and needs a directory before
every further part. `realpath` walks in the same way, but over what is missing as well.

* `join`, `commonprefix`, `text`: paths as texts; `join_text_prefix_iff`: the text of a directory
  with a slash begins the text of what lies inside it, and of nothing else;
* `realpath_of_resolve`: where the system gets to, `realpath` gets to;
* `Plain`: a path without `..` and without links, which stays where it starts (`resolve_plain`);
* `Changes`: what writing and removing files inside a directory may do to a tree, and where paths
  lead then (`resolve_changes`).
-/

namespace VirtualRsp.FileTree

/-! ## Paths -/

/-- What can be the name of something in a directory. -/
def IsName (s : List Char) : Prop := s ≠ [] ∧ '/' ∉ s ∧ s ≠ ['.'] ∧ s ≠ ['.', '.']

instance (s : List Char) : Decidable (IsName s) := inferInstanceAs (Decidable (_ ∧ _))

/-- A name. -/
abbrev Name := { s : List Char // IsName s }

/-- A part of a path: `..`, or a name. -/
inductive Component
  | up
  | down (name : Name)
  deriving DecidableEq

/-- The text between two slashes; it may be nothing, or mean the directory itself. -/
def component (s : List Char) : Option Component :=
  if h : IsName s then some (.down ⟨s, h⟩) else if s = ['.', '.'] then some .up else none

/-- The parts of a path. -/
def components (path : List Char) : List Component := (path.splitOn '/').filterMap component

/-- A location: the names on the way from the root. -/
abbrev Location := List Name

/-- The names of a location, each behind a slash. -/
def slashed (loc : Location) : List Char := loc.flatMap fun name => '/' :: name.val

/-- The text of a location. -/
def text (loc : Location) : List Char := if loc = [] then ['/'] else slashed loc

/-- A path behind another one: an absolute path stands alone. -/
def join (a b : List Char) : List Char :=
  if b.head? = some '/' then b
  else if a = [] ∨ a.getLast? = some '/' then a ++ b
  else a ++ '/' :: b

/-- The longest text that both texts begin with. -/
def commonprefix : List Char → List Char → List Char
  | a :: as, b :: bs => if a = b then a :: commonprefix as bs else []
  | _, _ => []

/-- A location lies inside a directory. -/
def Inside (dir loc : Location) : Prop := dir <+: loc ∧ dir ≠ loc

instance (dir loc : Location) : Decidable (Inside dir loc) := inferInstanceAs (Decidable (_ ∧ _))

variable {dir loc : Location}

theorem inside_append (dir : Location) {names : Location} (h : names ≠ []) :
    Inside dir (dir ++ names) :=
  ⟨List.prefix_append dir names, fun he => h (List.self_eq_append_right.1 he)⟩

theorem commonprefix_eq_right {a b : List Char} : commonprefix a b = b ↔ b <+: a := by
  induction a generalizing b with
  | nil => cases b <;> simp [ commonprefix]
  | cons x a ih =>
    cases b with
    | nil => simp [ commonprefix]
    | cons y b =>
      rw [ commonprefix, List.cons_prefix_cons]
      split
      · rename_i hxy
        rw [List.cons.injEq, ih]
        exact and_congr_left' eq_comm
      · rename_i hxy
        exact iff_of_false (by simp) fun h => hxy h.1.symm

theorem slashed_cons (name : Name) (loc : Location) :
    slashed (name :: loc) = '/' :: (name.val ++ slashed loc) := by
  rw [slashed, List.flatMap_cons, List.cons_append]
  rfl

theorem getLast?_slashed (h : loc ≠ []) : (slashed loc).getLast? ≠ some '/' := by
  rcases List.eq_nil_or_concat loc with rfl | ⟨loc, name, rfl⟩
  · exact absurd rfl h
  obtain ⟨c, hc⟩ := Option.ne_none_iff_exists'.1 (mt List.getLast?_eq_none_iff.1 name.property.1)
  have hlast : (slashed (loc.concat name)).getLast? = some c := by
    rw [List.concat_eq_append, slashed, List.flatMap_append, List.flatMap_singleton,
      List.getLast?_append, List.getLast?_cons, hc]
    rfl
  intro hslash
  rw [hlast] at hslash
  cases hslash
  exact name.property.2.1 (List.mem_of_getLast? hc)

/-- A relative path in a directory. -/
theorem join_text {path : List Char} (hrel : path.head? ≠ some '/') (dir : Location) :
    join (text dir) path = slashed dir ++ '/' :: path := by
  rw [join, if_neg hrel, text]
  by_cases hdir : dir = []
  · subst hdir
    rfl
  · have hne : slashed dir ≠ [] := by
      cases dir with
      | nil => exact absurd rfl hdir
      | cons name dir => simp [slashed_cons]
    rw [if_neg hdir, if_neg (not_or.2 ⟨hne, getLast?_slashed hdir⟩)]

theorem components_append (a b : List Char) :
    components (a ++ '/' :: b) = components a ++ components b := by
  rw [components, List.splitOn_append_cons_self, List.filterMap_append]
  rfl

theorem components_slash (path : List Char) : components ('/' :: path) = components path :=
  components_append [] path

theorem components_of_notMem {s : List Char} (h : '/' ∉ s) :
    components s = (component s).toList := by
  rw [components, List.splitOn_eq_singleton h, List.filterMap_cons, List.filterMap_nil]
  cases component s <;> rfl

theorem components_name (name : Name) (path : List Char) :
    components (name.val ++ '/' :: path) = .down name :: components path := by
  rw [components_append, components_of_notMem name.property.2.1, component, dif_pos name.property]
  rfl

/-- A path that ends in enough of a name has parts. -/
theorem components_ne_nil {ending : List Char} (hslash : '/' ∉ ending) (hlen : 3 ≤ ending.length)
    (path : List Char) : components (path ++ ending) ≠ [] := by
  induction hk : path.length using Nat.strong_induction_on generalizing path with
  | _ k ih =>
    by_cases hmem : '/' ∈ path
    · obtain ⟨a, b, rfl⟩ := List.append_of_mem hmem
      rw [List.append_assoc, List.cons_append, components_append]
      refine List.append_ne_nil_of_right_ne_nil _ (ih b.length ?_ b rfl)
      rw [← hk, List.length_append, List.length_cons]
      omega
    · have hlong : ∀ s : List Char, s.length < 3 → path ++ ending ≠ s := by
        rintro s hs rfl
        rw [List.length_append] at hs
        omega
      have hname : IsName (path ++ ending) := by
        refine ⟨hlong [] (by decide), ?_, hlong _ (by decide), hlong _ (by decide)⟩
        rw [List.mem_append]
        exact not_or.2 ⟨hmem, hslash⟩
      rw [components_of_notMem hname.2.1, component, dif_pos hname]
      exact List.cons_ne_nil _ _

/-- The parts of a path behind the text of a location. -/
theorem components_slashed (dir : Location) (path : List Char) :
    components (slashed dir ++ '/' :: path) = dir.map .down ++ components path := by
  induction dir with
  | nil => exact components_slash path
  | cons name dir ih =>
    have hslash : ∃ rest, slashed dir ++ '/' :: path = '/' :: rest := by
      cases dir with
      | nil => exact ⟨path, rfl⟩
      | cons x dir => exact ⟨_, by rw [slashed_cons, List.cons_append]⟩
    obtain ⟨rest, hrest⟩ := hslash
    rw [slashed_cons, List.cons_append, List.append_assoc, components_slash, hrest, components_name,
      List.map_cons, List.cons_append, ← ih, hrest, components_slash]

/-- Texts up to a slash, before a text that is empty or begins with a slash. -/
theorem prefix_slash {a b as bs : List Char} (ha : '/' ∉ a) (hb : '/' ∉ b)
    (hbs : bs = [] ∨ ∃ cs, bs = '/' :: cs) (h : a ++ '/' :: as <+: b ++ bs) :
    a = b ∧ '/' :: as <+: bs := by
  induction a generalizing b with
  | nil =>
    cases b with
    | nil => exact ⟨rfl, h⟩
    | cons y b =>
      obtain ⟨rfl, -⟩ := List.cons_prefix_cons.1 h
      exact absurd List.mem_cons_self hb
  | cons x a ih =>
    rw [List.mem_cons, not_or] at ha
    cases b with
    | nil =>
      rcases hbs with rfl | ⟨cs, rfl⟩
      · exact absurd (List.prefix_nil.1 h) (List.cons_ne_nil _ _)
      · exact absurd (List.cons_prefix_cons.1 h).1.symm ha.1
    | cons y b =>
      rw [List.mem_cons, not_or] at hb
      obtain ⟨rfl, htail⟩ := List.cons_prefix_cons.1 h
      obtain ⟨rfl, hrest⟩ := ih ha.2 hb.2 htail
      exact ⟨rfl, hrest⟩

theorem slashed_cases (loc : Location) : slashed loc = [] ∨ ∃ cs, slashed loc = '/' :: cs := by
  cases loc with
  | nil => exact .inl rfl
  | cons name loc => exact .inr ⟨_, slashed_cons name loc⟩

theorem slashed_prefix_iff (dir : Location) :
    ∀ loc : Location, slashed dir ++ ['/'] <+: slashed loc ↔ Inside dir loc := by
  induction dir with
  | nil =>
    intro loc
    cases loc with
    | nil => decide
    | cons name loc =>
      rw [slashed_cons]
      exact iff_of_true ⟨_, rfl⟩ ⟨List.nil_prefix, (List.cons_ne_nil _ _).symm⟩
  | cons x dir ih =>
    intro loc
    cases loc with
    | nil =>
      exact iff_of_false (fun h => by simpa [slashed_cons] using List.prefix_nil.1 h)
        fun h => by simpa using List.prefix_nil.1 h.1
    | cons y loc =>
      have hinside : Inside (x :: dir) (y :: loc) ↔ x = y ∧ Inside dir loc := by
        simp only [Inside, List.cons_prefix_cons, ne_eq, List.cons.injEq]
        tauto
      obtain ⟨cs, hcs⟩ : ∃ cs, slashed dir ++ ['/'] = '/' :: cs := by
        rcases slashed_cases dir with h | ⟨cs, h⟩
        · exact ⟨[], by rw [h]; rfl⟩
        · exact ⟨cs ++ ['/'], by rw [h]; rfl⟩
      have hprefix := @prefix_slash x.val y.val cs (slashed loc) x.property.2.1 y.property.2.1
        (slashed_cases loc)
      rw [hinside, ← ih loc, slashed_cons, slashed_cons, List.cons_append, List.append_assoc, hcs,
        List.cons_prefix_cons]
      constructor
      · rintro ⟨-, h⟩
        obtain ⟨hxy, h⟩ := hprefix h
        exact ⟨Subtype.ext hxy, h⟩
      · rintro ⟨rfl, h⟩
        exact ⟨rfl, (List.prefix_append_right_inj _).2 h⟩

/-- **What lies inside a directory** has a text that begins with the directory's and a slash. -/
theorem join_text_prefix_iff (dir : Location) (h : loc ≠ []) :
    join (text dir) [] <+: text loc ↔ Inside dir loc := by
  rw [join_text (by simp), text, if_neg h]
  exact slashed_prefix_iff dir loc

/-! ## The tree -/

/-- Something in a directory. -/
inductive Entry
  | file (content : Bytes) (readable : Bool)
  | directory
  | link (absolute : Bool) (target : List Component)

/-- The entries of a tree. -/
abbrev Tree := Location → Option Entry

/-- What is at a location; at the root there is a directory. -/
def Tree.entry (t : Tree) (loc : Location) : Option Entry :=
  if loc = [] then some .directory else t loc

/-- There is a link. -/
def Tree.IsLink (t : Tree) (loc : Location) : Prop :=
  ∃ absolute target, t loc = some (.link absolute target)

instance (t : Tree) (loc : Location) : Decidable (t.IsLink loc) :=
  match h : t loc with
  | some (.link absolute target) => .isTrue ⟨absolute, target, h⟩
  | some (.file _ _) => .isFalse fun ⟨_, _, hlink⟩ => nomatch h.symm.trans hlink
  | some .directory => .isFalse fun ⟨_, _, hlink⟩ => nomatch h.symm.trans hlink
  | none => .isFalse fun ⟨_, _, hlink⟩ => nomatch h.symm.trans hlink

/-- Walk a path from a directory. A link is walked in its place, and only the last part of a path
may be a file, or missing. The bound is on the number of parts. -/
def resolve (t : Tree) : ℕ → Location → List Component → Option Location
  | _, loc, [] => some loc
  | 0, _, _ :: _ => none
  | n + 1, loc, .up :: rest => resolve t n loc.dropLast rest
  | n + 1, loc, .down name :: rest =>
    match t (loc ++ [name]) with
    | some (.link absolute target) => resolve t n (if absolute then [] else loc) (target ++ rest)
    | some .directory => resolve t n (loc ++ [name]) rest
    | _ => if rest = [] then some (loc ++ [name]) else none

/-- `os.path.realpath`: what is no link is walked over, whatever it is. -/
def realpath (t : Tree) : ℕ → Location → List Component → Option Location
  | _, loc, [] => some loc
  | 0, _, _ :: _ => none
  | n + 1, loc, .up :: rest => realpath t n loc.dropLast rest
  | n + 1, loc, .down name :: rest =>
    match t (loc ++ [name]) with
    | some (.link absolute target) => realpath t n (if absolute then [] else loc) (target ++ rest)
    | _ => realpath t n (loc ++ [name]) rest

variable {t t' : Tree} {n : ℕ} {l : Location} {cs : List Component}

/-- **Where the system gets to**, `realpath` gets to. -/
theorem realpath_of_resolve (h : resolve t n loc cs = some l) : realpath t n loc cs = some l := by
  induction n generalizing loc cs with
  | zero =>
    cases cs with
    | nil => exact h
    | cons c cs => cases h
  | succ n ih =>
    match cs, h with
    | [], h => exact h
    | .up :: rest, h => exact ih h
    | .down name :: rest, h =>
      rw [resolve] at h
      rw [realpath]
      split at h
      · rename_i absolute target hlink
        rw [hlink]
        exact ih h
      · rename_i hdir
        rw [hdir]
        exact ih h
      · rename_i hlink hdir
        split_ifs at h with hrest
        subst hrest
        cases h
        have hend : realpath t n (loc ++ [name]) [] = some (loc ++ [name]) := by
          cases n <;> rfl
        split
        · rename_i absolute target heq
          exact absurd heq (hlink absolute target)
        · exact hend

/-! ## Plain paths -/

/-- A path without `..` and without links on its way. -/
def Plain (t : Tree) : Location → List Component → Prop
  | _, [] => True
  | _, .up :: _ => False
  | loc, .down name :: rest => ¬ t.IsLink (loc ++ [name]) ∧ Plain t (loc ++ [name]) rest

instance Plain.decidable (t : Tree) : ∀ loc cs, Decidable (Plain t loc cs)
  | _, [] => .isTrue trivial
  | _, .up :: _ => .isFalse id
  | loc, .down name :: rest =>
    have := Plain.decidable t (loc ++ [name]) rest
    inferInstanceAs (Decidable (_ ∧ _))

/-- The parts of a path to a location. -/
def downTo (loc : Location) : List Component := loc.map .down

theorem downTo_append (loc names : Location) : downTo (loc ++ names) = downTo loc ++ downTo names :=
  List.map_append

theorem plain_append {names : Location} :
    Plain t loc (downTo names ++ cs) ↔ Plain t loc (downTo names) ∧ Plain t (loc ++ names) cs := by
  induction names generalizing loc with
  | nil => simp [downTo, Plain]
  | cons name names ih =>
    have happend : loc ++ name :: names = loc ++ [name] ++ names := by simp
    have hcons : downTo (name :: names) = .down name :: downTo names := rfl
    rw [hcons, List.cons_append, Plain, Plain, ih, happend, and_assoc]

theorem plain_above (h : Plain t [] (downTo loc)) (hdir : dir <+: loc) :
    Plain t [] (downTo dir) := by
  obtain ⟨names, rfl⟩ := hdir
  rw [downTo_append, plain_append] at h
  exact h.1

theorem Plain.names (h : Plain t loc cs) : ∃ names, cs = downTo names := by
  induction cs generalizing loc with
  | nil => exact ⟨[], rfl⟩
  | cons c cs ih =>
    cases c with
    | up => exact h.elim
    | down name =>
      obtain ⟨names, rfl⟩ := ih h.2
      exact ⟨name :: names, rfl⟩

/-- **A plain path** stays where it starts. -/
theorem resolve_plain {names : Location} (h : Plain t loc (downTo names))
    (hr : resolve t n loc (downTo names) = some l) : l = loc ++ names := by
  induction names generalizing loc n with
  | nil =>
    have hend : resolve t n loc [] = some loc := by cases n <;> rfl
    rw [downTo, List.map_nil, hend] at hr
    cases hr
    rw [List.append_nil]
  | cons name names ih =>
    have happend : loc ++ name :: names = loc ++ [name] ++ names := by simp
    have hcons : downTo (name :: names) = .down name :: downTo names := rfl
    rw [hcons] at h hr
    cases n with
    | zero => cases hr
    | succ n =>
      rw [resolve] at hr
      split at hr
      · rename_i absolute target hlink
        exact absurd ⟨absolute, target, hlink⟩ h.1
      · rw [happend]
        exact ih h.2 hr
      · split_ifs at hr with hrest
        cases hr
        rw [List.map_eq_nil_iff.1 hrest]

/-- A real path is plain. -/
theorem realpath_plain (hloc : Plain t [] (downTo loc)) (h : realpath t n loc cs = some l) :
    Plain t [] (downTo l) := by
  induction n generalizing loc cs with
  | zero =>
    cases cs with
    | nil =>
      cases h
      exact hloc
    | cons c cs => cases h
  | succ n ih =>
    match cs, h with
    | [], h =>
      cases h
      exact hloc
    | .up :: rest, h => exact ih (plain_above hloc (List.dropLast_prefix loc)) h
    | .down name :: rest, h =>
      rw [realpath] at h
      split at h
      · rename_i absolute target hlink
        refine ih ?_ h
        split
        · exact trivial
        · exact hloc
      · rename_i hlink
        refine ih ?_ h
        rw [downTo_append, plain_append]
        refine ⟨hloc, ?_, trivial⟩
        rintro ⟨absolute, target, heq⟩
        exact hlink absolute target heq

/-! ## Changes inside a directory -/

/-- Nothing but files inside a directory has been written or removed. -/
def Changes (dir : Location) (t t' : Tree) : Prop :=
  ∀ loc, t' loc = t loc ∨
    Inside dir loc ∧ (t' loc = none ∨ ∃ content readable, t' loc = some (.file content readable))

theorem Changes.refl (dir : Location) (t : Tree) : Changes dir t t := fun _ => .inl rfl

theorem Changes.update {e : Option Entry} (h : Inside dir loc)
    (he : e = none ∨ ∃ content readable, e = some (.file content readable)) :
    Changes dir t (Function.update t loc e) := by
  intro l
  by_cases hl : l = loc
  · subst hl
    rw [Function.update_self]
    exact .inr ⟨h, he⟩
  · exact .inl (Function.update_of_ne hl _ _)

theorem Changes.isLink (h : Changes dir t t') (hlink : t'.IsLink loc) : t.IsLink loc := by
  obtain ⟨absolute, target, heq⟩ := hlink
  obtain hsame | ⟨-, hnone | ⟨content, readable, hfile⟩⟩ := h loc
  · exact ⟨absolute, target, hsame ▸ heq⟩
  · rw [hnone] at heq
    cases heq
  · rw [hfile] at heq
    cases heq

/-- A plain path stays plain. -/
theorem Changes.plain (h : Changes dir t t') (hp : Plain t loc cs) : Plain t' loc cs := by
  induction cs generalizing loc with
  | nil => exact trivial
  | cons c cs ih =>
    cases c with
    | up => exact hp.elim
    | down name => exact ⟨fun hlink => hp.1 (h.isLink hlink), ih hp.2⟩

/-- **Paths after changes** lead where they led before, or inside the directory. -/
theorem resolve_changes (h : Changes dir t t') (hr : resolve t' n loc cs = some l) :
    resolve t n loc cs = some l ∨ Inside dir l := by
  induction n generalizing loc cs with
  | zero =>
    cases cs with
    | nil => exact .inl hr
    | cons c cs => cases hr
  | succ n ih =>
    match cs, hr with
    | [], hr => exact .inl hr
    | .up :: rest, hr => exact ih hr
    | .down name :: rest, hr =>
      rw [resolve] at hr ⊢
      obtain hsame | ⟨hinside, hchanged⟩ := h (loc ++ [name])
      · rw [hsame] at hr
        split at hr
        · exact ih hr
        · exact ih hr
        · exact .inl hr
      · -- what has been written or removed can only be the last part
        right
        split at hr
        · rename_i absolute target hlink
          rw [hlink] at hchanged
          simp at hchanged
        · rename_i hdir
          rw [hdir] at hchanged
          simp at hchanged
        · split_ifs at hr
          cases hr
          exact hinside

/-! ## Files -/

/-- Where a path leads; a text with a zero character is no path. -/
def locate (t : Tree) (n : ℕ) (path : List Char) : Option Location :=
  if Char.ofNat 0 ∈ path then none else resolve t n [] (components path)

/-- Open a file and read it. -/
def Tree.read (t : Tree) (n : ℕ) (path : List Char) : Option (Location × Bytes) :=
  (locate t n path).bind fun loc =>
    match t.entry loc with
    | some (.file content true) => some (loc, content)
    | _ => none

/-- Write a file: it is created, or overwritten. -/
def Tree.write (t : Tree) (n : ℕ) (path : List Char) (content : Bytes) : Option (Tree × Location) :=
  (locate t n path).bind fun loc =>
    match t.entry loc with
    | some (.file _ readable) =>
      some (Function.update t loc (some (.file content readable)), loc)
    | none => some (Function.update t loc (some (.file content true)), loc)
    | _ => none

/-- Remove a file, or a link. -/
def Tree.remove (t : Tree) (n : ℕ) (path : List Char) : Option (Tree × Location) :=
  match (components path).getLast? with
  | some (.down name) =>
    if Char.ofNat 0 ∈ path then none
    else (resolve t n [] (components path).dropLast).bind fun parent =>
      match t.entry parent, t (parent ++ [name]) with
      | some .directory, some (.file _ _) | some .directory, some (.link _ _) =>
        some (Function.update t (parent ++ [name]) none, parent ++ [name])
      | _, _ => none
  | _ => none

theorem read_eq_some {path : List Char} {content : Bytes} (h : t.read n path = some (l, content)) :
    locate t n path = some l ∧ t.entry l = some (.file content true) := by
  obtain ⟨loc, hloc, h⟩ := Option.bind_eq_some_iff.1 h
  split at h
  · rename_i hentry
    cases h
    exact ⟨hloc, hentry⟩
  · cases h

theorem write_eq_some {path : List Char} {content : Bytes}
    (h : t.write n path content = some (t', l)) :
    locate t n path = some l ∧
      ∃ readable, t' = Function.update t l (some (.file content readable)) := by
  obtain ⟨loc, hloc, h⟩ := Option.bind_eq_some_iff.1 h
  split at h
  · cases h
    exact ⟨hloc, _, rfl⟩
  · cases h
    exact ⟨hloc, _, rfl⟩
  · cases h

theorem remove_eq_some {path : List Char} (h : t.remove n path = some (t', l)) :
    ∃ parent name, (components path).getLast? = some (.down name) ∧
      resolve t n [] (components path).dropLast = some parent ∧ l = parent ++ [name] ∧
      t' = Function.update t l none := by
  rw [Tree.remove] at h
  split at h
  · rename_i name hlast
    split_ifs at h
    obtain ⟨parent, hparent, h⟩ := Option.bind_eq_some_iff.1 h
    refine ⟨parent, name, hlast, hparent, ?_⟩
    split at h
    · cases h
      exact ⟨rfl, rfl⟩
    · cases h
      exact ⟨rfl, rfl⟩
    · cases h
  · cases h

/-! ## Relative paths in a directory -/

/-- A plain relative path in a directory leads inside it. -/
theorem locate_inside {path : List Char} (hdir : Plain t [] (downTo dir))
    (hrel : path.head? ≠ some '/') (hne : components path ≠ [])
    (hplain : Plain t dir (components path)) (h : locate t n (join (text dir) path) = some l) :
    Inside dir l := by
  rw [locate] at h
  split_ifs at h
  rw [join_text hrel, components_slashed] at h
  obtain ⟨names, hnames⟩ := hplain.names
  rw [hnames] at hplain hne h
  have hpath : Plain t [] (downTo (dir ++ names)) := by
    rw [downTo_append, plain_append]
    exact ⟨hdir, hplain⟩
  have hl : l = [] ++ (dir ++ names) := resolve_plain hpath (by rw [downTo_append]; exact h)
  rw [hl, List.nil_append]
  refine inside_append dir fun hnil => hne ?_
  rw [hnil]
  rfl

/-- What a relative path in a directory removes lies inside it, if the path to it is plain. -/
theorem remove_inside {path : List Char} (hdir : Plain t [] (downTo dir))
    (hrel : path.head? ≠ some '/') (hplain : Plain t dir (components path).dropLast)
    (hne : components path ≠ []) (h : t.remove n (join (text dir) path) = some (t', l)) :
    Inside dir l := by
  obtain ⟨parent, name, -, hparent, rfl, -⟩ := remove_eq_some h
  rw [join_text hrel, components_slashed, List.dropLast_append_of_ne_nil hne] at hparent
  obtain ⟨names, hnames⟩ := hplain.names
  rw [hnames] at hplain hparent
  have hpath : Plain t [] (downTo (dir ++ names)) := by
    rw [downTo_append, plain_append]
    exact ⟨hdir, hplain⟩
  have hl : parent = [] ++ (dir ++ names) :=
    resolve_plain hpath (by rw [downTo_append]; exact hparent)
  rw [hl, List.nil_append, List.append_assoc]
  exact inside_append dir (by simp)

end VirtualRsp.FileTree
