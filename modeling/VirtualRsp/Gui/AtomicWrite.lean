import VirtualRsp.Foundations.Interruptible
import VirtualRsp.Foundations.Memory
import VirtualRsp.Gui.ProfileStore

/-!
# The replacement of the profile database

`_write_atomic` writes the new contents into a temporary file in the directory of the database and
renames that file. Every one of its operations may raise an exception, and the process may be
stopped at any of them.

* `writeAtomic_replaces`: the database is at every moment the old one or the new one, an exception
  is raised again, and it leaves the directory as it was.
* `load_writeAtomic`: what another process reads in the meantime.
-/

namespace VirtualRsp.Gui

open Interruptible

namespace AtomicWrite

/-- The files of the directory, and what has been written to the temporary file and not been
transferred to it. -/
structure Files where
  dir : String → Option Bytes
  buffer : Bytes

/-- The operations of a call. A chunk is serialised, and then written. -/
inductive FileOp
  | mkstemp
  | fdopen
  | lock
  | encode (chunk : ℕ)
  | write (chunk : ℕ)
  | flush
  | fsync
  | unlock
  | close
  | rename
  | unlink
  deriving DecidableEq

/-- What the operating system does in a call: what becomes of each operation, how many bytes it
transfers to the file if it need not transfer all, the random parts of the file names that `mkstemp`
tries, and the exception when they are used up. -/
structure Env (ε : Type) where
  verdict : FileOp → Verdict ε
  part : FileOp → ℕ
  names : List String
  noUsableName : ε

variable {ε : Type} (env : Env ε) (db tempPath : String)

/-- The name of a temporary file. -/
def tempName (random : String) : String := ".profiles_" ++ random ++ ".json.tmp"

/-- The first name that is not in use. -/
def freshName (dir : String → Option Bytes) : Option String :=
  (env.names.map tempName).find? fun name => (dir name).isNone

namespace Files

variable (s : Files)

/-- The directory with an empty file. -/
def create : Files := { s with dir := Function.update s.dir tempPath (some []) }

/-- A file object for the file, which has nothing in its buffer. -/
def fdopen : Files := { s with buffer := [] }

/-- Add to the buffer. -/
def append (chunk : Bytes) : Files := { s with buffer := s.buffer ++ chunk }

/-- Transfer bytes of the buffer to the file. -/
def transfer (n : ℕ) : Files where
  dir := Function.update s.dir tempPath ((s.dir tempPath).map fun bytes => bytes ++ s.buffer.take n)
  buffer := s.buffer.drop n

/-- Rename the file. -/
def rename : Files :=
  { s with dir := Function.update (Function.update s.dir db (s.dir tempPath)) tempPath none }

/-- Remove the file. -/
def unlink : Files := { s with dir := Function.update s.dir tempPath none }

end Files

/-! ## The call -/

/-- `tempfile.mkstemp` -/
def mkstemp : Interruptible Files ε String := do
  let s ← get
  match freshName env s.dir with
  | none => raise env.noUsableName
  | some tempPath =>
    operation (env.verdict .mkstemp) (fun s => s.create tempPath) id
    pure tempPath

/-- An operation that has no effect on the files. -/
def effectless (op : FileOp) : Interruptible Files ε Unit := operation (env.verdict op) id id

/-- An operation that transfers all of the buffer, or a part if it fails. -/
def transferring (op : FileOp) : Interruptible Files ε Unit :=
  operation (env.verdict op) (fun s => s.transfer tempPath s.buffer.length)
    (fun s => s.transfer tempPath (env.part op))

/-- `json.dump`, from a chunk on. -/
def dump : ℕ → List Bytes → Interruptible Files ε Unit
  | _, [] => pure ()
  | i, chunk :: chunks => do
    effectless env (.encode i)
    operation (env.verdict (.write i))
      (fun s => (s.append chunk).transfer tempPath (env.part (.write i)))
      (fun s => (s.append chunk).transfer tempPath (env.part (.write i)))
    dump (i + 1) chunks

/-- The block of `with os.fdopen(fd, 'w') as f`. -/
def writeTemp (chunks : List Bytes) : Interruptible Files ε Unit := do
  operation (env.verdict .fdopen) (fun s => s.fdopen) id
  tryFinally
    (do
      effectless env .lock
      tryFinally
        (do
          dump env tempPath 0 chunks
          transferring env tempPath .flush
          effectless env .fsync)
        (effectless env .unlock))
    (transferring env tempPath .close)

/-- The cleanup after an exception. -/
def cleanup : Interruptible Files ε Unit := do
  let s ← get
  if (s.dir tempPath).isSome then
    operation (env.verdict .unlink) (fun s => s.unlink tempPath) id
  else pure ()

/-- `_write_atomic`, for the chunks of the serialisation of the data. -/
def writeAtomic (chunks : List Bytes) : Interruptible Files ε Unit := do
  let tempPath ← mkstemp env
  tryExcept
    (do
      writeTemp env tempPath chunks
      operation (env.verdict .rename) (fun s => s.rename db tempPath) id)
    (cleanup env tempPath)

/-- What `_read_db` reads. -/
def readDb (s : Files) : Option Bytes := s.dir db

/-! ## What a call ensures -/

/-- What becomes of each operation in a call that starts with the files `s`. -/
def outcome (s : Files) : FileOp → Verdict ε
  | .mkstemp =>
    match freshName env s.dir with
    | none => .raises env.noUsableName
    | some _ => env.verdict .mkstemp
  | op => env.verdict op

/-- The operations that write the chunks from one on. -/
def dumpSteps : ℕ → List Bytes → List FileOp
  | _, [] => []
  | i, _ :: chunks => .encode i :: .write i :: dumpSteps (i + 1) chunks

/-- The operations of a call in which nothing fails. -/
def steps (chunks : List Bytes) : List FileOp :=
  [.mkstemp, .fdopen, .lock] ++ dumpSteps 0 chunks ++ [.flush, .fsync, .unlock, .close, .rename]

variable {env db tempPath} {s t : Files}

/-- Some operation raises the exception. -/
def Raises (env : Env ε) (s : Files) (e : ε) : Prop := ∃ op, outcome env s op = .raises e

/-- The process is stopped at some operation. -/
def Stops (env : Env ε) (s : Files) : Prop := ∃ op, outcome env s op = .stops

/-- No other file than the temporary one has changed. -/
def Beside (tempPath : String) (s t : Files) : Prop := ∀ name ≠ tempPath, t.dir name = s.dir name

/-- The operations that have been done, and what they have written. -/
structure Progress (env : Env ε) (tempPath : String) (s : Files) (done : List FileOp)
    (bytes : Bytes) (t : Files) : Prop where
  succeeded : ∀ op ∈ done, outcome env s op = .succeeds
  written : ∃ transferred, t.dir tempPath = some transferred ∧ transferred ++ t.buffer = bytes

theorem Beside.transfer (h : Beside tempPath s t) (n : ℕ) :
    Beside tempPath s (t.transfer tempPath n) := by
  intro name hname
  simp only [Files.transfer, Function.update_of_ne hname]
  exact h name hname

theorem Beside.dir_unlink (h : Beside tempPath s t) (hfresh : s.dir tempPath = none) :
    (t.unlink tempPath).dir = s.dir := by
  funext name
  by_cases hname : name = tempPath
  · subst hname
    simp [Files.unlink, hfresh]
  · simp only [Files.unlink, Function.update_of_ne hname]
    exact h name hname

theorem outcome_eq_verdict {op : FileOp} (hop : op ≠ .mkstemp) :
    outcome env s op = env.verdict op := by
  cases op with
  | mkstemp => exact absurd rfl hop
  | _ => rfl

/-- **An operation on the temporary file** that keeps the other ones. -/
theorem operation_ensures {op : FileOp} {success failure : Files → Files}
    {Q : Unit → Files → Prop} (hop : op ≠ .mkstemp) (hsuccess : Beside tempPath s (success t))
    (hfailure : Beside tempPath s (failure t))
    (hQ : outcome env s op = .succeeds → Q () (success t)) :
    Ensures (operation (env.verdict op) success failure) t (Beside tempPath s) Q
      (fun e _ => Raises env s e) (Stops env s) := by
  have hverdict : outcome env s op = env.verdict op := outcome_eq_verdict hop
  refine Ensures.operation (fun h => ⟨hsuccess, hQ (hverdict.trans h)⟩)
    (fun e h => ⟨hfailure, op, hverdict.trans h⟩) (fun h => ⟨hfailure, op, hverdict.trans h⟩)

theorem Progress.snoc {done : List FileOp} {bytes bytes' : Bytes} {op : FileOp} {t' : Files}
    (h : Progress env tempPath s done bytes t) (hop : outcome env s op = .succeeds)
    (hwritten : ∃ transferred, t'.dir tempPath = some transferred ∧
      transferred ++ t'.buffer = bytes') :
    Progress env tempPath s (done ++ [op]) bytes' t' where
  succeeded := List.forall_mem_append.2 ⟨h.succeeded, List.forall_mem_singleton.2 hop⟩
  written := hwritten

/-- A transfer does not change what has been written. -/
theorem written_transfer {bytes : Bytes} (n : ℕ)
    (h : ∃ transferred, t.dir tempPath = some transferred ∧ transferred ++ t.buffer = bytes) :
    ∃ transferred, (t.transfer tempPath n).dir tempPath = some transferred ∧
      transferred ++ (t.transfer tempPath n).buffer = bytes := by
  obtain ⟨transferred, hdir, hbytes⟩ := h
  refine ⟨transferred ++ t.buffer.take n, ?_, ?_⟩
  · simp [Files.transfer, hdir]
  · simp only [Files.transfer, List.append_assoc, List.take_append_drop]
    exact hbytes

theorem written_append {bytes : Bytes} (chunk : Bytes)
    (h : ∃ transferred, t.dir tempPath = some transferred ∧ transferred ++ t.buffer = bytes) :
    ∃ transferred, (t.append chunk).dir tempPath = some transferred ∧
      transferred ++ (t.append chunk).buffer = bytes ++ chunk := by
  obtain ⟨transferred, hdir, hbytes⟩ := h
  refine ⟨transferred, hdir, ?_⟩
  simp only [Files.append, ← List.append_assoc, hbytes]

section Temporary

variable {done : List FileOp} {bytes : Bytes}

theorem effectless_ensures {op : FileOp} (hop : op ≠ .mkstemp) (hbeside : Beside tempPath s t)
    (h : Progress env tempPath s done bytes t) :
    Ensures (effectless env op) t (Beside tempPath s)
      (fun _ => Progress env tempPath s (done ++ [op]) bytes)
      (fun e _ => Raises env s e) (Stops env s) :=
  operation_ensures hop hbeside hbeside fun hsucceeds => h.snoc hsucceeds h.written

/-- **The dump** writes the chunks one after the other. -/
theorem dump_ensures (chunks : List Bytes) :
    ∀ (i : ℕ) {done : List FileOp} {bytes : Bytes} {t : Files}, Beside tempPath s t →
      Progress env tempPath s done bytes t →
      Ensures (dump env tempPath i chunks) t (Beside tempPath s)
        (fun _ => Progress env tempPath s (done ++ dumpSteps i chunks) (bytes ++ chunks.flatten))
        (fun e _ => Raises env s e) (Stops env s) := by
  induction chunks with
  | nil =>
    intro i done bytes t hbeside h
    apply Ensures.pure hbeside
    simpa only [dumpSteps, List.flatten_nil, List.append_nil] using h
  | cons chunk chunks ih =>
    intro i done bytes t hbeside h
    apply Ensures.bind (effectless_ensures (by simp) hbeside h)
    intro _ t hbeside h
    have hwritten := written_transfer (env.part (.write i)) (written_append chunk h.written)
    have hbeside' : Beside tempPath s ((t.append chunk).transfer tempPath (env.part (.write i))) :=
      Beside.transfer (t := t.append chunk) hbeside _
    apply Ensures.bind (Q := fun _ => Progress env tempPath s _ (bytes ++ chunk))
      (operation_ensures (by simp) hbeside' hbeside' fun hsucceeds => h.snoc hsucceeds hwritten)
    intro _ t hbeside h
    have hrest := ih (i + 1) hbeside h
    simpa only [dumpSteps, List.flatten_cons, List.append_assoc, List.singleton_append,
      List.cons_append, List.nil_append] using hrest

/-- A transfer of the whole buffer completes the file. -/
theorem transfer_all (h : Progress env tempPath s done bytes t) :
    (t.transfer tempPath t.buffer.length).dir tempPath = some bytes ∧
      (t.transfer tempPath t.buffer.length).buffer = [] := by
  obtain ⟨transferred, hdir, hbytes⟩ := h.written
  refine ⟨?_, ?_⟩
  · simp [Files.transfer, hdir, hbytes]
  · simp [Files.transfer]

theorem transferring_ensures {op : FileOp} (hop : op ≠ .mkstemp) (hbeside : Beside tempPath s t)
    (h : Progress env tempPath s done bytes t) :
    Ensures (transferring env tempPath op) t (Beside tempPath s)
      (fun _ t' => Progress env tempPath s (done ++ [op]) bytes t' ∧
        t'.dir tempPath = some bytes)
      (fun e _ => Raises env s e) (Stops env s) :=
  operation_ensures hop (hbeside.transfer _) (hbeside.transfer _) fun hsucceeds =>
    ⟨h.snoc hsucceeds (written_transfer _ h.written), (transfer_all h).1⟩

/-- The operation of a `finally` block after an exception. -/
theorem finally_ensures {op : FileOp} {success failure : Files → Files} {e : ε}
    (hop : op ≠ .mkstemp) (hsuccess : Beside tempPath s (success t))
    (hfailure : Beside tempPath s (failure t)) (he : Raises env s e) :
    Ensures (operation (env.verdict op) success failure) t (Beside tempPath s)
      (fun _ _ => Raises env s e) (fun e _ => Raises env s e) (Stops env s) :=
  operation_ensures hop hsuccess hfailure fun _ => he

/-- The inner `try` statement: dump, flush and `fsync`, with the lock released in any case. -/
theorem unlocked_ensures (chunks : List Bytes) (hbeside : Beside tempPath s t)
    (h : Progress env tempPath s done [] t) :
    Ensures
      (tryFinally
        (do
          dump env tempPath 0 chunks
          transferring env tempPath .flush
          effectless env .fsync)
        (effectless env .unlock)) t (Beside tempPath s)
      (fun _ => Progress env tempPath s
        (done ++ dumpSteps 0 chunks ++ [.flush, .fsync, .unlock]) chunks.flatten)
      (fun e _ => Raises env s e) (Stops env s) := by
  apply Ensures.tryFinally (E := fun e _ => Raises env s e)
    (Q := fun _ => Progress env tempPath s (done ++ dumpSteps 0 chunks ++ [.flush] ++ [.fsync])
      chunks.flatten)
  · apply Ensures.bind (dump_ensures chunks 0 hbeside h)
    intro _ t hbeside h
    apply Ensures.bind (transferring_ensures (by simp) hbeside h)
    intro _ t hbeside h
    exact effectless_ensures (by simp) hbeside h.1
  · intro _ t hbeside h
    have hunlock : Ensures (effectless env .unlock) t _ _ _ _ :=
      effectless_ensures (by simp) hbeside h
    simpa only [List.append_assoc, List.cons_append, List.nil_append] using hunlock
  · intro e t hbeside he
    exact finally_ensures (by simp) hbeside hbeside he

/-- **The temporary file** holds all chunks when it is closed without an exception. -/
theorem writeTemp_ensures (chunks : List Bytes) (hbeside : Beside tempPath s t)
    (hempty : t.dir tempPath = some []) (hmkstemp : outcome env s .mkstemp = .succeeds) :
    Ensures (writeTemp env tempPath chunks) t (Beside tempPath s)
      (fun _ t' => (∀ op ∈ [.mkstemp, .fdopen, .lock] ++ dumpSteps 0 chunks ++
          [.flush, .fsync, .unlock, .close], outcome env s op = .succeeds) ∧
        t'.dir tempPath = some chunks.flatten)
      (fun e _ => Raises env s e) (Stops env s) := by
  have hstart : Progress env tempPath s [.mkstemp] [] t.fdopen :=
    ⟨List.forall_mem_singleton.2 hmkstemp, [], hempty, rfl⟩
  apply Ensures.bind (Q := fun _ => Progress env tempPath s [.mkstemp, .fdopen] [])
    (operation_ensures (by simp) hbeside hbeside
      fun hsucceeds => hstart.snoc hsucceeds hstart.written)
  intro _ t hbeside h
  apply Ensures.tryFinally (E := fun e _ => Raises env s e)
    (Q := fun _ => Progress env tempPath s
      ([.mkstemp, .fdopen, .lock] ++ dumpSteps 0 chunks ++ [.flush, .fsync, .unlock])
      chunks.flatten)
  · apply Ensures.bind (effectless_ensures (by simp) hbeside h)
    intro _ t hbeside h
    exact unlocked_ensures chunks hbeside h
  · intro _ t hbeside h
    have hclose : Ensures (transferring env tempPath .close) t _ _ _ _ :=
      transferring_ensures (by simp) hbeside h
    apply hclose.mono (fun _ => id) _ (fun _ _ _ => id) id
    intro _ t' _ ⟨hclosed, hdir⟩
    refine ⟨?_, hdir⟩
    simpa only [List.append_assoc, List.cons_append, List.nil_append] using hclosed.succeeded
  · intro e t hbeside he
    exact finally_ensures (by simp) (hbeside.transfer _) (hbeside.transfer _) he

end Temporary

/-! ## The database -/

/-- The database is the old one or the new one. -/
def Consistent (db : String) (new : Bytes) (s t : Files) : Prop :=
  readDb db t = readDb db s ∨ readDb db t = some new

theorem Beside.consistent (h : Beside tempPath s t) (hne : db ≠ tempPath) (new : Bytes) :
    Consistent db new s t :=
  Or.inl (h db hne)

theorem freshName_spec (h : freshName env s.dir = some tempPath) :
    s.dir tempPath = none ∧ ∃ random, tempName random = tempPath := by
  have hnone := List.find?_some h
  have hmem := List.mem_of_find?_eq_some h
  obtain ⟨random, -, hrandom⟩ := List.mem_map.1 hmem
  exact ⟨Option.isNone_iff_eq_none.1 hnone, random, hrandom⟩

/-- A name that is not in use is not the one of the database. -/
theorem freshName_ne (hdb : (s.dir db).isSome ∨ ∀ random, tempName random ≠ db)
    (h : freshName env s.dir = some tempPath) : db ≠ tempPath := by
  obtain ⟨hfresh, random, hrandom⟩ := freshName_spec h
  rintro rfl
  rcases hdb with hdb | hdb
  · simp [hfresh] at hdb
  · exact hdb random hrandom

theorem outcome_mkstemp (h : freshName env s.dir = some tempPath) :
    outcome env s .mkstemp = env.verdict .mkstemp := by
  simp only [outcome, h]

/-- **`mkstemp`** creates an empty file beside the database. -/
theorem mkstemp_ensures (hdb : (s.dir db).isSome ∨ ∀ random, tempName random ≠ db) (new : Bytes) :
    Ensures (mkstemp env) s (Consistent db new s)
      (fun tempPath t => db ≠ tempPath ∧ s.dir tempPath = none ∧
        outcome env s .mkstemp = .succeeds ∧ t = s.create tempPath)
      (fun e t => Raises env s e ∧ t.dir = s.dir) (Stops env s) := by
  have hstart : Consistent db new s s := Or.inl rfl
  apply Ensures.bind (Ensures.get hstart (Q := fun u t => u = s ∧ t = s) ⟨rfl, rfl⟩)
  rintro _ _ - ⟨rfl, rfl⟩
  rename_i s
  cases hname : freshName env s.dir with
  | none =>
    have hraises : Raises env s env.noUsableName := ⟨.mkstemp, by simp only [outcome, hname]⟩
    exact Ensures.raise hstart ⟨hraises, rfl⟩
  | some tempPath =>
    have hne := freshName_ne hdb hname
    have hverdict := outcome_mkstemp hname
    have hcreate : Consistent db new s (s.create tempPath) :=
      Or.inl (Function.update_of_ne hne _ _)
    have hoperation : Ensures
        (operation (env.verdict .mkstemp) (fun s => s.create tempPath) id) s (Consistent db new s)
        (fun _ t => outcome env s .mkstemp = .succeeds ∧ t = s.create tempPath)
        (fun e t => Raises env s e ∧ t.dir = s.dir) (Stops env s) := by
      refine Ensures.operation (fun h => ⟨hcreate, hverdict.trans h, rfl⟩)
        (fun e h => ⟨hstart, ⟨.mkstemp, hverdict.trans h⟩, rfl⟩)
        (fun h => ⟨hstart, .mkstemp, hverdict.trans h⟩)
    apply Ensures.bind hoperation
    rintro _ _ - ⟨hsucceeds, rfl⟩
    exact Ensures.pure hcreate ⟨hne, (freshName_spec hname).1, hsucceeds, rfl⟩

/-- **The cleanup** leaves the directory as it was, unless the temporary file cannot be removed. -/
theorem cleanup_ensures {e : ε} (hbeside : Beside tempPath s t) (hfresh : s.dir tempPath = none)
    (he : Raises env s e) :
    Ensures (cleanup env tempPath) t (Beside tempPath s)
      (fun _ t' => Raises env s e ∧ t'.dir = s.dir)
      (fun e' _ => Raises env s e' ∧ env.verdict .unlink = .raises e') (Stops env s) := by
  have hunlink := hbeside.dir_unlink hfresh
  apply Ensures.bind (Ensures.get hbeside (Q := fun u t' => u = t ∧ t' = t) ⟨rfl, rfl⟩)
  rintro _ _ - ⟨rfl, rfl⟩
  rename_i t
  split
  · have hremoved : Beside tempPath s (t.unlink tempPath) := fun name _ => congrFun hunlink name
    refine Ensures.operation (fun _ => ⟨hremoved, he, hunlink⟩) ?_ ?_
    · intro e' h
      exact ⟨hbeside, ⟨.unlink, h⟩, h⟩
    · intro h
      exact ⟨hbeside, .unlink, h⟩
  · next hnone =>
    apply Ensures.pure hbeside
    refine ⟨he, funext fun name => ?_⟩
    by_cases hname : name = tempPath
    · subst hname
      rw [hfresh]
      exact Option.not_isSome_iff_eq_none.1 hnone
    · exact hbeside name hname

theorem Beside.dir_rename {new : Bytes} (h : Beside tempPath s t) (hne : db ≠ tempPath)
    (hfresh : s.dir tempPath = none) (hnew : t.dir tempPath = some new) :
    (t.rename db tempPath).dir = Function.update s.dir db (some new) := by
  funext name
  simp only [Files.rename, hnew]
  by_cases htemp : name = tempPath
  · subst htemp
    rw [Function.update_self, Function.update_of_ne hne.symm, hfresh]
  · rw [Function.update_of_ne htemp]
    by_cases hname : name = db
    · subst hname
      rw [Function.update_self, Function.update_self]
    · rw [Function.update_of_ne hname, Function.update_of_ne hname]
      exact h name htemp

/-- **The renaming** replaces the database by the temporary file. -/
theorem rename_ensures {new : Bytes} (hbeside : Beside tempPath s t) (hne : db ≠ tempPath)
    (hfresh : s.dir tempPath = none) (hnew : t.dir tempPath = some new) :
    Ensures (operation (env.verdict .rename) (fun s => s.rename db tempPath) id) t
      (Consistent db new s)
      (fun _ t' => outcome env s .rename = .succeeds ∧
        t'.dir = Function.update s.dir db (some new))
      (fun e t' => Beside tempPath s t' ∧ Raises env s e) (Stops env s) := by
  have hdir := hbeside.dir_rename hne hfresh hnew
  have hnow : Consistent db new s (t.rename db tempPath) := by
    apply Or.inr
    rw [readDb, hdir, Function.update_self]
  refine Ensures.operation (fun h => ⟨hnow, h, hdir⟩)
    (fun e h => ⟨hbeside.consistent hne new, hbeside, .rename, h⟩)
    (fun h => ⟨hbeside.consistent hne new, .rename, h⟩)

/-- What a call ensures, from any files on. -/
theorem writeAtomic_ensures (chunks : List Bytes)
    (hdb : (s.dir db).isSome ∨ ∀ random, tempName random ≠ db) :
    Ensures (writeAtomic env db chunks) s (Consistent db chunks.flatten s)
      (fun _ t => (∀ op ∈ steps chunks, outcome env s op = .succeeds) ∧
        t.dir = Function.update s.dir db (some chunks.flatten))
      (fun e t => Raises env s e ∧
        ((∀ e', env.verdict .unlink ≠ .raises e') → t.dir = s.dir)) (Stops env s) := by
  apply Ensures.bind ((mkstemp_ensures hdb chunks.flatten).mono (fun _ => id) (fun _ _ _ => id)
    (fun e t _ ⟨he, hdir⟩ => ⟨he, fun _ => hdir⟩) id)
  rintro tempPath _ - ⟨hne, hfresh, hmkstemp, rfl⟩
  have hcreated : Beside tempPath s (s.create tempPath) := fun name hname =>
    Function.update_of_ne hname _ _
  have hempty : (s.create tempPath).dir tempPath = some [] := Function.update_self _ _ _
  apply Ensures.tryExcept (E := fun e t => Beside tempPath s t ∧ Raises env s e)
  · apply Ensures.bind ((writeTemp_ensures chunks hcreated hempty hmkstemp).mono
      (fun _ h => h.consistent hne chunks.flatten) (fun _ _ hbeside h => And.intro hbeside h)
      (fun _ _ hbeside he => ⟨hbeside, he⟩) id)
    rintro _ t - ⟨hbeside, hsteps, hnew⟩
    apply (rename_ensures hbeside hne hfresh hnew).mono (fun _ => id) _ (fun _ _ _ => id) id
    rintro _ t' - ⟨hrename, hdir⟩
    have hall := List.forall_mem_append.2 ⟨hsteps, List.forall_mem_singleton.2 hrename⟩
    refine ⟨?_, hdir⟩
    simpa only [steps, List.append_assoc, List.cons_append, List.nil_append] using hall
  · rintro e t - ⟨hbeside, he⟩
    apply (cleanup_ensures hbeside hfresh he).mono
      (fun _ h => h.consistent hne chunks.flatten) _ _ id
    · rintro _ t' - ⟨he, hdir⟩
      exact ⟨he, fun _ => hdir⟩
    · rintro e' t' - ⟨he', hunlink⟩
      exact ⟨he', fun h => absurd hunlink (h e')⟩

theorem unlink_not_mem_steps (chunks : List Bytes) : FileOp.unlink ∉ steps chunks := by
  have hdump : ∀ i, FileOp.unlink ∉ dumpSteps i chunks := by
    induction chunks with
    | nil => simp [dumpSteps]
    | cons chunk chunks ih => simp [dumpSteps, ih]
  simp [steps, hdump]

/-- When one operation of a call raises an exception and no other one fails, the call raises it. -/
theorem ended_of_raises (chunks : List Bytes)
    (hdb : (s.dir db).isSome ∨ ∀ random, tempName random ≠ db) {op : FileOp} {e : ε}
    (hop : op ∈ steps chunks) (he : outcome env s op = .raises e)
    (hothers : ∀ other ≠ op, outcome env s other = .succeeds) :
    (writeAtomic env db chunks s).ended = .raised e ∧
      (writeAtomic env db chunks s).final.dir = s.dir := by
  have h : Ensures (writeAtomic env db chunks) s _ _ _ _ := writeAtomic_ensures chunks hdb
  have honly : ∀ op' e', outcome env s op' = .raises e' → e' = e := by
    intro op' e' h'
    by_cases hop' : op' = op
    · subst hop'
      rw [he] at h'
      cases h'
      rfl
    · rw [hothers op' hop'] at h'
      cases h'
  cases hended : (writeAtomic env db chunks s).ended with
  | returned a =>
    have hsucceeds := (h.returned a hended).1 op hop
    rw [he] at hsucceeds
    cases hsucceeds
  | raised e' =>
    obtain ⟨⟨op', hop'⟩, hdir⟩ := h.raised e' hended
    obtain rfl := honly op' e' hop'
    refine ⟨rfl, hdir fun e'' hunlink => ?_⟩
    have hne : FileOp.unlink ≠ op := fun heq => unlink_not_mem_steps chunks (heq ▸ hop)
    have hsucceeds := hothers .unlink hne
    rw [outcome_eq_verdict (by simp), hunlink] at hsucceeds
    cases hsucceeds
  | stopped =>
    obtain ⟨op', hop'⟩ := h.stopped hended
    by_cases heq : op' = op
    · subst heq
      rw [he] at hop'
      cases hop'
    · rw [hothers op' heq] at hop'
      cases hop'

/-- **The replacement of the database is atomic**: in every state of a call and after it, whatever
its operations do, the database is the complete old one or the complete new one. A call that returns
leaves the new one. A call that raises an exception passes on one of an operation and leaves the
directory as it was, if the temporary file can be removed; and when one operation fails with an
exception, the call raises that. -/
theorem writeAtomic_replaces (env : Env ε) (db : String) (chunks : List Bytes) (s : Files)
    (hdb : (s.dir db).isSome ∨ ∀ random, tempName random ≠ db) :
    (∀ t ∈ (writeAtomic env db chunks s).visited ++ [(writeAtomic env db chunks s).final],
      readDb db t = readDb db s ∨ readDb db t = some chunks.flatten) ∧
    ((writeAtomic env db chunks s).ended = .returned () →
      (writeAtomic env db chunks s).final.dir =
        Function.update s.dir db (some chunks.flatten)) ∧
    (∀ e, (writeAtomic env db chunks s).ended = .raised e →
      (∃ op, outcome env s op = .raises e) ∧
      ((∀ e', env.verdict .unlink ≠ .raises e') →
        (writeAtomic env db chunks s).final.dir = s.dir)) ∧
    (∀ op ∈ steps chunks, ∀ e, outcome env s op = .raises e →
      (∀ other ≠ op, outcome env s other = .succeeds) →
      (writeAtomic env db chunks s).ended = .raised e ∧
        (writeAtomic env db chunks s).final.dir = s.dir) := by
  have h : Ensures (writeAtomic env db chunks) s _ _ _ _ := writeAtomic_ensures chunks hdb
  refine ⟨?_, fun hended => (h.returned () hended).2, h.raised, ?_⟩
  · exact List.forall_mem_append.2 ⟨h.visited, List.forall_mem_singleton.2 h.final⟩
  · intro op hop e he hothers
    exact ended_of_raises chunks hdb hop he hothers

/-- A call that replaces an empty object, in which `fsync` fails. -/
theorem writeAtomic_fsync_fails :
    (writeAtomic ⟨fun op => if op = .fsync then .raises "OSError" else .succeeds, fun _ => 0,
        ["k3_q8x2a"], "FileExistsError"⟩ "profiles.json" [[0x7b], [0x20, 0x7d]]
        ⟨fun name => if name = "profiles.json" then some [0x7b, 0x7d] else none, []⟩).ended =
      .raised "OSError" ∧
    (writeAtomic ⟨fun op => if op = .fsync then .raises "OSError" else .succeeds, fun _ => 0,
        ["k3_q8x2a"], "FileExistsError"⟩ "profiles.json" [[0x7b], [0x20, 0x7d]]
        ⟨fun name => if name = "profiles.json" then some [0x7b, 0x7d] else none, []⟩).final.dir =
      fun name => if name = "profiles.json" then some [0x7b, 0x7d] else none := by
  apply (writeAtomic_replaces _ _ _ _ (Or.inl rfl)).2.2.2 .fsync (by decide) "OSError" rfl
  intro other hother
  have hname : freshName (⟨fun op => if op = .fsync then .raises "OSError" else .succeeds,
      fun _ => 0, ["k3_q8x2a"], "FileExistsError"⟩ : Env String)
      (fun name => if name = "profiles.json" then some [0x7b, 0x7d] else none) =
      some ".profiles_k3_q8x2a.json.tmp" := by decide
  cases other with
  | mkstemp => simp [outcome, hname]
  | fsync => exact absurd rfl hother
  | _ => rfl

/-- **What another process reads** in the meantime is what the file held before or what the call
writes, when `load` reads what `encode` has written. -/
theorem load_writeAtomic (encode : ProfileDb → List Bytes) (load : Bytes → Option ProfileDb)
    (hload : ∀ data, load (encode data).flatten = some data) (now : String) (data old : ProfileDb)
    (hold : (readDb db s).bind load = some old) :
    ∀ t ∈ (writeAtomic env db (encode (ProfileStore.writeAtomic now data)) s).visited,
      (readDb db t).bind load = some old ∨
        (readDb db t).bind load = some (ProfileStore.writeAtomic now data) := by
  intro t ht
  have hdb : (s.dir db).isSome := by
    cases hdir : s.dir db with
    | none => simp [readDb, hdir] at hold
    | some bytes => rfl
  rcases (writeAtomic_ensures _ (Or.inl hdb)).visited t ht with hread | hread
  · rw [hread]
    exact Or.inl hold
  · rw [hread]
    exact Or.inr (hload _)

end AtomicWrite

end VirtualRsp.Gui
