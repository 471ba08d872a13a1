import Mathlib.Data.List.Infix
import VirtualRsp.Card.CommandBounds
import VirtualRsp.Foundations.Extends

/-!
# The memory behind a command

A command is followed in memory by whatever is there. What is read of it on a memory that ends where
the command ends (`parse`) is read on every longer one: the walkers go the same way. So a command
that is read inside its bounds is processed without regard to what follows it.

* `Longer`: more memory behind the same command.
* `readRequest_extends`: a handler's reads on a longer memory.
* `processEs10xCommand_eq`: what is processed does not depend on the memory behind a command that is
  read inside its bounds; `parse_of_processEs10xCommand`: what is processed on the memory of the
  command alone is read inside its bounds.
-/

namespace VirtualRsp.Card

/-! ## Pointers into a longer memory -/

/-- A pointer into a longer memory, with the same count of what is left. -/
def Continues (s t : Bytes × ℕ) : Prop := s.1 <+: t.1 ∧ s.2 = t.2

/-- The same command, with more memory behind it. -/
structure Longer (cmd cmd' : Command) : Prop where
  mem : cmd.mem <+: cmd'.mem
  len : cmd.len = cmd'.len

variable {p q : Bytes} {state : EuiccState} {cmd cmd' : Command}

theorem Longer.refl (cmd : Command) : Longer cmd cmd := ⟨List.prefix_rfl, rfl⟩

theorem Continues.drop (h : p <+: q) (k n : ℕ) : Continues (p.drop k, n) (q.drop k, n) :=
  ⟨h.drop k, rfl⟩

theorem skipLength_continues (h : p <+: q) (lenByte remaining : ℕ) :
    Continues (skipLength lenByte p remaining) (skipLength lenByte q remaining) := by
  unfold skipLength
  split_ifs
  · exact .drop h 1 _
  · exact .drop h 2 _
  · exact .drop h 3 _
  · exact ⟨h, rfl⟩

theorem scan_extends {β : Type*} {body body' : Bytes × ℕ → Option (Ctl (Bytes × ℕ) β)}
    (hbody : ∀ s t, Continues s t → Extends (Ctl.Rel Continues) (body s) (body' t)) (h : p <+: q)
    (remaining : ℕ) : Extends Eq (scan body p remaining) (scan body' q remaining) :=
  loop_extends hbody (Nat.add_le_add_right h.length_le 1) ⟨h, rfl⟩

/-! ## The walkers -/

theorem transactionIdBody_extends (default : Bytes) (s t : Bytes × ℕ) (h : Continues s t) :
    Extends (Ctl.Rel Continues) (transactionIdBody default s) (transactionIdBody default t) := by
  obtain ⟨p, remaining⟩ := s
  obtain ⟨q, _⟩ := t
  obtain ⟨hpq, rfl⟩ := h
  refine .ite (fun _ => .value (.done default)) fun _ => (readAt_extends hpq 0).bind ?_
  rintro tag _ rfl
  refine (readAt_extends hpq 1).bind ?_
  rintro len _ rfl
  refine .ite (fun _ => ?_) fun _ => .ite (fun _ => .value (.done default)) fun _ => ?_
  · refine (readN_extends (hpq.drop 2) len).bind ?_
    rintro v _ rfl
    exact .value (.done v)
  · exact .value (.next (.drop hpq _ _))

/-- The search in the memory of `smdpSigned2` goes the way of the search in all of it. -/
theorem findSmdpSigned2Body_extends (transactionId : Bytes) (s t : Bytes × ℕ)
    (h : Continues s t) : Extends (Ctl.Rel Continues) (smdpSigned2Inside transactionId s)
      (findSmdpSigned2Body transactionId t) := by
  obtain ⟨p, remaining⟩ := s
  obtain ⟨q, _⟩ := t
  obtain ⟨hpq, rfl⟩ := h
  replace hpq : p <+: q := hpq
  refine .ite (fun _ => .value (.done transactionId)) fun _ => (readAt_extends hpq 0).bind ?_
  rintro b _ rfl
  refine .ite (fun _ => (readAt_extends hpq 1).bind ?_) fun _ => .value (.next (.drop hpq 1 _))
  rintro len _ rfl
  refine .ite (fun _ => ?_) fun _ => .value (.done transactionId)
  refine (scan_extends (transactionIdBody_extends transactionId)
    ((List.take_prefix len _).trans (hpq.drop 2)) len).bind ?_
  rintro tid _ rfl
  exact .value (.done tid)

/-- A walk over fields with its accumulator. -/
def ContinuesWith {α : Type} (s t : (Bytes × ℕ) × α) : Prop := Continues s.1 t.1 ∧ s.2 = t.2

theorem walkFields_extends {α : Type} {act : ℕ → ℕ → Bytes → α → Option (Ctl α α)}
    (hact : ∀ tag len p q acc, p <+: q → Extends Eq (act tag len p acc) (act tag len q acc))
    (h : p <+: q) (remaining : ℕ) (acc : α) :
    Extends Eq (walkFields act p remaining acc) (walkFields act q remaining acc) := by
  refine loop_extends (R := ContinuesWith) ?_ (Nat.add_le_add_right h.length_le 1) ⟨⟨h, rfl⟩, rfl⟩
  rintro ⟨⟨p, remaining⟩, acc⟩ ⟨⟨q, _⟩, _⟩ ⟨⟨hpq, rfl⟩, rfl⟩
  replace hpq : p <+: q := hpq
  refine .ite (fun _ => .value (.done acc)) fun _ => (readAt_extends hpq 0).bind ?_
  rintro tag _ rfl
  refine (readAt_extends hpq 1).bind ?_
  rintro len _ rfl
  refine .ite (fun _ => .value (.done acc)) fun _ => ?_
  refine (hact tag len _ _ acc (hpq.drop 2)).bind ?_
  rintro ctl _ rfl
  cases ctl with
  | done acc => exact .value (.done acc)
  | next acc => exact .value (.next ⟨.drop hpq _ _, rfl⟩)

theorem serverSigned1Field_extends (tag len : ℕ) (p q : Bytes) (acc : ServerSigned1)
    (h : p <+: q) :
    Extends Eq (serverSigned1Field tag len p acc) (serverSigned1Field tag len q acc) := by
  have hmap : ∀ (n : ℕ) (f : Bytes → Ctl ServerSigned1 ServerSigned1),
      Extends Eq ((readN p n).map f) ((readN q n).map f) :=
    fun n => (readN_extends h n).map_eq
  exact .ite (fun _ => hmap _ _) fun _ => .ite (fun _ => hmap _ _) fun _ =>
    .ite (fun _ => hmap _ _) fun _ => .value rfl

theorem findServerSigned1Body_extends (acc : ServerSigned1) (s t : Bytes × ℕ)
    (h : Continues s t) : Extends (Ctl.Rel Continues) (findServerSigned1Body acc s)
      (findServerSigned1Body acc t) := by
  obtain ⟨p, remaining⟩ := s
  obtain ⟨q, _⟩ := t
  obtain ⟨hpq, rfl⟩ := h
  replace hpq : p <+: q := hpq
  refine .ite (fun _ => .value (.done acc)) fun _ => (readAt_extends hpq 0).bind ?_
  rintro b _ rfl
  refine .ite (fun _ => (readAt_extends hpq 1).bind ?_) fun _ => .value (.next (.drop hpq 1 _))
  rintro len _ rfl
  refine .ite (fun _ => ?_) fun _ => .value (.done acc)
  refine (walkFields_extends serverSigned1Field_extends (hpq.drop 2) len acc).bind ?_
  rintro acc _ rfl
  exact .value (.done acc)

theorem ctxParams1Field_extends (tag len : ℕ) (p q : Bytes) (acc : Option Bytes) (h : p <+: q) :
    Extends Eq (ctxParams1Field tag len p acc) (ctxParams1Field tag len q acc) :=
  .ite (fun _ => (readN_extends h len).map_eq _) fun _ => .value rfl

theorem findMatchingIdBody_extends (s t : Bytes × ℕ) (h : Continues s t) :
    Extends (Ctl.Rel Continues) (findMatchingIdBody s) (findMatchingIdBody t) := by
  obtain ⟨p, remaining⟩ := s
  obtain ⟨q, _⟩ := t
  obtain ⟨hpq, rfl⟩ := h
  replace hpq : p <+: q := hpq
  have hnext : Extends (Ctl.Rel (β := Option Bytes) Continues)
      (some (.next (p.drop 1, remaining - 1))) (some (.next (q.drop 1, remaining - 1))) :=
    .value (.next (.drop hpq 1 _))
  refine .ite (fun _ => .value (.done none)) fun _ => (readAt_extends hpq 0).bind ?_
  rintro b _ rfl
  refine .ite (fun _ => (readAt_extends hpq 1).bind ?_) fun _ => hnext
  rintro len _ rfl
  refine .ite (fun _ => ?_) fun _ => hnext
  refine (walkFields_extends ctxParams1Field_extends (hpq.drop 2) len none).bind ?_
  rintro found _ rfl
  cases found with
  | some matchingId => exact .value (.done (some matchingId))
  | none => exact hnext

theorem smdpOtpkAt_extends (h : p <+: q) (remaining : ℕ) :
    Extends Eq (smdpOtpkAt p remaining) (smdpOtpkAt q remaining) := by
  refine (readAt_extends h 0).bind ?_
  rintro a _ rfl
  refine (readAt_extends h 1).bind ?_
  rintro b _ rfl
  refine .ite (fun _ => (readAt_extends h 2).bind ?_) fun _ => .value rfl
  rintro len _ rfl
  refine .ite (fun _ => (readN_extends (h.drop 3) len).bind ?_) fun _ => .value rfl
  rintro v _ rfl
  exact .value rfl

theorem smdpOtpkBody_extends (s t : Bytes × ℕ) (h : Continues s t) :
    Extends (Ctl.Rel Continues) (smdpOtpkBody s) (smdpOtpkBody t) := by
  obtain ⟨p, remaining⟩ := s
  obtain ⟨q, _⟩ := t
  obtain ⟨hpq, rfl⟩ := h
  replace hpq : p <+: q := hpq
  refine .ite (fun _ => .value (.done none)) fun _ => (smdpOtpkAt_extends hpq remaining).bind ?_
  rintro found _ rfl
  cases found with
  | some smdpOtpk => exact .value (.done (some smdpOtpk))
  | none =>
    refine (readAt_extends hpq 1).bind ?_
    rintro skipLen _ rfl
    exact .ite (fun _ => .value (.next (.drop hpq 1 _))) fun _ => .value (.next (.drop hpq _ _))

theorem smdpSignature2At_extends (h : Longer cmd cmd') (i : ℕ) :
    Extends Eq (smdpSignature2At cmd i) (smdpSignature2At cmd' i) := by
  unfold smdpSignature2At
  rw [← h.len]
  refine (readAt_extends h.mem i).bind ?_
  rintro a _ rfl
  refine .ite (fun _ => .value rfl) fun _ => (readAt_extends h.mem (i + 1)).bind ?_
  rintro b _ rfl
  refine .ite (fun _ => .value rfl) fun _ => (readAt_extends h.mem (i + 2)).bind ?_
  rintro len _ rfl
  refine .ite (fun _ => (readN_extends (h.mem.drop (i + 3)) len).bind ?_) fun _ => .value rfl
  rintro v _ rfl
  exact .value rfl

theorem findSmdpSignature2_extends (h : Longer cmd cmd') :
    Extends Eq (findSmdpSignature2 cmd) (findSmdpSignature2 cmd') := by
  refine (loop_extends (R := Eq) ?_ (Nat.add_le_add_right h.mem.length_le 1) rfl).map_eq _
  rintro i _ rfl
  rw [findSmdpSignature2Body, findSmdpSignature2Body, ← h.len]
  refine .ite (fun _ => .value (.done none)) fun _ => (smdpSignature2At_extends h i).bind ?_
  rintro found _ rfl
  cases found with
  | some sig => exact .value (.done (some sig))
  | none => exact .value (.next rfl)

theorem targetField_extends (tag len : ℕ) (h : p <+: q) (target : Target) :
    Extends Eq (targetField tag len p target) (targetField tag len q target) :=
  .ite (fun _ => (readN_extends h len).map_eq _) fun _ =>
    .ite (fun _ => (readN_extends h len).map_eq _) fun _ => .value rfl

theorem innerTag_extends (h : p <+: q) : Extends Eq (innerTag p) (innerTag q) := by
  refine (readAt_extends h 0).bind ?_
  rintro t₀ _ rfl
  refine .ite (fun _ => (readAt_extends h 1).bind ?_) fun _ => .value rfl
  rintro t₁ _ rfl
  exact .value rfl

theorem innerLen_extends (h : p <+: q) (remaining : ℕ) :
    Extends Eq (innerLen p remaining) (innerLen q remaining) := by
  refine (readAt_extends h 0).bind ?_
  rintro l₀ _ rfl
  refine .ite (fun _ => (readAt_extends h 1).bind ?_) fun _ => .ite (fun _ => ?_) fun _ =>
    .value rfl
  · rintro l₁ _ rfl
    exact .value rfl
  · refine (readAt_extends h 1).bind ?_
    rintro l₁ _ rfl
    refine (readAt_extends h 2).bind ?_
    rintro l₂ _ rfl
    exact .value rfl

theorem parseTargetBody_extends (s t : (Bytes × ℕ) × Target) (h : ContinuesWith s t) :
    Extends (Ctl.Rel ContinuesWith) (parseTargetBody s) (parseTargetBody t) := by
  obtain ⟨⟨p, remaining⟩, target⟩ := s
  obtain ⟨⟨q, _⟩, _⟩ := t
  obtain ⟨⟨hpq, rfl⟩, rfl⟩ := h
  replace hpq : p <+: q := hpq
  refine .ite (fun _ => .value (.done target)) fun _ => (innerTag_extends hpq).bind ?_
  rintro ⟨tag, tagLen⟩ _ rfl
  refine .ite (fun _ => .value (.done target)) fun _ =>
    (innerLen_extends (hpq.drop tagLen) _).bind ?_
  rintro ⟨len, lenBytes⟩ _ rfl
  refine .ite (fun _ => .value (.done target)) fun _ =>
    (targetField_extends tag len ((hpq.drop tagLen).drop lenBytes) target).bind ?_
  rintro target _ rfl
  exact .value (.next ⟨.drop ((hpq.drop tagLen).drop lenBytes) _ _, rfl⟩)

/-! ## Finding out the command -/

theorem bf23Content_extends (h : Longer cmd cmd') :
    Extends Continues (bf23Content cmd) (bf23Content cmd') := by
  have hall : Extends Continues (some (cmd.mem, cmd.len)) (some (cmd'.mem, cmd.len)) :=
    .value ⟨h.mem, rfl⟩
  unfold bf23Content
  rw [← h.len]
  refine .ite (fun _ => hall) fun _ => (readAt_extends h.mem 0).bind ?_
  rintro b₀ _ rfl
  refine .ite (fun _ => hall) fun _ => (readAt_extends h.mem 1).bind ?_
  rintro b₁ _ rfl
  refine .ite (fun _ => hall) fun _ => (readAt_extends h.mem 2).bind ?_
  rintro lenByte _ rfl
  exact .value (skipLength_continues (h.mem.drop 2) _ _)

theorem segmentData_extends (h : Longer cmd cmd') :
    Extends Eq (segmentData cmd) (segmentData cmd') := by
  unfold segmentData
  rw [← h.len]
  refine .ite (fun _ => .value rfl) fun _ => (readAt_extends h.mem 1).bind ?_
  rintro dataLen _ rfl
  exact .ite (fun _ => .value rfl) fun _ => readN_extends (h.mem.drop 2) dataLen

theorem parseTarget_extends (h : Longer cmd cmd') :
    Extends Eq (parseTarget cmd) (parseTarget cmd') := by
  unfold parseTarget
  rw [← h.len]
  have hptr : Extends Continues
      (if 0 < sub32 cmd.len 2 then (readAt (cmd.mem.drop 2) 0).map fun lenByte =>
          skipLength lenByte (cmd.mem.drop 2) (sub32 cmd.len 2)
        else some (cmd.mem.drop 2, sub32 cmd.len 2))
      (if 0 < sub32 cmd.len 2 then (readAt (cmd'.mem.drop 2) 0).map fun lenByte =>
          skipLength lenByte (cmd'.mem.drop 2) (sub32 cmd.len 2)
        else some (cmd'.mem.drop 2, sub32 cmd.len 2)) := by
    refine .ite (fun _ => (readAt_extends (h.mem.drop 2) 0).map ?_)
      fun _ => .value (.drop h.mem 2 _)
    rintro lenByte _ rfl
    exact skipLength_continues (h.mem.drop 2) _ _
  refine hptr.bind ?_
  rintro ⟨p, remaining⟩ ⟨q, _⟩ ⟨hpq, rfl⟩
  exact loop_extends parseTargetBody_extends (Nat.add_le_add_right hpq.length_le 1)
    ⟨⟨hpq, rfl⟩, rfl⟩

theorem commandTag_extends (h : Longer cmd cmd') :
    Extends Eq (commandTag cmd) (commandTag cmd') := by
  refine (readAt_extends h.mem 0).bind ?_
  rintro t _ rfl
  refine .ite (fun _ => (readAt_extends h.mem 1).bind ?_) fun _ => .value rfl
  rintro t' _ rfl
  exact .value rfl

/-- The same command with more memory behind it, and the same tag or kind. -/
def LongerWith {α : Type} (c c' : Command × α) : Prop := Longer c.1 c'.1 ∧ c.2 = c'.2

theorem unwrapBf36_extends (h : Longer cmd cmd') :
    Extends LongerWith (unwrapBf36 cmd) (unwrapBf36 cmd') := by
  have hall : Extends LongerWith (some (cmd, 0xBF36)) (some (cmd', 0xBF36)) :=
    .value ⟨h, rfl⟩
  unfold unwrapBf36
  rw [← h.len]
  refine (readN_extends h.mem _).bind ?_
  rintro head _ rfl
  refine .ite (fun _ => hall) fun _ => (readAt_extends (h.mem.drop 2) 0).bind ?_
  rintro lenByte _ rfl
  have hinner := skipLength_continues (h.mem.drop 2) lenByte (cmd.len - 2)
  generalize skipLength lenByte (cmd.mem.drop 2) (cmd.len - 2) = s at hinner ⊢
  generalize skipLength lenByte (cmd'.mem.drop 2) (cmd.len - 2) = t at hinner ⊢
  obtain ⟨p, remaining⟩ := s
  obtain ⟨q, _⟩ := t
  obtain ⟨hpq, rfl⟩ := hinner
  have hlonger : Longer ⟨p, remaining⟩ ⟨q, remaining⟩ := ⟨hpq, rfl⟩
  refine .ite (fun _ => hall) fun _ => (commandTag_extends hlonger).bind ?_
  rintro tag _ rfl
  refine (readN_extends hpq _).bind ?_
  rintro head _ rfl
  exact .value ⟨hlonger, rfl⟩

theorem decodeCommand_extends (h : Longer cmd cmd') :
    Extends LongerWith (decodeCommand cmd) (decodeCommand cmd') := by
  refine (commandTag_extends h).bind ?_
  rintro tag _ rfl
  have hplain : Extends LongerWith (some (cmd, tag)) (some (cmd', tag)) := .value ⟨h, rfl⟩
  refine Extends.bind (.ite (fun _ => unwrapBf36_extends h) fun _ => hplain) ?_
  rintro ⟨cmd, tag⟩ ⟨cmd', _⟩ ⟨hlonger, rfl⟩
  exact .value ⟨hlonger, rfl⟩

theorem findServerSigned1_extends (h : Longer cmd cmd') (state : EuiccState) :
    Extends Eq (findServerSigned1 state cmd) (findServerSigned1 state cmd') := by
  rw [findServerSigned1, findServerSigned1, ← h.len]
  exact scan_extends (findServerSigned1Body_extends _) h.mem cmd.len

theorem findMatchingId_extends (h : Longer cmd cmd') :
    Extends Eq (findMatchingId cmd) (findMatchingId cmd') := by
  rw [findMatchingId, findMatchingId, ← h.len]
  exact (scan_extends findMatchingIdBody_extends h.mem cmd.len).map_eq _

theorem findTransactionId_extends (h : Longer cmd cmd') (state : EuiccState) :
    Extends Eq (scan (smdpSigned2Inside state.transactionId) cmd.mem cmd.len)
      (findTransactionId state cmd') := by
  rw [findTransactionId, ← h.len]
  exact scan_extends (findSmdpSigned2Body_extends _) h.mem cmd.len

/-! ## Processing -/

theorem isSome_bind_iff {α β : Type} {x : Option α} {f : α → Option β} :
    (x.bind f).isSome ↔ ∃ a, x = some a ∧ (f a).isSome := by
  cases x <;> simp

theorem initialiseSecureChannel_eq (h : Longer cmd cmd') (hread : (readBf23 state cmd).isSome)
    (env : Env) :
    initialiseSecureChannel env state cmd' = initialiseSecureChannel env state cmd := by
  obtain ⟨⟨p, remaining⟩, hcontent, hread⟩ := isSome_bind_iff.1 hread
  obtain ⟨⟨q, _⟩, hcontent', hpq, rfl⟩ := bf23Content_extends h _ hcontent
  obtain ⟨tid, htid, hread⟩ := isSome_bind_iff.1 hread
  obtain ⟨_, htid', rfl⟩ := scan_extends (transactionIdBody_extends []) hpq _ _ htid
  unfold initialiseSecureChannel
  simp only [hcontent, hcontent', Option.bind_eq_bind, Option.bind_some, htid, htid']
  by_cases hne : tid ≠ state.transactionId
  · rw [if_pos hne, if_pos hne]
  · rw [if_neg hne] at hread ⊢
    rw [if_neg hne, (scan_extends smdpOtpkBody_extends hpq _).eq_of_isSome hread]

/-- **A handler** does the same with more memory behind a command that it reads inside its
bounds. -/
theorem handle_eq (h : Longer cmd cmd') {c : Es10xCommand}
    (hread : (readRequest state cmd c).isSome) (env : Env) :
    c.handle env state cmd' = c.handle env state cmd := by
  have hmanage : ∀ {tag step}, (parseTarget cmd).isSome →
      manageProfile tag step state cmd' = manageProfile tag step state cmd := by
    intro tag step hs
    rw [manageProfile, manageProfile, (parseTarget_extends h).eq_of_isSome hs]
  have hstore : (segmentData cmd).isSome → storeSegment state cmd' = storeSegment state cmd := by
    intro hs
    rw [storeSegment, storeSegment, (segmentData_extends h).eq_of_isSome hs]
  cases c with
  | authenticateServer =>
    obtain ⟨hfields, hid⟩ := (isSome_both _ _).1 hread
    have hfields' : findServerSigned1 state cmd' = findServerSigned1 state cmd :=
      (findServerSigned1_extends h state).eq_of_isSome hfields
    have hid' : findMatchingId cmd' = findMatchingId cmd :=
      (findMatchingId_extends h).eq_of_isSome hid
    change authenticateServer env state cmd' = authenticateServer env state cmd
    rw [authenticateServer, authenticateServer, hfields', hid']
  | prepareDownload =>
    obtain ⟨hsigned2, hsignature⟩ := (isSome_both _ _).1 hread
    have hid : findTransactionId state cmd' = findTransactionId state cmd :=
      ((findTransactionId_extends h state).eq_of_isSome hsigned2).trans
        ((findTransactionId_extends (.refl cmd) state).eq_of_isSome hsigned2).symm
    have hsignature' : findSmdpSignature2 cmd' = findSmdpSignature2 cmd :=
      (findSmdpSignature2_extends h).eq_of_isSome hsignature
    change prepareDownload env state cmd' = prepareDownload env state cmd
    rw [prepareDownload, prepareDownload, hid, hsignature']
  | initialiseSecureChannel =>
    exact initialiseSecureChannel_eq h (by simpa [readRequest] using hread) env
  | bppData =>
    change bppData state cmd' = bppData state cmd
    rw [bppData, bppData, hstore (by simpa [readRequest] using hread)]
  | sequenceOf86 =>
    change sequenceOf86 env state cmd' = sequenceOf86 env state cmd
    rw [sequenceOf86, sequenceOf86, hstore (by simpa [readRequest] using hread)]
  | enableProfile => exact hmanage (by simpa [readRequest] using hread)
  | disableProfile => exact hmanage (by simpa [readRequest] using hread)
  | deleteProfile => exact hmanage (by simpa [readRequest] using hread)
  | _ => rfl

/-- A handler that goes through has read its request. -/
theorem readRequest_of_handle {c : Es10xCommand} {env : Env} (hne : c ≠ .prepareDownload)
    (hne' : c ≠ .unsupported) (h : (c.handle env state cmd).isSome) :
    (readRequest state cmd c).isSome := by
  have hmanage : ∀ {tag step}, (manageProfile tag step state cmd).isSome →
      ((parseTarget cmd).map fun _ => ()).isSome := by
    intro tag step hs
    obtain ⟨target, htarget, -⟩ := isSome_bind_iff.1 hs
    rw [htarget]
    rfl
  have hstore : (storeSegment state cmd).isSome → ((segmentData cmd).map fun _ => ()).isSome := by
    intro hs
    obtain ⟨data, hdata, -⟩ := isSome_bind_iff.1 hs
    rw [hdata]
    rfl
  cases c with
  | prepareDownload => exact absurd rfl hne
  | unsupported => exact absurd rfl hne'
  | authenticateServer =>
    obtain ⟨fields, hfields, h⟩ := isSome_bind_iff.1 h
    obtain ⟨matchingId, hid, -⟩ := isSome_bind_iff.1 h
    exact (isSome_both _ _).2 ⟨hfields ▸ rfl, hid ▸ rfl⟩
  | initialiseSecureChannel =>
    obtain ⟨⟨p, remaining⟩, hcontent, h⟩ := isSome_bind_iff.1 h
    obtain ⟨tid, htid, h⟩ := isSome_bind_iff.1 h
    simp only [readRequest, readBf23, hcontent, htid, Option.bind_eq_bind, Option.bind_some,
      Option.isSome_map]
    by_cases htransaction : tid ≠ state.transactionId
    · rw [if_pos htransaction]
      rfl
    · rw [if_neg htransaction] at h ⊢
      obtain ⟨found, hfound, -⟩ := isSome_bind_iff.1 h
      rw [hfound]
      rfl
  | bppData =>
    obtain ⟨s, hs, -⟩ := isSome_bind_iff.1 h
    exact hstore (hs ▸ rfl)
  | sequenceOf86 =>
    obtain ⟨s, hs, -⟩ := isSome_bind_iff.1 h
    exact hstore (hs ▸ rfl)
  | enableProfile => exact hmanage h
  | disableProfile => exact hmanage h
  | deleteProfile => exact hmanage h
  | _ => rfl

/-- **Processing.** A command that is read inside its bounds is processed without regard to the
memory behind it. -/
theorem processEs10xCommand_eq {data : Bytes} (h : (parse state data).isSome) (env : Env) :
    processEs10xCommand env state (.ofBytes env data) =
      processEs10xCommand env state ⟨data, data.length⟩ := by
  have hlonger : Longer ⟨data, data.length⟩ (.ofBytes env data) := ⟨⟨env.trailing, rfl⟩, rfl⟩
  unfold processEs10xCommand
  rw [← hlonger.len]
  dsimp only
  unfold parse at h
  by_cases h2 : data.length < 2
  · rw [if_pos h2, if_pos h2]
  rw [if_neg h2] at h
  rw [if_neg h2, if_neg h2]
  obtain ⟨⟨cmd, c⟩, hdecode, hread⟩ := isSome_bind_iff.1 h
  obtain ⟨⟨cmd', _⟩, hdecode', hlonger, rfl⟩ := decodeCommand_extends hlonger _ hdecode
  simp only [hdecode, hdecode', Option.bind_eq_bind, Option.bind_some]
  by_cases hc : c = .unsupported
  · rw [if_pos hc, if_pos hc]
    subst hc
    have hread : (readN cmd.mem (min cmd.len 16)).isSome := by
      simpa [readRequest] using hread
    rw [← hlonger.len, (readN_extends hlonger.mem _).eq_of_isSome hread]
  · rw [if_neg hc, if_neg hc, handle_eq hlonger hread]

/-- **Reading.** What is processed on the memory of the command alone is read inside its bounds. The
handler of `BF21` alone may leave `smdpSigned2` and stay in the command. -/
theorem parse_of_processEs10xCommand {env : Env} {data : Bytes}
    (h : (processEs10xCommand env state ⟨data, data.length⟩).isSome)
    (hne : ∀ cmd, decodeCommand ⟨data, data.length⟩ ≠ some (cmd, .prepareDownload)) :
    (parse state data).isSome := by
  unfold processEs10xCommand at h
  unfold parse
  dsimp only at h
  by_cases h2 : data.length < 2
  · rw [if_pos h2]
    rfl
  rw [if_neg h2] at h ⊢
  obtain ⟨⟨cmd, c⟩, hdecode, h⟩ := isSome_bind_iff.1 h
  rw [hdecode, Option.bind_eq_bind, Option.bind_some]
  by_cases hc : c = .unsupported
  · subst hc
    obtain ⟨head, hhead, -⟩ := isSome_bind_iff.1 h
    simp only [readRequest, hhead, Option.map_some, Option.isSome_some]
  · rw [if_neg hc] at h
    obtain ⟨r, hhandle, -⟩ := isSome_bind_iff.1 h
    exact readRequest_of_handle (fun he => hne cmd (he ▸ hdecode)) hc
      (Option.isSome_iff_exists.2 ⟨r, hhandle⟩)

end VirtualRsp.Card
