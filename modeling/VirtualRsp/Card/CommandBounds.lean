import VirtualRsp.Card.SecureChannel

/-!
# Reading inside a command

What the card reads of a command, on a memory that ends where the command ends: a read behind the
end is then a fault, and so is a counter that has wrapped, since the next read goes behind the end.
Most of the walkers compare a length with what is left, but not all of them.

* `readRequest`, `parse`: the reads of a handler, and of the processing of a command.
* `FirstIdentifier`, `SignedFieldsFit`, `MatchingIdWalk`, ...: the commands a walker stays
  inside of.
* `parse_isSome_iff`: the processing of a command stays inside it exactly if the lengths fit.
-/

namespace VirtualRsp.Card

open Run

variable {state : EuiccState} {data fields : Bytes}

/-! ## The reads of a command -/

/-- One round of the search for `smdpSigned2`, on a memory that ends with `smdpSigned2` once it is
found, so that the counter of the inner walk cannot wrap without a fault. -/
def smdpSigned2Inside (transactionId : Bytes) : Bytes × ℕ → Option (Ctl (Bytes × ℕ) Bytes)
  | (ptr, remaining) =>
    if remaining ≤ 2 then some (.done transactionId)
    else do
      let b ← readAt ptr 0
      if b = 0x30 then
        let len ← readAt ptr 1
        if len < 0x80 ∧ 2 + len ≤ remaining then
          return .done (← scan (transactionIdBody transactionId) ((ptr.drop 2).take len) len)
        else return .done transactionId
      else return .next (ptr.drop 1, remaining - 1)

/-- What a handler reads of a command. -/
def readRequest (state : EuiccState) (cmd : Command) : Es10xCommand → Option Unit
  | .authenticateServer => do
    let _ ← findServerSigned1 state cmd
    let _ ← findMatchingId cmd
    return ()
  | .prepareDownload => do
    let _ ← scan (smdpSigned2Inside state.transactionId) cmd.mem cmd.len
    let _ ← findSmdpSignature2 cmd
    return ()
  | .initialiseSecureChannel => (readBf23 state cmd).map fun _ => ()
  | .bppData | .sequenceOf86 => (segmentData cmd).map fun _ => ()
  | .enableProfile | .disableProfile | .deleteProfile => (parseTarget cmd).map fun _ => ()
  | .unsupported => (readN cmd.mem (min cmd.len 16)).map fun _ => ()
  | _ => some ()

/-- What is read of a command while it is processed, on a memory that ends with the command. -/
def parse (state : EuiccState) (data : Bytes) : Option Unit :=
  if data.length < 2 then some ()
  else do
    let (cmd, es10x) ← decodeCommand ⟨data, data.length⟩
    readRequest state cmd es10x

/-! ## The walk to a transaction identifier -/

/-- The first field `80` of at most 16 bytes, over fields that lie inside; a default if there is
none before the end or a long length. -/
inductive FirstIdentifier (default : Bytes) : Bytes → Bytes → Prop
  | short {fields : Bytes} (h : fields.length ≤ 2) : FirstIdentifier default fields default
  | found {len : UInt8} {v : Bytes} (rest : Bytes) (hlen : v.length = len.toNat)
    (h16 : v.length ≤ 16) (hpos : 0 < v.length + rest.length) :
    FirstIdentifier default (0x80 :: len :: (v ++ rest)) v
  | long (t : UInt8) {len : UInt8} (rest : Bytes) (hlong : 0x80 ≤ len.toNat) :
    FirstIdentifier default (t :: len :: rest) default
  | next {t len : UInt8} {v rest tid : Bytes} (hne : ¬ (t = 0x80 ∧ v.length ≤ 16))
    (hlen : v.length = len.toNat) (hshort : len.toNat < 0x80) (hpos : 0 < v.length + rest.length)
    (h : FirstIdentifier default rest tid) :
    FirstIdentifier default (t :: len :: (v ++ rest)) tid

/-- Two bytes and what follows them. -/
theorem exists_cons_cons (h : 2 ≤ fields.length) : ∃ a b rest, fields = a :: b :: rest := by
  match fields, h with
  | a :: b :: rest, _ => exact ⟨a, b, rest, rfl⟩

/-- The value of a field that fits, and what follows it. -/
theorem exists_append {rest : Bytes} {n : ℕ} (h : n ≤ rest.length) :
    ∃ v rest', rest = v ++ rest' ∧ v.length = n :=
  ⟨rest.take n, rest.drop n, (List.take_append_drop n rest).symm, by
    rw [List.length_take]
    omega⟩

/-- Behind the end of the memory a walk faults. -/
theorem loop_transactionIdBody_nil {default : Bytes} {remaining n : ℕ} (h : 2 < remaining) :
    loop (transactionIdBody default) n ([], remaining) = none := by
  cases n with
  | zero => rfl
  | succ n =>
    refine loop_fault ?_ n
    rw [transactionIdBody, if_neg (by omega)]
    rfl

/-- A field that reaches beyond the end leads there. -/
theorem transactionIdBody_over (default : Bytes) {rest : Bytes} (t : UInt8) {len : UInt8}
    (hpos : 0 < rest.length) (hover : rest.length < len.toNat) (hshort : len.toNat < 0x80) :
    ∃ remaining, 2 < remaining ∧
      transactionIdBody default (walkAt (t :: len :: rest) []) = some (.next ([], remaining)) := by
  have hwrap : ¬ 2 + len.toNat ≤ rest.length + 1 + 1 := by omega
  refine ⟨sub32 (rest.length + 1 + 1) (2 + len.toNat), ?_, ?_⟩
  · rw [sub32, if_neg hwrap]
    omega
  · have hdrop : (t :: len :: rest).drop (2 + len.toNat) = [] :=
      List.drop_eq_nil_of_le (by simp only [List.length_cons]; omega)
    rw [walkAt, List.append_nil, transactionIdBody, List.length_cons, List.length_cons,
      if_neg (by omega)]
    simp only [readAt_cons_zero, readAt_cons_succ, Option.bind_eq_bind, Option.bind_some]
    rw [if_neg fun h => hwrap h.2.2, if_neg (by omega), hdrop]
    rfl

theorem firstIdentifier_of_loop {default tid : Bytes} {n : ℕ}
    (h : loop (transactionIdBody default) n (walkAt fields []) = some tid) :
    FirstIdentifier default fields tid := by
  induction n generalizing fields with
  | zero => cases h
  | succ n ih =>
    by_cases h2 : fields.length ≤ 2
    · rw [loop_done (transactionIdBody_short h2)] at h
      cases h
      exact .short h2
    obtain ⟨t, len, rest, rfl⟩ := exists_cons_cons (show 2 ≤ fields.length by omega)
    simp only [List.length_cons] at h2
    by_cases hlong : 0x80 ≤ len.toNat
    · rw [loop_done (transactionIdBody_long hlong)] at h
      cases h
      exact .long t rest hlong
    by_cases hover : rest.length < len.toNat
    · obtain ⟨remaining, hbig, hbody⟩ :=
        transactionIdBody_over default t (by omega) hover (by omega)
      rw [loop_next hbody, loop_transactionIdBody_nil hbig] at h
      cases h
    obtain ⟨v, rest, rfl, hlen⟩ := exists_append (not_lt.1 hover)
    rw [List.length_append] at h2
    have hbody : transactionIdBody default (walkAt (t :: len :: (v ++ rest)) []) = _ :=
      transactionIdBody_field (by omega) hlen (by omega)
    by_cases hfound : t = 0x80 ∧ v.length ≤ 16
    · obtain ⟨rfl, h16⟩ := hfound
      rw [if_pos ⟨rfl, h16⟩] at hbody
      rw [loop_done hbody] at h
      cases h
      exact .found rest hlen h16 (by omega)
    · rw [if_neg hfound] at hbody
      rw [loop_next hbody] at h
      exact .next hfound hlen (by omega) (by omega) (ih h)

theorem FirstIdentifier.loop_eq {default tid : Bytes} (h : FirstIdentifier default fields tid)
    (trailing : Bytes) :
    ∀ n, fields.length < n →
      loop (transactionIdBody default) n (walkAt fields trailing) = some tid := by
  induction h with
  | short h2 =>
    intro n hn
    exact loop_of_done (transactionIdBody_short h2) (by omega)
  | @found len v rest hlen h16 hpos =>
    intro n hn
    refine loop_of_done ?_ (by omega)
    rw [transactionIdBody_field hpos hlen (by omega), if_pos ⟨rfl, h16⟩]
  | long t rest hlong =>
    intro n hn
    exact loop_of_done (transactionIdBody_long hlong) (by omega)
  | @next t len v rest tid hne hlen hshort hpos h ih =>
    intro n hn
    simp only [List.length_cons, List.length_append] at hn
    rw [loop_of_next (by rw [transactionIdBody_field hpos hlen hshort, if_neg hne]) (by omega)]
    exact ih (n - 1) (by omega)

/-- **The walk to a transaction identifier**, over a memory that ends with the fields. -/
theorem scan_transactionIdBody_iff {default tid : Bytes} :
    scan (transactionIdBody default) fields fields.length = some tid ↔
      FirstIdentifier default fields tid := by
  have hscan : scan (transactionIdBody default) fields fields.length =
      loop (transactionIdBody default) (fields.length + 1) (walkAt fields []) := by
    rw [scan, walkAt, List.append_nil]
  rw [hscan]
  exact ⟨firstIdentifier_of_loop, fun h => h.loop_eq [] _ (Nat.lt_succ_self _)⟩

/-! ## The walk to the server's key -/

/-- The walk to the server's one-time key comes to one or to the end before a field reaches beyond
the end. -/
inductive OtpkInside : Bytes → Prop
  | short {fields : Bytes} (h : fields.length ≤ 3) : OtpkInside fields
  | found {len : UInt8} {v : Bytes} (rest : Bytes) (hlen : v.length = len.toNat)
    (hshort : len.toNat < 0x80) : OtpkInside (0x5F :: 0x49 :: len :: (v ++ rest))
  | next (t : UInt8) {len : UInt8} {v rest : Bytes} (hlen : v.length = len.toNat)
    (hshort : len.toNat < 0x80) (h : OtpkInside rest) : OtpkInside (t :: len :: (v ++ rest))
  | byte (t : UInt8) {len : UInt8} {rest : Bytes} (hlong : 0x80 ≤ len.toNat)
    (h : OtpkInside (len :: rest)) : OtpkInside (t :: len :: rest)

/-- **At a field** that can be read, there is a key that lies in the request, or none. -/
theorem smdpOtpkAt_cases (trailing : Bytes) (h3 : 3 < fields.length) :
    smdpOtpkAt (fields ++ trailing) fields.length = some none ∨
      ∃ smdpOtpk, smdpOtpkAt (fields ++ trailing) fields.length = some (some smdpOtpk) ∧
        OtpkInside fields := by
  obtain ⟨a, b, rest, rfl⟩ := exists_cons_cons (show 2 ≤ fields.length by omega)
  obtain ⟨len, rest, rfl⟩ := List.exists_cons_of_length_pos (l := rest) (by simp at h3; omega)
  by_cases htag : a = 0x5F ∧ b = 0x49
  · obtain ⟨rfl, rfl⟩ := htag
    by_cases hfits : len.toNat < 0x80 ∧ len.toNat ≤ rest.length
    · obtain ⟨v, rest, rfl, hlen⟩ := exists_append hfits.2
      refine .inr ⟨v, ?_, .found rest hlen hfits.1⟩
      simp only [List.cons_append, List.append_assoc]
      exact smdpOtpkAt_found hlen hfits.1
        (by simp only [List.length_cons, List.length_append]; omega)
    · refine .inl ?_
      simp only [smdpOtpkAt, List.cons_append, readAt_cons_zero, readAt_cons_succ,
        Option.bind_eq_bind, Option.bind_some, List.length_cons]
      rw [if_pos ⟨rfl, rfl⟩, if_neg (by omega)]
      rfl
  · exact .inl (smdpOtpkAt_other htag)

theorem smdpOtpkBody_long {t len : UInt8} {rest : Bytes} (h3 : 1 < rest.length)
    (hlong : 0x80 ≤ len.toNat) :
    smdpOtpkBody (walkAt (t :: len :: rest) []) = some (.next (walkAt (len :: rest) [])) := by
  have hne : ¬ (t = 0x5F ∧ len = 0x49) := by
    rintro ⟨-, rfl⟩
    exact absurd hlong (by decide)
  rw [walkAt, smdpOtpkBody, if_neg (by simp only [List.length_cons]; omega)]
  simp only [List.append_nil, smdpOtpkAt_other hne, Option.bind_eq_bind, Option.bind_some,
    readAt_cons_zero, readAt_cons_succ]
  rw [if_pos hlong, walkAt, List.append_nil]
  rfl

/-- Behind the end of the memory a walk faults. -/
theorem loop_smdpOtpkBody_nil {remaining n : ℕ} (h : 3 < remaining) :
    loop smdpOtpkBody n ([], remaining) = none := by
  cases n with
  | zero => rfl
  | succ n =>
    refine loop_fault ?_ n
    rw [smdpOtpkBody, if_neg (by omega)]
    rfl

/-- A field that reaches beyond the end leads there. -/
theorem smdpOtpkBody_over {rest : Bytes} {t len : UInt8} (hpos : 1 < rest.length)
    (hover : rest.length < len.toNat) (hshort : len.toNat < 0x80)
    (hno : smdpOtpkAt (t :: len :: rest) (rest.length + 1 + 1) = some none) :
    ∃ remaining, 3 < remaining ∧
      smdpOtpkBody (walkAt (t :: len :: rest) []) = some (.next ([], remaining)) := by
  refine ⟨sub32 (rest.length + 1 + 1) (2 + len.toNat), ?_, ?_⟩
  · rw [sub32, if_neg (by omega)]
    omega
  · have hdrop : (t :: len :: rest).drop (2 + len.toNat) = [] :=
      List.drop_eq_nil_of_le (by simp only [List.length_cons]; omega)
    rw [walkAt, List.append_nil, smdpOtpkBody, List.length_cons, List.length_cons,
      if_neg (by omega)]
    simp only [hno, readAt_cons_zero, readAt_cons_succ, Option.bind_eq_bind, Option.bind_some]
    rw [if_neg (by omega), hdrop]
    rfl

theorem otpkInside_of_loop {n : ℕ} (h : (loop smdpOtpkBody n (walkAt fields [])).isSome) :
    OtpkInside fields := by
  induction n generalizing fields with
  | zero => cases h
  | succ n ih =>
    by_cases h3 : fields.length ≤ 3
    · exact .short h3
    rw [not_le] at h3
    obtain hno | ⟨found, -, hhas⟩ := smdpOtpkAt_cases [] h3
    · obtain ⟨t, len, rest, rfl⟩ := exists_cons_cons (show 2 ≤ fields.length by omega)
      have hlen3 := h3
      simp only [List.length_cons] at hlen3
      by_cases hlong : 0x80 ≤ len.toNat
      · rw [loop_next (smdpOtpkBody_long (by omega) hlong)] at h
        exact .byte t hlong (ih h)
      by_cases hover : rest.length < len.toNat
      · rw [List.append_nil, List.length_cons, List.length_cons] at hno
        obtain ⟨remaining, hbig, hbody⟩ :=
          smdpOtpkBody_over (by omega) hover (by omega) hno
        rw [loop_next hbody, loop_smdpOtpkBody_nil hbig] at h
        cases h
      obtain ⟨v, rest, rfl, hlen⟩ := exists_append (not_lt.1 hover)
      rw [List.length_append] at hlen3
      rw [loop_next (smdpOtpkBody_field (by omega) hlen (by omega) hno)] at h
      exact .next t hlen (by omega) (ih h)
    · exact hhas

theorem OtpkInside.loop_isSome (h : OtpkInside fields) :
    ∀ n, fields.length < n → (loop smdpOtpkBody n (walkAt fields [])).isSome := by
  intro n
  induction n generalizing fields with
  | zero => intro hn; omega
  | succ n ih =>
    intro hn
    by_cases h3 : fields.length ≤ 3
    · rw [loop_done (smdpOtpkBody_short h3)]
      rfl
    rw [not_le] at h3
    obtain hno | ⟨found, hfound, -⟩ := smdpOtpkAt_cases [] h3
    · cases h with
      | short hle => omega
      | found rest hlen hshort =>
        simp only [List.length_cons, List.length_append, List.append_nil] at hno
        rw [smdpOtpkAt_found hlen hshort (by omega)] at hno
        cases hno
      | next t hlen hshort h =>
        simp only [List.length_cons, List.length_append] at h3 hn
        rw [loop_next (smdpOtpkBody_field (by omega) hlen hshort hno)]
        exact ih h (by omega)
      | byte t hlong h =>
        simp only [List.length_cons] at h3 hn
        rw [loop_next (smdpOtpkBody_long (by omega) hlong)]
        exact ih h (by simp only [List.length_cons]; omega)
    · rw [loop_done (smdpOtpkBody_done h3 hfound)]
      rfl

/-- **The walk to the server's key**, over a memory that ends with the fields. -/
theorem scan_smdpOtpkBody_iff :
    (scan smdpOtpkBody fields fields.length).isSome ↔ OtpkInside fields := by
  have hscan : scan smdpOtpkBody fields fields.length =
      loop smdpOtpkBody (fields.length + 1) (walkAt fields []) := by
    rw [scan, walkAt, List.append_nil]
  rw [hscan]
  exact ⟨otpkInside_of_loop, fun h => h.loop_isSome _ (Nat.lt_succ_self _)⟩

/-- **`BF23`**: the two walks. -/
theorem readBf23_isSome_iff :
    (readBf23 state ⟨data, data.length⟩).isSome ↔
      ∃ tid, FirstIdentifier [] (bf23Fields data) tid ∧
        (tid = state.transactionId → OtpkInside (bf23Fields data)) := by
  have hcontent : bf23Content ⟨data, data.length⟩ =
      some (bf23Fields data, (bf23Fields data).length) := by
    have h := bf23Content_eq { sampleEnv with trailing := [] } data
    simpa only [Command.ofBytes, List.append_nil] using h
  rw [readBf23, hcontent]
  simp only [Option.bind_eq_bind, Option.bind_some]
  constructor
  · intro h
    cases htid : scan (transactionIdBody []) (bf23Fields data) (bf23Fields data).length with
    | none =>
      rw [htid] at h
      cases h
    | some tid =>
      refine ⟨tid, scan_transactionIdBody_iff.1 htid, fun heq => ?_⟩
      rw [htid, Option.bind_some, if_neg (not_not.2 heq)] at h
      exact scan_smdpOtpkBody_iff.1 h
  · rintro ⟨tid, hfirst, hinside⟩
    rw [scan_transactionIdBody_iff.2 hfirst, Option.bind_some]
    split
    · rfl
    · rename_i heq
      exact scan_smdpOtpkBody_iff.2 (hinside (not_not.1 heq))

/-! ## The searches in a request to prepare a download -/

/-- The fields of `smdpSigned2` lie inside it, if it lies inside the command. -/
inductive SmdpSigned2Fits (default : Bytes) : Bytes → Prop
  | short {fields : Bytes} (h : fields.length ≤ 2) : SmdpSigned2Fits default fields
  | found {len : UInt8} {v tid : Bytes} (rest : Bytes) (hlen : v.length = len.toNat)
    (h : FirstIdentifier default v tid) : SmdpSigned2Fits default (0x30 :: len :: (v ++ rest))
  | skip {len : UInt8} (rest : Bytes) (h : 0x80 ≤ len.toNat ∨ rest.length < len.toNat) :
    SmdpSigned2Fits default (0x30 :: len :: rest)
  | next {b : UInt8} {rest : Bytes} (hb : b ≠ 0x30) (h : SmdpSigned2Fits default rest) :
    SmdpSigned2Fits default (b :: rest)

theorem smdpSigned2Inside_short {default : Bytes} (h : fields.length ≤ 2) :
    smdpSigned2Inside default (fields, fields.length) = some (.done default) := by
  rw [smdpSigned2Inside, if_pos h]

theorem smdpSigned2Inside_next {default rest : Bytes} {b : UInt8} (hb : b ≠ 0x30)
    (h : 1 < rest.length) :
    smdpSigned2Inside default (b :: rest, (b :: rest).length) =
      some (.next (rest, rest.length)) := by
  have hb' : b.toNat ≠ 0x30 := fun e => hb (UInt8.toNat_inj.1 e)
  rw [smdpSigned2Inside, List.length_cons, if_neg (by omega)]
  simp only [readAt_cons_zero, Option.bind_eq_bind, Option.bind_some]
  rw [if_neg hb']
  rfl

theorem smdpSigned2Inside_skip {default rest : Bytes} {len : UInt8} (hpos : 0 < rest.length)
    (h : 0x80 ≤ len.toNat ∨ rest.length < len.toNat) :
    smdpSigned2Inside default (0x30 :: len :: rest, (0x30 :: len :: rest).length) =
      some (.done default) := by
  rw [smdpSigned2Inside, List.length_cons, List.length_cons, if_neg (by omega)]
  simp only [readAt_cons_zero, readAt_cons_succ, Option.bind_eq_bind, Option.bind_some]
  rw [if_pos (show (0x30 : UInt8).toNat = 0x30 from rfl), if_neg (by omega)]
  rfl

theorem smdpSigned2Inside_found (default : Bytes) {v : Bytes} (rest : Bytes) {len : UInt8}
    (hpos : 0 < v.length + rest.length) (hlen : v.length = len.toNat) (hshort : len.toNat < 0x80) :
    smdpSigned2Inside default (0x30 :: len :: (v ++ rest), (0x30 :: len :: (v ++ rest)).length) =
      (scan (transactionIdBody default) v v.length).map .done := by
  have hslice : ((0x30 :: len :: (v ++ rest)).drop 2).take len.toNat = v := by
    rw [← hlen]
    exact List.take_left
  rw [smdpSigned2Inside, List.length_cons, List.length_cons, List.length_append,
    if_neg (by omega)]
  simp only [readAt_cons_zero, readAt_cons_succ, Option.bind_eq_bind, Option.bind_some]
  rw [if_pos (show (0x30 : UInt8).toNat = 0x30 from rfl), if_pos ⟨hshort, by omega⟩, hslice, hlen]
  cases scan (transactionIdBody default) v len.toNat <;> rfl

theorem smdpSigned2Fits_of_loop {default : Bytes} {n : ℕ}
    (h : (loop (smdpSigned2Inside default) n (fields, fields.length)).isSome) :
    SmdpSigned2Fits default fields := by
  induction n generalizing fields with
  | zero => cases h
  | succ n ih =>
    by_cases h2 : fields.length ≤ 2
    · exact .short h2
    obtain ⟨b, len, rest, rfl⟩ := exists_cons_cons (show 2 ≤ fields.length by omega)
    simp only [List.length_cons] at h2
    by_cases hb : b = 0x30
    · subst hb
      by_cases hskip : 0x80 ≤ len.toNat ∨ rest.length < len.toNat
      · exact .skip rest hskip
      obtain ⟨v, rest, rfl, hlen⟩ := exists_append (show len.toNat ≤ rest.length by omega)
      rw [List.length_append] at h2
      have hbody := smdpSigned2Inside_found default rest (by omega) hlen (by omega)
      cases htid : scan (transactionIdBody default) v v.length with
      | none =>
        rw [htid] at hbody
        rw [loop_fault hbody] at h
        cases h
      | some tid => exact .found rest hlen (scan_transactionIdBody_iff.1 htid)
    · rw [loop_next (smdpSigned2Inside_next hb (by simp only [List.length_cons]; omega))] at h
      exact .next hb (ih h)

theorem SmdpSigned2Fits.loop_isSome {default : Bytes} (h : SmdpSigned2Fits default fields) :
    ∀ n, fields.length < n →
      (loop (smdpSigned2Inside default) n (fields, fields.length)).isSome := by
  induction h with
  | short h2 =>
    intro n hn
    rw [loop_of_done (smdpSigned2Inside_short h2) (by omega)]
    rfl
  | @found len v tid rest hlen h =>
    intro n hn
    by_cases h2 : (0x30 :: len :: (v ++ rest)).length ≤ 2
    · rw [loop_of_done (smdpSigned2Inside_short h2) (by omega)]
      rfl
    simp only [List.length_cons, List.length_append] at h2
    by_cases hlong : 0x80 ≤ len.toNat
    · have hskip := @smdpSigned2Inside_skip default (v ++ rest) len
        (by rw [List.length_append]; omega) (.inl hlong)
      rw [loop_of_done hskip (by omega)]
      rfl
    have hbody := smdpSigned2Inside_found default rest (by omega) hlen (by omega)
    rw [scan_transactionIdBody_iff.2 h, Option.map_some] at hbody
    rw [loop_of_done hbody (by omega)]
    rfl
  | @skip len rest h =>
    intro n hn
    by_cases h2 : (0x30 :: len :: rest).length ≤ 2
    · rw [loop_of_done (smdpSigned2Inside_short h2) (by omega)]
      rfl
    simp only [List.length_cons] at h2
    rw [loop_of_done (smdpSigned2Inside_skip (by omega) h) (by omega)]
    rfl
  | @next b rest hb h ih =>
    intro n hn
    by_cases h2 : (b :: rest).length ≤ 2
    · rw [loop_of_done (smdpSigned2Inside_short h2) (by omega)]
      rfl
    rw [List.length_cons] at h2 hn
    rw [loop_of_next (smdpSigned2Inside_next hb (by omega)) (by omega)]
    exact ih (n - 1) (by omega)

/-- **The search for `smdpSigned2`**. -/
theorem scan_smdpSigned2Inside_iff {default : Bytes} :
    (scan (smdpSigned2Inside default) data data.length).isSome ↔ SmdpSigned2Fits default data :=
  ⟨smdpSigned2Fits_of_loop, fun h => h.loop_isSome _ (Nat.lt_succ_self _)⟩

theorem findSmdpSigned2Body_of_inside {default : Bytes} {c : Ctl (Bytes × ℕ) Bytes}
    (h : smdpSigned2Inside default (fields, fields.length) = some c) :
    findSmdpSigned2Body default (fields, fields.length) = some c := by
  by_cases h2 : fields.length ≤ 2
  · rw [smdpSigned2Inside_short h2] at h
    rw [findSmdpSigned2Body, if_pos h2, h]
  obtain ⟨b, len, rest, rfl⟩ := exists_cons_cons (show 2 ≤ fields.length by omega)
  rw [smdpSigned2Inside, if_neg h2] at h
  rw [findSmdpSigned2Body, if_neg h2]
  simp only [readAt_cons_zero, readAt_cons_succ, Option.bind_eq_bind, Option.bind_some] at h ⊢
  have hdrop : (b :: len :: rest).drop 2 = rest := rfl
  rw [hdrop] at h ⊢
  by_cases hb : b.toNat = 0x30
  · rw [if_pos hb] at h ⊢
    by_cases hlen : len.toNat < 0x80 ∧ 2 + len.toNat ≤ (b :: len :: rest).length
    · rw [if_pos hlen] at h ⊢
      simp only [List.length_cons] at hlen
      obtain ⟨v, rest, rfl, hv⟩ := exists_append (show len.toNat ≤ rest.length by omega)
      rw [← hv, List.take_left] at h
      obtain ⟨tid, htid, hc⟩ := Option.bind_eq_some_iff.1 h
      -- the walk ends inside `smdpSigned2`, whatever follows it
      have hwalk := (scan_transactionIdBody_iff.1 htid).loop_eq rest
        ((v ++ rest).length + 1) (by rw [List.length_append]; omega)
      rw [← hv, scan]
      rw [walkAt] at hwalk
      rw [hwalk]
      exact hc
    · rw [if_neg hlen] at h ⊢
      exact h
  · rw [if_neg hb] at h ⊢
    exact h

theorem smdpSigned2Inside_rest {default : Bytes} {s : Bytes × ℕ}
    (h : smdpSigned2Inside default (fields, fields.length) = some (.next s)) :
    ∃ rest : Bytes, s = (rest, rest.length) := by
  by_cases h2 : fields.length ≤ 2
  · rw [smdpSigned2Inside_short h2] at h
    cases h
  obtain ⟨b, len, rest, rfl⟩ := exists_cons_cons (show 2 ≤ fields.length by omega)
  by_cases hb : b = 0x30
  · subst hb
    rw [smdpSigned2Inside, if_neg h2] at h
    simp only [readAt_cons_zero, readAt_cons_succ, Option.bind_eq_bind, Option.bind_some] at h
    rw [if_pos (show (0x30 : UInt8).toNat = 0x30 from rfl)] at h
    split at h
    · obtain ⟨tid, -, hc⟩ := Option.bind_eq_some_iff.1 h
      cases hc
    · cases h
  · simp only [List.length_cons] at h2
    rw [smdpSigned2Inside_next hb (by simp only [List.length_cons]; omega)] at h
    cases h
    exact ⟨_, rfl⟩

/-- A search that stays inside finds what the handler finds. -/
theorem findTransactionId_of_inside {tid : Bytes}
    (h : scan (smdpSigned2Inside state.transactionId) data data.length = some tid) :
    findTransactionId state ⟨data, data.length⟩ = some tid := by
  rw [scan] at h
  rw [findTransactionId, scan]
  generalize data.length + 1 = n at h ⊢
  induction n generalizing data with
  | zero => cases h
  | succ n ih =>
    rw [loop] at h ⊢
    cases hbody : smdpSigned2Inside state.transactionId (data, data.length) with
    | none =>
      rw [hbody] at h
      cases h
    | some c =>
      rw [hbody] at h
      rw [findSmdpSigned2Body_of_inside hbody]
      cases c with
      | done t => exact h
      | next s =>
        obtain ⟨rest, rfl⟩ := smdpSigned2Inside_rest hbody
        exact ih h

/-- The bytes `5F 37` and a short length at an offset of a command, more than three bytes before its
end. -/
structure SignatureAt (data : Bytes) (i len : ℕ) : Prop where
  inside : i + 3 < data.length
  first : readAt data i = some 0x5F
  second : readAt data (i + 1) = some 0x37
  length : readAt data (i + 2) = some len
  short : len < 0x80

/-- The command has the three bytes that are subtracted from its length, and before a signature
whose end is computed with an overflow, there is one that fits. -/
structure SignatureFits (data : Bytes) : Prop where
  three : 3 ≤ data.length
  overflow : ∀ i len, SignatureAt data i len → 2 ^ 32 ≤ i + 3 + len →
    ∃ j len', j < i ∧ SignatureAt data j len' ∧ j + 3 + len' ≤ data.length

theorem readAt_isSome {i : ℕ} (h : i < data.length) : ∃ b, readAt data i = some b :=
  ⟨data[i].toNat, by rw [readAt, List.getElem?_eq_getElem h, Option.map_some]⟩

theorem lt_of_readAt {i b : ℕ} (h : readAt data i = some b) : i < data.length := by
  obtain ⟨c, hc, -⟩ := Option.map_eq_some_iff.1 h
  exact (List.getElem?_eq_some_iff.1 hc).1

/-- Where the bytes are not there, the search goes on. -/
theorem smdpSignature2At_none (trailing : Bytes) {i : ℕ} (hi : i + 3 < data.length)
    (h : ∀ len, SignatureAt data i len → data.length < (i + 3 + len) % 2 ^ 32) :
    smdpSignature2At ⟨data ++ trailing, data.length⟩ i = some none := by
  obtain ⟨a, ha⟩ := readAt_isSome (show i < data.length by omega)
  obtain ⟨b, hb⟩ := readAt_isSome (show i + 1 < data.length by omega)
  obtain ⟨len, hlen⟩ := readAt_isSome (show i + 2 < data.length by omega)
  simp only [smdpSignature2At, readAt_append_left (lt_of_readAt ha), ha,
    readAt_append_left (lt_of_readAt hb), hb, readAt_append_left (lt_of_readAt hlen), hlen,
    Option.bind_eq_bind, Option.bind_some]
  by_cases h5F : a ≠ 0x5F
  · rw [if_pos h5F]
    rfl
  by_cases h37 : b ≠ 0x37
  · rw [if_neg h5F, if_pos h37]
    rfl
  rw [not_not] at h5F h37
  subst h5F h37
  rw [if_neg (by decide), if_neg (by decide), if_neg]
  · rfl
  · rintro ⟨hshort, hle⟩
    have := h len ⟨hi, ha, hb, hlen, hshort⟩
    omega

/-- Where they are, with a length that seems to fit, the value is copied. -/
theorem smdpSignature2At_eq (trailing : Bytes) {i len : ℕ} (h : SignatureAt data i len)
    (hle : (i + 3 + len) % 2 ^ 32 ≤ data.length) :
    smdpSignature2At ⟨data ++ trailing, data.length⟩ i =
      (readN ((data ++ trailing).drop (i + 3)) len).map some := by
  simp only [smdpSignature2At, readAt_append_left (lt_of_readAt h.first), h.first,
    readAt_append_left (lt_of_readAt h.second), h.second,
    readAt_append_left (lt_of_readAt h.length), h.length, Option.bind_eq_bind, Option.bind_some]
  rw [if_neg (by decide), if_neg (by decide), if_pos ⟨h.short, hle⟩]
  cases readN ((data ++ trailing).drop (i + 3)) len <;> rfl

theorem findSmdpSignature2Body_next {trailing : Bytes} {i : ℕ} (h : i + 3 < data.length)
    (hno : smdpSignature2At ⟨data ++ trailing, data.length⟩ i = some none) :
    findSmdpSignature2Body ⟨data ++ trailing, data.length⟩ i = some (.next (i + 1)) := by
  have hsub : sub32 data.length 3 = data.length - 3 := sub32_of_le (by omega)
  rw [findSmdpSignature2Body, hsub, if_neg (by omega)]
  simp only [hno, Option.bind_eq_bind, Option.bind_some]
  rfl

/-- Where they are, with a length that seems to fit, the search ends. -/
theorem findSmdpSignature2Body_done {i len : ℕ} (hi : i + 3 < data.length)
    (h : SignatureAt data i len) (hle : (i + 3 + len) % 2 ^ 32 ≤ data.length) :
    findSmdpSignature2Body ⟨data, data.length⟩ i =
      (readN (data.drop (i + 3)) len).map fun v => .done (some v) := by
  have hsub : sub32 data.length 3 = data.length - 3 := sub32_of_le (by omega)
  have hvalue := smdpSignature2At_eq [] h hle
  rw [List.append_nil] at hvalue
  rw [findSmdpSignature2Body, hsub, if_neg (by omega), hvalue]
  cases readN (data.drop (i + 3)) len <;> rfl

/-- **The search from an offset on** does not fault exactly if there is a signature that fits before
one whose end overflows. -/
theorem loop_findSmdpSignature2Body (hlt : data.length < 2 ^ 32) (h3 : 3 ≤ data.length) {n i : ℕ}
    (hi : i ≤ data.length) (hn : data.length < n + i) :
    (loop (findSmdpSignature2Body ⟨data, data.length⟩) n i).isSome ↔
      ∀ k len, i ≤ k → SignatureAt data k len → 2 ^ 32 ≤ k + 3 + len →
        ∃ j len', i ≤ j ∧ j < k ∧ SignatureAt data j len' ∧ j + 3 + len' ≤ data.length := by
  have hsub : sub32 data.length 3 = data.length - 3 := sub32_of_le h3
  induction n generalizing i with
  | zero => omega
  | succ n ih =>
    by_cases hend : data.length - 3 ≤ i
    · have hbody : findSmdpSignature2Body ⟨data, data.length⟩ i = some (.done none) := by
        rw [findSmdpSignature2Body, hsub, if_pos hend]
      rw [loop_done hbody]
      refine iff_of_true rfl fun k len hik hk => ?_
      have := hk.inside
      omega
    by_cases hat : ∃ len, SignatureAt data i len ∧ (i + 3 + len) % 2 ^ 32 ≤ data.length
    · obtain ⟨len, hat, hle⟩ := hat
      have hbody := findSmdpSignature2Body_done (by omega) hat hle
      have hshort := hat.short
      by_cases hover : 2 ^ 32 ≤ i + 3 + len
      · have hread : readN (data.drop (i + 3)) len = none := by
          rw [readN, if_neg]
          rw [List.length_drop]
          omega
        rw [hread, Option.map_none] at hbody
        rw [loop_fault hbody]
        refine iff_of_false (by simp) fun h => ?_
        obtain ⟨j, _, hij, hji, -⟩ := h i len le_rfl hat hover
        omega
      · rw [Nat.mod_eq_of_lt (by omega)] at hle
        obtain ⟨v, hread⟩ : ∃ v, readN (data.drop (i + 3)) len = some v :=
          ⟨_, if_pos (by rw [List.length_drop]; omega)⟩
        rw [hread, Option.map_some] at hbody
        rw [loop_done hbody]
        refine iff_of_true rfl fun k len' hik hk hk' => ?_
        obtain rfl | hlt' := Nat.eq_or_lt_of_le hik
        · have := Option.some.inj (hat.length.symm.trans hk.length)
          omega
        · exact ⟨i, len, le_rfl, hlt', hat, hle⟩
    · have hno : smdpSignature2At ⟨data ++ [], data.length⟩ i = some none :=
        smdpSignature2At_none [] (by omega) fun len hlen => by
          by_contra hle
          exact hat ⟨len, hlen, not_lt.1 hle⟩
      have hbody := findSmdpSignature2Body_next (by omega) hno
      rw [List.append_nil] at hbody
      have hnext : (loop (findSmdpSignature2Body ⟨data, data.length⟩) n (i + 1)).isSome ↔ _ :=
        ih (by omega) (by omega)
      rw [loop_next hbody, hnext]
      have hne : ∀ {k len : ℕ}, i ≤ k → SignatureAt data k len →
          (k + 3 + len) % 2 ^ 32 ≤ data.length → i + 1 ≤ k := by
        intro k len hik hk hle
        obtain rfl | hlt' := Nat.eq_or_lt_of_le hik
        · exact absurd ⟨len, hk, hle⟩ hat
        · exact hlt'
      constructor
      · intro h k len hik hk hover
        have hshort := hk.short
        have hinside := hk.inside
        obtain ⟨j, len', hij, hjk, hj, hfit⟩ :=
          h k len (hne hik hk (by omega)) hk hover
        exact ⟨j, len', by omega, hjk, hj, hfit⟩
      · intro h k len hik hk hover
        obtain ⟨j, len', hij, hjk, hj, hfit⟩ := h k len (by omega) hk hover
        exact ⟨j, len', hne hij hj (by omega), hjk, hj, hfit⟩

/-- **The search for the server's signature**. -/
theorem findSmdpSignature2_isSome_iff (hlt : data.length < 2 ^ 32) :
    (findSmdpSignature2 ⟨data, data.length⟩).isSome ↔ SignatureFits data := by
  rw [findSmdpSignature2, Option.isSome_map]
  by_cases h3 : 3 ≤ data.length
  · have hloop :
        (loop (findSmdpSignature2Body ⟨data, data.length⟩) (data.length + 1) 0).isSome ↔ _ :=
      loop_findSmdpSignature2Body hlt h3 (Nat.zero_le _) (by omega)
    rw [hloop]
    constructor
    · intro h
      refine ⟨h3, fun i len hat hover => ?_⟩
      obtain ⟨j, len', -, hj⟩ := h i len (Nat.zero_le _) hat hover
      exact ⟨j, len', hj⟩
    · intro h i len _ hat hover
      obtain ⟨j, len', hj⟩ := h.overflow i len hat hover
      exact ⟨j, len', Nat.zero_le _, hj⟩
  · -- the last offset wraps, and the search reads on until the end of the memory
    refine iff_of_false (fun h => ?_) fun h => h3 h.three
    obtain ⟨sig, h⟩ := Option.isSome_iff_exists.1 h
    have hsub : sub32 data.length 3 = data.length + 2 ^ 32 - 3 := if_neg h3
    refine loop_invariant (P := fun i => i ≤ data.length) (Q := fun _ => False) ?_ ?_
      (Nat.zero_le _) h
    · intro i j hi hbody
      rw [findSmdpSignature2Body, hsub, if_neg (by omega)] at hbody
      obtain ⟨found, hfound, hbody⟩ := Option.bind_eq_some_iff.1 hbody
      obtain ⟨a, ha, -⟩ := Option.bind_eq_some_iff.1 hfound
      have := lt_of_readAt ha
      cases found with
      | some sig => cases hbody
      | none => cases hbody; exact this
    · intro i sig hi hbody
      rw [findSmdpSignature2Body, hsub, if_neg (by omega)] at hbody
      obtain ⟨found, hfound, hbody⟩ := Option.bind_eq_some_iff.1 hbody
      cases found with
      | none => cases hbody
      | some sig =>
        obtain ⟨a, -, hfound⟩ := Option.bind_eq_some_iff.1 hfound
        split at hfound
        · cases hfound
        obtain ⟨b, -, hfound⟩ := Option.bind_eq_some_iff.1 hfound
        split at hfound
        · cases hfound
        obtain ⟨len, hlen, -⟩ := Option.bind_eq_some_iff.1 hfound
        have := lt_of_readAt hlen
        dsimp only at this
        omega

/-! ## The searches in a request to authenticate -/

section WalkBody

variable {α : Type} {act : ℕ → ℕ → Bytes → α → Option (Ctl α α)} {acc acc' : α} {rest : Bytes}
  {t len : UInt8} {remaining : ℕ}

theorem walkBody_short (h : remaining ≤ 2) :
    walkBody act ((fields, remaining), acc) = some (.done acc) := by
  rw [walkBody, if_pos h]

theorem walkBody_stop (h : 0x80 ≤ len.toNat ∨ remaining < 2 + len.toNat) :
    walkBody act ((t :: len :: rest, remaining), acc) = some (.done acc) := by
  rw [walkBody]
  split
  · rfl
  · simp only [readAt_cons_zero, readAt_cons_succ, Option.bind_eq_bind, Option.bind_some]
    rw [if_pos h]
    rfl

theorem walkBody_next (h2 : 2 < remaining) (hgo : ¬ (0x80 ≤ len.toNat ∨ remaining < 2 + len.toNat))
    (hact : act t.toNat len.toNat rest acc = some (.next acc')) :
    walkBody act ((t :: len :: rest, remaining), acc) =
      some (.next ((rest.drop len.toNat, remaining - (2 + len.toNat)), acc')) := by
  have hdrop : (t :: len :: rest).drop 2 = rest := rfl
  rw [walkBody, if_neg (by omega)]
  simp only [readAt_cons_zero, readAt_cons_succ, Option.bind_eq_bind, Option.bind_some]
  rw [if_neg hgo, hdrop, hact, ← List.drop_drop, hdrop]
  rfl

theorem walkBody_done (h2 : 2 < remaining) (hgo : ¬ (0x80 ≤ len.toNat ∨ remaining < 2 + len.toNat))
    (hact : act t.toNat len.toNat rest acc = some (.done acc')) :
    walkBody act ((t :: len :: rest, remaining), acc) = some (.done acc') := by
  have hdrop : (t :: len :: rest).drop 2 = rest := rfl
  rw [walkBody, if_neg (by omega)]
  simp only [readAt_cons_zero, readAt_cons_succ, Option.bind_eq_bind, Option.bind_some]
  rw [if_neg hgo, hdrop, hact]
  rfl

theorem walkBody_fault (h2 : 2 < remaining) (hgo : ¬ (0x80 ≤ len.toNat ∨ remaining < 2 + len.toNat))
    (hact : act t.toNat len.toNat rest acc = none) :
    walkBody act ((t :: len :: rest, remaining), acc) = none := by
  have hdrop : (t :: len :: rest).drop 2 = rest := rfl
  rw [walkBody, if_neg (by omega)]
  simp only [readAt_cons_zero, readAt_cons_succ, Option.bind_eq_bind, Option.bind_some]
  rw [if_neg hgo, hdrop, hact]
  rfl

/-- Less than two bytes before the end of the memory a walk faults. -/
theorem loop_walkBody_end (hend : fields.length < 2) (h2 : 2 < remaining) (n : ℕ) :
    loop (walkBody act) n ((fields, remaining), acc) = none := by
  cases n with
  | zero => rfl
  | succ n =>
    refine loop_fault ?_ n
    rw [walkBody, if_neg (by omega)]
    rcases fields with _ | ⟨b, _ | ⟨b', rest⟩⟩
    · rfl
    · rfl
    · simp only [List.length_cons] at hend
      omega

end WalkBody

/-- The fields of `serverSigned1` that are copied. -/
def Copied (tag len : ℕ) : Prop :=
  tag = 0x80 ∧ len ≤ 16 ∨ tag = 0x84 ∧ len = 16 ∨ tag = 0x83 ∧ 0 < len ∧ len < 256

theorem serverSigned1Field_next (tag : ℕ) {len : ℕ} {rest : Bytes} (acc : ServerSigned1)
    (h : len ≤ rest.length ∨ ¬ Copied tag len) :
    ∃ acc', serverSigned1Field tag len rest acc = some (.next acc') := by
  unfold serverSigned1Field
  split_ifs with htid hchallenge haddress
  · have hle : len ≤ rest.length := h.resolve_right (not_not.2 (.inl htid))
    exact ⟨_, by rw [readN, if_pos hle, Option.map_some]⟩
  · have hle : len ≤ rest.length := h.resolve_right (not_not.2 (.inr (.inl hchallenge)))
    exact ⟨_, by rw [readN, if_pos (hchallenge.2 ▸ hle), Option.map_some]⟩
  · have hle : len ≤ rest.length := h.resolve_right (not_not.2 (.inr (.inr haddress)))
    exact ⟨_, by rw [readN, if_pos hle, Option.map_some]⟩
  · exact ⟨acc, rfl⟩

theorem serverSigned1Field_none {tag len : ℕ} {rest : Bytes} (acc : ServerSigned1)
    (hc : Copied tag len) (h : rest.length < len) :
    serverSigned1Field tag len rest acc = none := by
  unfold serverSigned1Field
  split_ifs with htid hchallenge haddress
  · rw [readN, if_neg (by omega), Option.map_none]
  · rw [readN, if_neg (by omega), Option.map_none]
  · rw [readN, if_neg (by omega), Option.map_none]
  · exact absurd hc fun hc => hc.elim htid fun hc => hc.elim hchallenge haddress

/-- The fields of `serverSigned1` lie in the command, as far as they are walked over; the last may
reach beyond it if it is not copied. -/
inductive SignedFieldsFit : ℕ → Bytes → Prop
  | short {remaining : ℕ} {fields : Bytes} (h : remaining ≤ 2) : SignedFieldsFit remaining fields
  | stop {remaining : ℕ} {t len : UInt8} {rest : Bytes}
    (h : 0x80 ≤ len.toNat ∨ remaining < 2 + len.toNat) :
    SignedFieldsFit remaining (t :: len :: rest)
  | next {remaining : ℕ} {t len : UInt8} {v rest : Bytes} (hlen : v.length = len.toNat)
    (h : SignedFieldsFit (remaining - (2 + v.length)) rest) :
    SignedFieldsFit remaining (t :: len :: (v ++ rest))
  | past {remaining : ℕ} {t len : UInt8} {rest : Bytes} (hc : ¬ Copied t.toNat len.toNat)
    (hend : remaining ≤ len.toNat + 4) : SignedFieldsFit remaining (t :: len :: rest)

theorem signedFieldsFit_of_loop {n remaining : ℕ} {acc : ServerSigned1}
    (h : (loop (walkBody serverSigned1Field) n ((fields, remaining), acc)).isSome) :
    SignedFieldsFit remaining fields := by
  induction n generalizing fields remaining acc with
  | zero => cases h
  | succ n ih =>
    by_cases h2 : remaining ≤ 2
    · exact .short h2
    rw [not_le] at h2
    by_cases hend : fields.length < 2
    · rw [loop_walkBody_end hend h2] at h
      cases h
    obtain ⟨t, len, rest, rfl⟩ := exists_cons_cons (not_lt.1 hend)
    by_cases hstop : 0x80 ≤ len.toNat ∨ remaining < 2 + len.toNat
    · exact .stop hstop
    by_cases hle : len.toNat ≤ rest.length
    · obtain ⟨acc', hact⟩ := serverSigned1Field_next t.toNat acc (.inl hle)
      obtain ⟨v, rest, rfl, hlen⟩ := exists_append hle
      rw [loop_next (walkBody_next h2 hstop hact), ← hlen, List.drop_left] at h
      exact .next hlen (ih h)
    · by_cases hc : Copied t.toNat len.toNat
      · rw [loop_fault (walkBody_fault h2 hstop
          (serverSigned1Field_none acc hc (not_le.1 hle)))] at h
        cases h
      · obtain ⟨acc', hact⟩ := serverSigned1Field_next _ acc (.inr hc)
        rw [loop_next (walkBody_next h2 hstop hact),
          List.drop_eq_nil_of_le (not_le.1 hle).le] at h
        refine .past hc ?_
        by_contra hmore
        rw [loop_walkBody_end (by decide) (by omega)] at h
        cases h

theorem SignedFieldsFit.loop_isSome {remaining : ℕ} (h : SignedFieldsFit remaining fields) :
    ∀ n acc, fields.length < n →
      (loop (walkBody serverSigned1Field) n ((fields, remaining), acc)).isSome := by
  induction h with
  | short h2 =>
    intro n acc hn
    rw [loop_of_done (walkBody_short h2) (by omega)]
    rfl
  | stop h =>
    intro n acc hn
    rw [loop_of_done (walkBody_stop h) (by omega)]
    rfl
  | @next remaining t len v rest hlen h ih =>
    intro n acc hn
    by_cases h2 : remaining ≤ 2
    · rw [loop_of_done (walkBody_short h2) (by omega)]
      rfl
    by_cases hstop : 0x80 ≤ len.toNat ∨ remaining < 2 + len.toNat
    · rw [loop_of_done (walkBody_stop hstop) (by omega)]
      rfl
    simp only [List.length_cons, List.length_append] at hn
    have hle : len.toNat ≤ (v ++ rest).length := by
      rw [List.length_append]
      omega
    obtain ⟨acc', hact⟩ := serverSigned1Field_next t.toNat acc (.inl hle)
    rw [loop_of_next (walkBody_next (not_le.1 h2) hstop hact) (by omega), ← hlen, List.drop_left]
    exact ih (n - 1) acc' (by omega)
  | @past remaining t len rest hc hend =>
    intro n acc hn
    simp only [List.length_cons] at hn
    by_cases h2 : remaining ≤ 2
    · rw [loop_of_done (walkBody_short h2) (by omega)]
      rfl
    by_cases hstop : 0x80 ≤ len.toNat ∨ remaining < 2 + len.toNat
    · rw [loop_of_done (walkBody_stop hstop) (by omega)]
      rfl
    obtain ⟨acc', hact⟩ := serverSigned1Field_next _ acc (.inr hc)
    rw [loop_of_next (walkBody_next (not_le.1 h2) hstop hact) (by omega),
      loop_of_done (walkBody_short (by omega)) (by omega)]
    rfl

/-- The fields behind the first byte `30` and a short length fit. -/
inductive ServerSigned1Fits : Bytes → Prop
  | short {fields : Bytes} (h : fields.length ≤ 2) : ServerSigned1Fits fields
  | found {len : UInt8} {rest : Bytes} (h : len.toNat < 0x80 → SignedFieldsFit len.toNat rest) :
    ServerSigned1Fits (0x30 :: len :: rest)
  | next {b : UInt8} {rest : Bytes} (hb : b ≠ 0x30) (h : ServerSigned1Fits rest) :
    ServerSigned1Fits (b :: rest)

theorem findServerSigned1Body_short {acc : ServerSigned1} (h : fields.length ≤ 2) :
    findServerSigned1Body acc (fields, fields.length) = some (.done acc) := by
  rw [findServerSigned1Body, if_pos h]

theorem findServerSigned1Body_next {acc : ServerSigned1} {b : UInt8} {rest : Bytes} {remaining : ℕ}
    (hb : b ≠ 0x30) (h : 2 < remaining) :
    findServerSigned1Body acc (b :: rest, remaining) = some (.next (rest, remaining - 1)) := by
  have hb' : b.toNat ≠ 0x30 := fun e => hb (UInt8.toNat_inj.1 e)
  rw [findServerSigned1Body, if_neg (by omega)]
  simp only [readAt_cons_zero, Option.bind_eq_bind, Option.bind_some]
  rw [if_neg hb']
  rfl

theorem findServerSigned1Body_found (acc : ServerSigned1) (len : UInt8) (rest : Bytes)
    {remaining : ℕ} (h : 2 < remaining) :
    findServerSigned1Body acc (0x30 :: len :: rest, remaining) =
      if len.toNat < 0x80 then
        (walkFields serverSigned1Field rest len.toNat acc).map .done
      else some (.done acc) := by
  rw [findServerSigned1Body, if_neg (by omega)]
  simp only [readAt_cons_zero, readAt_cons_succ, Option.bind_eq_bind, Option.bind_some]
  rw [if_pos (show (0x30 : UInt8).toNat = 0x30 from rfl)]
  split
  · have hdrop : (0x30 :: len :: rest).drop 2 = rest := rfl
    rw [hdrop]
    cases walkFields serverSigned1Field rest len.toNat acc <;> rfl
  · rfl

theorem serverSigned1Fits_of_loop {acc : ServerSigned1} {n : ℕ}
    (h : (loop (findServerSigned1Body acc) n (fields, fields.length)).isSome) :
    ServerSigned1Fits fields := by
  induction n generalizing fields with
  | zero => cases h
  | succ n ih =>
    by_cases h2 : fields.length ≤ 2
    · exact .short h2
    obtain ⟨b, len, rest, rfl⟩ := exists_cons_cons (show 2 ≤ fields.length by omega)
    simp only [List.length_cons] at h2
    by_cases hb : b = 0x30
    · subst hb
      refine .found fun hshort => ?_
      have hbody := findServerSigned1Body_found acc len rest
        (show 2 < (0x30 :: len :: rest).length by simp only [List.length_cons]; omega)
      rw [if_pos hshort] at hbody
      cases hwalk : walkFields serverSigned1Field rest len.toNat acc with
      | none =>
        rw [hwalk] at hbody
        rw [loop_fault hbody] at h
        cases h
      | some acc' =>
        exact signedFieldsFit_of_loop (Option.isSome_iff_exists.2 ⟨acc', hwalk⟩)
    · rw [loop_next (findServerSigned1Body_next hb (by simp only [List.length_cons]; omega))] at h
      exact .next hb (ih h)

theorem ServerSigned1Fits.loop_isSome {acc : ServerSigned1} (h : ServerSigned1Fits fields) :
    ∀ n, fields.length < n →
      (loop (findServerSigned1Body acc) n (fields, fields.length)).isSome := by
  induction h with
  | short h2 =>
    intro n hn
    rw [loop_of_done (findServerSigned1Body_short h2) (by omega)]
    rfl
  | @found len rest h =>
    intro n hn
    by_cases h2 : (0x30 :: len :: rest).length ≤ 2
    · rw [loop_of_done (findServerSigned1Body_short h2) (by omega)]
      rfl
    simp only [List.length_cons] at h2
    have hbody := findServerSigned1Body_found acc len rest
      (show 2 < (0x30 :: len :: rest).length by simp only [List.length_cons]; omega)
    by_cases hshort : len.toNat < 0x80
    · obtain ⟨acc', hwalk⟩ := Option.isSome_iff_exists.1
        ((h hshort).loop_isSome (rest.length + 1) acc (Nat.lt_succ_self _))
      rw [if_pos hshort, walkFields, hwalk, Option.map_some] at hbody
      rw [loop_of_done hbody (by omega)]
      rfl
    · rw [if_neg hshort] at hbody
      rw [loop_of_done hbody (by omega)]
      rfl
  | @next b rest hb h ih =>
    intro n hn
    by_cases h2 : (b :: rest).length ≤ 2
    · rw [loop_of_done (findServerSigned1Body_short h2) (by omega)]
      rfl
    rw [loop_of_next (findServerSigned1Body_next hb (not_le.1 h2)) (by omega)]
    rw [List.length_cons] at hn
    exact ih (n - 1) (by omega)

/-- **The search for `serverSigned1`**. -/
theorem findServerSigned1_isSome_iff :
    (findServerSigned1 state ⟨data, data.length⟩).isSome ↔ ServerSigned1Fits data :=
  ⟨serverSigned1Fits_of_loop, fun h => h.loop_isSome _ (Nat.lt_succ_self _)⟩

/-- What the walk over the context parameters finds: the first field `80` that is not empty, behind
fields that lie in the command; the last may reach beyond it if nothing is left to be walked
over. -/
inductive MatchingIdWalk : ℕ → Bytes → Option Bytes → Prop
  | short {remaining : ℕ} {fields : Bytes} (h : remaining ≤ 2) :
    MatchingIdWalk remaining fields none
  | stop {remaining : ℕ} {t len : UInt8} {rest : Bytes}
    (h : 0x80 ≤ len.toNat ∨ remaining < 2 + len.toNat) :
    MatchingIdWalk remaining (t :: len :: rest) none
  | found {remaining : ℕ} {len : UInt8} {v rest : Bytes} (hlen : v.length = len.toNat)
    (hpos : 0 < v.length) (hgo : ¬ (0x80 ≤ len.toNat ∨ remaining < 2 + len.toNat)) :
    MatchingIdWalk remaining (0x80 :: len :: (v ++ rest)) (some v)
  | next {remaining : ℕ} {t len : UInt8} {v rest : Bytes} {found : Option Bytes}
    (hne : ¬ (t = 0x80 ∧ 0 < len.toNat)) (hlen : v.length = len.toNat) (h2 : 2 < remaining)
    (hgo : ¬ (0x80 ≤ len.toNat ∨ remaining < 2 + len.toNat))
    (h : MatchingIdWalk (remaining - (2 + v.length)) rest found) :
    MatchingIdWalk remaining (t :: len :: (v ++ rest)) found
  | past {remaining : ℕ} {t len : UInt8} {rest : Bytes} (hne : ¬ (t = 0x80 ∧ 0 < len.toNat))
    (hend : remaining ≤ len.toNat + 4) : MatchingIdWalk remaining (t :: len :: rest) none

theorem ctxParams1Field_next {t len : UInt8} {rest : Bytes} (acc : Option Bytes)
    (hne : ¬ (t = 0x80 ∧ 0 < len.toNat)) :
    ctxParams1Field t.toNat len.toNat rest acc = some (.next acc) := by
  rw [ctxParams1Field, if_neg]
  rintro ⟨ht, hpos, -⟩
  exact hne ⟨UInt8.toNat_inj.1 ht, hpos⟩

theorem ctxParams1Field_done {len : UInt8} {v rest : Bytes} (acc : Option Bytes)
    (hlen : v.length = len.toNat) (hpos : 0 < v.length) :
    ctxParams1Field (0x80 : UInt8).toNat len.toNat (v ++ rest) acc = some (.done (some v)) := by
  have hlt := len.toNat_lt
  rw [ctxParams1Field, if_pos ⟨rfl, by omega, by omega⟩, readN_append hlen]
  rfl

theorem matchingIdWalk_of_loop {n remaining : ℕ} {found : Option Bytes}
    (h : loop (walkBody ctxParams1Field) n ((fields, remaining), none) = some found) :
    MatchingIdWalk remaining fields found := by
  induction n generalizing fields remaining with
  | zero => cases h
  | succ n ih =>
    by_cases h2 : remaining ≤ 2
    · rw [loop_done (walkBody_short h2)] at h
      cases h
      exact .short h2
    rw [not_le] at h2
    by_cases hend : fields.length < 2
    · rw [loop_walkBody_end hend h2] at h
      cases h
    obtain ⟨t, len, rest, rfl⟩ := exists_cons_cons (not_lt.1 hend)
    by_cases hstop : 0x80 ≤ len.toNat ∨ remaining < 2 + len.toNat
    · rw [loop_done (walkBody_stop hstop)] at h
      cases h
      exact .stop hstop
    by_cases hfield : t = 0x80 ∧ 0 < len.toNat
    · obtain ⟨rfl, hpos⟩ := hfield
      by_cases hle : len.toNat ≤ rest.length
      · obtain ⟨v, rest, rfl, hlen⟩ := exists_append hle
        rw [loop_done (walkBody_done h2 hstop (ctxParams1Field_done none hlen (by omega)))] at h
        cases h
        exact .found hlen (by omega) hstop
      · have hlt := len.toNat_lt
        have hact : ctxParams1Field (0x80 : UInt8).toNat len.toNat rest none = none := by
          rw [ctxParams1Field, if_pos ⟨rfl, hpos, by omega⟩, readN, if_neg hle, Option.map_none]
        rw [loop_fault (walkBody_fault h2 hstop hact)] at h
        cases h
    · rw [loop_next (walkBody_next h2 hstop (ctxParams1Field_next none hfield))] at h
      by_cases hle : len.toNat ≤ rest.length
      · obtain ⟨v, rest, rfl, hlen⟩ := exists_append hle
        rw [← hlen, List.drop_left] at h
        exact .next hfield hlen h2 hstop (ih h)
      · rw [List.drop_eq_nil_of_le (not_le.1 hle).le] at h
        by_cases hmore : remaining ≤ len.toNat + 4
        · cases n with
          | zero => cases h
          | succ n =>
            rw [loop_done (walkBody_short (by omega))] at h
            cases h
            exact .past hfield hmore
        · rw [loop_walkBody_end (by decide) (by omega)] at h
          cases h

theorem MatchingIdWalk.loop_eq {remaining : ℕ} {found : Option Bytes}
    (h : MatchingIdWalk remaining fields found) :
    ∀ n, fields.length < n →
      loop (walkBody ctxParams1Field) n ((fields, remaining), none) = some found := by
  induction h with
  | short h2 =>
    intro n hn
    exact loop_of_done (walkBody_short h2) (by omega)
  | stop h =>
    intro n hn
    exact loop_of_done (walkBody_stop h) (by omega)
  | @found remaining len v rest hlen hpos hgo =>
    intro n hn
    have hact := @ctxParams1Field_done len v rest none hlen hpos
    exact loop_of_done (walkBody_done (by omega) hgo hact) (by omega)
  | @next remaining t len v rest found hne hlen h2 hgo h ih =>
    intro n hn
    simp only [List.length_cons, List.length_append] at hn
    have hact := @ctxParams1Field_next t len (v ++ rest) none hne
    rw [loop_of_next (walkBody_next h2 hgo hact) (by omega), ← hlen, List.drop_left]
    exact ih (n - 1) (by omega)
  | @past remaining t len rest hne hend =>
    intro n hn
    simp only [List.length_cons] at hn
    by_cases h2 : remaining ≤ 2
    · exact loop_of_done (walkBody_short h2) (by omega)
    by_cases hstop : 0x80 ≤ len.toNat ∨ remaining < 2 + len.toNat
    · exact loop_of_done (walkBody_stop hstop) (by omega)
    have hact := @ctxParams1Field_next t len rest none hne
    rw [loop_of_next (walkBody_next (not_le.1 h2) hstop hact) (by omega)]
    exact loop_of_done (walkBody_short (by omega)) (by omega)

theorem walkFields_ctxParams1Field_iff {remaining : ℕ} {found : Option Bytes} :
    walkFields ctxParams1Field fields remaining none = some found ↔
      MatchingIdWalk remaining fields found :=
  ⟨matchingIdWalk_of_loop, fun h => h.loop_eq _ (Nat.lt_succ_self _)⟩

/-- The fields behind every byte `A0` and a short length fit, up to the first ones with a matching
identifier. -/
inductive MatchingIdFits : Bytes → Prop
  | short {fields : Bytes} (h : fields.length ≤ 2) : MatchingIdFits fields
  | other {b len : UInt8} {rest : Bytes} (h : b ≠ 0xA0 ∨ 0x80 ≤ len.toNat)
    (ht : MatchingIdFits (len :: rest)) : MatchingIdFits (b :: len :: rest)
  | found {len : UInt8} {rest v : Bytes} (hshort : len.toNat < 0x80)
    (h : MatchingIdWalk len.toNat rest (some v)) : MatchingIdFits (0xA0 :: len :: rest)
  | without {len : UInt8} {rest : Bytes} (h : MatchingIdWalk len.toNat rest none)
    (ht : MatchingIdFits (len :: rest)) : MatchingIdFits (0xA0 :: len :: rest)

theorem findMatchingIdBody_short (h : fields.length ≤ 2) :
    findMatchingIdBody (fields, fields.length) = some (.done none) := by
  rw [findMatchingIdBody, if_pos h]

theorem findMatchingIdBody_other {b len : UInt8} {rest : Bytes} {remaining : ℕ}
    (h2 : 2 < remaining) (h : b ≠ 0xA0 ∨ 0x80 ≤ len.toNat) :
    findMatchingIdBody (b :: len :: rest, remaining) =
      some (.next (len :: rest, remaining - 1)) := by
  rw [findMatchingIdBody, if_neg (by omega)]
  simp only [readAt_cons_zero, readAt_cons_succ, Option.bind_eq_bind, Option.bind_some]
  by_cases hb : b.toNat = 0xA0
  · have hlong : 0x80 ≤ len.toNat := h.resolve_left (not_not.2 (UInt8.toNat_inj.1 hb))
    rw [if_pos hb, if_neg (not_lt.2 hlong)]
    rfl
  · rw [if_neg hb]
    rfl

theorem findMatchingIdBody_walk {len : UInt8} (rest : Bytes) {remaining : ℕ} (h2 : 2 < remaining)
    (hshort : len.toNat < 0x80) :
    findMatchingIdBody (0xA0 :: len :: rest, remaining) =
      (walkFields ctxParams1Field rest len.toNat none).map fun found =>
        match found with
        | some matchingId => .done (some matchingId)
        | none => .next (len :: rest, remaining - 1) := by
  have hdrop : (0xA0 :: len :: rest).drop 2 = rest := rfl
  rw [findMatchingIdBody, if_neg (by omega)]
  simp only [readAt_cons_zero, readAt_cons_succ, Option.bind_eq_bind, Option.bind_some]
  rw [if_pos (show (0xA0 : UInt8).toNat = 0xA0 from rfl), if_pos hshort, hdrop]
  cases walkFields ctxParams1Field rest len.toNat none with
  | none => rfl
  | some found => cases found <;> rfl

theorem matchingIdFits_of_loop {n : ℕ}
    (h : (loop findMatchingIdBody n (fields, fields.length)).isSome) : MatchingIdFits fields := by
  induction n generalizing fields with
  | zero => cases h
  | succ n ih =>
    by_cases h2 : fields.length ≤ 2
    · exact .short h2
    obtain ⟨b, len, rest, rfl⟩ := exists_cons_cons (show 2 ≤ fields.length by omega)
    rw [not_le] at h2
    by_cases hother : b ≠ 0xA0 ∨ 0x80 ≤ len.toNat
    · rw [loop_next (findMatchingIdBody_other h2 hother)] at h
      exact .other hother (ih h)
    obtain ⟨hb, hshort⟩ := not_or.1 hother
    obtain rfl := not_not.1 hb
    have hbody := findMatchingIdBody_walk rest h2 (not_le.1 hshort)
    cases hwalk : walkFields ctxParams1Field rest len.toNat none with
    | none =>
      rw [hwalk, Option.map_none] at hbody
      rw [loop_fault hbody] at h
      cases h
    | some found =>
      rw [hwalk, Option.map_some] at hbody
      cases found with
      | none =>
        rw [loop_next hbody] at h
        exact .without (walkFields_ctxParams1Field_iff.1 hwalk) (ih h)
      | some v => exact .found (not_le.1 hshort) (walkFields_ctxParams1Field_iff.1 hwalk)

theorem MatchingIdFits.loop_isSome (h : MatchingIdFits fields) :
    ∀ n, fields.length < n → (loop findMatchingIdBody n (fields, fields.length)).isSome := by
  induction h with
  | short h2 =>
    intro n hn
    rw [loop_of_done (findMatchingIdBody_short h2) (by omega)]
    rfl
  | @other b len rest h ht ih =>
    intro n hn
    by_cases h2 : (b :: len :: rest).length ≤ 2
    · rw [loop_of_done (findMatchingIdBody_short h2) (by omega)]
      rfl
    simp only [List.length_cons] at hn
    rw [loop_of_next (findMatchingIdBody_other (not_le.1 h2) h) (by omega)]
    exact ih (n - 1) (by simp only [List.length_cons]; omega)
  | @found len rest v hshort h =>
    intro n hn
    by_cases h2 : (0xA0 :: len :: rest).length ≤ 2
    · rw [loop_of_done (findMatchingIdBody_short h2) (by omega)]
      rfl
    have hbody := findMatchingIdBody_walk rest (not_le.1 h2) hshort
    rw [walkFields_ctxParams1Field_iff.2 h, Option.map_some] at hbody
    rw [loop_of_done hbody (by omega)]
    rfl
  | @without len rest h ht ih =>
    intro n hn
    by_cases h2 : (0xA0 :: len :: rest).length ≤ 2
    · rw [loop_of_done (findMatchingIdBody_short h2) (by omega)]
      rfl
    simp only [List.length_cons] at hn
    by_cases hshort : len.toNat < 0x80
    · have hbody := findMatchingIdBody_walk rest (not_le.1 h2) hshort
      rw [walkFields_ctxParams1Field_iff.2 h, Option.map_some] at hbody
      rw [loop_of_next hbody (by omega)]
      exact ih (n - 1) (by simp only [List.length_cons]; omega)
    · have hbody := @findMatchingIdBody_other 0xA0 len rest _ (not_le.1 h2)
        (.inr (not_lt.1 hshort))
      rw [loop_of_next hbody (by omega)]
      exact ih (n - 1) (by simp only [List.length_cons]; omega)

/-- **The search for the matching identifier**. -/
theorem findMatchingId_isSome_iff :
    (findMatchingId ⟨data, data.length⟩).isSome ↔ MatchingIdFits data := by
  rw [findMatchingId, Option.isSome_map]
  exact ⟨matchingIdFits_of_loop, fun h => h.loop_isSome _ (Nat.lt_succ_self _)⟩

/-! ## Length fields, and the fields of a management request -/

/-- The octets of a length that the third byte announces are there. -/
def LengthFits : Bytes → Prop
  | _ :: _ :: len :: rest => (len = 0x81 → 1 ≤ rest.length) ∧ (len = 0x82 → 2 ≤ rest.length)
  | _ => True

/-- What is behind a length. -/
def behindLength (len : UInt8) (rest : Bytes) : Bytes :=
  if len.toNat < 0x80 then rest
  else if len = 0x81 then rest.drop 1
  else if len = 0x82 then rest.drop 2
  else len :: rest

theorem skipLength_behind {len : UInt8} {rest : Bytes}
    (h : (len = 0x81 → 1 ≤ rest.length) ∧ (len = 0x82 → 2 ≤ rest.length)) :
    skipLength len.toNat (len :: rest) (rest.length + 1) =
      (behindLength len rest, (behindLength len rest).length) := by
  have h81 : len.toNat = 0x81 ↔ len = 0x81 := by
    rw [← UInt8.toNat_inj]
    rfl
  have h82 : len.toNat = 0x82 ↔ len = 0x82 := by
    rw [← UInt8.toNat_inj]
    rfl
  unfold skipLength behindLength
  simp only [h81, h82]
  split_ifs with hshort hlen hlen
  · rw [sub32_of_le (by omega)]
    rfl
  · have := h.1 hlen
    rw [sub32_of_le (by omega), List.length_drop]
    rfl
  · have := h.2 hlen
    rw [sub32_of_le (by omega), List.length_drop]
    rfl
  · rfl

/-- A length that is cut off makes the counter wrap, at the end of the memory. -/
theorem skipLength_wraps {len : UInt8} {rest : Bytes}
    (h : ¬ ((len = 0x81 → 1 ≤ rest.length) ∧ (len = 0x82 → 2 ≤ rest.length))) :
    ∃ remaining, 2 ≤ remaining ∧
      skipLength len.toNat (len :: rest) (rest.length + 1) = ([], remaining) := by
  by_cases h81 : len = 0x81
  · subst h81
    have hlen : rest.length = 0 := by
      by_contra hne
      exact h ⟨fun _ => by omega, fun h => absurd h (by decide)⟩
    obtain rfl := List.length_eq_zero_iff.1 hlen
    exact ⟨sub32 1 2, by decide, rfl⟩
  by_cases h82 : len = 0x82
  · subst h82
    have hlen : rest.length < 2 := by
      by_contra hge
      exact h ⟨fun h => absurd h (by decide), fun _ => not_lt.1 hge⟩
    refine ⟨sub32 (rest.length + 1) 3, ?_, ?_⟩
    · rw [sub32, if_neg (by omega)]
      omega
    · have hdrop : ((0x82 : UInt8) :: rest).drop 3 = [] :=
        List.drop_eq_nil_of_le (by simp only [List.length_cons]; omega)
      rw [skipLength, if_neg (by decide), if_neg (by decide),
        if_pos (show (0x82 : UInt8).toNat = 0x82 from rfl), hdrop]
  · exact absurd ⟨fun h => absurd h h81, fun h => absurd h h82⟩ h

theorem innerTag_isSome (h : 2 ≤ fields.length) :
    ∃ tag tagLen, innerTag fields = some (tag, tagLen) ∧ 1 ≤ tagLen ∧ tagLen ≤ 2 := by
  obtain ⟨a, b, rest, rfl⟩ := exists_cons_cons h
  simp only [innerTag, readAt_cons_zero, readAt_cons_succ, Option.bind_eq_bind, Option.bind_some]
  split
  · exact ⟨_, _, rfl, by decide, by decide⟩
  · exact ⟨_, _, rfl, by decide, by decide⟩

theorem innerLen_isSome (h : 1 ≤ fields.length) :
    ∃ len lenBytes, innerLen fields fields.length = some (len, lenBytes) ∧ 1 ≤ lenBytes ∧
      lenBytes ≤ fields.length := by
  obtain ⟨l, hl⟩ := readAt_isSome (show 0 < fields.length by omega)
  simp only [innerLen, hl, Option.bind_eq_bind, Option.bind_some]
  split
  · rename_i h81
    obtain ⟨b, hb⟩ := readAt_isSome (show 1 < fields.length by omega)
    exact ⟨b, 2, by rw [hb]; rfl, by decide, h81.2⟩
  split
  · rename_i h82
    obtain ⟨b, hb⟩ := readAt_isSome (show 1 < fields.length by omega)
    obtain ⟨c, hc⟩ := readAt_isSome (show 2 < fields.length by omega)
    exact ⟨b * 256 + c, 3, by rw [hb, hc]; rfl, by decide, h82.2⟩
  · exact ⟨l, 1, rfl, le_rfl, h⟩

theorem targetField_isSome (tag : ℕ) {len : ℕ} (target : Target) (h : len ≤ fields.length) :
    ∃ target', targetField tag len fields target = some target' := by
  unfold targetField
  rw [readN, if_pos h]
  split_ifs
  · exact ⟨_, rfl⟩
  · exact ⟨_, rfl⟩
  · exact ⟨_, rfl⟩

/-- **The walk over the fields of a management request** compares every length with what is left,
and stays inside. -/
theorem loop_parseTargetBody_isSome (n : ℕ) :
    ∀ (fields : Bytes) (target : Target), fields.length < n →
      (loop parseTargetBody n ((fields, fields.length), target)).isSome := by
  induction n with
  | zero => exact fun _ _ h => absurd h (Nat.not_lt_zero _)
  | succ n ih =>
    intro fields target hn
    rw [loop, parseTargetBody]
    by_cases h2 : fields.length < 2
    · rw [if_pos h2]
      rfl
    obtain ⟨tag, tagLen, htag, h1, hle⟩ := innerTag_isSome (not_lt.1 h2)
    rw [if_neg h2, htag]
    simp only [Option.bind_eq_bind, Option.bind_some]
    by_cases hone : fields.length - tagLen < 1
    · rw [if_pos hone]
      rfl
    have hdrop : (fields.drop tagLen).length = fields.length - tagLen := List.length_drop
    obtain ⟨len, lenBytes, hlen, hlen1, hlenle⟩ := innerLen_isSome (hdrop ▸ not_lt.1 hone)
    rw [if_neg hone, ← hdrop, hlen]
    simp only [Option.bind_some]
    have hdrop' : ((fields.drop tagLen).drop lenBytes).length =
        (fields.drop tagLen).length - lenBytes := List.length_drop
    by_cases hover : (fields.drop tagLen).length - lenBytes < len
    · rw [if_pos hover]
      rfl
    obtain ⟨target', htarget⟩ := targetField_isSome tag target
      (hdrop' ▸ not_lt.1 hover : len ≤ ((fields.drop tagLen).drop lenBytes).length)
    rw [if_neg hover, htarget]
    have hrest : (fields.drop tagLen).length - lenBytes - len =
        (((fields.drop tagLen).drop lenBytes).drop len).length := by
      simp only [List.length_drop]
    simp only [Option.bind_some, hrest]
    refine ih _ target' ?_
    simp only [List.length_drop]
    omega

/-- **A management request**. -/
theorem parseTarget_isSome_iff (h2 : 2 ≤ data.length) :
    (parseTarget ⟨data, data.length⟩).isSome ↔ LengthFits data := by
  obtain ⟨a, b, rest, rfl⟩ := exists_cons_cons h2
  have hsub : sub32 (a :: b :: rest).length 2 = rest.length :=
    sub32_of_le (by simp only [List.length_cons]; omega)
  have hdrop : (a :: b :: rest).drop 2 = rest := rfl
  rw [parseTarget, hsub]
  dsimp only
  rw [hdrop]
  cases rest with
  | nil => exact iff_of_true (by decide) trivial
  | cons len rest =>
    rw [if_pos (show 0 < (len :: rest).length from Nat.succ_pos _), readAt_cons_zero,
      Option.map_some, List.length_cons]
    simp only [Option.bind_eq_bind, Option.bind_some]
    by_cases hfits : (len = 0x81 → 1 ≤ rest.length) ∧ (len = 0x82 → 2 ≤ rest.length)
    · rw [skipLength_behind hfits]
      exact iff_of_true (loop_parseTargetBody_isSome _ _ _ (Nat.lt_succ_self _)) hfits
    · obtain ⟨remaining, hbig, hskip⟩ := skipLength_wraps hfits
      rw [hskip]
      refine iff_of_false ?_ hfits
      have hbody : parseTargetBody (([], remaining), .init) = none := by
        rw [parseTargetBody, if_neg (by omega)]
        rfl
      rw [loop_fault hbody]
      simp

theorem segmentData_isSome : (segmentData ⟨data, data.length⟩).isSome := by
  rw [segmentData]
  split
  · rfl
  rename_i h3
  dsimp only at h3 ⊢
  obtain ⟨dataLen, hlen⟩ := readAt_isSome (show 1 < data.length by omega)
  simp only [hlen, Option.bind_eq_bind, Option.bind_some]
  split
  · rfl
  · rw [readN, if_pos (by rw [List.length_drop]; omega)]
    rfl

/-! ## Commands -/

/-- The command is in a `BF36` wrapper. -/
def Wrapped (data : Bytes) : Prop := data.take 2 = [0xBF, 0x36]

instance (data : Bytes) : Decidable (Wrapped data) := inferInstanceAs (Decidable (_ = _))

/-- The command inside a wrapper, if there are two bytes left for it. -/
def innerCommand (data : Bytes) : Bytes :=
  let inner := behindLength (data.getD 2 0) (data.drop 3)
  if Wrapped data ∧ 2 ≤ inner.length then inner else data

/-- The kind of a command, by its tag of one or two bytes. -/
def commandOf : Bytes → Es10xCommand
  | a :: b :: _ => .ofTag (if a.toNat % 32 = 31 then a.toNat * 256 + b.toNat else a.toNat)
  | _ => .unsupported

/-- The lengths in a request fit. -/
def RequestFits (state : EuiccState) (data : Bytes) : Es10xCommand → Prop
  | .authenticateServer => ServerSigned1Fits data ∧ MatchingIdFits data
  | .prepareDownload => SmdpSigned2Fits state.transactionId data ∧ SignatureFits data
  | .initialiseSecureChannel =>
    ∃ tid, FirstIdentifier [] (bf23Fields data) tid ∧
      (tid = state.transactionId → OtpkInside (bf23Fields data))
  | .enableProfile | .disableProfile | .deleteProfile => LengthFits data
  | _ => True

theorem isSome_both {α β : Type} (x : Option α) (y : Option β) :
    (x.bind fun _ => y.bind fun _ => some ()).isSome ↔ x.isSome ∧ y.isSome := by
  cases x <;> cases y <;> simp

/-- **The requests**: what a handler reads lies in the command exactly if the lengths fit. -/
theorem readRequest_isSome_iff (state : EuiccState) (h2 : 2 ≤ data.length)
    (hlt : data.length < 2 ^ 32) (c : Es10xCommand) :
    (readRequest state ⟨data, data.length⟩ c).isSome ↔ RequestFits state data c := by
  cases c with
  | authenticateServer =>
    refine (isSome_both _ _).trans ?_
    exact and_congr findServerSigned1_isSome_iff findMatchingId_isSome_iff
  | prepareDownload =>
    refine (isSome_both _ _).trans ?_
    exact and_congr scan_smdpSigned2Inside_iff (findSmdpSignature2_isSome_iff hlt)
  | initialiseSecureChannel =>
    rw [readRequest, Option.isSome_map]
    exact readBf23_isSome_iff
  | bppData =>
    rw [readRequest, Option.isSome_map]
    exact iff_of_true segmentData_isSome trivial
  | sequenceOf86 =>
    rw [readRequest, Option.isSome_map]
    exact iff_of_true segmentData_isSome trivial
  | enableProfile =>
    rw [readRequest, Option.isSome_map]
    exact parseTarget_isSome_iff h2
  | disableProfile =>
    rw [readRequest, Option.isSome_map]
    exact parseTarget_isSome_iff h2
  | deleteProfile =>
    rw [readRequest, Option.isSome_map]
    exact parseTarget_isSome_iff h2
  | unsupported =>
    rw [readRequest, Option.isSome_map, readN, if_pos (Nat.min_le_left _ _)]
    exact iff_of_true rfl trivial
  | _ => exact iff_of_true rfl trivial

theorem commandTag_cons (a b : UInt8) (rest : Bytes) (n : ℕ) :
    commandTag ⟨a :: b :: rest, n⟩ =
      some (if a.toNat % 32 = 31 then a.toNat * 256 + b.toNat else a.toNat) := by
  simp only [commandTag, readAt_cons_zero, readAt_cons_succ, Option.bind_eq_bind, Option.bind_some]
  split <;> rfl

theorem wrapped_iff (a b : UInt8) (rest : Bytes) :
    Wrapped (a :: b :: rest) ↔
      (if a.toNat % 32 = 31 then a.toNat * 256 + b.toNat else a.toNat) = 0xBF36 := by
  have ha := a.toNat_lt
  have hb := b.toNat_lt
  have hw : Wrapped (a :: b :: rest) ↔ a.toNat = 0xBF ∧ b.toNat = 0x36 := by
    simp only [Wrapped, List.take_succ_cons, List.take_zero, List.cons.injEq, and_true]
    rw [← UInt8.toNat_inj, ← UInt8.toNat_inj]
    rfl
  rw [hw]
  split <;> omega

theorem lengthFits_cons (a b len : UInt8) (rest : Bytes) :
    LengthFits (a :: b :: len :: rest) ↔
      (len = 0x81 → 1 ≤ rest.length) ∧ (len = 0x82 → 2 ≤ rest.length) := Iff.rfl

theorem innerCommand_length (data : Bytes) : (innerCommand data).length ≤ data.length := by
  have hbehind :
      (behindLength (data.getD 2 0) (data.drop 3)).length ≤ (data.drop 3).length + 1 := by
    unfold behindLength
    split_ifs <;> simp only [List.length_drop, List.length_cons] <;> omega
  rw [innerCommand]
  split
  · rename_i h
    by_cases hshort : data.length < 3
    · -- there is no length field: what the definition reads behind it has one byte at most
      rw [List.drop_eq_nil_of_le (by omega)] at hbehind h
      have := h.2
      simp only [List.length_nil] at hbehind
      omega
    · rw [List.length_drop] at hbehind
      omega
  · exact le_rfl

theorem two_le_length_innerCommand (h2 : 2 ≤ data.length) : 2 ≤ (innerCommand data).length := by
  rw [innerCommand]
  split
  · rename_i h
    exact h.2
  · exact h2

/-- A command that is not in a wrapper is taken as it is. -/
theorem decodeCommand_unwrapped (h2 : 2 ≤ data.length) (hw : ¬ Wrapped data) :
    decodeCommand ⟨data, data.length⟩ =
      some (⟨innerCommand data, (innerCommand data).length⟩, commandOf (innerCommand data)) := by
  have hinner : innerCommand data = data := if_neg fun h => hw h.1
  rw [hinner]
  obtain ⟨a, b, rest, rfl⟩ := exists_cons_cons h2
  rw [wrapped_iff] at hw
  rw [decodeCommand, commandTag_cons]
  simp only [Option.bind_eq_bind, Option.bind_some]
  rw [if_neg hw]
  rfl

/-- A command in a wrapper is what `unwrapBf36` finds in it. -/
theorem decodeCommand_bf36 {a b : UInt8} {rest : Bytes} {n : ℕ} (hw : Wrapped (a :: b :: rest)) :
    decodeCommand ⟨a :: b :: rest, n⟩ =
      (unwrapBf36 ⟨a :: b :: rest, n⟩).map fun x => (x.1, .ofTag x.2) := by
  rw [decodeCommand, commandTag_cons]
  simp only [Option.bind_eq_bind, Option.bind_some]
  rw [if_pos ((wrapped_iff a b rest).1 hw)]
  cases unwrapBf36 ⟨a :: b :: rest, n⟩ <;> rfl

/-- The wrapper is taken off once its length has been stepped over. -/
theorem unwrapBf36_cons {a b len : UInt8} {rest ptr : Bytes} {remaining : ℕ}
    (hskip : skipLength len.toNat (len :: rest) (rest.length + 1) = (ptr, remaining)) :
    unwrapBf36 ⟨a :: b :: len :: rest, (a :: b :: len :: rest).length⟩ =
      if remaining < 2 then
        some (⟨a :: b :: len :: rest, (a :: b :: len :: rest).length⟩, 0xBF36)
      else
        (commandTag ⟨ptr, remaining⟩).bind fun tag =>
          (readN ptr (min remaining 20)).map fun _ => (⟨ptr, remaining⟩, tag) := by
  have hlog : readN (a :: b :: len :: rest) (min (a :: b :: len :: rest).length 20) =
      some ((a :: b :: len :: rest).take (min (a :: b :: len :: rest).length 20)) :=
    if_pos (Nat.min_le_left _ _)
  have hdrop : (a :: b :: len :: rest).drop 2 = len :: rest := rfl
  have hlen : (a :: b :: len :: rest).length - 2 = rest.length + 1 := rfl
  rw [unwrapBf36]
  dsimp only
  rw [hlog, hdrop, hlen]
  simp only [Option.bind_eq_bind, Option.bind_some]
  rw [if_neg (Nat.succ_ne_zero _), readAt_cons_zero]
  simp only [Option.bind_some]
  rw [hskip]
  split
  · rfl
  · cases commandTag ⟨ptr, remaining⟩ with
    | none => rfl
    | some tag => cases readN ptr (min remaining 20) <;> rfl

/-- **The wrapper**: the command inside is found if the octets of the length are there. -/
theorem decodeCommand_wrapped (h2 : 2 ≤ data.length) (hw : Wrapped data) (hfits : LengthFits data) :
    decodeCommand ⟨data, data.length⟩ =
      some (⟨innerCommand data, (innerCommand data).length⟩, commandOf (innerCommand data)) := by
  obtain ⟨a, b, rest, rfl⟩ := exists_cons_cons h2
  have htag := (wrapped_iff a b rest).1 hw
  rw [decodeCommand_bf36 hw]
  cases rest with
  | nil =>
    have hinner : innerCommand [a, b] = [a, b] :=
      if_neg fun h => absurd h.2 (show ¬ 2 ≤ 0 by decide)
    rw [hinner, commandOf, htag]
    rfl
  | cons len rest =>
    rw [unwrapBf36_cons (skipLength_behind ((lengthFits_cons a b len rest).1 hfits))]
    by_cases hshort : (behindLength len rest).length < 2
    · have hinner : innerCommand (a :: b :: len :: rest) = a :: b :: len :: rest :=
        if_neg fun h => absurd h.2 (not_le.2 hshort)
      rw [if_pos hshort, hinner, commandOf, htag]
      rfl
    · have hinner : innerCommand (a :: b :: len :: rest) = behindLength len rest :=
        if_pos ⟨hw, not_lt.1 hshort⟩
      rw [if_neg hshort, hinner]
      obtain ⟨c, d, inner, hcons⟩ := exists_cons_cons (not_lt.1 hshort)
      rw [hcons, commandTag_cons, readN, if_pos (Nat.min_le_left _ _)]
      rfl

/-- **A wrapper with a length that is cut off** makes the counter wrap, and the tag inside is read
behind the end of the command. -/
theorem decodeCommand_cut (h2 : 2 ≤ data.length) (hw : Wrapped data) (hcut : ¬ LengthFits data) :
    decodeCommand ⟨data, data.length⟩ = none := by
  obtain ⟨a, b, rest, rfl⟩ := exists_cons_cons h2
  rw [decodeCommand_bf36 hw]
  cases rest with
  | nil => exact absurd trivial hcut
  | cons len rest =>
    obtain ⟨remaining, hbig, hskip⟩ := skipLength_wraps (mt (lengthFits_cons a b len rest).2 hcut)
    rw [unwrapBf36_cons hskip, if_neg (not_lt.2 hbig)]
    rfl

/-- **Reading inside a command.** Nothing is read outside a command while it is processed, exactly
if the lengths that are used fit. -/
theorem parse_isSome_iff (state : EuiccState) (data : Bytes) (hlt : data.length < 2 ^ 32) :
    (parse state data).isSome ↔
      (2 ≤ data.length → (Wrapped data → LengthFits data) ∧
        RequestFits state (innerCommand data) (commandOf (innerCommand data))) := by
  rw [parse]
  by_cases h2 : data.length < 2
  · rw [if_pos h2]
    exact iff_of_true rfl fun h => absurd h2 (not_lt.2 h)
  rw [if_neg h2]
  have hrequest := readRequest_isSome_iff state (two_le_length_innerCommand (not_lt.1 h2))
    ((innerCommand_length data).trans_lt hlt) (commandOf (innerCommand data))
  by_cases hw : Wrapped data
  · by_cases hfits : LengthFits data
    · rw [decodeCommand_wrapped (not_lt.1 h2) hw hfits]
      simp only [Option.bind_eq_bind, Option.bind_some]
      rw [hrequest]
      exact ⟨fun h _ => ⟨fun _ => hfits, h⟩, fun h => (h (not_lt.1 h2)).2⟩
    · rw [decodeCommand_cut (not_lt.1 h2) hw hfits]
      exact iff_of_false (by simp) fun h => hfits ((h (not_lt.1 h2)).1 hw)
  · rw [decodeCommand_unwrapped (not_lt.1 h2) hw]
    simp only [Option.bind_eq_bind, Option.bind_some]
    rw [hrequest]
    exact ⟨fun h _ => ⟨fun h => absurd h hw, h⟩, fun h => (h (not_lt.1 h2)).2⟩

/-- A request to enable a profile, in a wrapper. -/
def sampleWrapped : Bytes := [0xBF, 0x36, 0x06, 0xBF, 0x31, 0x03, 0x5A, 0x01, 0x00]

theorem parse_isSome_sample : (parse sampleDaemon.globalState sampleWrapped).isSome := by
  refine (parse_isSome_iff sampleDaemon.globalState sampleWrapped (by decide)).2 fun _ => ?_
  have hinner : innerCommand sampleWrapped = [0xBF, 0x31, 0x03, 0x5A, 0x01, 0x00] := by decide
  rw [hinner]
  exact ⟨fun _ => ⟨fun h => absurd h (by decide), fun h => absurd h (by decide)⟩,
    ⟨fun h => absurd h (by decide), fun h => absurd h (by decide)⟩⟩

/-- **A request of two bytes** to prepare a download is searched behind its end: three is subtracted
from its length. -/
theorem parse_behind_end : ¬ ∀ (state : EuiccState) (data : Bytes), data.length < 2 ^ 32 →
    (parse state data).isSome := by
  intro h
  exact absurd (h sampleDaemon.globalState [0xBF, 0x21] (by decide)) (by decide)

end VirtualRsp.Card
