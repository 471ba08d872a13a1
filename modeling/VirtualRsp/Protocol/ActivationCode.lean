import VirtualRsp.Protocol.Messages

/-!
# Activation codes

The server writes an activation code as fields between `$` signs: the format, which is `1`, the host
name, the token, and, if they are there, an object identifier and a flag that asks for a
confirmation code. Its own reader and the LPA's download applet take the fields apart again.

* `ActivationCode.toString`, `fromString`: the writer and reader of the server;
* `applet`: what the applet makes of its options;
* `activationCode_iff`: for which codes both readers agree with the writer, and which codes with
  another format the applet rejects. It compares with as many characters as the field has, so it
  takes an empty format for format `1`.
-/

namespace VirtualRsp.Protocol.Activation

/-! ## The server -/

/-- The strings of the server. -/
abbrev Text := List Char

/-- `ActivationCode`. -/
structure ActivationCode where
  hostname : Text
  token : Text
  oid : Option Text
  ccRequired : Bool
  format : ℕ
  deriving DecidableEq

/-- The constructor. -/
def ActivationCode.new (hostname token : Text) (oid : Option Text) (ccRequired : Bool) :
    Option ActivationCode :=
  if '$' ∈ hostname then none
  else if '$' ∈ token then none
  else some ⟨hostname, token, oid, ccRequired, 1⟩

/-- The dictionary of `decode_str`. -/
structure Elements where
  format : Text
  hostname : Text
  token : Text
  oid : Option Text
  ccRequired : Bool

/-- `decode_str`. No result is an exception. -/
def decodeStr (ac : Text) : Option Elements :=
  if ac.head? ≠ some '1' then none
  else
    match ac.splitOn '$' with
    | format :: hostname :: token :: acElements =>
      some
        { format := format
          hostname := hostname
          token := token
          oid := acElements[0]?.bind fun oid => if oid ≠ [] then some oid else none
          ccRequired := acElements[1]? = some ['1'] }
    | _ => none

/-- `from_string`. -/
def fromString (ac : Text) : Option ActivationCode :=
  (decodeStr ac).bind fun d => ActivationCode.new d.hostname d.token d.oid d.ccRequired

/-- `to_string`. -/
def ActivationCode.toString (ac : ActivationCode) (forQrcode : Bool) : Text :=
  (if forQrcode then ['L', 'P', 'A', ':'] else []) ++
    (Nat.toDigits 10 ac.format ++ '$' :: ac.hostname ++ '$' :: ac.token) ++
    (if ac.oid.getD [] ≠ [] then '$' :: ac.oid.getD []
      else if ac.ccRequired then ['$'] else []) ++
    if ac.ccRequired then ['$', '1'] else []

/-! ## The applet -/

/-- An argument of the command line: its bytes, before the NUL that ends it. -/
structure Argument where
  bytes : Bytes
  nul_not_mem : 0 ∉ bytes

/-- The options, as `getopt` goes through them. -/
structure Options where
  smdp : Option Argument
  matchingId : Option Argument
  imei : Option Argument
  confirmationCode : Option Argument
  activationCode : Option Argument

/-- The variables of `applet_main`; no value is a null pointer. -/
structure Variables where
  smdp : Option Bytes
  matchingId : Option Bytes
  imei : Option Bytes
  confirmationCode : Option Bytes
  deriving DecidableEq

/-- What is printed when the applet stops: `error_function_name` and `error_detail`. -/
structure AppletError where
  errorFunctionName : String
  errorDetail : Option String
  deriving DecidableEq

/-- What the download goes on with. -/
structure Parameters where
  serverAddress : Bytes
  matchingId : Option Bytes
  imei : Option Bytes
  confirmationCode : Option Bytes
  deriving DecidableEq

/-- `strncmp` or `strncasecmp` of two strings, whether it is zero; the strings end where the lists
do. -/
def strncmpEq (same : UInt8 → UInt8 → Bool) : ℕ → Bytes → Bytes → Bool
  | 0, _, _ => true
  | _ + 1, [], [] => true
  | n + 1, a :: as, b :: bs => same a b && strncmpEq same n as bs
  | _ + 1, _, _ => false

/-- Skip the scheme `LPA:`, in either case. -/
def stripScheme (activationCode : Bytes) : Bytes :=
  if strncmpEq (fun a b => toLower a = toLower b) 4 activationCode [76, 80, 65, 58] then
    activationCode.drop 4
  else activationCode

/-- `strsep` at a `$`: the token, and what is behind it unless the string ends with it. -/
def strsep (activationCode : Bytes) : Bytes × Option Bytes :=
  match activationCode.dropWhile (· ≠ 36) with
  | [] => (activationCode.takeWhile (· ≠ 36), none)
  | _ :: rest => (activationCode.takeWhile (· ≠ 36), some rest)

/-- The tokens, one after the other; every one but the last takes a byte away. -/
def tokensFuel : ℕ → Bytes → List Bytes
  | 0, _ => []
  | fuel + 1, activationCode =>
    match strsep activationCode with
    | (token, none) => [token]
    | (token, some rest) => token :: tokensFuel fuel rest

/-- The tokens of an activation code. -/
def tokens (activationCode : Bytes) : List Bytes :=
  tokensFuel (activationCode.length + 1) activationCode

/-- `isalnum`, for ASCII. -/
def isalnum (c : UInt8) : Bool :=
  (48 ≤ c && c ≤ 57) || (65 ≤ c && c ≤ 90) || (97 ≤ c && c ≤ 122)

/-- `is_strict_matching_id`. -/
def isStrictMatchingId (token : Bytes) : Bool := token.all fun c => isalnum c || c = 45

/-- `strncmp(token, "1", strlen(token)) == 0`. -/
def startsOne (token : Bytes) : Bool := strncmpEq (fun a b => a = b) token.length token [49]

/-- A field of the activation code. -/
def field (index : ℕ) (token : Bytes) (v : Variables) : Except AppletError Variables :=
  match index with
  | 0 => if startsOne token then .ok v else .error ⟨"activation_code", some "invalid"⟩
  | 1 => .ok { v with smdp := some token }
  | 2 =>
    if isStrictMatchingId token then .ok { v with matchingId := some token }
    else .error ⟨"matching_id",
      some "invalid format, contains character not alphanumeric or dash"⟩
  | 3 => .ok v
  | 4 =>
    if startsOne token ∧ v.confirmationCode = none then
      .error ⟨"confirmation_code", some "required"⟩
    else .ok v
  | _ => .ok v

/-- The fields, from an index on. -/
def parseFields : ℕ → List Bytes → Variables → Except AppletError Variables
  | _, [], v => .ok v
  | index, token :: tokens, v => do
    let v ← field index token v
    parseFields (index + 1) tokens v

/-- The server that is asked: the one of the code or the options, or else the default of the card,
which may be missing or fail to be read. -/
def serverAddress (configured : Option (Option Bytes)) (smdp : Option Bytes) :
    Except AppletError Bytes := do
  let smdp ← match smdp, configured with
    | some smdp, _ => .ok (some smdp)
    | none, none => .error ⟨"es10a_get_euicc_configured_addresses", none⟩
    | none, some defaultDpAddress => .ok defaultDpAddress
  match smdp with
  | none => .error ⟨"smdp", some "empty"⟩
  | some smdp => if smdp = [] then .error ⟨"smdp", some "empty"⟩ else .ok smdp

/-- The variables after the options. -/
def Options.variables (o : Options) : Variables :=
  ⟨o.smdp.map Argument.bytes, o.matchingId.map Argument.bytes, o.imei.map Argument.bytes,
    o.confirmationCode.map Argument.bytes⟩

/-- The part of `applet_main` before the download. -/
def applet (configured : Option (Option Bytes)) (o : Options) : Except AppletError Parameters := do
  let v ← match o.activationCode with
    | none => .ok o.variables
    | some activationCode =>
      parseFields 0 (tokens (stripScheme activationCode.bytes)) o.variables
  let smdp ← serverAddress configured v.smdp
  return ⟨smdp, v.matchingId, v.imei, v.confirmationCode⟩

/-! ## The fields of a code -/

theorem ne_of_notMem {token : Bytes} (h : 36 ∉ token) : ∀ c ∈ token, decide (c ≠ 36) = true :=
  fun _ hc => decide_eq_true fun e => h (e ▸ hc)

theorem strsep_append {token : Bytes} (h : 36 ∉ token) (rest : Bytes) :
    strsep (token ++ 36 :: rest) = (token, some rest) := by
  have hdrop : (token ++ 36 :: rest).dropWhile (· ≠ 36) = 36 :: rest := by
    rw [List.dropWhile_append_of_pos (ne_of_notMem h)]
    rfl
  have htake : (token ++ 36 :: rest).takeWhile (· ≠ 36) = token := by
    rw [List.takeWhile_append_of_pos (ne_of_notMem h)]
    exact List.append_nil _
  rw [strsep, hdrop, htake]

theorem strsep_last {token : Bytes} (h : 36 ∉ token) : strsep token = (token, none) := by
  rw [strsep, List.dropWhile_eq_nil_iff.2 (ne_of_notMem h),
    List.takeWhile_eq_self_iff.2 (ne_of_notMem h)]

theorem tokensFuel_eq {fuel : ℕ} {activationCode : Bytes} (hf : activationCode.length < fuel) :
    tokensFuel fuel activationCode = activationCode.splitOn 36 := by
  induction fuel generalizing activationCode with
  | zero => exact absurd hf (Nat.not_lt_zero _)
  | succ fuel ih =>
    by_cases hmem : (36 : UInt8) ∈ activationCode
    · obtain ⟨token, rest, rfl, hnot⟩ := List.eq_append_cons_of_mem hmem
      rw [tokensFuel, strsep_append hnot, List.splitOn_append_cons_self_of_not_mem hnot]
      rw [List.length_append, List.length_cons] at hf
      dsimp only
      rw [ih (by omega)]
    · rw [tokensFuel, strsep_last hmem, List.splitOn_eq_singleton hmem]

/-- **The tokens** are the fields between the `$` signs. -/
theorem tokens_eq (activationCode : Bytes) : tokens activationCode = activationCode.splitOn 36 :=
  tokensFuel_eq (Nat.lt_succ_self _)

theorem startsOne_iff {token : Bytes} : startsOne token = true ↔ token = [] ∨ token = [49] := by
  rcases token with _ | ⟨c, _ | ⟨d, token⟩⟩
  · exact iff_of_true rfl (.inl rfl)
  · simp [startsOne, strncmpEq]
  · simp [startsOne, strncmpEq]

theorem parseFields_of_le {index : ℕ} (h : 5 ≤ index) (tokens : List Bytes) (v : Variables) :
    parseFields index tokens v = .ok v := by
  induction tokens generalizing index with
  | nil => rfl
  | cons token tokens ih =>
    obtain ⟨k, rfl⟩ := Nat.exists_eq_add_of_le' h
    exact ih (Nat.le_succ_of_le h)

/-- **The loop over the fields**: three of them can be refused, and two are kept. -/
theorem parseFields_eq (fs : List Bytes) (v : Variables) :
    parseFields 0 fs v =
      if fs[0]?.any (!startsOne ·) then .error ⟨"activation_code", some "invalid"⟩
      else if fs[2]?.any (!isStrictMatchingId ·) then .error ⟨"matching_id",
        some "invalid format, contains character not alphanumeric or dash"⟩
      else if fs[4]?.any startsOne ∧ v.confirmationCode = none then
        .error ⟨"confirmation_code", some "required"⟩
      else .ok { v with smdp := fs[1]?.or v.smdp, matchingId := fs[2]?.or v.matchingId } := by
  rcases fs with _ | ⟨f0, _ | ⟨f1, _ | ⟨f2, _ | ⟨f3, _ | ⟨f4, fs⟩⟩⟩⟩⟩
  · rfl
  all_goals
    cases h0 : startsOne f0
    · simp [parseFields, field, h0, bind, Except.bind]
  · simp [parseFields, field, h0, bind, Except.bind]
  · simp [parseFields, field, h0, bind, Except.bind]
  · cases h2 : isStrictMatchingId f2 <;> simp [parseFields, field, h0, h2, bind, Except.bind]
  · cases h2 : isStrictMatchingId f2 <;> simp [parseFields, field, h0, h2, bind, Except.bind]
  · cases h2 : isStrictMatchingId f2
    · simp [parseFields, field, h0, h2, bind, Except.bind]
    · by_cases h4 : startsOne f4 = true ∧ v.confirmationCode = none
      · simp [parseFields, field, h0, h2, h4, bind, Except.bind]
      · simp [parseFields, field, h0, h2, h4, bind, Except.bind, parseFields_of_le]

/-! ## Texts and bytes -/

/-- The bytes of a text. -/
def utf8 (text : Text) : Bytes := text.flatMap String.utf8EncodeChar

/-- A character is one byte below 128, or bytes from 128 on. -/
theorem utf8EncodeChar_cases (c : Char) :
    (c.toNat < 128 ∧ String.utf8EncodeChar c = [UInt8.ofNat c.toNat]) ∨
      (128 ≤ c.toNat ∧ ∀ b ∈ String.utf8EncodeChar c, 128 ≤ b.toNat) := by
  have hhigh : ∀ n, 128 ≤ n → n < 256 → 128 ≤ (UInt8.ofNat n).toNat := fun n hle hlt => by
    rwa [UInt8.toNat_ofNat', Nat.mod_eq_of_lt hlt]
  have hc : c.val.toNat = c.toNat := rfl
  unfold String.utf8EncodeChar
  dsimp only
  rw [hc]
  split
  · exact .inl ⟨by omega, rfl⟩
  · refine .inr ⟨by omega, fun b hb => ?_⟩
    have := c.val.toNat_lt
    split at hb
    · simp only [List.mem_cons, List.not_mem_nil, or_false] at hb
      rcases hb with rfl | rfl
      · exact hhigh _ (by omega) (by omega)
      · exact hhigh _ (by omega) (by omega)
    · split at hb
      · simp only [List.mem_cons, List.not_mem_nil, or_false] at hb
        rcases hb with rfl | rfl | rfl
        · exact hhigh _ (by omega) (by omega)
        · exact hhigh _ (by omega) (by omega)
        · exact hhigh _ (by omega) (by omega)
      · simp only [List.mem_cons, List.not_mem_nil, or_false] at hb
        rcases hb with rfl | rfl | rfl | rfl
        · exact hhigh _ (by omega) (by omega)
        · exact hhigh _ (by omega) (by omega)
        · exact hhigh _ (by omega) (by omega)
        · exact hhigh _ (by omega) (by omega)

/-- The separator stands for itself only. -/
theorem dollar_not_mem_utf8 {text : Text} (h : '$' ∉ text) : 36 ∉ utf8 text := by
  intro hmem
  obtain ⟨c, hc, hb⟩ := List.mem_flatMap.1 hmem
  rcases utf8EncodeChar_cases c with ⟨hlt, henc⟩ | ⟨-, hhigh⟩
  · rw [henc, List.mem_singleton] at hb
    have hnat : c.toNat = 36 := by
      have := congrArg UInt8.toNat hb
      rw [UInt8.toNat_ofNat', Nat.mod_eq_of_lt (by omega)] at this
      exact this.symm
    have hdollar : c = '$' := Char.ext (UInt32.toNat_inj.1 hnat)
    exact h (hdollar ▸ hc)
  · exact absurd (hhigh _ hb) (by decide)

theorem utf8_ne_nil {text : Text} : utf8 text = [] ↔ text = [] := by
  rw [utf8, List.flatMap_eq_nil_iff]
  constructor
  · intro h
    cases text with
    | nil => rfl
    | cons c text => exact absurd (h c List.mem_cons_self) String.utf8EncodeChar_ne_nil
  · rintro rfl c hc
    exact absurd hc List.not_mem_nil

/-- The characters of a token. -/
def IsTokenChar (c : Char) : Prop := c.isAlphanum = true ∨ c = '-'

instance : DecidablePred IsTokenChar := fun _ => inferInstanceAs (Decidable (_ ∨ _))

theorem isTokenChar_iff (c : Char) : IsTokenChar c ↔ (48 ≤ c.toNat ∧ c.toNat ≤ 57) ∨
    (65 ≤ c.toNat ∧ c.toNat ≤ 90) ∨ (97 ≤ c.toNat ∧ c.toNat ≤ 122) ∨ c.toNat = 45 := by
  have hdash : c = '-' ↔ c.toNat = 45 :=
    ⟨fun h => h ▸ rfl, fun h => Char.ext (UInt32.toNat_inj.1 h)⟩
  have halnum : c.isAlphanum = ((decide (c.val ≥ 'A'.val ∧ c.val ≤ 'Z'.val) ||
    (c.val ≥ 'a'.val && c.val ≤ 'z'.val)) || (c.val ≥ '0'.val && c.val ≤ '9'.val)) := rfl
  simp only [IsTokenChar, halnum, Bool.or_eq_true, Bool.and_eq_true, decide_eq_true_eq, ge_iff_le,
    UInt32.le_iff_toNat_le, hdash]
  change (((65 ≤ c.toNat ∧ c.toNat ≤ 90) ∨ (97 ≤ c.toNat ∧ c.toNat ≤ 122)) ∨
    (48 ≤ c.toNat ∧ c.toNat ≤ 57)) ∨ c.toNat = 45 ↔ _
  omega

theorem isStrictMatchingId_utf8 {token : Text} (h : ∀ c ∈ token, IsTokenChar c) :
    isStrictMatchingId (utf8 token) = true := by
  rw [isStrictMatchingId, List.all_eq_true]
  intro b hb
  obtain ⟨c, hc, hb⟩ := List.mem_flatMap.1 hb
  have hrange := (isTokenChar_iff c).1 (h c hc)
  rcases utf8EncodeChar_cases c with ⟨hlt, henc⟩ | ⟨hle, -⟩
  · rw [henc, List.mem_singleton] at hb
    have hnat : b.toNat = c.toNat := by
      rw [hb, UInt8.toNat_ofNat', Nat.mod_eq_of_lt (by omega)]
    have hdash : b = 45 ↔ b.toNat = 45 := UInt8.toNat_inj.symm
    simp only [isalnum, Bool.or_eq_true, Bool.and_eq_true, decide_eq_true_eq,
      UInt8.le_iff_toNat_le, hdash, hnat]
    exact or_assoc.2 (or_assoc.2 hrange)
  · omega

theorem utf8_append (s t : Text) : utf8 (s ++ t) = utf8 s ++ utf8 t := List.flatMap_append

theorem utf8_intercalate (fs : List Text) :
    utf8 (['$'].intercalate fs) = [36].intercalate (fs.map utf8) := by
  induction fs with
  | nil => rfl
  | cons f fs ih =>
    cases fs with
    | nil => simp
    | cons g fs =>
      have hmap : (f :: g :: fs).map utf8 = utf8 f :: utf8 g :: fs.map utf8 := rfl
      rw [List.intercalate_cons_cons, utf8_append, utf8_append, ih, hmap,
        List.intercalate_cons_cons]
      rfl

/-! ## What the server writes -/

variable {hostname token : Text} {oid : Option Text} {ccRequired : Bool} {ac : ActivationCode}

theorem new_eq_some (h : ActivationCode.new hostname token oid ccRequired = some ac) :
    ac = ⟨hostname, token, oid, ccRequired, 1⟩ ∧ '$' ∉ hostname ∧ '$' ∉ token := by
  rw [ActivationCode.new, Option.ite_none_left_eq_some, Option.ite_none_left_eq_some] at h
  obtain ⟨hhost, htoken, h⟩ := h
  exact ⟨(Option.some.inj h).symm, hhost, htoken⟩

/-- The fields that are written. -/
def textFields (hostname token : Text) (oid : Option Text) (ccRequired : Bool) : List Text :=
  ['1'] :: hostname :: token ::
    ((if oid.getD [] ≠ [] ∨ ccRequired then [oid.getD []] else []) ++
      if ccRequired then [['1']] else [])

theorem toString_eq (hostname token : Text) (oid : Option Text) (ccRequired forQrcode : Bool) :
    (ActivationCode.mk hostname token oid ccRequired 1).toString forQrcode =
      (if forQrcode then ['L', 'P', 'A', ':'] else []) ++
        ['$'].intercalate (textFields hostname token oid ccRequired) := by
  have hone : Nat.toDigits 10 1 = ['1'] := by decide
  rw [ActivationCode.toString, List.append_assoc, List.append_assoc, hone]
  congr 1
  by_cases hoid : oid.getD [] = []
  · cases ccRequired <;> simp [textFields, hoid]
  · cases ccRequired <;> simp [textFields, hoid]

theorem dollar_not_mem_textFields (hhost : '$' ∉ hostname) (htoken : '$' ∉ token)
    (hoid : ∀ text ∈ oid, '$' ∉ text) :
    ∀ f ∈ textFields hostname token oid ccRequired, '$' ∉ f := by
  have hoid' : '$' ∉ oid.getD [] := by
    cases oid with
    | none => exact List.not_mem_nil
    | some text => exact hoid text rfl
  intro f hf
  simp only [textFields, List.mem_cons, List.mem_append] at hf
  rcases hf with rfl | rfl | rfl | hf | hf
  · decide
  · exact hhost
  · exact htoken
  · split at hf
    · rw [List.mem_singleton.1 hf]
      exact hoid'
    · exact absurd hf List.not_mem_nil
  · split at hf
    · rw [List.mem_singleton.1 hf]
      decide
    · exact absurd hf List.not_mem_nil

/-- **The server reads back what it writes**, but for an object identifier without characters. -/
theorem fromString_toString (hhost : '$' ∉ hostname) (htoken : '$' ∉ token)
    (hoid : ∀ text ∈ oid, '$' ∉ text) :
    fromString ((ActivationCode.mk hostname token oid ccRequired 1).toString false) =
      some ⟨hostname, token, if oid = some [] then none else oid, ccRequired, 1⟩ := by
  have hsplit := List.splitOn_intercalate '$'
    (@dollar_not_mem_textFields hostname token oid ccRequired hhost htoken hoid)
    (List.cons_ne_nil _ _)
  have hhead : (['$'].intercalate (textFields hostname token oid ccRequired)).head? = some '1' := by
    rw [textFields, List.intercalate_cons_cons]
    rfl
  have hnew : ∀ oid ccRequired, ActivationCode.new hostname token oid ccRequired =
      some ⟨hostname, token, oid, ccRequired, 1⟩ := fun oid ccRequired => by
    rw [ActivationCode.new, if_neg hhost, if_neg htoken]
  rw [toString_eq, if_neg Bool.false_ne_true, List.nil_append, fromString, decodeStr,
    if_neg (not_not_intro hhead), hsplit]
  rcases oid with _ | _ | ⟨c, oid⟩
  · cases ccRequired <;> simp [textFields, hnew]
  · cases ccRequired <;> simp [textFields, hnew]
  · cases ccRequired <;> simp [textFields, hnew]

/-- The scheme is skipped, and nothing else. -/
theorem stripScheme_toString (forQrcode : Bool) (fs : List Text) :
    stripScheme (utf8 ((if forQrcode then ['L', 'P', 'A', ':'] else []) ++
      ['$'].intercalate (['1'] :: fs))) = utf8 (['$'].intercalate (['1'] :: fs)) := by
  obtain ⟨rest, hrest⟩ : ∃ rest, ['$'].intercalate (['1'] :: fs) = '1' :: rest := by
    cases fs with
    | nil => exact ⟨[], rfl⟩
    | cons f fs => exact ⟨_, List.intercalate_cons_cons⟩
  rw [hrest, utf8_append]
  cases forQrcode with
  | true => rfl
  | false => rfl

/-- **The applet's fields** of what the server writes. -/
theorem tokens_toString (hhost : '$' ∉ hostname) (htoken : '$' ∉ token)
    (hoid : ∀ text ∈ oid, '$' ∉ text) (forQrcode : Bool) :
    tokens (stripScheme (utf8 ((ActivationCode.mk hostname token oid ccRequired 1).toString
      forQrcode))) = (textFields hostname token oid ccRequired).map utf8 := by
  rw [toString_eq, textFields, stripScheme_toString, tokens_eq, ← textFields, utf8_intercalate]
  refine List.splitOn_intercalate 36 (fun f hf => ?_) (by simp [textFields])
  obtain ⟨text, htext, rfl⟩ := List.mem_map.1 hf
  exact dollar_not_mem_utf8 (dollar_not_mem_textFields hhost htoken hoid text htext)

/-! ## What the applet makes of it -/

/-- The options with an activation code. -/
def Options.withCode (o : Options) (code : Argument) : Options :=
  { o with activationCode := some code }

variable {configured : Option (Option Bytes)} {o : Options}

theorem variables_confirmationCode (o : Options) :
    o.variables.confirmationCode = none ↔ o.confirmationCode = none := Option.map_eq_none_iff

/-- The address of the server, if there is one. -/
def address (configured : Option (Option Bytes)) (smdp : Option Bytes) : Option Bytes :=
  (smdp.or configured.join).bind fun smdp => if smdp = [] then none else some smdp

theorem serverAddress_eq_ok {smdp : Option Bytes} {server : Bytes} :
    serverAddress configured smdp = .ok server ↔ address configured smdp = some server := by
  rcases smdp with _ | _ | ⟨c, smdp⟩
  · rcases configured with _ | _ | _ | ⟨c, default⟩ <;>
      simp [serverAddress, address, bind, Except.bind]
  · simp [serverAddress, address, bind, Except.bind]
  · simp [serverAddress, address, bind, Except.bind]

/-- The fields of a code. -/
def fields (code : Argument) : List Bytes := (stripScheme code.bytes).splitOn 36

/-- There is a field for the format, also in an empty code. -/
theorem fields_zero (code : Argument) : ∃ format, (fields code)[0]? = some format := by
  cases h : fields code with
  | nil => exact absurd h (List.splitOn_ne_nil _ _)
  | cons format rest => exact ⟨format, rfl⟩

/-- What refuses a code after its format: the token has other characters than letters, digits and
`-`, a confirmation code is asked for and there is none, or there is no server address. An empty
flag asks for a confirmation code as `1` does. -/
def RestRefused (configured : Option (Option Bytes)) (o : Options) (code : Argument) : Prop :=
  (∃ token, (fields code)[2]? = some token ∧ isStrictMatchingId token = false) ∨
    (((fields code)[4]? = some [] ∨ (fields code)[4]? = some [49]) ∧ o.confirmationCode = none) ∨
    address configured ((fields code)[1]?.or (o.smdp.map Argument.bytes)) = none

/-- The applet takes the fields apart and looks for the server. -/
theorem applet_withCode (code : Argument) : applet configured (o.withCode code) =
    (parseFields 0 (fields code) o.variables).bind fun v =>
      (serverAddress configured v.smdp).bind fun smdp =>
        .ok ⟨smdp, v.matchingId, v.imei, v.confirmationCode⟩ := by
  rw [fields, ← tokens_eq]
  rfl

theorem any_startsOne_iff {f : Option Bytes} :
    f.any startsOne = true ↔ f = some [] ∨ f = some [49] := by
  cases f with
  | none => simp
  | some token => simp [startsOne_iff]

theorem any_not_startsOne_iff {f : Option Bytes} :
    f.any (!startsOne ·) = true ↔ ∃ format, f = some format ∧ format ≠ [] ∧ format ≠ [49] := by
  cases f with
  | none => simp
  | some format =>
    have hformat : startsOne format = false ↔ format ≠ [] ∧ format ≠ [49] := by
      rw [← Bool.not_eq_true, startsOne_iff, not_or]
    simp [hformat]

theorem any_not_strict_iff {f : Option Bytes} : f.any (!isStrictMatchingId ·) = true ↔
    ∃ token, f = some token ∧ isStrictMatchingId token = false := by
  cases f with
  | none => simp
  | some token => simp

/-- **The applet goes on** with a code if its format is `1` or empty, and nothing else refuses it.
-/
theorem applet_error_iff (code : Argument) :
    (∃ e, applet configured (o.withCode code) = .error e) ↔
      (∃ format, (fields code)[0]? = some format ∧ format ≠ [] ∧ format ≠ [49]) ∨
        RestRefused configured o code := by
  rw [applet_withCode, parseFields_eq]
  by_cases hformat : (fields code)[0]?.any (!startsOne ·) = true
  · rw [if_pos hformat]
    exact iff_of_true ⟨_, rfl⟩ (.inl (any_not_startsOne_iff.1 hformat))
  rw [if_neg hformat, or_iff_right (mt any_not_startsOne_iff.2 hformat)]
  by_cases htoken : (fields code)[2]?.any (!isStrictMatchingId ·) = true
  · rw [if_pos htoken]
    exact iff_of_true ⟨_, rfl⟩ (.inl (any_not_strict_iff.1 htoken))
  rw [if_neg htoken, RestRefused, or_iff_right (mt any_not_strict_iff.2 htoken),
    ← any_startsOne_iff, ← variables_confirmationCode]
  by_cases hflag : (fields code)[4]?.any startsOne = true ∧ o.variables.confirmationCode = none
  · rw [if_pos hflag]
    exact iff_of_true ⟨_, rfl⟩ (.inl hflag)
  rw [if_neg hflag, or_iff_right hflag]
  let smdp := (fields code)[1]?.or (o.smdp.map Argument.bytes)
  change (∃ e, (serverAddress configured smdp).bind _ = .error e) ↔ address configured smdp = none
  cases hserver : serverAddress configured smdp with
  | error e =>
    refine iff_of_true ⟨e, rfl⟩ (Option.eq_none_iff_forall_ne_some.2 fun server h => ?_)
    rw [serverAddress_eq_ok.2 h] at hserver
    cases hserver
  | ok server =>
    refine iff_of_false (fun ⟨e, h⟩ => by cases h) ?_
    rw [serverAddress_eq_ok.1 hserver]
    exact Option.some_ne_none server

/-! ## Agreement -/

theorem textFields_flag (hostname token : Text) (oid : Option Text) (ccRequired : Bool) :
    ((textFields hostname token oid ccRequired).map utf8)[4]? =
      if ccRequired then some [49] else none := by
  by_cases hoid : oid.getD [] = []
  · cases ccRequired <;> simp [textFields, hoid, utf8, String.utf8EncodeChar]
  · cases ccRequired <;> simp [textFields, hoid, utf8, String.utf8EncodeChar]

theorem textFields_flag_startsOne (hostname token : Text) (oid : Option Text) (ccRequired : Bool) :
    ((textFields hostname token oid ccRequired).map utf8)[4]?.any startsOne = ccRequired := by
  rw [textFields_flag]
  cases ccRequired with
  | true => rfl
  | false => rfl

/-- The applet's loop over the fields that the server writes. -/
theorem parseFields_textFields (htoken : ∀ c ∈ token, IsTokenChar c) (v : Variables) :
    parseFields 0 ((textFields hostname token oid ccRequired).map utf8) v =
      if ccRequired = true ∧ v.confirmationCode = none then
        .error ⟨"confirmation_code", some "required"⟩
      else .ok { v with smdp := some (utf8 hostname), matchingId := some (utf8 token) } := by
  have hstrict : ((textFields hostname token oid ccRequired).map utf8)[2]?.any
      (!isStrictMatchingId ·) = false := by
    change (!isStrictMatchingId (utf8 token)) = false
    rw [isStrictMatchingId_utf8 htoken]
    rfl
  have hformat : ((textFields hostname token oid ccRequired).map utf8)[0]?.any
      (!startsOne ·) = false := rfl
  rw [parseFields_eq, hformat, hstrict, textFields_flag_startsOne, if_neg Bool.false_ne_true,
    if_neg Bool.false_ne_true]
  rfl

/-- **What the applet makes of a code that the server writes**, with or without the scheme. -/
theorem applet_toString (hac : ActivationCode.new hostname token oid ccRequired = some ac)
    (htoken : ∀ c ∈ token, IsTokenChar c) (hoid : ∀ text ∈ oid, '$' ∉ text) {code : Argument}
    {forQrcode : Bool} (hcode : code.bytes = utf8 (ac.toString forQrcode)) :
    applet configured (o.withCode code) =
      if ccRequired = true ∧ o.confirmationCode = none then
        .error ⟨"confirmation_code", some "required"⟩
      else if hostname = [] then .error ⟨"smdp", some "empty"⟩
      else .ok ⟨utf8 hostname, some (utf8 token), o.imei.map Argument.bytes,
        o.confirmationCode.map Argument.bytes⟩ := by
  obtain ⟨rfl, hhost, hdollar⟩ := new_eq_some hac
  rw [applet_withCode, fields, hcode, ← tokens_eq, tokens_toString hhost hdollar hoid,
    parseFields_textFields htoken]
  by_cases hcc : ccRequired = true ∧ o.confirmationCode = none
  · rw [if_pos hcc, if_pos ⟨hcc.1, variables_confirmationCode o |>.2 hcc.2⟩]
    rfl
  rw [if_neg hcc, if_neg fun h => hcc ⟨h.1, (variables_confirmationCode o).1 h.2⟩]
  by_cases hempty : hostname = []
  · rw [if_pos hempty, hempty]
    rfl
  · rw [if_neg hempty]
    have hserver : serverAddress configured (some (utf8 hostname)) = .ok (utf8 hostname) :=
      serverAddress_eq_ok.2 (if_neg (mt utf8_ne_nil.1 hempty))
    change (serverAddress configured (some (utf8 hostname))).bind _ = _
    rw [hserver]
    rfl

/-- The applet agrees with the server about a code: it uses the host name and the token, and it asks
for a confirmation code, if it has none, when the code says so. -/
structure AppletAgrees (ac : ActivationCode) (code : Argument) : Prop where
  uses : ∀ configured (o : Options), (ac.ccRequired = true → o.confirmationCode ≠ none) →
    applet configured (o.withCode code) = .ok ⟨utf8 ac.hostname, some (utf8 ac.token),
      o.imei.map Argument.bytes, o.confirmationCode.map Argument.bytes⟩
  refuses : ∀ configured (o : Options), o.confirmationCode = none →
    (applet configured (o.withCode code) = .error ⟨"confirmation_code", some "required"⟩ ↔
      ac.ccRequired = true)

theorem appletAgrees_iff (hac : ActivationCode.new hostname token oid ccRequired = some ac)
    (htoken : ∀ c ∈ token, IsTokenChar c) (hoid : ∀ text ∈ oid, '$' ∉ text) {code : Argument}
    {forQrcode : Bool} (hcode : code.bytes = utf8 (ac.toString forQrcode)) :
    AppletAgrees ac code ↔ ac.hostname ≠ [] := by
  have happlet := fun configured o => @applet_toString hostname token oid ccRequired ac configured o
    hac htoken hoid code forQrcode hcode
  obtain ⟨rfl, -, -⟩ := new_eq_some hac
  constructor
  · rintro ⟨uses, -⟩ rfl
    let o : Options := ⟨none, none, none, some ⟨[], List.not_mem_nil⟩, none⟩
    have huses := uses none o fun _ => Option.some_ne_none _
    rw [happlet, if_neg fun h => Option.some_ne_none _ h.2, if_pos rfl] at huses
    cases huses
  · refine fun hhost => ⟨fun configured o hcc => ?_, fun configured o hcc => ?_⟩
    · rw [happlet, if_neg fun h => hcc h.1 h.2, if_neg hhost]
    · rw [happlet, if_neg hhost]
      constructor
      · intro h
        by_contra hflag
        rw [if_neg fun h => hflag h.1] at h
        cases h
      · exact fun hflag => if_pos ⟨hflag, hcc⟩

/-- **Activation codes.** The server reads back a code that it writes unless its object identifier
is there without characters, and the applet agrees with it unless the host name is empty. Of the
codes whose format is not `1`, the applet rejects those whose format is not empty, and of the others
those that something else refuses. -/
theorem activationCode_iff (hostname token : Text) (oid : Option Text) (ccRequired : Bool)
    (ac : ActivationCode) (hac : ActivationCode.new hostname token oid ccRequired = some ac)
    (htoken : ∀ c ∈ token, IsTokenChar c) (hoid : ∀ text ∈ oid, '$' ∉ text) :
    (fromString (ac.toString false) = some ac ↔ ac.oid ≠ some []) ∧
      (∀ (code : Argument) forQrcode, code.bytes = utf8 (ac.toString forQrcode) →
        (AppletAgrees ac code ↔ ac.hostname ≠ [])) ∧
      ∀ configured (o : Options) (code : Argument), (fields code)[0]? ≠ some [49] →
        ((∃ e, applet configured (o.withCode code) = .error e) ↔
          (fields code)[0]? ≠ some [] ∨ RestRefused configured o code) := by
  refine ⟨?_, fun code forQrcode hcode => appletAgrees_iff hac htoken hoid hcode,
    fun configured o code hformat => ?_⟩
  · obtain ⟨rfl, hhost, hdollar⟩ := new_eq_some hac
    rw [fromString_toString hhost hdollar hoid, Option.some_inj, ActivationCode.mk.injEq]
    by_cases hempty : oid = some []
    · rw [if_pos hempty]
      exact iff_of_false (fun h => Option.some_ne_none _ (hempty.symm.trans h.2.2.1.symm))
        (not_not_intro hempty)
    · rw [if_neg hempty]
      exact iff_of_true ⟨rfl, rfl, rfl, rfl, rfl⟩ hempty
  · obtain ⟨format, hfirst⟩ := fields_zero code
    rw [applet_error_iff, hfirst]
    rw [hfirst] at hformat
    refine or_congr_left ⟨?_, fun h =>
      ⟨format, rfl, fun e => h (e ▸ rfl), fun e => hformat (e ▸ rfl)⟩⟩
    rintro ⟨format', heq, hne, -⟩ h
    exact hne (Option.some.inj (heq.symm.trans h))

def sampleCode : ActivationCode := ⟨['h'], ['A', '-', '7'], some ['1', '.', '3'], true, 1⟩

/-- `LPA:1$h$A-7$1.3$1`. -/
def sampleArgument : Argument := ⟨utf8 (sampleCode.toString true), by decide +kernel⟩

theorem activationCode_iff_sample :
    fromString (sampleCode.toString false) = some sampleCode ∧
      AppletAgrees sampleCode sampleArgument ∧
      ∃ e, applet none (Options.withCode ⟨none, none, none, none, none⟩
        ⟨[50, 36, 104, 36, 116], by decide⟩) = .error e := by
  obtain ⟨hserver, happlet, hformat⟩ :=
    activationCode_iff ['h'] ['A', '-', '7'] (some ['1', '.', '3']) true sampleCode rfl
      (by simp [isTokenChar_iff]) (by simp)
  refine ⟨hserver.2 fun h => List.cons_ne_nil _ _ (Option.some.inj h),
    (happlet sampleArgument true rfl).2 (List.cons_ne_nil _ _), ?_⟩
  -- a code `2$h$t`
  exact (hformat none _ _ (by decide +kernel)).2 (.inl (by decide +kernel))

/-- The applet accepts `$h$t`. -/
theorem applet_accepts_empty_format :
    (fields ⟨[36, 104, 36, 116], by decide⟩)[0]? ≠ some [49] ∧
      applet none (Options.withCode ⟨none, none, none, none, none⟩
        ⟨[36, 104, 36, 116], by decide⟩) = .ok ⟨[104], some [116], none, none⟩ :=
  ⟨by decide +kernel, rfl⟩

end VirtualRsp.Protocol.Activation
