import VirtualRsp.Lpa.DownloadChain

/-!
# The answer to AuthenticateClient

`es9p_authenticate_client` asks the server for the parameters of PrepareDownload, first in the flat
form (`keysV22`), and if that fails in the nested form (`keysV25`). Both exchanges write into the
same memory, which is not initialised, and a field that the nested answer lacks keeps what it held.

* `transJson`: an exchange, with the keys it looks for and where it stores their values;
* `authenticateClientR`: the two attempts;
* `fromServer_iff`: when the call takes its result from one answer only.
-/

namespace VirtualRsp.Lpa.Download

open Protocol

/-! ## Exchanges -/

/-- What a transmission yields: nothing if it fails, otherwise the status code and the body. -/
abbrev Reply := Option (ℕ × Bytes)

/-- `strdup`. -/
def strdup (s : Bytes) : Bytes := s.takeWhile (· ≠ 0)

/-- A key to look for; `oobj` says that its value need not be a string, `optr` where it is stored.
-/
structure Key (σ : Type) where
  okey : Bytes
  oobj : Bool
  optr : Pointer → σ → σ

variable {σ : Type}

/-- Look for keys, in order, and store their values up to the first that is missing or of the wrong
type. -/
def readKeys (rjroot : Json) : List (Key σ) → σ → σ × Bool
  | [], s => (s, true)
  | key :: keys, s =>
    match getObjectItem rjroot key.okey with
    | none => (s, false)
    | some (.string valuestring) => readKeys rjroot keys (key.optr (.text (strdup valuestring)) s)
    | some obj => if key.oobj then readKeys rjroot keys (key.optr (.json obj) s) else (s, false)

/-- The object of an answer, if it is one with a status. -/
def answerRoot (c : CJson) (reply : Reply) : Option Json := do
  let (rcode, rbuf) ← reply
  if rcode / 100 ≠ 2 then none
  else
    match ← c.parse rbuf with
    | .object members =>
      let rjheader ← getObjectItem (.object members) (ascii "header")
      let _ ← getObjectItem rjheader (ascii "functionExecutionStatus")
      return .object members
    | _ => none

/-- `es9p_trans_json`. -/
def transJson (c : CJson) (reply : Reply) (keys : List (Key σ)) (s : σ) : σ × Bool :=
  match answerRoot c reply with
  | none => (s, false)
  | some rjroot => readKeys rjroot keys s

/-! ## The memory of the parameters -/

/-- The fields of the parameters, in the order of the keys. -/
inductive Field
  | profileMetadata
  | smdpSigned2
  | smdpSignature2
  | smdpCertificate
  deriving DecidableEq

/-- All fields. -/
def Field.all : List Field := [profileMetadata, smdpSigned2, smdpSignature2, smdpCertificate]

/-- The key of a field. -/
def Field.key : Field → Bytes
  | profileMetadata => ascii "profileMetadata"
  | smdpSigned2 => ascii "smdpSigned2"
  | smdpSignature2 => ascii "smdpSignature2"
  | smdpCertificate => ascii "smdpCertificate"

namespace PrepareDownloadParam

/-- The pointer in a field. -/
def get (p : PrepareDownloadParam) : Field → Pointer
  | .profileMetadata => p.b64ProfileMetadata
  | .smdpSigned2 => p.b64SmdpSigned2
  | .smdpSignature2 => p.b64SmdpSignature2
  | .smdpCertificate => p.b64SmdpCertificate

/-- Store a pointer in a field. -/
def set (f : Field) (ptr : Pointer) (p : PrepareDownloadParam) : PrepareDownloadParam :=
  match f with
  | .profileMetadata => { p with b64ProfileMetadata := ptr }
  | .smdpSigned2 => { p with b64SmdpSigned2 := ptr }
  | .smdpSignature2 => { p with b64SmdpSignature2 := ptr }
  | .smdpCertificate => { p with b64SmdpCertificate := ptr }

end PrepareDownloadParam

/-- What the memory holds besides the answers. -/
structure Heap where
  /-- What was in the memory that is allocated for the parameters. -/
  initial : PrepareDownloadParam
  /-- The text at an address, if there is one that can be read and written. -/
  textAt : ℕ → Option Bytes
  /-- Whether the memory of a text looks like a JSON object, if it can be read as a JSON value. -/
  looksLikeObject : Bytes → Option Bool

/-- `es9p_base64_trim`. -/
def base64Trim (s : Bytes) : Bytes := s.filter fun c => c ∉ [0x0A, 0x0D, 0x20, 0x09]

/-- Trim what a pointer points to; any other pointer than one to a text cannot be followed. -/
def trimPointer (heap : Heap) : Pointer → Option Pointer
  | .text s => some (.text (base64Trim s))
  | .stale address => (heap.textAt address).map fun _ => .stale address
  | _ => none

/-- Trim all fields. -/
def trimParam (heap : Heap) (resp : PrepareDownloadParam) : Option PrepareDownloadParam := do
  let b64ProfileMetadata ← trimPointer heap resp.b64ProfileMetadata
  let b64SmdpSigned2 ← trimPointer heap resp.b64SmdpSigned2
  let b64SmdpSignature2 ← trimPointer heap resp.b64SmdpSignature2
  let b64SmdpCertificate ← trimPointer heap resp.b64SmdpCertificate
  return ⟨b64ProfileMetadata, b64SmdpSigned2, b64SmdpSignature2, b64SmdpCertificate⟩

/-! ## The two attempts -/

/-- A field as a key whose value must be a string. -/
def Field.toKey (f : Field) : Key PrepareDownloadParam :=
  ⟨f.key, false, PrepareDownloadParam.set f⟩

/-- The keys of the flat form. -/
def keysV22 : List (Key PrepareDownloadParam) := Field.all.map Field.toKey

/-- The metadata in the nested form. -/
def metadataKey : Key (PrepareDownloadParam × Pointer) :=
  ⟨Field.profileMetadata.key, false, fun ptr s => (s.1.set .profileMetadata ptr, s.2)⟩

/-- The nested object. -/
def requestKey : Key (PrepareDownloadParam × Pointer) :=
  ⟨ascii "prepareDownloadRequest", true, fun ptr s => (s.1, ptr)⟩

/-- The keys of the nested form. -/
def keysV25 : List (Key (PrepareDownloadParam × Pointer)) := [metadataKey, requestKey]

/-- Whether a pointer is one to a JSON object; the value of a string is a text, and not a JSON
value. -/
def isObject (heap : Heap) : Pointer → Option Bool
  | .null => some false
  | .json (.object _) => some true
  | .json _ => some false
  | .text s => heap.looksLikeObject s
  | .stale _ => none

/-- Store a field of the nested object if it is a string there. -/
def readNestedField (obj : Json) (f : Field) (resp : PrepareDownloadParam) : PrepareDownloadParam :=
  match getObjectItem obj f.key with
  | some (.string valuestring) => resp.set f (.text (strdup valuestring))
  | _ => resp

/-- The three fields of the nested object. -/
def readNested (obj : Json) (resp : PrepareDownloadParam) : PrepareDownloadParam :=
  readNestedField obj .smdpCertificate
    (readNestedField obj .smdpSignature2 (readNestedField obj .smdpSigned2 resp))

/-- Whether a pointer is null. -/
def Pointer.isNull : Pointer → Bool
  | null => true
  | _ => false

/-- What the nested attempt makes of `prepareDownloadRequest`. -/
def readRequest (heap : Heap) (resp : PrepareDownloadParam) (prepareDownloadReq : Pointer) :
    Option (PrepareDownloadParam × Bool) :=
  match isObject heap prepareDownloadReq with
  | none => none
  | some false => some (resp, false)
  | some true =>
    match prepareDownloadReq with
    | .json obj =>
      let resp := readNested obj resp
      if resp.b64SmdpSigned2.isNull || resp.b64SmdpSignature2.isNull ||
          resp.b64SmdpCertificate.isNull then
        some (resp, false)
      else (trimParam heap resp).map fun resp => (resp, true)
    -- the members of a text are wherever its bytes point to
    | _ => none

/-- `es9p_authenticate_client_r`: the memory of the parameters, and whether the call is successful.
-/
def authenticateClientR (c : CJson) (heap : Heap) (flat nested : Reply)
    (resp : PrepareDownloadParam) : Option (PrepareDownloadParam × Bool) :=
  match transJson c flat keysV22 resp with
  | (resp, true) => (trimParam heap resp).map fun resp => (resp, true)
  | (resp, false) =>
    match transJson c nested keysV25 (resp, .null) with
    | ((resp, _), false) => some (resp, false)
    | ((resp, prepareDownloadReq), true) => readRequest heap resp prepareDownloadReq

/-- `es9p_authenticate_client`: the parameters are kept only if the call is successful. -/
def es9pAuthenticateClient (c : CJson) (heap : Heap) (flat nested : Reply) (http : HttpContext) :
    Option (HttpContext × Outcome) :=
  if http.prepareDownloadParam.isSome || http.b64AuthenticateServerResponse.isNone then
    some (http, .refused)
  else
    (authenticateClientR c heap flat nested heap.initial).map fun r =>
      authenticateClient http (if r.2 then some r.1 else none)

/-! ## What an answer holds -/

/-- The value of a key if it is a string. -/
def stringItem (root : Json) (key : Bytes) : Option Bytes :=
  match getObjectItem root key with
  | some (.string valuestring) => some (strdup valuestring)
  | _ => none

/-- The parameters that are made of four texts. -/
def paramOf (text : Field → Option Bytes) : Option PrepareDownloadParam := do
  return ⟨.text (base64Trim (← text .profileMetadata)), .text (base64Trim (← text .smdpSigned2)),
    .text (base64Trim (← text .smdpSignature2)), .text (base64Trim (← text .smdpCertificate))⟩

/-- The parameters that an answer in the flat form has. -/
def flatParam (c : CJson) (flat : Reply) : Option PrepareDownloadParam := do
  let root ← answerRoot c flat
  paramOf fun f => stringItem root f.key

/-- The texts of an answer in the nested form. -/
def nestedItem (root obj : Json) (f : Field) : Option Bytes :=
  if f = .profileMetadata then stringItem root f.key else stringItem obj f.key

/-- The parameters that an answer in the nested form has. -/
def nestedParam (c : CJson) (nested : Reply) : Option PrepareDownloadParam := do
  let root ← answerRoot c nested
  let obj ← getObjectItem root (ascii "prepareDownloadRequest")
  paramOf (nestedItem root obj)

/-! ## Fields -/

theorem Field.mem_all (f : Field) : f ∈ Field.all := by
  cases f <;> decide

theorem get_set (f g : Field) (ptr : Pointer) (p : PrepareDownloadParam) :
    (p.set g ptr).get f = if f = g then ptr else p.get f := by
  cases f <;> cases g <;> rfl

theorem param_ext {p q : PrepareDownloadParam} (h : ∀ f, p.get f = q.get f) : p = q := by
  obtain ⟨p₁, p₂, p₃, p₄⟩ := p
  obtain ⟨q₁, q₂, q₃, q₄⟩ := q
  obtain rfl : p₁ = q₁ := h .profileMetadata
  obtain rfl : p₂ = q₂ := h .smdpSigned2
  obtain rfl : p₃ = q₃ := h .smdpSignature2
  obtain rfl : p₄ = q₄ := h .smdpCertificate
  rfl

theorem paramOf_eq_some {text : Field → Option Bytes} {p : PrepareDownloadParam} :
    paramOf text = some p ↔ ∀ f, ∃ s, text f = some s ∧ p.get f = .text (base64Trim s) := by
  simp only [paramOf, Option.bind_eq_bind, Option.bind_eq_some_iff, Option.pure_def,
    Option.some.injEq]
  constructor
  · rintro ⟨m, hm, s, hs, g, hg, t, ht, rfl⟩ f
    cases f
    · exact ⟨m, hm, rfl⟩
    · exact ⟨s, hs, rfl⟩
    · exact ⟨g, hg, rfl⟩
    · exact ⟨t, ht, rfl⟩
  · intro h
    obtain ⟨m, hm, hm'⟩ := h .profileMetadata
    obtain ⟨s, hs, hs'⟩ := h .smdpSigned2
    obtain ⟨g, hg, hg'⟩ := h .smdpSignature2
    obtain ⟨t, ht, ht'⟩ := h .smdpCertificate
    refine ⟨m, hm, s, hs, g, hg, t, ht, param_ext fun f => ?_⟩
    cases f
    · exact hm'.symm
    · exact hs'.symm
    · exact hg'.symm
    · exact ht'.symm

theorem paramOf_isSome {text : Field → Option Bytes} :
    (paramOf text).isSome ↔ ∀ f, (text f).isSome := by
  rw [Option.isSome_iff_exists]
  constructor
  · rintro ⟨p, hp⟩ f
    obtain ⟨s, hs, -⟩ := paramOf_eq_some.1 hp f
    rw [hs]
    rfl
  · intro h
    have hpointer : ∀ f, ∃ s, text f = some s := fun f => Option.isSome_iff_exists.1 (h f)
    obtain ⟨m, hm⟩ := hpointer .profileMetadata
    obtain ⟨s, hs⟩ := hpointer .smdpSigned2
    obtain ⟨g, hg⟩ := hpointer .smdpSignature2
    obtain ⟨t, ht⟩ := hpointer .smdpCertificate
    rw [paramOf, hm, hs, hg, ht]
    exact ⟨_, rfl⟩

/-- The parameters are trimmed field by field. -/
theorem trimParam_eq_some {heap : Heap} {p q : PrepareDownloadParam} :
    trimParam heap p = some q ↔ ∀ f, trimPointer heap (p.get f) = some (q.get f) := by
  simp only [trimParam, Option.bind_eq_bind, Option.bind_eq_some_iff, Option.pure_def,
    Option.some.injEq]
  constructor
  · rintro ⟨m, hm, s, hs, g, hg, t, ht, rfl⟩ f
    cases f
    · exact hm
    · exact hs
    · exact hg
    · exact ht
  · intro h
    exact ⟨_, h .profileMetadata, _, h .smdpSigned2, _, h .smdpSignature2, _, h .smdpCertificate,
      param_ext fun f => by cases f <;> rfl⟩

/-- Four texts are trimmed to the parameters that they make. -/
theorem trimParam_of_texts {heap : Heap} {text : Field → Option Bytes} {p : PrepareDownloadParam}
    (h : ∀ f, ∃ s, text f = some s ∧ p.get f = .text s) :
    ∃ q, trimParam heap p = some q ∧ paramOf text = some q := by
  have hsome : (paramOf text).isSome := paramOf_isSome.2 fun f => by
    obtain ⟨s, hs, -⟩ := h f
    rw [hs]
    rfl
  obtain ⟨q, hq⟩ := Option.isSome_iff_exists.1 hsome
  refine ⟨q, trimParam_eq_some.2 fun f => ?_, hq⟩
  obtain ⟨s, hs, hp⟩ := h f
  obtain ⟨t, ht, hq⟩ := paramOf_eq_some.1 hq f
  obtain rfl := Option.some.inj (hs.symm.trans ht)
  rw [hp, hq]
  rfl

/-! ## Keys -/

theorem readKeys_of_string {rjroot : Json} {key : Key σ} {text : Bytes}
    (h : stringItem rjroot key.okey = some text) (keys : List (Key σ)) (s : σ) :
    readKeys rjroot (key :: keys) s = readKeys rjroot keys (key.optr (.text text) s) := by
  rw [stringItem] at h
  split at h
  · rename_i valuestring hitem
    rw [readKeys, hitem]
    cases h
    rfl
  · cases h

theorem readKeys_of_none {rjroot : Json} {key : Key σ}
    (h : stringItem rjroot key.okey = none) (hoobj : key.oobj = false) (keys : List (Key σ))
    (s : σ) : readKeys rjroot (key :: keys) s = (s, false) := by
  rw [stringItem] at h
  rw [readKeys]
  split at h
  · cases h
  · rename_i hnot
    split
    · rfl
    · rename_i valuestring hitem
      exact absurd hitem (hnot valuestring)
    · rw [hoobj]
      rfl

/-- The fields that the flat attempt stores: those that are strings in the answer, up to the first
that is not. -/
def storedFrom (rjroot : Json) (fields : List Field) : List Field :=
  fields.takeWhile fun f => (stringItem rjroot f.key).isSome

theorem readKeys_fields_snd {rjroot : Json} {fields : List Field} {resp : PrepareDownloadParam} :
    (readKeys rjroot (fields.map Field.toKey) resp).2 = true ↔
      ∀ f ∈ fields, (stringItem rjroot f.key).isSome := by
  induction fields generalizing resp with
  | nil => simp [readKeys]
  | cons g fields ih =>
    rw [List.map_cons, List.forall_mem_cons]
    cases hg : stringItem rjroot g.key with
    | none =>
      rw [@readKeys_of_none _ _ g.toKey hg rfl]
      simp
    | some s =>
      rw [@readKeys_of_string _ _ g.toKey _ hg, ih]
      simp

theorem storedFrom_cons {rjroot : Json} {g : Field} (fields : List Field) {text : Bytes}
    (hg : stringItem rjroot g.key = some text) :
    storedFrom rjroot (g :: fields) = g :: storedFrom rjroot fields :=
  List.takeWhile_cons_of_pos (by rw [hg]; rfl)

theorem readKeys_fields_get (rjroot : Json) (fields : List Field) (resp : PrepareDownloadParam)
    (f : Field) : (readKeys rjroot (fields.map Field.toKey) resp).1.get f =
      if f ∈ storedFrom rjroot fields then .text ((stringItem rjroot f.key).getD [])
        else resp.get f := by
  induction fields generalizing resp with
  | nil => rfl
  | cons g fields ih =>
    rw [List.map_cons]
    cases hg : stringItem rjroot g.key with
    | none =>
      have hstored : storedFrom rjroot (g :: fields) = [] :=
        List.takeWhile_cons_of_neg (by rw [hg]; exact Bool.false_ne_true)
      rw [@readKeys_of_none _ _ g.toKey hg rfl, if_neg]
      rw [hstored]
      exact List.not_mem_nil
    | some s =>
      rw [@readKeys_of_string _ _ g.toKey _ hg, ih]
      have hset : (g.toKey.optr (.text s) resp).get f = if f = g then .text s else resp.get f :=
        get_set _ _ _ _
      have hstored :
          f ∈ storedFrom rjroot (g :: fields) ↔ f = g ∨ f ∈ storedFrom rjroot fields := by
        rw [storedFrom_cons fields hg, List.mem_cons]
      rw [hset]
      by_cases hfg : f = g
      · rw [if_pos hfg, if_pos (hstored.2 (Or.inl hfg)), hfg, hg]
        exact ite_self _
      · rw [if_neg hfg]
        exact if_congr (hstored.trans (or_iff_right hfg)).symm rfl rfl

/-! ## The flat attempt -/

/-- The fields that the flat attempt stores. -/
def storedFields (c : CJson) (flat : Reply) : List Field :=
  match answerRoot c flat with
  | none => []
  | some root => storedFrom root Field.all

/-- The flat attempt succeeds if the answer has all the fields. -/
theorem transJson_flat_snd {c : CJson} {flat : Reply} {resp : PrepareDownloadParam} :
    (transJson c flat keysV22 resp).2 = (flatParam c flat).isSome := by
  rw [Bool.eq_iff_iff, transJson, flatParam]
  cases answerRoot c flat with
  | none => simp
  | some root =>
    rw [Option.bind_eq_bind, Option.bind_some, paramOf_isSome]
    refine readKeys_fields_snd.trans ⟨fun h f => h f f.mem_all, fun h f _ => h f⟩

theorem transJson_flat_of_notMem {c : CJson} {flat : Reply} {resp : PrepareDownloadParam}
    {f : Field} (h : f ∉ storedFields c flat) :
    (transJson c flat keysV22 resp).1.get f = resp.get f := by
  rw [storedFields] at h
  rw [transJson]
  cases hroot : answerRoot c flat with
  | none => rfl
  | some root =>
    rw [hroot] at h
    exact (readKeys_fields_get root Field.all resp f).trans (if_neg h)

theorem transJson_flat_of_mem {c : CJson} {flat : Reply} {resp : PrepareDownloadParam}
    {f : Field} (h : f ∈ storedFields c flat) :
    ∃ s, (transJson c flat keysV22 resp).1.get f = .text s := by
  rw [storedFields] at h
  rw [transJson]
  cases hroot : answerRoot c flat with
  | none =>
    rw [hroot] at h
    cases h
  | some root =>
    rw [hroot] at h
    exact ⟨_, (readKeys_fields_get root Field.all resp f).trans (if_pos h)⟩

/-- The flat attempt on an answer with all the fields. -/
theorem trimParam_flat {c : CJson} {heap : Heap} {flat : Reply} {resp p : PrepareDownloadParam}
    (h : flatParam c flat = some p) :
    trimParam heap (transJson c flat keysV22 resp).1 = some p := by
  simp only [flatParam, Option.bind_eq_bind, Option.bind_eq_some_iff] at h
  obtain ⟨root, hroot, hp⟩ := h
  have hall : ∀ f : Field, (stringItem root f.key).isSome :=
    paramOf_isSome.1 (by rw [hp]; rfl)
  have htexts : ∀ f : Field, ∃ s, stringItem root f.key = some s ∧
      (transJson c flat keysV22 resp).1.get f = .text s := by
    intro f
    obtain ⟨s, hs⟩ := Option.isSome_iff_exists.1 (hall f)
    refine ⟨s, hs, ?_⟩
    have hmem : f ∈ storedFrom root Field.all := by
      rw [storedFrom, List.takeWhile_eq_self_iff.2 fun g _ => hall g]
      exact f.mem_all
    rw [transJson, hroot]
    refine (readKeys_fields_get root Field.all resp f).trans ((if_pos hmem).trans ?_)
    rw [hs]
    rfl
  obtain ⟨q, hq, hpq⟩ := @trimParam_of_texts heap _ _ htexts
  rw [hq, ← hp, ← hpq]

/-! ## The nested attempt -/

theorem readNestedField_get (obj : Json) (f g : Field) (p : PrepareDownloadParam) :
    (readNestedField obj g p).get f =
      if f = g then ((stringItem obj g.key).map Pointer.text).getD (p.get g) else p.get f := by
  rw [readNestedField, stringItem]
  split
  · rw [get_set]
    rfl
  · by_cases hfg : f = g
    · rw [if_pos hfg, hfg]
      rfl
    · rw [if_neg hfg]

/-- What the nested attempt leaves in a field: its text, or what was there. -/
theorem readNested_get {obj : Json} {f : Field} (hf : f ≠ .profileMetadata)
    (p : PrepareDownloadParam) : (readNested obj p).get f =
      ((stringItem obj f.key).map Pointer.text).getD (p.get f) := by
  cases f with
  | profileMetadata => exact absurd rfl hf
  | smdpSigned2 => simp [readNested, readNestedField_get]
  | smdpSignature2 => simp [readNested, readNestedField_get]
  | smdpCertificate => simp [readNested, readNestedField_get]

theorem readNested_get_profileMetadata (obj : Json) (p : PrepareDownloadParam) :
    (readNested obj p).get .profileMetadata = p.get .profileMetadata := by
  simp [readNested, readNestedField_get]

/-- Where the value of the nested object is stored: a string as a text. -/
def itemPointer : Json → Pointer
  | .string valuestring => .text (strdup valuestring)
  | obj => .json obj

theorem readKeys_of_item {rjroot obj : Json} {key : Key σ}
    (h : getObjectItem rjroot key.okey = some obj) (hoobj : key.oobj = true) (keys : List (Key σ))
    (s : σ) :
    readKeys rjroot (key :: keys) s = readKeys rjroot keys (key.optr (itemPointer obj) s) := by
  rw [readKeys, h]
  cases obj with
  | string valuestring => rfl
  | null => exact if_pos hoobj
  | number valueint => exact if_pos hoobj
  | object members => exact if_pos hoobj

/-- The parts that the nested attempt needs. -/
def NestedParts (c : CJson) (nested : Reply) (root : Json) (metadata : Bytes) (obj : Json) : Prop :=
  answerRoot c nested = some root ∧
    stringItem root Field.profileMetadata.key = some metadata ∧
    getObjectItem root (ascii "prepareDownloadRequest") = some obj

/-- The nested attempt succeeds if the parts are there. -/
theorem transJson_nested {c : CJson} {nested : Reply} {root obj : Json} {metadata : Bytes}
    (h : NestedParts c nested root metadata obj) (s : PrepareDownloadParam × Pointer) :
    transJson c nested keysV25 s =
      ((s.1.set .profileMetadata (.text metadata), itemPointer obj), true) := by
  obtain ⟨hroot, hmetadata, hobj⟩ := h
  rw [transJson, hroot, keysV25]
  change readKeys root _ s = _
  rw [@readKeys_of_string _ _ metadataKey _ hmetadata, @readKeys_of_item _ _ _ requestKey hobj rfl]
  rfl

theorem transJson_nested_snd {c : CJson} {nested : Reply} {s : PrepareDownloadParam × Pointer}
    (h : (transJson c nested keysV25 s).2 = true) :
    ∃ root metadata obj, NestedParts c nested root metadata obj := by
  rw [transJson] at h
  cases hroot : answerRoot c nested with
  | none =>
    rw [hroot] at h
    cases h
  | some root =>
    rw [hroot, keysV25] at h
    cases hmetadata : stringItem root Field.profileMetadata.key with
    | none =>
      change (readKeys root _ s).2 = true at h
      rw [@readKeys_of_none _ _ metadataKey hmetadata rfl] at h
      cases h
    | some metadata =>
      change (readKeys root _ s).2 = true at h
      rw [@readKeys_of_string _ _ metadataKey _ hmetadata] at h
      cases hobj : getObjectItem root (ascii "prepareDownloadRequest") with
      | none =>
        have hrequest : getObjectItem root requestKey.okey = none := hobj
        rw [readKeys, hrequest] at h
        cases h
      | some obj => exact ⟨root, metadata, obj, hroot, hmetadata, hobj⟩

/-! ## The whole call -/

section

variable {c : CJson} {heap : Heap} {flat nested : Reply} {resp : PrepareDownloadParam}

theorem authenticateClientR_flat {p : PrepareDownloadParam} (h : flatParam c flat = some p) :
    authenticateClientR c heap flat nested resp = some (p, true) := by
  have hsnd := @transJson_flat_snd c flat resp
  have htrim := @trimParam_flat c heap flat resp p h
  rw [h, Option.isSome_some] at hsnd
  rw [authenticateClientR]
  generalize transJson c flat keysV22 resp = r at hsnd htrim ⊢
  obtain ⟨resp', b⟩ := r
  obtain rfl : b = true := hsnd
  change trimParam heap resp' = some p at htrim
  change (trimParam heap resp').map _ = _
  rw [htrim]
  rfl

/-- An answer without all the fields in the flat form: the nested attempt follows. -/
theorem transJson_flat_of_none (hflat : flatParam c flat = none) :
    transJson c flat keysV22 resp = ((transJson c flat keysV22 resp).1, false) := by
  have hsnd := @transJson_flat_snd c flat resp
  rw [hflat, Option.isSome_none] at hsnd
  exact Prod.ext rfl hsnd

theorem authenticateClientR_fails (hflat : flatParam c flat = none)
    (h : ∀ root metadata obj, ¬ NestedParts c nested root metadata obj) :
    ∃ resp', authenticateClientR c heap flat nested resp = some (resp', false) := by
  have hnested : ∀ s, transJson c nested keysV25 s = ((transJson c nested keysV25 s).1, false) := by
    intro s
    refine Prod.ext rfl (Bool.eq_false_iff.2 fun htrue => ?_)
    obtain ⟨root, metadata, obj, hparts⟩ := transJson_nested_snd htrue
    exact h root metadata obj hparts
  rw [authenticateClientR, transJson_flat_of_none hflat]
  simp only
  rw [hnested]
  exact ⟨_, rfl⟩

theorem authenticateClientR_nested (hflat : flatParam c flat = none) {root obj : Json}
    {metadata : Bytes} (h : NestedParts c nested root metadata obj) :
    authenticateClientR c heap flat nested resp = readRequest heap
      ((transJson c flat keysV22 resp).1.set .profileMetadata (.text metadata))
      (itemPointer obj) := by
  rw [authenticateClientR, transJson_flat_of_none hflat]
  simp only [transJson_nested h]

theorem isNull_iff {ptr : Pointer} : ptr.isNull = true ↔ ptr = .null := by
  cases ptr <;> simp [Pointer.isNull]

theorem readNested_eq_null {obj : Json} {f : Field} (hf : f ≠ .profileMetadata) :
    (readNested obj resp).get f = .null ↔ stringItem obj f.key = none ∧ resp.get f = .null := by
  rw [readNested_get hf]
  cases stringItem obj f.key with
  | none => simp
  | some s => simp

/-- A field is null behind the nested attempt if neither attempt has stored it and it was null. -/
theorem any_isNull_iff (obj : Json) : ((readNested obj resp).b64SmdpSigned2.isNull ||
    (readNested obj resp).b64SmdpSignature2.isNull ||
      (readNested obj resp).b64SmdpCertificate.isNull) = true ↔
    ∃ f : Field, f ≠ .profileMetadata ∧ stringItem obj f.key = none ∧ resp.get f = .null := by
  rw [Bool.or_eq_true, Bool.or_eq_true, isNull_iff, isNull_iff, isNull_iff]
  constructor
  · rintro ((h | h) | h)
    · exact ⟨.smdpSigned2, Field.noConfusion, (readNested_eq_null Field.noConfusion).1 h⟩
    · exact ⟨.smdpSignature2, Field.noConfusion, (readNested_eq_null Field.noConfusion).1 h⟩
    · exact ⟨.smdpCertificate, Field.noConfusion, (readNested_eq_null Field.noConfusion).1 h⟩
  · rintro ⟨f, hf, h⟩
    have hnull := (readNested_eq_null hf).2 h
    cases f with
    | profileMetadata => exact absurd rfl hf
    | smdpSigned2 => exact Or.inl (Or.inl hnull)
    | smdpSignature2 => exact Or.inl (Or.inr hnull)
    | smdpCertificate => exact Or.inr hnull

/-- A result is taken from one answer, if it is one of success. -/
def FromAnswer (c : CJson) (flat nested : Reply) (r : PrepareDownloadParam × Bool) : Prop :=
  r.2 = true → flatParam c flat = some r.1 ∨ nestedParam c nested = some r.1

theorem readRequest_object (members : List (Bytes × Json)) :
    readRequest heap resp (.json (.object members)) =
      if (readNested (.object members) resp).b64SmdpSigned2.isNull ||
          (readNested (.object members) resp).b64SmdpSignature2.isNull ||
          (readNested (.object members) resp).b64SmdpCertificate.isNull then
        some (readNested (.object members) resp, false)
      else (trimParam heap (readNested (.object members) resp)).map fun resp => (resp, true) :=
  rfl

/-- The nested object decides the outcome: it has the three fields, or one that it lacks is null. -/
theorem readRequest_object_iff (hflat : flatParam c flat = none) {root : Json} {metadata : Bytes}
    {members : List (Bytes × Json)}
    (h : NestedParts c nested root metadata (.object members))
    (hmetadata : resp.get .profileMetadata = .text metadata) :
    (∃ r, readRequest heap resp (.json (.object members)) = some r ∧ FromAnswer c flat nested r) ↔
      (∀ f : Field, f ≠ .profileMetadata → (stringItem (.object members) f.key).isSome) ∨
        ∃ f : Field, f ≠ .profileMetadata ∧ stringItem (.object members) f.key = none ∧
          resp.get f = .null := by
  have hparam : nestedParam c nested = paramOf (nestedItem root (.object members)) := by
    obtain ⟨hroot, -, hobj⟩ := h
    rw [nestedParam, hroot, Option.bind_eq_bind, Option.bind_some, hobj]
    rfl
  have hnull := @any_isNull_iff resp (.object members)
  rw [readRequest_object]
  split
  · rename_i hany
    refine iff_of_true ⟨_, rfl, fun h => by cases h⟩ (Or.inr (hnull.1 hany))
  · rename_i hnone
    rw [or_iff_left (mt hnull.2 hnone)]
    constructor
    · rintro ⟨r, hr, hfrom⟩
      obtain ⟨q, hq, rfl⟩ := Option.map_eq_some_iff.1 hr
      obtain hq' | hq' := hfrom rfl
      · rw [hflat] at hq'
        cases hq'
      · have hsome : (paramOf (nestedItem root (.object members))).isSome := by
          rw [← hparam, hq']
          rfl
        intro f hf
        have hitem := paramOf_isSome.1 hsome f
        rwa [nestedItem, if_neg hf] at hitem
    · intro hall
      have htexts : ∀ f, ∃ s, nestedItem root (.object members) f = some s ∧
          (readNested (.object members) resp).get f = .text s := by
        intro f
        by_cases hf : f = .profileMetadata
        · subst hf
          exact ⟨metadata, h.2.1, (readNested_get_profileMetadata _ _).trans hmetadata⟩
        · obtain ⟨s, hs⟩ := Option.isSome_iff_exists.1 (hall f hf)
          refine ⟨s, (if_neg hf).trans hs, ?_⟩
          rw [readNested_get hf, hs]
          rfl
      obtain ⟨q, htrim, hq⟩ := @trimParam_of_texts heap _ _ htexts
      refine ⟨(q, true), ?_, fun _ => Or.inr (hparam.trans hq)⟩
      rw [htrim]
      rfl

/-- What decides the outcome of the nested attempt, if it finds its parts: a string instead of an
object must not look like one, and a nested object has the three fields, or lacks one that was null
and that the flat attempt has not stored. -/
def Decided (c : CJson) (heap : Heap) (flat : Reply) (obj : Json) : Prop :=
  (∀ s, obj = .string s → heap.looksLikeObject (strdup s) = some false) ∧
  ∀ members, obj = .object members →
    (∀ f : Field, f ≠ .profileMetadata → (stringItem obj f.key).isSome) ∨
      ∃ f : Field, f ≠ .profileMetadata ∧ stringItem obj f.key = none ∧
        f ∉ storedFields c flat ∧ heap.initial.get f = .null

/-- A field is null behind the flat attempt if that has not stored it and it was null. -/
theorem flat_get_eq_null {metadata : Bytes} {f : Field} (hf : f ≠ .profileMetadata) :
    ((transJson c flat keysV22 resp).1.set .profileMetadata (.text metadata)).get f = .null ↔
      f ∉ storedFields c flat ∧ resp.get f = .null := by
  rw [get_set, if_neg hf]
  by_cases hmem : f ∈ storedFields c flat
  · obtain ⟨s, hs⟩ := @transJson_flat_of_mem c flat resp f hmem
    rw [hs]
    exact iff_of_false Pointer.noConfusion fun h => h.1 hmem
  · rw [transJson_flat_of_notMem hmem]
    exact (and_iff_right hmem).symm

theorem readRequest_text (s : Bytes) : readRequest heap resp (.text s) =
    if heap.looksLikeObject s = some false then some (resp, false) else none := by
  have hisObject : isObject heap (.text s) = heap.looksLikeObject s := rfl
  unfold readRequest
  rw [hisObject]
  cases heap.looksLikeObject s with
  | none => rfl
  | some b => cases b <;> rfl

theorem readRequest_iff (hflat : flatParam c flat = none) {root obj : Json} {metadata : Bytes}
    (h : NestedParts c nested root metadata obj) :
    (∃ r, readRequest heap ((transJson c flat keysV22 heap.initial).1.set .profileMetadata
        (.text metadata)) (itemPointer obj) = some r ∧ FromAnswer c flat nested r) ↔
      Decided c heap flat obj := by
  cases obj with
  | null =>
    refine iff_of_true ⟨_, rfl, fun h => by cases h⟩ ⟨fun _ h => ?_, fun _ h => ?_⟩ <;> cases h
  | number valueint =>
    refine iff_of_true ⟨_, rfl, fun h => by cases h⟩ ⟨fun _ h => ?_, fun _ h => ?_⟩ <;> cases h
  | string s =>
    rw [itemPointer, readRequest_text]
    constructor
    · rintro ⟨r, hr, -⟩
      refine ⟨?_, fun _ h => by cases h⟩
      rintro _ ⟨⟩
      by_contra hlooks
      rw [if_neg hlooks] at hr
      cases hr
    · rintro ⟨hlooks, -⟩
      rw [if_pos (hlooks s rfl)]
      exact ⟨_, rfl, fun h => by cases h⟩
  | object members =>
    have hmetadata : ((transJson c flat keysV22 heap.initial).1.set .profileMetadata
        (.text metadata)).get .profileMetadata = .text metadata := get_set _ _ _ _
    refine (readRequest_object_iff hflat h hmetadata).trans ?_
    constructor
    · intro hcond
      refine ⟨fun _ h => ?_, ?_⟩
      · cases h
      rintro _ ⟨⟩
      exact hcond.imp_right fun ⟨f, hf, hnone, h⟩ => ⟨f, hf, hnone, (flat_get_eq_null hf).1 h⟩
    · rintro ⟨-, hcond⟩
      exact (hcond members rfl).imp_right fun ⟨f, hf, hnone, h⟩ =>
        ⟨f, hf, hnone, (flat_get_eq_null hf).2 h⟩

end

/-- The call takes its result from one answer only: it returns; if it is successful the parameters
are those of one of the two answers; and if it fails the context has no parameters that it did not
have before. -/
def FromServer (c : CJson) (heap : Heap) (flat nested : Reply) (http : HttpContext) : Prop :=
  ∃ http' outcome, es9pAuthenticateClient c heap flat nested http = some (http', outcome) ∧
    (outcome.success = true → ∃ p, http'.prepareDownloadParam = some p ∧
      (flatParam c flat = some p ∨ nestedParam c nested = some p)) ∧
    (outcome.success = false → http'.prepareDownloadParam = http.prepareDownloadParam)

section

variable {c : CJson} {heap : Heap} {flat nested : Reply} {http : HttpContext}

theorem fromServer_of_refused
    (h : es9pAuthenticateClient c heap flat nested http = some (http, .refused)) :
    FromServer c heap flat nested http := by
  refine ⟨http, .refused, h, fun hsuccess => ?_, fun _ => rfl⟩
  cases hsuccess

/-- A call that is not refused has the outcome of the two attempts. -/
theorem fromServer_of_attempts {response : Bytes} (hparam : http.prepareDownloadParam = none)
    (hresponse : http.b64AuthenticateServerResponse = some response) :
    FromServer c heap flat nested http ↔
      ∃ r, authenticateClientR c heap flat nested heap.initial = some r ∧
        FromAnswer c flat nested r := by
  have hcall : es9pAuthenticateClient c heap flat nested http =
      (authenticateClientR c heap flat nested heap.initial).map fun r =>
        authenticateClient http (if r.2 then some r.1 else none) := by
    rw [es9pAuthenticateClient, hparam, hresponse]
    rfl
  have hwrapper : ∀ answer, authenticateClient http answer =
      ({ http with
          prepareDownloadParam := answer
          b64AuthenticateServerResponse := if answer.isSome then none else some response },
        ⟨answer.isSome, some (.authenticateServerResponse response),
          answer.map .prepareDownloadParam⟩) := by
    intro answer
    obtain ⟨_, _, _, _, _, b64, param, _, _⟩ := http
    obtain rfl : param = none := hparam
    obtain rfl : b64 = some response := hresponse
    cases answer <;> rfl
  constructor
  · rintro ⟨http', outcome, h, hsuccess, hfails⟩
    rw [hcall] at h
    obtain ⟨⟨resp, b⟩, hr, heq⟩ := Option.map_eq_some_iff.1 h
    refine ⟨_, hr, ?_⟩
    rintro (rfl : b = true)
    rw [hwrapper] at heq
    cases heq
    obtain ⟨p, hp, hfrom⟩ := hsuccess rfl
    cases hp
    exact hfrom
  · rintro ⟨⟨resp, b⟩, hr, hfrom⟩
    rw [hr, Option.map_some, hwrapper] at hcall
    refine ⟨_, _, hcall, ?_, ?_⟩
    · intro hb
      cases b with
      | false => cases hb
      | true => exact ⟨resp, rfl, hfrom rfl⟩
    · intro hb
      cases b with
      | false => exact hparam.symm
      | true => cases hb

end

/-- **When the result is the server's**: the call is refused, or the answer in the flat form has all
four fields, or what the answer in the nested form has decides the outcome. -/
theorem fromServer_iff (c : CJson) (heap : Heap) (flat nested : Reply) (http : HttpContext) :
    FromServer c heap flat nested http ↔
      http.prepareDownloadParam.isSome ∨ http.b64AuthenticateServerResponse = none ∨
        (flatParam c flat).isSome ∨
          ∀ root metadata obj, NestedParts c nested root metadata obj →
            Decided c heap flat obj := by
  cases hparam : http.prepareDownloadParam with
  | some param =>
    refine iff_of_true (fromServer_of_refused ?_) (Or.inl rfl)
    rw [es9pAuthenticateClient, hparam]
    rfl
  | none =>
    cases hresponse : http.b64AuthenticateServerResponse with
    | none =>
      refine iff_of_true (fromServer_of_refused ?_) (Or.inr (Or.inl rfl))
      rw [es9pAuthenticateClient, hparam, hresponse]
      rfl
    | some response =>
      rw [or_iff_right (by simp), or_iff_right (by simp),
        fromServer_of_attempts hparam hresponse]
      cases hflat : flatParam c flat with
      | some p =>
        refine iff_of_true ⟨_, authenticateClientR_flat hflat, fun _ => Or.inl hflat⟩ (Or.inl rfl)
      | none =>
        rw [or_iff_right (by simp)]
        by_cases hparts : ∃ root metadata obj, NestedParts c nested root metadata obj
        · obtain ⟨root, metadata, obj, h⟩ := hparts
          rw [authenticateClientR_nested hflat h, readRequest_iff hflat h]
          constructor
          · intro hdecided root' metadata' obj' h'
            obtain rfl := Option.some.inj (h.1.symm.trans h'.1)
            obtain rfl := Option.some.inj (h.2.2.symm.trans h'.2.2)
            exact hdecided
          · exact fun hall => hall root metadata obj h
        · simp only [not_exists] at hparts
          obtain ⟨resp', h⟩ :=
            @authenticateClientR_fails c heap flat nested heap.initial hflat hparts
          refine iff_of_true ⟨_, h, fun h => by cases h⟩ fun root metadata obj h => ?_
          exact absurd h (hparts root metadata obj)

/-! ## Two answers that are mixed -/

/-- The status of an answer. -/
def sampleHeader : Bytes × Json :=
  (ascii "header", .object [(ascii "functionExecutionStatus", .object [])])

/-- The beginning of both answers. -/
def sampleBeginning : Bytes :=
  ascii "\x7b\"header\":\x7b\"functionExecutionStatus\":\x7b\x7d\x7d," ++
    ascii "\"profileMetadata\":\"TWV0YQ==\","

/-- An answer in the flat form with two of the four fields. -/
def flatText : Bytes :=
  sampleBeginning ++ ascii "\"smdpSigned2\":\"ZmxhdA==\"\x7d"

/-- An answer in the nested form with the other two fields. -/
def nestedText : Bytes :=
  sampleBeginning ++ ascii "\"prepareDownloadRequest\":\x7b" ++
    ascii "\"smdpSignature2\":\"bmVzdA==\",\"smdpCertificate\":\"Y2VydA==\"\x7d\x7d"

/-- What the library reads from the two answers. -/
def sampleCJson : CJson where
  printUnformatted _ := []
  parse text :=
    if text = flatText then
      some (.object [sampleHeader, (ascii "profileMetadata", .string (ascii "TWV0YQ==")),
        (ascii "smdpSigned2", .string (ascii "ZmxhdA=="))])
    else if text = nestedText then
      some (.object [sampleHeader, (ascii "profileMetadata", .string (ascii "TWV0YQ==")),
        (ascii "prepareDownloadRequest", .object [
          (ascii "smdpSignature2", .string (ascii "bmVzdA==")),
          (ascii "smdpCertificate", .string (ascii "Y2VydA=="))])])
    else none

/-- A context in which the response of the card is pending, and a memory of zeros. -/
def sampleContext : HttpContext :=
  { HttpContext.init with b64AuthenticateServerResponse := some (ascii "cmVzcA==") }

def sampleHeap : Heap := ⟨⟨.null, .null, .null, .null⟩, fun _ => none, fun _ => some false⟩

/-- The call is successful with `smdpSigned2` from the first answer and the other fields from the
second. -/
theorem answers_mixed : ¬ ∀ (c : CJson) (heap : Heap) (flat nested : Reply) (http : HttpContext),
    FromServer c heap flat nested http := by
  intro hall
  obtain ⟨http', outcome, h, hsuccess, -⟩ := hall sampleCJson sampleHeap
    (some (200, flatText)) (some (200, nestedText)) sampleContext
  have hreturns : (es9pAuthenticateClient sampleCJson sampleHeap (some (200, flatText))
      (some (200, nestedText)) sampleContext).map (fun r => r.2.success) = some true := by
    decide +kernel
  have hflat : (flatParam sampleCJson (some (200, flatText))).isSome = false := by decide +kernel
  have hnested : (nestedParam sampleCJson (some (200, nestedText))).isSome = false := by
    decide +kernel
  rw [h] at hreturns
  obtain ⟨p, -, hp | hp⟩ := hsuccess (Option.some.inj hreturns)
  · rw [hp] at hflat
    cases hflat
  · rw [hp] at hnested
    cases hnested

end VirtualRsp.Lpa.Download
