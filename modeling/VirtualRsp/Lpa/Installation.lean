import VirtualRsp.Card.Invariant
import VirtualRsp.Lpa.LoadBpp

/-!
# Installing a bound profile package

The LPA loads a package into the card. After a successful load exactly one profile should be new,
with the contents of all segments `86` at the end of its data, and nothing of the package should be
left behind. The card installs when it sees the header of the sequence of `86`, before the LPA sends
the segments: what they contain stays in the package buffer. `installation_iff` says which packages
are installed as they should be.

* `BoundProfilePackage`: a package, its encoding, and what the card takes from it (`payload`);
* `Collected`: what a piece of the package does to the card;
* `load_effect`: what the load of a whole package does.
-/

namespace VirtualRsp.Lpa

open Card Program

/-! ## Packages -/

/-- A bound profile package: the contents of its data objects. -/
structure BoundProfilePackage where
  initialiseSecureChannel : Bytes
  firstSequenceOf87 : List Bytes
  sequenceOf88 : List Bytes
  secondSequenceOf87 : Option (List Bytes)
  sequenceOf86 : List Bytes

namespace BoundProfilePackage

/-- The data objects of a package. -/
def objects (p : BoundProfilePackage) : List (ℕ × Bytes) :=
  [(0xBF23, p.initialiseSecureChannel), (0xA0, Der.tlvs (segments 0x87 p.firstSequenceOf87)),
    (0xA1, Der.tlvs (segments 0x88 p.sequenceOf88))] ++
  (p.secondSequenceOf87.map fun values => (0xA2, Der.tlvs (segments 0x87 values))).toList ++
  [(0xA3, Der.tlvs (segments 0x86 p.sequenceOf86))]

/-- The package as it is sent to the LPA. -/
def encode (p : BoundProfilePackage) : Bytes := Der.tlv 0xBF36 (Der.tlvs p.objects)

/-- The commands before the header of the sequence of `86`. -/
def commandsBefore86 (p : BoundProfilePackage) : List Bytes :=
  [Der.tlv 0xA0 (Der.tlvs (segments 0x87 p.firstSequenceOf87)),
    Der.tagBytes 0xA1 ++ Der.lenBytes (Der.tlvs (segments 0x88 p.sequenceOf88)).length] ++
  p.sequenceOf88.map (Der.tlv 0x88) ++
  (p.secondSequenceOf87.map fun values => Der.tlv 0xA2 (Der.tlvs (segments 0x87 values))).toList

/-- The commands with the segments `86`. -/
def commands86 (p : BoundProfilePackage) : List Bytes := p.sequenceOf86.map (Der.tlv 0x86)

/-- The header of the sequence of `86`. -/
def header86 (p : BoundProfilePackage) : Bytes :=
  Der.tagBytes 0xA3 ++ Der.lenBytes (Der.tlvs (segments 0x86 p.sequenceOf86)).length

end BoundProfilePackage

/-- What the card takes from a command of the package. -/
def payload (cmd : Bytes) : Bytes := (segmentData ⟨cmd, cmd.length⟩).getD []

/-! ## What the card takes from a command -/

/-- The first byte of a command is its tag and the second the number of bytes the card takes, if
there are as many. -/
theorem segmentData_cons (a b : UInt8) (rest trailing : Bytes) :
    segmentData ⟨a :: b :: (rest ++ trailing), rest.length + 2⟩ =
      some (if rest.length < b.toNat then [] else rest.take b.toNat) := by
  by_cases h3 : rest.length + 2 < 3
  · obtain rfl : rest = [] := List.length_eq_zero_iff.1 (by omega)
    simp [segmentData]
  · simp only [segmentData, if_neg h3, readAt_cons_succ, readAt_cons_zero, Option.bind_eq_bind,
      Option.bind_some, List.drop_succ_cons, List.drop_zero]
    by_cases hlt : rest.length < b.toNat
    · rw [if_pos (by omega), if_pos hlt]
      rfl
    · rw [if_neg (by omega), if_neg hlt, readN, List.length_append, if_pos (by omega),
        List.take_append_of_le_length (by omega)]

theorem payload_cons (a b : UInt8) (rest : Bytes) :
    payload (a :: b :: rest) = if rest.length < b.toNat then [] else rest.take b.toNat := by
  have h := segmentData_cons a b rest []
  rw [List.append_nil] at h
  rw [payload, List.length_cons, List.length_cons, h, Option.getD_some]

/-- What lies behind a command in memory does not matter. -/
theorem segmentData_ofBytes (env : Env) {cmd : Bytes} (hc : 2 ≤ cmd.length) :
    segmentData (.ofBytes env cmd) = some (payload cmd) := by
  match cmd, hc with
  | a :: b :: rest, _ =>
    rw [payload_cons]
    exact segmentData_cons a b rest env.trailing

theorem tagBytes_of_lt {tag : ℕ} (ht : tag < 256) : Der.tagBytes tag = [UInt8.ofNat tag] := by
  rw [Der.tagBytes, if_pos (by omega)]

/-- **The card takes nothing from a header alone.** -/
theorem payload_header {tag n : ℕ} (ht : tag < 256) (hn : n < 2 ^ 31) :
    payload (Der.tagBytes tag ++ Der.lenBytes n) = [] := by
  rw [tagBytes_of_lt ht, Der.lenBytes]
  split
  · rw [List.singleton_append, payload_cons]
    split
    · rfl
    · exact List.take_nil
  · have hk := Der.byteLen_le (n := n) (k := 4) (by omega) (by omega)
    have hb : (UInt8.ofNat (128 + Der.byteLen n)).toNat = 128 + Der.byteLen n :=
      UInt8.toNat_ofNat_of_lt (by simp only [UInt8.size]; omega)
    rw [List.singleton_append, payload_cons, Der.length_beBytes, hb, if_pos (by omega)]

/-- **The card takes something from a segment** exactly if it is not empty. -/
theorem payload_tlv_eq_nil {tag : ℕ} (ht : tag < 256) {value : Bytes} (hv : value.length < 2 ^ 31) :
    payload (Der.tlv tag value) = [] ↔ value = [] := by
  rw [Der.tlv, tagBytes_of_lt ht, Der.lenBytes]
  split
  · rename_i hshort
    have hb : (UInt8.ofNat value.length).toNat = value.length :=
      UInt8.toNat_ofNat_of_lt (by simp only [UInt8.size]; omega)
    rw [List.singleton_append, List.cons_append, List.singleton_append, payload_cons, hb,
      if_neg (lt_irrefl _), List.take_length]
  · rename_i hlong
    have hk := Der.byteLen_le (n := value.length) (k := 4) (by omega) (by omega)
    have hb : (UInt8.ofNat (128 + Der.byteLen value.length)).toNat =
        128 + Der.byteLen value.length :=
      UInt8.toNat_ofNat_of_lt (by simp only [UInt8.size]; omega)
    have hne : value ≠ [] := List.ne_nil_of_length_pos (by omega)
    rw [List.singleton_append, List.cons_append, List.cons_append, payload_cons, hb,
      List.length_append, Der.length_beBytes, if_neg (by omega)]
    refine ⟨fun h => ?_, fun h => absurd h hne⟩
    have hlen := congrArg List.length h
    rw [List.length_take, List.length_append, Der.length_beBytes, List.length_nil] at hlen
    omega

/-! ## Commands of the LPA -/

variable {env : ℕ → Env} {s s' : EuiccState} {k k' : ℕ} {r r' : LoadResult}

/-- Sending a piece with success: the card has processed it. -/
theorem loadTx_card {cmd : Bytes} (hcmd : cmd ≠ [])
    (h : (loadTx (es10xCommand (cardTransport env)) cmd).Returns ⟨⟨k, s⟩, r⟩ () ⟨⟨k', s'⟩, r'⟩) :
    ∃ body, processEs10xCommand (env k) s (.ofBytes (env k) cmd) =
      some (s', some (body ++ [0x90, 0x00])) := by
  rw [Returns, loadTx] at h
  split at h
  · cases h
  · cases h
  · rename_i partner body hc
    obtain ⟨t, hp, rfl⟩ := (es10xCommand_card hcmd).1 hc
    split at h
    · cases h
      exact ⟨body, hp⟩
    · simp only [Option.some.injEq, Prod.mk.injEq, LoadState.mk.injEq, CardSession.mk.injEq] at h
      obtain ⟨⟨⟨-, rfl⟩, -⟩, -⟩ := h
      exact ⟨body, hp⟩

/-! ## The effect of a piece of the package -/

/-- The card has appended data to the package and changed nothing else of interest. -/
def Collected (s : EuiccState) (data : Bytes) (s' : EuiccState) : Prop :=
  ∃ n pkg, s' = { s with bppCommandsReceived := n, boundProfilePackage := pkg } ∧
    pkg.data = s.boundProfilePackage.data ++ data

namespace Collected

variable {t : EuiccState} {data data' : Bytes}

theorem refl (s : EuiccState) : Collected s [] s := ⟨_, _, rfl, (List.append_nil _).symm⟩

theorem trans (h : Collected s data t) (h' : Collected t data' s') :
    Collected s (data ++ data') s' := by
  obtain ⟨n, pkg, rfl, hp⟩ := h
  obtain ⟨n', pkg', rfl, hp'⟩ := h'
  exact ⟨n', pkg', rfl, by rw [hp', hp, List.append_assoc]⟩

theorem profiles (h : Collected s data s') : s'.profiles = s.profiles := by
  obtain ⟨_, _, rfl, -⟩ := h
  rfl

theorem data_eq (h : Collected s data s') :
    s'.boundProfilePackage.data = s.boundProfilePackage.data ++ data := by
  obtain ⟨_, _, rfl, hp⟩ := h
  exact hp

end Collected

/-- Storing a segment collects its payload. -/
theorem storeSegment_collected {env : Env} {cmd : Bytes} (hc : 2 ≤ cmd.length)
    (h : storeSegment s (.ofBytes env cmd) = some s') : Collected s (payload cmd) s' := by
  obtain ⟨data, pkg, hd, hp, rfl⟩ := storeSegment_frame h
  rw [segmentData_ofBytes env hc] at hd
  cases hd
  exact ⟨_, _, rfl, GrowBuf.append_data hp⟩

/-- **A data command** is collected. -/
theorem loadTx_collected {tag : ℕ} (ht : Der.IsTag tag) (hb : Es10xCommand.ofTag tag = .bppData)
    {rest : Bytes} (hr : rest ≠ [])
    (h : (loadTx (es10xCommand (cardTransport env)) (Der.tagBytes tag ++ rest)).Returns
      ⟨⟨k, s⟩, r⟩ () ⟨⟨k', s'⟩, r'⟩) :
    Collected s (payload (Der.tagBytes tag ++ rest)) s' := by
  have hlen : 2 ≤ (Der.tagBytes tag ++ rest).length := by
    have h1 := Der.length_tagBytes_pos tag
    have h2 := List.length_pos_of_ne_nil hr
    rw [List.length_append]
    omega
  obtain ⟨body, hp⟩ := loadTx_card (List.ne_nil_of_length_pos (by omega)) h
  have hh := processEs10xCommand_tag ht (by rintro rfl; cases hb) hp
  rw [hb] at hh
  exact storeSegment_collected hlen (bppData_frame hh)

/-- **A whole data object** is collected. -/
theorem loadTx_self {tag : ℕ} (ht : Der.IsTag tag) (hb : Es10xCommand.ofTag tag = .bppData)
    {value : Bytes}
    (h : (loadTx (es10xCommand (cardTransport env)) (Node.of tag value).self).Returns
      ⟨⟨k, s⟩, r⟩ () ⟨⟨k', s'⟩, r'⟩) :
    Collected s (payload (Der.tlv tag value)) s' := by
  rw [Node.of_self, Der.tlv, List.append_assoc] at h
  rw [Der.tlv, List.append_assoc]
  exact loadTx_collected ht hb (Der.lenBytes_append_ne_nil _ _) h

/-- **Segments** are collected one after the other. -/
theorem each_collected {tag : ℕ} (ht : Der.IsTag tag) (hb : Es10xCommand.ofTag tag = .bppData)
    {values : List Bytes}
    (h : (each (fun node => loadTx (es10xCommand (cardTransport env)) node.self)
        (values.map (Node.of tag))).Returns
      ⟨⟨k, s⟩, r⟩ () ⟨⟨k', s'⟩, r'⟩) :
    Collected s ((values.map (Der.tlv tag)).flatMap payload) s' := by
  induction values generalizing k s r with
  | nil =>
    cases returns_each_nil.1 h
    exact .refl _
  | cons v values ih =>
    obtain ⟨⟨⟨k₁, s₁⟩, r₁⟩, h₁, h⟩ := returns_each_cons.1 h
    exact (loadTx_self ht hb h₁).trans (ih h)

/-- **The header of the sequence of `86`** installs what has been collected before. -/
theorem loadTx_installs {n : ℕ} (hn : n < 2 ^ 31)
    (h : (loadTx (es10xCommand (cardTransport env)) (Der.tagBytes 0xA3 ++ Der.lenBytes n)).Returns
      ⟨⟨k, s⟩, r⟩ () ⟨⟨k', s'⟩, r'⟩) :
    (s.boundProfilePackage.data = [] ∧ s'.profiles = s.profiles ∧
        s'.boundProfilePackage.data = []) ∨
      (s.boundProfilePackage.data ≠ [] ∧ s'.boundProfilePackage.data = [] ∧
        s'.profiles = s.profiles.push (newProfile s.matchingId s.boundProfilePackage.data)) := by
  have hlen : 2 ≤ (Der.tagBytes 0xA3 ++ Der.lenBytes n).length := by
    have := Der.length_lenBytes_pos n
    have := Der.length_tagBytes_pos 0xA3
    rw [List.length_append]
    omega
  obtain ⟨body, hp⟩ := loadTx_card (List.ne_nil_of_length_pos (by omega)) h
  obtain ⟨t, hst, hi⟩ := sequenceOf86_frame (processEs10xCommand_tag (by decide) (by decide) hp)
  have hc := storeSegment_collected hlen hst
  rw [payload_header (by decide) hn] at hc
  obtain ⟨_, pkg, rfl, hpkg⟩ := hc
  rw [List.append_nil] at hpkg
  obtain ⟨h0, rfl⟩ | ⟨hne, _, rfl⟩ := installProfile_frame hi
  · exact .inl ⟨hpkg ▸ h0, rfl, h0⟩
  · refine .inr ⟨hpkg ▸ hne, rfl, ?_⟩
    simp only [hpkg]

/-- Behind a wrapper's header, the card finds the tag of the first object, unless the wrapper is
longer than two bytes can say. -/
theorem unwrapBf36_tag {cmd inner : Command} {header rest : Bytes} {n tag tag₀ : ℕ} {rest₀ : Bytes}
    (hmem : cmd.mem = header ++ (Der.lenBytes n ++ rest)) (hh : header.length = 2)
    (hn : n < 2 ^ 31) (ht : Der.readTag rest = some (tag₀, rest₀))
    (h : unwrapBf36 cmd = some (inner, tag)) :
    tag = 0xBF36 ∨ tag = 0x83 ∨ tag = 0x84 ∨ tag = tag₀ := by
  have hdrop : cmd.mem.drop 2 = Der.lenBytes n ++ rest := by rw [hmem, List.drop_left' hh]
  simp only [unwrapBf36, hdrop, Option.bind_eq_bind, Option.bind_eq_some_iff] at h
  obtain ⟨_, -, h⟩ := h
  split at h
  · cases h
    exact .inl rfl
  obtain ⟨b, hb, h⟩ := Option.bind_eq_some_iff.1 h
  rcases Nat.lt_or_ge n (2 ^ 16) with hlt | hge
  · obtain ⟨b', hb', hskip⟩ := skipLength_lenBytes hlt rest (cmd.len - 2)
    obtain rfl : b' = b := Option.some.inj (hb'.symm.trans hb)
    simp only [hskip, commandTag_eq, ht, Option.map_some, Option.bind_some] at h
    split at h
    · cases h
      exact .inl rfl
    · obtain ⟨_, -, h⟩ := Option.bind_eq_some_iff.1 h
      cases h
      exact .inr (.inr (.inr rfl))
  · obtain ⟨b', hb83, hb', hskip⟩ := skipLength_lenBytes_long hge (by omega) rest (cmd.len - 2)
    obtain rfl : b' = b := Option.some.inj (hb'.symm.trans hb)
    simp only [hskip] at h
    split at h
    · cases h
      exact .inl rfl
    · obtain ⟨tag', ht', h⟩ := Option.bind_eq_some_iff.1 h
      obtain ⟨_, -, h⟩ := Option.bind_eq_some_iff.1 h
      cases h
      simp only [commandTag, hb', Option.bind_eq_bind, Option.bind_some] at ht'
      rw [if_neg (by omega)] at ht'
      cases ht'
      tauto

/-- The card finds the first request in the wrapper, or nothing that it supports. -/
theorem decodeCommand_opening {env : Env} {n : ℕ} (hn : n < 2 ^ 31) (isc : Bytes)
    {inner : Command} {c : Es10xCommand}
    (h : decodeCommand (.ofBytes env (Der.tagBytes 0xBF36 ++ Der.lenBytes n ++
      Der.tlv 0xBF23 isc)) = some (inner, c)) :
    c = .initialiseSecureChannel ∨ c = .unsupported := by
  have hmem : (Command.ofBytes env (Der.tagBytes 0xBF36 ++ Der.lenBytes n ++
      Der.tlv 0xBF23 isc)).mem = Der.tagBytes 0xBF36 ++ (Der.lenBytes n ++
        (Der.tagBytes 0xBF23 ++ (Der.lenBytes isc.length ++ isc ++ env.trailing))) := by
    simp only [Command.ofBytes, Der.tlv, List.append_assoc]
  rw [decodeCommand, commandTag_eq, hmem, Der.readTag_tagBytes (by decide)] at h
  simp only [Option.map_some, Option.bind_eq_bind, Option.bind_some, if_true] at h
  obtain ⟨⟨inner', tag⟩, hw, h⟩ := Option.bind_eq_some_iff.1 h
  cases h
  obtain rfl | rfl | rfl | rfl :=
    unwrapBf36_tag hmem rfl hn (Der.readTag_tagBytes (by decide) _) hw
  · exact .inr rfl
  · exact .inr rfl
  · exact .inr rfl
  · exact .inl rfl

/-- **Opening the secure channel** changes neither the package nor the profiles. -/
theorem loadTx_opening {n : ℕ} (hn : n < 2 ^ 31) {isc : Bytes}
    (h : (loadTx (es10xCommand (cardTransport env))
      (Der.tagBytes 0xBF36 ++ Der.lenBytes n ++ Der.tlv 0xBF23 isc)).Returns
      ⟨⟨k, s⟩, r⟩ () ⟨⟨k', s'⟩, r'⟩) :
    s'.boundProfilePackage = s.boundProfilePackage ∧ s'.profiles = s.profiles := by
  obtain ⟨body, hp⟩ := loadTx_card (by simp [Der.tagBytes]) h
  obtain ⟨-, rfl, -⟩ | ⟨-, inner, c, hd, ⟨-, rfl, -⟩ | ⟨_, hh, hu, -⟩⟩ :=
    processEs10xCommand_cases hp
  · exact ⟨rfl, rfl⟩
  · exact ⟨rfl, rfl⟩
  · obtain rfl | rfl := decodeCommand_opening hn isc hd
    · obtain ⟨_, _, _, _, _, rfl⟩ := initialiseSecureChannel_frame hh
      exact ⟨rfl, rfl⟩
    · exact absurd rfl hu

/-! ## Loading a package -/

namespace BoundProfilePackage

variable (p : BoundProfilePackage)

theorem findTag_encode (hp : p.encode.length < 2 ^ 31) :
    findTag 0xBF36 p.encode = some (.of 0xBF36 (Der.tlvs p.objects)) :=
  findTag_tlv (by decide) (by rw [← encode]; omega)

theorem length_tlvs_objects_lt (hp : p.encode.length < 2 ^ 31) :
    (Der.tlvs p.objects).length < 2 ^ 31 := by
  rw [encode, Der.length_tlv] at hp
  omega

theorem length_object_lt (hp : p.encode.length < 2 ^ 31) {x : ℕ × Bytes} (hx : x ∈ p.objects) :
    x.2.length < 2 ^ 31 :=
  lt_of_le_of_lt (Der.length_le_tlvs hx) (p.length_tlvs_objects_lt hp)

theorem length_sequenceOf88_lt (hp : p.encode.length < 2 ^ 31) :
    (Der.tlvs (segments 0x88 p.sequenceOf88)).length < 2 ^ 31 :=
  p.length_object_lt hp (x := (0xA1, Der.tlvs (segments 0x88 p.sequenceOf88))) (by simp [objects])

theorem length_sequenceOf86_lt (hp : p.encode.length < 2 ^ 31) :
    (Der.tlvs (segments 0x86 p.sequenceOf86)).length < 2 ^ 31 :=
  p.length_object_lt hp (x := (0xA3, Der.tlvs (segments 0x86 p.sequenceOf86))) (by simp [objects])

theorem isTag_objects : ∀ t ∈ p.objects.map Prod.fst, Der.IsTag t := by
  cases h : p.secondSequenceOf87 <;> simp [objects, h, Der.IsTag]

theorem findTag_objects (hp : p.encode.length < 2 ^ 31) (tag : ℕ) :
    findTag tag (Der.tlvs p.objects) =
      (p.objects.find? (·.1 = tag)).map fun x => .of x.1 x.2 :=
  findTag_tlvs p.isTag_objects (by have := p.length_tlvs_objects_lt hp; omega) tag

/-- **The parts of a package** are found by their tags. -/
theorem findTag_parts (hp : p.encode.length < 2 ^ 31) :
    findTag 0xA0 (Der.tlvs p.objects) =
        some (.of 0xA0 (Der.tlvs (segments 0x87 p.firstSequenceOf87))) ∧
      findTag 0xA1 (Der.tlvs p.objects) =
        some (.of 0xA1 (Der.tlvs (segments 0x88 p.sequenceOf88))) ∧
      findTag 0xA2 (Der.tlvs p.objects) =
        (p.secondSequenceOf87.map fun values => .of 0xA2 (Der.tlvs (segments 0x87 values))) ∧
      findTag 0xA3 (Der.tlvs p.objects) =
        some (.of 0xA3 (Der.tlvs (segments 0x86 p.sequenceOf86))) := by
  have hfind := p.findTag_objects hp
  refine ⟨hfind _, hfind _, ?_, ?_⟩
  all_goals
    rw [hfind]
    cases h2 : p.secondSequenceOf87 <;> simp [objects, h2]

theorem upToTag_objects (hp : p.encode.length < 2 ^ 31) :
    upToTag 0xBF23 (Der.tlvs p.objects) = some (Der.tlv 0xBF23 p.initialiseSecureChannel) := by
  rw [upToTag, unpackAll_tlvs p.isTag_objects (by have := p.length_tlvs_objects_lt hp; omega)]
  simp [objects]

end BoundProfilePackage

/-- A package that is decoded is shorter than 2³¹ bytes. -/
theorem encode_lt_of_decodeText {p : BoundProfilePackage} {text : Bytes}
    (htext : Base64.decodeText text = some (some p.encode)) : p.encode.length < 2 ^ 31 :=
  lt_of_le_of_lt (Base64.length_of_decodeText htext) (by decide)

/-- **Loading a package**: the segments `86` are what is in the package buffer afterwards, and
everything that was collected before them is installed, if it is anything at all. -/
theorem load_effect {p : BoundProfilePackage} {text : Bytes}
    (htext : Base64.decodeText text = some (some p.encode))
    (h : (loadBoundProfilePackage (es10xCommand (cardTransport env)) text).Returns
      ⟨⟨k, s⟩, r⟩ () ⟨⟨k', s'⟩, r'⟩) :
    s'.boundProfilePackage.data = p.commands86.flatMap payload ∧
      ((s.boundProfilePackage.data ++ p.commandsBefore86.flatMap payload = [] ∧
          s'.profiles = s.profiles) ∨
        (s.boundProfilePackage.data ++ p.commandsBefore86.flatMap payload ≠ [] ∧
          ∃ matchingId, s'.profiles = s.profiles.push (newProfile matchingId
            (s.boundProfilePackage.data ++ p.commandsBefore86.flatMap payload)))) := by
  have hp := encode_lt_of_decodeText htext
  have hobj := p.length_tlvs_objects_lt hp
  obtain ⟨hA0, hA1, hA2, hA3⟩ := p.findTag_parts hp
  have h88 := p.length_sequenceOf88_lt hp
  have h86 := p.length_sequenceOf86_lt hp
  simp only [loadBoundProfilePackage, returns_bind, returns_liftFault, returns_ofOption] at h
  obtain ⟨_, _, ⟨hdecoded, rfl⟩, _, _, ⟨hbpp, rfl⟩, _, _, ⟨hup, rfl⟩, _, ⟨⟨k₁, s₁⟩, r₁⟩, h₁, _, _,
    ⟨h0, rfl⟩, _, ⟨⟨k₂, s₂⟩, r₂⟩, h₂, _, _, ⟨h1, rfl⟩, _, ⟨⟨k₃, s₃⟩, r₃⟩, h₃, _, ⟨⟨k₄, s₄⟩, r₄⟩,
    h₄, _, ⟨⟨k₅, s₅⟩, r₅⟩, h₅, _, _, ⟨h3, rfl⟩, _, ⟨⟨k₆, s₆⟩, r₆⟩, h₆, h₇⟩ := h
  cases htext.symm.trans hdecoded
  cases (p.findTag_encode hp).symm.trans hbpp
  rw [Node.of_value, p.upToTag_objects hp] at hup
  rw [Node.of_value] at h0 h1 h3
  rw [Node.of_value, hA2] at h₅
  cases hup
  cases hA0.symm.trans h0
  cases hA1.symm.trans h1
  cases hA3.symm.trans h3
  rw [Node.of_value, unpackAll_segments (by decide) (by omega)] at h₄
  rw [Node.of_value, unpackAll_segments (by decide) (by omega)] at h₇
  obtain ⟨hb₁, hp₁⟩ := loadTx_opening hobj h₁
  have hc₂ := loadTx_self (by decide) rfl h₂
  have hc₃ : Collected s₂ _ s₃ := loadTx_collected (by decide) rfl (Der.lenBytes_ne_nil _) h₃
  have hc₄ := each_collected (by decide) rfl h₄
  have hc₅ : Collected s₄ ((p.secondSequenceOf87.map fun values =>
      Der.tlv 0xA2 (Der.tlvs (segments 0x87 values))).toList.flatMap payload) s₅ := by
    cases h2 : p.secondSequenceOf87 with
    | none =>
      rw [h2] at h₅
      cases (returns_pure.1 h₅).2
      exact .refl _
    | some values =>
      rw [h2] at h₅
      simpa using loadTx_self (by decide) rfl h₅
  have hc := ((hc₂.trans hc₃).trans hc₄).trans hc₅
  have hbefore : payload (Der.tlv 0xA0 (Der.tlvs (segments 0x87 p.firstSequenceOf87))) ++
      payload
        (Der.tagBytes 0xA1 ++ Der.lenBytes (Der.tlvs (segments 0x88 p.sequenceOf88)).length) ++
      (p.sequenceOf88.map (Der.tlv 0x88)).flatMap payload ++
      (p.secondSequenceOf87.map fun values =>
        Der.tlv 0xA2 (Der.tlvs (segments 0x87 values))).toList.flatMap payload =
      p.commandsBefore86.flatMap payload := by
    simp [BoundProfilePackage.commandsBefore86]
  rw [hbefore] at hc
  have hdata := hc.data_eq
  rw [hb₁] at hdata
  have hc₇ := each_collected (by decide) rfl h₇
  rw [hc₇.data_eq, hc₇.profiles, ← hdata, ← hp₁, ← hc.profiles]
  obtain ⟨he, hps, h6⟩ | ⟨he, h6, hps⟩ := loadTx_installs h86 h₆
  · exact ⟨by rw [h6]; rfl, .inl ⟨he, hps⟩⟩
  · exact ⟨by rw [h6]; rfl, .inr ⟨he, _, hps⟩⟩

/-! ## When a package is installed as it should be -/

/-- What a successful load should have done: one profile is new and all others are as they were, its
data end with the contents of all segments `86`, they are taken from the commands of this package,
in order, and nothing is left in the package buffer. -/
def InstalledOnce (p : BoundProfilePackage) (s s' : EuiccState) : Prop :=
  ∃ xs ys q, s.profiles.toList = some xs ∧ s'.profiles.toList = some ys ∧ ys.Perm (q :: xs) ∧
    p.sequenceOf86.flatten <:+ q.profileData ∧
    q.profileData.Sublist ((p.commandsBefore86 ++ p.header86 :: p.commands86).flatMap payload) ∧
    s'.boundProfilePackage.data = []

/-- Nothing was collected before, the segments `86` are all empty, and some other segment is not. -/
def NothingAfterHeader86 (p : BoundProfilePackage) (s : EuiccState) : Prop :=
  s.boundProfilePackage.data = [] ∧ (∀ v ∈ p.sequenceOf86, v = []) ∧
    (p.firstSequenceOf87 ≠ [] ∨ (∃ v ∈ p.sequenceOf88, v ≠ []) ∨
      ∃ values ∈ p.secondSequenceOf87, values ≠ [])

/-- The payload of segments is empty if they are. -/
theorem flatMap_payload_eq_nil {tag : ℕ} (ht : tag < 256) {values : List Bytes}
    (hlen : (Der.tlvs (segments tag values)).length < 2 ^ 31) :
    (values.map (Der.tlv tag)).flatMap payload = [] ↔ ∀ v ∈ values, v = [] := by
  rw [List.flatMap_eq_nil_iff, List.forall_mem_map]
  refine forall₂_congr fun v hv => payload_tlv_eq_nil ht (lt_of_le_of_lt ?_ hlen)
  exact Der.length_le_tlvs (x := (tag, v)) (List.mem_map.2 ⟨v, hv, rfl⟩)

namespace BoundProfilePackage

variable {p : BoundProfilePackage}

theorem payload_header86 (hp : p.encode.length < 2 ^ 31) : payload p.header86 = [] :=
  payload_header (by decide) (p.length_sequenceOf86_lt hp)

theorem commands86_eq_nil (hp : p.encode.length < 2 ^ 31) :
    p.commands86.flatMap payload = [] ↔ ∀ v ∈ p.sequenceOf86, v = [] :=
  flatMap_payload_eq_nil (by decide) (p.length_sequenceOf86_lt hp)

/-- Something is collected before the header of the sequence of `86`, unless all is empty. -/
theorem commandsBefore86_ne_nil (hp : p.encode.length < 2 ^ 31) :
    p.commandsBefore86.flatMap payload ≠ [] ↔
      p.firstSequenceOf87 ≠ [] ∨ (∃ v ∈ p.sequenceOf88, v ≠ []) ∨
        ∃ values ∈ p.secondSequenceOf87, values ≠ [] := by
  have h87 : payload (Der.tlv 0xA0 (Der.tlvs (segments 0x87 p.firstSequenceOf87))) = [] ↔
      p.firstSequenceOf87 = [] :=
    (payload_tlv_eq_nil (by decide) (p.length_object_lt hp
      (x := (0xA0, Der.tlvs (segments 0x87 p.firstSequenceOf87))) (by simp [objects]))).trans
      tlvs_segments_eq_nil
  have hA1 := @payload_header 0xA1 _ (by decide) (p.length_sequenceOf88_lt hp)
  have h88 := @flatMap_payload_eq_nil 0x88 (by decide) _ (p.length_sequenceOf88_lt hp)
  have hA2 : (p.secondSequenceOf87.map fun values =>
      Der.tlv 0xA2 (Der.tlvs (segments 0x87 values))).toList.flatMap payload = [] ↔
      ∀ values ∈ p.secondSequenceOf87, values = [] := by
    cases h2 : p.secondSequenceOf87 with
    | none => simp
    | some values =>
      have hlen := p.length_object_lt hp (x := (0xA2, Der.tlvs (segments 0x87 values)))
        (by simp [objects, h2])
      simpa using (@payload_tlv_eq_nil 0xA2 (by decide) _ hlen).trans tlvs_segments_eq_nil
  have key : p.commandsBefore86.flatMap payload = [] ↔ p.firstSequenceOf87 = [] ∧
      (∀ v ∈ p.sequenceOf88, v = []) ∧ ∀ values ∈ p.secondSequenceOf87, values = [] := by
    rw [← h87, ← h88, ← hA2]
    simp only [commandsBefore86, List.flatMap_append, List.flatMap_cons, List.flatMap_nil, hA1,
      List.append_nil, List.append_eq_nil_iff, and_assoc]
  rw [Ne, key]
  simp only [not_and_or, not_forall, exists_prop, Ne]

end BoundProfilePackage

/-- **A package is installed as it should be** exactly if nothing comes after the header of the
sequence of `86`, and nothing was collected before the package. -/
theorem installation_iff {daemon : Daemon}
    (hd : Run.Reachable daemonStep .start daemon) {env : ℕ → Env} {p : BoundProfilePackage}
    {text : Bytes} (htext : Base64.decodeText text = some (some p.encode)) {k k' : ℕ}
    {s' : EuiccState} {r r' : LoadResult}
    (h : (loadBoundProfilePackage (es10xCommand (cardTransport env)) text).Returns
      ⟨⟨k, daemon.globalState⟩, r⟩ () ⟨⟨k', s'⟩, r'⟩) :
    InstalledOnce p daemon.globalState s' ↔ NothingAfterHeader86 p daemon.globalState := by
  obtain ⟨zs, hl, -⟩ := (daemonInv_of_reachable hd).profiles
  have hxs := LinkedList.toList_eq hl
  have hp := encode_lt_of_decodeText htext
  obtain ⟨hbpp, heff⟩ := load_effect htext h
  have hpay : (p.commandsBefore86 ++ p.header86 :: p.commands86).flatMap payload =
      p.commandsBefore86.flatMap payload ++ p.commands86.flatMap payload := by
    simp [BoundProfilePackage.payload_header86 hp]
  rw [NothingAfterHeader86, ← BoundProfilePackage.commandsBefore86_ne_nil hp,
    ← BoundProfilePackage.commands86_eq_nil hp]
  constructor
  · rintro ⟨xs, ys, q, hx, hy, hperm, -, hsub, hempty⟩
    rw [hxs, Option.some.injEq] at hx
    obtain ⟨-, hps⟩ | ⟨hne, m, hps⟩ := heff
    · rw [hps, hxs, Option.some.injEq] at hy
      have := hperm.length_eq
      rw [← hx, ← hy, List.length_cons] at this
      omega
    · rw [hps, LinkedList.toList_eq (LinkedList.push_repr hl _), Option.some.injEq] at hy
      rw [← hx, ← hy, List.map_cons] at hperm
      have hq := List.singleton_perm_singleton.1 ((List.perm_append_right_iff _).1 hperm)
      rw [hbpp] at hempty
      rw [hpay, hempty, List.append_nil, ← hq] at hsub
      have hlen := hsub.length_le
      simp only [newProfile, List.length_append] at hlen
      have hb : daemon.globalState.boundProfilePackage.data = [] :=
        List.length_eq_zero_iff.1 (by omega)
      rw [hb, List.nil_append] at hne
      exact ⟨hb, hempty, hne⟩
  · rintro ⟨hb, h86, hne⟩
    obtain ⟨he, -⟩ | ⟨-, m, hps⟩ := heff
    · rw [hb, List.nil_append] at he
      exact absurd he hne
    · have hflat : p.sequenceOf86.flatten = [] :=
        List.flatten_eq_nil_iff.2 ((BoundProfilePackage.commands86_eq_nil hp).1 h86)
      refine ⟨_, _, _, hxs, by rw [hps, LinkedList.toList_eq (LinkedList.push_repr hl _)]; rfl,
        .refl _, ?_, ?_, hbpp.trans h86⟩
      · rw [hflat]
        exact List.nil_suffix
      · rw [hpay, h86, List.append_nil, newProfile, hb, List.nil_append]

/-! ## Sample packages -/

/-- A client connects, opens the channel, and prepares a download. -/
def samplePrepare : List Event :=
  [.accept, .request sampleEnv ⟨.connect, []⟩,
    .request sampleEnv ⟨.logicChannelOpen, expectedAid⟩,
    .request sampleEnv ⟨.transmit, [0x80, 0xE2, 0x91, 0x00, 0x03, 0xBF, 0x21, 0x00]⟩]

/-- A package with one segment `87`, and given segments `86`. -/
def samplePackage (sequenceOf86 : List Bytes) : BoundProfilePackage where
  initialiseSecureChannel := [0x80, 0x00, 0x5F, 0x49, 0x41] ++ sampleSmdpOtpk
  firstSequenceOf87 := [[0x55]]
  sequenceOf88 := []
  secondSequenceOf87 := none
  sequenceOf86 := sequenceOf86

/-- The load of a sample package, after the preparation. -/
def sampleLoad (sequenceOf86 : List Bytes) :
    Option (Daemon × LoadState CardSession × Option Unit) := do
  let daemon ← Run.exec daemonStep .start samplePrepare
  let result ← loadBoundProfilePackage (es10xCommand (cardTransport fun _ => sampleEnv))
    (base64Encode (samplePackage sequenceOf86).encode) ⟨⟨0, daemon.globalState⟩, .init⟩
  return (daemon, result)

theorem sampleLoad_eq_some {sequenceOf86 : List Bytes} {daemon : Daemon}
    {t : LoadState CardSession} (h : sampleLoad sequenceOf86 = some (daemon, t, some ())) :
    Run.Reachable daemonStep .start daemon ∧
      (loadBoundProfilePackage (es10xCommand (cardTransport fun _ => sampleEnv))
        (base64Encode (samplePackage sequenceOf86).encode)).Returns
          ⟨⟨0, daemon.globalState⟩, .init⟩ () t := by
  simp only [sampleLoad, Option.bind_eq_bind, Option.bind_eq_some_iff] at h
  obtain ⟨d, hd, ⟨u, o⟩, hu, h⟩ := h
  cases h
  exact ⟨Run.Reachable.init.of_exec hd, hu⟩

/-- Without segments `86`, the sample package is installed as it should be. -/
theorem installation_iff_sample : ∃ daemon t,
    sampleLoad [] = some (daemon, t, some ()) ∧
      (InstalledOnce (samplePackage []) daemon.globalState t.partner.state ↔
        NothingAfterHeader86 (samplePackage []) daemon.globalState) := by
  have hrun : (sampleLoad []).any (fun x => x.2.2 = some ()) = true := by decide +kernel
  obtain ⟨⟨daemon, ⟨⟨k', s'⟩, r'⟩, o⟩, hload, ho⟩ := (Option.any_eq_true _ _).1 hrun
  obtain rfl : o = some () := of_decide_eq_true ho
  obtain ⟨hd, h⟩ := sampleLoad_eq_some hload
  exact ⟨daemon, ⟨⟨k', s'⟩, r'⟩, hload,
    installation_iff hd (Base64.decodeText_encode (by decide +kernel)) h⟩

/-- **A segment `86` is left behind**: after a successful load it is in the package buffer. -/
theorem installation_fails : ¬ ∀ (daemon : Daemon) (env : ℕ → Env) (p : BoundProfilePackage)
    (text : Bytes) (k k' : ℕ) (s' : EuiccState) (r r' : LoadResult),
    Run.Reachable daemonStep .start daemon → Base64.decodeText text = some (some p.encode) →
    (loadBoundProfilePackage (es10xCommand (cardTransport env)) text).Returns
      ⟨⟨k, daemon.globalState⟩, r⟩ () ⟨⟨k', s'⟩, r'⟩ →
    InstalledOnce p daemon.globalState s' := by
  intro hall
  have hrun : (sampleLoad [[0x77]]).any (fun x => x.2.2 = some () &&
      x.2.1.partner.state.boundProfilePackage.data ≠ []) = true := by decide +kernel
  obtain ⟨⟨daemon, ⟨⟨k', s'⟩, r'⟩, o⟩, hload, ho⟩ := (Option.any_eq_true _ _).1 hrun
  simp only [Bool.and_eq_true, decide_eq_true_eq] at ho
  obtain ⟨rfl, hleft⟩ := ho
  obtain ⟨hd, h⟩ := sampleLoad_eq_some hload
  obtain ⟨_, _, _, -, -, -, -, -, hempty⟩ :=
    hall _ _ _ _ _ _ _ _ _ hd (Base64.decodeText_encode (by decide +kernel)) h
  exact hleft hempty

end VirtualRsp.Lpa
