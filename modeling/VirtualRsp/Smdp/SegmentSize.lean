import VirtualRsp.Smdp.Bsp

/-!
# The size of a segment

A plaintext is cut into pieces of at most `maxPayloadSize` bytes, the room that the tag, the length
and the MAC leave in a segment of `maxSegmentSize` bytes (`segmentLoop_pieces`). A piece that is
only MACed is sent as it is. A piece that is encrypted is padded first, and the padding takes at
least one byte (`length_padToMultiple_eq`), for which there is no room behind a piece of
`maxPayloadSize` bytes.

Every segment stays within its maximum exactly for plaintexts shorter than `maxPayloadSize`
(`segments_within_iff`).
-/

namespace VirtualRsp.Smdp

open LockStep BspInstance

variable {tlv : Bertlv} {aes : Aes} {tag : UInt8}

/-! ## The length of an object -/

/-- The length of the object that carries `n` bytes and their MAC. -/
def objectLength (n : ℕ) : ℕ := 1 + (Der.lenBytes (n + lMac)).length + (n + lMac)

/-- The length of `n` bytes after padding. -/
def paddedLength (n : ℕ) : ℕ := 16 * (n / 16 + 1)

theorem length_padToMultiple_eq (data : Bytes) :
    (padToMultiple data).length = paddedLength data.length := by
  unfold padToMultiple getPadding blocksize paddedLength
  split <;> simp only [List.length_append, List.length_cons, List.length_nil,
    List.length_replicate] <;> omega

theorem length_auth (htlv : tlv.Lawful) {m m' : BspAlgoMacAes128} {data maced : Bytes}
    (h : m.auth tlv aes tag data = some (maced, m')) : maced.length = objectLength data.length := by
  obtain ⟨-, rfl, rfl⟩ := auth_eq_some htlv h
  simp only [objectLength, List.length_append, List.length_cons, List.length_take,
    Vector.length_toList, lMac]
  omega

theorem length_encryptAndMacOne (htlv : tlv.Lawful) (haes : aes.Lawful) (plaintext : Bytes)
    (bsp : BspInstance) (maced : Bytes) (bsp' : BspInstance)
    (h : encryptAndMacOne tlv aes tag plaintext bsp = some (maced, bsp')) :
    maced.length = objectLength (paddedLength plaintext.length) := by
  obtain ⟨ciphered, c, m, hc, hm, -⟩ := encryptAndMacOne_eq_some h
  obtain ⟨⟨icv, c₁⟩, -, hc'⟩ := Option.bind_eq_some_iff.1 hc
  cases hc'
  rw [length_auth htlv hm, haes.length_encrypt, length_padToMultiple_eq]

theorem length_macOnlyOne (htlv : tlv.Lawful) (plaintext : Bytes) (bsp : BspInstance)
    (maced : Bytes) (bsp' : BspInstance)
    (h : macOnlyOne tlv aes tag plaintext bsp = some (maced, bsp')) :
    maced.length = objectLength plaintext.length := by
  obtain ⟨m, hm, -⟩ := macOnlyOne_eq_some h
  exact length_auth htlv hm

/-- An object within the maximum carries at most `1008` bytes. -/
theorem objectLength_le {n : ℕ} (h : n ≤ 1008) : objectLength n ≤ maxSegmentSize := by
  have hlen : (Der.lenBytes (n + lMac)).length ≤ 3 := by
    apply Der.length_lenBytes_le_three
    unfold lMac
    omega
  unfold objectLength maxSegmentSize
  unfold lMac at hlen ⊢
  omega

theorem lt_objectLength {n : ℕ} (h : 1011 ≤ n) : maxSegmentSize < objectLength n := by
  have hlen : 0 < (Der.lenBytes (n + lMac)).length := Der.length_lenBytes_pos _
  unfold objectLength maxSegmentSize
  unfold lMac at hlen ⊢
  omega

/-! ## The pieces of a plaintext -/

/-- A step leaves the limit on pieces as it is. -/
def KeepsLimit (one : Bytes → BspInstance → Option (Bytes × BspInstance)) : Prop :=
  ∀ segment bsp maced bsp', one segment bsp = some (maced, bsp') →
    bsp'.maxPayloadSize = bsp.maxPayloadSize

/-- A plaintext is protected piece by piece, and the pieces make up the plaintext. All but the last
are as long as the limit allows. -/
theorem segmentLoop_pieces {one : Bytes → BspInstance → Option (Bytes × BspInstance)}
    (hone : KeepsLimit one) {n : ℕ} {remainder : Bytes} {bsp bsp' : BspInstance}
    {result : List Bytes} (hpos : 0 < bsp.maxPayloadSize)
    (hs : segmentLoop one n remainder bsp = some (result, bsp')) :
    ∃ pieces, all one pieces bsp = some (result, bsp') ∧ pieces.flatten = remainder ∧
      (∀ piece ∈ pieces, piece.length ≤ bsp.maxPayloadSize) ∧
      (bsp.maxPayloadSize ≤ remainder.length →
        ∃ piece ∈ pieces, piece.length = bsp.maxPayloadSize) := by
  induction n generalizing remainder bsp result with
  | zero => cases hs
  | succ n ih =>
    by_cases hempty : remainder.length = 0
    · rw [segmentLoop, if_pos hempty] at hs
      cases hs
      refine ⟨[], rfl, (List.length_eq_zero_iff.1 hempty).symm, by simp, fun hle => ?_⟩
      omega
    · obtain ⟨maced, bsp₁, rest, hmaced, hrest, rfl⟩ := segmentLoop_eq_some hempty hs
      have hsize := hone _ _ _ _ hmaced
      obtain ⟨pieces, hall, hflat, hle, -⟩ := ih (by rw [hsize]; exact hpos) hrest
      rw [hsize] at hle
      refine ⟨remainder.take bsp.maxPayloadSize :: pieces,
        all_cons_eq_some.2 ⟨_, _, _, hmaced, hall, rfl⟩, ?_,
        List.forall_mem_cons.2 ⟨List.length_take_le _ _, hle⟩, fun h => ?_⟩
      · rw [List.flatten_cons, hflat, List.take_append_drop]
      · exact ⟨_, List.mem_cons_self, List.length_take_of_le h⟩

/-- The number of pieces of at most `size` bytes. -/
def pieceCount (size n : ℕ) : ℕ := (n + (size - 1)) / size

theorem pieceCount_zero {size : ℕ} (hpos : 0 < size) : pieceCount size 0 = 0 :=
  Nat.div_eq_of_lt (by omega)

theorem pieceCount_of_pos {size n : ℕ} (hpos : 0 < size) (hn : 0 < n) :
    pieceCount size n = pieceCount size (n - size) + 1 := by
  unfold pieceCount
  rcases Nat.lt_or_ge n size with hlt | hle
  · rw [Nat.sub_eq_zero_of_le hlt.le, Nat.div_eq_of_lt (by omega : 0 + (size - 1) < size)]
    exact Nat.div_eq_of_lt_le (by omega) (by omega)
  · rw [← Nat.add_div_right _ hpos]
    congr 1
    omega

/-- A plaintext is protected exactly when the block counter fits a block at every piece. -/
theorem segmentLoop_isSome_iff {one : Bytes → BspInstance → Option (Bytes × BspInstance)}
    (hone : Advances one)
    (hstop : ∀ segment bsp, 256 ^ blocksize ≤ bsp.cAlgo.blockNr → one segment bsp = none)
    {n : ℕ} {remainder : Bytes} (hn : remainder.length < n) {bsp : BspInstance}
    (hpos : 0 < bsp.maxPayloadSize) (hsize : bsp.maxPayloadSize ≤ maxSegmentSize) :
    (segmentLoop one n remainder bsp).isSome ↔ remainder.length = 0 ∨
      bsp.cAlgo.blockNr + pieceCount bsp.maxPayloadSize remainder.length ≤ 256 ^ blocksize := by
  induction n generalizing remainder bsp with
  | zero => omega
  | succ n ih =>
    by_cases hne : remainder.length = 0
    · rw [segmentLoop, if_pos hne]
      exact iff_of_true rfl (Or.inl hne)
    · have hdrop : (remainder.drop bsp.maxPayloadSize).length = remainder.length -
          bsp.maxPayloadSize := List.length_drop
      have hcount := pieceCount_of_pos hpos (Nat.pos_of_ne_zero hne)
      rw [segmentLoop_of_ne one n bsp hne, or_iff_right hne, hcount]
      rcases Nat.lt_or_ge bsp.cAlgo.blockNr (256 ^ blocksize) with hnr | hnr
      · obtain ⟨maced, bsp₁, hmaced, hnr₁, hsize₁⟩ :=
          hone _ bsp (List.length_take_le _ remainder) hsize hnr
        have hrest := @ih (remainder.drop bsp.maxPayloadSize) (by omega) bsp₁ (by omega) (by omega)
        have hsome : ∀ (x : Option (List Bytes × BspInstance))
            (f : List Bytes × BspInstance → Option (List Bytes × BspInstance)),
            (∀ y, (f y).isSome) → (x.bind f).isSome = x.isSome := by
          intro x f hf
          cases x with
          | none => rfl
          | some y => exact hf y
        rw [hmaced, Option.bind_eq_bind, Option.bind_some, Option.bind_eq_bind,
          hsome _ _ fun _ => rfl, hrest, hnr₁, hsize₁, hdrop]
        constructor
        · rintro (hzero | hle)
          · rw [hzero, pieceCount_zero hpos]
            omega
          · omega
        · intro hle
          exact Or.inr (by omega)
      · rw [hstop _ _ hnr]
        refine iff_of_false Bool.false_ne_true ?_
        omega

theorem encryptAndMacOne_eq_none (plaintext : Bytes) (bsp : BspInstance)
    (hnr : 256 ^ blocksize ≤ bsp.cAlgo.blockNr) :
    encryptAndMacOne tlv aes tag plaintext bsp = none := by
  have hicv : bsp.cAlgo.getIcv aes = none := by
    unfold BspAlgoCryptAes128.getIcv toBytes
    rw [if_neg (not_lt.2 hnr)]
    rfl
  unfold encryptAndMacOne BspAlgoCryptAes128.encrypt
  rw [hicv]
  split <;> rfl

/-! ## All segments -/

/-- The state of an instance: any keys, counter and chaining value, and the limit that the
constructor computes. -/
def IsInstance (tlv : Bertlv) (bsp : BspInstance) : Prop :=
  ∃ sEnc sMac initialMcv new, BspInstance.new tlv sEnc sMac initialMcv = some new ∧
    bsp.maxPayloadSize = new.maxPayloadSize

theorem IsInstance.maxPayloadSize_eq (htlv : tlv.Lawful) {bsp : BspInstance}
    (h : IsInstance tlv bsp) : bsp.maxPayloadSize = 1008 := by
  obtain ⟨sEnc, sMac, initialMcv, new, hnew, hsize⟩ := h
  rw [new_eq htlv] at hnew
  cases hnew
  exact hsize

/-- What is produced from a plaintext protects pieces that make up the plaintext, one after the
other, and no object is longer than the maximum. -/
def Within (one : Bytes → BspInstance → Option (Bytes × BspInstance)) (plaintext : Bytes)
    (bsp : BspInstance) (result : Option (List Bytes × BspInstance)) : Prop :=
  ∀ objects bsp', result = some (objects, bsp') →
    (∃ pieces, pieces.flatten = plaintext ∧ all one pieces bsp = some (objects, bsp')) ∧
    ∀ object ∈ objects, object.length ≤ maxSegmentSize

/-- The lengths of the objects are decided by the lengths of the pieces. -/
theorem segmentLoop_lengths {one : Bytes → BspInstance → Option (Bytes × BspInstance)}
    (length : ℕ → ℕ) (hone : KeepsLimit one)
    (hlength : ∀ segment bsp maced bsp', one segment bsp = some (maced, bsp') →
      maced.length = length segment.length)
    {n : ℕ} {plaintext : Bytes} {bsp bsp' : BspInstance} {objects : List Bytes}
    (hsize : bsp.maxPayloadSize = 1008)
    (hs : segmentLoop one n plaintext bsp = some (objects, bsp')) :
    ∃ pieces, pieces.flatten = plaintext ∧ all one pieces bsp = some (objects, bsp') ∧
      objects.map List.length = pieces.map (fun piece => length piece.length) ∧
      (∀ piece ∈ pieces, piece.length ≤ 1008) ∧
      (1008 ≤ plaintext.length → ∃ piece ∈ pieces, piece.length = 1008) := by
  obtain ⟨pieces, hall, hflat, hle, hfull⟩ := segmentLoop_pieces hone (by omega) hs
  rw [hsize] at hle hfull
  exact ⟨pieces, hflat, hall, all_map hlength hall, hle, hfull⟩

/-- Objects whose lengths all come from pieces that fit. -/
theorem length_le_of_lengths (length : ℕ → ℕ) {pieces objects : List Bytes}
    (hlengths : objects.map List.length = pieces.map (fun piece => length piece.length))
    (hfit : ∀ piece ∈ pieces, length piece.length ≤ maxSegmentSize) :
    ∀ object ∈ objects, object.length ≤ maxSegmentSize := by
  intro object hobject
  have hmem : object.length ∈ objects.map List.length := List.mem_map_of_mem hobject
  rw [hlengths] at hmem
  obtain ⟨piece, hpiece, hlen⟩ := List.mem_map.1 hmem
  rw [← hlen]
  exact hfit piece hpiece

/-- Segments that are only MACed stay within the maximum. -/
theorem macOnly_within (htlv : tlv.Lawful) {bsp : BspInstance} (hsize : bsp.maxPayloadSize = 1008)
    (plaintext : Bytes) :
    Within (macOnlyOne tlv aes tag) plaintext bsp (macOnly tlv aes tag plaintext bsp) := by
  intro objects bsp' h
  obtain ⟨pieces, hflat, hall, hlengths, hle, -⟩ :=
    segmentLoop_lengths objectLength (fun _ _ _ _ h => (macOnlyOne_blockNr h).2)
      (length_macOnlyOne htlv) hsize h
  exact ⟨⟨pieces, hflat, hall⟩, length_le_of_lengths objectLength hlengths fun piece hpiece =>
    objectLength_le (hle piece hpiece)⟩

theorem encryptAndMac_isSome (htlv : tlv.Lawful) (haes : aes.Lawful) (tag : UInt8)
    (plaintext : Bytes) {bsp : BspInstance} (hsize : bsp.maxPayloadSize = 1008)
    (hnr : bsp.cAlgo.blockNr + plaintext.length ≤ 256 ^ blocksize) :
    ∃ objects bsp', encryptAndMac tlv aes tag plaintext bsp = some (objects, bsp') := by
  obtain ⟨objects, bsp', h, -, -⟩ := segmentLoop_isSome (encryptAndMacOne_advances htlv haes)
    (Nat.lt_succ_self plaintext.length) (by omega) (by rw [hsize]; decide) hnr
  exact ⟨objects, bsp', h⟩

/-- Segments that are encrypted stay within the maximum exactly for short plaintexts. -/
theorem encryptAndMac_within_iff (htlv : tlv.Lawful) (haes : aes.Lawful) {bsp bsp' : BspInstance}
    (hsize : bsp.maxPayloadSize = 1008) {plaintext : Bytes} {objects : List Bytes}
    (h : encryptAndMac tlv aes tag plaintext bsp = some (objects, bsp')) :
    (∃ pieces, pieces.flatten = plaintext ∧
        all (encryptAndMacOne tlv aes tag) pieces bsp = some (objects, bsp')) ∧
      ((∀ object ∈ objects, object.length ≤ maxSegmentSize) ↔ plaintext.length < 1008) := by
  obtain ⟨pieces, hflat, hall, hlengths, hle, hfull⟩ :=
    segmentLoop_lengths (fun n => objectLength (paddedLength n))
      (fun _ _ _ _ h => (encryptAndMacOne_blockNr h).2) (length_encryptAndMacOne htlv haes) hsize h
  refine ⟨⟨pieces, hflat, hall⟩, fun hall => ?_, fun hlt => ?_⟩
  · by_contra hge
    obtain ⟨piece, hpiece, hlen⟩ := hfull (not_lt.1 hge)
    have hmem : objectLength (paddedLength piece.length) ∈ objects.map List.length := by
      rw [hlengths]
      exact List.mem_map_of_mem hpiece
    obtain ⟨object, hobject, hobject'⟩ := List.mem_map.1 hmem
    have hlong : maxSegmentSize < objectLength (paddedLength piece.length) := by
      apply lt_objectLength
      rw [hlen]
      decide
    exact absurd (hall object hobject) (by omega)
  · apply length_le_of_lengths (fun n => objectLength (paddedLength n)) hlengths
    intro piece hpiece
    have hpiece' : piece.length ≤ plaintext.length := by
      rw [← hflat]
      exact (List.sublist_flatten_of_mem hpiece).length_le
    apply objectLength_le
    unfold paddedLength
    omega

/-- **The size of segments.** Protecting a plaintext of any length, with any tag and in any state
of an instance, covers the plaintext and keeps every segment within the maximum exactly when the
plaintext is shorter than the room in a segment, or the block counter does not fit a block at some
piece, so that nothing is produced. -/
theorem segments_within_iff (htlv : tlv.Lawful) (haes : aes.Lawful) (tag : UInt8)
    (plaintext : Bytes) {bsp : BspInstance} (hbsp : IsInstance tlv bsp) :
    (Within (encryptAndMacOne tlv aes tag) plaintext bsp (encryptAndMac tlv aes tag plaintext bsp) ∧
      Within (macOnlyOne tlv aes tag) plaintext bsp (macOnly tlv aes tag plaintext bsp)) ↔
    plaintext.length < bsp.maxPayloadSize ∨
      256 ^ blocksize < bsp.cAlgo.blockNr + pieceCount bsp.maxPayloadSize plaintext.length := by
  have hsize := hbsp.maxPayloadSize_eq htlv
  have hsome : (encryptAndMac tlv aes tag plaintext bsp).isSome ↔ _ :=
    segmentLoop_isSome_iff (encryptAndMacOne_advances htlv haes) encryptAndMacOne_eq_none
      (Nat.lt_succ_self plaintext.length) (by omega) (by rw [hsize]; decide)
  rw [and_iff_left (macOnly_within htlv hsize plaintext)]
  cases h : encryptAndMac tlv aes tag plaintext bsp with
  | none =>
    rw [h] at hsome
    have hfail := mt hsome.2 Bool.false_ne_true
    refine iff_of_true (fun _ _ hnone => absurd hnone (Option.some_ne_none _).symm) ?_
    exact Or.inr (not_le.1 (mt Or.inr hfail))
  | some produced =>
    obtain ⟨objects, bsp'⟩ := produced
    obtain ⟨hcover, hwithin⟩ := encryptAndMac_within_iff htlv haes hsize h
    rw [h] at hsome
    have hfits := hsome.1 rfl
    constructor
    · intro hall
      exact Or.inl (by rw [hsize]; exact hwithin.1 (hall objects bsp' rfl).2)
    · intro hcond objects₁ bsp₁ heq
      cases heq
      refine ⟨hcover, hwithin.2 ?_⟩
      rcases hcond with hlt | hover
      · omega
      · rcases hfits with hzero | hfit
        · omega
        · exact absurd hfit (not_le.2 hover)

/-- A new instance. -/
def newInstance : BspInstance := ⟨⟨sampleEnc, 1⟩, ⟨sampleMac, sampleMcv⟩, 1008⟩

theorem isInstance_newInstance : IsInstance derBertlv newInstance :=
  ⟨sampleEnc, sampleMac, sampleMcv, newInstance, new_eq derBertlv_lawful _ _ _, rfl⟩

theorem segments_within_short :
    (Within (encryptAndMacOne derBertlv aes128 0x86) [1, 2, 3] newInstance
        (encryptAndMac derBertlv aes128 0x86 [1, 2, 3] newInstance) ∧
      Within (macOnlyOne derBertlv aes128 0x86) [1, 2, 3] newInstance
        (macOnly derBertlv aes128 0x86 [1, 2, 3] newInstance)) ↔
    3 < 1008 ∨ 256 ^ blocksize < 1 + pieceCount 1008 3 :=
  segments_within_iff derBertlv_lawful aes128_lawful 0x86 [1, 2, 3] isInstance_newInstance

/-- A plaintext that fills the room in a segment makes a segment that is too long. -/
theorem segment_too_long : derBertlv.Lawful ∧ aes128.Lawful ∧
    IsInstance derBertlv newInstance ∧
    ∃ objects bsp', encryptAndMac derBertlv aes128 0x86 (List.replicate 1008 0) newInstance =
        some (objects, bsp') ∧
      ¬ ∀ object ∈ objects, object.length ≤ maxSegmentSize := by
  have hlen : (List.replicate 1008 (0 : UInt8)).length = 1008 := List.length_replicate
  obtain ⟨objects, bsp', h⟩ := encryptAndMac_isSome derBertlv_lawful aes128_lawful 0x86
    (List.replicate 1008 0) (rfl : newInstance.maxPayloadSize = 1008)
    (by rw [hlen]; change 1 + 1008 ≤ 256 ^ 16; norm_num)
  refine ⟨derBertlv_lawful, aes128_lawful, isInstance_newInstance, objects, bsp', h, ?_⟩
  rw [(encryptAndMac_within_iff derBertlv_lawful aes128_lawful rfl h).2, hlen]
  exact lt_irrefl _

end VirtualRsp.Smdp
