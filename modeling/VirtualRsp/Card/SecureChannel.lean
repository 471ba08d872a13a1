import VirtualRsp.Card.Buffers
import VirtualRsp.Smdp.BoundPackage

/-!
# Binding the secure channel

A `BF23` request is accepted for the transaction of the card and with a one-time key of 65 bytes.
Both are found by walks over the request that take every tag for one byte, and every length for one
byte. A walk steps over a field without a look at how much is left, so it can leave the request and
go on in the memory behind it; a tag of two bytes takes it out of step with the data objects, so it
can find what it looks for inside of a value; and a walk that finds no identifier gives the empty
one, which is what a card without a transaction has stored.

* `ContainsBinding`: what a request contains, as data objects.
* `TransactionIdInStep`, `OtpkInStep`: the walks step over whole data objects.
* `secureChannel_binding`: a request that is accepted contains what it is accepted for if the walks
  are in step, and what is stored of a request of the server.
-/

namespace VirtualRsp.Card

open Run

variable {env : Env} {s s' : EuiccState} {fields trailing : Bytes}

/-! ## The fields of a request -/

/-- The content of a `BF23` request, without what follows it in memory. -/
def bf23Fields (data : Bytes) : Bytes :=
  ((bf23Content ⟨data, data.length⟩).map Prod.fst).getD []

/-- The walk to the transaction identifier comes to one, over data objects with tags of one byte and
short lengths. -/
inductive TransactionIdInStep : Bytes → Prop
  | found {len : UInt8} {v : Bytes} (rest : Bytes) (hlen : v.length = len.toNat)
    (h16 : v.length ≤ 16) : TransactionIdInStep (0x80 :: len :: (v ++ rest))
  | next {t len : UInt8} {v rest : Bytes} (ht : t.toNat % 32 ≠ 31) (hlen : v.length = len.toNat)
    (hshort : len.toNat < 0x80) (h : TransactionIdInStep rest) :
    TransactionIdInStep (t :: len :: (v ++ rest))

/-- The walk to the server's one-time key comes to one, in the same way. -/
inductive OtpkInStep : Bytes → Prop
  | found {len : UInt8} {v : Bytes} (rest : Bytes) (hlen : v.length = len.toNat)
    (hshort : len.toNat < 0x80) : OtpkInStep (0x5F :: 0x49 :: len :: (v ++ rest))
  | next {t len : UInt8} {v rest : Bytes} (ht : t.toNat % 32 ≠ 31) (hlen : v.length = len.toNat)
    (hshort : len.toNat < 0x80) (h : OtpkInStep rest) : OtpkInStep (t :: len :: (v ++ rest))

/-! ## One round of a walk -/

/-- Where a walk is: at fields of the request, which other bytes follow in memory. -/
def walkAt (fields trailing : Bytes) : Bytes × ℕ := (fields ++ trailing, fields.length)

theorem walkAt_field (t len : UInt8) (v rest trailing : Bytes) :
    walkAt (t :: len :: (v ++ rest)) trailing =
      (t :: len :: (v ++ (rest ++ trailing)), 2 + v.length + rest.length) := by
  refine Prod.ext (by simp [walkAt]) ?_
  simp only [walkAt, List.length_cons, List.length_append]
  omega

theorem transactionIdBody_short {default : Bytes} (h : fields.length ≤ 2) :
    transactionIdBody default (walkAt fields trailing) = some (.done default) := by
  rw [walkAt, transactionIdBody, if_pos h]

theorem transactionIdBody_long {default rest : Bytes} {t len : UInt8} (hlong : 0x80 ≤ len.toNat) :
    transactionIdBody default (walkAt (t :: len :: rest) trailing) = some (.done default) := by
  rw [walkAt, transactionIdBody]
  split
  · rfl
  · simp only [List.cons_append, readAt_cons_zero, readAt_cons_succ, Option.bind_eq_bind,
      Option.bind_some]
    rw [if_neg (by omega), if_pos hlong]
    rfl

theorem transactionIdBody_field {default v rest : Bytes} {t len : UInt8}
    (hpos : 0 < v.length + rest.length) (hlen : v.length = len.toNat) (hshort : len.toNat < 0x80) :
    transactionIdBody default (walkAt (t :: len :: (v ++ rest)) trailing) =
      some (if t = 0x80 ∧ v.length ≤ 16 then .done v else .next (walkAt rest trailing)) := by
  have ht : t.toNat = 0x80 ↔ t = 0x80 := by
    rw [← UInt8.toNat_inj]
    rfl
  have hdrop : (t :: len :: (v ++ (rest ++ trailing))).drop 2 = v ++ (rest ++ trailing) := rfl
  rw [walkAt_field, transactionIdBody, if_neg (by omega)]
  simp only [readAt_cons_zero, readAt_cons_succ, Option.bind_eq_bind, Option.bind_some, ht, ← hlen]
  by_cases hfound : t = 0x80 ∧ v.length ≤ 16
  · rw [if_pos ⟨hfound.1, hfound.2, by omega⟩, if_pos hfound, hdrop, readN_append rfl]
    rfl
  · rw [if_neg fun h => hfound ⟨h.1, h.2.1⟩, if_neg (by omega), if_neg hfound,
      sub32_of_le (by omega), ← List.drop_drop, hdrop, List.drop_left, Nat.add_sub_cancel_left]
    rfl

/-- **What the walk finds** is a data object of the request, if the walk is in step. -/
theorem mem_objects_of_walk {value rest tid : Bytes} (hin : TransactionIdInStep value) {n : ℕ}
    (h : loop (transactionIdBody []) n (walkAt (value ++ rest) trailing) = some tid) :
    tid = [] ∨ (0x80, tid) ∈ Der.objects value := by
  induction hin generalizing n with
  | @found len v rest' hlen h16 =>
    cases n with
    | zero => cases h
    | succ n =>
      have hobjects := Der.objects_of_object
        (@Der.object_short 0x80 len v rest' (by decide) hlen (by omega))
      by_cases h2 : ((0x80 :: len :: (v ++ rest')) ++ rest).length ≤ 2
      · rw [loop_done (transactionIdBody_short h2)] at h
        exact .inl (Option.some.inj h).symm
      simp only [List.cons_append, List.append_assoc, List.length_cons, List.length_append] at h h2
      rw [loop_done (by
        rw [transactionIdBody_field (by rw [List.length_append]; omega) hlen (by omega),
          if_pos ⟨rfl, h16⟩])] at h
      cases h
      exact .inr (hobjects ▸ List.mem_cons_self)
  | @next t len v rest' ht hlen hshort hin ih =>
    cases n with
    | zero => cases h
    | succ n =>
      have hobjects := Der.objects_of_object (@Der.object_short t len v rest' ht hlen hshort)
      by_cases h2 : ((t :: len :: (v ++ rest')) ++ rest).length ≤ 2
      · rw [loop_done (transactionIdBody_short h2)] at h
        exact .inl (Option.some.inj h).symm
      simp only [List.cons_append, List.append_assoc, List.length_cons, List.length_append] at h h2
      have hbody := @transactionIdBody_field trailing [] v (rest' ++ rest) t len
        (by rw [List.length_append]; omega) hlen hshort
      rw [hobjects]
      by_cases hfound : t = 0x80 ∧ v.length ≤ 16
      · obtain ⟨rfl, h16⟩ := hfound
        rw [if_pos ⟨rfl, h16⟩] at hbody
        rw [loop_done hbody] at h
        cases h
        exact .inr List.mem_cons_self
      · rw [if_neg hfound] at hbody
        rw [loop_next hbody] at h
        exact (ih h).imp_right (List.mem_cons_of_mem _)

/-- A field with another tag is not the key. -/
theorem smdpOtpkAt_other {t len : UInt8} {rest : Bytes} {remaining : ℕ}
    (hne : ¬ (t = 0x5F ∧ len = 0x49)) :
    smdpOtpkAt (t :: len :: rest) remaining = some none := by
  have hne' : ¬ (t.toNat = 0x5F ∧ len.toNat = 0x49) := fun h =>
    hne ⟨UInt8.toNat_inj.1 h.1, UInt8.toNat_inj.1 h.2⟩
  simp only [smdpOtpkAt, readAt_cons_zero, readAt_cons_succ, Option.bind_eq_bind, Option.bind_some]
  rw [if_neg hne']
  rfl

/-- A field with the tag of the key that fits is the key. -/
theorem smdpOtpkAt_found {v rest : Bytes} {len : UInt8} {remaining : ℕ}
    (hlen : v.length = len.toNat) (hshort : len.toNat < 0x80) (hfits : 3 + v.length ≤ remaining) :
    smdpOtpkAt (0x5F :: 0x49 :: len :: (v ++ rest)) remaining = some (some v) := by
  have hdrop : (0x5F :: 0x49 :: len :: (v ++ rest)).drop 3 = v ++ rest := rfl
  simp only [smdpOtpkAt, readAt_cons_zero, readAt_cons_succ, Option.bind_eq_bind, Option.bind_some,
    hdrop, ← hlen]
  rw [if_pos ⟨rfl, rfl⟩, if_pos ⟨by omega, hfits⟩, readN_append rfl]
  rfl

theorem smdpOtpkBody_short (h : fields.length ≤ 3) :
    smdpOtpkBody (walkAt fields trailing) = some (.done none) := by
  rw [walkAt, smdpOtpkBody, if_pos h]

theorem smdpOtpkBody_done {smdpOtpk : Bytes} (h3 : 3 < fields.length)
    (h : smdpOtpkAt (fields ++ trailing) fields.length = some (some smdpOtpk)) :
    smdpOtpkBody (walkAt fields trailing) = some (.done (some smdpOtpk)) := by
  rw [walkAt, smdpOtpkBody, if_neg (by omega)]
  simp only [h, Option.bind_eq_bind, Option.bind_some]
  rfl

theorem smdpOtpkBody_field {t len : UInt8} {v rest : Bytes} (hpos : 1 < v.length + rest.length)
    (hlen : v.length = len.toNat) (hshort : len.toNat < 0x80)
    (hno : smdpOtpkAt ((t :: len :: (v ++ rest)) ++ trailing) (t :: len :: (v ++ rest)).length =
      some none) :
    smdpOtpkBody (walkAt (t :: len :: (v ++ rest)) trailing) =
      some (.next (walkAt rest trailing)) := by
  have hdrop : (t :: len :: (v ++ (rest ++ trailing))).drop 2 = v ++ (rest ++ trailing) := rfl
  obtain ⟨hmem, hremaining⟩ := Prod.mk.inj (walkAt_field t len v rest trailing)
  rw [hmem, hremaining] at hno
  rw [walkAt_field, smdpOtpkBody, if_neg (by omega)]
  simp only [hno, Option.bind_eq_bind, Option.bind_some, readAt_cons_zero, readAt_cons_succ, ← hlen]
  rw [if_neg (by omega), sub32_of_le (by omega), ← List.drop_drop, hdrop, List.drop_left,
    Nat.add_sub_cancel_left]
  rfl

/-- **What the walk takes for the key** is a data object of the request, if the walk is in step. -/
theorem mem_objects_of_otpk_walk {value rest smdpOtpk : Bytes} (hin : OtpkInStep value) {n : ℕ}
    (h : loop smdpOtpkBody n (walkAt (value ++ rest) trailing) = some (some smdpOtpk)) :
    (0x5F49, smdpOtpk) ∈ Der.objects value := by
  induction hin generalizing n with
  | @found len v rest' hlen hshort =>
    cases n with
    | zero => cases h
    | succ n =>
      have hobjects := Der.objects_of_object
        (@Der.object_two 0x5F 0x49 len v rest' (by decide) hlen hshort)
      by_cases h3 : ((0x5F :: 0x49 :: len :: (v ++ rest')) ++ rest).length ≤ 3
      · rw [loop_done (smdpOtpkBody_short h3)] at h
        cases h
      have hat := @smdpOtpkAt_found v (rest' ++ rest ++ trailing) len
        ((0x5F :: 0x49 :: len :: (v ++ rest')) ++ rest).length hlen hshort
        (by simp only [List.cons_append, List.length_cons, List.length_append]; omega)
      rw [loop_done (smdpOtpkBody_done (by omega) (by simpa using hat))] at h
      cases h
      exact hobjects ▸ List.mem_cons_self
  | @next t len v rest' ht hlen hshort hin ih =>
    cases n with
    | zero => cases h
    | succ n =>
      have hobjects := Der.objects_of_object (@Der.object_short t len v rest' ht hlen hshort)
      by_cases h3 : ((t :: len :: (v ++ rest')) ++ rest).length ≤ 3
      · rw [loop_done (smdpOtpkBody_short h3)] at h
        cases h
      have hne : ¬ (t = 0x5F ∧ len = 0x49) := by
        rintro ⟨rfl, -⟩
        exact ht rfl
      simp only [List.cons_append, List.append_assoc, List.length_cons, List.length_append] at h h3
      rw [loop_next (smdpOtpkBody_field (by rw [List.length_append]; omega) hlen hshort
        (smdpOtpkAt_other hne))] at h
      rw [hobjects]
      exact List.mem_cons_of_mem _ (ih h)

/-! ## Requests -/

/-- The walks start at the content of the request. -/
theorem bf23Content_eq (env : Env) (data : Bytes) :
    bf23Content (.ofBytes env data) =
      some (bf23Fields data ++ env.trailing, (bf23Fields data).length) := by
  by_cases h4 : data.length ≤ 4
  · have hplain : bf23Content ⟨data, data.length⟩ = some (data, data.length) := if_pos h4
    rw [bf23Fields, hplain]
    exact if_pos h4
  have hlong : 4 < data.length := not_le.1 h4
  obtain ⟨a, b, c, d, e, rest, rfl⟩ : ∃ a b c d e rest, data = a :: b :: c :: d :: e :: rest := by
    match data, hlong with
    | a :: b :: c :: d :: e :: rest, _ => exact ⟨a, b, c, d, e, rest, rfl⟩
  rw [bf23Fields, bf23Content, bf23Content, Command.ofBytes]
  rw [if_neg (show ¬ (a :: b :: c :: d :: e :: rest).length ≤ 4 from h4)]
  simp only [List.cons_append, readAt_cons_zero, readAt_cons_succ, Option.bind_eq_bind,
    Option.bind_some]
  by_cases ha : a.toNat ≠ 0xBF
  · simp only [if_pos ha]
    rfl
  by_cases hb : b.toNat ≠ 0x23
  · simp only [if_neg ha, if_pos hb]
    rfl
  simp only [if_neg ha, if_neg hb, skipLength, List.length_cons, List.drop_succ_cons,
    List.drop_zero]
  by_cases hshort : c.toNat < 0x80
  · simp only [if_pos hshort, sub32_of_le (show 1 ≤ rest.length + 1 + 1 + 1 + 1 + 1 - 2 by omega)]
    rfl
  by_cases h81 : c.toNat = 0x81
  · simp only [if_neg hshort, if_pos h81,
      sub32_of_le (show 2 ≤ rest.length + 1 + 1 + 1 + 1 + 1 - 2 by omega)]
    rfl
  by_cases h82 : c.toNat = 0x82
  · simp only [if_neg hshort, if_neg h81, if_pos h82,
      sub32_of_le (show 3 ≤ rest.length + 1 + 1 + 1 + 1 + 1 - 2 by omega)]
    rfl
  · simp only [if_neg hshort, if_neg h81, if_neg h82]
    rfl

/-- The content of a request of up to 65535 bytes. -/
theorem bf23Fields_tlv {value : Bytes} (h3 : 3 ≤ value.length) (h : value.length < 2 ^ 16) :
    bf23Fields (Der.tlv 0xBF23 value) = value := by
  have htag : Der.tagBytes 0xBF23 = [0xBF, 0x23] := by decide
  obtain ⟨b, hb, hskip⟩ := skipLength_lenBytes h value
    ((Der.tlv 0xBF23 value).length - 2)
  have hlen := Der.length_lenBytes_pos value.length
  have hlong : ¬ (Der.tlv 0xBF23 value).length ≤ 4 := by
    rw [Der.length_tlv, htag]
    simp only [List.length_cons, List.length_nil]
    omega
  have hmem : Der.tlv 0xBF23 value = 0xBF :: 0x23 :: (Der.lenBytes value.length ++ value) := by
    rw [Der.tlv, htag]
    rfl
  rw [bf23Fields, bf23Content, if_neg hlong]
  dsimp only
  rw [hmem] at hskip ⊢
  simp only [readAt_cons_zero, readAt_cons_succ, Option.bind_eq_bind, Option.bind_some, hb,
    List.drop_succ_cons, List.drop_zero] at hskip ⊢
  rw [if_neg (by decide), if_neg (by decide), hskip]
  rfl

/-- A request as the server builds it: any transaction identifier of 1 to 16 bytes, any host of up
to 100 bytes, a one-time key of 65 bytes and a signature of 64. -/
structure ServerRequest (iscr : Smdp.InitialiseSecureChannelRequest) : Prop where
  generated : ∃ lib transactionId hostId euiccOtpk ecdsaSign,
    Smdp.genInitialiseSecureChannel lib transactionId hostId iscr.smdpOtpk euiccOtpk ecdsaSign =
      some iscr
  transactionId_pos : 1 ≤ iscr.transactionId.length
  transactionId_le : iscr.transactionId.length ≤ 16
  hostId : iscr.controlRefTemplate.hostId.length ≤ 100
  smdpOtpk : iscr.smdpOtpk.length = 65
  smdpSign : iscr.smdpSign.length = 64

/-- The fields of the request of a server. -/
theorem ServerRequest.fields_eq {iscr : Smdp.InitialiseSecureChannelRequest}
    (h : ServerRequest iscr) :
    ∃ crt sign value : Bytes, crt.length < 0x80 ∧ value.length < 2 ^ 16 ∧
      Smdp.encodeIscr iscr = Der.tlv 0xBF23 value ∧
      bf23Fields (Smdp.encodeIscr iscr) = value ∧ value = 0x82 :: 1 :: ([1] ++ 0x80 ::
        UInt8.ofNat iscr.transactionId.length :: (iscr.transactionId ++ 0xA6 ::
          UInt8.ofNat crt.length :: (crt ++ 0x5F :: 0x49 :: 65 :: (iscr.smdpOtpk ++ sign)))) := by
  obtain ⟨lib, tid, host, otpk, sign, hgen⟩ := h.generated
  obtain ⟨-, hcrt, hop⟩ := Smdp.BoundProfilePackage.genInitialiseSecureChannel_eq hgen
  have htid := h.transactionId_le
  have hhost : host.length ≤ 100 := by
    have := h.hostId
    rwa [hcrt] at this
  obtain ⟨crt, hcrtEq⟩ : ∃ crt, crt = Der.tlv 0x80 [0x88] ++ Der.tlv 0x81 [16] ++
      Der.tlv 0x84 host := ⟨_, rfl⟩
  have hcrtLen : crt.length = 8 + host.length := by
    rw [hcrtEq, Der.tlv_short (by decide) (by decide), Der.tlv_short (by decide) (by decide),
      Der.tlv_short (by decide) (by omega)]
    simp only [List.length_append, List.length_cons, List.length_nil]
    omega
  have hvalue : Smdp.encodeIscr iscr = Der.tlv 0xBF23 (0x82 :: 1 :: ([1] ++ 0x80 ::
        UInt8.ofNat iscr.transactionId.length :: (iscr.transactionId ++ 0xA6 ::
          UInt8.ofNat crt.length :: (crt ++ 0x5F :: 0x49 :: 65 ::
            (iscr.smdpOtpk ++ Der.tlv 0x5F37 iscr.smdpSign))))) := by
    have hotpk : Der.tlv 0x5F49 iscr.smdpOtpk = 0x5F :: 0x49 :: 65 :: iscr.smdpOtpk := by
      rw [Der.tlv, h.smdpOtpk]
      rfl
    rw [Smdp.encodeIscr, hcrt, hop, hotpk]
    dsimp only
    rw [← hcrtEq, Der.tlv_short (t := 0x82) (by decide) (by decide),
      Der.tlv_short (t := 0x80) (by decide) (by omega),
      Der.tlv_short (t := 0xA6) (v := crt) (by decide) (by omega)]
    simp only [List.cons_append, List.append_assoc, List.nil_append]
    rfl
  have hsign := Der.length_tlv_le 0x5F37 (v := iscr.smdpSign) (by rw [h.smdpSign]; decide)
  rw [h.smdpSign] at hsign
  refine ⟨crt, Der.tlv 0x5F37 iscr.smdpSign, _, by omega, ?_, hvalue, ?_, rfl⟩
  · simp only [List.length_cons, List.length_append, List.length_nil, h.smdpOtpk]
    omega
  · rw [hvalue]
    refine bf23Fields_tlv ?_ ?_
    · simp only [List.length_cons, List.length_append]
      omega
    · simp only [List.length_cons, List.length_append, List.length_nil, h.smdpOtpk]
      omega

/-- **The walks over the request of a server** find its identifier and its key. -/
theorem ServerRequest.walks {iscr : Smdp.InitialiseSecureChannelRequest} (h : ServerRequest iscr)
    (trailing : Bytes) :
    scan (transactionIdBody []) (bf23Fields (Smdp.encodeIscr iscr) ++ trailing)
        (bf23Fields (Smdp.encodeIscr iscr)).length = some iscr.transactionId ∧
      scan smdpOtpkBody (bf23Fields (Smdp.encodeIscr iscr) ++ trailing)
        (bf23Fields (Smdp.encodeIscr iscr)).length = some (some iscr.smdpOtpk) := by
  obtain ⟨crt, sign, value, hcrt, -, -, hvalue, hfields⟩ := h.fields_eq
  rw [← hvalue] at hfields
  have htid := h.transactionId_le
  have hotpk := h.smdpOtpk
  have htidLen : iscr.transactionId.length = (UInt8.ofNat iscr.transactionId.length).toNat :=
    (UInt8.toNat_ofNat_of_lt (by simp only [UInt8.size]; omega)).symm
  have hcrtLen : crt.length = (UInt8.ofNat crt.length).toNat :=
    (UInt8.toNat_ofNat_of_lt (by simp only [UInt8.size]; omega)).symm
  obtain ⟨n, hn⟩ : ∃ n, (bf23Fields (Smdp.encodeIscr iscr) ++ trailing).length + 1 = n + 4 := by
    refine ⟨(bf23Fields (Smdp.encodeIscr iscr) ++ trailing).length - 3, ?_⟩
    rw [hfields]
    simp only [List.length_append, List.length_cons]
    omega
  rw [scan, scan, hn]
  change loop _ _ (walkAt _ _) = _ ∧ loop _ _ (walkAt _ _) = _
  rw [hfields]
  constructor
  · rw [loop_next (by rw [transactionIdBody_field (by simp) rfl (by decide), if_neg (by decide)])]
    rw [loop_done
      (by rw [transactionIdBody_field (by simp) htidLen (by omega), if_pos ⟨rfl, htid⟩])]
  · have hnot : ∀ {t len : UInt8} {rest : Bytes} {remaining : ℕ}, t ≠ 0x5F →
        smdpOtpkAt (t :: len :: rest) remaining = some none :=
      fun ht => smdpOtpkAt_other fun h => ht h.1
    rw [loop_next (smdpOtpkBody_field (by simp) rfl (by decide) (hnot (by decide)))]
    rw [loop_next (smdpOtpkBody_field (by simp; omega) htidLen (by omega) (hnot (by decide)))]
    rw [loop_next (smdpOtpkBody_field (by simp; omega) hcrtLen (by omega) (hnot (by decide)))]
    rw [loop_done (smdpOtpkBody_done (by simp; omega) ?_)]
    simp only [List.cons_append, List.append_assoc]
    exact smdpOtpkAt_found hotpk (by decide) (by simp; omega)

/-! ## What is accepted -/

/-- The request contains the transaction identifier and a one-time key of 65 bytes, as data objects
in its value. -/
def ContainsBinding (transactionId data : Bytes) : Prop :=
  ∃ value rest, Der.object data = some (0xBF23, value, rest) ∧
    (0x80, transactionId) ∈ Der.objects value ∧
    ∃ smdpOtpk, smdpOtpk.length = 65 ∧ (0x5F49, smdpOtpk) ∈ Der.objects value

/-- The walks start at the value of the request and are in step with its data objects, and an empty
identifier is one of the request. -/
def Binds (transactionId data : Bytes) : Prop :=
  ∃ value rest, Der.object data = some (0xBF23, value, rest) ∧ bf23Fields data = value ++ rest ∧
    (transactionId = [] → (0x80, []) ∈ Der.objects value) ∧
    (transactionId ≠ [] → TransactionIdInStep value) ∧ OtpkInStep value

/-- A request that is answered with data is accepted. -/
theorem initialiseSecureChannel_accepted {cmd : Command} {r : Bytes}
    (h : initialiseSecureChannel env s cmd = some (s', some r)) :
    ∃ smdpOtpk, acceptedOtpk s cmd = some smdpOtpk := by
  obtain ⟨-, -, hr⟩ | ⟨smdpOtpk, hacc, -⟩ := initialiseSecureChannel_state h
  · cases hr
  · exact ⟨smdpOtpk, hacc⟩

/-- What is accepted is found by the two walks. -/
theorem acceptedOtpk_eq_some {data smdpOtpk : Bytes} :
    acceptedOtpk s (.ofBytes env data) = some smdpOtpk ↔
      scan (transactionIdBody []) (bf23Fields data ++ env.trailing) (bf23Fields data).length =
          some s.transactionId ∧
        scan smdpOtpkBody (bf23Fields data ++ env.trailing) (bf23Fields data).length =
          some (some smdpOtpk) ∧ smdpOtpk.length = 65 := by
  rw [acceptedOtpk, bf23Content_eq]
  simp only [Option.bind_eq_bind, Option.bind_some]
  cases scan (transactionIdBody []) (bf23Fields data ++ env.trailing) (bf23Fields data).length with
  | none => simp
  | some tid =>
    simp only [Option.bind_some, Option.some.injEq]
    by_cases htid : tid = s.transactionId
    · rw [if_neg (not_not.2 htid)]
      cases scan smdpOtpkBody (bf23Fields data ++ env.trailing) (bf23Fields data).length with
      | none => simp
      | some found =>
        cases found with
        | none => simp
        | some v =>
          simp only [Option.bind_some, Option.filter_some, htid, true_and, Option.some.injEq]
          by_cases hv : v.length = 65
          · simp only [hv, decide_true, if_true, Option.some.injEq]
            constructor
            · rintro rfl
              exact ⟨rfl, hv⟩
            · exact And.left
          · simp only [hv, decide_false, Bool.false_eq_true, if_false, reduceCtorEq, false_iff]
            rintro ⟨rfl, h65⟩
            exact hv h65
    · rw [if_pos htid]
      simp [htid]

/-- **A request that is accepted** contains what it is accepted for, if the walks are in step. -/
theorem containsBinding_of_binds {data : Bytes} {r : Bytes} (hb : Binds s.transactionId data)
    (h : initialiseSecureChannel env s (.ofBytes env data) = some (s', some r)) :
    ContainsBinding s.transactionId data := by
  obtain ⟨value, rest, hobject, hfields, hempty, htidIn, hotpkIn⟩ := hb
  obtain ⟨smdpOtpk, hacc⟩ := initialiseSecureChannel_accepted h
  obtain ⟨htid, hotpk, hlen⟩ := acceptedOtpk_eq_some.1 hacc
  rw [hfields] at htid hotpk
  refine ⟨value, rest, hobject, ?_, smdpOtpk, hlen, mem_objects_of_otpk_walk hotpkIn hotpk⟩
  by_cases hnil : s.transactionId = []
  · exact hnil ▸ hempty hnil
  · exact (mem_objects_of_walk (htidIn hnil) htid).resolve_left hnil

/-- The walks over the request of a server are in step. -/
theorem ServerRequest.binds {iscr : Smdp.InitialiseSecureChannelRequest} (h : ServerRequest iscr) :
    Binds iscr.transactionId (Smdp.encodeIscr iscr) := by
  obtain ⟨crt, sign, value, hcrt, hlt, hencode, hfields, hvalue⟩ := h.fields_eq
  have htid := h.transactionId_le
  have hne : iscr.transactionId ≠ [] := List.ne_nil_of_length_pos h.transactionId_pos
  have htidLen : iscr.transactionId.length = (UInt8.ofNat iscr.transactionId.length).toNat :=
    (UInt8.toNat_ofNat_of_lt (by simp only [UInt8.size]; omega)).symm
  have hcrtLen : crt.length = (UInt8.ofNat crt.length).toNat :=
    (UInt8.toNat_ofNat_of_lt (by simp only [UInt8.size]; omega)).symm
  have hobject := Der.object_tlv (show Der.IsTag 0xBF23 by decide)
    (hlt.trans (by norm_num)) []
  rw [List.append_nil] at hobject
  refine ⟨value, [], hencode ▸ hobject, by rw [hfields, List.append_nil],
    fun hnil => absurd hnil hne, fun _ => ?_, ?_⟩
  · rw [hvalue]
    exact .next (by decide) rfl (by decide) (.found _ htidLen htid)
  · rw [hvalue]
    refine .next (by decide) rfl (by decide) ?_
    refine .next (by decide) htidLen (by omega) ?_
    refine .next (by decide) hcrtLen (by omega) ?_
    exact .found _ h.smdpOtpk (by decide)

/-- **Binding the secure channel.** In every reachable state: a request that is accepted contains
the stored transaction identifier and a one-time key of 65 bytes, as data objects, if the walks are
in step with it and an empty identifier is one of the request. That is so for every request of the
server; of one for the stored transaction, what is stored is its one-time key, while one for another
transaction changes nothing. -/
theorem secureChannel_binding {daemon : Daemon} (hr : Reachable daemonStep .start daemon)
    (env : Env) (b : GrowBuf) :
    (∀ data s' r, initialiseSecureChannel env { daemon.globalState with segmentBuffer := b }
        (.ofBytes env data) = some (s', some r) →
      Binds daemon.globalState.transactionId data →
        ContainsBinding daemon.globalState.transactionId data) ∧
      ∀ iscr, ServerRequest iscr → Binds iscr.transactionId (Smdp.encodeIscr iscr) ∧ ∃ s' r,
        initialiseSecureChannel env { daemon.globalState with segmentBuffer := b }
            (.ofBytes env (Smdp.encodeIscr iscr)) = some (s', r) ∧
          (iscr.transactionId = daemon.globalState.transactionId →
            s'.smdpOtpk = some iscr.smdpOtpk) ∧
          (iscr.transactionId ≠ daemon.globalState.transactionId →
            s' = { daemon.globalState with segmentBuffer := b } ∧ r = none) := by
  have hbounds := bounds_of_reachable hr
  have hs : EuiccState.Bounds { daemon.globalState with segmentBuffer := b } :=
    ⟨hbounds.transactionId, hbounds.serverChallenge⟩
  refine ⟨fun data s' r h hb => containsBinding_of_binds
    (s := { daemon.globalState with segmentBuffer := b }) hb h, ?_⟩
  intro iscr hiscr
  refine ⟨hiscr.binds, ?_⟩
  obtain ⟨htid, hotpk⟩ := hiscr.walks env.trailing
  have hread : Prepared { daemon.globalState with segmentBuffer := b }
      (.ofBytes env (Smdp.encodeIscr iscr)) .initialiseSecureChannel := by
    simp only [Prepared, readBf23, bf23Content_eq, Option.bind_eq_bind, Option.bind_some, htid,
      hotpk]
    split
    · rfl
    · rfl
  have hsome : (initialiseSecureChannel env { daemon.globalState with segmentBuffer := b }
      (.ofBytes env (Smdp.encodeIscr iscr))).isSome := (initialiseSecureChannel_isSome hs).2 hread
  obtain ⟨⟨s', r⟩, h⟩ := Option.isSome_iff_exists.1 hsome
  refine ⟨s', r, h, fun heq => ?_, fun hne => ?_⟩
  · have hacc : acceptedOtpk { daemon.globalState with segmentBuffer := b }
        (.ofBytes env (Smdp.encodeIscr iscr)) = some iscr.smdpOtpk :=
      acceptedOtpk_eq_some.2 ⟨htid.trans (congrArg some heq), hotpk, hiscr.smdpOtpk⟩
    obtain ⟨hnone, -⟩ | ⟨pk, hpk, ⟨-, rfl, -⟩ | ⟨_, _, -, -, rfl⟩⟩ :=
      initialiseSecureChannel_state h
    · cases hacc.symm.trans hnone
    · exact hpk.symm.trans hacc
    · exact hpk.symm.trans hacc
  · obtain ⟨-, hs', hr'⟩ | ⟨pk, hpk, -⟩ := initialiseSecureChannel_state h
    · exact ⟨hs', hr'⟩
    · have := (acceptedOtpk_eq_some.1 hpk).1
      exact absurd (Option.some.inj (htid.symm.trans this)) hne

/-! ## Requests without an identifier -/

/-- A download is prepared for a transaction, if there is one. -/
def samplePrepared (bf21 : Bytes) : List Event :=
  [.accept, .request sampleEnv ⟨.connect, []⟩,
    .request sampleEnv ⟨.logicChannelOpen, expectedAid⟩,
    .request sampleEnv ⟨.transmit, [0x80, 0xE2, 0x91, 0x00, UInt8.ofNat bf21.length] ++ bf21⟩]

/-- The object with the one-time key. -/
def sampleOtpkObject : Bytes := [0x5F, 0x49, 0x41] ++ sampleSmdpOtpk

/-- A `BF23` request of a one-time key and a signature only. -/
def sampleBf23 : Bytes :=
  [0xBF, 0x23, 0x4B] ++ sampleOtpkObject ++ [0x5F, 0x37, 0x04, 0x01, 0x02, 0x03, 0x04]

/-- A `BF23` request of a signature and a one-time key. The signature has the octets of an
identifier where the walks come to after the second byte of its tag was taken for a length. -/
def sampleStray : Bytes :=
  [0xBF, 0x23, 0x81, 0x87, 0x5F, 0x37, 0x40] ++ List.replicate 54 0xFF ++
    [0x80, 0x01, 0x05, 0x04, 0x05, 0x00, 0x00, 0x00, 0x00, 0x00] ++ sampleOtpkObject

/-- A `BF23` request of an identifier and a one-time key. -/
def sampleBound : Bytes := [0xBF, 0x23, 0x47, 0x80, 0x01, 0x05] ++ sampleOtpkObject

/-- The card can come to accept a request for a transaction. -/
def Accepts (transactionId bf23 : Bytes) : Prop :=
  ∃ daemon s' r, Reachable daemonStep .start daemon ∧
    daemon.globalState.transactionId = transactionId ∧
      initialiseSecureChannel sampleEnv { daemon.globalState with segmentBuffer := .null }
        (.ofBytes sampleEnv bf23) = some (s', some r)

/-- What a run that prepares a download and a request come to. -/
def runAccepts (bf21 bf23 : Bytes) : Option (Bytes × Option Bool) :=
  (exec daemonStep .start (samplePrepared bf21)).map fun d =>
    (d.globalState.transactionId, (initialiseSecureChannel sampleEnv
      { d.globalState with segmentBuffer := .null } (.ofBytes sampleEnv bf23)).map
        fun r => r.2.isSome)

theorem accepts_of_run {bf21 bf23 transactionId : Bytes}
    (hrun : runAccepts bf21 bf23 = some (transactionId, some true)) :
    Accepts transactionId bf23 := by
  obtain ⟨daemon, hexec, h⟩ := Option.map_eq_some_iff.1 hrun
  obtain ⟨htid, h⟩ := Prod.mk.inj h
  obtain ⟨⟨s', r⟩, hi, hsome⟩ := Option.map_eq_some_iff.1 h
  obtain ⟨r, rfl⟩ := Option.isSome_iff_exists.1 hsome
  exact ⟨daemon, s', r, Reachable.of_exec .init hexec, htid, hi⟩

/-- The three requests are accepted. -/
theorem samples_accepted : runAccepts [0xBF, 0x21, 0x00] sampleBf23 = some ([], some true) ∧
    runAccepts [0xBF, 0x21, 0x05, 0x30, 0x03, 0x80, 0x01, 0x05] sampleStray =
      some ([0x05], some true) ∧
    runAccepts [0xBF, 0x21, 0x05, 0x30, 0x03, 0x80, 0x01, 0x05] sampleBound =
      some ([0x05], some true) := by
  decide +kernel

theorem sampleBound_binds : Binds [0x05] sampleBound := by
  have hvalue : Der.object sampleBound =
      some (0xBF23, 0x80 :: 1 :: ([0x05] ++ (sampleOtpkObject ++ [])), []) := rfl
  refine ⟨_, [], hvalue, rfl, (fun h => nomatch h), fun _ => .found _ rfl (by decide), ?_⟩
  refine .next (by decide) rfl (by decide) ?_
  exact @OtpkInStep.found 65 sampleSmdpOtpk [] rfl (by decide)

theorem secureChannel_binding_sample : ContainsBinding [0x05] sampleBound := by
  obtain ⟨daemon, s', r, hr, htid, hi⟩ := accepts_of_run samples_accepted.2.2
  have h := (secureChannel_binding hr sampleEnv .null).1 sampleBound s' r hi
  rw [htid] at h
  exact h sampleBound_binds

/-- **A request without a transaction identifier is accepted** by a card that has stored none, and
one is accepted that has the octets of the stored identifier in its signature only. -/
theorem secureChannel_unbound :
    (Accepts [] sampleBf23 ∧ ¬ ContainsBinding [] sampleBf23) ∧
      Accepts [0x05] sampleStray ∧ ¬ ContainsBinding [0x05] sampleStray := by
  have hobjects : ∀ data ∈ [sampleBf23, sampleStray], ∀ o ∈ Der.object data,
      ∀ x ∈ Der.objects o.2.1, x.1 ≠ 0x80 := by
    decide +kernel
  have hnot : ∀ data ∈ [sampleBf23, sampleStray], ∀ tid, ¬ ContainsBinding tid data := by
    rintro data hdata tid ⟨value, rest, hobject, hmem, -⟩
    exact hobjects data hdata _ hobject _ hmem rfl
  exact ⟨⟨accepts_of_run samples_accepted.1, hnot _ (by simp) _⟩,
    accepts_of_run samples_accepted.2.1, hnot _ (by simp) _⟩

end VirtualRsp.Card
