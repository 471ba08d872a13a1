import VirtualRsp.Card.Invariant
import VirtualRsp.Lpa.ManageProfiles

/-!
# Managing the profiles of the card

The LPA lists the profiles of the card and asks it to enable, disable or delete one of them by an
identifier from the list. The card should act on that profile. It does so for a single kind of
request, the deletion of the first profile by its AID (`management_iff`): requests to enable or
disable a profile wrap its identifier in a data object that the card does not look into, the
ICCID that the LPA lists and sends back is another one than the card compares with, and all
profiles have the same AID.

* `parseTarget_tlv`: what the card reads from a request;
* `getProfilesInfo_card`: what the LPA lists;
* `manage_returns`: the result code of a request.
-/

namespace VirtualRsp.Lpa

open Card Program

/-! ## What the card reads from a request -/

theorem innerTag_eq (ptr : Bytes) :
    innerTag ptr = (Der.readTag ptr).map fun r => (r.1, ptr.length - r.2.length) := by
  match ptr with
  | [] => rfl
  | [b] =>
    simp only [innerTag, Der.readTag, readAt_cons_zero, Option.bind_eq_bind, Option.bind_some]
    split <;> rfl
  | b :: c :: r =>
    simp only [innerTag, Der.readTag, readAt_cons_zero, readAt_cons_succ, Option.bind_eq_bind,
      Option.bind_some]
    split
    · simp only [Option.map_some, List.length_cons]
      rw [show r.length + 1 + 1 - r.length = 2 by omega]
      rfl
    · simp only [Option.map_some, List.length_cons]
      rw [show r.length + 1 + 1 - (r.length + 1) = 1 by omega]
      rfl

theorem innerTag_tagBytes {tag : ℕ} (ht : Der.IsTag tag) (rest : Bytes) :
    innerTag (Der.tagBytes tag ++ rest) = some (tag, (Der.tagBytes tag).length) := by
  rw [innerTag_eq, Der.readTag_tagBytes ht, Option.map_some, List.length_append,
    Nat.add_sub_cancel]

theorem innerLen_lenBytes {n : ℕ} (hn : n < 2 ^ 16) (rest : Bytes) {remaining : ℕ}
    (hr : (Der.lenBytes n).length ≤ remaining) :
    innerLen (Der.lenBytes n ++ rest) remaining = some (n, (Der.lenBytes n).length) := by
  rw [Der.lenBytes] at hr ⊢
  split at hr
  · rename_i hshort
    have hb : (UInt8.ofNat n).toNat = n :=
      UInt8.toNat_ofNat_of_lt (by simp only [UInt8.size]; omega)
    rw [if_pos hshort]
    simp only [innerLen, List.singleton_append, readAt_cons_zero, Option.bind_eq_bind,
      Option.bind_some, hb, List.length_singleton]
    rw [if_neg (by omega), if_neg (by omega)]
    rfl
  · rename_i hlong
    have hk := Der.byteLen_le (n := n) (k := 2) (by omega) (by omega)
    have hb : (UInt8.ofNat (128 + Der.byteLen n)).toNat = 128 + Der.byteLen n :=
      UInt8.toNat_ofNat_of_lt (by simp only [UInt8.size]; omega)
    have hof := Der.ofBe_beBytes (Der.byteLen n) n 0
    rw [Nat.zero_mul, Nat.zero_add, Nat.mod_eq_of_lt (Der.lt_pow_byteLen n)] at hof
    rw [if_neg hlong]
    simp only [innerLen, List.cons_append, readAt_cons_zero, Option.bind_eq_bind,
      Option.bind_some, hb, List.length_cons, Der.length_beBytes] at hr ⊢
    obtain hk | hk : Der.byteLen n = 1 ∨ Der.byteLen n = 2 := by
      have : 0 < Der.byteLen n := Nat.succ_pos _
      omega
    · rw [hk] at hof hr ⊢
      rw [if_pos (by omega)]
      simpa [Der.beBytes, Der.ofBe] using hof
    · rw [hk] at hof hr ⊢
      rw [if_neg (by omega), if_pos (by omega)]
      simpa [Der.beBytes, Der.ofBe] using hof

/-- A field acts by its value alone. -/
theorem targetField_append (tag : ℕ) (value rest : Bytes) (target : Target) :
    targetField tag value.length (value ++ rest) target =
      targetField tag value.length value target := by
  have h1 : readN (value ++ rest) value.length = some value := readN_append rfl
  have h2 : readN value value.length = some value := by simp [readN]
  rw [targetField, targetField, h1, h2]

/-- **One round** over an encoded field. -/
theorem parseTargetBody_tlv {tag : ℕ} (ht : Der.IsTag tag) {value : Bytes}
    (hv : value.length < 2 ^ 16) (rest : Bytes) {remaining : ℕ} (target : Target)
    (hr : (Der.tlv tag value).length ≤ remaining) :
    parseTargetBody ((Der.tlv tag value ++ rest, remaining), target) =
      (targetField tag value.length value target).map fun target' =>
        .next ((rest, remaining - (Der.tlv tag value).length), target') := by
  have htag := Der.length_tagBytes_pos tag
  have hlen := Der.length_lenBytes_pos value.length
  have htlv := Der.length_tlv tag value
  rw [htlv] at hr
  have happ : Der.tlv tag value ++ rest =
      Der.tagBytes tag ++ (Der.lenBytes value.length ++ (value ++ rest)) := by
    simp only [Der.tlv, List.append_assoc]
  rw [parseTargetBody, if_neg (by omega), happ]
  simp only [innerTag_tagBytes ht, Option.bind_eq_bind, Option.bind_some, List.drop_left]
  rw [if_neg (by omega), innerLen_lenBytes hv _ (by omega)]
  simp only [Option.bind_some, List.drop_left]
  rw [if_neg (by omega), targetField_append, htlv]
  cases targetField tag value.length value target with
  | none => rfl
  | some target' =>
    have : remaining - (Der.tagBytes tag).length - (Der.lenBytes value.length).length -
        value.length = remaining - ((Der.tagBytes tag).length +
          (Der.lenBytes value.length).length + value.length) := by omega
    simp only [Option.bind_some, Option.map_some, pure, this]

/-- What the fields of a request set, one after the other. -/
def targetOf (objs : List (ℕ × Bytes)) : Option Target :=
  objs.foldlM (fun target x => targetField x.1 x.2.length x.2 target) .init

theorem loop_tlvs {objs : List (ℕ × Bytes)} (ht : ∀ t ∈ objs.map Prod.fst, Der.IsTag t)
    (hlen : (Der.tlvs objs).length < 2 ^ 16) (rest : Bytes) {fuel : ℕ} (hf : objs.length < fuel)
    (target : Target) :
    loop parseTargetBody fuel ((Der.tlvs objs ++ rest, (Der.tlvs objs).length), target) =
      objs.foldlM (fun target x => targetField x.1 x.2.length x.2 target) target := by
  induction objs generalizing fuel target with
  | nil =>
    obtain ⟨fuel, rfl⟩ := Nat.exists_eq_add_one_of_ne_zero (Nat.ne_zero_of_lt hf)
    rfl
  | cons x objs ih =>
    obtain ⟨fuel, rfl⟩ := Nat.exists_eq_add_one_of_ne_zero (by omega : fuel ≠ 0)
    have hx : x.2.length ≤ (Der.tlvs (x :: objs)).length :=
      Der.length_le_tlvs List.mem_cons_self
    rw [List.map_cons, List.forall_mem_cons] at ht
    rw [Der.tlvs_cons, List.length_append] at hlen hx ⊢
    have hstep := parseTargetBody_tlv ht.1 (by omega : x.2.length < 2 ^ 16)
      (Der.tlvs objs ++ rest) target
      (by omega : _ ≤ (Der.tlv x.1 x.2).length + (Der.tlvs objs).length)
    rw [List.append_assoc, List.foldlM_cons]
    cases hf' : targetField x.1 x.2.length x.2 target with
    | none =>
      rw [hf'] at hstep
      exact loop_fault hstep fuel
    | some target' =>
      rw [hf', Option.map_some, Nat.add_sub_cancel_left] at hstep
      rw [loop_next hstep]
      exact ih ht.2 (by omega) (by simpa using hf) target'

/-- **The card reads the fields of a request** one after the other. -/
theorem parseTarget_tlv {env : Env} {opTag : ℕ} (hop : (Der.tagBytes opTag).length = 2)
    {objs : List (ℕ × Bytes)} (ht : ∀ t ∈ objs.map Prod.fst, Der.IsTag t)
    (hlen : (Der.tlvs objs).length < 2 ^ 16) :
    parseTarget (.ofBytes env (Der.tlv opTag (Der.tlvs objs))) = targetOf objs := by
  have hl := Der.length_lenBytes_pos (Der.tlvs objs).length
  have hdrop : (Der.tlv opTag (Der.tlvs objs) ++ env.trailing).drop 2 =
      Der.lenBytes (Der.tlvs objs).length ++ (Der.tlvs objs ++ env.trailing) := by
    simp only [Der.tlv, List.append_assoc, List.drop_left' hop]
  have htlv := Der.length_tlv opTag (Der.tlvs objs)
  rw [hop] at htlv
  have hsub : sub32 (Der.tlv opTag (Der.tlvs objs)).length 2 =
      (Der.tlv opTag (Der.tlvs objs)).length - 2 := sub32_of_le (by omega)
  obtain ⟨b, hb, hskip⟩ := skipLength_lenBytes hlen (Der.tlvs objs ++ env.trailing)
    ((Der.tlv opTag (Der.tlvs objs)).length - 2)
  simp only [parseTarget, Command.ofBytes, hdrop, hsub]
  rw [if_pos (by omega), hb]
  simp only [Option.map_some, Option.bind_eq_bind, Option.bind_some, hskip]
  rw [sub32_of_le (by omega), show (Der.tlv opTag (Der.tlvs objs)).length - 2 -
    (Der.lenBytes (Der.tlvs objs).length).length = (Der.tlvs objs).length by omega]
  have := Der.length_objs_le_tlvs objs
  exact loop_tlvs ht hlen env.trailing (by rw [List.length_append]; omega) .init

/-! ## What the LPA lists -/

/-- The bytes of the ICCID in the listing. -/
def iccidBytes : Bytes := [0x89, 0x49, 0x44, 0x99, 0x99, 0x99, 0x99, 0x90, 0x04, 0x9F]

/-- The bytes of the AID in the listing. -/
def aidBytes : Bytes :=
  [0xA0, 0x00, 0x00, 0x05, 0x59, 0x10, 0x10, 0xFF, 0xFF, 0xFF, 0xFF, 0x89, 0x00, 0x00, 0x10, 0x00]

/-- The ICCID that the LPA reads: the digits of the profile's, with every pair exchanged. -/
def listedIccid : Bytes := ascii "989444999999990940f9"

/-- The AID that the LPA reads. -/
def listedAid : Bytes := ascii "a0000005591010ffffffff8900001000"

/-- The fields of an entry. -/
def infoFields (profile : ProfileMetadata) : List (ℕ × Bytes) :=
  [(0x5A, iccidBytes), (0x4F, aidBytes), (0x9F70, [profile.state.toByte]),
    (0x91, profile.serviceProviderName), (0x92, profile.profileName)]

/-- The entry of a profile as the LPA reads it. -/
def listed (profile : ProfileMetadata) : ProfileInfo :=
  { ProfileInfo.init with
    iccid := listedIccid
    isdpAid := listedAid
    profileState := .ofCode profile.state.toByte.toNat
    serviceProviderName := some profile.serviceProviderName
    profileName := some profile.profileName }

/-- The card writes the fields of an entry. -/
theorem profileInfo_eq {profile : ProfileMetadata} (hw : profile.WellFormed) {info : Bytes}
    (h : profileInfo profile = some info) :
    info = Der.tlv 0xE3 (Der.tlvs (infoFields profile)) ∧
      (Der.tlvs (infoFields profile)).length ≤ 512 := by
  have haid : hex2bin 16 profile.isdpAid = some aidBytes := by rw [hw.isdpAid]; decide +kernel
  have hne : profile.isdpAid ≠ [] := by rw [hw.isdpAid]; decide
  have hiccid : iccidBcd profile.iccid = iccidBytes := by rw [hw.iccid]; decide +kernel
  have hspn : profile.serviceProviderName ≠ [] := by rw [hw.serviceProviderName]; decide
  simp only [profileInfo, if_neg hne, haid, Option.map_some, Option.bind_eq_bind, Option.bind_some,
    Option.bind_eq_some_iff, optionalTlv, if_neg hspn, if_neg hw.profileName_ne, hiccid,
    buildTlv_eq] at h
  obtain ⟨out, hout, h⟩ := h
  cases h
  have heq : out = Der.tlvs (infoFields profile) := by
    rw [puts_eq_some hout]
    simp [infoFields]
  have hle := length_puts_le (Nat.zero_le _) hout
  exact ⟨by rw [heq], heq ▸ hle⟩

/-- The LPA reads the fields of an entry. -/
theorem readProfileInfo_fields (profile : ProfileMetadata)
    (hlen : (Der.tlvs (infoFields profile)).length < 2 ^ 32) :
    (unpackAll (Der.tlvs (infoFields profile))).foldlM readProfileField .init =
      some (listed profile) := by
  have hiccid : bin2gsmbcd 21 iccidBytes = some (some listedIccid) := by decide +kernel
  have haid : bin2hex 33 aidBytes = some (some listedAid, 32) := by decide +kernel
  have hstate : bin2int [profile.state.toByte] = profile.state.toByte.toNat := by
    cases profile.state <;> rfl
  rw [unpackAll_tlvs (by simp [infoFields, Der.IsTag]) hlen]
  simp [infoFields, readProfileField, hiccid, haid, hstate, listed]

theorem mapM_map_eq_some {α β γ : Type} {xs : List α} {f : α → β} {g : β → Option γ} {r : α → γ}
    (h : ∀ x ∈ xs, g (f x) = some (r x)) : (xs.map f).mapM g = some (xs.map r) := by
  induction xs with
  | nil => rfl
  | cons x xs ih =>
    rw [List.forall_mem_cons] at h
    simp only [List.map_cons, List.mapM_cons, h.1, Option.bind_eq_bind, Option.bind_some, ih h.2]
    rfl

/-- The entries of a list of profiles. -/
theorem mapM_profileInfo {xs : List (ℕ × ProfileMetadata)} (hw : ∀ x ∈ xs, x.2.WellFormed)
    {infos : List Bytes} (h : xs.mapM (fun x => profileInfo x.2) = some infos) :
    infos = xs.map (fun x => Der.tlv 0xE3 (Der.tlvs (infoFields x.2))) ∧
      ∀ x ∈ xs, (Der.tlvs (infoFields x.2)).length ≤ 512 := by
  induction xs generalizing infos with
  | nil =>
    cases h
    exact ⟨rfl, by simp⟩
  | cons x xs ih =>
    rw [List.forall_mem_cons] at hw
    simp only [List.mapM_cons, Option.bind_eq_bind, Option.bind_eq_some_iff] at h
    obtain ⟨info, hinfo, rest, hrest, h⟩ := h
    cases h
    obtain ⟨rfl, hle⟩ := profileInfo_eq hw.1 hinfo
    obtain ⟨rfl, hles⟩ := ih hw.2 hrest
    exact ⟨rfl, List.forall_mem_cons.2 ⟨hle, hles⟩⟩

/-- The LPA reads the entries of a list of profiles. -/
theorem readProfileInfos_card {xs : List (ℕ × ProfileMetadata)}
    (hle : ∀ x ∈ xs, (Der.tlvs (infoFields x.2)).length ≤ 512) {list : Bytes}
    (hlist : list = Der.tlvs (segments 0xE3 (xs.map fun x => Der.tlvs (infoFields x.2))))
    (hlen : list.length ≤ 8192) :
    readProfileInfos (Der.tlv 0xBF2D (Der.tlv 0xA0 list)) =
      some (some (xs.map fun x => listed x.2)) := by
  have hA0 := Der.length_tlv_le 0xA0 (v := list) (by omega)
  have h2D := Der.length_tlv_le 0xBF2D (v := Der.tlv 0xA0 list) (by omega)
  rw [readProfileInfos, findTag_tlv (by decide) (by omega)]
  simp only [Option.bind_some, Node.of_value]
  rw [findTag_tlv (by decide) (by omega)]
  simp only [Node.of_value]
  rw [hlist] at hlen ⊢
  rw [unpackAll_segments (by decide) (by omega)]
  have hnodes : (xs.map fun x => Der.tlvs (infoFields x.2)).map (Node.of 0xE3) =
      xs.map fun x => Node.of 0xE3 (Der.tlvs (infoFields x.2)) := by
    rw [List.map_map]
    rfl
  have hfilter : (xs.map fun x => Node.of 0xE3 (Der.tlvs (infoFields x.2))).filter
      (·.tag = 0xE3) = xs.map fun x => Node.of 0xE3 (Der.tlvs (infoFields x.2)) := by
    refine List.filter_eq_self.2 fun node hnode => ?_
    obtain ⟨x, -, rfl⟩ := List.mem_map.1 hnode
    rfl
  have hread : (xs.map fun x => Node.of 0xE3 (Der.tlvs (infoFields x.2))).mapM (fun node =>
      (unpackAll node.value).foldlM readProfileField .init) = some (xs.map fun x => listed x.2) :=
    mapM_map_eq_some fun x hx => readProfileInfo_fields x.2 (by have := hle x hx; omega)
  rw [hnodes]
  rw [hfilter, hread, Option.map_some]

/-- **What the LPA lists** are the profiles of the card, in order. -/
theorem getProfilesInfo_card {env : ℕ → Env} {k : ℕ} {s : EuiccState} {infos : List ProfileInfo}
    {c : CardSession} {xs : List (ℕ × ProfileMetadata)} (hl : s.profiles.Repr xs)
    (hw : ∀ x ∈ xs, x.2.WellFormed)
    (h : (getProfilesInfo (es10xCommand (cardTransport env))).Returns ⟨k, s⟩ infos c) :
    infos = xs.map (fun x => listed x.2) ∧ c = ⟨k + 1, s⟩ := by
  obtain ⟨respbuf, t, hc, hread⟩ := returns_bind.1 h
  have hpack : pack 0xBF2D [] = Der.tagBytes 0xBF2D ++ [0x00] := by decide
  rw [hpack] at hc
  obtain ⟨s', hp, rfl⟩ := (es10xCommand_card (by decide)).1 hc
  have hh := processEs10xCommand_tag (by decide) (by decide) hp
  have hh : Card.getProfilesInfo s = some (s', some respbuf) := hh
  obtain rfl := getProfilesInfo_frame hh
  simp only [Card.getProfilesInfo, LinkedList.nodes_eq hl, Option.bind_eq_bind, Option.bind_some,
    Option.bind_eq_some_iff] at hh
  obtain ⟨es, hes, list, hlist, hh⟩ := hh
  cases hh
  obtain ⟨rfl, hle⟩ := mapM_profileInfo hw hes
  have hlen := length_puts_le (Nat.zero_le _) hlist
  have hflat : list = Der.tlvs (segments 0xE3 (xs.map fun x => Der.tlvs (infoFields x.2))) := by
    rw [puts_eq_some hlist, Der.tlvs, segments, List.flatMap_map, List.flatMap_map]
    rfl
  rw [buildTlv_eq, buildTlv_eq] at hread
  simp only [liftFault, Returns, readProfileInfos_card hle hflat hlen, Option.map_some,
    Option.some.injEq, Prod.mk.injEq] at hread
  obtain ⟨rfl, rfl⟩ := hread
  exact ⟨rfl, rfl⟩

/-! ## What a request does -/

variable {env : ℕ → Env} {k : ℕ} {s : EuiccState} {opTag : ℕ} {c : Es10xCommand}
  {step : LinkedList ProfileMetadata → Target → Option (LinkedList ProfileMetadata × UInt8)}

theorem Management.tag (hm : Management c opTag step) :
    Der.IsTag opTag ∧ opTag ≠ 0xBF36 ∧ (Der.tagBytes opTag).length = 2 ∧
      Es10xCommand.ofTag opTag = c ∧ c ≠ .unsupported := by
  cases hm <;> decide

theorem Management.handle (hm : Management c opTag step) (env : Env) (cmd : Command) :
    c.handle env s cmd = manageProfile opTag step s cmd := by
  cases hm <;> rfl

/-- **A management request** returns the result code of the card. -/
theorem manage_returns (hm : Management c opTag step) {id choice : Bytes} {flag : UInt8}
    {objs : List (ℕ × Bytes)} {target : Target} {l : LinkedList ProfileMetadata} {code : UInt8}
    (hchoice : profileIdentifierChoice id = some (some choice))
    (hreq : manageRequest opTag choice flag = some (Der.tlv opTag (Der.tlvs objs)))
    (ht : ∀ t ∈ objs.map Prod.fst, Der.IsTag t) (hlen : (Der.tlvs objs).length < 2 ^ 16)
    (htarget : targetOf objs = some target) (hstep : step s.profiles target = some (l, code)) :
    (enableDisableDeleteProfile (es10xCommand (cardTransport env)) opTag id flag).Returns ⟨k, s⟩
      code.toNat ⟨k + 1, { s with profiles := l }⟩ := by
  obtain ⟨hop, hw, htwo, htag, hu⟩ := Management.tag hm
  have hreqlen : 2 ≤ (Der.tlv opTag (Der.tlvs objs)).length := by
    rw [Der.length_tlv, htwo]
    omega
  have hcard : processEs10xCommand (env k) s (.ofBytes (env k) (Der.tlv opTag (Der.tlvs objs))) =
      some ({ s with profiles := l }, some (resultResponse opTag code ++ [0x90, 0x00])) := by
    have hh : manageProfile opTag step s (.ofBytes (env k) (Der.tlv opTag (Der.tlvs objs))) =
        some ({ s with profiles := l }, some (resultResponse opTag code)) := by
      simp only [manageProfile, parseTarget_tlv htwo ht hlen, htarget, hstep, Option.bind_eq_bind,
        Option.bind_some]
      rfl
    rw [← Management.handle hm (env k), ← htag] at hh
    rw [Der.tlv, List.append_assoc] at hh hreqlen ⊢
    exact processEs10xCommand_of_handle hop hw hreqlen (by rwa [htag]) hh
  have hresp : resultResponse opTag code = Der.tlv opTag (Der.tlv 0x80 [code]) := buildTlv_eq ..
  have hlen80 := Der.length_tlv_le 0x80 (v := [code]) (by simp)
  have hlenop := Der.length_tlv_le opTag (v := Der.tlv 0x80 [code]) (by simp at hlen80; omega)
  simp only [List.length_singleton] at hlen80
  rw [enableDisableDeleteProfile, returns_bind]
  refine ⟨choice, _, returns_liftFault.2 ⟨hchoice, rfl⟩, returns_bind.2 ?_⟩
  refine ⟨_, _, returns_ofOption.2 ⟨hreq, rfl⟩, returns_bind.2 ?_⟩
  refine ⟨_, _, (es10xCommand_card (List.ne_nil_of_length_pos (by omega))).2
    ⟨_, hcard, rfl⟩, returns_bind.2 ?_⟩
  refine ⟨.of opTag (Der.tlv 0x80 [code]), _, returns_ofOption.2 ⟨?_, rfl⟩, returns_bind.2 ?_⟩
  · rw [hresp]
    exact findTag_tlv hop (by omega)
  refine ⟨.of 0x80 [code], _, returns_ofOption.2 ⟨?_, rfl⟩, returns_pure.2 ⟨?_, rfl⟩⟩
  · exact findTag_tlv (by decide) (by omega)
  · have := code.toNat_lt
    rw [Node.of_value, bin2int, bin2long, Der.ofBe, List.foldl_cons, List.foldl_nil]
    omega

/-- A request that no profile matches is answered with the result code 1. -/
theorem Management.notFound (hm : Management c opTag step) {l : LinkedList ProfileMetadata}
    {xs : List (ℕ × ProfileMetadata)} (hl : l.Repr xs) {target : Target}
    (hno : ∀ x ∈ xs, target.matches x.2 = false) : step l target = some (l, 1) := by
  obtain ⟨prev, hf⟩ := LinkedList.findPrev_none hl hno
  cases hm with
  | enable => simp [enableStep, hf]
  | disable => simp [disableStep, hf]
  | delete => simp [deleteStep, hf]

/-- A delete request that the first profile matches. -/
theorem deleteStep_head {l : LinkedList ProfileMetadata} {x : ℕ × ProfileMetadata}
    {xs : List (ℕ × ProfileMetadata)} (hl : l.Repr (x :: xs)) {target : Target}
    (hx : target.matches x.2 = true) :
    (x.2.state = .enabled ∧ deleteStep l target = some (l, 2)) ∨
      (x.2.state = .disabled ∧ ∃ l', deleteStep l target = some (l', 0) ∧ l'.Repr xs) := by
  obtain ⟨hf, h0⟩ := @LinkedList.findPrev_some _ _ [] _ _ hl _ (by simp) hx
  obtain ⟨-, q, hc⟩ := hl.chain.mem_cells (x := x) (by simp)
  cases he : x.2.state with
  | enabled => exact .inl ⟨rfl, by simp [deleteStep, hf, h0, hc, he]⟩
  | disabled =>
    obtain ⟨l', hl', hr⟩ := @LinkedList.unlink_repr _ _ [] _ _ _ hl
    have hl' : l.unlink 0 x.1 = some l' := hl'
    exact .inr ⟨rfl, l', by simp [deleteStep, hf, h0, hc, he, hl'], hr⟩

/-! ## The identifiers of a request -/

/-- What the card reads from a request with the listed ICCID. -/
def iccidTarget : Target := ⟨decodeIccid 0 iccidBytes (List.replicate 21 0), List.replicate 33 0⟩

/-- What the card reads from a request with the listed AID. -/
def aidTarget : Target := ⟨List.replicate 21 0, decodeAid 0 aidBytes (List.replicate 33 0)⟩

theorem iccidTarget_matches {profile : ProfileMetadata} (hw : profile.WellFormed) :
    iccidTarget.matches profile = false := by
  have hne : ¬ installIccid = cstr iccidTarget.iccid := by decide +kernel
  have haid : (cstr iccidTarget.aid).length = 0 := by decide +kernel
  simp [Target.matches, hw.iccid, hne, haid]

theorem aidTarget_matches {profile : ProfileMetadata} (hw : profile.WellFormed) :
    aidTarget.matches profile = true := by
  have heq : installAid = cstr aidTarget.aid := by decide +kernel
  have haid : 0 < (cstr aidTarget.aid).length := by decide +kernel
  simp [Target.matches, hw.isdpAid, heq, haid]

theorem init_matches (profile : ProfileMetadata) : Target.init.matches profile = false := by
  have hiccid : (cstr Target.init.iccid).length = 0 := by decide +kernel
  have haid : (cstr Target.init.aid).length = 0 := by decide +kernel
  simp [Target.matches, hiccid, haid]

/-- The data object of a listed identifier. -/
def choiceOf (byAid : Bool) : Bytes :=
  if byAid then Der.tlv 0x4F aidBytes else Der.tlv 0x5A iccidBytes

theorem profileIdentifierChoice_listed (byAid : Bool) :
    profileIdentifierChoice (if byAid then listedAid else listedIccid) =
      some (some (choiceOf byAid)) := by
  cases byAid <;> decide +kernel

/-! ## Acting on a listed profile -/

/-- The three requests. -/
inductive Operation
  | enable
  | disable
  | delete
  deriving DecidableEq

namespace Operation

/-- The LPA's function. -/
def run {σ : Type} (command : Bytes → Program σ Bytes) (id : Bytes) (refreshFlag : Bool) :
    Operation → Program σ ℕ
  | .enable => enableProfile command id refreshFlag
  | .disable => disableProfile command id refreshFlag
  | .delete => deleteProfile command id

/-- The state in which a profile can be enabled, disabled or deleted. -/
def Precondition (profile : ProfileMetadata) : Operation → Prop
  | .enable | .delete => profile.state = .disabled
  | .disable => profile.state = .enabled

/-- What has become of the profile at an address. -/
def Done (p : ℕ) (ys : List (ℕ × ProfileMetadata)) : Operation → Prop
  | .enable => ∃ y ∈ ys, y.1 = p ∧ y.2.state = .enabled
  | .disable => ∃ y ∈ ys, y.1 = p ∧ y.2.state = .disabled
  | .delete => p ∉ ys.map Prod.fst

/-- What acting on exactly the profile `x` of a card with the profiles `xs` means: the call returns
a result code other than 1, no other profile is gone, and if the profile can be enabled, disabled or
deleted, the code is 0 and it is. -/
def ActsOn (op : Operation) (xs : List (ℕ × ProfileMetadata)) (x : ℕ × ProfileMetadata)
    (call : Program CardSession ℕ) (before : CardSession) : Prop :=
  ∃ after code ys, call.Returns before code after ∧ after.state.profiles.Repr ys ∧ code ≠ 1 ∧
    (∀ y ∈ xs, y.1 ≠ x.1 → y.1 ∈ ys.map Prod.fst) ∧
    (op.Precondition x.2 → code = 0 ∧ op.Done x.1 ys)

end Operation

variable {xs : List (ℕ × ProfileMetadata)}

/-- A call that returns the result code 1 does not act on the profile. -/
theorem not_actsOn {op : Operation} {x : ℕ × ProfileMetadata} {call : Program CardSession ℕ}
    {before after : CardSession} (h : call.Returns before 1 after) :
    ¬ op.ActsOn xs x call before := by
  rintro ⟨after', code, ys, h', -, hne, -⟩
  rw [Returns, h] at h'
  cases h'
  exact hne rfl

variable (env k) in
/-- **Enabling and disabling** never find the profile: its identifier is wrapped. -/
theorem wrapped_notFound (hm : Management c opTag step) (hl : s.profiles.Repr xs) (byAid : Bool)
    (refreshFlag : Bool) :
    ∃ after, (enableDisableDeleteProfile (es10xCommand (cardTransport env)) opTag
      (if byAid then listedAid else listedIccid) (refreshFlagOf refreshFlag)).Returns ⟨k, s⟩ 1
        after := by
  have hreq : manageRequest opTag (choiceOf byAid) (refreshFlagOf refreshFlag) =
      some (Der.tlv opTag (Der.tlvs [(0xA0, choiceOf byAid),
        (0x81, [refreshFlagByte (refreshFlagOf refreshFlag)])])) := by
    cases hm <;> cases byAid <;> cases refreshFlag <;> decide +kernel
  have hlen : (Der.tlvs [(0xA0, choiceOf byAid),
      (0x81, [refreshFlagByte (refreshFlagOf refreshFlag)])]).length < 2 ^ 16 := by
    cases byAid <;> cases refreshFlag <;> decide +kernel
  have hstep := Management.notFound hm hl fun x _ => init_matches x.2
  refine ⟨_, manage_returns hm (profileIdentifierChoice_listed byAid) hreq (by simp [Der.IsTag])
    hlen ?_ hstep⟩
  simp [targetOf, targetField]

variable (env k) in
/-- **Deleting by the listed ICCID** never finds the profile. -/
theorem deleteByIccid_notFound (hl : s.profiles.Repr xs) (hw : ∀ x ∈ xs, x.2.WellFormed) :
    ∃ after, (deleteProfile (es10xCommand (cardTransport env)) listedIccid).Returns ⟨k, s⟩ 1
      after :=
  have hstep := Management.notFound .delete hl fun x hx => iccidTarget_matches (hw x hx)
  have htarget : targetOf [(0x5A, iccidBytes)] = some iccidTarget := by decide +kernel
  ⟨_, manage_returns .delete (profileIdentifierChoice_listed false) (by decide +kernel) (by decide)
    (by decide +kernel) htarget hstep⟩

/-- **Deleting by the listed AID** is about the first profile. -/
theorem deleteByAid {x : ℕ × ProfileMetadata} (hl : s.profiles.Repr (x :: xs))
    (hw : x.2.WellFormed) :
    (x.2.state = .enabled ∧ (deleteProfile (es10xCommand (cardTransport env)) listedAid).Returns
        ⟨k, s⟩ 2 ⟨k + 1, s⟩) ∨
      (x.2.state = .disabled ∧ ∃ l : LinkedList ProfileMetadata, l.Repr xs ∧
        (deleteProfile (es10xCommand (cardTransport env)) listedAid).Returns ⟨k, s⟩ 0
          ⟨k + 1, { s with profiles := l }⟩) := by
  have key : ∀ {l code}, deleteStep s.profiles aidTarget = some (l, code) →
      (deleteProfile (es10xCommand (cardTransport env)) listedAid).Returns ⟨k, s⟩ code.toNat
        ⟨k + 1, { s with profiles := l }⟩ := fun hstep =>
    have htarget : targetOf [(0x4F, aidBytes)] = some aidTarget := by decide +kernel
    manage_returns .delete (profileIdentifierChoice_listed true) (by decide +kernel) (by decide)
      (by decide +kernel) htarget hstep
  obtain ⟨he, hstep⟩ | ⟨he, l', hstep, hr⟩ := deleteStep_head hl (aidTarget_matches hw)
  · exact .inl ⟨he, key hstep⟩
  · exact .inr ⟨he, l', hr, key hstep⟩

/-- The first profile is acted on, if it is deleted by its AID. -/
theorem actsOn_head {x : ℕ × ProfileMetadata} (hl : s.profiles.Repr (x :: xs))
    (hw : x.2.WellFormed) :
    Operation.delete.ActsOn (x :: xs) x
      (deleteProfile (es10xCommand (cardTransport env)) listedAid) ⟨k, s⟩ := by
  obtain ⟨he, h⟩ | ⟨he, l, hr, h⟩ := deleteByAid hl hw
  · refine ⟨_, _, _, h, hl, by decide, fun y hy _ => List.mem_map_of_mem hy, fun hd => ?_⟩
    cases he.symm.trans hd
  · have hnd := hl.nodup
    rw [List.map_cons, List.nodup_cons] at hnd
    refine ⟨_, _, _, h, hr, by decide, fun y hy hne => ?_, fun _ => ⟨rfl, hnd.1⟩⟩
    rcases List.mem_cons.1 hy with rfl | hy
    · exact absurd rfl hne
    · exact List.mem_map_of_mem hy

/-- Any other profile is not. -/
theorem not_actsOn_tail {x y : ℕ × ProfileMetadata} (hl : s.profiles.Repr (y :: xs)) (hx : x ∈ xs)
    (hi : StoreInv ((y :: xs).map Prod.snd)) :
    ¬ Operation.delete.ActsOn (y :: xs) x
      (deleteProfile (es10xCommand (cardTransport env)) listedAid) ⟨k, s⟩ := by
  rintro ⟨after, code, ys, h', hys, -, hkept, hdone⟩
  have hnd := hl.nodup
  rw [List.map_cons, List.nodup_cons] at hnd
  obtain ⟨he, h⟩ | ⟨-, l, hr, h⟩ := deleteByAid hl (hi.wellFormed y.2 (by simp))
  · -- the first profile is enabled, so this one is not, and the request should have succeeded
    have hone := hi.atMostOne
    rw [List.map_cons, AtMostOneEnabled, List.countP_cons_of_pos (by simpa using he)] at hone
    have hx' : x.2.state = .disabled := by
      cases hs : x.2.state with
      | disabled => rfl
      | enabled =>
        have : 0 < (xs.map Prod.snd).countP (·.state = .enabled) :=
          List.countP_pos_iff.2 ⟨x.2, List.mem_map_of_mem hx, by simpa using hs⟩
        omega
    rw [Returns, h] at h'
    cases h'
    cases (hdone hx').1
  · -- the first profile is deleted in its place
    rw [Returns, h] at h'
    cases h'
    have hgone := hkept y List.mem_cons_self fun heq => hnd.1 (heq ▸ List.mem_map_of_mem hx)
    rw [hys.unique hr] at hgone
    exact hnd.1 hgone

/-- **The card acts on a listed profile** exactly if it is the first one, and deleted by its AID. -/
theorem management_iff {daemon : Daemon} (hd : Run.Reachable daemonStep .start daemon)
    {env : ℕ → Env} {k : ℕ} {infos : List ProfileInfo} {c : CardSession}
    (h : (getProfilesInfo (es10xCommand (cardTransport env))).Returns ⟨k, daemon.globalState⟩
      infos c) :
    ∃ xs, daemon.globalState.profiles.Repr xs ∧ infos.length = xs.length ∧
      ∀ (j : ℕ) (p : ProfileInfo) (x : ℕ × ProfileMetadata), infos[j]? = some p →
        xs[j]? = some x → ∀ (op : Operation) (byAid refreshFlag : Bool),
          op.ActsOn xs x (op.run (es10xCommand (cardTransport env))
            (if byAid then p.isdpAid else p.iccid) refreshFlag) c ↔
            op = .delete ∧ byAid = true ∧ j = 0 := by
  obtain ⟨xs, hl, hi⟩ := (daemonInv_of_reachable hd).profiles
  have hw : ∀ x ∈ xs, x.2.WellFormed := fun x hx => hi.wellFormed _ (List.mem_map_of_mem hx)
  obtain ⟨rfl, rfl⟩ := getProfilesInfo_card hl hw h
  refine ⟨xs, hl, List.length_map _, fun j p x hp hx op byAid refreshFlag => ?_⟩
  rw [List.getElem?_map, hx, Option.map_some, Option.some.injEq] at hp
  subst hp
  have hid : (if byAid then (listed x.2).isdpAid else (listed x.2).iccid) =
      if byAid then listedAid else listedIccid := rfl
  rw [hid]
  cases op with
  | enable =>
    obtain ⟨after, hret⟩ := wrapped_notFound env (k + 1) .enable hl byAid refreshFlag
    exact ⟨fun ha => absurd ha (not_actsOn hret), fun hc => nomatch hc.1⟩
  | disable =>
    obtain ⟨after, hret⟩ := wrapped_notFound env (k + 1) .disable hl byAid refreshFlag
    exact ⟨fun ha => absurd ha (not_actsOn hret), fun hc => nomatch hc.1⟩
  | delete =>
    cases byAid with
    | false =>
      obtain ⟨after, hret⟩ := deleteByIccid_notFound env (k + 1) hl hw
      exact ⟨fun ha => absurd ha (not_actsOn hret), fun hc => nomatch hc.2.1⟩
    | true =>
      match xs, j, hl, hi, hx with
      | y :: ys, 0, hl, hi, hx =>
        cases hx
        exact ⟨fun _ => ⟨rfl, rfl, rfl⟩, fun _ => actsOn_head hl (hi.wellFormed _ (by simp))⟩
      | y :: ys, j + 1, hl, hi, hx =>
        refine ⟨fun ha => absurd ha (not_actsOn_tail hl (List.mem_of_getElem? hx) hi), fun hc => ?_⟩
        cases hc.2.2

/-! ## The profile of a sample run -/

/-- After the sample installation: the daemon, the listing, and the card's state after it. -/
def sampleListing : Option (Daemon × CardSession × Option (List ProfileInfo)) := do
  let daemon ← Run.exec daemonStep .start sampleInstall
  let listing ← getProfilesInfo (es10xCommand (cardTransport fun _ => sampleEnv))
    ⟨0, daemon.globalState⟩
  return (daemon, listing)

theorem sampleListing_eq_some {daemon : Daemon} {c : CardSession} {infos : List ProfileInfo}
    (h : sampleListing = some (daemon, c, some infos)) :
    Run.Reachable daemonStep .start daemon ∧
      (getProfilesInfo (es10xCommand (cardTransport fun _ => sampleEnv))).Returns
        ⟨0, daemon.globalState⟩ infos c := by
  simp only [sampleListing, Option.bind_eq_bind, Option.bind_eq_some_iff] at h
  obtain ⟨d, hd, r, hr, h⟩ := h
  cases h
  exact ⟨Run.Reachable.init.of_exec hd, hr⟩

/-- The profile of the sample run can be deleted by its AID. -/
theorem management_iff_sample : ∃ daemon c infos,
    sampleListing = some (daemon, c, some infos) ∧
      ∃ xs, daemon.globalState.profiles.Repr xs ∧ infos.length = xs.length ∧
        ∀ (j : ℕ) (p : ProfileInfo) (x : ℕ × ProfileMetadata), infos[j]? = some p →
          xs[j]? = some x → ∀ (op : Operation) (byAid refreshFlag : Bool),
            op.ActsOn xs x (op.run (es10xCommand (cardTransport fun _ => sampleEnv))
              (if byAid then p.isdpAid else p.iccid) refreshFlag) c ↔
              op = .delete ∧ byAid = true ∧ j = 0 := by
  have hrun : sampleListing.any (fun x => x.2.2.isSome) = true := by decide +kernel
  obtain ⟨⟨daemon, c, o⟩, hlist, ho⟩ := (Option.any_eq_true _ _).1 hrun
  obtain ⟨infos, rfl⟩ := Option.isSome_iff_exists.1 ho
  obtain ⟨hd, h⟩ := sampleListing_eq_some hlist
  exact ⟨daemon, c, infos, hlist, management_iff hd h⟩

/-- **A listed profile is not found** when it is to be enabled. -/
theorem management_fails : ¬ ∀ (daemon : Daemon) (env : ℕ → Env) (k : ℕ)
    (infos : List ProfileInfo) (c : CardSession), Run.Reachable daemonStep .start daemon →
    (getProfilesInfo (es10xCommand (cardTransport env))).Returns ⟨k, daemon.globalState⟩ infos c →
    ∀ xs, daemon.globalState.profiles.Repr xs → ∀ (j : ℕ) (p : ProfileInfo)
      (x : ℕ × ProfileMetadata), infos[j]? = some p → xs[j]? = some x →
      ∀ (op : Operation) (byAid refreshFlag : Bool),
        op.ActsOn xs x (op.run (es10xCommand (cardTransport env))
          (if byAid then p.isdpAid else p.iccid) refreshFlag) c := by
  intro hall
  have hrun : sampleListing.any (fun x => x.2.2.any fun infos => infos[0]?.any fun p =>
      (Operation.enable.run (es10xCommand (cardTransport fun _ => sampleEnv)) p.iccid false
        x.2.1).any (·.2 = some 1)) = true := by decide +kernel
  obtain ⟨⟨daemon, c, o⟩, hlist, ho⟩ := (Option.any_eq_true _ _).1 hrun
  obtain ⟨infos, rfl, ho⟩ := (Option.any_eq_true _ _).1 ho
  obtain ⟨p, hp, ho⟩ := (Option.any_eq_true _ _).1 ho
  obtain ⟨⟨after, code⟩, hret, hcode⟩ := (Option.any_eq_true _ _).1 ho
  obtain rfl : code = some 1 := of_decide_eq_true hcode
  obtain ⟨hd, h⟩ := sampleListing_eq_some hlist
  obtain ⟨xs, hl, hi⟩ := (daemonInv_of_reachable hd).profiles
  obtain ⟨rfl, -⟩ := getProfilesInfo_card hl
    (fun x hx => hi.wellFormed _ (List.mem_map_of_mem hx)) h
  rw [List.getElem?_map] at hp
  obtain ⟨x, hx, rfl⟩ := Option.map_eq_some_iff.1 hp
  refine not_actsOn hret (hall daemon _ _ _ c hd h xs hl 0 (listed x.2) x ?_ hx .enable false false)
  rw [List.getElem?_map, hx, Option.map_some]

end VirtualRsp.Lpa
