import VirtualRsp.Card.CommandBounds
import VirtualRsp.Protocol.Requests

/-!
# What the card takes from the requests of the server

The card does not parse an `AuthenticateServerRequest` or a `PrepareDownloadRequest`; it searches
them for tags. For requests whose searches are not led astray (`Unambiguous`, and no byte `30` in
the length of a `PrepareDownloadRequest`) the values that it takes are computed here
(`findServerSigned1_request`, `findMatchingId_request`, `findTransactionId_request`), and so they
are those of the request exactly if the objects have lengths of one byte, the address is there, and
the matching identifier is a C string (`requests_echoed`).
-/

namespace VirtualRsp.Card

variable {env : Env} {state state' : EuiccState}

/-! ## Skipping bytes -/

/-- A length in the long form begins with a byte from `80` on. -/
theorem lenBytes_long {n : ℕ} (h : 0x80 ≤ n) (hlt : n < 2 ^ 32) :
    ∃ b rest, Der.lenBytes n = b :: rest ∧ 0x80 ≤ b.toNat := by
  have hle := Der.byteLen_le (n := n) (k := 4) (by omega) (by omega)
  refine ⟨_, _, if_neg (not_lt.2 h), ?_⟩
  have hbyte : (UInt8.ofNat (128 + Der.byteLen n)).toNat = 128 + Der.byteLen n :=
    UInt8.toNat_ofNat_of_lt (by simp only [UInt8.size]; omega)
  omega

/-- A length in the short form. -/
theorem lenBytes_short {n : ℕ} (h : n < 0x80) :
    Der.lenBytes n = [UInt8.ofNat n] ∧ (UInt8.ofNat n).toNat = n :=
  ⟨if_pos h, UInt8.toNat_ofNat_of_lt (by simp only [UInt8.size]; omega)⟩

/-- A search goes over bytes that it does not look for. -/
theorem loop_bytes {β : Type*} {body : Bytes × ℕ → Option (Ctl (Bytes × ℕ) β)} {tag : UInt8}
    (hnext : ∀ b rest remaining, b ≠ tag → 2 < remaining →
      body (b :: rest, remaining) = some (.next (rest, remaining - 1)))
    {pre : Bytes} (hpre : tag ∉ pre) (rest : Bytes) {remaining : ℕ} (h2 : 2 < remaining) (n : ℕ) :
    loop body (n + pre.length) (pre ++ rest, pre.length + remaining) =
      loop body n (rest, remaining) := by
  induction pre with
  | nil => rw [List.length_nil, List.nil_append, Nat.add_zero, Nat.zero_add]
  | cons b pre ih =>
    rw [List.mem_cons, not_or] at hpre
    have hbody := hnext b (pre ++ rest) ((b :: pre).length + remaining) (Ne.symm hpre.1) (by omega)
    have hremaining : (b :: pre).length + remaining - 1 = pre.length + remaining := by
      rw [List.length_cons]
      omega
    rw [hremaining] at hbody
    rw [List.length_cons, ← Nat.add_assoc, List.cons_append]
    exact (loop_next hbody _).trans (ih hpre.2)

/-- A search for `30` in an object whose header has no such byte looks at the content first. -/
theorem scan_tlv {β : Type*} {body : Bytes × ℕ → Option (Ctl (Bytes × ℕ) β)}
    (hnext : ∀ b rest remaining, b ≠ 0x30 → 2 < remaining →
      body (b :: rest, remaining) = some (.next (rest, remaining - 1)))
    {tag : ℕ} (htag : 0x30 ∉ Der.tagBytes tag) {content : Bytes}
    (h30 : 0x30 ∉ Der.lenBytes content.length) (h2 : 2 < content.length) (trailing : Bytes) {b : β}
    (hdone : body (content ++ trailing, content.length) = some (.done b)) :
    scan body (Der.tlv tag content ++ trailing) (Der.tlv tag content).length = some b := by
  have hpre : (0x30 : UInt8) ∉ Der.tagBytes tag ++ Der.lenBytes content.length := by
    rw [List.mem_append, not_or]
    exact ⟨htag, h30⟩
  have hskip := loop_bytes hnext hpre (content ++ trailing) h2
    ((content ++ trailing).length + 1)
  have hmem : Der.tlv tag content ++ trailing =
      Der.tagBytes tag ++ Der.lenBytes content.length ++ (content ++ trailing) := by
    rw [Der.tlv, List.append_assoc]
  have hlen : (Der.tlv tag content).length =
      (Der.tagBytes tag ++ Der.lenBytes content.length).length + content.length := by
    rw [Der.length_tlv, List.length_append]
  have hfuel : (Der.tlv tag content ++ trailing).length + 1 = (content ++ trailing).length + 1 +
      (Der.tagBytes tag ++ Der.lenBytes content.length).length := by
    rw [hmem]
    simp only [List.length_append]
    omega
  rw [scan, hfuel, hlen, hmem, hskip]
  exact loop_done hdone _

/-! ## Authenticating the server: the signed data -/

section

variable {α : Type} {act : ℕ → ℕ → Bytes → α → Option (Ctl α α)} {acc acc' : α} {remaining : ℕ}

/-- A walk goes over a field of a short length. -/
theorem loop_walkBody_tlv {t : ℕ} (ht : t < 256) {v : Bytes} (hv : v.length < 0x80) (rest : Bytes)
    (h2 : 2 < remaining) (hfits : 2 + v.length ≤ remaining)
    (hact : act t v.length (v ++ rest) acc = some (.next acc')) (n : ℕ) :
    loop (walkBody act) (n + 1) ((Der.tlv t v ++ rest, remaining), acc) =
      loop (walkBody act) n ((rest, remaining - (2 + v.length)), acc') := by
  have htag : (UInt8.ofNat t).toNat = t :=
    UInt8.toNat_ofNat_of_lt (by simp only [UInt8.size]; omega)
  have hlen := (lenBytes_short hv).2
  have hbody := @walkBody_next _ act acc acc' (v ++ rest) (UInt8.ofNat t) (UInt8.ofNat v.length)
    remaining h2 (by rw [hlen]; omega) (by rw [htag, hlen]; exact hact)
  rw [hlen, List.drop_left] at hbody
  rw [Der.tlv_short ht hv]
  exact loop_next hbody n

end

section

variable {r : AuthenticateServerRequest}

theorem length_serverSigned1 (h : r.serverSigned1.length < 0x80) :
    r.serverSigned1.length = 40 + r.transactionId.length + r.serverAddress.length ∧
      r.serverAddress.length < 0x80 := by
  have htid := r.transactionId_le
  have haddress : r.serverAddress.length < 0x80 := by
    simp only [AuthenticateServerRequest.serverSigned1, List.length_append, Der.length_tlv] at h
    omega
  refine ⟨?_, haddress⟩
  simp only [AuthenticateServerRequest.serverSigned1,
    Der.tlv_short (show 0x80 < 256 by decide) (show r.transactionId.length < 0x80 by omega),
    Der.tlv_short (show 0x81 < 256 by decide) (show r.euiccChallenge.toList.length < 0x80 by simp),
    Der.tlv_short (show 0x83 < 256 by decide) haddress,
    Der.tlv_short (show 0x84 < 256 by decide) (show r.serverChallenge.toList.length < 0x80 by simp),
    List.length_append, List.length_cons, Vector.length_toList]
  omega

theorem serverSigned1Field_transactionId {v : Bytes} (h : v.length ≤ 16) (rest : Bytes)
    (acc : ServerSigned1) :
    serverSigned1Field 0x80 v.length (v ++ rest) acc =
      some (.next { acc with transactionId := v }) := by
  rw [serverSigned1Field, if_pos ⟨rfl, h⟩, readN_append rfl]
  rfl

theorem serverSigned1Field_euiccChallenge (len : ℕ) (rest : Bytes) (acc : ServerSigned1) :
    serverSigned1Field 0x81 len rest acc = some (.next acc) := by
  rw [serverSigned1Field, if_neg (by simp), if_neg (by simp), if_neg (by simp)]

theorem serverSigned1Field_serverChallenge {v : Bytes} (h : v.length = 16) (rest : Bytes)
    (acc : ServerSigned1) :
    serverSigned1Field 0x84 v.length (v ++ rest) acc =
      some (.next { acc with serverChallenge := v }) := by
  rw [serverSigned1Field, if_neg (by simp), if_pos ⟨rfl, h⟩, readN_append h]
  rfl

/-- An empty address is none. -/
theorem serverSigned1Field_serverAddress {v : Bytes} (h : v.length < 0x80) (rest : Bytes)
    (acc : ServerSigned1) :
    serverSigned1Field 0x83 v.length (v ++ rest) acc =
      some (.next { acc with serverAddress := if v = [] then acc.serverAddress else v }) := by
  rw [serverSigned1Field, if_neg (by simp), if_neg (by simp)]
  by_cases hnil : v = []
  · rw [if_pos hnil, if_neg]
    rw [hnil]
    simp
  · have hpos := List.length_pos_iff.2 hnil
    rw [if_neg hnil, if_pos ⟨rfl, hpos, by omega⟩, readN_append rfl]
    rfl

/-- The walk over the signed data of a request. -/
theorem walkFields_serverSigned1 (h : r.serverSigned1.length < 0x80) (rest : Bytes)
    (acc : ServerSigned1) :
    walkFields serverSigned1Field (r.serverSigned1 ++ rest) r.serverSigned1.length acc =
      some ⟨r.transactionId, r.serverChallenge.toList,
        if r.serverAddress = [] then acc.serverAddress else r.serverAddress⟩ := by
  obtain ⟨hlength, haddress⟩ := length_serverSigned1 h
  have hpos := r.transactionId_pos
  have hle := r.transactionId_le
  obtain ⟨n, hn⟩ : ∃ n, (r.serverSigned1 ++ rest).length + 1 = n + 1 + 1 + 1 + 1 + 1 := by
    refine ⟨(r.serverSigned1 ++ rest).length - 4, ?_⟩
    rw [List.length_append]
    omega
  rw [walkFields, hn, hlength]
  simp only [AuthenticateServerRequest.serverSigned1, List.append_assoc]
  have hchallenge : r.serverChallenge.toList.length = 16 := by simp
  have heuicc : r.euiccChallenge.toList.length = 16 := by simp
  rw [loop_walkBody_tlv (by decide) (by omega) _ (by omega) (by omega)
      (serverSigned1Field_transactionId hle _ _),
    loop_walkBody_tlv (by decide) (by omega) _ (by omega) (by omega)
      (serverSigned1Field_euiccChallenge _ _ _),
    loop_walkBody_tlv (by decide) haddress _ (by omega) (by omega)
      (serverSigned1Field_serverAddress haddress _ _),
    loop_walkBody_tlv (by decide) (by omega) _ (by omega) (by omega)
      (serverSigned1Field_serverChallenge hchallenge _ _)]
  exact loop_done (walkBody_short (by omega)) n

/-- **What the card takes from the signed data** of a request, over what it has: nothing if the
length has the long form. -/
theorem findServerSigned1_request (hlt : r.octets.length < 2 ^ 32)
    (h30 : 0x30 ∉ Der.lenBytes r.content.length) :
    findServerSigned1 state (.ofBytes env r.octets) =
      some (if r.serverSigned1.length < 0x80 then
        ⟨r.transactionId, r.serverChallenge.toList,
          if r.serverAddress = [] then ascii "localhost" else r.serverAddress⟩
      else ⟨state.transactionId, state.serverChallenge, ascii "localhost"⟩) := by
  obtain ⟨more, hmore⟩ : ∃ more, r.content = Der.tlv 0x30 r.serverSigned1 ++ more :=
    ⟨_, List.append_assoc _ _ _⟩
  have hlen30 := Der.length_tlv 0x30 r.serverSigned1
  have hlenOctets := Der.length_tlv 0xBF38 r.content
  rw [← AuthenticateServerRequest.octets] at hlenOctets
  have hss1 : 2 < r.serverSigned1.length := by
    simp only [AuthenticateServerRequest.serverSigned1, List.length_append, Der.length_tlv,
      Vector.length_toList]
    omega
  have hlenMore := congrArg List.length hmore
  rw [List.length_append] at hlenMore
  have h2 : 2 < r.content.length := by omega
  refine scan_tlv (fun b rest remaining hb h2 => findServerSigned1Body_next hb h2) (by decide) h30
    h2 env.trailing ?_
  rw [hmore] at h2
  rw [hmore, List.append_assoc]
  by_cases hshort : r.serverSigned1.length < 0x80
  · have hbody := findServerSigned1Body_found
      ⟨state.transactionId, state.serverChallenge, ascii "localhost"⟩
      (UInt8.ofNat r.serverSigned1.length) (r.serverSigned1 ++ (more ++ env.trailing)) h2
    rw [(lenBytes_short hshort).2, if_pos hshort, walkFields_serverSigned1 hshort] at hbody
    rw [if_pos hshort, Der.tlv_short (by decide) hshort]
    rw [Der.tlv_short (by decide) hshort] at hbody
    exact hbody
  · obtain ⟨b, rest, hb, hlong⟩ := lenBytes_long (not_lt.1 hshort) (by omega)
    have htlv : Der.tlv 0x30 r.serverSigned1 = 0x30 :: b :: (rest ++ r.serverSigned1) := by
      rw [Der.tlv, hb]
      rfl
    have hbody := findServerSigned1Body_found
      ⟨state.transactionId, state.serverChallenge, ascii "localhost"⟩ b
      (rest ++ r.serverSigned1 ++ (more ++ env.trailing)) h2
    rw [if_neg (not_lt.2 hlong)] at hbody
    rw [if_neg hshort]
    rw [htlv] at hbody ⊢
    exact hbody

/-! ## Authenticating the server: the matching identifier -/

/-- What is before the context parameters in a request. -/
def beforeCtxParams1 (r : AuthenticateServerRequest) : Bytes :=
  Der.tagBytes 0xBF38 ++ Der.lenBytes r.content.length ++
    (Der.tlv 0x30 r.serverSigned1 ++ r.credentials)

theorem octets_eq_append (r : AuthenticateServerRequest) :
    r.octets = beforeCtxParams1 r ++ Der.tlv 0xA0 r.ctxParams1 := by
  simp only [AuthenticateServerRequest.octets, Der.tlv.eq_1 0xBF38, beforeCtxParams1,
    AuthenticateServerRequest.content, List.append_assoc]

/-- The searches are not led astray: the length of the request has no byte `30`, and no byte `A0`
before the context parameters begins fields with a matching identifier; nor one behind, where the
context parameters have none that the card can find. -/
structure Unambiguous (r : AuthenticateServerRequest) : Prop where
  length : 0x30 ∉ Der.lenBytes r.content.length
  stray : ∀ p len q, r.octets = p ++ 0xA0 :: len :: q → q ≠ [] → len.toNat < 0x80 →
    (p.length < (beforeCtxParams1 r).length ∨ (beforeCtxParams1 r).length < p.length ∧
      (r.matchingId.getD [] = [] ∨ 0x80 ≤ r.ctxParams1.length)) →
    MatchingIdWalk len.toNat q none

/-- A walk that stays in the command does not look behind it. -/
theorem MatchingIdWalk.append {remaining : ℕ} {fields : Bytes} {found : Option Bytes}
    (h : MatchingIdWalk remaining fields found) (trailing : Bytes) :
    MatchingIdWalk remaining (fields ++ trailing) found := by
  induction h with
  | short h => exact .short h
  | stop h => exact .stop h
  | found hlen hpos hgo =>
    rw [List.cons_append, List.cons_append, List.append_assoc]
    exact .found hlen hpos hgo
  | next hne hlen h2 hgo h ih =>
    rw [List.cons_append, List.cons_append, List.append_assoc]
    exact .next hne hlen h2 hgo ih
  | past hne hend => exact .past hne hend

/-- The search where no byte `A0` leads to an identifier. -/
theorem loop_findMatchingIdBody_none {data trailing : Bytes}
    (h : ∀ p len q, data = p ++ 0xA0 :: len :: q → q ≠ [] → len.toNat < 0x80 →
      MatchingIdWalk len.toNat (q ++ trailing) none) {n : ℕ} (hn : data.length < n) :
    loop findMatchingIdBody n (data ++ trailing, data.length) = some none := by
  induction data generalizing n with
  | nil =>
    obtain ⟨n, rfl⟩ := Nat.exists_eq_add_one_of_ne_zero (by omega : n ≠ 0)
    exact loop_done (by rw [findMatchingIdBody, if_pos (by simp)]) n
  | cons b data ih =>
    obtain ⟨n, rfl⟩ := Nat.exists_eq_add_one_of_ne_zero (by omega : n ≠ 0)
    rw [List.length_cons] at hn
    have hnext := ih (fun p len q hq => h (b :: p) len q (by rw [hq, List.cons_append]))
      (show data.length < n by omega)
    by_cases h2 : (b :: data).length ≤ 2
    · exact loop_done (by rw [findMatchingIdBody, if_pos h2]) n
    obtain ⟨len, x, q, rfl⟩ := exists_cons_cons (show 2 ≤ data.length by
      rw [List.length_cons] at h2
      omega)
    by_cases hother : b ≠ 0xA0 ∨ 0x80 ≤ len.toNat
    · exact (loop_next (findMatchingIdBody_other (not_le.1 h2) hother) n).trans hnext
    · obtain ⟨hb, hshort⟩ := not_or.1 hother
      obtain rfl := not_not.1 hb
      have hwalk := walkFields_ctxParams1Field_iff.2
        (h [] len (x :: q) rfl (by simp) (not_le.1 hshort))
      have hbody := findMatchingIdBody_walk (x :: q ++ trailing) (not_le.1 h2) (not_le.1 hshort)
      rw [hwalk, Option.map_some] at hbody
      exact (loop_next hbody n).trans hnext

/-- The search up to the first byte `A0` that leads to an identifier. -/
theorem loop_findMatchingIdBody_found {pre post trailing v : Bytes} {len : UInt8}
    (h : ∀ p len' q, pre ++ 0xA0 :: len :: post = p ++ 0xA0 :: len' :: q → p.length < pre.length →
      len'.toNat < 0x80 → MatchingIdWalk len'.toNat (q ++ trailing) none)
    (hpost : post ≠ []) (hshort : len.toNat < 0x80)
    (hwalk : MatchingIdWalk len.toNat (post ++ trailing) (some v)) {n : ℕ} (hn : pre.length < n) :
    loop findMatchingIdBody n
      (pre ++ 0xA0 :: len :: post ++ trailing, (pre ++ 0xA0 :: len :: post).length) =
        some (some v) := by
  have hpos := List.length_pos_iff.2 hpost
  induction pre generalizing n with
  | nil =>
    obtain ⟨n, rfl⟩ := Nat.exists_eq_add_one_of_ne_zero (by omega : n ≠ 0)
    have hbody := findMatchingIdBody_walk (post ++ trailing)
      (show 2 < (0xA0 :: len :: post).length by simp only [List.length_cons]; omega) hshort
    rw [walkFields_ctxParams1Field_iff.2 hwalk, Option.map_some] at hbody
    exact loop_done hbody n
  | cons b pre ih =>
    obtain ⟨n, rfl⟩ := Nat.exists_eq_add_one_of_ne_zero (by omega : n ≠ 0)
    rw [List.length_cons] at hn
    have hnext := ih (fun p len' q hq hp => h (b :: p) len' q
      (by rw [List.cons_append, hq, List.cons_append])
      (by simp only [List.length_cons]; omega)) (show pre.length < n by omega)
    have h2 : 2 < (b :: pre ++ 0xA0 :: len :: post).length := by
      simp only [List.length_append, List.length_cons]
      omega
    obtain ⟨b', q, hq⟩ : ∃ b' q, pre ++ 0xA0 :: len :: post = b' :: q :=
      List.exists_cons_of_ne_nil (by simp)
    rw [List.cons_append, hq] at h2 ⊢
    rw [hq] at hnext
    by_cases hother : b ≠ 0xA0 ∨ 0x80 ≤ b'.toNat
    · exact (loop_next (findMatchingIdBody_other h2 hother) n).trans hnext
    · obtain ⟨hb, hshort'⟩ := not_or.1 hother
      obtain rfl := not_not.1 hb
      have hstray := walkFields_ctxParams1Field_iff.2 (h [] b' q (by
        rw [List.cons_append, hq, List.nil_append]) (by simp) (not_le.1 hshort'))
      have hbody := findMatchingIdBody_walk (q ++ trailing) h2 (not_le.1 hshort')
      rw [hstray, Option.map_some] at hbody
      exact (loop_next hbody n).trans hnext

/-- Behind the identifier there is none. -/
theorem matchingIdWalk_deviceInfo (h : r.deviceInfo.length < 0x80) (rest : Bytes) :
    MatchingIdWalk (2 + r.deviceInfo.length) (Der.tlv 0xA1 r.deviceInfo ++ rest) none := by
  have hlen := (lenBytes_short h).2
  rw [Der.tlv_short (by decide) h, List.cons_append, List.cons_append]
  by_cases h2 : 2 + r.deviceInfo.length ≤ 2
  · exact .short h2
  refine .next ?_ hlen.symm (not_le.1 h2) (by rw [hlen]; omega) (.short ?_)
  · exact fun h => absurd h.1 (by decide)
  · omega

/-- The walk over short context parameters. -/
theorem matchingIdWalk_ctxParams1 (h : r.ctxParams1.length < 0x80) (rest : Bytes) :
    MatchingIdWalk r.ctxParams1.length (r.ctxParams1 ++ rest)
      (if r.matchingId.getD [] = [] then none else r.matchingId) := by
  have hdevice := Der.length_tlv 0xA1 r.deviceInfo
  cases hid : r.matchingId with
  | none =>
    have hctx : r.ctxParams1 = Der.tlv 0xA1 r.deviceInfo := by
      rw [AuthenticateServerRequest.ctxParams1, hid]
      rfl
    rw [hctx] at h ⊢
    have hshort : r.deviceInfo.length < 0x80 := by omega
    have hlen : (Der.tlv 0xA1 r.deviceInfo).length = 2 + r.deviceInfo.length := by
      rw [Der.tlv_short (by decide) hshort, List.length_cons, List.length_cons]
      omega
    rw [hlen, Option.getD_none, if_pos rfl]
    exact matchingIdWalk_deviceInfo hshort rest
  | some matchingId =>
    have hctx : r.ctxParams1 = Der.tlv 0x80 matchingId ++ Der.tlv 0xA1 r.deviceInfo := by
      rw [AuthenticateServerRequest.ctxParams1, hid]
      rfl
    have hmatching := Der.length_tlv 0x80 matchingId
    rw [hctx] at h ⊢
    rw [List.length_append] at h
    have hshort : r.deviceInfo.length < 0x80 := by omega
    have hshort' : matchingId.length < 0x80 := by omega
    have hlen : (Der.tlv 0x80 matchingId ++ Der.tlv 0xA1 r.deviceInfo).length =
        2 + matchingId.length + (2 + r.deviceInfo.length) := by
      rw [Der.tlv_short (by decide) hshort, Der.tlv_short (by decide) hshort']
      simp only [List.length_append, List.length_cons]
      omega
    have hbyte := (lenBytes_short hshort').2
    rw [hlen, Der.tlv_short (by decide) hshort', Option.getD_some, List.append_assoc,
      List.cons_append, List.cons_append]
    by_cases hnil : matchingId = []
    · rw [if_pos hnil]
      refine .next ?_ hbyte.symm (by omega) (by rw [hbyte]; omega) ?_
      · rintro ⟨-, hpos⟩
        rw [hbyte, hnil] at hpos
        cases hpos
      · have hrest := matchingIdWalk_deviceInfo hshort rest
        have hsub : 2 + matchingId.length + (2 + r.deviceInfo.length) - (2 + matchingId.length) =
            2 + r.deviceInfo.length := by omega
        rwa [hsub]
    · rw [if_neg hnil]
      exact .found hbyte.symm (List.length_pos_iff.2 hnil) (by rw [hbyte]; omega)

theorem ctxParams1_ne_nil (r : AuthenticateServerRequest) : r.ctxParams1 ≠ [] := by
  refine List.append_ne_nil_of_right_ne_nil _ (List.ne_nil_of_length_pos ?_)
  rw [Der.length_tlv]
  have := Der.length_lenBytes_pos r.deviceInfo.length
  omega

/-- The search finds the identifier in short context parameters. -/
theorem findMatchingId_found (h : Unambiguous r) (hshort : r.ctxParams1.length < 0x80)
    {matchingId : Bytes} (hid : r.matchingId = some matchingId) (hne : matchingId ≠ []) :
    findMatchingId (.ofBytes env r.octets) = some matchingId := by
  have hbyte := (lenBytes_short hshort).2
  have hwalk := matchingIdWalk_ctxParams1 hshort env.trailing
  rw [hid, Option.getD_some, if_neg hne, ← hbyte] at hwalk
  have htlv : r.octets = beforeCtxParams1 r ++
      0xA0 :: UInt8.ofNat r.ctxParams1.length :: r.ctxParams1 := by
    rw [octets_eq_append, Der.tlv_short (by decide) hshort]
    rfl
  have hstray := h.stray
  rw [findMatchingId, Command.ofBytes, scan]
  rw [htlv] at hstray ⊢
  rw [loop_findMatchingIdBody_found (v := matchingId) _ (ctxParams1_ne_nil r)
    (by rw [hbyte]; exact hshort) hwalk (by simp only [List.length_append]; omega)]
  · rfl
  · intro p len' q hq hp hlen'
    refine (hstray p len' q hq ?_ hlen' (.inl hp)).append _
    rintro rfl
    have hlen := congrArg List.length hq
    simp only [List.length_append, List.length_cons, List.length_nil] at hlen
    omega

/-- The search finds nothing if there is no identifier, or long context parameters. -/
theorem findMatchingId_none (hlt : r.octets.length < 2 ^ 32) (h : Unambiguous r)
    (hnone : r.matchingId.getD [] = [] ∨ 0x80 ≤ r.ctxParams1.length) :
    findMatchingId (.ofBytes env r.octets) = some [] := by
  have hoctets := octets_eq_append r
  have hlenOctets := congrArg List.length hoctets
  rw [List.length_append] at hlenOctets
  have hlenCtx := Der.length_tlv 0xA0 r.ctxParams1
  rw [findMatchingId, Command.ofBytes, scan,
    loop_findMatchingIdBody_none _ (by rw [List.length_append]; omega)]
  · rfl
  intro p len q hq hqnil hlen
  obtain hlt' | heq | hgt := Nat.lt_trichotomy p.length (beforeCtxParams1 r).length
  · exact (h.stray p len q hq hqnil hlen (.inl hlt')).append _
  · rw [hoctets] at hq
    obtain ⟨-, hq⟩ := List.append_inj hq heq.symm
    by_cases hshort : r.ctxParams1.length < 0x80
    · rw [Der.tlv_short (by decide) hshort] at hq
      obtain ⟨-, hq⟩ := List.cons.inj hq
      obtain ⟨rfl, rfl⟩ := List.cons.inj hq
      have hwalk := matchingIdWalk_ctxParams1 hshort env.trailing
      rw [if_pos (hnone.resolve_right (not_le.2 hshort))] at hwalk
      rw [(lenBytes_short hshort).2]
      exact hwalk
    · obtain ⟨b, rest, hb, hlong⟩ := lenBytes_long (not_lt.1 hshort) (by omega)
      rw [Der.tlv, hb] at hq
      obtain ⟨-, hq⟩ := List.cons.inj hq
      obtain ⟨rfl, -⟩ := List.cons.inj hq
      omega
  · exact (h.stray p len q hq hqnil hlen (.inr ⟨hgt, hnone⟩)).append _

/-- **The matching identifier that the card takes** from a request: none if the length of the
context parameters has the long form. -/
theorem findMatchingId_request (hlt : r.octets.length < 2 ^ 32) (h : Unambiguous r) :
    findMatchingId (.ofBytes env r.octets) =
      some (if r.ctxParams1.length < 0x80 then r.matchingId.getD [] else []) := by
  by_cases hshort : r.ctxParams1.length < 0x80
  · rw [if_pos hshort]
    by_cases hnil : r.matchingId.getD [] = []
    · rw [hnil]
      exact findMatchingId_none hlt h (.inl hnil)
    · cases hid : r.matchingId with
      | none => exact absurd (by rw [hid]; rfl) hnil
      | some matchingId =>
        rw [hid] at hnil
        exact findMatchingId_found h hshort hid hnil
  · rw [if_neg hshort]
    exact findMatchingId_none hlt h (.inr (not_lt.1 hshort))

end

/-! ## Preparing a download: the transaction identifier -/

section

variable {r : PrepareDownloadRequest}

theorem findSmdpSigned2Body_next {default : Bytes} {b : UInt8} {rest : Bytes} {remaining : ℕ}
    (hb : b ≠ 0x30) (h2 : 2 < remaining) :
    findSmdpSigned2Body default (b :: rest, remaining) = some (.next (rest, remaining - 1)) := by
  have hb' : b.toNat ≠ 0x30 := fun e => hb (UInt8.toNat_inj.1 e)
  rw [findSmdpSigned2Body, if_neg (by omega)]
  simp only [readAt_cons_zero, Option.bind_eq_bind, Option.bind_some]
  rw [if_neg hb']
  rfl

theorem findSmdpSigned2Body_found (default : Bytes) (len : UInt8) (rest : Bytes) {remaining : ℕ}
    (h2 : 2 < remaining) :
    findSmdpSigned2Body default (0x30 :: len :: rest, remaining) =
      if len.toNat < 0x80 ∧ 2 + len.toNat ≤ remaining then
        (scan (transactionIdBody default) rest len.toNat).map .done
      else some (.done default) := by
  rw [findSmdpSigned2Body, if_neg (by omega)]
  simp only [readAt_cons_zero, readAt_cons_succ, Option.bind_eq_bind, Option.bind_some]
  rw [if_pos (show (0x30 : UInt8).toNat = 0x30 from rfl)]
  split
  · have hdrop : (0x30 :: len :: rest).drop 2 = rest := rfl
    rw [hdrop]
    cases scan (transactionIdBody default) rest len.toNat <;> rfl
  · rfl

/-- An identifier in the first field is found. -/
theorem scan_transactionIdBody_first (default : Bytes) {v : Bytes} (h16 : v.length ≤ 16)
    {fields : Bytes} (hpos : 0 < v.length + fields.length) (rest : Bytes) :
    scan (transactionIdBody default) (Der.tlv 0x80 v ++ fields ++ rest)
      (Der.tlv 0x80 v ++ fields).length = some v := by
  have hbyte := (lenBytes_short (show v.length < 0x80 by omega)).2
  have hbody := @transactionIdBody_field rest default v fields 0x80 _ hpos hbyte.symm
    (by rw [hbyte]; omega)
  rw [if_pos ⟨rfl, h16⟩] at hbody
  rw [Der.tlv_short (by decide) (by omega), List.cons_append, List.cons_append]
  exact loop_done hbody _

/-- **The identifier that the card takes** from a request: its own if the length of the signed data
has the long form. -/
theorem findTransactionId_request (hlt : r.octets.length < 2 ^ 32)
    (h30 : 0x30 ∉ Der.lenBytes r.content.length) :
    findTransactionId state (.ofBytes env r.octets) =
      some (if r.smdpSigned2.length < 0x80 then r.transactionId else state.transactionId) := by
  obtain ⟨more, hmore⟩ : ∃ more, r.content = Der.tlv 0x30 r.smdpSigned2 ++ more :=
    ⟨_, List.append_assoc _ _ _⟩
  obtain ⟨fields, hfields⟩ : ∃ fields, r.smdpSigned2 = Der.tlv 0x80 r.transactionId ++ fields :=
    ⟨_, List.append_assoc _ _ _⟩
  have hlen30 := Der.length_tlv 0x30 r.smdpSigned2
  have hlenOctets := Der.length_tlv 0xBF21 r.content
  rw [← PrepareDownloadRequest.octets] at hlenOctets
  have hpos := r.transactionId_pos
  have hlenMore := congrArg List.length hmore
  have hlenFields := congrArg List.length hfields
  rw [List.length_append] at hlenMore hlenFields
  have hlen80 := Der.length_tlv 0x80 r.transactionId
  have htag := Der.length_tagBytes_pos 0x80
  have hlen := Der.length_lenBytes_pos r.transactionId.length
  have h2 : 2 < r.content.length := by omega
  refine scan_tlv (fun b rest remaining hb h2 => findSmdpSigned2Body_next hb h2) (by decide) h30
    h2 env.trailing ?_
  rw [hmore] at h2
  rw [hmore, List.append_assoc]
  by_cases hshort : r.smdpSigned2.length < 0x80
  · have hbyte := (lenBytes_short hshort).2
    have htag30 := Der.length_tagBytes_pos 0x30
    have hlen30' := Der.length_lenBytes_pos r.smdpSigned2.length
    have hbody := findSmdpSigned2Body_found state.transactionId (UInt8.ofNat r.smdpSigned2.length)
      (r.smdpSigned2 ++ (more ++ env.trailing)) h2
    rw [hbyte, if_pos ⟨hshort, by rw [← hmore]; omega⟩, hfields,
      scan_transactionIdBody_first _ r.transactionId_le (by omega), ← hfields] at hbody
    rw [if_pos hshort, Der.tlv_short (by decide) hshort]
    rw [Der.tlv_short (by decide) hshort] at hbody
    exact hbody
  · obtain ⟨b, rest, hb, hlong⟩ := lenBytes_long (not_lt.1 hshort) (by omega)
    have htlv : Der.tlv 0x30 r.smdpSigned2 = 0x30 :: b :: (rest ++ r.smdpSigned2) := by
      rw [Der.tlv, hb]
      rfl
    have hbody := findSmdpSigned2Body_found state.transactionId b
      (rest ++ r.smdpSigned2 ++ (more ++ env.trailing)) h2
    rw [if_neg fun h => not_lt.2 hlong h.1] at hbody
    rw [if_neg hshort]
    rw [htlv] at hbody ⊢
    exact hbody

end

/-! ## The answers -/

/-- **An authentication** keeps what was taken from the request, and signs it. -/
theorem authenticateServer_answer {cmd : Command} {resp : Option Bytes}
    (h : authenticateServer env state cmd = some (state', resp)) :
    ∃ fields matchingId signed1, findServerSigned1 state cmd = some fields ∧
      findMatchingId cmd = some matchingId ∧ euiccSigned1 fields matchingId = some signed1 ∧
      state'.transactionId = fields.transactionId ∧
      state'.serverChallenge = fields.serverChallenge ∧ state'.matchingId = matchingId ∧
      ∀ octets ∈ resp, ∃ rest, octets = Der.tlv 0xBF38 (Der.tlv 0xA0 (signed1 ++ rest)) := by
  simp only [authenticateServer, Option.bind_eq_bind, Option.bind_eq_some_iff] at h
  obtain ⟨fields, hfields, matchingId, hid, signed1, hsigned, signature, -, h⟩ := h
  refine ⟨fields, matchingId, signed1, hfields, hid, hsigned, ?_⟩
  cases signature with
  | none =>
    cases h
    exact ⟨rfl, rfl, rfl, fun octets hoctets => absurd hoctets (Option.not_mem_none octets)⟩
  | some signature =>
    obtain ⟨out, hout, h⟩ := Option.bind_eq_some_iff.1 h
    cases h
    obtain rfl := puts_eq_some hout
    refine ⟨rfl, rfl, rfl, fun octets hoctets => ?_⟩
    cases hoctets
    simp only [buildTlv_eq, List.nil_append, List.flatten_cons]
    exact ⟨_, rfl⟩

/-- **A prepared download** keeps the identifier that was taken from the request, and signs it. -/
theorem prepareDownload_answer {cmd : Command} {resp : Bytes}
    (h : prepareDownload env state cmd = some (state', some resp)) :
    ∃ transactionId smdpSignature2 euiccOtpk signed2 signature,
      findTransactionId state cmd = some transactionId ∧
      findSmdpSignature2 cmd = some smdpSignature2 ∧
      env.ecKeypair.bind (fun keypair => keypair.pub) = some euiccOtpk ∧
      euiccSigned2 transactionId euiccOtpk = some signed2 ∧
      signWithKey env state' (prepareDownloadInput signed2 smdpSignature2) =
        some (some signature) ∧
      resp = Der.tlv 0xBF21 (Der.tlv 0xA0 (signed2 ++ Der.tlv 0x5F37 signature)) ∧
      (Der.tlv 0xA0 (signed2 ++ Der.tlv 0x5F37 signature)).length < 2 ^ 32 ∧
      state'.transactionId = transactionId := by
  simp only [prepareDownload, Option.bind_eq_bind, Option.bind_eq_some_iff] at h
  obtain ⟨transactionId, htid, smdpSignature2, hsig, h⟩ := h
  split at h
  · cases h
  rename_i keypair hkeypair
  split at h
  · cases h
  rename_i euiccOtpk hpub
  split at h
  · cases h
  obtain ⟨signed2, hsigned, h⟩ := Option.bind_eq_some_iff.1 h
  obtain ⟨signature, hsign, h⟩ := Option.bind_eq_some_iff.1 h
  cases signature with
  | none => cases h
  | some signature =>
    obtain ⟨out, hout, h⟩ := Option.bind_eq_some_iff.1 h
    cases h
    have hle := length_puts_le (by decide) hout
    obtain rfl := puts_eq_some hout
    refine ⟨transactionId, smdpSignature2, euiccOtpk, signed2, signature, htid, hsig, ?_, hsigned,
      hsign, ?_, ?_, rfl⟩
    · rw [hkeypair]
      exact hpub
    · simp only [buildTlv_eq, List.flatten_cons, List.flatten_nil, List.append_nil, List.nil_append]
    · simp only [buildTlv_eq, List.flatten_cons, List.flatten_nil, List.append_nil,
        List.nil_append] at hle
      have := Der.length_tlv_le 0xA0 (v := signed2 ++ Der.tlv 0x5F37 signature) (by omega)
      omega

/-! ## The values of the requests -/

/-- The card can read a request whose searches are not led astray: the signed data and the context
parameters have lengths of one byte, there is an address, and the matching identifier is a C
string. -/
structure Readable (r : AuthenticateServerRequest) : Prop where
  serverSigned1 : r.serverSigned1.length < 0x80
  serverAddress : r.serverAddress ≠ []
  matchingId : 0 ∉ r.matchingId.getD []
  ctxParams1 : r.matchingId.getD [] = [] ∨ r.ctxParams1.length < 0x80

/-- The values that the card takes are those of the request; the matching identifier is written as a
C string. -/
structure Extracted (r : AuthenticateServerRequest) (fields : ServerSigned1)
    (matchingId : Bytes) : Prop where
  transactionId : fields.transactionId = r.transactionId
  serverAddress : fields.serverAddress = r.serverAddress
  serverChallenge : fields.serverChallenge = r.serverChallenge.toList
  matchingId : matchingId = r.matchingId.getD []
  text : cstr (r.matchingId.getD []) = r.matchingId.getD []

/-- `euiccSigned1` with the values of a request. -/
def echoedSigned1 (r : AuthenticateServerRequest) : Bytes :=
  Der.tlv 0x30 (Der.tlv 0x80 r.transactionId ++ Der.tlv 0x83 r.serverAddress ++
    Der.tlv 0x84 r.serverChallenge.toList ++ Der.tlv 0xBF22 buildEuiccinfo2 ++
    Der.tlv 0xA0 ((if r.matchingId.getD [] = [] then [] else Der.tlv 0x80 (r.matchingId.getD [])) ++
      Der.tlv 0xA1 deviceInfo))

/-- An authentication echoes a request, in the state and in what is signed. -/
structure Echoes (r : AuthenticateServerRequest) (state' : EuiccState) (resp : Option Bytes) :
    Prop where
  transactionId : state'.transactionId = r.transactionId
  serverChallenge : state'.serverChallenge = r.serverChallenge.toList
  matchingId : state'.matchingId = r.matchingId.getD []
  signed : ∀ octets ∈ resp, ∃ rest,
    octets = Der.tlv 0xBF38 (Der.tlv 0xA0 (echoedSigned1 r ++ rest))

/-- The same for a prepared download. -/
structure EchoesTransaction (r : PrepareDownloadRequest) (state' : EuiccState)
    (resp : Option Bytes) : Prop where
  transactionId : state'.transactionId = r.transactionId
  signed : ∀ octets ∈ resp, ∃ euiccOtpk signature, octets = Der.tlv 0xBF21 (Der.tlv 0xA0
    (Der.tlv 0x30 (Der.tlv 0x80 r.transactionId ++ Der.tlv 0x5F49 euiccOtpk) ++
      Der.tlv 0x5F37 signature))

theorem cstr_eq_self_iff {buf : Bytes} : cstr buf = buf ↔ 0 ∉ buf :=
  ⟨fun h => h ▸ zero_notMem_cstr buf, cstr_eq_self⟩

/-- What is extracted goes into the signed data. -/
theorem Extracted.signed1 {r : AuthenticateServerRequest} {fields : ServerSigned1}
    {matchingId signed1 : Bytes} (h : Extracted r fields matchingId)
    (hsigned : euiccSigned1 fields matchingId = some signed1) : signed1 = echoedSigned1 r := by
  simp only [euiccSigned1, ctxParams, Option.bind_eq_bind, Option.bind_eq_some_iff] at hsigned
  obtain ⟨ctx, hctx, content, hcontent, hsigned⟩ := hsigned
  cases hsigned
  obtain rfl := puts_eq_some hctx
  obtain rfl := puts_eq_some hcontent
  have hpos : 0 < (r.matchingId.getD []).length ↔ r.matchingId.getD [] ≠ [] := List.length_pos_iff
  simp only [h.transactionId, h.serverAddress, h.serverChallenge, h.matchingId, h.text, hpos,
    buildTlv_eq, echoedSigned1, List.nil_append, List.flatten_cons, List.flatten_nil,
    List.append_nil, List.append_assoc, ite_not]

theorem extracted_iff {r : AuthenticateServerRequest} (hlt : r.octets.length < 2 ^ 32)
    (h : Unambiguous r) :
    (∀ env state, ∃ fields matchingId,
      findServerSigned1 state (.ofBytes env r.octets) = some fields ∧
        findMatchingId (.ofBytes env r.octets) = some matchingId ∧
        Extracted r fields matchingId) ↔ Readable r := by
  constructor
  · intro hall
    obtain ⟨fields, matchingId, hfields, hid, hex⟩ := hall sampleEnv euiccStateInit
    rw [findServerSigned1_request hlt h.length] at hfields
    rw [findMatchingId_request hlt h] at hid
    cases hfields
    cases hid
    have htid := hex.transactionId
    have haddress := hex.serverAddress
    have hmatching := hex.matchingId
    have hpos := r.transactionId_pos
    by_cases hshort : r.serverSigned1.length < 0x80
    · rw [if_pos hshort] at haddress
      refine ⟨hshort, fun hnil => ?_, cstr_eq_self_iff.1 hex.text, ?_⟩
      · rw [if_pos hnil, hnil] at haddress
        exact absurd haddress (show ascii "localhost" ≠ [] by decide)
      · by_contra hboth
        rw [not_or] at hboth
        rw [if_neg hboth.2] at hmatching
        exact hboth.1 hmatching.symm
    · rw [if_neg hshort] at htid
      rw [← htid] at hpos
      cases hpos
  · intro hr env state
    rw [findServerSigned1_request hlt h.length, findMatchingId_request hlt h,
      if_pos hr.serverSigned1, if_neg hr.serverAddress]
    refine ⟨_, _, rfl, rfl, rfl, rfl, rfl, ?_, cstr_eq_self hr.matchingId⟩
    obtain hnil | hshort := hr.ctxParams1
    · rw [hnil, ite_self]
    · exact if_pos hshort

theorem echoes_of_readable {r : AuthenticateServerRequest} (hlt : r.octets.length < 2 ^ 32)
    (h : Unambiguous r) (hr : Readable r) {resp : Option Bytes}
    (hanswer : authenticateServer env state (.ofBytes env r.octets) = some (state', resp)) :
    Echoes r state' resp := by
  obtain ⟨fields, matchingId, signed1, hfields, hid, hsigned, htid, hchallenge, hmatching,
    hresp⟩ := authenticateServer_answer hanswer
  obtain ⟨fields', matchingId', hfields', hid', hex⟩ := (extracted_iff hlt h).2 hr env state
  obtain rfl := Option.some.inj (hfields.symm.trans hfields')
  obtain rfl := Option.some.inj (hid.symm.trans hid')
  obtain rfl := hex.signed1 hsigned
  exact ⟨htid.trans hex.transactionId, hchallenge.trans hex.serverChallenge,
    hmatching.trans hex.matchingId, hresp⟩

theorem findTransactionId_iff {q : PrepareDownloadRequest} (hlt : q.octets.length < 2 ^ 32)
    (h30 : 0x30 ∉ Der.lenBytes q.content.length) :
    (∀ env state, findTransactionId state (.ofBytes env q.octets) = some q.transactionId) ↔
      q.smdpSigned2.length < 0x80 := by
  constructor
  · intro hall
    have htid := hall sampleEnv euiccStateInit
    rw [findTransactionId_request hlt h30, Option.some.injEq] at htid
    by_contra hshort
    have hpos := q.transactionId_pos
    rw [if_neg hshort] at htid
    rw [← htid] at hpos
    cases hpos
  · intro hshort env state
    rw [findTransactionId_request hlt h30, if_pos hshort]

theorem echoesTransaction_of_short {q : PrepareDownloadRequest} (hlt : q.octets.length < 2 ^ 32)
    (h30 : 0x30 ∉ Der.lenBytes q.content.length) (hshort : q.smdpSigned2.length < 0x80)
    {resp : Option Bytes}
    (hanswer : prepareDownload env state (.ofBytes env q.octets) = some (state', resp)) :
    EchoesTransaction q state' resp := by
  have htid := (findTransactionId_iff hlt h30).2 hshort env state
  constructor
  · obtain ⟨transactionId, ht, ⟨-, rfl, -⟩ | ⟨pub, priv, -, rfl⟩⟩ := prepareDownload_state hanswer
    · exact Option.some.inj (ht.symm.trans htid)
    · exact Option.some.inj (ht.symm.trans htid)
  · rintro octets hoctets
    obtain rfl := Option.mem_def.1 hoctets
    obtain ⟨transactionId, -, euiccOtpk, signed2, signature, ht, -, -, hsigned, -, rfl, -, -⟩ :=
      prepareDownload_answer hanswer
    obtain rfl := Option.some.inj (ht.symm.trans htid)
    obtain ⟨content, hcontent, rfl⟩ := Option.map_eq_some_iff.1 hsigned
    obtain rfl := puts_eq_some hcontent
    refine ⟨euiccOtpk.toList, signature, ?_⟩
    simp only [buildTlv_eq, List.nil_append, List.flatten_cons, List.flatten_nil, List.append_nil]

/-- **Echoes.** For requests whose searches are not led astray, the card takes the values of the
request, whatever its state was, exactly if it can read them; and then it keeps and signs them. -/
theorem requests_echoed {r : AuthenticateServerRequest} {q : PrepareDownloadRequest}
    (hr : r.octets.length < 2 ^ 32) (hq : q.octets.length < 2 ^ 32) (h : Unambiguous r)
    (h30 : 0x30 ∉ Der.lenBytes q.content.length) :
    ((∀ env state, ∃ fields matchingId,
        findServerSigned1 state (.ofBytes env r.octets) = some fields ∧
          findMatchingId (.ofBytes env r.octets) = some matchingId ∧
          Extracted r fields matchingId) ↔ Readable r) ∧
      (Readable r → ∀ env state state' resp,
        authenticateServer env state (.ofBytes env r.octets) = some (state', resp) →
          Echoes r state' resp) ∧
      ((∀ env state, findTransactionId state (.ofBytes env q.octets) = some q.transactionId) ↔
        q.smdpSigned2.length < 0x80) ∧
      (q.smdpSigned2.length < 0x80 → ∀ env state state' resp,
        prepareDownload env state (.ofBytes env q.octets) = some (state', resp) →
          EchoesTransaction q state' resp) :=
  ⟨extracted_iff hr h, fun hreadable _ _ _ _ => echoes_of_readable hr h hreadable,
    findTransactionId_iff hq h30, fun hshort _ _ _ _ => echoesTransaction_of_short hq h30 hshort⟩

/-! ## Sample requests -/

/-- Without another byte `A0` nothing is ambiguous. -/
theorem unambiguous_of_notMem {r : AuthenticateServerRequest}
    (h30 : 0x30 ∉ Der.lenBytes r.content.length) (hbefore : 0xA0 ∉ beforeCtxParams1 r)
    (hctx : 0xA0 ∉ Der.lenBytes r.ctxParams1.length ++ r.ctxParams1) : Unambiguous r := by
  refine ⟨h30, fun p len q hq _ _ hp => ?_⟩
  have htlv : Der.tlv 0xA0 r.ctxParams1 =
      0xA0 :: (Der.lenBytes r.ctxParams1.length ++ r.ctxParams1) := by
    rw [Der.tlv, List.append_assoc]
    rfl
  rw [octets_eq_append, htlv] at hq
  obtain ⟨as, rfl, has⟩ | ⟨bs, hbs, hq⟩ := List.append_eq_append_iff.1 hq
  · cases as with
    | nil =>
      rw [List.append_nil] at hp
      omega
    | cons a as =>
      obtain ⟨-, has⟩ := List.cons.inj has
      exact absurd (has ▸ List.mem_append_right as List.mem_cons_self) hctx
  · cases bs with
    | nil =>
      rw [List.append_nil] at hbs
      rw [hbs] at hp
      omega
    | cons b bs =>
      obtain ⟨rfl, -⟩ := List.cons.inj hq
      exact absurd (hbs ▸ List.mem_append_right p List.mem_cons_self) hbefore

/-- A request with a certificate of some size. -/
def sampleAuthentication (size : ℕ) : AuthenticateServerRequest where
  transactionId := List.replicate 16 1
  transactionId_pos := by simp
  transactionId_le := by simp
  euiccChallenge := Vector.replicate 16 2
  serverAddress := ascii "smdp.example"
  serverChallenge := Vector.replicate 16 3
  serverSignature1 := List.replicate 64 4
  euiccCiPKIdToBeUsed := List.replicate 20 5
  serverCertificate := List.replicate size 6
  matchingId := some (ascii "TS48v4")
  deviceInfo := [0x80, 0x04, 0x35, 0x29, 0x06, 0x11, 0xA1, 0x00]

/-- A request to prepare a download. -/
def samplePreparation : PrepareDownloadRequest where
  transactionId := List.replicate 16 1
  transactionId_pos := by simp
  transactionId_le := by simp
  ccRequiredFlag := false
  bppEuiccOtpk := none
  smdpSignature2 := List.replicate 64 7
  hashCc := none
  smdpCertificate := List.replicate 100 6

theorem requests_echoed_sample :
    (∀ env state state' resp,
      authenticateServer env state (.ofBytes env (sampleAuthentication 100).octets) =
          some (state', resp) →
        Echoes (sampleAuthentication 100) state' resp) ∧
    ∀ env state state' resp,
      prepareDownload env state (.ofBytes env samplePreparation.octets) = some (state', resp) →
        EchoesTransaction samplePreparation state' resp := by
  have hechoed := @requests_echoed (sampleAuthentication 100) samplePreparation
    (by decide +kernel) (by decide +kernel)
    (unambiguous_of_notMem (by decide +kernel) (by decide +kernel) (by decide +kernel))
    (by decide +kernel)
  exact ⟨hechoed.2.1 ⟨by decide, by decide, by decide, .inr (by decide)⟩,
    hechoed.2.2.2 (by decide)⟩

/-- **A length is taken for a tag**: the content of this request has 816 (hexadecimal `330`)
bytes. -/
theorem request_not_echoed : ¬ ∀ (r : AuthenticateServerRequest) (env : Env)
    (state state' : EuiccState) (resp : Option Bytes), r.octets.length < 2 ^ 32 →
    authenticateServer env state (.ofBytes env r.octets) = some (state', resp) →
      Echoes r state' resp := by
  intro h
  have hanswer : (authenticateServer sampleEnv euiccStateInit
      (.ofBytes sampleEnv (sampleAuthentication 633).octets)).any fun r =>
        r.1.transactionId = [] := by
    decide +kernel
  obtain ⟨⟨state', resp⟩, hresp, htid⟩ := (Option.any_eq_true _ _).1 hanswer
  have hechoes := h _ _ _ _ _ (by decide +kernel) hresp
  exact absurd (hechoes.transactionId.symm.trans (of_decide_eq_true htid)) (by decide)

end VirtualRsp.Card
