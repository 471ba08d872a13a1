import Mathlib.Tactic.IntervalCases
import VirtualRsp.Smdp.Sessions

/-!
# Notifications about installations

A card reports the result of an installation in a signed notification, which should close the
session (`Closes`). The server looks for the session under the transaction in lower-case digits,
while it keeps sessions under upper-case digits, and it compares the decoded result, a pair, with a
string.

So a notification closes its session exactly if the identifier has decimal digits only and the
installation has failed, or has no record (`closes_iff`).
-/

namespace VirtualRsp.Smdp.Es9

open JsonText Run DownloadHistoryStore

variable {Cert Asn : Type} {cfg : Config Cert Asn} {env : Env}

/-! ## Hexadecimal texts -/

theorem hexChar_digit : ∀ upper upper' : Bool, ∀ n : Fin 16, (hexChar upper n).isDigit →
    hexChar upper' n = hexChar upper n := by decide

theorem hexChar_lower_upper : ∀ n m : Fin 16, hexChar false n = hexChar true m →
    (hexChar false n).isDigit := by decide

theorem mem_hexText {upper : Bool} {bs : Bytes} {c : Char} (h : c ∈ (hexText upper bs).toList) :
    ∃ n : Fin 16, c = hexChar upper n := by
  rw [hexText, String.toList_ofList] at h
  obtain ⟨b, -, hc⟩ := List.mem_flatMap.1 h
  have hb := b.toNat_lt
  rcases List.mem_cons.1 hc with rfl | hc
  · exact ⟨⟨b.toNat / 16, by omega⟩, rfl⟩
  · rw [List.mem_singleton.1 hc]
    exact ⟨⟨b.toNat % 16, by omega⟩, rfl⟩

/-- Decimal digits are the same in either case. -/
theorem hexText_digits {upper : Bool} {bs : Bytes}
    (h : ∀ c ∈ (hexText upper bs).toList, c.isDigit) (upper' : Bool) :
    hexText upper' bs = hexText upper bs := by
  rw [hexText, String.toList_ofList] at h
  unfold hexText
  congr 1
  refine List.flatMap_congr fun b hb => ?_
  have hlt := b.toNat_lt
  have hhigh := h (hexChar upper (b.toNat / 16)) (List.mem_flatMap.2 ⟨b, hb, List.mem_cons_self⟩)
  have hlow := h (hexChar upper (b.toNat % 16))
    (List.mem_flatMap.2 ⟨b, hb, List.mem_cons_of_mem _ List.mem_cons_self⟩)
  have h1 := hexChar_digit upper upper' ⟨b.toNat / 16, by omega⟩ hhigh
  have h2 := hexChar_digit upper upper' ⟨b.toNat % 16, by omega⟩ hlow
  rw [h1, h2]

/-- A lower-case text that is an upper-case one has digits only. -/
theorem digits_of_lower_eq_upper {bs bs' : Bytes} (h : hexText false bs = hexText true bs') :
    ∀ c ∈ (hexText false bs).toList, c.isDigit := by
  intro c hc
  obtain ⟨n, rfl⟩ := mem_hexText hc
  rw [h] at hc
  obtain ⟨m, hm⟩ := mem_hexText hc
  exact hexChar_lower_upper n m hm

/-! ## Invariants -/

/-- Sessions are kept under identifiers in upper-case digits. -/
def Keyed (rss : SessionStore Cert) : Prop :=
  ∀ transactionId ss, rss transactionId = some ss → ∃ bs, transactionId = hexText true bs

/-- The history is a list of records that name their transactions. -/
def Identified (history : Value) : Prop :=
  ∃ items, history = .list items ∧ ∀ r ∈ items, (recordId r).isSome

theorem Keyed.update {rss : SessionStore Cert} (h : Keyed rss) {transactionId : String}
    {new : Option (Session Cert)}
    (hnew : new.isSome → ∃ bs, transactionId = hexText true bs) :
    Keyed (Function.update rss transactionId new) := by
  intro tid ss hss
  obtain ⟨rfl, hnewest⟩ | hss := session_of_update hss
  · exact hnew (hnewest ▸ rfl)
  · exact h tid ss hss

theorem Keyed.effect {request : Request} {rss rss' : SessionStore Cert} (h : Keyed rss)
    (heffect : Effect cfg env request rss rss') : Keyed rss' := by
  cases heffect with
  | kept => exact h
  | started hendpoint hnew hfresh => exact h.update fun _ => ⟨_, congrArg _ hnew⟩
  | authenticated hendpoint hcontent hss hchallenge hcert hchecked =>
    exact h.update fun _ => h _ _ hss
  | prepared hss hchallenge hcert => exact h.update fun _ => h _ _ hss
  | notified hendpoint hcontent hss hcert hchecked => exact h.update fun hnone => nomatch hnone
  | cancelled hendpoint hcontent hss hcert hchecked => exact h.update fun hnone => nomatch hnone

theorem Identified.recordDownload {store store' : DownloadHistoryStore}
    (h : Identified store.history) {transactionId eid iccid matchingId status timestamp : String}
    (hrecord : store.recordDownload transactionId eid iccid matchingId status timestamp =
      some store') : Identified store'.history := by
  obtain ⟨items, hitems, hids⟩ := h
  simp only [DownloadHistoryStore.recordDownload, hitems, Option.some.injEq] at hrecord
  subst hrecord
  refine ⟨_, rfl, fun r hr => ?_⟩
  rcases List.mem_append.1 hr with hr | hr
  · exact hids r hr
  · rw [List.mem_singleton.1 hr]
    rfl

theorem Identified.updateDownload {store store' : DownloadHistoryStore}
    (h : Identified store.history) {transactionId status : String} {finalResult : Value}
    (hupdate : store.updateDownload transactionId status finalResult = some store') :
    Identified store'.history := by
  obtain ⟨items, hitems, hids⟩ := h
  simp only [DownloadHistoryStore.updateDownload, hitems, Option.bind_eq_bind,
    Option.bind_eq_some_iff] at hupdate
  obtain ⟨found, hfound, hupdate⟩ := hupdate
  cases found with
  | none =>
    cases hupdate
    exact ⟨items, hitems, hids⟩
  | some items' =>
    cases hupdate
    obtain ⟨earlier, kvs, later, rfl, rfl⟩ := updateLoop_eq_some hfound
    refine ⟨_, rfl, fun r hr => ?_⟩
    rcases List.mem_append.1 hr with hr | hr
    · exact hids r (List.mem_append_left _ hr)
    · rcases List.mem_cons.1 hr with rfl | hr
      · rw [recordId_updateRecord]
        exact hids _ (List.mem_append_right _ List.mem_cons_self)
      · exact hids r (List.mem_append_right _ (List.mem_cons_of_mem _ hr))

theorem recordBinding_ok {transactionId : String} {ss : Session Cert}
    {store store' : DownloadHistoryStore}
    (h : recordBinding cfg env transactionId ss store = .ok store')
    (hids : Identified store.history) :
    Identified store'.history := by
  unfold recordBinding at h
  obtain ⟨iccid, -, h⟩ := bind_ok h
  obtain ⟨eid, -, h⟩ := bind_ok h
  obtain ⟨matchingId, -, h⟩ := bind_ok h
  exact hids.recordDownload (orRaise_ok h)

theorem getBoundProfilePackage_identified (content : Value) {s : Server Cert}
    (h : Identified s.downloadHistory.history) :
    Identified (getBoundProfilePackage cfg env content s).2.downloadHistory.history := by
  unfold getBoundProfilePackage
  split
  · exact h
  · split
    · exact h
    · split
      · exact h
      · rename_i store hrecord
        have hstore := recordBinding_ok hrecord h
        dsimp only
        split
        · exact hstore
        · split
          · exact hstore
          · exact hstore

theorem handleNotification_identified (content : Value) {s : Server Cert}
    (h : Identified s.downloadHistory.history) :
    Identified (handleNotification cfg content s).2.downloadHistory.history := by
  unfold handleNotification
  split
  · exact h
  · dsimp only
    split
    · exact h
    · split
      · exact h
      · dsimp only
        cases hupdate : s.downloadHistory.updateDownload _ "failed"
            (.str "Signature verification failed") with
        | none => exact h
        | some store => exact h.updateDownload hupdate
      · split
        · exact h
        · rename_i store hupdate
          exact h.updateDownload hupdate
  · split
    · exact h
    · exact h

/-- **Step.** Every request keeps the records identified. -/
theorem serve_identified (request : Request) {s : Server Cert}
    (h : Identified s.downloadHistory.history) :
    Identified (serve cfg env request s).2.downloadHistory.history := by
  unfold serve
  split
  · exact h
  · split
    · exact h
    · rename_i content hcontent
      cases request.endpoint with
      | initiateAuthentication =>
        change Identified (initiateAuthentication cfg env content s).2.downloadHistory.history
        unfold initiateAuthentication
        split
        · exact h
        · exact h
      | authenticateClient =>
        change Identified (authenticateClient cfg env content s).2.downloadHistory.history
        unfold authenticateClient
        split
        · exact h
        · exact h
      | getBoundProfilePackage => exact getBoundProfilePackage_identified content h
      | handleNotification => exact handleNotification_identified content h
      | cancelSession =>
        change Identified (cancelSession cfg content s).2.downloadHistory.history
        unfold cancelSession
        split
        · exact h
        · dsimp only
          split
          · exact h
          · split
            · exact h
            · exact h
            · exact h
            · exact h

/-- Every reachable server keeps its sessions and records in these forms. -/
theorem reachable_forms {s : Server Cert} (hs : Reachable (step cfg) Server.new s) :
    Keyed s.rss ∧ Identified s.downloadHistory.history := by
  have hnew : Keyed (@Server.new Cert).rss := by
    intro transactionId ss hss
    cases hss
  have hempty : Identified (@Server.new Cert).downloadHistory.history := by
    refine ⟨[], rfl, fun r hr => ?_⟩
    cases hr
  refine hs.invariant (P := fun s => Keyed s.rss ∧ Identified s.downloadHistory.history)
    ⟨hnew, hempty⟩ ?_
  rintro s ⟨env, request⟩ s' - ⟨hkeyed, hids⟩ hstep
  obtain rfl := Option.some.inj hstep
  exact ⟨hkeyed.effect (serve_effect request s), serve_identified request hids⟩

/-! ## Updating a record -/

/-- The first record of a transaction gets a status; the other records, and its place, stay. -/
def StatusSet (transactionId status : String) (before after : List Value) : Prop :=
  let ofTransaction := fun r => decide (recordId r = some transactionId)
  after.findIdx ofTransaction = before.findIdx ofTransaction ∧
    after.eraseP ofTransaction = before.eraseP ofTransaction ∧
    ∀ r, after.find? ofTransaction = some r → getItem "status" r = some (.str status)

theorem lookup_setItem (key : String) (value : Value) (kvs : List (String × Value)) :
    (setItem key value kvs).lookup key = some value := by
  induction kvs with
  | nil => simp [setItem]
  | cons kv kvs ih =>
    obtain ⟨k, v⟩ := kv
    rw [setItem]
    split_ifs with hk
    · rw [hk, List.lookup_cons_self]
    · have hne : (key == k) = false := beq_false_of_ne (Ne.symm hk)
      rw [List.lookup_cons, hne]
      exact ih

theorem status_updateRecord (status : String) (finalResult : Value)
    (kvs : List (String × Value)) :
    getItem "status" (updateRecord status finalResult kvs) = some (.str status) := by
  have hne : "final_result" ≠ "status" := by decide
  unfold getItem updateRecord
  dsimp only
  split_ifs
  · rw [lookup_setItem_of_ne hne, lookup_setItem]
  · rw [lookup_setItem]

theorem recordId_eq_some {record : Value} {id : String} (h : recordId record = some id) :
    ∃ kvs, record = .dict kvs ∧ getItem "transaction_id" record = some (.str id) := by
  unfold recordId at h
  split at h
  · rename_i id' hid
    cases h
    cases record with
    | dict kvs => exact ⟨kvs, rfl, hid⟩
    | _ => cases hid
  · cases h

/-- **The update.** Among identified records, the first of the transaction gets the status. -/
theorem updateLoop_identified (transactionId status : String) (finalResult : Value)
    {items : List Value} (h : ∀ r ∈ items, (recordId r).isSome) :
    ∃ found, updateLoop transactionId status finalResult items = some found ∧
      StatusSet transactionId status items (found.getD items) ∧
      (found.getD items).map recordId = items.map recordId := by
  induction items with
  | nil => exact ⟨none, rfl, ⟨rfl, rfl, fun r hr => nomatch hr⟩, rfl⟩
  | cons record records ih =>
    obtain ⟨id, hid⟩ := Option.isSome_iff_exists.1 (h record List.mem_cons_self)
    obtain ⟨kvs, rfl, hitem⟩ := recordId_eq_some hid
    unfold updateLoop
    rw [hitem]
    by_cases htid : id = transactionId
    · subst htid
      have hset : recordId (updateRecord status finalResult kvs) = some id := by
        rw [recordId_updateRecord, hid]
      refine ⟨some (updateRecord status finalResult kvs :: records), by simp [isStr],
        ⟨?_, ?_, fun r hr => ?_⟩, by simp [hset, hid]⟩
      · simp [List.findIdx_cons, hset, hid]
      · simp [hset, hid]
      · simp only [Option.getD_some, List.find?_cons, hset, decide_true, Option.some.injEq] at hr
        rw [← hr, status_updateRecord]
    · obtain ⟨found, hfound, ⟨hidx, herase, hstatus⟩, hmap⟩ :=
        ih fun r hr => h r (List.mem_cons_of_mem _ hr)
      have hother : ¬ some id = some transactionId := fun heq => htid (Option.some.inj heq)
      have hcons : (found.map (.dict kvs :: ·)).getD (.dict kvs :: records) =
          .dict kvs :: found.getD records := by
        cases found with
        | none => rfl
        | some records' => rfl
      refine ⟨found.map (.dict kvs :: ·), by simp [isStr, htid, hfound], ?_, ?_⟩
      · rw [hcons]
        refine ⟨?_, ?_, fun r hr => hstatus r ?_⟩
        · simp only [List.findIdx_cons, hid, hother, decide_false, cond_false, hidx]
        · simp only [List.eraseP_cons, hid, hother, decide_false, cond_false, herase]
        · simpa only [List.find?_cons, hid, hother, decide_false] using hr
      · rw [hcons, List.map_cons, List.map_cons, hmap]

theorem updateDownload_identified {store : DownloadHistoryStore} (h : Identified store.history)
    (transactionId status : String) (finalResult : Value) :
    ∃ store', store.updateDownload transactionId status finalResult = some store' ∧
      StatusSet transactionId status (records store.history) (records store'.history) ∧
      ids store'.history = ids store.history := by
  obtain ⟨items, hitems, hids⟩ := h
  obtain ⟨found, hfound, hset, hmap⟩ :=
    updateLoop_identified transactionId status finalResult hids
  unfold DownloadHistoryStore.updateDownload
  rw [hitems]
  cases found with
  | none =>
    refine ⟨store, by simp [hfound], ?_, by rw [hitems]⟩
    rw [hitems]
    exact hset
  | some items' =>
    exact ⟨save_ { store with history := .list items' }, by simp [hfound], hset, hmap⟩

/-- The status that is set is the one of the record, if there is one. -/
theorem statusSet_iff {transactionId status status' : String} {before after : Value}
    (h : StatusSet transactionId status (records before) (records after))
    (hids : ids after = ids before) :
    StatusSet transactionId status' (records before) (records after) ↔
      (status' = status ∨ ∀ r ∈ records before, recordId r ≠ some transactionId) := by
  obtain ⟨hidx, herase, hstatus⟩ := h
  constructor
  · rintro ⟨-, -, hstatus'⟩
    by_cases hmem : some transactionId ∈ ids before
    · rw [← hids] at hmem
      obtain ⟨r, hr, hid⟩ := List.mem_map.1 hmem
      have hfind : ((records after).find? fun r =>
          decide (recordId r = some transactionId)).isSome :=
        List.find?_isSome.2 ⟨r, hr, decide_eq_true hid⟩
      obtain ⟨found, hfound⟩ := Option.isSome_iff_exists.1 hfind
      have heq := (hstatus' found hfound).symm.trans (hstatus found hfound)
      simp only [Option.some.injEq, Value.str.injEq] at heq
      exact Or.inl heq
    · exact Or.inr fun r hr hid => hmem (List.mem_map.2 ⟨r, hr, hid⟩)
  · rintro (rfl | hnone)
    · exact ⟨hidx, herase, hstatus⟩
    · refine ⟨hidx, herase, fun r hr => ?_⟩
      have hid : recordId r = some transactionId := by simpa using List.find?_some hr
      have hmem : some transactionId ∈ ids before := by
        rw [← hids]
        exact List.mem_map.2 ⟨r, List.mem_of_find?_eq_some hr, hid⟩
      obtain ⟨r', hr', hid'⟩ := List.mem_map.1 hmem
      exact absurd hid' (hnone r' hr')

/-! ## Closing a session -/

/-- Whether an installation has succeeded. -/
def FinalResult.isSuccess : FinalResult → Bool
  | .successResult _ _ => true
  | .errorResult _ _ _ => false

/-- What the conversions of `osmocom` promise. -/
structure Hexadecimal (lib : Es9Lib Cert Asn) : Prop where
  b2h_eq : ∀ bs, lib.b2h bs = hexText false bs
  h2b_hexText : ∀ bs, lib.h2b (hexText true bs) = some bs

/-- The notification closes the session: it removes this session and no other, and gives the record
of the transaction its final status, which is the one of success exactly for a success. -/
def Closes (cfg : Config Cert Asn) (content : Value) (s : Server Cert) (transactionId : String)
    (finalResult : FinalResult) : Prop :=
  let s' := (handleNotification cfg content s).2
  s'.rss = Function.update s.rss transactionId none ∧
    ∃ status, (status = "success" ↔ finalResult.isSuccess = true) ∧
      StatusSet transactionId status (records s.downloadHistory.history)
        (records s'.downloadHistory.history)

section

variable {s : Server Cert} {content : Value} {pird : ProfileInstallationResultData}
  {euiccSignPIR : Bytes}

/-- A notification about a session with letters in its identifier is lost. -/
theorem not_closes_of_letter (hlib : Hexadecimal cfg.lib) (hkeyed : Keyed s.rss) {tid : Bytes}
    (hlive : (s.rss (hexText true tid)).isSome)
    (hdecode : ((getItem "pendingNotification" content).bind b64decodeValue).bind
      cfg.lib.decodePendingNotification = some (.profileInstallationResult pird euiccSignPIR))
    (hid : pird.transactionId = tid)
    (hletter : ¬ ∀ c ∈ (hexText true tid).toList, c.isDigit) :
    handleNotification cfg content s = (.ok none, s) ∧
      ¬ Closes cfg content s (hexText true tid) pird.finalResult := by
  have hunknown : s.rss (cfg.lib.b2h pird.transactionId) = none := by
    rw [hlib.b2h_eq, hid]
    cases hother : s.rss (hexText false tid) with
    | none => rfl
    | some other =>
      obtain ⟨bs, hbs⟩ := hkeyed _ _ hother
      have hlower := digits_of_lower_eq_upper hbs
      rw [hexText_digits hlower true] at hletter
      exact absurd hlower hletter
  have hhandle : handleNotification cfg content s = (.ok none, s) := by
    simp only [handleNotification, hdecode, hunknown]
  refine ⟨hhandle, fun hcloses => ?_⟩
  obtain ⟨hrss, -⟩ := hcloses
  rw [hhandle] at hrss
  have hgone := congrFun hrss (hexText true tid)
  rw [Function.update_self] at hgone
  rw [hgone] at hlive
  cases hlive

/-- **A delivered result closes its session** exactly if the identifier has decimal digits only and
the result is not a success, or there is no record to change. -/
theorem closes_iff (hlib : Hexadecimal cfg.lib) (hs : Reachable (step cfg) Server.new s)
    {transactionId : String} {euiccCert : Cert}
    (hcert : (s.rss transactionId).bind Session.euiccCert = some euiccCert)
    (hdecode : ((getItem "pendingNotification" content).bind b64decodeValue).bind
      cfg.lib.decodePendingNotification = some (.profileInstallationResult pird euiccSignPIR))
    (hid : cfg.lib.h2b transactionId = some pird.transactionId)
    (hsigned : (cfg.lib.encodeProfileInstallationResultData pird).bind
      (cfg.lib.ecdsaVerify euiccCert euiccSignPIR) = some true) :
    Closes cfg content s transactionId pird.finalResult ↔
      (∀ c ∈ transactionId.toList, c.isDigit) ∧ (pird.finalResult.isSuccess = true →
        ∀ r ∈ records s.downloadHistory.history, recordId r ≠ some transactionId) := by
  obtain ⟨hkeyed, hids⟩ := reachable_forms hs
  obtain ⟨ss, hss, hauthenticated⟩ := Option.bind_eq_some_iff.1 hcert
  obtain ⟨bs, rfl⟩ := hkeyed _ _ hss
  rw [hlib.h2b_hexText, Option.some.injEq] at hid
  by_cases hdigits : ∀ c ∈ (hexText true bs).toList, c.isDigit
  · have hkey : cfg.lib.b2h pird.transactionId = hexText true bs := by
      rw [hlib.b2h_eq, ← hid, hexText_digits hdigits false]
    have hverify : ((cfg.lib.encodeProfileInstallationResultData pird).bind fun pirdBin =>
        ss.euiccCert.bind fun euiccCert =>
          cfg.lib.ecdsaVerify euiccCert euiccSignPIR pirdBin) = some true := by
      rw [hauthenticated]
      exact hsigned
    have hpair : isStr "success" pird.finalResult.value = false := by
      cases pird.finalResult <;> rfl
    obtain ⟨store', hupdate, hset, hsame⟩ :=
      updateDownload_identified hids (hexText true bs) "failed" pird.finalResult.value
    have hhandle : (handleNotification cfg content s).2 =
        ⟨Function.update s.rss (hexText true bs) none, store'⟩ := by
      simp only [handleNotification, hdecode, hkey, hss, hverify, hpair, hupdate,
        Bool.false_eq_true, if_false]
    unfold Closes
    rw [hhandle]
    simp only [statusSet_iff hset hsame, true_and]
    constructor
    · rintro ⟨status, hsuccess, hstatus⟩
      refine ⟨hdigits, fun h => ?_⟩
      rcases hstatus with rfl | hnone
      · exact absurd (hsuccess.2 h) (by decide)
      · exact hnone
    · rintro ⟨-, h⟩
      cases hresult : pird.finalResult.isSuccess with
      | false => exact ⟨"failed", by decide, Or.inl rfl⟩
      | true => exact ⟨"success", by decide, Or.inr (h hresult)⟩
  · have hlive : (s.rss (hexText true bs)).isSome := hss ▸ rfl
    have hnot := (not_closes_of_letter hlib hkeyed hlive hdecode hid.symm hdigits).2
    exact ⟨fun hcloses => absurd hcloses hnot, fun h => absurd h.1 hdigits⟩

end

/-! ## A notification that is lost -/

theorem reachable_after (es : List (Env × Request)) :
    Reachable (step cfg) Server.new (after cfg es) := by
  have key : ∀ s, Reachable (step cfg) Server.new s →
      Reachable (step cfg) Server.new (es.foldl (fun s e => (serve cfg e.1 e.2 s).2) s) := by
    induction es with
    | nil =>
      intro s hs
      exact hs
    | cons e es ih =>
      intro s hs
      exact ih _ (hs.step (e := e) rfl)
  exact key _ .init

theorem hexVal_hexChar : ∀ n : Fin 16,
    Lpa.hexVal (UInt8.ofNat (hexChar true n).toNat) = some n.val := by decide

theorem lettered_hexadecimal : Hexadecimal lettered.config.lib where
  b2h_eq _ := rfl
  h2b_hexText bs := by
    change Lpa.hexPairs ((hexText true bs).toList.map fun c => UInt8.ofNat c.toNat) = some bs
    rw [hexText, String.toList_ofList]
    induction bs with
    | nil => rfl
    | cons b bs ih =>
      have hb := b.toNat_lt
      have hhigh := hexVal_hexChar ⟨b.toNat / 16, by omega⟩
      have hlow := hexVal_hexChar ⟨b.toNat % 16, by omega⟩
      have hbyte : UInt8.ofNat (16 * (b.toNat / 16) + b.toNat % 16) = b := by
        rw [Nat.div_add_mod, UInt8.ofNat_toNat]
      simp only [List.flatMap_cons, List.map_cons, List.cons_append, List.nil_append,
        Lpa.hexPairs] at ih hhigh hlow ⊢
      simp only [hhigh, hlow, ih, Option.map_some, hbyte]

/-- The body of the notification. -/
def sampleContent : Value :=
  .dict [("pendingNotification", .str (b64encode2str lettered.notification))]

/-- The server when it has sent the package. -/
def sampleServer : Server ℕ :=
  after lettered.config [lettered.start, lettered.authenticate, lettered.getPackage]

theorem sampleServer_reachable : Reachable (step lettered.config) Server.new sampleServer :=
  reachable_after _

theorem lettered_facts : ids lettered.recorded.history =
      [some (hexText true lettered.transactionId)] ∧
    'A' ∈ (hexText true lettered.transactionId).toList := by
  decide +kernel

/-- The session is authenticated, and its download is in the history. -/
theorem sampleServer_live :
    (sampleServer.rss (hexText true lettered.transactionId)).bind Session.euiccCert = some 2 ∧
      ids sampleServer.downloadHistory.history =
        [some (hexText true lettered.transactionId)] := by
  obtain ⟨hverify, hverify', -⟩ := verify_facts.1 lettered (by simp)
  obtain ⟨-, -, hbound⟩ := exchange_run (by simp) hverify hverify'
  have hserver : sampleServer = lettered.server (some lettered.bound) lettered.recorded := hbound
  rw [hserver, server_rss]
  exact ⟨rfl, lettered_facts.1⟩

theorem sampleContent_decoded :
    ((getItem "pendingNotification" sampleContent).bind b64decodeValue).bind
      lettered.config.lib.decodePendingNotification =
        some (.profileInstallationResult lettered.result
          (sampleSignature lettered.euiccSignPIR)) := by
  have hdecode : lettered.config.lib.decodePendingNotification =
    only lettered.notification (some (.profileInstallationResult lettered.result
      (sampleSignature lettered.euiccSignPIR))) none := rfl
  rw [sampleContent, getItem_notification, Option.bind_some, hdecode, only_self]

theorem sampleResult_signed :
    (lettered.config.lib.encodeProfileInstallationResultData lettered.result).bind
      (lettered.config.lib.ecdsaVerify 2 (sampleSignature lettered.euiccSignPIR)) = some true := by
  obtain ⟨-, -, hverify⟩ := verify_facts.1 lettered (by simp)
  have hencode : lettered.config.lib.encodeProfileInstallationResultData =
    only lettered.result (some lettered.resultDer) none := rfl
  rw [hencode, only_self, Option.bind_some]
  exact hverify

theorem closes_iff_sample :
    Closes lettered.config sampleContent sampleServer (hexText true lettered.transactionId)
        lettered.result.finalResult ↔
      (∀ c ∈ (hexText true lettered.transactionId).toList, c.isDigit) ∧
        (lettered.result.finalResult.isSuccess = true →
          ∀ r ∈ records sampleServer.downloadHistory.history,
            recordId r ≠ some (hexText true lettered.transactionId)) := by
  have hid : lettered.config.lib.h2b (hexText true lettered.transactionId) =
      some lettered.result.transactionId := lettered_hexadecimal.h2b_hexText _
  exact closes_iff lettered_hexadecimal sampleServer_reachable sampleServer_live.1
    sampleContent_decoded hid sampleResult_signed

/-- **The notification is lost.** The card's signed notification about a success is answered like
any other, and leaves the session and the record as they are. -/
theorem closes_fails :
    Reachable (step lettered.config) Server.new sampleServer ∧
    (sampleServer.rss (hexText true lettered.transactionId)).bind Session.euiccCert = some 2 ∧
    ids sampleServer.downloadHistory.history = [some (hexText true lettered.transactionId)] ∧
    ((getItem "pendingNotification" sampleContent).bind b64decodeValue).bind
      lettered.config.lib.decodePendingNotification =
        some (.profileInstallationResult lettered.result
          (sampleSignature lettered.euiccSignPIR)) ∧
    (lettered.config.lib.encodeProfileInstallationResultData lettered.result).bind
      (lettered.config.lib.ecdsaVerify 2 (sampleSignature lettered.euiccSignPIR)) = some true ∧
    handleNotification lettered.config sampleContent sampleServer = (.ok none, sampleServer) ∧
    ¬ Closes lettered.config sampleContent sampleServer (hexText true lettered.transactionId)
      lettered.result.finalResult := by
  obtain ⟨hcert, hids⟩ := sampleServer_live
  have hlive : (sampleServer.rss (hexText true lettered.transactionId)).isSome := by
    obtain ⟨ss, hss, -⟩ := Option.bind_eq_some_iff.1 hcert
    exact Option.isSome_iff_exists.2 ⟨ss, hss⟩
  have hletter : ¬ ∀ c ∈ (hexText true lettered.transactionId).toList, c.isDigit :=
    fun hdigits => absurd (hdigits 'A' lettered_facts.2) (by decide)
  have hkeyed : Keyed sampleServer.rss := (reachable_forms sampleServer_reachable).1
  have hlost := @not_closes_of_letter _ _ lettered.config _ _ _ _ lettered_hexadecimal hkeyed _
    hlive sampleContent_decoded rfl hletter
  exact ⟨sampleServer_reachable, hcert, hids, sampleContent_decoded, sampleResult_signed, hlost⟩

end VirtualRsp.Smdp.Es9
