import Mathlib.Data.List.Induction
import VirtualRsp.Foundations.JsonText

/-!
# The download history of the server

`DownloadHistoryStore` keeps records of downloads in memory and writes all of them to a file after
every change. A new server loads the file. Failures to write or load are logged and go unnoticed.

* `history_durable`: as long as the results that are recorded have a form in JSON, what a new server
  would load is the history, up to tuples that JSON turns into lists, and no record is lost.
* `history_fails`: a result with an octet string leaves a file that does not load any more.
-/

namespace VirtualRsp.Smdp

open JsonText

/-! ## Dictionaries -/

/-- `v[key]`. -/
def getItem (key : String) : Value → Option Value
  | .dict kvs => kvs.lookup key
  | _ => none

/-- `kvs[key] = value`. -/
def setItem (key : String) (value : Value) : List (String × Value) → List (String × Value)
  | [] => [(key, value)]
  | (k, v) :: kvs => if k = key then (k, value) :: kvs else (k, v) :: setItem key value kvs

/-- Whether a value counts as true. -/
def truthy : Value → Bool
  | .null => false
  | .int i => i ≠ 0
  | .str s => s ≠ ""
  | .bytes bs => !bs.isEmpty
  | .tuple items | .list items => !items.isEmpty
  | .dict kvs => !kvs.isEmpty

/-- `v == s` for a string. -/
def isStr (s : String) : Value → Bool
  | .str s' => s' = s
  | _ => false

/-! ## The store -/

/-- The store: the text of the file, if there is one, and the history in memory. -/
structure DownloadHistoryStore where
  file : Option (List Token)
  history : Value

namespace DownloadHistoryStore

/-- The history that a new store has for a file. What cannot be loaded counts as nothing. -/
def load_ : Option (List Token) → Value
  | none => .list []
  | some text => (load text).getD (.list [])

/-- Write the history over the file. When the writer stops, the file keeps what was written. -/
def save_ (s : DownloadHistoryStore) : DownloadHistoryStore :=
  { s with file := some (write s.history).1 }

/-- Append a record. -/
def recordDownload (transactionId eid iccid matchingId status timestamp : String)
    (s : DownloadHistoryStore) : Option DownloadHistoryStore :=
  let record : Value := .dict
    [("transaction_id", .str transactionId), ("eid", .str eid), ("iccid", .str iccid),
      ("matching_id", .str matchingId), ("status", .str status), ("timestamp", .str timestamp),
      ("final_result", .null)]
  match s.history with
  | .list items => some (save_ { s with history := .list (items ++ [record]) })
  | _ => none

/-- Change a record. -/
def updateRecord (status : String) (finalResult : Value) (kvs : List (String × Value)) : Value :=
  let kvs := setItem "status" (.str status) kvs
  .dict (if truthy finalResult then setItem "final_result" finalResult kvs else kvs)

/-- Change the first record of the transaction. The inner `none` means that there is none. -/
def updateLoop (transactionId status : String) (finalResult : Value) :
    List Value → Option (Option (List Value))
  | [] => some none
  | record :: records => do
    let id ← getItem "transaction_id" record
    if isStr transactionId id then
      match record with
      | .dict kvs => return some (updateRecord status finalResult kvs :: records)
      | _ => none
    else
      let found ← updateLoop transactionId status finalResult records
      return found.map (record :: ·)

/-- Update the record of a transaction, if there is one. -/
def updateDownload (transactionId status : String) (finalResult : Value)
    (s : DownloadHistoryStore) : Option DownloadHistoryStore := do
  match s.history with
  | .list items =>
    match ← updateLoop transactionId status finalResult items with
    | some items => return save_ { s with history := .list items }
    | none => return s
  | _ => none

/-- What happens to a store. -/
inductive Op
  | recordDownload (transactionId eid iccid matchingId status timestamp : String)
  | updateDownload (transactionId status : String) (finalResult : Value)
  | restart

/-- One operation; an exception leaves the store as it was. -/
def step (s : DownloadHistoryStore) : Op → DownloadHistoryStore
  | .recordDownload transactionId eid iccid matchingId status timestamp =>
    (recordDownload transactionId eid iccid matchingId status timestamp s).getD s
  | .updateDownload transactionId status finalResult =>
    (updateDownload transactionId status finalResult s).getD s
  | .restart => { s with history := load_ s.file }

/-- A store without a file. -/
def new : DownloadHistoryStore := ⟨none, load_ none⟩

/-! ## What a step does -/

/-- The records of a history. -/
def records : Value → List Value
  | .list items => items
  | _ => []

/-- The result that the operation writes into a record, if it writes one. -/
def storedResult (s : DownloadHistoryStore) : Op → Option Value
  | .updateDownload transactionId status finalResult =>
    match updateLoop transactionId status finalResult (records s.history) with
    | some (some _) => if truthy finalResult then some finalResult else none
    | _ => none
  | _ => none

/-- The transaction that a record is about. -/
def recordId (record : Value) : Option String :=
  match getItem "transaction_id" record with
  | some (.str s) => some s
  | _ => none

/-- The transactions that a history is about. -/
def ids (history : Value) : List (Option String) := (records history).map recordId

theorem lookup_setItem_of_ne {key key' : String} (h : key ≠ key') (value : Value)
    (kvs : List (String × Value)) : (setItem key value kvs).lookup key' = kvs.lookup key' := by
  have hne : (key' == key) = false := beq_false_of_ne h.symm
  induction kvs with
  | nil => simp [setItem, List.lookup_cons, hne]
  | cons kv kvs ih =>
    obtain ⟨k, v⟩ := kv
    rw [setItem]
    split_ifs with hk
    · subst hk
      simp [List.lookup_cons, hne]
    · simp [List.lookup_cons, ih]

theorem mem_setItem {key : String} {value : Value} {kvs : List (String × Value)}
    {kv : String × Value} (h : kv ∈ setItem key value kvs) : kv.2 = value ∨ kv ∈ kvs := by
  induction kvs with
  | nil =>
    rw [setItem, List.mem_singleton] at h
    exact Or.inl (by rw [h])
  | cons kv' kvs ih =>
    obtain ⟨k, v⟩ := kv'
    rw [setItem] at h
    split_ifs at h with hk
    · rcases List.mem_cons.1 h with rfl | h
      · exact Or.inl rfl
      · exact Or.inr (List.mem_cons_of_mem _ h)
    · rcases List.mem_cons.1 h with rfl | h
      · exact Or.inr List.mem_cons_self
      · rcases ih h with h | h
        · exact Or.inl h
        · exact Or.inr (List.mem_cons_of_mem _ h)

theorem updateLoop_eq_some {transactionId status : String} {finalResult : Value}
    {items items' : List Value}
    (h : updateLoop transactionId status finalResult items = some (some items')) :
    ∃ before kvs after, items = before ++ .dict kvs :: after ∧
      items' = before ++ updateRecord status finalResult kvs :: after := by
  induction items generalizing items' with
  | nil => simp [updateLoop] at h
  | cons record records ih =>
    unfold updateLoop at h
    obtain ⟨id, -, h⟩ := Option.bind_eq_some_iff.1 h
    split at h
    · cases record with
      | dict kvs =>
        cases h
        exact ⟨[], kvs, records, rfl, rfl⟩
      | _ => cases h
    · obtain ⟨found, hfound, h⟩ := Option.bind_eq_some_iff.1 h
      cases found with
      | none => cases h
      | some items =>
        cases h
        obtain ⟨before, kvs, after, rfl, rfl⟩ := ih hfound
        exact ⟨record :: before, kvs, after, rfl, rfl⟩

/-- A record that is new. -/
def NewRecord (record : Value) : Prop :=
  ∃ kvs, record = .dict kvs ∧ ∀ kv ∈ kvs, kv.2 = .null ∨ ∃ s, kv.2 = .str s

/-- **What an operation does**: nothing, or a new record and a save, or a change of a record and
a save, or a restart. -/
theorem step_cases (s : DownloadHistoryStore) (op : Op) :
    step s op = s ∨
    (∃ items record, s.history = .list items ∧ NewRecord record ∧
      step s op = save_ { s with history := .list (items ++ [record]) }) ∨
    (∃ before kvs after status finalResult, s.history = .list (before ++ .dict kvs :: after) ∧
      storedResult s op = (if truthy finalResult then some finalResult else none) ∧
      step s op = save_ { s with
        history := .list (before ++ updateRecord status finalResult kvs :: after) }) ∨
    step s op = { s with history := load_ s.file } := by
  cases op with
  | recordDownload transactionId eid iccid matchingId status timestamp =>
    unfold step recordDownload
    cases hs : s.history with
    | list items =>
      refine Or.inr (Or.inl ⟨items, _, rfl, ⟨_, rfl, ?_⟩, rfl⟩)
      simp
    | _ => exact Or.inl rfl
  | updateDownload transactionId status finalResult =>
    unfold step updateDownload
    cases hs : s.history with
    | list items =>
      cases hloop : updateLoop transactionId status finalResult items with
      | none => exact Or.inl (by simp [hloop])
      | some found =>
        cases found with
        | none => exact Or.inl (by simp [hloop])
        | some items' =>
          obtain ⟨before, kvs, after, rfl, rfl⟩ := updateLoop_eq_some hloop
          refine Or.inr (Or.inr (Or.inl ⟨before, kvs, after, status, finalResult, rfl, ?_, ?_⟩))
          · simp only [storedResult, hs, records, hloop]
          · simp [hloop]
    | _ => exact Or.inl rfl
  | restart => exact Or.inr (Or.inr (Or.inr rfl))

/-! ## Properties of all the values in a history -/

/-- A property of values that holds of a list or a dictionary when it holds of what is in it. -/
structure Hereditary (P : Value → Prop) : Prop where
  null : P .null
  str : ∀ s, P (.str s)
  list : ∀ items, P (.list items) ↔ ∀ v ∈ items, P v
  dict : ∀ kvs, P (.dict kvs) ↔ ∀ kv ∈ kvs, P kv.2

theorem hereditary_written : Hereditary fun v => (write v).2 = true where
  null := rfl
  str _ := rfl
  list _ := write_list_snd
  dict _ := write_dict_snd

theorem map_eq_self_iff {α : Type*} {f : α → α} {xs : List α} :
    xs.map f = xs ↔ ∀ x ∈ xs, f x = x := by
  simpa using List.map_inj_left (l := xs) (f := f) (g := id)

theorem hereditary_loaded : Hereditary fun v => v.loaded = v where
  null := by rw [Value.loaded]
  str s := by rw [Value.loaded]
  list items := by rw [Value.loaded, loadedItems_eq_map, Value.list.injEq, map_eq_self_iff]
  dict kvs := by
    rw [Value.loaded, loadedPairs_eq_map, Value.dict.injEq, map_eq_self_iff]
    simp [Prod.ext_iff]

theorem Hereditary.updateRecord {P : Value → Prop} (hP : Hereditary P) {status : String}
    {finalResult : Value} (hresult : truthy finalResult → P finalResult)
    {kvs : List (String × Value)} (h : P (.dict kvs)) :
    P (updateRecord status finalResult kvs) := by
  have hset : ∀ (key : String) (value : Value) (kvs : List (String × Value)), P value →
      P (.dict kvs) → P (.dict (setItem key value kvs)) := by
    intro key value kvs hvalue hkvs
    refine (hP.dict _).2 fun kv hkv => ?_
    rcases mem_setItem hkv with heq | hmem
    · exact heq ▸ hvalue
    · exact (hP.dict _).1 hkvs kv hmem
  unfold DownloadHistoryStore.updateRecord
  split_ifs with htruthy
  · exact hset _ _ _ (hresult htruthy) (hset _ _ _ (hP.str _) h)
  · exact hset _ _ _ (hP.str _) h

/-- A step keeps the property, if the result that it stores and the file have it. -/
theorem Hereditary.step {P : Value → Prop} (hP : Hereditary P) {s : DownloadHistoryStore} {op : Op}
    (hstored : ∀ r, storedResult s op = some r → P r) (hfile : P (load_ s.file))
    (h : P s.history) : P (step s op).history := by
  rcases step_cases s op with hs | ⟨items, record, hitems, ⟨kvs, rfl, hkvs⟩, hs⟩ |
    ⟨before, kvs, after, status, finalResult, hitems, hresult, hs⟩ | hs
  · rwa [hs]
  · rw [hs]
    rw [hitems, hP.list] at h
    refine (hP.list _).2 (List.forall_mem_append.2 ⟨h, List.forall_mem_singleton.2 ?_⟩)
    refine (hP.dict _).2 fun kv hkv => ?_
    rcases hkvs kv hkv with heq | ⟨s, heq⟩
    · exact heq ▸ hP.null
    · exact heq ▸ hP.str s
  · rw [hs]
    rw [hitems, hP.list, List.forall_mem_append, List.forall_mem_cons] at h
    obtain ⟨hbefore, hkvs, hafter⟩ := h
    refine (hP.list _).2 (List.forall_mem_append.2 ⟨hbefore, List.forall_mem_cons.2 ⟨?_, hafter⟩⟩)
    refine hP.updateRecord (fun htruthy => hstored _ ?_) hkvs
    rw [hresult, if_pos htruthy]
  · rwa [hs]

/-! ## Transactions -/

theorem recordId_loaded (v : Value) : recordId v.loaded = recordId v := by
  cases v with
  | dict kvs =>
    have hlookup : ∀ kvs : List (String × Value),
        (loadedPairs kvs).lookup "transaction_id" =
          (kvs.lookup "transaction_id").map Value.loaded := by
      intro kvs
      induction kvs with
      | nil => rfl
      | cons kv kvs ih =>
        obtain ⟨k, v⟩ := kv
        rw [loadedPairs, List.lookup_cons, List.lookup_cons]
        split
        · rfl
        · exact ih
    unfold recordId getItem
    rw [Value.loaded]
    simp only [hlookup]
    cases kvs.lookup "transaction_id" with
    | none => rfl
    | some id => cases id <;> simp [Value.loaded]
  | _ => simp [Value.loaded, recordId, getItem]

theorem ids_loaded (items : List Value) : ids (Value.list items).loaded = ids (.list items) := by
  rw [Value.loaded, loadedItems_eq_map, ids, ids, records, records, List.map_map]
  exact List.map_congr_left fun v _ => recordId_loaded v

theorem recordId_updateRecord (status : String) (finalResult : Value)
    (kvs : List (String × Value)) :
    recordId (updateRecord status finalResult kvs) = recordId (.dict kvs) := by
  have hstatus : "status" ≠ "transaction_id" := by decide
  have hresult : "final_result" ≠ "transaction_id" := by decide
  unfold recordId getItem updateRecord
  split_ifs with htruthy
  · simp only [lookup_setItem_of_ne hresult, lookup_setItem_of_ne hstatus]
  · simp only [lookup_setItem_of_ne hstatus]

/-! ## Runs -/

/-- The history is a list that has a form in JSON, and the file loads to this form. -/
structure Durable (s : DownloadHistoryStore) : Prop where
  isList : ∃ items, s.history = .list items
  written : (write s.history).2 = true
  file : load_ s.file = s.history.loaded

theorem durable_save {s : DownloadHistoryStore} {items : List Value}
    (hitems : s.history = .list items) (h : (write s.history).2 = true) : Durable (save_ s) where
  isList := ⟨items, hitems⟩
  written := h
  file := by
    have hload := load_write h
    simp only [save_, load_, hload, Option.getD_some]

theorem durable_new : Durable new where
  isList := ⟨[], rfl⟩
  written := rfl
  file := rfl

theorem loaded_loaded {v : Value} (h : (write v).2 = true) : v.loaded.loaded = v.loaded := by
  have hload := load_write (v := v.loaded) (by rw [write_loaded, h])
  rw [write_loaded, load_write h] at hload
  exact (Option.some.inj hload).symm

theorem Durable.step {s : DownloadHistoryStore} {op : Op} (h : Durable s)
    (hstored : ∀ r, storedResult s op = some r → (write r).2 = true) : Durable (step s op) := by
  have hfile : (write (load_ s.file)).2 = true := by rw [h.file, write_loaded, h.written]
  have hwritten := hereditary_written.step hstored hfile h.written
  rcases step_cases s op with hs | ⟨items, record, -, -, hs⟩ | ⟨before, kvs, after, status,
    finalResult, -, -, hs⟩ | hs
  · rwa [hs]
  · rw [hs] at hwritten ⊢
    exact durable_save rfl hwritten
  · rw [hs] at hwritten ⊢
    exact durable_save rfl hwritten
  · obtain ⟨items, hitems⟩ := h.isList
    rw [hs] at hwritten ⊢
    refine ⟨⟨loadedItems items, ?_⟩, hwritten, ?_⟩
    · rw [h.file, hitems, Value.loaded]
    · rw [h.file, loaded_loaded h.written]

/-- No step loses a transaction. -/
theorem step_ids {s : DownloadHistoryStore} (op : Op) (h : Durable s) :
    ∃ later, ids (step s op).history = ids s.history ++ later := by
  rcases step_cases s op with hs | ⟨items, record, hitems, -, hs⟩ | ⟨before, kvs, after, status,
    finalResult, hitems, -, hs⟩ | hs
  · exact ⟨[], by rw [hs, List.append_nil]⟩
  · refine ⟨[recordId record], ?_⟩
    rw [hs, hitems]
    exact List.map_append
  · refine ⟨[], ?_⟩
    rw [hs, hitems, List.append_nil]
    simp only [save_, ids, records, List.map_append, List.map_cons, recordId_updateRecord]
  · obtain ⟨items, hitems⟩ := h.isList
    exact ⟨[], by rw [hs, List.append_nil, h.file, hitems, ids_loaded]⟩

/-- The store after a sequence of operations. -/
def run (ops : List Op) : DownloadHistoryStore := ops.foldl step new

/-- Every result that is stored on the way has the property. -/
def Stores (P : Value → Prop) (ops : List Op) : Prop :=
  ∀ before op after, ops = before ++ op :: after → ∀ r, storedResult (run before) op = some r → P r

theorem run_concat (ops : List Op) (op : Op) : run (ops ++ [op]) = step (run ops) op := by
  rw [run, List.foldl_append]
  rfl

theorem Stores.init {P : Value → Prop} {ops later : List Op} (h : Stores P (ops ++ later)) :
    Stores P ops := by
  rintro before op after rfl
  exact h before op (after ++ later) (by simp)

theorem Stores.last {P : Value → Prop} {ops : List Op} {op : Op} (h : Stores P (ops ++ [op])) :
    ∀ r, storedResult (run ops) op = some r → P r :=
  h ops op [] rfl

theorem durable_run {ops : List Op} (h : Stores (fun r => (write r).2 = true) ops) :
    Durable (run ops) := by
  induction ops using List.reverseRecOn with
  | nil => exact durable_new
  | append_singleton ops op ih =>
    rw [run_concat]
    exact (ih h.init).step h.last

theorem run_ids {before after : List Op}
    (h : Stores (fun r => (write r).2 = true) (before ++ after)) :
    ∃ later, ids (run (before ++ after)).history = ids (run before).history ++ later := by
  induction after using List.reverseRecOn with
  | nil => exact ⟨[], by rw [List.append_nil, List.append_nil]⟩
  | append_singleton after op ih =>
    rw [← List.append_assoc] at h ⊢
    obtain ⟨later, hlater⟩ := ih h.init
    obtain ⟨last, hlast⟩ := step_ids op (durable_run h.init)
    exact ⟨later ++ last, by rw [run_concat, hlast, hlater, List.append_assoc]⟩

theorem run_loaded {ops : List Op} (h : Stores (fun r => (write r).2 = true) ops)
    (hloaded : Stores (fun r => r.loaded = r) ops) :
    (run ops).history.loaded = (run ops).history := by
  induction ops using List.reverseRecOn with
  | nil => rfl
  | append_singleton ops op ih =>
    have hprev := ih h.init hloaded.init
    rw [run_concat]
    refine hereditary_loaded.step hloaded.last ?_ hprev
    rw [(durable_run h.init).file, hprev, hprev]

/-- **Durability.** If every result that is stored has a form in JSON, a new server loads the
history, with lists for tuples, and finds every earlier transaction in it; if the results contain no
tuples, it loads the history as it is. -/
theorem history_durable (ops : List Op) (h : Stores (fun r => (write r).2 = true) ops) :
    load_ (run ops).file = (run ops).history.loaded ∧
      (∀ before after, ops = before ++ after →
        ∃ later, ids (load_ (run ops).file) = ids (run before).history ++ later) ∧
      (Stores (fun r => r.loaded = r) ops → load_ (run ops).file = (run ops).history) := by
  have hdurable := durable_run h
  refine ⟨hdurable.file, ?_, fun hloaded => by rw [hdurable.file, run_loaded h hloaded]⟩
  rintro before after rfl
  obtain ⟨items, hitems⟩ := hdurable.isList
  obtain ⟨later, hlater⟩ := run_ids h
  refine ⟨later, ?_⟩
  rw [hdurable.file, hitems, ids_loaded, ← hitems, hlater]

/-- A download that is recorded, and fails. -/
def sampleOps : List Op :=
  [.recordDownload "A1" "8904" "8949" "TS48" "bpp_sent" "2025-01-01T00:00:00Z",
    .updateDownload "A1" "failed" (.str "Signature verification failed"), .restart]

theorem sampleOps_stores {P : Value → Prop} (hP : ∀ s, P (.str s)) : Stores P sampleOps := by
  intro before op after h r hr
  cases op with
  | updateDownload transactionId status finalResult =>
    have hmem : Op.updateDownload transactionId status finalResult ∈ sampleOps := by
      rw [h]
      exact List.mem_append_right _ List.mem_cons_self
    simp only [sampleOps, List.mem_cons, reduceCtorEq, Op.updateDownload.injEq, List.not_mem_nil,
      or_false, false_or] at hmem
    obtain ⟨-, -, rfl⟩ := hmem
    simp only [storedResult] at hr
    split at hr
    · split_ifs at hr
      cases hr
      exact hP _
    · cases hr
  | _ => cases hr

theorem history_durable_sample : Stores (fun r => (write r).2 = true) sampleOps ∧
    load_ (run sampleOps).file = (run sampleOps).history.loaded ∧
      (∀ before after, sampleOps = before ++ after →
        ∃ later, ids (load_ (run sampleOps).file) = ids (run before).history ++ later) ∧
      (Stores (fun r => r.loaded = r) sampleOps →
        load_ (run sampleOps).file = (run sampleOps).history) :=
  ⟨sampleOps_stores fun _ => rfl, history_durable sampleOps (sampleOps_stores fun _ => rfl)⟩

/-- A second download that succeeds: the result has octet strings. -/
def sampleSuccess : List Op :=
  sampleOps ++ [.recordDownload "A2" "8904" "8949" "TS48" "bpp_sent" "2025-01-01T00:01:00Z",
    .updateDownload "A2" "failed" (.tuple [.str "successResult",
      .dict [("aid", .bytes [0xA0, 0, 0, 5, 0x59]), ("simaResponse", .bytes [0x30, 0])]])]

/-- Both records are in memory, and none is loaded any more. -/
theorem history_fails : ids (run sampleSuccess).history = [some "A1", some "A2"] ∧
    load_ (run sampleSuccess).file = .list [] :=
  ⟨rfl, rfl⟩

end DownloadHistoryStore

end VirtualRsp.Smdp
