import Mathlib.Data.List.DropRight
import VirtualRsp.Lpa.Dialogue
import VirtualRsp.Lpa.Notifications

/-!
# Sending notifications to their servers

The applets `process`, `remove` and `dump` of the LPA do something for every notification of the
card, or for the numbers that they are given. `process` retrieves a notification, posts it to the
server that it names, and on request removes it from the card. `replay` is to post what `dump` has
printed.

`process_log` is about all that a run of `process` says to the card and to the servers: rounds that
are complete (`Processed`), one for each number, in order, up to the first that fails
(`Interrupted`). So nothing is removed that was not posted before.

`replay` takes the result of its parser for an error code, and when it leaves it frees pointers that
were never set or that a JSON tree has freed before: `replay_faults`.
-/

namespace VirtualRsp.Lpa.Notifications

open Program Protocol

variable {σ : Type}

/-! ## Posting -/

/-- `es9p_handle_notification`; the body of the answer is not looked at. -/
def handleNotification (c : CJson) (p : Partner σ) (serverAddress b64PendingNotification : Bytes) :
    Program (Dialogue σ) Unit := do
  let answer ← p.post
    (ascii "https://" ++ serverAddress ++ ascii "/gsma/rsp2/es9plus/handleNotification")
    (c.printUnformatted (.object [(ascii "pendingNotification", .string b64PendingNotification)]))
  if answer.1 / 100 = 2 then pure () else .fail

/-! ## Numbers -/

/-- `isspace`. -/
def isspace (c : UInt8) : Bool := c = 0x20 || 0x09 ≤ c && c ≤ 0x0D

/-- `isdigit`. -/
def isdigit (c : UInt8) : Bool := 0x30 ≤ c && c ≤ 0x39

/-- What `strtoul` makes of a text: the value, where it has stopped, and whether `errno` is set. -/
structure Conversion where
  value : ℕ
  strEnd : Bytes
  errno : Bool

/-- The digits of a text behind blanks and a sign, with the sign and what is behind them. -/
def signAndDigits (nptr : Bytes) : Bool × Bytes × Bytes :=
  let s := nptr.dropWhile isspace
  let t := if s.head? = some 0x2B ∨ s.head? = some 0x2D then s.drop 1 else s
  (s.head? = some 0x2D, t.takeWhile isdigit, t.dropWhile isdigit)

/-- `strtoul` with the base 10. -/
def strtoul (nptr : Bytes) : Conversion :=
  let (negative, digits, rest) := signAndDigits nptr
  let n := digits.foldl (fun n c => 10 * n + (c.toNat - 0x30)) 0
  if digits = [] then ⟨0, nptr, false⟩
  else if 2 ^ 64 ≤ n then ⟨2 ^ 64 - 1, rest, true⟩
  else ⟨if negative then (2 ^ 64 - n) % 2 ^ 64 else n, rest, false⟩

/-- The number of an argument, kept in 32 bits. An argument that was converted to zero is skipped,
and one that was not converted at all stands for zero. -/
def seqNumberOf (arg : Bytes) : Option ℕ :=
  let c := strtoul arg
  if (c.value = 0 ∧ arg ≠ c.strEnd) ∨ c.errno then none else some (c.value % 2 ^ 32)

/-! ## The applets -/

/-- `notification_strstrip`. -/
def notificationStrstrip (input : Bytes) : Bytes :=
  ((input.dropWhile isspace).reverse.dropWhile isspace).reverse

/-- What the applets are called with. -/
structure Options where
  all : Bool
  autoremove : Bool
  args : List Bytes

/-- The sequence numbers in a list, kept in 32 bits. -/
def listedNumbers (l : LinkedList NotificationMetadata) : Option (List ℕ) :=
  l.toList.map (List.map fun rptr => rptr.seqNumber % 2 ^ 32)

/-- The sequence numbers that an applet is to go through. -/
def seqNumbers (p : Partner σ) (options : Options) : Program (Dialogue σ) (List ℕ) :=
  if options.all then do
    let notifications ← listNotification p.send
    liftFault ((listedNumbers notifications).map some)
  else pure (options.args.filterMap seqNumberOf)

/-- The loop of three applets. -/
def forNotifications (p : Partner σ) (options : Options)
    (single : ℕ → Program (Dialogue σ) Unit) : Program (Dialogue σ) Unit := do
  each single (← seqNumbers p options)

/-- `_process_single`. -/
def processSingle (c : CJson) (p : Partner σ) (autoremove : Bool) (seqNumber : ℕ) :
    Program (Dialogue σ) Unit := do
  let notification ← retrieveNotificationsList p.send seqNumber
  handleNotification c p (notificationStrstrip (cstr notification.notificationAddress))
    notification.b64PendingNotification
  if autoremove then do
    let ret ← removeNotificationFromList p.send seqNumber
    if ret = 0 then pure () else .fail
  else pure ()

/-- The applet `process`. -/
def process (c : CJson) (p : Partner σ) (options : Options) : Program (Dialogue σ) Unit :=
  forNotifications p options (processSingle c p options.autoremove)

/-- `_delete_single`. -/
def deleteSingle (p : Partner σ) (seqNumber : ℕ) : Program (Dialogue σ) Unit := do
  let ret ← removeNotificationFromList p.send seqNumber
  if ret = 0 then pure () else .fail

/-- The applet `remove`. -/
def remove (p : Partner σ) (options : Options) : Program (Dialogue σ) Unit :=
  forNotifications p options (deleteSingle p)

/-- The identifier in a response, whatever the number of its digits is as an `int`. -/
def readEid (respbuf : Bytes) : Option (Option Bytes) :=
  match (findTag 0xBF3E respbuf).bind fun tmpnode => findTag 0x5A tmpnode.value with
  | none => some none
  | some tmpnode =>
    (bin2hex ((tmpnode.value.length * 2 + 1) % 2 ^ 32) tmpnode.value).map Prod.fst

/-- `es10c_get_eid`. -/
def getEid (command : Bytes → Program σ Bytes) : Program σ Bytes := do
  let respbuf ← command (pack 0xBF3E (pack 0x5C [0x5A]))
  liftFault (readEid respbuf)

/-- `build_notification`. -/
def buildNotification (eid : Bytes) (seqNumber : ℕ) (notification : PendingNotification) : Json :=
  .object [(ascii "type", .string (ascii "notification")), (ascii "eid", .string eid),
    (ascii "seqNumber", .number seqNumber),
    (ascii "notificationAddress",
      .string (notificationStrstrip (cstr notification.notificationAddress))),
    (ascii "pendingNotification", .string notification.b64PendingNotification)]

/-- `retrieve_notification` of the applet `dump`. -/
def retrieveNotification (c : CJson) (p : Partner σ) (eid : Bytes) (seqNumber : ℕ) :
    Program (Dialogue σ) Unit := do
  let notification ← retrieveNotificationsList p.send seqNumber
  printLine (c.printUnformatted (buildNotification eid seqNumber notification))

/-- The applet `dump`. -/
def dump (c : CJson) (p : Partner σ) (options : Options) : Program (Dialogue σ) Unit := do
  let eid ← getEid p.send
  forNotifications p options (retrieveNotification c p eid)

/-! ## What `process` says -/

variable {c : CJson} {p : Partner σ}

/-- The commands to retrieve and to remove the notification with a number. -/
def retrieveCommand (seqNumber : ℕ) : Bytes :=
  pack 0xBF2B (pack 0xA0 (pack 0x80 (Convert.longBytes seqNumber)))

def removeCommand (seqNumber : ℕ) : Bytes := pack 0xBF30 (pack 0x80 (Convert.longBytes seqNumber))

/-- The command that asks for the EID. -/
def eidCommand : Bytes := pack 0xBF3E (pack 0x5C [0x5A])

/-- The post of a notification. -/
def postOf (c : CJson) (notification : PendingNotification) (answer : Option (ℕ × Bytes)) :
    Exchange :=
  .post (ascii "https://" ++ notificationStrstrip (cstr notification.notificationAddress) ++
      ascii "/gsma/rsp2/es9plus/handleNotification")
    (c.printUnformatted
      (.object [(ascii "pendingNotification", .string notification.b64PendingNotification)])) answer

/-- A notification is retrieved and posted, and the status code is one of success. -/
def Delivered (c : CJson) (seqNumber : ℕ) (log : List Exchange) : Prop :=
  ∃ respbuf notification answer, readPending respbuf = some (some notification) ∧
    answer.1 / 100 = 2 ∧ log = [.command (retrieveCommand seqNumber) (some respbuf),
      postOf c notification (some answer)]

/-- A notification is delivered, and then it is removed if it is to be. -/
def Processed (c : CJson) (autoremove : Bool) (seqNumber : ℕ) (log : List Exchange) : Prop :=
  ∃ delivery removal, log = delivery ++ removal ∧ Delivered c seqNumber delivery ∧
    if autoremove then ∃ respbuf, readRemoval respbuf = some 0 ∧
      removal = [.command (removeCommand seqNumber) (some respbuf)]
    else removal = []

/-- The notification is not retrieved, or the post fails, or it is delivered but not removed. -/
inductive Interrupted (c : CJson) (autoremove : Bool) (seqNumber : ℕ) : List Exchange → Prop
  | retrieve {response : Option Bytes} (h : response.elim (some none) readPending = some none) :
    Interrupted c autoremove seqNumber [.command (retrieveCommand seqNumber) response]
  | post {respbuf : Bytes} {notification : PendingNotification} {answer : Option (ℕ × Bytes)}
    (h : readPending respbuf = some (some notification)) (hfail : ∀ a ∈ answer, a.1 / 100 ≠ 2) :
    Interrupted c autoremove seqNumber [.command (retrieveCommand seqNumber) (some respbuf),
      postOf c notification answer]
  | remove {delivery : List Exchange} {response : Option Bytes} (hauto : autoremove = true)
    (h : Delivered c seqNumber delivery) (hfail : response.bind readRemoval ≠ some 0) :
    Interrupted c autoremove seqNumber
      (delivery ++ [.command (removeCommand seqNumber) response])

/-- The rounds for some numbers, up to the first that fails. `Done` and `Failed` say what a round
says. -/
def Rounds (Done Failed : ℕ → List Exchange → Prop) (ns : List ℕ) (r : Option Unit)
    (log : List Exchange) : Prop :=
  ∃ done logs last, log = logs.flatten ++ last ∧ List.Forall₂ Done done logs ∧
    ((r = some () ∧ ns = done ∧ last = []) ∨
      ∃ n rest, r = none ∧ ns = done ++ n :: rest ∧ Failed n last)

/-- What a round says, as it has ended. -/
def Says (Done Failed : ℕ → List Exchange → Prop) (single : ℕ → Program (Dialogue σ) Unit) : Prop :=
  ∀ ⦃n d t r⦄, n < 2 ^ 32 → single n d = some (t, r) → ∃ log, t.log = d.log ++ log ∧
    ((r = some () ∧ Done n log) ∨ (r = none ∧ Failed n log))

/-! ## One notification -/

variable {d t : Dialogue σ}

/-- A number of 32 bits takes at most five bytes. -/
theorem length_longBytes_le {n : ℕ} (hn : n < 2 ^ 32) : (Convert.longBytes n).length ≤ 5 := by
  obtain ⟨hpos, -, hmin⟩ :=
    Convert.requiredLen_spec (show n < 2 ^ 63 by omega) 7 1 Nat.one_pos rfl (.inl rfl)
  rw [Convert.longBytes, Der.length_beBytes]
  by_contra hlong
  have hpow : 256 ^ 5 ≤ 256 ^ (requiredLen n 7 1 1 - 1) :=
    Nat.pow_le_pow_right (by decide) (by omega)
  omega

theorem seqNumberBuf_eq {n : ℕ} (hn : n < 2 ^ 32) :
    seqNumberBuf n = some (Convert.longBytes n) := by
  have hlen := length_longBytes_le hn
  rw [Convert.longBytes, Der.length_beBytes] at hlen
  rw [seqNumberBuf, convertLong2bin, if_neg (by omega)]
  rfl

theorem removeRequest_eq {n : ℕ} (hn : n < 2 ^ 32) :
    removeRequest n = some (removeCommand n) := by
  have hlen := length_longBytes_le hn
  have h80 := Der.length_tlv_le 0x80 (v := Convert.longBytes n) (by omega)
  have hBF30 := Der.length_tlv_le 0xBF30 (v := Der.tlv 0x80 (Convert.longBytes n)) (by omega)
  rw [removeRequest, seqNumberBuf_eq hn]
  simp only [removeCommand, pack, Der.encode_eq, Option.bind_eq_bind, Option.bind_some]
  rw [if_pos (by omega)]

theorem retrieveRequest_eq {n : ℕ} (hn : n < 2 ^ 32) :
    retrieveRequest n = some (retrieveCommand n) := by
  have hlen := length_longBytes_le hn
  have h80 := Der.length_tlv_le 0x80 (v := Convert.longBytes n) (by omega)
  have hA0 := Der.length_tlv_le 0xA0 (v := Der.tlv 0x80 (Convert.longBytes n)) (by omega)
  have hBF2B := Der.length_tlv_le 0xBF2B
    (v := Der.tlv 0xA0 (Der.tlv 0x80 (Convert.longBytes n))) (by omega)
  rw [retrieveRequest, seqNumberBuf_eq hn]
  simp only [retrieveCommand, pack, Der.encode_eq, Option.bind_eq_bind, Option.bind_some]
  rw [if_pos (by omega)]

/-- **Retrieving** is one command. -/
theorem retrieve_log {n : ℕ} (hn : n < 2 ^ 32) {r : Option PendingNotification}
    (h : retrieveNotificationsList p.send n d = some (t, r)) :
    ∃ response, t.log = d.log ++ [.command (retrieveCommand n) response] ∧
      some r = response.elim (some none) readPending := by
  rw [retrieveNotificationsList, retrieveRequest_eq hn] at h
  exact send_liftFault h

/-- **Removing** is one command. -/
theorem removal_log {n : ℕ} (hn : n < 2 ^ 32) {r : Option ℕ}
    (h : removeNotificationFromList p.send n d = some (t, r)) :
    ∃ response, t.log = d.log ++ [.command (removeCommand n) response] ∧
      r = response.bind readRemoval := by
  rw [removeNotificationFromList, removeRequest_eq hn] at h
  exact send_ofOption h

/-- **Posting** succeeds with a status code of success. -/
theorem handleNotification_log {notification : PendingNotification} {r : Option Unit}
    (h : handleNotification c p (notificationStrstrip (cstr notification.notificationAddress))
      notification.b64PendingNotification d = some (t, r)) :
    ∃ answer, t.log = d.log ++ [postOf c notification answer] ∧
      ((r = some () ∧ ∃ a, answer = some a ∧ a.1 / 100 = 2) ∨
        (r = none ∧ ∀ a ∈ answer, a.1 / 100 ≠ 2)) := by
  obtain ⟨hpost, rfl⟩ | ⟨answer, u, hpost, h⟩ := bind_cases h
  · exact ⟨none, post_log hpost, .inr ⟨rfl, fun a ha => by cases ha⟩⟩
  · refine ⟨some answer, ?_⟩
    split at h
    · rename_i hcode
      cases h
      exact ⟨post_log hpost, .inl ⟨rfl, answer, rfl, hcode⟩⟩
    · rename_i hcode
      cases h
      refine ⟨post_log hpost, .inr ⟨rfl, fun a ha => ?_⟩⟩
      cases ha
      exact hcode

/-- Removing with the check of the result code. -/
theorem removed_log {n : ℕ} (hn : n < 2 ^ 32) {r : Option Unit}
    (h : deleteSingle p n d = some (t, r)) :
    ∃ response, t.log = d.log ++ [.command (removeCommand n) response] ∧
      (r = some () ↔ response.bind readRemoval = some 0) := by
  obtain ⟨hremove, rfl⟩ | ⟨ret, u, hremove, h⟩ := bind_cases h
  · obtain ⟨response, hlog, hnone⟩ := removal_log hn hremove
    exact ⟨response, hlog, by simp [← hnone]⟩
  · obtain ⟨response, hlog, hret⟩ := removal_log hn hremove
    refine ⟨response, ?_, ?_⟩
    · rw [← hlog]
      split at h <;> cases h <;> rfl
    · rw [← hret]
      split at h
      · rename_i h0
        cases h
        exact iff_of_true rfl (congrArg some h0)
      · rename_i h0
        cases h
        exact iff_of_false (by simp) fun h => h0 (Option.some.inj h)

/-- **One round** of `process`. -/
theorem processSingle_says {autoremove : Bool} :
    Says (Processed c autoremove) (Interrupted c autoremove) (processSingle c p autoremove) := by
  intro n d t r hn h
  obtain ⟨hretrieve, rfl⟩ | ⟨notification, u, hretrieve, h⟩ := bind_cases h
  · obtain ⟨response, hlog, hnone⟩ := retrieve_log hn hretrieve
    exact ⟨_, hlog, .inr ⟨rfl, .retrieve hnone.symm⟩⟩
  obtain ⟨response, hlog, hread⟩ := retrieve_log hn hretrieve
  obtain ⟨respbuf, rfl, hpending⟩ := response_of_read hread
  obtain ⟨hpost, rfl⟩ | ⟨_, v, hpost, h⟩ := bind_cases h
  · obtain ⟨answer, hlog', ⟨hr, -⟩ | ⟨-, hfail⟩⟩ := handleNotification_log hpost
    · cases hr
    · exact ⟨[.command (retrieveCommand n) (some respbuf), postOf c notification answer],
        by simp [hlog', hlog], .inr ⟨rfl, .post hpending hfail⟩⟩
  obtain ⟨answer, hlog', ⟨-, a, rfl, hcode⟩ | ⟨hr, -⟩⟩ := handleNotification_log hpost
  swap
  · cases hr
  have hdelivered : Delivered c n [.command (retrieveCommand n) (some respbuf),
      postOf c notification (some a)] := ⟨respbuf, notification, a, hpending, hcode, rfl⟩
  have hv : v.log = d.log ++ [.command (retrieveCommand n) (some respbuf),
      postOf c notification (some a)] := by simp [hlog', hlog]
  cases autoremove with
  | false =>
    cases h
    exact ⟨_, hv, .inl ⟨rfl, _, [], by simp, hdelivered, rfl⟩⟩
  | true =>
    obtain ⟨response, hlog'', hiff⟩ := removed_log hn h
    refine ⟨_, by rw [hlog'', hv, List.append_assoc], ?_⟩
    cases r with
    | none => exact .inr ⟨rfl, .remove rfl hdelivered fun h0 => by simpa using hiff.2 h0⟩
    | some u =>
      obtain ⟨respbuf', rfl, h0⟩ := Option.bind_eq_some_iff.1 (hiff.1 rfl)
      exact .inl ⟨rfl, _, _, rfl, hdelivered, respbuf', h0, rfl⟩

/-! ## The whole run -/

variable {Done Failed : ℕ → List Exchange → Prop} {single : ℕ → Program (Dialogue σ) Unit}

theorem done_of_returns (hsingle : Says Done Failed single) {ns : List ℕ}
    (hns : ∀ n ∈ ns, n < 2 ^ 32) (h : (each single ns).Returns d () t) :
    ∃ logs, t.log = d.log ++ logs.flatten ∧ List.Forall₂ Done ns logs := by
  induction ns generalizing d with
  | nil =>
    obtain rfl := returns_each_nil.1 h
    exact ⟨[], by simp, .nil⟩
  | cons n ns ih =>
    rw [List.forall_mem_cons] at hns
    obtain ⟨u, hu, h⟩ := returns_each_cons.1 h
    obtain ⟨log, hlog, ⟨-, hdone⟩ | ⟨hr, -⟩⟩ := hsingle hns.1 hu
    · obtain ⟨logs, hlogs, hall⟩ := ih hns.2 h
      exact ⟨log :: logs, by simp [hlogs, hlog], .cons hdone hall⟩
    · cases hr

/-- **Rounds** for some numbers are all that is said about them. -/
theorem rounds_of_each (hsingle : Says Done Failed single) {ns : List ℕ}
    (hns : ∀ n ∈ ns, n < 2 ^ 32) {r : Option Unit} (h : each single ns d = some (t, r)) :
    ∃ log, t.log = d.log ++ log ∧ Rounds Done Failed ns r log := by
  obtain ⟨h, rfl⟩ | ⟨done, n, rest, u, rfl, hdone, hn, rfl⟩ := each_cases h
  · obtain ⟨logs, hlogs, hall⟩ := done_of_returns hsingle hns h
    exact ⟨logs.flatten, hlogs, ns, logs, [], by simp, hall, .inl ⟨rfl, rfl, rfl⟩⟩
  · rw [List.forall_mem_append, List.forall_mem_cons] at hns
    obtain ⟨logs, hlogs, hall⟩ := done_of_returns hsingle hns.1 hdone
    obtain ⟨last, hlast, ⟨hr, -⟩ | ⟨-, hfailed⟩⟩ := hsingle hns.2.1 hn
    · cases hr
    · exact ⟨logs.flatten ++ last, by rw [hlast, hlogs, List.append_assoc], done, logs, last, rfl,
        hall, .inr ⟨n, rest, rfl, rfl, hfailed⟩⟩

/-- What is said before the first round, and the numbers that come of it: those of the arguments, or
those in the card's answer. -/
def Chosen (options : Options) (ns : Option (List ℕ)) (log : List Exchange) : Prop :=
  if options.all then ∃ response, log = [.command (pack 0xBF28 []) response] ∧
    some ns = response.elim (some none) fun respbuf => do
      let l ← readList respbuf
      l.elim (some none) fun l => (listedNumbers l).map some
  else log = [] ∧ ns = some (options.args.filterMap seqNumberOf)

theorem seqNumbers_log {options : Options} {r : Option (List ℕ)}
    (h : seqNumbers p options d = some (t, r)) :
    ∃ log, t.log = d.log ++ log ∧ Chosen options r log := by
  rw [seqNumbers] at h
  by_cases hall : options.all = true
  · rw [if_pos hall] at h
    simp only [Chosen, if_pos hall]
    obtain ⟨hlist, rfl⟩ | ⟨notifications, u, hlist, h⟩ := bind_cases h
    · obtain ⟨response, hlog, hread⟩ := send_liftFault hlist
      refine ⟨_, hlog, response, rfl, ?_⟩
      cases response with
      | none => rfl
      | some respbuf =>
        change some none = readList respbuf at hread
        simp [← hread]
    · obtain ⟨response, hlog, hread⟩ := send_liftFault hlist
      obtain ⟨ns, hns, h⟩ := Option.map_eq_some_iff.1 h
      cases h
      refine ⟨_, hlog, response, rfl, ?_⟩
      cases response with
      | none => cases hread
      | some respbuf =>
        change some (some notifications) = readList respbuf at hread
        simp [← hread, hns]
  · rw [if_neg hall] at h
    cases h
    exact ⟨[], by simp, by rw [Chosen, if_neg hall]; exact ⟨rfl, rfl⟩⟩

theorem seqNumberOf_lt {arg : Bytes} {n : ℕ} (h : seqNumberOf arg = some n) : n < 2 ^ 32 := by
  rw [seqNumberOf] at h
  split at h
  · cases h
  · cases h
    exact Nat.mod_lt _ (by decide)

theorem lt_of_listedNumbers {l : LinkedList NotificationMetadata} {ns : List ℕ}
    (h : listedNumbers l = some ns) : ∀ n ∈ ns, n < 2 ^ 32 := by
  obtain ⟨entries, -, rfl⟩ := Option.map_eq_some_iff.1 h
  rw [List.forall_mem_map]
  exact fun _ _ => Nat.mod_lt _ (by decide)

/-- The numbers have 32 bits. -/
theorem lt_of_chosen {options : Options} {ns : List ℕ} {log : List Exchange}
    (h : Chosen options (some ns) log) : ∀ n ∈ ns, n < 2 ^ 32 := by
  rw [Chosen] at h
  split at h
  · obtain ⟨response, -, h⟩ := h
    cases response with
    | none => cases h
    | some respbuf =>
      obtain ⟨_ | l, -, h⟩ := Option.bind_eq_some_iff.1 h.symm
      · cases h
      · obtain ⟨ns', hns', h⟩ := Option.map_eq_some_iff.1 h
        cases h
        exact lt_of_listedNumbers hns'
  · obtain ⟨-, h⟩ := h
    cases h
    intro n hn
    obtain ⟨arg, -, harg⟩ := List.mem_filterMap.1 hn
    exact seqNumberOf_lt harg

/-- The numbers, and then the rounds for them. -/
def Whole (Done Failed : ℕ → List Exchange → Prop) (options : Options) (r : Option Unit)
    (log : List Exchange) : Prop :=
  ∃ start ns rounds, log = start ++ rounds ∧ Chosen options ns start ∧
    ns.elim (rounds = [] ∧ r = none) fun ns => Rounds Done Failed ns r rounds

theorem forNotifications_log (hsingle : Says Done Failed single) {options : Options}
    {r : Option Unit} (h : forNotifications p options single d = some (t, r)) :
    ∃ log, t.log = d.log ++ log ∧ Whole Done Failed options r log := by
  obtain ⟨hnumbers, rfl⟩ | ⟨ns, u, hnumbers, h⟩ := bind_cases h
  · obtain ⟨start, hlog, hchosen⟩ := seqNumbers_log hnumbers
    exact ⟨start, hlog, start, none, [], by simp, hchosen, rfl, rfl⟩
  · obtain ⟨start, hlog, hchosen⟩ := seqNumbers_log hnumbers
    obtain ⟨rounds, hrounds, hall⟩ := rounds_of_each hsingle (lt_of_chosen hchosen) h
    exact ⟨start ++ rounds, by rw [hrounds, hlog, List.append_assoc], start, some ns, rounds, rfl,
      hchosen, hall⟩

/-- **All that `process` says**: the list command if it is to process all notifications, and then
one round for each number, in order, up to the first that fails. Every number that is removed was
retrieved and posted with success just before. -/
theorem process_log {options : Options} {r : Option Unit}
    (h : process c p options d = some (t, r)) :
    ∃ log, t.log = d.log ++ log ∧ Whole (Processed c options.autoremove)
      (Interrupted c options.autoremove) options r log :=
  forNotifications_log processSingle_says h

/-- **All that `remove` says**: one command for each number, up to the first that is not answered
with the code zero. -/
theorem remove_log {options : Options} {r : Option Unit} (h : remove p options d = some (t, r)) :
    ∃ log, t.log = d.log ++ log ∧ Whole
      (fun n log => ∃ respbuf, readRemoval respbuf = some 0 ∧
        log = [.command (removeCommand n) (some respbuf)])
      (fun n log => ∃ response : Option Bytes, response.bind readRemoval ≠ some 0 ∧
        log = [.command (removeCommand n) response]) options r log := by
  refine forNotifications_log ?_ h
  intro n d t r hn h
  obtain ⟨response, hlog, hiff⟩ := removed_log hn h
  refine ⟨_, hlog, ?_⟩
  cases r with
  | none => exact .inr ⟨rfl, response, fun h0 => by simpa using hiff.2 h0, rfl⟩
  | some u =>
    obtain ⟨respbuf, rfl, h0⟩ := Option.bind_eq_some_iff.1 (hiff.1 rfl)
    exact .inl ⟨rfl, respbuf, h0, rfl⟩

/-- A notification is retrieved and printed. -/
def Printed (c : CJson) (eid : Bytes) (n : ℕ) (log : List Exchange) : Prop :=
  ∃ respbuf notification, readPending respbuf = some (some notification) ∧
    log = [.command (retrieveCommand n) (some respbuf),
      .print (c.printUnformatted (buildNotification eid n notification))]

/-- A notification is not retrieved. -/
def NotRetrieved (n : ℕ) (log : List Exchange) : Prop :=
  ∃ response : Option Bytes, response.elim (some none) readPending = some none ∧
    log = [.command (retrieveCommand n) response]

theorem retrieveNotification_says {eid : Bytes} :
    Says (Printed c eid) NotRetrieved (retrieveNotification c p eid) := by
  intro n d t r hn h
  obtain ⟨hretrieve, rfl⟩ | ⟨notification, v, hretrieve, h⟩ := bind_cases h
  · obtain ⟨response, hlog, hnone⟩ := retrieve_log hn hretrieve
    exact ⟨_, hlog, .inr ⟨rfl, response, hnone.symm, rfl⟩⟩
  · obtain ⟨response, hlog, hsome⟩ := retrieve_log hn hretrieve
    obtain ⟨respbuf, rfl, hpending⟩ := response_of_read hsome
    cases h
    exact ⟨_, by simp [hlog], .inl ⟨rfl, respbuf, notification, hpending, rfl⟩⟩

/-- **All that `dump` says**: the command for the EID, and then one command for each number, with a
line for what is retrieved. -/
theorem dump_log {options : Options} {r : Option Unit} (h : dump c p options d = some (t, r)) :
    ∃ response log, t.log = d.log ++ .command eidCommand response :: log ∧
      ((log = [] ∧ r = none) ∨ ∃ eid, response.elim (some none) readEid = some (some eid) ∧
        Whole (Printed c eid) NotRetrieved options r log) := by
  obtain ⟨heid, rfl⟩ | ⟨eid, u, heid, h⟩ := bind_cases h
  · obtain ⟨response, hlog, -⟩ := send_liftFault heid
    exact ⟨response, [], hlog, .inl ⟨rfl, rfl⟩⟩
  · obtain ⟨response, hlog, hread⟩ := send_liftFault heid
    obtain ⟨log, hlog', hwhole⟩ := forNotifications_log retrieveNotification_says h
    have ht : t.log = d.log ++ .command eidCommand response :: log := by
      rw [hlog', hlog, List.append_assoc]
      rfl
    exact ⟨response, log, ht, .inr ⟨eid, hread.symm, hwhole⟩⟩

/-! ## A card with one notification -/

/-- A card that has the notification 5, and a server that accepts everything. -/
def samplePartner : Partner Unit where
  command request := fun s => some (s, some
    (if request = retrieveCommand 5 then
      Der.tlv 0xBF2B (Der.tlv 0xA0 (Der.tlv 0x30 (Der.tlv 0xBF2F (Der.tlv 0x0C (ascii "smdp ")))))
    else Der.tlv 0xBF30 (Der.tlv 0x80 [if request = removeCommand 5 then 0 else 1])))
  transmit _ _ := fun s => some (s, some (200, []))

/-- A JSON library that prints nothing. -/
def sampleJson : CJson := ⟨fun _ => [], fun _ => none⟩

/-- `process -r 5 0 7`: the zero is skipped. -/
def sampleRun : Option (Dialogue Unit × Option Unit) :=
  process sampleJson samplePartner ⟨false, true, [ascii "5", ascii "0", ascii "7"]⟩ ⟨(), []⟩

theorem isSome_sampleRun : sampleRun.isSome = true := by decide +kernel

theorem process_log_sample :
    ∃ log, (sampleRun.get isSome_sampleRun).1.log = [] ++ log ∧
      Whole (Processed sampleJson true) (Interrupted sampleJson true)
        ⟨false, true, [ascii "5", ascii "0", ascii "7"]⟩ (sampleRun.get isSome_sampleRun).2 log :=
  process_log (Option.some_get isSome_sampleRun).symm

/-! ## Replaying -/

/-- A pointer of a structure on the stack: not set yet, or to a text inside of a JSON tree, which
may have been deleted. -/
inductive TreePointer
  | unset
  | live (value : Bytes)
  | deleted

/-- `struct es10b_pending_notification` on the stack. -/
structure PendingSlot where
  notificationAddress : TreePointer
  b64PendingNotification : TreePointer

/-- The structure as it is declared. -/
def PendingSlot.init : PendingSlot := ⟨.unset, .unset⟩

/-- What `cJSON_Delete` makes of a pointer into the tree. -/
def TreePointer.delete : TreePointer → TreePointer
  | .unset => .unset
  | _ => .deleted

/-- `cJSON_Delete` on the tree that the structure points into. -/
def PendingSlot.delete (notification : PendingSlot) : PendingSlot :=
  ⟨notification.notificationAddress.delete, notification.b64PendingNotification.delete⟩

/-- `free`: only memory that was allocated, and not freed yet. -/
def TreePointer.free : TreePointer → Option Unit
  | .live _ => some ()
  | _ => none

/-- `es10b_pending_notification_free`. -/
def PendingSlot.free (notification : PendingSlot) : Option Unit := do
  notification.notificationAddress.free
  notification.b64PendingNotification.free

/-- `parse_notification`: whether the object is a notification of the card, and the structure as far
as it was filled. -/
def parseNotification (jroot : Json) (eid : Bytes) (notification : PendingSlot) :
    Bool × PendingSlot :=
  match getObjectItem jroot (ascii "type") with
  | some (.string value) =>
    if value ≠ ascii "notification" then (false, notification)
    else
      match getObjectItem jroot (ascii "eid") with
      | some (.string value) =>
        if value ≠ eid then (false, notification)
        else
          match getObjectItem jroot (ascii "seqNumber") with
          | some (.number _) =>
            match getObjectItem jroot (ascii "notificationAddress") with
            | some (.string value) =>
              let notification :=
                { notification with notificationAddress := .live (notificationStrstrip value) }
              match getObjectItem jroot (ascii "pendingNotification") with
              | some (.string value) =>
                (true, { notification with b64PendingNotification := .live value })
              | _ => (false, notification)
            | _ => (false, notification)
          | _ => (false, notification)
      | _ => (false, notification)
  | _ => (false, notification)

/-- `handle_notification`: a pointer without a text faults. -/
def handleSlot (c : CJson) (p : Partner σ) (notification : PendingSlot) :
    Program (Dialogue σ) Unit :=
  match notification.notificationAddress, notification.b64PendingNotification with
  | .live serverAddress, .live b64 => handleNotification c p serverAddress b64
  | _, _ => fun _ => none

/-- Leave the applet with a result: what the structure points to is freed. -/
def leave (notification : PendingSlot) (r : Option Unit) : Program (Dialogue σ) Unit := fun d =>
  notification.free.map fun _ => (d, r)

/-- Leave the applet if there is an error. -/
def orLeave (x : Program (Dialogue σ) Unit) (notification : PendingSlot) :
    Program (Dialogue σ) Unit := fun d =>
  match x d with
  | some (t, none) => leave notification none t
  | result => result

/-- The loop over the lines. The parser's `true` is taken for an error code. The tree of a line is
deleted at the end of its round, and before the structure when the round leaves the applet. -/
def replayLines (c : CJson) (p : Partner σ) (eid : Bytes) :
    List Bytes → PendingSlot → Program (Dialogue σ) Unit
  | [], notification => leave notification (some ())
  | input :: lines, notification =>
    match c.parse input with
    | none => leave notification none
    | some jroot =>
      let parsed := parseNotification jroot eid notification
      if parsed.1 then leave parsed.2.delete none
      else do
        orLeave (handleSlot c p parsed.2) parsed.2.delete
        replayLines c p eid lines parsed.2.delete

/-- The applet `replay`. -/
def replay (c : CJson) (p : Partner σ) (lines : List Bytes) : Program (Dialogue σ) Unit := do
  let eid ← getEid p.send
  replayLines c p eid lines .init

/-- Without a notification of the card, the second pointer is not set. -/
theorem parseNotification_false {jroot : Json} {eid : Bytes} {notification : PendingSlot}
    (h : (parseNotification jroot eid notification).1 = false) :
    (parseNotification jroot eid notification).2.b64PendingNotification =
      notification.b64PendingNotification := by
  rw [parseNotification] at h ⊢
  repeat' split at h
  all_goals grind

theorem handleSlot_unset {notification : PendingSlot}
    (h : notification.b64PendingNotification = .unset) : handleSlot c p notification d = none := by
  rw [handleSlot, h]
  cases notification.notificationAddress <;> rfl

theorem leave_unset {notification : PendingSlot} {r : Option Unit}
    (h : notification.b64PendingNotification = .unset) : leave notification r d = none := by
  rw [leave, PendingSlot.free, h]
  cases notification.notificationAddress <;> rfl

/-- What points into a tree cannot be freed once the tree is deleted. -/
theorem leave_delete (notification : PendingSlot) (r : Option Unit) :
    leave notification.delete r d = none := by
  rw [leave, PendingSlot.free, PendingSlot.delete]
  cases notification.notificationAddress <;> rfl

/-- **A line** of the input: the applet is left, or it goes on once the notification is posted. -/
theorem replayLines_cons (eid input : Bytes) (lines : List Bytes) (notification : PendingSlot) :
    replayLines c p eid (input :: lines) notification =
      match (c.parse input).map fun jroot => parseNotification jroot eid notification with
      | none => leave notification none
      | some (true, slot) => leave slot.delete none
      | some (false, slot) => orLeave (handleSlot c p slot) slot.delete >>= fun _ =>
        replayLines c p eid lines slot.delete := by
  rw [replayLines]
  cases c.parse input with
  | none => rfl
  | some jroot =>
    simp only [Option.map_some]
    rcases parseNotification jroot eid notification with ⟨_ | _, slot⟩ <;> rfl

/-- **The loop** faults: on leaving, or in the first round on reading the pointer. -/
theorem replayLines_init (eid : Bytes) (lines : List Bytes) :
    replayLines c p eid lines .init d = none := by
  cases lines with
  | nil => exact leave_unset rfl
  | cons input lines =>
    rw [replayLines_cons]
    cases c.parse input with
    | none => exact leave_unset rfl
    | some jroot =>
      have hunset := @parseNotification_false jroot eid .init
      rw [Option.map_some]
      generalize parseNotification jroot eid .init = parsed at hunset
      obtain ⟨_ | _, slot⟩ := parsed
      · have hfault := @handleSlot_unset _ c p d slot (hunset rfl)
        exact bind_of_faults (by rw [orLeave, hfault])
      · exact leave_delete slot none

theorem notificationStrstrip_idem (input : Bytes) :
    notificationStrstrip (notificationStrstrip input) = notificationStrstrip input := by
  have hhead : (notificationStrstrip input).dropWhile isspace = notificationStrstrip input := by
    rw [List.dropWhile_eq_self_iff]
    intro hpos
    have hprefix : notificationStrstrip input <+: input.dropWhile isspace :=
      List.rdropWhile_prefix isspace _
    rw [List.IsPrefix.getElem hprefix hpos]
    exact List.dropWhile_get_zero_not _ _ _
  rw [notificationStrstrip, hhead]
  exact List.rdropWhile_idempotent isspace _

/-- **What `dump` prints** is read back. -/
theorem parseNotification_buildNotification (eid : Bytes) (n : ℕ)
    (notification : PendingNotification) (slot : PendingSlot) :
    parseNotification (buildNotification eid n notification) eid slot =
      (true, ⟨.live (notificationStrstrip (cstr notification.notificationAddress)),
        .live notification.b64PendingNotification⟩) := by
  have htype : getObjectItem (buildNotification eid n notification) (ascii "type") =
    some (.string (ascii "notification")) := rfl
  have heid : getObjectItem (buildNotification eid n notification) (ascii "eid") =
    some (.string eid) := rfl
  have hnumber : getObjectItem (buildNotification eid n notification) (ascii "seqNumber") =
    some (.number n) := rfl
  have haddress : getObjectItem (buildNotification eid n notification)
      (ascii "notificationAddress") =
    some (.string (notificationStrstrip (cstr notification.notificationAddress))) := rfl
  have hpending : getObjectItem (buildNotification eid n notification)
      (ascii "pendingNotification") = some (.string notification.b64PendingNotification) := rfl
  simp only [parseNotification, htype, heid, hnumber, haddress, hpending,
    notificationStrstrip_idem, ne_eq, not_true_eq_false, if_false]

theorem getEid_log {r : Option Bytes} (h : getEid p.send d = some (t, r)) :
    ∃ response, t.log = d.log ++ [.command eidCommand response] := by
  obtain ⟨response, hlog, -⟩ := send_liftFault h
  exact ⟨response, hlog⟩

end VirtualRsp.Lpa.Notifications
