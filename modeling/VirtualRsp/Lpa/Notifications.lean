import VirtualRsp.Foundations.LinkedList
import VirtualRsp.Lpa.Conversions
import VirtualRsp.Lpa.ManageProfiles

/-!
# The notifications of the card

A card keeps a notification of every operation on a profile until the LPA tells it that the server
has got it. The LPA lists them, retrieves one of them by its sequence number, and removes one.

* `listNotification`, `retrieveNotificationsList`, `removeNotificationFromList`: the three commands;
* `listNotification_iff`: the list shows every notification, in order, exactly if every ICCID has
  octets and its digits are counted in a positive `int`; the text of an empty one is written outside
  of its memory.
-/

namespace VirtualRsp.Lpa.Notifications

open Program

variable {σ : Type}

/-! ## Listing -/

/-- `enum es10b_profile_management_operation`. -/
inductive ProfileManagementOperation
  | null
  | install
  | enable
  | disable
  | delete
  | undefined
  deriving DecidableEq

/-- The operation of the first byte of a bit string. -/
def ProfileManagementOperation.ofByte (b : UInt8) : ProfileManagementOperation :=
  if b = 0x80 then .install
  else if b = 0x40 then .enable
  else if b = 0x20 then .disable
  else if b = 0x10 then .delete
  else .undefined

/-- `struct es10b_notification_metadata_list`, without its link; a null pointer is `none`. -/
structure NotificationMetadata where
  seqNumber : ℕ
  profileManagementOperation : ProfileManagementOperation
  notificationAddress : Option Bytes
  iccid : Option Bytes
  deriving DecidableEq

/-- An entry before its fields have been read. -/
def NotificationMetadata.init : NotificationMetadata := ⟨0, .null, none, none⟩

/-- The text of an ICCID, in memory whose size is kept in 32 bits; without a text the pointer is
null. -/
def iccidText (value : Bytes) : Option (Option Bytes) :=
  bin2gsmbcd ((value.length * 2 + 1) % 2 ^ 32) value

/-- A field of an entry. -/
def readMetadataField (p : NotificationMetadata) (tmpnode : Node) : Option NotificationMetadata :=
  if tmpnode.tag = 0x80 then some { p with seqNumber := bin2long tmpnode.value }
  else if tmpnode.tag = 0x81 then
    some (tmpnode.value[1]?.elim p fun b => { p with profileManagementOperation := .ofByte b })
  else if tmpnode.tag = 0x0C then some { p with notificationAddress := some tmpnode.value }
  else if tmpnode.tag = 0x5A then
    (iccidText tmpnode.value).map fun iccid => { p with iccid := iccid }
  else some p

/-- An object of the list: other tags are skipped, and a new entry is linked behind `list_wptr`. -/
def readMetadata (n_NotificationMetadata : Node) :
    Program (LinkedList NotificationMetadata × ℕ) Unit := fun s =>
  if n_NotificationMetadata.tag ≠ 0xBF2F then some (s, some ())
  else do
    let p ← (unpackAll n_NotificationMetadata.value).foldlM readMetadataField .init
    let l ← (s.1.malloc p).link s.2 s.1.brk
    return ((l, s.1.brk), some ())

/-- The list in a response. -/
def readList (respbuf : Bytes) : Option (Option (LinkedList NotificationMetadata)) :=
  match (findTag 0xBF28 respbuf).bind fun tmpnode => findTag 0xA0 tmpnode.value with
  | none => some none
  | some n_notificationMetadataList =>
    (each readMetadata (unpackAll n_notificationMetadataList.value) (.empty, 0)).map
      fun r => r.2.map fun _ => r.1.1

/-- `es10b_list_notification`. -/
def listNotification (command : Bytes → Program σ Bytes) :
    Program σ (LinkedList NotificationMetadata) := do
  let respbuf ← command (pack 0xBF28 [])
  liftFault (readList respbuf)

/-! ## Retrieving -/

/-- `struct es10b_pending_notification`. -/
structure PendingNotification where
  notificationAddress : Bytes
  b64PendingNotification : Bytes
  deriving DecidableEq

/-- The bytes of a sequence number in a request. -/
def seqNumberBuf (seqNumber : ℕ) : Option Bytes := convertLong2bin 8 seqNumber

/-- The request for the notification with a number; it must fit a buffer of 255 bytes. -/
def retrieveRequest (seqNumber : ℕ) : Option Bytes := do
  let seqNumber_buf ← seqNumberBuf seqNumber
  let request := pack 0xBF2B (pack 0xA0 (pack 0x80 seqNumber_buf))
  if request.length ≤ 255 then some request else none

/-- The metadata in a notification. -/
def metadataOf (n_PendingNotification : Node) : Option Node :=
  if n_PendingNotification.tag = 0xBF37 then do
    let tmpnode ← findTag 0xBF27 n_PendingNotification.value
    findTag 0xBF2F tmpnode.value
  else findTag 0xBF2F n_PendingNotification.value

/-- The first notification in a response, and the data object with the address in it. -/
def findPending (respbuf : Bytes) : Option (Node × Node) := do
  let tmpnode ← findTag 0xBF2B respbuf
  let tmpnode ← findTag 0xA0 tmpnode.value
  let n_PendingNotification ← (unpackAll tmpnode.value).find? (·.tag ∈ [0xBF37, 0x30])
  let n_NotificationMetadata ← metadataOf n_PendingNotification
  let tmpnode ← findTag 0x0C n_NotificationMetadata.value
  return (n_PendingNotification, tmpnode)

/-- What the LPA takes from the response. -/
def readPending (respbuf : Bytes) : Option (Option PendingNotification) :=
  match findPending respbuf with
  | none => some none
  | some (n_PendingNotification, tmpnode) =>
    (Base64.encodeText n_PendingNotification.self).map
      (Option.map (PendingNotification.mk tmpnode.value))

/-- `es10b_retrieve_notifications_list`. -/
def retrieveNotificationsList (command : Bytes → Program σ Bytes) (seqNumber : ℕ) :
    Program σ PendingNotification := do
  let request ← .ofOption (retrieveRequest seqNumber)
  let respbuf ← command request
  liftFault (readPending respbuf)

/-! ## Removing -/

/-- The request to remove the notification with a number. -/
def removeRequest (seqNumber : ℕ) : Option Bytes := do
  let seqNumber_buf ← seqNumberBuf seqNumber
  let request := pack 0xBF30 (pack 0x80 seqNumber_buf)
  if request.length ≤ 255 then some request else none

/-- The result code in a response. -/
def readRemoval (respbuf : Bytes) : Option ℕ := do
  let tmpnode ← findTag 0xBF30 respbuf
  let tmpnode ← findTag 0x80 tmpnode.value
  return bin2int tmpnode.value

/-- `es10b_remove_notification_from_list`. -/
def removeNotificationFromList (command : Bytes → Program σ Bytes) (seqNumber : ℕ) :
    Program σ ℕ := do
  let request ← .ofOption (removeRequest seqNumber)
  let respbuf ← command request
  .ofOption (readRemoval respbuf)

/-! ## The list of a card -/

/-- A notification in the card's list. The operation is a bit string. -/
structure Notification where
  seqNumber : ℕ
  seqNumber_lt : seqNumber < 2 ^ 63
  unused : UInt8
  operations : Bytes
  notificationAddress : Bytes
  iccid : Option Bytes

namespace Notification

variable (n : Notification)

/-- The fields of its metadata. -/
def fields : List (ℕ × Bytes) :=
  [(0x80, Convert.longBytes n.seqNumber), (0x81, n.unused :: n.operations),
    (0x0C, n.notificationAddress)] ++ n.iccid.toList.map fun iccid => (0x5A, iccid)

/-- The operation of a bit string, if it has any bits. -/
def operation : ProfileManagementOperation := n.operations.head?.elim .null .ofByte

/-- The entry of a notification. -/
def shown : NotificationMetadata :=
  ⟨n.seqNumber, n.operation, some n.notificationAddress,
    n.iccid.map fun iccid => trimF (gsmbcdSwapChars (iccid.flatMap hexByte))⟩

/-- The ICCID has octets, and the number of its digits is a positive `int`. -/
def IccidFits : Prop := ∀ iccid ∈ n.iccid, iccid ≠ [] ∧ iccid.length < 2 ^ 30

/-- The objects that are read as the fields of an entry. -/
def nodes : List Node := n.fields.map fun x => Node.of x.1 x.2

/-- What becomes of the notification in the list. -/
def entry : Option NotificationMetadata := n.nodes.foldlM readMetadataField .init

end Notification

/-- The `ListNotificationResponse` of a card. -/
def listResponse (ns : List Notification) : Bytes :=
  Der.tlv 0xBF28 (Der.tlv 0xA0 (Der.tlvs (segments 0xBF2F (ns.map fun n => Der.tlvs n.fields))))

/-! ## Reading the list -/

variable {n : Notification} {ns : List Notification}

theorem iccidText_nil : iccidText [] = none := rfl

/-- The text of an ICCID that fits. -/
theorem iccidText_of_fits {value : Bytes} (hne : value ≠ []) (h : value.length < 2 ^ 30) :
    iccidText value = some (some (trimF (gsmbcdSwapChars (value.flatMap hexByte)))) := by
  have hhex : value.flatMap hexByte ≠ [] := by
    have hlen := length_flatMap_hexByte value
    have hpos := List.length_pos_of_ne_nil hne
    exact List.ne_nil_of_length_pos (by omega)
  have hint : asInt (2 * value.length) = (2 * value.length : ℕ) := asInt_of_lt (by omega)
  rw [iccidText, Nat.mod_eq_of_lt (by omega), bin2gsmbcd, bin2hex_of_lt (by omega) (by omega), hint]
  simp only [if_neg hhex]
  rw [if_neg (by omega)]

/-- Only an ICCID that fits has a text. -/
theorem fits_of_iccidText {value text : Bytes} (h : iccidText value = some (some text)) :
    value ≠ [] ∧ value.length < 2 ^ 30 := by
  refine ⟨fun hnil => ?_, ?_⟩
  · rw [hnil, iccidText_nil] at h
    cases h
  by_contra hlong
  rw [iccidText, bin2gsmbcd, bin2hex, if_neg (by omega)] at h
  by_cases hwrap : (value.length * 2 + 1) % 2 ^ 32 < 2 * value.length + 1
  · rw [if_pos hwrap] at h
    cases h
  · have hneg : asInt (2 * value.length % 2 ^ 32) < 0 := by
      rw [Nat.mod_eq_of_lt (by omega)]
      exact asInt_neg (by omega) (by omega)
    rw [if_neg hwrap] at h
    simp only [if_pos hneg, reduceCtorEq, Option.some.injEq] at h

/-- What is read before the ICCID. -/
theorem foldlM_nodes (n : Notification) :
    n.nodes.foldlM readMetadataField .init =
      match n.iccid with
      | none => some { n.shown with iccid := none }
      | some iccid => (iccidText iccid).map fun text => { n.shown with iccid := text } := by
  have hseq := Convert.bin2long_longBytes n.seqNumber_lt
  obtain ⟨seqNumber, hlt, unused, operations, notificationAddress, iccid⟩ := n
  have hbefore : [Node.of 0x80 (Convert.longBytes seqNumber), .of 0x81 (unused :: operations),
      .of 0x0C notificationAddress].foldlM readMetadataField .init =
      some ⟨seqNumber, operations.head?.elim .null .ofByte, some notificationAddress, none⟩ := by
    cases operations <;> simp [readMetadataField, NotificationMetadata.init, hseq]
  cases iccid with
  | none => exact hbefore
  | some iccid =>
    rw [Notification.nodes, Notification.fields, List.map_append, List.foldlM_append]
    change Option.bind (List.foldlM (m := Option) _ _ [_, _, _]) _ = _
    rw [hbefore, Option.bind_some]
    change Option.bind ((iccidText iccid).map _) some = _
    rw [Option.bind_fun_some]
    rfl

/-- **An entry shows the notification** exactly if the ICCID fits. -/
theorem entry_eq_iff : n.entry = some n.shown ↔ n.IccidFits := by
  rw [Notification.entry, foldlM_nodes]
  cases hiccid : n.iccid with
  | none => simp [Notification.shown, Notification.IccidFits, hiccid]
  | some iccid =>
    have hshown : n.shown = { n.shown with
        iccid := some (trimF (gsmbcdSwapChars (iccid.flatMap hexByte))) } := by
      simp [Notification.shown, hiccid]
    constructor
    · intro h iccid' hiccid'
      rw [hiccid] at hiccid'
      cases hiccid'
      obtain ⟨text, htext, h⟩ := Option.map_eq_some_iff.1 h
      rw [hshown] at h
      cases congrArg NotificationMetadata.iccid h
      exact fits_of_iccidText htext
    · intro h
      obtain ⟨hne, hlt⟩ := h iccid hiccid
      simp only [iccidText_of_fits hne hlt, Option.map_some]
      rw [← hshown]

theorem entry_of_nil (h : n.iccid = some []) : n.entry = none := by
  rw [Notification.entry, foldlM_nodes, h]
  simp only [iccidText_nil, Option.map_none]

/-- The data object of a notification in the list. -/
def Notification.node (n : Notification) : Node := .of 0xBF2F (Der.tlvs n.fields)

theorem isTag_fields (n : Notification) : ∀ t ∈ n.fields.map Prod.fst, Der.IsTag t := by
  cases h : n.iccid with
  | none =>
    rw [Notification.fields, h]
    change ∀ t ∈ [0x80, 0x81, 0x0C], Der.IsTag t
    decide
  | some iccid =>
    rw [Notification.fields, h]
    change ∀ t ∈ [0x80, 0x81, 0x0C, 0x5A], Der.IsTag t
    decide

theorem unpackAll_node (hlen : (Der.tlvs n.fields).length < 2 ^ 32) :
    unpackAll n.node.value = n.nodes :=
  unpackAll_tlvs (isTag_fields n) hlen

/-- **A notification** is linked behind the last one. -/
theorem returns_readMetadata {p : NotificationMetadata} (hentry : n.entry = some p)
    (hlen : (Der.tlvs n.fields).length < 2 ^ 32)
    {l : LinkedList NotificationMetadata} {last : ℕ} {xs : List (ℕ × NotificationMetadata)}
    (h : l.Growing last xs) :
    ∃ l', (readMetadata n.node).Returns (l, last) () (l', l.brk) ∧
      l'.Growing l.brk (xs ++ [(l.brk, p)]) := by
  obtain ⟨l', hlink, hgrowing⟩ := h.link p
  refine ⟨l', ?_, hgrowing⟩
  have htag : ¬ n.node.tag ≠ 0xBF2F := not_not.2 rfl
  rw [Notification.entry] at hentry
  rw [Returns, readMetadata, if_neg htag, unpackAll_node hlen, hentry]
  simp only [Option.bind_eq_bind, Option.bind_some, hlink]
  rfl

/-- It does not end with an error. -/
theorem entry_of_readMetadata (hlen : (Der.tlvs n.fields).length < 2 ^ 32)
    {s s' : LinkedList NotificationMetadata × ℕ} {r : Option Unit}
    (h : readMetadata n.node s = some (s', r)) : r = some () ∧ ∃ p, n.entry = some p := by
  have htag : ¬ n.node.tag ≠ 0xBF2F := not_not.2 rfl
  rw [readMetadata, if_neg htag, unpackAll_node hlen] at h
  obtain ⟨p, hp, h⟩ := Option.bind_eq_some_iff.1 h
  obtain ⟨l, -, h⟩ := Option.bind_eq_some_iff.1 h
  cases h
  exact ⟨rfl, p, hp⟩

/-- **All notifications.** -/
theorem returns_list {entries : Notification → NotificationMetadata}
    (hentries : ∀ n ∈ ns, n.entry = some (entries n))
    (hlen : ∀ n ∈ ns, (Der.tlvs n.fields).length < 2 ^ 32) :
    ∃ l last, (each readMetadata (ns.map Notification.node)).Returns (.empty, 0) () (l, last) ∧
      ∃ xs, l.Growing last xs ∧ xs.map Prod.snd = ns.map entries := by
  rw [each_map]
  have h := @returns_each_of_step _ _ (fun n : Notification => readMetadata n.node)
    (fun done (s : LinkedList NotificationMetadata × ℕ) => ∃ xs, s.1.Growing s.2 xs ∧
      xs.map Prod.snd = done.map entries) ns ?_ [] (.empty, 0)
    ⟨[], LinkedList.empty_growing, rfl⟩
  · obtain ⟨⟨l, last⟩, h⟩ := h
    exact ⟨l, last, h⟩
  rintro done n s hn ⟨xs, hgrowing, hvalues⟩
  obtain ⟨l', hl', hgrowing'⟩ := returns_readMetadata (hentries n hn) (hlen n hn) hgrowing
  refine ⟨_, hl', _, hgrowing', ?_⟩
  rw [List.map_append, hvalues, List.map_append]
  rfl

/-- The loop only comes to its end, and then every notification has an entry. -/
theorem entries_of_list (hlen : ∀ n ∈ ns, (Der.tlvs n.fields).length < 2 ^ 32)
    {s s' : LinkedList NotificationMetadata × ℕ} {r : Option Unit}
    (h : each readMetadata (ns.map Notification.node) s = some (s', r)) :
    ∀ n ∈ ns, ∃ p, n.entry = some p := by
  rw [each_map] at h
  obtain ⟨h, -⟩ | ⟨done, x, rest, u, rfl, -, hx, -⟩ := each_cases h
  · intro n hn
    obtain ⟨_, _, hn'⟩ := returns_of_mem h hn
    exact (entry_of_readMetadata (hlen n hn) hn').2
  · have hmem : x ∈ done ++ x :: rest := by simp
    obtain ⟨hr, -⟩ := entry_of_readMetadata (hlen x hmem) hx
    cases hr

/-! ## The command -/

/-- The lengths of the data objects of a response. -/
theorem length_listResponse (hlen : (listResponse ns).length < 2 ^ 32) :
    (Der.tlv 0xA0 (Der.tlvs (segments 0xBF2F (ns.map fun n => Der.tlvs n.fields)))).length <
        2 ^ 32 ∧
      (Der.tlvs (segments 0xBF2F (ns.map fun n => Der.tlvs n.fields))).length < 2 ^ 32 ∧
      ∀ n ∈ ns, (Der.tlvs n.fields).length < 2 ^ 32 := by
  rw [listResponse, Der.length_tlv] at hlen
  have hA0 : (Der.tlv 0xA0 (Der.tlvs (segments 0xBF2F (ns.map fun n =>
      Der.tlvs n.fields)))).length < 2 ^ 32 := by omega
  have hlist := hA0
  rw [Der.length_tlv] at hlist
  refine ⟨hA0, by omega, fun n hn => ?_⟩
  have hle : (Der.tlvs n.fields).length ≤
      (Der.tlvs (segments 0xBF2F (ns.map fun n => Der.tlvs n.fields))).length :=
    Der.length_le_tlvs (x := (0xBF2F, _)) (List.mem_map.2 ⟨_, List.mem_map.2 ⟨n, hn, rfl⟩, rfl⟩)
  omega

/-- The loop runs over the notifications of the response. -/
theorem readList_eq (hlen : (listResponse ns).length < 2 ^ 32) :
    readList (listResponse ns) = (each readMetadata (ns.map Notification.node) (.empty, 0)).map
      fun r => r.2.map fun _ => r.1.1 := by
  obtain ⟨hA0, hlist, -⟩ := length_listResponse hlen
  have hresponse : findTag 0xBF28 (listResponse ns) = some (.of 0xBF28 _) :=
    findTag_tlv (by decide) hlen
  have hmetadata := @findTag_tlv 0xA0 (by decide) _ hA0
  have hnodes : unpackAll (Der.tlvs (segments 0xBF2F (ns.map fun n => Der.tlvs n.fields))) =
      ns.map Notification.node := by
    rw [unpackAll_segments (by decide) hlist, List.map_map]
    rfl
  rw [readList, hresponse, Option.bind_some, Node.of_value, hmetadata]
  simp only [Node.of_value, hnodes]

/-- What is read: the entries of the notifications, in order. -/
theorem readList_entries (hlen : (listResponse ns).length < 2 ^ 32)
    {entries : Notification → NotificationMetadata}
    (hentries : ∀ n ∈ ns, n.entry = some (entries n)) :
    ∃ l, readList (listResponse ns) = some (some l) ∧ l.toList = some (ns.map entries) := by
  obtain ⟨-, -, hfields⟩ := length_listResponse hlen
  obtain ⟨l, last, h, xs, hgrowing, hvalues⟩ := returns_list hentries hfields
  refine ⟨l, ?_, by rw [LinkedList.toList_eq hgrowing.repr, hvalues]⟩
  rw [Returns] at h
  rw [readList_eq hlen, h]
  rfl

theorem entries_of_readList (hlen : (listResponse ns).length < 2 ^ 32)
    (h : readList (listResponse ns) ≠ none) : ∀ n ∈ ns, ∃ p, n.entry = some p := by
  obtain ⟨-, -, hfields⟩ := length_listResponse hlen
  obtain ⟨r, hr⟩ := Option.ne_none_iff_exists'.1 h
  rw [readList_eq hlen] at hr
  obtain ⟨⟨s, r'⟩, heach, -⟩ := Option.map_eq_some_iff.1 hr
  exact entries_of_list hfields heach

/-- **The list of notifications** is the card's, in order, exactly if all ICCIDs fit. -/
theorem readList_iff (hlen : (listResponse ns).length < 2 ^ 32) :
    (∃ l, readList (listResponse ns) = some (some l) ∧
      l.toList = some (ns.map Notification.shown)) ↔ ∀ n ∈ ns, n.IccidFits := by
  constructor
  · rintro ⟨l, h, hvalues⟩
    have hsome := entries_of_readList hlen (by rw [h]; exact Option.some_ne_none _)
    have hentries : ∀ n ∈ ns, n.entry = some (n.entry.getD .init) := by
      intro n hn
      obtain ⟨p, hp⟩ := hsome n hn
      rw [hp, Option.getD_some]
    obtain ⟨l', h', hvalues'⟩ := readList_entries hlen hentries
    rw [h] at h'
    cases h'
    rw [hvalues] at hvalues'
    have hshown := List.map_inj_left.1 (Option.some.inj hvalues')
    intro n hn
    rw [← entry_eq_iff, hentries n hn, hshown n hn]
  · intro hfits
    exact readList_entries hlen fun n hn => entry_eq_iff.2 (hfits n hn)

/-- **The command returns** the list of the card's notifications exactly if all ICCIDs fit; an empty
one is a fault. -/
theorem listNotification_iff {command : Bytes → Program σ Bytes} {s s' : σ}
    (hcommand : (command (pack 0xBF28 [])).Returns s (listResponse ns) s')
    (hlen : (listResponse ns).length < 2 ^ 32) :
    ((∃ l, (listNotification command).Returns s l s' ∧
      l.toList = some (ns.map Notification.shown)) ↔ ∀ n ∈ ns, n.IccidFits) ∧
    ((∃ n ∈ ns, n.iccid = some []) → listNotification command s = none) := by
  rw [listNotification, ← readList_iff hlen]
  constructor
  · refine exists_congr fun l => and_congr_left fun _ => ?_
    rw [Returns, bind_of_returns hcommand, liftFault]
    cases readList (listResponse ns) <;> simp
  · rintro ⟨n, hn, hempty⟩
    rw [bind_of_returns hcommand, liftFault, Option.map_eq_none_iff]
    by_contra hread
    obtain ⟨p, hp⟩ := entries_of_readList hlen hread n hn
    rw [entry_of_nil hempty] at hp
    cases hp

/-- An installation and a deletion. -/
def sampleNotifications : List Notification :=
  [⟨7, by decide, 4, [0x80], ascii "smdp", some [0x98, 0x10]⟩,
    ⟨300, by decide, 4, [0x10], ascii "smdp", none⟩]

theorem listNotification_iff_sample :
    ((∃ l, (listNotification (fun _ s => some (s, some (listResponse sampleNotifications)))).Returns
        () l () ∧ l.toList = some (sampleNotifications.map Notification.shown)) ↔
      ∀ n ∈ sampleNotifications, n.IccidFits) ∧
    ((∃ n ∈ sampleNotifications, n.iccid = some []) →
      listNotification (fun _ s => some (s, some (listResponse sampleNotifications))) () = none) :=
  listNotification_iff rfl (by decide +kernel)

end VirtualRsp.Lpa.Notifications
