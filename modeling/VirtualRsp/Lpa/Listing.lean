import Mathlib.Data.List.Forall2
import VirtualRsp.Lpa.Management
import VirtualRsp.Protocol.Messages

/-!
# Listing the profiles

The card assembles the list of its profiles in a buffer of 8192 bytes, the response is one line of
JSON, with two digits a byte, and the driver of the LPA reads lines of at most 8191 characters. The
list can have any number of profiles.

* `lineTransport`: the card behind the lines of the socket;
* `Listed`: the list is built, delivered, and read as what the card has;
* `listed_iff`: for how many profiles it is, and that the digits of an ICCID never are.
-/

namespace VirtualRsp.Lpa

open Card Program Protocol

/-! ## The card behind the socket -/

/-- The pieces in which the socket delivers a stream. -/
structure Pieces (pieces : Bytes → List Bytes) : Prop where
  flatten : ∀ stream, (pieces stream).flatten = stream
  ne_nil : ∀ stream, ∀ piece ∈ pieces stream, piece ≠ []

/-- Hand a command to the card. The response comes back as a line. -/
def lineTransport (c : CJson) (pieces : Bytes → List Bytes) (env : ℕ → Card.Env) (cmd : Bytes) :
    Program CardSession Bytes := do
  let response ← cardTransport env cmd
  let line ← liftFault (protocolGenerateResponse c 0 (some response))
  let (ecode, data) ← liftFault ((jsonResponse c ⟨[], pieces (line ++ [newline])⟩).map (·.1))
  if ecode < 0 then .fail else .ofOption data

variable {c : CJson} {pieces : Bytes → List Bytes} {env : ℕ → Card.Env} {cmd response : Bytes}
  {t t' : CardSession}

theorem stream_pieces (hp : Pieces pieces) (stream : Bytes) :
    LineReader.Ok readBufferSize ⟨[], pieces stream⟩ ∧
      (LineReader.mk [] (pieces stream)).stream = stream :=
  ⟨⟨Nat.zero_le _, hp.ne_nil stream⟩, by rw [LineReader.stream, List.nil_append, hp.flatten]⟩

/-- A response whose line has at most 8191 characters comes through. -/
theorem lineTransport_fits (hc : c.Compact) (hp : Pieces pieces)
    (h : cardTransport env cmd t = some (t', some response)) (hne : response ≠ [])
    (hfits : response.length ≤ 4072) :
    lineTransport c pieces env cmd t = some (t', some response) := by
  have hgen := @generateResponse_eq c 0 (some response) (by rw [Option.getD_some]; omega)
  rw [Option.getD_some] at hgen
  obtain ⟨hok, hstream⟩ := stream_pieces hp
    (c.printUnformatted (responseObject 0 (dataHex response)) ++ [newline])
  obtain ⟨r', hread, -, -⟩ := jsonResponse_fits (by decide) (by decide) (by omega)
    (hc.transfers hne) hok hstream (by rw [hc.length_line hne, readBufferSize]; omega)
  rw [pointer_of_ne_nil hne] at hread
  rw [lineTransport, bind_of_returns h]
  rw [bind_of_returns (by rw [liftFault, hgen]; rfl)]
  rw [bind_of_returns (by rw [liftFault, hread]; rfl)]
  rfl

/-- A response with a longer line is an error. -/
theorem lineTransport_long (hc : c.Compact) (hp : Pieces pieces)
    (h : cardTransport env cmd t = some (t', some response)) (hlt : response.length < 2 ^ 30)
    (hlong : 4072 < response.length) :
    lineTransport c pieces env cmd t = some (t', none) := by
  have hne : response ≠ [] := List.ne_nil_of_length_pos (by omega)
  have hgen := @generateResponse_eq c 0 (some response) (by rwa [Option.getD_some])
  rw [Option.getD_some] at hgen
  obtain ⟨hok, hstream⟩ := stream_pieces hp
    (c.printUnformatted (responseObject 0 (dataHex response)) ++ [newline])
  obtain ⟨r', hread⟩ := jsonResponse_long (hc.transfers hne) hok hstream
    (by rw [hc.length_line hne, readBufferSize]; omega)
  rw [lineTransport, bind_of_returns h]
  rw [bind_of_returns (by rw [liftFault, hgen]; rfl)]
  rw [bind_of_fails (by rw [liftFault, hread]; rfl)]

/-- What a command comes to depends on what its transport does where it is called. -/
theorem es10xCommand_congr {σ : Type} {transmit transmit' : Bytes → Program σ Bytes} {t : σ}
    (h : transmit cmd t = transmit' cmd t) :
    es10xCommand transmit cmd t = es10xCommand transmit' cmd t := by
  rw [es10xCommand, es10xCommand]
  split
  · rfl
  · simp only [bind, h]

/-! ## The size of a listing -/

/-- The entry of a profile. -/
def listEntry (profile : ProfileMetadata) : Bytes := Der.tlv 0xE3 (Der.tlvs (infoFields profile))

/-- The number of bytes that the entries take. -/
def listLength (profiles : List ProfileMetadata) : ℕ :=
  (profiles.map fun profile => 50 + profile.profileName.length).sum

variable {profile : ProfileMetadata} {profiles : List ProfileMetadata}

theorem length_infoFields (hw : profile.WellFormed) :
    (Der.tlvs (infoFields profile)).length = 48 + profile.profileName.length := by
  have hname := hw.profileName_length
  have hshort : ∀ (tag : ℕ) (value : Bytes), tag < 256 → value.length < 128 →
      (Der.tlv tag value).length = 2 + value.length := by
    intro tag value ht hv
    rw [Der.tlv_short ht hv, List.length_cons, List.length_cons]
    omega
  have hspn : profile.serviceProviderName.length = 10 := by
    rw [hw.serviceProviderName]
    rfl
  have hstate : (Der.tlv 0x9F70 [profile.state.toByte]).length = 4 := rfl
  simp only [infoFields, Der.tlvs_cons, Der.tlvs_nil, List.length_append, List.length_nil, hstate]
  rw [hshort _ _ (by decide) (by decide), hshort _ _ (by decide) (by decide),
    hshort _ _ (by decide) (by omega), hshort _ _ (by decide) (by omega), hspn]
  simp only [iccidBytes, aidBytes, List.length_cons, List.length_nil]
  omega

theorem length_listEntry (hw : profile.WellFormed) :
    (listEntry profile).length = 50 + profile.profileName.length := by
  have hname := hw.profileName_length
  have hlen := length_infoFields hw
  rw [listEntry, Der.tlv_short (by decide) (by omega), List.length_cons, List.length_cons]
  omega

theorem length_listEntries (hw : ∀ profile ∈ profiles, profile.WellFormed) :
    (profiles.map listEntry).flatten.length = listLength profiles := by
  rw [List.length_flatten, List.map_map, listLength]
  congr 1
  exact List.map_congr_left fun profile hp => length_listEntry (hw profile hp)

/-- The card writes the entry of a profile: it fits the buffer of 512 bytes. -/
theorem profileInfo_listEntry (hw : profile.WellFormed) :
    profileInfo profile = some (listEntry profile) := by
  have haid : hex2bin 16 profile.isdpAid = some aidBytes := by rw [hw.isdpAid]; decide +kernel
  have hne : profile.isdpAid ≠ [] := by rw [hw.isdpAid]; decide
  have hiccid : iccidBcd profile.iccid = iccidBytes := by rw [hw.iccid]; decide +kernel
  have hspn : profile.serviceProviderName ≠ [] := by rw [hw.serviceProviderName]; decide
  have hname := hw.profileName_length
  have hlen := length_infoFields hw
  have hfields : [Der.tlv 0x5A iccidBytes, Der.tlv 0x4F aidBytes,
      Der.tlv 0x9F70 [profile.state.toByte], Der.tlv 0x91 profile.serviceProviderName,
      Der.tlv 0x92 profile.profileName].flatten = Der.tlvs (infoFields profile) := by
    simp [infoFields]
  have hputs := @puts_of_le 512 [] [Der.tlv 0x5A iccidBytes, Der.tlv 0x4F aidBytes,
      Der.tlv 0x9F70 [profile.state.toByte], Der.tlv 0x91 profile.serviceProviderName,
      Der.tlv 0x92 profile.profileName] (by rw [hfields, List.length_nil]; omega)
  rw [hfields, List.nil_append] at hputs
  simp only [profileInfo, if_neg hne, haid, Option.map_some, Option.bind_eq_bind, Option.bind_some,
    optionalTlv, if_neg hspn, if_neg hw.profileName_ne, hiccid, buildTlv_eq, hputs]
  rfl

/-- The response of the card, without its status word. -/
def listResponse (profiles : List ProfileMetadata) : Bytes :=
  Der.tlv 0xBF2D (Der.tlv 0xA0 (profiles.map listEntry).flatten)

/-- **The list** fits its buffer, or is written beyond it. -/
theorem getProfilesInfo_eq {s : EuiccState} {xs : List (ℕ × ProfileMetadata)}
    (hl : s.profiles.Repr xs) (hw : ∀ profile ∈ xs.map Prod.snd, profile.WellFormed) :
    Card.getProfilesInfo s =
      if listLength (xs.map Prod.snd) ≤ 8192 then some (s, some (listResponse (xs.map Prod.snd)))
      else none := by
  have hinfos : xs.mapM (fun x => profileInfo x.2) =
      some ((xs.map Prod.snd).map listEntry) := by
    have hmap := @mapM_map_eq_some _ _ _ xs id (fun x => profileInfo x.2)
      (fun x => listEntry x.2) fun x hx => profileInfo_listEntry (hw _ (List.mem_map_of_mem hx))
    rw [List.map_id] at hmap
    rw [hmap, List.map_map]
    rfl
  simp only [Card.getProfilesInfo, LinkedList.nodes_eq hl, hinfos, Option.bind_eq_bind,
    Option.bind_some, buildTlv_eq]
  rw [← length_listEntries hw]
  split
  · rename_i hfits
    rw [puts_of_le (by rwa [List.length_nil, Nat.zero_add])]
    rfl
  · rename_i hover
    cases hputs : puts 8192 [] ((xs.map Prod.snd).map listEntry) with
    | none => rfl
    | some list =>
      have hlen := length_puts_le (Nat.zero_le _) hputs
      rw [puts_eq_some hputs, List.nil_append] at hlen
      exact absurd hlen hover

theorem length_listResponse_le (hw : ∀ profile ∈ profiles, profile.WellFormed)
    (hle : listLength profiles ≤ 8192) :
    (listResponse profiles).length ≤ 4070 ↔ listLength profiles ≤ 4061 := by
  rw [listResponse]
  rw [← length_listEntries hw] at hle ⊢
  generalize (profiles.map listEntry).flatten = list at hle ⊢
  by_cases hshort : list.length < 256
  · have hA0 := Der.length_tlv_le 0xA0 (v := list) (by omega)
    have h2D := Der.length_tlv_le 0xBF2D (v := Der.tlv 0xA0 list) (by omega)
    exact iff_of_true (by omega) (by omega)
  · have htagA0 : (Der.tagBytes 0xA0).length = 1 := by decide
    have htag2D : (Der.tagBytes 0xBF2D).length = 2 := by decide
    have hA0 : (Der.tlv 0xA0 list).length = 4 + list.length := by
      rw [Der.length_tlv, Der.length_lenBytes_three (by omega) (by omega), htagA0]
    rw [Der.length_tlv, Der.length_lenBytes_three (by omega) (by omega), htag2D, hA0]
    omega

/-! ## What the LPA reads -/

/-- The state of a profile, as the LPA calls it. -/
def listedState : ProfileState → ListedState
  | .disabled => .disabled
  | .enabled => .enabled

/-- An entry agrees with a profile, but for the ICCID. The digits of an AID are of either case. -/
structure SameButIccid (profile : ProfileMetadata) (info : ProfileInfo) : Prop where
  profileState : info.profileState = listedState profile.state
  isdpAid : info.isdpAid.map toLower = profile.isdpAid.map toLower
  serviceProviderName : info.serviceProviderName = some profile.serviceProviderName
  profileName : info.profileName = some profile.profileName

/-- The digits of a text. -/
def digits (text : Bytes) : Bytes := text.filter fun c => 48 ≤ c ∧ c ≤ 57

/-- An entry agrees with a profile. -/
structure SameProfile (profile : ProfileMetadata) (info : ProfileInfo) : Prop
    extends SameButIccid profile info where
  iccid : digits info.iccid = digits profile.iccid

/-- The list of the profiles is built within its buffers, with one entry a profile, in order; the
lines deliver the response as it is; and the LPA reads from it a list of entries that agree with the
profiles, in order. -/
structure Listed (Same : ProfileMetadata → ProfileInfo → Prop) (c : CJson)
    (pieces : Bytes → List Bytes) (env : ℕ → Card.Env) (t : CardSession)
    (profiles : List ProfileMetadata) : Prop where
  built : ∃ entries : List Bytes,
    Card.getProfilesInfo t.state =
      some (t.state, some (buildTlv 0xBF2D (buildTlv 0xA0 entries.flatten))) ∧
    List.Forall₂ (fun profile entry => profileInfo profile = some entry ∧
      ∃ fields, entry = Der.tlv 0xE3 fields) profiles entries
  intact : lineTransport c pieces env (pack 0xBF2D []) t = cardTransport env (pack 0xBF2D []) t
  decoded : ∃ infos t', (getProfilesInfo (es10xCommand (lineTransport c pieces env))).Returns t
    infos t' ∧ List.Forall₂ Same profiles infos

theorem sameButIccid_listed (hw : profile.WellFormed) : SameButIccid profile (listed profile) := by
  have hstate : (listed profile).profileState = listedState profile.state := by
    change ListedState.ofCode profile.state.toByte.toNat = _
    cases profile.state <;> rfl
  have haid : (listed profile).isdpAid.map toLower = profile.isdpAid.map toLower := by
    rw [hw.isdpAid]
    change listedAid.map toLower = installAid.map toLower
    decide
  exact ⟨hstate, haid, rfl, rfl⟩

/-- **The digits of the ICCID** are not the profile's. -/
theorem not_sameProfile_listed (hw : profile.WellFormed) :
    ¬ SameProfile profile (listed profile) := by
  intro h
  have hiccid : digits listedIccid = digits profile.iccid := h.iccid
  rw [hw.iccid] at hiccid
  exact absurd hiccid (by decide)

variable {s : EuiccState} {k : ℕ} {xs : List (ℕ × ProfileMetadata)}

/-- The card's answer to the command. -/
theorem cardTransport_list (env : ℕ → Card.Env) (k : ℕ) (hl : s.profiles.Repr xs)
    (hw : ∀ profile ∈ xs.map Prod.snd, profile.WellFormed)
    (hle : listLength (xs.map Prod.snd) ≤ 8192) :
    cardTransport env (pack 0xBF2D []) ⟨k, s⟩ =
      some (⟨k + 1, s⟩, some (listResponse (xs.map Prod.snd) ++ [0x90, 0x00])) := by
  have hpack : pack 0xBF2D [] = Der.tagBytes 0xBF2D ++ [0x00] := by decide
  have hh := getProfilesInfo_eq hl hw
  rw [if_pos hle] at hh
  rw [hpack, cardTransport,
    processEs10xCommand_of_handle (by decide) (by decide) (by decide) (by decide)
      (show (Es10xCommand.ofTag 0xBF2D).handle (env k) s _ = some (s, _) from hh)]
  rfl

/-- The lines deliver the response of a short list. -/
theorem lineTransport_list (hc : c.Compact) (hp : Pieces pieces) (hl : s.profiles.Repr xs)
    (hw : ∀ profile ∈ xs.map Prod.snd, profile.WellFormed)
    (hle : listLength (xs.map Prod.snd) ≤ 4061) :
    lineTransport c pieces env (pack 0xBF2D []) ⟨k, s⟩ =
      cardTransport env (pack 0xBF2D []) ⟨k, s⟩ := by
  have hcard := cardTransport_list env k hl hw (by omega)
  have hlen := (length_listResponse_le hw (by omega)).2 hle
  rw [hcard]
  refine lineTransport_fits hc hp hcard (by simp) ?_
  rw [List.length_append, List.length_cons, List.length_cons, List.length_nil]
  omega

/-- The LPA reads the profiles of a short list, with what `listed` makes of them. -/
theorem getProfilesInfo_list (hc : c.Compact) (hp : Pieces pieces) (env : ℕ → Card.Env) (k : ℕ)
    (hl : s.profiles.Repr xs)
    (hw : ∀ profile ∈ xs.map Prod.snd, profile.WellFormed)
    (hle : listLength (xs.map Prod.snd) ≤ 4061) :
    (getProfilesInfo (es10xCommand (lineTransport c pieces env))).Returns ⟨k, s⟩
      ((xs.map Prod.snd).map listed) ⟨k + 1, s⟩ := by
  have hcmd : (es10xCommand (lineTransport c pieces env) (pack 0xBF2D [])).Returns ⟨k, s⟩
      (listResponse (xs.map Prod.snd)) ⟨k + 1, s⟩ := by
    rw [Returns, es10xCommand_congr (lineTransport_list hc hp hl hw hle)]
    refine (es10xCommand_card (by decide)).2 ⟨s, ?_, rfl⟩
    have hcard := cardTransport_list env k hl hw (by omega)
    obtain ⟨⟨s', r⟩, hr, heq⟩ := Option.map_eq_some_iff.1 hcard
    cases heq
    exact hr
  have hfields : ∀ x ∈ xs, (Der.tlvs (infoFields x.2)).length ≤ 512 := by
    intro x hx
    have hx := hw x.2 (List.mem_map_of_mem hx)
    have := hx.profileName_length
    rw [length_infoFields hx]
    omega
  have hflat : ((xs.map Prod.snd).map listEntry).flatten =
      Der.tlvs (segments 0xE3 (xs.map fun x => Der.tlvs (infoFields x.2))) := by
    rw [Der.tlvs, segments, List.flatMap_map, List.flatMap_map, List.map_map]
    rfl
  have hread := readProfileInfos_card hfields hflat (by rw [length_listEntries hw]; omega)
  refine returns_bind.2 ⟨_, _, hcmd, ?_⟩
  rw [Returns, liftFault, listResponse, hread, List.map_map]
  rfl

/-- Only a short list is delivered. -/
theorem Listed.le {Same : ProfileMetadata → ProfileInfo → Prop} {profiles : List ProfileMetadata}
    (h : Listed Same c pieces env ⟨k, s⟩ profiles) (hc : c.Compact) (hp : Pieces pieces)
    (hl : s.profiles.Repr xs) (hw : ∀ profile ∈ xs.map Prod.snd, profile.WellFormed) :
    listLength (xs.map Prod.snd) ≤ 4061 := by
  obtain ⟨entries, hbuilt, -⟩ := h.built
  have hle : listLength (xs.map Prod.snd) ≤ 8192 := by
    by_contra hover
    rw [getProfilesInfo_eq hl hw, if_neg hover] at hbuilt
    cases hbuilt
  by_contra hlong
  have hcard := cardTransport_list env k hl hw hle
  have hlen := mt (length_listResponse_le hw hle).1 hlong
  have hsmall := Der.length_tlv_le 0xA0 (v := ((xs.map Prod.snd).map listEntry).flatten)
    (by rw [length_listEntries hw]; omega)
  rw [length_listEntries hw] at hsmall
  have hresponse := Der.length_tlv_le 0xBF2D
    (v := Der.tlv 0xA0 ((xs.map Prod.snd).map listEntry).flatten) (by omega)
  have hintact := h.intact
  rw [hcard, lineTransport_long hc hp hcard] at hintact
  · cases hintact
  · rw [List.length_append, List.length_cons, List.length_cons, List.length_nil, listResponse]
    omega
  · rw [List.length_append, List.length_cons, List.length_cons, List.length_nil]
    omega

/-- A short list is listed, if what the LPA reads of each profile agrees with it. -/
theorem listed_of_le {Same : ProfileMetadata → ProfileInfo → Prop} (hc : c.Compact)
    (hp : Pieces pieces) (hl : s.profiles.Repr xs)
    (hw : ∀ profile ∈ xs.map Prod.snd, profile.WellFormed)
    (hle : listLength (xs.map Prod.snd) ≤ 4061)
    (hsame : ∀ profile ∈ xs.map Prod.snd, Same profile (listed profile)) :
    Listed Same c pieces env ⟨k, s⟩ (xs.map Prod.snd) where
  built := by
    refine ⟨(xs.map Prod.snd).map listEntry, ?_, ?_⟩
    · rw [buildTlv_eq, buildTlv_eq]
      exact (getProfilesInfo_eq hl hw).trans (if_pos (by omega))
    · rw [List.forall₂_map_right_iff]
      exact List.forall₂_same.2 fun profile hx => ⟨profileInfo_listEntry (hw profile hx), _, rfl⟩
  intact := lineTransport_list hc hp hl hw hle
  decoded := by
    refine ⟨_, _, getProfilesInfo_list hc hp env k hl hw hle, ?_⟩
    rw [List.forall₂_map_right_iff]
    exact List.forall₂_same.2 hsame

/-- A list with a profile is not listed with its ICCID. -/
theorem not_listed_sameProfile (hc : c.Compact) (hp : Pieces pieces) (hl : s.profiles.Repr xs)
    (hw : ∀ profile ∈ xs.map Prod.snd, profile.WellFormed) (hne : xs.map Prod.snd ≠ []) :
    ¬ Listed SameProfile c pieces env ⟨k, s⟩ (xs.map Prod.snd) := by
  intro h
  obtain ⟨infos, t', hread, hsame⟩ := h.decoded
  have hlist := getProfilesInfo_list hc hp env k hl hw (h.le hc hp hl hw)
  rw [Returns] at hread hlist
  rw [hlist] at hread
  cases hread
  rw [List.forall₂_map_right_iff, List.forall₂_same] at hsame
  obtain ⟨profile, hmem⟩ := List.exists_mem_of_ne_nil _ hne
  exact not_sameProfile_listed (hw profile hmem) (hsame profile hmem)

/-- **Listing the profiles.** The list is built within its buffers up to 8192 bytes, and it is
delivered and read, but for the ICCIDs, up to 4061 bytes. With the digits of the ICCIDs it is only
if there are no profiles. -/
theorem listed_iff {daemon : Daemon} (hd : Run.Reachable daemonStep .start daemon)
    (hc : c.Compact) (hp : Pieces pieces) (env : ℕ → Card.Env) (k : ℕ) :
    ∃ profiles, daemon.profiles = some profiles ∧
      ((Card.getProfilesInfo daemon.globalState).isSome ↔ listLength profiles ≤ 8192) ∧
      (Listed SameButIccid c pieces env ⟨k, daemon.globalState⟩ profiles ↔
        listLength profiles ≤ 4061) ∧
      (Listed SameProfile c pieces env ⟨k, daemon.globalState⟩ profiles ↔ profiles = []) := by
  obtain ⟨xs, hl, hi⟩ := (daemonInv_of_reachable hd).profiles
  have hw : ∀ profile ∈ xs.map Prod.snd, profile.WellFormed := hi.wellFormed
  refine ⟨xs.map Prod.snd, LinkedList.toList_eq hl, ?_, ?_, ?_⟩
  · rw [getProfilesInfo_eq hl hw]
    split <;> simp [*]
  · constructor
    · exact fun h => h.le hc hp hl hw
    · exact fun hle => listed_of_le hc hp hl hw hle fun profile hx =>
        sameButIccid_listed (hw profile hx)
  · constructor
    · intro h
      by_contra hne
      exact not_listed_sameProfile hc hp hl hw hne h
    · intro hnil
      refine listed_of_le hc hp hl hw ?_ ?_
      · rw [hnil]
        exact Nat.zero_le _
      · rw [hnil]
        simp

/-! ## A card with one profile -/

/-- A socket that delivers every byte on its own. -/
def single (stream : Bytes) : List Bytes := stream.map fun b => [b]

theorem single_pieces : Pieces single where
  flatten stream := by
    rw [single, ← List.flatMap_def, List.flatMap_singleton']
  ne_nil := by
    intro stream piece hpiece
    obtain ⟨b, -, rfl⟩ := List.mem_map.1 hpiece
    exact List.cons_ne_nil b []

theorem sampleInstall_profiles : ∃ daemon profiles, Run.Reachable daemonStep .start daemon ∧
    daemon.profiles = some profiles ∧ profiles.length = 1 := by
  have hrun : ((Run.exec daemonStep .start sampleInstall).bind Daemon.profiles).map List.length =
      some 1 := by
    decide +kernel
  obtain ⟨profiles, hprofiles, hlen⟩ := Option.map_eq_some_iff.1 hrun
  obtain ⟨daemon, hexec, hprofiles⟩ := Option.bind_eq_some_iff.1 hprofiles
  exact ⟨daemon, profiles, Run.Reachable.of_exec .init hexec, hprofiles, hlen⟩

theorem listed_iff_sample : ∃ (daemon : Daemon) (profiles : List ProfileMetadata),
    daemon.profiles = some profiles ∧ profiles.length = 1 ∧
    ((Card.getProfilesInfo daemon.globalState).isSome ↔ listLength profiles ≤ 8192) ∧
    (Listed SameButIccid responses single (fun _ => sampleEnv) ⟨0, daemon.globalState⟩ profiles ↔
      listLength profiles ≤ 4061) ∧
    (Listed SameProfile responses single (fun _ => sampleEnv) ⟨0, daemon.globalState⟩ profiles ↔
      profiles = []) := by
  obtain ⟨daemon, profiles, hd, hprofiles, hlen⟩ := sampleInstall_profiles
  obtain ⟨profiles', hprofiles', h⟩ :=
    listed_iff hd responses_compact single_pieces (fun _ => sampleEnv) 0
  rw [hprofiles] at hprofiles'
  cases hprofiles'
  exact ⟨daemon, profiles, hprofiles, hlen, h⟩

/-- **A card with one profile** is not listed with the digits of its ICCID. -/
theorem not_listed : ¬ ∀ (daemon : Daemon) (c : CJson) (pieces : Bytes → List Bytes)
    (env : ℕ → Card.Env) (k : ℕ) (profiles : List ProfileMetadata),
    Run.Reachable daemonStep .start daemon → c.Compact → Pieces pieces →
    daemon.profiles = some profiles →
    Listed SameProfile c pieces env ⟨k, daemon.globalState⟩ profiles := by
  intro h
  obtain ⟨daemon, profiles, hd, hprofiles, hlen⟩ := sampleInstall_profiles
  have hlisted := h daemon responses single (fun _ => sampleEnv) 0 profiles hd responses_compact
    single_pieces hprofiles
  obtain ⟨xs, hl, hi⟩ := (daemonInv_of_reachable hd).profiles
  rw [Daemon.profiles, LinkedList.toList_eq hl] at hprofiles
  cases hprofiles
  refine not_listed_sameProfile responses_compact single_pieces hl hi.wellFormed ?_ hlisted
  exact List.ne_nil_of_length_pos (by omega)

end VirtualRsp.Lpa
