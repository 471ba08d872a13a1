import VirtualRsp.Card.Invariant
import VirtualRsp.Lpa.LoadBpp

/-!
# Identifiers of profiles and notifications

Installed profiles should have distinct ICCIDs and distinct AIDs, and the notifications about
installations distinct and increasing sequence numbers. The card gives every profile the same
identifiers and never increments its sequence number, so this holds of exactly the runs in which
nothing is installed while a profile is installed, and at most one installation is reported as
successful (`identifiers_iff`).

The sequence number of a notification is the one the LPA reads from the response
(`readInstallationResult_card`).
-/

namespace VirtualRsp.Card

open Run

/-! ## The sequence number of a response -/

theorem ofBe_dropWhile (xs ys : Bytes) :
    Der.ofBe 0 (xs.dropWhile (· = 0) ++ ys) = Der.ofBe 0 (xs ++ ys) := by
  induction xs with
  | nil => rfl
  | cons x xs ih =>
    by_cases hx : x = 0
    · subst hx
      rw [List.dropWhile_cons_of_pos (by simp), ih]
      rfl
    · rw [List.dropWhile_cons_of_neg (by simpa using hx)]

/-- The trimmed bytes of a sequence number are its value. -/
theorem bin2long_seqNumBytes {n : ℕ} (h : n < 2 ^ 32) : Lpa.bin2long (seqNumBytes n) = n := by
  rw [Lpa.bin2long, seqNumBytes, ofBe_dropWhile, List.take_append_drop, Der.ofBe_beBytes]
  omega

/-- The fields of the metadata of a notification. -/
def metadataFields (n : ℕ) : List (ℕ × Bytes) :=
  [(0x80, seqNumBytes n), (0x81, [0x01, 0x80]), (0x0C, ascii "localhost")]

theorem notificationMetadata_eq (n : ℕ) :
    notificationMetadata n = Der.tlv 0xBF2F (Der.tlvs (metadataFields n)) := by
  simp only [notificationMetadata, metadataFields, buildTlv_eq, Der.tlvs_cons, Der.tlvs_nil,
    List.append_nil, List.append_assoc]
  rfl

/-- The outcome of a successful installation: the AID and the answer of the interpreter. -/
def successOutcome : Bytes :=
  Der.tlv 0x30 ([0x4F, 0x10, 0xA0, 0x00, 0x00, 0x05, 0x59, 0x10, 0x10, 0xFF, 0xFF, 0xFF, 0xFF, 0x89,
    0x00, 0x00, 0x10, 0x00] ++ [0x04, 0x02, 0x90, 0x00])

theorem successResult_eq : successResult = Der.tlv 0xA2 (Der.tlv 0xA0 successOutcome) := by
  simp only [successResult, buildTlv_eq]
  rfl

/-- The fields of the data of an installation result. -/
def resultFields (state : EuiccState) : List (ℕ × Bytes) :=
  [(0x80, state.transactionId), (0xBF2F, Der.tlvs (metadataFields state.notificationSeqNumber)),
    (0x06, [0x88, 0x37, 0x0A]), (0xA2, Der.tlv 0xA0 successOutcome)]

theorem profileInstallationResultData_eq {s : EuiccState} {data : Bytes}
    (h : profileInstallationResultData s = some data) :
    data = Der.tlv 0xBF27 (Der.tlvs (resultFields s)) ∧
      (Der.tlvs (resultFields s)).length ≤ 256 := by
  obtain ⟨pird, hp, rfl⟩ := Option.map_eq_some_iff.1 h
  have hle := length_puts_le (Nat.zero_le _) hp
  have heq : pird = Der.tlvs (resultFields s) := by
    rw [puts_eq_some hp, notificationMetadata_eq, successResult_eq, buildTlv_eq]
    rfl
  exact ⟨by rw [heq, buildTlv_eq], heq ▸ hle⟩

/-- **The LPA reads the card's sequence number** from the response to an installation, and success.
-/
theorem readInstallationResult_card {env : Env} {s : EuiccState} {body : Bytes}
    (hn : s.notificationSeqNumber < 2 ^ 32)
    (h : profileInstallationResult env s = some (some body)) :
    Lpa.readInstallationResult body =
      ({ Lpa.LoadResult.init with seqNumber := s.notificationSeqNumber }, true) := by
  simp only [profileInstallationResult, Option.bind_eq_bind, Option.bind_eq_some_iff] at h
  obtain ⟨data, hdata, sig, hsig, h⟩ := h
  cases sig with
  | none => cases h
  | some sig =>
    obtain ⟨resp, hresp, h⟩ := Option.bind_eq_some_iff.1 h
    cases h
    obtain ⟨rfl, hfields⟩ := profileInstallationResultData_eq hdata
    have hle := length_puts_le (Nat.zero_le _) hresp
    have heq : resp = Der.tlvs [(0xBF27, Der.tlvs (resultFields s)), (0x5F37, sig)] := by
      rw [puts_eq_some hresp, buildTlv_eq]
      simp
    have h37 : Lpa.findTag 0xBF37 (buildTlv 0xBF37 resp) = some (.of 0xBF37 resp) := by
      have := Der.length_tlv_le 0xBF37 (v := resp) (by omega)
      rw [buildTlv_eq]
      exact Lpa.findTag_tlv (by decide) (by omega)
    have h27 : Lpa.findTag 0xBF27 resp = some (.of 0xBF27 (Der.tlvs (resultFields s))) := by
      rw [heq] at hle ⊢
      rw [Lpa.findTag_tlvs (by simp [Der.IsTag]) (by omega)]
      rfl
    have hfind := @Lpa.findTag_tlvs (resultFields s) (by simp [resultFields, Der.IsTag]) (by omega)
    have h2F : Lpa.findTag 0xBF2F (Der.tlvs (resultFields s)) =
        some (.of 0xBF2F (Der.tlvs (metadataFields s.notificationSeqNumber))) := hfind _
    have hA2 : Lpa.findTag 0xA2 (Der.tlvs (resultFields s)) =
        some (.of 0xA2 (Der.tlv 0xA0 successOutcome)) := hfind _
    have hA0 : Lpa.unpackFirst (Der.tlv 0xA0 successOutcome) =
        some (.of 0xA0 successOutcome, []) := by decide +kernel
    have h80 : Lpa.findTag 0x80 (Der.tlvs (metadataFields s.notificationSeqNumber)) =
        some (.of 0x80 (seqNumBytes s.notificationSeqNumber)) := by
      have hle : (Der.tlvs (metadataFields s.notificationSeqNumber)).length ≤ 256 :=
        le_trans (@Der.length_le_tlvs (resultFields s)
          (0xBF2F, Der.tlvs (metadataFields s.notificationSeqNumber)) (.tail _ (.head _))) hfields
      rw [Lpa.findTag_tlvs (by simp [metadataFields, Der.IsTag]) (by omega)]
      rfl
    simp only [Lpa.readInstallationResult, h37, h27, h2F, hA2, hA0, h80, Option.bind_eq_bind,
      Option.bind_some, Option.map_some, Option.getD_some, Lpa.Node.of_value, Lpa.Node.of_tag,
      bin2long_seqNumBytes hn, pure, if_true]

/-! ## Installations -/

/-- What serving a request installs: the collected package, once the data of the command is
appended. -/
def packageToInstall (env : Env) (state : EuiccState) (request : Request) : Option Bytes :=
  match handlerInput env state request with
  | some (state, cmd, .sequenceOf86) =>
    (storeSegment state cmd).map (·.boundProfilePackage.data)
  | _ => none

/-- A step that has something to install. -/
def Installs (t : Step Daemon Event) : Prop :=
  ∃ env request package, t.event = .request env request ∧
    packageToInstall env t.pre.globalState request = some package ∧ package ≠ []

/-- The sequence number that the LPA reads from the answer to an installation, if that reports
success. -/
def reportedSeqNumber (t : Step Daemon Event) : Option ℕ :=
  match t.event with
  | .accept => none
  | .request env request =>
    match packageToInstall env t.pre.globalState request with
    | none | some [] => none
    | some _ =>
      match handleRequest env t.pre.globalState request with
      | some (_, ⟨0, data⟩) =>
        let (result, success) := Lpa.readInstallationResult (data.take (data.length - 2))
        if success then some result.seqNumber else none
      | _ => none

variable {env : Env} {s s' : EuiccState} {request : Request} {response : Response}
  {xs : List (ℕ × ProfileMetadata)}

theorem packageToInstall_eq_some {package : Bytes}
    (h : packageToInstall env s request = some package) :
    ∃ b cmd u,
      handlerInput env s request = some ({ s with segmentBuffer := b }, cmd, .sequenceOf86) ∧
      storeSegment { s with segmentBuffer := b } cmd = some u ∧
      u.boundProfilePackage.data = package := by
  rw [packageToInstall] at h
  split at h
  · rename_i t cmd hin
    obtain ⟨b, rfl⟩ := handlerInput_frame hin
    obtain ⟨u, hu, rfl⟩ := Option.map_eq_some_iff.1 h
    exact ⟨b, cmd, u, hin, hu, rfl⟩
  · cases h

/-- **A step that installs** puts a new profile in front of the others. -/
theorem handleRequest_installs {package : Bytes}
    (h : handleRequest env s request = some (s', response))
    (hp : packageToInstall env s request = some package) (hne : package ≠ [])
    (hl : s.profiles.Repr xs) :
    ∃ k, s'.profiles.Repr ((k, newProfile s.matchingId package) :: xs) := by
  obtain ⟨b, cmd, u, hin, hu, rfl⟩ := packageToInstall_eq_some hp
  obtain ⟨r, hh, -⟩ := handleRequest_processed h hin (by decide)
  obtain ⟨u', hu', hi⟩ := sequenceOf86_frame hh
  rw [hu] at hu'
  cases hu'
  obtain ⟨h0, -⟩ | ⟨-, installed, rfl⟩ := installProfile_frame hi
  · exact absurd h0 hne
  · obtain ⟨_, _, -, -, rfl⟩ := storeSegment_frame hu
    exact ⟨_, LinkedList.push_repr (l := s.profiles) hl _⟩

theorem length_enableFirst (P : ProfileMetadata → Bool) (xs : List ProfileMetadata) :
    (enableFirst P xs).1.length = xs.length := by
  rw [enableFirst]
  split
  · rfl
  · rename_i pre x post hm
    obtain ⟨rfl, -, -⟩ := firstMatch_some.1 hm
    simp

theorem length_disableFirst (P : ProfileMetadata → Bool) (xs : List ProfileMetadata) :
    (disableFirst P xs).1.length = xs.length := by
  rw [disableFirst]
  split
  · rfl
  · rename_i pre x post hm
    obtain ⟨rfl, -, -⟩ := firstMatch_some.1 hm
    split_ifs <;> simp

theorem length_deleteFirst_le (P : ProfileMetadata → Bool) (xs : List ProfileMetadata) :
    (deleteFirst P xs).1.length ≤ xs.length := by
  rw [deleteFirst]
  split
  · exact le_rfl
  · rename_i pre x post hm
    obtain ⟨rfl, -, -⟩ := firstMatch_some.1 hm
    split_ifs
    · exact le_rfl
    · simp

/-- Management does not add profiles. -/
theorem Management.length_le {c : Es10xCommand} {tag : ℕ}
    {step : LinkedList ProfileMetadata → Target → Option (LinkedList ProfileMetadata × UInt8)}
    (hm : Management c tag step) {l l' : LinkedList ProfileMetadata} {target : Target}
    {code : UInt8} (hl : l.Repr xs) (hs : step l target = some (l', code)) :
    ∃ ys, l'.Repr ys ∧ ys.length ≤ xs.length := by
  have key : ∀ op, Refines step op → (∀ P zs, (op P zs).1.length ≤ zs.length) →
      ∃ ys, l'.Repr ys ∧ ys.length ≤ xs.length := by
    intro op href hop
    obtain ⟨l₁, code₁, ys, h₁, hr, ho, -⟩ := href target hl
    rw [hs] at h₁
    cases h₁
    have := hop target.matches (xs.map Prod.snd)
    rw [ho, List.length_map, List.length_map] at this
    exact ⟨ys, hr, this⟩
  cases hm with
  | enable => exact key _ enableStep_refines fun P zs => (length_enableFirst P zs).le
  | disable => exact key _ disableStep_refines fun P zs => (length_disableFirst P zs).le
  | delete => exact key _ deleteStep_refines length_deleteFirst_le

/-- **Any other request** adds no profile. -/
theorem handleRequest_length_le (h : handleRequest env s request = some (s', response))
    (hp : ∀ package, packageToInstall env s request = some package → package = [])
    (hl : s.profiles.Repr xs) :
    ∃ ys, s'.profiles.Repr ys ∧ ys.length ≤ xs.length := by
  cases handleRequest_effect h with
  | same h _ => exact ⟨xs, h ▸ hl, le_rfl⟩
  | session _ h _ => exact ⟨[], h ▸ LinkedList.empty_repr, Nat.zero_le _⟩
  | @command c b cmd r hc hh hr =>
    by_cases h86 : c = .sequenceOf86
    · subst h86
      obtain ⟨u, hu, hi⟩ := sequenceOf86_frame hh
      have h0 : u.boundProfilePackage.data = [] := hp _ (by simp [packageToInstall, hc, hu])
      obtain ⟨-, rfl⟩ | ⟨hne, -⟩ := installProfile_frame hi
      · obtain ⟨_, _, -, -, rfl⟩ := storeSegment_frame hu
        exact ⟨xs, hl, le_rfl⟩
      · exact absurd h0 hne
    · cases handle_profilesEffect hh with
      | same h => exact ⟨xs, h ▸ hl, le_rfl⟩
      | install _ _ _ => exact absurd rfl h86
      | manage hm hs _ => exact hm.length_le (l := s.profiles) hl hs

/-- **A step of the daemon** adds a profile exactly if it installs. -/
theorem installs_cases {t : Step Daemon Event} (hr : Reachable daemonStep .start t.pre)
    (hs : daemonStep t.pre t.event = some t.post) :
    ∃ xs ys, t.pre.globalState.profiles.Repr xs ∧ t.post.globalState.profiles.Repr ys ∧
      StoreInv (ys.map Prod.snd) ∧ (Installs t → ys.length = xs.length + 1) ∧
      (¬ Installs t → ys.length ≤ xs.length) := by
  obtain ⟨xs, hl, -⟩ := (daemonInv_of_reachable hr).profiles
  obtain ⟨ys, hl', hi⟩ := (daemonInv_of_reachable (hr.step hs)).profiles
  refine ⟨xs, ys, hl, hl', hi, ?_, fun hno => ?_⟩
  · rintro ⟨env, request, package, he, hp, hne⟩
    obtain ⟨he', -⟩ | ⟨he', -⟩ | ⟨env', request', state, response, he', -, hh, hpost⟩ :=
      daemonStep_cases hs
    · cases he.symm.trans he'
    · cases he.symm.trans he'
    · cases he.symm.trans he'
      obtain ⟨k, hx⟩ := handleRequest_installs hh hp hne hl
      rw [hpost] at hl'
      rw [hl'.unique hx, List.length_cons]
  · obtain ⟨-, -, hpost⟩ | ⟨-, -, hpost⟩ | ⟨env, request, state, response, he, -, hh, hpost⟩ :=
      daemonStep_cases hs
    · rw [hpost] at hl'
      rw [hl'.unique LinkedList.empty_repr]
      exact Nat.zero_le _
    · rw [hpost] at hl'
      rw [hl'.unique hl]
    · have hp : ∀ package, packageToInstall env t.pre.globalState request = some package →
          package = [] := by
        intro package hp
        by_contra hne
        exact hno ⟨env, request, package, he, hp, hne⟩
      obtain ⟨zs, hz, hle⟩ := handleRequest_length_le hh hp hl
      rw [hpost] at hl'
      rwa [hl'.unique hz]

/-- The profile is in front of what was the list before. -/
def Adds (pre post : Daemon) (profile : ProfileMetadata) : Prop :=
  ∃ ps, pre.profiles = some ps ∧ post.profiles = some (profile :: ps)

/-- **A request that adds a profile** has installed it, with what was collected as its data. -/
theorem handleRequest_adds {daemon : Daemon} {profile : ProfileMetadata}
    (hr : Reachable daemonStep .start daemon)
    (h : handleRequest env daemon.globalState request = some (s', response))
    (ha : Adds daemon ⟨s', true⟩ profile) :
    ∃ package, packageToInstall env daemon.globalState request = some package ∧ package ≠ [] ∧
      profile = newProfile daemon.globalState.matchingId package := by
  obtain ⟨xs, hl, -⟩ := (daemonInv_of_reachable hr).profiles
  obtain ⟨ps, hpre, hpost⟩ := ha
  rw [Daemon.profiles, LinkedList.toList_eq hl, Option.some.injEq] at hpre
  subst hpre
  by_cases hp : ∀ package, packageToInstall env daemon.globalState request = some package →
      package = []
  · obtain ⟨ys, hy, hle⟩ := handleRequest_length_le h hp hl
    rw [Daemon.profiles, LinkedList.toList_eq hy, Option.some.injEq] at hpost
    have := congrArg List.length hpost
    simp only [List.length_map, List.length_cons] at this
    omega
  · simp only [not_forall] at hp
    obtain ⟨package, hp, hne⟩ := hp
    obtain ⟨k, hk⟩ := handleRequest_installs h hp hne hl
    rw [Daemon.profiles, LinkedList.toList_eq hk, Option.some.injEq, List.map_cons,
      List.cons.injEq] at hpost
    exact ⟨package, hp, hne, hpost.1.symm⟩

/-- **Every reported sequence number is 1.** -/
theorem reportedSeqNumber_eq {t : Step Daemon Event} (hr : Reachable daemonStep .start t.pre)
    (hs : daemonStep t.pre t.event = some t.post) {n : ℕ} (h : reportedSeqNumber t = some n) :
    n = 1 := by
  obtain ⟨he, -⟩ | ⟨he, -⟩ | ⟨env, request, state, response, he, hinit, hh, -⟩ :=
    daemonStep_cases hs
  · simp [reportedSeqNumber, he] at h
  · simp [reportedSeqNumber, he] at h
  · have hn := (daemonInv_of_reachable hr).seqNumber hinit
    simp only [reportedSeqNumber, he, hh] at h
    split at h
    · cases h
    · cases h
    · rename_i package hp
      obtain ⟨b, cmd, u, hin, hu, -⟩ := packageToInstall_eq_some hp
      obtain ⟨r, h86, rfl⟩ := handleRequest_processed hh hin (by decide)
      have hn' := (handle_keeps h86).1
      simp only [Es10xCommand.handle, sequenceOf86, Option.bind_eq_bind,
        Option.bind_eq_some_iff] at h86
      obtain ⟨_, -, _, -, r', hres, h86⟩ := h86
      cases h86
      cases r with
      | none => cases h
      | some body =>
        have hv : state.notificationSeqNumber = 1 := hn'.trans hn
        have hread := readInstallationResult_card (by omega) hres
        simp only [Option.map_some, Response.ofTransmit, List.length_append, List.length_cons,
          List.length_nil, Nat.reduceAdd, Nat.add_sub_cancel, List.take_left', hread, if_true,
          Option.some.injEq, hv] at h
        exact h.symm

/-! ## Distinct identifiers -/

/-- Distinct ICCIDs and distinct AIDs. -/
def DistinctIdentifiers (profiles : List ProfileMetadata) : Prop :=
  (profiles.map (·.iccid)).Nodup ∧ (profiles.map (·.isdpAid)).Nodup

/-- Installed profiles have distinct identifiers only if there is at most one of them. -/
theorem distinctIdentifiers_iff {ps : List ProfileMetadata} (h : StoreInv ps) :
    DistinctIdentifiers ps ↔ ps.length ≤ 1 := by
  match ps, h with
  | [], _ => simp [DistinctIdentifiers]
  | [p], _ => simp [DistinctIdentifiers]
  | p :: q :: ps, h =>
    have hp := (h.wellFormed p (by simp)).iccid
    have hq := (h.wellFormed q (by simp)).iccid
    simp [DistinctIdentifiers, hp, hq]

theorem pairwise_lt_iff {ns : List ℕ} (h : ∀ n ∈ ns, n = 1) :
    ns.Pairwise (· < ·) ↔ ns.length ≤ 1 := by
  match ns, h with
  | [], _ => simp
  | [n], _ => simp
  | n :: m :: ns, h =>
    have hn := h n (by simp)
    have hm := h m (by simp)
    simp [hn, hm]

/-- **Identifiers are distinct in exactly the runs** in which nothing is installed while a profile
is installed, and at most one installation is reported. -/
theorem identifiers_iff (events : List Event) :
    ((∀ t ∈ trace daemonStep .start events, DistinctIdentifiers (t.post.profiles.getD [])) ∧
        ((trace daemonStep .start events).filterMap reportedSeqNumber).Pairwise (· < ·)) ↔
      (∀ t ∈ trace daemonStep .start events, Installs t → t.pre.profiles = some []) ∧
        ((trace daemonStep .start events).filterMap reportedSeqNumber).length ≤ 1 := by
  refine and_congr ⟨fun h t ht hi => ?_, fun h => ?_⟩ (pairwise_lt_iff fun n hn => ?_)
  · obtain ⟨hr, hs, -⟩ := mem_trace .init ht
    obtain ⟨xs, ys, hx, hy, hinv, hins, -⟩ := installs_cases hr hs
    have hd := h t ht
    rw [Daemon.profiles, LinkedList.toList_eq hy, Option.getD_some, distinctIdentifiers_iff hinv,
      List.length_map, hins hi] at hd
    obtain rfl : xs = [] := List.length_eq_zero_iff.1 (by omega)
    exact LinkedList.toList_eq hx
  · have hshort : ∀ t ∈ trace daemonStep .start events,
        (t.pre.profiles.getD []).length ≤ 1 ∧ (t.post.profiles.getD []).length ≤ 1 := by
      refine trace_invariant (P := fun d : Daemon => (d.profiles.getD []).length ≤ 1) (by decide) ?_
      intro t ht hpre
      obtain ⟨hr, hs, -⟩ := mem_trace .init ht
      obtain ⟨xs, ys, hx, hy, -, hins, hno⟩ := installs_cases hr hs
      rw [Daemon.profiles, LinkedList.toList_eq hx, Option.getD_some, List.length_map] at hpre
      rw [Daemon.profiles, LinkedList.toList_eq hy, Option.getD_some, List.length_map]
      by_cases hi : Installs t
      · have h0 := h t ht hi
        rw [Daemon.profiles, LinkedList.toList_eq hx, Option.some.injEq, List.map_eq_nil_iff] at h0
        rw [hins hi, h0]
        exact le_rfl
      · exact (hno hi).trans hpre
    intro t ht
    obtain ⟨hr, hs, -⟩ := mem_trace .init ht
    obtain ⟨xs, ys, -, hy, hinv, -⟩ := installs_cases hr hs
    have h1 := (hshort t ht).2
    rw [Daemon.profiles, LinkedList.toList_eq hy, Option.getD_some] at h1 ⊢
    exact (distinctIdentifiers_iff hinv).2 h1
  · obtain ⟨t, ht, hn⟩ := List.mem_filterMap.1 hn
    obtain ⟨hr, hs, -⟩ := mem_trace .init ht
    exact reportedSeqNumber_eq hr hs hn

/-! ## A run with two installations -/

/-- **Two installed profiles share their identifiers.** -/
theorem identifiers_fail :
    ¬ ∀ events,
      (∀ t ∈ trace daemonStep .start events, DistinctIdentifiers (t.post.profiles.getD [])) ∧
        ((trace daemonStep .start events).filterMap reportedSeqNumber).Pairwise (· < ·) := by
  intro h
  have hshared : (trace daemonStep .start (sampleInstall ++ [.request sampleEnv
      ⟨.transmit, [0x80, 0xE2, 0x91, 0x00, 0x03, 0xA3, 0x01, 0x55]⟩])).any (fun t =>
        ¬ ((t.post.profiles.getD []).map (·.iccid)).Nodup) = true := by
    decide +kernel
  obtain ⟨t, ht, hshared⟩ := List.any_eq_true.1 hshared
  exact of_decide_eq_true hshared ((h _).1 t ht).1

end VirtualRsp.Card
