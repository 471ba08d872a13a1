import VirtualRsp.Foundations.Place
import VirtualRsp.Protocol.Messages

/-!
# The steps of a download

The LPA downloads a profile in seven steps. Between two steps the output of the first one is pending
in the context (`HttpContext`): a step does nothing if its own output is still pending, or if the
output of the step before it is not. A step that succeeds frees the output it has used. The context
may be cleaned up at any time.

A `Call` is a call of one of these functions with what its transmissions yield, `Call.run` is what
it does to the context, and `Outcome` says what the caller sees and which pending output was passed
on. `download_chain` is about every sequence of calls: each pending output is a place for one value
(`Link.place`).
-/

namespace VirtualRsp.Lpa.Download

/-! ## The context -/

/-- The parameters of AuthenticateServer, as the server has given them. -/
structure AuthenticateServerParam where
  b64ServerSigned1 : Bytes
  b64ServerSignature1 : Bytes
  b64EuiccCiPKIdToBeUsed : Bytes
  b64ServerCertificate : Bytes

/-- A pointer: null, an address that was in the memory before it was allocated, a text, or a JSON
value. -/
inductive Pointer
  | null
  | stale (address : ℕ)
  | text (s : Bytes)
  | json (value : Protocol.Json)

/-- The parameters of PrepareDownload; their memory is allocated without being initialised. -/
structure PrepareDownloadParam where
  b64ProfileMetadata : Pointer
  b64SmdpSigned2 : Pointer
  b64SmdpSignature2 : Pointer
  b64SmdpCertificate : Pointer

/-- What the context keeps of a download; `none` is a null pointer. -/
structure HttpContext where
  transactionIdHttp : Option Bytes
  transactionIdBin : Option Bytes
  b64EuiccChallenge : Option Bytes
  b64EuiccInfo1 : Option Bytes
  authenticateServerParam : Option AuthenticateServerParam
  b64AuthenticateServerResponse : Option Bytes
  prepareDownloadParam : Option PrepareDownloadParam
  b64PrepareDownloadResponse : Option Bytes
  b64BoundProfilePackage : Option Bytes

/-- A context in which nothing is pending. -/
def HttpContext.init : HttpContext := ⟨none, none, none, none, none, none, none, none, none⟩

/-- What a step leaves to the next one. -/
inductive Output
  | challengeAndInfo (b64EuiccChallenge b64EuiccInfo1 : Bytes)
  | authenticateServerParam (param : AuthenticateServerParam)
  | authenticateServerResponse (b64 : Bytes)
  | prepareDownloadParam (param : PrepareDownloadParam)
  | prepareDownloadResponse (b64 : Bytes)
  | boundProfilePackage (b64 : Bytes)

/-- What a call returns, the pending output it has passed to its transmissions, and the output it
has made. -/
structure Outcome where
  success : Bool
  used : Option Output
  made : Option Output

/-- The call returns before it transmits anything. -/
def Outcome.refused : Outcome := ⟨false, none, none⟩

def Outcome.failed (used : Option Output) : Outcome := ⟨false, used, none⟩

def Outcome.succeeded (used made : Option Output) : Outcome := ⟨true, used, made⟩

/-! ## The functions -/

variable (http : HttpContext)

/-- `es10b_get_euicc_challenge_and_info`; the card may answer each of its two commands or not. -/
def getEuiccChallengeAndInfo (b64EuiccChallenge b64EuiccInfo1 : Option Bytes) :
    HttpContext × Outcome :=
  if http.b64EuiccChallenge.isSome || http.b64EuiccInfo1.isSome then (http, .refused)
  else
    match b64EuiccChallenge, b64EuiccInfo1 with
    | some challenge, some info =>
      ({ http with b64EuiccChallenge := some challenge, b64EuiccInfo1 := some info },
        .succeeded none (some (.challengeAndInfo challenge info)))
    | _, _ => ({ http with b64EuiccChallenge := none, b64EuiccInfo1 := none }, .failed none)

/-- What five of the functions do: a call is refused if its own output is still pending (`own`) or
if the output it needs is not (`needed`). Otherwise it transmits, and the context is `onError` or
`onSuccess` afterwards. -/
def guarded {α β γ : Type} (own : Option α) (needed : Option β) (answer : Option γ)
    (used : β → Output) (made : γ → Output) (onError : HttpContext) (onSuccess : γ → HttpContext) :
    HttpContext × Outcome :=
  if own.isSome then (http, .refused)
  else
    match needed with
    | none => (http, .refused)
    | some needed =>
      match answer with
      | none => (onError, .failed (some (used needed)))
      | some answer => (onSuccess answer, .succeeded (some (used needed)) (some (made answer)))

/-- The challenge and the information of the card, if both are pending. -/
def challengeAndInfo : Option (Bytes × Bytes) := do
  let challenge ← http.b64EuiccChallenge
  let info ← http.b64EuiccInfo1
  return (challenge, info)

/-- `es9p_initiate_authentication`; an exchange that fails may have set the transaction id before.
-/
def initiateAuthentication (transactionId : Option Bytes)
    (answer : Option AuthenticateServerParam) : HttpContext × Outcome :=
  guarded http http.authenticateServerParam (challengeAndInfo http) answer
    (fun needed => .challengeAndInfo needed.1 needed.2) .authenticateServerParam
    { http with
      transactionIdHttp := transactionId.or http.transactionIdHttp
      authenticateServerParam := none }
    fun param =>
      { http with
        transactionIdHttp := transactionId.or http.transactionIdHttp
        authenticateServerParam := some param
        b64EuiccChallenge := none
        b64EuiccInfo1 := none }

/-- `es10b_authenticate_server`; the card answers with a transaction id and a response. -/
def authenticateServer (answer : Option (Bytes × Bytes)) : HttpContext × Outcome :=
  guarded http http.b64AuthenticateServerResponse http.authenticateServerParam answer
    .authenticateServerParam (fun answer => .authenticateServerResponse answer.2)
    { http with transactionIdBin := none, b64AuthenticateServerResponse := none }
    fun answer =>
      { http with
        transactionIdBin := some answer.1
        b64AuthenticateServerResponse := some answer.2
        authenticateServerParam := none }

/-- `es9p_authenticate_client`. -/
def authenticateClient (answer : Option PrepareDownloadParam) : HttpContext × Outcome :=
  guarded http http.prepareDownloadParam http.b64AuthenticateServerResponse answer
    .authenticateServerResponse .prepareDownloadParam { http with prepareDownloadParam := none }
    fun param =>
      { http with prepareDownloadParam := some param, b64AuthenticateServerResponse := none }

/-- `es10b_prepare_download`. -/
def prepareDownload (answer : Option Bytes) : HttpContext × Outcome :=
  guarded http http.b64PrepareDownloadResponse http.prepareDownloadParam answer
    .prepareDownloadParam .prepareDownloadResponse { http with b64PrepareDownloadResponse := none }
    fun response =>
      { http with b64PrepareDownloadResponse := some response, prepareDownloadParam := none }

/-- `es9p_get_bound_profile_package`. -/
def getBoundProfilePackage (answer : Option Bytes) : HttpContext × Outcome :=
  guarded http http.b64BoundProfilePackage http.b64PrepareDownloadResponse answer
    .prepareDownloadResponse .boundProfilePackage { http with b64BoundProfilePackage := none }
    fun package =>
      { http with b64BoundProfilePackage := some package, b64PrepareDownloadResponse := none }

/-- `es10b_load_bound_profile_package`: the package is freed whether the load succeeds or not. -/
def loadBoundProfilePackage (success : Bool) : HttpContext × Outcome :=
  match http.b64BoundProfilePackage with
  | none => (http, .refused)
  | some package =>
    ({ http with b64BoundProfilePackage := none },
      ⟨success, some (.boundProfilePackage package), none⟩)

/-! ## Calls -/

/-- The steps of a download, in order. -/
inductive Step
  | getEuiccChallengeAndInfo
  | initiateAuthentication
  | authenticateServer
  | authenticateClient
  | prepareDownload
  | getBoundProfilePackage
  | loadBoundProfilePackage
  deriving DecidableEq

/-- A call with what its transmissions yield. -/
inductive Call
  | getEuiccChallengeAndInfo (b64EuiccChallenge b64EuiccInfo1 : Option Bytes)
  | initiateAuthentication (transactionId : Option Bytes)
    (answer : Option AuthenticateServerParam)
  | authenticateServer (answer : Option (Bytes × Bytes))
  | authenticateClient (answer : Option PrepareDownloadParam)
  | prepareDownload (answer : Option Bytes)
  | getBoundProfilePackage (answer : Option Bytes)
  | loadBoundProfilePackage (success : Bool)
  | httpCleanup

namespace Call

/-- The step that a call makes; a cleanup makes none. -/
def stepOf : Call → Option Step
  | getEuiccChallengeAndInfo _ _ => some .getEuiccChallengeAndInfo
  | initiateAuthentication _ _ => some .initiateAuthentication
  | authenticateServer _ => some .authenticateServer
  | authenticateClient _ => some .authenticateClient
  | prepareDownload _ => some .prepareDownload
  | getBoundProfilePackage _ => some .getBoundProfilePackage
  | loadBoundProfilePackage _ => some .loadBoundProfilePackage
  | httpCleanup => none

/-- What a call does; `euicc_http_cleanup` leaves a context in which nothing is pending. -/
def run : Call → HttpContext × Outcome
  | getEuiccChallengeAndInfo challenge info => Download.getEuiccChallengeAndInfo http challenge info
  | initiateAuthentication transactionId answer =>
    Download.initiateAuthentication http transactionId answer
  | authenticateServer answer => Download.authenticateServer http answer
  | authenticateClient answer => Download.authenticateClient http answer
  | prepareDownload answer => Download.prepareDownload http answer
  | getBoundProfilePackage answer => Download.getBoundProfilePackage http answer
  | loadBoundProfilePackage success => Download.loadBoundProfilePackage http success
  | httpCleanup => (.init, .succeeded none none)

end Call

/-- A call as a step of a run. -/
def step (http : HttpContext) (call : Call) : Option HttpContext := some (call.run http).1

/-! ## Pending outputs -/

/-- The places between the steps: what is pending there. -/
inductive Link
  | challengeAndInfo
  | authenticateServerParam
  | authenticateServerResponse
  | prepareDownloadParam
  | prepareDownloadResponse
  | boundProfilePackage
  deriving DecidableEq

namespace Link

/-- The step before a place. -/
def producer : Link → Step
  | challengeAndInfo => .getEuiccChallengeAndInfo
  | authenticateServerParam => .initiateAuthentication
  | authenticateServerResponse => .authenticateServer
  | prepareDownloadParam => .authenticateClient
  | prepareDownloadResponse => .prepareDownload
  | boundProfilePackage => .getBoundProfilePackage

/-- The step behind a place. -/
def consumer : Link → Step
  | challengeAndInfo => .initiateAuthentication
  | authenticateServerParam => .authenticateServer
  | authenticateServerResponse => .authenticateClient
  | prepareDownloadParam => .prepareDownload
  | prepareDownloadResponse => .getBoundProfilePackage
  | boundProfilePackage => .loadBoundProfilePackage

theorem consumer_injective {link link' : Link} (h : link.consumer = link'.consumer) :
    link = link' := by
  cases link <;> cases link' <;> first | rfl | cases h

theorem producer_ne_load (link : Link) : link.producer ≠ .loadBoundProfilePackage := by
  cases link <;> exact Step.noConfusion

end Link

/-- The place of an output. -/
def Output.link : Output → Link
  | challengeAndInfo _ _ => .challengeAndInfo
  | authenticateServerParam _ => .authenticateServerParam
  | authenticateServerResponse _ => .authenticateServerResponse
  | prepareDownloadParam _ => .prepareDownloadParam
  | prepareDownloadResponse _ => .prepareDownloadResponse
  | boundProfilePackage _ => .boundProfilePackage

/-- What is pending in a context. -/
def pending : Link → Option Output
  | .challengeAndInfo =>
    (challengeAndInfo http).map fun x => .challengeAndInfo x.1 x.2
  | .authenticateServerParam => http.authenticateServerParam.map .authenticateServerParam
  | .authenticateServerResponse =>
    http.b64AuthenticateServerResponse.map .authenticateServerResponse
  | .prepareDownloadParam => http.prepareDownloadParam.map .prepareDownloadParam
  | .prepareDownloadResponse => http.b64PrepareDownloadResponse.map .prepareDownloadResponse
  | .boundProfilePackage => http.b64BoundProfilePackage.map .boundProfilePackage

/-- The output of a place that a call makes. -/
def Outcome.makes (outcome : Outcome) (link : Link) : Option Output :=
  outcome.made.filter (·.link = link)

/-- The output of a place that a call consumes: what it has used if it succeeds, and a package in
any case. -/
def Outcome.takes (outcome : Outcome) (link : Link) : Option Output :=
  outcome.used.filter fun used => used.link = link ∧ (outcome.success ∨ link = .boundProfilePackage)

/-- What a call does to the pending outputs. -/
structure Effect (http : HttpContext) (call : Call) (http' : HttpContext) (outcome : Outcome) :
    Prop where
  used_pending : ∀ output, outcome.used = some output → pending http output.link = some output
  made_free : ∀ output, outcome.made = some output → pending http output.link = none
  made_step : ∀ output, outcome.made = some output →
    call.stepOf = some output.link.producer ∧ outcome.success
  uses : ∀ link : Link, call.stepOf = some link.consumer → outcome.success →
    ∃ output, outcome.used = some output ∧ output.link = link
  loads : call.stepOf = some .loadBoundProfilePackage →
    outcome.used = pending http .boundProfilePackage
  post : ∀ link, pending http' link = (outcome.makes link).or
    (if (outcome.takes link).isSome || call.stepOf.isNone then none else pending http link)

/-- A call that returns before it transmits anything. -/
theorem Effect.refused {http : HttpContext} {call : Call} {k : Step} (hstep : call.stepOf = some k)
    (hload : k = .loadBoundProfilePackage → pending http .boundProfilePackage = none) :
    Effect http call http .refused where
  used_pending _ h := by cases h
  made_free _ h := by cases h
  made_step _ h := by cases h
  uses _ _ h := by cases h
  loads h := by
    rw [hload (Option.some.inj (hstep.symm.trans h))]
    rfl
  post link := by
    rw [hstep]
    rfl

/-- A call whose transmissions fail. -/
theorem Effect.failed {http http' : HttpContext} {call : Call} {k : Step} {used : Option Output}
    (hstep : call.stepOf = some k) (hload : k ≠ .loadBoundProfilePackage)
    (hused : ∀ output, used = some output →
      pending http output.link = some output ∧ output.link.consumer = k)
    (hpost : ∀ link, pending http' link = pending http link) :
    Effect http call http' (.failed used) where
  used_pending output h := (hused output h).1
  made_free _ h := by cases h
  made_step _ h := by cases h
  uses _ _ h := by cases h
  loads h := absurd (Option.some.inj (hstep.symm.trans h)) hload
  post link := by
    have htakes : (Outcome.failed used).takes link = none := by
      refine Option.filter_eq_none_iff.2 fun output h hdecide => ?_
      obtain ⟨hlink, hsuccess | hpackage⟩ := of_decide_eq_true hdecide
      · cases hsuccess
      · apply hload
        rw [← (hused output h).2, hlink, hpackage]
        rfl
    rw [htakes, hstep, hpost]
    rfl

/-- A call whose transmissions succeed. -/
theorem Effect.succeeded {http http' : HttpContext} {call : Call} {used made : Output}
    (hconsumer : call.stepOf = some used.link.consumer)
    (hproducer : call.stepOf = some made.link.producer)
    (hused : pending http used.link = some used) (hmade : pending http made.link = none)
    (hpost : ∀ link, pending http' link =
      if made.link = link then some made else if used.link = link then none
        else pending http link) :
    Effect http call http' (.succeeded (some used) (some made)) where
  used_pending output h := by
    cases h
    exact hused
  made_free output h := by
    cases h
    exact hmade
  made_step output h := by
    cases h
    exact ⟨hproducer, rfl⟩
  uses link h _ :=
    ⟨used, rfl, Link.consumer_injective (Option.some.inj (hconsumer.symm.trans h))⟩
  loads h := absurd (Option.some.inj (hproducer.symm.trans h)) (Link.producer_ne_load _)
  post link := by
    rw [hpost, hproducer]
    by_cases hm : made.link = link <;> by_cases hu : used.link = link <;>
      simp [Outcome.makes, Outcome.takes, Outcome.succeeded, Option.filter, hm, hu]

/-- **The five guarded functions**: what such a call does to the pending outputs. -/
theorem guarded_effect {α β γ : Type} {own : Option α} {needed : Option β} {answer : Option γ}
    {used : β → Output} {made : γ → Output} {onError : HttpContext}
    {onSuccess : γ → HttpContext} {call : Call} {k : Step} (hstep : call.stepOf = some k)
    (hload : k ≠ .loadBoundProfilePackage)
    (hused : ∀ x, pending http (used x).link = needed.map used ∧ (used x).link.consumer = k)
    (hmade : ∀ y, own = none → pending http (made y).link = none ∧ (made y).link.producer = k)
    (herror : ∀ link, own = none → pending onError link = pending http link)
    (hsuccess : ∀ x y link, pending (onSuccess y) link =
      if (made y).link = link then some (made y) else if (used x).link = link then none
        else pending http link) :
    Effect http call (guarded http own needed answer used made onError onSuccess).1
      (guarded http own needed answer used made onError onSuccess).2 := by
  unfold guarded
  split
  · exact .refused hstep fun h => absurd h hload
  · rename_i hown
    have hown : own = none := Option.not_isSome_iff_eq_none.1 hown
    split
    · exact .refused hstep fun h => absurd h hload
    · rename_i x
      obtain ⟨hpending, hconsumer⟩ := hused x
      split
      · refine .failed hstep hload ?_ fun link => herror link hown
        rintro _ ⟨⟩
        exact ⟨hpending, hconsumer⟩
      · rename_i y
        obtain ⟨hfree, hproducer⟩ := hmade y hown
        exact .succeeded (hconsumer ▸ hstep) (hproducer ▸ hstep) hpending hfree
          fun link => hsuccess x y link

theorem initiateAuthentication_effect (transactionId : Option Bytes)
    (answer : Option AuthenticateServerParam) :
    Effect http (.initiateAuthentication transactionId answer)
      (initiateAuthentication http transactionId answer).1
      (initiateAuthentication http transactionId answer).2 := by
  refine guarded_effect http rfl Step.noConfusion (fun _ => ⟨rfl, rfl⟩)
    (fun _ h => ⟨congrArg (Option.map _) h, rfl⟩) (fun link h => ?_) fun _ _ link => ?_
  · cases link <;> simp [pending, challengeAndInfo, h]
  · cases link <;> simp [pending, challengeAndInfo, Output.link]

theorem authenticateServer_effect (answer : Option (Bytes × Bytes)) :
    Effect http (.authenticateServer answer) (authenticateServer http answer).1
      (authenticateServer http answer).2 := by
  refine guarded_effect http rfl Step.noConfusion (fun _ => ⟨rfl, rfl⟩)
    (fun _ h => ⟨congrArg (Option.map _) h, rfl⟩) (fun link h => ?_) fun _ _ link => ?_
  · cases link <;> simp [pending, challengeAndInfo, h]
  · cases link <;> simp [pending, challengeAndInfo, Output.link]

theorem authenticateClient_effect (answer : Option PrepareDownloadParam) :
    Effect http (.authenticateClient answer) (authenticateClient http answer).1
      (authenticateClient http answer).2 := by
  refine guarded_effect http rfl Step.noConfusion (fun _ => ⟨rfl, rfl⟩)
    (fun _ h => ⟨congrArg (Option.map _) h, rfl⟩) (fun link h => ?_) fun _ _ link => ?_
  · cases link <;> simp [pending, challengeAndInfo, h]
  · cases link <;> simp [pending, challengeAndInfo, Output.link]

theorem prepareDownload_effect (answer : Option Bytes) :
    Effect http (.prepareDownload answer) (prepareDownload http answer).1
      (prepareDownload http answer).2 := by
  refine guarded_effect http rfl Step.noConfusion (fun _ => ⟨rfl, rfl⟩)
    (fun _ h => ⟨congrArg (Option.map _) h, rfl⟩) (fun link h => ?_) fun _ _ link => ?_
  · cases link <;> simp [pending, challengeAndInfo, h]
  · cases link <;> simp [pending, challengeAndInfo, Output.link]

theorem getBoundProfilePackage_effect (answer : Option Bytes) :
    Effect http (.getBoundProfilePackage answer) (getBoundProfilePackage http answer).1
      (getBoundProfilePackage http answer).2 := by
  refine guarded_effect http rfl Step.noConfusion (fun _ => ⟨rfl, rfl⟩)
    (fun _ h => ⟨congrArg (Option.map _) h, rfl⟩) (fun link h => ?_) fun _ _ link => ?_
  · cases link <;> simp [pending, challengeAndInfo, h]
  · cases link <;> simp [pending, challengeAndInfo, Output.link]

theorem getEuiccChallengeAndInfo_effect (challenge info : Option Bytes) :
    Effect http (.getEuiccChallengeAndInfo challenge info)
      (getEuiccChallengeAndInfo http challenge info).1
      (getEuiccChallengeAndInfo http challenge info).2 := by
  unfold getEuiccChallengeAndInfo
  split
  · exact .refused rfl Step.noConfusion
  · rename_i hown
    simp only [Bool.or_eq_true, not_or, Option.not_isSome_iff_eq_none] at hown
    obtain ⟨hchallenge, hinfo⟩ := hown
    split
    · exact {
        used_pending := fun _ h => by cases h
        made_free := fun _ h => by
          cases h
          simp [pending, Output.link, challengeAndInfo, hchallenge]
        made_step := fun _ h => by
          cases h
          exact ⟨rfl, rfl⟩
        uses := fun link h => by cases link <;> cases h
        loads := fun h => by cases h
        post := fun link => by
          cases link <;> simp [pending, challengeAndInfo, Outcome.makes, Outcome.takes,
            Outcome.succeeded, Output.link, Option.filter, Call.stepOf] }
    · refine .failed rfl Step.noConfusion (fun _ h => by cases h) fun link => ?_
      cases link <;> simp [pending, challengeAndInfo, hchallenge]

theorem loadBoundProfilePackage_effect (success : Bool) :
    Effect http (.loadBoundProfilePackage success) (loadBoundProfilePackage http success).1
      (loadBoundProfilePackage http success).2 := by
  unfold loadBoundProfilePackage
  split
  · rename_i hnone
    exact .refused rfl fun _ => by simp [pending, hnone]
  · rename_i package hpackage
    exact {
      used_pending := fun _ h => by
        cases h
        simp [pending, Output.link, hpackage]
      made_free := fun _ h => by cases h
      made_step := fun _ h => by cases h
      uses := fun link h _ => ⟨_, rfl, Link.consumer_injective (Option.some.inj h)⟩
      loads := fun _ => by simp [pending, hpackage]
      post := fun link => by
        cases link <;> simp [pending, challengeAndInfo, Outcome.makes, Outcome.takes, Output.link,
          Option.filter, Call.stepOf] }

/-- **Every call** does nothing else to the pending outputs. -/
theorem run_effect (call : Call) : Effect http call (call.run http).1 (call.run http).2 := by
  cases call with
  | getEuiccChallengeAndInfo challenge info => exact getEuiccChallengeAndInfo_effect http _ _
  | initiateAuthentication transactionId answer => exact initiateAuthentication_effect http _ _
  | authenticateServer answer => exact authenticateServer_effect http _
  | authenticateClient answer => exact authenticateClient_effect http _
  | prepareDownload answer => exact prepareDownload_effect http _
  | getBoundProfilePackage answer => exact getBoundProfilePackage_effect http _
  | loadBoundProfilePackage success => exact loadBoundProfilePackage_effect http _
  | httpCleanup =>
    exact {
      used_pending := fun _ h => by cases h
      made_free := fun _ h => by cases h
      made_step := fun _ h => by cases h
      uses := fun _ h => by cases h
      loads := fun h => by cases h
      post := fun link => by cases link <;> rfl }

/-! ## Runs -/

open Run (trace Since)

/-- The outcome of a call that has been made. -/
def outcome (t : Run.Step HttpContext Call) : Outcome := (t.event.run t.pre).2

/-- A call of a step has been successful. -/
def succeeds (k : Step) (t : Run.Step HttpContext Call) : Bool :=
  t.event.stepOf = some k && (outcome t).success

theorem run_effect' {t : Run.Step HttpContext Call} (ht : step t.pre t.event = some t.post) :
    Effect t.pre t.event t.post (outcome t) := by
  rw [step, Option.some.injEq] at ht
  rw [← ht]
  exact run_effect t.pre t.event

theorem makes_eq_some {o : Outcome} {link : Link} {output : Output}
    (h : o.makes link = some output) : o.made = some output ∧ output.link = link := by
  obtain ⟨hmade, hlink⟩ := Option.filter_eq_some_iff.1 h
  exact ⟨hmade, of_decide_eq_true hlink⟩

theorem takes_eq_some {o : Outcome} {link : Link} {output : Output} :
    o.takes link = some output ↔ o.used = some output ∧ output.link = link ∧
      (o.success ∨ link = .boundProfilePackage) := by
  rw [Outcome.takes, Option.filter_eq_some_iff]
  simp only [decide_eq_true_eq]

/-- A pending output is a place for one value. -/
def Link.place (link : Link) : Run.Place step Output where
  content http := pending http link
  puts t := (outcome t).makes link
  takes t := (outcome t).takes link
  clears t := t.event.stepOf.isNone
  content_of_puts t v ht h := by
    obtain ⟨hmade, rfl⟩ := makes_eq_some h
    exact (run_effect' ht).made_free v hmade
  content_of_takes t v ht h := by
    obtain ⟨hused, rfl, -⟩ := takes_eq_some.1 h
    exact (run_effect' ht).used_pending v hused
  content_post t ht := (run_effect' ht).post link

/-- The calls of a run that begins with nothing pending. -/
def calls (events : List Call) : List (Run.Step HttpContext Call) := trace step .init events

theorem effect_of_mem {events : List Call} {t : Run.Step HttpContext Call}
    (ht : t ∈ calls events) : Effect t.pre t.event t.post (outcome t) :=
  run_effect' (Run.mem_trace Run.Reachable.init ht).2.1

theorem pending_init (link : Link) : pending .init link = none := by
  cases link <;> rfl

/-- A call that makes an output is a success of the step before the place. -/
theorem succeeds_of_made {events : List Call} {t : Run.Step HttpContext Call}
    (ht : t ∈ calls events) {output : Output} (h : (outcome t).made = some output) :
    succeeds output.link.producer t = true := by
  obtain ⟨hstep, hsuccess⟩ := (effect_of_mem ht).made_step output h
  rw [succeeds, hstep, hsuccess, decide_eq_true rfl]
  rfl

/-- A success of the step behind a place takes what is pending there. -/
theorem takes_of_succeeds {events : List Call} {t : Run.Step HttpContext Call}
    (ht : t ∈ calls events) {link : Link} (h : succeeds link.consumer t = true) :
    ∃ output, (outcome t).used = some output ∧ output.link = link ∧
      link.place.takes t = some output := by
  rw [succeeds, Bool.and_eq_true, decide_eq_true_eq] at h
  obtain ⟨output, hused, hlink⟩ := (effect_of_mem ht).uses link h.1 h.2
  exact ⟨output, hused, hlink, takes_eq_some.2 ⟨hused, hlink, Or.inl h.2⟩⟩

/-- A place is empty behind a load, and unchanged behind any other call that fails. -/
theorem pending_of_fails {events : List Call} {t : Run.Step HttpContext Call}
    (ht : t ∈ calls events) {link : Link} (hstep : t.event.stepOf = some link.consumer) :
    if link = .boundProfilePackage then pending t.post link = none
      else succeeds link.consumer t = false → pending t.post link = pending t.pre link := by
  have heffect := effect_of_mem ht
  have hmakes : (outcome t).makes link = none := by
    rw [Option.eq_none_iff_forall_ne_some]
    intro output h
    obtain ⟨hmade, rfl⟩ := makes_eq_some h
    have := (heffect.made_step output hmade).1.symm.trans hstep
    cases hlink : output.link <;> rw [hlink] at this <;> cases this
  have hpost := heffect.post link
  rw [hmakes, Option.none_or, hstep, Option.isNone_some, Bool.or_false] at hpost
  rw [hpost]
  split
  · rename_i hpackage
    subst hpackage
    split
    · rfl
    · rename_i htakes
      rw [Outcome.takes, heffect.loads hstep] at htakes
      cases hpackage : t.pre.b64BoundProfilePackage with
      | none => simp [pending, hpackage]
      | some package =>
        simp [pending, hpackage, Output.link, Option.filter] at htakes
  · rename_i hpackage
    intro hfails
    rw [succeeds, hstep, decide_eq_true rfl, Bool.true_and] at hfails
    rw [if_neg]
    intro htakes
    obtain ⟨output, htakes⟩ := Option.isSome_iff_exists.1 htakes
    obtain ⟨-, -, hsuccess | hlink⟩ := takes_eq_some.1 htakes
    · rw [hfails] at hsuccess
      cases hsuccess
    · exact hpackage hlink

/-- **The chain of a download**: for every sequence of calls and whatever their transmissions yield,

* a step succeeds at most as often as the step before it;
* a step that succeeds has used the output of a successful call of the step before it, since which
  no call has made or consumed such an output and the context has not been cleaned up;
* a call that fails leaves the output it needs pending, but a load never does;
* between two loads that pass a package to the card the second package has been got. -/
theorem download_chain (events : List Call) :
    (∀ link : Link, (calls events).countP (succeeds link.consumer) ≤
      (calls events).countP (succeeds link.producer)) ∧
    (∀ (link : Link) past t later, calls events = past ++ t :: later →
      succeeds link.consumer t → ∃ output, (outcome t).used = some output ∧ output.link = link ∧
        Since link.place.Touches
          (fun _ u => succeeds link.producer u ∧ (outcome u).made = some output) past) ∧
    (∀ (link : Link), ∀ t ∈ calls events, t.event.stepOf = some link.consumer →
      if link = .boundProfilePackage then pending t.post link = none
        else succeeds link.consumer t = false → pending t.post link = pending t.pre link) ∧
    ∀ past t between u later, calls events = past ++ t :: (between ++ u :: later) →
      ∀ b64 b64', (outcome t).used = some (.boundProfilePackage b64) →
        (outcome u).used = some (.boundProfilePackage b64') →
        ∃ w ∈ between, succeeds .getBoundProfilePackage w ∧
          (outcome w).made = some (.boundProfilePackage b64') := by
  refine ⟨fun link => ?_, ?_, fun link t ht => pending_of_fails ht, ?_⟩
  · calc (calls events).countP (succeeds link.consumer)
      _ ≤ (calls events).countP fun t => (link.place.takes t).isSome := by
        refine List.countP_mono_left fun t ht h => ?_
        obtain ⟨output, -, -, htakes⟩ := takes_of_succeeds ht h
        rw [htakes]
        rfl
      _ ≤ (calls events).countP fun t => (link.place.puts t).isSome :=
        link.place.countP_takes_le (pending_init link) events
      _ ≤ (calls events).countP (succeeds link.producer) := by
        refine List.countP_mono_left fun t ht h => ?_
        obtain ⟨output, hputs⟩ := Option.isSome_iff_exists.1 h
        obtain ⟨hmade, rfl⟩ := makes_eq_some hputs
        exact succeeds_of_made ht hmade
  · intro link past t later heq hsucceeds
    have hmem : ∀ u ∈ past ++ [t], u ∈ calls events := by
      intro u hu
      rw [heq, List.append_cons]
      exact List.mem_append_left _ hu
    obtain ⟨output, hused, hlink, htakes⟩ := takes_of_succeeds (hmem t (by simp)) hsucceeds
    obtain ⟨past, u, later, rfl, hputs, hlater⟩ :=
      link.place.puts_since (pending_init link) heq htakes
    obtain ⟨hmade, rfl⟩ := makes_eq_some hputs
    refine ⟨output, hused, rfl, past, u, later, rfl, ⟨?_, hmade⟩, hlater⟩
    exact succeeds_of_made (hmem u (by simp)) hmade
  · intro past t between u later heq b64 b64' ht hu
    have htakes : ∀ {b64 t}, (outcome t).used = some (.boundProfilePackage b64) →
        Link.boundProfilePackage.place.takes t = some (.boundProfilePackage b64) :=
      fun h => takes_eq_some.2 ⟨h, rfl, Or.inr rfl⟩
    have h0 : Link.boundProfilePackage.place.content .init = none := rfl
    obtain ⟨w, hw, hputs⟩ := Link.boundProfilePackage.place.puts_between h0 heq
      (by rw [htakes ht]; rfl) (htakes hu)
    have hmem : w ∈ calls events := by
      rw [heq]
      simp [hw]
    obtain ⟨hmade, -⟩ := makes_eq_some hputs
    exact ⟨w, hw, succeeds_of_made hmem hmade, hmade⟩

end VirtualRsp.Lpa.Download
