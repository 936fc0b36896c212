import VcsGateway.Async.Narrated
import VcsGateway.Columns
import VcsGateway.Failures

/-!
# The journey of a webhook

The journey events are the only record of a rejected or a duplicate webhook.  Here
`process_webhook` is told with a remark at every emission, whether or not the event
reaches the broker, and the last remark is compared with how the call ends.  Every
outcome is told by its last event but one: a duplicate that only the unique index
notices ends the journey at "not a duplicate".
-/

namespace VcsGateway

open Async

/-- An attempt to emit a journey event. -/
structure Emission where
  stepType : JourneyStepType
  status : JourneyStepStatus
  /-- The call was cancelled before the attempt was over. -/
  cut : Bool
deriving DecidableEq

abbrev Narration (α : Type) := Narrated Exn Op Op.Ret Emission α

section

variable (P : Platform)

/-- `emit`, remarked. -/
def narratedEmit (stepType : JourneyStepType) (status : JourneyStepStatus)
    (correlationId tenantId : UUID) (metadata : List (String × Json) := []) : Narration Unit :=
  .remarked (emit P stepType status correlationId tenantId metadata) fun
    | .ok _ => ⟨stepType, status, false⟩
    | .error _ => ⟨stepType, status, true⟩

/-! ### The pipeline, told -/

def narratedSignature (vcsProvider : String) (rawPayload : ByteArray) (headers : Headers)
    (webhookSecret : String) (correlationId tenantId : UUID) : Narration Unit := do
  let valid ← .silent (.ofExcept (signatureValid P vcsProvider rawPayload headers webhookSecret))
  narratedEmit P .signatureVerified (if valid then .completed else .failed) correlationId tenantId
  if !valid then .throw invalidSignature else pure ()

def narratedPersist (req : Request) (correlationId : UUID) (prData : PullRequestData)
    (prHashKey : String) : Narration WebhookResult :=
  (Narrated.silent (persist P req correlationId prData prHashKey)).andThen fun
    | .ok (eventId, outboxId) => do
      .silent (markProcessed P prHashKey)
      narratedEmit P .outboxScheduled .completed correlationId req.tenantId
        [("outbox_id", .str outboxId.str), ("pr_hash_key", .str prHashKey)]
      pure (.accepted correlationId eventId outboxId)
    | .error (.service .duplicateError _ _) =>
      pure (.duplicate correlationId prHashKey .dbConstraint)
    | .error exc => .throw exc

def narratedIdempotency (req : Request) (correlationId : UUID) (prData : PullRequestData)
    (prHashKey : String) : Narration WebhookResult := do
  let detection ← .silent (check P prHashKey)
  match detection with
  | some detection => do
    narratedEmit P .idempotencyChecked .info correlationId req.tenantId
      [("detection_method", .str detection.value)]
    pure (.duplicate correlationId prHashKey detection)
  | none => do
    narratedEmit P .idempotencyChecked .completed correlationId req.tenantId
    narratedPersist P req correlationId prData prHashKey

def narratedParse (req : Request) (correlationId : UUID) (eventType : String)
    (whitelist : List VcsEventWhitelist) : Narration WebhookResult := do
  let prData ← .silent (.ofExcept (parsePayload P req.vcsProvider req.rawPayload))
  if !isEventAllowed eventType prData.action whitelist then do
    narratedEmit P .eventTypeValidated .info correlationId req.tenantId
      [("event_type", .str eventType), ("action", .str prData.action)]
    pure (.ignored correlationId eventType)
  else narratedIdempotency P req correlationId prData (requestKey P req prData)

/-- `process_webhook`, remarked at every emission. -/
def narratedWebhook (req : Request) : Narration WebhookResult := do
  let correlationId ← .silent (perform .uuid4)
  if req.vcsProvider ∉ supportedProviders then .throw (unsupportedProvider P req.vcsProvider)
  else do
    let webhookSecret ← .silent (getWebhookSecret P req.tenantId)
    let eventType := extractEventType req.headers
    let whitelist ← .silent (getEventWhitelist req.vcsProvider)
    narratedSignature P req.vcsProvider req.rawPayload req.headers webhookSecret correlationId
      req.tenantId
    narratedEmit P .webhookReceived .inProgress correlationId req.tenantId
    narratedParse P req correlationId eventType whitelist

/-! ### Without the remarks it is the pipeline -/

@[simp] theorem erase_narratedEmit (stepType : JourneyStepType) (status : JourneyStepStatus)
    (correlationId tenantId : UUID) (metadata : List (String × Json)) :
    (narratedEmit P stepType status correlationId tenantId metadata).erase =
      emit P stepType status correlationId tenantId metadata :=
  Narrated.erase_remarked _ _

theorem erase_narratedSignature (vcsProvider : String) (rawPayload : ByteArray) (headers : Headers)
    (webhookSecret : String) (correlationId tenantId : UUID) :
    (narratedSignature P vcsProvider rawPayload headers webhookSecret correlationId tenantId).erase =
      validateSignature P vcsProvider rawPayload headers webhookSecret correlationId tenantId := by
  unfold narratedSignature validateSignature
  simp only [Narrated.erase_bind, Narrated.erase_silent, erase_narratedEmit]
  congr 1
  funext valid
  cases valid <;> rfl

theorem erase_narratedPersist (req : Request) (correlationId : UUID) (prData : PullRequestData)
    (prHashKey : String) :
    (narratedPersist P req correlationId prData prHashKey).erase =
      persistStep P req correlationId prData prHashKey := by
  unfold narratedPersist persistStep
  rw [Narrated.erase_andThen, Narrated.erase_silent]
  congr 1
  funext r
  rcases r with exc | ⟨eventId, outboxId⟩
  · cases exc with
    | service cls message details => cases cls <;> rfl
    | _ => rfl
  · simp only [Narrated.erase_bind, Narrated.erase_silent, erase_narratedEmit]
    rfl

theorem erase_narratedIdempotency (req : Request) (correlationId : UUID) (prData : PullRequestData)
    (prHashKey : String) :
    (narratedIdempotency P req correlationId prData prHashKey).erase =
      idempotencyStep P req correlationId prData prHashKey := by
  unfold narratedIdempotency idempotencyStep
  simp only [Narrated.erase_bind, Narrated.erase_silent]
  congr 1
  funext detection
  cases detection with
  | none => simp only [Narrated.erase_bind, erase_narratedEmit, erase_narratedPersist]
  | some detection =>
    simp only [Narrated.erase_bind, erase_narratedEmit]
    rfl

theorem erase_narratedParse (req : Request) (correlationId : UUID) (eventType : String)
    (whitelist : List VcsEventWhitelist) :
    (narratedParse P req correlationId eventType whitelist).erase =
      parseStep P req correlationId eventType whitelist := by
  unfold narratedParse parseStep
  simp only [Narrated.erase_bind, Narrated.erase_silent]
  congr 1
  funext prData
  split
  · simp only [Narrated.erase_bind, erase_narratedEmit]
    rfl
  · exact erase_narratedIdempotency P req correlationId prData _

/-- The told pipeline is the pipeline. -/
theorem erase_narratedWebhook (req : Request) :
    (narratedWebhook P req).erase = processWebhook P req := by
  unfold narratedWebhook processWebhook
  simp only [Narrated.erase_bind, Narrated.erase_silent]
  congr 1
  funext correlationId
  split
  · rfl
  · simp only [Narrated.erase_bind, Narrated.erase_silent, erase_narratedSignature,
      erase_narratedEmit, erase_narratedParse]

end

variable {P : Platform}

/-- A call that got these answers attempted to emit these events, and ended so. -/
def Attempts (P : Platform) (req : Request) (steps : List GatewayStep) (journey : List Emission)
    (r : Except Exn WebhookResult) : Prop :=
  (narratedWebhook P req).Tells steps journey r

/-- Every ended call has attempted exactly one sequence of events. -/
theorem existsUnique_attempts {req : Request} {steps : List GatewayStep}
    {r : Except Exn WebhookResult} (h : (processWebhook P req).Follows steps r) :
    ∃! journey, Attempts P req steps journey r := by
  rw [← erase_narratedWebhook] at h
  exact Narrated.existsUnique_tells h

theorem narratedEmit_tells {stepType : JourneyStepType} {status : JourneyStepStatus}
    {correlationId tenantId : UUID} {metadata : List (String × Json)} {steps : List GatewayStep}
    {journey : List Emission} {r : Except Exn Unit}
    (h : (narratedEmit P stepType status correlationId tenantId metadata).Tells steps journey r) :
    (∀ step ∈ steps, step.op.Idle) ∧
      ((journey = [⟨stepType, status, false⟩] ∧ r = .ok ()) ∨
        (journey = [⟨stepType, status, true⟩] ∧ r = .error .cancelledError)) := by
  obtain ⟨rfl, hf⟩ := Narrated.tells_remarked.mp h
  constructor
  · exact (emit_idle P _ _ _ _ _).follows hf
  · rcases emit_follows hf with rfl | rfl
    · exact .inl ⟨rfl, rfl⟩
    · exact .inr ⟨rfl, rfl⟩

/-! ### What the journey tells -/

/-- The last event that was attempted. -/
def lastEvent (journey : List Emission) : Option (JourneyStepType × JourneyStepStatus) :=
  journey.getLast?.map fun e => (e.stepType, e.status)

/-- The last event tells how the call ended. -/
structure TellsOutcome (journey : List Emission) (r : Except Exn WebhookResult) : Prop where
  accepted : (∃ correlationId eventId outboxId, r = .ok (.accepted correlationId eventId outboxId)) ↔
    lastEvent journey = some (.outboxScheduled, .completed)
  duplicate : (∃ correlationId prHashKey method, r = .ok (.duplicate correlationId prHashKey method)) ↔
    lastEvent journey = some (.idempotencyChecked, .info)
  ignored : (∃ correlationId eventType, r = .ok (.ignored correlationId eventType)) ↔
    lastEvent journey = some (.eventTypeValidated, .info)
  rejected : r = .error invalidSignature ↔ lastEvent journey = some (.signatureVerified, .failed)
  returned : ∀ result, r = .ok result → lastEvent journey ≠ some (.idempotencyChecked, .completed)

/-- An event that tells an outcome. -/
def Emission.Telling (e : Emission) : Prop :=
  (e.stepType, e.status) ∈ [(JourneyStepType.outboxScheduled, JourneyStepStatus.completed),
    (.idempotencyChecked, .info), (.eventTypeValidated, .info), (.signatureVerified, .failed)]

/-- The call was cancelled while it emitted an event that tells an outcome. -/
def Interrupted (journey : List Emission) : Prop :=
  ∃ e, journey.getLast? = some e ∧ e.Telling ∧ e.cut = true

/-- The unique index refused the row. -/
def Violated (steps : List GatewayStep) : Prop :=
  ∃ args, (⟨.insertInbound args, .error .uniqueViolationError⟩ : GatewayStep) ∈ steps

/-- The unique index refused the row, and the transaction was rolled back. -/
def RowRefused (steps : List GatewayStep) : Prop :=
  Violated steps ∧ (⟨.rollback, .ok ()⟩ : GatewayStep) ∈ steps

/-- The steps outside the transaction play no role. -/
theorem rowRefused_congr {steps steps' : List GatewayStep}
    (h : ∀ step : GatewayStep, ¬step.op.Idle → (step ∈ steps ↔ step ∈ steps')) :
    RowRefused steps ↔ RowRefused steps' := by
  have hinsert : ∀ args, ¬(Op.insertInbound args).Idle := by
    rintro args ⟨⟨⟩⟩
  have hrollback : ¬Op.rollback.Idle := by
    rintro ⟨⟨⟩⟩
  unfold RowRefused Violated
  rw [h ⟨.rollback, .ok ()⟩ hrollback]
  simp only [h ⟨.insertInbound _, .error .uniqueViolationError⟩ (hinsert _)]

theorem rowRefused_after {first rest : List GatewayStep} (h : ∀ step ∈ first, step.op.Idle) :
    RowRefused (first ++ rest) ↔ RowRefused rest := by
  apply rowRefused_congr
  intro step hidle
  rw [List.mem_append]
  exact or_iff_right fun hmem => hidle (h step hmem)

theorem rowRefused_before {first rest : List GatewayStep} (h : ∀ step ∈ rest, step.op.Idle) :
    RowRefused (first ++ rest) ↔ RowRefused first := by
  apply rowRefused_congr
  intro step hidle
  rw [List.mem_append]
  exact or_iff_left fun hmem => hidle (h step hmem)

theorem not_rowRefused {steps : List GatewayStep} (h : ∀ step ∈ steps, step.op.Idle) :
    ¬RowRefused steps := by
  rw [← List.append_nil steps, rowRefused_after h]
  rintro ⟨-, hrollback⟩
  simp at hrollback

/-! ### The duplicate that only the index notices -/

/-- An exception that a database call other than the insertion raises. -/
theorem plausible_ne_unique {op : Op} {e : Exn} (hp : Plausible ⟨op, .error e⟩)
    (hop : ∀ args, op ≠ .insertInbound args) : e ≠ .uniqueViolationError := by
  rintro rfl
  have hthrows : (perform op).Gives Plausible (Throws fun _ => False) :=
    perform_throws _ (.inl hop)
  rcases hthrows.follows (Prog.follows_perform.mpr rfl) (by simpa using hp) _ rfl with hraw | hcancel | hfalse
  · exact hraw
  · simp at hcancel
  · exact hfalse

theorem scheduleEvent_throws (eventType : String) (correlationId : UUID) (prHashKey : String)
    (prVersion : Int) (payload headers : Json) (debounceSeconds : Nat) :
    (scheduleEvent P eventType correlationId prHashKey prVersion payload headers
      debounceSeconds).Gives Plausible (Throws fun _ => False) := by
  have hcancel : (cancelPrevious prHashKey prVersion "superseded_by_newer_version").Gives Plausible
      (Throws fun _ => False) :=
    bind_throws (perform_throws _ (.inl (by simp))) fun ids =>
      forEach_throws (fun id => perform_throws _ (.inl (by simp))) ids
  exact bind_throws hcancel fun _ => perform_throws _ (.inl (by simp))

theorem scheduleEvent_schedules (eventType : String) (correlationId : UUID) (prHashKey : String)
    (prVersion : Int) (payload headers : Json) (debounceSeconds : Nat) :
    (scheduleEvent P eventType correlationId prHashKey prVersion payload headers
      debounceSeconds).Only fun op => (∀ args, op ≠ .insertInbound args) ∧ op ≠ .rollback := by
  have hcancel : (cancelPrevious prHashKey prVersion "superseded_by_newer_version").Only
      fun op => (∀ args, op ≠ .insertInbound args) ∧ op ≠ .rollback := by
    apply (cancelPrevious_only prHashKey prVersion _).mono
    rintro op ⟨⟩ <;> simp
  exact hcancel.bind fun _ => Prog.only_perform.mpr (by simp)

/-- The body of the transaction raises the violation that it meets, and no other. -/
theorem persistBody_violates {req : Request} {correlationId eventId : UUID} {timestamp : Time}
    {prData : PullRequestData} {prHashKey : String} {rawJson : List (String × Json)}
    {steps : List GatewayStep} {r : Except Exn UUID}
    (h : (persistBody P req correlationId eventId timestamp prData prHashKey rawJson).Follows steps r)
    (hsteps : ∀ step ∈ steps, Plausible step) :
    Violated steps ↔ r = .error .uniqueViolationError := by
  obtain ⟨a, rest, rfl, hrest⟩ := Prog.follows_await.mp h
  rcases a with e | row
  · obtain ⟨rfl, rfl⟩ := Prog.follows_ret.mp hrest
    simp only [Violated, List.mem_singleton, Step.mk.injEq, Except.error.injEq]
    constructor
    · rintro ⟨args, heq, hheq⟩
      obtain rfl := Op.insertInbound.inj heq
      exact (Except.error.inj (eq_of_heq hheq)).symm
    · rintro rfl
      exact ⟨_, rfl, HEq.rfl⟩
  · -- the row is in: what follows neither inserts nor violates
    let tail : Coroutine UUID := do
      let _ ← Prog.ofExcept (row.modelValidate P)
      scheduleEvent P "vcs.webhook.received" correlationId prHashKey 1
        ((receivedMessage req correlationId eventId timestamp prData prHashKey rawJson).modelDump P)
        (.dict [("correlation_id", .str correlationId.str)]) P.settings.outboxDebounceSeconds
    have htail : tail.Follows rest r := hrest
    have hnot : ¬Violated (⟨.insertInbound (inboundArgs req correlationId eventId prData prHashKey
        rawJson), .ok row⟩ :: rest) := by
      rintro ⟨args, hmem⟩
      rcases List.mem_cons.mp hmem with heq | hmem
      · simp only [Step.mk.injEq] at heq
        obtain ⟨hargs, hheq⟩ := heq
        obtain rfl := Op.insertInbound.inj hargs
        simp at hheq
      · have honly : tail.Only fun op => (∀ args, op ≠ .insertInbound args) ∧ op ≠ .rollback :=
          Prog.Only.bind (p := Prog.ofExcept _) trivial fun _ => scheduleEvent_schedules _ _ _ _ _ _ _
        exact (honly.follows htail _ hmem).1 args rfl
    rw [iff_false_left hnot]
    rintro rfl
    have hthrows : tail.Gives Plausible (Throws fun _ => False) :=
      bind_throws (validated_throws _ row) fun _ => scheduleEvent_throws _ _ _ _ _ _ _
    rcases hthrows.follows htail (fun step hstep => hsteps step (List.mem_cons_of_mem _ hstep)) _ rfl
      with hraw | hcancel | hfalse
    · exact hraw
    · simp at hcancel
    · exact hfalse

/-- The violation leaves a transaction that could be rolled back. -/
theorem transaction_rowRefused {α : Type} {body : Coroutine α} {steps : List GatewayStep}
    {r : Except Exn α} (hbody : ∀ first a, body.Follows first a → (∀ step ∈ first, Plausible step) →
      (Violated first ↔ a = .error .uniqueViolationError))
    (hrollback : body.Only fun op => op ≠ .rollback)
    (h : (transaction body).Follows steps r) (hsteps : ∀ step ∈ steps, Plausible step) :
    RowRefused steps ↔ r = .error .uniqueViolationError := by
  obtain ⟨b, rest, rfl, hrest⟩ := Prog.follows_await.mp h
  have hbegin : ∀ {rest : List GatewayStep}, Violated (⟨.begin, b⟩ :: rest) ↔ Violated rest := by
    intro rest
    simp [Violated]
  rcases b with e | u
  · obtain ⟨rfl, rfl⟩ := Prog.follows_ret.mp hrest
    have hne := plausible_ne_unique (hsteps _ List.mem_cons_self) (by simp)
    simp [RowRefused, Violated, hne]
  change (body.andThen _).Follows rest r at hrest
  obtain ⟨first, last, a, rfl, hfirst, hlast⟩ := Prog.follows_andThen.mp hrest
  have hviolated := hbody first a hfirst fun step hstep =>
    hsteps step (List.mem_cons_of_mem _ (List.mem_append_left _ hstep))
  have hno : ∀ c, (⟨.rollback, c⟩ : GatewayStep) ∉ first :=
    fun c hmem => hrollback.follows hfirst _ hmem rfl
  rcases a with exc | a
  · -- the body has raised
    obtain ⟨c, rest, rfl, hend⟩ := Prog.follows_await.mp hlast
    rcases c with e | u'
    · obtain ⟨rfl, rfl⟩ := Prog.follows_ret.mp hend
      have hne := plausible_ne_unique (hsteps ⟨.rollback, .error e⟩ (by simp)) (by simp)
      simp [RowRefused, hno, hne]
    · obtain ⟨rfl, rfl⟩ := Prog.follows_ret.mp hend
      have hlast : Violated (first ++ [⟨.rollback, .ok u'⟩]) ↔ Violated first := by
        simp [Violated]
      simp only [Except.error.injEq] at hviolated
      rw [RowRefused, hbegin, hlast, hviolated]
      simp
  · -- the body is done, and the transaction is committed
    obtain ⟨c, rest, rfl, hend⟩ := Prog.follows_await.mp hlast
    rcases c with e | u'
    · obtain ⟨rfl, rfl⟩ := Prog.follows_ret.mp hend
      have hne := plausible_ne_unique (hsteps ⟨.commit, .error e⟩ (by simp)) (by simp)
      simp [RowRefused, hno, hne]
    · obtain ⟨rfl, rfl⟩ := Prog.follows_ret.mp hend
      simp [RowRefused, hno]

/-- **`persist` reports a duplicate** exactly when the index refused the row and the
    transaction was rolled back. -/
theorem persist_rowRefused {req : Request} {correlationId : UUID} {prData : PullRequestData}
    {prHashKey : String} {steps : List GatewayStep} {r : Except Exn (UUID × UUID)}
    (h : (persist P req correlationId prData prHashKey).Follows steps r)
    (hsteps : ∀ step ∈ steps, Plausible step) :
    RowRefused steps ↔ r = .error (alreadyPersisted prHashKey) := by
  obtain ⟨a, rest, rfl, hrest⟩ := Prog.follows_await.mp h
  rcases a with e | eventId
  · exact absurd rfl ((hsteps _ List.mem_cons_self).2 (.inl rfl) e)
  have huuid : ∀ step ∈ [(⟨.uuid4, .ok eventId⟩ : GatewayStep)], step.op.Idle := by
    intro step hstep
    rw [List.mem_singleton.mp hstep]
    exact .journey .uuid4
  rw [← List.singleton_append, rowRefused_after huuid]
  change (Prog.ofExcept (loadsDict P req.rawPayload) >>= _ : Coroutine (UUID × UUID)).Follows rest r
    at hrest
  rcases Prog.follows_ofExcept_bind.mp hrest with ⟨rawJson, -, hlater⟩ | ⟨e, hloads, rfl, rfl⟩
  swap
  · have hraw := loadsDict_raw hloads
    rw [iff_false_left (not_rowRefused (by simp))]
    rintro heq
    rw [Except.error.inj heq] at hraw
    exact hraw
  obtain ⟨b, last, rfl, hlast⟩ := Prog.follows_await.mp hlater
  rcases b with e | timestamp
  · exact absurd rfl ((hsteps ⟨.utcnow, .error e⟩ (by simp)).2 (.inr rfl) e)
  have hclock : ∀ step ∈ [(⟨.utcnow, .ok timestamp⟩ : GatewayStep)], step.op.Idle := by
    intro step hstep
    rw [List.mem_singleton.mp hstep]
    exact .journey .utcnow
  rw [← List.singleton_append, rowRefused_after hclock]
  let tx : Coroutine UUID :=
    transaction (persistBody P req correlationId eventId timestamp prData prHashKey rawJson)
  have hthrows : tx.Gives Plausible (Throws (· = .uniqueViolationError)) :=
    transaction_throws (persistBody_throws _ _ _ _ _ _ _)
  have hrefused : ∀ {first : List GatewayStep} {a : Except Exn UUID}, tx.Follows first a →
      (∀ step ∈ first, Plausible step) → (RowRefused first ↔ a = .error .uniqueViolationError) := by
    intro first a hfirst hplausible
    refine transaction_rowRefused (fun _ _ => persistBody_violates) ?_ hfirst hplausible
    have hinsert : (insertInbound P (inboundArgs req correlationId eventId prData prHashKey
        rawJson)).Only (· ≠ .rollback) := (Prog.only_perform.mpr (by simp)).bind fun _ => trivial
    exact hinsert.bind fun _ => (scheduleEvent_schedules _ _ _ _ _ _ _).mono fun _ hop => hop.2
  have hplausible : ∀ step ∈ last, Plausible step := fun step hstep => hsteps step (by simp [hstep])
  change (tx.handle _ >>= _).Follows last r at hlast
  obtain ⟨handled, after, o, rfl, hhandled, hafter⟩ := Prog.follows_andThen.mp hlast
  obtain ⟨first, translated, a, rfl, hfirst, htranslated⟩ := Prog.follows_andThen.mp hhandled
  have hfirstPlausible : ∀ step ∈ first, Plausible step :=
    fun step hstep => hplausible step (by simp [hstep])
  have hiff := hrefused hfirst hfirstPlausible
  rcases a with exc | outboxId
  swap
  · obtain ⟨rfl, rfl⟩ := Prog.follows_ret.mp htranslated
    obtain ⟨rfl, rfl⟩ := Prog.follows_ret.mp hafter
    simpa using hiff
  by_cases hunique : exc = .uniqueViolationError
  · subst hunique
    obtain ⟨rfl, rfl⟩ := Prog.follows_ret.mp htranslated
    obtain ⟨rfl, rfl⟩ := Prog.follows_ret.mp hafter
    simpa using hiff
  · have hsame : translated = [] ∧ o = .error exc := by
      cases exc with
      | uniqueViolationError => exact absurd rfl hunique
      | _ => exact Prog.follows_ret.mp htranslated
    obtain ⟨rfl, rfl⟩ := hsame
    obtain ⟨rfl, rfl⟩ := Prog.follows_ret.mp hafter
    have hne : exc ≠ alreadyPersisted prHashKey := by
      rintro rfl
      rcases hthrows.follows hfirst hfirstPlausible _ rfl with hraw | hcancel | heq
      · exact hraw
      · simp [alreadyPersisted, Exn.duplicateError] at hcancel
      · simp [alreadyPersisted, Exn.duplicateError] at heq
    simpa [hunique, hne] using hiff

/-! ### The last event -/

@[simp] theorem lastEvent_append (before : List Emission) (e : Emission) :
    lastEvent (before ++ [e]) = some (e.stepType, e.status) := by
  simp [lastEvent]

/-- The last event so far tells no outcome. -/
def Quiet (journey : List Emission) : Prop := ∀ e, journey.getLast? = some e → ¬e.Telling

theorem quiet_nil : Quiet [] := by
  intro e he
  simp at he

theorem quiet_append (before : List Emission) {e : Emission} (h : ¬e.Telling) :
    Quiet (before ++ [e]) := by
  intro e' he'
  rw [List.getLast?_concat, Option.some.injEq] at he'
  rw [← he']
  exact h

instance (e : Emission) : Decidable e.Telling :=
  inferInstanceAs (Decidable (_ ∈ _))

/-- What is left of a call whose journey so far is `before` ends as its last event tells, unless
    its row is refused or it is interrupted. -/
def Told (before : List Emission) (p : Narration WebhookResult) : Prop :=
  ∀ steps journey r, p.Tells steps journey r → (∀ step ∈ steps, Plausible step) →
    (TellsOutcome (before ++ journey) r ↔ ¬RowRefused steps ∧ ¬Interrupted (before ++ journey))

variable {before : List Emission}

theorem Quiet.tellsOutcome (h : Quiet before) {e : Exn} (he : e ≠ invalidSignature) :
    TellsOutcome before (.error e) := by
  have hlast : ∀ stepType status, (⟨stepType, status, false⟩ : Emission).Telling →
      lastEvent before ≠ some (stepType, status) := by
    intro stepType status htelling heq
    obtain ⟨e, hgetLast, hpair⟩ := Option.map_eq_some_iff.mp heq
    apply h e hgetLast
    unfold Emission.Telling
    rw [hpair]
    exact htelling
  constructor
  · simpa using hlast _ _ (by decide)
  · simpa using hlast _ _ (by decide)
  · simpa using hlast _ _ (by decide)
  · simpa [he] using hlast _ _ (by decide)
  · simp

theorem Quiet.not_interrupted (h : Quiet before) : ¬Interrupted before := by
  rintro ⟨e, hlast, htelling, -⟩
  exact h e hlast htelling

theorem Told.throw (h : Quiet before) {e : Exn} (he : e ≠ invalidSignature) :
    Told before (.throw e) := by
  intro steps journey r htells _
  obtain ⟨rfl, rfl, rfl⟩ := Narrated.tells_ret.mp htells
  rw [List.append_nil]
  exact iff_of_true (h.tellsOutcome he) ⟨not_rowRefused (by simp), h.not_interrupted⟩

/-- The end of a call that its last event tells. -/
theorem Told.ret {e : Emission} {r : Except Exn WebhookResult} (hcut : e.cut = false)
    (h : TellsOutcome (before ++ [e]) r) : Told (before ++ [e]) (.ret r) := by
  intro steps journey r' htells _
  obtain ⟨rfl, rfl, rfl⟩ := Narrated.tells_ret.mp htells
  rw [List.append_nil]
  refine iff_of_true h ⟨not_rowRefused (by simp), ?_⟩
  rintro ⟨e', hlast, -, hcut'⟩
  rw [List.getLast?_concat, Option.some.injEq] at hlast
  rw [← hlast, hcut] at hcut'
  simp at hcut'

/-! The four events that tell an outcome. -/

theorem tellsOutcome_accepted (before : List Emission) (correlationId eventId outboxId : UUID) :
    TellsOutcome (before ++ [⟨.outboxScheduled, .completed, false⟩])
      (.ok (.accepted correlationId eventId outboxId)) := by
  constructor <;> simp

theorem tellsOutcome_duplicate (before : List Emission) (correlationId : UUID) (prHashKey : String)
    (method : Detection) :
    TellsOutcome (before ++ [⟨.idempotencyChecked, .info, false⟩])
      (.ok (.duplicate correlationId prHashKey method)) := by
  constructor <;> simp

theorem tellsOutcome_ignored (before : List Emission) (correlationId : UUID) (eventType : String) :
    TellsOutcome (before ++ [⟨.eventTypeValidated, .info, false⟩])
      (.ok (.ignored correlationId eventType)) := by
  constructor <;> simp

theorem tellsOutcome_rejected (before : List Emission) :
    TellsOutcome (before ++ [⟨.signatureVerified, .failed, false⟩]) (.error invalidSignature) := by
  constructor <;> simp

/-- A part of the call that emits nothing. -/
theorem Told.silent {α : Type} {p : Coroutine α} {f : α → Narration WebhookResult}
    (h : Quiet before) (hidle : p.Only Op.Idle)
    (hthrows : p.Gives Plausible (Throws (· ≠ invalidSignature)))
    (hf : ∀ a, Told before (f a)) : Told before (.silent p >>= f) := by
  intro steps journey r htells hsteps
  rcases Narrated.tells_bind.mp htells with ⟨first, rest, said, later, a, rfl, rfl, hp, hrest⟩ |
    ⟨e, rfl, hp⟩
  · obtain ⟨rfl, hfollows⟩ := Narrated.tells_silent.mp hp
    rw [rowRefused_after (hidle.follows hfollows), List.nil_append]
    exact hf a rest later r hrest fun step hstep => hsteps step (List.mem_append_right _ hstep)
  · obtain ⟨rfl, hfollows⟩ := Narrated.tells_silent.mp hp
    rw [List.append_nil]
    have hne : e ≠ invalidSignature := by
      rintro rfl
      rcases hthrows.follows hfollows hsteps _ rfl with hraw | hcancel | hne
      · exact hraw
      · simp [invalidSignature, Exn.validationError] at hcancel
      · exact hne rfl
    exact iff_of_true (h.tellsOutcome hne)
      ⟨not_rowRefused (hidle.follows hfollows), h.not_interrupted⟩

/-- An emission, and what comes after it. -/
theorem Told.emit {stepType : JourneyStepType} {status : JourneyStepStatus}
    {correlationId tenantId : UUID} {metadata : List (String × Json)}
    {f : Unit → Narration WebhookResult} (hf : Told (before ++ [⟨stepType, status, false⟩]) (f ())) :
    Told before (narratedEmit P stepType status correlationId tenantId metadata >>= f) := by
  intro steps journey r htells hsteps
  rcases Narrated.tells_bind.mp htells with ⟨first, rest, said, later, u, rfl, rfl, hp, hrest⟩ |
    ⟨e, rfl, hp⟩
  · obtain ⟨hidle, ⟨rfl, -⟩ | ⟨-, hr⟩⟩ := narratedEmit_tells hp
    · rw [rowRefused_after hidle, ← List.append_assoc]
      exact hf rest later r hrest fun step hstep => hsteps step (List.mem_append_right _ hstep)
    · simp at hr
  · obtain ⟨hidle, ⟨-, hr⟩ | ⟨rfl, hr⟩⟩ := narratedEmit_tells hp
    · simp at hr
    obtain rfl := Except.error.inj hr
    have hne : Exn.cancelledError ≠ invalidSignature := by
      simp [invalidSignature, Exn.validationError]
    -- cancelled while the event was emitted: a lie when the event tells an outcome
    by_cases htelling : (⟨stepType, status, true⟩ : Emission).Telling
    · refine iff_of_false ?_ ?_
      · rintro ⟨haccepted, hduplicate, hignored, hrejected, -⟩
        rw [lastEvent_append] at *
        unfold Emission.Telling at htelling
        simp only [List.mem_cons, List.not_mem_nil, or_false] at htelling
        rcases htelling with heq | heq | heq | heq
        · simp [heq] at haccepted
        · simp [heq] at hduplicate
        · simp [heq] at hignored
        · simp [heq, hne] at hrejected
      · rintro ⟨-, hnot⟩
        exact hnot ⟨_, List.getLast?_concat .., htelling, rfl⟩
    · have hquiet := quiet_append before htelling
      exact iff_of_true (hquiet.tellsOutcome hne) ⟨not_rowRefused hidle, hquiet.not_interrupted⟩

/-! ### The stages -/

theorem throws_ofExcept {α : Type} {x : Except Exn α} {others : Exn → Prop}
    (h : ∀ e, x = .error e → e.Raw ∨ others e) :
    (Prog.ofExcept x : Coroutine α).Gives Plausible (Throws others) := by
  intro e he
  rcases h e he with hraw | hother
  · exact .inl hraw
  · exact .inr (.inr hother)

theorem getWebhookSecret_throws (tenantId : UUID) :
    (getWebhookSecret P tenantId).Gives Plausible (Throws (· ≠ invalidSignature)) := by
  have hinactive : tenantInactive ≠ invalidSignature := by
    simp [tenantInactive, invalidSignature, Exn.validationError]
  have hmissing : tenantNotFound tenantId ≠ invalidSignature := by
    simp [tenantNotFound, invalidSignature, Exn.validationError, Exn.notFoundError]
  refine bind_throws (suppressed_throws _ (getTenantCache_suppressed P tenantId)) fun cached => ?_
  cases cached with
  | some cached =>
    apply throws_ofExcept
    intro e he
    unfold secretOfCache at he
    split at he
    · split at he
      · rw [← Except.error.inj he]
        exact .inr hinactive
      · split at he
        · rw [← Except.error.inj he]
          exact .inl trivial
        · simp at he
    · rw [← Except.error.inj he]
      exact .inl trivial
  | none =>
    refine bind_throws (perform_throws _ (.inl (by simp))) fun tenant => ?_
    cases tenant with
    | none => exact throws_error (.inr (.inr hmissing))
    | some tenant =>
      change (ite _ _ _ : Coroutine String).Gives Plausible _
      split
      · exact throws_error (.inr (.inr hinactive))
      · exact bind_throws (suppressed_throws _ (exceptException_suppressed ())) fun _ => throws_ok _ _

/-- The signature check raises nothing but the `TypeError` of `compare_digest`. -/
theorem signatureValid_raw {vcsProvider : String} {rawPayload : ByteArray} {headers : Headers}
    {webhookSecret : String} {e : Exn}
    (h : signatureValid P vcsProvider rawPayload headers webhookSecret = .error e) : e.Raw := by
  unfold signatureValid at h
  split at h
  · unfold validateGithubSignature compareDigest at h
    split at h
    · simp at h
    · split at h
      · simp at h
      · rw [← Except.error.inj h]
        trivial
  · split at h <;> simp at h

section Stages

variable {req : Request} {correlationId : UUID} {prData : PullRequestData} {prHashKey : String}

theorem told_persist :
    Told (before ++ [⟨.idempotencyChecked, .completed, false⟩])
      (narratedPersist P req correlationId prData prHashKey) := by
  have hquiet : Quiet (before ++ [⟨.idempotencyChecked, .completed, false⟩]) :=
    quiet_append before (by decide)
  intro steps journey r htells hsteps
  obtain ⟨first, rest, said, later, a, rfl, rfl, hp, hrest⟩ := Narrated.tells_andThen.mp htells
  obtain ⟨rfl, hpersist⟩ := Narrated.tells_silent.mp hp
  have hfirst : ∀ step ∈ first, Plausible step :=
    fun step hstep => hsteps step (List.mem_append_left _ hstep)
  have hrefused := persist_rowRefused hpersist hfirst
  rw [List.nil_append]
  rcases a with exc | ⟨eventId, outboxId⟩
  · rcases (persist_throws _ _ _ _).follows hpersist hfirst exc rfl with hraw | rfl | rfl
    · -- the call raises what `persist` has raised
      have hrest' : (Narrated.ret (.error exc) : Narration WebhookResult).Tells rest later r := by
        cases exc with
        | service => exact hraw.elim
        | _ => exact hrest
      obtain ⟨rfl, rfl, rfl⟩ := Narrated.tells_ret.mp hrest'
      have hnot : exc ≠ alreadyPersisted prHashKey ∧ exc ≠ invalidSignature := by
        constructor <;> rintro rfl <;> exact hraw
      simp only [Except.error.injEq, hnot.1, iff_false] at hrefused
      simp only [List.append_nil]
      exact iff_of_true (hquiet.tellsOutcome hnot.2) ⟨hrefused, hquiet.not_interrupted⟩
    · obtain ⟨rfl, rfl, rfl⟩ := Narrated.tells_ret.mp hrest
      simp only [alreadyPersisted, Exn.duplicateError, Except.error.injEq, reduceCtorEq,
        iff_false] at hrefused
      simp only [List.append_nil]
      refine iff_of_true (hquiet.tellsOutcome ?_) ⟨hrefused, hquiet.not_interrupted⟩
      simp [invalidSignature, Exn.validationError]
    · -- only the unique index has noticed
      obtain ⟨rfl, rfl, rfl⟩ := Narrated.tells_ret.mp hrest
      simp only [List.append_nil]
      refine iff_of_false ?_ fun h => h.1 (hrefused.mpr rfl)
      intro htold
      exact htold.returned _ rfl (lastEvent_append _ _)
  · -- the row is stored
    have hnot : ¬RowRefused first := by simp [hrefused]
    let tail : Narration WebhookResult := do
      .silent (markProcessed P prHashKey)
      narratedEmit P .outboxScheduled .completed correlationId req.tenantId
        [("outbox_id", .str outboxId.str), ("pr_hash_key", .str prHashKey)]
      pure (.accepted correlationId eventId outboxId)
    have hmark : (markProcessed P prHashKey).Only Op.Idle := setIdempotencyCache_idle _ _
    have htold : Told (before ++ [⟨.idempotencyChecked, .completed, false⟩]) tail := by
      refine .silent hquiet hmark
        (suppressed_throws _ (setIdempotencyCache_suppressed _ _)) fun _ => ?_
      exact .emit (.ret rfl (tellsOutcome_accepted _ _ _ _))
    have hidle : ∀ step ∈ rest, step.op.Idle := by
      have herase : tail.erase.Only Op.Idle := by
        simp only [tail, Narrated.erase_bind, Narrated.erase_silent, erase_narratedEmit]
        exact hmark.bind fun _ => (emit_idle P _ _ _ _ _).bind fun _ => trivial
      exact herase.follows (Narrated.Tells.follows hrest)
    rw [htold rest later r hrest fun step hstep => hsteps step (List.mem_append_right _ hstep),
      rowRefused_before hidle]
    simp [hnot, not_rowRefused hidle]

theorem told_idempotency (hquiet : Quiet before) :
    Told before (narratedIdempotency P req correlationId prData prHashKey) := by
  refine .silent hquiet (check_idle P _) (check_throws _ _) fun detection => ?_
  cases detection with
  | some detection => exact .emit (.ret rfl (tellsOutcome_duplicate _ _ _ _))
  | none => exact .emit told_persist

theorem told_parse (hquiet : Quiet before) {eventType : String}
    {whitelist : List VcsEventWhitelist} :
    Told before (narratedParse P req correlationId eventType whitelist) := by
  refine .silent hquiet trivial ?_ fun prData => ?_
  · apply throws_ofExcept
    intro e he
    rcases parsePayload_error he with ⟨model, rfl⟩ | ⟨message, rfl⟩
    · exact .inl trivial
    · exact .inl trivial
  · split
    · exact .emit (.ret rfl (tellsOutcome_ignored _ _ _))
    · exact told_idempotency hquiet

/-- The signature check, and the rest of a call that passes it. -/
theorem told_signature (hquiet : Quiet before) {webhookSecret : String}
    {rest : Unit → Narration WebhookResult}
    (hrest : Told (before ++ [⟨.signatureVerified, .completed, false⟩]) (rest ())) :
    Told before (narratedSignature P req.vcsProvider req.rawPayload req.headers webhookSecret
      correlationId req.tenantId >>= rest) := by
  unfold narratedSignature
  rw [Narrated.bind_assoc]
  refine .silent hquiet trivial (throws_ofExcept fun e he => .inl (signatureValid_raw he))
    fun valid => ?_
  rw [Narrated.bind_assoc]
  cases valid with
  | true => exact .emit hrest
  | false => exact .emit (.ret rfl (tellsOutcome_rejected _))

theorem told_webhook : Told [] (narratedWebhook P req) := by
  have hprovider : unsupportedProvider P req.vcsProvider ≠ invalidSignature := by
    simp [unsupportedProvider, invalidSignature, Exn.validationError]
  refine .silent quiet_nil (Prog.only_perform.mpr (.journey .uuid4))
    (perform_throws _ (.inl (by simp))) fun correlationId => ?_
  split
  · exact .throw quiet_nil hprovider
  refine .silent quiet_nil (getWebhookSecret_idle P _) (getWebhookSecret_throws _)
    fun webhookSecret => ?_
  refine .silent quiet_nil (Prog.only_perform.mpr (.selectWhitelist _))
    (perform_throws _ (.inl (by simp))) fun whitelist => ?_
  refine told_signature quiet_nil (.emit (told_parse ?_))
  exact quiet_append _ (by decide)

end Stages

/-! ### Every call -/

/-- The journey of an ended call tells its outcome, unless its row is refused or it is
    interrupted. -/
theorem attempts_tell_iff {req : Request} {steps : List GatewayStep} {journey : List Emission}
    {r : Except Exn WebhookResult} (h : Attempts P req steps journey r)
    (hsteps : ∀ step ∈ steps, Plausible step) :
    TellsOutcome journey r ↔ ¬RowRefused steps ∧ ¬Interrupted journey :=
  told_webhook steps journey r h hsteps

/-- **The journey tells the outcome** of every ended call, in every run, but for a call that
    only the unique index stops and a call that is cancelled in its last emission. -/
theorem journey_tells_iff {allowed : Task → Prop} {c : GatewayConfig} (h : Reachable P allowed c)
    {t : Nat} {req : Request} {r : Except Exn WebhookResult} (hfin : Finished c t (.webhook req) r) :
    (∃! journey, Attempts P req (stepsOf c t) journey r) ∧
      ∀ journey, Attempts P req (stepsOf c t) journey r →
        (TellsOutcome journey r ↔ ¬RowRefused (stepsOf c t) ∧ ¬Interrupted journey) := by
  constructor
  · exact existsUnique_attempts (hfin.follows h)
  · intro journey hattempts
    exact attempts_tell_iff hattempts fun step hstep => reachable_credible h hstep

namespace Example

/-- The journey of a call that passes the signature check. -/
def started : List Emission :=
  [⟨.signatureVerified, .completed, false⟩, ⟨.webhookReceived, .inProgress, false⟩]

theorem noted_run : ∃ c,
    (gateway (reading first)).run initial (solo (.webhook (event first "Note Hook")) noteChoices) =
      some c ∧
    Finished c 0 (.webhook (event first "Note Hook")) (.ok (.ignored ⟨9⟩ "Note Hook")) ∧
    Attempts (reading first) (event first "Note Hook") (stepsOf c 0)
      (started ++ [⟨.eventTypeValidated, .info, false⟩]) (.ok (.ignored ⟨9⟩ "Note Hook")) := by
  refine ⟨_, rfl, rfl, ?_⟩
  unfold Attempts
  repeat first
    | exact .ret _
    | apply Narrated.Tells.await
    | apply Narrated.Tells.note

/-- The answers of a second delivery of the webhook, up to the emission that says it is new; the
    cache of the tenant fails. -/
def rivalChoices : List Choice :=
  [.fresh ⟨30⟩, .fault 0, .ok, .ok, .ok] ++ emitChoices 31 ++ emitChoices 32 ++ [.ok, .ok] ++ emitChoices 33

/-- The second delivery looks the key up while the first is in its transaction. -/
def race : List GatewayLabel :=
  solo (.webhook (delivery first)) freshChoices ++
    .step 0 (.fresh ⟨21⟩) :: (.spawn 1 (.webhook (delivery first)) :: rivalChoices.map (.step 1) ++
      (Choice.ok :: Choice.ok :: emitChoices 22).map (.step 0) ++
        [Choice.fresh ⟨34⟩, .ok, .ok, .ok, .ok].map (.step 1))

set_option maxRecDepth 4000 in
theorem race_run : ∃ c k, (gateway (storing first)).run initial race = some c ∧
    Finished c 1 (.webhook (delivery first)) (.ok (.duplicate ⟨30⟩ k .dbConstraint)) ∧
    c.world.db.tenants (delivery first).tenantId = some tenant ∧
    Attempts (storing first) (delivery first) (stepsOf c 1)
      (started ++ [⟨.idempotencyChecked, .completed, false⟩])
      (.ok (.duplicate ⟨30⟩ k .dbConstraint)) := by
  refine ⟨_, _, run_insertEvent rfl rfl rfl rfl (by decide) (storing_row rfl rfl rfl rfl) rfl, rfl,
    rfl, ?_⟩
  unfold Attempts
  repeat first
    | exact .ret _
    | apply Narrated.Tells.await
    | apply Narrated.Tells.note

end Example

theorem journey_tells_ignored : ∃ c journey,
    Finished c 0 (.webhook (Example.event Example.first "Note Hook"))
      (.ok (.ignored ⟨9⟩ "Note Hook")) ∧
    Attempts (Example.reading Example.first) (Example.event Example.first "Note Hook") (stepsOf c 0)
      journey (.ok (.ignored ⟨9⟩ "Note Hook")) ∧
    lastEvent journey = some (.eventTypeValidated, .info) ∧
    (TellsOutcome journey (.ok (.ignored ⟨9⟩ "Note Hook")) ↔
      ¬RowRefused (stepsOf c 0) ∧ ¬Interrupted journey) := by
  obtain ⟨c, hrun, hfin, hattempts⟩ := Example.noted_run
  have hreach : Reachable (Example.reading Example.first) serviceTask c :=
    Example.reachable_solo (k := .webhook _) trivial hrun
  exact ⟨c, _, hfin, hattempts, rfl, (journey_tells_iff hreach hfin).2 _ hattempts⟩

/-- Two deliveries of one webhook race, and the journey of the duplicate ends at "not a
    duplicate". -/
theorem duplicate_untold : ∃ c k journey, Reachable (Example.storing Example.first) serviceTask c ∧
    c.world.db.tenants (Example.delivery Example.first).tenantId = some Example.tenant ∧
    Finished c 1 (.webhook (Example.delivery Example.first))
      (.ok (.duplicate ⟨30⟩ k .dbConstraint)) ∧
    Attempts (Example.storing Example.first) (Example.delivery Example.first) (stepsOf c 1) journey
      (.ok (.duplicate ⟨30⟩ k .dbConstraint)) ∧
    lastEvent journey = some (.idempotencyChecked, .completed) ∧
    ¬TellsOutcome journey (.ok (.duplicate ⟨30⟩ k .dbConstraint)) := by
  obtain ⟨c, k, hrun, hfin, htenant, hattempts⟩ := Example.race_run
  refine ⟨c, k, _, Example.reachable_run hrun rfl, htenant, hfin, hattempts, rfl, ?_⟩
  intro htold
  exact htold.returned _ rfl rfl

end VcsGateway
