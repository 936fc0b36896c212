import VcsGateway.Sql
import VcsGateway.Signature

/-!
# The webhook pipeline

`redis/client.py`, `queue/publisher.py`, the components of `webhook_processor/` and
`services/vcs_gateway.py`, statement by statement.
-/

namespace VcsGateway

open Async

variable (P : Platform)

/-! ## Redis helpers -/

def idempotencyKey (prHashKey : String) : String := "idempotency:" ++ prHashKey

def tenantConfigKey (tenantId : UUID) : String := "tenant:config:" ++ tenantId.str

theorem idempotencyKey_ne_tenantConfigKey (k : String) (id : UUID) :
    idempotencyKey k ≠ tenantConfigKey id := by
  intro heq
  have hlist := congrArg String.toList heq
  have hi : "idempotency:".toList = 'i' :: "dempotency:".toList := by decide
  have ht : "tenant:config:".toList = 't' :: "enant:config:".toList := by decide
  simp [idempotencyKey, tenantConfigKey, String.toList_append, hi, ht] at hlist

theorem idempotencyKey_injective {k k' : String} (h : idempotencyKey k = idempotencyKey k') :
    k = k' := by
  have hlist := congrArg String.toList h
  simp only [idempotencyKey, String.toList_append, List.append_cancel_left_eq] at hlist
  exact String.toList_injective hlist

/-- `None` on a miss, and when Redis fails. -/
def getIdempotencyCache (prHashKey : String) : Coroutine (Option String) :=
  exceptException (perform (.redisGet (idempotencyKey prHashKey))) fun _ => pure none

def getTenantCache (tenantId : UUID) : Coroutine (Option Json) :=
  exceptException
    (do
      let raw ← perform (.redisGet (tenantConfigKey tenantId))
      match raw with
      | none => pure none
      | some raw =>
        match P.loadsStr raw with
        | none => .throw .jsonDecodeError
        | some result => pure (some result))
    fun _ => pure none

/-- Write tenant config to Redis (best-effort). -/
def setTenantCache (tenantId : UUID) (tenantData : Json) : Coroutine Unit :=
  exceptException
    (perform (.redisSetex (tenantConfigKey tenantId) 300 (P.dumps tenantData)))
    fun _ => pure ()

/-- Write-back to idempotency cache (best-effort). -/
def setIdempotencyCache (prHashKey : String) (ttlSeconds : Nat) : Coroutine Unit :=
  exceptException (perform (.redisSetex (idempotencyKey prHashKey) ttlSeconds "1"))
    fun _ => pure ()

/-! ## Journey events -/

/-- `BasePublisher.publish`. -/
def basePublish (exchangeName routingKey : String) (payload : Json) (correlationId : UUID) :
    Coroutine Unit := do
  let channel ← perform .openChannel
  Prog.finallyDo
    (do
      let exchange ← perform (.getExchange channel exchangeName)
      perform (.publish exchange
        { body := (P.dumps payload).toUTF8
          headers := .dict [("correlation_id", .str correlationId.str)] }
        routingKey))
    (perform (.closeChannel channel))

/-- Fire-and-forget journey event. -/
def emit (stepType : JourneyStepType) (status : JourneyStepStatus) (correlationId tenantId : UUID)
    (metadata : List (String × Json) := []) : Coroutine Unit :=
  exceptException
    (do
      let eventId ← perform .uuid4
      let timestamp ← perform .utcnow
      let event : JourneyStepEvent :=
        { eventId, correlationId, tenantId, timestamp, stepType, status, metadata }
      basePublish P P.settings.rabbitmqExchangeJourney "journey.step.created"
        (event.modelDump P) correlationId)
    fun _ => pure ()

/-! ## Step 1: tenant validation -/

def tenantInactive : Exn := .validationError "Tenant inactive" [("code", "TENANT_INACTIVE")]

def tenantNotFound (tenantId : UUID) : Exn :=
  .notFoundError "Tenant not found" [("tenant_id", tenantId.str)]

/-- What `get_webhook_secret` makes of a cached entry. -/
def secretOfCache (cached : Json) : Except Exn String :=
  match cached with
  | .dict items =>
    if !((dictGet? items "is_active").getD .null).truthy then .error tenantInactive
    else match dictGet? items "webhook_secret" with
      | none => .error (.keyError "webhook_secret")
      | some secret => .ok (P.str secret)
  | _ => .error (.attributeError "get")

/-- Resolve webhook_secret for tenant: Redis first, DB on miss with write-back. -/
def getWebhookSecret (tenantId : UUID) : Coroutine String := do
  let cached ← getTenantCache P tenantId
  match cached with
  | some cached => .ofExcept (secretOfCache P cached)
  | none => do
    let tenant ← perform (.selectTenant tenantId)
    match tenant with
    | none => .throw (tenantNotFound tenantId)
    | some tenant =>
      if !tenant.isActive then .throw tenantInactive
      else do
        setTenantCache P tenantId tenant.modelDump
        pure tenant.webhookSecret

def getEventWhitelist (vcsProvider : String) : Coroutine (List VcsEventWhitelist) :=
  perform (.selectWhitelist vcsProvider)

/-! ## Step 3: signature -/

/-- Does the request verify under `webhookSecret`? -/
def signatureValid (vcsProvider : String) (rawPayload : ByteArray) (headers : Headers)
    (webhookSecret : String) : Except Exn Bool :=
  if vcsProvider = "github" then
    validateGithubSignature P rawPayload webhookSecret (headers.getD "X-Hub-Signature-256")
  else if vcsProvider = "gitlab" then
    .ok (validateGitlabToken (headers.getD "X-Gitlab-Token") webhookSecret)
  else .ok false

def invalidSignature : Exn :=
  .validationError "Invalid webhook signature" [("code", "INVALID_SIGNATURE")]

def validateSignature (vcsProvider : String) (rawPayload : ByteArray) (headers : Headers)
    (webhookSecret : String) (correlationId tenantId : UUID) : Coroutine Unit := do
  let valid ← Prog.ofExcept (signatureValid P vcsProvider rawPayload headers webhookSecret)
  emit P .signatureVerified (if valid then .completed else .failed) correlationId tenantId
  if !valid then .throw invalidSignature else pure ()

/-! ## Step 5: idempotency -/

/-- `InboundEventRepository.get_by_pr_hash_key`. -/
def getByPrHashKey (prHashKey : String) : Coroutine (Option InboundEvent) := do
  let row ← perform (.selectByPrHashKey prHashKey)
  match row with
  | none => pure none
  | some row => do
    let event ← Prog.ofExcept (row.modelValidate P)
    pure (some event)

inductive Detection where
  | redisCache | dbLookup | dbConstraint
deriving DecidableEq, Repr

def Detection.value : Detection → String
  | .redisCache => "redis_cache"
  | .dbLookup => "db_lookup"
  | .dbConstraint => "db_constraint"

/-- `IdempotencyChecker.check`. -/
def check (prHashKey : String) : Coroutine (Option Detection) := do
  let cached ← getIdempotencyCache prHashKey
  match cached with
  | some _ => pure (some .redisCache)
  | none => do
    let existing ← getByPrHashKey P prHashKey
    match existing with
    | some _ => do
      setIdempotencyCache prHashKey P.settings.redisIdempotencyTtlSeconds
      pure (some .dbLookup)
    | none => pure none

/-- `IdempotencyChecker.mark_processed`. -/
def markProcessed (prHashKey : String) : Coroutine Unit :=
  setIdempotencyCache prHashKey P.settings.redisIdempotencyTtlSeconds

/-! ## Step 6: persistence -/

/-- `InboundEventRepository.insert`. -/
def insertInbound (e : NewInboundEvent) : Coroutine InboundEvent := do
  let row ← perform (.insertInbound e)
  .ofExcept (row.modelValidate P)

/-- `OutboxRepository.schedule_event`: cancel the SCHEDULED events of older versions,
    then insert. -/
def scheduleEvent (eventType : String) (correlationId : UUID) (prHashKey : String)
    (prVersion : Int) (payload headers : Json) (debounceSeconds : Nat) : Coroutine UUID := do
  cancelPrevious prHashKey prVersion "superseded_by_newer_version"
  perform (.insertEvent {
    eventType
    correlationId
    prHashKey
    prVersion
    payload := .str (P.dumps payload)
    headers := .str (P.dumps headers)
    debounceSeconds })

/-- A call of `process_webhook`. -/
structure Request where
  tenantId : UUID
  vcsProvider : String
  rawPayload : ByteArray
  headers : Headers

def relevantHeaders : List String :=
  ["X-Hub-Signature-256", "X-GitHub-Event", "X-Gitlab-Event", "Content-Type"]

/-- X-Gitlab-Token is the plaintext HMAC secret: it is not among the relevant headers. -/
def filterHeaders (headers : Headers) : Headers :=
  headers.filter fun kv => relevantHeaders.contains kv.1

def alreadyPersisted (prHashKey : String) : Exn :=
  .duplicateError "Webhook already persisted" [("pr_hash_key", prHashKey)]

/-- The message that `persist` schedules. -/
def receivedMessage (req : Request) (correlationId eventId : UUID) (timestamp : Time)
    (prData : PullRequestData) (prHashKey : String) (rawJson : List (String × Json)) :
    WebhookReceivedMessage :=
  { eventId
    correlationId
    tenantId := req.tenantId
    timestamp
    vcsProvider := req.vcsProvider
    vcsInstanceId := prData.vcsInstanceId
    repoId := prData.repoId
    repoName := prData.repoName
    prId := prData.prId
    prTitle := some prData.prTitle
    prAuthor := some prData.prAuthor
    prUrl := some prData.prUrl
    commitSha := prData.commitSha
    prAction := prData.action
    prHashKey
    prVersion := 1
    rawPayload := rawJson }

/-- The row that `persist` inserts into `inbound_event`. -/
def inboundArgs (req : Request) (correlationId eventId : UUID) (prData : PullRequestData)
    (prHashKey : String) (rawJson : List (String × Json)) : NewInboundEvent :=
  { eventId
    correlationId
    tenantId := req.tenantId
    vcsProvider := req.vcsProvider
    vcsInstanceId := prData.vcsInstanceId
    repoId := prData.repoId
    repoName := prData.repoName
    prId := prData.prId
    prTitle := some prData.prTitle
    prAuthor := some prData.prAuthor
    prUrl := some prData.prUrl
    commitSha := prData.commitSha
    action := prData.action
    prHashKey
    prVersion := 1
    processingStatus := "accepted"
    rawPayload := .dict rawJson
    webhookHeaders := some (.dict ((filterHeaders req.headers).map fun kv => (kv.1, .str kv.2))) }

/-- `json.loads(raw_payload)`, which the message model requires to be a `dict`. -/
def loadsDict (rawPayload : ByteArray) : Except Exn (List (String × Json)) :=
  match P.loads rawPayload with
  | none => .error .jsonDecodeError
  | some (.dict items) => .ok items
  | some _ => .error (.pydanticValidationError "WebhookReceivedMessage")

/-- Insert inbound_event and schedule outbox_event in a single transaction. -/
def persist (req : Request) (correlationId : UUID) (prData : PullRequestData)
    (prHashKey : String) : Coroutine (UUID × UUID) := do
  let eventId ← perform .uuid4
  let rawJson ← Prog.ofExcept (loadsDict P req.rawPayload)
  let timestamp ← perform .utcnow
  let outboxPayload :=
    (receivedMessage req correlationId eventId timestamp prData prHashKey rawJson).modelDump P
  let outboxId ← Prog.handle
    (transaction do
      let _ ← insertInbound P (inboundArgs req correlationId eventId prData prHashKey rawJson)
      scheduleEvent P "vcs.webhook.received" correlationId prHashKey 1 outboxPayload
        (.dict [("correlation_id", .str correlationId.str)]) P.settings.outboxDebounceSeconds)
    fun exc =>
      match exc with
      | .uniqueViolationError => .throw (alreadyPersisted prHashKey)
      | exc => .throw exc
  pure (eventId, outboxId)

/-! ## The orchestrator -/

inductive WebhookResult where
  | accepted (correlationId eventId outboxId : UUID)
  | duplicate (correlationId : UUID) (prHashKey : String) (detectionMethod : Detection)
  | ignored (correlationId : UUID) (eventType : String)
deriving DecidableEq, Repr

def supportedProviders : List String := ["github", "gitlab"]

def unsupportedProvider (vcsProvider : String) : Exn :=
  .validationError ("Unsupported vcs_provider: " ++ reprStr P.isPrintable vcsProvider)
    [("code", "UNSUPPORTED_PROVIDER")]

/-- The idempotency key of a parsed request. -/
def requestKey (req : Request) (prData : PullRequestData) : String :=
  computePrHashKey P req.vcsProvider req.tenantId.str prData.repoId prData.prId
    prData.vcsInstanceId prData.action prData.commitSha

/-- Step 6 of `process_webhook`. -/
def persistStep (req : Request) (correlationId : UUID) (prData : PullRequestData)
    (prHashKey : String) : Coroutine WebhookResult :=
  (persist P req correlationId prData prHashKey).andThen fun
    | .ok (eventId, outboxId) => do
      markProcessed P prHashKey
      emit P .outboxScheduled .completed correlationId req.tenantId
        [("outbox_id", .str outboxId.str), ("pr_hash_key", .str prHashKey)]
      pure (.accepted correlationId eventId outboxId)
    | .error (.service .duplicateError _ _) =>
      pure (.duplicate correlationId prHashKey .dbConstraint)
    | .error exc => .throw exc

/-- Steps 5 and 6 of `process_webhook`. -/
def idempotencyStep (req : Request) (correlationId : UUID) (prData : PullRequestData)
    (prHashKey : String) : Coroutine WebhookResult := do
  let detection ← check P prHashKey
  match detection with
  | some detection => do
    emit P .idempotencyChecked .info correlationId req.tenantId
      [("detection_method", .str detection.value)]
    pure (.duplicate correlationId prHashKey detection)
  | none => do
    emit P .idempotencyChecked .completed correlationId req.tenantId
    persistStep P req correlationId prData prHashKey

/-- Step 4 of `process_webhook` and what follows. -/
def parseStep (req : Request) (correlationId : UUID) (eventType : String)
    (whitelist : List VcsEventWhitelist) : Coroutine WebhookResult := do
  let prData ← Prog.ofExcept (parsePayload P req.vcsProvider req.rawPayload)
  if !isEventAllowed eventType prData.action whitelist then do
    emit P .eventTypeValidated .info correlationId req.tenantId
      [("event_type", .str eventType), ("action", .str prData.action)]
    pure (.ignored correlationId eventType)
  else idempotencyStep P req correlationId prData (requestKey P req prData)

def processWebhook (req : Request) : Coroutine WebhookResult := do
  let correlationId ← perform .uuid4
  if req.vcsProvider ∉ supportedProviders then .throw (unsupportedProvider P req.vcsProvider)
  else do
    let webhookSecret ← getWebhookSecret P req.tenantId
    let eventType := extractEventType req.headers
    let whitelist ← getEventWhitelist req.vcsProvider
    validateSignature P req.vcsProvider req.rawPayload req.headers webhookSecret correlationId
      req.tenantId
    emit P .webhookReceived .inProgress correlationId req.tenantId
    parseStep P req correlationId eventType whitelist

/-! ## Internal checks -/

/-- The answer of `check_duplicate`; the last two keys are there on a database hit
    only, and `None` when the second read found no row. -/
structure DuplicateAnswer where
  isDuplicate : Bool
  cacheHit : Bool
  prHashKey : String
  existingEventId : Option (Option String) := none
  existingCorrelationId : Option (Option String) := none
deriving DecidableEq, Repr

/-- Redis → DB lookup for internal duplicate check endpoint. -/
def checkDuplicate (prHashKey : String) : Coroutine DuplicateAnswer := do
  let detection ← check P prHashKey
  match detection with
  | some .redisCache => pure { isDuplicate := true, cacheHit := true, prHashKey }
  | some .dbLookup => do
    let event ← getByPrHashKey P prHashKey
    pure {
      isDuplicate := true
      cacheHit := false
      prHashKey
      existingEventId := some (event.map (·.eventId.str))
      existingCorrelationId := some (event.map (·.correlationId.str)) }
  | _ => pure { isDuplicate := false, cacheHit := false, prHashKey }

/-- The answer of `check_stale`; the two versions are there when it is stale. -/
structure StaleAnswer where
  isStale : Bool
  prHashKey : String
  versions : Option (Int × Int) := none
deriving DecidableEq, Repr

/-- DB version comparison for internal stale check endpoint. -/
def checkStale (prHashKey : String) (prVersion : Int) : Coroutine StaleAnswer := do
  let event ← getByPrHashKey P prHashKey
  match event with
  | some event =>
    if event.prVersion > prVersion then
      pure { isStale := true, prHashKey, versions := some (prVersion, event.prVersion) }
    else pure { isStale := false, prHashKey }
  | none => pure { isStale := false, prHashKey }

end VcsGateway
