import VcsGateway.Payload

/-!
# Rows and messages

`models/domain.py`, `models/events.py`, the column constraints of the migrations and
the row-level meaning of the SQL statements of `db/outbox.py`.
-/

namespace VcsGateway

variable (P : Platform)

/-! ## Tenants -/

/-- `shared_schema.tenant` joined with `shared_schema.customer`. -/
structure Tenant where
  tenantId : UUID
  customerId : UUID
  name : String
  isActive : Bool
  webhookSecret : String
  planType : String
  customerPlanType : Option String := none
deriving DecidableEq, Repr

def optStr : Option String → Json
  | none => .null
  | some s => .str s

/-- `tenant.model_dump(mode="json")`. -/
def Tenant.modelDump (t : Tenant) : Json :=
  .dict [("tenant_id", .str t.tenantId.str), ("customer_id", .str t.customerId.str),
    ("name", .str t.name), ("is_active", .bool t.isActive),
    ("webhook_secret", .str t.webhookSecret), ("plan_type", .str t.planType),
    ("customer_plan_type", optStr t.customerPlanType)]

/-! ## `inbound_event` -/

/-- The arguments of `_INSERT_INBOUND`, in their order. -/
structure NewInboundEvent where
  eventId : UUID
  correlationId : UUID
  tenantId : UUID
  vcsProvider : String
  vcsInstanceId : String
  repoId : String
  repoName : Option String
  prId : String
  prTitle : Option String
  prAuthor : Option String
  prUrl : Option String
  commitSha : String
  action : String
  prHashKey : String
  prVersion : Int
  processingStatus : String
  rawPayload : Json
  webhookHeaders : Option Json

/-- A row of `inbound_event`; also `models.domain.InboundEvent`, where the two `jsonb`
    columns hold what asyncpg returned for them. -/
structure InboundEvent extends NewInboundEvent where
  rejectionReason : Option String
  createdAt : Time
  updatedAt : Time

/-- A string that a `TEXT` column takes: no U+0000. -/
def textOk (s : String) : Bool := s.toList.all fun c => c.toNat ≠ 0

def varcharOk (n : Nat) (s : String) : Bool := s.toList.length ≤ n && textOk s

mutual

/-- A value that a `jsonb` column takes: no U+0000 in a string or a key, and no NaN or
    infinity, which `json.loads` reads and PostgreSQL does not. -/
def Json.jsonbOk : Json → Bool
  | .float r => !(["nan", "inf", "-inf"].contains r)
  | .str s => textOk s
  | .list xs => Json.jsonbOkList xs
  | .dict items => Json.jsonbOkItems items
  | _ => true

def Json.jsonbOkList : List Json → Bool
  | [] => true
  | x :: xs => x.jsonbOk && Json.jsonbOkList xs

def Json.jsonbOkItems : List (String × Json) → Bool
  | [] => true
  | (k, x) :: items => textOk k && x.jsonbOk && Json.jsonbOkItems items

end

def optOk (ok : String → Bool) (s : Option String) : Bool := (s.map ok).getD true

/-- The column types and the status check of `inbound_event`. -/
def NewInboundEvent.fits (e : NewInboundEvent) : Bool :=
  varcharOk 50 e.vcsProvider && varcharOk 255 e.vcsInstanceId && varcharOk 255 e.repoId &&
    optOk (varcharOk 500) e.repoName && varcharOk 255 e.prId && optOk textOk e.prTitle &&
    optOk (varcharOk 255) e.prAuthor && optOk (varcharOk 1000) e.prUrl &&
    varcharOk 64 e.commitSha && varcharOk 50 e.action && varcharOk 64 e.prHashKey &&
    (["accepted", "rejected", "duplicate"].contains e.processingStatus) &&
    e.rawPayload.jsonbOk && (e.webhookHeaders.map Json.jsonbOk).getD true

/-- An optional `jsonb` parameter: `None` becomes `NULL`. -/
def Platform.jsonbEncodeOpt : Option Json → Option (Option Json)
  | none => some none
  | some j => (P.jsonbEncode j).map some

/-- The row that `_INSERT_INBOUND` stores at time `now`: the two `jsonb` parameters go
    through asyncpg, then the column constraints apply. -/
def NewInboundEvent.row (e : NewInboundEvent) (now : Time) : Option InboundEvent := do
  let rawPayload ← P.jsonbEncode e.rawPayload
  let webhookHeaders ← P.jsonbEncodeOpt e.webhookHeaders
  let stored := { e with rawPayload, webhookHeaders }
  if stored.fits then
    return { stored with rejectionReason := none, createdAt := now, updatedAt := now }
  else none

/-- Only the two `jsonb` columns may differ from the arguments. -/
theorem NewInboundEvent.row_eq_some {e : NewInboundEvent} {now : Time} {row : InboundEvent}
    (h : e.row P now = some row) :
    row.toNewInboundEvent =
      { e with rawPayload := row.rawPayload, webhookHeaders := row.webhookHeaders } := by
  unfold NewInboundEvent.row at h
  simp only [Option.bind_eq_bind, Option.bind_eq_some_iff] at h
  obtain ⟨raw, -, hs, -, h⟩ := h
  split at h
  · obtain rfl := Option.some.inj h
    rfl
  · exact absurd h (by simp)

/-- `InboundEvent.model_validate(dict(row))`: the payload must come back as a `dict`,
    the headers as a `dict` or `None`. -/
def InboundEvent.modelValidate (row : InboundEvent) : Except Exn InboundEvent :=
  match P.jsonbDecode row.rawPayload, row.webhookHeaders.map P.jsonbDecode with
  | .dict items, none => .ok { row with rawPayload := .dict items }
  | .dict items, some (.dict hs) =>
    .ok { row with rawPayload := .dict items, webhookHeaders := some (.dict hs) }
  | .dict items, some .null => .ok { row with rawPayload := .dict items, webhookHeaders := none }
  | _, _ => .error (.pydanticValidationError "InboundEvent")

/-! ## `outbox_event` -/

inductive OutboxStatus where
  | scheduled | cancelled | dispatched | failed
deriving DecidableEq, Repr

/-- A row of `outbox_event`. -/
structure OutboxEvent where
  outboxId : UUID
  eventType : String
  correlationId : UUID
  prHashKey : String
  prVersion : Int
  payload : Json
  headers : Json
  status : OutboxStatus := .scheduled
  dispatchAt : Time
  cancelReason : Option String := none
  retryCount : Nat := 0
  maxRetries : Nat := 3
  nextRetryAt : Option Time := none
  errorMessage : Option String := none
  createdAt : Time
  publishedAt : Option Time := none

/-- The arguments of `_INSERT_EVENT`. -/
structure NewOutboxEvent where
  eventType : String
  correlationId : UUID
  prHashKey : String
  prVersion : Int
  payload : Json
  headers : Json
  debounceSeconds : Nat

/-- The row that `_INSERT_EVENT` stores at time `now`; every other column takes its
    default. -/
def NewOutboxEvent.row (e : NewOutboxEvent) (outboxId : UUID) (now : Time) :
    Option OutboxEvent := do
  let payload ← P.jsonbEncode e.payload
  let headers ← P.jsonbEncode e.headers
  if textOk e.eventType && varcharOk 64 e.prHashKey && payload.jsonbOk && headers.jsonbOk then
    return {
      outboxId
      eventType := e.eventType
      correlationId := e.correlationId
      prHashKey := e.prHashKey
      prVersion := e.prVersion
      payload
      headers
      dispatchAt := now + seconds e.debounceSeconds
      createdAt := now }
  else none

theorem NewOutboxEvent.row_eq_some {e : NewOutboxEvent} {outboxId : UUID} {now : Time}
    {row : OutboxEvent} (h : e.row P outboxId now = some row) :
    ∃ payload headers, P.jsonbEncode e.payload = some payload ∧
      P.jsonbEncode e.headers = some headers ∧
      row = {
        outboxId
        eventType := e.eventType
        correlationId := e.correlationId
        prHashKey := e.prHashKey
        prVersion := e.prVersion
        payload
        headers
        dispatchAt := now + seconds e.debounceSeconds
        createdAt := now } := by
  unfold NewOutboxEvent.row at h
  simp only [Option.bind_eq_bind, Option.bind_eq_some_iff] at h
  obtain ⟨payload, hp, headers, hh, h⟩ := h
  split at h
  · exact ⟨payload, headers, hp, hh, (Option.some.inj h).symm⟩
  · exact absurd h (by simp)

namespace OutboxEvent

variable (r : OutboxEvent)

/-- The columns that no statement updates. -/
def core : OutboxEvent :=
  { r with
    status := .scheduled
    dispatchAt := 0
    cancelReason := none
    retryCount := 0
    nextRetryAt := none
    errorMessage := none
    publishedAt := none }

/-- The `WHERE` clause of `_SELECT_DUE`. -/
def isDue (now : Time) : Bool := r.status = .scheduled && r.dispatchAt ≤ now

/-- The `SET` clause of `_MARK_DISPATCHED`. -/
def markDispatched (now : Time) : OutboxEvent :=
  { r with status := .dispatched, publishedAt := some now }

/-- The `SET` clause of `_MARK_FAILED`. -/
def markFailed (errorMessage : String) : OutboxEvent :=
  { r with
    status := .failed
    retryCount := r.retryCount + 1
    errorMessage := some errorMessage
    nextRetryAt := none }

/-- The `SET` clause of `_MARK_RETRY`. -/
def markRetry (errorMessage : String) (nextRetryAt : Time) : OutboxEvent :=
  { r with
    retryCount := r.retryCount + 1
    errorMessage := some errorMessage
    dispatchAt := nextRetryAt
    nextRetryAt := some nextRetryAt }

/-- The `WHERE` clause of `_CANCEL_PREVIOUS`. -/
def isPrevious (prHashKey : String) (prVersion : Int) : Bool :=
  r.prHashKey = prHashKey && r.prVersion < prVersion && r.status = .scheduled

/-- The `SET` clause of `_CANCEL_PREVIOUS`. -/
def cancel (cancelReason : String) : OutboxEvent :=
  { r with status := .cancelled, cancelReason := some cancelReason }

@[simp] theorem core_markDispatched (now : Time) : (r.markDispatched now).core = r.core := rfl

@[simp] theorem core_markFailed (msg : String) : (r.markFailed msg).core = r.core := rfl

@[simp] theorem core_markRetry (msg : String) (at_ : Time) :
    (r.markRetry msg at_).core = r.core := rfl

@[simp] theorem core_cancel (reason : String) : (r.cancel reason).core = r.core := rfl

end OutboxEvent

/-! ## Messages -/

inductive JourneyStepType where
  | webhookReceived | signatureVerified | eventTypeValidated
  | idempotencyChecked | eventPersisted | outboxScheduled
deriving DecidableEq, Repr

def JourneyStepType.value : JourneyStepType → String
  | .webhookReceived => "webhook_received"
  | .signatureVerified => "signature_verified"
  | .eventTypeValidated => "event_type_validated"
  | .idempotencyChecked => "idempotency_checked"
  | .eventPersisted => "event_persisted"
  | .outboxScheduled => "outbox_scheduled"

inductive JourneyStepStatus where
  | inProgress | completed | failed | info
deriving DecidableEq, Repr

def JourneyStepStatus.value : JourneyStepStatus → String
  | .inProgress => "in_progress"
  | .completed => "completed"
  | .failed => "failed"
  | .info => "info"

/-- Published to journey.step.created for all lifecycle steps. -/
structure JourneyStepEvent where
  eventId : UUID
  eventType : String := "journey.step.created"
  correlationId : UUID
  tenantId : UUID
  timestamp : Time
  serviceName : String := "vcs-gateway"
  stepType : JourneyStepType
  status : JourneyStepStatus
  prHashKey : Option String := none
  prId : Option String := none
  repoId : Option String := none
  metadata : List (String × Json) := []

def JourneyStepEvent.modelDump (e : JourneyStepEvent) : Json :=
  .dict [("event_id", .str e.eventId.str), ("event_type", .str e.eventType),
    ("correlation_id", .str e.correlationId.str), ("tenant_id", .str e.tenantId.str),
    ("timestamp", .str (P.isoformat e.timestamp)), ("service_name", .str e.serviceName),
    ("step_type", .str e.stepType.value), ("status", .str e.status.value),
    ("pr_hash_key", optStr e.prHashKey), ("pr_id", optStr e.prId), ("repo_id", optStr e.repoId),
    ("metadata", .dict e.metadata)]

/-- Published to vcs.webhook.received after successful validation + persistence. -/
structure WebhookReceivedMessage where
  eventId : UUID
  eventType : String := "vcs.webhook.received"
  correlationId : UUID
  tenantId : UUID
  timestamp : Time
  vcsProvider : String
  vcsInstanceId : String
  repoId : String
  repoName : Option String
  prId : String
  prTitle : Option String
  prAuthor : Option String
  prUrl : Option String
  commitSha : String
  prAction : String
  prHashKey : String
  prVersion : Int
  rawPayload : List (String × Json)

def WebhookReceivedMessage.modelDump (m : WebhookReceivedMessage) : Json :=
  .dict [("event_id", .str m.eventId.str), ("event_type", .str m.eventType),
    ("correlation_id", .str m.correlationId.str), ("tenant_id", .str m.tenantId.str),
    ("timestamp", .str (P.isoformat m.timestamp)), ("vcs_provider", .str m.vcsProvider),
    ("vcs_instance_id", .str m.vcsInstanceId), ("repo_id", .str m.repoId),
    ("repo_name", optStr m.repoName), ("pr_id", .str m.prId), ("pr_title", optStr m.prTitle),
    ("pr_author", optStr m.prAuthor), ("pr_url", optStr m.prUrl),
    ("commit_sha", .str m.commitSha), ("pr_action", .str m.prAction),
    ("pr_hash_key", .str m.prHashKey), ("pr_version", .int m.prVersion),
    ("raw_payload", .dict m.rawPayload)]

end VcsGateway
