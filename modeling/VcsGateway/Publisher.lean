import VcsGateway.Service

/-!
# The outbox publisher

`OutboxPublisher` of `db/outbox.py`: one transaction for each batch, one savepoint for
each row.
-/

namespace VcsGateway

open Async

variable (P : Platform)

/-- An `OutboxPublisher`; `id` tells the instances apart. -/
structure Publisher where
  id : Nat
  exchangeName : String
  batchSize : Nat

def maxBackoffSeconds : Nat := 3600

/-- `self._channel is None or self._channel.is_closed`. -/
def channelClosed : Option Channel → Coroutine Bool
  | none => pure true
  | some channel => perform (.isClosed channel)

/-- The two assignments of `_get_exchange`, under their condition. -/
def reacquire (self : Publisher) : Bool → Coroutine Unit
  | true => do
    let channel ← perform .openChannel
    perform (.setChannel self.id (some channel))
    let exchange ← perform (.getExchange channel self.exchangeName)
    perform (.setExchange self.id (some exchange))
  | false => pure ()

/-- `self._exchange`, which is asserted not to be `None`. -/
def currentExchange (self : Publisher) : Coroutine Exchange := do
  let state ← perform (.getSelf self.id)
  match state.exchange with
  | none => .throw .assertionError
  | some exchange => pure exchange

/-- Return cached exchange; re-acquire if channel is closed. -/
def ensureExchange (self : Publisher) : Coroutine Exchange := do
  let state ← perform (.getSelf self.id)
  let closed ← channelClosed state.channel
  reacquire self closed
  currentExchange self

/-- `json.loads(row["headers"])`. -/
def rowHeaders (row : OutboxEvent) : Except Exn Json :=
  match P.jsonbDecode row.headers with
  | .str text =>
    match P.loadsStr text with
    | none => .error .jsonDecodeError
    | some headers => .ok headers
  | _ => .error (.typeError "the JSON object must be str, bytes or bytearray")

/-- `row["payload"].encode()`. -/
def rowPayload (row : OutboxEvent) : Except Exn ByteArray :=
  match P.jsonbDecode row.payload with
  | .str text => .ok text.toUTF8
  | _ => .error (.attributeError "encode")

/-- The `try` block of the row loop. -/
def publishRow (exchange : Exchange) (row : OutboxEvent) : Coroutine Unit := do
  let headers ← Prog.ofExcept (rowHeaders P row)
  let body ← Prog.ofExcept (rowPayload P row)
  perform (.publish exchange { body, headers, source := some row.outboxId } row.eventType)
  perform (.markDispatched row.outboxId)

/-- The status update after a failed attempt. -/
def markFailure (row : OutboxEvent) (exc : Exn) : Coroutine Unit :=
  if row.retryCount + 1 ≥ row.maxRetries then
    perform (.markFailed row.outboxId (P.excStr exc))
  else do
    let backoff := min (30 * 2 ^ (row.retryCount + 1)) maxBackoffSeconds
    let now ← perform .utcnow
    perform (.markRetry row.outboxId (P.excStr exc) (now + seconds backoff))

/-- The `except` block of the row loop. -/
def recordFailure (self : Publisher) (row : OutboxEvent) (exc : Exn) : Coroutine Unit := do
  markFailure P row exc
  perform (.setChannel self.id none)
  perform (.setExchange self.id none)

/-- The loop body of `_process_batch`. -/
def processRow (self : Publisher) (exchange : Exchange) (row : OutboxEvent) : Coroutine Unit :=
  nestedTransaction (exceptException (publishRow P exchange row) (recordFailure P self row))

/-- The body of the transaction of `_process_batch`. -/
def batchBody (self : Publisher) : Coroutine Unit := do
  let rows ← selectDue self.batchSize
  if rows.isEmpty then pure ()
  else do
    let exchange ← ensureExchange self
    Prog.forEach rows (processRow P self exchange)

def processBatch (self : Publisher) : Coroutine Unit := transaction (batchBody P self)

/-- The `except` blocks of `run`. -/
def afterBatch (self : Publisher) : Except Exn Unit → Coroutine Bool
  | .ok _ => pure false
  | .error .cancelledError => do
    let state ← perform (.getSelf self.id)
    match state.channel with
    | none => pure true
    | some channel => do
      let closed ← perform (.isClosed channel)
      if closed then pure true
      else do
        perform (.closeChannel channel)
        pure true
  | .error _ => do
    perform (.setChannel self.id none)
    perform (.setExchange self.id none)
    pure false

/-- One turn of the loop of `run`; `true` when the task stops. -/
def runOnce (self : Publisher) : Coroutine Bool :=
  (processBatch P self).andThen (afterBatch self)

end VcsGateway
