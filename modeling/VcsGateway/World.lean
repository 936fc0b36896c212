import VcsGateway.Async.System
import VcsGateway.Database

/-!
# The world around the coroutines

The database, Redis, RabbitMQ and the clocks, and what every awaited operation does
to them.
-/

namespace VcsGateway

/-! ## AMQP -/

abbrev Channel := UUID

structure Exchange where
  channel : Channel
  name : String
deriving DecidableEq, Repr

/-- `aio_pika.Message`.  `source` names the outbox row it was built from; nothing
    reads it. -/
structure Message where
  body : ByteArray
  contentType : String := "application/json"
  headers : Json
  source : Option UUID := none

/-- The `_channel` and `_exchange` attributes of an `OutboxPublisher`. -/
structure PublisherState where
  channel : Option Channel := none
  exchange : Option Exchange := none

/-! ## Operations -/

/-- Everything the service awaits, together with the clock, `uuid4` and the
    attributes of the publisher. -/
inductive Op where
  | uuid4
  | utcnow
  | redisGet (key : String)
  | redisSetex (key : String) (ttlSeconds : Nat) (value : String)
  | selectTenant (tenantId : UUID)
  | selectWhitelist (vcsProvider : String)
  | selectByPrHashKey (prHashKey : String)
  | begin | commit | rollback
  | savepoint | release | rollbackTo
  | insertInbound (e : NewInboundEvent)
  | insertEvent (e : NewOutboxEvent)
  | cancelScan (prHashKey : String) (prVersion : Int)
  | cancelRow (outboxId : UUID) (prHashKey : String) (prVersion : Int) (reason : String)
  | dueScan
  | lockDue (outboxId : UUID)
  | markDispatched (outboxId : UUID)
  | markFailed (outboxId : UUID) (errorMessage : String)
  | markRetry (outboxId : UUID) (errorMessage : String) (nextRetryAt : Time)
  | openChannel
  | getExchange (channel : Channel) (name : String)
  | publish (exchange : Exchange) (message : Message) (routingKey : String)
  | closeChannel (channel : Channel)
  | isClosed (channel : Channel)
  | getSelf (publisher : Nat)
  | setChannel (publisher : Nat) (channel : Option Channel)
  | setExchange (publisher : Nat) (exchange : Option Exchange)

@[reducible] def Op.Ret : Op → Type
  | .uuid4 => UUID
  | .utcnow => Time
  | .redisGet _ => Option String
  | .selectTenant _ => Option Tenant
  | .selectWhitelist _ => List VcsEventWhitelist
  | .selectByPrHashKey _ => Option InboundEvent
  | .insertInbound _ => InboundEvent
  | .insertEvent _ => UUID
  | .cancelScan _ _ => List UUID
  | .dueScan => List UUID
  | .lockDue _ => Option OutboxEvent
  | .openChannel => Channel
  | .getExchange _ _ => Exchange
  | .isClosed _ => Bool
  | .getSelf _ => PublisherState
  | _ => Unit

/-- An operation that has been answered. -/
structure Event where
  tid : Nat
  op : Op
  result : Except Exn op.Ret

structure World where
  db : Database
  /-- Redis: value and expiry of every key. -/
  redis : String → Option (String × Time) := fun _ => none
  clock : Time := 0
  appClock : Time := 0
  used : List UUID := []
  channels : List Channel := []
  publishers : Nat → PublisherState := fun _ => {}
  trace : List Event := []

namespace World

variable (w : World)

/-- The world before any webhook: the tenant and whitelist tables are given. -/
def initial (tenants : UUID → Option Tenant) (whitelist : List VcsEventWhitelist) : World :=
  { db := { tenants, whitelist } }

/-- What `GET key` finds. -/
def cached (key : String) : Option String :=
  match w.redis key with
  | some (value, expiry) => if w.clock < expiry then some value else none
  | none => none

def setex (key : String) (ttlSeconds : Nat) (value : String) : World :=
  { w with redis := Function.update w.redis key (some (value, w.clock + seconds ttlSeconds)) }

/-- Let a database operation act. -/
def onDb {α : Type} (r : Outcome Database α) : Outcome World α :=
  r.map fun (a, db) => (a, { w with db })

/-- Record the identifier that the environment chose; it must be new. -/
def takeFresh (c : Choice) : Option World :=
  match c with
  | .fresh u => if u ∈ w.used then none else some { w with used := u :: w.used }
  | _ => some w

end World

/-! ## Execution -/

section Exec

variable (P : Platform)

/-- `SETEX`; the write may take effect and the call still raise. -/
def execSetex (c : Choice) (w : World) (key : String) (ttlSeconds : Nat) (value : String) :
    Outcome World Unit :=
  match c with
  | .lost n => some (.error (.fault n), w.setex key ttlSeconds value)
  | c => awaited c w (some (.ok (), w.setex key ttlSeconds value))

/-- A step that cannot fail. -/
def atOnce {α : Type} (c : Choice) (a : α) (w : World) : Outcome World α :=
  match c with
  | .ok => some (.ok a, w)
  | _ => none

def execUuid4 (c : Choice) (w : World) : Outcome World UUID :=
  match c with
  | .fresh u => (w.takeFresh c).map fun w' => (.ok u, w')
  | _ => none

def execOpenChannel (c : Choice) (w : World) : Outcome World Channel :=
  (w.takeFresh c).bind fun w' =>
    awaitedFresh c w fun u => some (.ok u, { w' with channels := u :: w'.channels })

/-- What one operation of coroutine `t` answers, and the world after it. -/
def execOp (t : Nat) (c : Choice) (w : World) : (op : Op) → Outcome World op.Ret
  | .uuid4 => execUuid4 c w
  | .utcnow => atOnce c w.appClock w
  | .redisGet key => awaited c w (some (.ok (w.cached key), w))
  | .redisSetex key ttl value => execSetex c w key ttl value
  | .selectTenant id => awaited c w (some (.ok (w.db.tenants id), w))
  | .selectWhitelist provider =>
    awaited c w
      (some (.ok (w.db.whitelist.filter fun r => r.vcsProvider = provider && r.isActive), w))
  | .selectByPrHashKey k =>
    awaited c w (some (.ok (w.db.inbound.find? fun i => i.prHashKey = k), w))
  | .begin => w.onDb (w.db.execBegin t w.clock c)
  | .commit => w.onDb (w.db.execCommit t c)
  | .rollback => w.onDb (w.db.execRollback t c)
  | .savepoint => w.onDb (w.db.execSavepoint t c)
  | .release => w.onDb (w.db.execRelease t c)
  | .rollbackTo => w.onDb (w.db.execRollbackTo t c)
  | .insertInbound e => w.onDb (w.db.execInsertInbound t P c e)
  | .insertEvent e => (w.takeFresh c).bind fun w' => w'.onDb (w.db.execInsertEvent t P c e)
  | .cancelScan k v => w.onDb (w.db.execCancelScan t c k v)
  | .cancelRow id k v reason => w.onDb (w.db.execCancelRow t c id k v reason)
  | .dueScan => w.onDb (w.db.execDueScan t c)
  | .lockDue id => w.onDb (w.db.execLockDue t c id)
  | .markDispatched id =>
    w.onDb (w.db.execMark t c id .dispatched fun tx r => r.markDispatched tx.now)
  | .markFailed id msg => w.onDb (w.db.execMark t c id .failed fun _ r => r.markFailed msg)
  | .markRetry id msg at_ => w.onDb (w.db.execMark t c id .retry fun _ r => r.markRetry msg at_)
  | .openChannel => execOpenChannel c w
  | .getExchange ch name => awaited c w (some (.ok ⟨ch, name⟩, w))
  | .publish _ _ _ => awaited c w (some (.ok (), w))
  | .closeChannel ch => awaited c w (some (.ok (), { w with channels := w.channels.erase ch }))
  | .isClosed ch => atOnce c (decide (ch ∉ w.channels)) w
  | .getSelf p => atOnce c (w.publishers p) w
  | .setChannel p ch =>
    atOnce c () { w with
      publishers := Function.update w.publishers p { w.publishers p with channel := ch } }
  | .setExchange p ex =>
    atOnce c () { w with
      publishers := Function.update w.publishers p { w.publishers p with exchange := ex } }

def World.record (w : World) (e : Event) : World := { w with trace := w.trace ++ [e] }

/-- `execOp`, recorded in the trace. -/
def exec (t : Nat) (op : Op) (c : Choice) (w : World) : Outcome World op.Ret :=
  (execOp P t c w op).map fun (r, w') => (r, w'.record ⟨t, op, r⟩)

end Exec

/-! ## The environment -/

inductive EnvEvent where
  | tick (n : Nat)
  | tickApp (n : Nat)
  | evict (key : String)
  | setTenant (id : UUID) (row : Option Tenant)
  | setWhitelist (rows : List VcsEventWhitelist)
  | dropChannel (channel : Channel)

def envStep : EnvEvent → World → World
  | .tick n, w => { w with clock := w.clock + n }
  | .tickApp n, w => { w with appClock := w.appClock + n }
  | .evict key, w => { w with redis := Function.update w.redis key none }
  | .setTenant id row, w =>
    { w with db := { w.db with tenants := Function.update w.db.tenants id row } }
  | .setWhitelist rows, w => { w with db := { w.db with whitelist := rows } }
  | .dropChannel ch, w => { w with channels := w.channels.erase ch }

/-- The connection of a vanished coroutine closes, and PostgreSQL rolls back. -/
def vanish (t : Nat) (w : World) : World :=
  match w.db.sessions t with
  | none => w
  | some _ => { w with db := w.db.discard t }

end VcsGateway
