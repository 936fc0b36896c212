import VcsGateway.Tables
import Mathlib.Data.List.Sort
import Mathlib.Logic.Function.Basic

/-!
# PostgreSQL

The tables the service uses, row locks, transactions with savepoints, and the
row-level effect of each statement.  A statement that touches several rows is a
program over these operations (`VcsGateway.Sql`), so other transactions run between
its rows as they do in PostgreSQL at read committed.

The primary keys and `uq_inbound_event_correlation_id` are not checked: they are
keyed by fresh UUIDs.
-/

namespace VcsGateway

inductive Mark where
  | dispatched | failed | retry | cancelled
deriving DecidableEq, Repr

/-- What a transaction has done so far: rows inserted, new versions of existing
    `outbox_event` rows (newest first), and the updates behind them. -/
structure Changes where
  inbound : List InboundEvent := []
  inserts : List OutboxEvent := []
  writes : List OutboxEvent := []
  marks : List (UUID × Mark) := []

/-- The newest version of a row that a transaction with these changes sees. -/
def Changes.version (ch : Changes) (outbox : List OutboxEvent) (id : UUID) :
    Option OutboxEvent :=
  (ch.writes ++ ch.inserts ++ outbox).find? fun r => r.outboxId = id

/-- The newest version of the stored row `r`. -/
def Changes.latest (ch : Changes) (r : OutboxEvent) : OutboxEvent :=
  (ch.writes.find? fun v => v.outboxId = r.outboxId).getD r

/-- The table as a transaction with these changes sees it. -/
def Changes.apply (ch : Changes) (outbox : List OutboxEvent) : List OutboxEvent :=
  (outbox ++ ch.inserts).map ch.latest

/-- An open transaction.  `now` is its `NOW()`; `saved` holds the changes at each
    savepoint; once a statement has failed every further one fails (`aborted`). -/
structure Tx where
  now : Time
  changes : Changes := {}
  saved : List Changes := []
  aborted : Bool := false

namespace Tx

variable (tx : Tx)

def addWrite (v : OutboxEvent) (m : Mark) : Tx :=
  { tx with changes := { tx.changes with
      writes := v :: tx.changes.writes
      marks := (v.outboxId, m) :: tx.changes.marks } }

def addInbound (row : InboundEvent) : Tx :=
  { tx with changes := { tx.changes with inbound := tx.changes.inbound ++ [row] } }

def addInsert (row : OutboxEvent) : Tx :=
  { tx with changes := { tx.changes with inserts := tx.changes.inserts ++ [row] } }

@[simp] theorem addInbound_inbound (row : InboundEvent) :
    (tx.addInbound row).changes.inbound = tx.changes.inbound ++ [row] := rfl

@[simp] theorem addInbound_inserts (row : InboundEvent) :
    (tx.addInbound row).changes.inserts = tx.changes.inserts := rfl

@[simp] theorem addInsert_inbound (row : OutboxEvent) :
    (tx.addInsert row).changes.inbound = tx.changes.inbound := rfl

@[simp] theorem addInsert_inserts (row : OutboxEvent) :
    (tx.addInsert row).changes.inserts = tx.changes.inserts ++ [row] := rfl

end Tx

/-- An entry of the write-ahead log: a committed transaction. -/
structure Commit where
  tid : Nat
  changes : Changes

structure Database where
  tenants : UUID → Option Tenant
  whitelist : List VcsEventWhitelist
  inbound : List InboundEvent := []
  outbox : List OutboxEvent := []
  sessions : Nat → Option Tx := fun _ => none
  /-- The transaction that holds the lock of an `outbox_event` row. -/
  rowLock : UUID → Option Nat := fun _ => none
  /-- The open transaction that entered a key into `uq_inbound_event_pr_hash_key`. -/
  keyLock : String → Option Nat := fun _ => none
  wal : List Commit := []
  rolledBack : List Nat := []

/-- How the environment answers: with success (and a fresh identifier where one is
    needed), with an exception, by cancelling the coroutine, or, for a Redis write or a
    commit, by carrying it out and losing the reply. -/
inductive Choice where
  | ok
  | fresh (u : UUID)
  | fault (n : Nat)
  | lost (n : Nat)
  | cancel
deriving DecidableEq, Repr

/-- The answer of an operation and the state `σ` after it; `none` while it waits. -/
abbrev Outcome (σ α : Type) := Option (Except Exn α × σ)

/-- An await that succeeds with `r`, or raises and leaves `broken` behind. -/
def awaited {σ α : Type} (c : Choice) (broken : σ) (r : Outcome σ α) : Outcome σ α :=
  match c with
  | .ok => r
  | .fault n => some (.error (.fault n), broken)
  | .cancel => some (.error .cancelledError, broken)
  | .fresh _ | .lost _ => none

/-- The same for an await that hands out a fresh identifier. -/
def awaitedFresh {σ α : Type} (c : Choice) (broken : σ) (r : UUID → Outcome σ α) : Outcome σ α :=
  match c with
  | .fresh u => r u
  | .fault n => some (.error (.fault n), broken)
  | .cancel => some (.error .cancelledError, broken)
  | .ok | .lost _ => none

namespace Database

variable (db : Database) (t : Nat)

def setSession (tx : Tx) : Database :=
  { db with sessions := Function.update db.sessions t (some tx) }

/-- A statement of `t` failed. -/
def abort (tx : Tx) : Database := db.setSession t { tx with aborted := true }

/-- The transaction of `t` is over: its locks are free. -/
def close : Database :=
  { db with
    sessions := Function.update db.sessions t none
    rowLock := fun id => if db.rowLock id = some t then none else db.rowLock id
    keyLock := fun k => if db.keyLock k = some t then none else db.keyLock k }

def discard : Database := { db.close t with rolledBack := t :: db.rolledBack }

/-- The changes of a committed transaction become visible. -/
def install (tx : Tx) : Database :=
  { db.close t with
    inbound := db.inbound ++ tx.changes.inbound
    outbox := tx.changes.apply db.outbox
    wal := db.wal ++ [⟨t, tx.changes⟩] }

def lock (id : UUID) : Database :=
  { db with rowLock := Function.update db.rowLock id (some t) }

/-- Lock a row and write its new version. -/
def write (tx : Tx) (v : OutboxEvent) (m : Mark) : Database :=
  (db.lock t v.outboxId).setSession t (tx.addWrite v m)

def addInbound (tx : Tx) (row : InboundEvent) : Database :=
  { db.setSession t (tx.addInbound row) with
    keyLock := Function.update db.keyLock row.prHashKey (some t) }

/-- An inserted row is locked by its transaction. -/
def addOutbox (tx : Tx) (row : OutboxEvent) : Database :=
  (db.lock t row.outboxId).setSession t (tx.addInsert row)

/-- Another transaction holds the lock of the row. -/
def lockedByOther (id : UUID) : Bool :=
  match db.rowLock id with
  | some t' => t' ≠ t
  | none => false

/-- A statement inside the transaction of `t`: a failed transaction refuses it. -/
def inTx {α : Type} (r : Tx → Outcome Database α) : Outcome Database α :=
  match db.sessions t with
  | none => none
  | some tx => if tx.aborted then some (.error .inFailedSqlTransactionError, db) else r tx

/-! ## Transaction control -/

def execBegin (now : Time) (c : Choice) : Outcome Database Unit :=
  match db.sessions t with
  | some _ => none
  | none => awaited c db (some (.ok (), db.setSession t { now }))

/-- What `COMMIT` leaves behind: after a failed statement it is a rollback. -/
def settle (tx : Tx) : Database := if tx.aborted then db.discard t else db.install t tx

/-- A `COMMIT` that raises has rolled back, unless a cancellation hides its success. -/
def execCommit (c : Choice) : Outcome Database Unit :=
  match db.sessions t with
  | none => none
  | some tx =>
    match c with
    | .lost _ => some (.error .cancelledError, db.settle t tx)
    | c => awaited c (db.discard t) (some (.ok (), db.settle t tx))

def execRollback (c : Choice) : Outcome Database Unit :=
  match db.sessions t with
  | none => none
  | some _ => awaited c (db.discard t) (some (.ok (), db.discard t))

def execSavepoint (c : Choice) : Outcome Database Unit :=
  db.inTx t fun tx => awaited c (db.abort t tx)
    (some (.ok (), db.setSession t { tx with saved := tx.changes :: tx.saved }))

def execRelease (c : Choice) : Outcome Database Unit :=
  db.inTx t fun tx => awaited c (db.abort t tx)
    (some (.ok (), db.setSession t { tx with saved := tx.saved.tail }))

/-- `ROLLBACK TO SAVEPOINT` revives a failed transaction.  Row locks stay. -/
def execRollbackTo (c : Choice) : Outcome Database Unit :=
  match db.sessions t with
  | none => none
  | some tx =>
    match tx.saved with
    | [] => none
    | ch :: saved =>
      awaited c (db.abort t tx)
        (some (.ok (), db.setSession t { tx with changes := ch, saved, aborted := false }))

/-! ## Statements -/

section Statements

variable (P : Platform)

/-- `_INSERT_INBOUND`.  The unique index on `pr_hash_key` makes the statement fail
    when the key is stored, and wait while another transaction is inserting it. -/
def execInsertInbound (c : Choice) (e : NewInboundEvent) : Outcome Database InboundEvent :=
  db.inTx t fun tx => awaited c (db.abort t tx) <|
    match e.row P tx.now with
    | none => some (.error .dataError, db.abort t tx)
    | some row =>
      if (db.inbound ++ tx.changes.inbound).any fun i => i.prHashKey = row.prHashKey then
        some (.error .uniqueViolationError, db.abort t tx)
      else match db.keyLock row.prHashKey with
        | some _ => none
        | none => some (.ok row, db.addInbound t tx row)

/-- `_INSERT_EVENT … RETURNING outbox_id`. -/
def execInsertEvent (c : Choice) (e : NewOutboxEvent) : Outcome Database UUID :=
  db.inTx t fun tx => awaitedFresh c (db.abort t tx) fun u =>
    match e.row P u tx.now with
    | none => some (.error .dataError, db.abort t tx)
    | some row => some (.ok u, db.addOutbox t tx row)

/-- The rows that `_CANCEL_PREVIOUS` finds at its start. -/
def execCancelScan (c : Choice) (prHashKey : String) (prVersion : Int) :
    Outcome Database (List UUID) :=
  db.inTx t fun tx => awaited c (db.abort t tx)
    (some (.ok (((tx.changes.apply db.outbox).filter (·.isPrevious prHashKey prVersion)).map
      (·.outboxId)), db))

/-- One row of `_CANCEL_PREVIOUS`: wait for its lock, check the `WHERE` clause again
    on the newest version, update. -/
def execCancelRow (c : Choice) (id : UUID) (prHashKey : String) (prVersion : Int)
    (reason : String) : Outcome Database Unit :=
  db.inTx t fun tx => awaited c (db.abort t tx) <|
    if db.lockedByOther t id then none
    else match tx.changes.version db.outbox id with
      | none => some (.ok (), db)
      | some r =>
        if r.isPrevious prHashKey prVersion then
          some (.ok (), db.write t tx (r.cancel reason) .cancelled)
        else some (.ok (), db)

/-- The rows that `_SELECT_DUE` finds, in `dispatch_at` order. -/
def execDueScan (c : Choice) : Outcome Database (List UUID) :=
  db.inTx t fun tx => awaited c (db.abort t tx)
    (some (.ok ((((tx.changes.apply db.outbox).filter (·.isDue tx.now)).insertionSort
      fun r r' => r.dispatchAt ≤ r'.dispatchAt).map (·.outboxId)), db))

/-- One row of `_SELECT_DUE … FOR UPDATE SKIP LOCKED`: skip a locked row, check the
    `WHERE` clause again on the newest version, lock. -/
def execLockDue (c : Choice) (id : UUID) : Outcome Database (Option OutboxEvent) :=
  db.inTx t fun tx => awaited c (db.abort t tx) <|
    if db.lockedByOther t id then some (.ok none, db)
    else match tx.changes.version db.outbox id with
      | none => some (.ok none, db)
      | some r => if r.isDue tx.now then some (.ok (some r), db.lock t id) else some (.ok none, db)

/-- `UPDATE … WHERE outbox_id = $1`: waits for the row lock. -/
def execMark (c : Choice) (id : UUID) (m : Mark) (set : Tx → OutboxEvent → OutboxEvent) :
    Outcome Database Unit :=
  db.inTx t fun tx => awaited c (db.abort t tx) <|
    if db.lockedByOther t id then none
    else match tx.changes.version db.outbox id with
      | none => some (.ok (), db)
      | some r => some (.ok (), db.write t tx (set tx r) m)

end Statements

end Database

end VcsGateway
