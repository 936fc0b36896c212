import VcsGateway.World

/-!
# Statements and transactions

The SQL statements that touch several rows, written over the row-level operations,
and the two context managers of asyncpg: `conn.transaction()` on a connection taken
from the pool, and the same nested, which is a savepoint.
-/

namespace VcsGateway

open Async

abbrev Coroutine (α : Type) := Prog Exn Op Op.Ret α

/-- `await` of one operation. -/
abbrev perform (op : Op) : Coroutine op.Ret := Prog.perform op

/-- `try: p  except Exception as exc: h exc`, which lets a cancellation pass. -/
def exceptException {α : Type} (p : Coroutine α) (h : Exn → Coroutine α) : Coroutine α :=
  p.handle fun exc =>
    match exc with
    | .cancelledError => .throw .cancelledError
    | exc => h exc

/-- `async with self._pool.acquire() as conn, conn.transaction(): body`.  Taking the
    connection is part of `begin`, handing it back part of `commit` and `rollback`. -/
def transaction {α : Type} (body : Coroutine α) : Coroutine α := do
  perform .begin
  body.andThen fun
    | .ok a => do
      perform .commit
      pure a
    | .error exc => do
      perform .rollback
      .throw exc

/-- `async with conn.transaction(): body` inside a transaction. -/
def nestedTransaction {α : Type} (body : Coroutine α) : Coroutine α := do
  perform .savepoint
  body.andThen fun
    | .ok a => do
      perform .release
      pure a
    | .error exc => do
      perform .rollbackTo
      .throw exc

/-- `_CANCEL_PREVIOUS`: the rows that match at the start, each taken up again under
    its lock. -/
def cancelPrevious (prHashKey : String) (prVersion : Int) (cancelReason : String) :
    Coroutine Unit := do
  let ids ← perform (.cancelScan prHashKey prVersion)
  Prog.forEach ids fun id => perform (.cancelRow id prHashKey prVersion cancelReason)

/-- The `FOR UPDATE SKIP LOCKED` and the `LIMIT` of `_SELECT_DUE`. -/
def lockRows : Nat → List UUID → Coroutine (List OutboxEvent)
  | 0, _ => pure []
  | _, [] => pure []
  | limit + 1, id :: ids => do
    let row ← perform (.lockDue id)
    match row with
    | none => lockRows (limit + 1) ids
    | some row => do
      let rows ← lockRows limit ids
      pure (row :: rows)

/-- `_SELECT_DUE`. -/
def selectDue (limit : Nat) : Coroutine (List OutboxEvent) := do
  let ids ← perform .dueScan
  lockRows limit ids

end VcsGateway
