import VcsGateway.Transactions

/-!
# What a step does to the world

`Moves` lists what a step of a coroutine can do to the database, whatever its program,
and `Op.Frame` what it leaves alone.  Invariants are derived from these two and from
the lemmas of `VcsGateway.Transactions`.
-/

namespace VcsGateway

open Async

/-- The update of `outbox_event` that `op` makes in the transaction `tx`: from the
    version `r` of a row to `v`. -/
def Op.Writes (tx : Tx) (r v : OutboxEvent) (m : Mark) : Op → Prop
  | .cancelRow id k ver reason =>
    r.outboxId = id ∧ r.isPrevious k ver = true ∧ v = r.cancel reason ∧ m = .cancelled
  | .markDispatched id => r.outboxId = id ∧ v = r.markDispatched tx.now ∧ m = .dispatched
  | .markFailed id msg => r.outboxId = id ∧ v = r.markFailed msg ∧ m = .failed
  | .markRetry id msg at_ => r.outboxId = id ∧ v = r.markRetry msg at_ ∧ m = .retry
  | _ => False

theorem Op.Writes.core_eq {op : Op} {tx : Tx} {r v : OutboxEvent} {m : Mark}
    (h : op.Writes tx r v m) : v.core = r.core := by
  cases op with
  | cancelRow id k ver reason => obtain ⟨-, -, rfl, -⟩ := h; simp
  | markDispatched id => obtain ⟨-, rfl, -⟩ := h; simp
  | markFailed id msg => obtain ⟨-, rfl, -⟩ := h; simp
  | markRetry id msg at_ => obtain ⟨-, rfl, -⟩ := h; simp
  | _ => exact h.elim

theorem Op.Writes.outboxId_eq {op : Op} {tx : Tx} {r v : OutboxEvent} {m : Mark}
    (h : op.Writes tx r v m) : v.outboxId = r.outboxId :=
  congrArg (·.outboxId) h.core_eq

namespace Database

/-- No transaction but that of `t` holds the lock of the row. -/
def FreeFor (db : Database) (t : Nat) (id : UUID) : Prop :=
  ∀ t', db.rowLock id = some t' → t' = t

/-- What a step of coroutine `t` that performs `op` does to the database.  `fresh` holds
    of the identifiers that the step introduces. -/
inductive Moves (P : Platform) (op : Op) (fresh : UUID → Prop) (t : Nat) (db : Database) :
    Database → Prop
  | idle : Moves P op fresh t db db
  | opened (now : Time) : op = .begin → db.sessions t = none →
      Moves P op fresh t db (db.setSession t { now })
  | kept (tx tx' : Tx) : db.sessions t = some tx → tx'.now = tx.now →
      (∀ ch ∈ tx'.changes :: tx'.saved, ch ∈ tx.changes :: tx.saved) →
      Moves P op fresh t db (db.setSession t tx')
  | discarded (tx : Tx) : db.sessions t = some tx → Moves P op fresh t db (db.discard t)
  | installed (tx : Tx) : op = .commit → db.sessions t = some tx → tx.aborted = false →
      Moves P op fresh t db (db.install t tx)
  | locked (tx : Tx) (id : UUID) (r : OutboxEvent) : op = .lockDue id → db.sessions t = some tx →
      db.FreeFor t id → tx.changes.version db.outbox id = some r → r.isDue tx.now = true →
      Moves P op fresh t db (db.lock t id)
  | wrote (tx : Tx) (r v : OutboxEvent) (m : Mark) : op.Writes tx r v m →
      db.sessions t = some tx → tx.aborted = false → db.FreeFor t v.outboxId →
      tx.changes.version db.outbox v.outboxId = some r → Moves P op fresh t db (db.write t tx v m)
  | insertedInbound (tx : Tx) (e : NewInboundEvent) (row : InboundEvent) :
      op = .insertInbound e → e.row P tx.now = some row → db.sessions t = some tx →
      (∀ i ∈ db.inbound ++ tx.changes.inbound, i.prHashKey ≠ row.prHashKey) →
      db.keyLock row.prHashKey = none → Moves P op fresh t db (db.addInbound t tx row)
  | insertedOutbox (tx : Tx) (e : NewOutboxEvent) (row : OutboxEvent) : op = .insertEvent e →
      e.row P row.outboxId tx.now = some row → db.sessions t = some tx → fresh row.outboxId →
      Moves P op fresh t db (db.addOutbox t tx row)

variable {P : Platform} {op : Op} {fresh : UUID → Prop} {t : Nat} {db : Database}

theorem moves_abort {tx : Tx} (h : db.sessions t = some tx) :
    Moves P op fresh t db (db.abort t tx) :=
  .kept tx { tx with aborted := true } h rfl fun _ hch => hch

theorem moves_settle {tx : Tx} (h : db.sessions t = some tx) :
    Moves P .commit fresh t db (db.settle t tx) := by
  unfold settle
  by_cases hab : tx.aborted = true
  · rw [if_pos hab]; exact .discarded tx h
  · rw [if_neg hab]; exact .installed tx rfl h (by simpa using hab)

/-- A version of a row is a row with that identifier. -/
theorem version_eq_some {ch : Changes} {outbox : List OutboxEvent} {id : UUID} {r : OutboxEvent}
    (h : ch.version outbox id = some r) :
    r.outboxId = id ∧ r ∈ ch.writes ++ ch.inserts ++ outbox := by
  unfold Changes.version at h
  exact ⟨by simpa using List.find?_some h, List.mem_of_find?_eq_some h⟩

theorem moves_mark {db' : Database} {c : Choice} {id : UUID} {m : Mark}
    {set : Tx → OutboxEvent → OutboxEvent} {a : Except Exn Unit}
    (h : db.execMark t c id m set = some (a, db'))
    (hset : ∀ tx r, r.outboxId = id → op.Writes tx r (set tx r) m) : Moves P op fresh t db db' := by
  obtain ⟨tx, hs, ⟨e, -, -, rfl⟩ | ⟨-, -, rfl, -⟩ | ⟨r, hab, -, hfree, hv, rfl⟩⟩ :=
    execMark_eq_some h
  · exact moves_abort hs
  · exact .idle
  · have hr : r.outboxId = id := (version_eq_some hv).1
    have hw := hset tx r hr
    have hid : (set tx r).outboxId = id := hw.outboxId_eq.trans hr
    exact .wrote tx r _ m hw hs hab (hid ▸ hfree) (hid ▸ hv)

/-- A step of `t` leaves the transactions of the others as they are. -/
theorem Moves.sessions_of_ne {db' : Database} (h : Moves P op fresh t db db') {t' : Nat}
    (hne : t' ≠ t) : db'.sessions t' = db.sessions t' := by
  cases h <;>
    simp [setSession, discard, install, close, lock, write, addInbound, addOutbox, hne]

/-- **Where the changes of the open transaction come from**: it has just begun, they were
there before, or the statement has added to the newest ones. -/
inductive Moves.Pends (op : Op) (db : Database) (tx : Tx) : Changes → Prop
  | before {ch : Changes} : ch ∈ tx.changes :: tx.saved → Pends op db tx ch
  | wrote (r v : OutboxEvent) (m : Mark) : op.Writes tx r v m →
      tx.changes.version db.outbox v.outboxId = some r → Pends op db tx (tx.addWrite v m).changes
  | insertedInbound (e : NewInboundEvent) (row : InboundEvent) : op = .insertInbound e →
      Pends op db tx (tx.addInbound row).changes
  | insertedOutbox (e : NewOutboxEvent) (row : OutboxEvent) : op = .insertEvent e →
      Pends op db tx (tx.addInsert row).changes

theorem Moves.pends {db' : Database} (h : Moves P op fresh t db db') {tx' : Tx}
    (htx' : db'.sessions t = some tx') {ch : Changes} (hch : ch ∈ tx'.changes :: tx'.saved) :
    ch = {} ∨ ∃ tx, db.sessions t = some tx ∧ Moves.Pends op db tx ch := by
  -- a statement replaces the newest changes only
  have hstatement : ∀ (tx : Tx) (newest : Changes), db.sessions t = some tx →
      ch ∈ newest :: tx.saved → Moves.Pends op db tx newest →
      ∃ tx, db.sessions t = some tx ∧ Moves.Pends op db tx ch := by
    intro tx newest htx hmem hnewest
    refine ⟨tx, htx, ?_⟩
    rcases List.mem_cons.mp hmem with rfl | hsaved
    · exact hnewest
    · exact .before (List.mem_cons_of_mem _ hsaved)
  cases h with
  | idle => exact .inr ⟨tx', htx', .before hch⟩
  | opened now _ _ =>
    obtain rfl : _ = tx' := Option.some.inj ((setSession_sessions_self _).symm.trans htx')
    exact .inl (by simpa using hch)
  | kept tx tx'' htx _ hsub =>
    obtain rfl : tx'' = tx' := Option.some.inj ((setSession_sessions_self _).symm.trans htx')
    exact .inr ⟨tx, htx, .before (hsub ch hch)⟩
  | discarded tx _ => simp [Database.discard, close] at htx'
  | installed tx _ _ _ => simp [Database.install, close] at htx'
  | locked tx id r _ _ _ _ _ => exact .inr ⟨tx', htx', .before hch⟩
  | wrote tx r v m hw htx _ _ hv =>
    obtain rfl : _ = tx' := Option.some.inj ((setSession_sessions_self _).symm.trans htx')
    exact .inr (hstatement tx _ htx hch (.wrote r v m hw hv))
  | insertedInbound tx e row he _ htx _ _ =>
    obtain rfl : _ = tx' := Option.some.inj ((setSession_sessions_self _).symm.trans htx')
    exact .inr (hstatement tx _ htx hch (.insertedInbound e row he))
  | insertedOutbox tx e row he _ htx _ =>
    obtain rfl : _ = tx' := Option.some.inj ((setSession_sessions_self _).symm.trans htx')
    exact .inr (hstatement tx _ htx hch (.insertedOutbox e row he))

/-- The log grows by whole transactions, when they commit. -/
theorem Moves.wal {db' : Database} (h : Moves P op fresh t db db') :
    db'.wal = db.wal ∨
      ∃ tx, db.sessions t = some tx ∧ db'.wal = db.wal ++ [⟨t, tx.changes⟩] := by
  cases h with
  | installed tx _ htx _ => exact .inr ⟨tx, htx, rfl⟩
  | idle | opened | kept | discarded | locked | wrote | insertedInbound | insertedOutbox =>
    exact .inl rfl

end Database

/-! ### Frames -/

/-- The operations that leave the database alone. -/
def Op.quiet : Op → Bool
  | .uuid4 | .utcnow | .redisGet _ | .redisSetex _ _ _ | .selectTenant _ | .selectWhitelist _
  | .selectByPrHashKey _ | .openChannel | .getExchange _ _ | .publish _ _ _ | .closeChannel _
  | .isClosed _ | .getSelf _ | .setChannel _ _ | .setExchange _ _ => true
  | _ => false

/-- What the operation `op` leaves as it was. -/
structure Op.Frame (op : Op) (w w' : World) : Prop where
  db : op.quiet = true → w'.db = w.db
  redis : (∀ key ttl value, op ≠ .redisSetex key ttl value) → w'.redis = w.redis
  used : w.used ⊆ w'.used
  clock : w'.clock = w.clock
  trace : w'.trace = w.trace

variable {P : Platform} {t : Nat} {c : Choice} {w w' : World}

theorem Op.Frame.refl (op : Op) (w : World) : op.Frame w w :=
  ⟨fun _ => rfl, fun _ => rfl, fun _ h => h, rfl, rfl⟩

theorem onDb_eq_some {α : Type} {o : Outcome Database α} {r : Except Exn α}
    (h : w.onDb o = some (r, w')) : ∃ db', o = some (r, db') ∧ w' = { w with db := db' } := by
  simp only [World.onDb, Option.map_eq_some_iff, Prod.mk.injEq] at h
  obtain ⟨⟨a, db'⟩, ho, rfl, rfl⟩ := h
  exact ⟨db', ho, rfl⟩

theorem takeFresh_eq_some (h : w.takeFresh c = some w') :
    (∃ u, c = .fresh u ∧ u ∉ w.used ∧ w' = { w with used := u :: w.used }) ∨
      ((∀ u, c ≠ .fresh u) ∧ w' = w) := by
  unfold World.takeFresh at h
  cases c with
  | fresh u =>
    simp only at h
    split at h
    · simp at h
    · next hu => exact .inl ⟨u, rfl, hu, (Option.some.inj h).symm⟩
  | ok => exact .inr ⟨by simp, (Option.some.inj h).symm⟩
  | fault n => exact .inr ⟨by simp, (Option.some.inj h).symm⟩
  | lost n => exact .inr ⟨by simp, (Option.some.inj h).symm⟩
  | cancel => exact .inr ⟨by simp, (Option.some.inj h).symm⟩

theorem atOnce_eq_some {α : Type} {a : α} {r : Except Exn α} {w₁ : World}
    (h : atOnce c a w₁ = some (r, w')) : r = .ok a ∧ w' = w₁ := by
  cases c with
  | ok =>
    simp only [atOnce, Option.some.injEq, Prod.mk.injEq] at h
    exact ⟨h.1.symm, h.2.symm⟩
  | fresh u => simp [atOnce] at h
  | fault n => simp [atOnce] at h
  | lost n => simp [atOnce] at h
  | cancel => simp [atOnce] at h

/-- An await either leaves the world as it was and raises, or does its work. -/
theorem awaited_world {α : Type} {a : α} {r : Except Exn α} {w₁ : World}
    (h : awaited c w (some (.ok a, w₁)) = some (r, w')) :
    (∃ e, r = .error e ∧ e.External ∧ w' = w) ∨ (r = .ok a ∧ w' = w₁) := by
  rcases awaited_eq_some h with h | h
  · exact .inl h
  · simp only [Option.some.injEq, Prod.mk.injEq] at h
    exact .inr ⟨h.1.symm, h.2.symm⟩

theorem execSetex_eq_some {key : String} {ttl : Nat} {value : String} {r : Except Exn Unit}
    (h : execSetex c w key ttl value = some (r, w')) :
    (∃ e, r = .error e ∧ e.External ∧ w' = w) ∨
      ((r = .ok () ∨ ∃ e, r = .error e ∧ e.External) ∧ w' = w.setex key ttl value) := by
  have hawait : ∀ c, awaited c w (some (.ok (), w.setex key ttl value)) = some (r, w') →
      (∃ e, r = .error e ∧ e.External ∧ w' = w) ∨
        ((r = .ok () ∨ ∃ e, r = .error e ∧ e.External) ∧ w' = w.setex key ttl value) := by
    intro c h
    rcases awaited_world h with h | ⟨hr, hw⟩
    · exact .inl h
    · exact .inr ⟨.inl hr, hw⟩
  cases c with
  | lost n =>
    simp only [execSetex, Option.some.injEq, Prod.mk.injEq] at h
    exact .inr ⟨.inr ⟨_, h.1.symm, .fault n⟩, h.2.symm⟩
  | ok => exact hawait .ok h
  | fresh u => exact hawait (.fresh u) h
  | fault n => exact hawait (.fault n) h
  | cancel => exact hawait .cancel h

theorem execUuid4_eq_some {r : Except Exn UUID} (h : execUuid4 c w = some (r, w')) :
    ∃ u, c = .fresh u ∧ u ∉ w.used ∧ r = .ok u ∧ w' = { w with used := u :: w.used } := by
  cases c with
  | fresh u =>
    simp only [execUuid4, Option.map_eq_some_iff, Prod.mk.injEq] at h
    obtain ⟨w₁, hw₁, rfl, rfl⟩ := h
    rcases takeFresh_eq_some hw₁ with ⟨u', hu, hfresh, rfl⟩ | ⟨hno, -⟩
    · obtain rfl := Choice.fresh.inj hu
      exact ⟨u, rfl, hfresh, rfl, rfl⟩
    · exact absurd rfl (hno u)
  | ok => simp [execUuid4] at h
  | fault n => simp [execUuid4] at h
  | lost n => simp [execUuid4] at h
  | cancel => simp [execUuid4] at h

theorem execOpenChannel_eq_some {r : Except Exn Channel} (h : execOpenChannel c w = some (r, w')) :
    (∃ e, r = .error e ∧ e.External ∧ w' = w) ∨
      ∃ u, c = .fresh u ∧ u ∉ w.used ∧ r = .ok u ∧
        w' = { w with used := u :: w.used, channels := u :: w.channels } := by
  simp only [execOpenChannel, Option.bind_eq_some_iff] at h
  obtain ⟨w₁, hw₁, h⟩ := h
  rcases awaitedFresh_eq_some h with h | ⟨u, hc, h⟩
  · exact .inl h
  · simp only [Option.some.injEq, Prod.mk.injEq] at h
    rcases takeFresh_eq_some hw₁ with ⟨u', hu, hfresh, rfl⟩ | ⟨hno, -⟩
    · obtain rfl := Choice.fresh.inj (hc.symm.trans hu)
      exact .inr ⟨u, hc, hfresh, h.1.symm, h.2.symm⟩
    · exact absurd hc (hno u)

theorem execOp_insertEvent_eq_some {e : NewOutboxEvent} {r : Except Exn UUID}
    (h : execOp P t c w (.insertEvent e) = some (r, w')) :
    ∃ db', w.db.execInsertEvent t P c e = some (r, db') ∧ w'.db = db' ∧ w'.redis = w.redis ∧
      w'.clock = w.clock ∧ w'.trace = w.trace ∧ w.used ⊆ w'.used ∧
      ∀ u, c = .fresh u → u ∉ w.used ∧ u ∈ w'.used := by
  simp only [execOp, Option.bind_eq_some_iff] at h
  obtain ⟨w₁, hw₁, h⟩ := h
  obtain ⟨db', hdb', rfl⟩ := onDb_eq_some h
  rcases takeFresh_eq_some hw₁ with ⟨u, rfl, hfresh, rfl⟩ | ⟨hno, rfl⟩
  · refine ⟨db', hdb', rfl, rfl, rfl, rfl, fun _ hx => List.mem_cons_of_mem _ hx, ?_⟩
    intro u' hu'
    obtain rfl := Choice.fresh.inj hu'
    exact ⟨hfresh, List.mem_cons_self⟩
  · exact ⟨db', hdb', rfl, rfl, rfl, rfl, fun _ hx => hx, fun u hu => absurd hu (hno u)⟩

/-- A recorded step is a step and its entry in the trace. -/
theorem exec_eq_some {op : Op} {r : Except Exn op.Ret} (h : exec P t op c w = some (r, w')) :
    ∃ w₁, execOp P t c w op = some (r, w₁) ∧ w' = w₁.record ⟨t, op, r⟩ := by
  simp only [exec, Option.map_eq_some_iff, Prod.mk.injEq] at h
  obtain ⟨⟨r', w₁⟩, h₁, rfl, rfl⟩ := h
  exact ⟨w₁, h₁, rfl⟩

/-- Every operation leaves alone what is not its business. -/
theorem execOp_frame : ∀ {op : Op} {r : Except Exn op.Ret},
    execOp P t c w op = some (r, w') → op.Frame w w' := by
  -- an operation on the database changes nothing else
  have hdb : ∀ {α : Type} {o : Outcome Database α} {r : Except Exn α} (op : Op),
      op.quiet = false → w.onDb o = some (r, w') → op.Frame w w' := by
    intro α o r op hq h
    obtain ⟨db', -, rfl⟩ := onDb_eq_some h
    exact ⟨fun hq' => by simp [hq] at hq', fun _ => rfl, fun _ hx => hx, rfl, rfl⟩
  -- a read changes nothing
  have hread : ∀ {α : Type} {a : α} {r : Except Exn α} (op : Op),
      awaited c w (some (.ok a, w)) = some (r, w') → op.Frame w w' := by
    intro α a r op h
    rcases awaited_world h with ⟨_, _, _, rfl⟩ | ⟨_, rfl⟩ <;> exact .refl op _
  intro op r h
  cases op with
  | uuid4 =>
    obtain ⟨u, -, -, -, rfl⟩ := execUuid4_eq_some h
    exact ⟨fun _ => rfl, fun _ => rfl, fun _ hx => List.mem_cons_of_mem _ hx, rfl, rfl⟩
  | utcnow =>
    obtain ⟨-, rfl⟩ := atOnce_eq_some h
    exact .refl _ _
  | redisGet key => exact hread _ h
  | redisSetex key ttl value =>
    rcases execSetex_eq_some h with ⟨_, _, _, rfl⟩ | ⟨_, rfl⟩
    · exact .refl _ _
    · exact ⟨fun _ => rfl, fun hne => absurd rfl (hne key ttl value), fun _ hx => hx, rfl, rfl⟩
  | selectTenant id => exact hread _ h
  | selectWhitelist provider => exact hread _ h
  | selectByPrHashKey k => exact hread _ h
  | begin => exact hdb _ rfl h
  | commit => exact hdb _ rfl h
  | rollback => exact hdb _ rfl h
  | savepoint => exact hdb _ rfl h
  | release => exact hdb _ rfl h
  | rollbackTo => exact hdb _ rfl h
  | insertInbound e => exact hdb _ rfl h
  | insertEvent e =>
    obtain ⟨db', -, -, hredis, hclock, htrace, hused, -⟩ := execOp_insertEvent_eq_some h
    exact ⟨by simp [Op.quiet], fun _ => hredis, hused, hclock, htrace⟩
  | cancelScan k v => exact hdb _ rfl h
  | cancelRow id k v reason => exact hdb _ rfl h
  | dueScan => exact hdb _ rfl h
  | lockDue id => exact hdb _ rfl h
  | markDispatched id => exact hdb _ rfl h
  | markFailed id msg => exact hdb _ rfl h
  | markRetry id msg at_ => exact hdb _ rfl h
  | openChannel =>
    rcases execOpenChannel_eq_some h with ⟨_, _, _, rfl⟩ | ⟨u, -, -, -, rfl⟩
    · exact .refl _ _
    · exact ⟨fun _ => rfl, fun _ => rfl, fun _ hx => List.mem_cons_of_mem _ hx, rfl, rfl⟩
  | getExchange ch name => exact hread _ h
  | publish exchange message routingKey => exact hread _ h
  | closeChannel ch =>
    rcases awaited_world h with ⟨_, _, _, rfl⟩ | ⟨_, rfl⟩
    · exact .refl _ _
    · exact ⟨fun _ => rfl, fun _ => rfl, fun _ hx => hx, rfl, rfl⟩
  | isClosed ch =>
    obtain ⟨-, rfl⟩ := atOnce_eq_some h
    exact .refl _ _
  | getSelf p =>
    obtain ⟨-, rfl⟩ := atOnce_eq_some h
    exact .refl _ _
  | setChannel p ch =>
    obtain ⟨-, rfl⟩ := atOnce_eq_some h
    exact ⟨fun _ => rfl, fun _ => rfl, fun _ hx => hx, rfl, rfl⟩
  | setExchange p ex =>
    obtain ⟨-, rfl⟩ := atOnce_eq_some h
    exact ⟨fun _ => rfl, fun _ => rfl, fun _ hx => hx, rfl, rfl⟩

/-- **What a step does to the database.** -/
theorem execOp_moves {op : Op} {r : Except Exn op.Ret} (h : execOp P t c w op = some (r, w')) :
    w.db.Moves P op (fun u => u ∉ w.used ∧ u ∈ w'.used) t w'.db := by
  have hquiet : op.quiet = true →
      w.db.Moves P op (fun u => u ∉ w.used ∧ u ∈ w'.used) t w'.db := by
    intro hq
    rw [(execOp_frame h).db hq]
    exact .idle
  cases op with
  | begin =>
    obtain ⟨db', hdb, rfl⟩ := onDb_eq_some h
    obtain ⟨hs, ⟨e, -, -, rfl⟩ | ⟨-, rfl⟩⟩ := Database.execBegin_eq_some hdb
    · exact .idle
    · exact .opened _ rfl hs
  | commit =>
    obtain ⟨db', hdb, rfl⟩ := onDb_eq_some h
    obtain ⟨tx, hs, ⟨-, rfl⟩ | ⟨-, rfl⟩ | ⟨e, -, -, rfl⟩⟩ := Database.execCommit_eq_some hdb
    · exact Database.moves_settle hs
    · exact Database.moves_settle hs
    · exact .discarded tx hs
  | rollback =>
    obtain ⟨db', hdb, rfl⟩ := onDb_eq_some h
    obtain ⟨tx, hs, rfl, -⟩ := Database.execRollback_eq_some hdb
    exact .discarded tx hs
  | savepoint =>
    obtain ⟨db', hdb, rfl⟩ := onDb_eq_some h
    obtain ⟨tx, hs, ⟨e, -, -, rfl⟩ | ⟨-, rfl⟩⟩ := Database.execSavepoint_eq_some hdb
    · exact Database.moves_abort hs
    · exact .kept tx _ hs rfl (by simp)
  | release =>
    obtain ⟨db', hdb, rfl⟩ := onDb_eq_some h
    obtain ⟨tx, hs, ⟨e, -, -, rfl⟩ | ⟨-, rfl⟩⟩ := Database.execRelease_eq_some hdb
    · exact Database.moves_abort hs
    · refine .kept tx _ hs rfl fun ch hch => ?_
      rcases List.mem_cons.mp hch with rfl | hch
      · exact List.mem_cons_self
      · exact List.mem_cons_of_mem _ (List.mem_of_mem_tail hch)
  | rollbackTo =>
    obtain ⟨db', hdb, rfl⟩ := onDb_eq_some h
    obtain ⟨tx, hs, ⟨e, -, -, rfl⟩ | ⟨ch, saved, hsaved, -, rfl⟩⟩ :=
      Database.execRollbackTo_eq_some hdb
    · exact Database.moves_abort hs
    · exact .kept tx _ hs rfl fun ch' hch' => List.mem_cons_of_mem _ (hsaved ▸ hch')
  | insertInbound e =>
    obtain ⟨db', hdb, rfl⟩ := onDb_eq_some h
    obtain ⟨tx, hs, ⟨e, -, rfl, -⟩ | ⟨row, -, hrow, -, hnew, hlock, rfl⟩⟩ :=
      Database.execInsertInbound_eq_some hdb
    · exact Database.moves_abort hs
    · exact .insertedInbound tx e row rfl hrow hs hnew hlock
  | insertEvent e =>
    obtain ⟨db', hdb, hdb', -, -, -, -, hfresh⟩ := execOp_insertEvent_eq_some h
    rw [hdb']
    obtain ⟨tx, hs, ⟨e, -, -, rfl⟩ | ⟨u, row, -, hc, hrow, -, rfl⟩⟩ :=
      Database.execInsertEvent_eq_some hdb
    · exact Database.moves_abort hs
    · have hid : row.outboxId = u := by
        obtain ⟨payload, headers, -, -, rfl⟩ := e.row_eq_some P hrow
        rfl
      exact .insertedOutbox tx e row rfl (hid ▸ hrow) hs (hid ▸ hfresh u hc)
  | cancelScan k v =>
    obtain ⟨db', hdb, rfl⟩ := onDb_eq_some h
    obtain ⟨tx, hs, ⟨e, -, -, rfl⟩ | ⟨rfl, -⟩⟩ := Database.execCancelScan_eq_some hdb
    · exact Database.moves_abort hs
    · exact .idle
  | cancelRow id k v reason =>
    obtain ⟨db', hdb, rfl⟩ := onDb_eq_some h
    obtain ⟨tx, hs, ⟨e, -, -, rfl⟩ | ⟨-, -, rfl⟩ | ⟨row, hab, -, hfree, hv, hprev, rfl⟩⟩ :=
      Database.execCancelRow_eq_some hdb
    · exact Database.moves_abort hs
    · exact .idle
    · have hid : row.outboxId = id := (Database.version_eq_some hv).1
      have hid' : (row.cancel reason).outboxId = id := hid
      exact .wrote tx row _ _ ⟨hid, hprev, rfl, rfl⟩ hs hab (hid' ▸ hfree) (hid' ▸ hv)
  | dueScan =>
    obtain ⟨db', hdb, rfl⟩ := onDb_eq_some h
    obtain ⟨tx, hs, ⟨e, -, -, rfl⟩ | ⟨rfl, -⟩⟩ := Database.execDueScan_eq_some hdb
    · exact Database.moves_abort hs
    · exact .idle
  | lockDue id =>
    obtain ⟨db', hdb, rfl⟩ := onDb_eq_some h
    obtain ⟨tx, hs, ⟨e, -, -, rfl⟩ | ⟨-, rfl⟩ | ⟨r, -, -, hfree, hv, hdue, rfl⟩⟩ :=
      Database.execLockDue_eq_some hdb
    · exact Database.moves_abort hs
    · exact .idle
    · exact .locked tx id r rfl hs hfree hv hdue
  | markDispatched id =>
    obtain ⟨db', hdb, rfl⟩ := onDb_eq_some h
    exact Database.moves_mark hdb fun _ _ hr => ⟨hr, rfl, rfl⟩
  | markFailed id msg =>
    obtain ⟨db', hdb, rfl⟩ := onDb_eq_some h
    exact Database.moves_mark hdb fun _ _ hr => ⟨hr, rfl, rfl⟩
  | markRetry id msg at_ =>
    obtain ⟨db', hdb, rfl⟩ := onDb_eq_some h
    exact Database.moves_mark hdb fun _ _ hr => ⟨hr, rfl, rfl⟩
  | uuid4 => exact hquiet rfl
  | utcnow => exact hquiet rfl
  | redisGet key => exact hquiet rfl
  | redisSetex key ttl value => exact hquiet rfl
  | selectTenant id => exact hquiet rfl
  | selectWhitelist provider => exact hquiet rfl
  | selectByPrHashKey k => exact hquiet rfl
  | openChannel => exact hquiet rfl
  | getExchange ch name => exact hquiet rfl
  | publish exchange message routingKey => exact hquiet rfl
  | closeChannel ch => exact hquiet rfl
  | isClosed ch => exact hquiet rfl
  | getSelf p => exact hquiet rfl
  | setChannel p ch => exact hquiet rfl
  | setExchange p ex => exact hquiet rfl

end VcsGateway
