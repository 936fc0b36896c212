import VcsGateway.Outbox

/-!
# What a batch leaves behind

The updates that a batch has made stand in its open transaction, row by row, until the
transaction ends; from there, which rows are DISPATCHED once it has ended.
-/

namespace VcsGateway

open Async

variable {P : Platform} {w w' : World} {σ : Nat → BatchState} {τ : Nat → Option Task} {t : Nat}

/-! ### The updates of a batch -/

/-- The batch `t` has selected the row. -/
def World.Selects (w : World) (t : Nat) (row : OutboxEvent) : Prop :=
  (⟨t, .lockDue row.outboxId, .ok (some row)⟩ : Event) ∈ w.trace

/-- The version of the row that a successful update has written at time `now`. -/
def Event.version (now : Time) (row : OutboxEvent) : Event → Option OutboxEvent
  | ⟨_, .markDispatched id, .ok _⟩ =>
    if id = row.outboxId then some (row.markDispatched now) else none
  | ⟨_, .markFailed id msg, .ok _⟩ => if id = row.outboxId then some (row.markFailed msg) else none
  | ⟨_, .markRetry id msg at_, .ok _⟩ =>
    if id = row.outboxId then some (row.markRetry msg at_) else none
  | _ => none

/-- The task has not begun to deliver rows. -/
def BatchState.Early (s : BatchState) : Prop :=
  s.phase = .outside ∨ s.phase = .scheduling ∨ s.phase = .selecting

/-- No statement of the task has failed. -/
def BatchState.Whole (s : BatchState) : Prop := s.Early ∨ s.phase = .delivering

/-- A `_MARK_DISPATCHED` raises. -/
def Event.markFails : Event → Bool
  | ⟨_, .markDispatched _, .error _⟩ => true
  | _ => false

structure Recorded (w : World) (σ : Nat → BatchState) (τ : Nat → Option Task) : Prop where
  delivered : Delivered w σ τ
  batching : ∀ t, (σ t).isPublisher = true → (σ t).phase ≠ .scheduling
  unmarked : ∀ t, (σ t).Early → ∀ e ∈ w.trace, e.tid = t → ∀ now row, e.version now row = none
  kept : ∀ t row, w.Selects t row → row.status = .scheduled ∧
    ∀ tx, w.db.sessions t = some tx → row ∈ w.db.outbox
  written : ∀ t, (σ t).InBatch → ∀ tx, w.db.sessions t = some tx → ∀ row, w.Selects t row →
    ∀ e ∈ w.trace, e.tid = t → ∀ v, e.version tx.now row = some v →
      tx.changes.latest row = v ∧ tx.changes.Touched row.outboxId
  intact : ∀ t, (σ t).Whole → ∀ e ∈ w.trace, e.tid = t → e.markFails = false
  owner : ∀ commit ∈ w.db.wal, τ commit.tid ≠ none
  committed : ∀ commit ∈ w.db.wal, (σ commit.tid).isPublisher = true →
    (σ commit.tid).phase = .ended ∧ (∀ e ∈ w.trace, e.tid = commit.tid → e.markFails = false) ∧
      ∃ now, ∀ row, w.Selects commit.tid row → ∀ e ∈ w.trace, e.tid = commit.tid →
        ∀ v, e.version now row = some v → commit.changes.latest row = v

/-! ### One step -/

namespace BatchState

theorem move_ne_scheduling {s : BatchState} {op : Op} (hs : s.isPublisher = true)
    (h : s.phase ≠ .scheduling) (r : Except Exn op.Ret) : (s.move op r).phase ≠ .scheduling := by
  have hmarked : ∀ id, (s.marked id).phase ≠ .scheduling := by
    intro id
    unfold marked
    split
    · simp
    · exact h
  have hrest : s.rest.phase ≠ .scheduling := by simp [rest, hs]
  cases op with
  | begin =>
    cases r with
    | ok _ => simp [move, hs]
    | error _ => exact h
  | commit => cases r <;> exact hrest
  | rollback => cases r <;> exact hrest
  | savepoint => cases r <;> simp [move, fail]
  | rollbackTo => cases r <;> simp [move]
  | release => cases r <;> first | exact h | simp [move, fail]
  | dueScan => cases r <;> first | exact h | simp [move, fail]
  | lockDue id => rcases r with _ | _ | _ <;> first | exact h | simp [move, fail]
  | markDispatched id => cases r <;> first | exact hmarked _ | simp [move, fail]
  | markFailed id msg => cases r <;> first | exact hmarked _ | simp [move, fail]
  | markRetry id msg at_ => cases r <;> first | exact hmarked _ | simp [move, fail]
  | _ => cases r <;> exact h

/-- A task that has not begun to deliver rows had not begun before. -/
theorem early_of_move {s : BatchState} {op : Op} (hp : s.permits P op)
    (hs : s.isPublisher = false → s.phase = .outside ∨ s.phase = .scheduling) {r : Except Exn op.Ret}
    (h : (s.move op r).Early) : s.Early ∧ ∀ t now row, Event.version now row ⟨t, op, r⟩ = none := by
  have hrest : s.rest.Early → s.Early := by
    intro hrest
    by_cases hpub : s.isPublisher = true
    · simp [Early, rest, hpub] at hrest
    · exact (hs (by simpa using hpub)).imp_right .inl
  have hmarked : ∀ id, s.phase = .failed ∨ s.phase = .delivering → ¬(s.marked id).Early := by
    intro id hphase hearly
    unfold marked at hearly
    rcases hphase with hphase | hphase
    · simp [Early, hphase] at hearly
    · simp [Early, hphase] at hearly
  have hfail : ¬s.fail.Early := by simp [Early, fail]
  cases op with
  | begin => exact ⟨.inl hp, fun _ _ _ => rfl⟩
  | commit => exact ⟨hrest (by cases r <;> exact h), fun _ _ _ => rfl⟩
  | rollback => exact ⟨hrest (by cases r <;> exact h), fun _ _ _ => rfl⟩
  | savepoint =>
    cases r with
    | ok _ => simp [Early, move] at h
    | error _ => exact absurd h hfail
  | release =>
    have hphase : s.phase = .delivering := hp
    cases r with
    | ok _ => simp [Early, move, hphase] at h
    | error _ => exact absurd h hfail
  | rollbackTo => cases r <;> simp [Early, move] at h
  | dueScan => exact ⟨.inr (.inr hp), fun _ _ _ => rfl⟩
  | lockDue id => exact ⟨.inr (.inr hp), fun _ _ _ => rfl⟩
  | markDispatched id =>
    cases r with
    | ok _ => exact absurd h (hmarked id (.inr hp.1))
    | error _ => exact absurd h hfail
  | markFailed id msg =>
    cases r with
    | ok _ => exact absurd h (hmarked id (hp.imp_right And.left))
    | error _ => exact absurd h hfail
  | markRetry id msg at_ =>
    cases r with
    | ok _ => exact absurd h (hmarked id (hp.imp_right And.left))
    | error _ => exact absurd h hfail
  | _ => exact ⟨by cases r <;> exact h, fun _ _ _ => rfl⟩

/-- A task of which a statement has failed does not recover. -/
theorem whole_of_move {s : BatchState} {op : Op} (hp : s.permits P op)
    (hs : s.isPublisher = false → s.phase = .outside ∨ s.phase = .scheduling) {r : Except Exn op.Ret}
    (h : (s.move op r).Whole) : s.Whole ∧ ∀ t, Event.markFails ⟨t, op, r⟩ = false := by
  have hrest : s.rest.Whole → s.Whole := by
    intro hrest
    by_cases hpub : s.isPublisher = true
    · simp [Whole, Early, rest, hpub] at hrest
    · exact .inl ((hs (by simpa using hpub)).imp_right .inl)
  have hfail : ¬s.fail.Whole := by simp [Whole, Early, fail]
  have hmarked : ∀ id, s.phase = .failed ∨ s.phase = .delivering → (s.marked id).Whole → s.Whole := by
    intro id hphase hwhole
    rcases hphase with hphase | hphase
    · simp [Whole, Early, marked, hphase] at hwhole
    · exact .inr hphase
  have hbatch : s.InBatch → s.Whole := fun h => h.elim (fun h => .inl (.inr (.inr h))) .inr
  cases op with
  | begin => exact ⟨.inl (.inl hp), fun _ => rfl⟩
  | commit => exact ⟨hrest (by cases r <;> exact h), fun _ => rfl⟩
  | rollback => exact ⟨hrest (by cases r <;> exact h), fun _ => rfl⟩
  | savepoint => exact ⟨hbatch hp, fun _ => rfl⟩
  | release => exact ⟨.inr hp, fun _ => rfl⟩
  | rollbackTo => cases r <;> simp [Whole, Early, move] at h
  | dueScan => exact ⟨.inl (.inr (.inr hp)), fun _ => rfl⟩
  | lockDue id => exact ⟨.inl (.inr (.inr hp)), fun _ => rfl⟩
  | markDispatched id =>
    cases r with
    | ok _ => exact ⟨.inr hp.1, fun _ => rfl⟩
    | error _ => exact absurd h hfail
  | markFailed id msg =>
    cases r with
    | ok _ => exact ⟨hmarked id (hp.imp_right And.left) h, fun _ => rfl⟩
    | error _ => exact absurd h hfail
  | markRetry id msg at_ =>
    cases r with
    | ok _ => exact ⟨hmarked id (hp.imp_right And.left) h, fun _ => rfl⟩
    | error _ => exact absurd h hfail
  | _ => exact ⟨by cases r <;> exact h, fun _ => rfl⟩

/-- A batch that has ended does no more with the database. -/
theorem quiet_of_ended {s : BatchState} {op : Op} (h : s.phase = .ended) (hp : s.permits P op) :
    op.quiet = true := by
  have hin : ¬s.InBatch := by simp [InBatch, h]
  cases op with
  | begin => simp [permits, h] at hp
  | commit => exact absurd (hp.resolve_left (by simp [h])).1 hin
  | rollback => simp [permits, Open, h] at hp
  | savepoint => exact absurd hp hin
  | release => simp [permits, h] at hp
  | rollbackTo => simp [permits, h] at hp
  | insertInbound e => simp [permits, h] at hp
  | insertEvent e => simp [permits, h] at hp
  | cancelScan k v => simp [permits, h] at hp
  | cancelRow id k v reason => simp [permits, h] at hp
  | dueScan => simp [permits, h] at hp
  | lockDue id => simp [permits, h] at hp
  | markDispatched id => simp [permits, h] at hp
  | markFailed id msg => simp [permits, h] at hp
  | markRetry id msg at_ => simp [permits, h] at hp
  | _ => rfl

theorem move_phase_of_quiet {s : BatchState} {op : Op} (h : op.quiet = true) (r : Except Exn op.Ret) :
    (s.move op r).phase = s.phase := by
  cases op with
  | begin | commit | rollback | savepoint | release | rollbackTo | dueScan => simp [Op.quiet] at h
  | insertInbound | insertEvent | cancelScan | cancelRow | lockDue => simp [Op.quiet] at h
  | markDispatched | markFailed | markRetry => simp [Op.quiet] at h
  | _ => cases r <;> rfl

end BatchState

/-- What no database is asked for writes no version and selects no row. -/
theorem Event.of_quiet {op : Op} (h : op.quiet = true) (r : Except Exn op.Ret) (t : Nat) :
    Event.markFails ⟨t, op, r⟩ = false ∧ (∀ now row, Event.version now row ⟨t, op, r⟩ = none) ∧
      ∀ row : OutboxEvent, (⟨t, op, r⟩ : Event) ≠ ⟨t, .lockDue row.outboxId, .ok (some row)⟩ := by
  cases op with
  | begin | commit | rollback | savepoint | release | rollbackTo | dueScan => simp [Op.quiet] at h
  | insertInbound | insertEvent | cancelScan | cancelRow | lockDue => simp [Op.quiet] at h
  | markDispatched | markFailed | markRetry => simp [Op.quiet] at h
  | _ => exact ⟨rfl, fun _ _ => rfl, fun row => by simp⟩

namespace Database

variable {op : Op} {fresh : UUID → Prop} {db db' : Database}

/-- The log grows by a `COMMIT` only. -/
theorem Moves.wal_commit (h : Moves P op fresh t db db') : db'.wal = db.wal ∨
    ∃ tx, op = .commit ∧ db.sessions t = some tx ∧ db'.wal = db.wal ++ [⟨t, tx.changes⟩] := by
  cases h with
  | installed tx hop htx _ => exact .inr ⟨tx, hop, htx, rfl⟩
  | _ => exact .inl rfl

/-- While its transaction is open, a task leaves the stored rows alone. -/
theorem Moves.keepsOwnRow (h : Moves P op fresh t db db') {tx : Tx} (htx : db'.sessions t = some tx)
    {r : OutboxEvent} (hr : r ∈ db.outbox) : r ∈ db'.outbox := by
  cases h with
  | installed tx₀ _ _ _ => simp [Database.install] at htx
  | _ => exact hr

/-- Only a `COMMIT` changes the table. -/
theorem Moves.outbox (h : Moves P op fresh t db db') (hop : op ≠ .commit) :
    db'.outbox = db.outbox := by
  cases h with
  | installed tx heq _ _ => exact absurd heq hop
  | _ => rfl

end Database

theorem Database.Storage.row_eq {db : Database} {used : List UUID} (h : db.Storage used)
    {r r' : OutboxEvent} (hr : r ∈ db.outbox) (hr' : r' ∈ db.outbox)
    (heq : r.outboxId = r'.outboxId) : r = r' :=
  List.inj_on_of_nodup_map h.outboxNodup hr hr' heq

theorem Changes.touched_addWrite {tx : Tx} {v : OutboxEvent} {m : Mark} {id : UUID}
    (h : tx.changes.Touched id) : (tx.addWrite v m).changes.Touched id := by
  obtain ⟨x, hx, hid⟩ := h
  exact ⟨x, List.mem_cons_of_mem _ hx, hid⟩

/-- No version is written by an operation other than the three updates. -/
theorem Event.version_eq_some {e : Event} {now : Time} {row v : OutboxEvent}
    (h : e.version now row = some v) :
    ∃ t u, (e = ⟨t, .markDispatched row.outboxId, .ok u⟩ ∧ v = row.markDispatched now) ∨
      (∃ msg, e = ⟨t, .markFailed row.outboxId msg, .ok u⟩ ∧ v = row.markFailed msg) ∨
      ∃ msg at_, e = ⟨t, .markRetry row.outboxId msg at_, .ok u⟩ ∧ v = row.markRetry msg at_ := by
  unfold Event.version at h
  split at h
  · next t id u =>
    split at h
    · next heq =>
      subst heq
      exact ⟨t, u, .inl ⟨rfl, (Option.some.inj h).symm⟩⟩
    · simp at h
  · next t id msg u =>
    split at h
    · next heq =>
      subst heq
      exact ⟨t, u, .inr (.inl ⟨msg, rfl, (Option.some.inj h).symm⟩)⟩
    · simp at h
  · next t id msg at_ u =>
    split at h
    · next heq =>
      subst heq
      exact ⟨t, u, .inr (.inr ⟨msg, at_, rfl, (Option.some.inj h).symm⟩)⟩
    · simp at h
  · simp at h

namespace Recorded

/-- A step of the batch that writes no row, and leaves its changes as they are. -/
theorem unwritten (h : Recorded w σ τ) (hin : (σ t).InBatch) {tx tx' : Tx}
    (htx : w.db.sessions t = some tx) (hnow : tx'.now = tx.now) (hch : tx'.changes = tx.changes)
    {row : OutboxEvent} (hrow : w.Selects t row) {e : Event} (he : e ∈ w.trace) (htid : e.tid = t)
    {v : OutboxEvent} (hv : e.version tx'.now row = some v) :
    tx'.changes.latest row = v ∧ tx'.changes.Touched row.outboxId := by
  rw [hch]
  rw [hnow] at hv
  exact h.written t hin tx htx row hrow e he htid v hv

/-- An update of a held row. -/
theorem update (h : Recorded w σ τ) {c : Choice} {id : UUID} {m : Mark}
    {set : Tx → OutboxEvent → OutboxEvent} {u : Unit} {db' : Database}
    (hdb : w.db.execMark t c id m set = some (.ok u, db'))
    (hset : ∀ tx r, (set tx r).outboxId = r.outboxId) (hphase : (σ t).phase = .delivering)
    (hheld : ∃ row ∈ (σ t).held, row.outboxId = id) {tx' : Tx} (htx' : db'.sessions t = some tx')
    {e : Event} (hversion : ∀ row v, e.version tx'.now row = some v → row.outboxId = id ∧
      ∀ tx : Tx, tx.now = tx'.now → set tx row = v)
    {row : OutboxEvent} (hrow : w.Selects t row) {e' : Event} (he' : e' ∈ w.trace ++ [e])
    (htid : e'.tid = t) {v : OutboxEvent} (hv : e'.version tx'.now row = some v) :
    tx'.changes.latest row = v ∧ tx'.changes.Touched row.outboxId := by
  have hsound := h.delivered.sound
  obtain ⟨held, hmem, rfl⟩ := hheld
  obtain ⟨tx, hb⟩ := (h.delivered.batch t).delivering hphase
  have hholds := hb.held held hmem
  obtain ⟨tx₀, htx₀, ⟨exc, heq, -⟩ | ⟨-, -, -, hnone⟩ | ⟨r, -, -, -, hver, rfl⟩⟩ :=
    Database.execMark_eq_some hdb
  · simp at heq
  · exact absurd hnone (Database.version_isSome hholds.stored)
  obtain rfl : tx = tx₀ := Option.some.inj (hb.session.symm.trans htx₀)
  obtain rfl : r = held := hb.version hsound hmem htx₀ hver
  obtain rfl : tx' = tx.addWrite (set tx r) m :=
    Option.some.inj (htx'.symm.trans (Database.setSession_sessions_self _))
  have hstored : row ∈ w.db.outbox := (h.kept t row hrow).2 tx htx₀
  rw [List.mem_append, List.mem_singleton] at he'
  rcases he' with he' | rfl
  · -- another row was updated earlier
    obtain ⟨hlatest, htouched⟩ := h.written t (.inr hphase) tx htx₀ row hrow e' he' htid v hv
    have hne : r.outboxId ≠ row.outboxId := by
      intro heq
      exact hholds.untouched tx.changes List.mem_cons_self (heq ▸ htouched)
    rw [Changes.latest_addWrite_of_ne tx m (by rw [hset]; exact hne)]
    exact ⟨hlatest, Changes.touched_addWrite htouched⟩
  · obtain ⟨hrid, hsetv⟩ := hversion row v hv
    obtain rfl : row = r := hsound.row_eq hstored hholds.stored hrid
    have hwritten : set tx row = v := hsetv tx rfl
    rw [Changes.latest_addWrite_self tx m (hset tx row)]
    exact ⟨hwritten, set tx row, List.mem_cons_self, hset tx row⟩

/-- The updates of the batch that moves. -/
theorem written_step (h : Recorded w σ τ) {op : Op} {c : Choice} {r : Except Exn op.Ret}
    (hp : (σ t).permits P op) (he : VcsGateway.exec P t op c w = some (r, w'))
    (hin : ((σ t).move op r).InBatch) {tx' : Tx} (htx' : w'.db.sessions t = some tx')
    {row : OutboxEvent} (hrow : w.Selects t row ∨
      (⟨t, op, r⟩ : Event) = ⟨t, .lockDue row.outboxId, .ok (some row)⟩)
    {e : Event} (hmem : e ∈ w.trace ++ [⟨t, op, r⟩]) (htid : e.tid = t) {v : OutboxEvent}
    (hv : e.version tx'.now row = some v) :
    tx'.changes.latest row = v ∧ tx'.changes.Touched row.outboxId := by
  obtain ⟨w₁, h₁, rfl⟩ := exec_eq_some he
  have hframe := execOp_frame h₁
  -- a step that writes nothing
  have hkeep : w.Selects t row → (σ t).InBatch → (∃ tx, w.db.sessions t = some tx ∧
      tx'.now = tx.now ∧ tx'.changes = tx.changes) → Event.version tx'.now row ⟨t, op, r⟩ = none →
      tx'.changes.latest row = v ∧ tx'.changes.Touched row.outboxId := by
    rintro hsel hbatch ⟨tx, htx, hnow, hch⟩ hnone
    rw [List.mem_append, List.mem_singleton] at hmem
    rcases hmem with hmem | rfl
    · exact h.unwritten hbatch htx hnow hch hsel hmem htid hv
    · simp [hnone] at hv
  have hsame : w.Selects t row → (σ t).InBatch → w₁.db = w.db →
      Event.version tx'.now row ⟨t, op, r⟩ = none →
      tx'.changes.latest row = v ∧ tx'.changes.Touched row.outboxId := by
    intro hsel hbatch hdb hnone
    exact hkeep hsel hbatch ⟨tx', hdb ▸ htx', rfl, rfl⟩ hnone
  have hfail : ¬(σ t).fail.InBatch := by simp [BatchState.InBatch, BatchState.fail]
  have hrest : ¬(σ t).rest.InBatch := by
    unfold BatchState.InBatch BatchState.rest
    by_cases hpub : (σ t).isPublisher = true
    · simp [hpub]
    · simp [hpub]
  have hscheduling : (σ t).phase = .scheduling → ¬(σ t).InBatch := by
    intro hphase
    simp [BatchState.InBatch, hphase]
  have hnotFailed : ∀ id, (σ t).phase = .failed → ¬((σ t).marked id).InBatch := by
    intro id hphase
    simp [BatchState.InBatch, BatchState.marked, hphase]
  cases op with
  | lockDue id =>
    obtain ⟨db', hdb, rfl⟩ := onDb_eq_some h₁
    have hphase : (σ t).phase = .selecting := hp
    have hsessions : w.db.sessions t = some tx' := by
      obtain ⟨tx, htx, ⟨exc, rfl, -⟩ | ⟨-, rfl⟩ | ⟨row', -, -, -, -, -, rfl⟩⟩ :=
        Database.execLockDue_eq_some hdb
      · exact absurd hin hfail
      · exact htx'
      · exact htx'
    rcases hrow with hsel | -
    · exact hkeep hsel (.inl hphase) ⟨tx', hsessions, rfl, rfl⟩ rfl
    · -- nothing has been updated while the rows are selected
      rw [List.mem_append, List.mem_singleton] at hmem
      rcases hmem with hmem | rfl
      · have hnone := h.unmarked t (.inr (.inr hphase)) e hmem htid tx'.now row
        simp [hnone] at hv
      · simp [Event.version] at hv
  | begin =>
    have hsel := hrow.resolve_right (by simp)
    exact absurd hp (h.delivered.selected t _ row hsel).2.1
  | commit => exact absurd (by cases r <;> exact hin) hrest
  | rollback => exact absurd (by cases r <;> exact hin) hrest
  | savepoint =>
    obtain ⟨db', hdb, rfl⟩ := onDb_eq_some h₁
    obtain ⟨tx, htx, ⟨exc, rfl, -⟩ | ⟨-, rfl⟩⟩ := Database.execSavepoint_eq_some hdb
    · exact absurd hin hfail
    · obtain rfl := Option.some.inj (htx'.symm.trans (Database.setSession_sessions_self _))
      exact hkeep (hrow.resolve_right (by simp)) hp ⟨tx, htx, rfl, rfl⟩ rfl
  | release =>
    obtain ⟨db', hdb, rfl⟩ := onDb_eq_some h₁
    obtain ⟨tx, htx, ⟨exc, rfl, -⟩ | ⟨-, rfl⟩⟩ := Database.execRelease_eq_some hdb
    · exact absurd hin hfail
    · obtain rfl := Option.some.inj (htx'.symm.trans (Database.setSession_sessions_self _))
      exact hkeep (hrow.resolve_right (by simp)) (.inr hp) ⟨tx, htx, rfl, rfl⟩ rfl
  | rollbackTo => cases r <;> simp [BatchState.move, BatchState.InBatch] at hin
  | insertInbound e => exact absurd (by cases r <;> exact hin) (hscheduling hp)
  | insertEvent e => exact absurd (by cases r <;> exact hin) (hscheduling hp)
  | cancelScan k ver => exact absurd (by cases r <;> exact hin) (hscheduling hp)
  | cancelRow id k ver reason => exact absurd (by cases r <;> exact hin) (hscheduling hp)
  | dueScan =>
    obtain ⟨db', hdb, rfl⟩ := onDb_eq_some h₁
    obtain ⟨tx, htx, ⟨exc, rfl, -⟩ | ⟨rfl, -⟩⟩ := Database.execDueScan_eq_some hdb
    · exact absurd hin hfail
    · exact hkeep (hrow.resolve_right (by simp)) (.inl hp) ⟨tx', htx', rfl, rfl⟩ rfl
  | markDispatched id =>
    obtain ⟨db', hdb, rfl⟩ := onDb_eq_some h₁
    cases r with
    | error exc => exact absurd hin hfail
    | ok u =>
      obtain ⟨hphase, held, hheld, hid, -⟩ := hp
      refine h.update hdb (fun _ _ => rfl) hphase ⟨held, hheld, hid⟩ htx' ?_
        (hrow.resolve_right (by simp)) hmem htid hv
      intro row' v' hversion
      obtain ⟨t', u', ⟨heq, rfl⟩ | ⟨msg, heq, -⟩ | ⟨msg, at_, heq, -⟩⟩ :=
        Event.version_eq_some hversion
      · cases heq
        exact ⟨rfl, fun tx hnow => by rw [hnow]⟩
      · cases heq
      · cases heq
  | markFailed id msg =>
    obtain ⟨db', hdb, rfl⟩ := onDb_eq_some h₁
    cases r with
    | error exc => exact absurd hin hfail
    | ok u =>
      rcases hp with hphase | ⟨hphase, held, hheld, hid, -⟩
      · exact absurd hin (hnotFailed id hphase)
      refine h.update hdb (fun _ _ => rfl) hphase ⟨held, hheld.1, hid⟩ htx' ?_
        (hrow.resolve_right (by simp)) hmem htid hv
      intro row' v' hversion
      obtain ⟨t', u', ⟨heq, -⟩ | ⟨msg', heq, rfl⟩ | ⟨msg', at_, heq, -⟩⟩ :=
        Event.version_eq_some hversion
      · cases heq
      · cases heq
        exact ⟨rfl, fun tx hnow => rfl⟩
      · cases heq
  | markRetry id msg at_ =>
    obtain ⟨db', hdb, rfl⟩ := onDb_eq_some h₁
    cases r with
    | error exc => exact absurd hin hfail
    | ok u =>
      rcases hp with hphase | ⟨hphase, held, hheld, hid, -⟩
      · exact absurd hin (hnotFailed id hphase)
      refine h.update hdb (fun _ _ => rfl) hphase ⟨held, hheld.1, hid⟩ htx' ?_
        (hrow.resolve_right (by simp)) hmem htid hv
      intro row' v' hversion
      obtain ⟨t', u', ⟨heq, -⟩ | ⟨msg', heq, -⟩ | ⟨msg', at', heq, rfl⟩⟩ :=
        Event.version_eq_some hversion
      · cases heq
      · cases heq
      · cases heq
        exact ⟨rfl, fun tx hnow => rfl⟩
  | _ =>
    exact hsame (hrow.resolve_right (by simp)) (by cases r <;> exact hin) (hframe.db rfl) rfl

/-- A batch that has committed stays as it is. -/
theorem committed_old (h : Recorded w σ τ) {commit : Commit} (hc : commit ∈ w.db.wal)
    (hpub : (σ commit.tid).isPublisher = true) {op : Op} {r : Except Exn op.Ret}
    (hp : (σ t).permits P op) (hnext : (σ t).next op r = (σ t).move op r)
    (htrace : w'.trace = w.trace ++ [⟨t, op, r⟩])
    (hselects : ∀ t' row, w'.Selects t' row →
      w.Selects t' row ∨ (⟨t, op, r⟩ : Event) = ⟨t', .lockDue row.outboxId, .ok (some row)⟩) :
    (Function.update σ t ((σ t).next op r) commit.tid).phase = .ended ∧
      (∀ e ∈ w'.trace, e.tid = commit.tid → e.markFails = false) ∧
        ∃ now, ∀ row, w'.Selects commit.tid row → ∀ e ∈ w'.trace, e.tid = commit.tid →
          ∀ v, e.version now row = some v → commit.changes.latest row = v := by
  obtain ⟨hphase, hintact, now, hlatest⟩ := h.committed commit hc hpub
  have hquiet : commit.tid = t → op.quiet = true := fun heq =>
    BatchState.quiet_of_ended (heq ▸ hphase) hp
  refine ⟨?_, ?_, now, ?_⟩
  · by_cases heq : commit.tid = t
    · rw [heq, Function.update_self, hnext, BatchState.move_phase_of_quiet (hquiet heq), ← heq]
      exact hphase
    · rw [Function.update_of_ne heq]
      exact hphase
  · intro e hmem htid
    rw [htrace, List.mem_append, List.mem_singleton] at hmem
    rcases hmem with hmem | rfl
    · exact hintact e hmem htid
    · exact (Event.of_quiet (hquiet htid.symm) r t).1
  · intro row hrow e hmem htid v hv
    have hold : w.Selects commit.tid row := by
      rcases hselects _ _ hrow with hrow | heq
      · exact hrow
      · have htid' : t = commit.tid := congrArg Event.tid heq
        rw [← htid'] at heq
        exact absurd heq ((Event.of_quiet (hquiet htid'.symm) r t).2.2 row)
    rw [htrace, List.mem_append, List.mem_singleton] at hmem
    rcases hmem with hmem | rfl
    · exact hlatest row hold e hmem htid v hv
    · rw [(Event.of_quiet (hquiet htid.symm) r t).2.1] at hv
      simp at hv

/-- The batch commits. -/
theorem committed_new (h : Recorded w σ τ) {tx : Tx} (htx : w.db.sessions t = some tx)
    (hpub : (σ t).isPublisher = true) {r : Except Exn Unit} (hp : (σ t).permits P .commit)
    (hnext : (σ t).next .commit r = (σ t).move .commit r)
    (htrace : w'.trace = w.trace ++ [⟨t, .commit, r⟩])
    (hselects : ∀ t' row, w'.Selects t' row →
      w.Selects t' row ∨ (⟨t, .commit, r⟩ : Event) = ⟨t', .lockDue row.outboxId, .ok (some row)⟩) :
    (Function.update σ t ((σ t).next .commit r) t).phase = .ended ∧
      (∀ e ∈ w'.trace, e.tid = t → e.markFails = false) ∧
        ∃ now, ∀ row, w'.Selects t row → ∀ e ∈ w'.trace, e.tid = t →
          ∀ v, e.version now row = some v → tx.changes.latest row = v := by
  have hin : (σ t).InBatch := (hp.resolve_left (h.batching t hpub)).1
  refine ⟨?_, ?_, tx.now, ?_⟩
  · rw [Function.update_self, hnext]
    cases r <;> simp [BatchState.move, BatchState.rest, hpub]
  · intro e hmem htid
    rw [htrace, List.mem_append, List.mem_singleton] at hmem
    rcases hmem with hmem | rfl
    · exact h.intact t (hin.elim (fun h => .inl (.inr (.inr h))) .inr) e hmem htid
    · rfl
  · intro row hrow e hmem htid v hv
    have hold := (hselects t row hrow).resolve_right (by simp)
    rw [htrace, List.mem_append, List.mem_singleton] at hmem
    rcases hmem with hmem | rfl
    · exact (h.written t hin tx htx row hold e hmem htid v hv).1
    · simp [Event.version] at hv

/-- **Every step keeps the record.** -/
theorem exec (h : Recorded w σ τ) {k : Task} (hτ : τ t = some k) {op : Op} {c : Choice}
    {r : Except Exn op.Ret} (hallow : (σ t).allows P op)
    (he : VcsGateway.exec P t op c w = some (r, w')) :
    Recorded w' (Function.update σ t ((σ t).next op r)) τ := by
  have hdelivered := h.delivered.exec hτ hallow he
  have hpossible := (h.delivered.batch t).possible
  have hp : (σ t).permits P op := hallow.resolve_left hpossible
  have hnext := BatchState.next_eq hpossible op r
  obtain ⟨w₁, h₁, hw'⟩ := exec_eq_some he
  have hframe := execOp_frame h₁
  have hmoves : w.db.Moves P op (fun u => u ∉ w.used ∧ u ∈ w₁.used) t w'.db := by
    rw [hw']
    exact execOp_moves h₁
  have htrace : w'.trace = w.trace ++ [⟨t, op, r⟩] := by
    rw [hw']
    simp [World.record, hframe.trace]
  -- a selection is an old one, or this step
  have hselects : ∀ t' row, w'.Selects t' row →
      w.Selects t' row ∨ (⟨t, op, r⟩ : Event) = ⟨t', .lockDue row.outboxId, .ok (some row)⟩ := by
    intro t' row hrow
    unfold World.Selects at hrow
    rw [htrace, List.mem_append, List.mem_singleton] at hrow
    rcases hrow with hrow | hrow
    · exact .inl hrow
    · exact .inr hrow.symm
  have hwritten : ∀ t', (Function.update σ t ((σ t).next op r) t').InBatch → ∀ tx',
      w'.db.sessions t' = some tx' → ∀ row, w'.Selects t' row → ∀ e ∈ w'.trace, e.tid = t' → ∀ v,
        e.version tx'.now row = some v →
          tx'.changes.latest row = v ∧ tx'.changes.Touched row.outboxId := by
    intro t' hin tx' htx' row hrow e hmem htid v hv
    by_cases heq : t' = t
    swap
    · -- another batch
      rw [Function.update_of_ne heq] at hin
      rw [hmoves.sessions_of_ne heq] at htx'
      have hrow := (hselects t' row hrow).resolve_right fun hright => heq (congrArg Event.tid hright).symm
      rw [htrace, List.mem_append, List.mem_singleton] at hmem
      rcases hmem with hmem | rfl
      · exact h.written t' hin tx' htx' row hrow e hmem htid v hv
      · exact absurd htid.symm heq
    subst heq
    rw [Function.update_self, hnext] at hin
    rw [htrace] at hmem
    exact h.written_step hp he hin htx' (hselects t' row hrow) hmem htid hv
  have hintact : ∀ t', (Function.update σ t ((σ t).next op r) t').Whole → ∀ e ∈ w'.trace,
      e.tid = t' → e.markFails = false := by
    intro t' hwhole e hmem htid
    rw [htrace, List.mem_append, List.mem_singleton] at hmem
    by_cases heq : t' = t
    · subst heq
      rw [Function.update_self, hnext] at hwhole
      obtain ⟨hold, hnone⟩ := BatchState.whole_of_move hp (h.delivered.scheduler _) hwhole
      rcases hmem with hmem | rfl
      · exact h.intact _ hold e hmem htid
      · exact hnone _
    · rw [Function.update_of_ne heq] at hwhole
      rcases hmem with hmem | rfl
      · exact h.intact _ hwhole e hmem htid
      · exact absurd htid.symm heq
  have howner : ∀ commit ∈ w'.db.wal, τ commit.tid ≠ none := by
    intro commit hc
    rcases hmoves.wal_commit with hwal | ⟨tx, -, -, hwal⟩
    · exact h.owner commit (hwal ▸ hc)
    rw [hwal, List.mem_append, List.mem_singleton] at hc
    rcases hc with hc | rfl
    · exact h.owner commit hc
    · simp [hτ]
  refine {
    delivered := hdelivered
    batching := ?_
    unmarked := ?_
    kept := ?_
    written := hwritten
    intact := hintact
    owner := howner
    committed := ?_ }
  · intro t' hpub
    by_cases heq : t' = t
    · subst heq
      rw [Function.update_self, hnext] at hpub ⊢
      rw [BatchState.move_isPublisher] at hpub
      exact BatchState.move_ne_scheduling hpub (h.batching _ hpub) r
    · rw [Function.update_of_ne heq] at hpub ⊢
      exact h.batching t' hpub
  · intro t' hearly e hmem htid now row
    rw [htrace, List.mem_append, List.mem_singleton] at hmem
    by_cases heq : t' = t
    · subst heq
      rw [Function.update_self, hnext] at hearly
      obtain ⟨hold, hnone⟩ := BatchState.early_of_move hp (h.delivered.scheduler _) hearly
      rcases hmem with hmem | rfl
      · exact h.unmarked _ hold e hmem htid now row
      · exact hnone _ now row
    · rw [Function.update_of_ne heq] at hearly
      rcases hmem with hmem | rfl
      · exact h.unmarked _ hearly e hmem htid now row
      · exact absurd htid.symm heq
  · intro t' row hrow
    rcases hselects t' row hrow with hrow | heq
    · obtain ⟨hstatus, hstored⟩ := h.kept t' row hrow
      refine ⟨hstatus, fun tx htx => ?_⟩
      obtain ⟨-, hphase, hlock⟩ := h.delivered.selected t' _ row hrow
      by_cases heq : t' = t
      · subst heq
        rcases hmoves.session_some htx with rfl | ⟨tx', htx'⟩
        · exact absurd hp hphase
        · exact hmoves.keepsOwnRow htx (hstored tx' htx')
      · rw [hmoves.sessions_of_ne heq] at htx
        exact hmoves.keepsRow h.delivered.sound heq (hstored tx htx) (hlock tx htx)
    · cases heq
      have hphase : (σ t).phase = .selecting := hp
      have hbatch := hdelivered.batch t
      rw [Function.update_self, hnext] at hbatch
      obtain ⟨tx, hb, -⟩ := BatchState.Describes.selecting (s := (σ t).hold [row]) hbatch hphase
      have hheld := hb.held row (List.mem_append_right _ List.mem_cons_self)
      exact ⟨hheld.scheduled, fun _ _ => hheld.stored⟩
  · intro commit hc hpub
    have hpublisher : (σ commit.tid).isPublisher = true := by
      by_cases heq : commit.tid = t
      · rw [heq, Function.update_self, hnext, BatchState.move_isPublisher] at hpub
        rw [heq]
        exact hpub
      · rwa [Function.update_of_ne heq] at hpub
    rcases hmoves.wal_commit with hwal | ⟨tx, hop, htx, hwal⟩
    · exact h.committed_old (hwal ▸ hc) hpublisher hp hnext htrace hselects
    rw [hwal, List.mem_append, List.mem_singleton] at hc
    rcases hc with hc | rfl
    · exact h.committed_old hc hpublisher hp hnext htrace hselects
    subst hop
    exact h.committed_new htx hpublisher hp hnext htrace hselects

theorem initial (tenants : UUID → Option Tenant) (whitelist : List VcsEventWhitelist) :
    Recorded (World.initial tenants whitelist) (fun _ => BatchState.start none) fun _ => none where
  delivered := Delivered.initial tenants whitelist
  batching _ _ := by simp [BatchState.start]
  unmarked _ _ _ h := by simp [World.initial] at h
  kept _ _ h := by simp [World.Selects, World.initial] at h
  written _ h := by simp [BatchState.InBatch, BatchState.start] at h
  intact _ _ _ h := by simp [World.initial] at h
  owner _ h := by simp [World.initial] at h
  committed _ h := by simp [World.initial] at h

theorem spawn (h : Recorded w σ τ) (hτ : τ t = none) (k : Task) :
    Recorded w (Function.update σ t (BatchState.start (some k)))
      (Function.update τ t (some k)) where
  delivered := h.delivered.spawn hτ k
  batching t' hpub := by
    by_cases heq : t' = t
    · subst heq
      simp [BatchState.start]
    · rw [Function.update_of_ne heq] at hpub ⊢
      exact h.batching t' hpub
  unmarked t' hearly e hmem htid now row := by
    by_cases heq : t' = t
    · subst heq
      exact h.unmarked _ (.inl (h.delivered.idle _ hτ)) e hmem htid now row
    · rw [Function.update_of_ne heq] at hearly
      exact h.unmarked _ hearly e hmem htid now row
  kept := h.kept
  written t' hin := by
    by_cases heq : t' = t
    · subst heq
      simp [BatchState.InBatch, BatchState.start] at hin
    · rw [Function.update_of_ne heq] at hin
      exact h.written t' hin
  intact t' hwhole e hmem htid := by
    by_cases heq : t' = t
    · subst heq
      exact h.intact _ (.inl (.inl (h.delivered.idle _ hτ))) e hmem htid
    · rw [Function.update_of_ne heq] at hwhole
      exact h.intact _ hwhole e hmem htid
  owner commit hc := by
    by_cases heq : commit.tid = t
    · simp [heq]
    · rw [Function.update_of_ne heq]
      exact h.owner commit hc
  committed commit hc hpub := by
    have hne : commit.tid ≠ t := by
      intro heq
      exact h.owner commit hc (heq ▸ hτ)
    rw [Function.update_of_ne hne] at hpub ⊢
    exact h.committed commit hc hpub

/-- A change of the world that no batch notices. -/
theorem world_congr (h : Recorded w σ τ) (hdelivered : Delivered w' σ τ)
    (hsessions : w'.db.sessions = w.db.sessions) (hout : w'.db.outbox = w.db.outbox)
    (hwal : w'.db.wal = w.db.wal) (htrace : w'.trace = w.trace) : Recorded w' σ τ where
  delivered := hdelivered
  batching := h.batching
  unmarked := by rw [htrace]; exact h.unmarked
  kept := by unfold World.Selects; rw [htrace, hsessions, hout]; exact h.kept
  written := by unfold World.Selects; rw [htrace, hsessions]; exact h.written
  intact := by rw [htrace]; exact h.intact
  owner := by rw [hwal]; exact h.owner
  committed := by unfold World.Selects; rw [htrace, hwal]; exact h.committed

theorem env (h : Recorded w σ τ) (e : EnvEvent) : Recorded (envStep e w) σ τ := by
  cases e <;> exact h.world_congr (h.delivered.env _) rfl rfl rfl rfl

theorem kill (h : Recorded w σ τ) (t : Nat) :
    Recorded (vanish t w) (Function.update σ t (σ t).rest) τ := by
  have htrace := vanish_trace t w
  have hout := vanish_outbox t w
  have hsession : ∀ t' tx, (vanish t w).db.sessions t' = some tx →
      t' ≠ t ∧ w.db.sessions t' = some tx := fun t' tx htx => vanish_session_some htx
  have hwal := vanish_wal t w
  refine {
    delivered := h.delivered.kill t
    batching := ?_
    unmarked := ?_
    kept := ?_
    written := ?_
    intact := ?_
    owner := by rw [hwal]; exact h.owner
    committed := ?_ }
  · intro t' hpub
    by_cases heq : t' = t
    · subst heq
      rw [Function.update_self] at hpub ⊢
      have hpub' : (σ t').isPublisher = true := hpub
      simp [BatchState.rest, hpub']
    · rw [Function.update_of_ne heq] at hpub ⊢
      exact h.batching t' hpub
  · intro t' hearly e hmem htid now row
    rw [htrace] at hmem
    by_cases heq : t' = t
    · subst heq
      rw [Function.update_self] at hearly
      by_cases hpub : (σ t').isPublisher = true
      · simp [BatchState.Early, BatchState.rest, hpub] at hearly
      · have hphase := h.delivered.scheduler t' (by simpa using hpub)
        exact h.unmarked t' (hphase.imp_right .inl) e hmem htid now row
    · rw [Function.update_of_ne heq] at hearly
      exact h.unmarked t' hearly e hmem htid now row
  · intro t' row hrow
    unfold World.Selects at hrow
    rw [htrace] at hrow
    obtain ⟨hstatus, hstored⟩ := h.kept t' row hrow
    refine ⟨hstatus, fun tx htx => ?_⟩
    rw [hout]
    exact hstored tx (hsession t' tx htx).2
  · intro t' hin tx htx row hrow
    obtain ⟨hne, htx⟩ := hsession t' tx htx
    unfold World.Selects at hrow
    rw [htrace] at hrow ⊢
    rw [Function.update_of_ne hne] at hin
    exact h.written t' hin tx htx row hrow
  · intro t' hwhole e hmem htid
    rw [htrace] at hmem
    by_cases heq : t' = t
    · subst heq
      rw [Function.update_self] at hwhole
      by_cases hpub : (σ t').isPublisher = true
      · simp [BatchState.Whole, BatchState.Early, BatchState.rest, hpub] at hwhole
      · have hphase := h.delivered.scheduler t' (by simpa using hpub)
        exact h.intact t' (.inl (hphase.imp_right .inl)) e hmem htid
    · rw [Function.update_of_ne heq] at hwhole
      exact h.intact t' hwhole e hmem htid
  · intro commit hc hpub
    unfold World.Selects
    rw [htrace]
    rw [hwal] at hc
    by_cases heq : commit.tid = t
    · rw [heq, Function.update_self] at hpub
      rw [heq, Function.update_self]
      have hpub' : (σ commit.tid).isPublisher = true := heq ▸ hpub
      obtain ⟨-, hrest⟩ := h.committed commit hc hpub'
      rw [heq] at hrest hpub'
      exact ⟨by simp [BatchState.rest, hpub'], hrest⟩
    · rw [Function.update_of_ne heq] at hpub ⊢
      exact h.committed commit hc hpub

end Recorded

/-- The discipline behind the results on batches. -/
def recording (P : Platform) (allowed : Task → Prop) : (gateway P).Discipline (starts allowed) where
  P := delivery P
  Inv := Recorded
  idle := BatchState.start none
  start k := BatchState.start (some k)
  onKill := BatchState.rest
  post _ _ _ := True
  conforms _ k _ := task_delivers k
  spawn _ h hτ := h.spawn hτ _
  exec _ h hτ hallow he := ⟨h.delivered.sound.answers he, h.exec hτ hallow he⟩
  env _ h := h.env _
  kill _ h _ := h.kill _

/-- **Every batch is on record, in every reachable state.** -/
theorem reachable_recorded {allowed : Task → Prop} {c : GatewayConfig}
    (h : Reachable P allowed c) : (recording P allowed).Holds c := by
  obtain ⟨tenants, whitelist, ls, hls, hrun⟩ := h
  exact (recording P allowed).holds_run (Recorded.initial tenants whitelist) hls hrun

/-! ### The end of a batch -/

/-- The batch `t` has published the row, and has marked it DISPATCHED. -/
structure Dispatches (w : World) (t : Nat) (row : OutboxEvent) : Prop where
  selected : w.Selects t row
  published : ∃ e ∈ w.trace, e.tid = t ∧ e.delivers row.outboxId = true
  marked : (⟨t, .markDispatched row.outboxId, .ok ()⟩ : Event) ∈ w.trace

/-- The row is DISPATCHED in the committed state. -/
def World.IsDispatched (w : World) (id : UUID) : Prop :=
  ∃ r ∈ w.db.outbox, r.outboxId = id ∧ r.status = .dispatched

/-- No exception has kept the batch from its `COMMIT`, and PostgreSQL carries it out, be it
    that the reply is lost. -/
def CommitsAt (c : GatewayConfig) (t : Nat) (l : GatewayLabel) : Prop :=
  ∃ k f tx ch, c.threads t = some ⟨k, .await .commit f, true⟩ ∧ c.world.db.sessions t = some tx ∧
    tx.aborted = false ∧ l = .step t ch ∧ (ch = .ok ∨ ∃ n, ch = .lost n)

theorem execCommit_installs {db db' : Database} {ch : Choice} {a : Except Exn Unit} {tx : Tx}
    (h : db.execCommit t ch = some (a, db')) (htx : db.sessions t = some tx)
    (hab : tx.aborted = false) (hch : ch = .ok ∨ ∃ n, ch = .lost n) : db' = db.install t tx := by
  have hsettle : db.settle t tx = db.install t tx := by simp [Database.settle, hab]
  rcases hch with rfl | ⟨n, rfl⟩
  · simp only [Database.execCommit, htx, awaited, Option.some.injEq, Prod.mk.injEq] at h
    exact h.2.symm.trans hsettle
  · simp only [Database.execCommit, htx, Option.some.injEq, Prod.mk.injEq] at h
    exact h.2.symm.trans hsettle

/-- A `COMMIT` that is not carried out is a rollback. -/
theorem execCommit_discards {db db' : Database} {ch : Choice} {a : Except Exn Unit} {tx : Tx}
    (h : db.execCommit t ch = some (a, db')) (htx : db.sessions t = some tx) :
    tx.aborted = false ∧ (ch = .ok ∨ ∃ n, ch = .lost n) ∨ db' = db.discard t := by
  by_cases hab : tx.aborted = true
  · right
    obtain ⟨tx', htx', ⟨-, rfl⟩ | ⟨-, rfl⟩ | ⟨e, -, -, rfl⟩⟩ := Database.execCommit_eq_some h
    · obtain rfl : tx = tx' := Option.some.inj (htx.symm.trans htx')
      simp [Database.settle, hab]
    · obtain rfl : tx = tx' := Option.some.inj (htx.symm.trans htx')
      simp [Database.settle, hab]
    · rfl
  have hab : tx.aborted = false := by simpa using hab
  cases ch with
  | ok => exact .inl ⟨hab, .inl rfl⟩
  | lost n => exact .inl ⟨hab, .inr ⟨n, rfl⟩⟩
  | fresh u => simp [Database.execCommit, htx, awaited] at h
  | fault n =>
    simp only [Database.execCommit, htx, awaited, Option.some.injEq, Prod.mk.injEq] at h
    exact .inr h.2.symm
  | cancel =>
    simp only [Database.execCommit, htx, awaited, Option.some.injEq, Prod.mk.injEq] at h
    exact .inr h.2.symm

/-- A transaction ends with its `COMMIT`, or leaves the table as it is. -/
theorem outbox_of_closed {c c' : GatewayConfig} {l : GatewayLabel}
    (hstep : (gateway P).step c l = some c') {tx : Tx} (hopen : c.world.db.sessions t = some tx)
    (hclosed : c'.world.db.sessions t = none) :
    CommitsAt c t l ∨ c'.world.db.outbox = c.world.db.outbox := by
  have hopened : ∀ db' : Database, db'.sessions t = c.world.db.sessions t → db'.sessions t ≠ none := by
    intro db' heq hnone
    simp [heq, hopen] at hnone
  cases l with
  | spawn t' k =>
    obtain ⟨-, rfl⟩ := Machine.step_spawn hstep
    exact .inr rfl
  | env e =>
    obtain rfl : _ = c' := Option.some.inj hstep
    cases e <;> exact .inr rfl
  | kill t' =>
    obtain ⟨k, op, f, -, rfl⟩ := Machine.step_kill hstep
    exact .inr (vanish_outbox t' c.world)
  | step t' ch =>
    obtain ⟨k, op, f, r, w', hthread, he, rfl⟩ := Machine.step_step hstep
    obtain ⟨w₁, h₁, rfl⟩ := exec_eq_some he
    have hmoves := execOp_moves h₁
    by_cases heq : t' = t
    swap
    · exact absurd hclosed (hopened _ (hmoves.sessions_of_ne (Ne.symm heq)))
    subst heq
    by_cases hop : op = .commit
    · subst hop
      obtain ⟨db', hdb, rfl⟩ := onDb_eq_some h₁
      rcases execCommit_discards hdb hopen with ⟨hab, hch⟩ | rfl
      · exact .inl ⟨k, f, tx, ch, hthread, hopen, hab, rfl, hch⟩
      · exact .inr rfl
    · exact .inr (hmoves.outbox hop)

/-- **A dispatched row stays so** if and only if its batch comes to its `COMMIT`, and that is
    carried out. -/
theorem dispatched_iff_commits {c c' : GatewayConfig} {l : GatewayLabel}
    (h : Reachable P (fun _ => True) c) (hstep : (gateway P).step c l = some c') {tx : Tx}
    (hopen : c.world.db.sessions t = some tx) (hclosed : c'.world.db.sessions t = none)
    {row : OutboxEvent} (hrow : Dispatches c.world t row) :
    (∀ ls c'', (gateway P).run c' ls = some c'' → c''.world.IsDispatched row.outboxId) ↔
      CommitsAt c t l := by
  obtain ⟨σ, hinv, hconf⟩ := reachable_recorded h
  have hinv : Recorded c.world σ c.taskOf := hinv
  obtain ⟨hscheduled, hstored⟩ := hinv.kept t row hrow.selected
  have hstored := hstored tx hopen
  constructor
  · intro hdispatched
    obtain ⟨r, hr, hid, hstatus⟩ := hdispatched [] c' rfl
    rcases outbox_of_closed hstep hopen hclosed with hcommits | hout
    · exact hcommits
    · -- the table still holds the row as it was selected
      rw [hout] at hr
      obtain rfl : r = row := hinv.delivered.sound.row_eq hr hstored hid
      simp [hscheduled] at hstatus
  · rintro ⟨k, f, tx', ch, hthread, htx', hab, rfl, hch⟩ ls c'' hrun
    obtain rfl : tx = tx' := Option.some.inj (hopen.symm.trans htx')
    -- the batch is delivering its rows
    have hconforms : (delivery P).Conforms (fun _ _ => True) (.await .commit f) (σ t) :=
      hconf t _ hthread rfl
    have hpub := (hinv.delivered.selected t _ row hrow.selected).1
    have hin : (σ t).InBatch := by
      rcases hconforms.1.resolve_left (hinv.delivered.batch t).possible with hphase | hbatch
      · exact absurd hphase (hinv.batching t hpub)
      · exact hbatch.1
    have hlatest : tx.changes.latest row = row.markDispatched tx.now :=
      (hinv.written t hin tx hopen row hrow.selected _ hrow.marked rfl _ (by simp [Event.version])).1
    have hone : (gateway P).run c [.step t ch] = some c' :=
      Machine.run_cons_eq_some.mpr ⟨c', hstep, rfl⟩
    have hreach := h.run hone
    obtain ⟨k', op, f', r, w', hthread', he, rfl⟩ := Machine.step_step hstep
    rw [hthread] at hthread'
    cases hthread'
    obtain ⟨w₁, h₁, rfl⟩ := exec_eq_some he
    obtain ⟨db', hdb, rfl⟩ := onDb_eq_some h₁
    have hinstalled := execCommit_installs hdb hopen hab hch
    have hmem : row.markDispatched tx.now ∈ db'.outbox := by
      rw [hinstalled, ← hlatest]
      exact List.mem_map_of_mem (List.mem_append_left _ hstored)
    obtain ⟨r', hr', hcore, hfinal⟩ := final_stays hreach hrun hmem
    refine ⟨r', hr', OutboxEvent.outboxId_eq_of_core hcore, ?_⟩
    exact hfinal (by simp [OutboxEvent.markDispatched])

namespace Example

/-- `json.loads` on the only text that occurs below. -/
def publishing : Platform :=
  { platform with loadsStr := fun text => if text = "\x7b\x7d" then some (.dict []) else none }

def publisher : Publisher := { id := 0, exchangeName := "vcs.webhook.received", batchSize := 50 }

/-- The task 2 selects two rows and opens its channel. -/
def selectsTwo : List GatewayLabel :=
  schedules 0 "k1" ⟨1⟩ ++ schedules 1 "k2" ⟨2⟩ ++ .spawn 2 (.publisher publisher) ::
    [.ok, .ok, .ok, .ok, .ok, .fresh ⟨3⟩, .ok, .ok, .ok, .ok].map (.step 2)

def batch (choices : List Choice) : List GatewayLabel := selectsTwo ++ choices.map (.step 2)

/-- The answers to a row that is published and marked. -/
def publishes : List Choice := [.ok, .ok, .ok, .ok]

theorem reachable_batch {choices : List Choice} {c : GatewayConfig}
    (h : (gateway publishing).run initial (batch choices) = some c) :
    Reachable publishing (fun _ => True) c :=
  ⟨tenants, whitelist, batch choices, fun l _ => by cases l <;> exact trivial, h⟩

/-- The first of the two rows. -/
def firstRow : OutboxEvent :=
  { outboxId := ⟨1⟩, eventType := "vcs.webhook.received", correlationId := ⟨0⟩, prHashKey := "k1",
    prVersion := 1, payload := .str "\x7b\x7d", headers := .str "\x7b\x7d", dispatchAt := 0,
    createdAt := 0 }

theorem firstRow_dispatches {c : GatewayConfig}
    (hselected : c.world.trace[10]? = some ⟨2, .lockDue ⟨1⟩, .ok (some firstRow)⟩)
    (hpublished : (c.world.trace[19]?).map (fun e => (e.tid, e.delivers ⟨1⟩)) = some (2, true))
    (hmarked : c.world.trace[20]? = some ⟨2, .markDispatched ⟨1⟩, .ok ()⟩) :
    Dispatches c.world 2 firstRow where
  selected := List.mem_of_getElem? hselected
  published := by
    obtain ⟨e, he, heq⟩ := Option.map_eq_some_iff.mp hpublished
    obtain ⟨htid, hdelivers⟩ := Prod.mk.inj heq
    exact ⟨e, List.mem_of_getElem? he, htid, hdelivers⟩
  marked := List.mem_of_getElem? hmarked

theorem commit_run : ∃ c c' tx,
    (gateway publishing).run initial (batch (publishes ++ publishes)) = some c ∧
    (gateway publishing).step c (.step 2 .ok) = some c' ∧ c.world.db.sessions 2 = some tx ∧
    c'.world.db.sessions 2 = none ∧ Dispatches c.world 2 firstRow ∧ CommitsAt c 2 (.step 2 .ok) :=
  ⟨_, _, _, rfl, rfl, rfl, rfl, firstRow_dispatches rfl rfl rfl,
    ⟨_, _, _, _, rfl, rfl, rfl, rfl, .inl rfl⟩⟩

/-- The task is cancelled while it publishes the second row. -/
theorem cancel_run : ∃ c c' tx,
    (gateway publishing).run initial (batch (publishes ++ [.ok, .cancel, .ok])) = some c ∧
    (gateway publishing).step c (.step 2 .ok) = some c' ∧ c.world.db.sessions 2 = some tx ∧
    c'.world.db.sessions 2 = none ∧ Dispatches c.world 2 firstRow ∧
    c'.world.db.outbox.all (fun r => r.status = .scheduled) = true :=
  ⟨_, _, _, rfl, rfl, rfl, rfl, firstRow_dispatches rfl rfl rfl, rfl⟩

end Example

theorem committed_first : ∃ c', Reachable Example.publishing (fun _ => True) c' ∧
    ∀ ls c'', (gateway Example.publishing).run c' ls = some c'' →
      c''.world.IsDispatched Example.firstRow.outboxId := by
  obtain ⟨c, c', tx, hrun, hstep, hopen, hclosed, hrow, hcommits⟩ := Example.commit_run
  have hreach := Example.reachable_batch hrun
  have hone : (gateway Example.publishing).run c [.step 2 .ok] = some c' :=
    Machine.run_cons_eq_some.mpr ⟨c', hstep, rfl⟩
  exact ⟨c', hreach.run hone, (dispatched_iff_commits hreach hstep hopen hclosed hrow).mpr hcommits⟩

/-- A cancellation undoes what the batch has marked before. -/
theorem cancelled_first : ∃ c c' tx, Reachable Example.publishing (fun _ => True) c ∧
    (gateway Example.publishing).step c (.step 2 .ok) = some c' ∧
    c.world.db.sessions 2 = some tx ∧ c'.world.db.sessions 2 = none ∧
    Dispatches c.world 2 Example.firstRow ∧ ¬c'.world.IsDispatched Example.firstRow.outboxId := by
  obtain ⟨c, c', tx, hrun, hstep, hopen, hclosed, hrow, hscheduled⟩ := Example.cancel_run
  refine ⟨c, c', tx, Example.reachable_batch hrun, hstep, hopen, hclosed, hrow, ?_⟩
  rintro ⟨r, hr, -, hstatus⟩
  have hall := List.all_eq_true.mp hscheduled r hr
  simp [hstatus] at hall

end VcsGateway
