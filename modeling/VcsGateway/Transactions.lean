import VcsGateway.Gateway

/-!
# What an operation does

For every database operation, the ways it can end.  The proofs below this module read
these lemmas and never the definitions of the operations.
-/

namespace VcsGateway

open Async

/-! ### Answers of awaits -/

/-- An exception that comes from the library or from the scheduler. -/
inductive Exn.External : Exn → Prop
  | fault (n : Nat) : External (.fault n)
  | cancelled : External .cancelledError

/-- An exception of a database call other than a unique violation. -/
inductive Exn.OfDatabase : Exn → Prop
  | external {e : Exn} (h : e.External) : OfDatabase e
  | dataError : OfDatabase .dataError
  | inFailedSqlTransaction : OfDatabase .inFailedSqlTransactionError

theorem Exn.OfDatabase.ne_unique {e : Exn} (h : e.OfDatabase) : e ≠ .uniqueViolationError := by
  rintro rfl
  rcases h with ⟨⟨⟩⟩

theorem awaited_eq_some {σ α : Type} {c : Choice} {broken s : σ} {r : Outcome σ α}
    {a : Except Exn α} (h : awaited c broken r = some (a, s)) :
    (∃ e, a = .error e ∧ e.External ∧ s = broken) ∨ r = some (a, s) := by
  cases c with
  | ok => exact .inr h
  | fault n =>
    simp only [awaited, Option.some.injEq, Prod.mk.injEq] at h
    exact .inl ⟨_, h.1.symm, .fault n, h.2.symm⟩
  | cancel =>
    simp only [awaited, Option.some.injEq, Prod.mk.injEq] at h
    exact .inl ⟨_, h.1.symm, .cancelled, h.2.symm⟩
  | fresh u => simp [awaited] at h
  | lost n => simp [awaited] at h

theorem awaitedFresh_eq_some {σ α : Type} {c : Choice} {broken s : σ} {r : UUID → Outcome σ α}
    {a : Except Exn α} (h : awaitedFresh c broken r = some (a, s)) :
    (∃ e, a = .error e ∧ e.External ∧ s = broken) ∨ ∃ u, c = .fresh u ∧ r u = some (a, s) := by
  cases c with
  | fresh u => exact .inr ⟨u, rfl, h⟩
  | fault n =>
    simp only [awaitedFresh, Option.some.injEq, Prod.mk.injEq] at h
    exact .inl ⟨_, h.1.symm, .fault n, h.2.symm⟩
  | cancel =>
    simp only [awaitedFresh, Option.some.injEq, Prod.mk.injEq] at h
    exact .inl ⟨_, h.1.symm, .cancelled, h.2.symm⟩
  | ok => simp [awaitedFresh] at h
  | lost n => simp [awaitedFresh] at h

namespace Database

variable {P : Platform} {db db' : Database} {t : Nat} {c : Choice}

/-! ### Sessions -/

theorem setSession_eq_self {tx : Tx} (h : db.sessions t = some tx) : db.setSession t tx = db := by
  simp [setSession, ← h]

@[simp] theorem setSession_sessions_self (tx : Tx) :
    (db.setSession t tx).sessions t = some tx := by
  simp [setSession]

theorem setSession_sessions_of_ne {t' : Nat} {tx : Tx} (h : t' ≠ t) :
    (db.setSession t tx).sessions t' = db.sessions t' := by
  simp [setSession, h]

/-! ### Statements inside a transaction -/

/-- A statement fails and leaves a failed transaction behind, or does its work. -/
theorem statement_eq_some {α : Type} {f : Tx → Outcome Database α} {a : Except Exn α}
    (h : db.inTx t (fun tx => awaited c (db.abort t tx) (f tx)) = some (a, db')) :
    ∃ tx, db.sessions t = some tx ∧
      ((∃ e, a = .error e ∧ e.OfDatabase ∧ db' = db.abort t tx) ∨
        (tx.aborted = false ∧ f tx = some (a, db'))) := by
  unfold inTx at h
  rcases hs : db.sessions t with _ | tx
  · rw [hs] at h; simp at h
  · refine ⟨tx, rfl, ?_⟩
    rw [hs] at h
    by_cases hab : tx.aborted = true
    · simp only [hab, if_true, Option.some.injEq, Prod.mk.injEq] at h
      refine .inl ⟨_, h.1.symm, .inFailedSqlTransaction, ?_⟩
      have htx : ({ tx with aborted := true } : Tx) = tx := by rw [← hab]
      rw [← h.2, abort, htx, setSession_eq_self hs]
    · simp only [hab, if_false, Bool.false_eq_true] at h
      rcases awaited_eq_some h with ⟨e, rfl, he, rfl⟩ | h
      · exact .inl ⟨e, rfl, .external he, rfl⟩
      · exact .inr ⟨by simpa using hab, h⟩

theorem statementFresh_eq_some {α : Type} {f : Tx → UUID → Outcome Database α} {a : Except Exn α}
    (h : db.inTx t (fun tx => awaitedFresh c (db.abort t tx) (f tx)) = some (a, db')) :
    ∃ tx, db.sessions t = some tx ∧
      ((∃ e, a = .error e ∧ e.OfDatabase ∧ db' = db.abort t tx) ∨
        (tx.aborted = false ∧ ∃ u, c = .fresh u ∧ f tx u = some (a, db'))) := by
  unfold inTx at h
  rcases hs : db.sessions t with _ | tx
  · rw [hs] at h; simp at h
  · refine ⟨tx, rfl, ?_⟩
    rw [hs] at h
    by_cases hab : tx.aborted = true
    · simp only [hab, if_true, Option.some.injEq, Prod.mk.injEq] at h
      refine .inl ⟨_, h.1.symm, .inFailedSqlTransaction, ?_⟩
      have htx : ({ tx with aborted := true } : Tx) = tx := by rw [← hab]
      rw [← h.2, abort, htx, setSession_eq_self hs]
    · simp only [hab, if_false, Bool.false_eq_true] at h
      rcases awaitedFresh_eq_some h with ⟨e, rfl, he, rfl⟩ | h
      · exact .inl ⟨e, rfl, .external he, rfl⟩
      · exact .inr ⟨by simpa using hab, h⟩

/-! ### Transaction control -/

theorem execBegin_eq_some {now : Time} {a : Except Exn Unit}
    (h : db.execBegin t now c = some (a, db')) :
    db.sessions t = none ∧
      ((∃ e, a = .error e ∧ e.OfDatabase ∧ db' = db) ∨
        (a = .ok () ∧ db' = db.setSession t { now })) := by
  unfold execBegin at h
  rcases hs : db.sessions t with _ | tx
  · rw [hs] at h
    refine ⟨rfl, ?_⟩
    rcases awaited_eq_some h with ⟨e, rfl, he, rfl⟩ | h
    · exact .inl ⟨e, rfl, .external he, rfl⟩
    · simp only [Option.some.injEq, Prod.mk.injEq] at h
      exact .inr ⟨h.1.symm, h.2.symm⟩
  · rw [hs] at h; simp at h

theorem execCommit_eq_some {a : Except Exn Unit} (h : db.execCommit t c = some (a, db')) :
    ∃ tx, db.sessions t = some tx ∧
      ((a = .ok () ∧ db' = db.settle t tx) ∨
        (a = .error .cancelledError ∧ db' = db.settle t tx) ∨
        (∃ e, a = .error e ∧ e.OfDatabase ∧ db' = db.discard t)) := by
  unfold execCommit at h
  rcases hs : db.sessions t with _ | tx
  · rw [hs] at h; simp at h
  · refine ⟨tx, rfl, ?_⟩
    rw [hs] at h
    have hcommon : ∀ c, awaited c (db.discard t) (some (.ok (), db.settle t tx)) = some (a, db') →
        (a = .ok () ∧ db' = db.settle t tx) ∨
          (a = .error .cancelledError ∧ db' = db.settle t tx) ∨
          (∃ e, a = .error e ∧ e.OfDatabase ∧ db' = db.discard t) := by
      intro c h
      rcases awaited_eq_some h with ⟨e, rfl, he, rfl⟩ | h
      · exact .inr (.inr ⟨e, rfl, .external he, rfl⟩)
      · simp only [Option.some.injEq, Prod.mk.injEq] at h
        exact .inl ⟨h.1.symm, h.2.symm⟩
    cases c with
    | lost n =>
      simp only [Option.some.injEq, Prod.mk.injEq] at h
      exact .inr (.inl ⟨h.1.symm, h.2.symm⟩)
    | ok => exact hcommon _ h
    | fresh u => exact hcommon _ h
    | fault n => exact hcommon _ h
    | cancel => exact hcommon _ h

theorem execRollback_eq_some {a : Except Exn Unit} (h : db.execRollback t c = some (a, db')) :
    ∃ tx, db.sessions t = some tx ∧ db' = db.discard t ∧
      (a = .ok () ∨ ∃ e, a = .error e ∧ e.OfDatabase) := by
  unfold execRollback at h
  rcases hs : db.sessions t with _ | tx
  · rw [hs] at h; simp at h
  · refine ⟨tx, rfl, ?_⟩
    rw [hs] at h
    rcases awaited_eq_some h with ⟨e, rfl, he, rfl⟩ | h
    · exact ⟨rfl, .inr ⟨e, rfl, .external he⟩⟩
    · simp only [Option.some.injEq, Prod.mk.injEq] at h
      exact ⟨h.2.symm, .inl h.1.symm⟩

theorem execSavepoint_eq_some {a : Except Exn Unit} (h : db.execSavepoint t c = some (a, db')) :
    ∃ tx, db.sessions t = some tx ∧
      ((∃ e, a = .error e ∧ e.OfDatabase ∧ db' = db.abort t tx) ∨
        (a = .ok () ∧ db' = db.setSession t { tx with saved := tx.changes :: tx.saved })) := by
  obtain ⟨tx, hs, h | ⟨-, h⟩⟩ := statement_eq_some h
  · exact ⟨tx, hs, .inl h⟩
  · simp only [Option.some.injEq, Prod.mk.injEq] at h
    exact ⟨tx, hs, .inr ⟨h.1.symm, h.2.symm⟩⟩

theorem execRelease_eq_some {a : Except Exn Unit} (h : db.execRelease t c = some (a, db')) :
    ∃ tx, db.sessions t = some tx ∧
      ((∃ e, a = .error e ∧ e.OfDatabase ∧ db' = db.abort t tx) ∨
        (a = .ok () ∧ db' = db.setSession t { tx with saved := tx.saved.tail })) := by
  obtain ⟨tx, hs, h | ⟨-, h⟩⟩ := statement_eq_some h
  · exact ⟨tx, hs, .inl h⟩
  · simp only [Option.some.injEq, Prod.mk.injEq] at h
    exact ⟨tx, hs, .inr ⟨h.1.symm, h.2.symm⟩⟩

theorem execRollbackTo_eq_some {a : Except Exn Unit} (h : db.execRollbackTo t c = some (a, db')) :
    ∃ tx, db.sessions t = some tx ∧
      ((∃ e, a = .error e ∧ e.OfDatabase ∧ db' = db.abort t tx) ∨
        ∃ ch saved, tx.saved = ch :: saved ∧ a = .ok () ∧
          db' = db.setSession t { tx with changes := ch, saved, aborted := false }) := by
  unfold execRollbackTo at h
  rcases hs : db.sessions t with _ | tx
  · rw [hs] at h; simp at h
  · refine ⟨tx, rfl, ?_⟩
    rw [hs] at h
    rcases hsaved : tx.saved with _ | ⟨ch, saved⟩
    · simp [hsaved] at h
    · simp only [hsaved] at h
      rcases awaited_eq_some h with ⟨e, rfl, he, rfl⟩ | h
      · exact .inl ⟨e, rfl, .external he, rfl⟩
      · simp only [Option.some.injEq, Prod.mk.injEq] at h
        exact .inr ⟨ch, saved, rfl, h.1.symm, h.2.symm⟩

/-! ### Statements -/

theorem execInsertInbound_eq_some {e : NewInboundEvent} {a : Except Exn InboundEvent}
    (h : db.execInsertInbound t P c e = some (a, db')) :
    ∃ tx, db.sessions t = some tx ∧
      ((∃ exc, a = .error exc ∧ db' = db.abort t tx ∧
          (exc.OfDatabase ∨ exc = .uniqueViolationError ∧
            ∃ i ∈ db.inbound ++ tx.changes.inbound, i.prHashKey = e.prHashKey)) ∨
        ∃ row, tx.aborted = false ∧ e.row P tx.now = some row ∧ a = .ok row ∧
          (∀ i ∈ db.inbound ++ tx.changes.inbound, i.prHashKey ≠ row.prHashKey) ∧
          db.keyLock row.prHashKey = none ∧ db' = db.addInbound t tx row) := by
  obtain ⟨tx, hs, ⟨exc, rfl, hexc, rfl⟩ | ⟨hab, h⟩⟩ := statement_eq_some h
  · exact ⟨tx, hs, .inl ⟨exc, rfl, rfl, .inl hexc⟩⟩
  refine ⟨tx, hs, ?_⟩
  rcases hrow : e.row P tx.now with _ | row
  · simp only [hrow, Option.some.injEq, Prod.mk.injEq] at h
    exact .inl ⟨_, h.1.symm, h.2.symm, .inl .dataError⟩
  have hkey : row.prHashKey = e.prHashKey := congrArg (·.prHashKey) (e.row_eq_some P hrow)
  simp only [hrow] at h
  by_cases hdup : ((db.inbound ++ tx.changes.inbound).any fun i => i.prHashKey = row.prHashKey) = true
  · simp only [hdup, if_true, Option.some.injEq, Prod.mk.injEq] at h
    refine .inl ⟨_, h.1.symm, h.2.symm, .inr ⟨rfl, ?_⟩⟩
    simpa only [List.any_eq_true, decide_eq_true_eq, hkey] using hdup
  · simp only [hdup, if_false, Bool.false_eq_true] at h
    rcases hlock : db.keyLock row.prHashKey with _ | t'
    · simp only [hlock, Option.some.injEq, Prod.mk.injEq] at h
      refine .inr ⟨row, hab, rfl, h.1.symm, ?_, hlock, h.2.symm⟩
      intro i hi heq
      exact hdup (List.any_eq_true.mpr ⟨i, hi, by simpa using heq⟩)
    · simp [hlock] at h

theorem execInsertEvent_eq_some {e : NewOutboxEvent} {a : Except Exn UUID}
    (h : db.execInsertEvent t P c e = some (a, db')) :
    ∃ tx, db.sessions t = some tx ∧
      ((∃ exc, a = .error exc ∧ exc.OfDatabase ∧ db' = db.abort t tx) ∨
        ∃ u row, tx.aborted = false ∧ c = .fresh u ∧ e.row P u tx.now = some row ∧ a = .ok u ∧
          db' = db.addOutbox t tx row) := by
  obtain ⟨tx, hs, h | ⟨hab, u, hc, h⟩⟩ := statementFresh_eq_some h
  · exact ⟨tx, hs, .inl h⟩
  refine ⟨tx, hs, ?_⟩
  rcases hrow : e.row P u tx.now with _ | row
  · simp only [hrow, Option.some.injEq, Prod.mk.injEq] at h
    exact .inl ⟨_, h.1.symm, .dataError, h.2.symm⟩
  · simp only [hrow, Option.some.injEq, Prod.mk.injEq] at h
    exact .inr ⟨u, row, hab, hc, hrow, h.1.symm, h.2.symm⟩

theorem execCancelScan_eq_some {k : String} {v : Int} {a : Except Exn (List UUID)}
    (h : db.execCancelScan t c k v = some (a, db')) :
    ∃ tx, db.sessions t = some tx ∧
      ((∃ exc, a = .error exc ∧ exc.OfDatabase ∧ db' = db.abort t tx) ∨
        (db' = db ∧ a = .ok (((tx.changes.apply db.outbox).filter (·.isPrevious k v)).map
          (·.outboxId)))) := by
  obtain ⟨tx, hs, h | ⟨-, h⟩⟩ := statement_eq_some h
  · exact ⟨tx, hs, .inl h⟩
  · simp only [Option.some.injEq, Prod.mk.injEq] at h
    exact ⟨tx, hs, .inr ⟨h.2.symm, h.1.symm⟩⟩

theorem lockedByOther_eq_false {id : UUID} (h : ¬db.lockedByOther t id = true) :
    ∀ t', db.rowLock id = some t' → t' = t := by
  intro t' hlock
  simpa [lockedByOther, hlock] using h

/-- A row of `_CANCEL_PREVIOUS` is updated only while its newest version is SCHEDULED. -/
theorem execCancelRow_eq_some {id : UUID} {k : String} {v : Int} {reason : String}
    {a : Except Exn Unit} (h : db.execCancelRow t c id k v reason = some (a, db')) :
    ∃ tx, db.sessions t = some tx ∧
      ((∃ exc, a = .error exc ∧ exc.OfDatabase ∧ db' = db.abort t tx) ∨
        (a = .ok () ∧ (∀ r, tx.changes.version db.outbox id = some r → r.isPrevious k v = false) ∧
          db' = db) ∨
        ∃ r, tx.aborted = false ∧ a = .ok () ∧ (∀ t', db.rowLock id = some t' → t' = t) ∧
          tx.changes.version db.outbox id = some r ∧ r.isPrevious k v = true ∧
          db' = db.write t tx (r.cancel reason) .cancelled) := by
  obtain ⟨tx, hs, h | ⟨hab, h⟩⟩ := statement_eq_some h
  · exact ⟨tx, hs, .inl h⟩
  refine ⟨tx, hs, .inr ?_⟩
  by_cases hl : db.lockedByOther t id = true
  · simp [hl] at h
  simp only [hl, if_false, Bool.false_eq_true] at h
  rcases hv : tx.changes.version db.outbox id with _ | r
  · simp only [hv, Option.some.injEq, Prod.mk.injEq] at h
    exact .inl ⟨h.1.symm, by simp, h.2.symm⟩
  simp only [hv] at h
  by_cases hprev : r.isPrevious k v = true
  · simp only [hprev, if_true, Option.some.injEq, Prod.mk.injEq] at h
    exact .inr ⟨r, hab, h.1.symm, lockedByOther_eq_false hl, rfl, hprev, h.2.symm⟩
  · simp only [hprev, if_false, Bool.false_eq_true, Option.some.injEq, Prod.mk.injEq] at h
    exact .inl ⟨h.1.symm, by simpa using hprev, h.2.symm⟩

theorem execDueScan_eq_some {a : Except Exn (List UUID)} (h : db.execDueScan t c = some (a, db')) :
    ∃ tx, db.sessions t = some tx ∧
      ((∃ exc, a = .error exc ∧ exc.OfDatabase ∧ db' = db.abort t tx) ∨
        (db' = db ∧ a = .ok ((((tx.changes.apply db.outbox).filter (·.isDue tx.now)).insertionSort
          fun r r' => r.dispatchAt ≤ r'.dispatchAt).map (·.outboxId)))) := by
  obtain ⟨tx, hs, h | ⟨-, h⟩⟩ := statement_eq_some h
  · exact ⟨tx, hs, .inl h⟩
  · simp only [Option.some.injEq, Prod.mk.injEq] at h
    exact ⟨tx, hs, .inr ⟨h.2.symm, h.1.symm⟩⟩

/-- A row that `_SELECT_DUE` returns was due when its lock was taken. -/
theorem execLockDue_eq_some {id : UUID} {a : Except Exn (Option OutboxEvent)}
    (h : db.execLockDue t c id = some (a, db')) :
    ∃ tx, db.sessions t = some tx ∧
      ((∃ exc, a = .error exc ∧ exc.OfDatabase ∧ db' = db.abort t tx) ∨
        (a = .ok none ∧ db' = db) ∨
        ∃ r, tx.aborted = false ∧ a = .ok (some r) ∧ (∀ t', db.rowLock id = some t' → t' = t) ∧
          tx.changes.version db.outbox id = some r ∧ r.isDue tx.now = true ∧
          db' = db.lock t id) := by
  obtain ⟨tx, hs, h | ⟨hab, h⟩⟩ := statement_eq_some h
  · exact ⟨tx, hs, .inl h⟩
  refine ⟨tx, hs, .inr ?_⟩
  by_cases hl : db.lockedByOther t id = true
  · simp only [hl, if_true, Option.some.injEq, Prod.mk.injEq] at h
    exact .inl ⟨h.1.symm, h.2.symm⟩
  simp only [hl, if_false, Bool.false_eq_true] at h
  rcases hv : tx.changes.version db.outbox id with _ | r
  · simp only [hv, Option.some.injEq, Prod.mk.injEq] at h
    exact .inl ⟨h.1.symm, h.2.symm⟩
  simp only [hv] at h
  by_cases hdue : r.isDue tx.now = true
  · simp only [hdue, if_true, Option.some.injEq, Prod.mk.injEq] at h
    exact .inr ⟨r, hab, h.1.symm, lockedByOther_eq_false hl, rfl, hdue, h.2.symm⟩
  · simp only [hdue, if_false, Bool.false_eq_true, Option.some.injEq, Prod.mk.injEq] at h
    exact .inl ⟨h.1.symm, h.2.symm⟩

theorem execMark_eq_some {id : UUID} {m : Mark} {set : Tx → OutboxEvent → OutboxEvent}
    {a : Except Exn Unit} (h : db.execMark t c id m set = some (a, db')) :
    ∃ tx, db.sessions t = some tx ∧
      ((∃ exc, a = .error exc ∧ exc.OfDatabase ∧ db' = db.abort t tx) ∨
        (tx.aborted = false ∧ a = .ok () ∧ db' = db ∧
          tx.changes.version db.outbox id = none) ∨
        ∃ r, tx.aborted = false ∧ a = .ok () ∧ (∀ t', db.rowLock id = some t' → t' = t) ∧
          tx.changes.version db.outbox id = some r ∧
          db' = db.write t tx (set tx r) m) := by
  obtain ⟨tx, hs, h | ⟨hab, h⟩⟩ := statement_eq_some h
  · exact ⟨tx, hs, .inl h⟩
  refine ⟨tx, hs, .inr ?_⟩
  by_cases hl : db.lockedByOther t id = true
  · simp [hl] at h
  simp only [hl, if_false, Bool.false_eq_true] at h
  rcases hv : tx.changes.version db.outbox id with _ | r
  · simp only [hv, Option.some.injEq, Prod.mk.injEq] at h
    exact .inl ⟨hab, h.1.symm, h.2.symm, rfl⟩
  · simp only [hv, Option.some.injEq, Prod.mk.injEq] at h
    exact .inr ⟨r, hab, h.1.symm, lockedByOther_eq_false hl, rfl, h.2.symm⟩

end Database

end VcsGateway
