import VcsGateway.Delivery

/-!
# What the batches hold

The invariant that ties the protocol of `VcsGateway.Delivery` to the locks, the tables
and the history of the broker, and its step lemma.
-/

namespace VcsGateway

open Async

/-! ### Locks and rows of the other transactions -/

namespace Database

variable {P : Platform} {op : Op} {fresh : UUID → Prop} {t t' : Nat} {db db' : Database}
  {used : List UUID} {id : UUID}

theorem Moves.keepsLock (h : Moves P op fresh t db db') (hs : db.Storage used)
    (hfresh : ∀ u, fresh u → u ∉ used) (hne : t' ≠ t) (hl : db.rowLock id = some t') :
    db'.rowLock id = some t' := by
  -- taking a free lock
  have htaken : ∀ id', (∀ t', db.rowLock id' = some t' → t' = t) →
      Function.update db.rowLock id' (some t) id = some t' := by
    intro id' hfree
    by_cases heq : id = id'
    · subst heq
      exact absurd (hfree t' hl) hne
    · rw [Function.update_of_ne heq]
      exact hl
  cases h with
  | idle | opened | kept | insertedInbound => exact hl
  | discarded tx _ => exact close_rowLock_of_ne hne hl
  | installed tx _ _ _ => exact close_rowLock_of_ne hne hl
  | locked tx id' r _ _ hfree _ _ => exact htaken id' hfree
  | wrote tx r v m _ _ _ hfree _ => exact htaken v.outboxId hfree
  | insertedOutbox tx e row _ _ _ hf =>
    exact htaken row.outboxId fun t' hl' => absurd (hs.rowLock _ _ hl').1 (hfresh _ hf)

/-- A row that another transaction has locked stays as it is. -/
theorem Moves.keepsRow (h : Moves P op fresh t db db') (hs : db.Storage used) (hne : t' ≠ t)
    {r : OutboxEvent} (hr : r ∈ db.outbox) (hl : db.rowLock r.outboxId = some t') :
    r ∈ db'.outbox := by
  cases h with
  | installed tx _ htx _ =>
    have hp := hs.pending t tx htx tx.changes List.mem_cons_self
    have hfree : ¬tx.changes.Touched r.outboxId := by
      rintro ⟨v, hv, hvr⟩
      have hown := hp.writesLocked v hv
      rw [hvr, hl] at hown
      exact hne (Option.some.inj hown)
    have hmem : tx.changes.latest r ∈ (db.install t tx).outbox :=
      List.mem_map_of_mem (List.mem_append_left _ hr)
    rwa [Changes.latest_of_not_touched hfree] at hmem
  | _ => exact hr

/-- The lock that `t` took stays its own while its transaction is open. -/
theorem Moves.keepsOwnLock (h : Moves P op fresh t db db') (hl : db.rowLock id = some t)
    {tx : Tx} (ht : db'.sessions t = some tx) : db'.rowLock id = some t := by
  have htaken : ∀ id', Function.update db.rowLock id' (some t) id = some t := by
    intro id'
    by_cases heq : id = id'
    · subst heq
      exact Function.update_self ..
    · rw [Function.update_of_ne heq]
      exact hl
  cases h with
  | idle | opened | kept | insertedInbound => exact hl
  | discarded tx _ => simp [Database.discard] at ht
  | installed tx _ _ _ => simp [Database.install] at ht
  | locked tx id' r _ _ _ _ _ => exact htaken id'
  | wrote tx r v m _ _ _ _ _ => exact htaken v.outboxId
  | insertedOutbox tx e row _ _ _ _ => exact htaken row.outboxId

/-- A batch that has updated nothing sees the table itself. -/
theorem Pending.version_of_untouched {ch : Changes} {row : OutboxEvent} (h : db.Pending t ch)
    (hs : db.Storage used) (hrow : row ∈ db.outbox) (huntouched : ¬ch.Touched row.outboxId)
    {r : OutboxEvent} (hv : ch.version db.outbox row.outboxId = some r) : r = row := by
  obtain ⟨b, hb, hid, hlatest⟩ := h.version_latest hs hv
  obtain rfl : b = row :=
    List.inj_on_of_nodup_map (h.ids_nodup hs) hb (List.mem_append_left _ hrow) hid
  rw [← hlatest, Changes.latest_of_not_touched huntouched]

theorem version_isSome {ch : Changes} {row : OutboxEvent} (hrow : row ∈ db.outbox) :
    ch.version db.outbox row.outboxId ≠ none := by
  intro hnone
  unfold Changes.version at hnone
  have hfind := List.find?_eq_none.mp hnone row (List.mem_append_right _ hrow)
  simp at hfind

end Database

/-! ### The invariant -/

/-- A publish call for the row that returned normally. -/
def Event.delivers (id : UUID) (e : Event) : Bool :=
  match e with
  | ⟨_, .publish _ m _, .ok _⟩ => m.source = some id
  | _ => false

/-- The open transaction `tx` of `t` has selected the row, and may publish it. -/
structure Holds (w : World) (t : Nat) (tx : Tx) (row : OutboxEvent) : Prop where
  locked : w.db.rowLock row.outboxId = some t
  stored : row ∈ w.db.outbox
  due : row.isDue tx.now = true
  untouched : ∀ ch ∈ tx.changes :: tx.saved, ¬ch.Touched row.outboxId
  selected : (⟨t, .lockDue row.outboxId, .ok (some row)⟩ : Event) ∈ w.trace

namespace BatchState

/-- The transaction of a batch, open or failed. -/
structure Batching (s : BatchState) (w : World) (t : Nat) (tx : Tx) : Prop where
  session : w.db.sessions t = some tx
  inserts : ∀ ch ∈ tx.changes :: tx.saved, ch.inserts = []
  held : ∀ row ∈ s.held, Holds w t tx row
  sent : ∀ id ∈ s.sent, w.db.rowLock id = some t ∧ (∃ e ∈ w.trace, e.delivers id = true) ∧
    ((∃ row ∈ s.held, row.outboxId = id) ∨ (id, .dispatched) ∈ tx.changes.marks)

/-- What the state of a task says about its session. -/
def Describes (s : BatchState) (w : World) (t : Nat) : Prop :=
  match s.phase with
  | .outside | .ended => w.db.sessions t = none ∧ s.held = [] ∧ s.sent = []
  | .scheduling => (∃ tx, w.db.sessions t = some tx) ∧ s.held = [] ∧ s.sent = []
  | .selecting => ∃ tx, s.Batching w t tx ∧ s.sent = [] ∧
      ∀ ch ∈ tx.changes :: tx.saved, ch.writes = []
  | .delivering => ∃ tx, s.Batching w t tx
  | .failed => ∃ tx, w.db.sessions t = some tx ∧ tx.aborted = true ∧
      ∀ id ∈ s.sent, w.db.rowLock id = some t
  | .doomed => ∃ tx, w.db.sessions t = some tx ∧ ∀ id ∈ s.sent, w.db.rowLock id = some t
  | .impossible => False

end BatchState

structure Delivered (w : World) (σ : Nat → BatchState) (τ : Nat → Option Task) : Prop where
  sound : w.Sound
  lives : w.db.Lifecycles w.used
  role : ∀ t, (σ t).isPublisher = (BatchState.start (τ t)).isPublisher
  scheduler : ∀ t, (σ t).isPublisher = false →
    (σ t).phase = .outside ∨ (σ t).phase = .scheduling
  idle : ∀ t, τ t = none → (σ t).phase = .outside
  batch : ∀ t, (σ t).Describes w t
  selected : ∀ t id row, (⟨t, .lockDue id, .ok (some row)⟩ : Event) ∈ w.trace →
    (σ t).isPublisher = true ∧ (σ t).phase ≠ .outside ∧
      ∀ tx, w.db.sessions t = some tx → w.db.rowLock id = some t
  evidence : ∀ t tx, w.db.sessions t = some tx → ∀ ch ∈ tx.changes :: tx.saved, ∀ id,
    (id, .dispatched) ∈ ch.marks → ∃ e ∈ w.trace, e.delivers id = true
  dispatched : ∀ commit ∈ w.db.wal, ∀ id, (id, .dispatched) ∈ commit.changes.marks →
    ∃ e ∈ w.trace, e.delivers id = true
  sent : ∀ e ∈ w.trace, ∀ id, e.delivers id = true → (σ e.tid).isPublisher = true ∧
    (e.tid ∈ w.db.rolledBack ∨ id ∈ (σ e.tid).sent ∨
      ∃ commit ∈ w.db.wal, (id, .dispatched) ∈ commit.changes.marks)
  once : (∀ t ∈ w.db.rolledBack, (σ t).isPublisher = false) →
    ∀ id, w.trace.countP (·.delivers id) ≤ 1

/-! ### Frames -/

variable {P : Platform} {w w' : World} {σ : Nat → BatchState} {τ : Nat → Option Task} {t t' : Nat}
  {s : BatchState}

theorem Holds.mono {tx : Tx} {row : OutboxEvent} (h : Holds w t tx row)
    (hlock : w.db.rowLock row.outboxId = some t → w'.db.rowLock row.outboxId = some t)
    (hrow : row ∈ w'.db.outbox) (htrace : w.trace ⊆ w'.trace) {tx' : Tx} (hnow : tx'.now = tx.now)
    (hch : ∀ ch ∈ tx'.changes :: tx'.saved, ¬ch.Touched row.outboxId) : Holds w' t tx' row where
  locked := hlock h.locked
  stored := hrow
  due := hnow ▸ h.due
  untouched := hch
  selected := htrace h.selected

theorem BatchState.Batching.mono {tx : Tx} (h : s.Batching w t tx)
    (hsession : w'.db.sessions t = some tx)
    (hlock : ∀ id, w.db.rowLock id = some t → w'.db.rowLock id = some t)
    (hrow : ∀ r ∈ w.db.outbox, w.db.rowLock r.outboxId = some t → r ∈ w'.db.outbox)
    (htrace : w.trace ⊆ w'.trace) : s.Batching w' t tx where
  session := hsession
  inserts := h.inserts
  held row hr := (h.held row hr).mono (hlock _)
    (hrow row (h.held row hr).stored (h.held row hr).locked) htrace rfl (h.held row hr).untouched
  sent id hid := by
    obtain ⟨hl, ⟨e, he, hdelivers⟩, hrest⟩ := h.sent id hid
    exact ⟨hlock id hl, ⟨e, htrace he, hdelivers⟩, hrest⟩

/-- What keeps the session, the locks and the locked rows of `t`. -/
theorem BatchState.Describes.mono (h : s.Describes w t)
    (hsession : w'.db.sessions t = w.db.sessions t)
    (hlock : ∀ id, w.db.rowLock id = some t → w'.db.rowLock id = some t)
    (hrow : ∀ r ∈ w.db.outbox, w.db.rowLock r.outboxId = some t → r ∈ w'.db.outbox)
    (htrace : w.trace ⊆ w'.trace) : s.Describes w' t := by
  unfold BatchState.Describes at h ⊢
  rw [hsession]
  cases hphase : s.phase with
  | impossible => simp [hphase] at h
  | outside | ended | scheduling => simpa [hphase] using h
  | selecting =>
    rw [hphase] at h
    obtain ⟨tx, hb, hrest⟩ := h
    exact ⟨tx, hb.mono (hsession.trans hb.session) hlock hrow htrace, hrest⟩
  | delivering =>
    rw [hphase] at h
    obtain ⟨tx, hb⟩ := h
    exact ⟨tx, hb.mono (hsession.trans hb.session) hlock hrow htrace⟩
  | failed =>
    rw [hphase] at h
    obtain ⟨tx, hs, hab, hsent⟩ := h
    exact ⟨tx, hs, hab, fun id hid => hlock id (hsent id hid)⟩
  | doomed =>
    rw [hphase] at h
    obtain ⟨tx, hs, hsent⟩ := h
    exact ⟨tx, hs, fun id hid => hlock id (hsent id hid)⟩

/-! ### One step -/

namespace BatchState

theorem move_isPublisher (s : BatchState) (op : Op) (r : Except Exn op.Ret) :
    (s.move op r).isPublisher = s.isPublisher := by
  have hmarked : ∀ id, (s.marked id).isPublisher = s.isPublisher := by
    intro id
    unfold marked
    split <;> rfl
  cases op with
  | lockDue id => rcases r with _ | _ | _ <;> rfl
  | markDispatched id => cases r <;> first | rfl | exact hmarked _
  | markFailed id msg => cases r <;> first | rfl | exact hmarked _
  | markRetry id msg at_ => cases r <;> first | rfl | exact hmarked _
  | _ => cases r <;> rfl

/-- A task that is no publisher stays out of batches. -/
theorem move_scheduler {s : BatchState} {op : Op} (hs : s.isPublisher = false)
    (h : s.phase = .outside ∨ s.phase = .scheduling) (hp : s.permits P op) (r : Except Exn op.Ret) :
    (s.move op r).phase = .outside ∨ (s.move op r).phase = .scheduling := by
  have hin : ¬s.InBatch := by
    rintro (h' | h') <;> rcases h with h | h <;> simp [h] at h'
  have hne : ∀ p : Phase, p ≠ .outside → p ≠ .scheduling → s.phase ≠ p := by
    rintro p h₁ h₂ rfl
    exact h.elim h₁ h₂
  have hrest : s.rest.phase = .outside := by simp [rest, hs]
  cases op with
  | begin =>
    cases r with
    | ok _ => exact .inr (by simp [move, hs])
    | error _ => exact h
  | commit => exact .inl (by cases r <;> exact hrest)
  | rollback => exact .inl (by cases r <;> exact hrest)
  | savepoint => exact absurd hp hin
  | release => exact absurd hp (hne _ (by decide) (by decide))
  | rollbackTo =>
    rcases hp with hp | hp <;> exact absurd hp (hne _ (by decide) (by decide))
  | dueScan => exact absurd hp (hne _ (by decide) (by decide))
  | lockDue id => exact absurd hp (hne _ (by decide) (by decide))
  | markDispatched id => exact absurd hp.1 (hne _ (by decide) (by decide))
  | markFailed id msg =>
    rcases hp with hp | ⟨hp, -⟩ <;> exact absurd hp (hne _ (by decide) (by decide))
  | markRetry id msg at_ =>
    rcases hp with hp | ⟨hp, -⟩ <;> exact absurd hp (hne _ (by decide) (by decide))
  | _ => cases r <;> exact h

/-- A publisher that has begun its batch does not begin another. -/
theorem move_phase_ne {s : BatchState} {op : Op} (hs : s.isPublisher = true)
    (h : s.phase ≠ .outside) (r : Except Exn op.Ret) : (s.move op r).phase ≠ .outside := by
  have hmarked : ∀ id, (s.marked id).phase ≠ .outside := by
    intro id
    unfold marked
    split
    · simp
    · exact h
  have hrest : s.rest.phase ≠ .outside := by simp [rest, hs]
  cases op with
  | begin =>
    cases r with
    | ok _ => simp [move, hs]
    | error _ => exact h
  | commit => cases r <;> exact hrest
  | rollback => cases r <;> exact hrest
  | savepoint => cases r <;> simp [move, fail]
  | rollbackTo => cases r <;> simp [move]
  | release => cases r <;> first | exact h | simp [move, fail]
  | dueScan => cases r <;> first | exact h | simp [move, fail]
  | lockDue id => rcases r with _ | _ | _ <;> first | exact h | simp [move, fail]
  | markDispatched id => cases r <;> first | exact hmarked _ | simp [move, fail]
  | markFailed id msg => cases r <;> first | exact hmarked _ | simp [move, fail]
  | markRetry id msg at_ => cases r <;> first | exact hmarked _ | simp [move, fail]
  | _ => cases r <;> exact h

theorem Describes.possible (h : s.Describes w t) : s.phase ≠ .impossible := by
  intro himp
  unfold Describes at h
  rw [himp] at h
  exact h

/-- A published row is locked. -/
theorem Describes.sent_locked (h : s.Describes w t) {id : UUID} (hid : id ∈ s.sent) :
    w.db.rowLock id = some t := by
  unfold Describes at h
  cases hphase : s.phase with
  | outside | ended => rw [hphase] at h; simp [h.2.2] at hid
  | scheduling => rw [hphase] at h; simp [h.2.2] at hid
  | selecting => rw [hphase] at h; obtain ⟨tx, -, hnil, -⟩ := h; simp [hnil] at hid
  | delivering => rw [hphase] at h; obtain ⟨tx, hb⟩ := h; exact (hb.sent id hid).1
  | failed => rw [hphase] at h; obtain ⟨tx, -, -, hsent⟩ := h; exact hsent id hid
  | doomed => rw [hphase] at h; obtain ⟨tx, -, hsent⟩ := h; exact hsent id hid
  | impossible => rw [hphase] at h; exact h.elim

theorem Describes.delivering (h : s.Describes w t) (hs : s.phase = .delivering) :
    ∃ tx, s.Batching w t tx := by
  unfold Describes at h
  rw [hs] at h
  exact h

theorem Describes.selecting (h : s.Describes w t) (hs : s.phase = .selecting) :
    ∃ tx, s.Batching w t tx ∧ s.sent = [] ∧ ∀ ch ∈ tx.changes :: tx.saved, ch.writes = [] := by
  unfold Describes at h
  rw [hs] at h
  exact h

theorem Describes.failed (h : s.Describes w t) (hs : s.phase = .failed) :
    ∃ tx, w.db.sessions t = some tx ∧ tx.aborted = true ∧
      ∀ id ∈ s.sent, w.db.rowLock id = some t := by
  unfold Describes at h
  rw [hs] at h
  exact h

theorem Describes.inBatch (h : s.Describes w t) (hs : s.InBatch) : ∃ tx, s.Batching w t tx := by
  rcases hs with hs | hs
  · obtain ⟨tx, hb, -⟩ := h.selecting hs
    exact ⟨tx, hb⟩
  · exact h.delivering hs

theorem Describes.closed (h : s.Describes w t) (hs : ¬s.Open) : w.db.sessions t = none := by
  have hphase : s.phase = .outside ∨ s.phase = .ended := by
    unfold BatchState.Open at hs
    tauto
  unfold Describes at h
  rcases hphase with hphase | hphase <;> (rw [hphase] at h; exact h.1)

/-- A task between its transactions. -/
theorem describes_rest (s : BatchState) (h : w.db.sessions t = none) : s.rest.Describes w t := by
  unfold Describes
  by_cases hs : s.isPublisher = true
  · simp [rest, hs, h]
  · simp [rest, hs, h]

end BatchState

/-- The version that an update of a held row finds is the row. -/
theorem BatchState.Batching.version {tx tx' : Tx} (h : s.Batching w t tx) (hw : w.Sound)
    {row r : OutboxEvent} (hrow : row ∈ s.held) (htx : w.db.sessions t = some tx')
    (hv : tx'.changes.version w.db.outbox row.outboxId = some r) : r = row := by
  obtain rfl : tx = tx' := Option.some.inj (h.session.symm.trans htx)
  have hp := hw.pending t tx htx tx.changes List.mem_cons_self
  have hheld := h.held row hrow
  exact hp.version_of_untouched hw hheld.stored (hheld.untouched _ List.mem_cons_self) hv

theorem Holds.scheduled {tx : Tx} {row : OutboxEvent} (h : Holds w t tx row) :
    row.status = .scheduled := by
  have hdue := h.due
  simp only [OutboxEvent.isDue, Bool.and_eq_true, decide_eq_true_eq] at hdue
  exact hdue.1

/-- The updates that a batch may make keep to the retry budget. -/
theorem BatchState.Describes.legal (h : s.Describes w t) (hw : w.Sound) {op : Op}
    (hp : s.permits P op) {tx : Tx} {r v : OutboxEvent} {m : Mark} (htx : w.db.sessions t = some tx)
    (hab : tx.aborted = false) (hv : tx.changes.version w.db.outbox v.outboxId = some r)
    (hwrites : op.Writes tx r v m) : r.status = .scheduled ∧ Legal r v m := by
  -- the row that the statement names is the one that the batch holds
  have hheld : ∀ row ∈ s.held, s.phase = .delivering → row.outboxId = r.outboxId →
      r = row ∧ row.status = .scheduled := by
    intro row hrow hphase hid
    obtain ⟨tx', hb⟩ := h.delivering hphase
    have hr : r = row := by
      refine hb.version hw hrow htx ?_
      rw [hid, ← hwrites.outboxId_eq]
      exact hv
    exact ⟨hr, (hb.held row hrow).scheduled⟩
  have hfailed : s.phase ≠ .failed := by
    intro hphase
    obtain ⟨tx', htx', hab', -⟩ := h.failed hphase
    obtain rfl : tx = tx' := Option.some.inj (htx.symm.trans htx')
    simp [hab] at hab'
  cases op with
  | cancelRow id k ver reason =>
    obtain ⟨-, hprev, rfl, rfl⟩ := hwrites
    simp only [OutboxEvent.isPrevious, Bool.and_eq_true, decide_eq_true_eq] at hprev
    exact ⟨hprev.2, .cancelled reason⟩
  | markDispatched id =>
    obtain ⟨hid, rfl, rfl⟩ := hwrites
    obtain ⟨hphase, row, hrow, hrid, -⟩ := hp
    obtain ⟨rfl, hstatus⟩ := hheld row hrow hphase (hrid.trans hid.symm)
    exact ⟨hstatus, .dispatched _⟩
  | markFailed id msg =>
    obtain ⟨hid, rfl, rfl⟩ := hwrites
    rcases hp with hp | ⟨hphase, row, hrow, hrid, hlimit⟩
    · exact absurd hp hfailed
    · obtain ⟨rfl, hstatus⟩ := hheld row hrow.1 hphase (hrid.trans hid.symm)
      exact ⟨hstatus, .failed msg hlimit⟩
  | markRetry id msg at_ =>
    obtain ⟨hid, rfl, rfl⟩ := hwrites
    rcases hp with hp | ⟨hphase, row, hrow, hrid, hlimit⟩
    · exact absurd hp hfailed
    · obtain ⟨rfl, hstatus⟩ := hheld row hrow.1 hphase (hrid.trans hid.symm)
      exact ⟨hstatus, .retry msg at_ hlimit⟩
  | _ => exact hwrites.elim

/-! ### The task that moves -/

/-- A statement failed; its transaction can only be rolled back now. -/
theorem BatchState.Batching.abort {tx : Tx} (h : s.Batching w t tx)
    (hdb : w'.db = w.db.abort t tx) : s.fail.Describes w' t := by
  refine ⟨{ tx with aborted := true }, ?_, rfl, fun id hid => ?_⟩
  · rw [hdb]
    exact Database.setSession_sessions_self _
  · rw [hdb]
    exact (h.sent id hid).1

/-- The row has got its new version. -/
theorem BatchState.Batching.wrote {tx : Tx} {row v : OutboxEvent} {m : Mark}
    (h : s.Batching w t tx) (hs : s.phase = .delivering)
    (hv : v.outboxId = row.outboxId) (hm : row.outboxId ∈ s.sent → m = .dispatched)
    (hdb : w'.db = w.db.write t tx v m) (htrace : w.trace ⊆ w'.trace) :
    (s.marked row.outboxId).Describes w' t := by
  have hmarked : s.marked row.outboxId =
      { s with held := s.held.filter fun r => r.outboxId ≠ row.outboxId } :=
    if_neg (by simp [hs])
  have hlock : ∀ id, w.db.rowLock id = some t → w'.db.rowLock id = some t := by
    intro id hl
    rw [hdb]
    change Function.update w.db.rowLock v.outboxId (some t) id = some t
    by_cases heq : id = v.outboxId
    · rw [heq, Function.update_self]
    · rw [Function.update_of_ne heq]
      exact hl
  have hsession : w'.db.sessions t = some (tx.addWrite v m) := by
    rw [hdb]
    exact Database.setSession_sessions_self _
  have hout : w'.db.outbox = w.db.outbox := by rw [hdb]; rfl
  rw [hmarked]
  unfold BatchState.Describes
  simp only [hs]
  refine ⟨tx.addWrite v m, hsession, ?_, ?_, ?_⟩
  · intro ch hch
    rcases List.mem_cons.mp hch with rfl | hch
    · exact h.inserts tx.changes List.mem_cons_self
    · exact h.inserts ch (List.mem_cons_of_mem _ hch)
  · intro r hr
    obtain ⟨hr, hne⟩ := List.mem_filter.mp hr
    have hne : r.outboxId ≠ row.outboxId := by simpa using hne
    have hheld := h.held r hr
    refine hheld.mono (hlock _) (hout ▸ hheld.stored) htrace rfl ?_
    intro ch hch
    rcases List.mem_cons.mp hch with rfl | hch
    · rintro ⟨x, hx, hxr⟩
      rcases List.mem_cons.mp hx with rfl | hx
      · exact hne (hxr.symm.trans hv)
      · exact hheld.untouched tx.changes List.mem_cons_self ⟨x, hx, hxr⟩
    · exact hheld.untouched ch (List.mem_cons_of_mem _ hch)
  · intro id hid
    obtain ⟨hl, ⟨e, he, hdelivers⟩, hrest⟩ := h.sent id hid
    refine ⟨hlock id hl, ⟨e, htrace he, hdelivers⟩, ?_⟩
    rcases hrest with ⟨r, hr, rfl⟩ | hmark
    · by_cases heq : r.outboxId = row.outboxId
      · refine .inr ?_
        rw [heq, hm (heq ▸ hid), ← hv]
        exact List.mem_cons_self
      · exact .inl ⟨r, List.mem_filter.mpr ⟨hr, by simpa using heq⟩, rfl⟩
    · exact .inr (List.mem_cons_of_mem _ hmark)

/-- What an update of a held row leads to. -/
theorem BatchState.Describes.mark (h : s.Describes w t) (hw : w.Sound) {c : Choice} {id : UUID}
    {m : Mark} {set : Tx → OutboxEvent → OutboxEvent} {r : Except Exn Unit} {w₁ : World}
    (he : w.onDb (w.db.execMark t c id m set) = some (r, w₁))
    (hset : ∀ tx r, (set tx r).outboxId = r.outboxId)
    (hp : s.phase = .failed ∨ s.phase = .delivering ∧ ∃ row ∈ s.held, row.outboxId = id ∧
      (row.outboxId ∈ s.sent → m = .dispatched))
    (hw' : w'.db = w₁.db) (htrace : w.trace ⊆ w'.trace) :
    (match r with
      | .ok _ => s.marked id
      | .error _ => s.fail).Describes w' t := by
  obtain ⟨db', hdb, rfl⟩ := onDb_eq_some he
  have hdb' : w'.db = db' := hw'
  rcases hp with hphase | ⟨hphase, row, hrow, rfl, hm⟩
  · obtain ⟨tx, htx, hab, hsent⟩ := h.failed hphase
    obtain ⟨tx', htx', ⟨e, rfl, -, rfl⟩ | ⟨hab', -⟩ | ⟨-, hab', -⟩⟩ :=
      Database.execMark_eq_some hdb
    · refine ⟨{ tx' with aborted := true }, ?_, rfl, fun id hid => ?_⟩
      · rw [hdb']
        exact Database.setSession_sessions_self _
      · rw [hdb']
        exact hsent id hid
    · obtain rfl : tx = tx' := Option.some.inj (htx.symm.trans htx')
      simp [hab] at hab'
    · obtain rfl : tx = tx' := Option.some.inj (htx.symm.trans htx')
      simp [hab] at hab'
  · obtain ⟨tx, hb⟩ := h.delivering hphase
    obtain ⟨tx', htx', ⟨e, rfl, -, rfl⟩ | ⟨-, -, -, hnone⟩ | ⟨r', -, rfl, -, hv, rfl⟩⟩ :=
      Database.execMark_eq_some hdb
    · obtain rfl : tx = tx' := Option.some.inj (hb.session.symm.trans htx')
      exact hb.abort hdb'
    · exact absurd hnone (Database.version_isSome (hb.held row hrow).stored)
    · obtain rfl : tx = tx' := Option.some.inj (hb.session.symm.trans htx')
      obtain rfl := hb.version hw hrow htx' hv
      exact hb.wrote hphase (hset _ _) hm hdb' htrace

/-- A savepoint opens, or the transaction has failed. -/
theorem BatchState.Describes.savepoint (h : s.Describes w t) (hs : s.InBatch) {c : Choice}
    {r : Except Exn Unit} {db' : Database} (hdb : w.db.execSavepoint t c = some (r, db'))
    (hw' : w'.db = db') (htrace : w.trace ⊆ w'.trace) :
    (s.move .savepoint r).Describes w' t := by
  obtain ⟨tx, hb⟩ := h.inBatch hs
  obtain ⟨tx', htx', ⟨e, rfl, -, rfl⟩ | ⟨rfl, rfl⟩⟩ := Database.execSavepoint_eq_some hdb
  · obtain rfl : tx = tx' := Option.some.inj (hb.session.symm.trans htx')
    exact hb.abort hw'
  · obtain rfl : tx = tx' := Option.some.inj (hb.session.symm.trans htx')
    have hsub : ∀ ch ∈ tx.changes :: tx.changes :: tx.saved, ch ∈ tx.changes :: tx.saved := by
      intro ch hch
      rcases List.mem_cons.mp hch with rfl | hch
      · exact List.mem_cons_self
      · exact hch
    refine ⟨{ tx with saved := tx.changes :: tx.saved }, ?_, ?_, ?_, ?_⟩
    · rw [hw']
      exact Database.setSession_sessions_self _
    · exact fun ch hch => hb.inserts ch (hsub ch hch)
    · intro row hrow
      have hheld := hb.held row hrow
      refine hheld.mono ?_ ?_ htrace rfl fun ch hch => hheld.untouched ch (hsub ch hch)
      · rw [hw']
        exact id
      · rw [hw']
        exact hheld.stored
    · intro id hid
      obtain ⟨hl, ⟨e, he, hdelivers⟩, hrest⟩ := hb.sent id hid
      refine ⟨?_, ⟨e, htrace he, hdelivers⟩, hrest⟩
      rw [hw']
      exact hl

theorem BatchState.Describes.release (h : s.Describes w t) (hs : s.phase = .delivering) {c : Choice}
    {r : Except Exn Unit} {db' : Database} (hdb : w.db.execRelease t c = some (r, db'))
    (hw' : w'.db = db') (htrace : w.trace ⊆ w'.trace) :
    (s.move .release r).Describes w' t := by
  obtain ⟨tx, hb⟩ := h.delivering hs
  obtain ⟨tx', htx', ⟨e, rfl, -, rfl⟩ | ⟨rfl, rfl⟩⟩ := Database.execRelease_eq_some hdb
  · obtain rfl : tx = tx' := Option.some.inj (hb.session.symm.trans htx')
    exact hb.abort hw'
  · obtain rfl : tx = tx' := Option.some.inj (hb.session.symm.trans htx')
    have hsub : ∀ ch ∈ tx.changes :: tx.saved.tail, ch ∈ tx.changes :: tx.saved := by
      intro ch hch
      rcases List.mem_cons.mp hch with rfl | hch
      · exact List.mem_cons_self
      · exact List.mem_cons_of_mem _ (List.mem_of_mem_tail hch)
    unfold BatchState.Describes
    simp only [BatchState.move, hs]
    refine ⟨{ tx with saved := tx.saved.tail }, ?_, ?_, ?_, ?_⟩
    · rw [hw']
      exact Database.setSession_sessions_self _
    · exact fun ch hch => hb.inserts ch (hsub ch hch)
    · intro row hrow
      have hheld := hb.held row hrow
      refine hheld.mono ?_ ?_ htrace rfl fun ch hch => hheld.untouched ch (hsub ch hch)
      · rw [hw']
        exact id
      · rw [hw']
        exact hheld.stored
    · intro id hid
      obtain ⟨hl, ⟨e, he, hdelivers⟩, hrest⟩ := hb.sent id hid
      refine ⟨?_, ⟨e, htrace he, hdelivers⟩, hrest⟩
      rw [hw']
      exact hl

/-- Back to the savepoint: the locks stay, and the batch cannot commit any more. -/
theorem BatchState.Describes.rollbackTo (h : s.Describes w t) {c : Choice}
    {r : Except Exn Unit} {db' : Database} (hdb : w.db.execRollbackTo t c = some (r, db'))
    (hw' : w'.db = db') : (s.move .rollbackTo r).Describes w' t := by
  have hmove : s.move .rollbackTo r = { s with phase := .doomed } := by cases r <;> rfl
  rw [hmove]
  obtain ⟨tx, htx, hend⟩ := Database.execRollbackTo_eq_some hdb
  have hsession : ∃ tx', db'.sessions t = some tx' := by
    rcases hend with ⟨e, -, -, rfl⟩ | ⟨ch, saved, -, -, rfl⟩
    · exact ⟨_, Database.setSession_sessions_self _⟩
    · exact ⟨_, Database.setSession_sessions_self _⟩
  have hlocks : db'.rowLock = w.db.rowLock := by
    rcases hend with ⟨e, -, -, rfl⟩ | ⟨ch, saved, -, -, rfl⟩ <;> rfl
  obtain ⟨tx', htx'⟩ := hsession
  refine ⟨tx', hw' ▸ htx', fun id hid => ?_⟩
  rw [hw', hlocks]
  exact h.sent_locked hid

theorem BatchState.Describes.lockDue (h : s.Describes w t) (hs : s.phase = .selecting) {c : Choice}
    {id : UUID} {r : Except Exn (Option OutboxEvent)} {db' : Database}
    (hdb : w.db.execLockDue t c id = some (r, db')) (hw' : w'.db = db')
    (htrace : w'.trace = w.trace ++ [⟨t, .lockDue id, r⟩]) :
    (s.move (.lockDue id) r).Describes w' t := by
  obtain ⟨tx, hb, hnil, hwrites⟩ := h.selecting hs
  have hsub : w.trace ⊆ w'.trace := htrace ▸ List.subset_append_left _ _
  obtain ⟨tx', htx', ⟨e, rfl, -, rfl⟩ | ⟨rfl, rfl⟩ | ⟨row, -, rfl, hfree, hv, hdue, rfl⟩⟩ :=
    Database.execLockDue_eq_some hdb
  · obtain rfl : tx = tx' := Option.some.inj (hb.session.symm.trans htx')
    exact hb.abort hw'
  · refine h.mono ?_ ?_ ?_ hsub
    · rw [hw']
    · rw [hw']
      exact fun _ hl => hl
    · rw [hw']
      exact fun _ hr _ => hr
  · obtain rfl : tx = tx' := Option.some.inj (hb.session.symm.trans htx')
    obtain ⟨hid, hmem⟩ := Database.version_eq_some hv
    have hstored : row ∈ w.db.outbox := by
      simpa [hwrites tx.changes List.mem_cons_self, hb.inserts tx.changes List.mem_cons_self]
        using hmem
    have hlock : ∀ id', w.db.rowLock id' = some t → w'.db.rowLock id' = some t := by
      intro id' hl
      rw [hw']
      change Function.update w.db.rowLock id (some t) id' = some t
      by_cases heq : id' = id
      · rw [heq, Function.update_self]
      · rw [Function.update_of_ne heq]
        exact hl
    have hout : w'.db.outbox = w.db.outbox := by rw [hw']; rfl
    have hbatch : s.Batching w' t tx := by
      refine hb.mono ?_ hlock ?_ hsub
      · rw [hw']
        exact htx'
      · rw [hout]
        exact fun _ hr _ => hr
    change (s.hold [row]).Describes w' t
    unfold BatchState.Describes
    simp only [BatchState.hold, hs]
    refine ⟨tx, ⟨hbatch.session, hbatch.inserts, ?_, ?_⟩, hnil, hwrites⟩
    · intro r hr
      rcases List.mem_append.mp hr with hr | hr
      · exact hbatch.held r hr
      · obtain rfl := List.mem_singleton.mp hr
        refine ⟨?_, hout ▸ hstored, hdue, ?_, ?_⟩
        · rw [hw', hid]
          exact Function.update_self ..
        · rintro ch hch ⟨v, hv, -⟩
          simp [hwrites ch hch] at hv
        · rw [htrace, hid]
          exact List.mem_append_right _ List.mem_cons_self
    · intro id' hid'
      simp [hnil] at hid'

theorem BatchState.Describes.publish (h : s.Describes w t) {ex : Exchange} {m : Message}
    {key : String} (hp : s.permits P (.publish ex m key)) {r : Except Exn Unit}
    (hw' : w'.db = w.db) (htrace : w'.trace = w.trace ++ [⟨t, .publish ex m key, r⟩]) :
    (s.move (.publish ex m key) r).Describes w' t := by
  have hsub : w.trace ⊆ w'.trace := htrace ▸ List.subset_append_left _ _
  have hsame : s.Describes w' t := by
    refine h.mono ?_ ?_ ?_ hsub
    · rw [hw']
    · rw [hw']
      exact fun _ hl => hl
    · rw [hw']
      exact fun _ hr _ => hr
  rcases r with e | _
  · exact hsame
  rcases hp with hsource | ⟨hphase, row, ⟨hheld, -⟩, hmessage⟩
  · have hmove : s.move (.publish ex m key) (.ok ()) = s := by simp [BatchState.move, hsource]
    rw [hmove]
    exact hsame
  · have hsource := hmessage.source
    obtain ⟨tx, hb⟩ := hsame.delivering hphase
    unfold BatchState.Describes
    simp only [BatchState.move, hphase]
    refine ⟨tx, hb.session, hb.inserts, hb.held, fun id hid => ?_⟩
    rcases List.mem_append.mp hid with hid | hid
    · have hid : row.outboxId = id := by simpa [hsource, eq_comm] using hid
      refine ⟨hid ▸ (hb.held row hheld).locked, ?_, .inl ⟨row, hheld, hid⟩⟩
      refine ⟨⟨t, .publish ex m key, .ok ()⟩, ?_, ?_⟩
      · rw [htrace]
        exact List.mem_append_right _ List.mem_cons_self
      · simp [Event.delivers, hsource, hid]
    · exact hb.sent id hid

/-- A statement of a scheduling transaction. -/
theorem BatchState.Describes.statement (h : s.Describes w t) (hs : s.phase = .scheduling)
    (hsession : ∃ tx, w'.db.sessions t = some tx) : s.Describes w' t := by
  unfold BatchState.Describes at h ⊢
  rw [hs] at h ⊢
  exact ⟨hsession, h.2⟩

/-- **The state of a task keeps describing its session.** -/
theorem BatchState.Describes.exec (h : s.Describes w t) (hw : w.Sound) {op : Op} {c : Choice}
    {r : Except Exn op.Ret} (hp : s.permits P op) (he : VcsGateway.exec P t op c w = some (r, w')) :
    (s.move op r).Describes w' t := by
  obtain ⟨w₁, h₁, rfl⟩ := exec_eq_some he
  have hframe := execOp_frame h₁
  have htrace : (w₁.record ⟨t, op, r⟩).trace = w.trace ++ [⟨t, op, r⟩] := by
    simp [World.record, hframe.trace]
  have hsub : w.trace ⊆ (w₁.record ⟨t, op, r⟩).trace := htrace ▸ List.subset_append_left _ _
  -- the operations that leave the database alone
  have hsame : (w₁.record ⟨t, op, r⟩).db = w.db → s.Describes (w₁.record ⟨t, op, r⟩) t := by
    intro hdb
    refine h.mono ?_ ?_ ?_ hsub
    · rw [hdb]
    · rw [hdb]
      exact fun _ hl => hl
    · rw [hdb]
      exact fun _ hr _ => hr
  have hquiet : op.quiet = true → s.Describes (w₁.record ⟨t, op, r⟩) t :=
    fun hq => hsame (hframe.db hq)
  have hclosed : ∀ db' : Database, (w₁.record ⟨t, op, r⟩).db = db' → db'.sessions t = none →
      s.rest.Describes (w₁.record ⟨t, op, r⟩) t := by
    rintro db' rfl hnone
    exact s.describes_rest hnone
  -- a failed statement of a scheduling transaction
  have hstatement : ∀ (tx : Tx) (db' : Database), s.phase = .scheduling →
      (w₁.record ⟨t, op, r⟩).db = db' → db'.sessions t = some tx →
      s.Describes (w₁.record ⟨t, op, r⟩) t := by
    rintro tx db' hphase rfl htx
    exact h.statement hphase ⟨tx, htx⟩
  cases op with
  | begin =>
    obtain ⟨db', hdb, rfl⟩ := onDb_eq_some h₁
    obtain ⟨hnone, ⟨e, rfl, -, hdb'⟩ | ⟨rfl, hdb'⟩⟩ := Database.execBegin_eq_some hdb
    · exact hsame hdb'
    · have hsession : (({ w with db := db' } : World).record
          ⟨t, .begin, .ok ()⟩).db.sessions t = some { now := w.clock } :=
        hdb' ▸ Database.setSession_sessions_self _
      unfold BatchState.Describes
      by_cases hpub : s.isPublisher = true
      · simp only [BatchState.move, hpub, if_true]
        refine ⟨_, ⟨hsession, ?_, by simp, by simp⟩, trivial, ?_⟩
        · intro ch hch
          obtain rfl : ch = {} := by simpa using hch
          rfl
        · intro ch hch
          obtain rfl : ch = {} := by simpa using hch
          rfl
      · simp only [BatchState.move, hpub]
        exact ⟨⟨_, hsession⟩, trivial, trivial⟩
  | commit =>
    obtain ⟨db', hdb, rfl⟩ := onDb_eq_some h₁
    have hrest := hclosed db' rfl
    have hmove : s.move .commit r = s.rest := by cases r <;> rfl
    rw [hmove]
    obtain ⟨tx, -, ⟨-, rfl⟩ | ⟨-, rfl⟩ | ⟨e, -, -, rfl⟩⟩ := Database.execCommit_eq_some hdb
    · exact hrest (Database.settle_sessions_self tx)
    · exact hrest (Database.settle_sessions_self tx)
    · exact hrest Database.close_sessions_self
  | rollback =>
    obtain ⟨db', hdb, rfl⟩ := onDb_eq_some h₁
    have hmove : s.move .rollback r = s.rest := by cases r <;> rfl
    rw [hmove]
    obtain ⟨tx, -, rfl, -⟩ := Database.execRollback_eq_some hdb
    exact hclosed _ rfl Database.close_sessions_self
  | savepoint =>
    obtain ⟨db', hdb, rfl⟩ := onDb_eq_some h₁
    exact h.savepoint hp hdb rfl hsub
  | release =>
    obtain ⟨db', hdb, rfl⟩ := onDb_eq_some h₁
    exact h.release hp hdb rfl hsub
  | rollbackTo =>
    obtain ⟨db', hdb, rfl⟩ := onDb_eq_some h₁
    exact h.rollbackTo hdb rfl
  | insertInbound e =>
    obtain ⟨db', hdb, rfl⟩ := onDb_eq_some h₁
    have hmove : s.move (.insertInbound e) r = s := by cases r <;> rfl
    rw [hmove]
    obtain ⟨tx, -, ⟨exc, -, rfl, -⟩ | ⟨row, -, -, -, -, -, rfl⟩⟩ :=
      Database.execInsertInbound_eq_some hdb
    · exact hstatement _ _ hp rfl (Database.setSession_sessions_self _)
    · exact hstatement _ _ hp rfl (Database.setSession_sessions_self _)
  | insertEvent e =>
    obtain ⟨db', hdb, hdb', -⟩ := execOp_insertEvent_eq_some h₁
    have hmove : s.move (.insertEvent e) r = s := by cases r <;> rfl
    rw [hmove]
    obtain ⟨tx, -, ⟨exc, -, -, rfl⟩ | ⟨u, row, -, -, -, -, rfl⟩⟩ :=
      Database.execInsertEvent_eq_some hdb
    · exact hstatement _ _ hp hdb' (Database.setSession_sessions_self _)
    · exact hstatement _ _ hp hdb' (Database.setSession_sessions_self _)
  | cancelScan k v =>
    obtain ⟨db', hdb, rfl⟩ := onDb_eq_some h₁
    have hmove : s.move (.cancelScan k v) r = s := by cases r <;> rfl
    rw [hmove]
    obtain ⟨tx, htx, ⟨exc, -, -, rfl⟩ | ⟨rfl, -⟩⟩ := Database.execCancelScan_eq_some hdb
    · exact hstatement _ _ hp rfl (Database.setSession_sessions_self _)
    · exact hstatement _ _ hp rfl htx
  | cancelRow id k v reason =>
    obtain ⟨db', hdb, rfl⟩ := onDb_eq_some h₁
    have hmove : s.move (.cancelRow id k v reason) r = s := by cases r <;> rfl
    rw [hmove]
    obtain ⟨tx, htx, ⟨exc, -, -, rfl⟩ | ⟨-, -, rfl⟩ | ⟨row, -, -, -, -, -, rfl⟩⟩ :=
      Database.execCancelRow_eq_some hdb
    · exact hstatement _ _ hp rfl (Database.setSession_sessions_self _)
    · exact hstatement _ _ hp rfl htx
    · exact hstatement _ _ hp rfl (Database.setSession_sessions_self _)
  | dueScan =>
    obtain ⟨db', hdb, rfl⟩ := onDb_eq_some h₁
    obtain ⟨tx, hb, -⟩ := h.selecting hp
    obtain ⟨tx', htx', ⟨exc, rfl, -, hdb'⟩ | ⟨hdb', rfl⟩⟩ := Database.execDueScan_eq_some hdb
    · obtain rfl : tx = tx' := Option.some.inj (hb.session.symm.trans htx')
      exact hb.abort hdb'
    · exact hsame hdb'
  | lockDue id =>
    obtain ⟨db', hdb, rfl⟩ := onDb_eq_some h₁
    exact h.lockDue hp hdb rfl htrace
  | markDispatched id =>
    obtain ⟨hphase, row, hrow, hid, -⟩ := hp
    have hheld : s.phase = .failed ∨ s.phase = .delivering ∧ ∃ row ∈ s.held, row.outboxId = id ∧
        (row.outboxId ∈ s.sent → Mark.dispatched = .dispatched) :=
      .inr ⟨hphase, row, hrow, hid, fun _ => rfl⟩
    cases r <;> exact h.mark hw h₁ (fun _ _ => rfl) hheld rfl hsub
  | markFailed id msg =>
    have hheld : s.phase = .failed ∨ s.phase = .delivering ∧ ∃ row ∈ s.held, row.outboxId = id ∧
        (row.outboxId ∈ s.sent → Mark.failed = .dispatched) := by
      refine hp.imp_right ?_
      rintro ⟨hphase, row, hrow, hid, -⟩
      exact ⟨hphase, row, hrow.1, hid, fun hsent => absurd hsent hrow.2⟩
    cases r <;> exact h.mark hw h₁ (fun _ _ => rfl) hheld rfl hsub
  | markRetry id msg at_ =>
    have hheld : s.phase = .failed ∨ s.phase = .delivering ∧ ∃ row ∈ s.held, row.outboxId = id ∧
        (row.outboxId ∈ s.sent → Mark.retry = .dispatched) := by
      refine hp.imp_right ?_
      rintro ⟨hphase, row, hrow, hid, -⟩
      exact ⟨hphase, row, hrow.1, hid, fun hsent => absurd hsent hrow.2⟩
    cases r <;> exact h.mark hw h₁ (fun _ _ => rfl) hheld rfl hsub
  | publish ex m key => exact h.publish hp (hframe.db rfl) htrace
  | _ => cases r <;> exact hquiet rfl

end VcsGateway
