import VcsGateway.Storage

/-!
# The life of an outbox row

Which updates a row of `outbox_event` may undergo, what they add up to, and the invariant
of the database that every row has lived such a life.
-/

namespace VcsGateway

/-! ### One row -/

def Mark.status : Mark → OutboxStatus
  | .dispatched => .dispatched
  | .failed => .failed
  | .retry => .scheduled
  | .cancelled => .cancelled

/-- The attempt to publish the row failed. -/
def Mark.isFailure : Mark → Bool
  | .failed | .retry => true
  | .dispatched | .cancelled => false

/-- The updates of a SCHEDULED row `r` that keep to its retry budget. -/
inductive Legal (r : OutboxEvent) : OutboxEvent → Mark → Prop
  | dispatched (now : Time) : Legal r (r.markDispatched now) .dispatched
  | failed (msg : String) : r.maxRetries ≤ r.retryCount + 1 → Legal r (r.markFailed msg) .failed
  | retry (msg : String) (at_ : Time) : r.retryCount + 1 < r.maxRetries →
      Legal r (r.markRetry msg at_) .retry
  | cancelled (reason : String) : Legal r (r.cancel reason) .cancelled

/-- After the updates `marks`, oldest first, the row is `r`. -/
inductive Lifecycle : List Mark → OutboxEvent → Prop
  | scheduled {r : OutboxEvent} : r.status = .scheduled → r.retryCount = 0 → r.maxRetries = 3 →
      r.cancelReason = none → r.nextRetryAt = none → r.publishedAt = none → Lifecycle [] r
  | mark {marks : List Mark} {r v : OutboxEvent} {m : Mark} : Lifecycle marks r →
      r.status = .scheduled → Legal r v m → Lifecycle (marks ++ [m]) v

/-- The statuses that a row has had. -/
def statusHistory (marks : List Mark) : List OutboxStatus := .scheduled :: marks.map Mark.status

/-- What the life of a row guarantees. -/
structure OutboxEvent.Lived (r : OutboxEvent) (marks : List Mark) : Prop where
  /-- SCHEDULED for a while, then at most one final status. -/
  history : ∃ n, ∃ last : Option OutboxStatus,
    statusHistory marks = List.replicate (n + 1) .scheduled ++ last.toList ∧
    last ≠ some .scheduled ∧ r.status = last.getD .scheduled
  maxRetries : r.maxRetries = 3
  retryCount : r.retryCount = marks.countP Mark.isFailure
  budget : r.status ≠ .failed → r.retryCount < r.maxRetries
  failed : r.status = .failed ↔ r.retryCount = r.maxRetries
  failedFinal : r.status = .failed → r.nextRetryAt = none
  published : r.publishedAt.isSome = true ↔ r.status = .dispatched
  cancelled : r.cancelReason.isSome = true ↔ r.status = .cancelled
  rescheduled : r.status = .scheduled → 0 < r.retryCount → r.nextRetryAt = some r.dispatchAt

theorem OutboxEvent.Lived.bound {r : OutboxEvent} {marks : List Mark} (h : r.Lived marks) :
    marks.countP Mark.isFailure ≤ r.maxRetries := by
  rw [← h.retryCount]
  by_cases hf : r.status = .failed
  · exact Nat.le_of_eq (h.failed.mp hf)
  · exact Nat.le_of_lt (h.budget hf)

theorem OutboxEvent.Lived.mark {r v : OutboxEvent} {marks : List Mark} {m : Mark}
    (h : r.Lived marks) (hs : r.status = .scheduled) (hm : Legal r v m) :
    v.Lived (marks ++ [m]) := by
  obtain ⟨n, last, hhist, hlast, hstatus⟩ := h.history
  have hlast : last = none := by
    rcases last with _ | s
    · rfl
    · exact absurd (by rw [← hs, hstatus]; rfl) hlast
  have hbudget := h.budget (by simp [hs])
  have hpub : r.publishedAt = none := by
    have hiff := h.published
    rw [hs] at hiff
    simpa using hiff
  have hcan : r.cancelReason = none := by
    have hiff := h.cancelled
    rw [hs] at hiff
    simpa using hiff
  subst hlast
  have hhist' : ∀ s, statusHistory (marks ++ [m]) = List.replicate (n + 1) .scheduled ++ [s] ↔
      m.status = s := by
    intro s
    have hsplit : statusHistory (marks ++ [m]) = statusHistory marks ++ [m.status] := by
      simp [statusHistory]
    rw [hsplit, hhist]
    simp
  have hcount : (marks ++ [m]).countP Mark.isFailure =
      r.retryCount + if m.isFailure then 1 else 0 := by
    rw [List.countP_append, ← h.retryCount, List.countP_singleton]
  cases hm with
  | dispatched now =>
    refine {
      history := ⟨n, some .dispatched, (hhist' _).mpr rfl, by decide, rfl⟩
      maxRetries := h.maxRetries
      retryCount := hcount.symm
      budget := fun _ => hbudget
      failed := ?_
      failedFinal := by simp [OutboxEvent.markDispatched]
      published := by simp [OutboxEvent.markDispatched]
      cancelled := by simp [OutboxEvent.markDispatched, hcan]
      rescheduled := by simp [OutboxEvent.markDispatched] }
    have hne : r.retryCount ≠ r.maxRetries := by omega
    simpa [OutboxEvent.markDispatched] using hne
  | cancelled reason =>
    refine {
      history := ⟨n, some .cancelled, (hhist' _).mpr rfl, by decide, rfl⟩
      maxRetries := h.maxRetries
      retryCount := hcount.symm
      budget := fun _ => hbudget
      failed := ?_
      failedFinal := by simp [OutboxEvent.cancel]
      published := by simp [OutboxEvent.cancel, hpub]
      cancelled := by simp [OutboxEvent.cancel]
      rescheduled := by simp [OutboxEvent.cancel] }
    have hne : r.retryCount ≠ r.maxRetries := by omega
    simpa [OutboxEvent.cancel] using hne
  | failed msg hlimit =>
    refine {
      history := ⟨n, some .failed, (hhist' _).mpr rfl, by decide, rfl⟩
      maxRetries := h.maxRetries
      retryCount := hcount.symm
      budget := by simp [OutboxEvent.markFailed]
      failed := ?_
      failedFinal := fun _ => rfl
      published := by simp [OutboxEvent.markFailed, hpub]
      cancelled := by simp [OutboxEvent.markFailed, hcan]
      rescheduled := by simp [OutboxEvent.markFailed] }
    have heq : r.retryCount + 1 = r.maxRetries := by omega
    simpa [OutboxEvent.markFailed] using heq
  | retry msg at_ hlimit =>
    have hrep : statusHistory (marks ++ [Mark.retry]) =
        List.replicate (n + 1 + 1) .scheduled ++ (none : Option OutboxStatus).toList := by
      rw [(hhist' .scheduled).mpr rfl, List.replicate_succ' (n := n + 1)]
      simp
    refine {
      history := ⟨n + 1, none, hrep, by decide, hs⟩
      maxRetries := h.maxRetries
      retryCount := hcount.symm
      budget := fun _ => hlimit
      failed := ?_
      failedFinal := fun hf => by simp [OutboxEvent.markRetry, hs] at hf
      published := by simp [OutboxEvent.markRetry, hpub, hs]
      cancelled := by simp [OutboxEvent.markRetry, hcan, hs]
      rescheduled := fun _ _ => rfl }
    have hne : r.retryCount + 1 ≠ r.maxRetries := by omega
    simpa [OutboxEvent.markRetry, hs] using hne

/-- A lawful life has the guarantees. -/
theorem Lifecycle.lived {marks : List Mark} {r : OutboxEvent} (h : Lifecycle marks r) :
    r.Lived marks := by
  induction h with
  | mark _ hs hm ih => exact ih.mark hs hm
  | @scheduled r hs hcount hmax hcancel hnext hpub =>
    refine {
      history := ⟨0, none, rfl, by decide, hs⟩
      maxRetries := hmax
      retryCount := hcount
      budget := fun _ => by omega
      failed := ?_
      failedFinal := fun _ => hnext
      published := by simp [hpub, hs]
      cancelled := by simp [hcancel, hs]
      rescheduled := fun _ hpos => by omega }
    have hne : r.retryCount ≠ r.maxRetries := by omega
    simpa [hs] using hne

/-- A DISPATCHED row was marked so. -/
theorem Lifecycle.dispatched_mem {marks : List Mark} {r : OutboxEvent} (h : Lifecycle marks r)
    (hs : r.status = .dispatched) : Mark.dispatched ∈ marks := by
  cases h with
  | scheduled hs' => simp [hs] at hs'
  | @mark marks r' v m _ hs' hm =>
    cases hm with
    | dispatched now => simp
    | failed msg _ => simp [OutboxEvent.markFailed] at hs
    | retry msg at_ _ => simp [OutboxEvent.markRetry, hs'] at hs
    | cancelled reason => simp [OutboxEvent.cancel] at hs

/-- A row that was marked DISPATCHED is no longer SCHEDULED. -/
theorem Lifecycle.not_scheduled {marks : List Mark} {r : OutboxEvent} (h : Lifecycle marks r)
    (hm : Mark.dispatched ∈ marks) : r.status ≠ .scheduled := by
  obtain ⟨n, last, hhist, hlast, hstatus⟩ := h.lived.history
  have hmem : OutboxStatus.dispatched ∈ statusHistory marks :=
    List.mem_cons_of_mem _ (List.mem_map_of_mem (f := Mark.status) hm)
  rw [hhist, List.mem_append] at hmem
  rcases hmem with hmem | hmem
  · simp at hmem
  · rw [Option.mem_toList] at hmem
    rw [hstatus, hmem]
    decide

/-! ### The tables -/

namespace Changes

/-- The updates of a row, oldest first. -/
def marksOf (ch : Changes) (id : UUID) : List Mark :=
  ((ch.marks.filter fun m => m.1 = id).map (·.2)).reverse

variable {ch : Changes} {id : UUID}

theorem marksOf_eq_nil (h : ∀ m ∈ ch.marks, m.1 ≠ id) : ch.marksOf id = [] := by
  have hnone : (ch.marks.filter fun m => m.1 = id) = [] :=
    List.filter_eq_nil_iff.mpr fun m hm => by simpa using h m hm
  simp [marksOf, hnone]

theorem marksOf_addWrite_self (tx : Tx) (v : OutboxEvent) (m : Mark) :
    (tx.addWrite v m).changes.marksOf v.outboxId = tx.changes.marksOf v.outboxId ++ [m] := by
  simp [marksOf, Tx.addWrite]

theorem marksOf_addWrite_of_ne (tx : Tx) {v : OutboxEvent} (m : Mark) (h : v.outboxId ≠ id) :
    (tx.addWrite v m).changes.marksOf id = tx.changes.marksOf id := by
  simp [marksOf, Tx.addWrite, h]

/-- The transaction has updated the row. -/
def Touched (ch : Changes) (id : UUID) : Prop := ∃ v ∈ ch.writes, v.outboxId = id

theorem latest_of_not_touched {r : OutboxEvent} (h : ¬ch.Touched r.outboxId) :
    ch.latest r = r := by
  have hnone : (ch.writes.find? fun v => v.outboxId = r.outboxId) = none :=
    List.find?_eq_none.mpr fun v hv heq => h ⟨v, hv, by simpa using heq⟩
  rw [latest, hnone]
  rfl

theorem latest_addWrite_self (tx : Tx) {v r : OutboxEvent} (m : Mark)
    (h : v.outboxId = r.outboxId) : (tx.addWrite v m).changes.latest r = v := by
  simp [latest, Tx.addWrite, h]

theorem latest_addWrite_of_ne (tx : Tx) {v r : OutboxEvent} (m : Mark)
    (h : v.outboxId ≠ r.outboxId) : (tx.addWrite v m).changes.latest r = tx.changes.latest r := by
  simp [latest, Tx.addWrite, h]

end Changes

namespace Database

/-- The committed updates of a row, oldest first. -/
def history (db : Database) (id : UUID) : List Mark :=
  db.wal.flatMap fun commit => commit.changes.marksOf id

/-- The rows as the open transaction `t` with the changes `ch` leaves them. -/
structure Tracked (db : Database) (t : Nat) (ch : Changes) : Prop where
  created : ∀ b ∈ ch.inserts, Lifecycle [] b ∧ db.history b.outboxId = []
  paired : ch.marks.map (·.1) = ch.writes.map (·.outboxId)
  touched : ∀ b ∈ db.outbox ++ ch.inserts, ch.Touched b.outboxId →
    Lifecycle (db.history b.outboxId ++ ch.marksOf b.outboxId) (ch.latest b)

/-- Every row has lived lawfully. -/
structure Lifecycles (db : Database) (used : List UUID) : Prop where
  rows : ∀ r ∈ db.outbox, Lifecycle (db.history r.outboxId) r
  marked : ∀ commit ∈ db.wal, ∀ m ∈ commit.changes.marks, m.1 ∈ used
  pending : ∀ t tx, db.sessions t = some tx → ∀ ch ∈ tx.changes :: tx.saved, db.Tracked t ch

variable {db db' : Database} {t t' : Nat} {ch : Changes} {used used' : List UUID}

theorem Lifecycles.initial (tenants : UUID → Option Tenant) (whitelist : List VcsEventWhitelist) :
    Lifecycles { tenants, whitelist } [] where
  rows := by simp
  marked := by simp
  pending := by simp

theorem Tracked.empty : db.Tracked t {} where
  created := by simp
  paired := rfl
  touched := by simp [Changes.Touched]

theorem Tracked.not_touched (h : db.Tracked t ch) {id : UUID} (hid : ¬ch.Touched id) :
    ch.marksOf id = [] := by
  refine Changes.marksOf_eq_nil fun m hm heq => hid ?_
  have hmem : m.1 ∈ ch.writes.map (·.outboxId) := h.paired ▸ List.mem_map_of_mem hm
  obtain ⟨v, hv, hvm⟩ := List.mem_map.mp hmem
  exact ⟨v, hv, hvm.trans heq⟩

/-- Every row that the transaction sees has lived lawfully. -/
theorem Lifecycles.latest (hl : db.Lifecycles used) (h : db.Tracked t ch) {b : OutboxEvent}
    (hb : b ∈ db.outbox ++ ch.inserts) :
    Lifecycle (db.history b.outboxId ++ ch.marksOf b.outboxId) (ch.latest b) := by
  by_cases htouched : ch.Touched b.outboxId
  · exact h.touched b hb htouched
  · rw [h.not_touched htouched, List.append_nil, Changes.latest_of_not_touched htouched]
    rcases List.mem_append.mp hb with hb | hb
    · exact hl.rows b hb
    · obtain ⟨hlife, hnil⟩ := h.created b hb
      rw [hnil]
      exact hlife

/-- The version that a statement finds is the latest one of a row. -/
theorem Pending.version_latest (h : db.Pending t ch) (hs : db.Storage used) {id : UUID}
    {r : OutboxEvent} (hv : ch.version db.outbox id = some r) :
    ∃ b ∈ db.outbox ++ ch.inserts, b.outboxId = id ∧ ch.latest b = r := by
  obtain ⟨b, hb, hrb⟩ := h.version_base hv
  have hid : b.outboxId = id :=
    (OutboxEvent.outboxId_eq_of_core hrb).symm.trans (version_eq_some hv).1
  refine ⟨b, hb, hid, ?_⟩
  unfold Changes.version at hv
  rw [List.append_assoc, List.find?_append] at hv
  unfold Changes.latest
  rw [hid]
  rcases hf : ch.writes.find? fun v => v.outboxId = id with _ | v
  · rw [hf, Option.none_or] at hv
    have hr : r ∈ db.outbox ++ ch.inserts := by
      have hmem := List.mem_of_find?_eq_some hv
      simp only [List.mem_append] at hmem ⊢
      exact hmem.symm
    rw [hf, Option.getD_none]
    exact List.inj_on_of_nodup_map (h.ids_nodup hs) hb hr
      (OutboxEvent.outboxId_eq_of_core hrb).symm
  · rw [hf, Option.some_or] at hv
    rw [hf, Option.getD_some]
    exact Option.some.inj hv

theorem Tracked.congr (h : db.Tracked t ch) (hout : db'.outbox = db.outbox)
    (hwal : db'.wal = db.wal) : db'.Tracked t ch := by
  have hhist : ∀ id, db'.history id = db.history id := fun id => by rw [history, hwal]; rfl
  refine ⟨?_, h.paired, ?_⟩
  · intro b hb
    rw [hhist]
    exact h.created b hb
  · intro b hb
    rw [hhist]
    exact h.touched b (hout ▸ hb)

/-- A step that commits nothing: only what `t` has pending is to be looked at. -/
theorem Lifecycles.congr (hl : db.Lifecycles used) (hsub : used ⊆ used')
    (hout : db'.outbox = db.outbox) (hwal : db'.wal = db.wal)
    (hothers : ∀ t' ≠ t, db'.sessions t' = db.sessions t')
    (hself : ∀ tx, db'.sessions t = some tx → ∀ ch ∈ tx.changes :: tx.saved, db.Tracked t ch) :
    db'.Lifecycles used' where
  rows r hr := by
    rw [history, hwal]
    exact hl.rows r (hout ▸ hr)
  marked commit hc m hm := hsub (hl.marked commit (hwal ▸ hc) m hm)
  pending t' tx htx ch hch := by
    by_cases heq : t' = t
    · subst heq
      exact (hself tx htx ch hch).congr hout hwal
    · exact (hl.pending t' tx (hothers t' heq ▸ htx) ch hch).congr hout hwal

/-- An update that is legal for the version it finds. -/
theorem Tracked.addWrite (hl : db.Lifecycles used) (hs : db.Storage used) {tx : Tx}
    (ht : db.sessions t = some tx) {r v : OutboxEvent} {m : Mark}
    (hid : v.outboxId = r.outboxId)
    (hv : tx.changes.version db.outbox v.outboxId = some r) (hstatus : r.status = .scheduled)
    (hlegal : Legal r v m) : db.Tracked t (tx.addWrite v m).changes := by
  have hp := hs.pending t tx ht tx.changes List.mem_cons_self
  have h := hl.pending t tx ht tx.changes List.mem_cons_self
  refine ⟨h.created, by simp [Tx.addWrite, h.paired], ?_⟩
  intro b hb htouched
  by_cases heq : v.outboxId = b.outboxId
  · obtain ⟨b', hb', hbid, hlatest⟩ := hp.version_latest hs hv
    obtain rfl : b' = b :=
      List.inj_on_of_nodup_map (hp.ids_nodup hs) hb' hb (hbid.trans heq)
    have hlife := hl.latest h hb
    rw [hlatest] at hlife
    rw [Changes.latest_addWrite_self tx m heq, ← heq, Changes.marksOf_addWrite_self, ← List.append_assoc]
    rw [← heq] at hlife
    exact hlife.mark hstatus hlegal
  · rw [Changes.latest_addWrite_of_ne tx m heq, Changes.marksOf_addWrite_of_ne tx m heq]
    refine h.touched b hb ?_
    obtain ⟨x, hx, hxid⟩ := htouched
    rcases List.mem_cons.mp hx with rfl | hx
    · exact absurd hxid heq
    · exact ⟨x, hx, hxid⟩

/-- Committing turns what the transaction saw into the table. -/
theorem Lifecycles.install (hl : db.Lifecycles used) (hs : db.Storage used) {tx : Tx}
    (ht : db.sessions t = some tx) : (db.install t tx).Lifecycles used := by
  have hp := hs.pending t tx ht tx.changes List.mem_cons_self
  have h := hl.pending t tx ht tx.changes List.mem_cons_self
  have hhist : ∀ id, (db.install t tx).history id = db.history id ++ tx.changes.marksOf id := by
    intro id
    simp [history, Database.install]
  -- what another transaction holds is not touched by this one
  have hother : ∀ t' ≠ t, ∀ id, db.rowLock id = some t' → ¬tx.changes.Touched id := by
    rintro t' hne id hlock ⟨v, hv, rfl⟩
    have hown := hp.writesLocked v hv
    rw [hlock] at hown
    exact hne (Option.some.inj hown)
  refine ⟨?_, ?_, ?_⟩
  · intro r hr
    obtain ⟨b, hb, rfl⟩ := List.mem_map.mp hr
    have hid : (tx.changes.latest b).outboxId = b.outboxId :=
      OutboxEvent.outboxId_eq_of_core (hp.latest_core hs hb)
    rw [hid, hhist]
    exact hl.latest h hb
  · intro commit hc m hm
    rcases List.mem_append.mp hc with hc | hc
    · exact hl.marked commit hc m hm
    · obtain rfl := List.mem_singleton.mp hc
      have hmem : m.1 ∈ tx.changes.writes.map (·.outboxId) := h.paired ▸ List.mem_map_of_mem hm
      obtain ⟨v, hv, hvm⟩ := List.mem_map.mp hmem
      exact hvm ▸ (hs.rowLock _ _ (hp.writesLocked v hv)).1
  · intro t' tx' htx' ch hch
    by_cases heq : t' = t
    · subst heq
      simp [Database.install] at htx'
    rw [show (db.install t tx).sessions t' = db.sessions t' from close_sessions_of_ne heq] at htx'
    have hp' := hs.pending t' tx' htx' ch hch
    have h' := hl.pending t' tx' htx' ch hch
    refine ⟨?_, h'.paired, ?_⟩
    · intro b hb
      obtain ⟨hlife, hnil⟩ := h'.created b hb
      refine ⟨hlife, ?_⟩
      rw [hhist, hnil, h.not_touched (hother t' heq _ (hp'.insertsLocked b hb))]
      rfl
    · rintro b hb ⟨v, hv, hvb⟩
      have hlock : db.rowLock b.outboxId = some t' := hvb ▸ hp'.writesLocked v hv
      have hbase : b ∈ db.outbox ++ ch.inserts := by
        rcases List.mem_append.mp hb with hb | hb
        · obtain ⟨b₀, hb₀, rfl⟩ := List.mem_map.mp hb
          have hid : (tx.changes.latest b₀).outboxId = b₀.outboxId :=
            OutboxEvent.outboxId_eq_of_core (hp.latest_core hs hb₀)
          rw [hid] at hlock
          rw [Changes.latest_of_not_touched (hother t' heq _ hlock)]
          rcases List.mem_append.mp hb₀ with hb₀ | hb₀
          · exact List.mem_append_left _ hb₀
          · have hown := hp.insertsLocked b₀ hb₀
            rw [hlock] at hown
            exact absurd (Option.some.inj hown) heq
        · exact List.mem_append_right _ hb
      rw [hhist, h.not_touched (hother t' heq _ hlock), List.append_nil]
      exact h'.touched b hbase ⟨v, hv, hvb⟩

/-- **Every step keeps the lives of all rows lawful**, provided that its own update is. -/
theorem Lifecycles.step (hl : db.Lifecycles used) (hs : db.Storage used) {P : Platform} {op : Op}
    {fresh : UUID → Prop} (h : Moves P op fresh t db db') (hsub : used ⊆ used')
    (hfresh : ∀ u, fresh u → u ∉ used ∧ u ∈ used')
    (hlegal : ∀ tx r v m, db.sessions t = some tx → tx.aborted = false →
      tx.changes.version db.outbox v.outboxId = some r → op.Writes tx r v m →
      r.status = .scheduled ∧ Legal r v m) : db'.Lifecycles used' := by
  have hothers : ∀ t' ≠ t, db'.sessions t' = db.sessions t' := fun _ hne => h.sessions_of_ne hne
  have hpending := hl.pending t
  cases h with
  | idle => exact hl.congr (t := t) hsub rfl rfl (fun _ _ => rfl) (hpending ·)
  | opened now _ _ =>
    refine hl.congr hsub rfl rfl hothers fun tx htx ch hch => ?_
    obtain rfl : _ = tx := Option.some.inj ((setSession_sessions_self _).symm.trans htx)
    obtain rfl : ch = {} := by simpa using hch
    exact .empty
  | kept tx tx' htx _ hsubset =>
    refine hl.congr hsub rfl rfl hothers fun tx₁ htx₁ ch hch => ?_
    obtain rfl : tx' = tx₁ := Option.some.inj ((setSession_sessions_self _).symm.trans htx₁)
    exact hpending tx htx ch (hsubset ch hch)
  | discarded tx _ =>
    refine hl.congr hsub rfl rfl hothers fun tx₁ htx₁ => ?_
    simp [Database.discard] at htx₁
  | installed tx _ htx _ =>
    have hl' := hl.install hs htx
    exact ⟨hl'.rows, fun commit hc m hm => hsub (hl'.marked commit hc m hm), hl'.pending⟩
  | locked tx id r _ _ _ _ _ => exact hl.congr hsub rfl rfl hothers (hpending ·)
  | wrote tx r v m hw htx hab _ hv =>
    obtain ⟨hstatus, hm⟩ := hlegal tx r v m htx hab hv hw
    refine hl.congr hsub rfl rfl hothers fun tx₁ htx₁ ch hch => ?_
    obtain rfl : _ = tx₁ := Option.some.inj ((setSession_sessions_self _).symm.trans htx₁)
    rcases List.mem_cons.mp hch with rfl | hch
    · exact Tracked.addWrite hl hs htx hw.outboxId_eq hv hstatus hm
    · exact hpending tx htx ch (List.mem_cons_of_mem _ hch)
  | insertedInbound tx e row _ _ htx _ _ =>
    refine hl.congr hsub rfl rfl hothers fun tx₁ htx₁ ch hch => ?_
    obtain rfl : _ = tx₁ := Option.some.inj ((setSession_sessions_self _).symm.trans htx₁)
    rcases List.mem_cons.mp hch with rfl | hch
    · have h := hpending tx htx tx.changes List.mem_cons_self
      exact ⟨h.created, h.paired, h.touched⟩
    · exact hpending tx htx ch (List.mem_cons_of_mem _ hch)
  | insertedOutbox tx e row _ hrow htx hf =>
    refine hl.congr hsub rfl rfl hothers fun tx₁ htx₁ ch hch => ?_
    obtain rfl : _ = tx₁ := Option.some.inj ((setSession_sessions_self _).symm.trans htx₁)
    rcases List.mem_cons.mp hch with rfl | hch
    · have h := hpending tx htx tx.changes List.mem_cons_self
      have hp := hs.pending t tx htx tx.changes List.mem_cons_self
      have hnew := (hfresh _ hf).1
      refine ⟨?_, h.paired, ?_⟩
      · intro b hb
        rcases List.mem_append.mp hb with hb | hb
        · exact h.created b hb
        · obtain rfl := List.mem_singleton.mp hb
          obtain ⟨payload, headers, -, -, hb⟩ := e.row_eq_some P hrow
          refine ⟨by rw [hb]; exact .scheduled rfl rfl rfl rfl rfl rfl, ?_⟩
          refine List.flatMap_eq_nil_iff.mpr fun commit hc => Changes.marksOf_eq_nil ?_
          exact fun m hm heq => hnew (heq ▸ hl.marked commit hc m hm)
      · rintro b hb ⟨v, hv, hvb⟩
        rw [Tx.addInsert_inserts, ← List.append_assoc] at hb
        rcases List.mem_append.mp hb with hb | hb
        · exact h.touched b hb ⟨v, hv, hvb⟩
        · obtain rfl := List.mem_singleton.mp hb
          exact absurd (hvb ▸ (hs.rowLock _ _ (hp.writesLocked v hv)).1) hnew
    · exact hpending tx htx ch (List.mem_cons_of_mem _ hch)

end Database

end VcsGateway
