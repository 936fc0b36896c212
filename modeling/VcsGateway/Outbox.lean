import VcsGateway.Batches
import VcsGateway.Storage

/-!
# The outbox in every run

The invariant of the batches holds in every reachable state; what it says about the
rows, their histories and the messages of the broker.
-/

namespace VcsGateway

open Async

variable {P : Platform} {w w' : World} {σ : Nat → BatchState} {τ : Nat → Option Task} {t : Nat}

/-! ### One step -/

namespace Database

variable {op : Op} {fresh : UUID → Prop} {db db' : Database}

/-- A transaction opens with `BEGIN` only. -/
theorem Moves.session_some (h : Moves P op fresh t db db') {tx : Tx}
    (htx : db'.sessions t = some tx) : op = .begin ∨ ∃ tx', db.sessions t = some tx' := by
  cases h with
  | idle => exact .inr ⟨tx, htx⟩
  | opened now hop _ => exact .inl hop
  | kept tx' _ ht _ _ => exact .inr ⟨tx', ht⟩
  | discarded tx' ht => exact .inr ⟨tx', ht⟩
  | installed tx' _ ht _ => exact .inr ⟨tx', ht⟩
  | locked tx' _ _ _ ht _ _ _ => exact .inr ⟨tx', ht⟩
  | wrote tx' _ _ _ _ ht _ _ _ => exact .inr ⟨tx', ht⟩
  | insertedInbound tx' _ _ _ _ ht _ _ => exact .inr ⟨tx', ht⟩
  | insertedOutbox tx' _ _ _ _ ht _ => exact .inr ⟨tx', ht⟩

/-- The updates of an open transaction are its earlier ones and that of the step. -/
theorem Moves.marks (h : Moves P op fresh t db db') {tx : Tx} (htx : db'.sessions t = some tx)
    {ch : Changes} (hch : ch ∈ tx.changes :: tx.saved) {id : UUID} {m : Mark}
    (hm : (id, m) ∈ ch.marks) :
    (∃ tx₀, db.sessions t = some tx₀ ∧ ∃ ch₀ ∈ tx₀.changes :: tx₀.saved, (id, m) ∈ ch₀.marks) ∨
      ∃ tx₀ r v, op.Writes tx₀ r v m ∧ v.outboxId = id := by
  rcases h.pends htx hch with rfl | ⟨tx₀, htx₀, hpends⟩
  · simp at hm
  cases hpends with
  | before hmem => exact .inl ⟨tx₀, htx₀, ch, hmem, hm⟩
  | wrote r v m' hw _ =>
    rcases List.mem_cons.mp hm with heq | hm
    · obtain ⟨rfl, rfl⟩ := Prod.mk.inj heq
      exact .inr ⟨tx₀, r, v, hw, rfl⟩
    · exact .inl ⟨tx₀, htx₀, tx₀.changes, List.mem_cons_self, hm⟩
  | insertedInbound e row _ => exact .inl ⟨tx₀, htx₀, tx₀.changes, List.mem_cons_self, hm⟩
  | insertedOutbox e row _ => exact .inl ⟨tx₀, htx₀, tx₀.changes, List.mem_cons_self, hm⟩

/-- Rolled back is rolled back. -/
theorem Moves.rolledBack (h : Moves P op fresh t db db') : db.rolledBack ⊆ db'.rolledBack := by
  cases h with
  | discarded tx _ => exact fun _ hx => List.mem_cons_of_mem _ hx
  | _ => exact fun _ hx => hx

theorem Moves.wal_subset (h : Moves P op fresh t db db') : db.wal ⊆ db'.wal := by
  rcases h.wal with heq | ⟨tx, -, heq⟩
  · exact heq ▸ fun _ hx => hx
  · exact heq ▸ fun _ hx => List.mem_append_left _ hx

end Database

/-- Where a published row of the moving batch is accounted for. -/
theorem BatchState.Describes.sent_step {s : BatchState} (h : s.Describes w t) {op : Op} {c : Choice}
    {r : Except Exn op.Ret} (hp : s.permits P op) (he : VcsGateway.exec P t op c w = some (r, w'))
    {id : UUID} (hid : id ∈ s.sent) :
    t ∈ w'.db.rolledBack ∨ id ∈ (s.move op r).sent ∨
      ∃ commit ∈ w'.db.wal, (id, .dispatched) ∈ commit.changes.marks := by
  obtain ⟨w₁, h₁, rfl⟩ := exec_eq_some he
  have hmarked : ∀ id', id ∈ (s.marked id').sent := by
    intro id'
    unfold BatchState.marked
    split <;> exact hid
  have hopen : ∀ p, s.phase = p → p = .outside ∨ p = .ended ∨ p = .scheduling → False := by
    rintro p hphase hcases
    unfold BatchState.Describes at h
    rw [hphase] at h
    rcases hcases with rfl | rfl | rfl
    · simp [h.2.2] at hid
    · simp [h.2.2] at hid
    · simp [h.2.2] at hid
  cases op with
  | begin => exact (hopen _ hp (.inl rfl)).elim
  | commit =>
    rcases hp with hp | ⟨hbatch, hsettled⟩
    · exact (hopen _ hp (.inr (.inr rfl))).elim
    obtain ⟨tx, hb⟩ := h.inBatch hbatch
    -- every published row has been updated
    have hdispatched : (id, .dispatched) ∈ tx.changes.marks := by
      rcases (hb.sent id hid).2.2 with ⟨row, hrow, rfl⟩ | hmark
      · exact absurd hid (hsettled row hrow)
      · exact hmark
    have hsettle : t ∈ (w.db.settle t tx).rolledBack ∨
        ∃ commit ∈ (w.db.settle t tx).wal, (id, .dispatched) ∈ commit.changes.marks := by
      unfold Database.settle
      split
      · exact .inl List.mem_cons_self
      · exact .inr ⟨⟨t, tx.changes⟩, List.mem_append_right _ List.mem_cons_self, hdispatched⟩
    obtain ⟨db', hdb, rfl⟩ := onDb_eq_some h₁
    obtain ⟨tx', htx', hend⟩ := Database.execCommit_eq_some hdb
    obtain rfl : tx = tx' := Option.some.inj (hb.session.symm.trans htx')
    rcases hend with ⟨-, rfl⟩ | ⟨-, rfl⟩ | ⟨e, -, -, rfl⟩
    · exact hsettle.imp_right .inr
    · exact hsettle.imp_right .inr
    · exact .inl List.mem_cons_self
  | rollback =>
    obtain ⟨db', hdb, rfl⟩ := onDb_eq_some h₁
    obtain ⟨tx, -, rfl, -⟩ := Database.execRollback_eq_some hdb
    exact .inl List.mem_cons_self
  | publish ex m key =>
    refine .inr (.inl ?_)
    cases r with
    | ok _ => exact List.mem_append_right _ hid
    | error _ => exact hid
  | lockDue id' => exact .inr (.inl (by rcases r with _ | _ | _ <;> exact hid))
  | markDispatched id' => exact .inr (.inl (by cases r <;> first | exact hid | exact hmarked _))
  | markFailed id' msg => exact .inr (.inl (by cases r <;> first | exact hid | exact hmarked _))
  | markRetry id' msg at_ =>
    exact .inr (.inl (by cases r <;> first | exact hid | exact hmarked _))
  | _ => exact .inr (.inl (by cases r <;> exact hid))

/-- A publish call for a row is made by a batch that holds the row. -/
theorem delivers_eq {id : UUID} {e : Event} (h : e.delivers id = true) :
    ∃ t ex m key u, e = ⟨t, .publish ex m key, .ok u⟩ ∧ m.source = some id := by
  unfold Event.delivers at h
  split at h
  · exact ⟨_, _, _, _, _, rfl, by simpa using h⟩
  · simp at h

namespace Delivered

/-- While a batch holds a row that it has not published, nobody has delivered it, unless a
    batch was rolled back. -/
theorem undelivered (h : Delivered w σ τ) (hnone : ∀ t ∈ w.db.rolledBack, (σ t).isPublisher = false)
    {tx : Tx} {row : OutboxEvent} (hheld : Holds w t tx row) (hunsent : row.outboxId ∉ (σ t).sent) :
    w.trace.countP (·.delivers row.outboxId) = 0 := by
  rw [List.countP_eq_zero]
  intro e he hdelivers
  obtain ⟨hpub, hrolled | hsent | ⟨commit, hc, hmark⟩⟩ := h.sent e he _ hdelivers
  · simp [hnone _ hrolled] at hpub
  · -- it would be published by this very batch
    have hlock := (h.batch e.tid).sent_locked hsent
    rw [hheld.locked, Option.some.injEq] at hlock
    exact hunsent (hlock ▸ hsent)
  · refine (h.lives.rows row hheld.stored).not_scheduled ?_ hheld.scheduled
    refine List.mem_flatMap.mpr ⟨commit, hc, ?_⟩
    rw [Changes.marksOf, List.mem_reverse, List.mem_map]
    exact ⟨_, List.mem_filter.mpr ⟨hmark, by simp⟩, rfl⟩

/-- **Every step keeps the invariant.** -/
theorem exec (h : Delivered w σ τ) {k : Task} (hτ : τ t = some k) {op : Op} {c : Choice}
    {r : Except Exn op.Ret} (hallow : (σ t).allows P op)
    (he : VcsGateway.exec P t op c w = some (r, w')) :
    Delivered w' (Function.update σ t ((σ t).next op r)) τ := by
  have hpossible := (h.batch t).possible
  have hp : (σ t).permits P op := hallow.resolve_left hpossible
  rw [BatchState.next_eq hpossible]
  have hbatch := (h.batch t).exec h.sound hp he
  obtain ⟨w₁, h₁, hw'⟩ := exec_eq_some he
  have hframe := execOp_frame h₁
  have hmoves : w.db.Moves P op (fun u => u ∉ w.used ∧ u ∈ w₁.used) t w'.db := by
    rw [hw']
    exact execOp_moves h₁
  have htrace : w'.trace = w.trace ++ [⟨t, op, r⟩] := by
    rw [hw']
    simp [World.record, hframe.trace]
  have hsub : w.trace ⊆ w'.trace := htrace ▸ List.subset_append_left _ _
  have hpub : ∀ t', (Function.update σ t ((σ t).move op r) t').isPublisher = (σ t').isPublisher := by
    intro t'
    by_cases heq : t' = t
    · rw [heq, Function.update_self, BatchState.move_isPublisher]
    · rw [Function.update_of_ne heq]
  -- the event of this step, when it publishes a row
  have hnew : ∀ id, Event.delivers id ⟨t, op, r⟩ = true →
      id ∈ ((σ t).move op r).sent ∧ (σ t).isPublisher = true ∧ id ∉ (σ t).sent ∧
        ∃ tx row, Holds w t tx row ∧ row.outboxId = id := by
    intro id hdelivers
    obtain ⟨t₁, ex, m, key, u, heq, hsource⟩ := delivers_eq hdelivers
    cases heq
    rcases hp with hnone | ⟨hphase, row, ⟨hrow, hunsent⟩, hmessage⟩
    · simp [hnone] at hsource
    · obtain rfl : row.outboxId = id := Option.some.inj (hmessage.source.symm.trans hsource)
      obtain ⟨tx, hb⟩ := (h.batch t).delivering hphase
      refine ⟨?_, ?_, hunsent, tx, row, hb.held row hrow, rfl⟩
      · simp [BatchState.move, hsource]
      · by_contra hne
        rcases h.scheduler t (by simpa using hne) with hs | hs <;> simp [hphase] at hs
  refine {
    sound := h.sound.exec he
    lives := ?_
    role := fun t' => (hpub t').trans (h.role t')
    scheduler := ?_
    idle := ?_
    batch := ?_
    selected := ?_
    evidence := ?_
    dispatched := ?_
    sent := ?_
    once := ?_ }
  · rw [hw']
    refine h.lives.step h.sound (hw' ▸ hmoves) hframe.used (fun u hu => hu) ?_
    intro tx r v m htx hab hv hwrites
    exact (h.batch t).legal h.sound hp htx hab hv hwrites
  · intro t' hs
    by_cases heq : t' = t
    · subst heq
      rw [hpub] at hs
      rw [Function.update_self]
      exact BatchState.move_scheduler hs (h.scheduler _ hs) hp r
    · rw [Function.update_of_ne heq] at hs ⊢
      exact h.scheduler t' hs
  · intro t' hnone
    have hne : t' ≠ t := by
      rintro rfl
      simp [hτ] at hnone
    rw [Function.update_of_ne hne]
    exact h.idle t' hnone
  · intro t'
    by_cases heq : t' = t
    · subst heq
      rw [Function.update_self]
      exact hbatch
    · rw [Function.update_of_ne heq]
      refine (h.batch t').mono (hmoves.sessions_of_ne heq) ?_ ?_ hsub
      · exact fun id hl => hmoves.keepsLock h.sound (fun u hu => hu.1) heq hl
      · exact fun row hrow hl => hmoves.keepsRow h.sound heq hrow hl
  · intro t' id row hevent
    rw [hpub]
    rw [htrace, List.mem_append, List.mem_singleton] at hevent
    rcases hevent with hevent | hevent
    · obtain ⟨hpublisher, hphase, hlock⟩ := h.selected t' id row hevent
      by_cases heq : t' = t
      · subst heq
        rw [Function.update_self]
        refine ⟨hpublisher, BatchState.move_phase_ne hpublisher hphase r, fun tx htx => ?_⟩
        rcases hmoves.session_some htx with rfl | ⟨tx', htx'⟩
        · exact absurd hp hphase
        · exact hmoves.keepsOwnLock (hlock tx' htx') htx
      · rw [Function.update_of_ne heq]
        refine ⟨hpublisher, hphase, fun tx htx => ?_⟩
        rw [hmoves.sessions_of_ne heq] at htx
        exact hmoves.keepsLock h.sound (fun u hu => hu.1) heq (hlock tx htx)
    · cases hevent
      rw [Function.update_self]
      have hphase : (σ t).phase = .selecting := hp
      have hpublisher : (σ t).isPublisher = true := by
        by_contra hne
        rcases h.scheduler t (by simpa using hne) with hs | hs <;> simp [hphase] at hs
      refine ⟨hpublisher, BatchState.move_phase_ne hpublisher (by simp [hphase]) _, fun _ _ => ?_⟩
      have hphase' : ((σ t).hold [row]).phase = .selecting := hphase
      obtain ⟨tx, hb, -⟩ := BatchState.Describes.selecting (s := (σ t).hold [row]) hbatch hphase'
      have hrow : row ∈ ((σ t).hold [row]).held := List.mem_append_right _ List.mem_cons_self
      have hid : row.outboxId = id := h.sound.answers he
      rw [← hid]
      exact (hb.held row hrow).locked
  · intro t' tx htx ch hch id hm
    by_cases heq : t' = t
    · subst heq
      rcases hmoves.marks htx hch hm with ⟨tx₀, htx₀, ch₀, hch₀, hm₀⟩ | ⟨tx₀, row, v, hw, hid⟩
      · obtain ⟨e, hin, hdelivers⟩ := h.evidence t' tx₀ htx₀ ch₀ hch₀ id hm₀
        exact ⟨e, hsub hin, hdelivers⟩
      · have hop : op = .markDispatched id := by
          cases op with
          | markDispatched id' =>
            obtain ⟨hrow, rfl, -⟩ := hw
            rw [← hid]
            exact congrArg _ hrow.symm
          | markFailed id' msg => simpa using hw.2.2
          | markRetry id' msg at_ => simpa using hw.2.2
          | cancelRow id' k' ver reason => simpa using hw.2.2.2
          | _ => exact hw.elim
        obtain ⟨hphase, row, hrow, hrid, hsent⟩ : (σ t').permits P (.markDispatched id) := hop ▸ hp
        obtain ⟨tx', hb⟩ := (h.batch t').delivering hphase
        obtain ⟨-, ⟨e, hin, hdelivers⟩, -⟩ := hb.sent id hsent
        exact ⟨e, hsub hin, hdelivers⟩
    · rw [hmoves.sessions_of_ne heq] at htx
      obtain ⟨e, hin, hdelivers⟩ := h.evidence t' tx htx ch hch id hm
      exact ⟨e, hsub hin, hdelivers⟩
  · intro commit hc id hm
    have hold : ∃ e ∈ w.trace, e.delivers id = true := by
      rcases hmoves.wal with heq | ⟨tx, htx, heq⟩
      · exact h.dispatched commit (heq ▸ hc) id hm
      · rw [heq, List.mem_append, List.mem_singleton] at hc
        rcases hc with hc | rfl
        · exact h.dispatched commit hc id hm
        · exact h.evidence t tx htx tx.changes List.mem_cons_self id hm
    obtain ⟨e, hin, hdelivers⟩ := hold
    exact ⟨e, hsub hin, hdelivers⟩
  · intro e hin id hdelivers
    rw [hpub]
    rw [htrace, List.mem_append, List.mem_singleton] at hin
    rcases hin with hin | rfl
    · obtain ⟨hpublisher, hcase⟩ := h.sent e hin id hdelivers
      refine ⟨hpublisher, ?_⟩
      rcases hcase with hrolled | hsent | ⟨commit, hc, hm⟩
      · exact .inl (hmoves.rolledBack hrolled)
      · by_cases heq : e.tid = t
        · rw [heq] at hsent ⊢
          rw [Function.update_self]
          exact (h.batch t).sent_step hp he hsent
        · rw [Function.update_of_ne heq]
          exact .inr (.inl hsent)
      · exact .inr (.inr ⟨commit, hmoves.wal_subset hc, hm⟩)
    · obtain ⟨hsent, hpublisher, -⟩ := hnew id hdelivers
      refine ⟨hpublisher, .inr (.inl ?_)⟩
      rw [Function.update_self]
      exact hsent
  · intro hnone id
    have hnone' : ∀ t' ∈ w.db.rolledBack, (σ t').isPublisher = false := by
      intro t' ht'
      rw [← hpub]
      exact hnone t' (hmoves.rolledBack ht')
    rw [htrace, List.countP_append, List.countP_singleton]
    by_cases hdelivers : Event.delivers id ⟨t, op, r⟩ = true
    · obtain ⟨-, -, hunsent, tx, row, hheld, rfl⟩ := hnew id hdelivers
      rw [h.undelivered hnone' hheld hunsent]
      split <;> omega
    · rw [if_neg hdelivers]
      exact h.once hnone' id

end Delivered

/-! ### Starting, stopping, the environment -/

namespace Delivered

theorem initial (tenants : UUID → Option Tenant) (whitelist : List VcsEventWhitelist) :
    Delivered (World.initial tenants whitelist) (fun _ => BatchState.start none) fun _ => none where
  sound := World.Sound.initial tenants whitelist
  lives := Database.Lifecycles.initial tenants whitelist
  role _ := rfl
  scheduler _ _ := .inl rfl
  idle _ _ := rfl
  batch _ := ⟨rfl, rfl, rfl⟩
  selected _ _ _ h := by simp [World.initial] at h
  evidence _ _ h := by simp [World.initial] at h
  dispatched _ h := by simp [World.initial] at h
  sent _ h := by simp [World.initial] at h
  once _ _ := by simp [World.initial]

theorem spawn (h : Delivered w σ τ) (hτ : τ t = none) (k : Task) :
    Delivered w (Function.update σ t (BatchState.start (some k)))
      (Function.update τ t (some k)) where
  sound := h.sound
  lives := h.lives
  role t' := by
    by_cases heq : t' = t
    · subst heq; simp
    · simp only [Function.update_of_ne heq]
      exact h.role t'
  scheduler t' := by
    by_cases heq : t' = t
    · subst heq
      rw [Function.update_self]
      exact fun _ => .inl rfl
    · rw [Function.update_of_ne heq]
      exact h.scheduler t'
  idle t' ht' := by
    by_cases heq : t' = t
    · subst heq; simp at ht'
    · rw [Function.update_of_ne heq] at ht' ⊢
      exact h.idle t' ht'
  batch t' := by
    by_cases heq : t' = t
    · subst heq
      rw [Function.update_self]
      have hclosed : ¬(σ t').Open := fun hopen => hopen.1 (h.idle _ hτ)
      exact ⟨(h.batch _).closed hclosed, rfl, rfl⟩
    · rw [Function.update_of_ne heq]
      exact h.batch t'
  selected t' id row hevent := by
    have hne : t' ≠ t := by
      rintro rfl
      exact (h.selected _ id row hevent).2.1 (h.idle _ hτ)
    rw [Function.update_of_ne hne]
    exact h.selected t' id row hevent
  evidence := h.evidence
  dispatched := h.dispatched
  sent e he id hdelivers := by
    have hne : e.tid ≠ t := by
      intro heq
      have hpub := (h.sent e he id hdelivers).1
      rw [heq, h.role t, hτ] at hpub
      simp [BatchState.start] at hpub
    rw [Function.update_of_ne hne]
    exact h.sent e he id hdelivers
  once hnone := by
    refine h.once fun t' ht' => ?_
    by_cases heq : t' = t
    · subst heq
      rw [h.role, hτ]
      rfl
    · have hrole := hnone t' ht'
      rwa [Function.update_of_ne heq] at hrole

/-- A change of the world that no batch notices. -/
theorem world_congr (h : Delivered w σ τ) (hsound : w'.Sound) (hused : w'.used = w.used)
    (hsessions : w'.db.sessions = w.db.sessions) (hlocks : w'.db.rowLock = w.db.rowLock)
    (hout : w'.db.outbox = w.db.outbox) (hwal : w'.db.wal = w.db.wal)
    (hrolled : w'.db.rolledBack = w.db.rolledBack) (htrace : w'.trace = w.trace) :
    Delivered w' σ τ where
  sound := hsound
  lives := by
    rw [hused]
    refine h.lives.congr (t := 0) (fun _ hx => hx) hout hwal (fun _ _ => by rw [hsessions]) ?_
    rw [hsessions]
    exact h.lives.pending 0
  role := h.role
  scheduler := h.scheduler
  idle := h.idle
  batch t := by
    refine (h.batch t).mono (by rw [hsessions]) ?_ ?_ (by rw [htrace]; exact fun _ hx => hx)
    · rw [hlocks]
      exact fun _ hl => hl
    · rw [hout]
      exact fun _ hr _ => hr
  selected := by rw [htrace, hsessions, hlocks]; exact h.selected
  evidence := by rw [htrace, hsessions]; exact h.evidence
  dispatched := by rw [htrace, hwal]; exact h.dispatched
  sent := by rw [htrace, hwal, hrolled]; exact h.sent
  once := by rw [htrace, hrolled]; exact h.once

theorem env (h : Delivered w σ τ) (e : EnvEvent) : Delivered (envStep e w) σ τ := by
  cases e <;> exact h.world_congr (h.sound.envStep _) rfl rfl rfl rfl rfl rfl rfl

/-- A batch that vanishes is rolled back. -/
theorem kill (h : Delivered w σ τ) (t : Nat) :
    Delivered (vanish t w) (Function.update σ t (σ t).rest) τ := by
  have hsound := h.sound.vanish t
  have htrace := vanish_trace t w
  have hwal := vanish_wal t w
  have hout := vanish_outbox t w
  have hused := vanish_used t w
  have hrolled : w.db.rolledBack ⊆ (vanish t w).db.rolledBack := by
    unfold VcsGateway.vanish
    split
    · exact fun _ hx => hx
    · exact fun _ hx => List.mem_cons_of_mem _ hx
  have hothers : ∀ t' ≠ t, (vanish t w).db.sessions t' = w.db.sessions t' :=
    fun t' hne => vanish_sessions_of_ne t w hne
  have hlock : ∀ t' ≠ t, ∀ id, w.db.rowLock id = some t' →
      (vanish t w).db.rowLock id = some t' := by
    intro t' hne id hl
    unfold VcsGateway.vanish
    split
    · exact hl
    · exact Database.close_rowLock_of_ne hne hl
  have hclosed := vanish_sessions_self t w
  have hpub : ∀ t', (Function.update σ t (σ t).rest t').isPublisher = (σ t').isPublisher := by
    intro t'
    by_cases heq : t' = t
    · rw [heq, Function.update_self]
      rfl
    · rw [Function.update_of_ne heq]
  refine {
    sound := hsound
    lives := ?_
    role := fun t' => (hpub t').trans (h.role t')
    scheduler := ?_
    idle := ?_
    batch := ?_
    selected := ?_
    evidence := ?_
    dispatched := by rw [htrace, hwal]; exact h.dispatched
    sent := ?_
    once := ?_ }
  · rw [hused]
    refine h.lives.congr (t := t) (fun _ hx => hx) hout hwal hothers ?_
    simp
  · intro t' hs
    rw [hpub] at hs
    by_cases heq : t' = t
    · rw [heq] at hs ⊢
      rw [Function.update_self]
      exact .inl (by simp [BatchState.rest, hs])
    · rw [Function.update_of_ne heq]
      exact h.scheduler t' hs
  · intro t' hnone
    by_cases heq : t' = t
    · rw [heq] at hnone ⊢
      rw [Function.update_self]
      have hrole := h.role t
      rw [hnone] at hrole
      simp [BatchState.rest, hrole, BatchState.start]
    · rw [Function.update_of_ne heq]
      exact h.idle t' hnone
  · intro t'
    by_cases heq : t' = t
    · rw [heq, Function.update_self]
      exact (σ t).describes_rest hclosed
    · rw [Function.update_of_ne heq]
      refine (h.batch t').mono (hothers t' heq) (hlock t' heq) ?_ ?_
      · rw [hout]
        exact fun _ hr _ => hr
      · rw [htrace]
        exact fun _ hx => hx
  · intro t' id row hevent
    rw [htrace] at hevent
    obtain ⟨hpublisher, hphase, hlocked⟩ := h.selected t' id row hevent
    rw [hpub]
    by_cases heq : t' = t
    · rw [heq] at hpublisher ⊢
      rw [Function.update_self]
      exact ⟨hpublisher, by simp [BatchState.rest, hpublisher], by simp⟩
    · rw [Function.update_of_ne heq, hothers t' heq]
      exact ⟨hpublisher, hphase, fun tx htx => hlock t' heq id (hlocked tx htx)⟩
  · intro t' tx htx
    rw [htrace]
    by_cases heq : t' = t
    · simp [heq] at htx
    · exact h.evidence t' tx (hothers t' heq ▸ htx)
  · intro e he id hdelivers
    rw [htrace] at he
    obtain ⟨hpublisher, hcase⟩ := h.sent e he id hdelivers
    rw [hpub, hwal]
    refine ⟨hpublisher, ?_⟩
    rcases hcase with hcase | hsent | hcase
    · exact .inl (hrolled hcase)
    · by_cases heq : e.tid = t
      · -- the batch was open, and is rolled back
        refine .inl ?_
        have hopen : ∃ tx, w.db.sessions t = some tx :=
          (h.sound.rowLock id t (heq ▸ (h.batch e.tid).sent_locked hsent)).2
        obtain ⟨tx, htx⟩ := hopen
        rw [heq]
        unfold VcsGateway.vanish
        rw [htx]
        exact List.mem_cons_self
      · rw [Function.update_of_ne heq]
        exact .inr (.inl hsent)
    · exact .inr (.inr hcase)
  · intro hnone
    rw [htrace]
    exact h.once fun t' ht' => (hpub t').symm.trans (hnone t' (hrolled ht'))

end Delivered

/-! ### Every run -/

/-- The discipline behind the results on the outbox. -/
def delivering (P : Platform) (allowed : Task → Prop) :
    (gateway P).Discipline (starts allowed) where
  P := delivery P
  Inv := Delivered
  idle := BatchState.start none
  start k := BatchState.start (some k)
  onKill := BatchState.rest
  post _ _ _ := True
  conforms _ k _ := task_delivers k
  spawn _ h hτ := h.spawn hτ _
  exec _ h hτ hallow he := ⟨h.sound.answers he, h.exec hτ hallow he⟩
  env _ h := h.env _
  kill _ h _ := h.kill _

/-- **The invariant of the batches holds in every reachable state.** -/
theorem reachable_delivered {allowed : Task → Prop} {c : GatewayConfig}
    (h : Reachable P allowed c) : (delivering P allowed).Holds c := by
  obtain ⟨tenants, whitelist, ls, hls, hrun⟩ := h
  exact (delivering P allowed).holds_run (Delivered.initial tenants whitelist) hls hrun

theorem Reachable.run {c c' : GatewayConfig} {ls : List GatewayLabel}
    (h : Reachable P (fun _ => True) c) (hrun : (gateway P).run c ls = some c') :
    Reachable P (fun _ => True) c' := by
  obtain ⟨tenants, whitelist, ls₀, -, hrun₀⟩ := h
  refine ⟨tenants, whitelist, ls₀ ++ ls, fun l _ => by cases l <;> exact trivial, ?_⟩
  rw [Machine.run_append, hrun₀]
  exact hrun

/-- The transaction of `t` has selected the row for publishing, and is open. -/
def Selected (c : GatewayConfig) (t : Nat) (id : UUID) : Prop :=
  (∃ row, (⟨t, .lockDue id, .ok (some row)⟩ : Event) ∈ c.world.trace) ∧
    ∃ tx, c.world.db.sessions t = some tx

/-- No batch transaction was rolled back. -/
def NoBatchRolledBack (c : GatewayConfig) : Prop :=
  ∀ t ∈ c.world.db.rolledBack, ∀ self, c.taskOf t ≠ some (.publisher self)

/-- How the messages of the outbox are delivered. -/
structure AtLeastOnce (P : Platform) (c : GatewayConfig) : Prop where
  /-- A task that is about to publish an outbox message. -/
  selected : ∀ t k ex m key f id, c.threads t = some ⟨k, .await (.publish ex m key) f, true⟩ →
    m.source = some id → ∃ self, k = .publisher self ∧ ∃ tx row, c.world.db.sessions t = some tx ∧
      Holds c.world t tx row ∧ row.status = .scheduled ∧ row.dispatchAt ≤ tx.now ∧
      MessageOf P row m key
  exclusive : ∀ t t' id, Selected c t id → Selected c t' id → t = t'
  dispatched : ∀ r ∈ c.world.db.outbox, r.status = .dispatched →
    ∃ e ∈ c.world.trace, e.delivers r.outboxId = true
  once : NoBatchRolledBack c → ∀ id, c.world.trace.countP (·.delivers id) ≤ 1

/-- A task that is about to publish an outbox message holds the row. -/
theorem published_held {c : GatewayConfig} (h : Reachable P (fun _ => True) c) {t : Nat} {k : Task}
    {ex : Exchange} {m : Message} {key : String}
    {f : Except Exn Unit → Prog Exn Op Op.Ret k.Result} {id : UUID}
    (ht : c.threads t = some ⟨k, .await (.publish ex m key) f, true⟩) (hsource : m.source = some id) :
    ∃ self, k = .publisher self ∧ ∃ tx row, c.world.db.sessions t = some tx ∧
      Holds c.world t tx row ∧ row.outboxId = id ∧ MessageOf P row m key := by
  obtain ⟨σ, hinv, hconf⟩ := reachable_delivered h
  have hinv : Delivered c.world σ c.taskOf := hinv
  have hconforms : (delivery P).Conforms (fun _ _ => True) (.await (.publish ex m key) f) (σ t) :=
    hconf t _ ht rfl
  have hp := hconforms.1.resolve_left (hinv.batch t).possible
  rcases hp with hnone | ⟨hphase, row, ⟨hrow, -⟩, hmessage⟩
  · simp [hnone] at hsource
  obtain ⟨tx, hb⟩ := (hinv.batch t).delivering hphase
  have hid : row.outboxId = id := Option.some.inj (hmessage.source.symm.trans hsource)
  have hpub : (BatchState.start (c.taskOf t)).isPublisher = true := by
    rw [← hinv.role t]
    by_contra hne
    rcases hinv.scheduler t (by simpa using hne) with hs | hs <;> simp [hphase] at hs
  have htask : c.taskOf t = some k := by simp [Config.taskOf, ht]
  rw [htask] at hpub
  cases k with
  | publisher self => exact ⟨self, rfl, tx, row, hb.session, hb.held row hrow, hid, hmessage⟩
  | webhook req => simp [BatchState.start] at hpub
  | checkDuplicate key => simp [BatchState.start] at hpub
  | checkStale key v => simp [BatchState.start] at hpub
  | scheduleEvent args => simp [BatchState.start] at hpub

/-- The log of a run only grows. -/
theorem wal_prefix {c c' : GatewayConfig} {ls : List GatewayLabel}
    (h : (gateway P).run c ls = some c') : c.world.db.wal <+: c'.world.db.wal := by
  refine Machine.run_induction (fun d : GatewayConfig => c.world.db.wal <+: d.world.db.wal)
    (fun _ => True) ?_ (List.prefix_refl _) (fun _ _ => trivial) h
  intro d l d' hd _ hs
  cases l with
  | spawn t k =>
    obtain ⟨-, rfl⟩ := Machine.step_spawn hs
    exact hd
  | step t ch =>
    obtain ⟨k, op, f, r, w, -, he, rfl⟩ := Machine.step_step hs
    obtain ⟨w₁, h₁, rfl⟩ := exec_eq_some he
    refine hd.trans ?_
    rcases (execOp_moves h₁).wal with heq | ⟨tx, -, heq⟩
    · exact heq ▸ List.prefix_refl _
    · exact heq ▸ List.prefix_append _ _
  | env e =>
    obtain rfl : _ = d' := Option.some.inj hs
    cases e <;> exact hd
  | kill t =>
    obtain ⟨k, op, f, -, rfl⟩ := Machine.step_kill hs
    change c.world.db.wal <+: (vanish t d.world).db.wal
    rw [vanish_wal]
    exact hd

/-- A final status is the last one. -/
theorem OutboxEvent.Lived.final {r r' : OutboxEvent} {marks more : List Mark} (h : r.Lived marks)
    (h' : r'.Lived (marks ++ more)) (hs : r.status ≠ .scheduled) : more = [] := by
  obtain ⟨n, last, hhist, -, hstatus⟩ := h.history
  obtain ⟨n', last', hhist', -, -⟩ := h'.history
  rcases last with _ | s
  · exact absurd hstatus hs
  have hs' : s ≠ .scheduled := fun heq => hs (hstatus.trans (by rw [heq]; rfl))
  have hsplit : statusHistory (marks ++ more) = statusHistory marks ++ more.map Mark.status := by
    simp [statusHistory]
  rw [hsplit, hhist, List.append_assoc] at hhist'
  -- the final status stands where the longer history has its own
  have hlen : n = n' := by
    rcases Nat.lt_trichotomy n n' with hlt | heq | hgt
    · have hget := congrArg (·[n + 1]?) hhist'
      simp [List.getElem?_append, hlt] at hget
      exact absurd hget hs'
    · exact heq
    · have hlast := congrArg List.length hhist'
      simp at hlast
      rcases last' with _ | s''
      · simp at hlast; omega
      · simp at hlast; omega
  subst hlen
  have htail := List.append_cancel_left hhist'
  rcases last' with _ | s''
  · simp at htail
  · simpa using (List.cons.inj htail).2

/-- A stored row stays, and so does a final status. -/
theorem final_stays {c c' : GatewayConfig} {ls : List GatewayLabel}
    (h : Reachable P (fun _ => True) c) (hrun : (gateway P).run c ls = some c') {r : OutboxEvent}
    (hr : r ∈ c.world.db.outbox) : ∃ r' ∈ c'.world.db.outbox,
      r'.core = r.core ∧ (r.status ≠ .scheduled → r'.status = r.status) := by
  obtain ⟨σ, hinv, -⟩ := reachable_delivered h
  have hinv : Delivered c.world σ c.taskOf := hinv
  have hlived := (hinv.lives.rows r hr).lived
  obtain ⟨σ', hinv', -⟩ := reachable_delivered (h.run hrun)
  have hinv' : Delivered c'.world σ' c'.taskOf := hinv'
  obtain ⟨more, hmore⟩ := wal_prefix hrun
  have hcore : r.core ∈ c'.world.db.outbox.map OutboxEvent.core := by
    have hmem : r.core ∈ c.world.db.outbox.map OutboxEvent.core := List.mem_map_of_mem hr
    rw [hinv'.sound.outboxWal, ← hmore, List.flatMap_append, List.map_append]
    rw [hinv.sound.outboxWal] at hmem
    exact List.mem_append_left _ hmem
  obtain ⟨r', hr', hcore'⟩ := List.mem_map.mp hcore
  refine ⟨r', hr', hcore', fun hfinal => ?_⟩
  have hlived' := (hinv'.lives.rows r' hr').lived
  have hid : r'.outboxId = r.outboxId := OutboxEvent.outboxId_eq_of_core hcore'
  have hhist : c'.world.db.history r'.outboxId = c.world.db.history r.outboxId ++
      more.flatMap fun commit => commit.changes.marksOf r.outboxId := by
    rw [hid, Database.history, ← hmore, List.flatMap_append]
    rfl
  rw [hhist] at hlived'
  have hnil := hlived.final hlived' hfinal
  rw [hnil, List.append_nil] at hlived'
  obtain ⟨n, last, heq, hlast, hstatus⟩ := hlived.history
  obtain ⟨n', last', heq', hlast', hstatus'⟩ := hlived'.history
  have hends := congrArg List.getLast? (heq.symm.trans heq')
  rw [hstatus, hstatus']
  rcases last with _ | s <;> rcases last' with _ | s'
  · rfl
  · simp [List.getLast?_append, List.getLast?_replicate] at hends
    exact absurd (by rw [hends]) hlast'
  · simp [List.getLast?_append, List.getLast?_replicate] at hends
    exact absurd (by rw [hends]) hlast
  · simp [List.getLast?_append] at hends
    simp [hends]

namespace Example

def scheduleArgs (prHashKey : String) : ScheduleArgs :=
  { eventType := "vcs.webhook.received", correlationId := ⟨0⟩, prHashKey, prVersion := 1,
    payload := .dict [], headers := .dict [], debounceSeconds := 0 }

/-- The task `t` schedules a row with the identifier `u`. -/
def schedules (t : Nat) (prHashKey : String) (u : UUID) : List GatewayLabel :=
  .spawn t (.scheduleEvent (scheduleArgs prHashKey)) :: [.ok, .ok, .fresh u, .ok].map (.step t)

theorem scheduled_run : ∃ c r, (gateway platform).run initial (schedules 0 "k1" ⟨1⟩) = some c ∧
    c.world.db.outbox = [r] :=
  ⟨_, _, rfl, rfl⟩

end Example

end VcsGateway
