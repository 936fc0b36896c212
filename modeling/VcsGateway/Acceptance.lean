import VcsGateway.Storage
import VcsGateway.Footprint
import Mathlib.Data.Set.Basic

/-!
# How a webhook is accepted

The protocol of a call with respect to the two tables and the idempotency cache, and
the invariant that ties it to the log: a pair of rows enters the tables in one commit
of one `process_webhook` call, and an idempotency key enters Redis only once its row is
stored.
-/

namespace VcsGateway

open Async

/-! ### Pairs of rows -/

/-- What identifies an accepted webhook in either table. -/
def InboundEvent.identity (row : InboundEvent) : String × UUID := (row.prHashKey, row.correlationId)

def OutboxEvent.identity (row : OutboxEvent) : String × UUID := (row.prHashKey, row.correlationId)

/-- The changes of an accepting transaction: one row for each table. -/
structure Changes.Accepts (P : Platform) (ch : Changes) (row : InboundEvent) (outboxId : UUID) :
    Prop where
  inbound : ch.inbound = [row]
  inserts : ∃ r, ch.inserts = [r] ∧ r.outboxId = outboxId ∧ r.identity = row.identity
  valid : ∃ event, row.modelValidate P = .ok event

/-- The changes of a transaction that inserts nothing. -/
def Changes.InsertsNothing (ch : Changes) : Prop := ch.inbound = [] ∧ ch.inserts = []

/-- The commit stored a row with this key. -/
def Commit.Stores (commit : Commit) (prHashKey : String) : Prop :=
  ∃ i ∈ commit.changes.inbound, i.prHashKey = prHashKey

/-! ### The protocol -/

/-- How far a call has come with its transaction.  `unreported` is a commit whose
    outcome a cancellation hides. -/
inductive Stage where
  | outside
  | opened
  | inserted (row : InboundEvent)
  | scheduled (row : InboundEvent) (outboxId : UUID)
  | committed (row : InboundEvent) (outboxId : UUID)
  | unreported (row : InboundEvent) (outboxId : UUID)

/-- The rows that the call has stored, or may have. -/
def Stage.final : Stage → Option (InboundEvent × UUID)
  | .committed row id | .unreported row id => some (row, id)
  | _ => none

def Stage.afterCommit : Stage → Except Exn Unit → Stage
  | .scheduled row id, .ok _ => .committed row id
  | .scheduled row id, .error .cancelledError => .unreported row id
  | _, _ => .outside

/-- What the stage says about the session of the call. -/
def Stage.Describes (P : Platform) : Stage → Option Tx → Prop
  | .opened, some tx => ∀ ch ∈ tx.changes :: tx.saved, ch.InsertsNothing
  | .inserted row, some tx => tx.changes.inbound = [row] ∧ tx.changes.inserts = []
  | .scheduled row id, some tx => tx.aborted = false ∧ tx.changes.Accepts P row id
  | .outside, none | .committed _ _, none | .unreported _ _, none => True
  | _, _ => False

/-- `known` are the keys that the call has seen to be stored, `absent` those that it
    has looked up in vain. -/
structure CallState where
  task : Option Task
  stage : Stage := .outside
  known : Set String := ∅
  absent : Set String := ∅

namespace CallState

variable (P : Platform)

/-- The transaction is open and may still fail without harm. -/
def InTx (s : CallState) : Prop := s.stage = .opened ∨ ∃ row, s.stage = .inserted row

def IsWebhook (s : CallState) : Prop := ∃ req, s.task = some (.webhook req)

def allows (s : CallState) : Op → Prop
  | .redisGet _ | .selectByPrHashKey _ | .begin => s.stage = .outside
  | .redisSetex key _ _ => (∃ id, key = tenantConfigKey id) ∨
      ∃ k, key = idempotencyKey k ∧
        (k ∈ s.known ∨ ∃ row id, s.stage = .committed row id ∧ row.prHashKey = k)
  | .insertInbound _ => s.stage = .opened ∧ s.IsWebhook
  | .insertEvent e => ∃ row, s.stage = .inserted row ∧ (e.prHashKey, e.correlationId) = row.identity ∧
      ∃ event, row.modelValidate P = .ok event
  | .commit => s.stage = .opened ∨ ∃ row id, s.stage = .scheduled row id
  | .rollback | .cancelScan _ _ | .cancelRow _ _ _ _ => s.InTx
  | .savepoint | .release | .rollbackTo | .dueScan | .lockDue _ | .markDispatched _
  | .markFailed _ _ | .markRetry _ _ _ => s.stage = .opened
  | _ => True

def next (s : CallState) : (op : Op) → Except Exn op.Ret → CallState
  | .redisGet key, .ok (some _) => { s with known := s.known ∪ {k | key = idempotencyKey k} }
  | .selectByPrHashKey k, .ok (some _) => { s with known := s.known ∪ {k} }
  | .selectByPrHashKey k, .ok none => { s with absent := s.absent ∪ {k} }
  | .begin, .ok _ => { s with stage := .opened }
  | .insertInbound _, .ok row => { s with stage := .inserted row }
  | .insertInbound e, .error .uniqueViolationError => { s with known := s.known ∪ {e.prHashKey} }
  | .insertEvent _, .ok id =>
    match s.stage with
    | .inserted row => { s with stage := .scheduled row id }
    | _ => s
  | .commit, r => { s with stage := s.stage.afterCommit r }
  | .rollback, _ => { s with stage := .outside }
  | _, _ => s

/-- The connection of a vanished call is closed. -/
def vanish (s : CallState) : CallState :=
  match s.stage with
  | .committed _ _ | .unreported _ _ => s
  | _ => { s with stage := .outside }

end CallState

/-- The protocol of accepting webhooks. -/
def acceptance (P : Platform) : Protocol Exn Op Op.Ret where
  State := CallState
  allows := CallState.allows P
  next := CallState.next
  admits := Op.Answers

/-! ### The invariant -/

structure Accounted (P : Platform) (w : World) (σ : Nat → CallState) (τ : Nat → Option Task) :
    Prop where
  sound : w.Sound
  task : ∀ t, (σ t).task = τ t
  idle : ∀ t, τ t = none → (σ t).stage = .outside
  session : ∀ t, (σ t).stage.Describes P (w.db.sessions t)
  webhook : ∀ t, (σ t).stage = .outside ∨ (σ t).stage = .opened ∨ (σ t).IsWebhook
  redis : ∀ k v, w.redis (idempotencyKey k) = some v → ∃ commit ∈ w.db.wal, commit.Stores k
  known : ∀ t, ∀ k ∈ (σ t).known, ∃ commit ∈ w.db.wal, commit.tid ≠ t ∧ commit.Stores k
  absent : ∀ t, ∀ k ∈ (σ t).absent, (⟨t, .selectByPrHashKey k, .ok none⟩ : Event) ∈ w.trace
  wal : ∀ commit ∈ w.db.wal, commit.changes.InsertsNothing ∨
    ∃ row id, commit.changes.Accepts P row id ∧ (σ commit.tid).stage.final = some (row, id)
  stored : ∀ t row id, (σ t).stage = .committed row id →
    ∃ commit ∈ w.db.wal, commit.tid = t ∧ commit.changes.Accepts P row id
  once : w.db.wal.Pairwise fun a b =>
    a.tid = b.tid → a.changes.InsertsNothing ∨ b.changes.InsertsNothing

namespace Accounted

variable {P : Platform} {w w' : World} {σ : Nat → CallState} {τ : Nat → Option Task} {t : Nat}
  {s' : CallState}

/-- A call that has stored nothing wrote none of the commits that stored something. -/
theorem not_own (h : Accounted P w σ τ) (hfinal : (σ t).stage.final = none) {commit : Commit}
    (hc : commit ∈ w.db.wal) {k : String} (hk : commit.Stores k) : commit.tid ≠ t := by
  rintro rfl
  rcases h.wal commit hc with hnone | ⟨row, id, -, hsome⟩
  · obtain ⟨i, hi, -⟩ := hk
    simp [hnone.1] at hi
  · simp [hfinal] at hsome

/-- A step of `t` that commits nothing. -/
theorem update (h : Accounted P w σ τ) (ht : τ t ≠ none) (hsound : w'.Sound) (htask : s'.task = (σ t).task)
    (hothers : ∀ t' ≠ t, w'.db.sessions t' = w.db.sessions t')
    (hsession : s'.stage.Describes P (w'.db.sessions t))
    (hwebhook : s'.stage = .outside ∨ s'.stage = .opened ∨ s'.IsWebhook)
    (hwal : w'.db.wal = w.db.wal)
    (hfinal : ∀ p, (σ t).stage.final = some p → s'.stage.final = some p)
    (hcommitted : ∀ row id, s'.stage = .committed row id → (σ t).stage = .committed row id)
    (hredis : ∀ k v, w'.redis (idempotencyKey k) = some v → ∃ commit ∈ w.db.wal, commit.Stores k)
    (hknown : ∀ k ∈ s'.known, ∃ commit ∈ w.db.wal, commit.tid ≠ t ∧ commit.Stores k)
    (habsent : ∀ k ∈ s'.absent, (⟨t, .selectByPrHashKey k, .ok none⟩ : Event) ∈ w'.trace)
    (htrace : w.trace ⊆ w'.trace) : Accounted P w' (Function.update σ t s') τ where
  sound := hsound
  task := by
    rw [Function.forall_update_iff σ (p := fun t' s => s.task = τ t')]
    exact ⟨htask.trans (h.task t), fun t' _ => h.task t'⟩
  idle := by
    rw [Function.forall_update_iff σ (p := fun t' s => τ t' = none → s.stage = .outside)]
    exact ⟨fun hnone => absurd hnone ht, fun t' _ => h.idle t'⟩
  session := by
    rw [Function.forall_update_iff σ (p := fun t' s => s.stage.Describes P (w'.db.sessions t'))]
    exact ⟨hsession, fun t' hne => hothers t' hne ▸ h.session t'⟩
  webhook := by
    rw [Function.forall_update_iff σ
      (p := fun _ s => s.stage = .outside ∨ s.stage = .opened ∨ s.IsWebhook)]
    exact ⟨hwebhook, fun t' _ => h.webhook t'⟩
  redis := by rw [hwal]; exact hredis
  known := by
    rw [hwal, Function.forall_update_iff σ
      (p := fun t' s => ∀ k ∈ s.known, ∃ commit ∈ w.db.wal, commit.tid ≠ t' ∧ commit.Stores k)]
    exact ⟨hknown, fun t' _ => h.known t'⟩
  absent := by
    rw [Function.forall_update_iff σ (p := fun t' s => ∀ k ∈ s.absent,
      (⟨t', .selectByPrHashKey k, .ok none⟩ : Event) ∈ w'.trace)]
    exact ⟨habsent, fun t' _ k hk => htrace (h.absent t' k hk)⟩
  wal := by
    rw [hwal]
    intro commit hc
    rcases h.wal commit hc with hnone | ⟨row, id, haccepts, hsome⟩
    · exact .inl hnone
    · refine .inr ⟨row, id, haccepts, ?_⟩
      by_cases heq : commit.tid = t
      · rw [heq, Function.update_self]
        exact hfinal _ (heq ▸ hsome)
      · rw [Function.update_of_ne heq]; exact hsome
  stored := by
    rw [hwal, Function.forall_update_iff σ (p := fun t' s => ∀ row id, s.stage = .committed row id →
      ∃ commit ∈ w.db.wal, commit.tid = t' ∧ commit.changes.Accepts P row id)]
    exact ⟨fun row id hs => h.stored t row id (hcommitted row id hs), fun t' _ => h.stored t'⟩
  once := by rw [hwal]; exact h.once

/-- A step of `t` that commits the changes `ch`. -/
theorem commits (h : Accounted P w σ τ) (ht : τ t ≠ none) (ch : Changes) (hfinal : (σ t).stage.final = none)
    (hsound : w'.Sound) (htask : s'.task = (σ t).task)
    (hothers : ∀ t' ≠ t, w'.db.sessions t' = w.db.sessions t')
    (hsession : s'.stage.Describes P (w'.db.sessions t))
    (hwebhook : s'.stage = .outside ∨ s'.stage = .opened ∨ s'.IsWebhook)
    (hwal : w'.db.wal = w.db.wal ++ [⟨t, ch⟩])
    (hch : ch.InsertsNothing ∨
      ∃ row id, ch.Accepts P row id ∧ s'.stage.final = some (row, id))
    (hcommitted : ∀ row id, s'.stage = .committed row id → ch.Accepts P row id)
    (hredis : w'.redis = w.redis) (hknown : s'.known = (σ t).known)
    (habsent : s'.absent = (σ t).absent)
    (htrace : w.trace ⊆ w'.trace) : Accounted P w' (Function.update σ t s') τ where
  sound := hsound
  task := by
    rw [Function.forall_update_iff σ (p := fun t' s => s.task = τ t')]
    exact ⟨htask.trans (h.task t), fun t' _ => h.task t'⟩
  idle := by
    rw [Function.forall_update_iff σ (p := fun t' s => τ t' = none → s.stage = .outside)]
    exact ⟨fun hnone => absurd hnone ht, fun t' _ => h.idle t'⟩
  session := by
    rw [Function.forall_update_iff σ (p := fun t' s => s.stage.Describes P (w'.db.sessions t'))]
    exact ⟨hsession, fun t' hne => hothers t' hne ▸ h.session t'⟩
  webhook := by
    rw [Function.forall_update_iff σ
      (p := fun _ s => s.stage = .outside ∨ s.stage = .opened ∨ s.IsWebhook)]
    exact ⟨hwebhook, fun t' _ => h.webhook t'⟩
  redis := by
    intro k v hk
    obtain ⟨commit, hc, hstores⟩ := h.redis k v (hredis ▸ hk)
    exact ⟨commit, hwal ▸ List.mem_append_left _ hc, hstores⟩
  known := by
    have hold : ∀ t', ∀ k ∈ (σ t').known,
        ∃ commit ∈ w'.db.wal, commit.tid ≠ t' ∧ commit.Stores k := by
      intro t' k hk
      obtain ⟨commit, hc, hstores⟩ := h.known t' k hk
      exact ⟨commit, hwal ▸ List.mem_append_left _ hc, hstores⟩
    rw [Function.forall_update_iff σ
      (p := fun t' s => ∀ k ∈ s.known, ∃ commit ∈ w'.db.wal, commit.tid ≠ t' ∧ commit.Stores k)]
    exact ⟨hknown ▸ hold t, fun t' _ => hold t'⟩
  absent := by
    rw [Function.forall_update_iff σ (p := fun t' s => ∀ k ∈ s.absent,
      (⟨t', .selectByPrHashKey k, .ok none⟩ : Event) ∈ w'.trace)]
    exact ⟨fun k hk => htrace (h.absent t k (habsent ▸ hk)),
      fun t' _ k hk => htrace (h.absent t' k hk)⟩
  wal := by
    intro commit hc
    rw [hwal, List.mem_append, List.mem_singleton] at hc
    rcases hc with hc | rfl
    · rcases h.wal commit hc with hnone | ⟨row, id, haccepts, hsome⟩
      · exact .inl hnone
      · have hne : commit.tid ≠ t := by
          rintro rfl
          simp [hfinal] at hsome
        exact .inr ⟨row, id, haccepts, by rw [Function.update_of_ne hne]; exact hsome⟩
    · rcases hch with hnone | ⟨row, id, haccepts, hsome⟩
      · exact .inl hnone
      · exact .inr ⟨row, id, haccepts, by rw [Function.update_self]; exact hsome⟩
  stored := by
    rw [Function.forall_update_iff σ (p := fun t' s => ∀ row id, s.stage = .committed row id →
      ∃ commit ∈ w'.db.wal, commit.tid = t' ∧ commit.changes.Accepts P row id)]
    constructor
    · intro row id hs
      exact ⟨⟨t, ch⟩, by simp [hwal], rfl, hcommitted row id hs⟩
    · intro t' _ row id hs
      obtain ⟨commit, hc, htid, haccepts⟩ := h.stored t' row id hs
      exact ⟨commit, hwal ▸ List.mem_append_left _ hc, htid, haccepts⟩
  once := by
    rw [hwal, List.pairwise_append]
    refine ⟨h.once, List.pairwise_singleton _ _, ?_⟩
    intro a ha b hb htid
    obtain rfl := List.mem_singleton.mp hb
    rcases h.wal a ha with hnone | ⟨row, id, -, hsome⟩
    · exact .inl hnone
    · have hat : a.tid = t := htid
      simp [hat, hfinal] at hsome

/-- A step of `t` that the protocol does not notice. -/
theorem unnoticed (h : Accounted P w σ τ) (ht : τ t ≠ none) (hsound : w'.Sound)
    (hothers : ∀ t' ≠ t, w'.db.sessions t' = w.db.sessions t')
    (hsession : (σ t).stage.Describes P (w'.db.sessions t)) (hwal : w'.db.wal = w.db.wal)
    (hredis : ∀ k v, w'.redis (idempotencyKey k) = some v → ∃ commit ∈ w.db.wal, commit.Stores k)
    (htrace : w.trace ⊆ w'.trace) : Accounted P w' (Function.update σ t (σ t)) τ :=
  h.update ht hsound rfl hothers hsession (h.webhook t) hwal (fun _ hp => hp) (fun _ _ hs => hs) hredis
    (h.known t) (fun k hk => htrace (h.absent t k hk)) htrace

/-- A change of the call state that leaves the stage, and the world, alone. -/
theorem learn (h : Accounted P w σ τ) (ht : τ t ≠ none) (hs' : s'.stage = (σ t).stage)
    (htask : s'.task = (σ t).task)
    (hsound : w'.Sound) (hdb : w'.db = w.db) (hredis : w'.redis = w.redis)
    (hknown : ∀ k ∈ s'.known, ∃ commit ∈ w.db.wal, commit.tid ≠ t ∧ commit.Stores k)
    (habsent : ∀ k ∈ s'.absent, (⟨t, .selectByPrHashKey k, .ok none⟩ : Event) ∈ w'.trace)
    (htrace : w.trace ⊆ w'.trace) : Accounted P w' (Function.update σ t s') τ := by
  refine h.update ht hsound htask (fun _ _ => by rw [hdb]) ?_ ?_ (by rw [hdb])
    (fun p hp => hs' ▸ hp) (fun row id hs => hs' ▸ hs) (fun k v hk => h.redis k v (hredis ▸ hk)) hknown habsent htrace
  · rw [hs', hdb]; exact h.session t
  · rw [hs', CallState.IsWebhook, htask]; exact h.webhook t

end Accounted

/-! ### One step -/

/-- A failed statement, an update or a lock leaves the stage of the transaction. -/
theorem Stage.Describes.kept {P : Platform} {stage : Stage} {tx tx' : Tx}
    (h : stage.Describes P (some tx)) (hstage : stage = .opened ∨ ∃ row, stage = .inserted row)
    (hinbound : tx'.changes.inbound = tx.changes.inbound)
    (hinserts : tx'.changes.inserts = tx.changes.inserts)
    (hsaved : ∀ ch ∈ tx'.saved, ch ∈ tx.changes :: tx.saved) :
    stage.Describes P (some tx') := by
  rcases hstage with rfl | ⟨row, rfl⟩
  · intro ch hch
    rcases List.mem_cons.mp hch with rfl | hch
    · have hnothing := h tx.changes List.mem_cons_self
      exact ⟨hinbound.trans hnothing.1, hinserts.trans hnothing.2⟩
    · exact h ch (hsaved ch hch)
  · exact ⟨hinbound.trans h.1, hinserts.trans h.2⟩

/-- A call that may have stored its rows is in no transaction any more. -/
theorem Stage.Describes.none_of_final {P : Platform} {stage : Stage} {s : Option Tx}
    (h : stage.Describes P s) {p : InboundEvent × UUID} (hp : stage.final = some p) : s = none := by
  rcases s with _ | tx
  · rfl
  · cases stage with
    | committed row id => exact h.elim
    | unreported row id => exact h.elim
    | outside => simp [Stage.final] at hp
    | opened => simp [Stage.final] at hp
    | inserted row => simp [Stage.final] at hp
    | scheduled row id => simp [Stage.final] at hp

theorem CallState.vanish_of_final_eq_none {s : CallState} (h : s.stage.final = none) :
    s.vanish = { s with stage := .outside } := by
  unfold CallState.vanish
  split
  · next hs => simp [hs, Stage.final] at h
  · next hs => simp [hs, Stage.final] at h
  · rfl

theorem CallState.vanish_of_final_eq_some {s : CallState} {p : InboundEvent × UUID}
    (h : s.stage.final = some p) : s.vanish = s := by
  unfold CallState.vanish
  split
  · rfl
  · rfl
  · next hc hu =>
    cases hs : s.stage with
    | committed row id => exact absurd hs (hc row id)
    | unreported row id => exact absurd hs (hu row id)
    | outside => simp [hs, Stage.final] at h
    | opened => simp [hs, Stage.final] at h
    | inserted row => simp [hs, Stage.final] at h
    | scheduled row id => simp [hs, Stage.final] at h

namespace Accounted

variable {P : Platform} {w w' : World} {σ : Nat → CallState} {τ : Nat → Option Task} {t : Nat}
  {c : Choice}

/-- What a call learns from Redis is true. -/
theorem redis_hit (h : Accounted P w σ τ) (hstage : (σ t).stage = .outside) {key : String}
    {v : String} (hget : w.cached key = some v) {k : String} (hk : key = idempotencyKey k) :
    ∃ commit ∈ w.db.wal, commit.tid ≠ t ∧ commit.Stores k := by
  have hstored : ∃ v', w.redis (idempotencyKey k) = some v' := by
    subst hk
    unfold World.cached at hget
    rcases hr : w.redis (idempotencyKey k) with _ | v'
    · simp [hr] at hget
    · exact ⟨v', rfl⟩
  obtain ⟨v', hv'⟩ := hstored
  obtain ⟨commit, hc, hk⟩ := h.redis k v' hv'
  exact ⟨commit, hc, h.not_own (by rw [hstage]; rfl) hc hk, hk⟩

/-- What a call reads in the table was committed by another one. -/
theorem row_stored (h : Accounted P w σ τ) (hfinal : (σ t).stage.final = none) {i : InboundEvent}
    (hi : i ∈ w.db.inbound) :
    ∃ commit ∈ w.db.wal, commit.tid ≠ t ∧ commit.Stores i.prHashKey := by
  rw [h.sound.inboundWal, List.mem_flatMap] at hi
  obtain ⟨commit, hc, hi⟩ := hi
  exact ⟨commit, hc, h.not_own hfinal hc ⟨i, hi, rfl⟩, ⟨i, hi, rfl⟩⟩

theorem exec (h : Accounted P w σ τ) (ht : τ t ≠ none) : ∀ {op : Op} {r : Except Exn op.Ret},
    (σ t).allows P op → VcsGateway.exec P t op c w = some (r, w') →
    Accounted P w' (Function.update σ t ((σ t).next op r)) τ := by
  intro op r hallow he
  have hsound := h.sound.exec he
  have hanswers := h.sound.answers he
  obtain ⟨w₁, h₁, rfl⟩ := exec_eq_some he
  have hframe := execOp_frame h₁
  have hothers : ∀ t' ≠ t, w₁.db.sessions t' = w.db.sessions t' :=
    fun t' hne => (execOp_moves h₁).sessions_of_ne hne
  have htrace : w.trace ⊆ (w₁.record ⟨t, op, r⟩).trace := by
    intro e he
    exact List.mem_append_left _ (hframe.trace ▸ he)
  have hredis : (∀ key ttl value, op ≠ .redisSetex key ttl value) → ∀ k v,
      w₁.redis (idempotencyKey k) = some v → ∃ commit ∈ w.db.wal, commit.Stores k :=
    fun hne k v hk => h.redis k v (hframe.redis hne ▸ hk)
  have hsession := h.session t
  -- an operation that neither the database nor the protocol notices
  have hquiet : op.quiet = true → (∀ key ttl value, op ≠ .redisSetex key ttl value) →
      (σ t).next op r = σ t → Accounted P (w₁.record ⟨t, op, r⟩)
        (Function.update σ t ((σ t).next op r)) τ := by
    intro hq hne hnext
    have hdb : w₁.db = w.db := hframe.db hq
    rw [hnext]
    refine h.unnoticed ht hsound hothers ?_ ?_ (hredis hne) htrace
    · change (σ t).stage.Describes P (w₁.db.sessions t)
      rw [hdb]; exact hsession
    · change w₁.db.wal = w.db.wal
      rw [hdb]
  -- a statement that changes neither the stage nor the inserted rows
  have hstatement : ∀ tx tx', w.db.sessions t = some tx → w₁.db.sessions t = some tx' →
      w₁.db.wal = w.db.wal → (∀ key ttl value, op ≠ .redisSetex key ttl value) →
      (σ t).next op r = σ t → (σ t).InTx → tx'.changes.inbound = tx.changes.inbound →
      tx'.changes.inserts = tx.changes.inserts →
      (∀ ch ∈ tx'.saved, ch ∈ tx.changes :: tx.saved) →
      Accounted P (w₁.record ⟨t, op, r⟩) (Function.update σ t ((σ t).next op r)) τ := by
    intro tx tx' htx htx' hwal hne hnext hstage hinbound hinserts hsaved
    rw [hnext]
    refine h.unnoticed ht hsound hothers ?_ hwal (hredis hne) htrace
    change (σ t).stage.Describes P (w₁.db.sessions t)
    rw [htx']
    rw [htx] at hsession
    exact hsession.kept hstage hinbound hinserts hsaved
  have habort : ∀ tx, w.db.sessions t = some tx → w₁.db = w.db.abort t tx →
      (∀ key ttl value, op ≠ .redisSetex key ttl value) →
      (σ t).next op r = σ t → (σ t).InTx →
      Accounted P (w₁.record ⟨t, op, r⟩) (Function.update σ t ((σ t).next op r)) τ := by
    intro tx htx hdb hne hnext hstage
    refine hstatement tx { tx with aborted := true } htx ?_ ?_ hne hnext hstage rfl rfl
      (fun ch hch => List.mem_cons_of_mem _ hch)
    · rw [hdb]; exact Database.setSession_sessions_self _
    · rw [hdb]; rfl
  have hmark : ∀ {id : UUID} {m : Mark} {set : Tx → OutboxEvent → OutboxEvent}
      {a : Except Exn Unit}, w.onDb (w.db.execMark t c id m set) = some (a, w₁) →
      (∀ key ttl value, op ≠ .redisSetex key ttl value) → (σ t).next op r = σ t →
      (σ t).InTx → Accounted P (w₁.record ⟨t, op, r⟩) (Function.update σ t ((σ t).next op r)) τ := by
    intro id m set a ho hne hnext hstage
    obtain ⟨db', hdb, rfl⟩ := onDb_eq_some ho
    obtain ⟨tx, htx, ⟨e, -, -, hdb'⟩ | ⟨-, -, hdb', -⟩ | ⟨row, -, -, -, -, hdb'⟩⟩ :=
      Database.execMark_eq_some hdb
    · exact habort tx htx hdb' hne hnext hstage
    · exact hstatement tx tx htx (hdb'.symm ▸ htx) (by rw [hdb']) hne hnext hstage rfl rfl
        (fun ch hch => List.mem_cons_of_mem _ hch)
    · refine hstatement tx (tx.addWrite (set tx row) m) htx ?_ ?_ hne hnext hstage rfl rfl
        (fun ch hch => List.mem_cons_of_mem _ hch)
      · rw [hdb']; exact Database.setSession_sessions_self _
      · rw [hdb']; rfl
  cases op with
  | redisGet key =>
    have hdb : w₁.db = w.db := hframe.db rfl
    rcases r with e | found
    · exact hquiet rfl (by simp) rfl
    rcases found with _ | v
    · exact hquiet rfl (by simp) rfl
    rcases awaited_world h₁ with ⟨e, he, -⟩ | ⟨hv, -⟩
    · simp at he
    refine h.learn ht rfl rfl hsound hdb (hframe.redis (by simp)) ?_ (fun k hk => htrace (h.absent t k hk))
      htrace
    intro k hk
    rcases hk with hk | hk
    · exact h.known t k hk
    · exact h.redis_hit hallow (Except.ok.inj hv).symm hk
  | redisSetex key ttl value =>
    have hdb : w₁.db = w.db := hframe.db rfl
    have hnext : (σ t).next (.redisSetex key ttl value) r = σ t := by cases r <;> rfl
    rw [hnext]
    refine h.unnoticed ht hsound hothers ?_ ?_ ?_ htrace
    · change (σ t).stage.Describes P (w₁.db.sessions t)
      rw [hdb]; exact hsession
    · change w₁.db.wal = w.db.wal
      rw [hdb]
    · intro k v hk
      rcases execSetex_eq_some h₁ with ⟨_, _, _, rfl⟩ | ⟨_, rfl⟩
      · exact h.redis k v hk
      · by_cases heq : idempotencyKey k = key
        · rcases hallow with ⟨id, htenant⟩ | ⟨k', hkey, hknown⟩
          · exact absurd (heq.trans htenant) (idempotencyKey_ne_tenantConfigKey k id)
          · obtain rfl := idempotencyKey_injective (heq.trans hkey)
            rcases hknown with hknown | ⟨row, id, hstage, hrow⟩
            · obtain ⟨commit, hc, -, hstores⟩ := h.known t k hknown
              exact ⟨commit, hc, hstores⟩
            · obtain ⟨commit, hc, -, haccepts⟩ := h.stored t row id hstage
              exact ⟨commit, hc, row, by simp [haccepts.inbound], hrow⟩
        · refine h.redis k v ?_
          change Function.update w.redis key _ (idempotencyKey k) = some v at hk
          rwa [Function.update_of_ne heq] at hk
  | selectByPrHashKey k =>
    have hdb : w₁.db = w.db := hframe.db rfl
    have hfinal : (σ t).stage.final = none := by
      have hout : (σ t).stage = .outside := hallow
      rw [hout]; rfl
    rcases r with e | found
    · exact hquiet rfl (by simp) rfl
    rcases awaited_world h₁ with ⟨e, he, -⟩ | ⟨hv, -⟩
    · simp at he
    have hfind := (Except.ok.inj hv).symm
    rcases found with _ | i
    · refine h.learn ht rfl rfl hsound hdb (hframe.redis (by simp)) (h.known t) ?_ htrace
      intro k' hk'
      rcases hk' with hk' | rfl
      · exact htrace (h.absent t k' hk')
      · exact List.mem_append_right _ List.mem_cons_self
    · refine h.learn ht rfl rfl hsound hdb (hframe.redis (by simp)) ?_
        (fun k hk => htrace (h.absent t k hk)) htrace
      intro k' hk'
      rcases hk' with hk' | rfl
      · exact h.known t k' hk'
      · have hstored := h.row_stored hfinal (List.mem_of_find?_eq_some hfind)
        have hkey : i.prHashKey = k' := by simpa using List.find?_some hfind
        rwa [hkey] at hstored
  | begin =>
    obtain ⟨db', hdb, rfl⟩ := onDb_eq_some h₁
    obtain ⟨hnone, ⟨e, rfl, -, rfl⟩ | ⟨rfl, rfl⟩⟩ := Database.execBegin_eq_some hdb
    · refine h.unnoticed ht hsound hothers hsession rfl (hredis (by simp)) htrace
    · refine h.update ht hsound rfl hothers ?_ (.inr (.inl rfl)) rfl ?_ (by simp [CallState.next])
        (hredis (by simp)) (h.known t) (fun k hk => htrace (h.absent t k hk)) htrace
      · change Stage.Describes P .opened ((w.db.setSession t { now := w.clock }).sessions t)
        rw [Database.setSession_sessions_self]
        intro ch hch
        obtain rfl : ch = {} := by simpa using hch
        exact ⟨rfl, rfl⟩
      · intro p hp
        have hout : (σ t).stage = .outside := hallow
        simp [hout, Stage.final] at hp
  | commit =>
    obtain ⟨db', hdb, rfl⟩ := onDb_eq_some h₁
    obtain ⟨tx, htx, hend⟩ := Database.execCommit_eq_some hdb
    have hfinal : (σ t).stage.final = none := by
      rcases hallow with hs | ⟨row, id, hs⟩
      · rw [hs]; rfl
      · rw [hs]; rfl
    -- once the transaction is rolled back or committed, the session is closed
    have hclosed : ∀ r', (db' = w.db.discard t ∨ db' = w.db.install t tx) →
        ((σ t).stage.afterCommit r').Describes P (db'.sessions t) := by
      intro r' hdb'
      have hnone : db'.sessions t = none := by
        rcases hdb' with rfl | rfl
        · exact Database.close_sessions_self
        · exact Database.close_sessions_self
      rw [hnone]
      rcases hallow with hs | ⟨row, id, hs⟩
      · rw [hs]; exact trivial
      · rw [hs]
        rcases r' with e | _
        · cases e <;> exact trivial
        · exact trivial
    have hwebhook : ((σ t).next .commit r).stage = .outside ∨
        ((σ t).next .commit r).stage = .opened ∨ ((σ t).next .commit r).IsWebhook := by
      rcases h.webhook t with hs | hs | hs
      · exact .inl (by simp [CallState.next, hs, Stage.afterCommit])
      · exact .inl (by simp [CallState.next, hs, Stage.afterCommit])
      · exact .inr (.inr hs)
    -- the commit is rolled back: nothing is stored
    have hdiscard : db' = w.db.discard t → (∀ u, r ≠ .ok u) →
        Accounted P (({ w with db := db' } : World).record ⟨t, .commit, r⟩)
          (Function.update σ t ((σ t).next .commit r)) τ := by
      intro hdb' hr
      refine h.update ht hsound rfl hothers (hclosed r (.inl hdb')) hwebhook ?_ ?_ ?_
        (hredis (by simp)) (h.known t) (fun k hk => htrace (h.absent t k hk)) htrace
      · change db'.wal = w.db.wal
        rw [hdb']; rfl
      · simp [hfinal]
      · intro row id hs
        rcases r with e | u
        · rcases hallow with hs' | ⟨row', id', hs'⟩
          · simp [CallState.next, hs', Stage.afterCommit] at hs
          · cases e <;> simp [CallState.next, hs', Stage.afterCommit] at hs
        · exact absurd rfl (hr u)
    -- the transaction is settled
    have hsettle : db' = w.db.settle t tx → (r = .ok () ∨ r = .error .cancelledError) →
        Accounted P (({ w with db := db' } : World).record ⟨t, .commit, r⟩)
          (Function.update σ t ((σ t).next .commit r)) τ := by
      intro hdb' hr
      rcases hallow with hs | ⟨row, id, hs⟩
      · -- a transaction that has inserted nothing
        have hstage : ((σ t).next .commit r).stage = .outside := by
          simp [CallState.next, hs, Stage.afterCommit]
        rw [htx, hs] at hsession
        by_cases hab : tx.aborted = true
        · rw [Database.settle, if_pos hab] at hdb'
          refine h.update ht hsound rfl hothers (hclosed r (.inl hdb')) (.inl hstage) ?_ ?_ ?_
            (hredis (by simp)) (h.known t) (fun k hk => htrace (h.absent t k hk)) htrace
          · change db'.wal = w.db.wal
            rw [hdb']; rfl
          · simp [hfinal]
          · simp [hstage]
        · rw [Database.settle, if_neg hab] at hdb'
          refine h.commits ht tx.changes hfinal hsound rfl hothers (hclosed r (.inr hdb'))
            (.inl hstage) ?_ (.inl (hsession _ List.mem_cons_self)) ?_ rfl rfl rfl htrace
          · change db'.wal = w.db.wal ++ [⟨t, tx.changes⟩]
            rw [hdb']; rfl
          · simp [hstage]
      · -- the transaction of `persist`
        rw [htx, hs] at hsession
        obtain ⟨hab, haccepts⟩ := hsession
        rw [Database.settle, if_neg (by simp [hab])] at hdb'
        refine h.commits ht tx.changes hfinal hsound rfl hothers (hclosed r (.inr hdb'))
          hwebhook ?_ (.inr ⟨row, id, haccepts, ?_⟩) ?_ rfl rfl rfl htrace
        · change db'.wal = w.db.wal ++ [⟨t, tx.changes⟩]
          rw [hdb']; rfl
        · rcases hr with rfl | rfl <;> simp [CallState.next, hs, Stage.afterCommit, Stage.final]
        · intro row' id' hs'
          rcases hr with rfl | rfl
          · simp only [CallState.next, hs, Stage.afterCommit, Stage.committed.injEq] at hs'
            obtain ⟨rfl, rfl⟩ := hs'
            exact haccepts
          · simp [CallState.next, hs, Stage.afterCommit] at hs'
    rcases hend with ⟨hr, hdb'⟩ | ⟨hr, hdb'⟩ | ⟨e, hr, -, hdb'⟩
    · exact hsettle hdb' (.inl hr)
    · exact hsettle hdb' (.inr hr)
    · exact hdiscard hdb' (by simp [hr])
  | rollback =>
    obtain ⟨db', hdb, rfl⟩ := onDb_eq_some h₁
    obtain ⟨tx, htx, hdb', -⟩ := Database.execRollback_eq_some hdb
    have hnext : (σ t).next .rollback r = { σ t with stage := .outside } := by cases r <;> rfl
    rw [hnext]
    refine h.update ht hsound rfl hothers ?_ (.inl rfl) ?_ ?_ (by simp) (hredis (by simp)) (h.known t)
      (fun k hk => htrace (h.absent t k hk)) htrace
    · change Stage.Describes P .outside (db'.sessions t)
      have hnone : db'.sessions t = none := hdb' ▸ Database.close_sessions_self
      rw [hnone]; exact trivial
    · change db'.wal = w.db.wal
      rw [hdb']; rfl
    · intro p hp
      rcases hallow with hs | ⟨row, hs⟩
      · simp [hs, Stage.final] at hp
      · simp [hs, Stage.final] at hp
  | savepoint =>
    obtain ⟨db', hdb, rfl⟩ := onDb_eq_some h₁
    have hnext : (σ t).next .savepoint r = σ t := by cases r <;> rfl
    obtain ⟨tx, htx, ⟨e, -, -, hdb'⟩ | ⟨-, hdb'⟩⟩ := Database.execSavepoint_eq_some hdb
    · exact habort tx htx hdb' (by simp) hnext (.inl hallow)
    · refine hstatement tx { tx with saved := tx.changes :: tx.saved } htx ?_ ?_ (by simp) hnext
        (.inl hallow) rfl rfl (fun ch hch => hch)
      · rw [hdb']; exact Database.setSession_sessions_self _
      · rw [hdb']; rfl
  | release =>
    obtain ⟨db', hdb, rfl⟩ := onDb_eq_some h₁
    have hnext : (σ t).next .release r = σ t := by cases r <;> rfl
    obtain ⟨tx, htx, ⟨e, -, -, hdb'⟩ | ⟨-, hdb'⟩⟩ := Database.execRelease_eq_some hdb
    · exact habort tx htx hdb' (by simp) hnext (.inl hallow)
    · refine hstatement tx { tx with saved := tx.saved.tail } htx ?_ ?_ (by simp) hnext
        (.inl hallow) rfl rfl (fun ch hch => List.mem_cons_of_mem _ (List.mem_of_mem_tail hch))
      · rw [hdb']; exact Database.setSession_sessions_self _
      · rw [hdb']; rfl
  | rollbackTo =>
    obtain ⟨db', hdb, rfl⟩ := onDb_eq_some h₁
    have hnext : (σ t).next .rollbackTo r = σ t := by cases r <;> rfl
    obtain ⟨tx, htx, ⟨e, -, -, hdb'⟩ | ⟨ch, saved, hsaved, -, hdb'⟩⟩ :=
      Database.execRollbackTo_eq_some hdb
    · exact habort tx htx hdb' (by simp) hnext (.inl hallow)
    · have hopened : (σ t).stage = .opened := hallow
      rw [htx, hopened] at hsession
      have hch := hsession ch (List.mem_cons_of_mem _ (hsaved ▸ List.mem_cons_self))
      have htxch := hsession tx.changes List.mem_cons_self
      refine hstatement tx { tx with changes := ch, saved, aborted := false } htx ?_ ?_ (by simp)
        hnext (.inl hallow) (hch.1.trans htxch.1.symm) (hch.2.trans htxch.2.symm)
        (fun ch' hch' => List.mem_cons_of_mem _ (hsaved ▸ List.mem_cons_of_mem _ hch'))
      · rw [hdb']; exact Database.setSession_sessions_self _
      · rw [hdb']; rfl
  | insertInbound e =>
    obtain ⟨db', hdb, rfl⟩ := onDb_eq_some h₁
    obtain ⟨hopened, hwebhook⟩ := hallow
    obtain ⟨tx, htx, ⟨exc, rfl, hdb', hexc⟩ | ⟨row, -, -, rfl, -, -, hdb'⟩⟩ :=
      Database.execInsertInbound_eq_some hdb
    · have hstage : (σ t).InTx := .inl hopened
      rcases hexc with hexc | ⟨rfl, i, hi, hkey⟩
      · refine habort tx htx hdb' (by simp) ?_ hstage
        cases exc <;> first | rfl | exact absurd rfl hexc.ne_unique
      · -- the key was stored by a transaction that has committed
        rw [htx, hopened] at hsession
        have hi : i ∈ w.db.inbound := by
          simpa [(hsession tx.changes List.mem_cons_self).1] using hi
        refine h.update ht hsound rfl hothers ?_ (.inr (.inl hopened)) ?_ (fun p hp => hp)
          (fun row id hs => hs) (hredis (by simp)) ?_ (fun k hk => htrace (h.absent t k hk)) htrace
        · change (σ t).stage.Describes P (db'.sessions t)
          rw [hdb', Database.abort, Database.setSession_sessions_self, hopened]
          exact hsession
        · change db'.wal = w.db.wal
          rw [hdb']; rfl
        · intro k hk
          rcases hk with hk | rfl
          · exact h.known t k hk
          · rw [← hkey]
            exact h.row_stored (by rw [hopened]; rfl) hi
    · refine h.update ht hsound rfl hothers ?_ (.inr (.inr hwebhook)) ?_ ?_ (by simp [CallState.next])
        (hredis (by simp)) (h.known t) (fun k hk => htrace (h.absent t k hk)) htrace
      · change Stage.Describes P (.inserted row) (db'.sessions t)
        have hsess : db'.sessions t = some (tx.addInbound row) :=
          hdb' ▸ Database.setSession_sessions_self _
        rw [htx, hopened] at hsession
        have hnothing := hsession tx.changes List.mem_cons_self
        rw [hsess]
        exact ⟨by simp [hnothing.1], by simp [hnothing.2]⟩
      · change db'.wal = w.db.wal
        rw [hdb']; rfl
      · intro p hp
        simp [hopened, Stage.final] at hp
  | insertEvent e =>
    obtain ⟨db', hdb, hdb₁, -⟩ := execOp_insertEvent_eq_some h₁
    obtain ⟨row, hstage, hidentity, hvalid⟩ := hallow
    obtain ⟨tx, htx, ⟨exc, rfl, -, hdb'⟩ | ⟨u, r', hab, -, hr', rfl, hdb'⟩⟩ :=
      Database.execInsertEvent_eq_some hdb
    · exact habort tx htx (hdb₁.trans hdb') (by simp) rfl (.inr ⟨row, hstage⟩)
    · have hnext : (σ t).next (.insertEvent e) (.ok u) = { σ t with stage := .scheduled row u } := by
        simp [CallState.next, hstage]
      have hwebhook : (σ t).IsWebhook := by
        rcases h.webhook t with hs | hs | hs
        · simp [hstage] at hs
        · simp [hstage] at hs
        · exact hs
      obtain ⟨payload, headers, -, -, rfl⟩ := e.row_eq_some P hr'
      rw [hnext]
      refine h.update ht hsound rfl hothers ?_ (.inr (.inr hwebhook)) ?_ ?_ (by simp)
        (hredis (by simp)) (h.known t) (fun k hk => htrace (h.absent t k hk)) htrace
      · change Stage.Describes P (.scheduled row u) (w₁.db.sessions t)
        rw [htx, hstage] at hsession
        rw [hdb₁, hdb', Database.addOutbox, Database.setSession_sessions_self]
        have hinserts := Tx.addInsert_inserts tx
        simp only [hsession.2, List.nil_append] at hinserts
        exact ⟨hab, ⟨hsession.1, ⟨_, hinserts _, rfl, hidentity⟩, hvalid⟩⟩
      · change w₁.db.wal = w.db.wal
        rw [hdb₁, hdb']; rfl
      · intro p hp
        simp [hstage, Stage.final] at hp
  | cancelScan k v =>
    obtain ⟨db', hdb, rfl⟩ := onDb_eq_some h₁
    have hnext : (σ t).next (.cancelScan k v) r = σ t := by cases r <;> rfl
    obtain ⟨tx, htx, ⟨e, -, -, hdb'⟩ | ⟨hdb', -⟩⟩ := Database.execCancelScan_eq_some hdb
    · exact habort tx htx hdb' (by simp) hnext hallow
    · exact hstatement tx tx htx (hdb'.symm ▸ htx) (by rw [hdb']) (by simp) hnext hallow rfl rfl
        (fun ch hch => List.mem_cons_of_mem _ hch)
  | cancelRow id k v reason =>
    obtain ⟨db', hdb, rfl⟩ := onDb_eq_some h₁
    have hnext : (σ t).next (.cancelRow id k v reason) r = σ t := by cases r <;> rfl
    obtain ⟨tx, htx, ⟨e, -, -, hdb'⟩ | ⟨-, -, hdb'⟩ | ⟨row, -, -, -, -, -, hdb'⟩⟩ :=
      Database.execCancelRow_eq_some hdb
    · exact habort tx htx hdb' (by simp) hnext hallow
    · exact hstatement tx tx htx (hdb'.symm ▸ htx) (by rw [hdb']) (by simp) hnext hallow rfl rfl
        (fun ch hch => List.mem_cons_of_mem _ hch)
    · refine hstatement tx (tx.addWrite (row.cancel reason) .cancelled) htx ?_ ?_ (by simp) hnext
        hallow rfl rfl (fun ch hch => List.mem_cons_of_mem _ hch)
      · rw [hdb']; exact Database.setSession_sessions_self _
      · rw [hdb']; rfl
  | dueScan =>
    obtain ⟨db', hdb, rfl⟩ := onDb_eq_some h₁
    have hnext : (σ t).next .dueScan r = σ t := by cases r <;> rfl
    obtain ⟨tx, htx, ⟨e, -, -, hdb'⟩ | ⟨hdb', -⟩⟩ := Database.execDueScan_eq_some hdb
    · exact habort tx htx hdb' (by simp) hnext (.inl hallow)
    · exact hstatement tx tx htx (hdb'.symm ▸ htx) (by rw [hdb']) (by simp) hnext (.inl hallow)
        rfl rfl (fun ch hch => List.mem_cons_of_mem _ hch)
  | lockDue id =>
    obtain ⟨db', hdb, rfl⟩ := onDb_eq_some h₁
    have hnext : (σ t).next (.lockDue id) r = σ t := by cases r <;> rfl
    obtain ⟨tx, htx, ⟨e, -, -, hdb'⟩ | ⟨-, hdb'⟩ | ⟨row, -, -, -, -, -, hdb'⟩⟩ :=
      Database.execLockDue_eq_some hdb
    · exact habort tx htx hdb' (by simp) hnext (.inl hallow)
    · exact hstatement tx tx htx (hdb'.symm ▸ htx) (by rw [hdb']) (by simp) hnext (.inl hallow)
        rfl rfl (fun ch hch => List.mem_cons_of_mem _ hch)
    · exact hstatement tx tx htx (hdb'.symm ▸ htx) (by rw [hdb']; rfl) (by simp) hnext
        (.inl hallow) rfl rfl (fun ch hch => List.mem_cons_of_mem _ hch)
  | markDispatched id => exact hmark h₁ (by simp) (by cases r <;> rfl) (.inl hallow)
  | markFailed id msg => exact hmark h₁ (by simp) (by cases r <;> rfl) (.inl hallow)
  | markRetry id msg at_ => exact hmark h₁ (by simp) (by cases r <;> rfl) (.inl hallow)
  | uuid4 => exact hquiet rfl (by simp) (by cases r <;> rfl)
  | utcnow => exact hquiet rfl (by simp) (by cases r <;> rfl)
  | selectTenant id => exact hquiet rfl (by simp) (by cases r <;> rfl)
  | selectWhitelist provider => exact hquiet rfl (by simp) (by cases r <;> rfl)
  | openChannel => exact hquiet rfl (by simp) (by cases r <;> rfl)
  | getExchange ch name => exact hquiet rfl (by simp) (by cases r <;> rfl)
  | publish exchange message routingKey => exact hquiet rfl (by simp) (by cases r <;> rfl)
  | closeChannel ch => exact hquiet rfl (by simp) (by cases r <;> rfl)
  | isClosed ch => exact hquiet rfl (by simp) (by cases r <;> rfl)
  | getSelf p => exact hquiet rfl (by simp) (by cases r <;> rfl)
  | setChannel p ch => exact hquiet rfl (by simp) (by cases r <;> rfl)
  | setExchange p ex => exact hquiet rfl (by simp) (by cases r <;> rfl)

/-! ### Starting, stopping, the environment -/

/-- A change of the world that the protocol does not speak about. -/
theorem world_congr (h : Accounted P w σ τ) (hsound : w'.Sound)
    (hsessions : w'.db.sessions = w.db.sessions) (hwal : w'.db.wal = w.db.wal)
    (hredis : ∀ k v, w'.redis (idempotencyKey k) = some v → w.redis (idempotencyKey k) = some v)
    (htrace : w'.trace = w.trace) : Accounted P w' σ τ where
  sound := hsound
  task := h.task
  idle := h.idle
  session := by rw [hsessions]; exact h.session
  webhook := h.webhook
  redis := by rw [hwal]; exact fun k v hk => h.redis k v (hredis k v hk)
  known := by rw [hwal]; exact h.known
  absent := by rw [htrace]; exact h.absent
  wal := by rw [hwal]; exact h.wal
  stored := by rw [hwal]; exact h.stored
  once := by rw [hwal]; exact h.once

theorem env (h : Accounted P w σ τ) (e : EnvEvent) : Accounted P (envStep e w) σ τ := by
  have hsound := h.sound.envStep e
  cases e with
  | evict key =>
    refine h.world_congr hsound rfl rfl ?_ rfl
    intro k v hk
    by_cases heq : idempotencyKey k = key
    · simp [envStep, heq] at hk
    · simpa [envStep, heq] using hk
  | tick n => exact h.world_congr hsound rfl rfl (fun _ _ hk => hk) rfl
  | tickApp n => exact h.world_congr hsound rfl rfl (fun _ _ hk => hk) rfl
  | setTenant id row => exact h.world_congr hsound rfl rfl (fun _ _ hk => hk) rfl
  | setWhitelist rows => exact h.world_congr hsound rfl rfl (fun _ _ hk => hk) rfl
  | dropChannel ch => exact h.world_congr hsound rfl rfl (fun _ _ hk => hk) rfl

theorem spawn (h : Accounted P w σ τ) (ht : τ t = none) (k : Task) :
    Accounted P w (Function.update σ t { task := some k }) (Function.update τ t (some k)) where
  sound := h.sound
  task := by
    intro t'
    by_cases heq : t' = t
    · subst heq; simp
    · simpa [heq] using h.task t'
  idle := by
    intro t' ht'
    by_cases heq : t' = t
    · subst heq; simp
    · simpa [heq] using h.idle t' (by simpa [heq] using ht')
  session := by
    rw [Function.forall_update_iff σ (p := fun t' s => s.stage.Describes P (w.db.sessions t'))]
    have hnone := h.session t
    rw [h.idle t ht] at hnone
    exact ⟨hnone, fun t' _ => h.session t'⟩
  webhook := by
    rw [Function.forall_update_iff σ
      (p := fun _ s => s.stage = .outside ∨ s.stage = .opened ∨ s.IsWebhook)]
    exact ⟨.inl rfl, fun t' _ => h.webhook t'⟩
  redis := h.redis
  known := by
    rw [Function.forall_update_iff σ
      (p := fun t' s => ∀ k ∈ s.known, ∃ commit ∈ w.db.wal, commit.tid ≠ t' ∧ commit.Stores k)]
    exact ⟨by simp, fun t' _ => h.known t'⟩
  absent := by
    rw [Function.forall_update_iff σ (p := fun t' s => ∀ k ∈ s.absent,
      (⟨t', .selectByPrHashKey k, .ok none⟩ : Event) ∈ w.trace)]
    exact ⟨by simp, fun t' _ => h.absent t'⟩
  wal := by
    intro commit hc
    rcases h.wal commit hc with hnone | ⟨row, id, haccepts, hsome⟩
    · exact .inl hnone
    · have hne : commit.tid ≠ t := by
        rintro rfl
        simp [h.idle _ ht, Stage.final] at hsome
      exact .inr ⟨row, id, haccepts, by rw [Function.update_of_ne hne]; exact hsome⟩
  stored := by
    rw [Function.forall_update_iff σ (p := fun t' s => ∀ row id, s.stage = .committed row id →
      ∃ commit ∈ w.db.wal, commit.tid = t' ∧ commit.changes.Accepts P row id)]
    exact ⟨by simp, fun t' _ => h.stored t'⟩
  once := h.once

theorem kill (h : Accounted P w σ τ) (ht : τ t ≠ none) :
    Accounted P (vanish t w) (Function.update σ t (σ t).vanish) τ := by
  have hsound := h.sound.vanish t
  have hsession := h.session t
  have hothers : ∀ t' ≠ t, (vanish t w).db.sessions t' = w.db.sessions t' :=
    fun t' hne => vanish_sessions_of_ne t w hne
  have hwal := vanish_wal t w
  have hredis := vanish_redis t w
  have htrace := vanish_trace t w
  have hclosed := vanish_sessions_self t w
  by_cases hfinal : (σ t).stage.final = none
  · -- a call that has stored nothing is outside any transaction now
    rw [CallState.vanish_of_final_eq_none hfinal]
    refine h.update ht hsound rfl hothers ?_ (.inl rfl) hwal (by simp [hfinal]) (by simp) ?_ (h.known t)
      (fun k hk => by rw [htrace]; exact h.absent t k hk) (by simp)
    · rw [hclosed]; exact trivial
    · rw [hredis]; exact h.redis
  · obtain ⟨p, hp⟩ := Option.ne_none_iff_exists'.mp hfinal
    have hnone : w.db.sessions t = none := hsession.none_of_final hp
    rw [CallState.vanish_of_final_eq_some hp]
    refine h.unnoticed ht hsound hothers ?_ hwal (by rw [hredis]; exact h.redis) (by simp)
    rw [hclosed, ← hnone]; exact hsession

end Accounted

end VcsGateway
