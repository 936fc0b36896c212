import VcsGateway.Lifecycle
import VcsGateway.Footprint

/-!
# How a row is delivered

The protocol of a batch: which rows it holds, which of them it has published, and when
it may commit.
-/

namespace VcsGateway

open Async

/-! ### The protocol -/

/-- Where a task stands with its transaction.  A batch is `selecting` until its first
    savepoint and `delivering` from then on; it is `failed` once a statement has failed,
    `doomed` once the rollback to the savepoint has revived it, and `ended` for good.
    `impossible` is a success of a statement of a failed transaction. -/
inductive Phase where
  | outside | scheduling | selecting | delivering | failed | doomed | ended | impossible
deriving DecidableEq

/-- `held` are the rows that the batch has locked and not yet updated, `sent` those that
    it has published. -/
structure BatchState where
  isPublisher : Bool
  phase : Phase := .outside
  held : List OutboxEvent := []
  sent : List UUID := []

/-- The message and the routing key that a publisher makes of a row. -/
structure MessageOf (P : Platform) (row : OutboxEvent) (m : Message) (key : String) : Prop where
  body : rowPayload P row = .ok m.body
  headers : rowHeaders P row = .ok m.headers
  contentType : m.contentType = "application/json"
  source : m.source = some row.outboxId
  key : key = row.eventType

namespace BatchState

def Unsent (s : BatchState) (row : OutboxEvent) : Prop := row ∈ s.held ∧ row.outboxId ∉ s.sent

/-- Every published row has been updated. -/
def Settled (s : BatchState) : Prop := ∀ row ∈ s.held, row.outboxId ∉ s.sent

def InBatch (s : BatchState) : Prop := s.phase = .selecting ∨ s.phase = .delivering

/-- The task is in a transaction. -/
def Open (s : BatchState) : Prop := s.phase ≠ .outside ∧ s.phase ≠ .ended

def permits (P : Platform) (s : BatchState) : Op → Prop
  | .begin => s.phase = .outside
  | .commit => s.phase = .scheduling ∨ (s.InBatch ∧ s.Settled)
  | .rollback => s.Open
  | .savepoint => s.InBatch
  | .release => s.phase = .delivering
  | .rollbackTo => s.phase = .delivering ∨ s.phase = .failed
  | .insertInbound _ | .insertEvent _ | .cancelScan _ _ | .cancelRow _ _ _ _ =>
    s.phase = .scheduling
  | .dueScan | .lockDue _ => s.phase = .selecting
  | .publish _ m key => m.source = none ∨
      s.phase = .delivering ∧ ∃ row, s.Unsent row ∧ MessageOf P row m key
  | .markDispatched id => s.phase = .delivering ∧ ∃ row ∈ s.held, row.outboxId = id ∧ id ∈ s.sent
  | .markFailed id _ => s.phase = .failed ∨ s.phase = .delivering ∧
      ∃ row, s.Unsent row ∧ row.outboxId = id ∧ row.maxRetries ≤ row.retryCount + 1
  | .markRetry id _ _ => s.phase = .failed ∨ s.phase = .delivering ∧
      ∃ row, s.Unsent row ∧ row.outboxId = id ∧ row.retryCount + 1 < row.maxRetries
  | _ => True

def allows (P : Platform) (s : BatchState) (op : Op) : Prop :=
  s.phase = .impossible ∨ s.permits P op

/-- The transaction is over; a batch is the only one of its task. -/
def rest (s : BatchState) : BatchState :=
  { s with phase := if s.isPublisher then .ended else .outside, held := [], sent := [] }

def fail (s : BatchState) : BatchState := { s with phase := .failed }

/-- The row has been updated. -/
def marked (s : BatchState) (id : UUID) : BatchState :=
  if s.phase = .failed then { s with phase := .impossible }
  else { s with held := s.held.filter fun row => row.outboxId ≠ id }

def hold (s : BatchState) (rows : List OutboxEvent) : BatchState :=
  { s with held := s.held ++ rows }

@[simp] theorem hold_nil (s : BatchState) : s.hold [] = s := by
  simp [hold]

@[simp] theorem hold_hold (s : BatchState) (rows rows' : List OutboxEvent) :
    (s.hold rows).hold rows' = s.hold (rows ++ rows') := by
  simp [hold]

def move (s : BatchState) : (op : Op) → Except Exn op.Ret → BatchState
  | .begin, .ok _ => { s with
      phase := if s.isPublisher then .selecting else .scheduling, held := [], sent := [] }
  | .commit, _ | .rollback, _ => s.rest
  | .savepoint, .ok _ => { s with phase := .delivering }
  | .rollbackTo, _ => { s with phase := .doomed }
  | .savepoint, .error _ | .release, .error _ | .dueScan, .error _ | .lockDue _, .error _
  | .markDispatched _, .error _ | .markFailed _ _, .error _ | .markRetry _ _ _, .error _ => s.fail
  | .lockDue _, .ok (some row) => s.hold [row]
  | .publish _ m _, .ok _ => { s with sent := m.source.toList ++ s.sent }
  | .markDispatched id, .ok _ | .markFailed id _, .ok _ | .markRetry id _ _, .ok _ => s.marked id
  | _, _ => s

def next (s : BatchState) (op : Op) (r : Except Exn op.Ret) : BatchState :=
  if s.phase = .impossible then s else s.move op r

theorem next_eq {s : BatchState} (h : s.phase ≠ .impossible) (op : Op) (r : Except Exn op.Ret) :
    s.next op r = s.move op r := if_neg h

end BatchState

/-- The state of a task that starts. -/
def BatchState.start (k : Option Task) : BatchState :=
  { isPublisher := match k with | some (.publisher _) => true | _ => false }

/-- The protocol of delivering rows. -/
def delivery (P : Platform) : Protocol Exn Op Op.Ret where
  State := BatchState
  allows := BatchState.allows P
  next := BatchState.next
  admits := Op.Answers

/-! ### The programs follow it -/

section Conformance

variable {P : Platform} {s : BatchState}

/-- Whatever follows an impossible answer. -/
theorem impossible_conforms {α : Type} (p : Coroutine α) {s : BatchState}
    (h : s.phase = .impossible) : (delivery P).Conforms (fun _ s' => s'.phase = .impossible) p s := by
  induction p with
  | ret r => exact h
  | await op k ih =>
    refine ⟨.inl h, fun r _ => ?_⟩
    have hnext : (delivery P).next s op r = s := if_pos h
    rw [hnext]
    exact ih r

theorem BatchState.next_eq_self {s : BatchState} {op : Op} {r : Except Exn op.Ret}
    (h : s.move op r = s) : s.next op r = s := by
  unfold BatchState.next
  rw [h, ite_self]

/-- The operations that leave the database alone, without `publish`, go unnoticed. -/
theorem quiet_delivers {op : Op} (hq : op.quiet = true) (hp : ∀ ex m key, op ≠ .publish ex m key)
    (s : BatchState) : (delivery P).allows s op ∧ ∀ r, (delivery P).next s op r = s := by
  cases op with
  | publish ex m key => exact absurd rfl (hp ex m key)
  | begin | commit | rollback | savepoint | release | rollbackTo | dueScan => simp [Op.quiet] at hq
  | insertInbound | insertEvent | cancelScan | cancelRow | lockDue => simp [Op.quiet] at hq
  | markDispatched | markFailed | markRetry => simp [Op.quiet] at hq
  | _ => exact ⟨.inr trivial, fun r => BatchState.next_eq_self (by cases r <;> rfl)⟩

theorem idle_delivers {op : Op} (h : op.Idle) (s : BatchState) :
    (delivery P).allows s op ∧ ∀ r, (delivery P).next s op r = s := by
  cases h with
  | journey h =>
    cases h with
    | publish ex m key hm =>
      refine ⟨.inr (.inl hm), fun r => BatchState.next_eq_self ?_⟩
      cases r with
      | ok _ => simp [BatchState.move, hm]
      | error _ => rfl
    | _ => exact quiet_delivers rfl (by simp) s
  | _ => exact quiet_delivers rfl (by simp) s

/-- A transaction that schedules rows. -/
theorem scheduling_rests (hs : s.isPublisher = false) (hrest : s.rest = s) {α : Type}
    {body : Coroutine α} {k : String} {v : Int}
    (hbody : body.Only fun op => (∃ e, op = .insertInbound e) ∨ (∃ e, op = .insertEvent e) ∨
      op.Cancel k v) : Rests (delivery P) (transaction body) s := by
  have hout : s.phase = .outside := by
    rw [← hrest]
    simp [BatchState.rest, hs]
  have hne : s.phase ≠ .impossible := by simp [hout]
  let s₁ : BatchState := { s with phase := .scheduling, held := [], sent := [] }
  have hne₁ : s₁.phase ≠ .impossible := by simp [s₁]
  have hbegin : (delivery P).next s .begin (.ok ()) = s₁ := by
    refine (BatchState.next_eq hne _ _).trans ?_
    simp [BatchState.move, hs, s₁]
  have hend : ∀ r, (delivery P).next s₁ .commit r = s ∧ (delivery P).next s₁ .rollback r = s := by
    intro r
    constructor
    · exact (BatchState.next_eq hne₁ .commit r).trans (by cases r <;> exact hrest)
    · exact (BatchState.next_eq hne₁ .rollback r).trans (by cases r <;> exact hrest)
  refine conforms_transaction (R := fun _ s' => s' = s₁) (.inr hout)
    (fun e _ => BatchState.next_eq hne _ _) ?_ ?_ ?_
  · rw [hbegin]
    refine Protocol.Conforms.idle (P := delivery P) (hbody.mono ?_)
    rintro op (⟨e, rfl⟩ | ⟨e, rfl⟩ | h)
    · exact ⟨.inr rfl, fun r => (BatchState.next_eq hne₁ _ r).trans (by cases r <;> rfl)⟩
    · exact ⟨.inr rfl, fun r => (BatchState.next_eq hne₁ _ r).trans (by cases r <;> rfl)⟩
    · cases h with
      | scan => exact ⟨.inr rfl, fun r => (BatchState.next_eq hne₁ _ r).trans (by cases r <;> rfl)⟩
      | row id reason =>
        exact ⟨.inr rfl, fun r => (BatchState.next_eq hne₁ _ r).trans (by cases r <;> rfl)⟩
  · rintro a s' rfl
    exact ⟨.inr (.inl rfl), (hend _).1, fun e _ => (hend _).1⟩
  · rintro exc s' rfl
    exact ⟨.inr (by simp [BatchState.permits, BatchState.Open, s₁]), (hend _).2, fun e _ => (hend _).2⟩

theorem scheduleEvent_cancels (eventType : String) (correlationId : UUID) (prHashKey : String)
    (prVersion : Int) (payload headers : Json) (debounceSeconds : Nat) :
    (scheduleEvent P eventType correlationId prHashKey prVersion payload headers
      debounceSeconds).Only fun op => (∃ e, op = .insertInbound e) ∨ (∃ e, op = .insertEvent e) ∨
        op.Cancel prHashKey prVersion := by
  refine Prog.Only.bind ((cancelPrevious_only prHashKey prVersion _).mono
    fun op h => .inr (.inr h)) fun _ => ?_
  exact Prog.only_perform.mpr (.inr (.inl ⟨_, rfl⟩))

theorem processWebhook_delivers (hs : s.isPublisher = false) (hrest : s.rest = s) (req : Request) :
    Rests (delivery P) (processWebhook P req) s := by
  refine processWebhook_rests (fun op h => idle_delivers h s) req ?_
  intro correlationId eventId timestamp prData rawJson
  refine scheduling_rests hs hrest (k := requestKey P req prData) (v := 1) ?_
  refine Prog.Only.bind ?_ fun _ => scheduleEvent_cancels _ _ _ _ _ _ _
  exact Prog.Only.bind (Prog.only_perform.mpr (.inl ⟨_, rfl⟩)) fun _ => trivial

/-! ### Selecting -/

theorem lockRows_delivers (ids : List UUID) : ∀ (limit : Nat) (s : BatchState),
    s.phase = .selecting → ids.Nodup → 
    (delivery P).Conforms (fun r s' => match r with
      | .ok rows => s' = s.hold rows ∧
          (rows.map (·.outboxId)).Sublist ids
      | .error _ => s'.Open) (lockRows limit ids) s := by
  induction ids with
  | nil =>
    intro limit s _ _
    cases limit <;> exact ⟨s.hold_nil.symm, List.Sublist.refl _⟩
  | cons id ids ih =>
    intro limit s hs hnodup
    have hne : s.phase ≠ .impossible := by simp [hs]
    have hnodup' := (List.nodup_cons.mp hnodup).2
    cases limit with
    | zero => exact ⟨s.hold_nil.symm, List.nil_sublist _⟩
    | succ limit =>
      refine ⟨.inr hs, fun r hr => ?_⟩
      rcases r with e | _ | row
      · have hnext : (delivery P).next s (.lockDue id) (.error e) = s.fail := BatchState.next_eq hne _ _
        change BatchState.Open ((delivery P).next s (.lockDue id) (.error e))
        rw [hnext]
        simp [BatchState.Open, BatchState.fail]
      · have hnext : (delivery P).next s (.lockDue id) (.ok none) = s := BatchState.next_eq hne _ _
        rw [hnext]
        refine (ih (limit + 1) s hs hnodup').mono ?_
        rintro (e | rows) s' h
        · exact h
        · exact ⟨h.1, h.2.cons _⟩
      · have hid : row.outboxId = id := hr
        have hnext : (delivery P).next s (.lockDue id) (.ok (some row)) =
            s.hold [row] := BatchState.next_eq hne _ _
        rw [hnext]
        refine (ih limit (s.hold [row]) hs hnodup').andThen ?_
        rintro (e | rows) s' h
        · exact h
        · obtain ⟨rfl, hsub⟩ := h
          refine ⟨s.hold_hold [row] rows, ?_⟩
          rw [List.map_cons, hid]
          exact hsub.cons_cons _

theorem selectDue_delivers (hs : s.phase = .selecting) (limit : Nat) :
    (delivery P).Conforms (fun r s' => match r with
      | .ok rows => s' = s.hold rows ∧ (rows.map (·.outboxId)).Nodup
      | .error _ => s'.Open) (selectDue limit) s := by
  have hne : s.phase ≠ .impossible := by simp [hs]
  refine ⟨.inr hs, fun r hr => ?_⟩
  rcases r with e | ids
  · have hnext : (delivery P).next s .dueScan (.error e) = s.fail := BatchState.next_eq hne _ _
    change BatchState.Open ((delivery P).next s .dueScan (.error e))
    rw [hnext]
    simp [BatchState.Open, BatchState.fail]
  · have hnodup : ids.Nodup := hr
    have hnext : (delivery P).next s .dueScan (.ok ids) = s := BatchState.next_eq hne _ _
    rw [hnext]
    refine (lockRows_delivers ids limit s hs hnodup).mono ?_
    rintro (e | rows) s' h
    · exact h
    · exact ⟨h.1, hnodup.sublist h.2⟩

/-! ### Delivering -/

/-- The batch is about to process these rows. -/
def BatchState.Ready (rows : List OutboxEvent) (s : BatchState) : Prop :=
  s.phase = .impossible ∨
    s.InBatch ∧ s.Settled ∧ (rows.map (·.outboxId)).Nodup ∧ ∀ row ∈ rows, s.Unsent row

/-- The row has been updated, perhaps after it was published. -/
structure BatchState.Done (s : BatchState) (row : OutboxEvent) (s' : BatchState) : Prop where
  phase : s'.phase = .delivering
  held : s'.held = s.held.filter fun r => r.outboxId ≠ row.outboxId
  sent : s'.sent = s.sent ∨ s'.sent = row.outboxId :: s.sent

theorem BatchState.Ready.done {row : OutboxEvent} {rows : List OutboxEvent} {s' : BatchState}
    (hsettled : s.Settled) (hnodup : ((row :: rows).map (·.outboxId)).Nodup)
    (hrows : ∀ r ∈ row :: rows, s.Unsent r) (h : s.Done row s') : s'.Ready rows := by
  rw [List.map_cons, List.nodup_cons] at hnodup
  have hsent : ∀ id, id ≠ row.outboxId → id ∉ s.sent → id ∉ s'.sent := by
    intro id hid hold
    rcases h.sent with hs | hs
    · rwa [hs]
    · rw [hs, List.mem_cons]
      rintro (heq | hmem)
      · exact hid heq
      · exact hold hmem
  refine .inr ⟨.inr h.phase, ?_, hnodup.2, ?_⟩
  · intro r hr
    rw [h.held, List.mem_filter] at hr
    exact hsent _ (by simpa using hr.2) (hsettled r hr.1)
  · intro r hr
    have hne : r.outboxId ≠ row.outboxId :=
      fun heq => hnodup.1 (heq ▸ List.mem_map_of_mem hr)
    obtain ⟨hheld, hunsent⟩ := hrows r (List.mem_cons_of_mem _ hr)
    refine ⟨?_, hsent _ hne hunsent⟩
    rw [h.held, List.mem_filter]
    exact ⟨hheld, by simpa using hne⟩

/-- The savepoint can still be rolled back. -/
def BatchState.Revivable (s : BatchState) : Prop :=
  s.phase = .impossible ∨ s.phase = .delivering ∨ s.phase = .failed

/-- One attempt at a row ends with its update, or with an exception. -/
def AttemptPost (s : BatchState) (row : OutboxEvent) (s' : BatchState) : Except Exn Unit → Prop
  | .ok _ => s'.phase = .impossible ∨ s.Done row s'
  | .error _ => s'.Revivable

/-- A statement of a failed transaction: it cannot succeed. -/
theorem markFailure_fails (hs : s.phase = .failed) (row : OutboxEvent) (exc : Exn) :
    (delivery P).Conforms (fun r s' => (∀ u, r = .ok u → s'.phase = .impossible) ∧ s'.Revivable)
      (markFailure P row exc) s := by
  have hne : s.phase ≠ .impossible := by simp [hs]
  have hmarked : ∀ id, (s.marked id).phase = .impossible := fun id => by
    simp [BatchState.marked, hs]
  unfold markFailure
  split
  · refine ⟨.inr (.inl hs), fun r _ => ?_⟩
    rcases r with e | _
    · exact ⟨by simp, .inr (.inr (congrArg _ (BatchState.next_eq hne _ _)))⟩
    · have himp : (s.next (.markFailed row.outboxId (P.excStr exc)) (.ok ())).phase = .impossible := by
        rw [BatchState.next_eq hne]
        exact hmarked row.outboxId
      exact ⟨fun _ _ => himp, .inl himp⟩
  · refine ⟨.inr trivial, fun r _ => ?_⟩
    rw [(quiet_delivers rfl (by simp) s).2 r]
    rcases r with e | now
    · exact ⟨by simp, .inr (.inr hs)⟩
    refine ⟨.inr (.inl hs), fun r _ => ?_⟩
    rcases r with e | _
    · exact ⟨by simp, .inr (.inr (congrArg _ (BatchState.next_eq hne _ _)))⟩
    · have himp : (s.next (.markRetry row.outboxId (P.excStr exc) (now + seconds (min (30 * 2 ^ (row.retryCount + 1)) maxBackoffSeconds))) (.ok ())).phase = .impossible := by
        rw [BatchState.next_eq hne]
        exact hmarked row.outboxId
      exact ⟨fun _ _ => himp, .inl himp⟩

theorem markFailure_delivers (hs : s.phase = .delivering) {row : OutboxEvent} (hrow : s.Unsent row)
    (exc : Exn) :
    (delivery P).Conforms (fun r s' => AttemptPost s row s' r) (markFailure P row exc) s := by
  have hne : s.phase ≠ .impossible := by simp [hs]
  have hdone : s.Done row (s.marked row.outboxId) := by
    have hmarked : s.marked row.outboxId =
        { s with held := s.held.filter fun r => r.outboxId ≠ row.outboxId } :=
      if_neg (by simp [hs])
    rw [hmarked]
    exact ⟨hs, rfl, .inl rfl⟩
  unfold markFailure
  split
  · next hlimit =>
    refine ⟨.inr (.inr ⟨hs, row, hrow, rfl, hlimit⟩), fun r _ => ?_⟩
    rcases r with e | _
    · exact .inr (.inr (congrArg _ (BatchState.next_eq hne _ _)))
    · refine .inr ?_
      rw [show (delivery P).next s _ _ = _ from BatchState.next_eq hne _ _]
      exact hdone
  · next hlimit =>
    refine ⟨.inr trivial, fun r _ => ?_⟩
    rw [(quiet_delivers rfl (by simp) s).2 r]
    rcases r with e | now
    · exact .inr (.inl hs)
    refine ⟨.inr (.inr ⟨hs, row, hrow, rfl, by omega⟩), fun r _ => ?_⟩
    rcases r with e | _
    · exact .inr (.inr (congrArg _ (BatchState.next_eq hne _ _)))
    · refine .inr ?_
      rw [show (delivery P).next s _ _ = _ from BatchState.next_eq hne _ _]
      exact hdone

/-- Forgetting the channel changes nothing. -/
theorem AttemptPost.reset {row : OutboxEvent} {s' : BatchState} {self : Publisher}
    {r : Except Exn Unit} (h : AttemptPost s row s' r) :
    (delivery P).Conforms (fun r s' => AttemptPost s row s' r)
      (Prog.onOk (fun _ => do
        perform (.setChannel self.id none)
        perform (.setExchange self.id none)) r) s' := by
  rcases r with e | u
  · exact h
  have hraise : s'.Revivable := by
    rcases h with h | h
    · exact .inl h
    · exact .inr (.inl h.phase)
  refine ⟨.inr trivial, fun r _ => ?_⟩
  rw [(quiet_delivers rfl (by simp) s').2 r]
  rcases r with e | _
  · exact hraise
  refine ⟨.inr trivial, fun r _ => ?_⟩
  rw [(quiet_delivers rfl (by simp) s').2 r]
  rcases r with e | _
  · exact hraise
  · exact h

/-- The `try` block: the row is published and marked, or it is as it was, or the
    transaction has failed. -/
def PublishPost (s : BatchState) (row : OutboxEvent) (s' : BatchState) : Except Exn Unit → Prop
  | .ok _ => s.Done row s'
  | .error _ => s' = s ∨ s'.phase = .failed

theorem publishRow_delivers (hs : s.phase = .delivering) {row : OutboxEvent} (hrow : s.Unsent row)
    (exchange : Exchange) :
    (delivery P).Conforms (fun r s' => PublishPost s row s' r) (publishRow P exchange row) s := by
  have hne : s.phase ≠ .impossible := by simp [hs]
  refine Protocol.Conforms.ofExcept_bind (r := rowHeaders P row) ?_ fun e _ => .inl rfl
  intro headers hheaders
  refine Protocol.Conforms.ofExcept_bind (r := rowPayload P row) ?_ fun e _ => .inl rfl
  intro body hbody
  refine ⟨.inr (.inr ⟨hs, row, hrow, hbody, hheaders, rfl, rfl, rfl⟩), fun r _ => ?_⟩
  rw [show (delivery P).next s _ r = _ from BatchState.next_eq hne _ _]
  rcases r with e | _
  · exact .inl rfl
  let s₁ : BatchState := { s with sent := row.outboxId :: s.sent }
  have hne₁ : s₁.phase ≠ .impossible := hne
  refine ⟨.inr ⟨hs, row, hrow.1, rfl, List.mem_cons_self⟩, fun r _ => ?_⟩
  change PublishPost s row (s₁.next (.markDispatched row.outboxId) r) r
  rw [BatchState.next_eq hne₁]
  rcases r with e | _
  · exact .inr rfl
  · have hmarked : s₁.marked row.outboxId =
        { s₁ with held := s₁.held.filter fun r => r.outboxId ≠ row.outboxId } :=
      if_neg (by simp [s₁, hs])
    change s.Done row (s₁.marked row.outboxId)
    rw [hmarked]
    exact ⟨hs, rfl, .inr rfl⟩

theorem attempt_delivers (hs : s.phase = .delivering) {row : OutboxEvent} (hrow : s.Unsent row)
    (self : Publisher) (exchange : Exchange) :
    (delivery P).Conforms (fun r s' => AttemptPost s row s' r)
      (exceptException (publishRow P exchange row) (recordFailure P self row)) s := by
  refine (publishRow_delivers hs hrow exchange).handle (fun _ s' h => .inr h) ?_
  intro exc s' h
  have hrevivable : s'.Revivable := by
    rcases h with rfl | h
    · exact .inr (.inl hs)
    · exact .inr (.inr h)
  have hrecord : (delivery P).Conforms (fun r s' => AttemptPost s row s' r)
      (recordFailure P self row exc) s' := by
    rcases h with rfl | h
    · exact (markFailure_delivers hs hrow exc).andThen fun r s₁ h₁ => h₁.reset
    · refine (markFailure_fails h row exc).andThen fun r s₁ h₁ => ?_
      refine AttemptPost.reset ?_
      rcases r with e | u
      · exact h₁.2
      · exact .inl (h₁.1 u rfl)
  cases exc with
  | cancelledError => exact hrevivable
  | _ => exact hrecord

theorem processRow_delivers (self : Publisher) (exchange : Exchange) {row : OutboxEvent}
    {rows : List OutboxEvent} (h : s.Ready (row :: rows)) :
    (delivery P).Conforms (fun r s' => match r with
      | .ok _ => s'.Ready rows
      | .error _ => s'.Open) (processRow P self exchange row) s := by
  rcases h with hs | ⟨hbatch, hsettled, hnodup, hrows⟩
  · refine (impossible_conforms _ hs).mono fun r s' h => ?_
    cases r with
    | ok _ => exact .inl h
    | error _ => simp [BatchState.Open, h]
  have hne : s.phase ≠ .impossible := by
    rcases hbatch with h | h <;> simp [h]
  let s₁ : BatchState := { s with phase := .delivering }
  have hsave : (delivery P).next s .savepoint (.ok ()) = s₁ := BatchState.next_eq hne _ _
  have hrows₁ : ∀ r ∈ row :: rows, s₁.Unsent r := hrows
  have hfailed : ∀ e, BatchState.Open ((delivery P).next s .savepoint (.error e)) := by
    intro e
    rw [show (delivery P).next s .savepoint (.error e) = s.fail from BatchState.next_eq hne _ _]
    simp [BatchState.Open, BatchState.fail]
  refine conforms_nestedTransaction (R := fun r s' => AttemptPost s₁ row s' r) (.inr hbatch)
    (fun e _ => hfailed e) ?_ ?_ ?_
  · rw [hsave]
    exact attempt_delivers rfl (hrows₁ row List.mem_cons_self) self exchange
  · rintro _ s' (himp | hdone)
    · have hnext : ∀ r, (delivery P).next s' .release r = s' := fun r => if_pos himp
      refine ⟨.inl himp, by rw [hnext]; exact .inl himp, fun e _ => ?_⟩
      rw [hnext]
      simp [BatchState.Open, himp]
    · have hne' : s'.phase ≠ .impossible := by simp [hdone.phase]
      refine ⟨.inr hdone.phase, ?_, fun e _ => ?_⟩
      · rw [show (delivery P).next s' .release (.ok ()) = s' from BatchState.next_eq hne' _ _]
        exact BatchState.Ready.done (s := s₁) hsettled hnodup hrows₁ hdone
      · rw [show (delivery P).next s' .release (.error e) = s'.fail from BatchState.next_eq hne' _ _]
        simp [BatchState.Open, BatchState.fail]
  · intro exc s' h
    have hopen : ∀ r, BatchState.Open ((delivery P).next s' .rollbackTo r) := by
      intro r
      by_cases himp : s'.phase = .impossible
      · rw [show (delivery P).next s' .rollbackTo r = s' from if_pos himp]
        simp [BatchState.Open, himp]
      · have hdoomed : s'.move .rollbackTo r = { s' with phase := .doomed } := by cases r <;> rfl
        rw [show (delivery P).next s' .rollbackTo r = _ from BatchState.next_eq himp _ _, hdoomed]
        simp [BatchState.Open]
    exact ⟨h, hopen _, fun e _ => hopen _⟩

theorem ensureExchange_quiet (self : Publisher) :
    (ensureExchange self).Only fun op => op.quiet = true ∧ ∀ ex m key, op ≠ .publish ex m key := by
  refine Prog.Only.bind (Prog.only_perform.mpr ⟨rfl, by simp⟩) fun state => ?_
  refine Prog.Only.bind ?_ fun closed => Prog.Only.bind ?_ fun _ => ?_
  · rcases state.channel with _ | ch
    · exact trivial
    · exact Prog.only_perform.mpr ⟨rfl, by simp⟩
  · cases closed with
    | false => exact trivial
    | true =>
      refine Prog.Only.bind (Prog.only_perform.mpr ⟨rfl, by simp⟩) fun ch => ?_
      refine Prog.Only.bind (Prog.only_perform.mpr ⟨rfl, by simp⟩) fun _ => ?_
      refine Prog.Only.bind (Prog.only_perform.mpr ⟨rfl, by simp⟩) fun ex => ?_
      exact Prog.only_perform.mpr ⟨rfl, by simp⟩
  · refine Prog.Only.bind (Prog.only_perform.mpr ⟨rfl, by simp⟩) fun state => ?_
    split <;> exact trivial

theorem batchBody_delivers (self : Publisher) (hs : s.phase = .selecting) (hsent : s.sent = []) :
    (delivery P).Conforms (fun r s' => match r with
      | .ok _ => s'.Ready []
      | .error _ => s'.Open) (batchBody P self) s := by
  refine (selectDue_delivers hs self.batchSize).bind ?_ fun e s' h => h
  rintro rows s' ⟨rfl, hnodup⟩
  have hready : (s.hold rows).Ready rows := by
    have hunsent : ∀ row : OutboxEvent, row.outboxId ∉ (s.hold rows).sent := by
      intro row
      simp [BatchState.hold, hsent]
    refine .inr ⟨.inl hs, fun row _ => hunsent row, hnodup, fun row hrow => ⟨?_, hunsent row⟩⟩
    exact List.mem_append_right _ hrow
  have hopen : (s.hold rows).Open := by
    have hphase : (s.hold rows).phase = .selecting := hs
    simp [BatchState.Open, hphase]
  split
  · next hnil =>
    rcases rows with _ | ⟨row, rows⟩
    · exact hready
    · simp at hnil
  refine (Protocol.Conforms.idle (P := delivery P) ((ensureExchange_quiet self).mono
    fun op h => quiet_delivers h.1 h.2 (s.hold rows))).bind ?_ ?_
  · rintro exchange s' rfl
    refine Protocol.Conforms.mono (Protocol.Conforms.forEach (P := delivery P)
      (I := BatchState.Ready) (E := fun _ s' => s'.Open) ?_ rows _ hready) ?_
    · intro row rows s h
      refine (processRow_delivers self exchange h).mono ?_
      rintro (e | _) s' h' <;> exact h'
    · rintro (e | _) s' h' <;> exact h' 
  · rintro e s' rfl
    exact hopen

theorem runOnce_delivers (self : Publisher) (hs : s.isPublisher = true) (hout : s.phase = .outside) :
    (delivery P).Conforms (fun _ _ => True) (runOnce P self) s := by
  have hne : s.phase ≠ .impossible := by simp [hout]
  refine Protocol.Conforms.andThen (R := fun _ _ => True) ?_ fun r s' _ => ?_
  · let s₁ : BatchState := { s with phase := .selecting, held := [], sent := [] }
    have hbegin : (delivery P).next s .begin (.ok ()) = s₁ := by
      refine (BatchState.next_eq hne _ _).trans ?_
      simp [BatchState.move, hs, s₁]
    refine conforms_transaction (R := fun r s' => match r with
      | .ok _ => s'.Ready []
      | .error _ => s'.Open) (.inr hout) (fun _ _ => trivial) ?_ ?_ ?_
    · rw [hbegin]
      exact batchBody_delivers self rfl rfl
    · rintro _ s' h
      refine ⟨?_, trivial, fun _ _ => trivial⟩
      rcases h with h | ⟨hbatch, hsettled, -⟩
      · exact .inl h
      · exact .inr (.inr ⟨hbatch, hsettled⟩)
    · rintro exc s' h
      exact ⟨.inr h, trivial, fun _ _ => trivial⟩
  · refine Protocol.Conforms.mono (Protocol.Conforms.idle (P := delivery P) (s := s')
      ((afterBatch_only self r).mono ?_)) fun _ _ _ => trivial
    intro op h
    cases h <;> exact quiet_delivers rfl (by simp) s'

/-- Every task starts outside any transaction and conforms. -/
theorem task_delivers (k : Task) :
    (delivery P).Conforms (fun _ _ => True) (k.prog P) (BatchState.start (some k)) := by
  have honly : ∀ {α : Type} {p : Coroutine α} {s : BatchState}, p.Only Op.Idle →
      (delivery P).Conforms (fun _ _ => True) p s := fun hp =>
    Protocol.Conforms.mono (Protocol.Conforms.idle (P := delivery P)
      (hp.mono fun op h => idle_delivers h _)) fun _ _ _ => trivial
  cases k with
  | webhook req => exact (processWebhook_delivers rfl rfl req).mono fun _ _ _ => trivial
  | checkDuplicate key => exact honly (checkDuplicate_idle P key)
  | checkStale key v => exact honly (checkStale_idle P key v)
  | scheduleEvent a =>
    exact (scheduling_rests rfl rfl (scheduleEvent_cancels _ _ _ _ _ _ _)).mono fun _ _ _ => trivial
  | publisher self => exact runOnce_delivers self rfl rfl

end Conformance

end VcsGateway
