import VcsGateway.Async.Alike
import VcsGateway.Agreement
import VcsGateway.Keys

/-!
# The secret stays where it is

Two runs of the service that differ in the webhook secrets of the tenants, and in the
`X-Gitlab-Token` of the requests, but in which every request verifies in both or in
neither, store and publish the same and answer the same.
-/

namespace VcsGateway

open Async

/-! ### The world in another dress

The tables of the tenants, the contents of Redis and the trace are all that may differ
between the two runs. -/

namespace Database

def withTenants (db : Database) (tenants : UUID → Option Tenant) : Database := { db with tenants }

/-- The same outcome over other tenants. -/
def Outcome.dress {α : Type} (tenants : UUID → Option Tenant) (o : Outcome Database α) :
    Outcome Database α :=
  o.map fun (r, db) => (r, db.withTenants tenants)

variable (db : Database) (tenants : UUID → Option Tenant) (t : Nat) (c : Choice) (P : Platform)

theorem awaited_dress {α : Type} {broken broken' : Database} {r r' : Outcome Database α}
    (hbroken : broken' = broken.withTenants tenants) (hr : r' = Outcome.dress tenants r) :
    awaited c broken' r' = Outcome.dress tenants (awaited c broken r) := by
  rw [hbroken, hr]
  cases c <;> rfl

@[simp] theorem withTenants_sessions : (db.withTenants tenants).sessions = db.sessions := rfl

/-- A statement reads the session and the tables, not the tenants. -/
theorem inTx_dress {α : Type} {r r' : Tx → Outcome Database α}
    (h : ∀ tx, r' tx = Outcome.dress tenants (r tx)) :
    (db.withTenants tenants).inTx t r' = Outcome.dress tenants (db.inTx t r) := by
  unfold inTx
  rw [withTenants_sessions]
  rcases db.sessions t with _ | tx
  · rfl
  · simp only [h tx]
    by_cases haborted : tx.aborted = true
    · simp only [haborted, if_true]; rfl
    · simp only [haborted]; rfl

theorem execBegin_dress (now : Time) : (db.withTenants tenants).execBegin t now c =
    Outcome.dress tenants (db.execBegin t now c) := by
  unfold execBegin
  rw [withTenants_sessions]
  rcases db.sessions t with _ | tx
  · exact awaited_dress tenants c rfl rfl
  · rfl

theorem execCommit_dress : (db.withTenants tenants).execCommit t c =
    Outcome.dress tenants (db.execCommit t c) := by
  unfold execCommit
  rw [withTenants_sessions]
  rcases db.sessions t with _ | tx
  · rfl
  · have hsettle : (db.withTenants tenants).settle t tx = (db.settle t tx).withTenants tenants := by
      unfold settle
      by_cases haborted : tx.aborted = true <;> simp only [haborted] <;> rfl
    cases c <;> simp only [hsettle] <;> rfl

theorem execRollback_dress : (db.withTenants tenants).execRollback t c =
    Outcome.dress tenants (db.execRollback t c) := by
  unfold execRollback
  rw [withTenants_sessions]
  rcases db.sessions t with _ | tx
  · rfl
  · exact awaited_dress tenants c rfl rfl

theorem execSavepoint_dress : (db.withTenants tenants).execSavepoint t c =
    Outcome.dress tenants (db.execSavepoint t c) :=
  db.inTx_dress tenants t fun _ => awaited_dress tenants c rfl rfl

theorem execRelease_dress : (db.withTenants tenants).execRelease t c =
    Outcome.dress tenants (db.execRelease t c) :=
  db.inTx_dress tenants t fun _ => awaited_dress tenants c rfl rfl

theorem execRollbackTo_dress : (db.withTenants tenants).execRollbackTo t c =
    Outcome.dress tenants (db.execRollbackTo t c) := by
  unfold execRollbackTo
  rw [withTenants_sessions]
  rcases db.sessions t with _ | tx
  · rfl
  · rcases hsaved : tx.saved with _ | ⟨ch, saved⟩
    · simp only [hsaved]; rfl
    · simp only [hsaved]
      exact awaited_dress tenants c rfl rfl

theorem execInsertInbound_dress (e : NewInboundEvent) :
    (db.withTenants tenants).execInsertInbound t P c e =
      Outcome.dress tenants (db.execInsertInbound t P c e) := by
  apply inTx_dress
  intro tx
  refine awaited_dress tenants c rfl ?_
  rcases e.row P tx.now with _ | row
  · rfl
  · by_cases hany : (db.inbound ++ tx.changes.inbound).any (fun i => i.prHashKey = row.prHashKey) = true
    · simp only [hany, withTenants, if_true]; rfl
    · simp only [hany, withTenants]
      rcases db.keyLock row.prHashKey with _ | t' <;> rfl

theorem execInsertEvent_dress (e : NewOutboxEvent) :
    (db.withTenants tenants).execInsertEvent t P c e =
      Outcome.dress tenants (db.execInsertEvent t P c e) := by
  apply inTx_dress
  intro tx
  cases c with
  | fresh u =>
    simp only [awaitedFresh]
    rcases e.row P u tx.now with _ | row <;> rfl
  | _ => rfl

theorem execCancelScan_dress (k : String) (v : Int) :
    (db.withTenants tenants).execCancelScan t c k v =
      Outcome.dress tenants (db.execCancelScan t c k v) :=
  db.inTx_dress tenants t fun _ => awaited_dress tenants c rfl rfl

theorem execDueScan_dress : (db.withTenants tenants).execDueScan t c =
    Outcome.dress tenants (db.execDueScan t c) :=
  db.inTx_dress tenants t fun _ => awaited_dress tenants c rfl rfl

/-- A statement on one row: it waits for the lock, or finds the row or not. -/
theorem onRow_dress {α : Type} {id : UUID} {tx : Tx} {locked none' : Outcome Database α}
    {locked' none'' : Outcome Database α} {found found' : OutboxEvent → Outcome Database α}
    (hlocked : locked' = Outcome.dress tenants locked) (hnone : none'' = Outcome.dress tenants none')
    (hfound : ∀ r, found' r = Outcome.dress tenants (found r)) :
    (if (db.withTenants tenants).lockedByOther t id then locked'
      else match tx.changes.version (db.withTenants tenants).outbox id with
        | none => none''
        | some r => found' r) =
    Outcome.dress tenants (if db.lockedByOther t id then locked
      else match tx.changes.version db.outbox id with
        | none => none'
        | some r => found r) := by
  change (if db.lockedByOther t id = true then _
    else match tx.changes.version db.outbox id with | none => _ | some r => _) = _
  by_cases hlock : db.lockedByOther t id = true
  · simp only [hlock, if_true, hlocked]
  · simp only [hlock]
    rcases tx.changes.version db.outbox id with _ | r
    · exact hnone
    · exact hfound r

theorem execCancelRow_dress (id : UUID) (k : String) (v : Int) (reason : String) :
    (db.withTenants tenants).execCancelRow t c id k v reason =
      Outcome.dress tenants (db.execCancelRow t c id k v reason) := by
  apply inTx_dress
  intro tx
  refine awaited_dress tenants c rfl ?_
  apply onRow_dress
  · rfl
  · rfl
  · intro r
    by_cases hprevious : r.isPrevious k v = true <;> simp only [hprevious] <;> rfl

theorem execLockDue_dress (id : UUID) : (db.withTenants tenants).execLockDue t c id =
    Outcome.dress tenants (db.execLockDue t c id) := by
  apply inTx_dress
  intro tx
  refine awaited_dress tenants c rfl ?_
  apply onRow_dress
  · rfl
  · rfl
  · intro r
    by_cases hdue : r.isDue tx.now = true <;> simp only [hdue] <;> rfl

theorem execMark_dress (id : UUID) (m : Mark) (set : Tx → OutboxEvent → OutboxEvent) :
    (db.withTenants tenants).execMark t c id m set =
      Outcome.dress tenants (db.execMark t c id m set) := by
  apply inTx_dress
  intro tx
  refine awaited_dress tenants c rfl ?_
  apply onRow_dress
  · rfl
  · rfl
  · exact fun _ => rfl

end Database

section Dress

variable {P : Platform} {t : Nat} {c : Choice} {w w₁ : World}

/-- The operations that read neither the tenants nor Redis. -/
def Op.blind : Op → Bool
  | .selectTenant _ | .redisGet _ | .redisSetex _ _ _ => false
  | _ => true

def World.dress (w : World) (tenants : UUID → Option Tenant)
    (redis : String → Option (String × Time)) (trace : List Event) : World :=
  { w with db := w.db.withTenants tenants, redis, trace }

variable (tenants : UUID → Option Tenant) (redis : String → Option (String × Time))
  (trace : List Event)

theorem onDb_dress {α : Type} {o o' : Outcome Database α}
    (h : o' = Database.Outcome.dress tenants o) : (w.dress tenants redis trace).onDb o' =
      (w.onDb o).map fun (r, w₁) => (r, w₁.dress tenants redis trace) := by
  rw [h]
  rcases o with _ | ⟨r, db⟩ <;> rfl

theorem takeFresh_dress : (w.dress tenants redis trace).takeFresh c =
    (w.takeFresh c).map fun w₁ => w₁.dress tenants redis trace := by
  cases c with
  | fresh u =>
    simp only [World.takeFresh, World.dress]
    by_cases hu : u ∈ w.used <;> simp only [hu] <;> rfl
  | _ => rfl

/-- A blind operation does the same in any dress. -/
theorem execOp_dress {op : Op} (hblind : op.blind = true) :
    execOp P t c (w.dress tenants redis trace) op =
      (execOp P t c w op).map fun (r, w₁) => (r, w₁.dress tenants redis trace) := by
  cases op with
  | uuid4 =>
    cases c with
    | fresh u =>
      simp only [execOp, execUuid4, takeFresh_dress]
      rcases w.takeFresh (.fresh u) with _ | w₁ <;> rfl
    | _ => rfl
  | insertEvent e =>
    simp only [execOp, takeFresh_dress]
    rcases w.takeFresh c with _ | w₁
    · rfl
    · exact onDb_dress tenants redis trace (w.db.execInsertEvent_dress tenants t c P e)
  | openChannel =>
    simp only [execOp, execOpenChannel, takeFresh_dress]
    rcases w.takeFresh c with _ | w₁
    · rfl
    · cases c <;> rfl
  | begin => exact onDb_dress tenants redis trace (w.db.execBegin_dress tenants t c w.clock)
  | commit => exact onDb_dress tenants redis trace (w.db.execCommit_dress tenants t c)
  | rollback => exact onDb_dress tenants redis trace (w.db.execRollback_dress tenants t c)
  | savepoint => exact onDb_dress tenants redis trace (w.db.execSavepoint_dress tenants t c)
  | release => exact onDb_dress tenants redis trace (w.db.execRelease_dress tenants t c)
  | rollbackTo => exact onDb_dress tenants redis trace (w.db.execRollbackTo_dress tenants t c)
  | insertInbound e =>
    exact onDb_dress tenants redis trace (w.db.execInsertInbound_dress tenants t c P e)
  | cancelScan k v => exact onDb_dress tenants redis trace (w.db.execCancelScan_dress tenants t c k v)
  | cancelRow id k v reason =>
    exact onDb_dress tenants redis trace (w.db.execCancelRow_dress tenants t c id k v reason)
  | dueScan => exact onDb_dress tenants redis trace (w.db.execDueScan_dress tenants t c)
  | lockDue id => exact onDb_dress tenants redis trace (w.db.execLockDue_dress tenants t c id)
  | markDispatched id => exact onDb_dress tenants redis trace (w.db.execMark_dress tenants t c id _ _)
  | markFailed id msg => exact onDb_dress tenants redis trace (w.db.execMark_dress tenants t c id _ _)
  | markRetry id msg at_ =>
    exact onDb_dress tenants redis trace (w.db.execMark_dress tenants t c id _ _)
  | selectTenant id => simp [Op.blind] at hblind
  | redisGet key => simp [Op.blind] at hblind
  | redisSetex key ttl value => simp [Op.blind] at hblind
  | utcnow => cases c <;> rfl
  | selectWhitelist provider => cases c <;> rfl
  | selectByPrHashKey k => cases c <;> rfl
  | getExchange ch name => cases c <;> rfl
  | publish exchange message routingKey => cases c <;> rfl
  | closeChannel ch => cases c <;> rfl
  | isClosed ch => cases c <;> rfl
  | getSelf p => cases c <;> rfl
  | setChannel p ch => cases c <;> rfl
  | setExchange p ex => cases c <;> rfl

/-- A blind operation leaves the dress on. -/
theorem execOp_undressed {op : Op} (hblind : op.blind = true) {r : Except Exn op.Ret}
    (h : execOp P t c w op = some (r, w₁)) : w₁.db.tenants = w.db.tenants ∧ w₁.redis = w.redis ∧
      w₁.trace = w.trace := by
  have hdress := execOp_dress (P := P) (t := t) (c := c) (w := w) w.db.tenants w.redis w.trace hblind
  have hself : w.dress w.db.tenants w.redis w.trace = w := rfl
  rw [hself, h, Option.map_some, Option.some.injEq, Prod.mk.injEq] at hdress
  have heq := hdress.2
  rw [heq]
  exact ⟨rfl, rfl, rfl⟩

end Dress

/-! ### What may differ -/

section Alike

/-- Two versions of a tenant that differ in the secret, and `same` holds of the secrets. -/
structure Tenant.Alike (same : String → String → Prop) (tenant tenant' : Tenant) : Prop where
  secret : same tenant.webhookSecret tenant'.webhookSecret
  rest : tenant' = { tenant with webhookSecret := tenant'.webhookSecret }

-- which secrets of a tenant correspond
variable (P : Platform) (R : UUID → String → String → Prop)

/-- What the two runs may hold under one key of Redis. -/
inductive CachedAlike (key : String) : String → String → Prop
  | same (raw : String) (h : ∀ id, key ≠ tenantConfigKey id) : CachedAlike key raw raw
  | tenant {id : UUID} {tenant tenant' : Tenant} (hkey : key = tenantConfigKey id)
      (h : tenant.Alike (R id) tenant') :
      CachedAlike key (P.dumps tenant.modelDump) (P.dumps tenant'.modelDump)

inductive Op.Alike : Op → Op → Prop
  | same {op : Op} (h : op.KeepsTenants) : Op.Alike op op
  | cache {id : UUID} {tenant tenant' : Tenant} (ttl : Nat) (h : tenant.Alike (R id) tenant') :
      Op.Alike (.redisSetex (tenantConfigKey id) ttl (P.dumps tenant.modelDump))
        (.redisSetex (tenantConfigKey id) ttl (P.dumps tenant'.modelDump))

def AnswerAlike : (o o' : Op) → Except Exn o.Ret → Except Exn o'.Ret → Prop
  | .selectTenant id, .selectTenant _, r, r' => SameOutcome (Option.Rel (Tenant.Alike (R id))) r r'
  | .redisGet key, .redisGet _, r, r' => SameOutcome (Option.Rel (CachedAlike P R key)) r r'
  | .redisSetex _ _ _, .redisSetex _ _ _, r, r' => r = r'
  | _, _, r, r' => HEq r r'

def secretless : Likeness Exn Op Op.Ret where
  op := Op.Alike P R
  answer := AnswerAlike P R

structure Event.Alike (e e' : Event) : Prop where
  tid : e.tid = e'.tid
  op : Op.Alike P R e.op e'.op
  answer : AnswerAlike P R e.op e'.op e.result e'.result

/-- The two worlds are the same but for the secrets. -/
structure World.Twins (w w' : World) : Prop where
  rest : w' = w.dress w'.db.tenants w'.redis w'.trace
  tenants : ∀ id, Option.Rel (Tenant.Alike (R id)) (w.db.tenants id) (w'.db.tenants id)
  redis : ∀ key, Option.Rel (fun v v' => CachedAlike P R key v.1 v'.1 ∧ v.2 = v'.2) (w.redis key)
    (w'.redis key)
  trace : List.Forall₂ (Event.Alike P R) w.trace w'.trace

/-- The two requests differ in `X-Gitlab-Token`, and both verify or neither does. -/
structure Request.Alike (req req' : Request) : Prop where
  tenantId : req'.tenantId = req.tenantId
  vcsProvider : req'.vcsProvider = req.vcsProvider
  rawPayload : req'.rawPayload = req.rawPayload
  headers : req'.headers.filter (·.1 ≠ "X-Gitlab-Token") = req.headers.filter (·.1 ≠ "X-Gitlab-Token")
  verified : ∀ secret secret', R req.tenantId secret secret' →
    signatureValid P req.vcsProvider req.rawPayload req.headers secret =
      signatureValid P req'.vcsProvider req'.rawPayload req'.headers secret'

inductive Task.Alike : Task → Task → Prop
  | webhook {req req' : Request} (h : Request.Alike P R req req') :
      Task.Alike (.webhook req) (.webhook req')
  | checkDuplicate (k : String) : Task.Alike (.checkDuplicate k) (.checkDuplicate k)
  | checkStale (k : String) (v : Int) : Task.Alike (.checkStale k v) (.checkStale k v)
  | publisher (self : Publisher) : Task.Alike (.publisher self) (.publisher self)

inductive EnvEvent.Alike : EnvEvent → EnvEvent → Prop
  | same {e : EnvEvent} (h : ∀ id row, e ≠ .setTenant id row) : EnvEvent.Alike e e
  | setTenant (id : UUID) {row row' : Option Tenant} (h : Option.Rel (Tenant.Alike (R id)) row row') :
      EnvEvent.Alike (.setTenant id row) (.setTenant id row')

end Alike

/-! ### Operations -/

section Steps

variable {P : Platform} {R : UUID → String → String → Prop} {t : Nat} {c : Choice}
  {w w' w₁ : World}

theorem answer_blind {op : Op} (hblind : op.blind = true) (r : Except Exn op.Ret) :
    AnswerAlike P R op op r r := by
  cases op with
  | selectTenant id => simp [Op.blind] at hblind
  | redisGet key => simp [Op.blind] at hblind
  | redisSetex key ttl value => simp [Op.blind] at hblind
  | _ => exact HEq.rfl

theorem World.Twins.clock (h : World.Twins P R w w') : w'.clock = w.clock := by
  rw [h.rest]; rfl

theorem World.Twins.cached (h : World.Twins P R w w') (key : String) :
    Option.Rel (CachedAlike P R key) (w.cached key) (w'.cached key) := by
  unfold World.cached
  have hredis := h.redis key
  generalize w.redis key = v at hredis
  generalize w'.redis key = v' at hredis
  cases hredis with
  | none => exact .none
  | some hv =>
    obtain ⟨hvalue, hexpiry⟩ := hv
    simp only [h.clock, ← hexpiry]
    split
    · exact .some hvalue
    · exact .none

theorem World.Twins.setex (h : World.Twins P R w w') {key value value' : String} (ttl : Nat)
    (hvalue : CachedAlike P R key value value') :
    World.Twins P R (w.setex key ttl value) (w'.setex key ttl value') where
  rest := by
    rw [World.setex, h.rest]
    rfl
  tenants := h.tenants
  redis key' := by
    simp only [World.setex, h.clock]
    by_cases heq : key' = key
    · rw [heq, Function.update_self, Function.update_self]
      exact .some ⟨hvalue, rfl⟩
    · rw [Function.update_of_ne heq, Function.update_of_ne heq]
      exact h.redis key'
  trace := h.trace

theorem World.Twins.record (h : World.Twins P R w w') {e e' : Event} (he : Event.Alike P R e e') :
    World.Twins P R (w.record e) (w'.record e') where
  rest := by
    rw [World.record, h.rest]
    rfl
  tenants := h.tenants
  redis := h.redis
  trace := List.rel_append h.trace (.cons he .nil)

/-- A `SETEX` in both worlds. -/
theorem World.Twins.execSetex (h : World.Twins P R w w') {key value value' : String} {ttl : Nat}
    (hvalue : CachedAlike P R key value value') {r : Except Exn Unit}
    (he : execSetex c w key ttl value = some (r, w₁)) :
    ∃ w₁', VcsGateway.execSetex c w' key ttl value' = some (r, w₁') ∧ World.Twins P R w₁ w₁' := by
  have hset := h.setex ttl hvalue
  cases c with
  | ok =>
    obtain ⟨rfl, rfl⟩ := Prod.mk.inj (Option.some.inj he)
    exact ⟨_, rfl, hset⟩
  | lost n =>
    obtain ⟨rfl, rfl⟩ := Prod.mk.inj (Option.some.inj he)
    exact ⟨_, rfl, hset⟩
  | fault n =>
    obtain ⟨rfl, rfl⟩ := Prod.mk.inj (Option.some.inj he)
    exact ⟨_, rfl, h⟩
  | cancel =>
    obtain ⟨rfl, rfl⟩ := Prod.mk.inj (Option.some.inj he)
    exact ⟨_, rfl, h⟩
  | fresh u => simp [VcsGateway.execSetex, awaited] at he

/-- A read in both worlds. -/
theorem World.Twins.read (h : World.Twins P R w w') {α : Type} {S : α → α → Prop} {a a' : α}
    (ha : S a a') {r : Except Exn α} (he : awaited c w (some (.ok a, w)) = some (r, w₁)) :
    ∃ r' w₁', awaited c w' (some (.ok a', w')) = some (r', w₁') ∧ SameOutcome S r r' ∧
      World.Twins P R w₁ w₁' := by
  cases c with
  | ok =>
    obtain ⟨rfl, rfl⟩ := Prod.mk.inj (Option.some.inj he)
    exact ⟨_, _, rfl, ha, h⟩
  | fault n =>
    obtain ⟨rfl, rfl⟩ := Prod.mk.inj (Option.some.inj he)
    exact ⟨_, _, rfl, rfl, h⟩
  | cancel =>
    obtain ⟨rfl, rfl⟩ := Prod.mk.inj (Option.some.inj he)
    exact ⟨_, _, rfl, rfl, h⟩
  | fresh u => simp [awaited] at he
  | lost n => simp [awaited] at he

theorem World.Twins.execOp (h : World.Twins P R w w') {o o' : Op} (ho : Op.Alike P R o o')
    {r : Except Exn o.Ret} (he : execOp P t c w o = some (r, w₁)) :
    ∃ r' w₁', VcsGateway.execOp P t c w' o' = some (r', w₁') ∧ AnswerAlike P R o o' r r' ∧
      World.Twins P R w₁ w₁' := by
  cases ho with
  | cache ttl halike =>
    obtain ⟨w₁', he', hw₁⟩ := h.execSetex (.tenant rfl halike) he
    exact ⟨r, w₁', he', rfl, hw₁⟩
  | same hkeeps =>
    by_cases hblind : o.blind = true
    · have hdress := execOp_dress (P := P) (t := t) (c := c) (w := w) w'.db.tenants w'.redis w'.trace
        hblind
      rw [← h.rest, he] at hdress
      obtain ⟨htenants, hredis, htrace⟩ := execOp_undressed hblind he
      refine ⟨r, _, hdress, answer_blind hblind r, ?_⟩
      exact ⟨rfl, htenants ▸ h.tenants, hredis ▸ h.redis, htrace ▸ h.trace⟩
    · cases o with
      | selectTenant id => exact h.read (h.tenants id) he
      | redisGet key => exact h.read (h.cached key) he
      | redisSetex key ttl value =>
        obtain ⟨k, rfl⟩ := hkeeps key ttl value rfl
        have hvalue : CachedAlike P R (idempotencyKey k) value value :=
          .same value (idempotencyKey_ne_tenantConfigKey k)
        obtain ⟨w₁', he', hw₁⟩ := h.execSetex hvalue he
        exact ⟨r, w₁', he', rfl, hw₁⟩
      | _ => simp [Op.blind] at hblind

theorem World.Twins.exec (h : World.Twins P R w w') {o o' : Op} (ho : Op.Alike P R o o')
    {r : Except Exn o.Ret} (he : exec P t o c w = some (r, w₁)) :
    ∃ r' w₁', VcsGateway.exec P t o' c w' = some (r', w₁') ∧ AnswerAlike P R o o' r r' ∧
      World.Twins P R w₁ w₁' := by
  obtain ⟨w₂, hop, rfl⟩ := exec_eq_some he
  obtain ⟨r', w₂', hop', hr, hw₂⟩ := h.execOp ho hop
  have hevent : Event.Alike P R ⟨t, o, r⟩ ⟨t, o', r'⟩ := ⟨rfl, ho, hr⟩
  refine ⟨r', w₂'.record ⟨t, o', r'⟩, ?_, hr, hw₂.record hevent⟩
  simp [VcsGateway.exec, hop']

theorem World.Twins.env (h : World.Twins P R w w') {e e' : EnvEvent} (he : EnvEvent.Alike R e e') :
    World.Twins P R (envStep e w) (envStep e' w') := by
  cases he with
  | setTenant id hrow =>
    refine ⟨?_, ?_, h.redis, h.trace⟩
    · simp only [envStep]
      rw [h.rest]
      rfl
    · intro id'
      simp only [envStep]
      by_cases heq : id' = id
      · rw [heq, Function.update_self, Function.update_self]
        exact hrow
      · rw [Function.update_of_ne heq, Function.update_of_ne heq]
        exact h.tenants id'
  | same hno =>
    cases e with
    | setTenant id row => exact absurd rfl (hno id row)
    | evict key =>
      refine ⟨?_, h.tenants, ?_, h.trace⟩
      · simp only [envStep]
        rw [h.rest]
        rfl
      · intro key'
        simp only [envStep]
        by_cases heq : key' = key
        · rw [heq, Function.update_self, Function.update_self]
          exact .none
        · rw [Function.update_of_ne heq, Function.update_of_ne heq]
          exact h.redis key'
    | tick n =>
      refine ⟨?_, h.tenants, h.redis, h.trace⟩
      simp only [envStep]
      rw [h.rest]
      rfl
    | tickApp n =>
      refine ⟨?_, h.tenants, h.redis, h.trace⟩
      simp only [envStep]
      rw [h.rest]
      rfl
    | setWhitelist rows =>
      refine ⟨?_, h.tenants, h.redis, h.trace⟩
      simp only [envStep]
      rw [h.rest]
      rfl
    | dropChannel ch =>
      refine ⟨?_, h.tenants, h.redis, h.trace⟩
      simp only [envStep]
      rw [h.rest]
      rfl

theorem World.Twins.vanish (h : World.Twins P R w w') (t : Nat) :
    World.Twins P R (vanish t w) (vanish t w') := by
  have hsessions : w'.db.sessions t = w.db.sessions t := by rw [h.rest]; rfl
  unfold VcsGateway.vanish
  rw [hsessions]
  rcases w.db.sessions t with _ | tx
  · exact h
  · refine ⟨?_, h.tenants, h.redis, h.trace⟩
    rw [h.rest]
    rfl

end Steps

/-! ### Programs -/

section Programs

variable {P : Platform} {R : UUID → String → String → Prop} {α : Type}

/-- An operation that is answered equally in the two runs. -/
structure Op.Secretless (op : Op) : Prop where
  keeps : op.KeepsTenants
  select : ∀ id, op ≠ .selectTenant id
  get : ∀ key, op = .redisGet key → ∃ k, key = idempotencyKey k

theorem answer_secretless {op : Op} (h : op.Secretless) {r r' : Except Exn op.Ret}
    (hr : AnswerAlike P R op op r r') : r = r' := by
  cases op with
  | selectTenant id => exact absurd rfl (h.select id)
  | redisGet key =>
    obtain ⟨k, rfl⟩ := h.get key rfl
    cases r with
    | error e =>
      cases r' with
      | error e' => exact congrArg Except.error hr
      | ok v' => exact hr.elim
    | ok v =>
      cases r' with
      | error e' => exact hr.elim
      | ok v' =>
        have hv : Option.Rel (CachedAlike P R (idempotencyKey k)) v v' := hr
        cases hv with
        | none => rfl
        | some hvalue =>
          cases hvalue with
          | same raw hno => rfl
          | tenant hkey halike => exact absurd hkey (idempotencyKey_ne_tenantConfigKey k _)
  | redisSetex key ttl value => exact hr
  | _ => exact eq_of_heq hr

theorem alike_refl {p : Coroutine α} (hp : p.Only Op.Secretless) :
    Prog.Alike (secretless P R) (SameOutcome fun a a' => a = a') p p := by
  refine Prog.Alike.refl (hp.mono fun op hop => ?_) (sameOutcome_refl fun _ => rfl)
  exact ⟨.same hop.keeps, fun r r' hr => answer_secretless hop hr⟩

theorem exceptException_alike {S : α → α → Prop} {p p' : Coroutine α} {h h' : Exn → Coroutine α}
    (hp : Prog.Alike (secretless P R) (SameOutcome S) p p')
    (hh : ∀ e, Prog.Alike (secretless P R) (SameOutcome S) (h e) (h' e)) :
    Prog.Alike (secretless P R) (SameOutcome S) (exceptException p h) (exceptException p' h') := by
  refine hp.handle fun e => ?_
  cases e with
  | cancelledError => exact rfl
  | _ => exact hh _

theorem Op.Journey.secretless {op : Op} (h : op.Journey) : op.Secretless := by
  refine ⟨h.keepsTenants, ?_, ?_⟩
  · rintro id rfl
    cases h
  · rintro key rfl
    cases h

theorem Op.ForKey.secretless {op : Op} {prHashKey : String} (h : op.ForKey prHashKey) :
    op.Secretless := by
  refine ⟨h.keepsTenants, ?_, ?_⟩
  · rintro id rfl
    cases h with
    | journey h => cases h
    | cancel h => cases h
  · rintro key rfl
    cases h with
    | journey h => cases h
    | get => exact ⟨prHashKey, rfl⟩
    | cancel h => cases h

theorem Op.InBatch.secretless {op : Op} (h : op.InBatch) : op.Secretless := by
  refine ⟨h.keepsTenants, ?_, ?_⟩
  · rintro id rfl
    cases h
  · rintro key rfl
    cases h

theorem Op.Reset.secretless {op : Op} (h : op.Reset) : op.Secretless := by
  refine ⟨h.keepsTenants, ?_, ?_⟩
  · rintro id rfl
    cases h
  · rintro key rfl
    cases h

theorem emit_secretless (stepType : JourneyStepType) (status : JourneyStepStatus)
    (correlationId tenantId : UUID) (metadata : List (String × Json)) :
    (emit P stepType status correlationId tenantId metadata).Only Op.Secretless :=
  (emit_only P stepType status correlationId tenantId metadata).mono fun _ h => h.secretless

/-- Two dumps of a tenant that differ in the secret. -/
def DumpAlike (R : UUID → String → String → Prop) (id : UUID) (j j' : Json) : Prop :=
  ∃ tenant tenant' : Tenant, tenant.Alike (R id) tenant' ∧ j = tenant.modelDump ∧
    j' = tenant'.modelDump

theorem getTenantCache_alike
    (hread : ∀ tenant : Tenant, P.loadsStr (P.dumps tenant.modelDump) = some tenant.modelDump)
    (id : UUID) : Prog.Alike (secretless P R) (SameOutcome (Option.Rel (DumpAlike R id)))
      (getTenantCache P id) (getTenantCache P id) := by
  refine exceptException_alike ?_ fun _ => .none
  refine Prog.Alike.bind (S := Option.Rel (CachedAlike P R (tenantConfigKey id))) ?_ ?_
  · apply Prog.Alike.perform
    · apply Op.Alike.same
      intro key ttl value h
      simp at h
    · exact fun r r' hr => hr
  · intro raw raw' hraw
    cases hraw with
    | none => exact .none
    | some hvalue =>
      cases hvalue with
      | same raw hno => exact absurd rfl (hno id)
      | @tenant id' tenant tenant' hkey halike =>
        obtain rfl := tenantConfigKey_injective hkey
        simp only [hread]
        exact .some ⟨tenant, tenant', halike, rfl, rfl⟩

/-- The secret that is found is the one that corresponds. -/
theorem getWebhookSecret_alike
    (hread : ∀ tenant : Tenant, P.loadsStr (P.dumps tenant.modelDump) = some tenant.modelDump)
    (id : UUID) : Prog.Alike (secretless P R) (SameOutcome (R id)) (getWebhookSecret P id)
      (getWebhookSecret P id) := by
  refine (getTenantCache_alike hread id).bind fun cached cached' hcached => ?_
  cases hcached with
  | some hdump =>
    obtain ⟨tenant, tenant', halike, rfl, rfl⟩ := hdump
    have hactive : tenant'.isActive = tenant.isActive := by rw [halike.rest]
    by_cases h : tenant.isActive = true
    · simp only [secretOfCache_modelDump h, secretOfCache_modelDump (hactive.trans h)]
      exact halike.secret
    · simp [secretOfCache, Tenant.modelDump, dictGet?, hactive, h, Json.truthy, Prog.ofExcept,
        SameOutcome]
  | none =>
    refine Prog.Alike.bind (S := Option.Rel (Tenant.Alike (R id))) ?_ fun row row' hrow => ?_
    · apply Prog.Alike.perform
      · apply Op.Alike.same
        intro key ttl value h
        simp at h
      · exact fun r r' hr => hr
    · cases hrow with
      | none => exact rfl
      | @some tenant tenant' halike =>
        have hactive : tenant'.isActive = tenant.isActive := by rw [halike.rest]
        simp only [hactive]
        by_cases h : tenant.isActive = true
        · simp only [h, Bool.not_true, Bool.false_eq_true, if_false]
          refine Prog.Alike.bind (S := fun _ _ => True) ?_ fun _ _ _ => halike.secret
          refine exceptException_alike ?_ fun _ => trivial
          refine Prog.Alike.perform (Op.Alike.cache 300 halike) ?_
          intro r r' hr
          have heq : r = r' := hr
          rw [heq]
          exact sameOutcome_refl (fun _ => trivial) r'
        · simp only [h]
          exact rfl

/-! ### Requests -/

theorem dictGet?_filter {β : Type} {items : List (String × β)} {k : String} {p : String × β → Bool}
    (h : ∀ v, p (k, v) = true) : dictGet? (items.filter p) k = dictGet? items k := by
  unfold dictGet?
  rw [List.find?_filter]
  congr 2
  funext kv
  by_cases heq : kv.1 = k
  · obtain ⟨k', v⟩ := kv
    simp only at heq
    rw [heq, h v]
    simp
  · simp [heq]

namespace Request.Alike

variable {req req' : Request}

theorem getD (h : Request.Alike P R req req') {k : String} (hk : k ≠ "X-Gitlab-Token") :
    req'.headers.getD k = req.headers.getD k := by
  unfold Headers.getD
  have hfilter : ∀ headers : Headers,
      dictGet? (headers.filter (·.1 ≠ "X-Gitlab-Token")) k = dictGet? headers k := by
    intro headers
    apply dictGet?_filter
    intro v
    simp [hk]
  rw [← hfilter, h.headers, hfilter]

theorem eventType (h : Request.Alike P R req req') :
    extractEventType req'.headers = extractEventType req.headers := by
  unfold extractEventType
  rw [h.getD (by decide), h.getD (by decide)]

/-- The token is not among the headers that are kept. -/
theorem filterHeaders (h : Request.Alike P R req req') :
    VcsGateway.filterHeaders req'.headers = VcsGateway.filterHeaders req.headers := by
  have hfilter : ∀ headers : Headers, VcsGateway.filterHeaders headers =
      VcsGateway.filterHeaders (headers.filter (·.1 ≠ "X-Gitlab-Token")) := by
    intro headers
    unfold VcsGateway.filterHeaders
    rw [List.filter_filter]
    apply List.filter_congr
    intro kv _
    by_cases heq : kv.1 = "X-Gitlab-Token"
    · simp [heq, relevantHeaders]
    · simp [heq]
  rw [hfilter, h.headers, ← hfilter]

theorem persist (h : Request.Alike P R req req') (correlationId : UUID) (prData : PullRequestData)
    (prHashKey : String) : VcsGateway.persist P req' correlationId prData prHashKey =
      VcsGateway.persist P req correlationId prData prHashKey := by
  simp only [VcsGateway.persist, receivedMessage, inboundArgs, h.tenantId, h.vcsProvider,
    h.rawPayload, h.filterHeaders]

theorem parseStep (h : Request.Alike P R req req') (correlationId : UUID) (eventType : String)
    (whitelist : List VcsEventWhitelist) :
    VcsGateway.parseStep P req' correlationId eventType whitelist =
      VcsGateway.parseStep P req correlationId eventType whitelist := by
  simp only [VcsGateway.parseStep, idempotencyStep, persistStep, requestKey, h.persist, h.tenantId,
    h.vcsProvider, h.rawPayload]

theorem validateSignature (h : Request.Alike P R req req') {secret secret' : String}
    (hsecret : R req.tenantId secret secret') (correlationId : UUID) :
    VcsGateway.validateSignature P req'.vcsProvider req'.rawPayload req'.headers secret' correlationId
        req'.tenantId =
      VcsGateway.validateSignature P req.vcsProvider req.rawPayload req.headers secret correlationId
        req.tenantId := by
  simp only [VcsGateway.validateSignature, h.verified secret secret' hsecret, h.tenantId]

end Request.Alike

theorem parseStep_secretless (req : Request) (correlationId : UUID) (eventType : String)
    (whitelist : List VcsEventWhitelist) :
    (parseStep P req correlationId eventType whitelist).Only Op.Secretless := by
  refine Prog.Only.bind (p := Prog.ofExcept _) trivial fun prData => ?_
  by_cases hallowed : isEventAllowed eventType prData.action whitelist = true
  · simp only [hallowed, Bool.not_true, Bool.false_eq_true, if_false]
    exact (idempotencyStep_only P req correlationId prData _).mono fun _ h => h.secretless
  · simp only [hallowed, Bool.not_false, if_true]
    exact (emit_secretless _ _ _ _ _).bind fun _ => trivial

theorem perform_secretless {op : Op} (h : op.Secretless) :
    Prog.Alike (secretless P R) (SameOutcome fun a a' => a = a') (perform op) (perform op) :=
  alike_refl (Prog.only_perform.mpr h)

theorem processWebhook_alike
    (hread : ∀ tenant : Tenant, P.loadsStr (P.dumps tenant.modelDump) = some tenant.modelDump)
    {req req' : Request} (h : Request.Alike P R req req') :
    Prog.Alike (secretless P R) (SameOutcome fun a a' => a = a') (processWebhook P req)
      (processWebhook P req') := by
  refine (perform_secretless Op.Journey.uuid4.secretless).bind fun correlationId _ hid => ?_
  rw [← hid, h.vcsProvider]
  by_cases hprovider : req.vcsProvider ∉ supportedProviders
  · simp only [hprovider, not_false_eq_true, if_true]
    exact rfl
  · simp only [hprovider, if_false]
    rw [h.tenantId]
    refine (getWebhookSecret_alike hread req.tenantId).bind fun secret secret' hsecret => ?_
    have hwhitelist : (Op.selectWhitelist req.vcsProvider).Secretless := by
      constructor <;> simp [Op.KeepsTenants]
    refine (perform_secretless hwhitelist).bind fun whitelist _ hrows => ?_
    have hsignature := h.validateSignature hsecret correlationId
    rw [h.vcsProvider, h.tenantId] at hsignature
    rw [← hrows, hsignature, h.eventType, h.parseStep]
    refine (alike_refl ((validateSignature_only P _ _ _ _ _ _).mono fun _ h => h.secretless)).bind
      fun _ _ _ => ?_
    refine (alike_refl (emit_secretless _ _ _ _ _)).bind fun _ _ _ => ?_
    exact alike_refl (parseStep_secretless _ _ _ _)

theorem checkDuplicate_secretless (k : String) : (checkDuplicate P k).Only Op.Secretless := by
  refine ((check_only P k).mono fun _ h => h.secretless).bind fun detection => ?_
  rcases detection with _ | _ | _ | _
  · exact trivial
  · exact trivial
  · refine ((getByPrHashKey_only P k).mono ?_).bind fun _ => trivial
    rintro op rfl
    exact (Op.ForKey.select : Op.ForKey k _).secretless
  · exact trivial

theorem checkStale_secretless (k : String) (v : Int) : (checkStale P k v).Only Op.Secretless := by
  refine ((getByPrHashKey_only P k).mono ?_).bind fun event => ?_
  · rintro op rfl
    exact (Op.ForKey.select : Op.ForKey k _).secretless
  rcases event with _ | event
  · exact trivial
  · change (ite _ _ _ : Coroutine StaleAnswer).Only _
    split <;> exact trivial

theorem runOnce_secretless (self : Publisher) : (runOnce P self).Only Op.Secretless := by
  refine Prog.Only.andThen ?_ fun r => (afterBatch_only self r).mono fun _ h => h.secretless
  have htx : ∀ op : Op, Op.ForKey "" op → op.Secretless := fun _ h => h.secretless
  refine transaction_only (htx _ .begin) (htx _ .commit) (htx _ .rollback) ?_
  exact (batchBody_only P self).mono fun _ h => h.secretless

/-- The two calls end with the same answer. -/
def SameAnswer (k k' : Task) (r : Except Exn k.Result) (r' : Except Exn k'.Result) : Prop := HEq r r'

theorem task_alike
    (hread : ∀ tenant : Tenant, P.loadsStr (P.dumps tenant.modelDump) = some tenant.modelDump)
    {k k' : Task} (h : Task.Alike P R k k') :
    Prog.Alike (secretless P R) (SameAnswer k k') (k.prog P) (k'.prog P) := by
  cases h with
  | webhook h => exact (processWebhook_alike hread h).mono fun _ _ hr => heq_of_eq (sameOutcome_eq hr)
  | checkDuplicate k =>
    exact (alike_refl (checkDuplicate_secretless k)).mono fun _ _ hr => heq_of_eq (sameOutcome_eq hr)
  | checkStale k v =>
    exact (alike_refl (checkStale_secretless k v)).mono fun _ _ hr => heq_of_eq (sameOutcome_eq hr)
  | publisher self =>
    exact (alike_refl (runOnce_secretless self)).mono fun _ _ hr => heq_of_eq (sameOutcome_eq hr)

end Programs

/-! ### Runs -/

section Runs

variable {P : Platform} {R : UUID → String → String → Prop}

/-- The gateway in two runs that differ in the secrets. -/
def secretsApart (P : Platform) (R : UUID → String → String → Prop)
    (hread : ∀ tenant : Tenant, P.loadsStr (P.dumps tenant.modelDump) = some tenant.modelDump) :
    (gateway P).Lockstep where
  likeness := secretless P R
  tasks := Task.Alike P R
  envs := EnvEvent.Alike R
  worlds := World.Twins P R
  post := SameAnswer
  progs := task_alike hread
  exec h ho he := h.exec ho he
  env he h := h.env he
  kill t h := h.vanish t

/-- A call of `exchange.publish`, and how it ended. -/
structure Publication where
  tid : Nat
  exchange : Exchange
  message : Message
  routingKey : String
  result : Except Exn Unit

def Event.publication? : Event → Option Publication
  | ⟨tid, .publish exchange message routingKey, result⟩ =>
    some { tid, exchange, message, routingKey, result }
  | _ => none

/-- What has been published, in its order. -/
def published (c : GatewayConfig) : List Publication := c.world.trace.filterMap Event.publication?

/-- What can be seen of a run without the tenant tables and the tenant cache. -/
structure SameInPublic (c c' : GatewayConfig) : Prop where
  inbound : c'.world.db.inbound = c.world.db.inbound
  outbox : c'.world.db.outbox = c.world.db.outbox
  idempotency : ∀ k, c'.world.redis (idempotencyKey k) = c.world.redis (idempotencyKey k)
  published : published c' = published c
  answers : ∀ t req r, Finished c t (.webhook req) r → ∃ req', Finished c' t (.webhook req') r
  others : ∀ t k r, (∀ req, k ≠ .webhook req) → Finished c t k r → Finished c' t k r
  pending : ∀ t, c'.threads t = none ↔ c.threads t = none

theorem World.Twins.inbound {w w' : World} (h : World.Twins P R w w') :
    w'.db.inbound = w.db.inbound := by
  rw [h.rest]; rfl

theorem World.Twins.outbox {w w' : World} (h : World.Twins P R w w') :
    w'.db.outbox = w.db.outbox := by
  rw [h.rest]; rfl

theorem World.Twins.idempotency {w w' : World} (h : World.Twins P R w w') (k : String) :
    w'.redis (idempotencyKey k) = w.redis (idempotencyKey k) := by
  have hredis := h.redis (idempotencyKey k)
  generalize w.redis (idempotencyKey k) = v at hredis
  generalize w'.redis (idempotencyKey k) = v' at hredis
  cases hredis with
  | none => rfl
  | @some v v' hv =>
    obtain ⟨hvalue, hexpiry⟩ := hv
    obtain ⟨value, expiry⟩ := v
    obtain ⟨value', expiry'⟩ := v'
    simp only at hvalue hexpiry
    cases hvalue with
    | same raw hno => rw [hexpiry]
    | tenant hkey halike => exact absurd hkey (idempotencyKey_ne_tenantConfigKey k _)

theorem Event.Alike.publication? {e e' : Event} (h : Event.Alike P R e e') :
    e'.publication? = e.publication? := by
  obtain ⟨t, op, r⟩ := e
  obtain ⟨t', op', r'⟩ := e'
  obtain ⟨htid, hop, hanswer⟩ := h
  simp only at htid hop hanswer
  subst htid
  cases hop with
  | cache ttl halike => rfl
  | same hkeeps =>
    cases op with
    | publish exchange message routingKey =>
      have hr : r = r' := eq_of_heq hanswer
      rw [hr]
    | _ => rfl

theorem World.Twins.published {c c' : GatewayConfig} (h : World.Twins P R c.world c'.world) :
    published c' = published c := by
  unfold VcsGateway.published
  have htrace := h.trace
  generalize c.world.trace = es at htrace
  generalize c'.world.trace = es' at htrace
  induction htrace with
  | nil => rfl
  | cons he _ ih =>
    rw [List.filterMap_cons, List.filterMap_cons, he.publication?, ih]

end Runs

/-! ### The first webhook, under another secret -/

namespace Example

def otherTenants : UUID → Option Tenant := fun id =>
  if id = tenant.tenantId then some { tenant with webhookSecret := "0ther" } else none

def otherDelivery : Request :=
  { firstDelivery with
    headers := [("X-Gitlab-Token", "0ther"), ("X-Gitlab-Event", "Merge Request Hook")] }

/-- The secret of every tenant is replaced. -/
def replaced (_ : UUID) (secret secret' : String) : Prop := secret = "s3cret" ∧ secret' = "0ther"

theorem keeping_reads (tenant : Tenant) :
    keeping.loadsStr (keeping.dumps tenant.modelDump) = some tenant.modelDump := by
  apply keeping_keepsJson.loads_dumps
  apply Platform.Built.dict
  · simp
  · simp only [List.forall_mem_cons]
    refine ⟨.str _, .str _, .str _, .bool _, .str _, .str _, ?_, by simp⟩
    unfold optStr
    cases tenant.customerPlanType with
    | none => exact .null
    | some s => exact .str s

theorem tenants_replaced (id : UUID) :
    Option.Rel (Tenant.Alike (replaced id)) (tenants id) (otherTenants id) := by
  unfold tenants otherTenants
  by_cases h : id = tenant.tenantId
  · simp only [h, if_true]
    exact .some ⟨⟨rfl, rfl⟩, rfl⟩
  · simp only [h, if_false]
    exact .none

theorem delivery_replaced : Request.Alike keeping replaced firstDelivery otherDelivery where
  tenantId := rfl
  vcsProvider := rfl
  rawPayload := rfl
  headers := rfl
  verified := by
    rintro _ _ ⟨rfl, rfl⟩
    rfl

/-- What follows the start of the first webhook in `untilSavepoint`. -/
def afterStart : List GatewayLabel :=
  freshChoices.map (.step 0) ++
    .step 0 (.fresh ⟨21⟩) :: ((Choice.ok :: Choice.ok :: emitChoices 22).map (.step 0) ++
      .env (.tick (seconds 30)) :: .spawn 1 (.publisher publisher) :: batchChoices.map (.step 1))

theorem steps_alike {P : Platform} {R : UUID → String → String → Prop} (t : Nat) (cs : List Choice) :
    List.Forall₂ (Label.Alike (Task.Alike P R) (EnvEvent.Alike R)) (cs.map (.step t))
      (cs.map (.step t)) := by
  induction cs with
  | nil => exact .nil
  | cons c cs ih => exact .cons (.step t c) ih

theorem labels_replaced : List.Forall₂ (Label.Alike (Task.Alike keeping replaced)
    (EnvEvent.Alike replaced)) untilSavepoint (.spawn 0 (.webhook otherDelivery) :: afterStart) := by
  refine .cons (.spawn 0 (.webhook delivery_replaced)) ?_
  refine List.rel_append (steps_alike 0 _) (.cons (.step 0 _) ?_)
  refine List.rel_append (steps_alike 0 _) (.cons (.env (.same ?_)) ?_)
  · intro id row h
    simp at h
  · exact .cons (.spawn 1 (.publisher publisher)) (steps_alike 1 _)

end Example

end VcsGateway
