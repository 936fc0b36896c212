import VcsGateway.Trail

/-!
# The tenant cache

Every entry under `tenant:config:*` is the dump of an active row that a call read in
the database.
-/

namespace VcsGateway

open Async

variable {P : Platform}

/-- A tenant entry may be written only by a call that has just read the row, and found it
    active. -/
def snapshotGuard (P : Platform) : GatewayGuard
  | _, past, .redisSetex key ttl value =>
    (∃ k, key = idempotencyKey k) ∨
      ∃ id tenant before, key = tenantConfigKey id ∧
        past = before ++ [(⟨.selectTenant id, .ok (some tenant)⟩ : GatewayStep)] ∧ ttl = 300 ∧
        tenant.isActive = true ∧ value = P.dumps tenant.modelDump
  | _, _, _ => True

/-- An operation that the guard lets pass at any time. -/
def Op.KeepsTenants (op : Op) : Prop :=
  ∀ key ttl value, op = .redisSetex key ttl value → ∃ k, key = idempotencyKey k

theorem snapshotGuard_of_keeps {op : Op} (h : op.KeepsTenants) (k : Task)
    (past : List GatewayStep) : snapshotGuard P k past op := by
  cases op with
  | redisSetex key ttl value => exact .inl (h key ttl value rfl)
  | _ => exact trivial

theorem Op.ForKey.keepsTenants {op : Op} {prHashKey : String} (h : op.ForKey prHashKey) :
    op.KeepsTenants := by
  rintro key ttl value rfl
  cases h with
  | journey h => cases h
  | set ttl => exact ⟨prHashKey, rfl⟩
  | cancel h => cases h

theorem Op.Journey.keepsTenants {op : Op} (h : op.Journey) : op.KeepsTenants := by
  rintro key ttl value rfl
  cases h

theorem Op.InBatch.keepsTenants {op : Op} (h : op.InBatch) : op.KeepsTenants := by
  rintro key ttl value rfl
  cases h

theorem Op.Reset.keepsTenants {op : Op} (h : op.Reset) : op.KeepsTenants := by
  rintro key ttl value rfl
  cases h

/-- A program that keeps the tenant entries respects the guard from any history on. -/
theorem Prog.Only.snapshots {α : Type} {p : Coroutine α} (hp : p.Only Op.KeepsTenants) (k : Task)
    (past : List GatewayStep) :
    (Protocol.guarded (snapshotGuard P) Op.Answers).Conforms (fun _ s => s.1 = some k) p
      (some k, past) := by
  refine (Protocol.Conforms.trail hp fun more op hop => snapshotGuard_of_keeps hop k _).mono ?_
  rintro r s ⟨steps, rfl, -⟩
  rfl

/-- `get_webhook_secret` writes the entry only after it has read the row. -/
theorem getWebhookSecret_snapshots (tenantId : UUID) (k : Task) (past : List GatewayStep) :
    (Protocol.guarded (snapshotGuard P) Op.Answers).Conforms (fun _ s => s.1 = some k)
      (getWebhookSecret P tenantId) (some k, past) := by
  have hcache : (getTenantCache P tenantId).Only Op.KeepsTenants := by
    refine (getTenantCache_only P tenantId).mono ?_
    rintro op rfl key ttl value h
    simp at h
  refine (Prog.Only.snapshots hcache k past).bind ?_ fun e s hs => hs
  rintro cached ⟨_, past₁⟩ rfl
  rcases cached with _ | cached
  · refine ⟨⟨k, rfl, trivial⟩, fun r _ => ?_⟩
    rcases r with e | _ | tenant
    · exact rfl
    · exact rfl
    change (Protocol.guarded (snapshotGuard P) Op.Answers).Conforms _ (ite _ _ _) _
    by_cases hactive : tenant.isActive = true
    · simp only [hactive, Bool.not_true, Bool.false_eq_true, if_false]
      -- the entry is written here
      refine ⟨⟨k, rfl, .inr ⟨tenantId, tenant, past₁, rfl, rfl, rfl, hactive, rfl⟩⟩, fun r _ => ?_⟩
      rcases r with e | _
      · cases e <;> exact rfl
      · exact rfl
    · simp only [hactive, Bool.not_false, if_true]
      exact rfl
  · exact rfl

theorem emit_keepsTenants (stepType : JourneyStepType) (status : JourneyStepStatus)
    (correlationId tenantId : UUID) (metadata : List (String × Json)) :
    (emit P stepType status correlationId tenantId metadata).Only Op.KeepsTenants :=
  (emit_only P stepType status correlationId tenantId metadata).mono fun _ h => h.keepsTenants

theorem afterSecret_keepsTenants (req : Request) (webhookSecret : String) (correlationId : UUID) :
    (do
      let whitelist ← getEventWhitelist req.vcsProvider
      validateSignature P req.vcsProvider req.rawPayload req.headers webhookSecret correlationId
        req.tenantId
      emit P .webhookReceived .inProgress correlationId req.tenantId
      parseStep P req correlationId (extractEventType req.headers) whitelist :
        Coroutine WebhookResult).Only Op.KeepsTenants := by
  refine Prog.Only.bind (Prog.only_perform.mpr fun _ _ _ h => by simp at h) fun whitelist => ?_
  have hsignature : (validateSignature P req.vcsProvider req.rawPayload req.headers webhookSecret
      correlationId req.tenantId).Only Op.KeepsTenants := by
    refine Prog.Only.bind (p := Prog.ofExcept _) trivial fun valid => ?_
    refine (emit_keepsTenants _ _ _ _ _).bind fun _ => ?_
    cases valid <;> exact trivial
  refine hsignature.bind fun _ => ?_
  refine (emit_keepsTenants _ _ _ _ _).bind fun _ => ?_
  refine Prog.Only.bind (p := Prog.ofExcept _) trivial fun prData => ?_
  split
  · exact (emit_keepsTenants _ _ _ _ _).bind fun _ => trivial
  · exact (idempotencyStep_only P _ _ _ _).mono fun _ h => h.keepsTenants

theorem task_snapshots (k : Task) (hk : serviceTask k) :
    (Protocol.guarded (snapshotGuard P) Op.Answers).Conforms (fun _ _ => True) (k.prog P)
      (some k, []) := by
  cases k with
  | webhook req =>
    refine ⟨⟨_, rfl, trivial⟩, fun r _ => ?_⟩
    rcases r with e | correlationId
    · exact trivial
    change (Protocol.guarded (snapshotGuard P) Op.Answers).Conforms _ (ite _ _ _) _
    split
    · exact trivial
    refine (getWebhookSecret_snapshots req.tenantId _ _).bind ?_ fun _ _ _ => trivial
    rintro webhookSecret ⟨_, past⟩ rfl
    exact (Prog.Only.snapshots (afterSecret_keepsTenants req webhookSecret correlationId) _ past).mono
      fun _ _ _ => trivial
  | checkDuplicate key =>
    refine (Prog.Only.snapshots ?_ _ []).mono fun _ _ _ => trivial
    refine ((check_only P key).mono fun _ h => h.keepsTenants).bind fun detection => ?_
    have hselect : (getByPrHashKey P key).Only Op.KeepsTenants := by
      refine (getByPrHashKey_only P key).mono ?_
      rintro op rfl key' ttl value h
      simp at h
    rcases detection with _ | _ | _ | _
    · exact trivial
    · exact trivial
    · exact hselect.bind fun _ => trivial
    · exact trivial
  | checkStale key v =>
    refine (Prog.Only.snapshots ?_ _ []).mono fun _ _ _ => trivial
    have hselect : (getByPrHashKey P key).Only Op.KeepsTenants := by
      refine (getByPrHashKey_only P key).mono ?_
      rintro op rfl key' ttl value h
      simp at h
    refine hselect.bind fun event => ?_
    rcases event with _ | event
    · exact trivial
    · change (ite _ _ _ : Coroutine StaleAnswer).Only _
      split <;> exact trivial
  | scheduleEvent args => exact hk.elim
  | publisher self =>
    refine (Prog.Only.snapshots ?_ _ []).mono fun _ _ _ => trivial
    have hcontrol : ∀ op : Op, (op = .begin ∨ op = .commit ∨ op = .rollback) → op.KeepsTenants := by
      rintro op (rfl | rfl | rfl) key ttl value h <;> simp at h
    refine Prog.Only.andThen ?_ fun r => (afterBatch_only self r).mono fun _ h => h.keepsTenants
    exact transaction_only (hcontrol _ (.inl rfl)) (hcontrol _ (.inr (.inl rfl)))
      (hcontrol _ (.inr (.inr rfl))) ((batchBody_only P self).mono fun _ h => h.keepsTenants)

/-- **Tenant entries are snapshots of active rows** that some call read. -/
theorem tenant_snapshot {c : GatewayConfig} (h : Reachable P serviceTask c) {id : UUID}
    {v : String × Time} (hv : c.world.redis (tenantConfigKey id) = some v) :
    ∃ t id' tenant, tenantConfigKey id = tenantConfigKey id' ∧ tenant.isActive = true ∧
      v.1 = P.dumps tenant.modelDump ∧
      (t, (⟨.selectTenant id', .ok (some tenant)⟩ : GatewayStep)) ∈ c.world.log := by
  obtain ⟨hlog, -⟩ := @reachable_guarded P _ _ (fun _ _ _ => True) task_snapshots c h
  obtain ⟨t, ttl, r, hmem⟩ := reachable_redisLogged h _ v hv
  obtain ⟨pre, rest, heq⟩ := List.append_of_mem hmem
  obtain ⟨k, -, hguard⟩ := hlog pre t _ rest heq
  rcases hguard with ⟨k', hk'⟩ | ⟨id', tenant, before, hkey, hpast, -, hactive, hvalue⟩
  · exact absurd hk'.symm (idempotencyKey_ne_tenantConfigKey k' id)
  · refine ⟨t, id', tenant, hkey, hactive, hvalue, ?_⟩
    rw [heq]
    exact List.mem_append_left _ (mem_historyOf.mp (by simp [hpast]))

/-! ### The lookup of a secret -/

theorem getTenantCache_follows {tenantId : UUID} {steps : List GatewayStep}
    {r : Except Exn (Option Json)} (h : (getTenantCache P tenantId).Follows steps r) :
    ∃ a, steps = [⟨.redisGet (tenantConfigKey tenantId), a⟩] ∧
      ((a = .error .cancelledError ∧ r = .error .cancelledError) ∨ r = .ok none ∨
        ∃ raw cached, a = .ok (some raw) ∧ P.loadsStr raw = some cached ∧ r = .ok (some cached)) := by
  obtain ⟨a, rest, rfl, hrest⟩ := Prog.follows_await.mp h
  rcases a with e | _ | raw
  · cases e with
    | cancelledError =>
      obtain ⟨rfl, rfl⟩ := Prog.follows_ret.mp hrest
      exact ⟨_, rfl, .inl ⟨rfl, rfl⟩⟩
    | _ =>
      obtain ⟨rfl, rfl⟩ := Prog.follows_ret.mp hrest
      exact ⟨_, rfl, .inr (.inl rfl)⟩
  · obtain ⟨rfl, rfl⟩ := Prog.follows_ret.mp hrest
    exact ⟨_, rfl, .inr (.inl rfl)⟩
  · rcases hloads : P.loadsStr raw with _ | cached
    · simp only [Prog.ret_andThen, Prog.onOk, hloads] at hrest
      obtain ⟨rfl, rfl⟩ := Prog.follows_ret.mp hrest
      exact ⟨_, rfl, .inr (.inl rfl)⟩
    · simp only [Prog.ret_andThen, Prog.onOk, hloads] at hrest
      obtain ⟨rfl, rfl⟩ := Prog.follows_ret.mp hrest
      exact ⟨_, rfl, .inr (.inr ⟨raw, cached, rfl, hloads, rfl⟩)⟩

/-- How `get_webhook_secret` ends: on a hit, by a cancellation, or with what the row says. -/
theorem getWebhookSecret_follows {tenantId : UUID} {steps : List GatewayStep} {r : Except Exn String}
    (h : (getWebhookSecret P tenantId).Follows steps r) :
    ∃ a later, steps = ⟨.redisGet (tenantConfigKey tenantId), a⟩ :: later ∧
      ((later = [] ∧ r = .error .cancelledError) ∨
        (later = [] ∧ ∃ raw cached, a = .ok (some raw) ∧ P.loadsStr raw = some cached ∧
          r = secretOfCache P cached) ∨
        (∃ e, later = [⟨.selectTenant tenantId, .error e⟩] ∧ r = .error e) ∨
        (later = [⟨.selectTenant tenantId, .ok none⟩] ∧ r = .error (tenantNotFound tenantId)) ∨
        ∃ tenant, (tenant.isActive = false ∧ later = [⟨.selectTenant tenantId, .ok (some tenant)⟩] ∧
            r = .error tenantInactive) ∨
          (tenant.isActive = true ∧ ∃ b, later = [⟨.selectTenant tenantId, .ok (some tenant)⟩,
              ⟨.redisSetex (tenantConfigKey tenantId) 300 (P.dumps tenant.modelDump), b⟩] ∧
            (r = .ok tenant.webhookSecret ∨ r = .error .cancelledError))) := by
  rcases Prog.follows_bind.mp h with ⟨first, later, cached, rfl, hfirst, hlater⟩ | ⟨e, rfl, he⟩
  swap
  · obtain ⟨a, rfl, ⟨-, hr⟩ | hr | ⟨raw, cached, -, -, hr⟩⟩ := getTenantCache_follows he
    · exact ⟨a, [], rfl, .inl ⟨rfl, by rw [Except.error.inj hr]⟩⟩
    · simp at hr
    · simp at hr
  obtain ⟨a, rfl, ⟨-, hr⟩ | hr | ⟨raw, json, ha, hloads, hr⟩⟩ := getTenantCache_follows hfirst
  · simp at hr
  swap
  · obtain rfl := Except.ok.inj hr
    obtain ⟨rfl, rfl⟩ := Prog.follows_ret.mp hlater
    exact ⟨a, [], rfl, .inr (.inl ⟨rfl, raw, json, ha, hloads, rfl⟩)⟩
  obtain rfl := Except.ok.inj hr
  refine ⟨a, later, rfl, .inr (.inr ?_)⟩
  obtain ⟨b, rest, rfl, hrest⟩ := Prog.follows_await.mp hlater
  rcases b with e | _ | tenant
  · obtain ⟨rfl, rfl⟩ := Prog.follows_ret.mp hrest
    exact .inl ⟨e, rfl, rfl⟩
  · obtain ⟨rfl, rfl⟩ := Prog.follows_ret.mp hrest
    exact .inr (.inl ⟨rfl, rfl⟩)
  change (ite _ _ _ : Coroutine String).Follows rest r at hrest
  refine .inr (.inr ⟨tenant, ?_⟩)
  by_cases hactive : tenant.isActive = true
  · simp only [hactive, Bool.not_true, Bool.false_eq_true, if_false] at hrest
    obtain ⟨d, last, rfl, hend⟩ := Prog.follows_await.mp hrest
    refine .inr ⟨hactive, d, ?_⟩
    rcases d with e | _
    · cases e with
      | cancelledError =>
        obtain ⟨rfl, rfl⟩ := Prog.follows_ret.mp hend
        exact ⟨rfl, .inr rfl⟩
      | _ =>
        obtain ⟨rfl, rfl⟩ := Prog.follows_ret.mp hend
        exact ⟨rfl, .inl rfl⟩
    · obtain ⟨rfl, rfl⟩ := Prog.follows_ret.mp hend
      exact ⟨rfl, .inl rfl⟩
  · simp only [hactive, Bool.not_false, if_true] at hrest
    obtain ⟨rfl, rfl⟩ := Prog.follows_ret.mp hrest
    exact .inl ⟨by simpa using hactive, rfl, rfl⟩

/-- What `get_webhook_secret` makes of the dump of an active row. -/
theorem secretOfCache_modelDump {tenant : Tenant} (h : tenant.isActive = true) :
    secretOfCache P tenant.modelDump = .ok tenant.webhookSecret := by
  simp [secretOfCache, Tenant.modelDump, dictGet?, h, Json.truthy, Platform.str, Json.pyStr]

/-- A hit finds an entry that has not expired. -/
theorem exec_redisGet_some {t : Nat} {key : String} {ch : Choice} {w w' : World} {raw : String}
    (he : exec P t (.redisGet key) ch w = some (.ok (some raw), w')) :
    ∃ v, w.redis key = some v ∧ v.1 = raw ∧ w.clock < v.2 := by
  obtain ⟨w₁, h₁, -⟩ := exec_eq_some he
  rcases awaited_eq_some h₁ with ⟨e, heq, -⟩ | heq
  · simp at heq
  simp only [Option.some.injEq, Prod.mk.injEq, Except.ok.injEq] at heq
  have hcached : w.cached key = some raw := heq.1
  unfold World.cached at hcached
  split at hcached
  · next value expiry hv =>
    split at hcached
    · next hlt => exact ⟨_, hv, Option.some.inj hcached, hlt⟩
    · simp at hcached
  · simp at hcached

def readTenant : GatewayStep → Option Tenant
  | ⟨.selectTenant _, .ok (some tenant)⟩ => some tenant
  | _ => none

/-- The rows that the calls have read so far. -/
def tenantsRead (c : GatewayConfig) : List Tenant := c.world.log.filterMap fun e => readTenant e.2

/-- `json.loads` reads what `json.dumps` wrote of them. -/
def ReadsBack (P : Platform) (c : GatewayConfig) : Prop :=
  ∀ tenant ∈ tenantsRead c, P.loadsStr (P.dumps tenant.modelDump) = some tenant.modelDump

theorem mem_tenantsRead {c : GatewayConfig} {t : Nat} {id : UUID} {tenant : Tenant}
    (h : (t, ⟨.selectTenant id, .ok (some tenant)⟩) ∈ c.world.log) : tenant ∈ tenantsRead c :=
  List.mem_filterMap.mpr ⟨_, h, rfl⟩

/-- A cached entry is the dump of an active row. -/
theorem cached_entry {c : GatewayConfig} (hcodec : ReadsBack P c) (h : Reachable P serviceTask c)
    {t : Nat} {tenantId : UUID} {raw : String} {cached : Json}
    (hget : ⟨.redisGet (tenantConfigKey tenantId), .ok (some raw)⟩ ∈ stepsOf c t)
    (hloads : P.loadsStr raw = some cached) :
    ∃ tenant : Tenant, tenant.isActive = true ∧ cached = tenant.modelDump := by
  obtain ⟨c₁, ch, w₂, hreach, he, hlog⟩ := reachable_happened_before h hget
  obtain ⟨v, hv, hraw, -⟩ := exec_redisGet_some he
  obtain ⟨t', id', tenant, -, hactive, hvalue, hmem⟩ := tenant_snapshot hreach hv
  rw [← hraw, hvalue, hcodec tenant (mem_tenantsRead (hlog hmem))] at hloads
  exact ⟨tenant, hactive, (Option.some.inj hloads).symm⟩

theorem cached_secret {c : GatewayConfig} (hcodec : ReadsBack P c) (h : Reachable P serviceTask c)
    {t : Nat} {tenantId : UUID} {raw : String} {cached : Json}
    (hget : ⟨.redisGet (tenantConfigKey tenantId), .ok (some raw)⟩ ∈ stepsOf c t)
    (hloads : P.loadsStr raw = some cached) : ∃ secret, secretOfCache P cached = .ok secret := by
  obtain ⟨tenant, hactive, rfl⟩ := cached_entry hcodec h hget hloads
  exact ⟨tenant.webhookSecret, secretOfCache_modelDump hactive⟩

end VcsGateway
