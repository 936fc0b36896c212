import VcsGateway.Async.Solo
import VcsGateway.Idempotency
import VcsGateway.TenantCache

/-!
# A call that runs alone

What `process_webhook` comes to when no other coroutine runs in between, whatever Redis
and the broker do.
-/

namespace VcsGateway

open Async

variable {P : Platform} {t : Nat} {choose : World → Op → Choice} {w : World}

/-! ### The environment -/

/-- The operations of the database and the publisher's own attributes, which a healthy
    environment answers at once. -/
def Op.steady : Op → Bool
  | .uuid4 | .insertEvent _ | .redisGet _ | .redisSetex _ _ _ => false
  | .openChannel | .getExchange _ _ | .publish _ _ _ | .closeChannel _ => false
  | _ => true

/-- The database is healthy, and Redis answers or fails. -/
structure Serves (choose : World → Op → Choice) : Prop where
  steady : ∀ w op, op.steady = true → choose w op = .ok
  redisGet : ∀ w key, choose w (.redisGet key) = .ok ∨ ∃ n, choose w (.redisGet key) = .fault n
  redisSetex : ∀ w key ttl v, choose w (.redisSetex key ttl v) = .ok ∨
    ∃ n, choose w (.redisSetex key ttl v) = .fault n ∨ choose w (.redisSetex key ttl v) = .lost n

/-- An environment that answers: the database is healthy, and whatever fails is Redis or the
    broker. -/
structure Spares (choose : World → Op → Choice) : Prop extends Serves choose where
  uuid4 : ∀ w, ∃ u, choose w .uuid4 = .fresh u
  insertEvent : ∀ w e, ∃ u, choose w (.insertEvent e) = .fresh u
  openChannel : ∀ w, (∃ u, choose w .openChannel = .fresh u) ∨ ∃ n, choose w .openChannel = .fault n
  getExchange : ∀ w ch name, choose w (.getExchange ch name) = .ok ∨
    ∃ n, choose w (.getExchange ch name) = .fault n
  publish : ∀ w ex m key, choose w (.publish ex m key) = .ok ∨
    ∃ n, choose w (.publish ex m key) = .fault n
  closeChannel : ∀ w ch, choose w (.closeChannel ch) = .ok ∨ ∃ n, choose w (.closeChannel ch) = .fault n

/-- The environment offers an identifier that has been handed out before. -/
def Spent (choose : World → Op → Choice) (w : World) (op : Op) : Prop :=
  ∃ u, choose w op = .fresh u ∧ u ∈ w.used

/-- `w'` differs from `w` in what the pipeline does not read. -/
structure World.Untouched (w w' : World) : Prop where
  db : w'.db = w.db
  redis : w'.redis = w.redis
  clock : w'.clock = w.clock
  appClock : w'.appClock = w.appClock
  used : w.used ⊆ w'.used

/-- A Redis entry that the tables bear out. -/
inductive Backed (P : Platform) (db : Database) : String → String → Prop
  | tenant {tenantId : UUID} {tenant : Tenant} : db.tenants tenantId = some tenant →
      tenant.isActive = true → Backed P db (tenantConfigKey tenantId) (P.dumps tenant.modelDump)
  | processed {row : InboundEvent} : row ∈ db.inbound → Backed P db (idempotencyKey row.prHashKey) "1"

/-- The same, but for Redis entries that the tables bear out. -/
structure World.Calm (P : Platform) (w w' : World) : Prop where
  db : w'.db = w.db
  redis : ∀ key v, w'.redis key = some v → w.redis key = some v ∨ Backed P w.db key v.1
  clock : w'.clock = w.clock
  appClock : w'.appClock = w.appClock
  used : w.used ⊆ w'.used

namespace World

variable {w w₁ w₂ : World}

theorem Untouched.refl (w : World) : w.Untouched w := ⟨rfl, rfl, rfl, rfl, fun _ h => h⟩

theorem Untouched.trans (h : w.Untouched w₁) (h' : w₁.Untouched w₂) : w.Untouched w₂ where
  db := h'.db.trans h.db
  redis := h'.redis.trans h.redis
  clock := h'.clock.trans h.clock
  appClock := h'.appClock.trans h.appClock
  used _ hu := h'.used (h.used hu)

theorem Untouched.calm (h : w.Untouched w₁) : w.Calm P w₁ where
  db := h.db
  redis _ _ hv := .inl (h.redis ▸ hv)
  clock := h.clock
  appClock := h.appClock
  used := h.used

theorem Calm.refl (w : World) : w.Calm P w := (Untouched.refl w).calm

theorem Calm.trans (h : w.Calm P w₁) (h' : w₁.Calm P w₂) : w.Calm P w₂ where
  db := h'.db.trans h.db
  redis key v hv := by
    rcases h'.redis key v hv with hv | hbacked
    · exact h.redis key v hv
    · exact .inr (h.db ▸ hbacked)
  clock := h'.clock.trans h.clock
  appClock := h'.appClock.trans h.appClock
  used _ hu := h'.used (h.used hu)

end World

/-- `p` ends when it runs alone as `t`. -/
abbrev Alone (P : Platform) (t : Nat) (choose : World → Op → Choice) {α : Type}
    (Q : Except Exn α → World → Prop) (p : Coroutine α) (w : World) : Prop :=
  p.Ensures (exec P t) choose Q w

/-- `p` ends when it runs alone as `t`, unless it is offered an identifier that is in use. -/
abbrev Lone (P : Platform) (t : Nat) (choose : World → Op → Choice) {α : Type}
    (Q : Except Exn α → World → Prop) (p : Coroutine α) (w : World) : Prop :=
  p.Attains (exec P t) choose (Spent choose) Q w

/-- What `exec` makes of an operation that `execOp` answers. -/
theorem exec_of_execOp {op : Op} {c : Choice} {r : Except Exn op.Ret} {w₁ : World}
    (h : execOp P t c w op = some (r, w₁)) : exec P t op c w = some (r, w₁.record ⟨t, op, r⟩) := by
  simp [exec, h]

section Rules

variable {α : Type} {Q : Except Exn α → World → Prop} {op : Op}
  {k : Except Exn op.Ret → Coroutine α} {a : Except Exn op.Ret} {c : Choice} {w₁ : World}

theorem alone_await (hc : choose w op = c) (he : execOp P t c w op = some (a, w₁))
    (h : Alone P t choose Q (k a) (w₁.record ⟨t, op, a⟩)) :
    Alone P t choose Q (.await op k) w :=
  .await (exec_of_execOp (hc.symm ▸ he)) h

theorem lone_await (hc : choose w op = c) (he : execOp P t c w op = some (a, w₁))
    (h : Lone P t choose Q (k a) (w₁.record ⟨t, op, a⟩)) :
    Lone P t choose Q (.await op k) w :=
  .await (exec_of_execOp (hc.symm ▸ he)) h

/-- An identifier is handed out, or the coroutine waits. -/
theorem lone_fresh {u : UUID} (hc : choose w op = .fresh u)
    (he : u ∉ w.used → execOp P t (.fresh u) w op = some (a, w₁))
    (hnone : u ∈ w.used → execOp P t (.fresh u) w op = none)
    (h : u ∉ w.used → Lone P t choose Q (k a) (w₁.record ⟨t, op, a⟩)) :
    Lone P t choose Q (.await op k) w := by
  by_cases hu : u ∈ w.used
  · refine .waits ?_ ⟨u, hc, hu⟩
    rw [hc, exec, hnone hu]
    rfl
  · exact lone_await hc (he hu) (h hu)

end Rules

theorem World.Untouched.record (w : World) (e : Event) : w.Untouched (w.record e) :=
  ⟨rfl, rfl, rfl, rfl, fun _ h => h⟩

/-! ### Journey events -/

/-- Answers of a coroutine that is not cancelled. -/
def uncancelled (ok : Op → Prop) : Protocol Exn Op Op.Ret where
  State := Unit
  allows _ op := ok op
  next _ _ _ := ()
  admits _ r := r ≠ .error .cancelledError

/-- A Journey operation is answered, and leaves everything that is read as it was. -/
theorem journey_lone (hs : Spares choose) {op : Op} (h : op.Journey) (w : World) :
    (exec P t op (choose w op) w = none ∧ Spent choose w op) ∨
      ∃ a w', exec P t op (choose w op) w = some (a, w') ∧ a ≠ .error .cancelledError ∧
        w.Untouched w' := by
  cases h with
  | uuid4 =>
    obtain ⟨u, hc⟩ := hs.uuid4 w
    by_cases hu : u ∈ w.used
    · refine .inl ⟨?_, u, hc, hu⟩
      simp [hc, exec, execOp, execUuid4, World.takeFresh, hu]
    · refine .inr ⟨.ok u, _, exec_of_execOp (by
        rw [hc]; simp [execOp, execUuid4, World.takeFresh, hu]; rfl), by simp, ?_⟩
      exact ⟨rfl, rfl, rfl, rfl, fun _ h => List.mem_cons_of_mem _ h⟩
  | utcnow =>
    refine .inr ⟨.ok w.appClock, _, exec_of_execOp (by rw [hs.steady w .utcnow rfl]; rfl), by simp, ?_⟩
    exact ⟨rfl, rfl, rfl, rfl, fun _ h => h⟩
  | openChannel =>
    rcases hs.openChannel w with ⟨u, hc⟩ | ⟨n, hc⟩
    · by_cases hu : u ∈ w.used
      · refine .inl ⟨?_, u, hc, hu⟩
        simp [hc, exec, execOp, execOpenChannel, World.takeFresh, hu]
      · refine .inr ⟨.ok u, _, exec_of_execOp (by
          rw [hc]; simp [execOp, execOpenChannel, World.takeFresh, hu, awaitedFresh]; rfl), by simp, ?_⟩
        exact ⟨rfl, rfl, rfl, rfl, fun _ h => List.mem_cons_of_mem _ h⟩
    · refine .inr ⟨.error (.fault n), _, exec_of_execOp (by rw [hc]; rfl), by simp, ?_⟩
      exact ⟨rfl, rfl, rfl, rfl, fun _ h => h⟩
  | getExchange ch name =>
    rcases hs.getExchange w ch name with hc | ⟨n, hc⟩
    · exact .inr ⟨.ok ⟨ch, name⟩, _, exec_of_execOp (by rw [hc]; rfl), by simp,
        ⟨rfl, rfl, rfl, rfl, fun _ h => h⟩⟩
    · exact .inr ⟨.error (.fault n), _, exec_of_execOp (by rw [hc]; rfl), by simp,
        ⟨rfl, rfl, rfl, rfl, fun _ h => h⟩⟩
  | publish ex m key _ =>
    rcases hs.publish w ex m key with hc | ⟨n, hc⟩
    · exact .inr ⟨.ok (), _, exec_of_execOp (by rw [hc]; rfl), by simp,
        ⟨rfl, rfl, rfl, rfl, fun _ h => h⟩⟩
    · exact .inr ⟨.error (.fault n), _, exec_of_execOp (by rw [hc]; rfl), by simp,
        ⟨rfl, rfl, rfl, rfl, fun _ h => h⟩⟩
  | closeChannel ch =>
    have hclose : execOp P t .ok w (.closeChannel ch) =
        some (.ok (), { w with channels := w.channels.erase ch }) := rfl
    rcases hs.closeChannel w ch with hc | ⟨n, hc⟩
    · refine .inr ⟨.ok (), _, exec_of_execOp (hc.symm ▸ hclose), by simp, ?_⟩
      exact ⟨rfl, rfl, rfl, rfl, fun _ h => h⟩
    · exact .inr ⟨.error (.fault n), _, exec_of_execOp (by rw [hc]; rfl), by simp,
        ⟨rfl, rfl, rfl, rfl, fun _ h => h⟩⟩

/-- A raised exception is no cancellation. -/
def Raises {α : Type} (r : Except Exn α) : Prop := r ≠ .error .cancelledError

section Uncancelled

variable {ok : Op → Prop} {α : Type}

theorem perform_uncancelled {op : Op} (h : ok op) :
    (uncancelled ok).Conforms (fun r _ => Raises r) (perform op) () :=
  ⟨h, fun _ hr => hr⟩

theorem bind_uncancelled {β : Type} {p : Coroutine α} {f : α → Coroutine β}
    (hp : (uncancelled ok).Conforms (fun r _ => Raises r) p ())
    (hf : ∀ a, (uncancelled ok).Conforms (fun r _ => Raises r) (f a) ()) :
    (uncancelled ok).Conforms (fun r _ => Raises r) (p >>= f) () := by
  refine hp.bind (fun a _ _ => hf a) ?_
  intro e _ he hcancel
  exact he (by rw [Except.error.inj hcancel])

/-- `except Exception: return a` returns. -/
theorem exceptException_returns {p : Coroutine α}
    (hp : (uncancelled ok).Conforms (fun r _ => Raises r) p ()) (a : α) :
    (uncancelled ok).Conforms (fun r _ => ∃ a', r = .ok a')
      (exceptException p fun _ => pure a) () := by
  refine hp.handle ?_ ?_
  · intro a' _ _
    exact ⟨a', rfl⟩
  · intro e _ he
    cases e with
    | cancelledError => exact absurd rfl he
    | _ => exact ⟨a, rfl⟩

end Uncancelled

theorem emit_uncancelled (stepType : JourneyStepType) (status : JourneyStepStatus)
    (correlationId tenantId : UUID) (metadata : List (String × Json)) :
    (uncancelled Op.Journey).Conforms (fun r _ => ∃ u, r = .ok u)
      (emit P stepType status correlationId tenantId metadata) () := by
  refine exceptException_returns ?_ ()
  refine bind_uncancelled (perform_uncancelled .uuid4) fun eventId => ?_
  refine bind_uncancelled (perform_uncancelled .utcnow) fun timestamp => ?_
  refine bind_uncancelled (perform_uncancelled .openChannel) fun channel => ?_
  -- the channel is closed, whatever became of the message
  refine Protocol.Conforms.andThen (bind_uncancelled (perform_uncancelled (.getExchange channel _))
    fun exchange => perform_uncancelled (.publish exchange _ _ rfl)) ?_
  intro r _ hr
  refine Protocol.Conforms.andThen (perform_uncancelled (.closeChannel channel)) ?_
  rintro (e | u) _ he
  · intro hcancel
    exact he (by rw [Except.error.inj hcancel])
  · exact hr

theorem emit_lone (hs : Spares choose) (stepType : JourneyStepType) (status : JourneyStepStatus)
    (correlationId tenantId : UUID) (metadata : List (String × Json)) (w : World) :
    Lone P t choose (fun r w' => r = .ok () ∧ w.Untouched w')
      (emit P stepType status correlationId tenantId metadata) w := by
  have hstep : ∀ w₁ (s : Unit) op, w.Untouched w₁ → op.Journey →
      (exec P t op (choose w₁ op) w₁ = none ∧ Spent choose w₁ op) ∨ ∃ a w₂,
        exec P t op (choose w₁ op) w₁ = some (a, w₂) ∧ a ≠ .error .cancelledError ∧
          w.Untouched w₂ := by
    intro w₁ _ op hw hop
    rcases journey_lone (P := P) (t := t) hs hop w₁ with hstuck | ⟨a, w₂, he, hraises, hw₂⟩
    · exact .inl hstuck
    · exact .inr ⟨a, w₂, he, hraises, hw.trans hw₂⟩
  have hconf := emit_uncancelled (P := P) stepType status correlationId tenantId metadata
  apply (hconf.attains (I := fun w' _ => w.Untouched w') hstep (World.Untouched.refl w)).mono
  rintro r w' ⟨-, ⟨⟨⟩, rfl⟩, hw⟩
  exact ⟨rfl, hw⟩

/-! ### Redis -/

/-- `w'` is `w`, or `w` with another entry under `key`. -/
structure World.Wrote (key : String) (w w' : World) : Prop where
  db : w'.db = w.db
  redis : ∀ key', key' ≠ key → w'.redis key' = w.redis key'
  clock : w'.clock = w.clock
  appClock : w'.appClock = w.appClock
  used : w.used ⊆ w'.used

/-- A best-effort write returns. -/
theorem setex_alone (hs : Serves choose) (key : String) (ttl : Nat) (value : String) (w : World) :
    Alone P t choose (fun r w' => r = .ok () ∧ World.Wrote key w w')
      (exceptException (perform (.redisSetex key ttl value)) fun _ => pure ()) w := by
  have hset : ∀ e : Event, World.Wrote key w ((w.setex key ttl value).record e) := by
    intro e
    refine ⟨rfl, fun key' hne => ?_, rfl, rfl, fun _ h => h⟩
    exact Function.update_of_ne hne _ _
  rcases hs.redisSetex w key ttl value with hc | ⟨n, hc | hc⟩
  · exact alone_await hc rfl (Prog.ensures_ret.mpr ⟨rfl, hset _⟩)
  · refine alone_await hc rfl (Prog.ensures_ret.mpr ⟨rfl, ?_⟩)
    exact ⟨rfl, fun _ _ => rfl, rfl, rfl, fun _ h => h⟩
  · exact alone_await hc rfl (Prog.ensures_ret.mpr ⟨rfl, hset _⟩)

/-- A best-effort write of what the tables bear out. -/
theorem setex_backed (hs : Serves choose) {key value : String} (hbacked : Backed P w.db key value)
    (ttl : Nat) : Alone P t choose (fun r w' => r = .ok () ∧ w.Calm P w')
      (exceptException (perform (.redisSetex key ttl value)) fun _ => pure ()) w := by
  have hset : ∀ e : Event, w.Calm P ((w.setex key ttl value).record e) := by
    intro e
    refine ⟨rfl, fun key' v hv => ?_, rfl, rfl, fun _ h => h⟩
    change Function.update w.redis key (some (value, w.clock + seconds ttl)) key' = some v at hv
    by_cases heq : key' = key
    · rw [heq, Function.update_self, Option.some.injEq] at hv
      rw [heq, ← hv]
      exact .inr hbacked
    · rw [Function.update_of_ne heq] at hv
      exact .inl hv
  rcases hs.redisSetex w key ttl value with hc | ⟨n, hc | hc⟩
  · exact alone_await hc rfl (Prog.ensures_ret.mpr ⟨rfl, hset _⟩)
  · exact alone_await hc rfl (Prog.ensures_ret.mpr ⟨rfl, (World.Untouched.record w _).calm⟩)
  · exact alone_await hc rfl (Prog.ensures_ret.mpr ⟨rfl, hset _⟩)

/-! ### The tenant -/

/-- What the tables say about the secret of a tenant. -/
def tenantSecret (tenants : UUID → Option Tenant) (tenantId : UUID) : Except Exn String :=
  match tenants tenantId with
  | none => .error (tenantNotFound tenantId)
  | some tenant => if tenant.isActive then .ok tenant.webhookSecret else .error tenantInactive

/-- A cached entry of the tenant is the dump of its present, active row. -/
def World.CachesTenant (P : Platform) (w : World) (tenantId : UUID) : Prop :=
  ∀ raw, w.cached (tenantConfigKey tenantId) = some raw →
    ∃ tenant, w.db.tenants tenantId = some tenant ∧ tenant.isActive = true ∧
      P.loadsStr raw = some tenant.modelDump

theorem getTenantCache_alone (hs : Serves choose) (tenantId : UUID)
    (hcached : w.CachesTenant P tenantId) :
    Alone P t choose (fun r w' => w.Untouched w' ∧ (r = .ok none ∨
      ∃ tenant, w.db.tenants tenantId = some tenant ∧ tenant.isActive = true ∧
        r = .ok (some tenant.modelDump))) (getTenantCache P tenantId) w := by
  rcases hs.redisGet w (tenantConfigKey tenantId) with hc | ⟨n, hc⟩
  · rcases hget : w.cached (tenantConfigKey tenantId) with _ | raw
    · have he : execOp P t .ok w (.redisGet (tenantConfigKey tenantId)) = some (.ok none, w) := by
        rw [← hget]
        rfl
      exact alone_await hc he (Prog.ensures_ret.mpr ⟨.record w _, .inl rfl⟩)
    · have he : execOp P t .ok w (.redisGet (tenantConfigKey tenantId)) = some (.ok (some raw), w) := by
        rw [← hget]
        rfl
      obtain ⟨tenant, htenant, hactive, hloads⟩ := hcached raw hget
      refine alone_await hc he ?_
      simp only [Prog.onOk, Prog.andThen, hloads]
      exact Prog.ensures_ret.mpr ⟨.record w _, .inr ⟨tenant, htenant, hactive, rfl⟩⟩
  · exact alone_await hc rfl (Prog.ensures_ret.mpr ⟨.record w _, .inl rfl⟩)

/-- **The cache does not matter**: the secret is that of the tables. -/
theorem getWebhookSecret_alone (hs : Serves choose) (tenantId : UUID)
    (hcached : w.CachesTenant P tenantId) :
    Alone P t choose (fun r w' => r = tenantSecret w.db.tenants tenantId ∧ w.Calm P w')
      (getWebhookSecret P tenantId) w := by
  refine (getTenantCache_alone hs tenantId hcached).bind ?_ ?_
  · rintro cached w₁ ⟨hw₁, hr | ⟨tenant, htenant, hactive, hr⟩⟩
    · obtain rfl := Except.ok.inj hr
      have hselect : execOp P t (choose w₁ (.selectTenant tenantId)) w₁ (.selectTenant tenantId) =
          some (.ok (w.db.tenants tenantId), w₁) := by
        rw [hs.steady w₁ _ rfl, ← hw₁.db]
        rfl
      refine alone_await rfl hselect ?_
      have hcalm := hw₁.trans (.record w₁ ⟨t, .selectTenant tenantId, .ok (w.db.tenants tenantId)⟩)
      rcases htenant : w.db.tenants tenantId with _ | tenant
      · rw [htenant] at hcalm
        exact Prog.ensures_ret.mpr ⟨by simp [tenantSecret, htenant], hcalm.calm⟩
      · rw [htenant] at hcalm
        change Alone P t choose _ (ite (!tenant.isActive) _ _) _
        by_cases hactive : tenant.isActive = true
        · simp only [hactive, Bool.not_true, Bool.false_eq_true, if_false]
          refine (setex_backed hs (.tenant (hw₁.db ▸ htenant) hactive) 300).bind ?_ ?_
          · rintro ⟨⟩ w₂ ⟨-, hw₂⟩
            exact Prog.ensures_ret.mpr ⟨by simp [tenantSecret, htenant, hactive],
              hcalm.calm.trans hw₂⟩
          · rintro e w₂ ⟨he, -⟩
            simp at he
        · simp only [hactive, Bool.not_false, if_true]
          exact Prog.ensures_ret.mpr ⟨by simp [tenantSecret, htenant, hactive], hcalm.calm⟩
    · obtain rfl := Except.ok.inj hr
      refine Prog.ensures_ret.mpr ⟨?_, hw₁.calm⟩
      rw [secretOfCache_modelDump hactive, tenantSecret, htenant]
      simp [hactive]
  · rintro e w₁ ⟨-, he | ⟨tenant, -, -, he⟩⟩ <;> simp at he

end VcsGateway
