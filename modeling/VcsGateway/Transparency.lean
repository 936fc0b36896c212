import VcsGateway.Ledger

/-!
# Redis and the broker are transparent

Whatever Redis holds and however it and the broker fail, a webhook comes to the same, and
webhooks that come one after the other are told apart by the tables alone.
-/

namespace VcsGateway

open Async

variable {P : Platform} {t t' : Nat} {choose choose' : World → Op → Choice} {req : Request}

/-! ### Reachable states -/

/-- No tenant has changed since it was cached. -/
def World.TenantsCurrent (P : Platform) (w : World) : Prop :=
  ∀ tenantId v, w.redis (tenantConfigKey tenantId) = some v →
    ∃ tenant, w.db.tenants tenantId = some tenant ∧ tenant.isActive = true ∧
      v.1 = P.dumps tenant.modelDump

/-- No open transaction has entered the key of the request. -/
def World.KeyFree (P : Platform) (req : Request) (w : World) : Prop :=
  ∀ prData, parsePayload P req.vcsProvider req.rawPayload = .ok prData →
    w.db.keyLock (requestKey P req prData) = none

theorem reachable_settled {c : GatewayConfig} (h : Reachable P serviceTask c)
    (hcurrent : c.world.TenantsCurrent P) : c.world.Settled P where
  versions r hr := by
    obtain ⟨σ, hseparate⟩ := reachable_separate h
    exact (hseparate.rows.outbox r hr).1
  valid := stored_valid h
  idempotency k v hv := by
    obtain ⟨σ, hinv, -⟩ := reachable_accounted h
    have hinv : Accounted P c.world σ c.taskOf := hinv
    obtain ⟨commit, hc, row, hrow, hk⟩ := hinv.redis k v hv
    refine ⟨row, ?_, hk⟩
    rw [hinv.sound.inboundWal, List.mem_flatMap]
    exact ⟨commit, hc, hrow⟩
  tenant := hcurrent

/-- What has not been started has no transaction. -/
theorem reachable_free {c : GatewayConfig} (h : Reachable P serviceTask c) (ht : c.threads t = none) :
    c.world.db.Free t := by
  obtain ⟨σ, hinv, -⟩ := reachable_accounted h
  have hinv : Accounted P c.world σ c.taskOf := hinv
  have htask : c.taskOf t = none := by simp [Config.taskOf, ht]
  have hsession : c.world.db.sessions t = none := by
    have hdescribes := hinv.session t
    rw [hinv.idle t htask] at hdescribes
    rcases hs : c.world.db.sessions t with _ | tx
    · rfl
    · rw [hs] at hdescribes
      exact hdescribes.elim
  refine ⟨hsession, fun k hk => ?_⟩
  obtain ⟨tx, htx⟩ := hinv.sound.keyLock k t hk
  rw [hsession] at htx
  simp at htx

/-! ### What does not depend on the draw -/

/-- A result without the identifiers that were drawn. -/
inductive Kind where
  | accepted
  | duplicate (prHashKey : String)
  | ignored (eventType : String)
deriving DecidableEq, Repr

def WebhookResult.kind : WebhookResult → Kind
  | .accepted _ _ _ => .accepted
  | .duplicate _ prHashKey _ => .duplicate prHashKey
  | .ignored _ eventType => .ignored eventType

theorem kind_plain (r : WebhookResult) : r.plain.kind = r.kind := by
  cases r <;> rfl

theorem map_kind_plain (r : Except Exn WebhookResult) :
    (r.map WebhookResult.plain).map WebhookResult.kind = r.map WebhookResult.kind := by
  cases r with
  | error e => rfl
  | ok a => exact congrArg Except.ok (kind_plain a)

theorem rows_of_taken {prData : PullRequestData} {rawJson : List (String × Json)}
    (hloads : loadsDict P req.rawPayload = .ok rawJson)
    (h : Taken P req prData (requestKey P req prData) rawJson) (d : Draw) :
    ∃ x, Ledger.rows P req prData d = .ok x := by
  obtain ⟨row, hrow⟩ := Option.ne_none_iff_exists'.mp (h.inbound d.correlationId d.eventId d.now)
  obtain ⟨event, hvalid⟩ := h.valid _ _ _ row hrow
  obtain ⟨r, hr⟩ := Option.ne_none_iff_exists'.mp
    (h.outbox d.correlationId d.eventId d.timestamp d.outboxId d.now)
  refine ⟨(row, r), ?_⟩
  simp only [Ledger.rows, hloads]
  change Ledger.rowsOf P req prData d rawJson = _
  rw [rowsOf_valid hrow hvalid, hr]

theorem rows_of_refused {prData : PullRequestData} {rawJson : List (String × Json)}
    (hloads : loadsDict P req.rawPayload = .ok rawJson)
    (h : Refused P req prData (requestKey P req prData) rawJson) (d : Draw) :
    Ledger.rows P req prData d = .error .dataError := by
  simp only [Ledger.rows, hloads]
  change Ledger.rowsOf P req prData d rawJson = _
  simp only [Ledger.rowsOf, h d.correlationId d.eventId d.now]

/-- Whether the tables take the rows does not depend on what is drawn. -/
theorem rows_of_draw (hP : P.Digests) (hpool : P.JsonCodec) {prData : PullRequestData}
    (hprovider : req.vcsProvider ∈ supportedProviders)
    (hparse : parsePayload P req.vcsProvider req.rawPayload = .ok prData) :
    (∃ e, ∀ d, Ledger.rows P req prData d = .error e) ∨ ∀ d, ∃ x, Ledger.rows P req prData d = .ok x := by
  rcases hloads : loadsDict P req.rawPayload with e | rawJson
  · refine .inl ⟨e, fun d => ?_⟩
    simp only [Ledger.rows, hloads]
    rfl
  · by_cases hstorable : Storable req prData rawJson
    · exact .inr fun d => rows_of_taken hloads (hstorable.taken hP hpool hprovider hparse) d
    · have hrefused := refused_of_not_storable hstorable hP hpool hprovider hparse
      exact .inl ⟨.dataError, fun d => rows_of_refused hloads hrefused d⟩

theorem except_bind_eq_ok {ε α β : Type} {x : Except ε α} {f : α → Except ε β} {b : β} :
    (x >>= f) = .ok b ↔ ∃ a, x = .ok a ∧ f a = .ok b := by
  cases x <;> simp [bind, Except.bind]

theorem screen_eq_some {l : Ledger} {prData : PullRequestData}
    (h : l.screen P req = .ok (some prData)) : req.vcsProvider ∈ supportedProviders ∧
      parsePayload P req.vcsProvider req.rawPayload = .ok prData := by
  by_cases hprovider : req.vcsProvider ∈ supportedProviders
  · refine ⟨hprovider, ?_⟩
    rw [l.screen_supported (not_not.mpr hprovider)] at h
    obtain ⟨secret, -, h⟩ := except_bind_eq_ok.mp h
    obtain ⟨u, -, h⟩ := except_bind_eq_ok.mp h
    obtain ⟨prData', hparse, h⟩ := except_bind_eq_ok.mp h
    split at h
    · simp [pure, Except.pure] at h
    · rw [hparse, Option.some.inj (Except.ok.inj h)]
  · have herror : l.screen P req = .error (unsupportedProvider P req.vcsProvider) := if_pos hprovider
    rw [herror] at h
    simp at h

/-- **The kind of the result** is decided by the tables and the request. -/
theorem receive_kind (hP : P.Digests) (hpool : P.JsonCodec) (l : Ledger) (d d' : Draw) :
    (l.receive P req d).1.map WebhookResult.kind = (l.receive P req d').1.map WebhookResult.kind := by
  rcases hscreen : l.screen P req with e | _ | prData
  · rw [receive_of_error hscreen, receive_of_error hscreen]
  · rw [receive_of_none hscreen, receive_of_none hscreen]
    rfl
  · rcases hholds : l.holds (requestKey P req prData) with _ | _
    · obtain ⟨hprovider, hparse⟩ := screen_eq_some hscreen
      rw [receive_of_new hscreen hholds, receive_of_new hscreen hholds]
      rcases rows_of_draw hP hpool hprovider hparse with ⟨e, hrefused⟩ | htaken
      · rw [hrefused d, hrefused d']
      · obtain ⟨x, hx⟩ := htaken d
        obtain ⟨x', hx'⟩ := htaken d'
        rw [hx, hx']
        rfl
    · rw [receive_of_holds hscreen hholds, receive_of_holds hscreen hholds]
      rfl

/-! ### Two states of Redis -/

/-- The call that went from `w` to `w'` drew `d`, and comes to what the tables said. -/
structure Accounts (P : Platform) (req : Request) (w w' : World) (r : Except Exn WebhookResult)
    (d : Draw) : Prop where
  correlationId : d.correlationId ∉ w.used
  drawn : d.From d.correlationId w.used w
  result : r.map WebhookResult.plain = (w.db.ledger.receive P req d).1
  ledger : w'.db.ledger = (w.db.ledger.receive P req d).2

theorem reachable_accounts {c : GatewayConfig} (h : Reachable P serviceTask c) (ht : c.threads t = none)
    (hread : c.world.db.ReadsBack P) (hcurrent : c.world.TenantsCurrent P)
    (hkey : c.world.KeyFree P req) (hs : Spares choose) :
    Lone P t choose (fun r w' => ∃ d, Accounts P req c.world w' r d) (processWebhook P req) c.world := by
  have hready : c.world.Ready P req t := ⟨reachable_free h ht, hkey⟩
  apply (processWebhook_lone hs (reachable_settled h hcurrent) hread hready).mono
  rintro r w' ⟨d, hfrom, hcid, hcomes⟩
  exact ⟨d, hcid, hfrom, hcomes.result, hcomes.ledger⟩

/-- Two calls with the same kind of result, whose rows are the same but for what they drew. -/
structure SameOutcome (P : Platform) (req : Request) (l : Ledger) (r r' : Except Exn WebhookResult)
    (w w' : World) : Prop where
  kind : r.map WebhookResult.kind = r'.map WebhookResult.kind
  rows : ∃ d, r.map WebhookResult.plain = (l.receive P req d).1 ∧ w.db.ledger = (l.receive P req d).2
  rows' : ∃ d, r'.map WebhookResult.plain = (l.receive P req d).1 ∧ w'.db.ledger = (l.receive P req d).2

/-- **Redis and the broker change nothing.**  Run a webhook alone in two states with the same
    tables, under any failures of Redis and of the broker in either: both calls end, with the
    same kind of result, and leave the same rows but for what they have drawn. -/
theorem redis_changes_nothing (hP : P.Digests) (hpool : P.JsonCodec) {c c' : GatewayConfig}
    (h : Reachable P serviceTask c) (h' : Reachable P serviceTask c')
    (hledger : c'.world.db.ledger = c.world.db.ledger) (hread : c.world.db.ReadsBack P)
    (hcurrent : c.world.TenantsCurrent P) (hcurrent' : c'.world.TenantsCurrent P)
    (ht : c.threads t = none) (ht' : c'.threads t' = none) (hkey : c.world.KeyFree P req)
    (hkey' : c'.world.KeyFree P req) (hs : Spares choose) (hs' : Spares choose') :
    Lone P t choose (fun r w => Lone P t' choose'
        (fun r' w' => SameOutcome P req c.world.db.ledger r r' w w')
        (processWebhook P req) c'.world)
      (processWebhook P req) c.world := by
  have htenants : c'.world.db.tenants = c.world.db.tenants := congrArg Ledger.tenants hledger
  have hread' : c'.world.db.ReadsBack P := by
    intro tenantId tenant htenant
    exact hread tenantId tenant (htenants ▸ htenant)
  apply (reachable_accounts h ht hread hcurrent hkey hs).mono
  rintro r w ⟨d, hd⟩
  apply (reachable_accounts h' ht' hread' hcurrent' hkey' hs').mono
  rintro r' w' ⟨d', hd'⟩
  have hresult' := hledger ▸ hd'.result
  refine ⟨?_, ⟨d, hd.result, hd.ledger⟩, ⟨d', hresult', hledger ▸ hd'.ledger⟩⟩
  calc r.map WebhookResult.kind
      = (r.map WebhookResult.plain).map WebhookResult.kind := (map_kind_plain r).symm
    _ = (c.world.db.ledger.receive P req d).1.map WebhookResult.kind := by rw [hd.result]
    _ = (c.world.db.ledger.receive P req d').1.map WebhookResult.kind := receive_kind hP hpool _ d d'
    _ = (r'.map WebhookResult.plain).map WebhookResult.kind := by rw [hresult']
    _ = r'.map WebhookResult.kind := map_kind_plain r'

namespace Example

/-- Redis and the broker answer. -/
def answering (w : World) : Op → Choice
  | .uuid4 | .insertEvent _ | .openChannel => .fresh (⟨BitVec.ofNat 128 w.used.length⟩)
  | _ => .ok

/-- Redis and the broker are down. -/
def failing (w : World) : Op → Choice
  | .uuid4 | .insertEvent _ => .fresh (⟨BitVec.ofNat 128 w.used.length⟩)
  | .redisGet _ | .redisSetex _ _ _ | .openChannel | .getExchange _ _ | .publish _ _ _
  | .closeChannel _ => .fault 0
  | _ => .ok

theorem answering_spares : Spares answering where
  steady w op hop := by cases op <;> simp_all [Op.steady, answering]
  redisGet w key := .inl rfl
  redisSetex w key ttl v := .inl rfl
  uuid4 w := ⟨_, rfl⟩
  insertEvent w e := ⟨_, rfl⟩
  openChannel w := .inl ⟨_, rfl⟩
  getExchange w ch name := .inl rfl
  publish w ex m key := .inl rfl
  closeChannel w ch := .inl rfl

theorem failing_spares : Spares failing where
  steady w op hop := by cases op <;> simp_all [Op.steady, failing]
  redisGet w key := .inr ⟨0, rfl⟩
  redisSetex w key ttl v := .inr ⟨0, .inl rfl⟩
  uuid4 w := ⟨_, rfl⟩
  insertEvent w e := ⟨_, rfl⟩
  openChannel w := .inr ⟨0, rfl⟩
  getExchange w ch name := .inr ⟨0, rfl⟩
  publish w ex m key := .inr ⟨0, rfl⟩
  closeChannel w ch := .inr ⟨0, rfl⟩

theorem readsBack : (World.initial tenants whitelist).db.ReadsBack (storing first) := by
  intro tenantId row hrow
  by_cases heq : tenantId = tenant.tenantId
  · have hrow : tenants tenantId = some row := hrow
    rw [tenants, if_pos heq] at hrow
    obtain rfl := Option.some.inj hrow
    have htext : textOk tenant.modelDump.text = true := by decide +kernel
    have hdumps : (storing first).dumps tenant.modelDump = tenant.modelDump.text := by
      simp only [storing, htext, if_true]
    rw [hdumps]
    simp only [storing, reading, signedPlatform, platform, if_true]
  · have hrow : tenants tenantId = some row := hrow
    rw [tenants, if_neg heq] at hrow
    simp at hrow

/-- The first webhook has been stored, and then its entry in Redis is evicted. -/
theorem evicted_run : ∃ c c',
    (gateway (storing first)).run initial
      (solo (.webhook (delivery first)) (freshChoices ++ storedChoices)) = some c ∧
    (gateway (storing first)).run c [.env (.evict (idempotencyKey firstKey))] = some c' ∧
    c'.world.db.ledger = c.world.db.ledger ∧ c.threads 1 = none ∧ c'.threads 1 = none ∧
    c.world.db.keyLock firstKey = none ∧ c'.world.db.keyLock firstKey = none ∧
    c.world.db.tenants = tenants ∧
    c.world.redis = Function.update (Function.update (fun _ => none) (tenantConfigKey tenant.tenantId)
      (some ((storing first).dumps tenant.modelDump, seconds 300)))
      (idempotencyKey firstKey) (some ("1", seconds (storing first).settings.redisIdempotencyTtlSeconds)) ∧
    c'.world.redis = Function.update c.world.redis (idempotencyKey firstKey) none := by
  rw [stored_labels]
  exact ⟨_, _, run_insertEvent rfl rfl rfl rfl (by decide) (storing_row rfl rfl rfl rfl) rfl, rfl, rfl,
    rfl, rfl, rfl, rfl, rfl, rfl, rfl⟩

theorem requestKey_first {prData : PullRequestData} (h : parsePayload (storing first)
    (delivery first).vcsProvider (delivery first).rawPayload = .ok prData) :
    requestKey (storing first) (delivery first) prData = firstKey := by
  have hdata : ∃ data, parsePayload (storing first) (delivery first).vcsProvider
      (delivery first).rawPayload = .ok data ∧
    requestKey (storing first) (delivery first) data = firstKey := ⟨_, rfl, rfl⟩
  obtain ⟨data, hdata, hkey⟩ := hdata
  obtain rfl := Except.ok.inj (hdata.symm.trans h)
  exact hkey

end Example

/-- The same webhook comes to the same with its entry in Redis, and without it or any Redis. -/
theorem redis_changes_nothing_evicted : ∃ c c' : GatewayConfig,
    Reachable (Example.storing Example.first) serviceTask c ∧
    Reachable (Example.storing Example.first) serviceTask c' ∧ c.world.redis ≠ c'.world.redis ∧
    Lone (Example.storing Example.first) 1 Example.answering (fun r w =>
        Lone (Example.storing Example.first) 1 Example.failing
          (fun r' w' => SameOutcome (Example.storing Example.first) (Example.delivery Example.first)
            c.world.db.ledger r r' w w')
          (processWebhook (Example.storing Example.first) (Example.delivery Example.first)) c'.world)
      (processWebhook (Example.storing Example.first) (Example.delivery Example.first)) c.world := by
  obtain ⟨c, c', hrun, hrun', hledger, ht, ht', hlock, hlock', htenants, hredis, hredis'⟩ :=
    Example.evicted_run
  have hc := Example.reachable_run hrun rfl
  have hc' : Reachable (Example.storing Example.first) serviceTask c' := by
    apply @Example.reachable_run _ (Example.solo (.webhook (Example.delivery Example.first))
      (Example.freshChoices ++ Example.storedChoices) ++ [.env (.evict (idempotencyKey Example.firstKey))])
    · rw [Machine.run_append, hrun, Option.bind_some]
      exact hrun'
    · rfl
  have hread : c.world.db.ReadsBack (Example.storing Example.first) := by
    intro tenantId tenant htenant
    exact Example.readsBack tenantId tenant (htenants ▸ htenant)
  have hcurrent : c.world.TenantsCurrent (Example.storing Example.first) := by
    intro tenantId v hv
    rw [hredis, Function.update_of_ne (idempotencyKey_ne_tenantConfigKey _ _).symm] at hv
    by_cases heq : tenantId = Example.tenant.tenantId
    · rw [heq, Function.update_self] at hv
      obtain rfl := Option.some.inj hv
      have htenant : Example.tenants Example.tenant.tenantId = some Example.tenant := if_pos rfl
      refine ⟨Example.tenant, ?_, rfl, ?_⟩
      · rw [htenants, heq]
        exact htenant
      · simp only
    · rw [Function.update_of_ne fun hkey => heq (tenantConfigKey_injective hkey)] at hv
      simp at hv
  have hcurrent' : c'.world.TenantsCurrent (Example.storing Example.first) := by
    intro tenantId v hv
    rw [hredis', Function.update_of_ne (idempotencyKey_ne_tenantConfigKey _ _).symm] at hv
    have htenants' : c'.world.db.tenants = c.world.db.tenants := congrArg Ledger.tenants hledger
    rw [htenants']
    exact hcurrent tenantId v hv
  have hkey : c.world.KeyFree (Example.storing Example.first) (Example.delivery Example.first) := by
    intro prData hparse
    rw [Example.requestKey_first hparse]
    exact hlock
  have hkey' : c'.world.KeyFree (Example.storing Example.first) (Example.delivery Example.first) := by
    intro prData hparse
    rw [Example.requestKey_first hparse]
    exact hlock'
  refine ⟨c, c', hc, hc', ?_, redis_changes_nothing (Example.storing_digests _)
    (Example.storing_codec _) hc hc' hledger hread hcurrent hcurrent' ht ht' hkey hkey'
    Example.answering_spares Example.failing_spares⟩
  intro heq
  have hentry := congrFun heq (idempotencyKey Example.firstKey)
  rw [hredis', hredis, Function.update_self, Function.update_self] at hentry
  simp at hentry

/-! ### One webhook after the other -/

/-- An entry of a history. -/
inductive Entry where
  | webhook (req : Request) (r : Except Exn WebhookResult)
  | env (e : EnvEvent)

/-- What the environment does to the tables. -/
def Ledger.env (l : Ledger) : EnvEvent → Ledger
  | .setTenant id row => { l with tenants := Function.update l.tenants id row }
  | .setWhitelist rows => { l with whitelist := rows }
  | _ => l

/-- The history as the tables tell it: no Redis, no journey events. -/
def Ledger.Replays (P : Platform) : Ledger → List Entry → Ledger → Prop
  | l, [], l' => l' = l
  | l, .webhook req r :: es, l' => ∃ d, r.map WebhookResult.plain = (l.receive P req d).1 ∧
      Ledger.Replays P (l.receive P req d).2 es l'
  | l, .env e :: es, l' => Ledger.Replays P (l.env e) es l'

/-- A tenant changes only while it is not cached, to one that `json.loads` reads back. -/
structure Invalidates (P : Platform) (w : World) (e : EnvEvent) : Prop where
  uncached : ∀ tenantId row, e = .setTenant tenantId row → w.redis (tenantConfigKey tenantId) = none
  reads : ∀ tenantId tenant, e = .setTenant tenantId (some tenant) →
    P.loadsStr (P.dumps tenant.modelDump) = some tenant.modelDump

/-- Each webhook runs alone, under an environment that answers. -/
inductive Serial (P : Platform) : GatewayConfig → List Entry → GatewayConfig → Prop
  | done (c : GatewayConfig) : Serial P c [] c
  | env {c c' : GatewayConfig} {es : List Entry} {e : EnvEvent} (h : Invalidates P c.world e)
      (rest : Serial P { c with world := envStep e c.world } es c') : Serial P c (.env e :: es) c'
  | webhook {c c' : GatewayConfig} {es : List Entry} {t : Nat} {req : Request}
      {choose : World → Op → Choice} {r : Except Exn WebhookResult} {w : World}
      (ht : c.threads t = none) (hs : Spares choose)
      (hrun : (processWebhook P req).solo (exec P t) choose c.world = some (r, w))
      (rest : Serial P ⟨w, Function.update c.threads t (some ⟨.webhook req, .ret r, true⟩)⟩ es c') :
      Serial P c (.webhook req r :: es) c'

/-- Between two calls. -/
structure Idle (P : Platform) (w : World) : Prop where
  settled : w.Settled P
  reads : w.db.ReadsBack P
  sessions : ∀ t, w.db.sessions t = none
  keyLock : ∀ k, w.db.keyLock k = none

namespace Idle

variable {w w' : World}

theorem initial {tenants : UUID → Option Tenant} {whitelist : List VcsEventWhitelist}
    (hread : (World.initial tenants whitelist).db.ReadsBack P) :
    Idle P (World.initial tenants whitelist) := by
  refine ⟨⟨?_, ?_, ?_, ?_⟩, hread, fun _ => rfl, fun _ => rfl⟩ <;> simp [World.initial]

theorem ready (h : Idle P w) (req : Request) (t : Nat) : w.Ready P req t := by
  refine ⟨⟨h.sessions t, fun k => ?_⟩, fun prData _ => h.keyLock _⟩
  rw [h.keyLock k]
  simp

theorem ends (h : Idle P w) (hends : w.Ends P w') (htenants : w'.db.tenants = w.db.tenants) :
    Idle P w' := by
  refine ⟨hends.settled, ?_, ?_, ?_⟩
  · intro tenantId tenant htenant
    exact h.reads tenantId tenant (htenants ▸ htenant)
  · intro t
    rw [hends.sessions]
    exact h.sessions t
  · intro k
    rw [hends.keyLock]
    exact h.keyLock k

theorem envStep (h : Idle P w) {e : EnvEvent} (he : Invalidates P w e) :
    Idle P (envStep e w) ∧ (VcsGateway.envStep e w).db.ledger = w.db.ledger.env e := by
  obtain ⟨hsettled, hreads, hsessions, hkeyLock⟩ := h
  obtain ⟨hversions, hvalid, hidempotency, htenant⟩ := hsettled
  cases e with
  | tick n => exact ⟨⟨⟨hversions, hvalid, hidempotency, htenant⟩, hreads, hsessions, hkeyLock⟩, rfl⟩
  | tickApp n => exact ⟨⟨⟨hversions, hvalid, hidempotency, htenant⟩, hreads, hsessions, hkeyLock⟩, rfl⟩
  | dropChannel ch => exact ⟨⟨⟨hversions, hvalid, hidempotency, htenant⟩, hreads, hsessions, hkeyLock⟩, rfl⟩
  | setWhitelist rows => exact ⟨⟨⟨hversions, hvalid, hidempotency, htenant⟩, hreads, hsessions, hkeyLock⟩, rfl⟩
  | evict key =>
    have hsome : ∀ key' v, Function.update w.redis key none key' = some v → w.redis key' = some v := by
      intro key' v hv
      by_cases heq : key' = key
      · simp [heq] at hv
      · rw [Function.update_of_ne heq] at hv
        exact hv
    refine ⟨⟨⟨hversions, hvalid, ?_, ?_⟩, hreads, hsessions, hkeyLock⟩, rfl⟩
    · exact fun k v hv => hidempotency k v (hsome _ v hv)
    · exact fun tenantId v hv => htenant tenantId v (hsome _ v hv)
  | setTenant id row =>
    refine ⟨⟨⟨hversions, hvalid, hidempotency, ?_⟩, ?_, hsessions, hkeyLock⟩, rfl⟩
    · intro tenantId v hv
      have hne : tenantId ≠ id := by
        rintro rfl
        have hv : w.redis (tenantConfigKey tenantId) = some v := hv
        rw [he.uncached tenantId row rfl] at hv
        simp at hv
      obtain ⟨tenant, htenant, hactive, hvalue⟩ := htenant tenantId v hv
      refine ⟨tenant, ?_, hactive, hvalue⟩
      change Function.update w.db.tenants id row tenantId = some tenant
      rw [Function.update_of_ne hne]
      exact htenant
    · intro tenantId tenant htenant
      change Function.update w.db.tenants id row tenantId = some tenant at htenant
      by_cases heq : tenantId = id
      · rw [heq, Function.update_self] at htenant
        exact he.reads id tenant (by rw [htenant])
      · rw [Function.update_of_ne heq] at htenant
        exact hreads tenantId tenant htenant

end Idle

theorem receive_tenants (l : Ledger) (d : Draw) : (l.receive P req d).2.tenants = l.tenants := by
  unfold Ledger.receive
  split
  · rfl
  · rfl
  · split
    · rfl
    · split <;> rfl

theorem Serial.replays {c c' : GatewayConfig} {es : List Entry} (h : Serial P c es c')
    (hidle : Idle P c.world) :
    c.world.db.ledger.Replays P es c'.world.db.ledger ∧ Idle P c'.world := by
  induction h with
  | done c => exact ⟨rfl, hidle⟩
  | env he rest ih =>
    obtain ⟨hidle', hledger⟩ := hidle.envStep he
    obtain ⟨hreplays, hend⟩ := ih hidle'
    rw [hledger] at hreplays
    exact ⟨hreplays, hend⟩
  | @webhook c c' es t req choose r w ht hs hrun rest ih =>
    obtain ⟨d, -, -, hcomes⟩ :=
      (processWebhook_lone hs hidle.settled hidle.reads (hidle.ready req t)).ended hrun
    have htenants : w.db.tenants = c.world.db.tenants := by
      have hledger := congrArg Ledger.tenants hcomes.ledger
      rw [receive_tenants] at hledger
      exact hledger
    obtain ⟨hreplays, hend⟩ := ih (hidle.ends hcomes.toEnds htenants)
    rw [hcomes.ledger] at hreplays
    exact ⟨⟨d, hcomes.result, hreplays⟩, hend⟩

namespace Example

/-- A webhook of a provider that is not supported, while Redis is down; then one that is ignored. -/
theorem serial_run : ∃ c r r', Serial (storing first) initial
    [.webhook { delivery first with vcsProvider := "bitbucket" } r, .env (.tick 5),
      .webhook (event first "Note Hook") r'] c := by
  refine ⟨_, _, _, .webhook rfl failing_spares (t := 0) rfl (.env ⟨by simp, by simp⟩ (.webhook (t := 1) rfl answering_spares rfl (.done _)))⟩

end Example

end VcsGateway
