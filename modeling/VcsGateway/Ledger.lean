import VcsGateway.Lookups
import VcsGateway.Keys
import VcsGateway.Supersession

/-!
# What a webhook comes to

`Ledger.receive` says what becomes of a webhook in terms of the tables alone: no Redis, no
journey events, no transactions.  A call of `process_webhook` that runs alone comes to just
this, whatever Redis and the broker do.
-/

namespace VcsGateway

open Async

/-- The tables of the service. -/
structure Ledger where
  tenants : UUID → Option Tenant
  whitelist : List VcsEventWhitelist
  inbound : List InboundEvent
  outbox : List OutboxEvent

def Database.ledger (db : Database) : Ledger := ⟨db.tenants, db.whitelist, db.inbound, db.outbox⟩

/-- The identifiers that a call draws, and the instants that it reads. -/
structure Draw where
  correlationId : UUID
  eventId : UUID
  outboxId : UUID
  timestamp : Time
  now : Time

/-- A duplicate is one, however it was detected. -/
def WebhookResult.plain : WebhookResult → WebhookResult
  | .duplicate correlationId prHashKey _ => .duplicate correlationId prHashKey .dbLookup
  | r => r

namespace Ledger

variable (P : Platform) (l : Ledger) (req : Request)

/-- The active rows of `vcs_event_whitelist` for the provider. -/
def eventWhitelist : List VcsEventWhitelist :=
  l.whitelist.filter fun r => r.vcsProvider = req.vcsProvider && r.isActive

/-- Step 3: does the request verify? -/
def verify (secret : String) : Except Exn Unit := do
  let valid ← signatureValid P req.vcsProvider req.rawPayload req.headers secret
  if !valid then .error invalidSignature else pure ()

/-- Steps 1 to 4: the pull request that the webhook is about, or none if the event is ignored. -/
def screen : Except Exn (Option PullRequestData) :=
  if req.vcsProvider ∉ supportedProviders then .error (unsupportedProvider P req.vcsProvider)
  else do
    let secret ← tenantSecret l.tenants req.tenantId
    verify P req secret
    let prData ← parsePayload P req.vcsProvider req.rawPayload
    if !isEventAllowed (extractEventType req.headers) prData.action (l.eventWhitelist req) then pure none
    else pure (some prData)

/-- A row of `inbound_event` has the key. -/
def holds (prHashKey : String) : Bool := l.inbound.any fun row => row.prHashKey = prHashKey

/-- The two rows of the webhook, if the tables take them. -/
def rowsOf (prData : PullRequestData) (d : Draw) (rawJson : List (String × Json)) :
    Except Exn (InboundEvent × OutboxEvent) :=
  let prHashKey := requestKey P req prData
  match (inboundArgs req d.correlationId d.eventId prData prHashKey rawJson).row P d.now with
  | none => .error .dataError
  | some row => do
    let _ ← row.modelValidate P
    match (outboxArgs P req d.correlationId d.eventId d.timestamp prData prHashKey rawJson).row P
        d.outboxId d.now with
    | none => .error .dataError
    | some r => pure (row, r)

def rows (prData : PullRequestData) (d : Draw) : Except Exn (InboundEvent × OutboxEvent) := do
  let rawJson ← loadsDict P req.rawPayload
  rowsOf P req prData d rawJson

/-- The webhook, in one piece. -/
def receive (d : Draw) : Except Exn WebhookResult × Ledger :=
  match l.screen P req with
  | .error e => (.error e, l)
  | .ok none => (.ok (.ignored d.correlationId (extractEventType req.headers)), l)
  | .ok (some prData) =>
    if l.holds (requestKey P req prData) then
      (.ok (.duplicate d.correlationId (requestKey P req prData) .dbLookup), l)
    else match rows P req prData d with
      | .error e => (.error e, l)
      | .ok (row, r) => (.ok (.accepted d.correlationId d.eventId d.outboxId),
          { l with inbound := l.inbound ++ [row], outbox := l.outbox ++ [r] })

end Ledger

/-! ### Worlds between two steps -/

/-- What the calls rely on. -/
structure World.Settled (P : Platform) (w : World) : Prop where
  versions : ∀ r ∈ w.db.outbox, r.prVersion = 1
  valid : ∀ row ∈ w.db.inbound, ∃ event, row.modelValidate P = .ok event
  /-- The entries of the idempotency cache have rows. -/
  idempotency : ∀ k v, w.redis (idempotencyKey k) = some v → ∃ row ∈ w.db.inbound, row.prHashKey = k
  /-- The entries of the tenant cache are the present rows. -/
  tenant : ∀ tenantId v, w.redis (tenantConfigKey tenantId) = some v →
    ∃ tenant, w.db.tenants tenantId = some tenant ∧ tenant.isActive = true ∧
      v.1 = P.dumps tenant.modelDump

/-- `json.loads` reads what `json.dumps` wrote of the tenants. -/
def Database.ReadsBack (P : Platform) (db : Database) : Prop :=
  ∀ tenantId tenant, db.tenants tenantId = some tenant →
    P.loadsStr (P.dumps tenant.modelDump) = some tenant.modelDump

variable {P : Platform} {t : Nat} {choose : World → Op → Choice} {w w' : World}

namespace World

theorem cached_eq_some {key raw : String} (h : w.cached key = some raw) :
    ∃ v, w.redis key = some v ∧ v.1 = raw := by
  unfold World.cached at h
  rcases hv : w.redis key with _ | ⟨value, expiry⟩
  · simp [hv] at h
  · simp only [hv] at h
    by_cases hlt : w.clock < expiry
    · rw [if_pos hlt] at h
      exact ⟨_, rfl, Option.some.inj h⟩
    · rw [if_neg hlt] at h
      simp at h

theorem Settled.calm (hw : w.Settled P) (h : w.Calm P w') : w'.Settled P where
  versions := h.db ▸ hw.versions
  valid := h.db ▸ hw.valid
  idempotency k v hv := by
    rw [h.db]
    rcases h.redis _ v hv with hv | hbacked
    · exact hw.idempotency k v hv
    · generalize hkey : idempotencyKey k = key at hbacked
      generalize v.1 = value at hbacked
      cases hbacked with
      | tenant htenant hactive => exact absurd hkey (idempotencyKey_ne_tenantConfigKey k _)
      | @processed row hrow => exact ⟨row, hrow, (idempotencyKey_injective hkey).symm⟩
  tenant tenantId v hv := by
    rw [h.db]
    rcases h.redis _ v hv with hv | hbacked
    · exact hw.tenant tenantId v hv
    · generalize hkey : tenantConfigKey tenantId = key at hbacked
      generalize hvalue : v.1 = value at hbacked
      cases hbacked with
      | @tenant tenantId' tenant htenant hactive =>
        obtain rfl := tenantConfigKey_injective hkey
        exact ⟨tenant, htenant, hactive, rfl⟩
      | @processed row hrow => exact absurd hkey.symm (idempotencyKey_ne_tenantConfigKey _ tenantId)

theorem Settled.cachesTenant (hw : w.Settled P) (hread : w.db.ReadsBack P) (tenantId : UUID) :
    w.CachesTenant P tenantId := by
  intro raw hraw
  obtain ⟨v, hv, rfl⟩ := cached_eq_some hraw
  obtain ⟨tenant, htenant, hactive, hvalue⟩ := hw.tenant tenantId v hv
  refine ⟨tenant, htenant, hactive, ?_⟩
  rw [hvalue]
  exact hread tenantId tenant htenant

end World

/-! ### The steps of the pipeline -/

theorem holds_eq_isSome (w : World) (k : String) : w.db.ledger.holds k = (w.stored k).isSome := by
  unfold Ledger.holds World.stored
  rw [Bool.eq_iff_iff, List.any_eq_true, List.find?_isSome]
  rfl

theorem World.Settled.hit (hw : w.Settled P) {k v : String} (h : w.cached (idempotencyKey k) = some v) :
    w.db.ledger.holds k = true := by
  obtain ⟨v, hv, -⟩ := World.cached_eq_some h
  obtain ⟨row, hrow, hk⟩ := hw.idempotency k v hv
  exact List.any_eq_true.mpr ⟨row, hrow, decide_eq_true hk⟩

theorem getIdempotencyCache_alone (hs : Serves choose) (k : String) :
    Alone P t choose (fun r w' => w.Untouched w' ∧
        (r = .ok none ∨ ∃ v, w.cached (idempotencyKey k) = some v ∧ r = .ok (some v)))
      (getIdempotencyCache k) w := by
  rcases hs.redisGet w (idempotencyKey k) with hc | ⟨n, hc⟩
  · apply alone_await hc rfl
    rcases hv : w.cached (idempotencyKey k) with _ | v
    · exact Prog.ensures_ret.mpr ⟨.record w _, .inl rfl⟩
    · exact Prog.ensures_ret.mpr ⟨.record w _, .inr ⟨v, rfl, rfl⟩⟩
  · apply alone_await hc rfl
    exact Prog.ensures_ret.mpr ⟨.record w _, .inl rfl⟩

/-- **The cache and the table find the same.** -/
theorem check_alone (hs : Serves choose) (hw : w.Settled P) (k : String) :
    Alone P t choose (fun r w' => w.Calm P w' ∧
      ∃ detection, r = .ok detection ∧ detection.isSome = w.db.ledger.holds k) (check P k) w := by
  apply (getIdempotencyCache_alone hs k).bind
  · rintro cached w₁ ⟨hw₁, hr | ⟨v, hv, hr⟩⟩
    · obtain rfl := Except.ok.inj hr
      have hstored : w₁.stored k = w.stored k := by
        unfold World.stored
        rw [hw₁.db]
      rw [holds_eq_isSome, ← hstored]
      apply (getByPrHashKey_alone hs (hw₁.db ▸ hw.valid)).bind
      · rintro existing w₂ ⟨hw₂, ⟨hnone, hr⟩ | ⟨row, event, hrow, -, hr⟩⟩
        · obtain rfl := Except.ok.inj hr
          rw [hnone]
          exact Prog.ensures_ret.mpr ⟨(hw₁.trans hw₂).calm, none, rfl, rfl⟩
        · obtain rfl := Except.ok.inj hr
          have hmem : row ∈ w₂.db.inbound := hw₂.db ▸ List.mem_of_find?_eq_some hrow
          have hkey : row.prHashKey = k := by simpa using List.find?_some hrow
          have hbacked : Backed P w₂.db (idempotencyKey k) "1" := hkey ▸ .processed hmem
          rw [hrow]
          apply (setex_backed hs hbacked _).bind
          · rintro u w₃ ⟨-, hw₃⟩
            exact Prog.ensures_ret.mpr ⟨(hw₁.trans hw₂).calm.trans hw₃, _, rfl, rfl⟩
          · rintro e w₃ ⟨he, -⟩
            simp at he
      · rintro e w₂ ⟨-, ⟨-, he⟩ | ⟨_, _, -, -, he⟩⟩
        · simp at he
        · simp at he
    · obtain rfl := Except.ok.inj hr
      exact Prog.ensures_ret.mpr ⟨hw₁.calm, _, rfl, (hw.hit hv).symm⟩
  · rintro e w₁ ⟨-, he | ⟨v, -, he⟩⟩
    · simp at he
    · simp at he

theorem validateSignature_lone (hs : Spares choose) (req : Request) (secret : String)
    (correlationId : UUID) :
    Lone P t choose (fun r w' => w.Calm P w' ∧ r = Ledger.verify P req secret)
      (validateSignature P req.vcsProvider req.rawPayload req.headers secret correlationId
        req.tenantId) w := by
  unfold validateSignature Ledger.verify
  rcases signatureValid P req.vcsProvider req.rawPayload req.headers secret with e | valid
  · exact Prog.attains_ret.mpr ⟨.refl w, rfl⟩
  · apply (emit_lone hs _ _ _ _ _ w).bind
    · rintro u w₁ ⟨-, hw₁⟩
      cases valid with
      | true => exact Prog.attains_ret.mpr ⟨hw₁.calm, rfl⟩
      | false => exact Prog.attains_ret.mpr ⟨hw₁.calm, rfl⟩
    · rintro e w₁ ⟨he, -⟩
      simp at he

/-! ### The transaction -/

theorem Changes.latest_of_writes {ch : Changes} (h : ch.writes = []) (r : OutboxEvent) :
    ch.latest r = r := by
  simp [Changes.latest, h]

/-- `w'` differs from `w` in the transaction of `t` and in its locks. -/
structure World.Within (t : Nat) (w w' : World) : Prop where
  ledger : w'.db.ledger = w.db.ledger
  sessions : ∀ t' ≠ t, w'.db.sessions t' = w.db.sessions t'
  keyLock : ∀ k, w'.db.keyLock k = w.db.keyLock k ∨ w'.db.keyLock k = some t ∧ w.db.keyLock k = none
  redis : w'.redis = w.redis
  clock : w'.clock = w.clock
  appClock : w'.appClock = w.appClock
  used : w.used ⊆ w'.used

theorem World.Untouched.within (h : w.Untouched w') : World.Within t w w' where
  ledger := by rw [h.db]
  sessions t' _ := by rw [h.db]
  keyLock k := .inl (by rw [h.db])
  redis := h.redis
  clock := h.clock
  appClock := h.appClock
  used := h.used

namespace World.Within

variable {w₁ : World} {e : Event}

theorem refl (w : World) : World.Within t w w := (Untouched.refl w).within

theorem trans (h : World.Within t w w₁) (h' : World.Within t w₁ w') : World.Within t w w' where
  ledger := h'.ledger.trans h.ledger
  sessions t' ht' := (h'.sessions t' ht').trans (h.sessions t' ht')
  keyLock k := by
    rcases h'.keyLock k with heq' | ⟨heq', hnone⟩
    · rw [heq']
      exact h.keyLock k
    · rcases h.keyLock k with heq | ⟨heq, -⟩
      · exact .inr ⟨heq', heq ▸ hnone⟩
      · simp [heq] at hnone
  redis := h'.redis.trans h.redis
  clock := h'.clock.trans h.clock
  appClock := h'.appClock.trans h.appClock
  used _ hu := h'.used (h.used hu)

/-- Only the session of `t` has changed. -/
theorem setSession (w : World) (t : Nat) (tx : Tx) (e : Event) :
    World.Within t w (World.record { w with db := w.db.setSession t tx } e) :=
  ⟨rfl, fun _ hne => Database.setSession_sessions_of_ne hne, fun _ => .inl rfl, rfl, rfl, rfl, fun _ h => h⟩

theorem addInbound (w : World) (t : Nat) (tx : Tx) {row : InboundEvent}
    (hfree : w.db.keyLock row.prHashKey = none) (e : Event) :
    World.Within t w (World.record { w with db := w.db.addInbound t tx row } e) := by
  refine ⟨rfl, fun _ hne => Database.setSession_sessions_of_ne hne, fun k => ?_, rfl, rfl, rfl, fun _ h => h⟩
  change Function.update w.db.keyLock row.prHashKey (some t) k = _ ∨
    Function.update w.db.keyLock row.prHashKey (some t) k = _ ∧ _
  by_cases heq : k = row.prHashKey
  · rw [heq, Function.update_self]
    exact .inr ⟨rfl, hfree⟩
  · rw [Function.update_of_ne heq]
    exact .inl rfl

theorem addOutbox (w : World) (t : Nat) (tx : Tx) (u : UUID) (row : OutboxEvent) (e : Event) :
    World.Within t w (World.record { w with db := w.db.addOutbox t tx row, used := u :: w.used } e) :=
  ⟨rfl, fun _ hne => Database.setSession_sessions_of_ne hne, fun _ => .inl rfl, rfl, rfl, rfl,
    fun _ h => List.mem_cons_of_mem u h⟩

end World.Within

/-- `t` may begin a transaction. -/
structure Database.Free (db : Database) (t : Nat) : Prop where
  session : db.sessions t = none
  keyLock : ∀ k, db.keyLock k ≠ some t

/-- `w'` is `w` after a transaction of its own that has left these rows behind. -/
structure World.Added (w w' : World) (inbound : List InboundEvent) (outbox : List OutboxEvent) :
    Prop where
  ledger : w'.db.ledger = { w.db.ledger with
    inbound := w.db.inbound ++ inbound, outbox := w.db.outbox ++ outbox }
  sessions : w'.db.sessions = w.db.sessions
  keyLock : w'.db.keyLock = w.db.keyLock
  redis : w'.redis = w.redis
  clock : w'.clock = w.clock
  appClock : w'.appClock = w.appClock
  used : w.used ⊆ w'.used

namespace World.Within

variable {w₁ : World}

theorem sessions_close (h : World.Within t w w₁) (hfree : w.db.Free t) :
    (w₁.db.close t).sessions = w.db.sessions := by
  funext t'
  by_cases heq : t' = t
  · rw [heq, Database.close_sessions_self, hfree.session]
  · rw [Database.close_sessions_of_ne heq]
    exact h.sessions t' heq

theorem keyLock_close (h : World.Within t w w₁) (hfree : w.db.Free t) :
    (w₁.db.close t).keyLock = w.db.keyLock := by
  funext k
  simp only [Database.close]
  rcases h.keyLock k with heq | ⟨heq, hnone⟩
  · rw [heq, if_neg (hfree.keyLock k)]
  · rw [heq, if_pos rfl, hnone]

/-- The transaction is over, and its changes are in the tables. -/
theorem committed (h : World.Within t w w₁) (hfree : w.db.Free t) {tx : Tx}
    (hwrites : tx.changes.writes = []) (e : Event) :
    World.Added w (World.record { w₁ with db := w₁.db.install t tx } e) tx.changes.inbound
      tx.changes.inserts := by
  have happly : tx.changes.apply w₁.db.outbox = w₁.db.outbox ++ tx.changes.inserts := by
    rw [Changes.apply, List.map_congr_left fun r _ => Changes.latest_of_writes hwrites r, List.map_id']
  refine ⟨?_, h.sessions_close hfree, h.keyLock_close hfree, h.redis, h.clock, h.appClock, h.used⟩
  have htenants : w₁.db.tenants = w.db.tenants := congrArg Ledger.tenants h.ledger
  have hwhitelist : w₁.db.whitelist = w.db.whitelist := congrArg Ledger.whitelist h.ledger
  have hinbound : w₁.db.inbound = w.db.inbound := congrArg Ledger.inbound h.ledger
  have houtbox : w₁.db.outbox = w.db.outbox := congrArg Ledger.outbox h.ledger
  change (⟨w₁.db.tenants, w₁.db.whitelist, w₁.db.inbound ++ tx.changes.inbound,
    tx.changes.apply w₁.db.outbox⟩ : Ledger) = _
  rw [happly, htenants, hwhitelist, hinbound, houtbox]
  rfl

/-- The transaction is given up. -/
theorem rolledBack (h : World.Within t w w₁) (hfree : w.db.Free t) (e : Event) :
    World.Added w (World.record { w₁ with db := w₁.db.discard t } e) [] [] := by
  refine ⟨?_, h.sessions_close hfree, h.keyLock_close hfree, h.redis, h.clock, h.appClock, h.used⟩
  rw [List.append_nil, List.append_nil]
  exact h.ledger

end World.Within

/-- **A transaction that runs alone** is committed if its body returns, and is undone if not. -/
theorem transaction_lone {α : Type} {body : Coroutine α} {R : Except Exn α → Tx → Prop}
    (hs : Serves choose) (hfree : w.db.Free t)
    (hlive : ∀ a tx, R (.ok a) tx → tx.aborted = false ∧ tx.changes.writes = [])
    (hbody : ∀ w₁, World.Within t w w₁ → w₁.db.sessions t = some { now := w.clock } →
      w₁.db.keyLock = w.db.keyLock →
      Lone P t choose (fun r w₂ => ∃ tx, w₂.db.sessions t = some tx ∧ World.Within t w w₂ ∧ R r tx)
        body w₁) :
    Lone P t choose (fun r w' => ∃ tx, R r tx ∧ match r with
        | .ok _ => w.Added w' tx.changes.inbound tx.changes.inserts
        | .error _ => w.Added w' [] []) (transaction body) w := by
  have hbegin : execOp P t .ok w .begin =
      some (.ok (), { w with db := w.db.setSession t { now := w.clock } }) := by
    simp only [execOp, Database.execBegin, hfree.session]
    rfl
  apply lone_await (hs.steady w .begin rfl) hbegin
  apply (hbody _ (.setSession w t _ _) (Database.setSession_sessions_self ..) rfl).andThen
  rintro (exc | a) w₂ ⟨tx, htx, hwithin, hR⟩
  · have hrollback : execOp P t .ok w₂ .rollback = some (.ok (), { w₂ with db := w₂.db.discard t }) := by
      simp only [execOp, Database.execRollback, htx]
      rfl
    apply lone_await (hs.steady w₂ .rollback rfl) hrollback
    exact Prog.attains_ret.mpr ⟨tx, hR, hwithin.rolledBack hfree _⟩
  · obtain ⟨haborted, hwrites⟩ := hlive a tx hR
    have hcommit : execOp P t .ok w₂ .commit = some (.ok (), { w₂ with db := w₂.db.install t tx }) := by
      simp only [execOp, Database.execCommit, htx, Database.settle, haborted]
      rfl
    apply lone_await (hs.steady w₂ .commit rfl) hcommit
    exact Prog.attains_ret.mpr ⟨tx, hR, hwithin.committed hfree hwrites _⟩

section Persist

variable {tx : Tx} {req : Request} {prData : PullRequestData} {d : Draw} {rawJson : List (String × Json)}

theorem insertInbound_alone (hs : Serves choose) {args : NewInboundEvent}
    (htx : w.db.sessions t = some tx) (hlive : tx.aborted = false) (hempty : tx.changes.inbound = [])
    (hnew : w.db.ledger.holds args.prHashKey = false) (hfree : w.db.keyLock args.prHashKey = none) :
    Alone P t choose (fun r w' => World.Within t w w' ∧
        ((args.row P tx.now = none ∧ r = .error .dataError ∧ ∃ tx', w'.db.sessions t = some tx') ∨
          ∃ row, args.row P tx.now = some row ∧ r = row.modelValidate P ∧
            w'.db.sessions t = some (tx.addInbound row)))
      (insertInbound P args) w := by
  have hchoice := hs.steady w (.insertInbound args) rfl
  rcases hrow : args.row P tx.now with _ | row
  · have he : execOp P t .ok w (.insertInbound args) =
        some (.error .dataError, { w with db := w.db.abort t tx }) := by
      simp only [execOp, Database.execInsertInbound, Database.inTx, htx, hlive, hrow]
      rfl
    apply alone_await hchoice he
    exact Prog.ensures_ret.mpr ⟨.setSession w t _ _, .inl ⟨rfl, rfl, _,
      Database.setSession_sessions_self ..⟩⟩
  · have heq := NewInboundEvent.row_eq_some P hrow
    have hkey : row.prHashKey = args.prHashKey := congrArg (·.prHashKey) heq
    have hnone : ((w.db.inbound ++ tx.changes.inbound).any fun i => i.prHashKey = args.prHashKey) =
        false := by
      rw [hempty, List.append_nil]
      exact hnew
    have he : execOp P t .ok w (.insertInbound args) =
        some (.ok row, { w with db := w.db.addInbound t tx row }) := by
      simp only [execOp, Database.execInsertInbound, Database.inTx, htx, hlive, hrow, hkey, hnone, hfree]
      rfl
    apply alone_await hchoice he
    have hwithin := World.Within.addInbound w t tx (hkey ▸ hfree) ⟨t, .insertInbound args, .ok row⟩
    have hsession : (w.db.addInbound t tx row).sessions t = some (tx.addInbound row) :=
      Database.setSession_sessions_self ..
    exact Prog.ensures_ret.mpr ⟨hwithin, .inr ⟨row, rfl, rfl, hsession⟩⟩

/-- No version is older than the first one. -/
theorem cancelPrevious_alone (hs : Serves choose) (hversions : ∀ r ∈ w.db.outbox, r.prVersion = 1)
    (htx : w.db.sessions t = some tx) (hlive : tx.aborted = false) (hinserts : tx.changes.inserts = [])
    (hwrites : tx.changes.writes = []) (k reason : String) :
    Alone P t choose (fun r w' => r = .ok () ∧ w.Untouched w') (cancelPrevious k 1 reason) w := by
  have hnone : (tx.changes.apply w.db.outbox).filter (fun r => r.isPrevious k 1) = [] := by
    rw [Changes.apply, hinserts, List.append_nil,
      List.map_congr_left fun r _ => Changes.latest_of_writes hwrites r, List.map_id']
    apply List.filter_eq_nil_iff.mpr
    intro r hr
    simp [OutboxEvent.isPrevious, hversions r hr]
  have he : execOp P t .ok w (.cancelScan k 1) = some (.ok [], w) := by
    simp only [execOp, Database.execCancelScan, Database.inTx, htx, hlive, hnone]
    rfl
  apply alone_await (hs.steady w (.cancelScan k 1) rfl) he
  exact Prog.ensures_ret.mpr ⟨rfl, .record w _⟩

theorem insertEvent_lone (hs : Spares choose) {args : NewOutboxEvent}
    (htx : w.db.sessions t = some tx) (hlive : tx.aborted = false) :
    Lone P t choose (fun r w' => World.Within t w w' ∧ ∃ u, u ∉ w.used ∧
        ((args.row P u tx.now = none ∧ r = .error .dataError ∧ ∃ tx', w'.db.sessions t = some tx') ∨
          ∃ row, args.row P u tx.now = some row ∧ r = .ok u ∧
            w'.db.sessions t = some (tx.addInsert row)))
      (perform (.insertEvent args)) w := by
  obtain ⟨u, hc⟩ := hs.insertEvent w args
  have hspent : u ∈ w.used → execOp P t (.fresh u) w (.insertEvent args) = none := by
    intro hu
    simp [execOp, World.takeFresh, hu]
  rcases hrow : args.row P u tx.now with _ | row
  · have he : u ∉ w.used → execOp P t (.fresh u) w (.insertEvent args) =
        some (.error .dataError, { w with db := w.db.abort t tx, used := u :: w.used }) := by
      intro hu
      simp only [execOp, World.takeFresh, if_neg hu, Option.bind_some, Database.execInsertEvent,
        Database.inTx, htx, hlive, awaitedFresh, hrow]
      rfl
    apply lone_fresh hc he hspent
    intro hu
    refine ⟨?_, u, hu, .inl ⟨hrow, rfl, _, Database.setSession_sessions_self ..⟩⟩
    exact ⟨rfl, fun _ hne => Database.setSession_sessions_of_ne hne, fun _ => .inl rfl, rfl, rfl, rfl,
      fun _ h => List.mem_cons_of_mem u h⟩
  · have he : u ∉ w.used → execOp P t (.fresh u) w (.insertEvent args) =
        some (.ok u, { w with db := w.db.addOutbox t tx row, used := u :: w.used }) := by
      intro hu
      simp only [execOp, World.takeFresh, if_neg hu, Option.bind_some, Database.execInsertEvent,
        Database.inTx, htx, hlive, awaitedFresh, hrow]
      rfl
    apply lone_fresh hc he hspent
    intro hu
    exact ⟨.addOutbox w t tx u row _, u, hu, .inr ⟨row, hrow, rfl, Database.setSession_sessions_self ..⟩⟩

/-- What the body of the transaction comes to. -/
def Stored (P : Platform) (req : Request) (prData : PullRequestData) (d : Draw)
    (rawJson : List (String × Json)) (used : List UUID) (r : Except Exn UUID) (tx : Tx) : Prop :=
  ∃ u, (u = d.outboxId ∨ u ∉ used) ∧
    ((∃ e, Ledger.rowsOf P req prData { d with outboxId := u } rawJson = .error e ∧ r = .error e) ∨
      ∃ row event, Ledger.rowsOf P req prData { d with outboxId := u } rawJson = .ok (row, event) ∧
        r = .ok u ∧ tx.aborted = false ∧ tx.changes = { inbound := [row], inserts := [event] })

theorem rowsOf_invalid {row : InboundEvent} {e : Exn}
    (hrow : (inboundArgs req d.correlationId d.eventId prData (requestKey P req prData) rawJson).row P
      d.now = some row) (hvalid : row.modelValidate P = .error e) :
    Ledger.rowsOf P req prData d rawJson = .error e := by
  simp only [Ledger.rowsOf, hrow, hvalid]
  rfl

theorem rowsOf_valid {row event : InboundEvent}
    (hrow : (inboundArgs req d.correlationId d.eventId prData (requestKey P req prData) rawJson).row P
      d.now = some row) (hvalid : row.modelValidate P = .ok event) :
    Ledger.rowsOf P req prData d rawJson =
      match (outboxArgs P req d.correlationId d.eventId d.timestamp prData (requestKey P req prData)
        rawJson).row P d.outboxId d.now with
      | none => .error .dataError
      | some r => .ok (row, r) := by
  simp only [Ledger.rowsOf, hrow, hvalid]
  rfl

theorem persistBody_lone (hs : Spares choose) (hversions : ∀ r ∈ w.db.outbox, r.prVersion = 1)
    (htx : w.db.sessions t = some { now := d.now })
    (hnew : w.db.ledger.holds (requestKey P req prData) = false)
    (hfree : w.db.keyLock (requestKey P req prData) = none) :
    Lone P t choose (fun r w' => ∃ tx, w'.db.sessions t = some tx ∧ World.Within t w w' ∧
        Stored P req prData d rawJson w.used r tx)
      (persistBody P req d.correlationId d.eventId d.timestamp prData (requestKey P req prData) rawJson)
      w := by
  apply (insertInbound_alone hs.toServes htx rfl rfl hnew hfree).attains.bind
  · rintro event w₁ ⟨hw₁, ⟨-, hr, -⟩ | ⟨row, hrow, hvalid, htx₁⟩⟩
    · simp at hr
    have hversions₁ : ∀ r ∈ w₁.db.outbox, r.prVersion = 1 := by
      have houtbox : w₁.db.outbox = w.db.outbox := congrArg Ledger.outbox hw₁.ledger
      rw [houtbox]
      exact hversions
    apply (cancelPrevious_alone hs.toServes hversions₁ htx₁ rfl rfl rfl _ _).attains.bind
    · rintro ⟨⟩ w₂ ⟨-, hw₂⟩
      have htx₂ : w₂.db.sessions t = some (Tx.addInbound { now := d.now } row) := hw₂.db ▸ htx₁
      have hused : ∀ u, u ∉ w₂.used → u ∉ w.used := fun u hu hmem => hu (hw₂.used (hw₁.used hmem))
      apply (insertEvent_lone hs htx₂ rfl).mono
      rintro r w₃ ⟨hw₃, u, hu, hevent⟩
      have hwithin := (hw₁.trans hw₂.within).trans hw₃
      have hrows : ∀ u, Ledger.rowsOf P req prData { d with outboxId := u } rawJson = _ :=
        fun u => rowsOf_valid (d := { d with outboxId := u }) hrow hvalid.symm
      rcases hevent with ⟨hnone, rfl, tx', htx'⟩ | ⟨event', hevent', rfl, htx'⟩
      · refine ⟨tx', htx', hwithin, u, .inr (hused u hu), .inl ⟨.dataError, ?_, rfl⟩⟩
        have hnone : (outboxArgs P req d.correlationId d.eventId d.timestamp prData
          (requestKey P req prData) rawJson).row P u d.now = none := hnone
        rw [hrows u, hnone]
      · refine ⟨_, htx', hwithin, u, .inr (hused u hu), .inr ⟨row, event', ?_, rfl, rfl, rfl⟩⟩
        have hevent' : (outboxArgs P req d.correlationId d.eventId d.timestamp prData
          (requestKey P req prData) rawJson).row P u d.now = some event' := hevent'
        rw [hrows u, hevent']
    · rintro e w₂ ⟨he, -⟩
      simp at he
  · rintro e w₁ ⟨hw₁, ⟨hnone, he, tx', htx'⟩ | ⟨row, hrow, hvalid, htx₁⟩⟩
    · refine ⟨tx', htx', hw₁, d.outboxId, .inl rfl, .inl ⟨e, ?_, rfl⟩⟩
      have hnone : (inboundArgs req d.correlationId d.eventId prData (requestKey P req prData)
        rawJson).row P d.now = none := hnone
      obtain rfl := Except.error.inj he
      simp only [Ledger.rowsOf, hnone]
    · exact ⟨_, htx₁, hw₁, d.outboxId, .inl rfl, .inl ⟨e, rowsOf_invalid hrow hvalid.symm, rfl⟩⟩

/-- What the tables and the models refuse a webhook with. -/
theorem rows_error {e : Exn} (h : Ledger.rows P req prData d = .error e) :
    e = .dataError ∨ e = .jsonDecodeError ∨ ∃ model, e = .pydanticValidationError model := by
  unfold Ledger.rows at h
  rcases hloads : loadsDict P req.rawPayload with exc | rawJson
  · rw [hloads] at h
    obtain rfl : exc = e := Except.error.inj h
    unfold loadsDict at hloads
    split at hloads
    · exact .inr (.inl (Except.error.inj hloads).symm)
    · simp at hloads
    · exact .inr (.inr ⟨_, (Except.error.inj hloads).symm⟩)
  · rw [hloads] at h
    change Ledger.rowsOf P req prData d rawJson = .error e at h
    rcases hrow : (inboundArgs req d.correlationId d.eventId prData (requestKey P req prData)
      rawJson).row P d.now with _ | row
    · simp only [Ledger.rowsOf, hrow] at h
      exact .inl (Except.error.inj h).symm
    · rcases hvalid : row.modelValidate P with exc | event
      · rw [rowsOf_invalid hrow hvalid] at h
        obtain rfl : exc = e := Except.error.inj h
        unfold InboundEvent.modelValidate at hvalid
        split at hvalid
        · simp at hvalid
        · simp at hvalid
        · simp at hvalid
        · exact .inr (.inr ⟨_, (Except.error.inj hvalid).symm⟩)
      · rw [rowsOf_valid hrow hvalid] at h
        split at h
        · exact .inl (Except.error.inj h).symm
        · simp at h

theorem uuid4_lone (hs : Spares choose) (w : World) :
    Lone P t choose (fun r w' => w.Untouched w' ∧ ∃ u, u ∉ w.used ∧ r = .ok u) (perform .uuid4) w := by
  obtain ⟨u, hc⟩ := hs.uuid4 w
  have he : u ∉ w.used → execOp P t (.fresh u) w .uuid4 =
      some (.ok u, { w with used := u :: w.used }) := by
    intro hu
    simp only [execOp, execUuid4, World.takeFresh, if_neg hu]
    rfl
  have hspent : u ∈ w.used → execOp P t (.fresh u) w .uuid4 = none := by
    intro hu
    simp [execOp, execUuid4, World.takeFresh, hu]
  apply lone_fresh hc he hspent
  intro hu
  exact ⟨⟨rfl, rfl, rfl, rfl, fun _ h => List.mem_cons_of_mem u h⟩, u, hu, rfl⟩

theorem World.Untouched.added {w₁ : World} {inbound : List InboundEvent} {outbox : List OutboxEvent}
    (h : w.Untouched w₁) (h' : w₁.Added w' inbound outbox) : w.Added w' inbound outbox where
  ledger := h'.ledger.trans (by rw [h.db])
  sessions := h'.sessions.trans (by rw [h.db])
  keyLock := h'.keyLock.trans (by rw [h.db])
  redis := h'.redis.trans h.redis
  clock := h'.clock.trans h.clock
  appClock := h'.appClock.trans h.appClock
  used _ hu := h'.used (h.used hu)

theorem World.Untouched.unstored (h : w.Untouched w') : w.Added w' [] [] where
  ledger := by
    rw [h.db, List.append_nil, List.append_nil]
    rfl
  sessions := by rw [h.db]
  keyLock := by rw [h.db]
  redis := h.redis
  clock := h.clock
  appClock := h.appClock
  used := h.used

/-- The transaction of `persist`. -/
theorem persistTransaction_lone (d : Draw) (rawJson : List (String × Json)) (hs : Spares choose)
    (hversions : ∀ r ∈ w.db.outbox, r.prVersion = 1)
    (hfree : w.db.Free t) (hnew : w.db.ledger.holds (requestKey P req prData) = false)
    (hkey : w.db.keyLock (requestKey P req prData) = none) (hnow : d.now = w.clock) :
    Lone P t choose (fun r w' => ∃ u, (u = d.outboxId ∨ u ∉ w.used) ∧
        ((∃ e, Ledger.rowsOf P req prData { d with outboxId := u } rawJson = .error e ∧
            r = .error e ∧ w.Added w' [] []) ∨
          ∃ row event, Ledger.rowsOf P req prData { d with outboxId := u } rawJson = .ok (row, event) ∧
            r = .ok u ∧ w.Added w' [row] [event]))
      (transaction (persistBody P req d.correlationId d.eventId d.timestamp prData
        (requestKey P req prData) rawJson)) w := by
  apply (transaction_lone (R := Stored P req prData d rawJson w.used) hs.toServes hfree ?_ ?_).mono
  · rintro r w' ⟨tx, ⟨u, hu, ⟨e, hrows, rfl⟩ | ⟨row, event, hrows, rfl, -, hchanges⟩⟩, hadded⟩
    · exact ⟨u, hu, .inl ⟨e, hrows, rfl, hadded⟩⟩
    · simp only [hchanges] at hadded
      exact ⟨u, hu, .inr ⟨row, event, hrows, rfl, hadded⟩⟩
  · rintro a tx ⟨u, -, ⟨e, -, hr⟩ | ⟨row, event, -, -, haborted, hchanges⟩⟩
    · simp at hr
    · exact ⟨haborted, by rw [hchanges]⟩
  · intro w₁ hw₁ htx hlock
    have houtbox : w₁.db.outbox = w.db.outbox := congrArg Ledger.outbox hw₁.ledger
    have hnew₁ : w₁.db.ledger.holds (requestKey P req prData) = false := by rw [hw₁.ledger, hnew]
    have hkey₁ : w₁.db.keyLock (requestKey P req prData) = none := by rw [hlock, hkey]
    rw [← hnow] at htx
    apply (persistBody_lone hs (houtbox ▸ hversions) htx hnew₁ hkey₁).mono
    rintro r w₂ ⟨tx, htx₂, hw₂, u, hu, hstored⟩
    have hu : u = d.outboxId ∨ u ∉ w.used := hu.imp_right fun hu hmem => hu (hw₁.used hmem)
    exact ⟨tx, htx₂, hw₁.trans hw₂, u, hu, hstored⟩

/-- The rows are stored and `a` is returned, or nothing is stored and it raises. -/
def Leaves (P : Platform) (req : Request) (prData : PullRequestData) (d : Draw) (w w' : World)
    {α : Type} (a : α) (r : Except Exn α) : Prop :=
  (∃ e, Ledger.rows P req prData d = .error e ∧ r = .error e ∧ w.Added w' [] []) ∨
    ∃ row event, Ledger.rows P req prData d = .ok (row, event) ∧ r = .ok a ∧ w.Added w' [row] [event]

/-- `except UniqueViolationError` has nothing to catch. -/
theorem Leaves.handled {w₁ : World} {u : UUID} {r : Except Exn UUID} (hw : w.Untouched w₁)
    (h : Leaves P req prData d w₁ w' u r) {handler : Exn → Coroutine UUID}
    (hhandler : ∀ e, e ≠ .uniqueViolationError → handler e = .throw e) :
    Lone P t choose (fun r w' => Leaves P req prData d w w' u r) (Prog.onError handler r) w' := by
  rcases h with ⟨e, hrows, rfl, hadded⟩ | ⟨row, event, hrows, rfl, hadded⟩
  · have hne : e ≠ .uniqueViolationError := by
      rcases rows_error hrows with rfl | rfl | ⟨model, rfl⟩ <;> simp
    simp only [Prog.onError, hhandler e hne]
    exact Prog.attains_ret.mpr (.inl ⟨e, hrows, rfl, hw.added hadded⟩)
  · exact Prog.attains_ret.mpr (.inr ⟨row, event, hrows, rfl, hw.added hadded⟩)

theorem persist_lone (hs : Spares choose) (hversions : ∀ r ∈ w.db.outbox, r.prVersion = 1)
    (hfree : w.db.Free t) (hnew : w.db.ledger.holds (requestKey P req prData) = false)
    (hkey : w.db.keyLock (requestKey P req prData) = none) (correlationId : UUID) :
    Lone P t choose (fun r w' => ∃ d : Draw, d.correlationId = correlationId ∧ d.eventId ∉ w.used ∧
        d.outboxId ∉ w.used ∧ d.timestamp = w.appClock ∧ d.now = w.clock ∧
        Leaves P req prData d w w' (d.eventId, d.outboxId) r)
      (persist P req correlationId prData (requestKey P req prData)) w := by
  apply (uuid4_lone hs w).bind
  · rintro eventId w₁ ⟨hw₁, u, hu, hr⟩
    obtain rfl := Except.ok.inj hr
    apply Prog.Attains.ofExcept_bind
    · intro rawJson hloads
      have he : execOp P t .ok w₁ .utcnow = some (.ok w₁.appClock, w₁) := rfl
      apply lone_await (hs.steady w₁ .utcnow rfl) he
      have hw₂ := hw₁.trans (.record w₁ ⟨t, .utcnow, .ok w₁.appClock⟩)
      generalize w₁.record ⟨t, .utcnow, .ok w₁.appClock⟩ = w₂ at hw₂
      let d : Draw := ⟨correlationId, eventId, eventId, w₁.appClock, w₂.clock⟩
      have hrows : ∀ u, Ledger.rowsOf P req prData { d with outboxId := u } rawJson =
          Ledger.rows P req prData { d with outboxId := u } := by
        intro u
        simp only [Ledger.rows, hloads]
        rfl
      have hstored := persistTransaction_lone (P := P) d rawJson hs
        (hw₂.db ▸ hversions) (hw₂.db ▸ hfree) (hw₂.db ▸ hnew) (hw₂.db ▸ hkey) rfl
      apply Prog.Attains.bind (Q := fun r w' => ∃ u, u ∉ w.used ∧
        Leaves P req prData { d with outboxId := u } w w' u r)
      · apply hstored.andThen
        rintro r w₃ ⟨u, hu', hleaves⟩
        rw [hrows u] at hleaves
        have hfresh : u ∉ w.used := by
          rcases hu' with rfl | hu'
          · exact hu
          · exact fun hmem => hu' (hw₂.used hmem)
        apply (Leaves.handled hw₂ hleaves ?_).mono
        · intro r w₄ hr
          exact ⟨u, hfresh, hr⟩
        · intro e hne
          cases e with
          | uniqueViolationError => exact absurd rfl hne
          | _ => rfl
      · rintro outboxId w₃ ⟨u, hu', hleaves⟩
        apply Prog.attains_ret.mpr
        refine ⟨{ d with outboxId := u }, rfl, hu, hu', hw₁.appClock, hw₂.clock, ?_⟩
        rcases hleaves with ⟨e, -, he, -⟩ | ⟨row, event, htaken, hr, hadded⟩
        · simp at he
        · obtain rfl := Except.ok.inj hr
          exact .inr ⟨row, event, htaken, rfl, hadded⟩
      · rintro e w₃ ⟨u, hu', hleaves⟩
        refine ⟨{ d with outboxId := u }, rfl, hu, hu', hw₁.appClock, hw₂.clock, ?_⟩
        rcases hleaves with ⟨e', hrefused, he, hadded⟩ | ⟨row, event, -, hr, -⟩
        · exact .inl ⟨e', hrefused, congrArg Except.error (Except.error.inj he), hadded⟩
        · simp at hr
    · intro e hloads
      let d : Draw := ⟨correlationId, eventId, eventId, w.appClock, w.clock⟩
      refine ⟨d, rfl, hu, hu, rfl, rfl, .inl ⟨e, ?_, rfl, hw₁.unstored⟩⟩
      simp only [Ledger.rows, hloads]
      rfl
  · rintro e w₁ ⟨-, u, -, he⟩
    simp at he

end Persist

/-! ### The whole call -/

section Call

variable {req : Request} {prData : PullRequestData} {correlationId : UUID} {used : List UUID}

/-- What a call has drawn and read: the identifiers are not among the `used` ones. -/
structure Draw.From (d : Draw) (correlationId : UUID) (used : List UUID) (w : World) : Prop where
  correlationId : d.correlationId = correlationId
  eventId : d.eventId ∉ used
  outboxId : d.outboxId ∉ used
  timestamp : d.timestamp = w.appClock
  now : d.now = w.clock

/-- A call has come to its end, and another one may start. -/
structure World.Ends (P : Platform) (w w' : World) : Prop where
  settled : w'.Settled P
  sessions : w'.db.sessions = w.db.sessions
  keyLock : w'.db.keyLock = w.db.keyLock
  clock : w'.clock = w.clock
  appClock : w'.appClock = w.appClock
  used : w.used ⊆ w'.used

/-- The call comes to what the tables say about it. -/
structure Comes (P : Platform) (req : Request) (d : Draw) (w w' : World)
    (r : Except Exn WebhookResult) : Prop extends World.Ends P w w' where
  result : r.map WebhookResult.plain = (w.db.ledger.receive P req d).1
  ledger : w'.db.ledger = (w.db.ledger.receive P req d).2

namespace World

variable {w₁ : World}

theorem Calm.ends (hw : w.Settled P) (h : w.Calm P w') : w.Ends P w' where
  settled := hw.calm h
  sessions := by rw [h.db]
  keyLock := by rw [h.db]
  clock := h.clock
  appClock := h.appClock
  used := h.used

theorem Ends.calm (h : w.Ends P w₁) (h' : w₁.Calm P w') : w.Ends P w' where
  settled := h.settled.calm h'
  sessions := by rw [h'.db, h.sessions]
  keyLock := by rw [h'.db, h.keyLock]
  clock := h'.clock.trans h.clock
  appClock := h'.appClock.trans h.appClock
  used _ hu := h'.used (h.used hu)

/-- Nothing has been stored. -/
theorem Added.unstored (hw : w.Settled P) (h : w.Added w' [] []) :
    w.Ends P w' ∧ w'.db.ledger = w.db.ledger := by
  have hledger : w'.db.ledger = w.db.ledger := by
    rw [h.ledger, List.append_nil, List.append_nil]
    rfl
  have htenants : w'.db.tenants = w.db.tenants := congrArg Ledger.tenants hledger
  have hinbound : w'.db.inbound = w.db.inbound := congrArg Ledger.inbound hledger
  have houtbox : w'.db.outbox = w.db.outbox := congrArg Ledger.outbox hledger
  refine ⟨⟨⟨?_, ?_, ?_, ?_⟩, h.sessions, h.keyLock, h.clock, h.appClock, h.used⟩, hledger⟩
  · rw [houtbox]
    exact hw.versions
  · rw [hinbound]
    exact hw.valid
  · rw [hinbound, h.redis]
    exact hw.idempotency
  · rw [htenants, h.redis]
    exact hw.tenant

theorem Added.stored (hw : w.Settled P) {row : InboundEvent} {event : OutboxEvent}
    (h : w.Added w' [row] [event]) (hvalid : ∃ e, row.modelValidate P = .ok e)
    (hversion : event.prVersion = 1) : w.Ends P w' := by
  have htenants : w'.db.tenants = w.db.tenants := congrArg Ledger.tenants h.ledger
  have hinbound : w'.db.inbound = w.db.inbound ++ [row] := congrArg Ledger.inbound h.ledger
  have houtbox : w'.db.outbox = w.db.outbox ++ [event] := congrArg Ledger.outbox h.ledger
  refine ⟨⟨?_, ?_, ?_, ?_⟩, h.sessions, h.keyLock, h.clock, h.appClock, h.used⟩
  · intro r hr
    rw [houtbox] at hr
    rcases List.mem_append.mp hr with hr | hr
    · exact hw.versions r hr
    · rw [List.mem_singleton.mp hr]
      exact hversion
  · intro r hr
    rw [hinbound] at hr
    rcases List.mem_append.mp hr with hr | hr
    · exact hw.valid r hr
    · rw [List.mem_singleton.mp hr]
      exact hvalid
  · intro k v hv
    rw [h.redis] at hv
    obtain ⟨r, hr, hk⟩ := hw.idempotency k v hv
    exact ⟨r, hinbound ▸ List.mem_append_left _ hr, hk⟩
  · rw [htenants, h.redis]
    exact hw.tenant

end World

/-- The rows of a stored webhook. -/
theorem rows_eq_ok {d : Draw} {row : InboundEvent} {event : OutboxEvent}
    (h : Ledger.rows P req prData d = .ok (row, event)) :
    row.prHashKey = requestKey P req prData ∧ (∃ e, row.modelValidate P = .ok e) ∧
      event.prVersion = 1 := by
  unfold Ledger.rows at h
  rcases hloads : loadsDict P req.rawPayload with exc | rawJson
  · rw [hloads] at h
    change Except.error exc = _ at h
    simp at h
  · rw [hloads] at h
    change Ledger.rowsOf P req prData d rawJson = .ok (row, event) at h
    rcases hrow : (inboundArgs req d.correlationId d.eventId prData (requestKey P req prData)
      rawJson).row P d.now with _ | row'
    · simp [Ledger.rowsOf, hrow] at h
    · rcases hvalid : row'.modelValidate P with exc | e
      · rw [rowsOf_invalid hrow hvalid] at h
        simp at h
      · rw [rowsOf_valid hrow hvalid] at h
        split at h
        · simp at h
        · next event' hevent =>
          obtain ⟨rfl, rfl⟩ := Prod.mk.inj (Except.ok.inj h)
          have hinbound := NewInboundEvent.row_eq_some P hrow
          obtain ⟨payload, headers, -, -, houtbox⟩ := NewOutboxEvent.row_eq_some P hevent
          have hkey : row'.prHashKey = requestKey P req prData := congrArg (·.prHashKey) hinbound
          have hversion : event'.prVersion = 1 := congrArg (·.prVersion) houtbox
          exact ⟨hkey, ⟨e, hvalid⟩, hversion⟩

/-! What `Ledger.receive` says in each case. -/

section Receive

variable {l : Ledger} {d : Draw}

theorem receive_of_error {e : Exn} (h : l.screen P req = .error e) :
    l.receive P req d = (.error e, l) := by
  simp only [Ledger.receive, h]

theorem receive_of_none (h : l.screen P req = .ok none) :
    l.receive P req d = (.ok (.ignored d.correlationId (extractEventType req.headers)), l) := by
  simp only [Ledger.receive, h]

theorem receive_of_holds (h : l.screen P req = .ok (some prData))
    (hholds : l.holds (requestKey P req prData) = true) : l.receive P req d =
      (.ok (.duplicate d.correlationId (requestKey P req prData) .dbLookup), l) := by
  simp only [Ledger.receive, h, hholds, if_true]

theorem receive_of_new (h : l.screen P req = .ok (some prData))
    (hnew : l.holds (requestKey P req prData) = false) : l.receive P req d =
      match Ledger.rows P req prData d with
      | .error e => (.error e, l)
      | .ok (row, r) => (.ok (.accepted d.correlationId d.eventId d.outboxId),
          { l with inbound := l.inbound ++ [row], outbox := l.outbox ++ [r] }) := by
  simp only [Ledger.receive, h, hnew, Bool.false_eq_true, if_false]

end Receive

theorem persistStep_lone (correlationId : UUID) (used : List UUID) (hs : Spares choose)
    (hw : w.Settled P) (hfree : w.db.Free t)
    (hscreen : w.db.ledger.screen P req = .ok (some prData))
    (hnew : w.db.ledger.holds (requestKey P req prData) = false)
    (hkey : w.db.keyLock (requestKey P req prData) = none) (hused : used ⊆ w.used) :
    Lone P t choose (fun r w' => ∃ d : Draw, d.From correlationId used w ∧ Comes P req d w w' r)
      (persistStep P req correlationId prData (requestKey P req prData)) w := by
  apply (persist_lone hs hw.versions hfree hnew hkey correlationId).andThen
  rintro r w₁ ⟨d, hcid, heid, hoid, htimestamp, hnow, hleaves⟩
  have hfrom : d.From correlationId used w :=
    ⟨hcid, fun hmem => heid (hused hmem), fun hmem => hoid (hused hmem), htimestamp, hnow⟩
  have hreceive := receive_of_new (d := d) hscreen hnew
  rcases hleaves with ⟨e, hrows, rfl, hadded⟩ | ⟨row, event, hrows, rfl, hadded⟩
  · obtain ⟨hends, hledger⟩ := hadded.unstored hw
    rw [hrows] at hreceive
    have hcomes : Comes P req d w w₁ (.error e) := by
      refine ⟨hends, ?_, ?_⟩
      · rw [hreceive]
        rfl
      · rw [hreceive]
        exact hledger
    rcases rows_error hrows with rfl | rfl | ⟨model, rfl⟩ <;>
      exact Prog.attains_ret.mpr ⟨d, hfrom, hcomes⟩
  · obtain ⟨hkeyRow, hvalid, hversion⟩ := rows_eq_ok hrows
    have hends := hadded.stored hw hvalid hversion
    have hinbound : w₁.db.inbound = w.db.inbound ++ [row] := congrArg Ledger.inbound hadded.ledger
    have hmem : row ∈ w₁.db.inbound := by simp [hinbound]
    have hbacked : Backed P w₁.db (idempotencyKey (requestKey P req prData)) "1" :=
      hkeyRow ▸ .processed hmem
    rw [hrows] at hreceive
    apply (setex_backed hs.toServes hbacked _).attains.bind
    · rintro u w₂ ⟨-, hw₂⟩
      apply (emit_lone hs _ _ _ _ _ w₂).bind
      · rintro u w₃ ⟨-, hw₃⟩
        have hcalm := hw₂.trans (hw₃.calm (P := P))
        refine Prog.attains_ret.mpr ⟨d, hfrom, hends.calm hcalm, ?_, ?_⟩
        · rw [hreceive, hcid]
          rfl
        · rw [hreceive, hcalm.db]
          exact hadded.ledger
      · rintro e w₃ ⟨he, -⟩
        simp at he
    · rintro e w₂ ⟨he, -⟩
      simp at he

/-- A call that draws no more identifiers. -/
theorem drawn (hcid : correlationId ∉ used) (w : World) :
    Draw.From ⟨correlationId, correlationId, correlationId, w.appClock, w.clock⟩ correlationId used w :=
  ⟨rfl, hcid, hcid, rfl, rfl⟩

/-- The call began with steps that change nothing. -/
theorem Comes.after {w₁ : World} {d : Draw} {r : Except Exn WebhookResult} (hcalm : w.Calm P w₁)
    (hfrom : d.From correlationId used w₁) (h : Comes P req d w₁ w' r) :
    d.From correlationId used w ∧ Comes P req d w w' r := by
  constructor
  · exact ⟨hfrom.correlationId, hfrom.eventId, hfrom.outboxId, hfrom.timestamp.trans hcalm.appClock,
      hfrom.now.trans hcalm.clock⟩
  · refine ⟨⟨h.settled, ?_, ?_, ?_, ?_, ?_⟩, ?_, ?_⟩
    · rw [h.sessions, hcalm.db]
    · rw [h.keyLock, hcalm.db]
    · rw [h.clock, hcalm.clock]
    · rw [h.appClock, hcalm.appClock]
    · exact fun _ hu => h.used (hcalm.used hu)
    · rw [h.result, hcalm.db]
    · rw [h.ledger, hcalm.db]

theorem idempotencyStep_lone (hs : Spares choose) (hw : w.Settled P) (hfree : w.db.Free t)
    (hscreen : w.db.ledger.screen P req = .ok (some prData))
    (hkey : w.db.keyLock (requestKey P req prData) = none) (hused : used ⊆ w.used)
    (hcid : correlationId ∉ used) :
    Lone P t choose (fun r w' => ∃ d : Draw, d.From correlationId used w ∧ Comes P req d w w' r)
      (idempotencyStep P req correlationId prData (requestKey P req prData)) w := by
  apply (check_alone hs.toServes hw (requestKey P req prData)).attains.bind
  · rintro detection w₁ ⟨hw₁, detection', hr, hfound⟩
    obtain rfl := Except.ok.inj hr
    rcases detection with _ | detection
    · apply (emit_lone hs _ _ _ _ _ w₁).bind
      · rintro u w₂ ⟨-, hw₂⟩
        have hcalm := hw₁.trans (hw₂.calm (P := P))
        have hstep := persistStep_lone correlationId used hs
          (hw.calm hcalm) (hcalm.db ▸ hfree) (hcalm.db ▸ hscreen) (hcalm.db ▸ hfound.symm)
          (hcalm.db ▸ hkey) fun _ hu => hcalm.used (hused hu)
        apply hstep.mono
        rintro r w₃ ⟨d, hfrom, hcomes⟩
        exact ⟨d, hcomes.after hcalm hfrom⟩
      · rintro e w₂ ⟨he, -⟩
        simp at he
    · apply (emit_lone hs _ _ _ _ _ w₁).bind
      · rintro u w₂ ⟨-, hw₂⟩
        have hcalm := hw₁.trans (hw₂.calm (P := P))
        refine Prog.attains_ret.mpr ⟨_, drawn hcid w, hcalm.ends hw, ?_, ?_⟩
        · rw [receive_of_holds hscreen hfound.symm]
          rfl
        · rw [receive_of_holds hscreen hfound.symm, hcalm.db]
      · rintro e w₂ ⟨he, -⟩
        simp at he
  · rintro e w₁ ⟨-, detection, he, -⟩
    simp at he

/-- A call that has changed nothing, and says what the screening says. -/
theorem Comes.screened {e : Exn} {w₁ : World} (hw : w.Settled P) (hcalm : w.Calm P w₁)
    (hscreen : w.db.ledger.screen P req = .error e) (d : Draw) : Comes P req d w w₁ (.error e) := by
  refine ⟨hcalm.ends hw, ?_, ?_⟩
  · rw [receive_of_error hscreen]
    rfl
  · rw [receive_of_error hscreen, hcalm.db]

/-- What the call relies on about its own session and the locks. -/
structure World.Ready (P : Platform) (req : Request) (t : Nat) (w : World) : Prop where
  free : w.db.Free t
  keyLock : ∀ prData, parsePayload P req.vcsProvider req.rawPayload = .ok prData →
    w.db.keyLock (requestKey P req prData) = none

theorem Ledger.screen_supported (l : Ledger) (h : ¬req.vcsProvider ∉ supportedProviders) :
    l.screen P req = (do
      let secret ← tenantSecret l.tenants req.tenantId
      Ledger.verify P req secret
      let prData ← parsePayload P req.vcsProvider req.rawPayload
      if !isEventAllowed (extractEventType req.headers) prData.action (l.eventWhitelist req) then
        pure none
      else pure (some prData)) :=
  if_neg h

theorem parseStep_lone (correlationId : UUID) (used : List UUID) (hs : Spares choose)
    (hw : w.Settled P) (hready : w.Ready P req t)
    {secret : String} (hprovider : ¬req.vcsProvider ∉ supportedProviders)
    (hsecret : tenantSecret w.db.tenants req.tenantId = .ok secret)
    (hverify : Ledger.verify P req secret = .ok ()) (hused : used ⊆ w.used) (hcid : correlationId ∉ used) :
    Lone P t choose (fun r w' => ∃ d : Draw, d.From correlationId used w ∧ Comes P req d w w' r)
      (parseStep P req correlationId (extractEventType req.headers) (w.db.ledger.eventWhitelist req))
      w := by
  have hscreen := w.db.ledger.screen_supported (P := P) hprovider
  rw [show tenantSecret w.db.ledger.tenants req.tenantId = .ok secret from hsecret] at hscreen
  apply Prog.Attains.ofExcept_bind
  · intro prData hparse
    by_cases hallowed : isEventAllowed (extractEventType req.headers) prData.action
      (w.db.ledger.eventWhitelist req) = true
    · have hscreen : w.db.ledger.screen P req = .ok (some prData) := by
        rw [hscreen]
        simp [bind, Except.bind, hverify, hparse, hallowed, pure, Except.pure]
      simp only [hallowed, Bool.not_true, Bool.false_eq_true, if_false]
      exact idempotencyStep_lone hs hw hready.free hscreen (hready.keyLock prData hparse) hused hcid
    · have hscreen : w.db.ledger.screen P req = .ok none := by
        rw [hscreen]
        simp [bind, Except.bind, hverify, hparse, hallowed, pure, Except.pure]
      simp only [hallowed, Bool.not_false, if_true]
      apply (emit_lone hs _ _ _ _ _ w).bind
      · rintro u w₁ ⟨-, hw₁⟩
        refine Prog.attains_ret.mpr ⟨_, drawn hcid w, hw₁.calm.ends hw, ?_, ?_⟩
        · rw [receive_of_none hscreen]
          rfl
        · rw [receive_of_none hscreen, hw₁.db]
      · rintro e w₁ ⟨he, -⟩
        simp at he
  · intro e hparse
    have hscreen : w.db.ledger.screen P req = .error e := by
      rw [hscreen]
      simp [bind, Except.bind, hverify, hparse]
    exact ⟨_, drawn hcid w, .screened hw (.refl w) hscreen _⟩

/-- What follows the draw of the correlation id. -/
theorem afterDraw_lone (correlationId : UUID) (used : List UUID) (hs : Spares choose)
    (hw : w.Settled P) (hread : w.db.ReadsBack P)
    (hready : w.Ready P req t) (hprovider : ¬req.vcsProvider ∉ supportedProviders)
    (hused : used ⊆ w.used) (hcid : correlationId ∉ used) :
    Lone P t choose (fun r w' => ∃ d : Draw, d.From correlationId used w ∧ Comes P req d w w' r)
      (do
        let webhookSecret ← getWebhookSecret P req.tenantId
        let eventType := extractEventType req.headers
        let whitelist ← getEventWhitelist req.vcsProvider
        validateSignature P req.vcsProvider req.rawPayload req.headers webhookSecret correlationId
          req.tenantId
        emit P .webhookReceived .inProgress correlationId req.tenantId
        parseStep P req correlationId eventType whitelist) w := by
  have hscreen := w.db.ledger.screen_supported (P := P) hprovider
  apply (getWebhookSecret_alone hs.toServes req.tenantId (hw.cachesTenant hread req.tenantId)).attains.bind
  · rintro secret w₁ ⟨hsecret, hw₁⟩
    have hsecret' : tenantSecret w.db.ledger.tenants req.tenantId = .ok secret := hsecret.symm
    rw [hsecret'] at hscreen
    have hselect : execOp P t (choose w₁ (.selectWhitelist req.vcsProvider)) w₁
        (.selectWhitelist req.vcsProvider) = some (.ok (w.db.ledger.eventWhitelist req), w₁) := by
      rw [hs.steady w₁ _ rfl, ← hw₁.db]
      rfl
    apply lone_await rfl hselect
    have hw₂ := hw₁.trans (World.Untouched.record w₁ ⟨t, .selectWhitelist req.vcsProvider,
      .ok (w.db.ledger.eventWhitelist req)⟩).calm
    apply (validateSignature_lone hs req secret correlationId).bind
    · rintro u w₃ ⟨hw₃, hverify⟩
      have hw₃ := hw₂.trans hw₃
      apply (emit_lone hs _ _ _ _ _ w₃).bind
      · rintro u w₄ ⟨-, hw₄⟩
        have hw₄ := hw₃.trans (hw₄.calm (P := P))
        have hready₄ : w₄.Ready P req t := ⟨hw₄.db ▸ hready.free, hw₄.db ▸ hready.keyLock⟩
        have hstep := parseStep_lone correlationId used hs (hw.calm hw₄)
          hready₄ hprovider (hw₄.db ▸ hsecret.symm) hverify.symm
          (fun _ hu => hw₄.used (hused hu)) hcid
        rw [hw₄.db] at hstep
        apply hstep.mono
        rintro r w₅ ⟨d, hfrom, hcomes⟩
        exact ⟨d, hcomes.after hw₄ hfrom⟩
      · rintro e w₄ ⟨he, -⟩
        simp at he
    · rintro e w₃ ⟨hw₃, hverify⟩
      have hscreen : w.db.ledger.screen P req = .error e := by
        rw [hscreen]
        simp [bind, Except.bind, ← hverify]
      exact ⟨_, drawn hcid w, .screened hw (hw₂.trans hw₃) hscreen _⟩
  · rintro e w₁ ⟨hsecret, hw₁⟩
    have hscreen : w.db.ledger.screen P req = .error e := by
      rw [hscreen, show tenantSecret w.db.ledger.tenants req.tenantId = .error e from hsecret.symm]
      rfl
    exact ⟨_, drawn hcid w, .screened hw hw₁ hscreen _⟩

/-- **A call that runs alone** ends, and comes to what the tables say about its request, whatever
    Redis and the broker do. -/
theorem processWebhook_lone (hs : Spares choose) (hw : w.Settled P) (hread : w.db.ReadsBack P)
    (hready : w.Ready P req t) :
    Lone P t choose (fun r w' => ∃ d : Draw, d.From d.correlationId w.used w ∧
        d.correlationId ∉ w.used ∧ Comes P req d w w' r)
      (processWebhook P req) w := by
  apply (uuid4_lone hs w).bind
  · rintro correlationId w₁ ⟨hw₁, u, hcid, hr⟩
    obtain rfl := Except.ok.inj hr
    have hcalm : w.Calm P w₁ := hw₁.calm
    by_cases hprovider : req.vcsProvider ∉ supportedProviders
    · have hscreen : w.db.ledger.screen P req = .error (unsupportedProvider P req.vcsProvider) :=
        if_pos hprovider
      simp only [hprovider, not_false_eq_true, if_true]
      exact Prog.attains_ret.mpr ⟨_, drawn hcid w, hcid, .screened hw hcalm hscreen _⟩
    · have hready₁ : w₁.Ready P req t := ⟨hcalm.db ▸ hready.free, hcalm.db ▸ hready.keyLock⟩
      have hstep := afterDraw_lone correlationId w.used hs (hw.calm hcalm)
        (hcalm.db ▸ hread) hready₁ hprovider hcalm.used hcid
      simp only [hprovider, if_false]
      apply hstep.mono
      rintro r w₂ ⟨d, hfrom, hcomes⟩
      obtain ⟨hfrom, hcomes⟩ := hcomes.after hcalm hfrom
      rw [← hfrom.correlationId] at hcid
      exact ⟨d, ⟨rfl, hfrom.eventId, hfrom.outboxId, hfrom.timestamp, hfrom.now⟩, hcid, hcomes⟩
  · rintro e w₁ ⟨-, u, -, he⟩
    simp at he

end Call

end VcsGateway
