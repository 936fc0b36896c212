import VcsGateway.Moves

/-!
# What the pieces of the pipeline await

For every helper of the pipeline the operations it can await, and how its result can
look.  Protocols use these instead of the program text.
-/

namespace VcsGateway

open Async

/-! ### Exceptions that do not get out -/

/-- Nothing but a cancellation is raised. -/
def Suppressed {α : Type} (r : Except Exn α) : Prop := ∀ e, r = .error e → e = .cancelledError

theorem suppressed_ok {α : Type} (a : α) : Suppressed (.ok a) := by
  intro e h
  simp at h

theorem suppressed_cancelled {α : Type} :
    Suppressed (.error .cancelledError : Except Exn α) := by
  intro e h
  exact (Except.error.inj h).symm

section ExceptException

variable {α : Type} {p : Coroutine α} {h : Exn → Coroutine α}

theorem exceptException_only {ok : Op → Prop} (hp : p.Only ok) (hh : ∀ e, (h e).Only ok) :
    (exceptException p h).Only ok := by
  refine Prog.Only.handle hp fun e => ?_
  cases e with
  | cancelledError => exact trivial
  | _ => exact hh _

theorem exceptException_ends {Q : Except Exn α → Prop} (hp : p.Ends fun r => ∀ a, r = .ok a → Q r)
    (hc : Q (.error .cancelledError)) (hh : ∀ e, (h e).Ends Q) : (exceptException p h).Ends Q := by
  refine Prog.Ends.andThen hp fun r hr => ?_
  cases r with
  | ok a => exact hr a rfl
  | error e =>
    cases e with
    | cancelledError => exact hc
    | _ => exact hh _

/-- `except Exception: pass`. -/
theorem exceptException_suppressed (a : α) :
    (exceptException p fun _ => pure a).Ends Suppressed := by
  refine exceptException_ends ?_ suppressed_cancelled fun _ => suppressed_ok a
  refine Protocol.Conforms.mono (Prog.ends_true p) fun r _ _ a h => ?_
  exact h ▸ suppressed_ok a

end ExceptException

/-! ### Transactions -/

section Transactions

variable {A : Protocol Exn Op Op.Ret} {α : Type} {R Q : Except Exn α → A.State → Prop}
  {body : Coroutine α} {s : A.State}

/-- The rule for `transaction`: what begins, what commits and what rolls back. -/
theorem conforms_transaction (hbegin : A.allows s .begin)
    (hfail : ∀ e, A.admits .begin (.error e) → Q (.error e) (A.next s .begin (.error e)))
    (hbody : A.Conforms R body (A.next s .begin (.ok ())))
    (hcommit : ∀ a s', R (.ok a) s' → A.allows s' .commit ∧ Q (.ok a) (A.next s' .commit (.ok ())) ∧
      ∀ e, A.admits .commit (.error e) → Q (.error e) (A.next s' .commit (.error e)))
    (hrollback : ∀ exc s', R (.error exc) s' → A.allows s' .rollback ∧
      Q (.error exc) (A.next s' .rollback (.ok ())) ∧
      ∀ e, A.admits .rollback (.error e) → Q (.error e) (A.next s' .rollback (.error e))) :
    A.Conforms Q (transaction body) s := by
  refine ⟨hbegin, fun r hr => ?_⟩
  cases r with
  | error e => exact hfail e hr
  | ok u =>
    refine Protocol.Conforms.andThen (p := body) hbody fun r s' hs' => ?_
    cases r with
    | ok a =>
      obtain ⟨hallow, hok, herr⟩ := hcommit a s' hs'
      refine ⟨hallow, fun r hr => ?_⟩
      cases r with
      | ok _ => exact hok
      | error e => exact herr e hr
    | error exc =>
      obtain ⟨hallow, hok, herr⟩ := hrollback exc s' hs'
      refine ⟨hallow, fun r hr => ?_⟩
      cases r with
      | ok _ => exact hok
      | error e => exact herr e hr

theorem conforms_nestedTransaction (hbegin : A.allows s .savepoint)
    (hfail : ∀ e, A.admits .savepoint (.error e) → Q (.error e) (A.next s .savepoint (.error e)))
    (hbody : A.Conforms R body (A.next s .savepoint (.ok ())))
    (hrelease : ∀ a s', R (.ok a) s' → A.allows s' .release ∧
      Q (.ok a) (A.next s' .release (.ok ())) ∧
      ∀ e, A.admits .release (.error e) → Q (.error e) (A.next s' .release (.error e)))
    (hrollback : ∀ exc s', R (.error exc) s' → A.allows s' .rollbackTo ∧
      Q (.error exc) (A.next s' .rollbackTo (.ok ())) ∧
      ∀ e, A.admits .rollbackTo (.error e) → Q (.error e) (A.next s' .rollbackTo (.error e))) :
    A.Conforms Q (nestedTransaction body) s := by
  refine ⟨hbegin, fun r hr => ?_⟩
  cases r with
  | error e => exact hfail e hr
  | ok u =>
    refine Protocol.Conforms.andThen (p := body) hbody fun r s' hs' => ?_
    cases r with
    | ok a =>
      obtain ⟨hallow, hok, herr⟩ := hrelease a s' hs'
      refine ⟨hallow, fun r hr => ?_⟩
      cases r with
      | ok _ => exact hok
      | error e => exact herr e hr
    | error exc =>
      obtain ⟨hallow, hok, herr⟩ := hrollback exc s' hs'
      refine ⟨hallow, fun r hr => ?_⟩
      cases r with
      | ok _ => exact hok
      | error e => exact herr e hr

theorem transaction_only {ok : Op → Prop} (hb : ok .begin) (hc : ok .commit) (hr : ok .rollback)
    (h : body.Only ok) : (transaction body).Only ok := by
  refine Prog.Only.bind (Prog.only_perform.mpr hb) fun _ => h.andThen fun r => ?_
  cases r with
  | ok a => exact Prog.Only.bind (Prog.only_perform.mpr hc) fun _ => trivial
  | error exc => exact Prog.Only.bind (Prog.only_perform.mpr hr) fun _ => trivial

theorem nestedTransaction_only {ok : Op → Prop} (hb : ok .savepoint) (hc : ok .release)
    (hr : ok .rollbackTo) (h : body.Only ok) : (nestedTransaction body).Only ok := by
  refine Prog.Only.bind (Prog.only_perform.mpr hb) fun _ => h.andThen fun r => ?_
  cases r with
  | ok a => exact Prog.Only.bind (Prog.only_perform.mpr hc) fun _ => trivial
  | error exc => exact Prog.Only.bind (Prog.only_perform.mpr hr) fun _ => trivial

end Transactions

/-! ### The helpers of the pipeline -/

variable (P : Platform)

/-- The operations of a journey event: none of them touches a table or Redis, and no
    message comes from the outbox. -/
inductive Op.Journey : Op → Prop
  | uuid4 : Journey .uuid4
  | utcnow : Journey .utcnow
  | openChannel : Journey .openChannel
  | getExchange (ch : Channel) (name : String) : Journey (.getExchange ch name)
  | publish (ex : Exchange) (m : Message) (key : String) (h : m.source = none) :
      Journey (.publish ex m key)
  | closeChannel (ch : Channel) : Journey (.closeChannel ch)

theorem basePublish_only (exchangeName routingKey : String) (payload : Json) (correlationId : UUID) :
    (basePublish P exchangeName routingKey payload correlationId).Only Op.Journey := by
  refine Prog.Only.bind (Prog.only_perform.mpr .openChannel) fun channel => ?_
  refine Prog.Only.finallyDo ?_ (Prog.only_perform.mpr (.closeChannel channel))
  refine Prog.Only.bind (Prog.only_perform.mpr (.getExchange channel _)) fun exchange => ?_
  exact Prog.only_perform.mpr (.publish exchange _ _ rfl)

theorem emit_only (stepType : JourneyStepType) (status : JourneyStepStatus)
    (correlationId tenantId : UUID) (metadata : List (String × Json)) :
    (emit P stepType status correlationId tenantId metadata).Only Op.Journey := by
  refine exceptException_only ?_ fun _ => trivial
  refine Prog.Only.bind (Prog.only_perform.mpr .uuid4) fun eventId => ?_
  refine Prog.Only.bind (Prog.only_perform.mpr .utcnow) fun timestamp => ?_
  exact basePublish_only P _ _ _ _

theorem emit_suppressed (stepType : JourneyStepType) (status : JourneyStepStatus)
    (correlationId tenantId : UUID) (metadata : List (String × Json)) :
    (emit P stepType status correlationId tenantId metadata).Ends Suppressed :=
  exceptException_suppressed ()

theorem getIdempotencyCache_only (prHashKey : String) :
    (getIdempotencyCache prHashKey).Only (· = .redisGet (idempotencyKey prHashKey)) :=
  exceptException_only (Prog.only_perform.mpr rfl) fun _ => trivial

theorem getIdempotencyCache_suppressed (prHashKey : String) :
    (getIdempotencyCache prHashKey).Ends Suppressed :=
  exceptException_suppressed none

theorem setIdempotencyCache_only (prHashKey : String) (ttlSeconds : Nat) :
    (setIdempotencyCache prHashKey ttlSeconds).Only
      (· = .redisSetex (idempotencyKey prHashKey) ttlSeconds "1") :=
  exceptException_only (Prog.only_perform.mpr rfl) fun _ => trivial

theorem setIdempotencyCache_suppressed (prHashKey : String) (ttlSeconds : Nat) :
    (setIdempotencyCache prHashKey ttlSeconds).Ends Suppressed :=
  exceptException_suppressed ()

theorem getTenantCache_only (tenantId : UUID) :
    (getTenantCache P tenantId).Only (· = .redisGet (tenantConfigKey tenantId)) := by
  refine exceptException_only ?_ fun _ => trivial
  refine Prog.Only.bind (Prog.only_perform.mpr rfl) fun raw => ?_
  rcases raw with _ | raw
  · exact trivial
  · rcases h : P.loadsStr raw with _ | result
    · simp only [h]; exact trivial
    · simp only [h]; exact trivial

theorem getTenantCache_suppressed (tenantId : UUID) :
    (getTenantCache P tenantId).Ends Suppressed :=
  exceptException_suppressed none

theorem setTenantCache_only (tenantId : UUID) (tenantData : Json) :
    (setTenantCache P tenantId tenantData).Only
      fun op => ∃ v, op = .redisSetex (tenantConfigKey tenantId) 300 v :=
  exceptException_only (Prog.only_perform.mpr ⟨_, rfl⟩) fun _ => trivial

/-- The operations of `get_webhook_secret`. -/
inductive Op.TenantLookup (tenantId : UUID) : Op → Prop
  | get : TenantLookup tenantId (.redisGet (tenantConfigKey tenantId))
  | select : TenantLookup tenantId (.selectTenant tenantId)
  | set (v : String) : TenantLookup tenantId (.redisSetex (tenantConfigKey tenantId) 300 v)

theorem getWebhookSecret_only (tenantId : UUID) :
    (getWebhookSecret P tenantId).Only (Op.TenantLookup tenantId) := by
  refine Prog.Only.bind ((getTenantCache_only P tenantId).mono ?_) fun cached => ?_
  · rintro op rfl
    exact .get
  rcases cached with _ | cached
  · refine Prog.Only.bind (Prog.only_perform.mpr .select) fun tenant => ?_
    rcases tenant with _ | tenant
    · exact trivial
    · by_cases hactive : tenant.isActive = true
      · simp only [hactive, Bool.not_true, Bool.false_eq_true, if_false]
        refine Prog.Only.bind ((setTenantCache_only P tenantId _).mono ?_) fun _ => trivial
        rintro op ⟨v, rfl⟩
        exact .set v
      · simp only [hactive, Bool.not_false, if_true]
        exact trivial
  · exact trivial

theorem getByPrHashKey_only (prHashKey : String) :
    (getByPrHashKey P prHashKey).Only (· = .selectByPrHashKey prHashKey) := by
  refine Prog.Only.bind (Prog.only_perform.mpr rfl) fun row => ?_
  rcases row with _ | row
  · exact trivial
  · exact Prog.Only.bind (p := Prog.ofExcept _) trivial fun _ => trivial

/-- The operations of `_CANCEL_PREVIOUS`. -/
inductive Op.Cancel (prHashKey : String) (prVersion : Int) : Op → Prop
  | scan : Cancel prHashKey prVersion (.cancelScan prHashKey prVersion)
  | row (id : UUID) (reason : String) :
      Cancel prHashKey prVersion (.cancelRow id prHashKey prVersion reason)

theorem cancelPrevious_only (prHashKey : String) (prVersion : Int) (reason : String) :
    (cancelPrevious prHashKey prVersion reason).Only (Op.Cancel prHashKey prVersion) := by
  refine Prog.Only.bind (Prog.only_perform.mpr .scan) fun ids => ?_
  exact Prog.Only.forEach fun id => Prog.only_perform.mpr (.row id reason)

/-- The operations of the idempotency step and what follows it, for one key. -/
inductive Op.ForKey (prHashKey : String) : Op → Prop
  | journey {op : Op} (h : op.Journey) : ForKey prHashKey op
  | get : ForKey prHashKey (.redisGet (idempotencyKey prHashKey))
  | set (ttl : Nat) : ForKey prHashKey (.redisSetex (idempotencyKey prHashKey) ttl "1")
  | select : ForKey prHashKey (.selectByPrHashKey prHashKey)
  | begin : ForKey prHashKey .begin
  | commit : ForKey prHashKey .commit
  | rollback : ForKey prHashKey .rollback
  | insertInbound (e : NewInboundEvent) (h : e.prHashKey = prHashKey) :
      ForKey prHashKey (.insertInbound e)
  | insertEvent (e : NewOutboxEvent) (h : e.prHashKey = prHashKey) :
      ForKey prHashKey (.insertEvent e)
  | cancel {op : Op} (h : op.Cancel prHashKey 1) : ForKey prHashKey op

theorem check_only (prHashKey : String) : (check P prHashKey).Only (Op.ForKey prHashKey) := by
  refine Prog.Only.bind ((getIdempotencyCache_only prHashKey).mono ?_) fun cached => ?_
  · rintro op rfl
    exact .get
  rcases cached with _ | v
  · refine Prog.Only.bind ((getByPrHashKey_only P prHashKey).mono ?_) fun existing => ?_
    · rintro op rfl
      exact .select
    rcases existing with _ | i
    · exact trivial
    · refine Prog.Only.bind ((setIdempotencyCache_only prHashKey _).mono ?_) fun _ => trivial
      rintro op rfl
      exact .set _
  · exact trivial

theorem insertInbound_only (e : NewInboundEvent) {prHashKey : String}
    (h : e.prHashKey = prHashKey) : (insertInbound P e).Only (Op.ForKey prHashKey) :=
  Prog.Only.bind (Prog.only_perform.mpr (.insertInbound e h)) fun _ => trivial

theorem scheduleEvent_only (eventType : String) (correlationId : UUID) (prHashKey : String)
    (payload headers : Json) (debounceSeconds : Nat) :
    (scheduleEvent P eventType correlationId prHashKey 1 payload headers debounceSeconds).Only
      (Op.ForKey prHashKey) := by
  refine Prog.Only.bind ((cancelPrevious_only prHashKey 1 _).mono fun _ h => .cancel h) fun _ => ?_
  exact Prog.only_perform.mpr (.insertEvent _ rfl)

theorem persist_only (req : Request) (correlationId : UUID) (prData : PullRequestData)
    (prHashKey : String) :
    (persist P req correlationId prData prHashKey).Only (Op.ForKey prHashKey) := by
  refine Prog.Only.bind (Prog.only_perform.mpr (.journey .uuid4)) fun eventId => ?_
  refine Prog.Only.bind (p := Prog.ofExcept _) trivial fun rawJson => ?_
  refine Prog.Only.bind (Prog.only_perform.mpr (.journey .utcnow)) fun timestamp => ?_
  refine Prog.Only.bind (Prog.Only.handle ?_ ?_) fun _ => trivial
  · refine transaction_only .begin .commit .rollback ?_
    refine Prog.Only.bind (insertInbound_only P _ ?_) fun _ => scheduleEvent_only P _ _ _ _ _ _
    rfl
  · intro e
    cases e <;> exact trivial

theorem persistStep_only (req : Request) (correlationId : UUID) (prData : PullRequestData)
    (prHashKey : String) :
    (persistStep P req correlationId prData prHashKey).Only (Op.ForKey prHashKey) := by
  refine (persist_only P req correlationId prData prHashKey).andThen fun r => ?_
  rcases r with exc | ⟨eventId, outboxId⟩
  · rcases exc with ⟨cls, msg, details⟩
    · cases cls <;> exact trivial
    all_goals exact trivial
  · refine Prog.Only.bind ((setIdempotencyCache_only prHashKey _).mono ?_) fun _ => ?_
    · rintro op rfl
      exact .set _
    · exact ((emit_only P _ _ _ _ _).mono fun _ h => .journey h).bind fun _ => trivial

theorem idempotencyStep_only (req : Request) (correlationId : UUID) (prData : PullRequestData)
    (prHashKey : String) :
    (idempotencyStep P req correlationId prData prHashKey).Only (Op.ForKey prHashKey) := by
  refine (check_only P prHashKey).bind fun detection => ?_
  rcases detection with _ | detection
  · exact ((emit_only P _ _ _ _ _).mono fun _ h => .journey h).bind fun _ =>
      persistStep_only P req correlationId prData prHashKey
  · exact ((emit_only P _ _ _ _ _).mono fun _ h => .journey h).bind fun _ => trivial

/-! ### Everything but the transaction -/

/-- The operations of the pipeline outside its transaction. -/
inductive Op.Idle : Op → Prop
  | journey {op : Op} (h : op.Journey) : Idle op
  | redisGet (key : String) : Idle (.redisGet key)
  | redisSetex (key : String) (ttl : Nat) (v : String) : Idle (.redisSetex key ttl v)
  | selectTenant (id : UUID) : Idle (.selectTenant id)
  | selectWhitelist (vcsProvider : String) : Idle (.selectWhitelist vcsProvider)
  | selectByPrHashKey (k : String) : Idle (.selectByPrHashKey k)

theorem getWebhookSecret_idle (tenantId : UUID) : (getWebhookSecret P tenantId).Only Op.Idle := by
  refine (getWebhookSecret_only P tenantId).mono fun op h => ?_
  cases h with
  | get => exact .redisGet _
  | select => exact .selectTenant _
  | set v => exact .redisSetex _ _ _

theorem emit_idle (stepType : JourneyStepType) (status : JourneyStepStatus)
    (correlationId tenantId : UUID) (metadata : List (String × Json)) :
    (emit P stepType status correlationId tenantId metadata).Only Op.Idle :=
  (emit_only P stepType status correlationId tenantId metadata).mono fun _ h => .journey h

theorem setIdempotencyCache_idle (prHashKey : String) (ttlSeconds : Nat) :
    (setIdempotencyCache prHashKey ttlSeconds).Only Op.Idle := by
  refine (setIdempotencyCache_only prHashKey ttlSeconds).mono ?_
  rintro op rfl
  exact .redisSetex _ _ _

theorem getByPrHashKey_idle (prHashKey : String) : (getByPrHashKey P prHashKey).Only Op.Idle := by
  refine (getByPrHashKey_only P prHashKey).mono ?_
  rintro op rfl
  exact .selectByPrHashKey _

theorem check_idle (prHashKey : String) : (check P prHashKey).Only Op.Idle := by
  refine Prog.Only.bind ((getIdempotencyCache_only prHashKey).mono ?_) fun cached => ?_
  · rintro op rfl
    exact .redisGet _
  rcases cached with _ | v
  · refine (getByPrHashKey_idle P prHashKey).bind fun existing => ?_
    rcases existing with _ | i
    · exact trivial
    · exact (setIdempotencyCache_idle prHashKey _).bind fun _ => trivial
  · exact trivial

theorem checkDuplicate_idle (prHashKey : String) : (checkDuplicate P prHashKey).Only Op.Idle := by
  refine (check_idle P prHashKey).bind fun detection => ?_
  rcases detection with _ | _ | _ | _
  · exact trivial
  · exact trivial
  · exact (getByPrHashKey_idle P prHashKey).bind fun _ => trivial
  · exact trivial

theorem checkStale_idle (prHashKey : String) (prVersion : Int) :
    (checkStale P prHashKey prVersion).Only Op.Idle := by
  refine (getByPrHashKey_idle P prHashKey).bind fun event => ?_
  rcases event with _ | event
  · exact trivial
  · change (ite _ _ _ : Coroutine StaleAnswer).Only _
    split <;> exact trivial

theorem validateSignature_only (vcsProvider : String) (rawPayload : ByteArray) (headers : Headers)
    (webhookSecret : String) (correlationId tenantId : UUID) :
    (validateSignature P vcsProvider rawPayload headers webhookSecret correlationId
      tenantId).Only Op.Journey := by
  refine Prog.Only.bind (p := Prog.ofExcept _) trivial fun valid => ?_
  refine (emit_only P _ _ _ _ _).bind fun _ => ?_
  cases valid <;> exact trivial

theorem validateSignature_idle (vcsProvider : String) (rawPayload : ByteArray) (headers : Headers)
    (webhookSecret : String) (correlationId tenantId : UUID) :
    (validateSignature P vcsProvider rawPayload headers webhookSecret correlationId
      tenantId).Only Op.Idle :=
  (validateSignature_only P vcsProvider rawPayload headers webhookSecret correlationId
    tenantId).mono fun _ h => .journey h

/-- The body of the transaction of `persist`. -/
def persistBody (req : Request) (correlationId eventId : UUID) (timestamp : Time)
    (prData : PullRequestData) (prHashKey : String) (rawJson : List (String × Json)) :
    Coroutine UUID := do
  let _ ← insertInbound P (inboundArgs req correlationId eventId prData prHashKey rawJson)
  scheduleEvent P "vcs.webhook.received" correlationId prHashKey 1
    ((receivedMessage req correlationId eventId timestamp prData prHashKey rawJson).modelDump P)
    (.dict [("correlation_id", .str correlationId.str)]) P.settings.outboxDebounceSeconds

theorem persistBody_only (req : Request) (correlationId eventId : UUID) (timestamp : Time)
    (prData : PullRequestData) (prHashKey : String) (rawJson : List (String × Json)) :
    (persistBody P req correlationId eventId timestamp prData prHashKey rawJson).Only
      (Op.ForKey prHashKey) :=
  Prog.Only.bind (insertInbound_only P _ rfl) fun _ => scheduleEvent_only P _ _ _ _ _ _

section Rests

variable {P} {A : Protocol Exn Op Op.Ret} {s : A.State}

/-- The program leaves the protocol where it found it. -/
def Rests (A : Protocol Exn Op Op.Ret) {α : Type} (p : Coroutine α) (s : A.State) : Prop :=
  A.Conforms (fun _ s' => s' = s) p s

theorem Rests.andThen {α β : Type} {p : Coroutine α} {f : Except Exn α → Coroutine β}
    (hp : Rests A p s) (hf : ∀ r, Rests A (f r) s) : Rests A (p.andThen f) s := by
  refine Protocol.Conforms.andThen hp ?_
  rintro r s' rfl
  exact hf r

theorem Rests.bind {α β : Type} {p : Coroutine α} {f : α → Coroutine β} (hp : Rests A p s)
    (hf : ∀ a, Rests A (f a) s) : Rests A (p >>= f) s := by
  refine hp.andThen fun r => ?_
  cases r with
  | ok a => exact hf a
  | error e => exact rfl

/-- Where the idle operations are allowed and go unnoticed and the transaction leaves
    no trace, so does the whole call. -/
theorem processWebhook_rests (hidle : ∀ op : Op, op.Idle → A.allows s op ∧ ∀ r, A.next s op r = s)
    (req : Request)
    (htransaction : ∀ correlationId eventId timestamp prData rawJson,
      Rests A (transaction (persistBody P req correlationId eventId timestamp prData
        (requestKey P req prData) rawJson)) s) : Rests A (processWebhook P req) s := by
  have honly : ∀ {α : Type} {p : Coroutine α}, p.Only Op.Idle → Rests A p s :=
    fun hp => Protocol.Conforms.idle (hp.mono hidle)
  have hpersist : ∀ correlationId prData,
      Rests A (persist P req correlationId prData (requestKey P req prData)) s := by
    intro correlationId prData
    refine (honly (Prog.only_perform.mpr (.journey .uuid4))).bind fun eventId => ?_
    refine (honly (p := Prog.ofExcept _) trivial).bind fun rawJson => ?_
    refine (honly (Prog.only_perform.mpr (.journey .utcnow))).bind fun timestamp => ?_
    refine Rests.bind ?_ fun outboxId => rfl
    refine Rests.andThen (htransaction correlationId eventId timestamp prData rawJson) fun r => ?_
    rcases r with e | outboxId
    · cases e <;> exact rfl
    · exact rfl
  have hstep : ∀ correlationId prData,
      Rests A (persistStep P req correlationId prData (requestKey P req prData)) s := by
    intro correlationId prData
    refine (hpersist correlationId prData).andThen fun r => ?_
    rcases r with e | ⟨eventId, outboxId⟩
    · rcases e with ⟨cls, msg, details⟩
      · cases cls <;> exact rfl
      all_goals exact rfl
    · refine (honly (setIdempotencyCache_idle _ _)).bind fun _ => ?_
      exact (honly (emit_idle P _ _ _ _ _)).bind fun _ => rfl
  refine (honly (Prog.only_perform.mpr (.journey .uuid4))).bind fun correlationId => ?_
  split
  · exact rfl
  refine (honly (getWebhookSecret_idle P req.tenantId)).bind fun webhookSecret => ?_
  refine (honly (Prog.only_perform.mpr (.selectWhitelist _))).bind fun whitelist => ?_
  refine (honly (validateSignature_idle P _ _ _ _ _ _)).bind fun _ => ?_
  refine (honly (emit_idle P _ _ _ _ _)).bind fun _ => ?_
  refine (honly (p := Prog.ofExcept _) trivial).bind fun prData => ?_
  split
  · exact (honly (emit_idle P _ _ _ _ _)).bind fun _ => rfl
  refine (honly (check_idle P _)).bind fun detection => ?_
  rcases detection with _ | detection
  · exact (honly (emit_idle P _ _ _ _ _)).bind fun _ => hstep correlationId prData
  · exact (honly (emit_idle P _ _ _ _ _)).bind fun _ => rfl

end Rests

/-! ### The publisher -/

/-- The operations of a batch between `BEGIN` and its end. -/
inductive Op.InBatch : Op → Prop
  | savepoint : InBatch .savepoint
  | release : InBatch .release
  | rollbackTo : InBatch .rollbackTo
  | dueScan : InBatch .dueScan
  | lockDue (id : UUID) : InBatch (.lockDue id)
  | publish (ex : Exchange) (m : Message) (key : String) : InBatch (.publish ex m key)
  | markDispatched (id : UUID) : InBatch (.markDispatched id)
  | markFailed (id : UUID) (msg : String) : InBatch (.markFailed id msg)
  | markRetry (id : UUID) (msg : String) (at_ : Time) : InBatch (.markRetry id msg at_)
  | utcnow : InBatch .utcnow
  | getSelf (p : Nat) : InBatch (.getSelf p)
  | isClosed (ch : Channel) : InBatch (.isClosed ch)
  | openChannel : InBatch .openChannel
  | setChannel (p : Nat) (ch : Option Channel) : InBatch (.setChannel p ch)
  | getExchange (ch : Channel) (name : String) : InBatch (.getExchange ch name)
  | setExchange (p : Nat) (ex : Option Exchange) : InBatch (.setExchange p ex)

/-- The operations with which `run` reacts to the end of a batch. -/
inductive Op.Reset : Op → Prop
  | getSelf (p : Nat) : Reset (.getSelf p)
  | isClosed (ch : Channel) : Reset (.isClosed ch)
  | closeChannel (ch : Channel) : Reset (.closeChannel ch)
  | setChannel (p : Nat) (ch : Option Channel) : Reset (.setChannel p ch)
  | setExchange (p : Nat) (ex : Option Exchange) : Reset (.setExchange p ex)

/-- The operations of `_SELECT_DUE`. -/
inductive Op.Select : Op → Prop
  | dueScan : Select .dueScan
  | lockDue (id : UUID) : Select (.lockDue id)

theorem Op.Select.inBatch {op : Op} (h : op.Select) : op.InBatch := by
  cases h <;> constructor

theorem lockRows_selects (limit : Nat) (ids : List UUID) : (lockRows limit ids).Only Op.Select := by
  induction ids generalizing limit with
  | nil => cases limit <;> exact trivial
  | cons id ids ih =>
    cases limit with
    | zero => exact trivial
    | succ limit =>
      refine Prog.Only.bind (Prog.only_perform.mpr (.lockDue id)) fun row => ?_
      rcases row with _ | row
      · exact ih (limit + 1)
      · exact (ih limit).bind fun rows => trivial

theorem selectDue_selects (limit : Nat) : (selectDue limit).Only Op.Select :=
  Prog.Only.bind (Prog.only_perform.mpr .dueScan) fun ids => lockRows_selects _ ids

/-- The operations of `_get_exchange`. -/
inductive Op.Acquire : Op → Prop
  | getSelf (p : Nat) : Acquire (.getSelf p)
  | isClosed (ch : Channel) : Acquire (.isClosed ch)
  | openChannel : Acquire .openChannel
  | setChannel (p : Nat) (ch : Option Channel) : Acquire (.setChannel p ch)
  | getExchange (ch : Channel) (name : String) : Acquire (.getExchange ch name)
  | setExchange (p : Nat) (ex : Option Exchange) : Acquire (.setExchange p ex)

theorem Op.Acquire.inBatch {op : Op} (h : op.Acquire) : op.InBatch := by
  cases h <;> constructor

theorem ensureExchange_acquires (self : Publisher) : (ensureExchange self).Only Op.Acquire := by
  refine Prog.Only.bind (Prog.only_perform.mpr (.getSelf _)) fun state => ?_
  have hclosed : (channelClosed state.channel).Only Op.Acquire := by
    rcases state.channel with _ | ch
    · exact trivial
    · exact Prog.only_perform.mpr (.isClosed ch)
  have hreacquire : ∀ closed, (reacquire self closed).Only Op.Acquire := by
    intro closed
    cases closed with
    | false => exact trivial
    | true =>
      refine Prog.Only.bind (Prog.only_perform.mpr .openChannel) fun ch => ?_
      refine Prog.Only.bind (Prog.only_perform.mpr (.setChannel _ _)) fun _ => ?_
      refine Prog.Only.bind (Prog.only_perform.mpr (.getExchange _ _)) fun ex => ?_
      exact Prog.only_perform.mpr (.setExchange _ _)
  have hcurrent : (currentExchange self).Only Op.Acquire := by
    refine Prog.Only.bind (Prog.only_perform.mpr (.getSelf _)) fun state => ?_
    split <;> exact trivial
  exact hclosed.bind fun closed => (hreacquire closed).bind fun _ => hcurrent

theorem ensureExchange_only (self : Publisher) : (ensureExchange self).Only Op.InBatch :=
  (ensureExchange_acquires self).mono fun _ h => h.inBatch

/-- The operations with which a batch delivers a row through `exchange`. -/
inductive Op.Deliver (exchange : Exchange) : Op → Prop
  | savepoint : Deliver exchange .savepoint
  | release : Deliver exchange .release
  | rollbackTo : Deliver exchange .rollbackTo
  | publish (m : Message) (key : String) : Deliver exchange (.publish exchange m key)
  | markDispatched (id : UUID) : Deliver exchange (.markDispatched id)
  | markFailed (id : UUID) (msg : String) : Deliver exchange (.markFailed id msg)
  | markRetry (id : UUID) (msg : String) (at_ : Time) : Deliver exchange (.markRetry id msg at_)
  | utcnow : Deliver exchange .utcnow
  | setChannel (p : Nat) (ch : Option Channel) : Deliver exchange (.setChannel p ch)
  | setExchange (p : Nat) (ex : Option Exchange) : Deliver exchange (.setExchange p ex)

theorem Op.Deliver.inBatch {exchange : Exchange} {op : Op} (h : op.Deliver exchange) :
    op.InBatch := by
  cases h <;> constructor

theorem publishRow_only (exchange : Exchange) (row : OutboxEvent) :
    (publishRow P exchange row).Only (Op.Deliver exchange) := by
  refine Prog.Only.bind (p := Prog.ofExcept _) trivial fun headers => ?_
  refine Prog.Only.bind (p := Prog.ofExcept _) trivial fun body => ?_
  refine Prog.Only.bind (Prog.only_perform.mpr (.publish _ _)) fun _ => ?_
  exact Prog.only_perform.mpr (.markDispatched _)

theorem recordFailure_only (self : Publisher) (exchange : Exchange) (row : OutboxEvent) (exc : Exn) :
    (recordFailure P self row exc).Only (Op.Deliver exchange) := by
  have hmark : (markFailure P row exc).Only (Op.Deliver exchange) := by
    unfold markFailure
    split
    · exact Prog.only_perform.mpr (.markFailed _ _)
    · exact Prog.Only.bind (Prog.only_perform.mpr .utcnow) fun now =>
        Prog.only_perform.mpr (.markRetry _ _ _)
  exact hmark.bind fun _ => Prog.Only.bind (Prog.only_perform.mpr (.setChannel _ _)) fun _ =>
    Prog.only_perform.mpr (.setExchange _ _)

theorem processRow_only (self : Publisher) (exchange : Exchange) (row : OutboxEvent) :
    (processRow P self exchange row).Only (Op.Deliver exchange) :=
  nestedTransaction_only .savepoint .release .rollbackTo
    (exceptException_only (publishRow_only P exchange row) (recordFailure_only P self exchange row))

theorem batchBody_only (self : Publisher) : (batchBody P self).Only Op.InBatch := by
  have hselect : (selectDue self.batchSize).Only Op.InBatch :=
    (selectDue_selects self.batchSize).mono fun _ h => h.inBatch
  refine hselect.bind fun rows => ?_
  split
  · exact trivial
  · exact (ensureExchange_only self).bind fun ex =>
      Prog.Only.forEach fun row => (processRow_only P self ex row).mono fun _ h => h.inBatch

theorem afterBatch_only (self : Publisher) (r : Except Exn Unit) :
    (afterBatch self r).Only Op.Reset := by
  have hreset : (do
      perform (.setChannel self.id none)
      perform (.setExchange self.id none)
      pure false : Coroutine Bool).Only Op.Reset :=
    Prog.Only.bind (Prog.only_perform.mpr (.setChannel _ _)) fun _ =>
      Prog.Only.bind (Prog.only_perform.mpr (.setExchange _ _)) fun _ => trivial
  have hstop : (afterBatch self (.error .cancelledError)).Only Op.Reset := by
    refine Prog.Only.bind (Prog.only_perform.mpr (.getSelf _)) fun state => ?_
    rcases state.channel with _ | ch
    · exact trivial
    · refine Prog.Only.bind (Prog.only_perform.mpr (.isClosed ch)) fun closed => ?_
      cases closed with
      | true => exact trivial
      | false => exact Prog.Only.bind (Prog.only_perform.mpr (.closeChannel ch)) fun _ => trivial
  rcases r with e | _
  · cases e with
    | cancelledError => exact hstop
    | _ => exact hreset
  · exact trivial

end VcsGateway
