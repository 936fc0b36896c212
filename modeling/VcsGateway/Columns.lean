import VcsGateway.Failures
import VcsGateway.Idempotency

/-!
# What the columns take

Which webhooks `persist` can store, when the database is healthy: the values against the
column types, and the two `jsonb` columns against the codec of the pool.
-/

namespace VcsGateway

open Async

variable {P : Platform}

/-! ### A healthy database -/

def Op.isInsert : Op → Bool
  | .insertInbound _ | .insertEvent _ => true
  | _ => false

/-- The database raises nothing but the `DataError` of a value that an `INSERT` cannot take. -/
def Healthy (step : GatewayStep) : Prop :=
  step.op.onDatabase = true → ∀ e, step.result = .error e → step.op.isInsert = true ∧ e = .dataError

/-- What the answer of an `INSERT` tells about its arguments. -/
def Stated (P : Platform) (step : GatewayStep) : Prop :=
  (∀ args, step = ⟨.insertInbound args, .error .dataError⟩ → ∃ now, args.row P now = none) ∧
  (∀ args row, step = ⟨.insertInbound args, .ok row⟩ → ∃ now, args.row P now = some row) ∧
  ∀ args, step = ⟨.insertEvent args, .error .dataError⟩ → ∃ u now, args.row P u now = none

/-- A statement that raises `DataError` was refused its values. -/
theorem inTx_dataError {α : Type} {db db' : Database} {t : Nat} {f : Tx → Outcome Database α}
    (h : db.inTx t f = some (.error .dataError, db')) :
    ∃ tx, f tx = some (.error .dataError, db') := by
  unfold Database.inTx at h
  split at h
  · simp at h
  · next tx _ =>
    split at h
    · simp at h
    · exact ⟨tx, h⟩

theorem exec_insertInbound_dataError {t : Nat} {args : NewInboundEvent} {ch : Choice} {w w' : World}
    (h : exec P t (.insertInbound args) ch w = some (.error .dataError, w')) :
    ∃ now, args.row P now = none := by
  obtain ⟨w₁, h₁, -⟩ := exec_eq_some h
  obtain ⟨db', hdb, -⟩ := onDb_eq_some h₁
  obtain ⟨tx, htx⟩ := inTx_dataError hdb
  refine ⟨tx.now, ?_⟩
  rcases awaited_eq_some htx with ⟨e, he, hext, -⟩ | htx
  · rw [← Except.error.inj he] at hext
    cases hext
  · rcases hrow : args.row P tx.now with _ | row
    · rfl
    · simp only [hrow] at htx
      split at htx
      · simp at htx
      · split at htx <;> simp at htx

theorem exec_insertEvent_dataError {t : Nat} {args : NewOutboxEvent} {ch : Choice} {w w' : World}
    (h : exec P t (.insertEvent args) ch w = some (.error .dataError, w')) :
    ∃ u now, args.row P u now = none := by
  obtain ⟨w₁, h₁, -⟩ := exec_eq_some h
  obtain ⟨db', hdb, -⟩ := execOp_insertEvent_eq_some h₁
  obtain ⟨tx, htx⟩ := inTx_dataError hdb
  rcases awaitedFresh_eq_some htx with ⟨e, he, hext, -⟩ | ⟨u, -, htx⟩
  · rw [← Except.error.inj he] at hext
    cases hext
  · refine ⟨u, tx.now, ?_⟩
    rcases hrow : args.row P u tx.now with _ | row
    · rfl
    · simp [hrow] at htx

theorem reachable_stated {allowed : Task → Prop} {c : GatewayConfig} (h : Reachable P allowed c)
    {t : Nat} {step : GatewayStep} (hstep : step ∈ stepsOf c t) : Stated P step := by
  obtain ⟨c₁, ch, w₂, -, he⟩ := reachable_happened h hstep
  refine ⟨?_, ?_, ?_⟩
  · rintro args rfl
    exact exec_insertInbound_dataError he
  · rintro args row rfl
    obtain ⟨w₁, h₁, -⟩ := exec_eq_some he
    obtain ⟨db', hdb, -⟩ := onDb_eq_some h₁
    obtain ⟨tx, -, ⟨exc, heq, -⟩ | ⟨row', -, hrow, heq, -⟩⟩ := Database.execInsertInbound_eq_some hdb
    · simp at heq
    · obtain rfl := Except.ok.inj heq
      exact ⟨tx.now, hrow⟩
  · rintro args rfl
    exact exec_insertEvent_dataError he

/-- An answer of a healthy database. -/
structure Fair (P : Platform) (step : GatewayStep) : Prop where
  credible : Plausible step
  healthy : Healthy step
  stated : Stated P step

/-! ### A transaction of a healthy database -/

theorem perform_returns {op : Op} (h : op.onDatabase = true ∧ op.isInsert = false ∨
    op = .uuid4 ∨ op = .utcnow) : (perform op).Gives (Fair P) Returns := by
  refine ⟨trivial, fun r hr => ?_⟩
  rcases r with e | a
  · rcases h with ⟨hdb, hinsert⟩ | hinstant
    · have hins := (hr.healthy hdb e rfl).1
      simp [hinsert] at hins
    · exact absurd rfl (hr.credible.2 hinstant e)
  · exact ⟨a, rfl⟩

theorem cancelPrevious_returns (prHashKey : String) (prVersion : Int) (reason : String) :
    (cancelPrevious prHashKey prVersion reason).Gives (Fair P) Returns :=
  Returns.bind (perform_returns (.inl ⟨rfl, rfl⟩)) fun ids =>
    Returns.forEach (fun _ => perform_returns (.inl ⟨rfl, rfl⟩)) ids

/-- Begin, commit and rollback succeed: the transaction ends as its body does. -/
theorem transaction_gives {α : Type} {body : Coroutine α} {Q : Except Exn α → Prop}
    (hbody : body.Gives (Fair P) Q) : (transaction body).Gives (Fair P) Q := by
  refine Returns.bind (perform_returns (.inl ⟨rfl, rfl⟩)) fun _ => ?_
  refine hbody.andThen fun r hr => ?_
  cases r with
  | ok a => exact Returns.bind (perform_returns (.inl ⟨rfl, rfl⟩)) fun _ => hr
  | error exc => exact Returns.bind (perform_returns (.inl ⟨rfl, rfl⟩)) fun _ => hr

section Persist

variable {req : Request} {prData : PullRequestData} {prHashKey : String}

/-- The row that `persist` inserts into `outbox_event`. -/
def outboxArgs (P : Platform) (req : Request) (correlationId eventId : UUID) (timestamp : Time)
    (prData : PullRequestData) (prHashKey : String) (rawJson : List (String × Json)) :
    NewOutboxEvent :=
  { eventType := "vcs.webhook.received"
    correlationId
    prHashKey
    prVersion := 1
    payload := .str (P.dumps
      ((receivedMessage req correlationId eventId timestamp prData prHashKey rawJson).modelDump P))
    headers := .str (P.dumps (.dict [("correlation_id", .str correlationId.str)]))
    debounceSeconds := P.settings.outboxDebounceSeconds }

/-- The table takes the rows of the webhook, and gives the one of `inbound_event` back. -/
structure Taken (P : Platform) (req : Request) (prData : PullRequestData) (prHashKey : String)
    (rawJson : List (String × Json)) : Prop where
  inbound : ∀ correlationId eventId now,
    (inboundArgs req correlationId eventId prData prHashKey rawJson).row P now ≠ none
  valid : ∀ correlationId eventId now row,
    (inboundArgs req correlationId eventId prData prHashKey rawJson).row P now = some row →
    ∃ event, row.modelValidate P = .ok event
  outbox : ∀ correlationId eventId timestamp outboxId now,
    (outboxArgs P req correlationId eventId timestamp prData prHashKey rawJson).row P outboxId now ≠
      none

/-- The table refuses the row of the webhook. -/
def Refused (P : Platform) (req : Request) (prData : PullRequestData) (prHashKey : String)
    (rawJson : List (String × Json)) : Prop :=
  ∀ correlationId eventId now,
    (inboundArgs req correlationId eventId prData prHashKey rawJson).row P now = none

theorem persistBody_returns {rawJson : List (String × Json)} (h : Taken P req prData prHashKey rawJson)
    (correlationId eventId : UUID) (timestamp : Time) :
    (persistBody P req correlationId eventId timestamp prData prHashKey rawJson).Gives (Fair P)
      Returns := by
  have hinsert : (insertInbound P
      (inboundArgs req correlationId eventId prData prHashKey rawJson)).Gives (Fair P) Returns := by
    refine ⟨trivial, fun r hr => ?_⟩
    rcases r with e | row
    · obtain ⟨-, rfl⟩ := hr.healthy rfl e rfl
      obtain ⟨now, hnone⟩ := hr.stated.1 _ rfl
      exact absurd hnone (h.inbound correlationId eventId now)
    · obtain ⟨now, hrow⟩ := hr.stated.2.1 _ row rfl
      exact h.valid correlationId eventId now row hrow
  refine Returns.bind hinsert fun _ => Returns.bind (cancelPrevious_returns _ _ _) fun _ => ?_
  refine ⟨trivial, fun r hr => ?_⟩
  rcases r with e | outboxId
  · obtain ⟨-, rfl⟩ := hr.healthy rfl e rfl
    obtain ⟨u, now, hnone⟩ := hr.stated.2.2 _ rfl
    exact absurd hnone (h.outbox correlationId eventId timestamp u now)
  · exact ⟨outboxId, rfl⟩

theorem persistBody_refused {rawJson : List (String × Json)}
    (h : Refused P req prData prHashKey rawJson) (correlationId eventId : UUID) (timestamp : Time) :
    (persistBody P req correlationId eventId timestamp prData prHashKey rawJson).Gives (Fair P)
      (· = .error .dataError) := by
  have hinsert : (insertInbound P
      (inboundArgs req correlationId eventId prData prHashKey rawJson)).Gives (Fair P)
        (· = .error .dataError) := by
    refine ⟨trivial, fun r hr => ?_⟩
    rcases r with e | row
    · obtain ⟨-, rfl⟩ := hr.healthy rfl e rfl
      rfl
    · obtain ⟨now, hrow⟩ := hr.stated.2.1 _ row rfl
      exact absurd hrow (by simp [h correlationId eventId now])
  refine hinsert.bind (fun a ha => by simp at ha) fun e he => ?_
  rw [Except.error.inj he]

/-- **The webhook is stored** when the tables take it. -/
theorem persist_returns {rawJson : List (String × Json)}
    (hloads : loadsDict P req.rawPayload = .ok rawJson) (h : Taken P req prData prHashKey rawJson)
    (correlationId : UUID) :
    (persist P req correlationId prData prHashKey).Gives (Fair P) Returns := by
  refine Returns.bind (perform_returns (.inr (.inl rfl))) fun eventId => ?_
  rw [hloads]
  change (perform .utcnow >>= _ : Coroutine (UUID × UUID)).Gives _ _
  refine Returns.bind (perform_returns (.inr (.inr rfl))) fun timestamp => ?_
  refine Returns.bind ?_ fun outboxId => ⟨_, rfl⟩
  refine (transaction_gives (persistBody_returns h correlationId eventId timestamp)).andThen ?_
  rintro r ⟨outboxId, rfl⟩
  exact ⟨outboxId, rfl⟩

/-- **The webhook is refused** when the table does not take it. -/
theorem persist_refused (h : ∀ rawJson, loadsDict P req.rawPayload = .ok rawJson →
    Refused P req prData prHashKey rawJson) (correlationId : UUID) :
    (persist P req correlationId prData prHashKey).Gives (Fair P) fun r =>
      r = .error .dataError ∨ ∃ e, loadsDict P req.rawPayload = .error e ∧ r = .error e := by
  refine Returns.bind (perform_returns (.inr (.inl rfl))) fun eventId => ?_
  rcases hloads : loadsDict P req.rawPayload with e | rawJson
  · exact .inr ⟨e, rfl, rfl⟩
  change (perform .utcnow >>= _ : Coroutine (UUID × UUID)).Gives _ _
  refine Returns.bind (perform_returns (.inr (.inr rfl))) fun timestamp => ?_
  refine Prog.Gives.bind (Q := (· = .error .dataError)) ?_ (fun a ha => by simp at ha) ?_
  · refine (transaction_gives (persistBody_refused (h rawJson hloads) correlationId eventId
      timestamp)).andThen ?_
    rintro r rfl
    exact rfl
  · intro e he
    exact .inl (by rw [Except.error.inj he])

theorem persistStep_returns {rawJson : List (String × Json)}
    (hloads : loadsDict P req.rawPayload = .ok rawJson) (h : Taken P req prData prHashKey rawJson)
    (correlationId : UUID) :
    (persistStep P req correlationId prData prHashKey).Gives (Fair P) fun r =>
      r = .error .cancelledError ∨ ∃ eventId outboxId, r = .ok (.accepted correlationId eventId outboxId) := by
  refine (persist_returns hloads h correlationId).andThen ?_
  rintro r ⟨⟨eventId, outboxId⟩, rfl⟩
  refine Prog.Gives.bind (setIdempotencyCache_suppressed _ _).gives (fun _ _ => ?_) ?_
  · refine Prog.Gives.bind (emit_suppressed P _ _ _ _ _).gives (fun _ _ => ?_) ?_
    · exact .inr ⟨eventId, outboxId, rfl⟩
    · intro e he
      exact .inl (by rw [he e rfl])
  · intro e he
    exact .inl (by rw [he e rfl])

theorem persistStep_refused (h : ∀ rawJson, loadsDict P req.rawPayload = .ok rawJson →
    Refused P req prData prHashKey rawJson) (correlationId : UUID) :
    (persistStep P req correlationId prData prHashKey).Gives (Fair P) fun r =>
      r = .error .dataError ∨ ∃ e, loadsDict P req.rawPayload = .error e ∧ r = .error e := by
  refine (persist_refused h correlationId).andThen ?_
  rintro r (rfl | ⟨e, he, rfl⟩)
  · exact .inl rfl
  · have hraw := loadsDict_raw he
    cases e with
    | service => exact hraw.elim
    | _ => exact .inr ⟨_, he, rfl⟩

end Persist

/-! ### The way to the transaction -/

/-- A call that found no row for its key has verified, parsed and passed the filter, and goes
    on to persist. -/
theorem processWebhook_persists (hP : P.Digests) {req : Request} {steps : List GatewayStep}
    {r : Except Exn WebhookResult} (hf : (processWebhook P req).Follows steps r)
    (hnew : FoundNothing steps) (hcancel : r ≠ .error .cancelledError) :
    req.vcsProvider ∈ supportedProviders ∧ ∃ correlationId prData later,
      parsePayload P req.vcsProvider req.rawPayload = .ok prData ∧
      (persistStep P req correlationId prData (requestKey P req prData)).Follows later r ∧
      ∀ step ∈ later, step ∈ steps := by
  have hnil : ¬FoundNothing [] := by simp [FoundNothing]
  rcases processWebhook_follows hf with ⟨e, rfl, -⟩ | ⟨correlationId, rest, rfl, hcases⟩
  · exact absurd hnew (by simp [FoundNothing])
  rw [foundNothing_cons (by simp)] at hnew
  have hlookup : ∀ {lookup : List GatewayStep} {r : Except Exn String},
      (getWebhookSecret P req.tenantId).Follows lookup r → ¬FoundNothing lookup := by
    intro lookup r hl
    apply not_foundNothing
    rintro step hstep k heq
    have ho := (getWebhookSecret_only P req.tenantId).follows hl step hstep
    rw [heq] at ho
    cases ho
  rcases hcases with ⟨-, rfl, -⟩ | ⟨hprovider, ⟨e, he, -⟩ | ⟨lookup, secret, hl, hrest⟩⟩
  · exact absurd hnew hnil
  · exact absurd hnew (hlookup he)
  refine ⟨hprovider, ?_⟩
  rcases hrest with ⟨e, rfl, -⟩ | ⟨whitelist, rest, rfl, hafter⟩
  · rw [foundNothing_append, foundNothing_cons (by simp)] at hnew
    exact absurd (hnew.resolve_left (hlookup hl)) hnil
  rw [foundNothing_append, or_iff_right (hlookup hl), foundNothing_cons (by simp)] at hnew
  have hjourney : ∀ {steps : List GatewayStep}, (∀ step ∈ steps, step.op.Journey) →
      ¬FoundNothing steps :=
    fun h => not_foundNothing fun step hstep k => (h step hstep).ne_select k
  rcases afterLookup_follows hP hafter with ⟨-, -, rfl, -⟩ | ⟨-, heq⟩ | ⟨-, -, hrejected⟩ |
    ⟨-, -, traced, later, rfl, htraced, hlater⟩
  · exact absurd hnew hnil
  · exact absurd heq hcancel
  · exact absurd hnew (hjourney ((emit_only P _ _ _ _ _).follows hrejected.traced))
  rw [foundNothing_append, or_iff_right (hjourney htraced)] at hnew
  unfold parseStep at hlater
  rcases hparse : parsePayload P req.vcsProvider req.rawPayload with e | prData
  · rw [hparse] at hlater
    obtain ⟨rfl, -⟩ := Prog.follows_ret.mp hlater
    exact absurd hnew hnil
  rw [hparse] at hlater
  change (ite _ _ _ : Coroutine WebhookResult).Follows later r at hlater
  split at hlater
  · have hemit := ((emit_only P .eventTypeValidated .info correlationId req.tenantId
      [("event_type", .str (extractEventType req.headers)), ("action", .str prData.action)]).bind
        (f := fun _ => pure (WebhookResult.ignored correlationId (extractEventType req.headers)))
        fun _ => trivial).follows hlater
    exact absurd hnew (hjourney hemit)
  rcases Prog.follows_bind.mp hlater with ⟨first, last, detection, rfl, hcheck, hlast⟩ | ⟨e, rfl, he⟩
  swap
  · rw [check_follows_none he] at hnew
    simp at hnew
  rcases detection with _ | detection
  · rcases Prog.follows_bind.mp hlast with ⟨s₁, s₂, u, rfl, -, hpersist⟩ | ⟨e, rfl, he⟩
    · refine ⟨correlationId, prData, s₂, rfl, hpersist, fun step hstep => ?_⟩
      simp [hstep]
    · rcases emit_follows he with heq | heq
      · simp at heq
      · exact absurd (by rw [Except.error.inj heq]) hcancel
  · have hemit := ((emit_only P .idempotencyChecked .info correlationId req.tenantId
      [("detection_method", .str detection.value)]).bind
        (f := fun _ => pure (WebhookResult.duplicate correlationId (requestKey P req prData) detection))
        fun _ => trivial).follows hlast
    rw [foundNothing_append, check_follows_none hcheck] at hnew
    exact absurd (hnew.resolve_left (by simp)) (hjourney hemit)

/-! ### A pool that takes JSON -/

/-- The pool accepts every value for a `jsonb` parameter, and gives a dictionary back as
    a dictionary.  `json.dumps` escapes U+0000. -/
structure Platform.JsonCodec (P : Platform) : Prop where
  encode : ∀ j, ∃ stored, P.jsonbEncode j = some stored ∧ stored.jsonbOk = j.jsonbOk
  decode : ∀ items stored, P.jsonbEncode (.dict items) = some stored →
    ∃ items', P.jsonbDecode stored = .dict items'
  dumps : ∀ j, textOk (P.dumps j) = true

/-- The values of the webhook fit their columns. -/
structure Storable (req : Request) (prData : PullRequestData) (rawJson : List (String × Json)) :
    Prop where
  repoId : varcharOk 255 prData.repoId = true
  repoName : optOk (varcharOk 500) prData.repoName = true
  prId : varcharOk 255 prData.prId = true
  prTitle : textOk prData.prTitle = true
  prAuthor : varcharOk 255 prData.prAuthor = true
  prUrl : varcharOk 1000 prData.prUrl = true
  commitSha : varcharOk 64 prData.commitSha = true
  action : varcharOk 50 prData.action = true
  payload : (Json.dict rawJson).jsonbOk = true
  headers : ∀ kv ∈ filterHeaders req.headers, textOk kv.2 = true

theorem hexDigest_fits {s : String} (h : isHexDigest s = true) : varcharOk 64 s = true := by
  simp only [isHexDigest, Bool.and_eq_true, decide_eq_true_eq, List.all_eq_true] at h
  simp only [varcharOk, textOk, Bool.and_eq_true, decide_eq_true_eq, List.all_eq_true]
  refine ⟨h.1.le, fun c hc hzero => ?_⟩
  have hdigit := h.2 c hc
  simp only [isHexDigit, Char.isDigit, Bool.or_eq_true, Bool.and_eq_true, decide_eq_true_eq] at hdigit
  rcases hdigit with ⟨hle, -⟩ | ⟨hle, -⟩
  · have hle' : '0'.toNat ≤ c.toNat := hle
    have h0 : '0'.toNat = 48 := by decide
    omega
  · have hle' : 'a'.toNat ≤ c.toNat := hle
    have ha : 'a'.toNat = 97 := by decide
    omega

theorem provider_fits {vcsProvider : String} (h : vcsProvider ∈ supportedProviders) :
    varcharOk 50 vcsProvider = true := by
  simp only [supportedProviders, List.mem_cons, List.not_mem_nil, or_false] at h
  rcases h with rfl | rfl <;> decide

theorem instances_fit : varcharOk 255 "github.com" = true ∧ varcharOk 255 "gitlab.com" = true := by
  decide

theorem instance_fits {vcsProvider : String} {rawPayload : ByteArray} {prData : PullRequestData}
    (h : parsePayload P vcsProvider rawPayload = .ok prData) :
    varcharOk 255 prData.vcsInstanceId = true := by
  unfold parsePayload at h
  split at h
  · split at h
    · simp at h
    · rw [← Except.ok.inj h]
      exact instances_fit.1
  · split at h
    · split at h
      · simp at h
      · rw [← Except.ok.inj h]
        exact instances_fit.2
    · simp at h

/-- A dictionary of strings under clean keys. -/
theorem jsonbOkItems_strings (items : List (String × String)) (hkeys : ∀ kv ∈ items, textOk kv.1 = true) :
    Json.jsonbOkItems (items.map fun kv => (kv.1, .str kv.2)) = true ↔
      ∀ kv ∈ items, textOk kv.2 = true := by
  induction items with
  | nil => simp [Json.jsonbOkItems]
  | cons kv items ih =>
    have hkey := hkeys kv List.mem_cons_self
    have ih := ih fun kv' hkv' => hkeys kv' (List.mem_cons_of_mem _ hkv')
    simp only [List.map_cons, Json.jsonbOkItems, Json.jsonbOk, hkey, Bool.true_and, Bool.and_eq_true, ih,
      List.forall_mem_cons]

theorem headers_fit (headers : Headers) :
    (Json.dict ((filterHeaders headers).map fun kv => (kv.1, .str kv.2))).jsonbOk = true ↔
      ∀ kv ∈ filterHeaders headers, textOk kv.2 = true := by
  refine jsonbOkItems_strings _ fun kv hkv => ?_
  have hrelevant : kv.1 ∈ relevantHeaders := by
    simpa using (List.mem_filter.mp hkv).2
  simp only [relevantHeaders, List.mem_cons, List.not_mem_nil, or_false] at hrelevant
  rcases hrelevant with h | h | h | h <;> (rw [h]; decide)

theorem NewInboundEvent.row_encoded {e : NewInboundEvent} {now : Time} {row : InboundEvent}
    (h : e.row P now = some row) :
    P.jsonbEncode e.rawPayload = some row.rawPayload ∧
      P.jsonbEncodeOpt e.webhookHeaders = some row.webhookHeaders := by
  unfold NewInboundEvent.row at h
  simp only [Option.bind_eq_bind, Option.bind_eq_some_iff] at h
  obtain ⟨raw, hraw, hdrs, hhdrs, h⟩ := h
  split at h
  · obtain rfl := Option.some.inj h
    exact ⟨hraw, hhdrs⟩
  · simp at h

/-- The encoded row fits, or there is none. -/
theorem NewInboundEvent.row_ne_none_iff {e : NewInboundEvent} {now : Time} {rawPayload : Json}
    {webhookHeaders : Option Json} (hraw : P.jsonbEncode e.rawPayload = some rawPayload)
    (hheaders : P.jsonbEncodeOpt e.webhookHeaders = some webhookHeaders) :
    e.row P now ≠ none ↔ NewInboundEvent.fits { e with rawPayload, webhookHeaders } = true := by
  simp only [NewInboundEvent.row, hraw, hheaders, Option.bind_eq_bind, Option.bind_some]
  split
  · next hfits => simp [hfits]
  · next hfits => simp [hfits]

theorem NewOutboxEvent.row_eq {e : NewOutboxEvent} {payload headers : Json} {u : UUID} {now : Time}
    (hpayload : P.jsonbEncode e.payload = some payload)
    (hheaders : P.jsonbEncode e.headers = some headers)
    (hfits : (textOk e.eventType && varcharOk 64 e.prHashKey && payload.jsonbOk && headers.jsonbOk) =
      true) :
    e.row P u now = some
      { outboxId := u
        eventType := e.eventType
        correlationId := e.correlationId
        prHashKey := e.prHashKey
        prVersion := e.prVersion
        payload
        headers
        dispatchAt := now + seconds e.debounceSeconds
        createdAt := now } := by
  simp only [NewOutboxEvent.row, hpayload, hheaders, Option.bind_eq_bind, Option.bind_some, hfits, if_true]
  rfl

section Taken

variable {req : Request} {prData : PullRequestData} {rawJson : List (String × Json)}

/-- The table takes the values that fit, and no others. -/
theorem inbound_row_iff (hP : P.Digests) (hpool : P.JsonCodec)
    (hprovider : req.vcsProvider ∈ supportedProviders)
    (hparse : parsePayload P req.vcsProvider req.rawPayload = .ok prData)
    (correlationId eventId : UUID) (now : Time) :
    (inboundArgs req correlationId eventId prData (requestKey P req prData) rawJson).row P now ≠ none ↔
      Storable req prData rawJson := by
  obtain ⟨raw, hraw, hrawOk⟩ := hpool.encode (.dict rawJson)
  obtain ⟨hdrs, hhdrs, hhdrsOk⟩ :=
    hpool.encode (.dict ((filterHeaders req.headers).map fun kv => (kv.1, .str kv.2)))
  have hkey : varcharOk 64 (requestKey P req prData) = true := hexDigest_fits (hP.sha256 _)
  have hopt : P.jsonbEncodeOpt (inboundArgs req correlationId eventId prData (requestKey P req prData)
      rawJson).webhookHeaders = some (some hdrs) := by
    simp [inboundArgs, Platform.jsonbEncodeOpt, hhdrs]
  rw [NewInboundEvent.row_ne_none_iff hraw hopt]
  simp only [NewInboundEvent.fits, inboundArgs, provider_fits hprovider, instance_fits hparse, hkey,
    hrawOk]
  simp only [Bool.and_eq_true, optOk, Option.map_some, Option.getD_some, hhdrsOk, headers_fit]
  constructor
  · rintro ⟨⟨⟨⟨⟨⟨⟨⟨⟨⟨⟨⟨-, hrepoId⟩, hrepoName⟩, hprId⟩, htitle⟩, hauthor⟩, hurl⟩, hsha⟩, haction⟩, -⟩,
      -⟩, hpayload⟩, hheaders⟩
    exact ⟨hrepoId, hrepoName, hprId, htitle, hauthor, hurl, hsha, haction, hpayload, hheaders⟩
  · intro h
    exact ⟨⟨⟨⟨⟨⟨⟨⟨⟨⟨⟨⟨by simp, h.repoId⟩, h.repoName⟩, h.prId⟩, h.prTitle⟩, h.prAuthor⟩, h.prUrl⟩,
      h.commitSha⟩, h.action⟩, by simp⟩, by decide⟩, h.payload⟩, h.headers⟩

/-- What fits is taken by both tables. -/
theorem Storable.taken (h : Storable req prData rawJson) (hP : P.Digests) (hpool : P.JsonCodec)
    (hprovider : req.vcsProvider ∈ supportedProviders)
    (hparse : parsePayload P req.vcsProvider req.rawPayload = .ok prData) :
    Taken P req prData (requestKey P req prData) rawJson where
  inbound correlationId eventId now :=
    (inbound_row_iff hP hpool hprovider hparse correlationId eventId now).mpr h
  valid correlationId eventId now row hrow := by
    obtain ⟨hraw, hheaders⟩ := NewInboundEvent.row_encoded hrow
    obtain ⟨items, hitems⟩ := hpool.decode _ _ hraw
    obtain ⟨hdrs, hhdrs, hrowHeaders⟩ := Option.map_eq_some_iff.mp hheaders
    obtain ⟨items', hitems'⟩ := hpool.decode _ _ hhdrs
    refine ⟨{ row with rawPayload := .dict items, webhookHeaders := some (.dict items') }, ?_⟩
    simp [InboundEvent.modelValidate, hitems, ← hrowHeaders, hitems']
  outbox correlationId eventId timestamp outboxId now := by
    obtain ⟨payload, hpayload, hpayloadOk⟩ := hpool.encode (outboxArgs P req correlationId eventId
      timestamp prData (requestKey P req prData) rawJson).payload
    obtain ⟨headers, hheaders, hheadersOk⟩ := hpool.encode (outboxArgs P req correlationId eventId
      timestamp prData (requestKey P req prData) rawJson).headers
    have hkey : varcharOk 64 (requestKey P req prData) = true := hexDigest_fits (hP.sha256 _)
    have htype : textOk "vcs.webhook.received" = true := by decide
    have hp : payload.jsonbOk = true := hpayloadOk.trans (hpool.dumps _)
    have hh : headers.jsonbOk = true := hheadersOk.trans (hpool.dumps _)
    simp only [NewOutboxEvent.row, hpayload, hheaders, Option.bind_eq_bind, Option.bind_some, hp, hh]
    simp [outboxArgs, hkey, htype]

theorem refused_of_not_storable (h : ¬Storable req prData rawJson) (hP : P.Digests)
    (hpool : P.JsonCodec) (hprovider : req.vcsProvider ∈ supportedProviders)
    (hparse : parsePayload P req.vcsProvider req.rawPayload = .ok prData) :
    Refused P req prData (requestKey P req prData) rawJson := by
  intro correlationId eventId now
  by_contra hrow
  exact h ((inbound_row_iff hP hpool hprovider hparse correlationId eventId now).mp hrow)

end Taken

/-- **What the parser admits is stored** exactly when its values fit the columns. -/
theorem stored_iff (hP : P.Digests) (hpool : P.JsonCodec) {c : GatewayConfig}
    (h : Reachable P serviceTask c) {t : Nat} {req : Request} {prData : PullRequestData}
    {r : Except Exn WebhookResult} (hfin : Finished c t (.webhook req) r)
    (hparse : parsePayload P req.vcsProvider req.rawPayload = .ok prData)
    (hnew : FoundNothing (stepsOf c t)) (hhealthy : ∀ step ∈ stepsOf c t, Healthy step)
    (hcancel : r ≠ .error .cancelledError) :
    (∃ correlationId eventId outboxId, r = .ok (.accepted correlationId eventId outboxId)) ↔
      ∃ rawJson, loadsDict P req.rawPayload = .ok rawJson ∧ Storable req prData rawJson := by
  obtain ⟨hprovider, correlationId, prData', later, hparse', hlater, hsub⟩ :=
    processWebhook_persists hP (hfin.follows h) hnew hcancel
  obtain rfl : prData' = prData := Except.ok.inj (hparse'.symm.trans hparse)
  have hfair : ∀ step ∈ later, Fair P step := fun step hstep =>
    ⟨reachable_credible h (hsub step hstep), hhealthy step (hsub step hstep),
      reachable_stated h (hsub step hstep)⟩
  constructor
  · rintro ⟨correlationId', eventId, outboxId, rfl⟩
    by_contra hfit
    have hrefused : ∀ rawJson, loadsDict P req.rawPayload = .ok rawJson →
        Refused P req prData' (requestKey P req prData') rawJson := fun rawJson hloads =>
      refused_of_not_storable (fun hstorable => hfit ⟨rawJson, hloads, hstorable⟩) hP hpool hprovider
        hparse
    rcases (persistStep_refused hrefused correlationId).follows hlater hfair with heq | ⟨e, -, heq⟩
    · simp at heq
    · simp at heq
  · rintro ⟨rawJson, hloads, hstorable⟩
    have htaken := hstorable.taken hP hpool hprovider hparse
    rcases (persistStep_returns hloads htaken correlationId).follows hlater hfair with heq |
      ⟨eventId, outboxId, heq⟩
    · exact absurd heq hcancel
    · exact ⟨correlationId, eventId, outboxId, heq⟩

/-- A run may pass an `INSERT` into `outbox_event` with the row that the column checks let through. -/
theorem run_insertEvent {c₀ c c' : GatewayConfig} {t : Nat} {k : Task} {args : NewOutboxEvent}
    {f : Except Exn UUID → Coroutine k.Result} {tx : Tx} {u : UUID} {row : OutboxEvent}
    {ls₁ ls₂ : List GatewayLabel} (hfirst : (gateway P).run c₀ ls₁ = some c)
    (hthread : c.threads t = some ⟨k, .await (.insertEvent args) f, true⟩)
    (htx : c.world.db.sessions t = some tx) (hlive : tx.aborted = false) (hu : u ∉ c.world.used)
    (hrow : args.row P u tx.now = some row)
    (hlast : (gateway P).run ⟨World.record
        { c.world with used := u :: c.world.used, db := c.world.db.addOutbox t tx row }
        ⟨t, .insertEvent args, .ok u⟩, Function.update c.threads t (some ⟨k, f (.ok u), true⟩)⟩ ls₂ =
      some c') :
    (gateway P).run c₀ (ls₁ ++ .step t (.fresh u) :: ls₂) = some c' := by
  rw [Machine.run_append, hfirst, Option.bind_some, Machine.run_cons_eq_some]
  refine ⟨_, ?_, hlast⟩
  have hexec : exec P t (.insertEvent args) (.fresh u) c.world = some (.ok u, World.record
      { c.world with used := u :: c.world.used, db := c.world.db.addOutbox t tx row }
      ⟨t, .insertEvent args, .ok u⟩) := by
    simp [exec, execOp, World.takeFresh, hu, World.onDb, Database.execInsertEvent, Database.inTx, htx,
      hlive, awaitedFresh, hrow]
  simp [Machine.step, hthread, gateway, hexec]

namespace Example

/-- The same libraries, where no text holds U+0000. -/
def storing (body : Json) : Platform :=
  { reading body with dumps := fun j => if textOk j.text then j.text else "" }

theorem storing_digests (body : Json) : (storing body).Digests where
  sha256 := signedPlatform_digests.sha256
  hmac := signedPlatform_digests.hmac

theorem storing_codec (body : Json) : (storing body).JsonCodec where
  encode j := ⟨j, rfl, rfl⟩
  decode items stored h := ⟨items, (Option.some.inj h).symm⟩
  dumps j := by
    change textOk (if textOk j.text then j.text else "") = true
    split
    · assumption
    · decide

/-- A webhook whose commit id has 65 characters. -/
def overlong : Json := payload "open" (String.ofList (List.replicate 65 'c'))

/-- A Boolean reading of `Healthy`, for runs in which no `INSERT` fails on its values. -/
def answered (step : GatewayStep) : Bool :=
  match step.result with
  | .ok _ => true
  | .error e => !step.op.onDatabase || step.op.isInsert && e == .dataError

theorem healthy_of_answered {steps : List GatewayStep} (h : steps.all answered = true) :
    ∀ step ∈ steps, Healthy step := by
  intro step hstep hdb e he
  have hanswered := List.all_eq_true.mp h step hstep
  simpa [answered, he, hdb] using hanswered

/-- The answers up to the `INSERT` into `outbox_event`, for a key that is new. -/
def freshChoices : List Choice :=
  pushChoices ++ [.ok, .ok] ++ emitChoices 12 ++ [.fresh ⟨20⟩, .ok, .ok, .ok, .ok]

/-- The answers from there on. -/
def storedChoices : List Choice := .fresh ⟨21⟩ :: .ok :: .ok :: emitChoices 22

theorem stored_labels (k : Task) : solo k (freshChoices ++ storedChoices) =
    solo k freshChoices ++
      .step 0 (.fresh ⟨21⟩) :: (Choice.ok :: Choice.ok :: emitChoices 22).map (.step 0) :=
  rfl

theorem storing_row {body payload headers : Json} {args : NewOutboxEvent} {u : UUID} {now : Time}
    (htype : textOk args.eventType = true) (hkey : varcharOk 64 args.prHashKey = true)
    (hpayload : args.payload = .str ((storing body).dumps payload))
    (hheaders : args.headers = .str ((storing body).dumps headers)) :
    args.row (storing body) u now = some
      { outboxId := u
        eventType := args.eventType
        correlationId := args.correlationId
        prHashKey := args.prHashKey
        prVersion := args.prVersion
        payload := args.payload
        headers := args.headers
        dispatchAt := now + seconds args.debounceSeconds
        createdAt := now } := by
  apply NewOutboxEvent.row_eq rfl rfl
  rw [hpayload, hheaders]
  simp only [Json.jsonbOk, htype, hkey, (storing_codec body).dumps, Bool.and_self]

theorem stored_run : ∃ c,
    (gateway (storing first)).run initial
      (solo (.webhook (delivery first)) (freshChoices ++ storedChoices)) = some c ∧
    Finished c 0 (.webhook (delivery first)) (.ok (.accepted ⟨9⟩ ⟨20⟩ ⟨21⟩)) ∧
    (∃ k, (stepsOf c 0)[12]? = some ⟨.selectByPrHashKey k, .ok none⟩) ∧
    (stepsOf c 0).all answered = true := by
  rw [stored_labels]
  refine ⟨_, run_insertEvent rfl rfl rfl rfl (by decide) (storing_row rfl rfl rfl rfl) rfl, ?_,
    ?_, ?_⟩
  · rfl
  · exact ⟨_, rfl⟩
  · rfl

theorem overlong_run : ∃ c,
    (gateway (storing overlong)).run initial
      (solo (.webhook (delivery overlong)) freshChoices) = some c ∧
    Finished c 0 (.webhook (delivery overlong)) (.error .dataError) ∧
    (∃ k, (stepsOf c 0)[12]? = some ⟨.selectByPrHashKey k, .ok none⟩) ∧
    (stepsOf c 0).all answered = true :=
  ⟨_, rfl, rfl, ⟨_, rfl⟩, rfl⟩

end Example

theorem stored_first : ∃ c, Finished c 0 (.webhook (Example.delivery Example.first))
      (.ok (.accepted ⟨9⟩ ⟨20⟩ ⟨21⟩)) ∧
    ∃ prData rawJson, loadsDict (Example.storing Example.first)
        (Example.delivery Example.first).rawPayload = .ok rawJson ∧
      Storable (Example.delivery Example.first) prData rawJson := by
  obtain ⟨c, hrun, hfin, ⟨k, hmiss⟩, hanswered⟩ := Example.stored_run
  have hiff := stored_iff (Example.storing_digests _) (Example.storing_codec _)
    (Example.reachable_solo (k := .webhook _) trivial hrun) hfin rfl
    ⟨k, List.mem_of_getElem? hmiss⟩ (Example.healthy_of_answered hanswered) (by simp)
  obtain ⟨rawJson, hloads, hstorable⟩ := hiff.mp ⟨_, _, _, rfl⟩
  exact ⟨c, hfin, _, rawJson, hloads, hstorable⟩

/-- A commit id that the parser admits and the table refuses. -/
theorem overlong_refused : ∃ c, Reachable (Example.storing Example.overlong) serviceTask c ∧
    Finished c 0 (.webhook (Example.delivery Example.overlong)) (.error .dataError) ∧
    (∃ prData, parsePayload (Example.storing Example.overlong) "gitlab"
      (Example.delivery Example.overlong).rawPayload = .ok prData) ∧
    FoundNothing (stepsOf c 0) ∧ (∀ step ∈ stepsOf c 0, Healthy step) ∧
    (Example.storing Example.overlong).JsonCodec := by
  obtain ⟨c, hrun, hfin, ⟨k, hmiss⟩, hanswered⟩ := Example.overlong_run
  exact ⟨c, Example.reachable_solo (k := .webhook _) trivial hrun, hfin, ⟨_, rfl⟩,
    ⟨k, List.mem_of_getElem? hmiss⟩, Example.healthy_of_answered hanswered, Example.storing_codec _⟩

/-! ### A pool without a codec -/

/-- The pool has no codec: a `jsonb` parameter must be a string, and a `jsonb` column is
    returned as one. -/
structure Platform.NoCodec (P : Platform) : Prop where
  encode : ∀ j stored, P.jsonbEncode j = some stored → ∃ s, j = .str s
  decode : ∀ j, ∃ s, P.jsonbDecode j = .str s

theorem modelValidate_refused (hpool : P.NoCodec) (row : InboundEvent) :
    row.modelValidate P = .error (.pydanticValidationError "InboundEvent") := by
  obtain ⟨s, hs⟩ := hpool.decode row.rawPayload
  simp [InboundEvent.modelValidate, hs]

/-- No dictionary can be inserted. -/
theorem refused_of_noCodec (hpool : P.NoCodec) (req : Request) (prData : PullRequestData)
    (prHashKey : String) (rawJson : List (String × Json)) : Refused P req prData prHashKey rawJson := by
  intro correlationId eventId now
  by_contra hrow
  obtain ⟨row, hrow⟩ := Option.ne_none_iff_exists'.mp hrow
  obtain ⟨s, hs⟩ := hpool.encode _ _ (NewInboundEvent.row_encoded hrow).1
  simp [inboundArgs] at hs

theorem inbound_empty (hpool : P.NoCodec) {c : GatewayConfig} (h : Reachable P serviceTask c) :
    c.world.db.inbound = [] := by
  obtain ⟨σ, hinv, -⟩ := reachable_accounted h
  have hinv : Accounted P c.world σ c.taskOf := hinv
  rw [List.eq_nil_iff_forall_not_mem]
  intro row hrow
  obtain ⟨commit, -, id, haccepts, -⟩ := hinv.commit_of hrow
  obtain ⟨event, hevent⟩ := haccepts.valid
  simp [modelValidate_refused hpool] at hevent

/-- An accepted call has stored its row. -/
theorem inbound_of_accepted {c : GatewayConfig} (h : Reachable P serviceTask c) {t : Nat} {req : Request}
    {correlationId eventId outboxId : UUID}
    (hfin : Finished c t (.webhook req) (.ok (.accepted correlationId eventId outboxId))) :
    c.world.db.inbound ≠ [] := by
  obtain ⟨σ, hinv, hconf⟩ := reachable_accounted h
  have hinv : Accounted P c.world σ c.taskOf := hinv
  have hpost : WebhookPost (σ t) (.ok (.accepted correlationId eventId outboxId)) :=
    hconf _ _ hfin rfl
  obtain ⟨row, hstage, -, -⟩ := hpost
  obtain ⟨commit, hc, -, haccepts⟩ := hinv.stored t row outboxId hstage
  exact List.ne_nil_of_mem (hinv.rows_of hc haccepts).1

/-- What the service does on a pool without a codec. -/
structure StoresNothing (P : Platform) (c : GatewayConfig) : Prop where
  inbound : c.world.db.inbound = []
  refused : ∀ t req r, Finished c t (.webhook req) r →
    ∀ correlationId eventId outboxId, r ≠ .ok (.accepted correlationId eventId outboxId)
  healthy : ∀ t req prData r, Finished c t (.webhook req) r → r ≠ .error .cancelledError →
    parsePayload P req.vcsProvider req.rawPayload = .ok prData → FoundNothing (stepsOf c t) →
    (∀ step ∈ stepsOf c t, Healthy step) →
    r = .error .dataError ∨ ∃ e, loadsDict P req.rawPayload = .error e ∧ r = .error e
  unread : ∀ t k found, (⟨.selectByPrHashKey k, .ok found⟩ : GatewayStep) ∈ stepsOf c t → found = none

/-- **No webhook is stored, and none is read back**, on the pool that the service creates. -/
theorem nothing_stored (hP : P.Digests) (hpool : P.NoCodec) {c : GatewayConfig}
    (h : Reachable P serviceTask c) : StoresNothing P c where
  inbound := inbound_empty hpool h
  refused := by
    rintro t req r hfin correlationId eventId outboxId rfl
    exact inbound_of_accepted h hfin (inbound_empty hpool h)
  healthy := by
    intro t req prData r hfin hcancel hparse hnew hhealthy
    obtain ⟨-, correlationId, prData', later, -, hlater, hsub⟩ :=
      processWebhook_persists hP (hfin.follows h) hnew hcancel
    have hfair : ∀ step ∈ later, Fair P step := fun step hstep =>
      ⟨reachable_credible h (hsub step hstep), hhealthy step (hsub step hstep),
        reachable_stated h (hsub step hstep)⟩
    have hrefused : ∀ rawJson, loadsDict P req.rawPayload = .ok rawJson →
        Refused P req prData' (requestKey P req prData') rawJson :=
      fun rawJson _ => refused_of_noCodec hpool req _ _ rawJson
    exact (persistStep_refused hrefused correlationId).follows hlater hfair
  unread := by
    intro t k found hstep
    obtain ⟨c₁, ch, w₂, h₁, he⟩ := reachable_happened h hstep
    obtain ⟨w₁, hop, -⟩ := exec_eq_some he
    have hempty := inbound_empty hpool h₁
    rcases awaited_eq_some hop with ⟨e, heq, -⟩ | heq
    · simp at heq
    · simp only [hempty, List.find?_nil, Option.some.injEq, Prod.mk.injEq, Except.ok.injEq] at heq
      exact heq.1.symm

namespace Example

/-- The same libraries under the pool of `create_pool`. -/
def plain (body : Json) : Platform :=
  { storing body with
    jsonbEncode
      | .str s => (storing body).loadsStr s
      | _ => none
    jsonbDecode := fun j => .str ((storing body).dumps j) }

theorem plain_digests (body : Json) : (plain body).Digests where
  sha256 := signedPlatform_digests.sha256
  hmac := signedPlatform_digests.hmac

theorem plain_noCodec (body : Json) : (plain body).NoCodec where
  encode j stored h := by
    cases j with
    | str s => exact ⟨s, rfl⟩
    | _ => simp [plain] at h
  decode j := ⟨_, rfl⟩

theorem plain_run : ∃ c,
    (gateway (plain first)).run initial (solo (.webhook (delivery first)) freshChoices) = some c ∧
    Finished c 0 (.webhook (delivery first)) (.error .dataError) ∧
    (∃ k, (stepsOf c 0)[12]? = some ⟨.selectByPrHashKey k, .ok none⟩) ∧
    (stepsOf c 0).all answered = true :=
  ⟨_, rfl, rfl, ⟨_, rfl⟩, rfl⟩

end Example

theorem nothing_stored_first : ∃ c, Finished c 0 (.webhook (Example.delivery Example.first))
      (.error .dataError) ∧ c.world.db.inbound = [] ∧ StoresNothing (Example.plain Example.first) c := by
  obtain ⟨c, hrun, hfin, -⟩ := Example.plain_run
  have hnothing := nothing_stored (Example.plain_digests _) (Example.plain_noCodec _)
    (Example.reachable_solo (k := .webhook _) trivial hrun)
  exact ⟨c, hfin, hnothing.inbound, hnothing⟩

/-- A webhook that fits the columns is lost on the plain pool. -/
theorem fitting_refused : ∃ c, Reachable (Example.plain Example.first) serviceTask c ∧
    Finished c 0 (.webhook (Example.delivery Example.first)) (.error .dataError) ∧
    (∃ prData rawJson, parsePayload (Example.plain Example.first) "gitlab"
        (Example.delivery Example.first).rawPayload = .ok prData ∧
      loadsDict (Example.plain Example.first) (Example.delivery Example.first).rawPayload =
        .ok rawJson ∧
      Storable (Example.delivery Example.first) prData rawJson) ∧
    FoundNothing (stepsOf c 0) ∧ (∀ step ∈ stepsOf c 0, Healthy step) ∧
    (Example.plain Example.first).NoCodec := by
  obtain ⟨c, hrun, hfin, ⟨k, hmiss⟩, hanswered⟩ := Example.plain_run
  exact ⟨c, Example.reachable_solo (k := .webhook _) trivial hrun, hfin,
    ⟨_, _, rfl, rfl, by decide, by decide, by decide, by decide, by decide, by decide, by decide,
      by decide, by decide, by decide⟩,
    ⟨k, List.mem_of_getElem? hmiss⟩, Example.healthy_of_answered hanswered, Example.plain_noCodec _⟩

end VcsGateway
