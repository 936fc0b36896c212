import VcsGateway.Authentication

/-!
# The public endpoints

`api/v1/webhooks.py`, and what becomes of a request that carries no credential.
-/

namespace VcsGateway

open Async

variable {P : Platform}

/-! ### Responses -/

def maxBodyBytes : Nat := 5 * 1024 * 1024

def payloadTooLarge : Response where
  status := 413
  content := [("code", .str "PAYLOAD_TOO_LARGE"), ("message", .str "Request body exceeds 5 MB limit")]

def checkBodySize (rawPayload : ByteArray) : Option Response :=
  if rawPayload.size > maxBodyBytes then some payloadTooLarge else none

/-- `_to_response`. -/
def toResponse : WebhookResult → Response
  | .accepted correlationId eventId _ =>
    { status := 202
      content := [("status", .str "accepted"), ("correlation_id", .str correlationId.str),
        ("event_id", .str eventId.str),
        ("message", .str "Webhook accepted and scheduled for processing"),
        ("dispatch_in", .str "30s")] }
  | .duplicate correlationId prHashKey detectionMethod =>
    { status := 200
      content := [("status", .str "ignored"), ("code", .str "DUPLICATE_WEBHOOK"),
        ("correlation_id", .str correlationId.str), ("pr_hash_key", .str prHashKey),
        ("detection_method", .str detectionMethod.value)] }
  | .ignored correlationId eventType =>
    { status := 200
      content := [("status", .str "ignored"), ("code", .str "EVENT_TYPE_NOT_ALLOWED"),
        ("correlation_id", .str correlationId.str), ("event_type", .str eventType)] }

/-! ### The two routes -/

/-- The parameters of an endpoint; a header that the request does not carry is `none`. -/
structure HttpWebhook where
  tenantId : UUID
  rawPayload : ByteArray
  credential : Option String
  event : Option String

/-- The call of an endpoint: an absent header becomes the default `""`. -/
def HttpWebhook.request (http : HttpWebhook) (vcsProvider credentialHeader eventHeader : String) :
    Request where
  tenantId := http.tenantId
  vcsProvider := vcsProvider
  rawPayload := http.rawPayload
  headers := [(credentialHeader, http.credential.getD ""), (eventHeader, http.event.getD "")]

def receiveWebhook (P : Platform) (rawPayload : ByteArray) (req : Request) : Coroutine Response :=
  match checkBodySize rawPayload with
  | some err => pure err
  | none => do
    let result ← processWebhook P req
    pure (toResponse result)

def githubRequest (http : HttpWebhook) : Request :=
  http.request "github" "X-Hub-Signature-256" "X-GitHub-Event"

def gitlabRequest (http : HttpWebhook) : Request :=
  http.request "gitlab" "X-Gitlab-Token" "X-Gitlab-Event"

def receiveGithubWebhook (P : Platform) (http : HttpWebhook) : Coroutine Response :=
  receiveWebhook P http.rawPayload (githubRequest http)

def receiveGitlabWebhook (P : Platform) (http : HttpWebhook) : Coroutine Response :=
  receiveWebhook P http.rawPayload (gitlabRequest http)

inductive Endpoint where
  | github | gitlab
deriving DecidableEq, Repr

def Endpoint.request : Endpoint → HttpWebhook → Request
  | .github => githubRequest
  | .gitlab => gitlabRequest

def Endpoint.receive (P : Platform) : Endpoint → HttpWebhook → Coroutine Response
  | .github => receiveGithubWebhook P
  | .gitlab => receiveGitlabWebhook P

/-- The endpoint has answered a request: at once, or with what the task `t` came to. -/
def Answered (c : GatewayConfig) (t : Nat) (endpoint : Endpoint) (http : HttpWebhook)
    (steps : List GatewayStep) (res : Except Exn Response) : Prop :=
  (maxBodyBytes < http.rawPayload.size ∧ steps = [] ∧ res = .ok payloadTooLarge) ∨
    http.rawPayload.size ≤ maxBodyBytes ∧ ∃ r, Finished c t (.webhook (endpoint.request http)) r ∧
      steps = stepsOf c t ∧ res = r.map toResponse

theorem Endpoint.receive_eq (endpoint : Endpoint) (http : HttpWebhook) :
    endpoint.receive P http = receiveWebhook P http.rawPayload (endpoint.request http) := by
  cases endpoint <;> rfl

theorem Endpoint.request_tenantId (endpoint : Endpoint) (http : HttpWebhook) :
    (endpoint.request http).tenantId = http.tenantId := by
  cases endpoint <;> rfl

theorem Endpoint.request_supported (endpoint : Endpoint) (http : HttpWebhook) :
    (endpoint.request http).vcsProvider ∈ supportedProviders := by
  cases endpoint <;> simp [request, githubRequest, gitlabRequest, HttpWebhook.request,
    supportedProviders]

/-- What `Answered` says is what the endpoint does with the answers of the task. -/
theorem Answered.follows {c : GatewayConfig} {allowed : Task → Prop} (h : Reachable P allowed c)
    {t : Nat} {endpoint : Endpoint} {http : HttpWebhook} {steps : List GatewayStep}
    {res : Except Exn Response} (ha : Answered c t endpoint http steps res) :
    (endpoint.receive P http).Follows steps res := by
  rw [endpoint.receive_eq, receiveWebhook, checkBodySize]
  rcases ha with ⟨hlarge, rfl, rfl⟩ | ⟨hsize, r, hfin, rfl, rfl⟩
  · rw [if_pos hlarge]
    exact .ret _
  · rw [if_neg (Nat.not_lt.mpr hsize)]
    have hfollows : (processWebhook P (endpoint.request http)).Follows (stepsOf c t) r :=
      hfin.follows h
    rw [← List.append_nil (stepsOf c t)]
    refine Prog.follows_andThen.mpr ⟨_, [], r, rfl, hfollows, ?_⟩
    cases r <;> exact .ret _

/-! ### Requests without a credential -/

/-- The errors of a request that is turned away for its signature or its tenant. -/
def TurnedAway (tenantId : UUID) (e : Exn) : Prop :=
  e = invalidSignature ∨ e = tenantInactive ∨ e = tenantNotFound tenantId

/-- The request is turned away, and changes nothing. -/
structure Refuses {α : Type} (P : Platform) (tenantId : UUID) (steps : List GatewayStep)
    (res : Except Exn α) : Prop where
  rejected : ∃ e, res = .error e ∧ TurnedAway tenantId e
  leaves : ∀ step ∈ steps, step.op.Leaves P

/-- The table or the cache has given the call an active row of the tenant with this secret. -/
def Supplies (P : Platform) (tenantId : UUID) (secret : String) (step : GatewayStep) : Prop :=
  ∃ tenant : Tenant, tenant.isActive = true ∧ tenant.webhookSecret = secret ∧
    (step = ⟨.selectTenant tenantId, .ok (some tenant)⟩ ∨
      ∃ raw, step = ⟨.redisGet (tenantConfigKey tenantId), .ok (some raw)⟩ ∧
        P.loadsStr raw = some tenant.modelDump)

theorem Supplies.op {tenantId : UUID} {secret : String} {step : GatewayStep}
    (h : Supplies P tenantId secret step) :
    step.op = .selectTenant tenantId ∨ step.op = .redisGet (tenantConfigKey tenantId) := by
  obtain ⟨tenant, -, -, rfl | ⟨raw, rfl, -⟩⟩ := h
  · exact .inl rfl
  · exact .inr rfl

section Lookup

variable {tenantId : UUID} {lookup : List GatewayStep}

/-- A hit ends the lookup. -/
theorem getWebhookSecret_hit {raw : String} {cached : Json} (hloads : P.loadsStr raw = some cached) :
    (getWebhookSecret P tenantId).Follows [⟨.redisGet (tenantConfigKey tenantId), .ok (some raw)⟩]
      (secretOfCache P cached) := by
  refine .await _ ?_
  simp only [Prog.ret_andThen, Prog.onOk, hloads]
  exact .ret _

/-- The secret of a lookup is the one that was supplied. -/
theorem lookup_supplied {secret : String}
    (h : (getWebhookSecret P tenantId).Follows lookup (.ok secret)) {secret' : String}
    (hsupplied : ∃ step ∈ lookup, Supplies P tenantId secret' step) : secret' = secret := by
  obtain ⟨step, hstep, tenant, hactive, rfl, hcases⟩ := hsupplied
  obtain ⟨a, later, rfl, hend⟩ := getWebhookSecret_follows h
  rcases hcases with rfl | ⟨raw, rfl, hloads⟩
  · rcases hend with ⟨-, heq⟩ | ⟨rfl, -⟩ | ⟨e, -, heq⟩ | ⟨-, heq⟩ |
      ⟨row, ⟨-, -, heq⟩ | ⟨-, b, rfl, hr⟩⟩
    · simp at heq
    · simp at hstep
    · simp at heq
    · simp at heq
    · simp at heq
    · have hrow : tenant = row := by simpa using hstep
      rw [hrow]
      rcases hr with heq | heq
      · exact (Except.ok.inj heq).symm
      · simp at heq
  · have hget : (⟨.redisGet (tenantConfigKey tenantId), .ok (some raw)⟩ : GatewayStep) =
        ⟨.redisGet (tenantConfigKey tenantId), a⟩ := by
      rcases List.mem_cons.mp hstep with heq | hmem
      · exact heq
      rcases hend with ⟨rfl, -⟩ | ⟨rfl, -⟩ | ⟨e, rfl, -⟩ | ⟨rfl, -⟩ |
        ⟨row, ⟨-, rfl, -⟩ | ⟨-, b, rfl, -⟩⟩ <;> simp at hmem
    simp only [Step.mk.injEq, heq_eq_eq, true_and] at hget
    subst hget
    obtain ⟨-, hsecret, -⟩ := (getWebhookSecret_hit hloads).unique h
      (show [_] ++ later = _ ++ [] by simp)
    rw [secretOfCache_modelDump hactive] at hsecret
    exact Except.ok.inj hsecret

/-- A lookup that gives a secret was supplied with it, if the entry of a hit is the dump of a row. -/
theorem lookup_supplies {secret : String}
    (hentry : ∀ raw cached, ⟨.redisGet (tenantConfigKey tenantId), .ok (some raw)⟩ ∈ lookup →
      P.loadsStr raw = some cached → ∃ tenant : Tenant, tenant.isActive = true ∧
        cached = tenant.modelDump)
    (h : (getWebhookSecret P tenantId).Follows lookup (.ok secret)) :
    ∃ step ∈ lookup, Supplies P tenantId secret step := by
  obtain ⟨a, later, rfl, hend⟩ := getWebhookSecret_follows h
  rcases hend with ⟨-, heq⟩ | ⟨rfl, raw, cached, rfl, hloads, heq⟩ | ⟨e, -, heq⟩ | ⟨-, heq⟩ |
    ⟨row, ⟨-, -, heq⟩ | ⟨hactive, b, rfl, hr⟩⟩
  · simp at heq
  · obtain ⟨tenant, hactive, rfl⟩ := hentry raw cached (by simp) hloads
    rw [secretOfCache_modelDump hactive] at heq
    exact ⟨_, List.mem_cons_self, tenant, hactive, (Except.ok.inj heq).symm, .inr ⟨raw, rfl, hloads⟩⟩
  · simp at heq
  · simp at heq
  · simp at heq
  · rcases hr with heq | heq
    · exact ⟨_, List.mem_cons_of_mem _ List.mem_cons_self, row, hactive, (Except.ok.inj heq).symm,
        .inl rfl⟩
    · simp at heq

/-- A lookup that fails was supplied with no secret. -/
theorem lookup_unsupplied {e : Exn} (hcancel : e ≠ .cancelledError)
    (h : (getWebhookSecret P tenantId).Follows lookup (.error e)) {secret : String} :
    ∀ step ∈ lookup, ¬Supplies P tenantId secret step := by
  rintro step hstep ⟨tenant, hactive, -, hcases⟩
  obtain ⟨a, later, rfl, hend⟩ := getWebhookSecret_follows h
  have hhit : ∀ raw, P.loadsStr raw = some tenant.modelDump →
      (⟨.redisGet (tenantConfigKey tenantId), .ok (some raw)⟩ : GatewayStep) ≠
        ⟨.redisGet (tenantConfigKey tenantId), a⟩ := by
    intro raw hloads heq
    simp only [Step.mk.injEq, heq_eq_eq, true_and] at heq
    subst heq
    obtain ⟨-, hsecret, -⟩ := (getWebhookSecret_hit hloads).unique h
      (show [_] ++ later = _ ++ [] by simp)
    simp [secretOfCache_modelDump hactive] at hsecret
  rcases hcases with rfl | ⟨raw, rfl, hloads⟩
  · rcases hend with ⟨rfl, -⟩ | ⟨rfl, -⟩ | ⟨e', rfl, -⟩ | ⟨rfl, -⟩ |
      ⟨row, ⟨hinactive, rfl, -⟩ | ⟨-, b, -, heq | heq⟩⟩
    · simp at hstep
    · simp at hstep
    · simp at hstep
    · simp at hstep
    · have hrow : tenant = row := by simpa using hstep
      rw [← hrow, hactive] at hinactive
      simp at hinactive
    · simp at heq
    · exact hcancel (Except.error.inj heq)
  · rcases List.mem_cons.mp hstep with heq | hmem
    · exact hhit raw hloads heq
    rcases hend with ⟨rfl, -⟩ | ⟨rfl, -⟩ | ⟨e', rfl, -⟩ | ⟨rfl, -⟩ |
      ⟨row, ⟨-, rfl, -⟩ | ⟨-, b, rfl, -⟩⟩ <;> simp at hmem

end Lookup

section Call

variable {req : Request} {steps : List GatewayStep} {r : Except Exn WebhookResult}

theorem TurnedAway.not_raw {tenantId : UUID} {e : Exn} (h : TurnedAway tenantId e) : ¬e.Raw := by
  rcases h with rfl | rfl | rfl <;> exact id

theorem parseStep_throws (req : Request) (correlationId : UUID) (eventType : String)
    (whitelist : List VcsEventWhitelist) :
    (parseStep P req correlationId eventType whitelist).Gives Plausible (Throws fun _ => False) := by
  refine bind_throws ?_ fun prData => ?_
  · intro e he
    rcases parsePayload_error he with ⟨model, rfl⟩ | ⟨message, rfl⟩
    · exact .inl trivial
    · exact .inl trivial
  · by_cases hallowed : isEventAllowed eventType prData.action whitelist = true
    · simp only [hallowed, Bool.not_true, Bool.false_eq_true, if_false]
      exact idempotencyStep_throws req correlationId prData _
    · simp only [hallowed, Bool.not_false, if_true]
      exact bind_throws (suppressed_throws _ (emit_suppressed P _ _ _ _ _)) fun _ => throws_ok _ _

/-- The database does not fail, and the request verifies under no secret that is supplied. -/
structure Unverifiable (P : Platform) (req : Request) (steps : List GatewayStep) : Prop where
  healthy : ∀ step ∈ steps, ¬DatabaseFailed step
  secret : ∀ secret, ∀ step ∈ steps, Supplies P req.tenantId secret step → ¬Verifies P req secret

/-- A statement that failed ends the call. -/
theorem refuses_iff_of_failed {op : Op} {e : Exn} (hop : op.onDatabase = true)
    (hinsert : ∀ args, op ≠ .insertInbound args) (hcredible : Plausible ⟨op, .error e⟩)
    (hstep : ⟨op, .error e⟩ ∈ steps) (hne : e ≠ .cancelledError) :
    Refuses P req.tenantId steps (.error e : Except Exn WebhookResult) ↔
      Unverifiable P req steps := by
  have hof : e.OfDatabase := by
    have hanswer := hcredible.1
    cases op with
    | insertInbound args => exact absurd rfl (hinsert args)
    | _ => exact hanswer
  constructor
  · rintro ⟨⟨e', he', haway⟩, -⟩
    obtain rfl := Except.error.inj he'
    exact absurd (hof.raw hne) haway.not_raw
  · intro h
    exact absurd ⟨hop, e, rfl, hne, hof.ne_unique⟩ (h.healthy _ hstep)

/-- What a call has done when it has an error of its tenant. -/
theorem refuses_iff_of_tenant {correlationId : UUID} {lookup : List GatewayStep} {e : Exn}
    (hlookup : (getWebhookSecret P req.tenantId).Follows lookup (.error e))
    (haway : TurnedAway req.tenantId e) (hgood : ∀ step ∈ lookup, ¬DatabaseFailed step) :
    Refuses P req.tenantId (⟨.uuid4, .ok correlationId⟩ :: lookup)
        (.error e : Except Exn WebhookResult) ↔
      Unverifiable P req (⟨.uuid4, .ok correlationId⟩ :: lookup) := by
  have hne : e ≠ .cancelledError := by
    rcases haway with rfl | rfl | rfl <;>
      simp [invalidSignature, tenantInactive, tenantNotFound, Exn.validationError, Exn.notFoundError]
  refine iff_of_true ⟨⟨e, rfl, haway⟩, ?_⟩ ⟨?_, ?_⟩
  · intro step hstep
    rcases List.mem_cons.mp hstep with rfl | hstep
    · have hfirst : Op.Preliminary req .uuid4 := .journey .uuid4
      exact hfirst.leaves
    · exact Op.Preliminary.leaves (.lookup ((getWebhookSecret_only P _).follows hlookup step hstep))
  · intro step hstep
    rcases List.mem_cons.mp hstep with rfl | hstep
    · rintro ⟨hdb, -⟩
      simp [Op.onDatabase] at hdb
    · exact hgood step hstep
  · intro secret step hstep hsupplies
    rcases List.mem_cons.mp hstep with rfl | hstep
    · rcases hsupplies.op with hop | hop <;> simp at hop
    · exact absurd hsupplies (lookup_unsupplied hne hlookup step hstep)

/-- **Who is turned away**: a request that verifies under no secret that its tenant has, unless
    the database fails. -/
theorem processWebhook_refuses_iff (hP : P.Digests) (hprovider : req.vcsProvider ∈ supportedProviders)
    (hcheck : Checkable req) (hcredible : ∀ step ∈ steps, Plausible step)
    (hentry : ∀ raw cached, ⟨.redisGet (tenantConfigKey req.tenantId), .ok (some raw)⟩ ∈ steps →
      P.loadsStr raw = some cached → ∃ tenant : Tenant, tenant.isActive = true ∧
        cached = tenant.modelDump)
    (h : (processWebhook P req).Follows steps r) (hcancel : r ≠ .error .cancelledError) :
    Refuses P req.tenantId steps r ↔ Unverifiable P req steps := by
  rcases processWebhook_follows h with ⟨e, rfl, -⟩ | ⟨correlationId, later, rfl, hcases⟩
  · exact absurd rfl ((hcredible _ List.mem_cons_self).2 (.inl rfl) e)
  rcases hcases with ⟨hunsupported, -⟩ | ⟨-, ⟨e, hlookup, rfl⟩ | ⟨lookup, secret, hlookup, hrest⟩⟩
  · exact absurd hprovider hunsupported
  · have hne : e ≠ .cancelledError := fun heq => hcancel (heq ▸ rfl)
    obtain ⟨a, later, rfl, hend⟩ := getWebhookSecret_follows hlookup
    rcases hend with ⟨-, heq⟩ | ⟨rfl, raw, cached, rfl, hloads, heq⟩ | ⟨e', rfl, heq⟩ | ⟨rfl, heq⟩ |
      ⟨row, ⟨-, rfl, heq⟩ | ⟨-, b, -, heq | heq⟩⟩
    · exact absurd (Except.error.inj heq) hne
    · obtain ⟨tenant, hactive, rfl⟩ := hentry raw cached (by simp) hloads
      simp [secretOfCache_modelDump hactive] at heq
    · obtain rfl := Except.error.inj heq
      have hmem : (⟨.selectTenant req.tenantId, .error e⟩ : GatewayStep) ∈
          [⟨.uuid4, .ok correlationId⟩, ⟨.redisGet (tenantConfigKey req.tenantId), a⟩,
            ⟨.selectTenant req.tenantId, .error e⟩] := by simp
      exact refuses_iff_of_failed rfl (by simp) (hcredible _ hmem) hmem hne
    · refine refuses_iff_of_tenant hlookup (.inr (.inr (Except.error.inj heq))) ?_
      simp [DatabaseFailed, Op.onDatabase]
    · refine refuses_iff_of_tenant hlookup (.inr (.inl (Except.error.inj heq))) ?_
      simp [DatabaseFailed, Op.onDatabase]
    · simp at heq
    · exact absurd (Except.error.inj heq) hne
  rcases hrest with ⟨e, rfl, rfl⟩ | ⟨whitelist, rest, rfl, hafter⟩
  · have hmem : (⟨.selectWhitelist req.vcsProvider, .error e⟩ : GatewayStep) ∈
        ⟨.uuid4, .ok correlationId⟩ :: (lookup ++ [⟨.selectWhitelist req.vcsProvider, .error e⟩]) := by
      simp
    exact refuses_iff_of_failed rfl (by simp) (hcredible _ hmem) hmem fun heq => hcancel (heq ▸ rfl)
  rcases afterLookup_follows hP hafter with ⟨hcheck', -⟩ | ⟨-, heq⟩ | ⟨-, hver, hrejected⟩ |
    ⟨-, hver, traced, tail, rfl, -, hparse⟩
  · exact absurd hcheck hcheck'
  · exact absurd heq hcancel
  · have hjourney : ∀ step ∈ rest, step.op.Journey :=
      (emit_only P _ _ _ _ _).follows hrejected.traced
    have hpreliminary : ∀ step ∈ (⟨.uuid4, .ok correlationId⟩ ::
        (lookup ++ ⟨.selectWhitelist req.vcsProvider, .ok whitelist⟩ :: rest) : List GatewayStep),
        step = ⟨.selectWhitelist req.vcsProvider, .ok whitelist⟩ ∨ step.op.Journey ∨ step ∈ lookup := by
      intro step hstep
      simp only [List.mem_cons, List.mem_append] at hstep
      rcases hstep with rfl | hstep | rfl | hstep
      · exact .inr (.inl .uuid4)
      · exact .inr (.inr hstep)
      · exact .inl rfl
      · exact .inr (.inl (hjourney step hstep))
    refine iff_of_true ⟨⟨_, hrejected.result, .inl rfl⟩, ?_⟩ ⟨?_, ?_⟩
    · intro step hstep
      rcases hpreliminary step hstep with rfl | hop | hlook
      · exact Op.Preliminary.leaves .whitelist
      · have hfirst : Op.Preliminary req step.op := .journey hop
        exact hfirst.leaves
      · exact Op.Preliminary.leaves
          (.lookup ((getWebhookSecret_only P _).follows hlookup step hlook))
    · rintro step hstep ⟨hdb, e, he, hne, hunique⟩
      rcases hpreliminary step hstep with rfl | hop | hlook
      · simp at he
      · simp [hop.not_onDatabase] at hdb
      · exact (lookup_steps hlookup).1 ⟨step, hlook, .inl ⟨hdb, e, he, hne, hunique⟩⟩
    · intro secret' step hstep hsupplies
      rcases hpreliminary step hstep with rfl | hop | hlook
      · rcases hsupplies.op with heq | heq <;> simp at heq
      · rcases hsupplies.op with heq | heq <;> (rw [heq] at hop; cases hop)
      · rw [lookup_supplied hlookup ⟨step, hlook, hsupplies⟩]
        exact hver
  · obtain ⟨step, hstep, hsupplies⟩ := lookup_supplies
      (fun raw cached hmem hloads => hentry raw cached (by simp [hmem]) hloads) hlookup
    constructor
    · rintro ⟨⟨e, rfl, haway⟩, -⟩
      have hthrows := (parseStep_throws req correlationId (extractEventType req.headers)
        whitelist).follows hparse fun step hstep => hcredible step (by simp [hstep])
      rcases hthrows e rfl with hraw | rfl | hfalse
      · exact absurd hraw haway.not_raw
      · exact absurd rfl hcancel
      · exact hfalse.elim
    · intro h
      exact absurd hver (h.secret secret step (by simp [hstep]) hsupplies)

end Call

/-! ### Every run -/

theorem Refuses.map {α β : Type} {tenantId : UUID} {steps : List GatewayStep} {r : Except Exn α}
    (f : α → β) : Refuses P tenantId steps (r.map f) ↔ Refuses P tenantId steps r := by
  have hresult : ∀ e, r.map f = .error e ↔ r = .error e := by
    intro e
    cases r <;> simp [Except.map]
  constructor
  · rintro ⟨⟨e, he, haway⟩, hleaves⟩
    exact ⟨⟨e, (hresult e).mp he, haway⟩, hleaves⟩
  · rintro ⟨⟨e, he, haway⟩, hleaves⟩
    exact ⟨⟨e, (hresult e).mpr he, haway⟩, hleaves⟩

section Uncredentialed

variable {http : HttpWebhook}

/-- The header of an absent GitHub signature can be compared, and is no signature. -/
theorem github_uncredentialed (hnone : http.credential = none) :
    Checkable (githubRequest http) ∧ ∀ secret, ¬Verifies P (githubRequest http) secret := by
  have hheader : (githubRequest http).headers.getD "X-Hub-Signature-256" = "" := by
    simp [githubRequest, HttpWebhook.request, Headers.getD, dictGet?, hnone]
  constructor
  · intro _ _ c hc
    rw [hheader] at hc
    simp at hc
  · rintro secret (⟨-, heq⟩ | ⟨hprovider, -⟩)
    · rw [hheader] at heq
      have hlist := congrArg String.toList heq
      rw [String.toList_append] at hlist
      simp at hlist
    · have hne : "github" ≠ "gitlab" := by decide
      exact absurd hprovider hne

/-- The header of an absent GitLab token is the empty secret. -/
theorem gitlab_uncredentialed (hnone : http.credential = none) :
    Checkable (gitlabRequest http) ∧ ∀ secret, Verifies P (gitlabRequest http) secret ↔ secret = "" := by
  have hheader : (gitlabRequest http).headers.getD "X-Gitlab-Token" = "" := by
    simp [gitlabRequest, HttpWebhook.request, Headers.getD, dictGet?, hnone]
  have hne : "gitlab" ≠ "github" := by decide
  constructor
  · intro hprovider
    exact absurd hprovider hne
  · intro secret
    constructor
    · rintro (⟨hprovider, -⟩ | ⟨-, heq⟩)
      · exact absurd hprovider hne
      · exact (hheader.symm.trans heq).symm
    · rintro rfl
      exact .inr ⟨rfl, hheader⟩

end Uncredentialed

/-- **No credential, no acceptance**: an uncredentialed request is turned away unless its body is
    too large for the service, the database fails, or the secret of a GitLab tenant is empty. -/
theorem uncredentialed_refused_iff (hP : P.Digests) {c : GatewayConfig} (hcodec : ReadsBack P c)
    (h : Reachable P serviceTask c) {t : Nat} {endpoint : Endpoint} {http : HttpWebhook}
    {steps : List GatewayStep} {res : Except Exn Response} (ha : Answered c t endpoint http steps res)
    (hnone : http.credential = none) (hcancel : res ≠ .error .cancelledError) :
    Refuses P http.tenantId steps res ↔
      http.rawPayload.size ≤ maxBodyBytes ∧ (∀ step ∈ steps, ¬DatabaseFailed step) ∧
        (endpoint = .gitlab → ∀ step ∈ steps, ¬Supplies P http.tenantId "" step) := by
  rcases ha with ⟨hlarge, rfl, rfl⟩ | ⟨hsize, r, hfin, rfl, rfl⟩
  · constructor
    · rintro ⟨⟨e, he, -⟩, -⟩
      simp at he
    · rintro ⟨hsize, -⟩
      exact absurd hlarge (Nat.not_lt.mpr hsize)
  have hcancel' : r ≠ .error .cancelledError := by
    rintro rfl
    exact hcancel rfl
  have hcall : Checkable (endpoint.request http) → (Refuses P http.tenantId (stepsOf c t) r ↔
      Unverifiable P (endpoint.request http) (stepsOf c t)) := by
    intro hcheck
    rw [← endpoint.request_tenantId http]
    exact processWebhook_refuses_iff hP (endpoint.request_supported http) hcheck (fun step hstep => reachable_credible h hstep)
      (fun raw cached hmem hloads => cached_entry hcodec h hmem hloads) (hfin.follows h) hcancel'
  rw [Refuses.map, and_iff_right hsize]
  cases endpoint with
  | github =>
    obtain ⟨hcheck, hver⟩ := @github_uncredentialed P http hnone
    rw [hcall hcheck]
    constructor
    · intro hun
      exact ⟨hun.healthy, fun heq => by simp at heq⟩
    · rintro ⟨hhealthy, -⟩
      exact ⟨hhealthy, fun secret step _ _ => hver secret⟩
  | gitlab =>
    obtain ⟨hcheck, hver⟩ := @gitlab_uncredentialed P http hnone
    rw [hcall hcheck]
    constructor
    · intro hun
      exact ⟨hun.healthy, fun _ step hstep hsupplies =>
        hun.secret "" step hstep hsupplies ((hver "").mpr rfl)⟩
    · rintro ⟨hhealthy, hempty⟩
      refine ⟨hhealthy, fun secret step hstep hsupplies hverifies => ?_⟩
      obtain rfl := (hver secret).mp hverifies
      exact hempty rfl step hstep hsupplies

namespace Example

/-- A delivery without a token. -/
def uncredentialed : HttpWebhook :=
  { tenantId := tenant.tenantId, rawPayload := first.text.toUTF8, credential := none,
    event := some "Merge Request Hook" }

def rejectedChoices : List Choice := lookupChoices ++ emitChoices 10

/-- A step that neither fails in the database nor gives the empty secret. -/
def calm : GatewayStep → Bool
  | ⟨.selectTenant _, .ok (some row)⟩ => row.webhookSecret ≠ ""
  | ⟨.redisGet _, .ok (some _)⟩ => false
  | ⟨op, .error _⟩ => !op.onDatabase
  | _ => true

theorem calm_spec {step : GatewayStep} (h : calm step = true) (id : UUID) :
    ¬DatabaseFailed step ∧ ¬Supplies signedPlatform id "" step := by
  constructor
  · rintro ⟨hdb, e, he, -⟩
    obtain ⟨op, r⟩ := step
    obtain rfl : r = .error e := he
    cases op <;> simp_all [calm, Op.onDatabase]
  · rintro ⟨row, -, hsecret, rfl | ⟨raw, rfl, -⟩⟩
    · simp [calm, hsecret] at h
    · simp [calm] at h

theorem rejected_run : ∃ c,
    (gateway signedPlatform).run initial
      (solo (.webhook (gitlabRequest uncredentialed)) rejectedChoices) = some c ∧
    Finished c 0 (.webhook (gitlabRequest uncredentialed)) (.error invalidSignature) ∧
    tenantsRead c = [tenant] ∧ (stepsOf c 0).all calm = true :=
  ⟨_, rfl, rfl, rfl, rfl⟩

theorem loadsStr_signed : signedPlatform.loadsStr (signedPlatform.dumps tenant.modelDump) =
    some tenant.modelDump := by
  simp only [signedPlatform, platform, if_true]

theorem rejected_size : uncredentialed.rawPayload.size ≤ maxBodyBytes := by decide +kernel

/-- A row that the schema admits. -/
def secretless : Tenant := { tenant with webhookSecret := "" }

def secretlessRun : List GatewayLabel :=
  .env (.setTenant tenant.tenantId (some secretless)) ::
    solo (.webhook (gitlabRequest uncredentialed)) (freshChoices ++ storedChoices)

theorem secretless_labels : secretlessRun =
    (.env (.setTenant tenant.tenantId (some secretless)) ::
      solo (.webhook (gitlabRequest uncredentialed)) freshChoices) ++
      .step 0 (.fresh ⟨21⟩) :: (Choice.ok :: Choice.ok :: emitChoices 22).map (.step 0) :=
  rfl

theorem secretless_run : ∃ c,
    (gateway (storing first)).run initial secretlessRun = some c ∧
    Finished c 0 (.webhook (gitlabRequest uncredentialed)) (.ok (.accepted ⟨9⟩ ⟨20⟩ ⟨21⟩)) ∧
    c.world.db.tenants tenant.tenantId = some secretless ∧ c.world.db.inbound.length = 1 := by
  rw [secretless_labels]
  exact ⟨_, run_insertEvent rfl rfl rfl rfl (by decide) (storing_row rfl rfl rfl rfl) rfl, rfl, rfl,
    rfl⟩

end Example

/-- A request without a token is turned away by a tenant that has a secret. -/
theorem uncredentialed_refused : ∃ c,
    Finished c 0 (.webhook (gitlabRequest Example.uncredentialed)) (.error invalidSignature) ∧
    Refuses Example.signedPlatform Example.tenant.tenantId (stepsOf c 0)
      (.error invalidSignature : Except Exn Response) := by
  obtain ⟨c, hrun, hfin, hread, hcalm⟩ := Example.rejected_run
  have hcodec : ReadsBack Example.signedPlatform c := by
    intro tenant htenant
    rw [hread, List.mem_singleton] at htenant
    rw [htenant]
    exact Example.loadsStr_signed
  have hspec := fun step hstep => Example.calm_spec (List.all_eq_true.mp hcalm step hstep)
    Example.tenant.tenantId
  have ha : Answered c 0 .gitlab Example.uncredentialed (stepsOf c 0) (.error invalidSignature) :=
    .inr ⟨Example.rejected_size, _, hfin, rfl, rfl⟩
  have hiff := uncredentialed_refused_iff Example.signedPlatform_digests hcodec
    (Example.reachable_solo (k := .webhook _) trivial hrun) ha rfl
    (by simp [invalidSignature, Exn.validationError])
  exact ⟨c, hfin, hiff.mpr ⟨Example.rejected_size, fun step hstep => (hspec step hstep).1,
    fun _ step hstep => (hspec step hstep).2⟩⟩

/-- **The endpoint of GitLab accepts a request without a token** when the secret is empty. -/
theorem uncredentialed_accepted : ∃ c, Reachable (Example.storing Example.first) serviceTask c ∧
    c.world.db.tenants Example.tenant.tenantId = some Example.secretless ∧
    Answered c 0 .gitlab Example.uncredentialed (stepsOf c 0)
      (.ok (toResponse (.accepted ⟨9⟩ ⟨20⟩ ⟨21⟩))) ∧
    Example.uncredentialed.credential = none ∧ c.world.db.inbound.length = 1 ∧
    ¬Refuses (Example.storing Example.first) Example.tenant.tenantId (stepsOf c 0)
      (.ok (toResponse (.accepted ⟨9⟩ ⟨20⟩ ⟨21⟩))) := by
  obtain ⟨c, hrun, hfin, hrow, hrows⟩ := Example.secretless_run
  refine ⟨c, ⟨Example.tenants, Example.whitelist, Example.secretlessRun, ?_, hrun⟩, hrow,
    .inr ⟨Example.rejected_size, _, hfin, rfl, rfl⟩, rfl, hrows, ?_⟩
  · intro l hl
    rcases List.mem_cons.mp hl with rfl | hl
    · trivial
    rcases List.mem_cons.mp hl with rfl | hl
    · trivial
    obtain ⟨ch, -, rfl⟩ := List.mem_map.mp hl
    trivial
  · rintro ⟨⟨e, he, -⟩, -⟩
    simp at he

end VcsGateway
