import VcsGateway.Acceptance

/-!
# The calls follow the protocol of acceptance

Every task of the gateway conforms to `acceptance`, helper by helper; with the step
lemma of `VcsGateway.Acceptance` the invariant therefore holds in every run.
-/

namespace VcsGateway

open Async

section

variable (P : Platform)

/-- The operations that the protocol ignores in state `s`. -/
def CallState.Ignores (s : CallState) (op : Op) : Prop :=
  s.allows P op ∧ ∀ r, s.next op r = s

variable {P} {s : CallState}

theorem ignores_journey {op : Op} (h : op.Journey) : s.Ignores P op := by
  cases h <;> exact ⟨trivial, fun r => by cases r <;> rfl⟩

theorem ignores_tenantLookup (hs : s.stage = .outside) {tenantId : UUID} {op : Op}
    (h : op.TenantLookup tenantId) : s.Ignores P op := by
  cases h with
  | get =>
    refine ⟨hs, fun r => ?_⟩
    rcases r with e | _ | v
    · rfl
    · rfl
    · have hempty : {k | tenantConfigKey tenantId = idempotencyKey k} = ∅ := by
        ext k
        simpa using (idempotencyKey_ne_tenantConfigKey k tenantId).symm
      simp [CallState.next, hempty]
  | select => exact ⟨trivial, fun r => by cases r <;> rfl⟩
  | set v => exact ⟨.inl ⟨tenantId, rfl⟩, fun r => by cases r <;> rfl⟩

theorem ignores_cancel (hs : s.InTx) {k : String} {v : Int} {op : Op} (h : op.Cancel k v) :
    s.Ignores P op := by
  cases h <;> exact ⟨hs, fun r => by cases r <;> rfl⟩

theorem emit_accepts (stepType : JourneyStepType) (status : JourneyStepStatus)
    (correlationId tenantId : UUID) (metadata : List (String × Json)) :
    (acceptance P).Conforms (fun r s' => s' = s ∧ Suppressed r)
      (emit P stepType status correlationId tenantId metadata) s :=
  (Protocol.Conforms.idle (P := acceptance P) ((emit_only P stepType status correlationId tenantId metadata).mono
    fun _ h => ignores_journey h)).and_ends (emit_suppressed P _ _ _ _ _)

theorem getWebhookSecret_accepts (hs : s.stage = .outside) (tenantId : UUID) :
    (acceptance P).Conforms (fun _ s' => s' = s) (getWebhookSecret P tenantId) s :=
  Protocol.Conforms.idle (P := acceptance P) ((getWebhookSecret_only P tenantId).mono
    fun _ h => ignores_tenantLookup hs h)

theorem getEventWhitelist_accepts (vcsProvider : String) :
    (acceptance P).Conforms (fun _ s' => s' = s) (getEventWhitelist vcsProvider) s :=
  Protocol.Conforms.perform trivial fun r _ => by cases r <;> rfl

/-- Writing the key of a stored row is always allowed. -/
theorem setIdempotencyCache_accepts {k : String}
    (hs : k ∈ s.known ∨ ∃ row id, s.stage = .committed row id ∧ row.prHashKey = k)
    (ttlSeconds : Nat) :
    (acceptance P).Conforms (fun r s' => s' = s ∧ Suppressed r)
      (setIdempotencyCache k ttlSeconds) s := by
  refine (Protocol.Conforms.idle (P := acceptance P) ((setIdempotencyCache_only k ttlSeconds).mono ?_)).and_ends
    (setIdempotencyCache_suppressed k ttlSeconds)
  rintro op rfl
  exact ⟨.inr ⟨k, rfl, hs⟩, fun r => by cases r <;> rfl⟩

/-! ### Looking a key up -/

/-- What a call knows after a lookup, compared with `s` before it. -/
structure CallState.After (s s' : CallState) : Prop where
  task : s'.task = s.task
  stage : s'.stage = s.stage

theorem CallState.After.isWebhook {s' : CallState} (h : s.After s') (hs : s.IsWebhook) :
    s'.IsWebhook := by
  obtain ⟨req, hreq⟩ := hs
  exact ⟨req, h.task.trans hreq⟩

theorem getIdempotencyCache_accepts (hs : s.stage = .outside) (k : String) :
    (acceptance P).Conforms (fun r s' => s.After s' ∧ ∀ v, r = .ok (some v) → k ∈ s'.known)
      (getIdempotencyCache k) s := by
  refine ⟨hs, fun r _ => ?_⟩
  rcases r with e | _ | v
  · cases e <;> exact ⟨⟨rfl, rfl⟩, by simp⟩
  · exact ⟨⟨rfl, rfl⟩, by simp⟩
  · exact ⟨⟨rfl, rfl⟩, fun _ _ => .inr rfl⟩

theorem getByPrHashKey_accepts (hs : s.stage = .outside) (k : String) :
    (acceptance P).Conforms
      (fun r s' => s.After s' ∧ s.known ⊆ s'.known ∧ (∀ i, r = .ok (some i) → k ∈ s'.known) ∧
        (r = .ok none → k ∈ s'.absent)) (getByPrHashKey P k) s := by
  refine ⟨hs, fun r _ => ?_⟩
  rcases r with e | _ | i
  · exact ⟨⟨rfl, rfl⟩, fun _ h => h, by simp, by simp⟩
  · exact ⟨⟨rfl, rfl⟩, fun _ h => h, by simp, fun _ => .inr rfl⟩
  · refine Protocol.Conforms.ofExcept_bind (r := i.modelValidate P) (fun event _ => ?_) fun e _ => ?_
    · exact ⟨⟨rfl, rfl⟩, fun _ h => .inl h, fun _ _ => .inr rfl, by simp⟩
    · exact ⟨⟨rfl, rfl⟩, fun _ h => .inl h, by simp, by simp⟩

/-- `IdempotencyChecker.check` answers what it has seen. -/
def CheckPost (k : String) (s s' : CallState) : Except Exn (Option Detection) → Prop
  | .ok (some .dbConstraint) => False
  | .ok (some _) => s.After s' ∧ k ∈ s'.known
  | .ok none => s.After s' ∧ k ∈ s'.absent
  | .error _ => s.After s'

theorem check_accepts (hs : s.stage = .outside) (k : String) :
    (acceptance P).Conforms (fun r s' => CheckPost k s s' r) (check P k) s := by
  refine (getIdempotencyCache_accepts hs k).bind ?_ fun e s₁ h => h.1
  rintro cached s₁ ⟨hafter, hknown⟩
  rcases cached with _ | v
  · refine (getByPrHashKey_accepts (hafter.stage.trans hs) k).bind ?_ ?_
    · rintro existing s₂ ⟨hafter', -, hsome, hnone⟩
      have hafter₂ : s.After s₂ :=
        ⟨hafter'.task.trans hafter.task, hafter'.stage.trans hafter.stage⟩
      rcases existing with _ | i
      · exact ⟨hafter₂, hnone rfl⟩
      · refine (setIdempotencyCache_accepts (.inl (hsome i rfl)) _).bind ?_ ?_
        · rintro _ s₃ ⟨rfl, -⟩
          exact ⟨hafter₂, hsome i rfl⟩
        · rintro e s₃ ⟨rfl, -⟩
          exact hafter₂
    · rintro e s₂ ⟨hafter', -⟩
      exact ⟨hafter'.task.trans hafter.task, hafter'.stage.trans hafter.stage⟩
  · exact ⟨hafter, hknown v rfl⟩

/-! ### Persisting -/

/-- Inside the transaction of `persist`: either both rows are inserted, or an exception
    leads to a rollback, and a unique violation means that the key is stored. -/
def InsertPost (args : NewInboundEvent) (s' : CallState) : Except Exn UUID → Prop
  | .ok outboxId => ∃ row, s'.stage = .scheduled row outboxId ∧ row.eventId = args.eventId ∧
      row.correlationId = args.correlationId ∧ row.prHashKey = args.prHashKey
  | .error exc => s'.InTx ∧ (exc = .uniqueViolationError → args.prHashKey ∈ s'.known) ∧
      ∀ msg details, exc ≠ .service .duplicateError msg details

theorem Exn.OfDatabase.ne_service {e : Exn} (h : e.OfDatabase) (cls : ServiceErrorClass)
    (msg : String) (details : List (String × String)) : e ≠ .service cls msg details := by
  rintro rfl
  rcases h with ⟨⟨⟩⟩

theorem modelValidate_error {row : InboundEvent} {e : Exn} (h : row.modelValidate P = .error e) :
    e = .pydanticValidationError "InboundEvent" := by
  unfold InboundEvent.modelValidate at h
  split at h <;> simp at h
  exact h.symm

theorem cancelPrevious_accepts (hs : s.InTx) (k : String) (v : Int) (reason : String) :
    (acceptance P).Conforms
      (fun r s' => s' = s ∧ ∀ e, r = .error e → e.OfDatabase)
      (cancelPrevious k v reason) s := by
  have hrows : ∀ ids : List UUID, (acceptance P).Conforms
      (fun r s' => s' = s ∧ ∀ e, r = .error e → e.OfDatabase)
      (Prog.forEach ids fun id => perform (.cancelRow id k v reason)) s := by
    intro ids
    induction ids with
    | nil => exact ⟨rfl, by simp⟩
    | cons id ids ih =>
      refine ⟨hs, fun r hr => ?_⟩
      rcases r with e | _
      · exact ⟨rfl, fun e' he => (Except.error.inj he) ▸ hr⟩
      · exact ih
  refine ⟨hs, fun r hr => ?_⟩
  rcases r with e | ids
  · exact ⟨rfl, fun e' he => (Except.error.inj he) ▸ hr⟩
  · exact hrows ids

theorem insertBoth_accepts (hs : s.stage = .opened) (hweb : s.IsWebhook) (args : NewInboundEvent)
    (payload headers : Json) :
    (acceptance P).Conforms (fun r s' => InsertPost args s' r)
      (do
        let _ ← insertInbound P args
        scheduleEvent P "vcs.webhook.received" args.correlationId args.prHashKey 1 payload headers
          P.settings.outboxDebounceSeconds) s := by
  -- the row of `inbound_event`, validated
  have hinsert : (acceptance P).Conforms (fun r s' =>
      (∃ event, r = .ok event ∧ ∃ row, s'.stage = .inserted row ∧
        row.modelValidate P = .ok event ∧ row.eventId = args.eventId ∧
        row.correlationId = args.correlationId ∧ row.prHashKey = args.prHashKey) ∨
      (∃ exc, r = .error exc ∧ InsertPost args s' (.error exc))) (insertInbound P args) s := by
    refine ⟨⟨hs, hweb⟩, fun r hr => ?_⟩
    rcases r with e | row
    · refine .inr ⟨e, rfl, ?_⟩
      rcases hr with hr | rfl
      · have hnext : s.next (.insertInbound args) (.error e) = s := by
          cases e <;> first | rfl | exact absurd rfl hr.ne_unique
        have hopened : (s.next (.insertInbound args) (.error e)).stage = .opened := by
          rw [hnext]; exact hs
        exact ⟨.inl hopened, fun he => absurd he hr.ne_unique, hr.ne_service _⟩
      · exact ⟨.inl hs, fun _ => .inr rfl, by simp⟩
    · have hrow : row.toNewInboundEvent = _ := hr
      refine Protocol.Conforms.mono (P := acceptance P) (Q := fun r (s' : CallState) =>
        r = row.modelValidate P ∧ s'.stage = .inserted row) ⟨rfl, rfl⟩ ?_
      rintro r s' ⟨hr, hstage⟩
      rcases hv : row.modelValidate P with e | event
      · obtain rfl := modelValidate_error hv
        exact .inr ⟨_, hr.trans hv, .inr ⟨row, hstage⟩, by simp, by simp⟩
      · exact .inl ⟨event, hr.trans hv, row, hstage, hv, congrArg (·.eventId) hrow,
          congrArg (·.correlationId) hrow, congrArg (·.prHashKey) hrow⟩
  refine hinsert.bind ?_ ?_
  · rintro event s₁ (⟨event', -, row, hstage, hvalid, hid, hcid, hkey⟩ | ⟨exc, hexc, -⟩)
    · have hintx : s₁.InTx := .inr ⟨row, hstage⟩
      refine (cancelPrevious_accepts hintx _ _ _).bind ?_ ?_
      · rintro _ s₂ ⟨rfl, -⟩
        refine ⟨⟨row, hstage, ?_, event', hvalid⟩, fun r hr => ?_⟩
        · simp [InboundEvent.identity, hcid, hkey]
        · rcases r with e | outboxId
          · exact ⟨hintx, fun he => absurd he hr.ne_unique, hr.ne_service _⟩
          · refine ⟨row, ?_, hid, hcid, hkey⟩
            simp [acceptance, CallState.next, hstage]
      · rintro e s₂ ⟨rfl, he⟩
        exact ⟨hintx, fun he' => absurd he' (he e rfl).ne_unique, (he e rfl).ne_service _⟩
    · simp at hexc
  · rintro e s₁ (⟨event', hev, -⟩ | ⟨exc, hexc, hpost⟩)
    · simp at hev
    · obtain rfl := Except.error.inj hexc
      exact hpost

/-- The transaction is over: both rows are stored, or none, or a cancellation hides
    which. -/
def CommitPost (args : NewInboundEvent) (s' : CallState) : Except Exn UUID → Prop
  | .ok outboxId => ∃ row, s'.stage = .committed row outboxId ∧ row.eventId = args.eventId ∧
      row.correlationId = args.correlationId ∧ row.prHashKey = args.prHashKey
  | .error exc => (exc = .cancelledError ∨ s'.stage = .outside) ∧
      (exc = .uniqueViolationError → args.prHashKey ∈ s'.known) ∧
      ∀ msg details, exc ≠ .service .duplicateError msg details

theorem commitPost_error {args : NewInboundEvent} {e : Exn} (he : e.OfDatabase)
    (hs : e = .cancelledError ∨ s.stage = .outside) : CommitPost args s (.error e) :=
  ⟨hs, fun h => absurd h he.ne_unique, he.ne_service _⟩

theorem persistTransaction_accepts (hs : s.stage = .outside) (hweb : s.IsWebhook)
    (args : NewInboundEvent) (payload headers : Json) :
    (acceptance P).Conforms (fun r s' => CommitPost args s' r)
      (transaction do
        let _ ← insertInbound P args
        scheduleEvent P "vcs.webhook.received" args.correlationId args.prHashKey 1 payload headers
          P.settings.outboxDebounceSeconds) s := by
  refine conforms_transaction (R := fun r s' => InsertPost args s' r) hs ?_ ?_ ?_ ?_
  · intro e he
    exact commitPost_error he (.inr hs)
  · exact insertBoth_accepts (s := { s with stage := .opened }) rfl hweb args payload headers
  · rintro outboxId s' ⟨row, hstage, hrow⟩
    have hnext : ∀ r, (s'.next .commit r).stage = s'.stage.afterCommit r := fun _ => rfl
    refine ⟨.inr ⟨row, outboxId, hstage⟩, ⟨row, ?_, hrow⟩, fun e he => ?_⟩
    · exact (hnext _).trans (by rw [hstage]; rfl)
    · refine commitPost_error he ?_
      by_cases hcancel : e = .cancelledError
      · exact .inl hcancel
      · refine .inr ((hnext _).trans ?_)
        rw [hstage]
        cases e <;> first | rfl | exact absurd rfl hcancel
  · rintro exc s' ⟨hintx, hunique, hservice⟩
    exact ⟨hintx, ⟨.inr rfl, hunique, hservice⟩, fun e he => commitPost_error he (.inr rfl)⟩

/-- The result of `persist`. -/
def PersistPost (correlationId : UUID) (prHashKey : String) (s' : CallState) :
    Except Exn (UUID × UUID) → Prop
  | .ok (eventId, outboxId) => ∃ row, s'.stage = .committed row outboxId ∧ row.eventId = eventId ∧
      row.correlationId = correlationId ∧ row.prHashKey = prHashKey
  | .error exc => (exc = .cancelledError ∨ s'.stage = .outside) ∧
      ∀ msg details, exc = .service .duplicateError msg details →
        s'.stage = .outside ∧ prHashKey ∈ s'.known

theorem persist_accepts (hs : s.stage = .outside) (hweb : s.IsWebhook) (req : Request)
    (correlationId : UUID) (prData : PullRequestData) (prHashKey : String) :
    (acceptance P).Conforms (fun r s' => PersistPost correlationId prHashKey s' r)
      (persist P req correlationId prData prHashKey) s := by
  -- an exception before the transaction
  have hbefore : ∀ e : Exn, (∀ msg details, e ≠ .service .duplicateError msg details) →
      PersistPost correlationId prHashKey s (.error e) :=
    fun e he => ⟨.inr hs, fun msg details h => absurd h (he msg details)⟩
  refine ⟨trivial, fun r hr => ?_⟩
  rcases r with e | eventId
  · exact hbefore e (hr.ne_service _)
  refine Protocol.Conforms.ofExcept_bind (r := loadsDict P req.rawPayload) ?_ ?_
  · intro rawJson _
    refine ⟨trivial, fun r hr => ?_⟩
    rcases r with e | timestamp
    · exact hbefore e (hr.ne_service _)
    refine Protocol.Conforms.bind (R := fun r (s' : CallState) =>
      PersistPost correlationId prHashKey s' (r.map fun outboxId => (eventId, outboxId))) ?_
      (fun outboxId s' h => h) (fun e s' h => h)
    refine (persistTransaction_accepts hs hweb _ _ _).handle (fun outboxId s' h => h) ?_
    rintro exc s' ⟨hstage, hunique, hservice⟩
    by_cases hexc : exc = .uniqueViolationError
    · subst hexc
      have hout : s'.stage = .outside := by simpa using hstage
      exact ⟨.inr hout, fun _ _ _ => ⟨hout, hunique rfl⟩⟩
    · have hpost : PersistPost correlationId prHashKey s' (.error exc) :=
        ⟨hstage, fun msg details h => absurd h (hservice msg details)⟩
      cases exc <;> first | exact hpost | exact absurd rfl hexc
  · intro e he
    refine hbefore e fun msg details => ?_
    unfold loadsDict at he
    split at he <;> simp at he <;> simp [← he]

/-! ### `process_webhook` -/

/-- The result of `process_webhook` and what the call has stored. -/
def WebhookPost (s' : CallState) : Except Exn WebhookResult → Prop
  | .ok (.accepted correlationId eventId outboxId) => ∃ row, s'.stage = .committed row outboxId ∧
      row.eventId = eventId ∧ row.correlationId = correlationId
  | .ok (.duplicate _ prHashKey _) => s'.stage = .outside ∧ prHashKey ∈ s'.known
  | .ok (.ignored _ _) => s'.stage = .outside
  | .error exc => exc = .cancelledError ∨ s'.stage = .outside

theorem persistStep_accepts (hs : s.stage = .outside) (hweb : s.IsWebhook) (req : Request)
    (correlationId : UUID) (prData : PullRequestData) (prHashKey : String) :
    (acceptance P).Conforms (fun r s' => WebhookPost s' r)
      (persistStep P req correlationId prData prHashKey) s := by
  refine (persist_accepts hs hweb req correlationId prData prHashKey).andThen ?_
  rintro (exc | ⟨eventId, outboxId⟩) s₁ hpost
  · obtain ⟨hstage, hduplicate⟩ := hpost
    have hraise : WebhookPost s₁ (.error exc) := hstage
    rcases exc with ⟨cls, msg, details⟩
    · cases cls with
      | duplicateError => exact hduplicate msg details rfl
      | _ => exact hraise
    all_goals exact hraise
  · obtain ⟨row, hstage, hid, hcid, hkey⟩ := hpost
    have hknown : prHashKey ∈ s₁.known ∨ ∃ row id, s₁.stage = .committed row id ∧
        row.prHashKey = prHashKey := .inr ⟨row, outboxId, hstage, hkey⟩
    refine (setIdempotencyCache_accepts hknown _).bind ?_ ?_
    · rintro _ s₂ ⟨rfl, -⟩
      refine (emit_accepts _ _ _ _ _).bind ?_ ?_
      · rintro _ s₃ ⟨rfl, -⟩
        exact ⟨row, hstage, hid, hcid⟩
      · rintro e s₃ ⟨rfl, he⟩
        exact .inl (he e rfl)
    · rintro e s₂ ⟨rfl, he⟩
      exact .inl (he e rfl)

theorem idempotencyStep_accepts (hs : s.stage = .outside) (hweb : s.IsWebhook) (req : Request)
    (correlationId : UUID) (prData : PullRequestData) (prHashKey : String) :
    (acceptance P).Conforms (fun r s' => WebhookPost s' r)
      (idempotencyStep P req correlationId prData prHashKey) s := by
  refine (check_accepts hs prHashKey).bind ?_ fun e s₁ h => .inr (h.stage.trans hs)
  intro detection s₁ hcheck
  rcases detection with _ | detection
  · obtain ⟨hafter, -⟩ := hcheck
    refine (emit_accepts _ _ _ _ _).bind ?_ ?_
    · rintro _ s₂ ⟨rfl, -⟩
      exact persistStep_accepts (hafter.stage.trans hs) (hafter.isWebhook hweb) req correlationId
        prData prHashKey
    · rintro e s₂ ⟨rfl, he⟩
      exact .inl (he e rfl)
  · have hseen : s.After s₁ ∧ prHashKey ∈ s₁.known := by
      cases detection with
      | redisCache => exact hcheck
      | dbLookup => exact hcheck
      | dbConstraint => exact hcheck.elim
    refine (emit_accepts _ _ _ _ _).bind ?_ ?_
    · rintro _ s₂ ⟨rfl, -⟩
      exact ⟨hseen.1.stage.trans hs, hseen.2⟩
    · rintro e s₂ ⟨rfl, he⟩
      exact .inl (he e rfl)

theorem parseStep_accepts (hs : s.stage = .outside) (hweb : s.IsWebhook) (req : Request)
    (correlationId : UUID) (eventType : String) (whitelist : List VcsEventWhitelist) :
    (acceptance P).Conforms (fun r s' => WebhookPost s' r)
      (parseStep P req correlationId eventType whitelist) s := by
  refine Protocol.Conforms.ofExcept_bind (r := parsePayload P req.vcsProvider req.rawPayload) ?_
    fun e _ => .inr hs
  intro prData _
  by_cases hallowed : isEventAllowed eventType prData.action whitelist = true
  · simp only [hallowed, Bool.not_true, Bool.false_eq_true, if_false]
    exact idempotencyStep_accepts hs hweb req correlationId prData _
  · simp only [hallowed, Bool.not_false, if_true]
    refine (emit_accepts _ _ _ _ _).bind ?_ ?_
    · rintro _ s₁ ⟨rfl, -⟩
      exact hs
    · rintro e s₁ ⟨rfl, he⟩
      exact .inl (he e rfl)

theorem validateSignature_accepts (vcsProvider : String) (rawPayload : ByteArray)
    (headers : Headers) (webhookSecret : String) (correlationId tenantId : UUID) :
    (acceptance P).Conforms (fun _ s' => s' = s)
      (validateSignature P vcsProvider rawPayload headers webhookSecret correlationId tenantId) s := by
  refine Protocol.Conforms.ofExcept_bind
    (r := signatureValid P vcsProvider rawPayload headers webhookSecret) ?_ fun _ _ => rfl
  intro valid _
  refine (emit_accepts _ _ _ _ _).bind ?_ fun _ s' h => h.1
  rintro _ s' ⟨rfl, -⟩
  cases valid <;> exact rfl

theorem processWebhook_accepts (hs : s.stage = .outside) (hweb : s.IsWebhook) (req : Request) :
    (acceptance P).Conforms (fun r s' => WebhookPost s' r) (processWebhook P req) s := by
  refine ⟨trivial, fun r _ => ?_⟩
  have hnext : (acceptance P).next s .uuid4 r = s := by cases r <;> rfl
  rw [hnext]
  rcases r with e | correlationId
  · exact .inr hs
  change (acceptance P).Conforms _ (ite _ _ _) s
  split
  · exact .inr hs
  refine (getWebhookSecret_accepts hs req.tenantId).bind ?_ (by rintro e s₁ rfl; exact .inr hs)
  rintro webhookSecret s₁ rfl
  refine (getEventWhitelist_accepts req.vcsProvider).bind ?_ (by rintro e s₁ rfl; exact .inr hs)
  rintro whitelist s₂ rfl
  refine (validateSignature_accepts _ _ _ _ _ _).bind ?_ (by rintro e s₁ rfl; exact .inr hs)
  rintro _ s₃ rfl
  refine (emit_accepts _ _ _ _ _).bind ?_ (by rintro e s₁ ⟨rfl, -⟩; exact .inr hs)
  rintro _ s₄ ⟨rfl, -⟩
  exact parseStep_accepts hs hweb req correlationId _ _

/-! ### The other tasks -/

/-- `check_duplicate` answers what it has seen. -/
def DuplicatePost (prHashKey : String) (s' : CallState) : Except Exn DuplicateAnswer → Prop
  | .ok answer => answer.prHashKey = prHashKey ∧
      (answer.isDuplicate = true → prHashKey ∈ s'.known) ∧
      (answer.isDuplicate = false → prHashKey ∈ s'.absent)
  | .error _ => True

theorem checkDuplicate_accepts (hs : s.stage = .outside) (prHashKey : String) :
    (acceptance P).Conforms (fun r s' => DuplicatePost prHashKey s' r)
      (checkDuplicate P prHashKey) s := by
  refine (check_accepts hs prHashKey).bind ?_ fun e s₁ _ => trivial
  intro detection s₁ hcheck
  rcases detection with _ | detection
  · exact ⟨rfl, by simp, fun _ => hcheck.2⟩
  cases detection with
  | redisCache => exact ⟨rfl, fun _ => hcheck.2, by simp⟩
  | dbConstraint => exact hcheck.elim
  | dbLookup =>
    refine (getByPrHashKey_accepts (hcheck.1.stage.trans hs) prHashKey).bind ?_
      fun e s₂ _ => trivial
    rintro event s₂ ⟨-, hmono, -⟩
    exact ⟨rfl, fun _ => hmono hcheck.2, by simp⟩

theorem checkStale_accepts (hs : s.stage = .outside) (prHashKey : String) (prVersion : Int) :
    (acceptance P).Conforms (fun _ _ => True) (checkStale P prHashKey prVersion) s := by
  refine (getByPrHashKey_accepts hs prHashKey).bind ?_ fun _ _ _ => trivial
  rintro event s₁ -
  rcases event with _ | event
  · exact trivial
  · change (acceptance P).Conforms _ (ite _ _ _) s₁
    split <;> exact trivial

theorem ignores_inBatch (hs : s.stage = .opened) {op : Op} (h : op.InBatch) :
    s.Ignores P op := by
  cases h <;> first
    | exact ⟨trivial, fun r => by cases r <;> rfl⟩
    | exact ⟨hs, fun r => by cases r <;> rfl⟩

theorem ignores_reset {op : Op} (h : op.Reset) : s.Ignores P op := by
  cases h <;> exact ⟨trivial, fun r => by cases r <;> rfl⟩

/-- A transaction that inserts nothing leaves the call outside any transaction. -/
theorem batch_accepts (hs : s.stage = .outside) {α : Type} {body : Coroutine α}
    (hbody : body.Only Op.InBatch) :
    (acceptance P).Conforms (fun _ s' => s'.stage = .outside) (transaction body) s := by
  refine conforms_transaction (R := fun _ (s' : CallState) => s'.stage = .opened) hs
    (fun e _ => hs) ?_ ?_ ?_
  · refine Protocol.Conforms.mono (Protocol.Conforms.idle (P := acceptance P)
      (s := { s with stage := .opened }) (hbody.mono fun _ h => ignores_inBatch rfl h)) ?_
    rintro r s' rfl
    rfl
  · intro a s' hs'
    have hcommit : ∀ r, ((acceptance P).next s' .commit r).stage = .outside := by
      intro r
      change s'.stage.afterCommit r = .outside
      rw [hs']; rfl
    exact ⟨.inl hs', hcommit _, fun e _ => hcommit _⟩
  · intro exc s' hs'
    exact ⟨.inl hs', rfl, fun e _ => rfl⟩

theorem runOnce_accepts (hs : s.stage = .outside) (self : Publisher) :
    (acceptance P).Conforms (fun _ _ => True) (runOnce P self) s := by
  refine (batch_accepts hs (batchBody_only P self)).andThen fun r s' _ => ?_
  have hafter := (afterBatch_only self r).mono fun op h => ignores_reset (P := P) (s := s') h
  exact (Protocol.Conforms.idle (P := acceptance P) hafter).mono fun _ _ _ => trivial

/-- The results of the tasks and what the calls know. -/
def TaskPost : (k : Task) → Except Exn k.Result → CallState → Prop
  | .webhook _, r, s' => WebhookPost s' r
  | .checkDuplicate k, r, s' => DuplicatePost k s' r
  | .checkStale _ _, _, _ | .scheduleEvent _, _, _ | .publisher _, _, _ => True

/-- Every task of the service starts outside any transaction and conforms. -/
theorem task_accepts (k : Task) (hk : serviceTask k) :
    (acceptance P).Conforms (TaskPost k) (k.prog P) { task := some k } := by
  have hs : ({ task := some k } : CallState).stage = .outside := rfl
  cases k with
  | webhook req => exact processWebhook_accepts hs ⟨req, rfl⟩ req
  | checkDuplicate key => exact checkDuplicate_accepts hs key
  | checkStale key v => exact checkStale_accepts hs key v
  | scheduleEvent args => exact hk.elim
  | publisher self => exact runOnce_accepts hs self

end

/-- The discipline behind the results on acceptance. -/
def accepting (P : Platform) : (gateway P).Discipline (starts serviceTask) where
  P := acceptance P
  Inv := Accounted P
  idle := { task := none }
  start k := { task := some k }
  onKill := CallState.vanish
  post := TaskPost
  conforms _ k hk := task_accepts k hk
  spawn _ h ht := h.spawn ht _
  exec _ h ht hallow he := ⟨h.sound.answers he, h.exec (by simp [ht]) hallow he⟩
  env _ h := h.env _
  kill _ h ht := h.kill (by simp [ht])

theorem accounted_initial (P : Platform) (tenants : UUID → Option Tenant)
    (whitelist : List VcsEventWhitelist) :
    Accounted P (World.initial tenants whitelist) (fun _ => { task := none }) fun _ => none where
  sound := World.Sound.initial tenants whitelist
  task _ := rfl
  idle _ _ := rfl
  session _ := trivial
  webhook _ := .inl rfl
  redis _ _ h := by simp [World.initial] at h
  known _ _ h := by simp at h
  absent _ _ h := by simp at h
  wal _ h := by simp [World.initial] at h
  stored _ _ _ h := by simp at h
  once := List.Pairwise.nil

/-- **The invariant of acceptance holds in every reachable state.** -/
theorem reachable_accounted {P : Platform} {c : GatewayConfig} (h : Reachable P serviceTask c) :
    (accepting P).Holds c := by
  obtain ⟨tenants, whitelist, ls, hls, hrun⟩ := h
  exact (accepting P).holds_run (accounted_initial P tenants whitelist) hls hrun

end VcsGateway
