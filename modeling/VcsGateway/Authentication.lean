import VcsGateway.Origins
import VcsGateway.Delivery
import VcsGateway.Codec

/-!
# Who gets into the queue

Every message on the webhook exchange stems from a call whose request had verified and
whose event was whitelisted before the call wrote anything.
-/

namespace VcsGateway

open Async

variable {P : Platform}

/-! ### What a batch publishes -/

section Batch

variable {self : Publisher} {steps : List GatewayStep} {rows : List OutboxEvent}

/-- The rows of a batch are the ones that it has locked. -/
theorem lockRows_locked {ids : List UUID} {limit : Nat}
    (h : (lockRows limit ids).Follows steps (.ok rows)) {row : OutboxEvent} (hrow : row ∈ rows) :
    ∃ id, ⟨.lockDue id, .ok (some row)⟩ ∈ steps := by
  induction ids generalizing limit steps rows with
  | nil =>
    have hnil : rows = [] := by
      cases limit <;> exact Except.ok.inj (Prog.follows_ret.mp h).2
    simp [hnil] at hrow
  | cons id ids ih =>
    cases limit with
    | zero =>
      obtain ⟨-, heq⟩ := Prog.follows_ret.mp h
      obtain rfl := Except.ok.inj heq
      simp at hrow
    | succ limit =>
      obtain ⟨first, rest, found, rfl, hfirst, hrest⟩ | ⟨e, heq, -⟩ := Prog.follows_bind.mp h
      swap
      · simp at heq
      obtain rfl := Prog.follows_perform.mp hfirst
      rcases found with _ | row'
      · obtain ⟨id', hid'⟩ := ih hrest hrow
        exact ⟨id', List.mem_append_right _ hid'⟩
      · obtain ⟨more, last, rows', rfl, hmore, hlast⟩ | ⟨e, heq, -⟩ := Prog.follows_bind.mp hrest
        swap
        · simp at heq
        obtain ⟨rfl, heq⟩ := Prog.follows_ret.mp hlast
        obtain rfl := Except.ok.inj heq
        rcases List.mem_cons.mp hrow with rfl | hrow
        · exact ⟨id, by simp⟩
        · obtain ⟨id', hid'⟩ := ih hmore hrow
          exact ⟨id', by simp [hid']⟩

theorem selectDue_locked {limit : Nat} (h : (selectDue limit).Follows steps (.ok rows))
    {row : OutboxEvent} (hrow : row ∈ rows) : ∃ id, ⟨.lockDue id, .ok (some row)⟩ ∈ steps := by
  obtain ⟨first, rest, ids, rfl, -, hrest⟩ | ⟨e, heq, -⟩ := Prog.follows_bind.mp h
  swap
  · simp at heq
  obtain ⟨id, hid⟩ := lockRows_locked hrest hrow
  exact ⟨id, List.mem_append_right _ hid⟩

/-- The operation publishes nothing but the message of the row. -/
def Op.Sends (P : Platform) (row : OutboxEvent) : Op → Prop
  | .publish _ m key => MessageOf P row m key
  | _ => True

theorem processRow_sends (exchange : Exchange) (row : OutboxEvent) :
    (processRow P self exchange row).Only (Op.Sends P row) := by
  have hpublish : (publishRow P exchange row).Only (Op.Sends P row) := by
    unfold publishRow
    rcases hheaders : rowHeaders P row with e | headers
    · exact trivial
    rcases hbody : rowPayload P row with e | body
    · exact trivial
    change (perform (.publish exchange ⟨body, "application/json", headers, some row.outboxId⟩
      row.eventType) >>= _ : Coroutine Unit).Only _
    refine Prog.Only.bind (Prog.only_perform.mpr ?_) fun _ => Prog.only_perform.mpr trivial
    exact ⟨hbody, hheaders, rfl, rfl, rfl⟩
  have hmark : ∀ exc, (markFailure P row exc).Only (Op.Sends P row) := by
    intro exc
    unfold markFailure
    split
    · exact Prog.only_perform.mpr trivial
    · exact Prog.Only.bind (Prog.only_perform.mpr trivial) fun _ => Prog.only_perform.mpr trivial
  have hrecord : ∀ exc, (recordFailure P self row exc).Only (Op.Sends P row) := fun exc =>
    (hmark exc).bind fun _ => Prog.Only.bind (Prog.only_perform.mpr trivial) fun _ =>
      Prog.only_perform.mpr trivial
  exact nestedTransaction_only trivial trivial trivial (exceptException_only hpublish hrecord)

/-- What a batch publishes is the message of a row that it has locked. -/
theorem batchBody_sends {ex : Exchange} {m : Message} {key : String}
    (h : (batchBody P self).Awaits steps (.publish ex m key)) :
    ∃ id row, ⟨.lockDue id, .ok (some row)⟩ ∈ steps ∧ MessageOf P row m key := by
  obtain hselect | ⟨selecting, rest, rows, rfl, hselecting, hrest⟩ := Prog.Awaits.bind h
  · have hop := (selectDue_selects self.batchSize).awaits hselect
    cases hop
  rcases rows with _ | ⟨first, rows⟩
  · exact absurd hrest Prog.Awaits.not_ret
  obtain hget | ⟨getting, delivering, exchange, rfl, -, hdelivering⟩ := Prog.Awaits.bind hrest
  · have hop := (ensureExchange_acquires self).awaits hget
    cases hop
  obtain ⟨row, hrow, later, hlater⟩ := Prog.Awaits.forEach hdelivering
  obtain ⟨id, hid⟩ := selectDue_locked hselecting hrow
  exact ⟨id, row, List.mem_append_left _ hid, (processRow_sends exchange row).awaits hlater⟩

theorem runOnce_sends {ex : Exchange} {m : Message} {key : String}
    (h : (runOnce P self).Awaits steps (.publish ex m key)) :
    ∃ id row, ⟨.lockDue id, .ok (some row)⟩ ∈ steps ∧ MessageOf P row m key := by
  obtain hprocess | ⟨first, rest, r, -, -, hrest⟩ := Prog.Awaits.andThen h
  swap
  · have hop := (afterBatch_only self r).awaits hrest
    cases hop
  obtain hbegin | ⟨first, rest, u, rfl, -, hrest⟩ := Prog.Awaits.bind hprocess
  · simpa using hbegin.perform.2
  obtain hbody | ⟨inner, last, r, -, -, hlast⟩ := Prog.Awaits.andThen hrest
  · obtain ⟨id, row, hid, hm⟩ := batchBody_sends hbody
    exact ⟨id, row, List.mem_append_right _ hid, hm⟩
  · -- `COMMIT` and `ROLLBACK` publish nothing
    have hend : ∀ (op : Op) (r : op.Ret → Coroutine Unit), (∀ a, ∃ r', r a = .ret r') →
        (perform op >>= r).Awaits last (.publish ex m key) → op = .publish ex m key := by
      intro op r hr hawaits
      obtain hop | ⟨_, _, a, -, -, hrest⟩ := Prog.Awaits.bind hawaits
      · exact hop.perform.2.symm
      · obtain ⟨r', hr'⟩ := hr a
        rw [hr'] at hrest
        exact absurd hrest Prog.Awaits.not_ret
    cases r with
    | ok a => simpa using hend .commit _ (fun _ => ⟨.ok a, rfl⟩) hlast
    | error e => simpa using hend .rollback _ (fun _ => ⟨.error e, rfl⟩) hlast

end Batch

/-! ### What the other tasks publish -/

def Op.isPublish : Op → Bool
  | .publish _ _ _ => true
  | _ => false

/-- The operation publishes nothing, or on the journey exchange, which it has got before. -/
def OnJourney (P : Platform) (past : List GatewayStep) : Op → Prop
  | .publish ex _ _ =>
    ∃ ch, (⟨.getExchange ch P.settings.rabbitmqExchangeJourney, .ok ex⟩ : GatewayStep) ∈ past
  | _ => True

theorem OnJourney.of_not_publish {past : List GatewayStep} {op : Op} (h : op.isPublish = false) :
    OnJourney P past op := by
  cases op with
  | publish ex m key => simp [Op.isPublish] at h
  | _ => exact trivial

theorem OnJourney.append (pre past : List GatewayStep) (op : Op) (h : OnJourney P past op) :
    OnJourney P (pre ++ past) op := by
  cases op with
  | publish ex m key =>
    obtain ⟨ch, hch⟩ := h
    exact ⟨ch, List.mem_append_right _ hch⟩
  | _ => exact trivial

section Journey

variable {α : Type}

theorem onJourney_of_silent {p : Coroutine α} (hp : p.Only fun op => op.isPublish = false) :
    p.Upholds (OnJourney P) :=
  hp.upholds fun _ _ h => .of_not_publish h

theorem exceptException_onJourney {p : Coroutine α} {h : Exn → Coroutine α}
    (hp : p.Upholds (OnJourney P)) (hh : ∀ e, (h e).Upholds (OnJourney P)) :
    (exceptException p h).Upholds (OnJourney P) := by
  refine hp.andThen OnJourney.append fun r => ?_
  rcases r with e | a
  · cases e with
    | cancelledError => exact .ret _
    | _ => exact hh _
  · exact .ret _

theorem basePublish_onJourney (key : String) (payload : Json) (correlationId : UUID) :
    (basePublish P P.settings.rabbitmqExchangeJourney key payload correlationId).Upholds
      (OnJourney P) := by
  refine Prog.Upholds.bind OnJourney.append ?_ fun channel => ?_
  · exact onJourney_of_silent (Prog.only_perform.mpr rfl)
  refine Prog.Upholds.andThen OnJourney.append ?_ fun r => ?_
  · intro past op h
    obtain hget | ⟨first, rest, ex, rfl, hfirst, hpublish⟩ := Prog.Awaits.bind h
    · obtain ⟨-, rfl⟩ := hget.perform
      exact trivial
    · obtain rfl := Prog.follows_perform.mp hfirst
      obtain ⟨rfl, rfl⟩ := hpublish.perform
      exact ⟨channel, by simp⟩
  · refine onJourney_of_silent (Prog.Only.andThen (Prog.only_perform.mpr rfl) fun r' => ?_)
    cases r' <;> exact trivial

theorem emit_onJourney (stepType : JourneyStepType) (status : JourneyStepStatus)
    (correlationId tenantId : UUID) (metadata : List (String × Json)) :
    (emit P stepType status correlationId tenantId metadata).Upholds (OnJourney P) := by
  refine exceptException_onJourney ?_ fun _ => .ret _
  refine Prog.Upholds.bind OnJourney.append ?_ fun eventId => ?_
  · exact onJourney_of_silent (Prog.only_perform.mpr rfl)
  refine Prog.Upholds.bind OnJourney.append ?_ fun timestamp => ?_
  · exact onJourney_of_silent (Prog.only_perform.mpr rfl)
  exact basePublish_onJourney _ _ _

theorem getByPrHashKey_silent (prHashKey : String) :
    (getByPrHashKey P prHashKey).Only fun op => op.isPublish = false :=
  (getByPrHashKey_only P prHashKey).mono fun op h => by rw [h]; rfl

theorem check_silent (prHashKey : String) :
    (check P prHashKey).Only fun op => op.isPublish = false := by
  have hget : (getIdempotencyCache prHashKey).Only fun op => op.isPublish = false :=
    (getIdempotencyCache_only prHashKey).mono fun op h => by rw [h]; rfl
  refine hget.bind fun cached => ?_
  rcases cached with _ | cached
  · refine (getByPrHashKey_silent prHashKey).bind fun existing => ?_
    rcases existing with _ | existing
    · exact trivial
    · have hset : (setIdempotencyCache prHashKey P.settings.redisIdempotencyTtlSeconds).Only
          fun op => op.isPublish = false :=
        (setIdempotencyCache_only prHashKey _).mono fun op h => by rw [h]; rfl
      exact hset.bind fun _ => trivial
  · exact trivial

theorem persist_silent (req : Request) (correlationId : UUID) (prData : PullRequestData)
    (prHashKey : String) :
    (persist P req correlationId prData prHashKey).Only fun op => op.isPublish = false := by
  refine Prog.Only.bind (Prog.only_perform.mpr rfl) fun eventId => ?_
  refine Prog.Only.bind (p := Prog.ofExcept _) trivial fun rawJson => ?_
  refine Prog.Only.bind (Prog.only_perform.mpr rfl) fun timestamp => ?_
  refine Prog.Only.bind (Prog.Only.handle ?_ ?_) fun _ => trivial
  · refine transaction_only rfl rfl rfl ?_
    have hinbound : (insertInbound P (inboundArgs req correlationId eventId prData prHashKey
        rawJson)).Only fun op => op.isPublish = false :=
      Prog.Only.bind (Prog.only_perform.mpr rfl) fun _ => trivial
    refine hinbound.bind fun _ => Prog.Only.bind ?_ fun _ => Prog.only_perform.mpr rfl
    exact (cancelPrevious_only _ _ _).mono fun op h => by cases h <;> rfl
  · intro e
    cases e <;> exact trivial

theorem persistStep_onJourney (req : Request) (correlationId : UUID) (prData : PullRequestData)
    (prHashKey : String) :
    (persistStep P req correlationId prData prHashKey).Upholds (OnJourney P) := by
  refine (onJourney_of_silent (persist_silent req correlationId prData prHashKey)).andThen
    OnJourney.append fun r => ?_
  rcases r with exc | ⟨eventId, outboxId⟩
  · rcases exc with ⟨cls, msg, details⟩
    · cases cls <;> exact .ret _
    all_goals exact .ret _
  · refine Prog.Upholds.bind OnJourney.append ?_ fun _ => ?_
    · exact onJourney_of_silent ((setIdempotencyCache_only prHashKey _).mono fun op h => by
        rw [h]; rfl)
    · exact (emit_onJourney _ _ _ _ _).bind OnJourney.append fun _ => .ret _

theorem idempotencyStep_onJourney (req : Request) (correlationId : UUID)
    (prData : PullRequestData) (prHashKey : String) :
    (idempotencyStep P req correlationId prData prHashKey).Upholds (OnJourney P) := by
  refine (onJourney_of_silent (check_silent prHashKey)).bind OnJourney.append fun detection => ?_
  rcases detection with _ | detection
  · exact (emit_onJourney _ _ _ _ _).bind OnJourney.append fun _ =>
      persistStep_onJourney req correlationId prData prHashKey
  · exact (emit_onJourney _ _ _ _ _).bind OnJourney.append fun _ => .ret _

theorem processWebhook_onJourney (req : Request) :
    (processWebhook P req).Upholds (OnJourney P) := by
  have hofExcept : ∀ {β γ : Type} {x : Except Exn β} {f : β → Coroutine γ},
      (∀ a, (f a).Upholds (OnJourney P)) → (Prog.ofExcept x >>= f).Upholds (OnJourney P) :=
    fun hf => Prog.Upholds.bind OnJourney.append (.ret _) hf
  refine Prog.Upholds.bind OnJourney.append ?_ fun correlationId => ?_
  · exact onJourney_of_silent (Prog.only_perform.mpr rfl)
  split
  · exact .ret _
  refine Prog.Upholds.bind OnJourney.append ?_ fun secret => ?_
  · exact onJourney_of_silent ((getWebhookSecret_only P _).mono fun op h => by cases h <;> rfl)
  refine Prog.Upholds.bind OnJourney.append ?_ fun whitelist => ?_
  · exact onJourney_of_silent (Prog.only_perform.mpr rfl)
  refine Prog.Upholds.bind OnJourney.append ?_ fun _ => ?_
  · refine hofExcept fun valid => ?_
    refine (emit_onJourney _ _ _ _ _).bind OnJourney.append fun _ => ?_
    cases valid <;> exact .ret _
  refine (emit_onJourney _ _ _ _ _).bind OnJourney.append fun _ => ?_
  refine hofExcept fun prData => ?_
  split
  · exact (emit_onJourney _ _ _ _ _).bind OnJourney.append fun _ => .ret _
  · exact idempotencyStep_onJourney req correlationId prData _

/-- Only a publisher publishes on another exchange than that of the journey events. -/
theorem publish_logged {c : GatewayConfig} (h : Reachable P serviceTask c)
    {pre post : List (Nat × GatewayStep)} {t : Nat} {ex : Exchange} {m : Message} {key : String}
    {r : Except Exn Unit} (hlog : c.world.log = pre ++ (t, ⟨.publish ex m key, r⟩) :: post) :
    (∃ req, c.taskOf t = some (.webhook req)) ∧ ex.name = P.settings.rabbitmqExchangeJourney ∨
      ∃ self, c.taskOf t = some (.publisher self) ∧
        (runOnce P self).Awaits (historyOf t pre) (.publish ex m key) := by
  obtain ⟨k, hk, hawaits⟩ := reachable_awaited h pre t _ post hlog
  cases k with
  | publisher self => exact .inr ⟨self, hk, hawaits⟩
  | webhook req =>
    refine .inl ⟨⟨req, hk⟩, ?_⟩
    obtain ⟨ch, hch⟩ := processWebhook_onJourney req _ _ hawaits
    have hstep : (⟨.getExchange ch P.settings.rabbitmqExchangeJourney, .ok ex⟩ : GatewayStep) ∈
        stepsOf c t := by
      rw [mem_stepsOf, hlog]
      exact List.mem_append_left _ (mem_historyOf.mp hch)
    obtain ⟨c₁, ch', w₂, -, he⟩ := reachable_happened h hstep
    obtain ⟨w₁, hop, -⟩ := exec_eq_some he
    rcases awaited_eq_some hop with ⟨e, heq, -⟩ | heq
    · simp at heq
    · simp only [Option.some.injEq, Prod.mk.injEq, Except.ok.injEq] at heq
      rw [← heq.1]
  | checkDuplicate k =>
    exfalso
    have hsilent : (checkDuplicate P k).Only fun op => op.isPublish = false := by
      refine (check_silent k).bind fun detection => ?_
      rcases detection with _ | (_ | _ | _)
      · exact trivial
      · exact trivial
      · exact (getByPrHashKey_silent k).bind fun _ => trivial
      · exact trivial
    have hnone := hsilent.awaits hawaits
    simp [Op.isPublish] at hnone
  | checkStale k v =>
    exfalso
    have hsilent : (checkStale P k v).Only fun op => op.isPublish = false := by
      refine (getByPrHashKey_silent k).bind fun event => ?_
      rcases event with _ | event
      · exact trivial
      · by_cases hnewer : event.prVersion > v
        · simp only [if_pos hnewer]; exact trivial
        · simp only [if_neg hnewer]; exact trivial
    have hnone := hsilent.awaits hawaits
    simp [Op.isPublish] at hnone
  | scheduleEvent args => exact (reachable_allowed h hk).elim

end Journey

/-! ### What a call leaves alone -/

/-- The operation leaves the tables and the idempotency cache as they are. -/
def Op.Leaves (P : Platform) (op : Op) : Prop :=
  ∀ t ch w r w', exec P t op ch w = some (r, w') →
    w'.db = w.db ∧ ∀ k, w'.redis (idempotencyKey k) = w.redis (idempotencyKey k)

theorem Op.Leaves.of_frame {op : Op} (hquiet : op.quiet = true)
    (hredis : ∀ key ttl value, op ≠ .redisSetex key ttl value) : op.Leaves P := by
  intro t ch w r w' he
  obtain ⟨w₁, h₁, rfl⟩ := exec_eq_some he
  have hframe := execOp_frame h₁
  exact ⟨hframe.db hquiet, fun k => congrFun (hframe.redis hredis) _⟩

theorem Op.Preliminary.leaves {req : Request} {op : Op} (h : op.Preliminary req) : op.Leaves P := by
  cases h with
  | journey h => cases h <;> exact .of_frame rfl (by simp)
  | whitelist => exact .of_frame rfl (by simp)
  | lookup h =>
    cases h with
    | get => exact .of_frame rfl (by simp)
    | select => exact .of_frame rfl (by simp)
    | set v =>
      -- the write goes to another key
      intro t ch w r w' he
      obtain ⟨w₁, h₁, rfl⟩ := exec_eq_some he
      refine ⟨(execOp_frame h₁).db rfl, fun k => ?_⟩
      rcases execSetex_eq_some h₁ with ⟨e, -, -, rfl⟩ | ⟨-, rfl⟩
      · rfl
      · change Function.update w.redis (tenantConfigKey req.tenantId)
          (some (v, w.clock + seconds 300)) (idempotencyKey k) = _
        rw [Function.update_of_ne (idempotencyKey_ne_tenantConfigKey k req.tenantId)]

/-! ### Every run -/

/-- The request verifies under the secret of its tenant, and the whitelist of its provider
    has an active row for its event and action. -/
def Authenticated (P : Platform) (req : Request) (past : List GatewayStep) : Prop :=
  ∃ correlationId secret whitelist rest prData,
    LookedUp P req past correlationId secret whitelist rest ∧ Verifies P req secret ∧
    parsePayload P req.vcsProvider req.rawPayload = .ok prData ∧
    ∃ w ∈ whitelist, w.vcsProvider = req.vcsProvider ∧ w.isActive = true ∧
      w.eventType = extractEventType req.headers ∧ w.eventAction = prData.action

/-- Only authenticated, whitelisted webhooks reach the tables and the queue. -/
structure OnlyAuthenticated (P : Platform) (c : GatewayConfig) : Prop where
  /-- A message of a publisher, or on another exchange than that of the journey events. -/
  published : ∀ pre post t ex m key r, c.world.log = pre ++ (t, ⟨.publish ex m key, r⟩) :: post →
    (∃ self, c.taskOf t = some (.publisher self)) ∨ ex.name ≠ P.settings.rabbitmqExchangeJourney →
    ∃ earlier later t' req correlationId eventId timestamp prData rawJson outboxId,
      pre = earlier ++ (t', ⟨.insertEvent (outboxArgs P req correlationId eventId timestamp prData
        (requestKey P req prData) rawJson), .ok outboxId⟩) :: later ∧
      m.source = some outboxId ∧ c.taskOf t' = some (.webhook req) ∧
      Authenticated P req (historyOf t' earlier) ∧
      ∀ same, Json.Equality same → P.KeepsJson same → ∃ j, P.loads m.body = some j ∧
        Tells same j (inboundArgs req correlationId eventId prData (requestKey P req prData) rawJson)
  /-- A step of a call that may change the tables or the cache. -/
  written : ∀ pre post t req step, c.world.log = pre ++ (t, step) :: post →
    c.taskOf t = some (.webhook req) → step.op.Leaves P ∨ Authenticated P req (historyOf t pre)
  rejected : ∀ t req correlationId secret whitelist rest, c.taskOf t = some (.webhook req) →
    LookedUp P req (stepsOf c t) correlationId secret whitelist rest → ¬Verifies P req secret →
    ∀ step ∈ stepsOf c t, step.op.Leaves P

section Run

variable {c : GatewayConfig}

theorem isEventAllowed_eq_true {eventType action : String} {whitelist : List VcsEventWhitelist}
    (h : isEventAllowed eventType action whitelist = true) :
    ∃ w ∈ whitelist, w.eventType = eventType ∧ w.eventAction = action := by
  obtain ⟨w, hw, hboth⟩ := List.any_eq_true.mp h
  simp only [Bool.and_eq_true, decide_eq_true_eq] at hboth
  exact ⟨w, hw, hboth.1, hboth.2⟩

/-- The whitelist that let the call through was the active one of its provider. -/
theorem Admitted.authenticated (h : Reachable P serviceTask c) {req : Request}
    {past : List GatewayStep} {correlationId : UUID} {prData : PullRequestData} {t : Nat}
    (hadmitted : Admitted P req past correlationId prData) (hpast : past ⊆ stepsOf c t) :
    Authenticated P req past := by
  obtain ⟨secret, whitelist, rest, hlook, hver, hparse, hallowed⟩ := hadmitted
  obtain ⟨w, hw, htype, haction⟩ := isEventAllowed_eq_true hallowed
  obtain ⟨lookup, hlookup, hsteps⟩ := hlook
  have hread : (⟨.selectWhitelist req.vcsProvider, .ok whitelist⟩ : GatewayStep) ∈ stepsOf c t := by
    apply hpast
    simp [hsteps]
  obtain ⟨hprovider, hactive⟩ := reachable_answers h hread w hw
  exact ⟨correlationId, secret, whitelist, rest, prData, ⟨lookup, hlookup, hsteps⟩, hver, hparse, w,
    hw, hprovider, hactive, htype, haction⟩

/-- A version of a row that a task has read was inserted before. -/
theorem locked_scheduled {allowed : Task → Prop} (h : Reachable P allowed c)
    {pre post : List (Nat × GatewayStep)} {t : Nat} {id : UUID} {row : OutboxEvent}
    (hlog : c.world.log = pre ++ (t, ⟨.lockDue id, .ok (some row)⟩) :: post) :
    ∃ t' args now row', (t', ⟨.insertEvent args, .ok row.outboxId⟩) ∈ pre ∧
      args.row P row.outboxId now = some row' ∧ row.core = row'.core := by
  obtain ⟨tenants, whitelist, ls, hls, hrun⟩ := h
  obtain ⟨before, ch, after, c₁, c₂, rfl, h₁, hpre, -, he, -⟩ :=
    Machine.run_happened gateway_logs (World.Sound.initial tenants whitelist) rfl hrun hlog
  have hreach : Reachable P allowed c₁ :=
    ⟨tenants, whitelist, before, fun l hl => hls l (List.mem_append_left _ hl), h₁⟩
  obtain ⟨w₁, hop, -⟩ := exec_eq_some he
  obtain ⟨db', hdb, -⟩ := onDb_eq_some hop
  obtain ⟨tx, htx, ⟨e, heq, -⟩ | ⟨heq, -⟩ | ⟨r, -, heq, -, hversion, -⟩⟩ :=
    Database.execLockDue_eq_some hdb
  · simp at heq
  · simp at heq
  obtain rfl : row = r := by simpa using heq
  obtain ⟨t', args, now, row', hmem, hrow⟩ := (reachable_every hreach).version htx hversion
  exact ⟨t', args, now, row', hpre ▸ hmem, hrow⟩

/-- What a publisher sends was scheduled before. -/
theorem sent_scheduled {allowed : Task → Prop} (h : Reachable P allowed c)
    {pre post : List (Nat × GatewayStep)} {t : Nat} {ex : Exchange} {m : Message} {key : String}
    {r : Except Exn Unit} {self : Publisher}
    (hlog : c.world.log = pre ++ (t, ⟨.publish ex m key, r⟩) :: post)
    (hawaits : (runOnce P self).Awaits (historyOf t pre) (.publish ex m key)) :
    ∃ row, MessageOf P row m key ∧ ∃ t' args now row',
      (t', ⟨.insertEvent args, .ok row.outboxId⟩) ∈ pre ∧
      args.row P row.outboxId now = some row' ∧ row.core = row'.core := by
  obtain ⟨id, row, hlocked, hm⟩ := runOnce_sends hawaits
  obtain ⟨earlier, later, rfl⟩ := List.append_of_mem (mem_historyOf.mp hlocked)
  have hlog' : c.world.log = earlier ++ (t, ⟨.lockDue id, .ok (some row)⟩) ::
      (later ++ (t, ⟨.publish ex m key, r⟩) :: post) := by simp [hlog]
  obtain ⟨t', args, now, row', hinsert, hrow⟩ := locked_scheduled h hlog'
  exact ⟨row, hm, t', args, now, row', List.mem_append_left _ hinsert, hrow⟩

/-- The message of a row reads as the webhook that the row was inserted for. -/
theorem MessageOf.tells {same : Json → Json → Prop} (hsame : Json.Equality same)
    (hjson : P.KeepsJson same) {req : Request} {correlationId eventId : UUID} {timestamp now : Time}
    {prData : PullRequestData} {prHashKey : String} {rawJson : List (String × Json)}
    {row row' : OutboxEvent} {u : UUID} {m : Message} {key : String} (hm : MessageOf P row m key)
    (hloads : loadsDict P req.rawPayload = .ok rawJson)
    (hrow : (outboxArgs P req correlationId eventId timestamp prData prHashKey rawJson).row P u now =
      some row') (hcore : row.core = row'.core) :
    ∃ j, P.loads m.body = some j ∧
      Tells same j (inboundArgs req correlationId eventId prData prHashKey rawJson) := by
  obtain ⟨payload, headers, hpayload, -, rfl⟩ := NewOutboxEvent.row_eq_some P hrow
  have hstored : row.payload = payload := congrArg OutboxEvent.payload hcore
  have hbuilt : P.Built ((receivedMessage req correlationId eventId timestamp prData prHashKey
      rawJson).modelDump P) :=
    message_built (loadsDict_built hjson hloads) rfl
  obtain ⟨text, j, hdecode, hj, heq⟩ := written_read hjson hbuilt hpayload
  have hbody := hm.body
  rw [rowPayload, hstored, hdecode] at hbody
  obtain hbody := Except.ok.inj hbody
  rw [← hbody]
  exact ⟨j, hjson.loads_utf8 hj, message_tells hsame heq⟩

/-- **Only authenticated, whitelisted webhooks reach the queue.** -/
theorem only_authenticated (hP : P.Digests) (h : Reachable P serviceTask c) :
    OnlyAuthenticated P c := by
  have hwritten : ∀ pre post t req step, c.world.log = pre ++ (t, step) :: post →
      c.taskOf t = some (.webhook req) → step.op.Leaves P ∨
        ∃ correlationId prData, Admitted P req (historyOf t pre) correlationId prData := by
    intro pre post t req step hlog ht
    obtain ⟨k, hk, hawaits⟩ := reachable_awaited h pre t step post hlog
    obtain rfl : k = .webhook req := Option.some.inj (hk.symm.trans ht)
    obtain hfirst | ⟨correlationId, prData, -, hadmitted, -⟩ := processWebhook_awaits hP hawaits
    · exact .inl hfirst.leaves
    · exact .inr ⟨correlationId, prData, hadmitted⟩
  have hsub : ∀ {pre post : List (Nat × GatewayStep)} (t : Nat), c.world.log = pre ++ post →
      historyOf t pre ⊆ stepsOf c t := by
    intro pre post t hlog
    rw [stepsOf, hlog, historyOf_append]
    exact List.subset_append_left _ _
  constructor
  · intro pre post t ex m key r hlog hkind
    obtain ⟨⟨req, hreq⟩, hname⟩ | ⟨self, hself, hawaits⟩ := publish_logged h hlog
    · rcases hkind with ⟨self, hself⟩ | hne
      · simp [hreq] at hself
      · exact absurd hname hne
    obtain ⟨row, hm, t', args, now, row', hinsert, hrow, hcore⟩ := sent_scheduled h hlog hawaits
    obtain ⟨earlier, later, rfl⟩ := List.append_of_mem hinsert
    have hlog' : c.world.log = earlier ++ (t', ⟨.insertEvent args, .ok row.outboxId⟩) ::
        (later ++ (t, ⟨.publish ex m key, r⟩) :: post) := by simp [hlog]
    obtain ⟨req, correlationId, prData, hreq, hadmitted, eventId, timestamp, rawJson, hloads, rfl⟩ :=
      insert_logged hP h hlog' rfl
    refine ⟨earlier, later, t', req, correlationId, eventId, timestamp, prData, rawJson,
      row.outboxId, rfl, hm.source, hreq, hadmitted.authenticated h (hsub t' hlog'), ?_⟩
    intro same hsame hjson
    exact hm.tells hsame hjson hloads hrow hcore
  · intro pre post t req step hlog ht
    obtain hleaves | ⟨correlationId, prData, hadmitted⟩ := hwritten pre post t req step hlog ht
    · exact .inl hleaves
    · exact .inr (hadmitted.authenticated h (hsub t hlog))
  · intro t req correlationId secret whitelist rest ht hlook hver step hstep
    obtain ⟨pre, post, hlog⟩ := List.append_of_mem (mem_stepsOf.mp hstep)
    obtain hleaves | ⟨correlationId', prData, hadmitted⟩ := hwritten pre post t req step hlog ht
    · exact hleaves
    exfalso
    -- the call has looked up one secret only
    have hwhole := hadmitted.append (historyOf t ((t, step) :: post))
    rw [← historyOf_append, ← hlog] at hwhole
    obtain ⟨secret', whitelist', rest', hlook', hver', -⟩ := hwhole
    obtain ⟨rfl, -⟩ := hlook.unique hlook'
    exact hver hver'

end Run

/-- An accepted call was let through before it stored anything. -/
theorem only_authenticated_stored : ∃ c, Finished c 0 (.webhook (Example.delivery Example.first))
      (.ok (.accepted ⟨9⟩ ⟨20⟩ ⟨21⟩)) ∧ OnlyAuthenticated (Example.storing Example.first) c := by
  obtain ⟨c, hrun, hfin, -⟩ := Example.stored_run
  exact ⟨c, hfin, only_authenticated (Example.storing_digests _)
    (Example.reachable_solo (k := .webhook _) trivial hrun)⟩

end VcsGateway
