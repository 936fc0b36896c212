import VcsGateway.Authentication
import VcsGateway.Durability
import VcsGateway.Lookups
import Mathlib.Data.Nat.Pairing
import Mathlib.Logic.Equiv.List

/-!
# The stored event and the message

What an accepted webhook stores and what is published of it agree, for both are made of
the same fields by one call: the identifiers of a call occur once in the log.
-/

namespace VcsGateway

open Async

variable {P : Platform}

/-! ### Identifiers -/

/-- The identifier that the step has brought in. -/
def minted : GatewayStep → Option UUID
  | ⟨.uuid4, .ok u⟩ => some u
  | ⟨.openChannel, .ok u⟩ => some u
  | ⟨.insertEvent _, .ok u⟩ => some u
  | _ => none

/-- What a step brings in was not in use. -/
theorem exec_minted {t : Nat} {op : Op} {ch : Choice} {w w' : World} {r : Except Exn op.Ret} {u : UUID}
    (he : exec P t op ch w = some (r, w')) (hu : minted ⟨op, r⟩ = some u) :
    u ∉ w.used ∧ u ∈ w'.used := by
  obtain ⟨w₁, h₁, rfl⟩ := exec_eq_some he
  change u ∉ w.used ∧ u ∈ w₁.used
  unfold minted at hu
  split at hu
  · next v heq =>
    obtain ⟨rfl, heq⟩ := Step.mk.inj heq
    obtain rfl := eq_of_heq heq
    obtain ⟨v', -, hfresh, hv, rfl⟩ := execUuid4_eq_some h₁
    obtain rfl := Except.ok.inj hv
    obtain rfl := Option.some.inj hu
    exact ⟨hfresh, List.mem_cons_self⟩
  · next v heq =>
    obtain ⟨rfl, heq⟩ := Step.mk.inj heq
    obtain rfl := eq_of_heq heq
    rcases execOpenChannel_eq_some h₁ with ⟨_, hv, -⟩ | ⟨v', -, hfresh, hv, rfl⟩
    · simp at hv
    · obtain rfl := Except.ok.inj hv
      obtain rfl := Option.some.inj hu
      exact ⟨hfresh, List.mem_cons_self⟩
  · next args v heq =>
    obtain ⟨rfl, heq⟩ := Step.mk.inj heq
    obtain rfl := eq_of_heq heq
    obtain ⟨db', hdb, -, -, -, -, -, hfresh⟩ := execOp_insertEvent_eq_some h₁
    obtain ⟨tx, -, ⟨exc, hv, -⟩ | ⟨v', row, -, hch, -, hv, -⟩⟩ := Database.execInsertEvent_eq_some hdb
    · simp at hv
    · obtain rfl := Except.ok.inj hv
      obtain rfl := Option.some.inj hu
      exact hfresh _ hch
  · simp at hu

/-- No identifier is brought in twice. -/
structure World.MintsOnce (w : World) : Prop where
  used : ∀ e ∈ w.log, ∀ u, minted e.2 = some u → u ∈ w.used
  once : w.log.Pairwise fun e e' => ∀ u, minted e.2 = some u → minted e'.2 ≠ some u

theorem World.MintsOnce.congr {w w' : World} (h : w.MintsOnce) (hlog : w'.log = w.log)
    (hused : w'.used = w.used) : w'.MintsOnce := by
  constructor
  · rw [hlog, hused]
    exact h.used
  · rw [hlog]
    exact h.once

theorem World.MintsOnce.exec {t : Nat} {op : Op} {ch : Choice} {w w' : World}
    {r : Except Exn op.Ret} (h : w.MintsOnce) (he : exec P t op ch w = some (r, w')) :
    w'.MintsOnce := by
  have hlog : w'.log = w.log ++ [(t, ⟨op, r⟩)] := by
    obtain ⟨w₁, h₁, rfl⟩ := exec_eq_some he
    simp [World.log, World.record, (execOp_frame h₁).trace]
  have hused : w.used ⊆ w'.used := by
    obtain ⟨w₁, h₁, rfl⟩ := exec_eq_some he
    exact (execOp_frame h₁).used
  constructor
  · intro e hmem u hu
    rw [hlog, List.mem_append, List.mem_singleton] at hmem
    rcases hmem with hmem | rfl
    · exact hused (h.used e hmem u hu)
    · exact (exec_minted he hu).2
  · rw [hlog, List.pairwise_append]
    refine ⟨h.once, List.pairwise_singleton _ _, ?_⟩
    intro e hmem e' hlast u hu hu'
    obtain rfl := List.mem_singleton.mp hlast
    exact (exec_minted he hu').1 (h.used e hmem u hu)

theorem reachable_mintsOnce {allowed : Task → Prop} {c : GatewayConfig} (h : Reachable P allowed c) :
    c.world.MintsOnce := by
  obtain ⟨tenants, whitelist, ls, -, hrun⟩ := h
  have hempty : (World.initial tenants whitelist).MintsOnce := by
    constructor
    · intro e hmem
      simp [World.initial, World.log] at hmem
    · simp [World.initial, World.log]
  refine Machine.run_induction (fun c : GatewayConfig => c.world.MintsOnce) (fun _ => True) ?_ hempty
    (fun _ _ => trivial) hrun
  intro c l c' hc _ hs
  cases l with
  | spawn t k =>
    obtain ⟨-, rfl⟩ := Machine.step_spawn hs
    exact hc
  | step t ch =>
    obtain ⟨k, op, f, r, w, -, he, rfl⟩ := Machine.step_step hs
    exact hc.exec he
  | env e =>
    obtain rfl : _ = c' := Option.some.inj hs
    apply hc.congr
    · cases e <;> rfl
    · cases e <;> rfl
  | kill t =>
    obtain ⟨k, op, f, -, rfl⟩ := Machine.step_kill hs
    apply World.MintsOnce.congr hc
    · change (vanish t c.world).log = c.world.log
      unfold World.log
      rw [vanish_trace]
    · exact vanish_used t c.world

/-- An identifier tells which step brought it in. -/
theorem minted_unique {allowed : Task → Prop} {c : GatewayConfig} (h : Reachable P allowed c)
    {e e' : Nat × GatewayStep} (he : e ∈ c.world.log) (he' : e' ∈ c.world.log) {u : UUID}
    (hu : minted e.2 = some u) (hu' : minted e'.2 = some u) : e = e' := by
  by_contra hne
  have hsymm : Std.Symm fun e e' : Nat × GatewayStep => ∀ u, minted e.2 = some u → minted e'.2 ≠ some u :=
    ⟨fun _ _ hxy u hx hy => hxy u hy hx⟩
  exact (reachable_mintsOnce h).once.forall he he' hne u hu hu'

/-! ### The call that is accepted -/

section Accepted

variable {req : Request} {correlationId eventId outboxId : UUID} {prData : PullRequestData}
  {prHashKey : String} {steps : List GatewayStep}

/-- A result comes from the last part of a program. -/
theorem follows_bind_ok {α β : Type} {p : Coroutine α} {f : α → Coroutine β} {b : β}
    (h : (p >>= f).Follows steps (.ok b)) :
    ∃ first rest a, steps = first ++ rest ∧ p.Follows first (.ok a) ∧ (f a).Follows rest (.ok b) := by
  rcases Prog.follows_bind.mp h with h | ⟨e, heq, -⟩
  · exact h
  · simp at heq

theorem follows_ofExcept_ok {α β : Type} {x : Except Exn α} {f : α → Coroutine β} {b : β}
    (h : (Prog.ofExcept x >>= f).Follows steps (.ok b)) :
    ∃ a, x = .ok a ∧ (f a).Follows steps (.ok b) := by
  rcases Prog.follows_ofExcept_bind.mp h with h | ⟨e, -, -, heq⟩
  · exact h
  · simp at heq

theorem not_follows_throw {α : Type} {e : Exn} {a : α} :
    ¬(Prog.throw e : Coroutine α).Follows steps (.ok a) := by
  intro h
  simpa using (Prog.follows_ret.mp h).2

/-- What follows an event of the journey is the result of the call. -/
theorem follows_emit_pure {stepType : JourneyStepType} {status : JourneyStepStatus}
    {tenantId : UUID} {metadata : List (String × Json)} {a b : WebhookResult}
    (h : (emit P stepType status correlationId tenantId metadata >>= fun _ => pure a).Follows steps
      (.ok b)) : b = a := by
  obtain ⟨_, _, _, -, -, hret⟩ := follows_bind_ok h
  exact Except.ok.inj (Prog.follows_ret.mp hret).2

/-- An accepted call went through every step of the pipeline. -/
theorem processWebhook_accepted
    (h : (processWebhook P req).Follows steps (.ok (.accepted correlationId eventId outboxId))) :
    ∃ prData later, parsePayload P req.vcsProvider req.rawPayload = .ok prData ∧ later ⊆ steps ∧
      ∃ correlationId', (persistStep P req correlationId' prData (requestKey P req prData)).Follows
        later (.ok (.accepted correlationId eventId outboxId)) := by
  obtain ⟨s₁, r₁, correlationId', rfl, -, h⟩ := follows_bind_ok h
  split at h
  · exact absurd h not_follows_throw
  obtain ⟨s₂, r₂, secret, rfl, -, h⟩ := follows_bind_ok h
  obtain ⟨s₃, r₃, whitelist, rfl, -, h⟩ := follows_bind_ok h
  obtain ⟨s₄, r₄, u, rfl, -, h⟩ := follows_bind_ok h
  obtain ⟨s₅, r₅, u', rfl, -, h⟩ := follows_bind_ok h
  obtain ⟨prData, hparse, h⟩ := follows_ofExcept_ok h
  split at h
  · simpa using follows_emit_pure h
  obtain ⟨s₆, r₆, detection, rfl, -, h⟩ := follows_bind_ok h
  rcases detection with _ | detection
  · obtain ⟨s₇, r₇, u'', rfl, -, h⟩ := follows_bind_ok h
    refine ⟨prData, r₇, hparse, ?_, correlationId', h⟩
    intro step hstep
    simp [hstep]
  · simpa using follows_emit_pure h

/-- `persist` schedules the message of the event that it stores. -/
theorem persist_schedules
    (h : (persist P req correlationId prData prHashKey).Follows steps (.ok (eventId, outboxId))) :
    ∃ timestamp rawJson, loadsDict P req.rawPayload = .ok rawJson ∧
      ⟨.insertEvent (outboxArgs P req correlationId eventId timestamp prData prHashKey rawJson),
        .ok outboxId⟩ ∈ steps := by
  obtain ⟨s₁, r₁, eventId', rfl, -, h⟩ := follows_bind_ok h
  obtain ⟨rawJson, hloads, h⟩ := follows_ofExcept_ok h
  obtain ⟨s₂, r₂, timestamp, rfl, -, h⟩ := follows_bind_ok h
  obtain ⟨s₃, r₃, outboxId', rfl, hhandled, hret⟩ := follows_bind_ok h
  obtain ⟨rfl, heq⟩ := Prog.follows_ret.mp hret
  obtain ⟨rfl, rfl⟩ := Prod.mk.inj (Except.ok.inj heq)
  obtain ⟨s₄, r₄, r, rfl, htransaction, hlast⟩ := Prog.follows_andThen.mp hhandled
  rcases r with e | outboxId''
  · cases e <;> exact absurd hlast not_follows_throw
  obtain ⟨rfl, heq⟩ := Prog.follows_ret.mp hlast
  obtain rfl := Except.ok.inj heq
  obtain ⟨s₅, r₅, u, rfl, -, hbody⟩ := follows_bind_ok htransaction
  obtain ⟨s₆, r₆, r, rfl, hinserts, hend⟩ := Prog.follows_andThen.mp hbody
  rcases r with e | outboxId''
  · obtain ⟨_, _, _, -, -, hthrow⟩ := follows_bind_ok hend
    exact absurd hthrow not_follows_throw
  obtain ⟨s₇, r₇, u', rfl, -, hret⟩ := follows_bind_ok hend
  obtain ⟨rfl, heq⟩ := Prog.follows_ret.mp hret
  obtain rfl := Except.ok.inj heq
  obtain ⟨s₈, r₈, row, rfl, -, hschedule⟩ := follows_bind_ok hinserts
  obtain ⟨s₉, r₉, u'', rfl, -, hinsert⟩ := follows_bind_ok hschedule
  obtain rfl := Prog.follows_perform.mp hinsert
  exact ⟨timestamp, rawJson, hloads, by simp [outboxArgs]⟩

theorem persistStep_accepted {correlationId' : UUID}
    (h : (persistStep P req correlationId' prData prHashKey).Follows steps
      (.ok (.accepted correlationId eventId outboxId))) :
    correlationId' = correlationId ∧ ∃ timestamp rawJson, loadsDict P req.rawPayload = .ok rawJson ∧
      ⟨.insertEvent (outboxArgs P req correlationId eventId timestamp prData prHashKey rawJson),
        .ok outboxId⟩ ∈ steps := by
  obtain ⟨first, rest, r, rfl, hpersist, hrest⟩ := Prog.follows_andThen.mp h
  rcases r with e | ⟨eventId', outboxId'⟩
  · exfalso
    rcases e with ⟨cls, msg, details⟩
    · cases cls
      case duplicateError => simp at hrest
      all_goals exact not_follows_throw hrest
    all_goals exact not_follows_throw hrest
  obtain ⟨s₁, r₁, u, rfl, -, hemit⟩ := follows_bind_ok hrest
  have heq := follows_emit_pure hemit
  simp only [WebhookResult.accepted.injEq] at heq
  obtain ⟨rfl, rfl, rfl⟩ := heq
  obtain ⟨timestamp, rawJson, hloads, hmem⟩ := persist_schedules hpersist
  exact ⟨rfl, timestamp, rawJson, hloads, List.mem_append_left _ hmem⟩

end Accepted

/-! ### Every run -/

section Run

variable {c : GatewayConfig} {same : Json → Json → Prop}

/-- The row as asyncpg returns it. -/
def InboundEvent.read (P : Platform) (row : InboundEvent) : NewInboundEvent :=
  { row.toNewInboundEvent with rawPayload := P.jsonbDecode row.rawPayload }

/-- The message says what the row says, and what `parse_payload` and `json.loads` make of the
    body. -/
structure Agrees (P : Platform) (same : Json → Json → Prop) (req : Request)
    (prData : PullRequestData) (rawJson : List (String × Json)) (row : InboundEvent) (m : Message) :
    Prop where
  body : ∃ j, P.loads m.body = some j ∧ Tells same j (row.read P) ∧
    Tells same j (inboundArgs req row.correlationId row.eventId prData (requestKey P req prData)
      rawJson)
  headers : m.headers.field? "correlation_id" = some (.str row.correlationId.str)

theorem Admitted.minted {req : Request} {past : List GatewayStep} {correlationId : UUID}
    {prData : PullRequestData} (h : Admitted P req past correlationId prData) :
    ⟨.uuid4, .ok correlationId⟩ ∈ past := by
  obtain ⟨secret, whitelist, rest, ⟨lookup, -, rfl⟩, -⟩ := h
  simp

/-- An insert of a call that has got this correlation id. -/
theorem insert_of_call (hP : P.Digests) (h : Reachable P serviceTask c) {t : Nat}
    {step : GatewayStep} (hstep : (t, step) ∈ c.world.log) (hop : step.op.isInsert = true) :
    ∃ req correlationId prData, c.taskOf t = some (.webhook req) ∧
      (t, ⟨.uuid4, .ok correlationId⟩) ∈ c.world.log ∧
      Admitted P req (stepsOf c t) correlationId prData ∧
      step.op.InsertsFor P req correlationId prData (requestKey P req prData) := by
  obtain ⟨pre, post, hlog⟩ := List.append_of_mem hstep
  obtain ⟨req, correlationId, prData, htask, hadmitted, hinserts⟩ := insert_logged hP h hlog hop
  have hwhole := hadmitted.append (historyOf t ((t, step) :: post))
  rw [← historyOf_append, ← hlog] at hwhole
  exact ⟨req, correlationId, prData, htask, mem_stepsOf.mp hwhole.minted, hwhole, hinserts⟩

/-- The row of an accepted call holds what the call has made of its request. -/
theorem accepted_row (hP : P.Digests) (h : Reachable P serviceTask c) {t : Nat} {req : Request}
    {correlationId eventId outboxId : UUID} {prData : PullRequestData}
    {rawJson : List (String × Json)} {timestamp : Time}
    (hf : Finished c t (.webhook req) (.ok (.accepted correlationId eventId outboxId)))
    (hparse : parsePayload P req.vcsProvider req.rawPayload = .ok prData)
    (hloads : loadsDict P req.rawPayload = .ok rawJson)
    (hinsert : (t, ⟨.insertEvent (outboxArgs P req correlationId eventId timestamp prData
      (requestKey P req prData) rawJson), .ok outboxId⟩) ∈ c.world.log) :
    Authenticated P req (stepsOf c t) ∧ ∃ row ∈ c.world.db.inbound,
      row.correlationId = correlationId ∧ row.eventId = eventId ∧
      ∃ now, (inboundArgs req correlationId eventId prData (requestKey P req prData) rawJson).row P now =
        some row := by
  obtain ⟨row, hrow, hcid, hid, -⟩ := rows_of_accepted h hf
  have htask : c.taskOf t = some (.webhook req) := by
    have hthread : c.threads t = some ⟨.webhook req, .ret _, true⟩ := hf
    simp [Config.taskOf, hthread]
  -- the call that has scheduled the message
  obtain ⟨req₁, cid₁, prData₁, htask₁, hminted₁, hadmitted, _, _, _, -, hargs₁⟩ :=
    insert_of_call hP h hinsert rfl
  obtain rfl : req = req₁ := by
    have heq := htask.symm.trans htask₁
    simpa using heq
  obtain rfl : correlationId = cid₁ := congrArg NewOutboxEvent.correlationId hargs₁
  -- the call that has inserted the row
  obtain ⟨t₂, args, now, hmem, hargs⟩ := (reachable_every h).inbound row hrow
  obtain ⟨req₂, cid₂, prData₂, htask₂, hminted₂, hadmitted₂, eid₂, rawJson₂, hloads₂, rfl⟩ :=
    insert_of_call hP h hmem rfl
  have hfields := NewInboundEvent.row_eq_some P hargs
  obtain rfl : row.correlationId = cid₂ := congrArg NewInboundEvent.correlationId hfields
  obtain rfl : row.eventId = eid₂ := congrArg NewInboundEvent.eventId hfields
  -- both have the correlation id of the row
  rw [hcid] at hminted₂
  obtain rfl : t = t₂ := congrArg Prod.fst (minted_unique h hminted₁ hminted₂ rfl rfl)
  obtain rfl : req = req₂ := by
    have heq := htask.symm.trans htask₂
    simpa using heq
  obtain rfl : rawJson = rawJson₂ := Except.ok.inj (hloads.symm.trans hloads₂)
  obtain rfl : prData = prData₂ := by
    obtain ⟨_, _, _, -, -, hparse₂, -⟩ := hadmitted₂
    exact Except.ok.inj (hparse.symm.trans hparse₂)
  refine ⟨hadmitted.authenticated h (List.Subset.refl _), row, hrow, hcid, hid, now, ?_⟩
  rw [← hcid, ← hid]
  exact hargs

/-- The headers of a message carry the correlation id of the call. -/
theorem MessageOf.correlationId (hsame : Json.Equality same) (hjson : P.KeepsJson same)
    {req : Request} {correlationId eventId : UUID} {timestamp now : Time} {prData : PullRequestData}
    {prHashKey : String} {rawJson : List (String × Json)} {row row' : OutboxEvent} {u : UUID}
    {m : Message} {key : String} (hm : MessageOf P row m key)
    (hrow : (outboxArgs P req correlationId eventId timestamp prData prHashKey rawJson).row P u now =
      some row') (hcore : row.core = row'.core) :
    m.headers.field? "correlation_id" = some (.str correlationId.str) := by
  obtain ⟨payload, headers, -, hheaders, rfl⟩ := NewOutboxEvent.row_eq_some P hrow
  have hstored : row.headers = headers := congrArg OutboxEvent.headers hcore
  have hbuilt : P.Built (.dict [("correlation_id", .str correlationId.str)]) := by
    apply Platform.Built.dict
    · simp
    · simp only [List.forall_mem_singleton]
      exact .str _
  obtain ⟨text, j, hdecode, hj, heq⟩ := written_read hjson hbuilt hheaders
  have hread := hm.headers
  simp only [rowHeaders, hstored, hdecode, hj, Except.ok.injEq] at hread
  rw [← hread]
  exact member_str hsame heq rfl

/-- Only a publisher sends messages of the outbox. -/
theorem source_published (hP : P.Digests) (h : Reachable P serviceTask c)
    {pre post : List (Nat × GatewayStep)} {t : Nat} {ex : Exchange} {m : Message} {key : String}
    {r : Except Exn Unit} (hlog : c.world.log = pre ++ (t, ⟨.publish ex m key, r⟩) :: post)
    {outboxId : UUID} (hsource : m.source = some outboxId) :
    ∃ self, (runOnce P self).Awaits (historyOf t pre) (.publish ex m key) := by
  have hjourney : ¬Op.Journey (.publish ex m key) := by
    rintro ⟨⟩
    next hnone => simp [hnone] at hsource
  obtain ⟨⟨req, hreq⟩, -⟩ | ⟨self, -, hawaits⟩ := publish_logged h hlog
  · exfalso
    obtain ⟨k, hk, hawaits⟩ := reachable_awaited h pre t _ post hlog
    obtain rfl : k = .webhook req := Option.some.inj (hk.symm.trans hreq)
    obtain hfirst | ⟨cid, prData, later, -, -, hlater⟩ := processWebhook_awaits hP hawaits
    · cases hfirst with
      | journey hop => exact hjourney hop
      | lookup hop => cases hop
    · have hop := (idempotencyStep_only P req cid prData _).awaits hlater
      cases hop with
      | journey hop => exact hjourney hop
      | cancel hop => cases hop
  · exact ⟨self, hawaits⟩

end Run

namespace Example

/-! ### Libraries that keep JSON -/

/-- A number for every string. -/
def strCode (s : String) : Nat := Encodable.encode (s.toList.map Char.toNat)

theorem strCode_injective {s s' : String} (h : strCode s = strCode s') : s = s' := by
  have hlist := Encodable.encode_injective h
  exact String.toList_injective (List.map_injective_iff.mpr (fun _ _ => Char.toNat_inj.mp) hlist)

mutual

/-- A number for every JSON value. -/
def code : Json → Nat
  | .null => Nat.pair 0 0
  | .bool b => Nat.pair 1 b.toNat
  | .int n => Nat.pair 2 (Encodable.encode n)
  | .float r => Nat.pair 3 (strCode r)
  | .str s => Nat.pair 4 (strCode s)
  | .list xs => Nat.pair 5 (codeList xs)
  | .dict items => Nat.pair 6 (codeItems items)

def codeList : List Json → Nat
  | [] => 0
  | x :: xs => Nat.pair (code x) (codeList xs) + 1

def codeItems : List (String × Json) → Nat
  | [] => 0
  | (k, x) :: items => Nat.pair (strCode k) (Nat.pair (code x) (codeItems items)) + 1

end

mutual

theorem code_injective : ∀ {j j' : Json}, code j = code j' → j = j'
  | .null, j', h => by cases j' <;> simp [code, Nat.pair_eq_pair] at h ⊢
  | .bool b, j', h => by
    cases j' <;> simp [code, Nat.pair_eq_pair] at h ⊢
    cases b <;> cases ‹Bool› <;> simp at h ⊢
  | .int n, j', h => by
    cases j' <;> simp [code, Nat.pair_eq_pair] at h ⊢
    exact h
  | .float r, j', h => by
    cases j' <;> simp [code, Nat.pair_eq_pair] at h ⊢
    exact strCode_injective h
  | .str s, j', h => by
    cases j' <;> simp [code, Nat.pair_eq_pair] at h ⊢
    exact strCode_injective h
  | .list xs, j', h => by
    cases j' <;> simp [code, Nat.pair_eq_pair] at h ⊢
    exact codeList_injective h
  | .dict items, j', h => by
    cases j' <;> simp [code, Nat.pair_eq_pair] at h ⊢
    exact codeItems_injective h

theorem codeList_injective : ∀ {xs xs' : List Json}, codeList xs = codeList xs' → xs = xs'
  | [], [], _ => rfl
  | [], _ :: _, h => by simp [codeList] at h
  | _ :: _, [], h => by simp [codeList] at h
  | x :: xs, x' :: xs', h => by
    simp only [codeList, Nat.add_right_cancel_iff, Nat.pair_eq_pair] at h
    rw [code_injective h.1, codeList_injective h.2]

theorem codeItems_injective :
    ∀ {items items' : List (String × Json)}, codeItems items = codeItems items' → items = items'
  | [], [], _ => rfl
  | [], _ :: _, h => by simp [codeItems] at h
  | _ :: _, [], h => by simp [codeItems] at h
  | (k, x) :: items, (k', x') :: items', h => by
    simp only [codeItems, Nat.add_right_cancel_iff, Nat.pair_eq_pair] at h
    rw [strCode_injective h.1, code_injective h.2.1, codeItems_injective h.2.2]

end


/-- Every value in which the keys of each object are distinct. -/
def Regular : Json → Prop :=
  Platform.Built { both with loadsStr := fun text => some (.float text) }

def codeText (n : Nat) : String := String.ofList (List.replicate (n + 1) 'a')

theorem codeText_injective {n n' : Nat} (h : codeText n = codeText n') : n = n' := by
  have hlength := congrArg (fun s => s.toList.length) h
  simpa [codeText] using hlength

/-- A line feed begins the body of the request. -/
def startsLine (body : ByteArray) : Bool := body.data.toList.head? = some 10

/-- The text of the value is the text of no other one. -/
structure Plain (j : Json) : Prop where
  text : textOk j.text = true
  line : startsLine j.text.toUTF8 = false
  code : ∀ n, j.text ≠ codeText n
  only : ∀ j', Regular j' → j'.text = j.text → j' = j

open Classical in
/-- `json.dumps`, but for values whose text is not their own. -/
noncomputable def print (j : Json) : String := if Plain j then j.text else codeText (code j)

theorem print_injective {j j' : Json} (hj' : Regular j') (h : print j = print j') : j = j' := by
  unfold print at h
  split at h
  · next hplain =>
    split at h
    · exact (hplain.only j' hj' h.symm).symm
    · exact absurd h (hplain.code _)
  · split at h
    · next hplain => exact absurd h.symm (hplain.code _)
    · exact code_injective (codeText_injective h)

theorem textOk_print (j : Json) : textOk (print j) = true := by
  unfold print
  split
  · next hplain => exact hplain.text
  · simp [textOk, codeText, List.all_replicate]

theorem print_not_line (j : Json) : startsLine (print j).toUTF8 = false := by
  unfold print
  split
  · next hplain => exact hplain.line
  · have hbytes : (codeText (code j)).toUTF8.data.toList =
        97 :: (List.replicate (code j) 'a').utf8Encode.data.toList := by
      rw [codeText, List.replicate_succ, String.toUTF8_eq_toByteArray, String.toByteArray_ofList,
        List.utf8Encode_cons, ByteArray.toList_data_append]
      rfl
    rw [startsLine, hbytes, List.head?_cons]
    decide

open Classical in
/-- The value that was printed. -/
noncomputable def parse (body : ByteArray) : Option Json :=
  if startsLine body then some first
  else if h : ∃ j, Regular j ∧ (print j).toUTF8 = body then some h.choose
  else none

theorem parse_print {j : Json} (hj : Regular j) : parse (print j).toUTF8 = some j := by
  have hex : ∃ j', Regular j' ∧ (print j').toUTF8 = (print j).toUTF8 := ⟨j, hj, rfl⟩
  unfold parse
  rw [print_not_line, if_neg Bool.false_ne_true, dif_pos hex]
  have heq := hex.choose_spec.2
  rw [print_injective hj (String.toByteArray_inj.mp heq)]

/-- The same libraries, where every text is read back. -/
noncomputable def keeping : Platform :=
  { both with loads := parse, loadsStr := fun text => parse text.toUTF8, dumps := print }

theorem keeping_digests : keeping.Digests where
  sha256 := (storing_digests first).sha256
  hmac := (storing_digests first).hmac

theorem regular_iff (j : Json) : keeping.Built j ↔ Regular j := by
  constructor
  · intro h
    induction h with
    | null => exact .null
    | bool b => exact .bool b
    | int n hn => exact .int n hn
    | float r _ => exact .float r ⟨r, rfl⟩
    | str s => exact .str s
    | list xs _ ih => exact .list xs ih
    | dict items hkeys _ ih => exact .dict items hkeys ih
  · intro h
    induction h with
    | null => exact .null
    | bool b => exact .bool b
    | int n hn => exact .int n hn
    | float r _ => exact .float r ⟨_, parse_print (.float r ⟨r, rfl⟩)⟩
    | str s => exact .str s
    | list xs _ ih => exact .list xs ih
    | dict items hkeys _ ih => exact .dict items hkeys ih

theorem digit_built {P : Platform} {n : Int} (h : n.natAbs < 10) : P.Built (.int n) :=
  .int n (Nat.lt_of_lt_of_le h (Nat.le_self_pow (by decide) 10))

theorem regular_first : Regular first := by
  have hattributes : Regular (.dict [("iid", .int 7), ("title", .str "Fix"),
      ("url", .str "https://gitlab.com/g/r/-/merge_requests/7"),
      ("last_commit", .dict [("id", .str "c1")]), ("action", .str "open"),
      ("author_id", .int 1)]) := by
    apply Platform.Built.dict
    · decide
    · simp only [List.forall_mem_cons]
      refine ⟨digit_built (by decide), .str _, .str _, .dict _ (by decide) ?_, .str _,
        digit_built (by decide), by simp⟩
      simp only [List.forall_mem_singleton]
      exact .str _
  have hproject : Regular (.dict [("id", .int 3), ("path_with_namespace", .str "g/r"),
      ("web_url", .str "https://gitlab.com/g/r")]) := by
    apply Platform.Built.dict
    · decide
    · simp only [List.forall_mem_cons]
      exact ⟨digit_built (by decide), .str _, .str _, by simp⟩
  apply Platform.Built.dict
  · decide
  · simp only [List.forall_mem_cons]
    refine ⟨.str _, hattributes, hproject, .dict _ (by decide) ?_, by simp⟩
    simp only [List.forall_mem_singleton]
    exact .str _

theorem keeping_keepsJson : keeping.KeepsJson (fun j j' => j = j') where
  built := by
    intro body j h
    change parse body = some j at h
    rw [regular_iff]
    unfold parse at h
    split at h
    · obtain rfl := Option.some.inj h
      exact regular_first
    · split at h
      · next hex =>
        obtain rfl := Option.some.inj h
        exact hex.choose_spec.1
      · simp at h
  loads_dumps hj := parse_print ((regular_iff _).mp hj)
  loads_utf8 h := h
  text hs hj := by
    obtain rfl := Option.some.inj hs
    exact ⟨_, _, rfl, hj, rfl⟩
  dict hs := by
    obtain rfl := Option.some.inj hs
    rfl

/-! ### The first webhook is published -/

theorem keeping_row {payload headers : Json} {args : NewOutboxEvent} {u : UUID} {now : Time}
    (htype : textOk args.eventType = true) (hkey : varcharOk 64 args.prHashKey = true)
    (hpayload : args.payload = .str (print payload)) (hheaders : args.headers = .str (print headers)) :
    args.row keeping u now = some
      { outboxId := u
        eventType := args.eventType
        correlationId := args.correlationId
        prHashKey := args.prHashKey
        prVersion := args.prVersion
        payload := args.payload
        headers := args.headers
        dispatchAt := now + seconds args.debounceSeconds
        createdAt := now } := by
  apply NewOutboxEvent.row_eq rfl rfl
  rw [hpayload, hheaders]
  simp only [Json.jsonbOk, htype, hkey, textOk_print, Bool.and_self]

/-- The answers to a batch up to its first savepoint. -/
def batchChoices : List Choice := [.ok, .ok, .ok, .ok, .fresh ⟨40⟩, .ok, .ok, .ok, .ok]

/-- The first webhook is stored, becomes due, and a batch has selected its row. -/
def untilSavepoint : List GatewayLabel :=
  solo (.webhook firstDelivery) freshChoices ++
    .step 0 (.fresh ⟨21⟩) :: ((Choice.ok :: Choice.ok :: emitChoices 22).map (.step 0) ++
      .env (.tick (seconds 30)) :: .spawn 1 (.publisher publisher) :: batchChoices.map (.step 1))

theorem run_step {P : Platform} {c₀ c : GatewayConfig} {ls : List GatewayLabel} {t : Nat} {k : Task}
    {op : Op} {f : Except Exn op.Ret → Coroutine k.Result} {a : Except Exn op.Ret} {w : World}
    (ch : Choice) (hrun : (gateway P).run c₀ ls = some c)
    (hthread : c.threads t = some ⟨k, .await op f, true⟩) (he : exec P t op ch c.world = some (a, w)) :
    (gateway P).run c₀ (ls ++ [.step t ch]) =
      some ⟨w, Function.update c.threads t (some ⟨k, f a, true⟩)⟩ := by
  apply Machine.run_snoc_eq_some.mpr
  refine ⟨c, hrun, ?_⟩
  simp [Machine.step, hthread, gateway, he]

theorem untilSavepoint_run : ∃ c row ex f,
    (gateway keeping).run initial untilSavepoint = some c ∧
    Finished c 0 (.webhook firstDelivery) (.ok (.accepted ⟨9⟩ ⟨20⟩ ⟨21⟩)) ∧
    c.threads 1 = some ⟨.publisher publisher, .await .savepoint f, true⟩ ∧
    (∃ (K₀ K₁ K₂ : Except Exn Unit → Coroutine Unit) (K₃ : Except Exn Unit → Coroutine Bool),
      f (.ok ()) = ((((exceptException (publishRow keeping ex row)
        (recordFailure keeping publisher row)).andThen K₀).andThen K₁).andThen K₂).andThen K₃) ∧
    (∃ text headers, Regular headers ∧ row.payload = .str text ∧
      row.headers = .str (print headers)) ∧ row.outboxId = ⟨21⟩ ∧
    ∃ tx, c.world.db.sessions 1 = some tx ∧ tx.aborted = false := by
  refine ⟨_, _, _, _, run_insertEvent rfl rfl rfl rfl (by decide) (keeping_row rfl rfl rfl rfl) rfl,
    rfl, rfl, ⟨_, _, _, _, rfl⟩, ⟨_, _, ?_, rfl, rfl⟩, rfl, _, rfl, rfl⟩
  apply Platform.Built.dict
  · simp
  · simp only [List.forall_mem_singleton]
    exact .str _

theorem publishRow_eq (ex : Exchange) {row : OutboxEvent} {text : String} {headers : Json}
    (hheaders : Regular headers) (hpayload : row.payload = .str text)
    (hrow : row.headers = .str (print headers)) : ∃ g, publishRow keeping ex row =
      .await (.publish ex { body := text.toUTF8, headers, source := some row.outboxId } row.eventType)
        g := by
  have hread : rowHeaders keeping row = .ok headers := by
    have hloads : keeping.loadsStr (print headers) = some headers := parse_print hheaders
    have hdecode : keeping.jsonbDecode row.headers = .str (print headers) := hrow
    simp only [rowHeaders, hdecode, hloads]
  have hbody : rowPayload keeping row = .ok text.toUTF8 := by
    unfold rowPayload
    rw [hpayload]
    rfl
  unfold publishRow
  rw [hread, hbody]
  exact ⟨_, rfl⟩

theorem published_run : ∃ c m, Reachable keeping serviceTask c ∧
    Finished c 0 (.webhook firstDelivery) (.ok (.accepted ⟨9⟩ ⟨20⟩ ⟨21⟩)) ∧
    m.source = some ⟨21⟩ ∧ ∃ ex key, (1, ⟨.publish ex m key, .ok ()⟩) ∈ c.world.log := by
  obtain ⟨c, row, ex, f, hrun, hfin, hthread, ⟨K₀, K₁, K₂, K₃, hf⟩,
    ⟨text, headers, hregular, hpayload, hheaders⟩, hid, tx, htx, hlive⟩ := untilSavepoint_run
  obtain ⟨g, hg⟩ := publishRow_eq ex hregular hpayload hheaders
  rw [hg] at hf
  have hsavepoint : exec keeping 1 .savepoint .ok c.world = some (.ok (), World.record
      { c.world with db := c.world.db.setSession 1 { tx with saved := tx.changes :: tx.saved } }
      ⟨1, .savepoint, .ok ()⟩) := by
    simp [exec, execOp, World.onDb, Database.execSavepoint, Database.inTx, htx, hlive, awaited]
  have hrun₁ := run_step .ok hrun hthread hsavepoint
  rw [hf] at hrun₁
  have hrun₂ := run_step .ok hrun₁ (Function.update_self ..) rfl
  refine ⟨_, { body := text.toUTF8, headers, source := some row.outboxId },
    reachable_run hrun₂ rfl, ?_, congrArg some hid, ex, row.eventType, ?_⟩
  · unfold Finished
    simp only [Function.update_idem]
    exact (Function.update_of_ne (by decide) _ _).trans hfin
  · simp [World.log, World.record]

end Example

end VcsGateway
