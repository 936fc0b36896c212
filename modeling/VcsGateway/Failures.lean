import VcsGateway.Async.Account
import VcsGateway.Calls
import VcsGateway.Outcomes
import VcsGateway.Responses

/-!
# Failures

Which failures of `process_webhook` reach a registered handler, and which exceptions
escape.
-/

namespace VcsGateway

open Async

variable {P : Platform}

/-! ### Bad answers -/

/-- A statement, or the control of a transaction. -/
def Op.onDatabase : Op → Bool
  | .selectTenant _ | .selectWhitelist _ | .selectByPrHashKey _ => true
  | .begin | .commit | .rollback | .savepoint | .release | .rollbackTo => true
  | .insertInbound _ | .insertEvent _ | .cancelScan _ _ | .cancelRow _ _ _ _ => true
  | .dueScan | .lockDue _ | .markDispatched _ | .markFailed _ _ | .markRetry _ _ _ => true
  | _ => false

/-- A database call raised something else than the unique violation that the code expects. -/
def DatabaseFailed (step : GatewayStep) : Prop :=
  step.op.onDatabase = true ∧
    ∃ e, step.result = .error e ∧ e ≠ .cancelledError ∧ e ≠ .uniqueViolationError

/-- A row came back that the model class rejects. -/
inductive Unreadable (P : Platform) : GatewayStep → Prop
  | selected {k : String} {row : InboundEvent} {e : Exn} (h : row.modelValidate P = .error e) :
      Unreadable P ⟨.selectByPrHashKey k, .ok (some row)⟩
  | inserted {args : NewInboundEvent} {row : InboundEvent} {e : Exn}
      (h : row.modelValidate P = .error e) : Unreadable P ⟨.insertInbound args, .ok row⟩

/-- An exception that the code neither raises itself nor catches by its class. -/
def Exn.Raw : Exn → Prop
  | .service _ _ _ | .uniqueViolationError | .cancelledError => False
  | _ => True

/-- `uuid4` and the clock do not raise. -/
def Plausible (step : GatewayStep) : Prop :=
  step.op.Answers step.result ∧ (step.op = .uuid4 ∨ step.op = .utcnow → ∀ e, step.result ≠ .error e)

/-- The account of a call that is not cancelled. -/
def failures (P : Platform) : Account Exn Op Op.Ret where
  possible := Plausible
  bad step := DatabaseFailed step ∨ Unreadable P step
  odd := Exn.Raw
  void e := e = .cancelledError

theorem reachable_credible {allowed : Task → Prop} {c : GatewayConfig} (h : Reachable P allowed c)
    {t : Nat} {step : GatewayStep} (hstep : step ∈ stepsOf c t) : Plausible step := by
  refine ⟨reachable_answers h hstep, ?_⟩
  obtain ⟨c₁, ch, w₂, -, he⟩ := reachable_happened h hstep
  obtain ⟨w₁, h₁, -⟩ := exec_eq_some he
  rcases step with ⟨op, r⟩
  rintro (rfl | rfl) e he
  · obtain ⟨u, -, -, hr, -⟩ := execUuid4_eq_some h₁
    exact absurd (he.symm.trans hr) (by simp)
  · obtain ⟨hr, -⟩ := atOnce_eq_some h₁
    exact absurd (he.symm.trans hr) (by simp)

theorem answers_error {op : Op} {e : Exn} (h : op.Answers (.error e)) :
    e.OfDatabase ∨ e = .uniqueViolationError := by
  cases op with
  | insertInbound args => exact h
  | _ => exact .inl h

theorem Exn.OfDatabase.raw {e : Exn} (h : e.OfDatabase) (hcancel : e ≠ .cancelledError) : e.Raw := by
  cases h with
  | external h =>
    cases h with
    | fault n => trivial
    | cancelled => exact absurd rfl hcancel
  | dataError => trivial
  | inFailedSqlTransaction => trivial

theorem modelValidate_raw {row : InboundEvent} {e : Exn} (h : row.modelValidate P = .error e) :
    e.Raw := by
  obtain rfl := modelValidate_error h
  trivial

/-! ### The pieces of the pipeline -/

/-- An operation that does not read rows of `inbound_event`. -/
def Op.Readless (op : Op) : Prop := (∀ k, op ≠ .selectByPrHashKey k) ∧ ∀ args, op ≠ .insertInbound args

theorem not_unreadable {op : Op} (h : op.Readless) (a : Except Exn op.Ret) :
    ¬Unreadable P ⟨op, a⟩ := by
  intro hbad
  cases hbad with
  | selected _ => exact h.1 _ rfl
  | inserted _ => exact h.2 _ rfl

/-- A bad error of a database call is an odd exception. -/
theorem failed_iff {op : Op} (hdb : op.onDatabase = true) {e : Exn}
    (hp : Plausible ⟨op, .error e⟩) (hcancel : e ≠ .cancelledError) :
    DatabaseFailed ⟨op, .error e⟩ ↔ e.Raw := by
  constructor
  · rintro ⟨-, e', he, hc, hu⟩
    obtain rfl : e = e' := Except.error.inj he
    rcases answers_error hp.1 with h | h
    · exact h.raw hc
    · exact absurd h hu
  · intro hraw
    refine ⟨hdb, e, rfl, hcancel, ?_⟩
    rintro rfl
    exact hraw

theorem perform_blames {op : Op} (hdb : op.onDatabase = true) (hread : op.Readless) :
    (perform op).Blames (failures P) := by
  refine .perform fun a ha hvoid => ?_
  constructor
  · rintro (hfailed | hbad)
    · rcases a with e | a
      · exact ⟨e, rfl, (failed_iff hdb ha (hvoid e rfl)).mp hfailed⟩
      · obtain ⟨-, e, he, -⟩ := hfailed
        simp at he
    · exact absurd hbad (not_unreadable hread a)
  · rintro ⟨e, rfl, hraw⟩
    exact .inl ((failed_iff hdb ha (hvoid e rfl)).mpr hraw)

/-- `uuid4` and the clock. -/
theorem instant_blames {op : Op} (h : op = .uuid4 ∨ op = .utcnow) :
    (perform op).Blames (failures P) := by
  refine .perform fun a ha _ => ?_
  have hok : ∀ e, a ≠ .error e := ha.2 h
  constructor
  · rintro (⟨hdb, -⟩ | hbad)
    · rcases h with rfl | rfl <;> simp [Op.onDatabase] at hdb
    · rcases h with rfl | rfl <;> cases hbad
  · rintro ⟨e, he, -⟩
    exact absurd he (hok e)

/-- A helper that keeps the database alone and its exceptions to itself. -/
theorem suppressed_blames {α : Type} {p : Coroutine α} {ok : Op → Prop} (honly : p.Only ok)
    (hok : ∀ op, ok op → op.onDatabase = false) (hends : p.Ends Suppressed) :
    p.Blames (failures P) := by
  refine .quiet honly ?_ hends ?_
  · rintro op a hop (⟨hdb, -⟩ | hbad)
    · simp [hok op hop] at hdb
    · have hdb := hok op hop
      cases hbad <;> simp [Op.onDatabase] at hdb
  · intro e he hcancel
    exact absurd (he e rfl) hcancel

theorem Op.Journey.not_onDatabase {op : Op} (h : op.Journey) : op.onDatabase = false := by
  cases h <;> rfl

theorem emit_blames (stepType : JourneyStepType) (status : JourneyStepStatus)
    (correlationId tenantId : UUID) (metadata : List (String × Json)) :
    (emit P stepType status correlationId tenantId metadata).Blames (failures P) :=
  suppressed_blames (emit_only P _ _ _ _ _) (fun _ h => h.not_onDatabase) (emit_suppressed P _ _ _ _ _)

theorem getIdempotencyCache_blames (prHashKey : String) :
    (getIdempotencyCache prHashKey).Blames (failures P) := by
  refine suppressed_blames (getIdempotencyCache_only prHashKey) ?_ (getIdempotencyCache_suppressed _)
  rintro op rfl
  rfl

theorem setIdempotencyCache_blames (prHashKey : String) (ttlSeconds : Nat) :
    (setIdempotencyCache prHashKey ttlSeconds).Blames (failures P) := by
  refine suppressed_blames (setIdempotencyCache_only prHashKey _) ?_ (setIdempotencyCache_suppressed _ _)
  rintro op rfl
  rfl

/-- What is left after a row was read: a bad row ends it. -/
theorem validated_blames {α : Type} {row : InboundEvent} {op : Op} {a : Except Exn op.Ret}
    (hrow : ∀ e, row.modelValidate P = .error e → Unreadable P ⟨op, a⟩)
    (hgood : ¬(failures P).bad ⟨op, a⟩) {f : InboundEvent → Coroutine α}
    (hf : ∀ event, (f event).Blames (failures P)) :
    (Prog.ofExcept (row.modelValidate P) >>= f).Blames (failures P) := by
  rcases h : row.modelValidate P with e | event
  · exact absurd (.inr (hrow e h)) hgood
  · exact hf event

/-- What is left after a row was read and rejected. -/
theorem rejected_odd {α : Type} {row : InboundEvent} {e : Exn} (h : row.modelValidate P = .error e)
    {f : InboundEvent → Coroutine α} {steps : List GatewayStep} {r : Except Exn α}
    (hf : (Prog.ofExcept (row.modelValidate P) >>= f).Follows steps r) : (failures P).Odd r := by
  rw [h] at hf
  obtain ⟨-, rfl⟩ := Prog.follows_ret.mp hf
  exact ⟨e, rfl, modelValidate_raw h⟩

/-- An error that is not bad is not odd. -/
theorem error_blames {α : Type} {op : Op} (hdb : op.onDatabase = true) {e : Exn}
    (hp : Plausible ⟨op, .error e⟩) (hgood : ¬(failures P).bad ⟨op, .error e⟩) :
    (Prog.ret (.error e) : Coroutine α).Blames (failures P) := by
  refine .ret (Account.odd_error.not.mpr fun hraw => hgood (.inl ?_))
  refine (failed_iff hdb hp ?_).mpr hraw
  rintro rfl
  exact hraw

theorem getByPrHashKey_blames (prHashKey : String) :
    (getByPrHashKey P prHashKey).Blames (failures P) := by
  refine .await ?_ ?_
  · rintro a ha (hfailed | hbad) steps r hf hcounts
    · rcases a with e | a
      · obtain ⟨-, rfl⟩ := Prog.follows_ret.mp hf
        exact ⟨e, rfl, (failed_iff rfl ha (hcounts.alive e rfl)).mp hfailed⟩
      · obtain ⟨-, e, he, -⟩ := hfailed
        simp at he
    · cases hbad with
      | selected h => exact rejected_odd h hf
  · intro a ha hgood
    rcases a with e | _ | row
    · exact error_blames rfl ha hgood
    · exact .ret Account.not_odd_ok
    · exact validated_blames (fun e h => .selected h) hgood fun _ => .ret Account.not_odd_ok

theorem insertInbound_blames (args : NewInboundEvent) :
    (insertInbound P args).Blames (failures P) := by
  have hvalidate : ∀ row : InboundEvent, (Prog.ofExcept (row.modelValidate P) : Coroutine InboundEvent) =
      Prog.ofExcept (row.modelValidate P) >>= pure := by
    intro row
    rcases row.modelValidate P with e | event <;> rfl
  refine .await ?_ ?_
  · rintro a ha (hfailed | hbad) steps r hf hcounts
    · rcases a with e | a
      · obtain ⟨-, rfl⟩ := Prog.follows_ret.mp hf
        exact ⟨e, rfl, (failed_iff rfl ha (hcounts.alive e rfl)).mp hfailed⟩
      · obtain ⟨-, e, he, -⟩ := hfailed
        simp at he
    · cases hbad with
      | inserted h =>
        change (Prog.ofExcept _ : Coroutine InboundEvent).Follows steps r at hf
        rw [hvalidate] at hf
        exact rejected_odd h hf
  · intro a ha hgood
    rcases a with e | row
    · exact error_blames rfl ha hgood
    · change (Prog.ofExcept _ : Coroutine InboundEvent).Blames _
      rw [hvalidate]
      exact validated_blames (fun e h => .inserted h) hgood fun _ => .ret Account.not_odd_ok

theorem check_blames (prHashKey : String) : (check P prHashKey).Blames (failures P) := by
  refine (getIdempotencyCache_blames prHashKey).bind fun cached => ?_
  rcases cached with _ | v
  · refine (getByPrHashKey_blames prHashKey).bind fun existing => ?_
    rcases existing with _ | row
    · exact .ret Account.not_odd_ok
    · exact (setIdempotencyCache_blames prHashKey _).bind fun _ => .ret Account.not_odd_ok
  · exact .ret Account.not_odd_ok

theorem scheduleEvent_blames (eventType : String) (correlationId : UUID) (prHashKey : String)
    (prVersion : Int) (payload headers : Json) (debounceSeconds : Nat) :
    (scheduleEvent P eventType correlationId prHashKey prVersion payload headers
      debounceSeconds).Blames (failures P) := by
  have hcancel : (cancelPrevious prHashKey prVersion "superseded_by_newer_version").Blames
      (failures P) := by
    refine (perform_blames rfl ⟨by simp, by simp⟩).bind fun ids => ?_
    exact .forEach (fun id => perform_blames rfl ⟨by simp, by simp⟩) ids
  exact hcancel.bind fun _ => perform_blames rfl ⟨by simp, by simp⟩

theorem transaction_blames {α : Type} {body : Coroutine α} (hbody : body.Blames (failures P)) :
    (transaction body).Blames (failures P) := by
  have hcontrol : ∀ op : Op, op.onDatabase = true → op.Readless → (perform op).Blames (failures P) :=
    fun op hdb hread => perform_blames hdb hread
  -- after the rollback the exception goes on, unless the rollback has raised another one
  have hrollback : ∀ (exc : Exn) (steps : List GatewayStep) (r : Except Exn α),
      (do perform .rollback; .throw exc : Coroutine α).Follows steps r → (failures P).Counts steps r →
      r = .error exc ∨ ((failures P).Bad steps ∧ (failures P).Odd r) := by
    intro exc steps r hf hcounts
    rcases Prog.follows_bind.mp hf with ⟨first, rest, u, rfl, -, hend⟩ | ⟨e, rfl, he⟩
    · obtain ⟨-, rfl⟩ := Prog.follows_ret.mp hend
      exact .inl rfl
    · obtain rfl := Prog.follows_perform.mp he
      have ha := hcounts.possible _ List.mem_cons_self
      have hcancel : e ≠ .cancelledError := hcounts.alive e rfl
      have hdb : e.OfDatabase := ha.1
      have hraw : e.Raw := hdb.raw hcancel
      exact .inr ⟨⟨_, List.mem_cons_self, .inl ((failed_iff rfl ha hcancel).mpr hraw)⟩, e, rfl, hraw⟩
  refine (hcontrol .begin rfl ⟨by simp, by simp⟩).bind fun _ => ?_
  refine .andThen hbody ?_ ?_ ?_ ?_
  · intro a
    exact (hcontrol .commit rfl ⟨by simp, by simp⟩).bind fun _ => .ret Account.not_odd_ok
  · intro exc hodd steps r hf hcounts
    rcases hrollback exc steps r hf hcounts with rfl | ⟨-, hr⟩
    · exact ⟨exc, rfl, hodd⟩
    · exact hr
  · intro exc hvoid steps r hf hcounts
    rcases hrollback exc steps r hf hcounts with rfl | h
    · exact absurd hvoid (hcounts.alive exc rfl)
    · exact h
  · intro exc hodd hvoid
    exact (hcontrol .rollback rfl ⟨by simp, by simp⟩).bind fun _ =>
      .ret (Account.odd_error.not.mpr hodd)

/-! ### Persisting -/

theorem persistBody_blames (req : Request) (correlationId eventId : UUID) (timestamp : Time)
    (prData : PullRequestData) (prHashKey : String) (rawJson : List (String × Json)) :
    (persistBody P req correlationId eventId timestamp prData prHashKey rawJson).Blames (failures P) :=
  (insertInbound_blames _).bind fun _ => scheduleEvent_blames _ _ _ _ _ _ _

/-- The `except` clause of `persist`. -/
theorem translate_blames {α : Type} {p : Coroutine α} (hp : p.Blames (failures P)) (prHashKey : String) :
    (p.handle fun exc =>
      match exc with
      | .uniqueViolationError => .throw (alreadyPersisted prHashKey)
      | exc => .throw exc).Blames (failures P) := by
  refine .andThen hp (fun a => .ret Account.not_odd_ok) ?_ ?_ ?_
  · intro exc hodd steps r hf _
    cases exc with
    | uniqueViolationError => exact absurd hodd id
    | _ =>
      obtain ⟨-, rfl⟩ := Prog.follows_ret.mp hf
      exact ⟨_, rfl, hodd⟩
  · rintro exc rfl steps r hf hcounts
    obtain ⟨-, rfl⟩ := Prog.follows_ret.mp hf
    exact absurd rfl (hcounts.alive _ rfl)
  · intro exc hodd _
    cases exc with
    | uniqueViolationError => exact .ret (Account.odd_error.not.mpr id)
    | _ => exact .ret (Account.odd_error.not.mpr hodd)

theorem persist_blames (req : Request) (correlationId : UUID) (prData : PullRequestData)
    (prHashKey : String) {rawJson : List (String × Json)}
    (hloads : loadsDict P req.rawPayload = .ok rawJson) :
    (persist P req correlationId prData prHashKey).Blames (failures P) := by
  refine (instant_blames (.inl rfl)).bind fun eventId => ?_
  rw [hloads]
  change (perform .utcnow >>= _ : Coroutine (UUID × UUID)).Blames (failures P)
  refine (instant_blames (.inr rfl)).bind fun timestamp => ?_
  refine Prog.Blames.bind (translate_blames (transaction_blames ?_) prHashKey) fun outboxId =>
    .ret Account.not_odd_ok
  exact persistBody_blames req correlationId eventId timestamp prData prHashKey rawJson

theorem persistStep_blames (req : Request) (correlationId : UUID) (prData : PullRequestData)
    (prHashKey : String) {rawJson : List (String × Json)}
    (hloads : loadsDict P req.rawPayload = .ok rawJson) :
    (persistStep P req correlationId prData prHashKey).Blames (failures P) := by
  refine .andThen (persist_blames req correlationId prData prHashKey hloads) ?_ ?_ ?_ ?_
  · rintro ⟨eventId, outboxId⟩
    refine (setIdempotencyCache_blames prHashKey _).bind fun _ => ?_
    exact (emit_blames _ _ _ _ _).bind fun _ => .ret Account.not_odd_ok
  · intro exc hodd steps r hf _
    cases exc with
    | service cls message details => exact absurd hodd id
    | _ =>
      obtain ⟨-, rfl⟩ := Prog.follows_ret.mp hf
      exact ⟨_, rfl, hodd⟩
  · rintro exc rfl steps r hf hcounts
    obtain ⟨-, rfl⟩ := Prog.follows_ret.mp hf
    exact absurd rfl (hcounts.alive _ rfl)
  · intro exc hodd _
    cases exc with
    | service cls message details =>
      cases cls with
      | duplicateError => exact .ret Account.not_odd_ok
      | _ => exact .ret (Account.odd_error.not.mpr hodd)
    | _ => exact .ret (Account.odd_error.not.mpr hodd)

/-! ### What can be raised -/

/-- Whatever is raised is raw, a cancellation, or one of the `others`. -/
def Throws {α : Type} (others : Exn → Prop) (r : Except Exn α) : Prop :=
  ∀ e, r = .error e → e.Raw ∨ e = .cancelledError ∨ others e

theorem throws_ok {α : Type} (others : Exn → Prop) (a : α) : Throws others (.ok a) := by
  intro e he
  simp at he

theorem throws_error {α : Type} {others : Exn → Prop} {e : Exn}
    (h : e.Raw ∨ e = .cancelledError ∨ others e) : Throws others (.error e : Except Exn α) := by
  intro e' he
  rw [← Except.error.inj he]
  exact h

theorem Throws.error {α β : Type} {others : Exn → Prop} {e : Exn}
    (h : Throws others (.error e : Except Exn α)) : Throws others (.error e : Except Exn β) :=
  throws_error (h e rfl)

/-- No database call raises a unique violation, but for the insertion into `inbound_event`. -/
theorem perform_throws {op : Op} (others : Exn → Prop)
    (h : (∀ args, op ≠ .insertInbound args) ∨ others .uniqueViolationError) :
    (perform op).Gives Plausible (Throws others) := by
  refine ⟨trivial, fun r hr => ?_⟩
  have hdb : ∀ e, r = .error e → e.OfDatabase ∨ others e := by
    rintro e rfl
    cases op with
    | insertInbound args =>
      rcases hr.1 with hdb | rfl
      · exact .inl hdb
      · exact .inr (h.resolve_left fun hne => hne args rfl)
    | _ => exact .inl hr.1
  intro e he
  by_cases hcancel : e = .cancelledError
  · exact .inr (.inl hcancel)
  · exact (hdb e he).elim (fun h => .inl (h.raw hcancel)) fun h => .inr (.inr h)

theorem bind_throws {α β : Type} {others : Exn → Prop} {p : Coroutine α} {f : α → Coroutine β}
    (hp : p.Gives Plausible (Throws others)) (hf : ∀ a, (f a).Gives Plausible (Throws others)) :
    (p >>= f).Gives Plausible (Throws others) :=
  hp.bind (fun a _ => hf a) fun _ he => he.error

theorem forEach_throws {β : Type} {others : Exn → Prop} {body : β → Coroutine Unit}
    (hbody : ∀ x, (body x).Gives Plausible (Throws others)) (xs : List β) :
    (Prog.forEach xs body).Gives Plausible (Throws others) := by
  induction xs with
  | nil => exact throws_ok others ()
  | cons x xs ih => exact bind_throws (hbody x) fun _ => ih

theorem suppressed_throws {α : Type} {p : Coroutine α} (others : Exn → Prop)
    (h : p.Ends Suppressed) : p.Gives Plausible (Throws others) := by
  apply h.gives.mono
  intro r hr e he
  have hcancel : e = .cancelledError := hr e he
  exact .inr (.inl hcancel)

theorem validated_throws (others : Exn → Prop) (row : InboundEvent) :
    (Prog.ofExcept (row.modelValidate P) : Coroutine InboundEvent).Gives Plausible (Throws others) := by
  intro e he
  exact .inl (modelValidate_raw he)

theorem getByPrHashKey_throws (others : Exn → Prop) (prHashKey : String) :
    (getByPrHashKey P prHashKey).Gives Plausible (Throws others) := by
  refine bind_throws (perform_throws others (.inl (by simp))) fun row => ?_
  rcases row with _ | row
  · exact throws_ok others none
  · exact bind_throws (validated_throws others row) fun _ => throws_ok others _

theorem check_throws (others : Exn → Prop) (prHashKey : String) :
    (check P prHashKey).Gives Plausible (Throws others) := by
  refine bind_throws (suppressed_throws others (getIdempotencyCache_suppressed _)) fun cached => ?_
  rcases cached with _ | v
  · refine bind_throws (getByPrHashKey_throws others prHashKey) fun existing => ?_
    rcases existing with _ | row
    · exact throws_ok others none
    · exact bind_throws (suppressed_throws others (setIdempotencyCache_suppressed _ _)) fun _ =>
        throws_ok others _
  · exact throws_ok others _

theorem persistBody_throws (req : Request) (correlationId eventId : UUID) (timestamp : Time)
    (prData : PullRequestData) (prHashKey : String) (rawJson : List (String × Json)) :
    (persistBody P req correlationId eventId timestamp prData prHashKey rawJson).Gives Plausible
      (Throws (· = .uniqueViolationError)) := by
  have hcancel : (cancelPrevious prHashKey 1 "superseded_by_newer_version").Gives Plausible
      (Throws (· = .uniqueViolationError)) :=
    bind_throws (perform_throws (fun e => e = .uniqueViolationError) (.inr rfl)) fun ids =>
      forEach_throws (fun id => perform_throws (fun e => e = .uniqueViolationError) (.inr rfl)) ids
  refine bind_throws (bind_throws (perform_throws (fun e => e = .uniqueViolationError) (.inr rfl)) fun row => validated_throws _ row)
    fun _ => ?_
  exact bind_throws hcancel fun _ => perform_throws (fun e => e = .uniqueViolationError) (.inr rfl)

theorem transaction_throws {α : Type} {others : Exn → Prop} {body : Coroutine α}
    (hbody : body.Gives Plausible (Throws others)) :
    (transaction body).Gives Plausible (Throws others) := by
  refine bind_throws (perform_throws others (.inl (by simp))) fun _ => ?_
  refine hbody.andThen fun r hr => ?_
  cases r with
  | ok a => exact bind_throws (perform_throws others (.inl (by simp))) fun _ => throws_ok others a
  | error exc => exact bind_throws (perform_throws others (.inl (by simp))) fun _ => hr

/-- What `persist` raises; the duplicate error is the translated unique violation. -/
theorem persist_throws (req : Request) (correlationId : UUID) (prData : PullRequestData)
    (prHashKey : String) :
    (persist P req correlationId prData prHashKey).Gives Plausible
      (Throws (· = alreadyPersisted prHashKey)) := by
  have hloads : ∀ e, loadsDict P req.rawPayload = .error e → e.Raw := by
    intro e he
    unfold loadsDict at he
    split at he
    · rw [← Except.error.inj he]; trivial
    · simp at he
    · rw [← Except.error.inj he]; trivial
  refine bind_throws (perform_throws _ (.inl (by simp))) fun eventId => ?_
  refine bind_throws (fun e he => .inl (hloads e he)) fun rawJson => ?_
  refine bind_throws (perform_throws _ (.inl (by simp))) fun timestamp => ?_
  refine bind_throws ?_ fun outboxId => throws_ok _ _
  refine (transaction_throws (persistBody_throws req correlationId eventId timestamp prData prHashKey
    rawJson)).andThen fun r hr => ?_
  rcases r with exc | outboxId
  · rcases hr exc rfl with hraw | rfl | rfl
    · cases exc with
      | service | uniqueViolationError | cancelledError => exact hraw.elim
      | _ => exact throws_error (.inl trivial)
    · exact throws_error (.inr (.inl rfl))
    · exact throws_error (.inr (.inr rfl))
  · exact throws_ok _ outboxId

theorem persistStep_throws (req : Request) (correlationId : UUID) (prData : PullRequestData)
    (prHashKey : String) :
    (persistStep P req correlationId prData prHashKey).Gives Plausible (Throws fun _ => False) := by
  refine (persist_throws req correlationId prData prHashKey).andThen fun r hr => ?_
  rcases r with exc | ⟨eventId, outboxId⟩
  · rcases hr exc rfl with hraw | rfl | rfl
    · cases exc with
      | service => exact hraw.elim
      | _ => exact throws_error (.inl hraw)
    · exact throws_error (.inr (.inl rfl))
    · exact throws_ok _ _
  · refine bind_throws (suppressed_throws _ (setIdempotencyCache_suppressed _ _)) fun _ => ?_
    exact bind_throws (suppressed_throws _ (emit_suppressed P _ _ _ _ _)) fun _ => throws_ok _ _

theorem idempotencyStep_throws (req : Request) (correlationId : UUID) (prData : PullRequestData)
    (prHashKey : String) :
    (idempotencyStep P req correlationId prData prHashKey).Gives Plausible
      (Throws fun _ => False) := by
  refine bind_throws (check_throws _ prHashKey) fun detection => ?_
  rcases detection with _ | detection
  · exact bind_throws (suppressed_throws _ (emit_suppressed P _ _ _ _ _)) fun _ =>
      persistStep_throws req correlationId prData prHashKey
  · exact bind_throws (suppressed_throws _ (emit_suppressed P _ _ _ _ _)) fun _ => throws_ok _ _

/-! ### The idempotency step -/

/-- The lookup in `inbound_event` found nothing. -/
def FoundNothing (steps : List GatewayStep) : Prop :=
  ∃ k, (⟨.selectByPrHashKey k, .ok none⟩ : GatewayStep) ∈ steps

theorem not_foundNothing {steps : List GatewayStep}
    (h : ∀ step ∈ steps, ∀ k, step.op ≠ .selectByPrHashKey k) : ¬FoundNothing steps := by
  rintro ⟨k, hk⟩
  exact h _ hk k rfl

theorem foundNothing_append {first rest : List GatewayStep} :
    FoundNothing (first ++ rest) ↔ FoundNothing first ∨ FoundNothing rest := by
  simp [FoundNothing, exists_or]

theorem foundNothing_cons {step : GatewayStep} {rest : List GatewayStep}
    (h : ∀ k, step.op ≠ .selectByPrHashKey k) : FoundNothing (step :: rest) ↔ FoundNothing rest := by
  rw [← List.singleton_append, foundNothing_append]
  refine or_iff_right (not_foundNothing ?_)
  intro step' hstep
  rw [List.mem_singleton.mp hstep]
  exact h

theorem Op.Journey.ne_select {op : Op} (h : op.Journey) (k : String) : op ≠ .selectByPrHashKey k := by
  rintro rfl
  cases h

/-- `check` answers `None` exactly when it found nothing. -/
theorem check_follows_none {prHashKey : String} {steps : List GatewayStep}
    {r : Except Exn (Option Detection)} (h : (check P prHashKey).Follows steps r) :
    FoundNothing steps ↔ r = .ok none := by
  have hcache : ∀ {first : List GatewayStep} {r : Except Exn (Option String)},
      (getIdempotencyCache prHashKey).Follows first r → ¬FoundNothing first := by
    intro first r hfirst
    apply not_foundNothing
    intro step hstep k
    rw [(getIdempotencyCache_only prHashKey).follows hfirst step hstep]
    simp
  rcases Prog.follows_bind.mp h with ⟨first, later, cached, rfl, hfirst, hlater⟩ | ⟨e, rfl, he⟩
  swap
  · simp [hcache he]
  rw [foundNothing_append, or_iff_right (hcache hfirst)]
  rcases cached with _ | v
  swap
  · obtain ⟨rfl, rfl⟩ := Prog.follows_ret.mp hlater
    simp [FoundNothing]
  obtain ⟨a, rest, rfl, hrest⟩ := Prog.follows_await.mp hlater
  rcases a with e | _ | row
  · obtain ⟨rfl, rfl⟩ := Prog.follows_ret.mp hrest
    simp [FoundNothing]
  · obtain ⟨rfl, rfl⟩ := Prog.follows_ret.mp hrest
    simp [FoundNothing]
  · have hrow : ¬FoundNothing [⟨.selectByPrHashKey prHashKey, .ok (some row)⟩] := by
      simp [FoundNothing]
    rw [← List.singleton_append, foundNothing_append, or_iff_right hrow]
    change ((Prog.ofExcept (row.modelValidate P) >>= _).andThen _).Follows rest r at hrest
    rcases hvalid : row.modelValidate P with e | event
    · rw [hvalid] at hrest
      obtain ⟨rfl, rfl⟩ := Prog.follows_ret.mp hrest
      simp [FoundNothing]
    · rw [hvalid] at hrest
      change (setIdempotencyCache prHashKey _ >>= fun _ => pure (some Detection.dbLookup)).Follows rest r
        at hrest
      have hset : ∀ {first : List GatewayStep} {r : Except Exn Unit},
          (setIdempotencyCache prHashKey P.settings.redisIdempotencyTtlSeconds).Follows first r →
          ¬FoundNothing first := by
        intro first r hfirst
        apply not_foundNothing
        intro step hstep k
        rw [(setIdempotencyCache_only prHashKey _).follows hfirst step hstep]
        simp
      rcases Prog.follows_bind.mp hrest with ⟨first, last, u, rfl, hfirst, hlast⟩ | ⟨e, rfl, he⟩
      · obtain ⟨rfl, rfl⟩ := Prog.follows_ret.mp hlast
        simp [hset hfirst]
      · simp [hset he]

theorem idempotencyStep_blames (req : Request) (correlationId : UUID) (prData : PullRequestData)
    (prHashKey : String) {rawJson : List (String × Json)}
    (hloads : loadsDict P req.rawPayload = .ok rawJson) :
    (idempotencyStep P req correlationId prData prHashKey).Blames (failures P) := by
  refine (check_blames prHashKey).bind fun detection => ?_
  rcases detection with _ | detection
  · exact (emit_blames _ _ _ _ _).bind fun _ =>
      persistStep_blames req correlationId prData prHashKey hloads
  · exact (emit_blames _ _ _ _ _).bind fun _ => .ret Account.not_odd_ok

/-- A body that `json.loads` refuses raises in `persist`. -/
theorem persistStep_follows_unloaded {req : Request} {correlationId : UUID} {prData : PullRequestData}
    {prHashKey : String} {e : Exn} (hloads : loadsDict P req.rawPayload = .error e) (he : e.Raw)
    {steps : List GatewayStep} {r : Except Exn WebhookResult}
    (h : (persistStep P req correlationId prData prHashKey).Follows steps r)
    (hsteps : ∀ step ∈ steps, Plausible step) : r = .error e := by
  obtain ⟨first, rest, a, rfl, hpersist, hrest⟩ := Prog.follows_andThen.mp h
  obtain ⟨b, later, rfl, hlater⟩ := Prog.follows_await.mp hpersist
  rcases b with e' | eventId
  · exact absurd rfl ((hsteps _ (List.mem_append_left _ List.mem_cons_self)).2 (.inl rfl) e')
  · change ((Prog.ofExcept (loadsDict P req.rawPayload) >>= _ : Coroutine (UUID × UUID))).Follows later a
      at hlater
    rw [hloads] at hlater
    obtain ⟨rfl, rfl⟩ := Prog.follows_ret.mp hlater
    cases e with
    | service => exact he.elim
    | _ => exact (Prog.follows_ret.mp hrest).2

theorem loadsDict_raw {rawPayload : ByteArray} {e : Exn} (h : loadsDict P rawPayload = .error e) :
    e.Raw := by
  unfold loadsDict at h
  split at h
  · rw [← Except.error.inj h]; trivial
  · simp at h
  · rw [← Except.error.inj h]; trivial

/-- **The failures of steps 5 and 6.** -/
theorem idempotencyStep_fails {req : Request} {correlationId : UUID} {prData : PullRequestData}
    {prHashKey : String} {steps : List GatewayStep} {r : Except Exn WebhookResult}
    (h : (idempotencyStep P req correlationId prData prHashKey).Follows steps r)
    (hcounts : (failures P).Counts steps r) :
    ((failures P).Bad steps ∨ FoundNothing steps ∧ ∃ e, loadsDict P req.rawPayload = .error e) ↔
      (failures P).Odd r := by
  rcases hloads : loadsDict P req.rawPayload with exc | rawJson
  swap
  · rw [← idempotencyStep_blames req correlationId prData prHashKey hloads steps r h hcounts]
    simp
  rcases Prog.follows_bind.mp h with ⟨first, rest, detection, rfl, hfirst, hrest⟩ | ⟨e, rfl, he⟩
  · have hfound : FoundNothing first ↔ detection = none := by
      rw [check_follows_none hfirst]
      simp
    rcases detection with _ | detection
    · -- nothing was found, and `persist` raises
      have hnothing : FoundNothing (first ++ rest) := foundNothing_append.mpr (.inl (hfound.mpr rfl))
      suffices hr : r = .error exc from by
        subst hr
        exact ⟨fun _ => ⟨exc, rfl, loadsDict_raw hloads⟩, fun _ => .inr ⟨hnothing, exc, rfl⟩⟩
      rcases Prog.follows_bind.mp hrest with ⟨s₁, s₂, u, rfl, -, hpersist⟩ | ⟨e, rfl, he⟩
      · refine persistStep_follows_unloaded hloads (loadsDict_raw hloads) hpersist fun step hstep => ?_
        exact hcounts.possible step (List.mem_append_right _ (List.mem_append_right _ hstep))
      · rcases emit_follows he with hok | hcancel
        · simp at hok
        · exact absurd (Except.error.inj hcancel) (hcounts.alive e rfl)
    · let tail : Coroutine WebhookResult := do
        emit P .idempotencyChecked .info correlationId req.tenantId
          [("detection_method", .str detection.value)]
        pure (.duplicate correlationId prHashKey detection)
      have htail : tail.Blames (failures P) :=
        (emit_blames _ _ _ _ _).bind fun _ => .ret Account.not_odd_ok
      have honly : tail.Only Op.Journey := (emit_only P _ _ _ _ _).bind fun _ => trivial
      have hrest' : ¬FoundNothing rest := by
        apply not_foundNothing
        intro step hstep k
        exact (honly.follows hrest step hstep).ne_select k
      have hnothing : ¬FoundNothing (first ++ rest) := by
        rw [foundNothing_append, hfound]
        simp [hrest']
      have hgood : ¬(failures P).Bad first := by
        rw [check_blames prHashKey first _ hfirst ⟨fun step hstep => hcounts.possible step
          (List.mem_append_left _ hstep), by simp⟩]
        exact Account.not_odd_ok
      rw [or_iff_left fun h => hnothing h.1, Account.bad_append, or_iff_right hgood]
      exact htail rest r hrest hcounts.rest
  · have hfound : ¬FoundNothing steps := by
      rw [check_follows_none he]
      simp
    rw [or_iff_left fun h => hfound h.1]
    have hcounts' : (failures P).Counts steps (.error e : Except Exn (Option Detection)) :=
      ⟨hcounts.possible, fun e' he' => hcounts.alive e' (by rw [Except.error.inj he'])⟩
    rw [check_blames prHashKey steps _ he hcounts', Account.odd_error, Account.odd_error]

/-! ### The whole call -/

/-- The call raises an error of this class, and its handler answers with this status. -/
def RaisesAs (cls : ServiceErrorClass) (status : Nat) (r : Except Exn WebhookResult) : Prop :=
  ∃ message details response, r = .error (.service cls message details) ∧
    (Exn.service cls message details).response = some response ∧ response.status = status

/-- Every failure surfaces as an error that the application handles. -/
structure Surfaced (P : Platform) (req : Request) (steps : List GatewayStep)
    (r : Except Exn WebhookResult) : Prop where
  handled : ∀ e, r = .error e → ∃ response, e.response = some response
  missing : ⟨.selectTenant req.tenantId, .ok none⟩ ∈ steps → RaisesAs .notFoundError 404 r
  inactive : ∀ tenant, ⟨.selectTenant req.tenantId, .ok (some tenant)⟩ ∈ steps →
    tenant.isActive = false → RaisesAs .validationError 403 r
  signature : ∀ correlationId secret whitelist rest,
    LookedUp P req steps correlationId secret whitelist rest → ¬Verifies P req secret →
    RaisesAs .validationError 401 r
  body : ∀ correlationId secret whitelist rest,
    LookedUp P req steps correlationId secret whitelist rest → Verifies P req secret →
    (∀ prData, parsePayload P req.vcsProvider req.rawPayload ≠ .ok prData) →
    RaisesAs .validationError 400 r
  database : ∀ step ∈ steps, DatabaseFailed step → RaisesAs .databaseError 500 r

/-- Nothing happens that the code does not translate. -/
structure Handleable (P : Platform) (req : Request) (steps : List GatewayStep) : Prop where
  database : ∀ step ∈ steps, ¬DatabaseFailed step
  rows : ∀ step ∈ steps, ¬Unreadable P step
  header : ∀ correlationId secret whitelist rest,
    LookedUp P req steps correlationId secret whitelist rest → Checkable req
  body : ∀ correlationId secret whitelist rest,
    LookedUp P req steps correlationId secret whitelist rest → Verifies P req secret →
    ∃ prData, parsePayload P req.vcsProvider req.rawPayload = .ok prData
  message : FoundNothing steps → ∃ items, loadsDict P req.rawPayload = .ok items

section

variable {req : Request} {steps : List GatewayStep} {r : Except Exn WebhookResult}
  {correlationId : UUID} {secret : String} {whitelist : List VcsEventWhitelist}
  {rest : List GatewayStep}

theorem Handleable.good (h : Handleable P req steps) : ¬(failures P).Bad steps := by
  rintro ⟨step, hstep, hbad | hbad⟩
  · exact h.database step hstep hbad
  · exact h.rows step hstep hbad

theorem raw_unhandled {e : Exn} (h : e.Raw) (response : Response) : e.response ≠ some response := by
  intro hresponse
  obtain ⟨cls, message, details, rfl⟩ := Exn.response_eq_some hresponse
  exact h

/-- A raw exception has no handler. -/
theorem Surfaced.not_odd (h : Surfaced P req steps r) : ¬(failures P).Odd r := by
  rintro ⟨e, he, hraw⟩
  obtain ⟨response, hresponse⟩ := h.handled e he
  exact raw_unhandled hraw response hresponse

theorem LookedUp.unique {correlationId' : UUID} {secret' : String}
    {whitelist' : List VcsEventWhitelist} {rest' : List GatewayStep}
    (h : LookedUp P req steps correlationId secret whitelist rest)
    (h' : LookedUp P req steps correlationId' secret' whitelist' rest') :
    secret' = secret ∧ rest' = rest := by
  obtain ⟨lookup, hlookup, rfl⟩ := h
  obtain ⟨lookup', hlookup', heq⟩ := h'
  simp only [List.cons.injEq, Step.mk.injEq, heq_eq_eq, Except.ok.injEq, true_and] at heq
  obtain ⟨-, heq⟩ := heq
  obtain ⟨-, hsecret, htail⟩ := hlookup.unique hlookup' heq
  simp only [List.cons.injEq] at htail
  exact ⟨(Except.ok.inj hsecret).symm, htail.2.symm⟩

/-- A lookup that gave a secret met an active tenant, and no failure. -/
theorem lookup_steps {tenantId : UUID} {lookup : List GatewayStep}
    (h : (getWebhookSecret P tenantId).Follows lookup (.ok secret)) :
    ¬(failures P).Bad lookup ∧ ¬FoundNothing lookup ∧ ∀ a, ⟨.selectTenant tenantId, a⟩ ∈ lookup →
      ∃ tenant : Tenant, a = .ok (some tenant) ∧ tenant.isActive = true := by
  have hredis : ∀ {op : Op} (a : Except Exn op.Ret), op.onDatabase = false → op.Readless →
      ¬(failures P).bad ⟨op, a⟩ := by
    rintro op a hop hread (⟨hdb, -⟩ | hbad)
    · simp [hop] at hdb
    · exact not_unreadable hread a hbad
  obtain ⟨a, later, rfl, hcases⟩ := getWebhookSecret_follows h
  rcases hcases with ⟨-, hr⟩ | ⟨rfl, -⟩ | ⟨e, -, hr⟩ | ⟨-, hr⟩ | ⟨tenant, ⟨-, -, hr⟩ | ⟨hactive, b, rfl, -⟩⟩
  · simp at hr
  · refine ⟨?_, by simp [FoundNothing], by simp⟩
    rw [Account.bad_cons]
    exact not_or.mpr ⟨hredis a rfl ⟨by simp, by simp⟩, Account.bad_nil⟩
  · simp at hr
  · simp at hr
  · simp at hr
  · refine ⟨?_, by simp [FoundNothing], ?_⟩
    · rw [Account.bad_cons, Account.bad_cons, Account.bad_cons]
      have hselect : ¬(failures P).bad ⟨.selectTenant tenantId, .ok (some tenant)⟩ := by
        rintro (⟨-, e, he, -⟩ | hbad)
        · simp at he
        · cases hbad
      simp only [not_or]
      exact ⟨hredis a rfl ⟨by simp, by simp⟩, hselect, hredis b rfl ⟨by simp, by simp⟩, Account.bad_nil⟩
    · intro a' ha'
      simp only [List.mem_cons, Step.mk.injEq, reduceCtorEq, false_and, true_and, heq_eq_eq,
        List.not_mem_nil, or_false, false_or] at ha'
      exact ⟨tenant, ha', hactive⟩

theorem raisesAs_not_database {status status' : Nat} {cls : ServiceErrorClass}
    (h : RaisesAs cls status r) (hne : cls ≠ .databaseError) : ¬RaisesAs .databaseError status' r := by
  rintro ⟨message, details, -, heq, -⟩
  obtain ⟨message', details', -, heq', -⟩ := h
  rw [heq'] at heq
  simp only [Except.error.injEq, Exn.service.injEq] at heq
  exact hne heq.1

/-- A raw exception: it has no handler, and it goes back to an untranslated failure. -/
theorem surfaced_iff_of_odd (hodd : (failures P).Odd r) (h : ¬Handleable P req steps) :
    Surfaced P req steps r ↔ Handleable P req steps :=
  ⟨fun hs => absurd hodd hs.not_odd, fun hh => absurd hh h⟩

/-- A call that ends before it knows the secret. -/
theorem surfaced_iff_of_lookup {e : Exn} {later : List GatewayStep}
    (hsteps : steps = ⟨.uuid4, .ok correlationId⟩ :: later)
    (hf : (getWebhookSecret P req.tenantId).Follows later (.error e))
    (hcached : ∀ raw cached, ⟨.redisGet (tenantConfigKey req.tenantId), .ok (some raw)⟩ ∈ steps →
      P.loadsStr raw = some cached → ∃ secret, secretOfCache P cached = .ok secret)
    (hcredible : ∀ step ∈ steps, Plausible step) (hcancel : e ≠ .cancelledError) :
    Surfaced P req steps (.error e) ↔ Handleable P req steps := by
  have hlook : ∀ correlationId secret whitelist rest,
      ¬LookedUp P req steps correlationId secret whitelist rest := by
    rintro correlationId' secret whitelist rest ⟨lookup, hlookup, heq⟩
    rw [hsteps] at heq
    simp only [List.cons.injEq] at heq
    obtain ⟨-, hresult, -⟩ := hlookup.unique hf (heq.2.symm.trans (List.append_nil later).symm)
    simp at hresult
  obtain ⟨a, rest, rfl, hcases⟩ := getWebhookSecret_follows hf
  -- a row that was read, or read to be missing, is no failure
  have hread : ∀ b : Option Tenant, rest = [⟨.selectTenant req.tenantId, .ok b⟩] →
      Handleable P req steps ∧ ∀ step ∈ steps, ¬DatabaseFailed step := by
    rintro b rfl
    have hdb : ∀ step ∈ steps, ¬DatabaseFailed step := by
      intro step hstep
      simp only [hsteps, List.mem_cons, List.not_mem_nil, or_false] at hstep
      rcases hstep with rfl | rfl | rfl
      · rintro ⟨hdb, -⟩
        simp [Op.onDatabase] at hdb
      · rintro ⟨hdb, -⟩
        simp [Op.onDatabase] at hdb
      · rintro ⟨-, exc, hexc, -⟩
        simp at hexc
    refine ⟨⟨hdb, ?_, fun _ _ _ _ h => absurd h (hlook _ _ _ _), fun _ _ _ _ h => absurd h (hlook _ _ _ _),
      ?_⟩, hdb⟩
    · intro step hstep hbad
      simp only [hsteps, List.mem_cons, List.not_mem_nil, or_false] at hstep
      rcases hstep with rfl | rfl | rfl <;> cases hbad
    · intro hfound
      refine absurd hfound (not_foundNothing ?_)
      intro step hstep k
      simp only [hsteps, List.mem_cons, List.not_mem_nil, or_false] at hstep
      rcases hstep with rfl | rfl | rfl <;> simp
  rcases hcases with ⟨-, hr⟩ | ⟨-, raw, cached, rfl, hloads, hr⟩ | ⟨exc, rfl, hr⟩ | ⟨rfl, hr⟩ |
    ⟨tenant, ⟨hactive, rfl, hr⟩ | ⟨-, b, -, hr | hr⟩⟩
  · exact absurd (Except.error.inj hr) hcancel
  · obtain ⟨secret, hsecret⟩ := hcached raw cached (by simp [hsteps]) hloads
    simp [hsecret] at hr
  · -- the row could not be read
    obtain rfl := Except.error.inj hr
    have hmem : (⟨.selectTenant req.tenantId, .error e⟩ : GatewayStep) ∈ steps := by simp [hsteps]
    have hdb : e.OfDatabase := (hcredible _ hmem).1
    have hraw := hdb.raw hcancel
    refine surfaced_iff_of_odd ⟨e, rfl, hraw⟩ fun hh => hh.database _ hmem ?_
    exact (failed_iff rfl (hcredible _ hmem) hcancel).mpr hraw
  · obtain rfl := Except.error.inj hr
    obtain ⟨hhandle, hdb⟩ := hread none rfl
    have hraises : RaisesAs .notFoundError 404 (.error (tenantNotFound req.tenantId)) :=
      ⟨_, _, _, rfl, rfl, rfl⟩
    refine ⟨fun _ => hhandle, fun _ => ⟨?_, fun _ => hraises, ?_, fun _ _ _ _ h => absurd h (hlook _ _ _ _),
      fun _ _ _ _ h => absurd h (hlook _ _ _ _), fun step hstep h => absurd h (hdb step hstep)⟩⟩
    · intro exc hexc
      rw [← Except.error.inj hexc]
      exact ⟨_, rfl⟩
    · intro tenant htenant
      simp [hsteps] at htenant
  · obtain rfl := Except.error.inj hr
    obtain ⟨hhandle, hdb⟩ := hread (some tenant) rfl
    have hraises : RaisesAs .validationError 403 (.error tenantInactive) := ⟨_, _, _, rfl, rfl, rfl⟩
    refine ⟨fun _ => hhandle, fun _ => ⟨?_, ?_, fun _ _ _ => hraises, fun _ _ _ _ h => absurd h (hlook _ _ _ _),
      fun _ _ _ _ h => absurd h (hlook _ _ _ _), fun step hstep h => absurd h (hdb step hstep)⟩⟩
    · intro exc hexc
      rw [← Except.error.inj hexc]
      exact ⟨_, rfl⟩
    · intro hmissing
      simp [hsteps] at hmissing
  · simp at hr
  · exact absurd (Except.error.inj hr) hcancel

/-- The steps of a call that knows the secret, up to the signature check. -/
theorem LookedUp.harmless (h : LookedUp P req steps correlationId secret whitelist rest) :
    ((failures P).Bad steps ↔ (failures P).Bad rest) ∧ (FoundNothing steps ↔ FoundNothing rest) ∧
      ∀ a, ⟨.selectTenant req.tenantId, a⟩ ∈ steps →
        (∃ tenant : Tenant, a = .ok (some tenant) ∧ tenant.isActive = true) ∨
          ⟨.selectTenant req.tenantId, a⟩ ∈ rest := by
  obtain ⟨lookup, hlookup, rfl⟩ := h
  obtain ⟨hgood, hfound, hactive⟩ := lookup_steps hlookup
  have huuid : ¬(failures P).bad ⟨.uuid4, .ok correlationId⟩ := by
    rintro (⟨hdb, -⟩ | hbad)
    · simp [Op.onDatabase] at hdb
    · cases hbad
  have hwhitelist : ¬(failures P).bad ⟨.selectWhitelist req.vcsProvider, .ok whitelist⟩ := by
    rintro (⟨-, e, he, -⟩ | hbad)
    · simp at he
    · cases hbad
  refine ⟨?_, ?_, ?_⟩
  · rw [Account.bad_cons, Account.bad_append, Account.bad_cons, or_iff_right huuid,
      or_iff_right hgood, or_iff_right hwhitelist]
  · rw [foundNothing_cons (by simp), foundNothing_append, foundNothing_cons (by simp),
      or_iff_right hfound]
  · intro a ha
    simp only [List.mem_cons, List.mem_append, Step.mk.injEq, reduceCtorEq, false_and, false_or] at ha
    rcases ha with ha | ha
    · exact .inl (hactive a ha)
    · exact .inr ha

/-- A failed database call is a bad answer. -/
theorem not_failed_of_good (h : ¬(failures P).Bad steps) : ∀ step ∈ steps, ¬DatabaseFailed step :=
  fun step hstep hfailed => h ⟨step, hstep, .inl hfailed⟩

theorem not_unreadable_of_good (h : ¬(failures P).Bad steps) : ∀ step ∈ steps, ¬Unreadable P step :=
  fun step hstep hbad => h ⟨step, hstep, .inr hbad⟩

/-- After the lookup the tenant is known to be active. -/
theorem LookedUp.active (h : LookedUp P req steps correlationId secret whitelist rest)
    (hrest : ∀ step ∈ rest, ∀ id, step.op ≠ .selectTenant id) :
    ⟨.selectTenant req.tenantId, .ok none⟩ ∉ steps ∧
      ∀ tenant, ⟨.selectTenant req.tenantId, .ok (some tenant)⟩ ∈ steps → tenant.isActive = true := by
  obtain ⟨-, -, hselect⟩ := h.harmless
  constructor
  · intro hmem
    rcases hselect _ hmem with ⟨tenant, heq, -⟩ | hmem
    · simp at heq
    · exact hrest _ hmem _ rfl
  · intro tenant hmem
    rcases hselect _ hmem with ⟨tenant', heq, hactive⟩ | hmem
    · simp only [Except.ok.injEq, Option.some.injEq] at heq
      rw [heq]
      exact hactive
    · exact absurd rfl (hrest _ hmem _)

/-- A request that does not verify. -/
theorem surfaced_iff_of_rejected (hlook : LookedUp P req steps correlationId secret whitelist rest)
    (hcheck : Checkable req) (hver : ¬Verifies P req secret)
    (hrejected : Rejected P req correlationId rest r)
    (hcredible : ∀ step ∈ steps, Plausible step) :
    Surfaced P req steps r ↔ Handleable P req steps := by
  obtain ⟨hbad, hfound, -⟩ := hlook.harmless
  obtain rfl := hrejected.result
  have hsub : ∀ step ∈ rest, step ∈ steps := by
    obtain ⟨lookup, -, rfl⟩ := hlook
    intro step hstep
    simp [hstep]
  have hjourney : ∀ step ∈ rest, step.op.Journey :=
    (emit_only P _ _ _ _ _).follows hrejected.traced
  have hgood : ¬(failures P).Bad steps := by
    rw [hbad, emit_blames _ _ _ _ _ rest _ hrejected.traced
      ⟨fun step hstep => hcredible step (hsub step hstep), by simp⟩]
    exact Account.not_odd_ok
  have hnothing : ¬FoundNothing steps := by
    rw [hfound]
    exact not_foundNothing fun step hstep k => (hjourney step hstep).ne_select k
  obtain ⟨hmissing, hactive⟩ := hlook.active fun step hstep id heq => by
    have hj := hjourney step hstep
    rw [heq] at hj
    cases hj
  have hraises : RaisesAs .validationError 401 (.error invalidSignature) := ⟨_, _, _, rfl, rfl, rfl⟩
  have hsecret : ∀ correlationId' secret' whitelist' rest',
      LookedUp P req steps correlationId' secret' whitelist' rest' → ¬Verifies P req secret' := by
    intro _ secret' _ _ hlook'
    rw [(hlook.unique hlook').1]
    exact hver
  constructor
  · intro _
    exact ⟨not_failed_of_good hgood, not_unreadable_of_good hgood, fun _ _ _ _ _ => hcheck,
      fun _ _ _ _ hlook' hver' => absurd hver' (hsecret _ _ _ _ hlook'), fun h => absurd h hnothing⟩
  · intro _
    refine ⟨?_, fun h => absurd h hmissing, ?_, fun _ _ _ _ _ _ => hraises, ?_, ?_⟩
    · intro e he
      rw [← Except.error.inj he]
      exact ⟨_, rfl⟩
    · intro tenant htenant hinactive
      simp [hactive tenant htenant] at hinactive
    · intro _ _ _ _ hlook' hver'
      exact absurd hver' (hsecret _ _ _ _ hlook')
    · intro step hstep hfailed
      exact absurd hfailed (not_failed_of_good hgood step hstep)

/-- A request that verifies, and whose call returns. -/
theorem surfaced_of_returned (hlook : LookedUp P req steps correlationId secret whitelist rest)
    (hcheck : Checkable req) (hver : Verifies P req secret) {prData : PullRequestData}
    (hparse : parsePayload P req.vcsProvider req.rawPayload = .ok prData)
    (hgood : ¬(failures P).Bad steps)
    (hmessage : FoundNothing steps → ∃ items, loadsDict P req.rawPayload = .ok items)
    (hrest : ∀ step ∈ rest, ∀ id, step.op ≠ .selectTenant id) (result : WebhookResult) :
    Surfaced P req steps (.ok result) ↔ Handleable P req steps := by
  obtain ⟨hmissing, hactive⟩ := hlook.active hrest
  constructor
  · intro _
    exact ⟨not_failed_of_good hgood, not_unreadable_of_good hgood, fun _ _ _ _ _ => hcheck,
      fun _ _ _ _ _ _ => ⟨prData, hparse⟩, hmessage⟩
  · intro _
    refine ⟨by simp, fun h => absurd h hmissing, ?_, ?_, ?_, ?_⟩
    · intro tenant htenant hinactive
      simp [hactive tenant htenant] at hinactive
    · intro _ secret' _ _ hlook' hver'
      rw [(hlook.unique hlook').1] at hver'
      exact absurd hver hver'
    · intro _ _ _ _ _ _ hparse'
      exact absurd hparse (hparse' prData)
    · intro step hstep hfailed
      exact absurd hfailed (not_failed_of_good hgood step hstep)

/-- A request that verifies. -/
theorem surfaced_iff_of_verified (hlook : LookedUp P req steps correlationId secret whitelist rest)
    (hcheck : Checkable req) (hver : Verifies P req secret) {traced later : List GatewayStep}
    (hrest : rest = traced ++ later) (htraced : ∀ step ∈ traced, step.op.Journey)
    (hf : (parseStep P req correlationId (extractEventType req.headers) whitelist).Follows later r)
    (hcredible : ∀ step ∈ steps, Plausible step) (hcancel : r ≠ .error .cancelledError) :
    Surfaced P req steps r ↔ Handleable P req steps := by
  obtain ⟨hbad, hfound, -⟩ := hlook.harmless
  have hsub : ∀ step ∈ later, step ∈ steps := by
    obtain ⟨lookup, -, rfl⟩ := hlook
    intro step hstep
    simp [hrest, hstep]
  have hcounts : (failures P).Counts later r :=
    ⟨fun step hstep => hcredible step (hsub step hstep), fun e he hc => hcancel (he.trans (by rw [hc]))⟩
  have hgood : ¬(failures P).Bad traced := by
    rintro ⟨step, hstep, ⟨hdb, -⟩ | hbad⟩
    · simp [(htraced step hstep).not_onDatabase] at hdb
    · have hj := htraced step hstep
      cases hbad <;> cases hj
  rw [hrest, Account.bad_append, or_iff_right hgood] at hbad
  rw [hrest, foundNothing_append, or_iff_right (not_foundNothing fun step hstep k =>
    (htraced step hstep).ne_select k)] at hfound
  -- an operation after the lookup reads no tenant
  have hnoTenant : (∀ step ∈ later, ∀ id, step.op ≠ .selectTenant id) →
      ∀ step ∈ rest, ∀ id, step.op ≠ .selectTenant id := by
    intro hlater step hstep id heq
    rw [hrest] at hstep
    rcases List.mem_append.mp hstep with hstep | hstep
    · have hj := htraced step hstep
      rw [heq] at hj
      cases hj
    · exact hlater step hstep id heq
  unfold parseStep at hf
  rcases hparse : parsePayload P req.vcsProvider req.rawPayload with e | prData
  · rw [hparse] at hf
    obtain ⟨rfl, rfl⟩ := Prog.follows_ret.mp hf
    have hraw : e.Raw := by
      rcases parsePayload_error hparse with ⟨model, rfl⟩ | ⟨message, rfl⟩ <;> trivial
    refine surfaced_iff_of_odd ⟨e, rfl, hraw⟩ fun hh => ?_
    obtain ⟨prData, hok⟩ := hh.body _ _ _ _ hlook hver
    simp [hparse] at hok
  · rw [hparse] at hf
    change (ite _ _ _ : Coroutine WebhookResult).Follows later r at hf
    split at hf
    · -- the event is ignored
      rcases Prog.follows_bind.mp hf with ⟨first, last, u, rfl, hemit, hend⟩ | ⟨e, rfl, hemit⟩
      · obtain ⟨rfl, rfl⟩ := Prog.follows_ret.mp hend
        rw [List.append_nil] at *
        have hjourney := (emit_only P _ _ _ _ _).follows hemit
        refine surfaced_of_returned hlook hcheck hver hparse ?_ ?_ (hnoTenant ?_) _
        · rw [hbad, emit_blames _ _ _ _ _ first _ hemit ⟨hcounts.possible, by simp⟩]
          exact Account.not_odd_ok
        · intro h
          exact absurd (hfound.mp h) (not_foundNothing fun step hstep k => (hjourney step hstep).ne_select k)
        · intro step hstep id heq
          have hj := hjourney step hstep
          rw [heq] at hj
          cases hj
      · rcases emit_follows hemit with heq | heq
        · simp at heq
        · exact absurd (by rw [Except.error.inj heq]) hcancel
    · have hfails := idempotencyStep_fails hf hcounts
      have hkey := (idempotencyStep_only P req correlationId prData (requestKey P req prData)).follows hf
      by_cases hodd : (failures P).Odd r
      · refine surfaced_iff_of_odd hodd fun hh => ?_
        rcases hfails.mpr hodd with hb | ⟨hnothing, e, he⟩
        · exact hh.good (hbad.mpr hb)
        · obtain ⟨items, hitems⟩ := hh.message (hfound.mpr hnothing)
          simp [he] at hitems
      · have hno := not_or.mp (hfails.not.mpr hodd)
        rcases r with e | result
        · -- everything that is raised here is raw
          rcases (idempotencyStep_throws req correlationId prData _).follows hf hcounts.possible e rfl with
            hraw | rfl | hfalse
          · exact absurd ⟨e, rfl, hraw⟩ hodd
          · exact absurd rfl hcancel
          · exact hfalse.elim
        · refine surfaced_of_returned hlook hcheck hver hparse (hbad.not.mpr hno.1) ?_ (hnoTenant ?_) _
          · intro hnothing
            rcases hloads : loadsDict P req.rawPayload with e | items
            · exact absurd ⟨hfound.mp hnothing, e, hloads⟩ hno.2
            · exact ⟨items, rfl⟩
          · intro step hstep id heq
            have hk := hkey step hstep
            rw [heq] at hk
            cases hk with
            | journey h => cases h
            | cancel h => cases h

end

/-- **Failures surface as handled errors** when nothing goes wrong that the code does not
    translate, and only then. -/
theorem failures_surface_iff (hP : P.Digests) {c : GatewayConfig} (hcodec : ReadsBack P c)
    (h : Reachable P serviceTask c) {t : Nat} {req : Request} {r : Except Exn WebhookResult}
    (hfin : Finished c t (.webhook req) r) (hprovider : req.vcsProvider ∈ supportedProviders)
    (hcancel : r ≠ .error .cancelledError) :
    Surfaced P req (stepsOf c t) r ↔ Handleable P req (stepsOf c t) := by
  have hcredible : ∀ step ∈ stepsOf c t, Plausible step := fun step hstep => reachable_credible h hstep
  rcases processWebhook_follows (hfin.follows h) with ⟨e, hsteps, -⟩ |
    ⟨correlationId, later, hsteps, ⟨hun, -⟩ | ⟨-, ⟨e, hlookup, rfl⟩ | ⟨lookup, secret, hlookup, hlater⟩⟩⟩
  · have huuid := hcredible ⟨.uuid4, .error e⟩ (by simp [hsteps])
    exact absurd rfl (huuid.2 (.inl rfl) e)
  · exact absurd hprovider hun
  · refine surfaced_iff_of_lookup hsteps hlookup ?_ hcredible fun he => hcancel (by rw [he])
    intro raw cached hget hloads
    exact cached_secret hcodec h hget hloads
  rcases hlater with ⟨e, rfl, rfl⟩ | ⟨whitelist, rest, rfl, hafter⟩
  · -- the whitelist could not be read
    have hmem : (⟨.selectWhitelist req.vcsProvider, .error e⟩ : GatewayStep) ∈ stepsOf c t := by
      simp [hsteps]
    have hdb : e.OfDatabase := (hcredible _ hmem).1
    have hne : e ≠ .cancelledError := fun he => hcancel (by rw [he])
    refine surfaced_iff_of_odd ⟨e, rfl, hdb.raw hne⟩ fun hh => hh.database _ hmem ?_
    exact (failed_iff rfl (hcredible _ hmem) hne).mpr (hdb.raw hne)
  have hlook : LookedUp P req (stepsOf c t) correlationId secret whitelist rest :=
    ⟨lookup, hlookup, hsteps⟩
  rcases afterLookup_follows hP hafter with ⟨hcheck, -, -, e, rfl⟩ | ⟨-, heq⟩ |
    ⟨hcheck, hver, hrejected⟩ | ⟨hcheck, hver, traced, last, hrest, htraced, hlast⟩
  · exact surfaced_iff_of_odd ⟨_, rfl, trivial⟩ fun hh => hcheck (hh.header _ _ _ _ hlook)
  · exact absurd heq hcancel
  · exact surfaced_iff_of_rejected hlook hcheck hver hrejected hcredible
  · exact surfaced_iff_of_verified hlook hcheck hver hrest htraced hlast hcredible hcancel

namespace Example

/-- A delivery for a tenant that does not exist. -/
def stray : Request := { event first "Note Hook" with tenantId := ⟨7⟩ }

theorem stray_run : ∃ c,
    (gateway (reading first)).run initial (solo (.webhook stray) [.fresh ⟨9⟩, .ok, .ok]) = some c ∧
    Finished c 0 (.webhook stray) (.error (tenantNotFound ⟨7⟩)) ∧ tenantsRead c = [] :=
  ⟨_, rfl, rfl, rfl⟩

/-- The same, where PostgreSQL does not answer. -/
theorem outage_run : ∃ c,
    (gateway (reading first)).run initial (solo (.webhook stray) [.fresh ⟨9⟩, .ok, .fault 0]) = some c ∧
    Finished c 0 (.webhook stray) (.error (.fault 0)) :=
  ⟨_, rfl, rfl⟩

end Example

theorem failures_surface_stray : ∃ c,
    Finished c 0 (.webhook Example.stray) (.error (tenantNotFound ⟨7⟩)) ∧
      (Surfaced (Example.reading Example.first) Example.stray (stepsOf c 0)
          (.error (tenantNotFound ⟨7⟩)) ↔
        Handleable (Example.reading Example.first) Example.stray (stepsOf c 0)) := by
  obtain ⟨c, hrun, hfin, hread⟩ := Example.stray_run
  have hcodec : ReadsBack (Example.reading Example.first) c := by
    intro tenant htenant
    simp [hread] at htenant
  exact ⟨c, hfin, failures_surface_iff (Example.reading_digests _) hcodec
    (Example.reachable_solo (k := .webhook _) trivial hrun) hfin (by decide)
    (by simp [tenantNotFound, Exn.notFoundError])⟩

/-- An outage of the database is raised as it is. -/
theorem outage_escapes : ∃ c, Reachable (Example.reading Example.first) serviceTask c ∧
    Finished c 0 (.webhook Example.stray) (.error (.fault 0)) ∧
    ¬Surfaced (Example.reading Example.first) Example.stray (stepsOf c 0) (.error (.fault 0)) := by
  obtain ⟨c, hrun, hfin⟩ := Example.outage_run
  refine ⟨c, Example.reachable_solo (k := .webhook _) trivial hrun, hfin, fun hs => ?_⟩
  exact hs.not_odd ⟨_, rfl, trivial⟩

end VcsGateway
