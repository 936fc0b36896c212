import VcsGateway.Async.Account
import VcsGateway.Durability
import VcsGateway.Outcomes
import VcsGateway.Trail

/-!
# Failures of single rows

What one row of a batch costs the other rows when its delivery fails.
-/

namespace VcsGateway

open Async

variable {P : Platform} {w w' : World} {σ : Nat → BatchState} {τ : Nat → Option Task} {t : Nat}

/-! ### Which answers fail a batch -/

/-- The step failed in the `try` block of a row, before the `_MARK_DISPATCHED`. -/
def DeliveryFailed (step : GatewayStep) : Prop :=
  (∃ ex m key, step.op = .publish ex m key) ∧ step.result ≠ .error .cancelledError

/-- The step did not fail, or only a delivery did. -/
def Calm (step : GatewayStep) : Prop := ∀ e, step.result = .error e → DeliveryFailed step

/-- The same, but for a `_MARK_DISPATCHED` that fails. -/
def CalmOrMark (step : GatewayStep) : Prop :=
  ∀ e, step.result = .error e → DeliveryFailed step ∨ ∃ id, step.op = .markDispatched id

theorem perform_calm {op : Op} (h : ∀ ex m key, op ≠ .publish ex m key) :
    (perform op).Gives Calm Returns := by
  refine ⟨trivial, fun r hr => ?_⟩
  cases r with
  | ok a => exact ⟨a, rfl⟩
  | error e =>
    obtain ⟨⟨ex, m, key, heq⟩, -⟩ := hr e rfl
    exact absurd heq (h ex m key)

theorem perform_vouches (op : Op) : (perform op).Vouches CalmOrMark :=
  .perform fun a e he => by simp at he

/-! ### Transactions -/

section Transactions

variable {α : Type} {body : Coroutine α} {steps : List GatewayStep}

/-- Where a task comes to the end of its transaction. -/
theorem transaction_awaits {op : Op} {ok : Op → Prop} (hbody : body.Only ok) (hcommit : ¬ok .commit)
    (hrollback : ¬ok .rollback) (hop : op = .commit ∨ op = .rollback)
    (h : (transaction body).Awaits steps op) : ∃ inner r, steps = ⟨.begin, .ok ()⟩ :: inner ∧
      body.Follows inner r ∧ (op = .commit ↔ ∃ a, r = .ok a) := by
  have hbegin : ∀ first, ¬(perform Op.begin).Awaits first op := by
    intro first hawaits
    have honly : (perform Op.begin).Only fun op => op = .begin := Prog.only_perform.mpr rfl
    rcases hop with rfl | rfl
    · exact absurd (honly.awaits hawaits) (by simp)
    · exact absurd (honly.awaits hawaits) (by simp)
  obtain hawaits | ⟨first, rest, u, rfl, hfirst, hrest⟩ := Prog.Awaits.bind h
  · exact absurd hawaits (hbegin _)
  obtain rfl := Prog.follows_perform.mp hfirst
  obtain hawaits | ⟨inner, last, r, rfl, hinner, hlast⟩ := Prog.Awaits.andThen hrest
  · have hok := hbody.awaits hawaits
    rcases hop with rfl | rfl
    · exact absurd hok hcommit
    · exact absurd hok hrollback
  · have hend : last = [] ∧ (op = .commit ↔ ∃ a, r = .ok a) := by
      cases r with
      | ok a =>
        obtain ⟨k, hlast⟩ := hlast
        cases hlast with
        | here => exact ⟨rfl, by simp⟩
        | await b hret => cases b <;> cases hret
      | error e =>
        obtain ⟨k, hlast⟩ := hlast
        cases hlast with
        | here => exact ⟨rfl, by simp⟩
        | await b hret => cases b <;> cases hret
    obtain ⟨rfl, hiff⟩ := hend
    exact ⟨inner, r, by simp, hinner, hiff⟩

/-- A savepoint block that ends normally. -/
theorem nestedTransaction_follows {a : α} (h : (nestedTransaction body).Follows steps (.ok a)) :
    ∃ inner, steps = ⟨.savepoint, .ok ()⟩ :: (inner ++ [⟨.release, .ok ()⟩]) ∧
      body.Follows inner (.ok a) := by
  obtain ⟨first, rest, u, rfl, hfirst, hrest⟩ | ⟨e, heq, -⟩ := Prog.follows_bind.mp h
  swap
  · simp at heq
  obtain rfl := Prog.follows_perform.mp hfirst
  obtain ⟨inner, last, r, rfl, hinner, hlast⟩ := Prog.follows_andThen.mp hrest
  cases r with
  | ok b =>
    obtain ⟨release, tail, u', rfl, hrelease, hret⟩ | ⟨e, heq, -⟩ := Prog.follows_bind.mp hlast
    swap
    · simp at heq
    obtain rfl := Prog.follows_perform.mp hrelease
    obtain ⟨rfl, heq⟩ := Prog.follows_ret.mp hret
    obtain rfl := Except.ok.inj heq
    exact ⟨inner, by simp, hinner⟩
  | error exc =>
    obtain ⟨undo, tail, u', rfl, -, hret⟩ | ⟨e, heq, -⟩ := Prog.follows_bind.mp hlast
    · obtain ⟨-, heq⟩ := Prog.follows_ret.mp hret
      simp at heq
    · simp at heq

theorem nestedTransaction_calm (h : body.Gives Calm Returns) :
    (nestedTransaction body).Gives Calm Returns := by
  refine Returns.bind (perform_calm (by simp)) fun _ => h.andThen ?_
  rintro r ⟨a, rfl⟩
  exact Returns.bind (perform_calm (by simp)) fun _ => ⟨a, rfl⟩

end Transactions

/-! ### One row -/

/-- What a batch writes for a row, by the end of its `try` block: DISPATCHED, or one retry
    more, FAILED at the limit and put off by the backoff below it. -/
inductive Settles (P : Platform) (steps : List GatewayStep) (row : OutboxEvent) :
    Except Exn Unit → OutboxEvent → Prop
  | dispatched (now : Time) : Settles P steps row (.ok ()) (row.markDispatched now)
  | failed {e : Exn} (hlimit : row.maxRetries ≤ row.retryCount + 1) :
      Settles P steps row (.error e) (row.markFailed (P.excStr e))
  | retried {e : Exn} {now : Time} (hlimit : row.retryCount + 1 < row.maxRetries)
      (hnow : ⟨.utcnow, .ok now⟩ ∈ steps) :
      Settles P steps row (.error e) (row.markRetry (P.excStr e)
        (now + seconds (min (30 * 2 ^ (row.retryCount + 1)) maxBackoffSeconds)))

theorem Settles.outboxId_eq {steps : List GatewayStep} {row v : OutboxEvent} {r : Except Exn Unit}
    (h : Settles P steps row r v) : v.outboxId = row.outboxId := by
  have hcore : v.core = row.core := by
    cases h with
    | dispatched now => exact row.core_markDispatched now
    | failed _ => exact row.core_markFailed _
    | retried _ _ => exact row.core_markRetry _ _
  exact OutboxEvent.outboxId_eq_of_core hcore

theorem Settles.mono {steps steps' : List GatewayStep} {row v : OutboxEvent} {r : Except Exn Unit}
    (h : Settles P steps row r v) (hsub : steps ⊆ steps') : Settles P steps' row r v := by
  cases h with
  | dispatched now => exact .dispatched now
  | failed hlimit => exact .failed hlimit
  | retried hlimit hnow => exact .retried hlimit (hsub hnow)

/-- The failure of the row has been counted: FAILED at the limit, or SCHEDULED again for a
    minute or more after the failure. -/
def CountsRetry (steps : List GatewayStep) (row v : OutboxEvent) : Prop :=
  v.retryCount = row.retryCount + 1 ∧
    (v.status = .failed ∧ row.maxRetries ≤ row.retryCount + 1 ∨
      v.status = .scheduled ∧ ∃ now, ⟨.utcnow, .ok now⟩ ∈ steps ∧ now + seconds 60 ≤ v.dispatchAt)

/-- The backoff is a minute or more. -/
theorem seconds_backoff_ge (n : Nat) :
    seconds 60 ≤ seconds (min (30 * 2 ^ (n + 1)) maxBackoffSeconds) := by
  have hpow : 1 ≤ 2 ^ n := Nat.one_le_two_pow
  have hbackoff : 60 ≤ min (30 * 2 ^ (n + 1)) maxBackoffSeconds := by
    rw [Nat.pow_succ, Nat.le_min]
    refine ⟨by omega, by decide⟩
  exact Nat.mul_le_mul_right 1000000 hbackoff

/-- A row that is put off by a minute or more. -/
theorem CountsRetry.retried {steps : List GatewayStep} {row : OutboxEvent} {now backoff : Time}
    (hrow : row.status = .scheduled) (hnow : ⟨.utcnow, .ok now⟩ ∈ steps)
    (hbackoff : seconds 60 ≤ backoff) (msg : String) :
    CountsRetry steps row (row.markRetry msg (now + backoff)) :=
  ⟨rfl, .inr ⟨hrow, now, hnow, Nat.add_le_add_left hbackoff now⟩⟩

theorem Settles.counts {steps : List GatewayStep} {row v : OutboxEvent} {r : Except Exn Unit}
    (h : Settles P steps row r v) (hrow : row.status = .scheduled) {e : Exn} (he : r = .error e) :
    CountsRetry steps row v := by
  cases h with
  | dispatched now => simp at he
  | failed hlimit => exact ⟨rfl, .inl ⟨rfl, hlimit⟩⟩
  | @retried _ now _ hnow =>
    exact .retried hrow hnow (seconds_backoff_ge _) _

section Row

variable {self : Publisher} {exchange : Exchange} {row : OutboxEvent} {steps : List GatewayStep}

/-- The course of a `try` block. -/
theorem publishRow_follows {r : Except Exn Unit}
    (h : (publishRow P exchange row).Follows steps r) :
    (steps = [] ∧ ∃ e, r = .error e) ∨
      (∃ m e, steps = [⟨.publish exchange m row.eventType, .error e⟩] ∧ r = .error e) ∨
      ∃ m, steps = [⟨.publish exchange m row.eventType, .ok ()⟩, ⟨.markDispatched row.outboxId, r⟩] := by
  obtain ⟨headers, -, h⟩ | ⟨e, -, rfl, rfl⟩ := Prog.follows_ofExcept_bind.mp h
  swap
  · exact .inl ⟨rfl, e, rfl⟩
  obtain ⟨body, -, h⟩ | ⟨e, -, rfl, rfl⟩ := Prog.follows_ofExcept_bind.mp h
  swap
  · exact .inl ⟨rfl, e, rfl⟩
  obtain ⟨first, rest, u, rfl, hfirst, hrest⟩ | ⟨e, rfl, he⟩ := Prog.follows_bind.mp h
  · obtain rfl := Prog.follows_perform.mp hfirst
    obtain rfl := Prog.follows_perform.mp hrest
    exact .inr (.inr ⟨_, rfl⟩)
  · obtain rfl := Prog.follows_perform.mp he
    exact .inr (.inl ⟨_, e, rfl, rfl⟩)

theorem publishRow_calm : (publishRow P exchange row).Gives Calm fun r => r ≠ .error .cancelledError := by
  have hheaders : ∀ e, rowHeaders P row = .error e → e ≠ .cancelledError := by
    intro e he
    unfold rowHeaders at he
    split at he
    · split at he
      · rw [← Except.error.inj he]
        simp
      · simp at he
    · rw [← Except.error.inj he]
      simp
  have hpayload : ∀ e, rowPayload P row = .error e → e ≠ .cancelledError := by
    intro e he
    unfold rowPayload at he
    split at he
    · simp at he
    · rw [← Except.error.inj he]
      simp
  refine Protocol.Conforms.ofExcept_bind (r := rowHeaders P row) (fun headers _ => ?_) ?_
  swap
  · intro e he heq
    exact hheaders e he (Except.error.inj heq)
  refine Protocol.Conforms.ofExcept_bind (r := rowPayload P row) (fun body _ => ?_) ?_
  swap
  · intro e he heq
    exact hpayload e he (Except.error.inj heq)
  refine ⟨trivial, fun r hr => ?_⟩
  cases r with
  | ok _ => 
    refine (perform_calm (by simp)).mono ?_
    rintro r ⟨a, rfl⟩
    simp
  | error e => 
    intro heq
    exact (hr e rfl).2 heq

/-- The update after a failure. -/
theorem markFailure_follows {exc : Exn} (h : (markFailure P row exc).Follows steps (.ok ())) :
    ∃ step ∈ steps, ∃ v, Settles P steps row (.error exc) v ∧
      ∀ t now, Event.version now row ⟨t, step.op, step.result⟩ = some v := by
  unfold markFailure at h
  split at h
  · next hlimit =>
    obtain rfl := Prog.follows_perform.mp h
    exact ⟨_, List.mem_singleton_self _, _, .failed hlimit, fun t now => by simp [Event.version]⟩
  · next hlimit =>
    obtain ⟨first, rest, now, rfl, hfirst, hrest⟩ | ⟨e, heq, -⟩ := Prog.follows_bind.mp h
    swap
    · simp at heq
    obtain rfl := Prog.follows_perform.mp hfirst
    obtain rfl := Prog.follows_perform.mp hrest
    have hnow : (⟨.utcnow, .ok now⟩ : GatewayStep) ∈ [⟨.utcnow, .ok now⟩] := List.mem_singleton_self _
    exact ⟨_, List.mem_append_right _ (List.mem_singleton_self _), _,
      .retried (Nat.lt_of_not_ge hlimit) (List.mem_append_left _ hnow),
      fun t now' => by simp [Event.version]⟩

theorem markFailure_calm {exc : Exn} : (markFailure P row exc).Gives Calm Returns := by
  unfold markFailure
  split
  · exact perform_calm (by simp)
  · exact Returns.bind (perform_calm (by simp)) fun now => perform_calm (by simp)

theorem markFailure_vouches {exc : Exn} : (markFailure P row exc).Vouches CalmOrMark := by
  unfold markFailure
  split
  · exact perform_vouches _
  · exact (perform_vouches _).bind fun now => perform_vouches _

theorem recordFailure_calm {exc : Exn} : (recordFailure P self row exc).Gives Calm Returns :=
  Returns.bind markFailure_calm fun _ => Returns.bind (perform_calm (by simp)) fun _ =>
    perform_calm (by simp)

theorem recordFailure_vouches {exc : Exn} : (recordFailure P self row exc).Vouches CalmOrMark :=
  markFailure_vouches.bind fun _ => (perform_vouches _).bind fun _ => perform_vouches _

theorem processRow_calm : (processRow P self exchange row).Gives Calm Returns := by
  refine nestedTransaction_calm (publishRow_calm.andThen fun r hr => ?_)
  cases r with
  | ok a => exact ⟨a, rfl⟩
  | error exc =>
    cases exc with
    | cancelledError => exact absurd rfl hr
    | _ => exact recordFailure_calm

theorem processRow_vouches : (processRow P self exchange row).Vouches CalmOrMark := by
  intro steps _ h
  obtain ⟨inner, rfl, hinner⟩ := nestedTransaction_follows h
  have hok : ∀ op a, CalmOrMark ⟨op, .ok a⟩ := fun op a e he => by simp at he
  have hinner' : ∀ step ∈ inner, CalmOrMark step := by
    obtain ⟨hpublish, -⟩ | ⟨exc, first, rest, hexc, rfl, hfirst, hrest⟩ :=
      exceptException_follows hinner
    · obtain ⟨-, e, he⟩ | ⟨m, e, -, he⟩ | ⟨m, rfl⟩ := publishRow_follows hpublish
      · simp at he
      · simp at he
      · simp [hok]
    · intro step hstep
      rcases List.mem_append.mp hstep with hstep | hstep
      · obtain ⟨rfl, -⟩ | ⟨m, e, rfl, he⟩ | ⟨m, rfl⟩ := publishRow_follows hfirst
        · simp at hstep
        · obtain rfl := List.mem_singleton.mp hstep
          obtain rfl := Except.error.inj he
          exact fun e' he' => .inl ⟨⟨_, _, _, rfl⟩, by simpa using hexc⟩
        · rcases List.mem_cons.mp hstep with rfl | hstep
          · exact hok _ _
          · obtain rfl := List.mem_singleton.mp hstep
            exact fun e' _ => .inr ⟨_, rfl⟩
      · exact recordFailure_vouches rest _ hrest step hstep
  intro step hstep
  rcases List.mem_cons.mp hstep with rfl | hstep
  · exact hok _ _
  · rcases List.mem_append.mp hstep with hstep | hstep
    · exact hinner' step hstep
    · obtain rfl := List.mem_singleton.mp hstep
      exact hok _ _

/-- A row that a batch has got over has been updated as its delivery ended. -/
theorem processRow_settles (h : (processRow P self exchange row).Follows steps (.ok ())) :
    ∃ r, (publishRow P exchange row).Returned steps r ∧
      ∃ step ∈ steps, ∀ t now, ∃ v, Settles P steps row r v ∧
        Event.version now row ⟨t, step.op, step.result⟩ = some v := by
  obtain ⟨inner, rfl, hinner⟩ := nestedTransaction_follows h
  obtain ⟨hpublish, -⟩ | ⟨exc, first, rest, -, rfl, hfirst, hrest⟩ := exceptException_follows hinner
  · have hreturned := (hpublish.returned []).within [⟨.savepoint, .ok ()⟩] [⟨.release, .ok ()⟩]
    refine ⟨.ok (), by simpa using hreturned, ⟨.markDispatched row.outboxId, .ok ()⟩, ?_, fun t now => ?_⟩
    · obtain ⟨-, e, he⟩ | ⟨m, e, -, he⟩ | ⟨m, rfl⟩ := publishRow_follows hpublish
      · simp at he
      · simp at he
      · simp
    · exact ⟨_, .dispatched now, by simp [Event.version]⟩
  · have hreturned := (hfirst.returned []).within [⟨.savepoint, .ok ()⟩] (rest ++ [⟨.release, .ok ()⟩])
    obtain ⟨marking, after, u, rfl, hmarking, -⟩ | ⟨e, he, -⟩ := Prog.follows_bind.mp hrest
    swap
    · simp at he
    obtain ⟨step, hstep, v, hv, hversion⟩ := markFailure_follows hmarking
    refine ⟨.error exc, by simpa using hreturned, step, by simp [hstep], fun t now => ?_⟩
    refine ⟨v, hv.mono ?_, hversion t now⟩
    intro x hx
    simp [hx]

/-- The last step for a row is the release of its savepoint. -/
theorem forEach_processRow_last {rows : List OutboxEvent} (hrows : rows ≠ [])
    (h : (Prog.forEach rows (processRow P self exchange)).Follows steps (.ok ())) :
    steps.getLast? = some ⟨.release, .ok ()⟩ := by
  induction rows generalizing steps with
  | nil => exact absurd rfl hrows
  | cons row rows ih =>
    obtain ⟨first, rest, u, rfl, hfirst, hrest⟩ | ⟨e, heq, -⟩ := Prog.follows_bind.mp h
    swap
    · simp at heq
    by_cases hnil : rows = []
    · subst hnil
      obtain ⟨rfl, -⟩ := Prog.follows_ret.mp hrest
      obtain ⟨inner, rfl, -⟩ := nestedTransaction_follows hfirst
      rw [List.append_nil, ← List.cons_append]
      exact List.getLast?_concat
    · rw [List.getLast?_append, ih hnil hrest]
      rfl

end Row

/-! ### A batch -/

section Batch

variable {self : Publisher} {steps : List GatewayStep} {rows : List OutboxEvent}

theorem lockRows_selected {ids : List UUID} {limit : Nat}
    (h : (lockRows limit ids).Follows steps (.ok rows)) {id : UUID} {row : OutboxEvent}
    (hrow : ⟨.lockDue id, .ok (some row)⟩ ∈ steps) : row ∈ rows := by
  induction ids generalizing limit steps rows with
  | nil =>
    have hnil : steps = [] := by
      cases limit <;> exact (Prog.follows_ret.mp h).1
    simp [hnil] at hrow
  | cons id' ids ih =>
    cases limit with
    | zero =>
      obtain ⟨rfl, -⟩ := Prog.follows_ret.mp h
      simp at hrow
    | succ limit =>
      obtain ⟨first, rest, found, rfl, hfirst, hrest⟩ | ⟨e, heq, -⟩ := Prog.follows_bind.mp h
      swap
      · simp at heq
      obtain rfl := Prog.follows_perform.mp hfirst
      rcases found with _ | row'
      · refine ih hrest ?_
        simpa using hrow
      · obtain ⟨more, last, rows', rfl, hmore, hlast⟩ | ⟨e, heq, -⟩ := Prog.follows_bind.mp hrest
        swap
        · simp at heq
        obtain ⟨rfl, heq⟩ := Prog.follows_ret.mp hlast
        obtain rfl := Except.ok.inj heq
        rcases List.mem_cons.mp hrow with heq | hrow
        · cases heq
          exact List.mem_cons_self
        · exact List.mem_cons_of_mem _ (ih hmore (by simpa using hrow))

theorem selectDue_selected {limit : Nat} (h : (selectDue limit).Follows steps (.ok rows))
    {id : UUID} {row : OutboxEvent} (hrow : ⟨.lockDue id, .ok (some row)⟩ ∈ steps) :
    row ∈ rows := by
  obtain ⟨first, rest, ids, rfl, hfirst, hrest⟩ | ⟨e, heq, -⟩ := Prog.follows_bind.mp h
  swap
  · simp at heq
  obtain rfl := Prog.follows_perform.mp hfirst
  exact lockRows_selected hrest (by simpa using hrow)

theorem lockRows_calm (ids : List UUID) (limit : Nat) :
    (lockRows limit ids).Gives Calm Returns := by
  induction ids generalizing limit with
  | nil => cases limit <;> exact ⟨[], rfl⟩
  | cons id ids ih =>
    cases limit with
    | zero => exact ⟨[], rfl⟩
    | succ limit =>
      refine Returns.bind (perform_calm (by simp)) fun row => ?_
      rcases row with _ | row
      · exact ih (limit + 1)
      · exact Returns.bind (ih limit) fun rows => ⟨_, rfl⟩

theorem lockRows_vouches (ids : List UUID) (limit : Nat) :
    (lockRows limit ids).Vouches CalmOrMark := by
  induction ids generalizing limit with
  | nil => cases limit <;> exact .ret _
  | cons id ids ih =>
    cases limit with
    | zero => exact .ret _
    | succ limit =>
      refine (perform_vouches _).bind fun row => ?_
      rcases row with _ | row
      · exact ih (limit + 1)
      · exact (ih limit).bind fun rows => .ret _

theorem ensureExchange_vouches (self : Publisher) : (ensureExchange self).Vouches CalmOrMark := by
  refine (perform_vouches _).bind fun state => ?_
  have hclosed : (channelClosed state.channel).Vouches CalmOrMark := by
    rcases state.channel with _ | ch
    · exact .ret _
    · exact perform_vouches _
  refine hclosed.bind fun closed => ?_
  have hreacquire : (reacquire self closed).Vouches CalmOrMark := by
    cases closed with
    | false => exact .ret _
    | true =>
      refine (perform_vouches _).bind fun ch => (perform_vouches _).bind fun _ => ?_
      exact (perform_vouches _).bind fun ex => perform_vouches _
  refine hreacquire.bind fun _ => (perform_vouches _).bind fun state' => ?_
  split <;> exact .ret _

theorem batchBody_vouches (self : Publisher) : (batchBody P self).Vouches CalmOrMark := by
  have hselect : (selectDue self.batchSize).Vouches CalmOrMark :=
    (perform_vouches _).bind fun ids => lockRows_vouches ids _
  refine hselect.bind fun rows => ?_
  split
  · exact .ret _
  · exact (ensureExchange_vouches self).bind fun exchange =>
      .forEach (fun row => processRow_vouches) rows

/-- The course of a batch that ends normally. -/
theorem batchBody_follows (h : (batchBody P self).Follows steps (.ok ())) :
    ∃ selecting rest rows, steps = selecting ++ rest ∧
      (selectDue self.batchSize).Follows selecting (.ok rows) ∧
      (rows = [] ∧ rest = [] ∨
        ∃ getting delivering exchange, rows ≠ [] ∧ rest = getting ++ delivering ∧
          (ensureExchange self).Follows getting (.ok exchange) ∧
          (Prog.forEach rows (processRow P self exchange)).Follows delivering (.ok ())) := by
  obtain ⟨selecting, rest, rows, rfl, hselecting, hrest⟩ | ⟨e, heq, -⟩ := Prog.follows_bind.mp h
  swap
  · simp at heq
  refine ⟨selecting, rest, rows, rfl, hselecting, ?_⟩
  rcases rows with _ | ⟨row, rows⟩
  · exact .inl ⟨rfl, (Prog.follows_ret.mp hrest).1⟩
  · obtain ⟨getting, delivering, exchange, rfl, hgetting, hdelivering⟩ | ⟨e, heq, -⟩ :=
      Prog.follows_bind.mp hrest
    swap
    · simp at heq
    exact .inr ⟨getting, delivering, exchange, by simp, rfl, hgetting, hdelivering⟩

/-- Nothing has failed in the batch but deliveries of rows, before their
    `_MARK_DISPATCHED`. -/
structure OnlyDeliveriesFail (publisher : Publisher) (steps : List GatewayStep) : Prop where
  calm : ∀ step ∈ steps, Calm step
  exchange : ∀ before getting e, steps = before ++ getting →
    ¬(ensureExchange publisher).Follows getting (.error e)

theorem batchBody_returns {first : List GatewayStep} (hfail : OnlyDeliveriesFail self (first ++ steps))
    {r : Except Exn Unit} (h : (batchBody P self).Follows steps r) : Returns r := by
  have hcalm : ∀ step ∈ steps, Calm step := fun step hstep => hfail.calm step (List.mem_append_right _ hstep)
  have hselect : (selectDue self.batchSize).Gives Calm Returns :=
    Returns.bind (perform_calm (by simp)) fun ids => lockRows_calm ids _
  obtain ⟨selecting, rest, rows, rfl, -, hrest⟩ | ⟨e, rfl, hselecting⟩ := Prog.follows_bind.mp h
  swap
  · obtain ⟨a, ha⟩ := hselect.follows hselecting hcalm
    simp at ha
  rcases rows with _ | ⟨row, rows⟩
  · exact ⟨(), (Prog.follows_ret.mp hrest).2⟩
  obtain ⟨getting, delivering, exchange, rfl, -, hdelivering⟩ | ⟨e, rfl, hgetting⟩ :=
    Prog.follows_bind.mp hrest
  · have hrows : (Prog.forEach (row :: rows) (processRow P self exchange)).Gives Calm Returns :=
      Returns.forEach (fun _ => processRow_calm) _
    exact hrows.follows hdelivering fun step hstep => hcalm step (by simp [hstep])
  · exact absurd hgetting (hfail.exchange (first ++ selecting) rest e (by simp))

/-- A batch in which no `_MARK_DISPATCHED` failed and that ends normally. -/
theorem batchBody_onlyDeliveriesFail (h : (batchBody P self).Follows steps (.ok ()))
    (hmarks : ∀ id e, ⟨.markDispatched id, .error e⟩ ∉ steps) :
    OnlyDeliveriesFail self (⟨.begin, .ok ()⟩ :: steps) where
  calm := by
    intro step hstep e he
    rcases List.mem_cons.mp hstep with rfl | hstep
    · simp at he
    · rcases batchBody_vouches self steps _ h step hstep e he with hdelivery | ⟨id, hid⟩
      · exact hdelivery
      · obtain ⟨op, r⟩ := step
        obtain rfl : op = .markDispatched id := hid
        obtain rfl : r = .error e := he
        exact absurd hstep (hmarks id e)
  exchange := by
    intro before getting e heq hgetting
    -- `_get_exchange` would have been the last thing that the batch did
    have hacquire : ∀ step ∈ getting, step.op.Acquire :=
      (ensureExchange_acquires self).follows hgetting
    have hne : getting ≠ [] := by
      rintro rfl
      cases hgetting
    obtain ⟨selecting, rest, rows, rfl, hselecting, hrest⟩ := batchBody_follows h
    have hlast : ∃ step, (⟨.begin, .ok ()⟩ :: (selecting ++ rest)).getLast? = some step ∧
        ¬step.op.Acquire := by
      obtain ⟨-, rfl⟩ | ⟨gotten, delivering, exchange, hrows, rfl, -, hdelivering⟩ := hrest
      · have honly : (selectDue self.batchSize).Only fun op => ¬op.Acquire :=
          (selectDue_selects self.batchSize).mono fun op hselect => by
            cases hselect <;> rintro ⟨⟩
        rw [List.append_nil]
        rcases hs : selecting.getLast? with _ | step
        · obtain rfl := List.getLast?_eq_none_iff.mp hs
          exact ⟨_, rfl, by rintro ⟨⟩⟩
        · refine ⟨step, ?_, honly.follows hselecting step (List.mem_of_getLast? hs)⟩
          rw [List.getLast?_cons, hs]
          rfl
      · refine ⟨⟨.release, .ok ()⟩, ?_, by rintro ⟨⟩⟩
        have hlast := forEach_processRow_last hrows hdelivering
        rw [List.getLast?_cons, List.getLast?_append, List.getLast?_append, hlast]
        rfl
    obtain ⟨step, hstep, hnot⟩ := hlast
    rw [heq, List.getLast?_append] at hstep
    obtain ⟨last, hsome⟩ : ∃ last, getting.getLast? = some last := by
      rcases hl : getting.getLast? with _ | last
      · exact absurd (List.getLast?_eq_none_iff.mp hl) hne
      · exact ⟨last, rfl⟩
    rw [hsome] at hstep
    obtain rfl : last = step := by simpa using hstep
    exact hnot (hacquire last (List.mem_of_getLast? hsome))

/-- Where a publisher comes to the end of its batch. -/
theorem runOnce_awaits {op : Op} (hop : op = .commit ∨ op = .rollback)
    (h : (runOnce P self).Awaits steps op) : ∃ inner r, steps = ⟨.begin, .ok ()⟩ :: inner ∧
      (batchBody P self).Follows inner r ∧ (op = .commit ↔ ∃ a, r = .ok a) := by
  obtain hawaits | ⟨first, rest, a, -, -, hrest⟩ := h.andThen
  · exact transaction_awaits (batchBody_only P self) (by rintro ⟨⟩) (by rintro ⟨⟩) hop hawaits
  · have hreset := (afterBatch_only self a).awaits hrest
    rcases hop with rfl | rfl
    · cases hreset
    · cases hreset

end Batch

/-! ### The end of a batch -/

namespace BatchState

theorem Describes.opened {s : BatchState} (h : s.Describes w t) (hs : s.Open) :
    ∃ tx, w.db.sessions t = some tx := by
  unfold Describes at h
  cases hphase : s.phase with
  | outside => exact absurd hphase hs.1
  | ended => exact absurd hphase hs.2
  | scheduling => rw [hphase] at h; exact h.1
  | selecting => rw [hphase] at h; obtain ⟨tx, hb, -⟩ := h; exact ⟨tx, hb.session⟩
  | delivering => rw [hphase] at h; obtain ⟨tx, hb⟩ := h; exact ⟨tx, hb.session⟩
  | failed => rw [hphase] at h; obtain ⟨tx, htx, -⟩ := h; exact ⟨tx, htx⟩
  | doomed => rw [hphase] at h; obtain ⟨tx, htx, -⟩ := h; exact ⟨tx, htx⟩
  | impossible => rw [hphase] at h; exact h.elim

/-- Only a `COMMIT` or a `ROLLBACK` ends a transaction. -/
theorem open_move {s : BatchState} (hs : s.Open) {op : Op} (hcommit : op ≠ .commit)
    (hrollback : op ≠ .rollback) (r : Except Exn op.Ret) : (s.move op r).Open := by
  have hmarked : ∀ id, (s.marked id).Open := by
    intro id
    unfold marked
    split
    · exact ⟨by simp, by simp⟩
    · exact hs
  have hfail : s.fail.Open := ⟨by simp [fail], by simp [fail]⟩
  cases op with
  | commit => exact absurd rfl hcommit
  | rollback => exact absurd rfl hrollback
  | begin =>
    cases r with
    | ok _ => cases hpub : s.isPublisher <;> simp [Open, move, hpub]
    | error _ => exact hs
  | savepoint =>
    cases r with
    | ok _ => simp [Open, move]
    | error _ => exact hfail
  | rollbackTo => cases r <;> simp [Open, move]
  | release => cases r <;> first | exact hs | exact hfail
  | dueScan => cases r <;> first | exact hs | exact hfail
  | lockDue id => rcases r with _ | _ | _ <;> first | exact hs | exact hfail
  | markDispatched id => cases r <;> first | exact hmarked _ | exact hfail
  | markFailed id msg => cases r <;> first | exact hmarked _ | exact hfail
  | markRetry id msg at_ => cases r <;> first | exact hmarked _ | exact hfail
  | _ => cases r <;> exact hs

end BatchState

/-! ### Failed transactions -/

/-- A transaction fails by a statement that raises. -/
theorem aborted_cause {op : Op} {ch : Choice} {r : Except Exn op.Ret}
    (h : execOp P t ch w op = some (r, w')) {tx' : Tx} (htx' : w'.db.sessions t = some tx')
    (hab : tx'.aborted = true) : (op.quiet = false ∧ ∃ e, r = .error e) ∨
      ∃ tx, w.db.sessions t = some tx ∧ tx.aborted = true := by
  have hset : ∀ {db : Database} {tx : Tx}, (db.setSession t tx).sessions t = some tx' → tx = tx' :=
    fun h => Option.some.inj ((Database.setSession_sessions_self _).symm.trans h)
  have hmark : ∀ {id m set db'} {a : Except Exn Unit}, w.db.execMark t ch id m set = some (a, db') →
      db'.sessions t = some tx' → (∃ e, a = .error e) ∨
        ∃ tx, w.db.sessions t = some tx ∧ tx.aborted = true := by
    intro id m set db' a hdb hsession
    obtain ⟨tx, htx, ⟨e, rfl, -, -⟩ | ⟨-, -, rfl, -⟩ | ⟨r, -, -, -, -, rfl⟩⟩ :=
      Database.execMark_eq_some hdb
    · exact .inl ⟨e, rfl⟩
    · exact .inr ⟨tx', hsession, hab⟩
    · obtain rfl := hset hsession
      exact .inr ⟨tx, htx, hab⟩
  cases op with
  | begin =>
    obtain ⟨db', hdb, rfl⟩ := onDb_eq_some h
    obtain ⟨hnone, ⟨e, -, -, rfl⟩ | ⟨-, rfl⟩⟩ := Database.execBegin_eq_some hdb
    · exact absurd (hnone.symm.trans htx') (by simp)
    · obtain rfl := hset htx'
      simp at hab
  | commit =>
    obtain ⟨db', hdb, rfl⟩ := onDb_eq_some h
    obtain ⟨tx, htx, ⟨-, rfl⟩ | ⟨-, rfl⟩ | ⟨e, -, -, rfl⟩⟩ := Database.execCommit_eq_some hdb
    · simp at htx'
    · simp at htx'
    · simp [Database.discard] at htx'
  | rollback =>
    obtain ⟨db', hdb, rfl⟩ := onDb_eq_some h
    obtain ⟨tx, htx, rfl, -⟩ := Database.execRollback_eq_some hdb
    simp [Database.discard] at htx'
  | savepoint =>
    obtain ⟨db', hdb, rfl⟩ := onDb_eq_some h
    obtain ⟨tx, htx, ⟨e, rfl, -⟩ | ⟨-, rfl⟩⟩ := Database.execSavepoint_eq_some hdb
    · exact .inl ⟨rfl, e, rfl⟩
    · obtain rfl := hset htx'
      exact .inr ⟨tx, htx, hab⟩
  | release =>
    obtain ⟨db', hdb, rfl⟩ := onDb_eq_some h
    obtain ⟨tx, htx, ⟨e, rfl, -⟩ | ⟨-, rfl⟩⟩ := Database.execRelease_eq_some hdb
    · exact .inl ⟨rfl, e, rfl⟩
    · obtain rfl := hset htx'
      exact .inr ⟨tx, htx, hab⟩
  | rollbackTo =>
    obtain ⟨db', hdb, rfl⟩ := onDb_eq_some h
    obtain ⟨tx, htx, ⟨e, rfl, -⟩ | ⟨changes, saved, -, -, rfl⟩⟩ := Database.execRollbackTo_eq_some hdb
    · exact .inl ⟨rfl, e, rfl⟩
    · obtain rfl := hset htx'
      simp at hab
  | insertInbound args =>
    obtain ⟨db', hdb, rfl⟩ := onDb_eq_some h
    obtain ⟨tx, htx, ⟨e, rfl, -⟩ | ⟨row, -, -, -, -, -, rfl⟩⟩ := Database.execInsertInbound_eq_some hdb
    · exact .inl ⟨rfl, e, rfl⟩
    · obtain rfl := hset htx'
      exact .inr ⟨tx, htx, hab⟩
  | insertEvent args =>
    obtain ⟨db', hdb, hdb', -⟩ := execOp_insertEvent_eq_some h
    rw [hdb'] at htx'
    obtain ⟨tx, htx, ⟨e, rfl, -⟩ | ⟨u, row, -, -, -, -, rfl⟩⟩ := Database.execInsertEvent_eq_some hdb
    · exact .inl ⟨rfl, e, rfl⟩
    · obtain rfl := hset htx'
      exact .inr ⟨tx, htx, hab⟩
  | cancelScan k v =>
    obtain ⟨db', hdb, rfl⟩ := onDb_eq_some h
    obtain ⟨tx, htx, ⟨e, rfl, -⟩ | ⟨rfl, -⟩⟩ := Database.execCancelScan_eq_some hdb
    · exact .inl ⟨rfl, e, rfl⟩
    · exact .inr ⟨tx', htx', hab⟩
  | cancelRow id k v reason =>
    obtain ⟨db', hdb, rfl⟩ := onDb_eq_some h
    obtain ⟨tx, htx, ⟨e, rfl, -⟩ | ⟨-, -, rfl⟩ | ⟨r, -, -, -, -, -, rfl⟩⟩ :=
      Database.execCancelRow_eq_some hdb
    · exact .inl ⟨rfl, e, rfl⟩
    · exact .inr ⟨tx', htx', hab⟩
    · obtain rfl := hset htx'
      exact .inr ⟨tx, htx, hab⟩
  | dueScan =>
    obtain ⟨db', hdb, rfl⟩ := onDb_eq_some h
    obtain ⟨tx, htx, ⟨e, rfl, -⟩ | ⟨rfl, -⟩⟩ := Database.execDueScan_eq_some hdb
    · exact .inl ⟨rfl, e, rfl⟩
    · exact .inr ⟨tx', htx', hab⟩
  | lockDue id =>
    obtain ⟨db', hdb, rfl⟩ := onDb_eq_some h
    obtain ⟨tx, htx, ⟨e, rfl, -⟩ | ⟨-, rfl⟩ | ⟨r, -, -, -, -, -, rfl⟩⟩ :=
      Database.execLockDue_eq_some hdb
    · exact .inl ⟨rfl, e, rfl⟩
    · exact .inr ⟨tx', htx', hab⟩
    · exact .inr ⟨tx', htx', hab⟩
  | markDispatched id =>
    obtain ⟨db', hdb, rfl⟩ := onDb_eq_some h
    exact (hmark hdb htx').imp_left fun herror => ⟨rfl, herror⟩
  | markFailed id msg =>
    obtain ⟨db', hdb, rfl⟩ := onDb_eq_some h
    exact (hmark hdb htx').imp_left fun herror => ⟨rfl, herror⟩
  | markRetry id msg at_ =>
    obtain ⟨db', hdb, rfl⟩ := onDb_eq_some h
    exact (hmark hdb htx').imp_left fun herror => ⟨rfl, herror⟩
  | _ =>
    have hdb := (execOp_frame h).db rfl
    rw [hdb] at htx'
    exact .inr ⟨tx', htx', hab⟩

/-- Behind every failed transaction stands a statement of it that raised. -/
theorem reachable_aborted {allowed : Task → Prop} {c : GatewayConfig} (h : Reachable P allowed c)
    {tx : Tx} (htx : c.world.db.sessions t = some tx) (hab : tx.aborted = true) :
    ∃ step ∈ stepsOf c t, step.op.quiet = false ∧ ∃ e, step.result = .error e := by
  obtain ⟨tenants, whitelist, ls, -, hrun⟩ := h
  let Caused (c : GatewayConfig) : Prop := c.world.Sound ∧ ∀ t tx, c.world.db.sessions t = some tx →
    tx.aborted = true → ∃ step ∈ stepsOf c t, step.op.quiet = false ∧ ∃ e, step.result = .error e
  have hcaused : Caused c := by
    refine Machine.run_induction Caused (fun _ => True) ?_ ?_ (fun _ _ => trivial) hrun
    · rintro c l c' ⟨hsound, hc⟩ - hstep
      cases l with
      | spawn t' k =>
        obtain ⟨-, rfl⟩ := Machine.step_spawn hstep
        exact ⟨hsound, hc⟩
      | env e =>
        obtain rfl : _ = c' := Option.some.inj hstep
        refine ⟨hsound.envStep e, ?_⟩
        cases e <;> exact hc
      | kill t' =>
        obtain ⟨k, op, f, -, rfl⟩ := Machine.step_kill hstep
        refine ⟨hsound.vanish t', fun t tx htx hab => ?_⟩
        obtain ⟨step, hmem, hstep⟩ := hc t tx (vanish_session_some htx).2 hab
        refine ⟨step, ?_, hstep⟩
        change step ∈ historyOf t (vanish t' c.world).log
        unfold World.log
        rw [vanish_trace]
        exact hmem
      | step t' ch =>
        obtain ⟨k, op, f, r, w', hthread, he, rfl⟩ := Machine.step_step hstep
        obtain ⟨hsound', -, hlog⟩ := gateway_logs.exec hsound he
        refine ⟨hsound', fun t tx htx hab => ?_⟩
        obtain ⟨w₁, h₁, rfl⟩ := exec_eq_some he
        unfold stepsOf
        rw [hlog]
        by_cases heq : t = t'
        · subst heq
          rw [historyOf_append_self]
          obtain ⟨hquiet, e, rfl⟩ | ⟨tx₀, htx₀, hab₀⟩ := aborted_cause h₁ htx hab
          · exact ⟨⟨op, .error e⟩, by simp, hquiet, e, rfl⟩
          · obtain ⟨step, hmem, hstep⟩ := hc t tx₀ htx₀ hab₀
            exact ⟨step, List.mem_append_left _ hmem, hstep⟩
        · rw [historyOf_append_of_ne heq]
          exact hc t tx ((execOp_moves h₁).sessions_of_ne heq ▸ htx) hab
    · refine ⟨World.Sound.initial tenants whitelist, fun t tx htx => ?_⟩
      simp [Config.start, World.initial] at htx
  exact hcaused.2 t tx htx hab

/-- A step that adds to the log is a `COMMIT` that is carried out. -/
theorem commitsAt_of_mem {c c' : GatewayConfig} {l : GatewayLabel}
    (hstep : (gateway P).step c l = some c') {commit : Commit} (hnew : commit ∈ c'.world.db.wal)
    (hold : commit ∉ c.world.db.wal) : CommitsAt c commit.tid l := by
  cases l with
  | spawn t' k =>
    obtain ⟨-, rfl⟩ := Machine.step_spawn hstep
    exact absurd hnew hold
  | env e =>
    obtain rfl : _ = c' := Option.some.inj hstep
    cases e <;> exact absurd hnew hold
  | kill t' =>
    obtain ⟨k, op, f, -, rfl⟩ := Machine.step_kill hstep
    change commit ∈ (vanish t' c.world).db.wal at hnew
    rw [vanish_wal] at hnew
    exact absurd hnew hold
  | step t' ch =>
    obtain ⟨k, op, f, r, w', hthread, he, rfl⟩ := Machine.step_step hstep
    obtain ⟨w₁, h₁, rfl⟩ := exec_eq_some he
    change commit ∈ w₁.db.wal at hnew
    obtain hwal | ⟨tx, rfl, htx, hwal⟩ := (execOp_moves h₁).wal_commit
    · rw [hwal] at hnew
      exact absurd hnew hold
    · obtain ⟨db', hdb, rfl⟩ := onDb_eq_some h₁
      obtain ⟨hab, hch⟩ | rfl := execCommit_discards hdb htx
      · rw [hwal, List.mem_append, List.mem_singleton] at hnew
        obtain rfl := hnew.resolve_left hold
        exact ⟨k, f, tx, ch, hthread, htx, hab, rfl, hch⟩
      · exact absurd hnew hold

/-- PostgreSQL carries out the step of the task, be it that the reply is lost. -/
def CarriedOut (t : Nat) (l : GatewayLabel) : Prop :=
  ∃ ch, l = .step t ch ∧ (ch = .ok ∨ ∃ n, ch = .lost n)

/-- The batch `t` has committed, and every row that it has selected carries the outcome of
    its own `try` block, failures counted. -/
structure Contained (P : Platform) (c : GatewayConfig) (t : Nat) : Prop where
  commits : ∃ commit ∈ c.world.db.wal, commit.tid = t
  rows : ∀ row, c.world.Selects t row → ∃ exchange r v,
    (publishRow P exchange row).Returned (stepsOf c t) r ∧ Settles P (stepsOf c t) row r v ∧
      (∀ e, r = .error e → CountsRetry (stepsOf c t) row v) ∧ v ∈ c.world.db.outbox

/-- Every selected row has been taken up, and updated as its `try` block ended. -/
theorem batchBody_settles {self : Publisher} {steps : List GatewayStep}
    (h : (batchBody P self).Follows steps (.ok ())) {id : UUID} {row : OutboxEvent}
    (hrow : ⟨.lockDue id, .ok (some row)⟩ ∈ steps) :
    ∃ exchange r, (publishRow P exchange row).Returned steps r ∧
      ∃ step ∈ steps, ∀ t now, ∃ v, Settles P steps row r v ∧
        Event.version now row ⟨t, step.op, step.result⟩ = some v := by
  obtain ⟨selecting, rest, rows, rfl, hselecting, hrest⟩ := batchBody_follows h
  -- the row was locked by `_SELECT_DUE`
  have hselected : ⟨.lockDue id, .ok (some row)⟩ ∈ selecting := by
    rcases List.mem_append.mp hrow with hrow | hrow
    · exact hrow
    obtain ⟨-, rfl⟩ | ⟨getting, delivering, exchange, -, rfl, hgetting, hdelivering⟩ := hrest
    · simp at hrow
    rcases List.mem_append.mp hrow with hrow | hrow
    · have hacquire := (ensureExchange_acquires self).follows hgetting _ hrow
      cases hacquire
    · have honly : (Prog.forEach rows (processRow P self exchange)).Only (Op.Deliver exchange) :=
        Prog.Only.forEach fun row => processRow_only P self exchange row
      have hdeliver := honly.follows hdelivering _ hrow
      cases hdeliver
  have hmem := selectDue_selected hselecting hselected
  obtain ⟨rfl, -⟩ | ⟨getting, delivering, exchange, -, rfl, -, hdelivering⟩ := hrest
  · simp at hmem
  obtain ⟨before, steps, after, rfl, hsteps⟩ := Prog.follows_forEach hdelivering row hmem
  obtain ⟨r, hreturned, step, hstep, hsettles⟩ := processRow_settles hsteps
  refine ⟨exchange, r, ?_, step, by simp [hstep], fun t now => ?_⟩
  · simpa using hreturned.within (selecting ++ (getting ++ before)) after
  · obtain ⟨v, hv, hversion⟩ := hsettles t now
    refine ⟨v, hv.mono ?_, hversion⟩
    intro x hx
    simp [hx]

theorem mem_stepsOf_iff_trace {c : GatewayConfig} {op : Op} {r : Except Exn op.Ret} :
    ⟨op, r⟩ ∈ stepsOf c t ↔ (⟨t, op, r⟩ : Event) ∈ c.world.trace := by
  rw [mem_stepsOf]
  unfold World.log
  rw [List.mem_map]
  constructor
  · rintro ⟨⟨t', op', r'⟩, hmem, heq⟩
    obtain ⟨rfl, heq⟩ := Prod.mk.inj heq
    cases heq
    exact hmem
  · intro hmem
    exact ⟨_, hmem, rfl⟩

/-- The course of a batch that comes to its end. -/
theorem ending_batch {c : GatewayConfig} (h : Reachable P (fun _ => True) c) {k : Task} {op : Op}
    {f : Except Exn op.Ret → Coroutine k.Result} {self : Publisher}
    (hthread : c.threads t = some ⟨k, .await op f, true⟩)
    (htask : c.taskOf t = some (.publisher self)) (hop : op = .commit ∨ op = .rollback) :
    ∃ inner r, stepsOf c t = ⟨.begin, .ok ()⟩ :: inner ∧ (batchBody P self).Follows inner r ∧
      (op = .commit ↔ ∃ a, r = .ok a) := by
  have hk : k = .publisher self := by
    rw [Config.taskOf, hthread] at htask
    exact Option.some.inj htask
  subst hk
  have hreaches : (runOnce P self).Reaches (stepsOf c t) (.await op f) := reachable_reaches h hthread
  exact runOnce_awaits hop ⟨f, hreaches⟩

/-- A batch that stands at its `COMMIT`, and of which no `_MARK_DISPATCHED` failed. -/
theorem onlyDeliveriesFail_of_commit {c : GatewayConfig} (h : Reachable P (fun _ => True) c)
    {self : Publisher} {f : Except Exn Unit → Coroutine Bool}
    (hthread : c.threads t = some ⟨.publisher self, .await .commit f, true⟩)
    (hmarks : c.world.trace.all (fun e => !e.markFails) = true) :
    OnlyDeliveriesFail self (stepsOf c t) := by
  have htask : c.taskOf t = some (.publisher self) := by rw [Config.taskOf, hthread]; rfl
  obtain ⟨inner, r, hsteps, hinner, hend⟩ := ending_batch h hthread htask (.inl rfl)
  obtain ⟨a, rfl⟩ := hend.mp rfl
  rw [hsteps]
  refine batchBody_onlyDeliveriesFail hinner fun id e hmem => ?_
  have hevent : (⟨t, .markDispatched id, .error e⟩ : Event) ∈ c.world.trace := by
    rw [← mem_stepsOf_iff_trace, hsteps]
    exact List.mem_cons_of_mem _ hmem
  have hnot := List.all_eq_true.mp hmarks _ hevent
  simp [Event.markFails] at hnot

namespace Example

/-- The answers to a row whose publish fails. -/
def fails : List Choice := [.ok, .fault 0, .ok, .ok, .ok, .ok, .ok]

theorem retry_run : ∃ c c' tx f,
    (gateway publishing).run initial (batch (fails ++ publishes)) = some c ∧
    (gateway publishing).step c (.step 2 .ok) = some c' ∧ c.world.db.sessions 2 = some tx ∧
    c'.world.db.sessions 2 = none ∧
    c.threads 2 = some ⟨.publisher publisher, .await .commit f, true⟩ ∧
    c.world.trace.all (fun e => !e.markFails) = true ∧
    ∃ m, c'.world.trace[19]? = some ⟨2, .publish ⟨⟨3⟩, "vcs.webhook.received"⟩ m
      "vcs.webhook.received", .error (.fault 0)⟩ :=
  ⟨_, _, _, _, rfl, rfl, rfl, rfl, rfl, rfl, _, rfl⟩

/-- The `_MARK_DISPATCHED` of the first row fails, and with it the update after it. -/
theorem mark_run : ∃ c c' tx,
    (gateway publishing).run initial (batch [.ok, .ok, .fault 0, .ok, .ok, .ok]) = some c ∧
    (gateway publishing).step c (.step 2 .ok) = some c' ∧ c.world.db.sessions 2 = some tx ∧
    c'.world.db.sessions 2 = none ∧
    c.world.trace[20]? = some ⟨2, .markDispatched ⟨1⟩, .error (.fault 0)⟩ ∧
    c'.world.db.wal.all (fun commit => commit.tid ≠ 2) = true :=
  ⟨_, _, _, rfl, rfl, rfl, rfl, rfl, rfl⟩

end Example

end VcsGateway
