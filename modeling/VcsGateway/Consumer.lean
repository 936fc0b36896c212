import VcsGateway.Async.Broker
import VcsGateway.Async.History
import VcsGateway.Gateway

/-!
# The queue consumers

`BaseConsumer` of `queue/consumer.py` against a broker that redelivers.  What
`process_message` of a subclass does is up to the environment.
-/

namespace VcsGateway

open Async

/-- The errors under "Business errors — do NOT retry" in `core/exceptions.py`. -/
def ServiceErrorClass.isBusiness : ServiceErrorClass → Bool
  | .validationError | .notFoundError | .duplicateError | .staleEventError
  | .quotaExceededError | .businessRuleError => true
  | .databaseError | .queueError | .externalServiceError | .redisError => false

namespace Consumer

/-- What the code of a subclass can raise. -/
inductive Raised where
  | exn (e : Exn)
  /-- A `ServiceError` of no class in `core/exceptions.py`. -/
  | serviceError
deriving DecidableEq, Repr

/-- `isinstance(exc, ServiceError)`. -/
def Raised.isServiceError : Raised → Bool
  | .exn (.service _ _ _) | .serviceError => true
  | .exn _ => false

/-- `isinstance(exc, Exception)`. -/
def Raised.isException : Raised → Bool
  | .exn .cancelledError => false
  | _ => true

def Raised.isBusiness : Raised → Bool
  | .exn (.service cls _ _) => cls.isBusiness
  | _ => false

theorem Raised.isServiceError_of_isBusiness {exc : Raised} (h : exc.isBusiness = true) :
    exc.isServiceError = true := by
  unfold isBusiness at h
  split at h
  · rfl
  · simp at h

/-! ## The handler -/

inductive QueueOp where
  | receive
  | processMessage (payload : Json) (correlationId : String)
  | ack (tag : Nat)
  | nack (tag : Nat) (requeue : Bool)

@[reducible] def QueueOp.Ret : QueueOp → Type
  | .receive => Delivery Message
  | _ => Unit

abbrev Handler (α : Type) := Prog Raised QueueOp QueueOp.Ret α
abbrev QueueStep := Step Raised QueueOp QueueOp.Ret

/-- `await op`. -/
def await (op : QueueOp) : Handler op.Ret := Prog.perform op

variable (P : Platform)

/-- `str(headers.get("correlation_id", "unknown"))`. -/
def correlationId (message : Message) : String :=
  P.str ((message.headers.field? "correlation_id").getD (.str "unknown"))

/-- `json.loads(message.body)`. -/
def decode (message : Message) : Except Raised Json :=
  match P.loads message.body with
  | none => .error (.exn .jsonDecodeError)
  | some payload => .ok payload

/-- The `try` block of `_on_message`. -/
def attempt (d : Delivery Message) : Handler Unit := do
  let payload ← Prog.ofExcept (decode P d.envelope.content)
  await (.processMessage payload (correlationId P d.envelope.content))
  await (.ack d.tag)

/-- The `except` clauses of `_on_message`. -/
def onFailure (d : Delivery Message) (exc : Raised) : Handler Unit :=
  if exc.isServiceError then await (.nack d.tag false)
  else if exc.isException then await (.nack d.tag true)
  else .throw exc

def onMessage (d : Delivery Message) : Handler Unit := (attempt P d).handle (onFailure d)

/-- One message that `queue.consume(self._on_message)` passes on. -/
def consume : Handler Unit := do
  let d ← await .receive
  onMessage P d

/-! ## The queue -/

structure QueueWorld where
  broker : Broker Message := {}
  trace : List (Nat × QueueStep) := []

inductive QueueChoice where
  /-- The broker hands out the message at this position of the queue. -/
  | hand (i : Nat)
  | ok
  | raise (exc : Raised)
  /-- The broker has settled the delivery when the call raises. -/
  | late (exc : Raised)

/-- `message.ack()` and `message.nack()`: no `ServiceError` comes from the library. -/
def QueueWorld.settle (w : QueueWorld) (tag : Nat) (s : Settlement) (c : QueueChoice) :
    Option (Except Raised Unit × QueueWorld) :=
  match c with
  | .hand _ => none
  | .ok => (w.broker.settle tag s).map fun b => (.ok (), { w with broker := b })
  | .raise exc => if exc.isServiceError then none else some (.error exc, w)
  | .late exc =>
    if exc.isServiceError then none
    else (w.broker.settle tag s).map fun b => (.error exc, { w with broker := b })

/-- What becomes of the delivery that a call settles. -/
def QueueOp.settlement? : QueueOp → Option (Nat × Settlement)
  | .ack tag => some (tag, .acked)
  | .nack tag true => some (tag, .requeued)
  | .nack tag false => some (tag, .deadLettered)
  | _ => none

def execQueueOp (c : QueueChoice) (w : QueueWorld) :
    (op : QueueOp) → Option (Except Raised op.Ret × QueueWorld)
  | .receive =>
    match c with
    | .hand i => (w.broker.deliver i).map fun (d, b) => (.ok d, { w with broker := b })
    | _ => none
  | .processMessage _ _ =>
    match c with
    | .ok => some (.ok (), w)
    | .raise exc => some (.error exc, w)
    | _ => none
  | .ack tag => w.settle tag .acked c
  | .nack tag requeue => w.settle tag (if requeue then .requeued else .deadLettered) c

inductive QueueEvent where
  | publish (m : Message)
  /-- The channel of this delivery closes. -/
  | lose (tag : Nat)

def queueEvent : QueueEvent → QueueWorld → QueueWorld
  | .publish m, w => { w with broker := w.broker.publish m }
  | .lose tag, w => { w with broker := (w.broker.settle tag .lost).getD w.broker }

/-- Any number of handlers on one queue. -/
def consumers : Machine Raised QueueOp QueueOp.Ret QueueWorld QueueChoice QueueEvent Unit
    (fun _ => Unit) where
  exec t op c w := (execQueueOp c w op).map fun (r, w') =>
    (r, { w' with trace := w'.trace ++ [(t, ⟨op, r⟩)] })
  env := queueEvent
  kill _ w := w
  prog _ := consume P

abbrev QueueConfig := Config Raised QueueOp QueueOp.Ret QueueWorld fun _ : Unit => Unit

def ReachableQueue (c : QueueConfig) : Prop :=
  ∃ ls, (consumers P).run (Config.start {}) ls = some c

/-! ## What the broker owes to the handlers -/

/-- Handler `t` was given this delivery. -/
def QueueWorld.Got (w : QueueWorld) (t : Nat) (d : Delivery Message) : Prop :=
  (t, ⟨.receive, .ok d⟩) ∈ w.trace

structure QueueWorld.Sound (w : QueueWorld) : Prop where
  broker : w.broker.Sound
  delivered : ∀ t d, w.Got t d → w.broker.Delivered d
  got : ∀ d, w.broker.Delivered d → ∃ t, w.Got t d
  single : ∀ t t' d, w.Got t d → w.Got t' d → t = t'
  settled : ∀ d s, (d, s) ∈ w.broker.settled → s = .lost ∨
    ∃ t step, (t, step) ∈ w.trace ∧ step.op.settlement? = some (d.tag, s)
  answered : ∀ t step tag s, (t, step) ∈ w.trace → step.op.settlement? = some (tag, s) →
    (∃ a, step.result = .ok a) → ∃ d, d.tag = tag ∧ (d, s) ∈ w.broker.settled

def QueueWorld.record (w : QueueWorld) (t : Nat) (step : QueueStep) : QueueWorld :=
  { w with trace := w.trace ++ [(t, step)] }

section Sound

variable {w w' : QueueWorld} {t t' : Nat} {step : QueueStep} {d : Delivery Message} {tag : Nat}
  {s : Settlement}

theorem QueueWorld.mem_record {e : Nat × QueueStep} :
    e ∈ (w.record t step).trace ↔ e ∈ w.trace ∨ e = (t, step) := by
  simp [record]

theorem QueueWorld.got_record (h : ∀ d', step ≠ ⟨.receive, .ok d'⟩) :
    (w.record t step).Got t' d ↔ w.Got t' d := by
  unfold Got
  rw [mem_record]
  constructor
  · rintro (hgot | heq)
    · exact hgot
    · exact absurd (Prod.mk.inj heq).2.symm (h d)
  · exact .inl

theorem QueueWorld.not_receive (hop : step.op.settlement? = some (tag, s)) (d' : Delivery Message) :
    step ≠ ⟨.receive, .ok d'⟩ := by
  rintro rfl
  simp [QueueOp.settlement?] at hop

/-- A call that leaves the broker alone. -/
theorem QueueWorld.Sound.record (h : w.Sound) (t : Nat) (hreceive : ∀ d', step ≠ ⟨.receive, .ok d'⟩)
    (hfail : ∀ tag s, step.op.settlement? = some (tag, s) → ∀ a, step.result ≠ .ok a) :
    (w.record t step).Sound where
  broker := h.broker
  delivered t' d hgot := h.delivered t' d ((got_record hreceive).mp hgot)
  got d hd := (h.got d hd).imp fun _ hgot => (got_record hreceive).mpr hgot
  single t₁ t₂ d h₁ h₂ :=
    h.single t₁ t₂ d ((got_record hreceive).mp h₁) ((got_record hreceive).mp h₂)
  settled d s hd := by
    apply (h.settled d s hd).imp_right
    rintro ⟨t', step', hlog, hop⟩
    exact ⟨t', step', mem_record.mpr (.inl hlog), hop⟩
  answered t' step' tag s hlog hop hok := by
    rcases mem_record.mp hlog with hlog | heq
    · exact h.answered t' step' tag s hlog hop hok
    · obtain ⟨rfl, rfl⟩ := Prod.mk.inj heq
      obtain ⟨a, ha⟩ := hok
      exact absurd ha (hfail tag s hop a)

/-- A call that settles a delivery. -/
theorem QueueWorld.Sound.settles (h : w.Sound) (t : Nat) {b : Broker Message}
    (hs : Broker.Settles w.broker b d s) (hop : step.op.settlement? = some (d.tag, s)) :
    (({ w with broker := b } : QueueWorld).record t step).Sound where
  broker := h.broker.settle hs
  delivered t' d' hgot := (hs.delivered d').mpr
    (h.delivered t' d' ((got_record (not_receive hop)).mp hgot))
  got d' hd' := (h.got d' ((hs.delivered d').mp hd')).imp fun _ hgot =>
    (got_record (not_receive hop)).mpr hgot
  single t₁ t₂ d' h₁ h₂ := h.single t₁ t₂ d' ((got_record (not_receive hop)).mp h₁)
    ((got_record (not_receive hop)).mp h₂)
  settled d' s' hd' := by
    change (d', s') ∈ b.settled at hd'
    rw [hs.settled] at hd'
    rcases List.mem_cons.mp hd' with heq | hbefore
    · obtain ⟨rfl, rfl⟩ := Prod.mk.inj heq
      exact .inr ⟨t, step, mem_record.mpr (.inr rfl), hop⟩
    · apply (h.settled d' s' hbefore).imp_right
      rintro ⟨t', step', hlog, hop'⟩
      exact ⟨t', step', mem_record.mpr (.inl hlog), hop'⟩
  answered t' step' tag s' hlog hop' hok := by
    change ∃ d', d'.tag = tag ∧ (d', s') ∈ b.settled
    rw [hs.settled]
    rcases mem_record.mp hlog with hlog | heq
    · obtain ⟨d', htag, hd'⟩ := h.answered t' step' tag s' hlog hop' hok
      exact ⟨d', htag, List.mem_cons_of_mem _ hd'⟩
    · obtain ⟨rfl, rfl⟩ := Prod.mk.inj heq
      obtain ⟨rfl, rfl⟩ := Prod.mk.inj (Option.some.inj (hop.symm.trans hop'))
      exact ⟨d, rfl, List.mem_cons_self⟩

theorem QueueWorld.Sound.receives (h : w.Sound) (t : Nat) {b : Broker Message} {i : Nat}
    (hd : w.broker.deliver i = some (d, b)) :
    (({ w with broker := b } : QueueWorld).record t ⟨.receive, .ok d⟩).Sound := by
  have hdelivered := Broker.deliver_delivered hd
  obtain ⟨htag, -, -, -, -, hsettled, -, -⟩ := Broker.deliver_eq_some hd
  have hgot : ∀ t' d', (({ w with broker := b } : QueueWorld).record t ⟨.receive, .ok d⟩).Got t' d' ↔
      w.Got t' d' ∨ (t' = t ∧ d' = d) := by
    intro t' d'
    unfold Got
    rw [mem_record]
    simp
  -- nobody was given this delivery before
  have hnew : ∀ t', ¬w.Got t' d := by
    intro t' hold
    have := h.broker.tags d (h.delivered t' d hold)
    omega
  constructor
  · exact h.broker.deliver hd
  · intro t' d' hd'
    apply (hdelivered d').mpr
    rcases (hgot t' d').mp hd' with hold | ⟨-, rfl⟩
    · exact .inr (h.delivered t' d' hold)
    · exact .inl rfl
  · intro d' hd'
    rcases (hdelivered d').mp hd' with rfl | hold
    · exact ⟨t, (hgot t d').mpr (.inr ⟨rfl, rfl⟩)⟩
    · obtain ⟨t', ht'⟩ := h.got d' hold
      exact ⟨t', (hgot t' d').mpr (.inl ht')⟩
  · intro t₁ t₂ d' h₁ h₂
    rcases (hgot t₁ d').mp h₁ with hold₁ | ⟨rfl, rfl⟩
    · rcases (hgot t₂ d').mp h₂ with hold₂ | ⟨rfl, rfl⟩
      · exact h.single t₁ t₂ d' hold₁ hold₂
      · exact absurd hold₁ (hnew t₁)
    · rcases (hgot t₂ d').mp h₂ with hold₂ | ⟨rfl, -⟩
      · exact absurd hold₂ (hnew t₂)
      · rfl
  · intro d' s hd'
    change (d', s) ∈ b.settled at hd'
    rw [hsettled] at hd'
    apply (h.settled d' s hd').imp_right
    rintro ⟨t', step', hlog, hop⟩
    exact ⟨t', step', mem_record.mpr (.inl hlog), hop⟩
  · intro t' step' tag s hlog hop hok
    change ∃ d', d'.tag = tag ∧ (d', s) ∈ b.settled
    rw [hsettled]
    rcases mem_record.mp hlog with hlog | heq
    · exact h.answered t' step' tag s hlog hop hok
    · obtain ⟨rfl, rfl⟩ := Prod.mk.inj heq
      simp [QueueOp.settlement?] at hop

/-- The two calls that settle. -/
theorem QueueWorld.Sound.settle (h : w.Sound) (t : Nat) {c : QueueChoice} {op : QueueOp}
    (hop : op.settlement? = some (tag, s)) {r : Except Raised Unit} {r' : Except Raised op.Ret}
    (hr : ∀ a, r' = .ok a → r = .ok ()) (he : w.settle tag s c = some (r, w')) :
    (w'.record t ⟨op, r'⟩).Sound := by
  have hdone : ∀ b, w.broker.settle tag s = some b →
      (({ w with broker := b } : QueueWorld).record t ⟨op, r'⟩).Sound := by
    intro b hb
    obtain ⟨d, rfl, hs⟩ := Broker.settle_eq_some hb
    exact h.settles t hs hop
  unfold QueueWorld.settle at he
  cases c with
  | hand i => simp at he
  | ok =>
    obtain ⟨b, hb, heq⟩ := Option.map_eq_some_iff.mp he
    obtain ⟨-, rfl⟩ := Prod.mk.inj heq
    exact hdone b hb
  | raise exc =>
    simp only at he
    split at he
    · simp at he
    · obtain ⟨rfl, rfl⟩ := Prod.mk.inj (Option.some.inj he)
      refine h.record t (not_receive hop) fun _ _ _ a ha => ?_
      simpa using hr a ha
  | late exc =>
    simp only at he
    split at he
    · simp at he
    · obtain ⟨b, hb, heq⟩ := Option.map_eq_some_iff.mp he
      obtain ⟨-, rfl⟩ := Prod.mk.inj heq
      exact hdone b hb

/-- The messages that arrive concern no delivery. -/
theorem QueueWorld.Sound.publish (h : w.Sound) (m : Message) :
    ({ w with broker := w.broker.publish m } : QueueWorld).Sound where
  broker := h.broker.publish m
  delivered := h.delivered
  got := h.got
  single := h.single
  settled := h.settled
  answered := h.answered

theorem QueueWorld.Sound.lose (h : w.Sound) (tag : Nat) :
    ({ w with broker := (w.broker.settle tag .lost).getD w.broker } : QueueWorld).Sound := by
  rcases hb : w.broker.settle tag .lost with _ | b
  · exact h
  · obtain ⟨d, -, hs⟩ := Broker.settle_eq_some hb
    rw [Option.getD_some]
    constructor
    · exact h.broker.settle hs
    · exact fun t d' hgot => (hs.delivered d').mpr (h.delivered t d' hgot)
    · exact fun d' hd' => h.got d' ((hs.delivered d').mp hd')
    · exact h.single
    · intro d' s hd'
      change (d', s) ∈ b.settled at hd'
      rw [hs.settled] at hd'
      rcases List.mem_cons.mp hd' with heq | hbefore
      · exact .inl (Prod.mk.inj heq).2
      · exact h.settled d' s hbefore
    · intro t step tag s hlog hop hok
      obtain ⟨d', htag, hd'⟩ := h.answered t step tag s hlog hop hok
      refine ⟨d', htag, ?_⟩
      change (d', s) ∈ b.settled
      rw [hs.settled]
      exact List.mem_cons_of_mem _ hd'

theorem QueueWorld.settle_trace {c : QueueChoice} {r : Except Raised Unit}
    (h : w.settle tag s c = some (r, w')) : w'.trace = w.trace := by
  unfold QueueWorld.settle at h
  cases c with
  | hand i => simp at h
  | ok =>
    obtain ⟨b, -, heq⟩ := Option.map_eq_some_iff.mp h
    rw [← (Prod.mk.inj heq).2]
  | raise exc =>
    simp only at h
    split at h
    · simp at h
    · rw [(Prod.mk.inj (Option.some.inj h)).2]
  | late exc =>
    simp only at h
    split at h
    · simp at h
    · obtain ⟨b, -, heq⟩ := Option.map_eq_some_iff.mp h
      rw [← (Prod.mk.inj heq).2]

end Sound

theorem QueueWorld.Sound.empty : ({} : QueueWorld).Sound := by
  constructor <;> simp [Broker.Sound.empty, Got, Broker.Delivered]

theorem consumers_logs : (consumers P).Logs QueueWorld.trace QueueWorld.Sound fun _ _ => True where
  exec := by
    intro t op c w r w' hw he
    obtain ⟨⟨r₁, w₁⟩, hop, heq⟩ := Option.map_eq_some_iff.mp he
    obtain ⟨rfl, rfl⟩ := Prod.mk.inj heq
    change (w₁.record t ⟨op, r₁⟩).Sound ∧ True ∧ w₁.trace ++ [(t, ⟨op, r₁⟩)] = w.trace ++ _
    cases op with
    | receive =>
      unfold execQueueOp at hop
      cases c with
      | hand i =>
        obtain ⟨⟨d, b⟩, hd, heq⟩ := Option.map_eq_some_iff.mp hop
        obtain ⟨rfl, rfl⟩ := Prod.mk.inj heq
        exact ⟨hw.receives t hd, trivial, rfl⟩
      | ok => simp at hop
      | raise exc => simp at hop
      | late exc => simp at hop
    | processMessage payload cid =>
      have hsame : w₁ = w := by
        unfold execQueueOp at hop
        cases c with
        | hand i => simp at hop
        | ok => exact (Prod.mk.inj (Option.some.inj hop)).2.symm
        | raise exc => exact (Prod.mk.inj (Option.some.inj hop)).2.symm
        | late exc => simp at hop
      rw [hsame]
      exact ⟨hw.record t (by simp) (by simp [QueueOp.settlement?]), trivial, rfl⟩
    | ack tag =>
      exact ⟨hw.settle t rfl (fun a ha => ha) hop, trivial, by rw [QueueWorld.settle_trace hop]⟩
    | nack tag requeue =>
      refine ⟨hw.settle t ?_ (fun a ha => ha) hop, trivial, by rw [QueueWorld.settle_trace hop]⟩
      cases requeue <;> rfl
  env := by
    intro e w hw
    refine ⟨?_, by cases e <;> rfl⟩
    cases e with
    | publish m => exact hw.publish m
    | lose tag => exact hw.lose tag
  kill := fun hw => ⟨hw, rfl⟩

/-! ## How a handler settles its delivery -/

section Handler

variable {P} {d : Delivery Message} {steps : List QueueStep} {exc : Raised} {q : Handler Unit}

/-- Where the `except` clauses send a message. -/
def Raised.settlement (exc : Raised) : Settlement :=
  if exc.isServiceError then .deadLettered else .requeued

theorem nack_settlement (tag : Nat) (exc : Raised) :
    (QueueOp.nack tag (!exc.isServiceError)).settlement? = some (tag, exc.settlement) := by
  unfold Raised.settlement
  cases exc.isServiceError <;> rfl

theorem onFailure_only : (onFailure d exc).Only fun op => op = .nack d.tag (!exc.isServiceError) := by
  unfold onFailure
  by_cases hservice : exc.isServiceError = true
  · rw [if_pos hservice, hservice]
    exact Prog.only_perform.mpr rfl
  · rw [if_neg hservice]
    by_cases hexception : exc.isException = true
    · rw [if_pos hexception, Bool.eq_false_iff.mpr hservice]
      exact Prog.only_perform.mpr rfl
    · rw [if_neg hexception]
      exact Prog.only_ret _

/-- A handler settles its own delivery and no other. -/
theorem onMessage_only : (onMessage P d).Only fun op =>
    op ≠ .receive ∧ ∀ tag s, op.settlement? = some (tag, s) → tag = d.tag := by
  unfold onMessage attempt
  apply Prog.Only.handle
  · apply Prog.Only.bind (Prog.only_ret _)
    intro payload
    apply Prog.Only.bind
    · apply Prog.only_perform.mpr
      simp [QueueOp.settlement?]
    · intro _
      apply Prog.only_perform.mpr
      simp [QueueOp.settlement?, eq_comm]
  · intro exc
    apply onFailure_only.mono
    intro op hop
    rw [hop]
    constructor
    · simp
    · intro tag s hs
      rw [nack_settlement] at hs
      exact (Prod.mk.inj (Option.some.inj hs)).1.symm

theorem consume_reaches (h : (consume P).Reaches steps q) (hgot : ⟨.receive, .ok d⟩ ∈ steps) :
    ∃ rest, steps = ⟨.receive, .ok d⟩ :: rest ∧ (onMessage P d).Reaches rest q := by
  cases h with
  | here => simp at hgot
  | @await _ _ a rest q h =>
    cases a with
    | error e =>
      cases h with
      | here => simp at hgot
    | ok d' =>
      have hfirst : d' = d := by
        rcases List.mem_cons.mp hgot with heq | hrest
        · simpa using heq.symm
        · exact absurd rfl (Prog.Only.reaches onMessage_only h _ hrest).1
      subst hfirst
      exact ⟨rest, rfl, h⟩

theorem consume_settles (h : (consume P).Reaches steps q) {step : QueueStep} (hstep : step ∈ steps)
    {tag : Nat} {s : Settlement} (hop : step.op.settlement? = some (tag, s)) :
    ∃ d, ⟨.receive, .ok d⟩ ∈ steps := by
  cases h with
  | here => simp at hstep
  | @await _ _ a rest q h =>
    cases a with
    | error e =>
      cases h with
      | here =>
        rw [List.mem_singleton.mp hstep] at hop
        simp [QueueOp.settlement?] at hop
    | ok d => exact ⟨d, List.mem_cons_self⟩

/-- The `try` block fails in two places before it acknowledges. -/
theorem onMessage_failed (h : (onMessage P d).Reaches steps q)
    (hfail : decode P d.envelope.content = .error exc ∨
      ∃ payload cid, ⟨.processMessage payload cid, .error exc⟩ ∈ steps) :
    ∃ pre rest, steps = pre ++ rest ∧ (∀ step ∈ pre, step.op.settlement? = none) ∧
      (onFailure d exc).Reaches rest q := by
  unfold onMessage attempt at h
  rcases hdecode : decode P d.envelope.content with e | payload
  · rw [hdecode] at h hfail
    have hsame : e = exc := by
      rcases hfail with heq | ⟨payload, cid, hmem⟩
      · exact Except.error.inj heq
      · have hnack := Prog.Only.reaches (@onFailure_only d e) h _ hmem
        simp at hnack
    subst hsame
    exact ⟨[], steps, rfl, by simp, h⟩
  · rw [hdecode] at h hfail
    obtain ⟨payload', cid, hmem⟩ := hfail.resolve_left (by simp)
    cases h with
    | here => simp at hmem
    | @await _ _ a rest q h =>
      cases a with
      | error e =>
        have hsame : e = exc := by
          rcases List.mem_cons.mp hmem with heq | hrest
          · simp only [Step.mk.injEq, QueueOp.processMessage.injEq] at heq
            obtain ⟨⟨rfl, rfl⟩, heq⟩ := heq
            exact (Except.error.inj (eq_of_heq heq)).symm
          · have hnack := Prog.Only.reaches (@onFailure_only d e) h _ hrest
            simp at hnack
        subst hsame
        exact ⟨[_], rest, rfl, by simp [QueueOp.settlement?], h⟩
      | ok u =>
        have hrest : ⟨.processMessage payload' cid, .error exc⟩ ∈ rest := by
          rcases List.mem_cons.mp hmem with heq | hrest
          · simp only [Step.mk.injEq, QueueOp.processMessage.injEq] at heq
            obtain ⟨⟨rfl, rfl⟩, heq⟩ := heq
            simp at heq
          · exact hrest
        have honly : (Prog.handle (await (.ack d.tag)) (onFailure d)).Only
            fun op => ∀ payload cid, op ≠ .processMessage payload cid := by
          apply Prog.Only.handle
          · exact Prog.only_perform.mpr (by simp)
          · intro e
            apply onFailure_only.mono
            intro op hop
            simp [hop]
        exact absurd rfl (Prog.Only.reaches honly h _ hrest payload' cid)

/-- A failed handler settles its delivery as its exception has it. -/
theorem failed_settles (h : (onMessage P d).Reaches steps q)
    (hfail : decode P d.envelope.content = .error exc ∨
      ∃ payload cid, ⟨.processMessage payload cid, .error exc⟩ ∈ steps)
    {step : QueueStep} (hstep : step ∈ steps) {tag : Nat} {s : Settlement}
    (hop : step.op.settlement? = some (tag, s)) : s = exc.settlement := by
  obtain ⟨pre, rest, rfl, hpre, hrest⟩ := onMessage_failed h hfail
  rcases List.mem_append.mp hstep with hbefore | hafter
  · rw [hpre step hbefore] at hop
    simp at hop
  · have hnack := Prog.Only.reaches onFailure_only hrest step hafter
    rw [hnack, nack_settlement] at hop
    exact (Prod.mk.inj (Option.some.inj hop)).2.symm

theorem onFailure_finished (h : (onFailure d exc).Follows steps (.ok ())) :
    ∃ step ∈ steps, ∃ s, step.op.settlement? = some (d.tag, s) ∧ ∃ a, step.result = .ok a := by
  have hnack : ∀ requeue, (await (.nack d.tag requeue)).Follows steps (.ok ()) →
      ∃ step ∈ steps, ∃ s, step.op.settlement? = some (d.tag, s) ∧ ∃ a, step.result = .ok a := by
    intro requeue h
    rw [Prog.follows_perform.mp h]
    refine ⟨_, List.mem_singleton_self _, if requeue then .requeued else .deadLettered, ?_, (), rfl⟩
    cases requeue <;> rfl
  unfold onFailure at h
  split at h
  · exact hnack false h
  · split at h
    · exact hnack true h
    · simp [Prog.throw] at h

/-- A handler that comes to its end has settled its delivery. -/
theorem onMessage_finished (h : (onMessage P d).Follows steps (.ok ())) :
    ∃ step ∈ steps, ∃ s, step.op.settlement? = some (d.tag, s) ∧ ∃ a, step.result = .ok a := by
  obtain ⟨first, rest, r, rfl, hattempt, hend⟩ := Prog.follows_andThen.mp h
  cases r with
  | error exc =>
    obtain ⟨step, hstep, hsettled⟩ := onFailure_finished hend
    exact ⟨step, List.mem_append_right _ hstep, hsettled⟩
  | ok u =>
    unfold attempt at hattempt
    rcases Prog.follows_ofExcept_bind.mp hattempt with ⟨payload, -, hattempt⟩ | ⟨e, -, -, he⟩
    · rcases Prog.follows_bind.mp hattempt with ⟨before, after, v, rfl, -, hack⟩ | ⟨e, he, -⟩
      · rw [Prog.follows_perform.mp hack]
        exact ⟨⟨.ack d.tag, .ok ()⟩, by simp, .acked, rfl, (), rfl⟩
      · simp at he
    · simp at he

end Handler

/-! ## Every run -/

section Runs

variable {P} {c : QueueConfig} {t : Nat} {d : Delivery Message} {s : Settlement}

theorem ReachableQueue.sound (h : ReachableQueue P c) : c.world.Sound := by
  obtain ⟨ls, hrun⟩ := h
  exact Machine.run_sound (consumers_logs P) QueueWorld.Sound.empty hrun

theorem ReachableQueue.reaches (h : ReachableQueue P c) {step : QueueStep}
    (hstep : (t, step) ∈ c.world.trace) :
    ∃ th, c.threads t = some th ∧ (consume P).Reaches (historyOf t c.world.trace) th.prog := by
  obtain ⟨ls, hrun⟩ := h
  have hguarded := (@Machine.guarded_run _ _ _ _ _ _ _ _ _ _ _ _ _ (consumers_logs P)
    (fun _ => True) (fun _ _ _ => True) (fun t k _ => .awaits (.here ((consumers P).prog k)))
    _ QueueWorld.Sound.empty rfl _ _ (fun _ _ => trivial) hrun).1
  obtain ⟨pre, post, heq⟩ := List.append_of_mem hstep
  obtain ⟨k, hk, -⟩ := hguarded pre t step post heq
  obtain ⟨th, hth, -⟩ := Option.map_eq_some_iff.mp hk
  exact ⟨th, hth, Machine.run_reaches (consumers_logs P) QueueWorld.Sound.empty rfl hrun t th hth⟩

/-- A handler that was given a delivery has come so far with it. -/
theorem ReachableQueue.handles (h : ReachableQueue P c) (hgot : c.world.Got t d) :
    ∃ th rest, c.threads t = some th ∧
      historyOf t c.world.trace = ⟨.receive, .ok d⟩ :: rest ∧ (onMessage P d).Reaches rest th.prog := by
  obtain ⟨th, hth, hreach⟩ := h.reaches hgot
  obtain ⟨rest, heq, hrest⟩ := consume_reaches hreach (mem_historyOf.mpr hgot)
  exact ⟨th, rest, hth, heq, hrest⟩

/-- A delivery that was not lost was settled by the handler that got it. -/
theorem ReachableQueue.settler (h : ReachableQueue P c) (hd : (d, s) ∈ c.world.broker.settled)
    (hs : s ≠ .lost) :
    ∃ t step, c.world.Got t d ∧ (t, step) ∈ c.world.trace ∧
      step.op.settlement? = some (d.tag, s) := by
  obtain ⟨t, step, hstep, hop⟩ := (h.sound.settled d s hd).resolve_left hs
  obtain ⟨th, hth, hreach⟩ := h.reaches hstep
  obtain ⟨d', hgot⟩ := consume_settles hreach (mem_historyOf.mpr hstep) hop
  obtain ⟨rest, heq, hrest⟩ := consume_reaches hreach hgot
  have hlater : step ∈ rest := by
    have hmem := mem_historyOf.mpr hstep
    rw [heq] at hmem
    rcases List.mem_cons.mp hmem with rfl | hrest
    · simp [QueueOp.settlement?] at hop
    · exact hrest
  have htag := (Prog.Only.reaches onMessage_only hrest step hlater).2 d.tag s hop
  have hgot' : c.world.Got t d' := mem_historyOf.mp hgot
  have hsame := h.sound.broker.unique d d' (.inr ⟨s, hd⟩) (h.sound.delivered t d' hgot') htag
  subst hsame
  exact ⟨t, step, hgot', hstep, hop⟩

end Runs

/-! ## What the error classes promise -/

/-- `process_message` raised `exc` in handler `t`. -/
def QueueWorld.Raises (w : QueueWorld) (t : Nat) (exc : Raised) : Prop :=
  ∃ payload cid, (t, ⟨.processMessage payload cid, .error exc⟩) ∈ w.trace

/-- The message of this delivery can never succeed. -/
def Hopeless (w : QueueWorld) (t : Nat) (d : Delivery Message) : Prop :=
  P.loads d.envelope.content.body = none ∨ ∃ exc, w.Raises t exc ∧ exc.isBusiness = true

def Retryable (w : QueueWorld) (t : Nat) : Prop :=
  ∃ exc, w.Raises t exc ∧ exc.isException = true ∧ exc.isBusiness = false

/-- Handler `t` has returned. -/
def Done (c : QueueConfig) (t : Nat) : Prop := c.threads t = some ⟨(), .ret (.ok ()), true⟩

/-- Consumers neither loop on hopeless messages nor discard retryable ones. -/
structure Consumed (c : QueueConfig) : Prop where
  place : ∀ id < c.world.broker.nextId,
    (c.world.broker.queue.map (·.id)).count id +
      (c.world.broker.unacked.map (·.envelope.id)).count id +
      (c.world.broker.acked.map (·.id)).count id +
      (c.world.broker.deadLetters.map (·.id)).count id = 1
  hopeless : ∀ t d, c.world.Got t d → Hopeless P c.world t d →
    (∀ s, (d, s) ∈ c.world.broker.settled → s = .lost ∨ s = .deadLettered) ∧
      (Done c t → (d, .deadLettered) ∈ c.world.broker.settled)
  /-- A dead letter is never delivered again. -/
  final : ∀ d, (d, .deadLettered) ∈ c.world.broker.settled →
    d.envelope ∈ c.world.broker.deadLetters ∧
      ∀ d', c.world.broker.Delivered d' → d'.envelope.id = d.envelope.id → d'.tag ≤ d.tag
  /-- What can never succeed is dead-lettered on the first delivery that is not lost. -/
  first : ∀ t d, c.world.Got t d → Hopeless P c.world t d →
    (d, .deadLettered) ∈ c.world.broker.settled → ∀ t' d', c.world.Got t' d' →
    Hopeless P c.world t' d' → d'.envelope.id = d.envelope.id →
    d' = d ∨ (d', .lost) ∈ c.world.broker.settled
  retryable : ∀ t d, c.world.Got t d → Retryable c.world t →
    (∀ s, (d, s) ∈ c.world.broker.settled → s = .lost ∨ s = .requeued) ∧
      (Done c t → (d, .requeued) ∈ c.world.broker.settled)
  /-- A requeued message waits, or has been delivered once more. -/
  requeued : ∀ d, (d, .requeued) ∈ c.world.broker.settled → d.envelope ∈ c.world.broker.queue ∨
    ∃ d', c.world.broker.Delivered d' ∧ d'.envelope = d.envelope ∧ d.tag < d'.tag

/-- The body is JSON, and a `ServiceError` of `process_message` is a business error. -/
def Foreseen (w : QueueWorld) (d : Delivery Message) : Prop :=
  P.loads d.envelope.content.body ≠ none ∧ ∀ t exc, w.Got t d → w.Raises t exc →
    exc.isServiceError = true → exc.isBusiness = true

section Claims

variable {P} {c : QueueConfig} {t : Nat} {d : Delivery Message} {s : Settlement} {exc : Raised}

/-- The code looks at the exception and at nothing else. -/
theorem ReachableQueue.settled_as (h : ReachableQueue P c) (hgot : c.world.Got t d)
    (hfail : decode P d.envelope.content = .error exc ∨ c.world.Raises t exc)
    (hd : (d, s) ∈ c.world.broker.settled) (hs : s ≠ .lost) : s = exc.settlement := by
  obtain ⟨t', step, hgot', hstep, hop⟩ := h.settler hd hs
  obtain rfl := h.sound.single t' t d hgot' hgot
  obtain ⟨th, rest, -, heq, hrest⟩ := h.handles hgot
  have hlater : ∀ step', (t', step') ∈ c.world.trace → step'.op ≠ .receive → step' ∈ rest := by
    intro step' hstep' hne
    have hmem := mem_historyOf.mpr hstep'
    rw [heq] at hmem
    rcases List.mem_cons.mp hmem with rfl | hrest
    · simp at hne
    · exact hrest
  apply failed_settles hrest _ (hlater step hstep _) hop
  · apply hfail.imp_right
    rintro ⟨payload, cid, hraised⟩
    exact ⟨payload, cid, hlater _ hraised (by simp)⟩
  · intro hreceive
    rw [hreceive] at hop
    simp [QueueOp.settlement?] at hop

theorem ReachableQueue.done_settled (h : ReachableQueue P c) (hgot : c.world.Got t d)
    (hdone : Done c t) : ∃ s, s ≠ .lost ∧ (d, s) ∈ c.world.broker.settled := by
  obtain ⟨th, rest, hth, heq, hrest⟩ := h.handles hgot
  obtain rfl := Option.some.inj (hdone.symm.trans hth)
  have hfollows := hrest.follows (.ret (.ok ()))
  rw [List.append_nil] at hfollows
  obtain ⟨step, hstep, s, hop, hok⟩ := onMessage_finished hfollows
  have hlog : (t, step) ∈ c.world.trace := by
    apply mem_historyOf.mp
    rw [heq]
    exact List.mem_cons_of_mem _ hstep
  obtain ⟨d', htag, hd'⟩ := h.sound.answered t step d.tag s hlog hop hok
  have hsame := h.sound.broker.unique d' d (.inr ⟨s, hd'⟩) (h.sound.delivered t d hgot) htag
  subst hsame
  refine ⟨s, ?_, hd'⟩
  rintro rfl
  unfold QueueOp.settlement? at hop
  split at hop <;> simp at hop

theorem decode_undecodable (h : P.loads d.envelope.content.body = none) :
    decode P d.envelope.content = .error (.exn .jsonDecodeError) := by
  simp [decode, h]

theorem Raised.settlement_service (h : exc.isServiceError = true) :
    exc.settlement = .deadLettered := if_pos h

theorem Raised.settlement_other (h : exc.isServiceError = false) : exc.settlement = .requeued := by
  simp [settlement, h]

/-- **Consumers do what the error classes promise if and only if no delivery that they
settled was undecodable or ended in a `ServiceError` outside of the business errors.** -/
theorem consumed_iff (h : ReachableQueue P c) : Consumed P c ↔
    ∀ d s, (d, s) ∈ c.world.broker.settled → s ≠ .lost → Foreseen P c.world d := by
  have hsound := h.sound
  constructor
  · intro hc d s hd hs
    obtain ⟨t, -, hgot, -, -⟩ := h.settler hd hs
    constructor
    · intro hloads
      have hcode := h.settled_as hgot (.inl (decode_undecodable hloads)) hd hs
      have hclaim := ((hc.hopeless t d hgot (.inl hloads)).1 s hd).resolve_left hs
      rw [hclaim] at hcode
      simp [Raised.settlement, Raised.isServiceError] at hcode
    · intro t' exc hgot' hraises hservice
      by_contra hbusiness
      have hexception : exc.isException = true := by
        unfold Raised.isServiceError at hservice
        unfold Raised.isException
        split at hservice <;> simp_all
      have hcode := h.settled_as hgot' (.inr hraises) hd hs
      have hclaim := ((hc.retryable t' d hgot'
        ⟨exc, hraises, hexception, Bool.eq_false_iff.mpr hbusiness⟩).1 s hd).resolve_left hs
      rw [hclaim, Raised.settlement_service hservice] at hcode
      simp at hcode
  · intro hforeseen
    have hopeless : ∀ t d, c.world.Got t d → Hopeless P c.world t d → ∀ s,
        (d, s) ∈ c.world.broker.settled → s = .lost ∨ s = .deadLettered := by
      intro t d hgot hhopeless s hd
      by_cases hs : s = .lost
      · exact .inl hs
      · obtain ⟨hloads, -⟩ := hforeseen d s hd hs
        obtain ⟨exc, hraises, hbusiness⟩ := hhopeless.resolve_left hloads
        rw [h.settled_as hgot (.inr hraises) hd hs]
        exact .inr (Raised.settlement_service (Raised.isServiceError_of_isBusiness hbusiness))
    have hretryable : ∀ t d, c.world.Got t d → Retryable c.world t → ∀ s,
        (d, s) ∈ c.world.broker.settled → s = .lost ∨ s = .requeued := by
      rintro t d hgot ⟨exc, hraises, -, hbusiness⟩ s hd
      by_cases hs : s = .lost
      · exact .inl hs
      · obtain ⟨-, hservice⟩ := hforeseen d s hd hs
        have hother : exc.isServiceError = false := by
          apply Bool.eq_false_iff.mpr
          intro hyes
          rw [hservice t exc hgot hraises hyes] at hbusiness
          simp at hbusiness
        rw [h.settled_as hgot (.inr hraises) hd hs]
        exact .inr (Raised.settlement_other hother)
    constructor
    · intro id hid
      exact hsound.broker.count_eq_one hid
    · intro t d hgot hhopeless
      refine ⟨hopeless t d hgot hhopeless, fun hdone => ?_⟩
      obtain ⟨s, hs, hd⟩ := h.done_settled hgot hdone
      rw [← (hopeless t d hgot hhopeless s hd).resolve_left hs]
      exact hd
    · intro d hd
      exact ⟨hsound.broker.deadLettered d hd, hsound.broker.final d _ hd rfl⟩
    · intro t d hgot hhopeless hd t' d' hgot' hhopeless' hid
      by_cases hsame : d' = d
      · exact .inl hsame
      have hdelivered' := hsound.delivered t' d' hgot'
      have hdelivered := hsound.delivered t d hgot
      have hle := hsound.broker.final d _ hd rfl d' hdelivered' hid
      have hne : d'.tag ≠ d.tag := fun htag =>
        hsame (hsound.broker.unique d' d hdelivered' hdelivered htag)
      -- an earlier delivery was over when the message was handed out again
      rcases hdelivered' with hopen | ⟨s, hd'⟩
      · have := hsound.broker.latest d' hopen d hdelivered hid.symm
        omega
      · rcases hopeless t' d' hgot' hhopeless' s hd' with rfl | rfl
        · exact .inr hd'
        · have := hsound.broker.final d' _ hd' rfl d hdelivered hid.symm
          omega
    · intro t d hgot hagain
      refine ⟨hretryable t d hgot hagain, fun hdone => ?_⟩
      obtain ⟨s, hs, hd⟩ := h.done_settled hgot hdone
      rw [← (hretryable t d hgot hagain s hd).resolve_left hs]
      exact hd
    · intro d hd
      exact hsound.broker.returned d _ hd rfl

end Claims

/-! ### Two messages -/

namespace Example

/-- `json.loads`, as far as the bodies below go. -/
def queuePlatform : Platform :=
  { VcsGateway.Example.platform with
    loads := fun body => if body = "1".toUTF8 then some (.int 1) else none }

def truncated : Message := { body := "[1,".toUTF8, headers := .dict [] }
def wellFormed : Message := { body := "1".toUTF8, headers := .dict [] }

/-- A handler gets the first message of the queue. -/
def handler (t : Nat) (rest : List QueueChoice) :
    List (Label QueueChoice QueueEvent Unit) :=
  .spawn t () :: (QueueChoice.hand 0 :: rest).map (.step t)

theorem truncated_run : ∃ c,
    (consumers queuePlatform).run (Config.start {})
      (.env (.publish truncated) :: (handler 0 [.ok] ++ handler 1 [])) = some c ∧
    c.world.Got 0 ⟨0, ⟨0, truncated⟩⟩ ∧ Done c 0 ∧
    c.world.broker.settled = [(⟨0, ⟨0, truncated⟩⟩, .requeued)] ∧
    c.world.broker.unacked = [⟨1, ⟨0, truncated⟩⟩] :=
  ⟨_, rfl, List.mem_cons_self, rfl, rfl, rfl⟩

theorem raising_run (cls : ServiceErrorClass) : ∃ c,
    (consumers queuePlatform).run (Config.start {})
      (.env (.publish wellFormed) :: handler 0 [.raise (.exn (.service cls "" [])), .ok]) = some c ∧
    Done c 0 ∧ c.world.trace = [(0, ⟨.receive, .ok ⟨0, ⟨0, wellFormed⟩⟩⟩),
      (0, ⟨.processMessage (.int 1) "unknown", .error (.exn (.service cls "" []))⟩),
      (0, ⟨.nack 0 false, .ok ()⟩)] ∧
    c.world.broker.settled = [(⟨0, ⟨0, wellFormed⟩⟩, .deadLettered)] :=
  ⟨_, rfl, rfl, rfl, rfl⟩

end Example

/-- A message that is not found fails for good, and is dead-lettered. -/
theorem notFound_consumed : ∃ c, ReachableQueue Example.queuePlatform c ∧
    c.world.Raises 0 (.exn (.service .notFoundError "" [])) ∧ Consumed Example.queuePlatform c := by
  obtain ⟨c, hrun, -, htrace, hsettled⟩ := Example.raising_run .notFoundError
  have hc : ReachableQueue Example.queuePlatform c := ⟨_, hrun⟩
  have hraises : c.world.Raises 0 (.exn (.service .notFoundError "" [])) :=
    ⟨.int 1, "unknown", by simp [htrace]⟩
  refine ⟨c, hc, hraises, (consumed_iff hc).mpr ?_⟩
  intro d s hd hs
  rw [hsettled, List.mem_singleton] at hd
  obtain ⟨rfl, rfl⟩ := Prod.mk.inj hd
  constructor
  · simp [Example.queuePlatform, Example.wellFormed]
  · rintro t exc - ⟨payload, cid, hraised⟩ -
    have hexc : exc = .exn (.service .notFoundError "" []) := by
      simp only [htrace, List.mem_cons, Prod.mk.injEq, Step.mk.injEq] at hraised
      rcases hraised with ⟨-, hop, -⟩ | ⟨-, hop, heq⟩ | ⟨-, hop, -⟩ | hnil
      · simp at hop
      · obtain ⟨rfl, rfl⟩ := QueueOp.processMessage.inj hop
        exact Except.error.inj (eq_of_heq heq)
      · simp at hop
      · simp at hnil
    rw [hexc]
    rfl

/-- **A body that is not JSON is requeued** and handed out again, and a failing database
sends a message to the dead letters. -/
theorem hopeless_requeued :
    (∃ c, ReachableQueue Example.queuePlatform c ∧
      Example.queuePlatform.loads Example.truncated.body = none ∧ Done c 0 ∧
      c.world.broker.settled = [(⟨0, ⟨0, Example.truncated⟩⟩, .requeued)] ∧
      c.world.broker.unacked = [⟨1, ⟨0, Example.truncated⟩⟩] ∧
      ¬Consumed Example.queuePlatform c) ∧
    ∃ c, ReachableQueue Example.queuePlatform c ∧
      c.world.Raises 0 (.exn (.service .databaseError "" [])) ∧ Done c 0 ∧
      c.world.broker.settled = [(⟨0, ⟨0, Example.wellFormed⟩⟩, .deadLettered)] ∧
      ¬Consumed Example.queuePlatform c := by
  constructor
  · obtain ⟨c, hrun, hgot, hdone, hsettled, hopen⟩ := Example.truncated_run
    have hloads : Example.queuePlatform.loads Example.truncated.body = none := by decide
    refine ⟨c, ⟨_, hrun⟩, hloads, hdone, hsettled, hopen, ?_⟩
    intro hc
    have hdead := (hc.hopeless 0 _ hgot (.inl hloads)).1 .requeued (by simp [hsettled])
    simp at hdead
  · obtain ⟨c, hrun, hdone, htrace, hsettled⟩ := Example.raising_run .databaseError
    have hgot : c.world.Got 0 ⟨0, ⟨0, Example.wellFormed⟩⟩ := by
      unfold QueueWorld.Got
      simp [htrace]
    have hraises : c.world.Raises 0 (.exn (.service .databaseError "" [])) :=
      ⟨.int 1, "unknown", by simp [htrace]⟩
    refine ⟨c, ⟨_, hrun⟩, hraises, hdone, hsettled, ?_⟩
    intro hc
    have hagain := (hc.retryable 0 _ hgot ⟨_, hraises, rfl, rfl⟩).1 .deadLettered (by simp [hsettled])
    simp at hagain

end Consumer

end VcsGateway
