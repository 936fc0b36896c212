import VcsGateway.Async.Linear
import VcsGateway.Agreement
import VcsGateway.Journey

/-!
# Webhooks and duplicate checks are atomic

Concurrent calls of `process_webhook` and `check_duplicate` answer like the calls of a set of
keys that are made one after the other: an accepted webhook takes effect with its commit, and
every other answer when it is given.
-/

namespace VcsGateway

open Async

/-- What a call says about a key. -/
inductive Reply where
  | accepted (prHashKey : String)
  | duplicate (prHashKey : String)
  | absent (prHashKey : String)
deriving DecidableEq, Repr

/-- The keys that have been accepted, in their order. -/
def registry : Object (List String) Reply where
  init := []
  answer keys
    | .accepted k => if k ∈ keys then none else some (keys ++ [k])
    | .duplicate k => if k ∈ keys then some keys else none
    | .absent k => if k ∈ keys then none else some keys

variable {P : Platform}

/-- The reply in a result; a webhook is about the key of its own body. -/
inductive Replies (P : Platform) : (k : Task) → Except Exn k.Result → Reply → Prop
  | accepted {req : Request} {prData : PullRequestData} {correlationId eventId outboxId : UUID} :
      parsePayload P req.vcsProvider req.rawPayload = .ok prData →
      Replies P (.webhook req) (.ok (.accepted correlationId eventId outboxId))
        (.accepted (requestKey P req prData))
  | duplicate {req : Request} {prData : PullRequestData} {correlationId : UUID} {k : String}
      {detection : Detection} : parsePayload P req.vcsProvider req.rawPayload = .ok prData →
      k = requestKey P req prData →
      Replies P (.webhook req) (.ok (.duplicate correlationId k detection)) (.duplicate k)
  | known {k : String} {answer : DuplicateAnswer} : answer.isDuplicate = true →
      Replies P (.checkDuplicate k) (.ok answer) (.duplicate k)
  | unknown {k : String} {answer : DuplicateAnswer} : answer.isDuplicate = false →
      Replies P (.checkDuplicate k) (.ok answer) (.absent k)

/-- A call that was cancelled may have stored its webhook. -/
def callers (P : Platform) : Clients Exn World Task.Result (List String) Reply where
  answers := Replies P
  excused _ r := r = .error .cancelledError
  shows w keys := keys = w.db.inbound.map (·.prHashKey)

theorem Replies.unique {k : Task} {r : Except Exn k.Result} {a a' : Reply} (h : Replies P k r a)
    (h' : Replies P k r a') : a = a' := by
  cases h with
  | accepted hparse =>
    cases h' with
    | accepted hparse' => rw [Except.ok.inj (hparse.symm.trans hparse')]
  | duplicate hparse hk =>
    cases h' with
    | duplicate hparse' hk' => rfl
  | known htrue =>
    cases h' with
    | known htrue' => rfl
    | unknown hfalse => simp [htrue] at hfalse
  | unknown hfalse =>
    cases h' with
    | known htrue => simp [htrue] at hfalse
    | unknown hfalse' => rfl

/-! ### The programs -/

section Programs

variable {req : Request} {correlationId : UUID} {k : String} {detection : Detection}
  {steps : List GatewayStep}

/-- The lookup that finds nothing is the last step of the check. -/
theorem checkDuplicate_absent {answer : DuplicateAnswer}
    (h : (checkDuplicate P k).Follows steps (.ok answer)) (hno : answer.isDuplicate = false) :
    ∃ before, steps = before ++ [⟨.selectByPrHashKey k, .ok none⟩] := by
  obtain ⟨s₁, r₁, detection, rfl, hcheck, h⟩ := follows_bind_ok h
  have hnone : detection = none ∨ detection = some .dbConstraint := by
    rcases detection with _ | detection
    · exact .inl rfl
    · cases detection with
      | dbConstraint => exact .inr rfl
      | redisCache =>
        obtain rfl := Except.ok.inj (Prog.follows_ret.mp h).2
        simp at hno
      | dbLookup =>
        obtain ⟨_, _, event, -, -, hret⟩ := follows_bind_ok h
        obtain rfl := Except.ok.inj (Prog.follows_ret.mp hret).2
        simp at hno
  have hr₁ : r₁ = [] := by
    rcases hnone with rfl | rfl <;> exact (Prog.follows_ret.mp h).1
  obtain ⟨s₂, r₂, cached, rfl, -, hcheck⟩ := follows_bind_ok hcheck
  rcases cached with _ | v
  · obtain ⟨s₃, r₃, existing, rfl, hget, hcheck⟩ := follows_bind_ok hcheck
    rcases existing with _ | event
    · obtain ⟨rfl, -⟩ := Prog.follows_ret.mp hcheck
      obtain ⟨s₄, r₄, row, rfl, hselect, hread⟩ := follows_bind_ok hget
      obtain rfl := Prog.follows_perform.mp hselect
      rcases row with _ | row
      · obtain ⟨rfl, -⟩ := Prog.follows_ret.mp hread
        exact ⟨s₂, by simp [hr₁]⟩
      · obtain ⟨event, -, hret⟩ := follows_ofExcept_ok hread
        simpa using (Prog.follows_ret.mp hret).2
    · obtain ⟨_, _, _, -, -, hret⟩ := follows_bind_ok hcheck
      obtain rfl := Except.ok.inj (Prog.follows_ret.mp hret).2
      simp at hnone
  · obtain rfl := Except.ok.inj (Prog.follows_ret.mp hcheck).2
    simp at hnone

end Programs

/-! ### Commits and results -/

section Facts

variable {c : GatewayConfig} {t : Nat} {key : String}

/-- `t` has committed a row with the key. -/
def Entered (c : GatewayConfig) (t : Nat) (key : String) : Prop :=
  ∃ commit ∈ c.world.db.wal, commit.tid = t ∧ commit.Stores key

/-- The keys of `inbound_event`. -/
def GatewayConfig.keys (c : GatewayConfig) : List String := c.world.db.inbound.map (·.prHashKey)

theorem Entered.accepts (h : Reachable P serviceTask c) (hentered : Entered c t key) :
    ∃ σ, Accounted P c.world σ c.taskOf ∧ (∀ k r, Finished c t k r → TaskPost k r (σ t)) ∧
      ∃ row id, (σ t).stage.final = some (row, id) ∧ row ∈ c.world.db.inbound ∧ row.prHashKey = key := by
  obtain ⟨σ, hinv, hconf⟩ := reachable_accounted h
  have hinv : Accounted P c.world σ c.taskOf := hinv
  refine ⟨σ, hinv, fun k r hf => hconf _ _ hf rfl, ?_⟩
  obtain ⟨commit, hc, rfl, row, hrow, hkey⟩ := hentered
  rcases hinv.wal commit hc with hnone | ⟨row', id, haccepts, hfinal⟩
  · simp [hnone.1] at hrow
  · have hin : row ∈ c.world.db.inbound := by
      rw [hinv.sound.inboundWal, List.mem_flatMap]
      exact ⟨commit, hc, hrow⟩
    rw [haccepts.inbound, List.mem_singleton] at hrow
    subst hrow
    exact ⟨row, id, hfinal, hin, hkey⟩

theorem Entered.unique {key' : String} (h : Reachable P serviceTask c) (hentered : Entered c t key)
    (hentered' : Entered c t key') : key = key' := by
  obtain ⟨σ, hinv, -⟩ := reachable_accounted h
  have hinv : Accounted P c.world σ c.taskOf := hinv
  obtain ⟨commit, hc, htid, row, hrow, rfl⟩ := hentered
  obtain ⟨commit', hc', htid', row', hrow', rfl⟩ := hentered'
  rcases hinv.wal commit hc with hnone | ⟨row₁, id, haccepts, hfinal⟩
  · simp [hnone.1] at hrow
  rcases hinv.wal commit' hc' with hnone | ⟨row₂, id', haccepts', hfinal'⟩
  · simp [hnone.1] at hrow'
  rw [haccepts.inbound, List.mem_singleton] at hrow
  rw [haccepts'.inbound, List.mem_singleton] at hrow'
  rw [htid] at hfinal
  rw [htid', hfinal] at hfinal'
  obtain ⟨rfl, -⟩ := Prod.mk.inj (Option.some.inj hfinal')
  rw [hrow, hrow']

/-- What awaits something has not ended. -/
theorem await_ne_ended {k k' : Task} {op : Op} {f : Except Exn op.Ret → Coroutine k.Result}
    {alive : Bool} {r : Except Exn k'.Result} :
    (some ⟨k, .await op f, alive⟩ : Option (Thread Exn Op Op.Ret Task.Result)) ≠
      some ⟨k', .ret r, true⟩ := by
  intro hthread
  simp only [Option.some.injEq, Thread.mk.injEq] at hthread
  obtain ⟨rfl, hprog, -⟩ := hthread
  cases eq_of_heq hprog

/-- The row of a call has the key of its request. -/
theorem key_of_row (hP : P.Digests) (h : Reachable P serviceTask c) {req : Request}
    {prData : PullRequestData} {row : InboundEvent} (hrow : row ∈ c.world.db.inbound)
    (htask : c.taskOf t = some (.webhook req))
    (hminted : (t, ⟨.uuid4, .ok row.correlationId⟩) ∈ c.world.log)
    (hparse : parsePayload P req.vcsProvider req.rawPayload = .ok prData) :
    row.prHashKey = requestKey P req prData := by
  obtain ⟨t', args, now, hmem, hargs⟩ := (reachable_every h).inbound row hrow
  obtain ⟨req', cid, prData', htask', hminted', hadmitted, eid, rawJson, -, rfl⟩ :=
    insert_of_call hP h hmem rfl
  have hfields := NewInboundEvent.row_eq_some P hargs
  obtain rfl : row.correlationId = cid := congrArg NewInboundEvent.correlationId hfields
  obtain rfl : t = t' := congrArg Prod.fst (minted_unique h hminted hminted' rfl rfl)
  obtain rfl : req = req' := by
    have heq := htask.symm.trans htask'
    simpa using heq
  obtain ⟨_, _, _, -, -, hparse', -⟩ := hadmitted
  obtain rfl := Except.ok.inj (hparse.symm.trans hparse')
  exact congrArg NewInboundEvent.prHashKey hfields

theorem Finished.taskOf {k : Task} {r : Except Exn k.Result} (hf : Finished c t k r) :
    c.taskOf t = some k := by
  have hthread : c.threads t = some ⟨k, .ret r, true⟩ := hf
  simp [Config.taskOf, hthread]

/-- An accepted call has committed a row with the key of its request. -/
theorem entered_of_accepted (hP : P.Digests) (h : Reachable P serviceTask c) {req : Request}
    {correlationId eventId outboxId : UUID} {prData : PullRequestData}
    (hf : Finished c t (.webhook req) (.ok (.accepted correlationId eventId outboxId)))
    (hparse : parsePayload P req.vcsProvider req.rawPayload = .ok prData) :
    Entered c t (requestKey P req prData) := by
  obtain ⟨σ, hinv, hconf⟩ := reachable_accounted h
  have hinv : Accounted P c.world σ c.taskOf := hinv
  have hpost : WebhookPost (σ t) (.ok (.accepted correlationId eventId outboxId)) := hconf _ _ hf rfl
  obtain ⟨row, hstage, -, hcid⟩ := hpost
  obtain ⟨commit, hc, htid, haccepts⟩ := hinv.stored t row outboxId hstage
  have hrow := (hinv.rows_of hc haccepts).1
  -- the call has drawn the correlation id of the row
  have hfollows : (processWebhook P req).Follows (stepsOf c t) _ := Finished.follows h hf
  obtain ⟨prData', later, hparse', hlater, cid, hstep⟩ := processWebhook_accepted hfollows
  obtain ⟨rfl, timestamp, rawJson, -, hmem⟩ := persistStep_accepted hstep
  obtain ⟨req', cid', prData'', htask, hminted, -, _, _, _, -, hargs⟩ :=
    insert_of_call hP h (mem_stepsOf.mp (hlater hmem)) rfl
  obtain rfl : cid = cid' := congrArg NewOutboxEvent.correlationId hargs
  rw [← hcid] at hminted
  have hkey := key_of_row hP h hrow hf.taskOf hminted hparse
  exact ⟨commit, hc, htid, row, by simp [haccepts.inbound], hkey⟩

/-- A call that has committed a row says so, unless it was cancelled. -/
theorem Entered.replies (hP : P.Digests) (h : Reachable P serviceTask c) (hentered : Entered c t key)
    {k : Task} {r : Except Exn k.Result} (hf : Finished c t k r) :
    Replies P k r (.accepted key) ∨ r = .error .cancelledError := by
  obtain ⟨σ, hinv, hpost, row, id, hfinal, -, -⟩ := hentered.accepts h
  obtain ⟨req, htask⟩ := hinv.webhook_of_final hfinal
  obtain rfl : k = .webhook req := Option.some.inj (hf.taskOf.symm.trans htask)
  have hpost : WebhookPost (σ t) r := hpost _ _ hf
  rcases hpost.result hfinal with rfl | rfl
  · left
    have hfollows : (processWebhook P req).Follows (stepsOf c t) _ := Finished.follows h hf
    obtain ⟨prData, -, hparse, -⟩ := processWebhook_accepted hfollows
    rw [hentered.unique h (entered_of_accepted hP h hf hparse)]
    exact .accepted hparse
  · exact .inr rfl

/-- What has been committed before is known to be stored. -/
theorem stored_of_duplicate (h : Reachable P serviceTask c) {k : Task} {r : Except Exn k.Result}
    (hf : Finished c t k r) (ha : Replies P k r (.duplicate key)) : key ∈ c.keys := by
  obtain ⟨σ, hinv, hconf⟩ := reachable_accounted h
  have hinv : Accounted P c.world σ c.taskOf := hinv
  have hpost : TaskPost k r (σ t) := hconf _ _ hf rfl
  have hknown : key ∈ (σ t).known := by
    cases ha with
    | duplicate hparse hk => exact hpost.2
    | known htrue =>
      have hpost : DuplicatePost key (σ t) (.ok _) := hpost
      exact hpost.2.1 htrue
  obtain ⟨commit, hc, -, row, hrow, rfl⟩ := hinv.known t key hknown
  apply List.mem_map_of_mem
  rw [hinv.sound.inboundWal, List.mem_flatMap]
  exact ⟨commit, hc, hrow⟩

end Facts

/-! ### The order of the calls -/

/-- `order` tells what the calls of `c` have come to. -/
structure Registered (P : Platform) (c : GatewayConfig) (order : List (Nat × Reply)) : Prop where
  reachable : Reachable P serviceTask c
  legal : registry.run [] (order.map Prod.snd) = some c.keys
  once : (order.map Prod.fst).Nodup
  entered : ∀ t key, (t, .accepted key) ∈ order ↔ Entered c t key
  given : ∀ t a, (t, a) ∈ order →
    (∃ key, a = .accepted key) ∨ ∃ k r, Finished c t k r ∧ Replies P k r a
  complete : ∀ t k r a, Finished c t k r → Replies P k r a → (t, a) ∈ order

namespace Registered

variable {c c' : GatewayConfig} {order : List (Nat × Reply)} {t : Nat} {a : Reply}

theorem explains (hP : P.Digests) (h : Registered P c order) :
    registry.Explains (callers P) c order where
  legal := ⟨c.keys, h.legal, rfl⟩
  once := h.once
  started := by
    rintro ⟨t, a⟩ hmem hnone
    rcases h.given t a hmem with ⟨key, rfl⟩ | ⟨k, r, hf, -⟩
    · obtain ⟨σ, hinv, -, row, id, hfinal, -⟩ := ((h.entered t key).mp hmem).accepts h.reachable
      obtain ⟨req, htask⟩ := hinv.webhook_of_final hfinal
      simp [Config.taskOf, hnone] at htask
    · have hthread : c.threads t = some ⟨k, .ret r, true⟩ := hf
      simp [hnone] at hthread
  complete := h.complete
  sound := by
    rintro ⟨t, a⟩ hmem k r hf
    rcases h.given t a hmem with ⟨key, rfl⟩ | ⟨k', r', hf', ha⟩
    · exact ((h.entered t key).mp hmem).replies hP h.reachable hf
    · have hthread : c.threads t = some ⟨k, .ret r, true⟩ := hf
      have hthread' : c.threads t = some ⟨k', .ret r', true⟩ := hf'
      rw [hthread] at hthread'
      simp only [Option.some.injEq, Thread.mk.injEq] at hthread'
      obtain ⟨rfl, hret, -⟩ := hthread'
      obtain rfl := Prog.ret.inj (eq_of_heq hret)
      exact .inl ha

/-- What changes neither the table nor a result adds nothing to the order. -/
theorem quiet (h : Registered P c order) (hc' : Reachable P serviceTask c')
    (hinbound : c'.world.db.inbound = c.world.db.inbound) (hwal : c'.world.db.wal = c.world.db.wal)
    (hfin : ∀ t k r, Finished c' t k r ↔ Finished c t k r) : Registered P c' order where
  reachable := hc'
  legal := by
    unfold GatewayConfig.keys
    rw [hinbound]
    exact h.legal
  once := h.once
  entered t key := by
    unfold Entered
    rw [hwal]
    exact h.entered t key
  given t a hmem := by
    rcases h.given t a hmem with haccepted | ⟨k, r, hf, ha⟩
    · exact .inl haccepted
    · exact .inr ⟨k, r, (hfin t k r).mpr hf, ha⟩
  complete t k r a hf ha := h.complete t k r a ((hfin t k r).mp hf) ha

/-- `t` has taken a step, and has not ended before. -/
structure Advances (t : Nat) (c c' : GatewayConfig) : Prop where
  others : ∀ t' ≠ t, c'.threads t' = c.threads t'
  running : ∀ k r, ¬Finished c t k r
  entered : ∀ t' ≠ t, ∀ key, Entered c' t' key ↔ Entered c t' key

/-- A step with no reply. -/
theorem keep (h : Registered P c order) (hc' : Reachable P serviceTask c') (hadv : Advances t c c')
    (hkeys : c'.keys = c.keys) (hentered : ∀ key, Entered c' t key ↔ Entered c t key)
    (hold : ∀ k r a, Finished c' t k r → Replies P k r a → (t, a) ∈ order) :
    Registered P c' order where
  reachable := hc'
  legal := by rw [hkeys]; exact h.legal
  once := h.once
  entered t' key := by
    rw [h.entered]
    by_cases heq : t' = t
    · rw [heq, hentered]
    · rw [hadv.entered t' heq]
  given t' a hmem := by
    rcases h.given t' a hmem with haccepted | ⟨k, r, hf, ha⟩
    · exact .inl haccepted
    · have hne : t' ≠ t := by
        rintro rfl
        exact hadv.running k r hf
      exact .inr ⟨k, r, (hadv.others t' hne).trans hf, ha⟩
  complete t' k r a hf ha := by
    by_cases heq : t' = t
    · subst heq
      exact hold k r a hf ha
    · exact h.complete t' k r a ((hadv.others t' heq).symm.trans hf) ha

/-- A step in which the call of `t` takes effect. -/
theorem add (h : Registered P c order) (hc' : Reachable P serviceTask c') (hadv : Advances t c c')
    (hlegal : registry.answer c.keys a = some c'.keys) (hnot : ∀ key, ¬Entered c t key)
    (hentered : ∀ key, Entered c' t key ↔ a = .accepted key)
    (hgiven : (∃ key, a = .accepted key) ∨ ∃ k r, Finished c' t k r ∧ Replies P k r a)
    (honly : ∀ k r a', Finished c' t k r → Replies P k r a' → a' = a) :
    Registered P c' (order ++ [(t, a)]) := by
  have hfresh : ∀ a', (t, a') ∉ order := by
    intro a' hmem
    rcases h.given t a' hmem with ⟨key, rfl⟩ | ⟨k, r, hf, -⟩
    · exact hnot key ((h.entered t key).mp hmem)
    · exact hadv.running k r hf
  constructor
  · exact hc'
  · rw [List.map_append, Object.run_append, h.legal]
    simp [Object.run, hlegal]
  · rw [List.map_append, List.nodup_append]
    refine ⟨h.once, by simp, ?_⟩
    intro t₁ ht₁ t₂ ht₂ heq
    obtain ⟨⟨t₁', a'⟩, hmem, rfl⟩ := List.mem_map.mp ht₁
    obtain rfl : t₂ = t := by simpa using ht₂
    obtain rfl : t₁' = t₂ := heq
    exact hfresh a' hmem
  · intro t' key
    rw [List.mem_append, List.mem_singleton, Prod.mk.injEq]
    by_cases heq : t' = t
    · subst heq
      rw [hentered]
      constructor
      · rintro (hmem | ⟨-, rfl⟩)
        · exact absurd hmem (hfresh _)
        · rfl
      · intro haccepted
        exact .inr ⟨rfl, haccepted.symm⟩
    · rw [hadv.entered t' heq, ← h.entered]
      simp [heq]
  · intro t' a' hmem
    rcases List.mem_append.mp hmem with hmem | hmem
    · rcases h.given t' a' hmem with haccepted | ⟨k, r, hf, ha⟩
      · exact .inl haccepted
      · have hne : t' ≠ t := by
          rintro rfl
          exact hadv.running k r hf
        exact .inr ⟨k, r, (hadv.others t' hne).trans hf, ha⟩
    · obtain ⟨rfl, rfl⟩ : t' = t ∧ a' = a := by simpa using hmem
      exact hgiven
  · intro t' k r a' hf ha
    by_cases heq : t' = t
    · subst heq
      rw [honly k r a' hf ha]
      simp
    · exact List.mem_append_left _
        (h.complete t' k r a' ((hadv.others t' heq).symm.trans hf) ha)

/-- A call that says that a key is absent has just looked it up. -/
theorem absent_of_last {op : Op} {r : Except Exn op.Ret} {ch : Choice} {w : World} {key : String}
    {k : Task} {r' : Except Exn k.Result} (hc' : Reachable P serviceTask c')
    (hlog : c'.world.log = c.world.log ++ [(t, ⟨op, r⟩)])
    (he : execOp P t ch c.world op = some (r, w)) (hf : Finished c' t k r')
    (ha : Replies P k r' (.absent key)) : key ∉ c.keys := by
  cases ha with
  | unknown hno =>
    have hfollows : (checkDuplicate P key).Follows (stepsOf c' t) _ := Finished.follows hc' hf
    obtain ⟨before, hsteps⟩ := checkDuplicate_absent hfollows hno
    have hlast : stepsOf c' t = stepsOf c t ++ [⟨op, r⟩] := by
      unfold stepsOf
      rw [hlog, historyOf_append_self]
    rw [hsteps] at hlast
    obtain ⟨-, hstep⟩ := List.append_inj' hlast rfl
    simp only [List.cons.injEq, Step.mk.injEq, and_true] at hstep
    obtain ⟨rfl, hr⟩ := hstep
    obtain rfl := eq_of_heq hr
    intro hmem
    obtain ⟨row, hrow, hkey⟩ := List.mem_map.mp hmem
    cases ch with
    | ok =>
      simp only [execOp, awaited, Option.some.injEq, Prod.mk.injEq, Except.ok.injEq] at he
      have hnone := List.find?_eq_none.mp he.1 row hrow
      simp [hkey] at hnone
    | _ => simp [execOp, awaited] at he

/-- What `t` enters in a step, and what it says at its end. -/
theorem settle (hP : P.Digests) (h : Registered P c order) (hc' : Reachable P serviceTask c')
    (hadv : Advances t c c') (hkeys : c'.keys = c.keys)
    (hentered : ∀ key, Entered c' t key ↔ Entered c t key)
    (habsent : ∀ k r key, Finished c' t k r → Replies P k r (.absent key) → key ∉ c.keys) :
    ∃ new, Registered P c' (order ++ new) := by
  by_cases hnew : ∃ k r a, Finished c' t k r ∧ Replies P k r a ∧ (t, a) ∉ order
  · obtain ⟨k, r, a, hf, ha, hnew⟩ := hnew
    have hother : ∀ key, a ≠ .accepted key := by
      rintro key rfl
      apply hnew
      rw [h.entered, ← hentered]
      cases ha with
      | accepted hparse => exact entered_of_accepted hP hc' hf hparse
    have hnot : ∀ key, ¬Entered c' t key := by
      intro key hkey
      rcases hkey.replies hP hc' hf with haccepted | rfl
      · exact hother key (ha.unique haccepted)
      · cases ha
    have hlegal : registry.answer c.keys a = some c'.keys := by
      rw [hkeys]
      cases a with
      | accepted key => exact absurd rfl (hother key)
      | duplicate key =>
        have hmem := stored_of_duplicate hc' hf ha
        rw [hkeys] at hmem
        exact if_pos hmem
      | absent key => exact if_neg (habsent k r key hf ha)
    refine ⟨[(t, a)], h.add hc' hadv hlegal (fun key hkey => hnot key ((hentered key).mpr hkey)) ?_
      (.inr ⟨k, r, hf, ha⟩) ?_⟩
    · intro key
      constructor
      · exact fun hkey => absurd hkey (hnot key)
      · exact fun haccepted => absurd haccepted (hother key)
    · intro k' r' a' hf' ha'
      have hthread : c'.threads t = some ⟨k, .ret r, true⟩ := hf
      have hthread' : c'.threads t = some ⟨k', .ret r', true⟩ := hf'
      rw [hthread] at hthread'
      simp only [Option.some.injEq, Thread.mk.injEq] at hthread'
      obtain ⟨rfl, hret, -⟩ := hthread'
      obtain rfl := Prog.ret.inj (eq_of_heq hret)
      exact ha'.unique ha
  · refine ⟨[], ?_⟩
    rw [List.append_nil]
    apply h.keep hc' hadv hkeys hentered
    intro k r a hf ha
    by_contra hmem
    exact hnew ⟨k, r, a, hf, ha, hmem⟩

/-- The tables hold what the log says. -/
theorem keys_eq (hc : Reachable P serviceTask c) :
    c.keys = (c.world.db.wal.flatMap (·.changes.inbound)).map (·.prHashKey) := by
  obtain ⟨σ, hinv, -⟩ := reachable_accounted hc
  have hinv : Accounted P c.world σ c.taskOf := hinv
  unfold GatewayConfig.keys
  rw [hinv.sound.inboundWal]

/-- `t` commits. -/
theorem commit (hP : P.Digests) (h : Registered P c order) (hc' : Reachable P serviceTask c')
    (hadv : Advances t c c') {ch : Changes} (hwal : c'.world.db.wal = c.world.db.wal ++ [⟨t, ch⟩])
    (habsent : ∀ k r key, Finished c' t k r → Replies P k r (.absent key) → key ∉ c.keys) :
    ∃ new, Registered P c' (order ++ new) := by
  have hkeys : c'.keys = c.keys ++ ch.inbound.map (·.prHashKey) := by
    rw [keys_eq hc', keys_eq h.reachable, hwal]
    simp
  have hsplit : ∀ key, Entered c' t key ↔ Entered c t key ∨ Commit.Stores ⟨t, ch⟩ key := by
    intro key
    unfold Entered
    rw [hwal]
    constructor
    · rintro ⟨commit, hmem, htid, hstores⟩
      rcases List.mem_append.mp hmem with hmem | hmem
      · exact .inl ⟨commit, hmem, htid, hstores⟩
      · exact .inr (List.mem_singleton.mp hmem ▸ hstores)
    · rintro (⟨commit, hmem, htid, hstores⟩ | hstores)
      · exact ⟨commit, List.mem_append_left _ hmem, htid, hstores⟩
      · exact ⟨⟨t, ch⟩, by simp, rfl, hstores⟩
  obtain ⟨σ, hinv, -⟩ := reachable_accounted hc'
  have hinv : Accounted P c'.world σ c'.taskOf := hinv
  rcases hinv.wal ⟨t, ch⟩ (by simp [hwal]) with hnone | ⟨row, id, haccepts, -⟩
  · have hempty : ch.inbound = [] := hnone.1
    have hstores : ∀ key, ¬Commit.Stores ⟨t, ch⟩ key := by
      rintro key ⟨row, hrow, -⟩
      simp [hempty] at hrow
    apply h.settle hP hc' hadv
    · rw [hkeys, hempty]
      simp
    · intro key
      rw [hsplit]
      simp [hstores]
    · exact habsent
  · have hinbound : ch.inbound = [row] := haccepts.inbound
    have hstores : ∀ key, Commit.Stores ⟨t, ch⟩ key ↔ row.prHashKey = key := by
      intro key
      unfold Commit.Stores
      simp [hinbound]
    have hnot : ∀ key, ¬Entered c t key := by
      rintro key ⟨commit, hmem, htid, row', hrow', -⟩
      have honce := hinv.once
      rw [hwal, List.pairwise_append] at honce
      rcases honce.2.2 commit hmem ⟨t, ch⟩ (by simp) htid with hnone | hnone
      · simp [hnone.1] at hrow'
      · have hempty : ch.inbound = [] := hnone.1
        simp [hempty] at hinbound
    have hrow : Entered c' t row.prHashKey := (hsplit _).mpr (.inr ((hstores _).mpr rfl))
    have hlegal : registry.answer c.keys (.accepted row.prHashKey) = some c'.keys := by
      have hnodup := hinv.sound.inboundNodup
      change c'.keys.Nodup at hnodup
      rw [hkeys, hinbound, List.nodup_append] at hnodup
      have hfresh : row.prHashKey ∉ c.keys := fun hmem =>
        hnodup.2.2 _ hmem row.prHashKey (by simp) rfl
      rw [hkeys, hinbound]
      exact if_neg hfresh
    refine ⟨[(t, .accepted row.prHashKey)], h.add hc' hadv hlegal hnot ?_ (.inl ⟨_, rfl⟩) ?_⟩
    · intro key
      rw [hsplit, hstores]
      simp [hnot]
    · intro k r a hf ha
      rcases hrow.replies hP hc' hf with haccepted | rfl
      · exact ha.unique haccepted
      · cases ha

/-- What each label adds to the order. -/
theorem step (hP : P.Digests) (h : Registered P c order) {l : GatewayLabel}
    (hl : starts serviceTask l) (hs : (gateway P).step c l = some c') :
    ∃ new, Registered P c' (order ++ new) := by
  have hc' : Reachable P serviceTask c' := by
    obtain ⟨tenants, whitelist, ls, hls, hrun⟩ := h.reachable
    refine ⟨tenants, whitelist, ls ++ [l], ?_, Machine.run_snoc_eq_some.mpr ⟨c, hrun, hs⟩⟩
    intro l' hl'
    rcases List.mem_append.mp hl' with hl' | hl'
    · exact hls l' hl'
    · exact List.mem_singleton.mp hl' ▸ hl
  cases l with
  | spawn t k =>
    obtain ⟨hnone, rfl⟩ := Machine.step_spawn hs
    refine ⟨[], ?_⟩
    rw [List.append_nil]
    refine h.quiet hc' rfl rfl fun t' k' r' => ?_
    change Function.update c.threads t (some ⟨k, k.prog P, true⟩) t' = some ⟨k', .ret r', true⟩ ↔
      c.threads t' = some ⟨k', .ret r', true⟩
    by_cases heq : t' = t
    · subst heq
      rw [Function.update_self, hnone]
      constructor
      · intro hthread
        simp only [Option.some.injEq, Thread.mk.injEq] at hthread
        obtain ⟨rfl, hprog, -⟩ := hthread
        have hprog : k.prog P = .ret r' := eq_of_heq hprog
        cases k <;> cases hprog
      · simp
    · rw [Function.update_of_ne heq]
  | env e =>
    obtain rfl : { c with world := envStep e c.world } = c' := Option.some.inj hs
    refine ⟨[], ?_⟩
    rw [List.append_nil]
    refine h.quiet hc' ?_ ?_ fun _ _ _ => Iff.rfl
    · cases e <;> rfl
    · cases e <;> rfl
  | kill t =>
    obtain ⟨k, op, f, ht, rfl⟩ := Machine.step_kill hs
    refine ⟨[], ?_⟩
    rw [List.append_nil]
    refine h.quiet hc' ?_ (vanish_wal ..) fun t' k' r' => ?_
    · change (vanish t c.world).db.inbound = c.world.db.inbound
      unfold vanish
      cases c.world.db.sessions t <;> rfl
    · change Function.update c.threads t _ t' = some ⟨k', .ret r', true⟩ ↔
        c.threads t' = some ⟨k', .ret r', true⟩
      by_cases heq : t' = t
      · subst heq
        rw [Function.update_self]
        rw [ht]
        constructor
        · exact fun hf => absurd hf await_ne_ended
        · exact fun hf => absurd hf await_ne_ended
      · rw [Function.update_of_ne heq]
  | step t choice =>
    obtain ⟨k, op, f, r, w, ht, he, rfl⟩ := Machine.step_step hs
    obtain ⟨w₁, h₁, rfl⟩ := exec_eq_some he
    have hlog : (w₁.record ⟨t, op, r⟩).log = c.world.log ++ [(t, ⟨op, r⟩)] := by
      simp [World.log, World.record, (execOp_frame h₁).trace]
    have habsent : ∀ k' r' key, Finished ⟨w₁.record ⟨t, op, r⟩,
        Function.update c.threads t (some ⟨k, f r, true⟩)⟩ t k' r' → Replies P k' r' (.absent key) →
        key ∉ c.keys :=
      fun _ _ _ hf ha => absent_of_last hc' hlog h₁ hf ha
    have hrunning : ∀ k' r', ¬Finished c t k' r' :=
      fun _ _ hf => await_ne_ended (ht.symm.trans hf)
    have hothers : ∀ t' ≠ t, Function.update c.threads t (some ⟨k, f r, true⟩) t' = c.threads t' :=
      fun t' hne => Function.update_of_ne hne ..
    rcases (execOp_moves h₁).wal_commit with hwal | ⟨tx, -, -, hwal⟩
    · have hwal' : (w₁.record ⟨t, op, r⟩).db.wal = c.world.db.wal := hwal
      have hsame : ∀ t' key, Entered ⟨w₁.record ⟨t, op, r⟩,
          Function.update c.threads t (some ⟨k, f r, true⟩)⟩ t' key ↔ Entered c t' key := by
        intro t' key
        simp only [Entered, hwal']
      refine h.settle hP hc' ⟨hothers, hrunning, fun t' _ => hsame t'⟩ ?_ (hsame t) habsent
      rw [keys_eq hc', keys_eq h.reachable, hwal']
    · refine h.commit hP hc' ⟨hothers, hrunning, fun t' hne key => ?_⟩ hwal habsent
      unfold Entered
      have hwal' : (w₁.record ⟨t, op, r⟩).db.wal = c.world.db.wal ++ [⟨t, tx.changes⟩] := hwal
      simp only [hwal', List.mem_append, List.mem_singleton]
      constructor
      · rintro ⟨commit, hmem | rfl, htid, hstores⟩
        · exact ⟨commit, hmem, htid, hstores⟩
        · exact absurd htid.symm hne
      · rintro ⟨commit, hmem, htid, hstores⟩
        exact ⟨commit, .inl hmem, htid, hstores⟩

end Registered

/-- **Webhooks and duplicate checks are linearizable.**  In every run of the service, its calls of
    `process_webhook` and `check_duplicate` can be put in one order that keeps to real time and in
    which they answer, one after the other, like a set of keys; at every moment of the run a first
    part of the order accounts for the answers so far and for the rows of `inbound_event`. -/
theorem calls_linearize (hP : P.Digests) {tenants : UUID → Option Tenant}
    {whitelist : List VcsEventWhitelist} {ls : List GatewayLabel} {c : GatewayConfig}
    (hls : ∀ l ∈ ls, starts serviceTask l)
    (h : (gateway P).run (Config.start (World.initial tenants whitelist)) ls = some c) :
    ∃ order, (gateway P).Linearizes registry (callers P)
      (Config.start (World.initial tenants whitelist)) ls order := by
  have hstart : Registered P (Config.start (World.initial tenants whitelist)) [] := by
    refine ⟨reachable_start P serviceTask tenants whitelist, rfl, by simp, ?_, by simp, ?_⟩
    · intro t key
      simp [Entered, Config.start, World.initial]
    · intro t k r a hf
      have hthread : (none : Option (Thread Exn Op Op.Ret Task.Result)) = some ⟨k, .ret r, true⟩ := hf
      simp at hthread
  obtain ⟨order, -, hlinearizes⟩ := Machine.linearizes (Registered P) (starts serviceTask)
    (fun hreg => hreg.explains hP) (fun hreg hl hs => hreg.step hP hl hs) hstart hls h
  exact ⟨order, hlinearizes⟩

namespace Example

set_option maxRecDepth 4000 in
theorem race_ends : ∃ c, (gateway (storing first)).run initial race = some c ∧
    Finished c 0 (.webhook (delivery first)) (.ok (.accepted ⟨9⟩ ⟨20⟩ ⟨21⟩)) ∧
    Finished c 1 (.webhook (delivery first)) (.ok (.duplicate ⟨30⟩ firstKey .dbConstraint)) :=
  ⟨_, run_insertEvent rfl rfl rfl rfl (by decide) (storing_row rfl rfl rfl rfl) rfl, rfl, rfl⟩

end Example

/-- Of two deliveries that race, one is accepted and the other one is a duplicate. -/
theorem calls_linearize_race : ∃ order,
    (gateway (Example.storing Example.first)).Linearizes registry
      (callers (Example.storing Example.first)) Example.initial Example.race order ∧
    (0, .accepted Example.firstKey) ∈ order ∧ (1, .duplicate Example.firstKey) ∈ order := by
  obtain ⟨c, hrun, hfirst, hsecond⟩ := Example.race_ends
  have hls : ∀ l ∈ Example.race, starts serviceTask l := by
    intro l hl
    cases l with
    | spawn t k =>
      have hk : k = .webhook (Example.delivery Example.first) := by
        simp [Example.race, Example.solo] at hl
        rcases hl with ⟨-, rfl⟩ | ⟨-, rfl⟩ <;> rfl
      rw [hk]
      trivial
    | _ => trivial
  obtain ⟨order, hlinearizes⟩ := calls_linearize (Example.storing_digests _) hls hrun
  obtain ⟨order₁, order₂, rfl, hexplains⟩ := hlinearizes.moments _ [] c (List.append_nil _).symm hrun
  have hdata : ∃ data, parsePayload (Example.storing Example.first)
      (Example.delivery Example.first).vcsProvider (Example.delivery Example.first).rawPayload = .ok data ∧
      requestKey (Example.storing Example.first) (Example.delivery Example.first) data =
        Example.firstKey := ⟨_, rfl, rfl⟩
  obtain ⟨data, hdata, hkey⟩ := hdata
  have haccepted := hexplains.complete 0 _ _ _ hfirst (.accepted hdata)
  have hduplicate := hexplains.complete 1 _ _ _ hsecond (.duplicate hdata hkey.symm)
  rw [hkey] at haccepted
  exact ⟨_, hlinearizes, List.mem_append_left _ haccepted, List.mem_append_left _ hduplicate⟩

end VcsGateway
