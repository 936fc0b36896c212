import VcsGateway.Drain

/-!
# Connections are given back

An open transaction belongs to a coroutine that is still running, however the others failed,
were cancelled or vanished; and from every reachable state the rows can still be delivered.
-/

namespace VcsGateway

open Async

variable {P : Platform}

/-! ### One coroutine -/

/-- The operations that neither open nor end a transaction. -/
def Op.Inner : Op → Prop
  | .begin | .commit | .rollback => False
  | _ => True

/-- Whether the coroutine is in a transaction. -/
@[reducible] def bracketing : Protocol Exn Op Op.Ret where
  State := Bool
  allows _ _ := True
  next opened op r :=
    match op, r with
    | .begin, .ok _ => true
    | .commit, _ | .rollback, _ => false
    | _, _ => opened
  admits _ _ := True

theorem Op.Inner.next {op : Op} (h : op.Inner) (opened : Bool) (r : Except Exn op.Ret) :
    bracketing.next opened op r = opened := by
  cases op with
  | begin | commit | rollback => exact h.elim
  | _ => rfl

theorem inner_rests {α : Type} {p : Coroutine α} (h : p.Only Op.Inner) (opened : Bool) :
    Rests bracketing p opened :=
  Protocol.Conforms.idle (h.mono fun _ hop => ⟨trivial, hop.next opened⟩)

/-- The context manager ends the transaction on every way out. -/
theorem transaction_rests {α : Type} {body : Coroutine α} (h : body.Only Op.Inner) :
    Rests bracketing (transaction body) false := by
  refine ⟨trivial, fun r _ => ?_⟩
  cases r with
  | error e => exact rfl
  | ok u =>
    apply Protocol.Conforms.andThen (inner_rests h true)
    rintro r s' rfl
    cases r with
    | error e =>
      refine ⟨trivial, fun r _ => ?_⟩
      cases r <;> exact rfl
    | ok a =>
      refine ⟨trivial, fun r _ => ?_⟩
      cases r <;> exact rfl

theorem Op.Idle.inner {op : Op} (h : op.Idle) : op.Inner := by
  cases h with
  | journey h => cases h <;> trivial
  | _ => trivial

theorem Op.Cancel.inner {prHashKey : String} {prVersion : Int} {op : Op}
    (h : op.Cancel prHashKey prVersion) : op.Inner := by
  cases h <;> trivial

theorem scheduleEvent_inner (eventType : String) (correlationId : UUID) (prHashKey : String)
    (prVersion : Int) (payload headers : Json) (debounceSeconds : Nat) :
    (scheduleEvent P eventType correlationId prHashKey prVersion payload headers debounceSeconds).Only
      Op.Inner := by
  apply Prog.Only.bind
  · exact (cancelPrevious_only _ _ _).mono fun _ h => h.inner
  · intro _
    exact Prog.only_perform.mpr trivial

/-- Whatever happens, a task ends outside any transaction. -/
theorem task_rests (k : Task) : Rests bracketing (k.prog P) false := by
  cases k with
  | webhook req =>
    apply processWebhook_rests
    · intro op hop
      exact ⟨trivial, hop.inner.next false⟩
    · intro correlationId eventId timestamp prData rawJson
      apply transaction_rests
      apply Prog.Only.bind
      · exact Prog.Only.bind (Prog.only_perform.mpr trivial) fun _ => trivial
      · intro _
        exact scheduleEvent_inner _ _ _ _ _ _ _
  | checkDuplicate key => exact inner_rests ((checkDuplicate_idle P key).mono fun _ h => h.inner) false
  | checkStale key v => exact inner_rests ((checkStale_idle P key v).mono fun _ h => h.inner) false
  | scheduleEvent args => exact transaction_rests (scheduleEvent_inner _ _ _ _ _ _ _)
  | publisher self =>
    apply Rests.andThen
    · apply transaction_rests
      apply (batchBody_only P self).mono
      intro op hop
      cases hop <;> trivial
    · intro r
      apply inner_rests
      apply (afterBatch_only self r).mono
      intro op hop
      cases hop <;> trivial

/-! ### All of them -/

/-- The states know the open transactions. -/
structure Bracketed (w : World) (σ : Nat → Bool) (τ : Nat → Option Task) : Prop where
  opened : ∀ t tx, w.db.sessions t = some tx → σ t = true
  idle : ∀ t, τ t = none → σ t = false

theorem exec_bracketing {w w' : World} {t : Nat} {op : Op} {c : Choice} {r : Except Exn op.Ret}
    {opened : Bool} (h : ∀ tx, w.db.sessions t = some tx → opened = true)
    (he : exec P t op c w = some (r, w')) {tx : Tx} (htx : w'.db.sessions t = some tx) :
    bracketing.next opened op r = true := by
  obtain ⟨w₁, h₁, rfl⟩ := exec_eq_some he
  have htx : w₁.db.sessions t = some tx := htx
  cases op with
  | begin =>
    obtain ⟨db', hdb, rfl⟩ := onDb_eq_some h₁
    obtain ⟨hnone, ⟨e, rfl, -, rfl⟩ | ⟨rfl, -⟩⟩ := Database.execBegin_eq_some hdb
    · have htx : w.db.sessions t = some tx := htx
      simp [hnone] at htx
    · rfl
  | commit =>
    obtain ⟨db', hdb, rfl⟩ := onDb_eq_some h₁
    obtain ⟨tx', -, hend⟩ := Database.execCommit_eq_some hdb
    have hnone : db'.sessions t = none := by
      rcases hend with ⟨-, rfl⟩ | ⟨-, rfl⟩ | ⟨e, -, -, rfl⟩
      · exact Database.settle_sessions_self ..
      · exact Database.settle_sessions_self ..
      · exact Database.close_sessions_self ..
    have htx : db'.sessions t = some tx := htx
    simp [hnone] at htx
  | rollback =>
    obtain ⟨db', hdb, rfl⟩ := onDb_eq_some h₁
    obtain ⟨tx', -, rfl, -⟩ := Database.execRollback_eq_some hdb
    have hnone : (w.db.discard t).sessions t = none := Database.close_sessions_self ..
    have htx : (w.db.discard t).sessions t = some tx := htx
    simp [hnone] at htx
  | _ =>
    rcases (execOp_moves h₁).session_some htx with hop | ⟨tx', htx'⟩
    · simp at hop
    · exact h tx' htx'

/-- The discipline behind the results on connections. -/
def returning (P : Platform) : (gateway P).Discipline fun _ => True where
  P := bracketing
  Inv := Bracketed
  idle := false
  start _ := false
  onKill _ := false
  post _ _ opened := opened = false
  conforms _ k _ := task_rests k
  spawn {w σ τ t k} _ h hτ := by
    constructor
    · intro t' tx htx
      have hopened := h.opened t' tx htx
      by_cases heq : t' = t
      · rw [heq, h.idle t hτ] at hopened
        simp at hopened
      · rw [Function.update_of_ne heq]
        exact hopened
    · intro t' ht'
      by_cases heq : t' = t
      · rw [heq, Function.update_self]
      · rw [Function.update_of_ne heq] at ht' ⊢
        exact h.idle t' ht'
  exec {w σ τ t k op ch r w'} _ h hτ _ he := by
    refine ⟨trivial, ?_, ?_⟩
    · intro t' tx htx
      by_cases heq : t' = t
      · rw [heq] at htx ⊢
        rw [Function.update_self]
        exact exec_bracketing (h.opened t) he htx
      · obtain ⟨w₁, h₁, rfl⟩ := exec_eq_some he
        rw [Function.update_of_ne heq]
        exact h.opened t' tx (((execOp_moves h₁).sessions_of_ne heq).symm.trans htx)
    · intro t' ht'
      have hne : t' ≠ t := by
        rintro rfl
        simp [hτ] at ht'
      rw [Function.update_of_ne hne]
      exact h.idle t' ht'
  env {w σ τ e} _ h := by
    have hsessions : (envStep e w).db.sessions = w.db.sessions := by cases e <;> rfl
    refine ⟨fun t tx htx => h.opened t tx ?_, h.idle⟩
    rw [← hsessions]
    exact htx
  kill {w σ τ t k} _ h hτ := by
    constructor
    · intro t' tx htx
      by_cases heq : t' = t
      · have htx : (vanish t w).db.sessions t' = some tx := htx
        rw [heq] at htx
        simp at htx
      · rw [Function.update_of_ne heq]
        exact h.opened t' tx ((vanish_sessions_of_ne t w heq).symm.trans htx)
    · intro t' ht'
      by_cases heq : t' = t
      · rw [heq, Function.update_self]
      · rw [Function.update_of_ne heq]
        exact h.idle t' ht'

/-- The coroutine has not vanished. -/
def AliveIfOpen (c : GatewayConfig) : Prop :=
  ∀ t tx, c.world.db.sessions t = some tx → ∃ th, c.threads t = some th ∧ th.alive = true

theorem aliveIfOpen_step {c c' : GatewayConfig} {l : GatewayLabel} (h : AliveIfOpen c)
    (hs : (gateway P).step c l = some c') : AliveIfOpen c' := by
  intro t' tx htx
  cases l with
  | spawn t k =>
    obtain ⟨hnone, rfl⟩ := Machine.step_spawn hs
    obtain ⟨th, hth, halive⟩ := h t' tx htx
    have hne : t' ≠ t := by
      rintro rfl
      simp [hnone] at hth
    exact ⟨th, (Function.update_of_ne hne ..).trans hth, halive⟩
  | step t ch =>
    obtain ⟨k, op, f, r, w, hthread, he, rfl⟩ := Machine.step_step hs
    by_cases heq : t' = t
    · obtain rfl := heq
      exact ⟨_, Function.update_self .., rfl⟩
    · obtain ⟨w₁, h₁, rfl⟩ := exec_eq_some he
      obtain ⟨th, hth, halive⟩ := h t' tx (((execOp_moves h₁).sessions_of_ne heq).symm.trans htx)
      exact ⟨th, (Function.update_of_ne heq ..).trans hth, halive⟩
  | env e =>
    obtain rfl : _ = c' := Option.some.inj hs
    have hsessions : (envStep e c.world).db.sessions = c.world.db.sessions := by cases e <;> rfl
    apply h t' tx
    rw [← hsessions]
    exact htx
  | kill t =>
    obtain ⟨k, op, f, hthread, rfl⟩ := Machine.step_kill hs
    have htx : (vanish t c.world).db.sessions t' = some tx := htx
    have hne : t' ≠ t := by
      rintro rfl
      simp at htx
    obtain ⟨th, hth, halive⟩ := h t' tx ((vanish_sessions_of_ne t c.world hne).symm.trans htx)
    exact ⟨th, (Function.update_of_ne hne ..).trans hth, halive⟩

section Reach

variable {allowed : Task → Prop} {c : GatewayConfig}

theorem running_of_open (h : Reachable P allowed c) {t : Nat} {tx : Tx}
    (htx : c.world.db.sessions t = some tx) :
    ∃ k op f, c.threads t = some ⟨k, .await op f, true⟩ := by
  obtain ⟨tenants, whitelist, ls, -, hrun⟩ := h
  have halive : AliveIfOpen c := by
    apply Machine.run_induction AliveIfOpen (fun _ => True) (fun _ _ _ h _ hs => aliveIfOpen_step h hs)
      (fun _ _ h => by simp [Config.start, World.initial] at h) (fun _ _ => trivial) hrun
  have hinit : (returning P).Inv (World.initial tenants whitelist) (fun _ => false) fun _ => none :=
    ⟨by simp [World.initial], fun _ _ => rfl⟩
  obtain ⟨σ, hinv, hconf⟩ := (returning P).holds_run hinit (fun _ _ => trivial) hrun
  have hinv : Bracketed c.world σ c.taskOf := hinv
  obtain ⟨⟨k, p, alive⟩, hth, rfl⟩ := halive t tx htx
  cases p with
  | ret r =>
    have hclosed : σ t = false := hconf t _ hth rfl
    simp [hinv.opened t tx htx] at hclosed
  | await op f => exact ⟨k, op, f, hth⟩

/-- **No connection and no lock is leaked.**  In every reachable state each open transaction, each
    row lock and each key lock belongs to a coroutine that is still running. -/
theorem connections_returned (h : Reachable P allowed c) (t : Nat)
    (hholds : (∃ tx, c.world.db.sessions t = some tx) ∨ (∃ id, c.world.db.rowLock id = some t) ∨
      ∃ k, c.world.db.keyLock k = some t) :
    ∃ k op f, c.threads t = some ⟨k, .await op f, true⟩ := by
  obtain ⟨σ, hinv, -⟩ := reachable_delivered h
  have hinv : Delivered c.world σ c.taskOf := hinv
  rcases hholds with ⟨tx, htx⟩ | ⟨id, hlock⟩ | ⟨k, hlock⟩
  · exact running_of_open h htx
  · obtain ⟨-, tx, htx⟩ := hinv.sound.rowLock id t hlock
    exact running_of_open h htx
  · obtain ⟨tx, htx⟩ := hinv.sound.keyLock k t hlock
    exact running_of_open h htx

end Reach

/-- The batch that has selected the row of the first webhook is still running. -/
theorem connections_returned_batch : ∃ c, Reachable Example.keeping serviceTask c ∧
    (∃ tx, c.world.db.sessions 1 = some tx) ∧
    ∃ k op f, c.threads 1 = some ⟨k, .await op f, true⟩ := by
  obtain ⟨c, row, ex, f, hrun, -, -, -, -, -, tx, htx, -⟩ := Example.untilSavepoint_run
  have hreach : Reachable Example.keeping serviceTask c := Example.reachable_run hrun rfl
  exact ⟨c, hreach, ⟨tx, htx⟩, connections_returned hreach 1 (.inl ⟨tx, htx⟩)⟩

end VcsGateway
