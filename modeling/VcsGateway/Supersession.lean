import VcsGateway.Lookups
import VcsGateway.Origins

/-!
# Superseded events

`_CANCEL_PREVIOUS` cancels the scheduled events of older versions.  `persist` gives every
event version 1, so that a new commit of a pull request supersedes nothing.
-/

namespace VcsGateway

open Async

variable {P : Platform}

/-! ### A property of all rows -/

section Keeps

variable {ok : Op → Prop} {Q : InboundEvent → Prop} {R : OutboxEvent → Prop}

/-- The operations that `ok` lets pass make good rows of good rows. -/
structure KeepsRows (P : Platform) (ok : Op → Prop) (Q : InboundEvent → Prop)
    (R : OutboxEvent → Prop) : Prop where
  inbound : ∀ args now row, ok (.insertInbound args) → args.row P now = some row → Q row
  outbox : ∀ args u now row, ok (.insertEvent args) → args.row P u now = some row → R row
  writes : ∀ op tx r v m, ok op → op.Writes tx r v m → R r → R v

theorem KeepsRows.exec (hkeeps : KeepsRows P ok Q R) {w w' : World} (h : w.db.Every Q R) {t : Nat}
    {op : Op} {ch : Choice} {r : Except Exn op.Ret} (hok : ok op)
    (he : exec P t op ch w = some (r, w')) : w'.db.Every Q R := by
  obtain ⟨w₁, h₁, rfl⟩ := exec_eq_some he
  change w₁.db.Every Q R
  by_cases hop : op.isInsert = false
  · exact h.step (execOp_moves h₁) hop fun tx r v m => hkeeps.writes op tx r v m hok
  · cases op with
    | insertInbound args =>
      obtain ⟨db', hdb, rfl⟩ := onDb_eq_some h₁
      obtain ⟨tx, htx, ⟨exc, -, rfl, -⟩ | ⟨row, -, hrow, rfl, -, -, rfl⟩⟩ :=
        Database.execInsertInbound_eq_some hdb
      · exact h.setSession (h.pending t tx htx)
      · exact h.addInbound htx (hkeeps.inbound args tx.now row hok hrow)
    | insertEvent args =>
      obtain ⟨db', hdb, hw₁, -⟩ := execOp_insertEvent_eq_some h₁
      rw [hw₁]
      obtain ⟨tx, htx, ⟨exc, -, -, rfl⟩ | ⟨u, row, -, -, hrow, -, rfl⟩⟩ :=
        Database.execInsertEvent_eq_some hdb
      · exact h.setSession (h.pending t tx htx)
      · exact h.addOutbox htx (hkeeps.outbox args u tx.now row hok hrow)
    | _ => exact absurd rfl hop

end Keeps

/-! ### Who inserts and who updates -/

/-- What the publishers (`marks`) and the other tasks of the service await.  `persist`
    knows no version but 1. -/
def Op.Belongs (marks : Bool) : Op → Prop
  | .insertInbound _ => marks = false
  | .insertEvent args => marks = false ∧ args.prVersion = 1
  | .cancelRow _ _ prVersion _ => prVersion = 1
  | .markDispatched _ | .markFailed _ _ | .markRetry _ _ _ => marks = true
  | _ => True

def Task.marks : Task → Bool
  | .publisher _ => true
  | _ => false

theorem belongs_of_idle {op : Op} {marks : Bool} (h : op.Idle) : op.Belongs marks := by
  cases h with
  | journey h => cases h <;> trivial
  | _ => trivial

theorem persistBody_belongs (req : Request) (correlationId eventId : UUID) (timestamp : Time)
    (prData : PullRequestData) (prHashKey : String) (rawJson : List (String × Json)) :
    (persistBody P req correlationId eventId timestamp prData prHashKey rawJson).Only
      (Op.Belongs false) := by
  apply Prog.Only.bind
  · exact Prog.Only.bind (Prog.only_perform.mpr rfl) fun _ => trivial
  · intro _
    apply Prog.Only.bind
    · apply (cancelPrevious_only _ _ _).mono
      intro op hop
      cases hop with
      | scan => trivial
      | row id reason => rfl
    · intro _
      exact Prog.only_perform.mpr ⟨rfl, rfl⟩

theorem task_belongs {k : Task} (hk : serviceTask k) : (k.prog P).Only (Op.Belongs k.marks) := by
  cases k with
  | webhook req =>
    have hrests : Rests (Protocol.watching (Op.Belongs false)) (processWebhook P req) () := by
      apply processWebhook_rests
      · intro op hop
        exact ⟨belongs_of_idle hop, fun _ => rfl⟩
      · intro correlationId eventId timestamp prData rawJson
        have honly := @transaction_only _ _ (Op.Belongs false) trivial trivial trivial
          (@persistBody_belongs P req correlationId eventId timestamp prData
            (requestKey P req prData) rawJson)
        exact Protocol.Conforms.mono honly fun _ _ _ => rfl
    exact hrests.mono fun _ _ _ => trivial
  | checkDuplicate key => exact (checkDuplicate_idle P key).mono fun _ h => belongs_of_idle h
  | checkStale key v => exact (checkStale_idle P key v).mono fun _ h => belongs_of_idle h
  | scheduleEvent args => exact hk.elim
  | publisher self =>
    apply Prog.Only.andThen
    · apply @transaction_only _ _ (Op.Belongs true) trivial trivial trivial
      apply (batchBody_only P self).mono
      intro op hop
      cases hop <;> trivial
    · intro r
      apply (afterBatch_only self r).mono
      intro op hop
      cases hop <;> trivial

/-- A version that no statement of the service cancels. -/
def OutboxEvent.First (r : OutboxEvent) : Prop := r.prVersion = 1 ∧ r.status ≠ .cancelled

/-- Version 1 is older than no version of the service. -/
theorem First.not_cancelled {r v : OutboxEvent} (hr : r.First) {tx : Tx} {m : Mark} {id : UUID}
    {k reason : String} : ¬(Op.cancelRow id k 1 reason).Writes tx r v m := by
  rintro ⟨-, hprevious, -⟩
  simp [OutboxEvent.isPrevious, hr.1] at hprevious

theorem belongs_keeps (marks : Bool) :
    KeepsRows P (Op.Belongs marks) (fun _ => True) OutboxEvent.First where
  inbound _ _ _ _ _ := trivial
  outbox args u now row hargs hrow := by
    obtain ⟨payload, headers, -, -, rfl⟩ := args.row_eq_some P hrow
    exact ⟨hargs.2, by simp⟩
  writes op tx r v m hop hw hr := by
    refine ⟨(congrArg (·.prVersion) hw.core_eq).trans hr.1, ?_⟩
    cases op with
    | cancelRow id k ver reason =>
      have hver : ver = 1 := hop
      subst hver
      exact absurd hw (First.not_cancelled hr)
    | markDispatched id => simp [hw.2.1, OutboxEvent.markDispatched]
    | markFailed id msg => simp [hw.2.1, OutboxEvent.markFailed]
    | markRetry id msg at_ =>
      rw [hw.2.1]
      exact hr.2
    | _ => exact hw.elim

/-- The publishers insert nothing, and the others update nothing. -/
def Changes.Belongs (marks : Bool) (ch : Changes) : Prop :=
  if marks then ch.inbound = [] else ch.writes = []

structure Separate (db : Database) (σ : Nat → Bool) : Prop where
  rows : db.Every (fun _ => True) OutboxEvent.First
  changes : ∀ t tx, db.sessions t = some tx → ∀ ch ∈ tx.changes :: tx.saved, ch.Belongs (σ t)

section Separate

variable {db db' : Database} {σ : Nat → Bool} {t : Nat}

/-- Only the session of `t` may have changed. -/
theorem Separate.session (h : Separate db σ) (hrows : db'.Every (fun _ => True) OutboxEvent.First)
    (hother : ∀ t' ≠ t, db'.sessions t' = db.sessions t')
    (hself : ∀ tx, db'.sessions t = some tx → ∀ ch ∈ tx.changes :: tx.saved, ch.Belongs (σ t)) :
    Separate db' σ where
  rows := hrows
  changes t' tx htx ch hch := by
    by_cases heq : t' = t
    · subst heq
      exact hself tx htx ch hch
    · rw [hother t' heq] at htx
      exact h.changes t' tx htx ch hch

theorem Separate.moves (h : Separate db σ) {op : Op} {fresh : UUID → Prop}
    (hm : Database.Moves P op fresh t db db') (hop : op.Belongs (σ t))
    (hrows : db'.Every (fun _ => True) OutboxEvent.First) : Separate db' σ := by
  apply h.session hrows fun t' hne => hm.sessions_of_ne hne
  intro tx' htx' ch hch
  rcases hm.pends htx' hch with rfl | ⟨tx, htx, hpends⟩
  · unfold Changes.Belongs
    split <;> rfl
  have hnewest := h.changes t tx htx tx.changes List.mem_cons_self
  cases hpends with
  | before hmem => exact h.changes t tx htx ch hmem
  | wrote r v m hw hv =>
    have hmarks : σ t = true := by
      cases op with
      | cancelRow id k ver reason =>
        have hver : ver = 1 := hop
        subst hver
        exact absurd hw (First.not_cancelled (h.rows.version htx hv))
      | markDispatched id => exact hop
      | markFailed id msg => exact hop
      | markRetry id msg at_ => exact hop
      | _ => exact hw.elim
    unfold Changes.Belongs at hnewest ⊢
    rw [if_pos hmarks] at hnewest ⊢
    exact hnewest
  | insertedInbound e row he =>
    subst he
    have hmarks : σ t = false := hop
    unfold Changes.Belongs at hnewest ⊢
    rw [if_neg (by simp [hmarks])] at hnewest ⊢
    exact hnewest
  | insertedOutbox e row _ => exact hnewest

end Separate

/-- A task that has not been started has no transaction. -/
def Database.Unopened (db : Database) (τ : Nat → Option Task) : Prop :=
  ∀ t, τ t = none → db.sessions t = none

theorem Separate.vanish {w : World} {σ : Nat → Bool} (h : Separate w.db σ) (t : Nat) :
    Separate (vanish t w).db σ := by
  apply h.session (h.rows.vanish t) (t := t) fun t' hne => vanish_sessions_of_ne t w hne
  intro tx htx
  simp at htx

/-- The state says whether the task is a publisher. -/
@[reducible] def belonging : Protocol Exn Op Op.Ret where
  State := Bool
  allows marks op := op.Belongs marks
  next marks _ _ := marks
  admits _ _ := True

theorem task_conforms {k : Task} (hk : serviceTask k) :
    belonging.Conforms (fun _ _ => True) (k.prog P) k.marks := by
  have honly : (k.prog P).Only (Op.Belongs k.marks) := task_belongs hk
  have hrests := @Protocol.Conforms.idle _ _ _ _ belonging _ k.marks
    (honly.mono fun op hop => ⟨hop, fun _ => rfl⟩)
  exact hrests.mono fun _ _ _ => trivial

/-- The discipline behind the results on versions. -/
def separating (P : Platform) : (gateway P).Discipline (starts serviceTask) where
  P := belonging
  Inv w σ τ := Separate w.db σ ∧ w.db.Unopened τ
  idle := false
  start := Task.marks
  onKill marks := marks
  post _ _ _ := True
  conforms _ _ hk := task_conforms hk
  spawn {w σ τ t k} hk h hτ := by
    obtain ⟨hseparate, hunopened⟩ := h
    constructor
    · refine ⟨hseparate.rows, fun t' tx htx => ?_⟩
      have hne : t' ≠ t := by
        rintro rfl
        simp [hunopened t' hτ] at htx
      rw [Function.update_of_ne hne]
      exact hseparate.changes t' tx htx
    · intro t' ht'
      by_cases heq : t' = t
      · simp [heq] at ht'
      · rw [Function.update_of_ne heq] at ht'
        exact hunopened t' ht'
  exec {w σ τ t k op ch r w'} hk h hτ hallows he := by
    obtain ⟨hseparate, hunopened⟩ := h
    have hrows := (belongs_keeps (σ t)).exec hseparate.rows hallows he
    obtain ⟨w₁, h₁, rfl⟩ := exec_eq_some he
    have hmoves := execOp_moves h₁
    refine ⟨trivial, ?_, fun t' ht' => ?_⟩
    · rw [Function.update_eq_self]
      exact hseparate.moves hmoves hallows hrows
    · have hne : t' ≠ t := by
        rintro rfl
        simp [hτ] at ht'
      exact (hmoves.sessions_of_ne hne).trans (hunopened t' ht')
  env {w σ τ e} hk h := by
    obtain ⟨hseparate, hunopened⟩ := h
    have hsessions : (envStep e w).db.sessions = w.db.sessions := by cases e <;> rfl
    refine ⟨⟨hseparate.rows.envStep e, ?_⟩, ?_⟩
    · rw [show ((gateway P).env e w).db.sessions = _ from hsessions]
      exact hseparate.changes
    · intro t ht
      rw [show ((gateway P).env e w).db.sessions = _ from hsessions]
      exact hunopened t ht
  kill {w σ τ t k} hk h hτ := by
    obtain ⟨hseparate, hunopened⟩ := h
    rw [Function.update_eq_self]
    refine ⟨hseparate.vanish t, fun t' ht' => ?_⟩
    have hne : t' ≠ t := by
      rintro rfl
      simp [hτ] at ht'
    exact (vanish_sessions_of_ne t w hne).trans (hunopened t' ht')

theorem reachable_separate {c : GatewayConfig} (h : Reachable P serviceTask c) :
    ∃ σ, Separate c.world.db σ := by
  obtain ⟨tenants, whitelist, ls, hls, hrun⟩ := h
  have hinit : (separating P).Inv (World.initial tenants whitelist) (fun _ => false) fun _ => none :=
    ⟨⟨.initial tenants whitelist, by simp [World.initial]⟩, fun _ _ => rfl⟩
  obtain ⟨σ, ⟨hseparate, -⟩, -⟩ := (separating P).holds_run hinit hls hrun
  exact ⟨σ, hseparate⟩

/-- **No event is ever cancelled.** -/
theorem never_cancelled {c : GatewayConfig} (h : Reachable P serviceTask c) :
    ∀ r ∈ c.world.db.outbox, r.status ≠ .cancelled := by
  obtain ⟨σ, hseparate⟩ := reachable_separate h
  intro r hr
  exact (hseparate.rows.outbox r hr).2

/-! ### Two commits of a pull request -/

/-- `e'` is committed by this step while the event `r` of an earlier webhook of the pull
    request waits. -/
structure PersistedMeanwhile (c c' : GatewayConfig) (e e' : InboundEvent) (r : OutboxEvent) :
    Prop where
  accepted : e ∈ c.world.db.inbound
  row : r ∈ c.world.db.outbox
  identity : r.identity = e.identity
  scheduled : r.status = .scheduled
  notYet : e' ∉ c.world.db.inbound
  persisted : e' ∈ c'.world.db.inbound
  samePullRequest : e.SamePullRequest e'
  commits : e.commitSha ≠ e'.commitSha

/-- In `c` the event is cancelled, and it is not published on the way from there to `c'`. -/
structure Debounced (c c' : GatewayConfig) (r : OutboxEvent) : Prop where
  cancelled : ∃ r' ∈ c.world.db.outbox, r'.outboxId = r.outboxId ∧ r'.status = .cancelled
  unpublished : ∀ e ∈ c'.world.trace.drop c.world.trace.length, ∀ exchange m routingKey,
    e.op = .publish exchange m routingKey → m.source ≠ some r.outboxId

/-- The commit of a new row of `inbound_event` updates no row of `outbox_event`. -/
theorem outbox_of_persisted {c c' : GatewayConfig} {l : GatewayLabel} {e' : InboundEvent}
    (h : Reachable P serviceTask c) (hstep : (gateway P).step c l = some c')
    (hnew : e' ∉ c.world.db.inbound) (he' : e' ∈ c'.world.db.inbound) :
    c.world.db.outbox ⊆ c'.world.db.outbox := by
  obtain ⟨σ, hseparate⟩ := reachable_separate h
  cases l with
  | spawn t k =>
    obtain ⟨-, rfl⟩ := Machine.step_spawn hstep
    exact absurd he' hnew
  | step t ch =>
    obtain ⟨k, op, f, r, w, -, he, rfl⟩ := Machine.step_step hstep
    obtain ⟨w₁, h₁, rfl⟩ := exec_eq_some he
    change c.world.db.outbox ⊆ w₁.db.outbox
    have he' : e' ∈ w₁.db.inbound := he'
    have hmoves := execOp_moves h₁
    generalize hdb : w₁.db = db' at hmoves he'
    cases hmoves with
    | installed tx _ htx _ =>
      have hin : e' ∈ tx.changes.inbound := (List.mem_append.mp he').resolve_left hnew
      have hwrites : tx.changes.writes = [] := by
        have hbelongs := hseparate.changes t tx htx _ List.mem_cons_self
        unfold Changes.Belongs at hbelongs
        split at hbelongs
        · simp [hbelongs] at hin
        · exact hbelongs
      intro r' hr'
      refine List.mem_map.mpr ⟨r', List.mem_append_left _ hr', ?_⟩
      simp [Changes.latest, hwrites]
    | _ => exact absurd he' hnew
  | env ev =>
    obtain rfl : _ = c' := Option.some.inj hstep
    have hin : (envStep ev c.world).db.inbound = c.world.db.inbound := by cases ev <;> rfl
    exact absurd (hin ▸ he') hnew
  | kill t =>
    obtain ⟨k, op, f, -, rfl⟩ := Machine.step_kill hstep
    have hin : (vanish t c.world).db.inbound = c.world.db.inbound := by
      unfold vanish
      split <;> rfl
    exact absurd (hin ▸ he') hnew

theorem reachable_snoc {c c' : GatewayConfig} {l : GatewayLabel} {ls : List GatewayLabel}
    (h : Reachable P serviceTask c) (hl : ∀ l' ∈ l :: ls, starts serviceTask l')
    (hstep : (gateway P).step c l = some c') {c'' : GatewayConfig}
    (hrun : (gateway P).run c' ls = some c'') : Reachable P serviceTask c'' := by
  obtain ⟨tenants, whitelist, before, hbefore, hc⟩ := h
  refine ⟨tenants, whitelist, before ++ l :: ls, ?_, ?_⟩
  · intro l' hl'
    rcases List.mem_append.mp hl' with hl' | hl'
    · exact hbefore l' hl'
    · exact hl l' hl'
  · rw [Machine.run_append, hc, Option.bind_some, Machine.run_cons_eq_some]
    exact ⟨c', hstep, hrun⟩

/-- **A new commit of a pull request never supersedes the waiting event of an older one**:
the event goes on waiting, and no event is cancelled later. -/
theorem never_debounced {c c' c'' : GatewayConfig} {l : GatewayLabel} {ls : List GatewayLabel}
    {e e' : InboundEvent} {r : OutboxEvent} (h : Reachable P serviceTask c)
    (hl : ∀ l' ∈ l :: ls, starts serviceTask l') (hstep : (gateway P).step c l = some c')
    (hrun : (gateway P).run c' ls = some c'') (hmeanwhile : PersistedMeanwhile c c' e e' r) :
    r ∈ c'.world.db.outbox ∧ ¬Debounced c' c'' r ∧
      ∀ r' ∈ c''.world.db.outbox, r'.status ≠ .cancelled := by
  have hc' : Reachable P serviceTask c' := by
    apply reachable_snoc h _ hstep (Machine.run_nil c')
    intro l' hl'
    rw [List.mem_singleton.mp hl']
    exact hl l List.mem_cons_self
  refine ⟨?_, ?_, never_cancelled (reachable_snoc h hl hstep hrun)⟩
  · exact outbox_of_persisted h hstep hmeanwhile.notYet hmeanwhile.persisted hmeanwhile.row
  · intro hdebounced
    obtain ⟨r', hr', -, hcancelled⟩ := hdebounced.cancelled
    exact never_cancelled hc' r' hr' hcancelled

theorem PersistedMeanwhile.twoCommits {c c' : GatewayConfig} {e e' : InboundEvent} {r : OutboxEvent}
    (hbefore : c.world.db.inbound = [e]) (hafter : c'.world.db.inbound = [e, e'])
    (hsame : e.SamePullRequest e') (hfirst : e.commitSha = "c1") (hsecond : e'.commitSha = "c2")
    (hrow : c.world.db.outbox = [r]) (hid : r.identity = e.identity)
    (hstatus : r.status = .scheduled) : PersistedMeanwhile c c' e e' r := by
  have hne : e.commitSha ≠ e'.commitSha := by
    rw [hfirst, hsecond]
    decide
  refine ⟨by simp [hbefore], by simp [hrow], hid, hstatus, ?_, by simp [hafter], hsame, hne⟩
  intro hold
  rw [hbefore, List.mem_singleton] at hold
  exact hne (congrArg (·.commitSha) hold.symm)

/-- The event of the first commit waits on, after the second one has been accepted. -/
theorem debounced_never : ∃ c c' c'' e e' r, PersistedMeanwhile c c' e e' r ∧
    Finished c'' 1 (.webhook Example.secondDelivery) (.ok (.accepted ⟨30⟩ ⟨34⟩ ⟨35⟩)) ∧
    r ∈ c'.world.db.outbox ∧ ¬Debounced c' c'' r ∧
      ∀ r' ∈ c''.world.db.outbox, r'.status ≠ .cancelled := by
  obtain ⟨c, c', c'', hc, hstep, hrun, -, hfin, -, e, e', r, hbefore, hafter, -, hsame, hfirst,
    hsecond, hrow, hid, hstatus⟩ := Example.twoCommits_run
  have hmeanwhile := PersistedMeanwhile.twoCommits hbefore hafter hsame hfirst hsecond hrow hid hstatus
  have hl : ∀ l ∈ (.step 1 .ok :: Example.afterCommit : List GatewayLabel), starts serviceTask l := by
    intro l hl
    rcases List.mem_cons.mp hl with rfl | hl
    · trivial
    · obtain ⟨ch, -, rfl⟩ := List.mem_map.mp hl
      trivial
  exact ⟨c, c', c'', e, e', r, hmeanwhile, hfin,
    never_debounced (Example.reachable_run hc rfl) hl hstep hrun hmeanwhile⟩

/-- **Both events wait** when two commits of a merge request have been accepted. -/
theorem first_not_debounced : ∃ c c' c'', Reachable Example.both serviceTask c ∧
    (gateway Example.both).step c (.step 1 .ok) = some c' ∧
    (gateway Example.both).run c' Example.afterCommit = some c'' ∧
    Finished c'' 0 (.webhook Example.firstDelivery) (.ok (.accepted ⟨9⟩ ⟨20⟩ ⟨21⟩)) ∧
    Finished c'' 1 (.webhook Example.secondDelivery) (.ok (.accepted ⟨30⟩ ⟨34⟩ ⟨35⟩)) ∧
    c''.world.db.outbox.map (·.status) = [.scheduled, .scheduled] ∧
    ∃ e e' r, PersistedMeanwhile c c' e e' r ∧ ¬Debounced c' c'' r := by
  obtain ⟨c, c', c'', hc, hstep, hrun, hfin, hfin', hscheduled, e, e', r, hbefore, hafter, -, hsame,
    hfirst, hsecond, hrow, hid, hstatus⟩ := Example.twoCommits_run
  have hreach := Example.reachable_run hc rfl
  refine ⟨c, c', c'', hreach, hstep, hrun, hfin, hfin', hscheduled, e, e', r,
    .twoCommits hbefore hafter hsame hfirst hsecond hrow hid hstatus, ?_⟩
  intro hdebounced
  obtain ⟨r', hr', -, hcancelled⟩ := hdebounced.cancelled
  have hc' : Reachable Example.both serviceTask c' := by
    apply reachable_snoc hreach _ hstep (Machine.run_nil c')
    intro l hl
    rw [List.mem_singleton.mp hl]
    trivial
  exact never_cancelled hc' r' hr' hcancelled

end VcsGateway
