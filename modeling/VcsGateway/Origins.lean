import VcsGateway.Columns

/-!
# Where the rows come from

Every row of the two tables was inserted by a call of `process_webhook`, with the
arguments that `persist` makes of the request.
-/

namespace VcsGateway

open Async

variable {P : Platform}

/-! ### Every row, stored or pending -/

namespace Database

/-- `Q` holds of every row of `inbound_event` and `R` of every version of a row of
    `outbox_event`, also of those that no transaction has committed yet. -/
structure Every (db : Database) (Q : InboundEvent → Prop) (R : OutboxEvent → Prop) : Prop where
  inbound : ∀ row ∈ db.inbound, Q row
  outbox : ∀ r ∈ db.outbox, R r
  pending : ∀ t tx, db.sessions t = some tx → ∀ ch ∈ tx.changes :: tx.saved,
    (∀ row ∈ ch.inbound, Q row) ∧ ∀ r ∈ ch.writes ++ ch.inserts, R r

variable {db db' : Database} {t : Nat} {Q Q' : InboundEvent → Prop} {R R' : OutboxEvent → Prop}

theorem Every.mono (h : db.Every Q R) (hQ : ∀ row, Q row → Q' row) (hR : ∀ r, R r → R' r) :
    db.Every Q' R' where
  inbound row hrow := hQ row (h.inbound row hrow)
  outbox r hr := hR r (h.outbox r hr)
  pending t tx htx ch hch :=
    ⟨fun row hrow => hQ row ((h.pending t tx htx ch hch).1 row hrow),
      fun r hr => hR r ((h.pending t tx htx ch hch).2 r hr)⟩

theorem Every.initial (tenants : UUID → Option Tenant) (whitelist : List VcsEventWhitelist) :
    Database.Every { tenants, whitelist } Q R where
  inbound := by simp
  outbox := by simp
  pending := by simp

/-- The tables stay, and only the session of `t` may have changed. -/
theorem Every.session (h : db.Every Q R) (hin : db'.inbound = db.inbound)
    (hout : db'.outbox = db.outbox) (hother : ∀ t' ≠ t, db'.sessions t' = db.sessions t')
    (hself : ∀ tx, db'.sessions t = some tx → ∀ ch ∈ tx.changes :: tx.saved,
      (∀ row ∈ ch.inbound, Q row) ∧ ∀ r ∈ ch.writes ++ ch.inserts, R r) : db'.Every Q R where
  inbound row hrow := h.inbound row (hin ▸ hrow)
  outbox r hr := h.outbox r (hout ▸ hr)
  pending t' tx htx ch hch := by
    by_cases heq : t' = t
    · subst heq
      exact hself tx htx ch hch
    · rw [hother t' heq] at htx
      exact h.pending t' tx htx ch hch

theorem Every.setSession (h : db.Every Q R) {tx : Tx}
    (hself : ∀ ch ∈ tx.changes :: tx.saved,
      (∀ row ∈ ch.inbound, Q row) ∧ ∀ r ∈ ch.writes ++ ch.inserts, R r) :
    (db.setSession t tx).Every Q R := by
  refine h.session rfl rfl (fun t' hne => setSession_sessions_of_ne hne) fun tx' htx' => ?_
  rw [setSession_sessions_self, Option.some.injEq] at htx'
  subst htx'
  exact hself

theorem Every.close (h : db.Every Q R) : (db.close t).Every Q R := by
  refine h.session rfl rfl (fun t' hne => close_sessions_of_ne hne) fun tx htx => ?_
  simp at htx

/-- A version is one of the rows. -/
theorem Every.version (h : db.Every Q R) {tx : Tx} (htx : db.sessions t = some tx) {id : UUID}
    {r : OutboxEvent} (hv : tx.changes.version db.outbox id = some r) : R r := by
  rcases List.mem_append.mp (version_eq_some hv).2 with hr | hr
  · exact (h.pending t tx htx _ List.mem_cons_self).2 r hr
  · exact h.outbox r hr

/-- What the newest changes of `t` become; those at the savepoints stay. -/
theorem Every.changes (h : db.Every Q R) {tx : Tx} (htx : db.sessions t = some tx)
    {changes : Changes} (hin : ∀ row ∈ changes.inbound, Q row)
    (hout : ∀ r ∈ changes.writes ++ changes.inserts, R r) :
    (db.setSession t { tx with changes }).Every Q R := by
  refine h.setSession fun ch hch => ?_
  rcases List.mem_cons.mp hch with rfl | hch
  · exact ⟨hin, hout⟩
  · exact h.pending t tx htx ch (List.mem_cons_of_mem _ hch)

theorem Every.addInbound (h : db.Every Q R) {tx : Tx} (htx : db.sessions t = some tx)
    {row : InboundEvent} (hrow : Q row) : (db.addInbound t tx row).Every Q R := by
  obtain ⟨hin, hout⟩ := h.pending t tx htx _ List.mem_cons_self
  have hset := @Every.changes db t Q R h tx htx (tx.addInbound row).changes ?_ hout
  · exact ⟨hset.inbound, hset.outbox, hset.pending⟩
  · intro row' hrow'
    rcases List.mem_append.mp hrow' with hrow' | hrow'
    · exact hin row' hrow'
    · rw [List.mem_singleton.mp hrow']
      exact hrow

theorem Every.addOutbox (h : db.Every Q R) {tx : Tx} (htx : db.sessions t = some tx)
    {row : OutboxEvent} (hrow : R row) : (db.addOutbox t tx row).Every Q R := by
  obtain ⟨hin, hout⟩ := h.pending t tx htx _ List.mem_cons_self
  have hset := @Every.changes db t Q R h tx htx (tx.addInsert row).changes hin ?_
  · exact ⟨hset.inbound, hset.outbox, hset.pending⟩
  · intro r hr
    simp only [Tx.addInsert, List.mem_append, List.mem_singleton] at hr
    rcases hr with hr | hr | rfl
    · exact hout r (List.mem_append_left _ hr)
    · exact hout r (List.mem_append_right _ hr)
    · exact hrow

theorem Every.install (h : db.Every Q R) {tx : Tx} (htx : db.sessions t = some tx) :
    (db.install t tx).Every Q R := by
  obtain ⟨hin, hout⟩ := h.pending t tx htx _ List.mem_cons_self
  refine ⟨?_, ?_, (h.close (t := t)).pending⟩
  · intro row hrow
    rcases List.mem_append.mp hrow with hrow | hrow
    · exact h.inbound row hrow
    · exact hin row hrow
  · intro r hr
    obtain ⟨b, hb, rfl⟩ := List.mem_map.mp hr
    unfold Changes.latest
    rcases hf : tx.changes.writes.find? fun v => v.outboxId = b.outboxId with _ | v
    · rw [hf, Option.getD_none]
      rcases List.mem_append.mp hb with hb | hb
      · exact h.outbox b hb
      · exact hout b (List.mem_append_right _ hb)
    · rw [hf, Option.getD_some]
      exact hout v (List.mem_append_left _ (List.mem_of_find?_eq_some hf))

/-- **One step** that inserts no row. -/
theorem Every.step (h : db.Every Q R) {op : Op} {fresh : UUID → Prop}
    (hm : Moves P op fresh t db db') (hop : op.isInsert = false)
    (hwrites : ∀ tx r v m, op.Writes tx r v m → R r → R v) : db'.Every Q R := by
  cases hm with
  | idle => exact h
  | opened now _ _ =>
    refine h.setSession fun ch hch => ?_
    obtain rfl : ch = {} := by simpa using hch
    exact ⟨by simp, by simp⟩
  | kept tx tx' htx _ hsub => exact h.setSession fun ch hch => h.pending t tx htx ch (hsub ch hch)
  | discarded tx _ => exact ⟨h.inbound, h.outbox, (h.close (t := t)).pending⟩
  | installed tx _ htx _ => exact h.install htx
  | locked tx id r _ _ _ _ _ => exact ⟨h.inbound, h.outbox, h.pending⟩
  | wrote tx r v m hw htx _ _ hv =>
    obtain ⟨hin, hout⟩ := h.pending t tx htx _ List.mem_cons_self
    have hset := @Every.changes db t Q R h tx htx (tx.addWrite v m).changes hin ?_
    · exact ⟨hset.inbound, hset.outbox, hset.pending⟩
    · intro r' hr'
      rcases List.mem_cons.mp hr' with rfl | hr'
      · exact hwrites tx r r' m hw (h.version htx hv)
      · exact hout r' hr'
  | insertedInbound tx e row he => simp [he, Op.isInsert] at hop
  | insertedOutbox tx e row he => simp [he, Op.isInsert] at hop

end Database

section Environment

variable {w : World} {Q : InboundEvent → Prop} {R : OutboxEvent → Prop}

theorem Database.Every.envStep (h : w.db.Every Q R) (e : EnvEvent) :
    (envStep e w).db.Every Q R := by
  cases e with
  | setTenant id row => exact ⟨h.inbound, h.outbox, h.pending⟩
  | setWhitelist rows => exact ⟨h.inbound, h.outbox, h.pending⟩
  | tick n => exact h
  | tickApp n => exact h
  | evict key => exact h
  | dropChannel ch => exact h

theorem Database.Every.vanish (h : w.db.Every Q R) (t : Nat) : (vanish t w).db.Every Q R := by
  unfold VcsGateway.vanish
  rcases w.db.sessions t with _ | tx
  · exact h
  · exact ⟨h.inbound, h.outbox, (h.close (t := t)).pending⟩

end Environment

/-! ### Rows and the log -/

/-- A logged `_INSERT_INBOUND` made this row. -/
def World.Inserted (P : Platform) (w : World) (row : InboundEvent) : Prop :=
  ∃ t args now, (t, ⟨.insertInbound args, .ok row⟩) ∈ w.log ∧ args.row P now = some row

/-- A logged `_INSERT_EVENT` made this row, as far as no statement has updated it. -/
def World.Scheduled (P : Platform) (w : World) (r : OutboxEvent) : Prop :=
  ∃ t args now row, (t, ⟨.insertEvent args, .ok r.outboxId⟩) ∈ w.log ∧
    args.row P r.outboxId now = some row ∧ r.core = row.core

theorem World.Inserted.mono {w w' : World} {row : InboundEvent} (h : w.Inserted P row)
    (hlog : w.log ⊆ w'.log) : w'.Inserted P row := by
  obtain ⟨t, args, now, hmem, hrow⟩ := h
  exact ⟨t, args, now, hlog hmem, hrow⟩

theorem World.Scheduled.mono {w w' : World} {r : OutboxEvent} (h : w.Scheduled P r)
    (hlog : w.log ⊆ w'.log) : w'.Scheduled P r := by
  obtain ⟨t, args, now, row, hmem, hrow⟩ := h
  exact ⟨t, args, now, row, hlog hmem, hrow⟩

theorem every_logged {w w' : World} (h : w.db.Every (w.Inserted P) (w.Scheduled P))
    {t : Nat} {op : Op} {ch : Choice} {r : Except Exn op.Ret} (he : exec P t op ch w = some (r, w')) :
    w'.db.Every (w'.Inserted P) (w'.Scheduled P) := by
  obtain ⟨w₁, h₁, rfl⟩ := exec_eq_some he
  have hlog : (w₁.record ⟨t, op, r⟩).log = w.log ++ [(t, ⟨op, r⟩)] := by
    simp [World.log, World.record, (execOp_frame h₁).trace]
  have hsub : w.log ⊆ (w₁.record ⟨t, op, r⟩).log := by
    rw [hlog]
    exact List.subset_append_left _ _
  have hmono := h.mono (fun _ hrow => hrow.mono hsub) fun _ hr => hr.mono hsub
  by_cases hop : op.isInsert = false
  · change w₁.db.Every _ _
    refine hmono.step (execOp_moves h₁) hop ?_
    -- no update touches what the insert wrote
    rintro tx r' v m hw ⟨t', args, now, row, hmem, hrow, hcore⟩
    exact ⟨t', args, now, row, by rwa [hw.outboxId_eq], by rwa [hw.outboxId_eq],
      hw.core_eq.trans hcore⟩
  · cases op with
    | insertInbound args =>
      obtain ⟨db', hdb, rfl⟩ := onDb_eq_some h₁
      obtain ⟨tx, htx, ⟨exc, -, rfl, -⟩ | ⟨row, -, hrow, rfl, -, -, rfl⟩⟩ :=
        Database.execInsertInbound_eq_some hdb
      · exact hmono.setSession (hmono.pending t tx htx)
      · exact hmono.addInbound htx ⟨t, args, tx.now, by rw [hlog]; simp, hrow⟩
    | insertEvent args =>
      obtain ⟨db', hdb, hw₁, -⟩ := execOp_insertEvent_eq_some h₁
      change w₁.db.Every _ _
      rw [hw₁]
      obtain ⟨tx, htx, ⟨exc, -, -, rfl⟩ | ⟨u, row, -, -, hrow, rfl, rfl⟩⟩ :=
        Database.execInsertEvent_eq_some hdb
      · exact hmono.setSession (hmono.pending t tx htx)
      · have hid : row.outboxId = u := by
          obtain ⟨payload, headers, -, -, rfl⟩ := args.row_eq_some P hrow
          rfl
        exact hmono.addOutbox htx ⟨t, args, tx.now, row, by rw [hlog, hid]; simp,
          by rwa [hid], rfl⟩
    | _ => exact absurd rfl hop

/-- **Every row stems from the log.** -/
theorem reachable_every {allowed : Task → Prop} {c : GatewayConfig} (h : Reachable P allowed c) :
    c.world.db.Every (c.world.Inserted P) (c.world.Scheduled P) := by
  obtain ⟨tenants, whitelist, ls, -, hrun⟩ := h
  refine Machine.run_induction
    (fun c : GatewayConfig => c.world.db.Every (c.world.Inserted P) (c.world.Scheduled P))
    (fun _ => True) ?_ (Database.Every.initial tenants whitelist) (fun _ _ => trivial) hrun
  intro c l c' hc _ hs
  cases l with
  | spawn t k =>
    obtain ⟨-, rfl⟩ := Machine.step_spawn hs
    exact hc
  | step t ch =>
    obtain ⟨k, op, f, r, w, -, he, rfl⟩ := Machine.step_step hs
    exact every_logged hc he
  | env e =>
    obtain rfl : _ = c' := Option.some.inj hs
    have hlog : (envStep e c.world).log = c.world.log := by cases e <;> rfl
    have hsub : c.world.log ⊆ (envStep e c.world).log := hlog ▸ List.Subset.refl _
    exact (hc.mono (fun _ hrow => hrow.mono hsub) fun _ hr => hr.mono hsub).envStep e
  | kill t =>
    obtain ⟨k, op, f, -, rfl⟩ := Machine.step_kill hs
    change (vanish t c.world).db.Every ((vanish t c.world).Inserted P) ((vanish t c.world).Scheduled P)
    have hlog : c.world.log ⊆ (vanish t c.world).log := by
      unfold World.log
      rw [vanish_trace]
      exact List.Subset.refl _
    exact (hc.mono (fun _ hrow => hrow.mono hlog) fun _ hr => hr.mono hlog).vanish t

/-! ### Who inserts -/

/-- The rows that `persist` inserts for the request. -/
def Op.InsertsFor (P : Platform) (req : Request) (correlationId : UUID) (prData : PullRequestData)
    (prHashKey : String) : Op → Prop
  | .insertInbound args => ∃ eventId rawJson, loadsDict P req.rawPayload = .ok rawJson ∧
      args = inboundArgs req correlationId eventId prData prHashKey rawJson
  | .insertEvent args => ∃ eventId timestamp rawJson, loadsDict P req.rawPayload = .ok rawJson ∧
      args = outboxArgs P req correlationId eventId timestamp prData prHashKey rawJson
  | _ => True

section Footprint

variable {req : Request} {correlationId : UUID} {prData : PullRequestData} {prHashKey : String}

theorem Op.InsertsFor.of_not_insert {op : Op} (h : op.isInsert = false) :
    op.InsertsFor P req correlationId prData prHashKey := by
  cases op with
  | insertInbound args => simp [Op.isInsert] at h
  | insertEvent args => simp [Op.isInsert] at h
  | _ => exact trivial

theorem Op.Idle.not_insert {op : Op} (h : op.Idle) : op.isInsert = false := by
  cases h with
  | journey h => cases h <;> rfl
  | _ => rfl

theorem Op.Cancel.not_insert {op : Op} {v : Int} (h : op.Cancel prHashKey v) : op.isInsert = false := by
  cases h <;> rfl

theorem inserts_of_idle {α : Type} {p : Coroutine α} (hp : p.Only Op.Idle) :
    p.Only (Op.InsertsFor P req correlationId prData prHashKey) :=
  hp.mono fun _ h => .of_not_insert h.not_insert

theorem persist_inserts : (persist P req correlationId prData prHashKey).Only
    (Op.InsertsFor P req correlationId prData prHashKey) := by
  refine Prog.Only.bind (Prog.only_perform.mpr trivial) fun eventId => ?_
  rcases hloads : loadsDict P req.rawPayload with e | rawJson
  · exact trivial
  change (perform .utcnow >>= _ : Coroutine (UUID × UUID)).Only _
  refine Prog.Only.bind (Prog.only_perform.mpr trivial) fun timestamp => ?_
  refine Prog.Only.bind (Prog.Only.handle ?_ ?_) fun _ => trivial
  · refine transaction_only trivial trivial trivial ?_
    have hinbound : (insertInbound P (inboundArgs req correlationId eventId prData prHashKey
        rawJson)).Only (Op.InsertsFor P req correlationId prData prHashKey) :=
      Prog.Only.bind (Prog.only_perform.mpr ⟨eventId, rawJson, hloads, rfl⟩) fun _ => trivial
    refine hinbound.bind fun _ => Prog.Only.bind ?_ fun _ => ?_
    · exact (cancelPrevious_only _ _ _).mono fun _ h => .of_not_insert h.not_insert
    · exact Prog.only_perform.mpr ⟨eventId, timestamp, rawJson, hloads, rfl⟩
  · intro e
    cases e <;> exact trivial

theorem idempotencyStep_inserts : (idempotencyStep P req correlationId prData prHashKey).Only
    (Op.InsertsFor P req correlationId prData prHashKey) := by
  refine (inserts_of_idle (check_idle P prHashKey)).bind fun detection => ?_
  rcases detection with _ | detection
  · refine (inserts_of_idle (emit_idle P _ _ _ _ _)).bind fun _ => ?_
    refine persist_inserts.andThen fun r => ?_
    rcases r with exc | ⟨eventId, outboxId⟩
    · rcases exc with ⟨cls, msg, details⟩
      · cases cls <;> exact trivial
      all_goals exact trivial
    · refine (inserts_of_idle (setIdempotencyCache_idle prHashKey _)).bind fun _ => ?_
      exact (inserts_of_idle (emit_idle P _ _ _ _ _)).bind fun _ => trivial
  · exact (inserts_of_idle (emit_idle P _ _ _ _ _)).bind fun _ => trivial

end Footprint

/-! ### The way to the tables -/

/-- The call has been let through: its secret and the whitelist have been looked up, the
    request verifies, and its event is whitelisted. -/
def Admitted (P : Platform) (req : Request) (past : List GatewayStep) (correlationId : UUID)
    (prData : PullRequestData) : Prop :=
  ∃ secret whitelist rest, LookedUp P req past correlationId secret whitelist rest ∧
    Verifies P req secret ∧ parsePayload P req.vcsProvider req.rawPayload = .ok prData ∧
    isEventAllowed (extractEventType req.headers) prData.action whitelist = true

/-- What a call awaits before it is let through. -/
inductive Op.Preliminary (req : Request) : Op → Prop
  | journey {op : Op} (h : op.Journey) : Preliminary req op
  | lookup {op : Op} (h : op.TenantLookup req.tenantId) : Preliminary req op
  | whitelist : Preliminary req (.selectWhitelist req.vcsProvider)

section Awaits

variable {req : Request} {correlationId : UUID} {secret : String} {whitelist : List VcsEventWhitelist}
  {past : List GatewayStep} {op : Op}

theorem parseStep_awaits
    (h : (parseStep P req correlationId (extractEventType req.headers) whitelist).Awaits past op) :
    op.Journey ∨ ∃ prData, parsePayload P req.vcsProvider req.rawPayload = .ok prData ∧
      isEventAllowed (extractEventType req.headers) prData.action whitelist = true ∧
      (idempotencyStep P req correlationId prData (requestKey P req prData)).Awaits past op := by
  obtain ⟨prData, hparse, h⟩ := Prog.Awaits.ofExcept_bind h
  by_cases hallowed : isEventAllowed (extractEventType req.headers) prData.action whitelist = true
  · rw [if_neg (by simp [hallowed])] at h
    exact .inr ⟨prData, hparse, hallowed, h⟩
  · rw [if_pos (by simpa using hallowed)] at h
    obtain hemit | ⟨first, rest, u, -, -, hrest⟩ := Prog.Awaits.bind h
    · exact .inl ((emit_only P _ _ _ _ _).awaits hemit)
    · exact absurd hrest Prog.Awaits.not_ret

theorem afterLookup_awaits (hP : P.Digests)
    (h : (afterLookup P req correlationId secret whitelist).Awaits past op) :
    op.Journey ∨ Verifies P req secret ∧ ∃ prData,
      parsePayload P req.vcsProvider req.rawPayload = .ok prData ∧
      isEventAllowed (extractEventType req.headers) prData.action whitelist = true ∧
      ∃ later, later <:+ past ∧
        (idempotencyStep P req correlationId prData (requestKey P req prData)).Awaits later op := by
  obtain hsignature | ⟨first, rest, u, rfl, hfirst, hrest⟩ := Prog.Awaits.bind h
  · obtain ⟨valid, -, hemit⟩ := Prog.Awaits.ofExcept_bind hsignature
    obtain hemit | ⟨first, rest, u, -, -, hrest⟩ := Prog.Awaits.bind hemit
    · exact .inl ((emit_only P _ _ _ _ _).awaits hemit)
    · cases valid <;> exact absurd hrest Prog.Awaits.not_ret
  have hver : Verifies P req secret := by
    rcases validateSignature_follows hP hfirst with ⟨-, -, -, e, heq⟩ | ⟨-, heq⟩ | ⟨-, -, heq, -⟩ |
      ⟨-, hver, -⟩
    · simp at heq
    · simp at heq
    · simp at heq
    · exact hver
  obtain hemit | ⟨emitted, later, u, rfl, -, hparse⟩ := Prog.Awaits.bind hrest
  · exact .inl ((emit_only P _ _ _ _ _).awaits hemit)
  obtain hjourney | ⟨prData, hparse, hallowed, hlater⟩ := parseStep_awaits hparse
  · exact .inl hjourney
  · refine .inr ⟨hver, prData, hparse, hallowed, later, ?_, hlater⟩
    rw [← List.append_assoc]
    exact List.suffix_append _ _

/-- **A call is let through before it comes to the tables.** -/
theorem processWebhook_awaits (hP : P.Digests) (h : (processWebhook P req).Awaits past op) :
    op.Preliminary req ∨ ∃ correlationId prData later, Admitted P req past correlationId prData ∧
      later <:+ past ∧
      (idempotencyStep P req correlationId prData (requestKey P req prData)).Awaits later op := by
  obtain hfirst | ⟨first, rest, correlationId, rfl, hfirst, hrest⟩ := Prog.Awaits.bind h
  · obtain ⟨-, rfl⟩ := hfirst.perform
    exact .inl (.journey .uuid4)
  obtain rfl := Prog.follows_perform.mp hfirst
  by_cases hprovider : req.vcsProvider ∈ supportedProviders
  swap
  · rw [if_pos hprovider] at hrest
    exact absurd hrest Prog.Awaits.not_ret
  rw [if_neg (not_not_intro hprovider)] at hrest
  obtain hlookup | ⟨lookup, later, secret, rfl, hlookup, hlater⟩ := Prog.Awaits.bind hrest
  · exact .inl (.lookup ((getWebhookSecret_only P _).awaits hlookup))
  obtain hread | ⟨read, rest, whitelist, rfl, hread, hafter⟩ := Prog.Awaits.bind hlater
  · obtain ⟨-, rfl⟩ := hread.perform
    exact .inl .whitelist
  obtain rfl := Prog.follows_perform.mp hread
  obtain hjourney | ⟨hver, prData, hparse, hallowed, later, hsuffix, hlater⟩ :=
    afterLookup_awaits hP hafter
  · exact .inl (.journey hjourney)
  · refine .inr ⟨correlationId, prData, later, ?_, ?_, hlater⟩
    · exact ⟨secret, whitelist, rest, ⟨lookup, hlookup, by simp⟩, hver, hparse, hallowed⟩
    · exact hsuffix.trans (List.suffix_append_of_suffix (List.suffix_append_of_suffix
        (List.suffix_append _ _)))

end Awaits

/-! ### The calls behind the rows -/

theorem runOnce_not_insert (self : Publisher) :
    (runOnce P self).Only fun op => op.isInsert = false := by
  have hbatch : (batchBody P self).Only fun op => op.isInsert = false :=
    (batchBody_only P self).mono fun op h => by cases h <;> rfl
  have hprocess : (processBatch P self).Only fun op => op.isInsert = false :=
    @transaction_only _ _ (fun op => op.isInsert = false) rfl rfl rfl hbatch
  refine hprocess.andThen fun r => ?_
  exact (afterBatch_only self r).mono fun op h => by cases h <;> rfl

/-- Only a call of `process_webhook` inserts rows, and only when it has been let through. -/
theorem task_inserts (hP : P.Digests) {k : Task} (hk : serviceTask k) {past : List GatewayStep}
    {op : Op} (h : (k.prog P).Awaits past op) (hop : op.isInsert = true) :
    ∃ req correlationId prData, k = .webhook req ∧ Admitted P req past correlationId prData ∧
      op.InsertsFor P req correlationId prData (requestKey P req prData) := by
  cases k with
  | webhook req =>
    obtain hfirst | ⟨correlationId, prData, later, hadmitted, -, hlater⟩ := processWebhook_awaits hP h
    · cases hfirst with
      | journey h => simp [(Op.Idle.journey h).not_insert] at hop
      | lookup h => cases h <;> simp [Op.isInsert] at hop
      | whitelist => simp [Op.isInsert] at hop
    · exact ⟨req, correlationId, prData, rfl, hadmitted, idempotencyStep_inserts.awaits hlater⟩
  | checkDuplicate key =>
    simp [((checkDuplicate_idle P key).awaits h).not_insert] at hop
  | checkStale key v =>
    simp [((checkStale_idle P key v).awaits h).not_insert] at hop
  | scheduleEvent args => exact hk.elim
  | publisher self =>
    have hnone := (runOnce_not_insert self).awaits h
    simp [hnone] at hop

section Origin

variable {c : GatewayConfig}

theorem Admitted.append {req : Request} {past : List GatewayStep} {correlationId : UUID}
    {prData : PullRequestData} (h : Admitted P req past correlationId prData)
    (more : List GatewayStep) : Admitted P req (past ++ more) correlationId prData := by
  obtain ⟨secret, whitelist, rest, ⟨lookup, hlookup, rfl⟩, hver, hparse, hallowed⟩ := h
  exact ⟨secret, whitelist, rest ++ more, ⟨lookup, hlookup, by simp⟩, hver, hparse, hallowed⟩

/-- A logged insert belongs to a call that had been let through. -/
theorem insert_logged (hP : P.Digests) (h : Reachable P serviceTask c)
    {pre post : List (Nat × GatewayStep)} {t : Nat} {step : GatewayStep}
    (hlog : c.world.log = pre ++ (t, step) :: post) (hop : step.op.isInsert = true) :
    ∃ req correlationId prData, c.taskOf t = some (.webhook req) ∧
      Admitted P req (historyOf t pre) correlationId prData ∧
      step.op.InsertsFor P req correlationId prData (requestKey P req prData) := by
  obtain ⟨k, hk, hawaits⟩ := reachable_awaited h pre t step post hlog
  obtain ⟨req, correlationId, prData, rfl, hadmitted, hinserts⟩ :=
    task_inserts hP (reachable_allowed h hk) hawaits hop
  exact ⟨req, correlationId, prData, hk, hadmitted, hinserts⟩

end Origin

end VcsGateway
