import VcsGateway.Calls
import Mathlib.Data.List.Nodup
import Mathlib.Data.List.Pairwise

/-!
# One acceptance for each webhook

What the invariant of acceptance says in terms of the tables, the idempotency cache and
the results of the calls.
-/

namespace VcsGateway

open Async

/-- Run `t` committed the two rows together. -/
def Wrote (c : GatewayConfig) (t : Nat) (row : InboundEvent) (r : OutboxEvent) : Prop :=
  ∃ commit ∈ c.world.db.wal, commit.tid = t ∧ row ∈ commit.changes.inbound ∧
    ∃ r' ∈ commit.changes.inserts, r'.core = r.core

/-- Run `t` has added no row to either table. -/
def WroteNothing (c : GatewayConfig) (t : Nat) : Prop :=
  ∀ commit ∈ c.world.db.wal, commit.tid = t → commit.changes.InsertsNothing

/-- The run `t` of `process_webhook` on `req` accounts for the pair `row`, `r`: unless a
    cancellation ended it, it is accepted with their identifiers. -/
structure AccountsFor (c : GatewayConfig) (t : Nat) (req : Request) (row : InboundEvent)
    (r : OutboxEvent) : Prop where
  task : c.taskOf t = some (.webhook req)
  wrote : Wrote c t row r
  only : ∀ t', Wrote c t' row r → t' = t
  result : ∀ res, Finished c t (.webhook req) res →
    res = .ok (.accepted row.correlationId row.eventId r.outboxId) ∨ res = .error .cancelledError

/-- Tables and results agree. -/
structure OneAcceptance (c : GatewayConfig) : Prop where
  outboxOf : ∀ row ∈ c.world.db.inbound, ∃! r, r ∈ c.world.db.outbox ∧ r.identity = row.identity
  inboundOf : ∀ r ∈ c.world.db.outbox, ∃! row, row ∈ c.world.db.inbound ∧ row.identity = r.identity
  inboundKeys : (c.world.db.inbound.map (·.prHashKey)).Nodup
  outboxKeys : (c.world.db.outbox.map (·.prHashKey)).Nodup
  accounts : ∀ row ∈ c.world.db.inbound, ∀ r ∈ c.world.db.outbox, r.identity = row.identity →
    ∃ t req, AccountsFor c t req row r
  accepted : ∀ t req correlationId eventId outboxId,
    Finished c t (.webhook req) (.ok (.accepted correlationId eventId outboxId)) →
    ∃ row ∈ c.world.db.inbound, ∃ r ∈ c.world.db.outbox, Wrote c t row r ∧
      row.correlationId = correlationId ∧ row.eventId = eventId ∧ r.outboxId = outboxId
  notAccepted : ∀ t req res, Finished c t (.webhook req) res →
    (∀ correlationId eventId outboxId, res ≠ .ok (.accepted correlationId eventId outboxId)) →
    res ≠ .error .cancelledError → WroteNothing c t

section

variable {P : Platform} {w : World} {σ : Nat → CallState} {τ : Nat → Option Task}

theorem identity_core (rows : List OutboxEvent) :
    rows.map OutboxEvent.identity = (rows.map OutboxEvent.core).map OutboxEvent.identity := by
  rw [List.map_map]; rfl

/-- Both tables hold the same webhooks in the same order. -/
theorem Accounted.identities (h : Accounted P w σ τ) :
    w.db.outbox.map OutboxEvent.identity = w.db.inbound.map InboundEvent.identity := by
  rw [identity_core, h.sound.outboxWal, ← identity_core, h.sound.inboundWal, List.map_flatMap,
    List.map_flatMap]
  refine List.flatMap_congr fun commit hc => ?_
  rcases h.wal commit hc with hnone | ⟨row, id, haccepts, -⟩
  · rw [hnone.1, hnone.2]; rfl
  · obtain ⟨r, hr, -, hidentity⟩ := haccepts.inserts
    rw [haccepts.inbound, hr]
    simp [hidentity]

theorem Accounted.outbox_keys (h : Accounted P w σ τ) :
    w.db.outbox.map (·.prHashKey) = w.db.inbound.map (·.prHashKey) := by
  have hfst := congrArg (List.map Prod.fst) h.identities
  rw [List.map_map, List.map_map] at hfst
  exact hfst

theorem Accounted.inbound_eq (h : Accounted P w σ τ) {row row' : InboundEvent}
    (hrow : row ∈ w.db.inbound) (hrow' : row' ∈ w.db.inbound)
    (heq : row.identity = row'.identity) : row = row' :=
  List.inj_on_of_nodup_map h.sound.inboundNodup hrow hrow' (congrArg Prod.fst heq)

theorem Accounted.outbox_eq (h : Accounted P w σ τ) {r r' : OutboxEvent}
    (hr : r ∈ w.db.outbox) (hr' : r' ∈ w.db.outbox) (heq : r.identity = r'.identity) : r = r' :=
  List.inj_on_of_nodup_map (h.outbox_keys ▸ h.sound.inboundNodup) hr hr' (congrArg Prod.fst heq)

/-- The commit that stored a row of `inbound_event`, with its partner. -/
theorem Accounted.commit_of (h : Accounted P w σ τ) {row : InboundEvent}
    (hrow : row ∈ w.db.inbound) :
    ∃ commit ∈ w.db.wal, ∃ id, commit.changes.Accepts P row id ∧
      (σ commit.tid).stage.final = some (row, id) := by
  rw [h.sound.inboundWal, List.mem_flatMap] at hrow
  obtain ⟨commit, hc, hrow⟩ := hrow
  rcases h.wal commit hc with hnone | ⟨row', id, haccepts, hfinal⟩
  · simp [hnone.1] at hrow
  · rw [haccepts.inbound, List.mem_singleton] at hrow
    exact ⟨commit, hc, id, hrow ▸ haccepts, hrow ▸ hfinal⟩

/-- The rows of an accepting commit are in the tables. -/
theorem Accounted.rows_of (h : Accounted P w σ τ) {commit : Commit} (hc : commit ∈ w.db.wal)
    {row : InboundEvent} {id : UUID} (haccepts : commit.changes.Accepts P row id) :
    row ∈ w.db.inbound ∧ ∃ r ∈ w.db.outbox, r.outboxId = id ∧ r.identity = row.identity ∧
      ∃ r' ∈ commit.changes.inserts, r'.core = r.core := by
  constructor
  · rw [h.sound.inboundWal, List.mem_flatMap]
    exact ⟨commit, hc, by simp [haccepts.inbound]⟩
  · obtain ⟨r', hr', hid, hidentity⟩ := haccepts.inserts
    have hmem : r'.core ∈ w.db.outbox.map OutboxEvent.core := by
      rw [h.sound.outboxWal]
      exact List.mem_map_of_mem (List.mem_flatMap.mpr ⟨commit, hc, by simp [hr']⟩)
    obtain ⟨r, hr, hcore⟩ := List.mem_map.mp hmem
    refine ⟨r, hr, ?_, ?_, r', by simp [hr'], hcore.symm⟩
    · rw [OutboxEvent.outboxId_eq_of_core hcore, hid]
    · have hcore' := congrArg OutboxEvent.identity hcore
      exact hcore'.trans hidentity

/-- Two commits that store the same row are one. -/
theorem Accounted.commit_unique (h : Accounted P w σ τ) {a b : Commit} (ha : a ∈ w.db.wal)
    (hb : b ∈ w.db.wal) {row : InboundEvent} (hra : row ∈ a.changes.inbound)
    (hrb : row ∈ b.changes.inbound) : a = b := by
  have hnodup := h.sound.inboundNodup
  rw [h.sound.inboundWal, List.map_flatMap, List.nodup_flatMap] at hnodup
  have hsymm : Std.Symm
      (Function.onFun List.Disjoint fun a : Commit => a.changes.inbound.map (·.prHashKey)) :=
    ⟨fun _ _ hxy _ hx hy => hxy hy hx⟩
  by_contra hne
  have hdisjoint := hnodup.2.forall ha hb hne
  exact hdisjoint (List.mem_map_of_mem hra) (List.mem_map_of_mem hrb)

theorem Accounted.webhook_of_final (h : Accounted P w σ τ) {t : Nat} {p : InboundEvent × UUID}
    (hp : (σ t).stage.final = some p) : ∃ req, τ t = some (.webhook req) := by
  rcases h.webhook t with hs | hs | ⟨req, hreq⟩
  · simp [hs, Stage.final] at hp
  · simp [hs, Stage.final] at hp
  · exact ⟨req, (h.task t).symm.trans hreq⟩

end

/-- What a finished call stored follows from its result. -/
theorem WebhookPost.result {s : CallState} {res : Except Exn WebhookResult}
    (h : WebhookPost s res) {row : InboundEvent} {id : UUID}
    (hfinal : s.stage.final = some (row, id)) :
    res = .ok (.accepted row.correlationId row.eventId id) ∨ res = .error .cancelledError := by
  rcases res with exc | res
  · rcases h with rfl | hs
    · exact .inr rfl
    · simp [hs, Stage.final] at hfinal
  cases res with
  | accepted correlationId eventId outboxId =>
    obtain ⟨row', hs, hid, hcid⟩ := h
    simp only [hs, Stage.final, Option.some.injEq, Prod.mk.injEq] at hfinal
    obtain ⟨rfl, rfl⟩ := hfinal
    exact .inl (by rw [hid, hcid])
  | duplicate correlationId prHashKey detection => simp [h.1, Stage.final] at hfinal
  | ignored correlationId eventType =>
    have hs : s.stage = .outside := h
    simp [hs, Stage.final] at hfinal

/-- No two rows of `inbound_event` are of the same webhook. -/
theorem inboundKeys_nodup {P : Platform} {c : GatewayConfig} (h : Reachable P serviceTask c) :
    (c.world.db.inbound.map (·.prHashKey)).Nodup := by
  obtain ⟨σ, hinv, -⟩ := reachable_accounted h
  have hinv : Accounted P c.world σ c.taskOf := hinv
  exact hinv.sound.inboundNodup

/-- An accepted call has stored its row, and the message with it. -/
theorem rows_of_accepted {P : Platform} {c : GatewayConfig} (h : Reachable P serviceTask c) {t : Nat}
    {req : Request} {correlationId eventId outboxId : UUID}
    (hf : Finished c t (.webhook req) (.ok (.accepted correlationId eventId outboxId))) :
    ∃ row ∈ c.world.db.inbound, row.correlationId = correlationId ∧ row.eventId = eventId ∧
      ∃ r ∈ c.world.db.outbox, r.identity = row.identity ∧ r.outboxId = outboxId := by
  obtain ⟨σ, hinv, hconf⟩ := reachable_accounted h
  have hinv : Accounted P c.world σ c.taskOf := hinv
  have hpost : WebhookPost (σ t) (.ok (.accepted correlationId eventId outboxId)) :=
    hconf _ _ hf rfl
  obtain ⟨row, hstage, hid, hcid⟩ := hpost
  obtain ⟨commit, hc, -, haccepts⟩ := hinv.stored t row outboxId hstage
  obtain ⟨hrow, r, hr, hoid, hidentity, -⟩ := hinv.rows_of hc haccepts
  exact ⟨row, hrow, hcid, hid, r, hr, hidentity, hoid⟩

/-- Run `t` committed a row with this key. -/
def Committed (c : GatewayConfig) (t : Nat) (prHashKey : String) : Prop :=
  ∃ commit ∈ c.world.db.wal, commit.tid = t ∧
    ∃ row ∈ commit.changes.inbound, row ∈ c.world.db.inbound ∧ row.prHashKey = prHashKey

/-- Every duplicate verdict rests on a stored row. -/
structure NoWebhookLost (c : GatewayConfig) : Prop where
  cache : ∀ k v, c.world.redis (idempotencyKey k) = some v →
    ∃ row ∈ c.world.db.inbound, row.prHashKey = k
  duplicate : ∀ t req correlationId k detection,
    Finished c t (.webhook req) (.ok (.duplicate correlationId k detection)) →
    ∃ t' ≠ t, ∃ req', c.taskOf t' = some (.webhook req') ∧ Committed c t' k
  check : ∀ t k answer, Finished c t (.checkDuplicate k) (.ok answer) → answer.prHashKey = k ∧
    (answer.isDuplicate = true → ∃ row ∈ c.world.db.inbound, row.prHashKey = k) ∧
    (answer.isDuplicate = false →
      (⟨t, .selectByPrHashKey k, .ok none⟩ : Event) ∈ c.world.trace)
  failed : ∀ k, (∀ t, ¬Committed c t k) → ∀ t req correlationId detection,
    ¬Finished c t (.webhook req) (.ok (.duplicate correlationId k detection))

end VcsGateway
