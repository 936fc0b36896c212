import VcsGateway.Ledger
import VcsGateway.Outbox

/-!
# One row of a batch

What one turn of `OutboxPublisher.run` comes to, whatever the broker does: the first rows that are
due are attempted once each, in their order.
-/

namespace VcsGateway

open Async

variable {P : Platform} {t : Nat} {choose : World → Op → Choice} {w w₁ w' : World}

/-- The rows that a batch at this time takes, if it can lock them all. -/
def Database.due (db : Database) (now : Time) : List OutboxEvent :=
  (db.outbox.filter (·.isDue now)).insertionSort fun r r' => r.dispatchAt ≤ r'.dispatchAt

/-- `json.loads` and `encode` have nothing to say against the row. -/
def OutboxEvent.Deliverable (P : Platform) (r : OutboxEvent) : Prop :=
  (∃ headers, rowHeaders P r = .ok headers) ∧ ∃ body, rowPayload P r = .ok body

/-- The delay before attempt `n + 1`. -/
def backoffSeconds (n : Nat) : Nat := min (30 * 2 ^ (n + 1)) maxBackoffSeconds

/-- What one attempt makes of a row; `certain` rows are delivered. -/
inductive Attempt (P : Platform) (certain : OutboxEvent → Prop) (now appNow : Time) (r : OutboxEvent) :
    OutboxEvent → Prop
  | dispatched : Attempt P certain now appNow r (r.markDispatched now)
  | failed {exc : Exn} : ¬certain r → r.retryCount + 1 ≥ r.maxRetries →
      Attempt P certain now appNow r (r.markFailed (P.excStr exc))
  | retry {exc : Exn} : ¬certain r → ¬r.retryCount + 1 ≥ r.maxRetries →
      Attempt P certain now appNow r
        (r.markRetry (P.excStr exc) (appNow + seconds (backoffSeconds r.retryCount)))

/-- The messages of the outbox that the broker has taken. -/
def Event.taken : Event → Option UUID
  | ⟨_, .publish _ m _, .ok _⟩ => m.source
  | _ => none

def World.taken (w : World) : List UUID := w.trace.filterMap Event.taken

/-- No transaction but the one of `t` holds the lock of a row. -/
def World.Unshared (t : Nat) (w : World) : Prop := ∀ id t', w.db.rowLock id = some t' → t' = t

/-! ### The batch -/

/-- The batch of `t` has attempted the `rows`; `w₀` is the world before it. -/
structure Batching (P : Platform) (certain : OutboxEvent → Prop) (t : Nat) (w₀ : World)
    (rows : List OutboxEvent) (w : World) (tx : Tx) : Prop where
  within : World.Within t w₀ w
  unshared : w.Unshared t
  session : w.db.sessions t = some tx
  live : tx.aborted = false
  now : tx.now = w₀.clock
  inbound : tx.changes.inbound = []
  inserts : tx.changes.inserts = []
  attempts : ∀ r ∈ rows, Attempt P certain w₀.clock w₀.appClock r (tx.changes.latest r)
  others : ∀ v ∈ tx.changes.writes, ∃ r ∈ rows, v.outboxId = r.outboxId
  taken : w.taken = w₀.taken ++
    ((rows.map tx.changes.latest).filter fun v => v.status = .dispatched).map (·.outboxId)

@[simp] theorem OutboxEvent.markRetry_outboxId (r : OutboxEvent) (msg : String) (at_ : Time) :
    (r.markRetry msg at_).outboxId = r.outboxId := rfl

@[simp] theorem OutboxEvent.markRetry_status (r : OutboxEvent) (msg : String) (at_ : Time) :
    (r.markRetry msg at_).status = r.status := rfl

theorem taken_record (w : World) (e : Event) : (w.record e).taken = w.taken ++ e.taken.toList := by
  unfold World.taken World.record
  rw [List.filterMap_append]
  rcases h : e.taken with _ | u <;> simp [h]

theorem latest_addWrite (tx : Tx) (v : OutboxEvent) (m : Mark) (r : OutboxEvent) :
    (tx.addWrite v m).changes.latest r = if v.outboxId = r.outboxId then v else tx.changes.latest r := by
  unfold Changes.latest Tx.addWrite
  by_cases heq : v.outboxId = r.outboxId
  · simp [heq]
  · simp [heq]

namespace Batching

variable {certain : OutboxEvent → Prop} {w₀ : World} {rows : List OutboxEvent} {tx : Tx}
  {row : OutboxEvent}

theorem untouched (h : Batching P certain t w₀ rows w tx) (hw : w.Untouched w₁)
    (htaken : w₁.taken = w.taken) : Batching P certain t w₀ rows w₁ tx where
  within := h.within.trans hw.within
  unshared := by
    unfold World.Unshared
    rw [hw.db]
    exact h.unshared
  session := by
    rw [hw.db]
    exact h.session
  live := h.live
  now := h.now
  inbound := h.inbound
  inserts := h.inserts
  attempts := h.attempts
  others := h.others
  taken := htaken.trans h.taken

/-- A savepoint is set or released. -/
theorem resave (h : Batching P certain t w₀ rows w tx) (saved : List Changes) {e : Event}
    (he : e.taken = none) : Batching P certain t w₀ rows
      (World.record { w with db := w.db.setSession t { tx with saved } } e) { tx with saved } where
  within := h.within.trans (.setSession w t _ e)
  unshared := h.unshared
  session := Database.setSession_sessions_self ..
  live := h.live
  now := h.now
  inbound := h.inbound
  inserts := h.inserts
  attempts := h.attempts
  others := h.others
  taken := by
    rw [taken_record, he]
    exact (List.append_nil _).trans h.taken

/-- A row is locked. -/
theorem lock (h : Batching P certain t w₀ rows w tx) (id : UUID) {e : Event} (he : e.taken = none) :
    Batching P certain t w₀ rows (World.record { w with db := w.db.lock t id } e) tx where
  within := h.within.trans ⟨rfl, fun _ _ => rfl, fun _ => .inl rfl, rfl, rfl, rfl, fun _ hu => hu⟩
  unshared := by
    intro id' t' hlock
    change Function.update w.db.rowLock id (some t) id' = some t' at hlock
    by_cases heq : id' = id
    · rw [heq, Function.update_self] at hlock
      exact (Option.some.inj hlock).symm
    · rw [Function.update_of_ne heq] at hlock
      exact h.unshared id' t' hlock
  session := h.session
  live := h.live
  now := h.now
  inbound := h.inbound
  inserts := h.inserts
  attempts := h.attempts
  others := h.others
  taken := by
    rw [taken_record, he]
    exact (List.append_nil _).trans h.taken

theorem not_locked (h : Batching P certain t w₀ rows w tx) (id : UUID) :
    w.db.lockedByOther t id = false := by
  unfold Database.lockedByOther
  rcases hlock : w.db.rowLock id with _ | t'
  · rfl
  · simp [h.unshared id t' hlock]

/-- The newest version of a row that has not been attempted is the stored one. -/
theorem version (h : Batching P certain t w₀ rows w tx) (hnodup : (w₀.db.outbox.map (·.outboxId)).Nodup)
    (hrow : row ∈ w₀.db.outbox) (hnew : row.outboxId ∉ rows.map (·.outboxId)) :
    tx.changes.version w.db.outbox row.outboxId = some row := by
  have houtbox : w.db.outbox = w₀.db.outbox := congrArg Ledger.outbox h.within.ledger
  have hwrites : tx.changes.writes.find? (fun r => r.outboxId = row.outboxId) = none := by
    apply List.find?_eq_none.mpr
    intro v hv
    obtain ⟨r, hr, heq⟩ := h.others v hv
    have hne : r.outboxId ≠ row.outboxId := by
      intro hid
      exact hnew (List.mem_map.mpr ⟨r, hr, hid⟩)
    simpa [heq] using hne
  unfold Changes.version
  rw [h.inserts, List.append_nil, List.find?_append, hwrites, houtbox, Option.none_or]
  rcases hfind : w₀.db.outbox.find? (fun r => r.outboxId = row.outboxId) with _ | r
  · have hnone := List.find?_eq_none.mp hfind row hrow
    simp at hnone
  · have hmem := List.mem_of_find?_eq_some hfind
    have hid : r.outboxId = row.outboxId := by simpa using List.find?_some hfind
    rw [hfind, List.inj_on_of_nodup_map hnodup hmem hrow hid]

/-- The row is updated; `w₁` is the world after the attempt. -/
theorem write (h : Batching P certain t w₀ rows w tx) (hw : w.Untouched w₁)
    (hnew : row.outboxId ∉ rows.map (·.outboxId)) {v : OutboxEvent} (hv : v.outboxId = row.outboxId)
    (hattempt : Attempt P certain w₀.clock w₀.appClock row v)
    (htaken : w₁.taken = w.taken ++ if v.status = .dispatched then [row.outboxId] else [])
    (m : Mark) {e : Event} (he : e.taken = none) :
    Batching P certain t w₀ (rows ++ [row]) (World.record { w₁ with db := w₁.db.write t tx v m } e)
      (tx.addWrite v m) := by
  have hold : ∀ r ∈ rows, (tx.addWrite v m).changes.latest r = tx.changes.latest r := by
    intro r hr
    rw [latest_addWrite, if_neg]
    intro heq
    exact hnew (List.mem_map.mpr ⟨r, hr, heq.symm.trans hv⟩)
  have hlatest : (tx.addWrite v m).changes.latest row = v := by
    rw [latest_addWrite, if_pos hv]
  have hsilent : w.Untouched { w₁ with trace := w.trace } :=
    ⟨hw.db, hw.redis, hw.clock, hw.appClock, hw.used⟩
  have hlocked := (h.untouched hsilent rfl).lock v.outboxId he
  refine ⟨?_, hlocked.unshared, Database.setSession_sessions_self .., h.live, h.now, h.inbound,
    h.inserts, ?_, ?_, ?_⟩
  · apply (h.within.trans hw.within).trans
    exact ⟨rfl, fun _ hne => Database.setSession_sessions_of_ne hne, fun _ => .inl rfl, rfl, rfl, rfl,
      fun _ hu => hu⟩
  · intro r hr
    rcases List.mem_append.mp hr with hr | hr
    · rw [hold r hr]
      exact h.attempts r hr
    · obtain rfl := List.mem_singleton.mp hr
      rw [hlatest]
      exact hattempt
  · intro v' hv'
    rcases List.mem_cons.mp hv' with rfl | hv'
    · exact ⟨row, by simp, hv⟩
    · obtain ⟨r, hr, heq⟩ := h.others v' hv'
      exact ⟨r, List.mem_append_left _ hr, heq⟩
  · rw [taken_record, he, List.map_append, List.map_congr_left hold]
    change w₁.taken ++ [] = _
    rw [List.append_nil, htaken, h.taken]
    by_cases hstatus : v.status = .dispatched <;> simp [hlatest, hstatus, hv]

end Batching

/-! ### One row -/

section Row

variable {certain : OutboxEvent → Prop} {w₀ : World} {rows : List OutboxEvent} {tx : Tx}
  {row : OutboxEvent} {self : Publisher} {ex : Exchange}

/-- `self` has an exchange whenever it has a channel. -/
def World.Attached (self : Publisher) (w : World) : Prop :=
  (w.publishers self.id).channel ≠ none → (w.publishers self.id).exchange ≠ none

/-- The broker takes the messages of the row. -/
def Takes (choose : World → Op → Choice) (r : OutboxEvent) : Prop :=
  ∀ w ex m key, m.source = some r.outboxId → choose w (.publish ex m key) = .ok

/-- What is certain to be delivered can be decoded, and the broker takes it. -/
structure Certain (P : Platform) (choose : World → Op → Choice) (certain : OutboxEvent → Prop) : Prop where
  deliverable : ∀ r, certain r → r.Deliverable P
  taken : ∀ r, certain r → Takes choose r

/-- `row` is the next row of the batch. -/
structure Next (w₀ : World) (rows : List OutboxEvent) (row : OutboxEvent) : Prop where
  stored : row ∈ w₀.db.outbox
  scheduled : row.status = .scheduled
  new : row.outboxId ∉ rows.map (·.outboxId)
  nodup : (w₀.db.outbox.map (·.outboxId)).Nodup

theorem Batching.mark (h : Batching P certain t w₀ rows w tx) (hnext : Next w₀ rows row) (m : Mark)
    (set : Tx → OutboxEvent → OutboxEvent) : w.db.execMark t .ok row.outboxId m set =
      some (.ok (), w.db.write t tx (set tx row) m) := by
  have hversion := h.version hnext.nodup hnext.stored hnext.new
  simp only [Database.execMark, Database.inTx, h.session, h.live, awaited, h.not_locked, hversion]
  rfl

theorem rowHeaders_error {e : Exn} (h : rowHeaders P row = .error e) : e ≠ .cancelledError := by
  unfold rowHeaders at h
  split at h
  · split at h
    · obtain rfl := Except.error.inj h
      simp
    · simp at h
  · obtain rfl := Except.error.inj h
    simp

theorem rowPayload_error {e : Exn} (h : rowPayload P row = .error e) : e ≠ .cancelledError := by
  unfold rowPayload at h
  split at h
  · simp at h
  · obtain rfl := Except.error.inj h
    simp

/-- The row is delivered, or nothing of it is done. -/
def Tried (P : Platform) (certain : OutboxEvent → Prop) (t : Nat) (w₀ : World)
    (rows : List OutboxEvent) (row : OutboxEvent) (tx : Tx) (self : Publisher) (r : Except Exn Unit)
    (w' : World) : Prop :=
  w'.Attached self ∧ ((r = .ok () ∧ ∃ tx', Batching P certain t w₀ (rows ++ [row]) w' tx') ∨
    ∃ exc, r = .error exc ∧ exc ≠ .cancelledError ∧ ¬certain row ∧ Batching P certain t w₀ rows w' tx)

theorem publishRow_lone (hs : Spares choose) (hcertain : Certain P choose certain)
    (hnext : Next w₀ rows row) (hattached : w.Attached self) (h : Batching P certain t w₀ rows w tx) :
    Lone P t choose (Tried P certain t w₀ rows row tx self) (publishRow P ex row) w := by
  apply Prog.Attains.ofExcept_bind
  · intro headers hheaders
    apply Prog.Attains.ofExcept_bind
    · intro body hbody
      generalize hm : ({ body, headers, source := some row.outboxId } : Message) = m
      rcases hs.publish w ex m row.eventType with hc | ⟨n, hc⟩
      · have he : execOp P t .ok w (.publish ex m row.eventType) = some (.ok (), w) := rfl
        apply lone_await hc he
        generalize hw₁ : w.record ⟨t, .publish ex m row.eventType, .ok ()⟩ = w₁
        have huntouched : w.Untouched w₁ := hw₁ ▸ .record w _
        have hattached₁ : w₁.Attached self := hw₁ ▸ hattached
        have htaken : w₁.taken = w.taken ++ [row.outboxId] := by
          rw [← hw₁, taken_record, ← hm]
          rfl
        have htx : w₁.db = w.db := huntouched.db
        have he₁ : execOp P t .ok w₁ (.markDispatched row.outboxId) =
            some (.ok (), { w₁ with db := w₁.db.write t tx (row.markDispatched tx.now) .dispatched }) := by
          simp only [execOp, htx, h.mark hnext .dispatched fun tx r => r.markDispatched tx.now]
          rfl
        apply lone_await (hs.steady w₁ (.markDispatched row.outboxId) rfl) he₁
        have hattempt : Attempt P certain w₀.clock w₀.appClock row (row.markDispatched tx.now) := by
          rw [h.now]
          exact .dispatched
        have hwrite := h.write huntouched hnext.new (v := row.markDispatched tx.now) rfl hattempt
          htaken .dispatched (e := ⟨t, .markDispatched row.outboxId, .ok ()⟩) rfl
        exact Prog.attains_ret.mpr ⟨hattached₁, .inl ⟨rfl, _, hwrite⟩⟩
      · have he : execOp P t (.fault n) w (.publish ex m row.eventType) = some (.error (.fault n), w) := rfl
        apply lone_await hc he
        have hnot : ¬certain row := by
          intro hcert
          rw [hcertain.taken row hcert w ex m row.eventType (by rw [← hm])] at hc
          simp at hc
        have hrest := h.untouched (.record w ⟨t, .publish ex m row.eventType, .error (.fault n)⟩)
          ((taken_record w _).trans (List.append_nil _))
        exact Prog.attains_ret.mpr ⟨hattached, .inr ⟨.fault n, rfl, by simp, hnot, hrest⟩⟩
    · intro e hbody
      have hnot : ¬certain row := by
        intro hcert
        obtain ⟨-, body, hok⟩ := hcertain.deliverable row hcert
        simp [hok] at hbody
      exact ⟨hattached, .inr ⟨e, rfl, rowPayload_error hbody, hnot, h⟩⟩
  · intro e hheaders
    have hnot : ¬certain row := by
      intro hcert
      obtain ⟨⟨headers, hok⟩, -⟩ := hcertain.deliverable row hcert
      simp [hok] at hheaders
    exact ⟨hattached, .inr ⟨e, rfl, rowHeaders_error hheaders, hnot, h⟩⟩

/-- The attempt is over, and the savepoint is still there. -/
def Done (P : Platform) (certain : OutboxEvent → Prop) (t : Nat) (w₀ : World)
    (rows : List OutboxEvent) (self : Publisher) (r : Except Exn Unit) (w' : World) : Prop :=
  r = .ok () ∧ w'.Attached self ∧ ∃ tx, Batching P certain t w₀ rows w' tx

theorem markFailure_lone (hs : Spares choose) (hnext : Next w₀ rows row) {exc : Exn}
    (hnot : ¬certain row) (h : Batching P certain t w₀ rows w tx) :
    Lone P t choose (fun r w' => r = .ok () ∧ w'.publishers = w.publishers ∧
        ∃ tx', Batching P certain t w₀ (rows ++ [row]) w' tx')
      (markFailure P row exc) w := by
  unfold markFailure
  by_cases hlast : row.retryCount + 1 ≥ row.maxRetries
  · rw [if_pos hlast]
    have he : execOp P t .ok w (.markFailed row.outboxId (P.excStr exc)) =
        some (.ok (), { w with db := w.db.write t tx (row.markFailed (P.excStr exc)) .failed }) := by
      simp only [execOp, h.mark hnext .failed fun _ r => r.markFailed (P.excStr exc)]
      rfl
    apply lone_await (hs.steady w (.markFailed row.outboxId (P.excStr exc)) rfl) he
    have hwrite := h.write (.refl w) hnext.new (v := row.markFailed (P.excStr exc)) rfl
      (.failed hnot hlast) (List.append_nil _).symm .failed
      (e := ⟨t, .markFailed row.outboxId (P.excStr exc), .ok ()⟩) rfl
    exact Prog.attains_ret.mpr ⟨rfl, rfl, _, hwrite⟩
  · rw [if_neg hlast]
    have hretry : Attempt P certain w₀.clock w₀.appClock row (row.markRetry (P.excStr exc)
        (w₀.appClock + seconds (backoffSeconds row.retryCount))) := .retry hnot hlast
    unfold backoffSeconds at hretry
    generalize min (30 * 2 ^ (row.retryCount + 1)) maxBackoffSeconds = backoff at hretry ⊢
    have hnow : execOp P t .ok w .utcnow = some (.ok w.appClock, w) := rfl
    apply lone_await (hs.steady w .utcnow rfl) hnow
    generalize hw₁ : w.record ⟨t, .utcnow, .ok w.appClock⟩ = w₁
    have huntouched : w.Untouched w₁ := hw₁ ▸ .record w _
    have htaken : w₁.taken = w.taken := by
      rw [← hw₁, taken_record]
      exact List.append_nil _
    generalize hat : w.appClock + seconds backoff = at_
    have he : execOp P t .ok w₁ (.markRetry row.outboxId (P.excStr exc) at_) =
        some (.ok (), { w₁ with db := w₁.db.write t tx (row.markRetry (P.excStr exc) at_) .retry }) := by
      simp only [execOp, huntouched.db, h.mark hnext .retry fun _ r => r.markRetry (P.excStr exc) at_]
      rfl
    have hattempt : Attempt P certain w₀.clock w₀.appClock row (row.markRetry (P.excStr exc) at_) := by
      rw [← hat, h.within.appClock]
      exact hretry
    have hstatus : (row.markRetry (P.excStr exc) at_).status = .scheduled := by
      rw [OutboxEvent.markRetry_status, hnext.scheduled]
    have hnone : w₁.taken = w.taken ++
        if (row.markRetry (P.excStr exc) at_).status = .dispatched then [row.outboxId] else [] := by
      rw [htaken, hstatus, if_neg (by decide), List.append_nil]
    have hwrite := h.write huntouched hnext.new (OutboxEvent.markRetry_outboxId row _ at_) hattempt
      hnone .retry (e := ⟨t, .markRetry row.outboxId (P.excStr exc) at_, .ok ()⟩) rfl
    have hperform : Lone P t choose (fun r w' => r = .ok () ∧ w'.publishers = w.publishers ∧
        ∃ tx', Batching P certain t w₀ (rows ++ [row]) w' tx')
        (perform (.markRetry row.outboxId (P.excStr exc) at_)) w₁ := by
      apply lone_await (hs.steady w₁ (.markRetry row.outboxId (P.excStr exc) at_) rfl) he
      refine Prog.attains_ret.mpr ⟨rfl, ?_, _, hwrite⟩
      rw [← hw₁]
      rfl
    rw [← hat] at hperform
    exact hperform

/-- The attributes of a publisher are its own. -/
theorem setSelf_lone (hs : Spares choose) (op : Op) {self : Publisher} {state : PublisherState}
    {a : Except Exn op.Ret} (hop : op.steady = true) (hw : execOp P t .ok w op =
      some (a, { w with publishers := Function.update w.publishers self.id state }))
    {α : Type} {Q : Except Exn α → World → Prop} {k : Except Exn op.Ret → Coroutine α}
    (htaken : Event.taken ⟨t, op, a⟩ = none)
    (h : ∀ w₁, w.Untouched w₁ → w₁.taken = w.taken → w₁.publishers self.id = state →
      Lone P t choose Q (k a) w₁) : Lone P t choose Q (.await op k) w := by
  apply lone_await (hs.steady w op hop) hw
  apply h
  · exact ⟨rfl, rfl, rfl, rfl, fun _ hu => hu⟩
  · rw [taken_record, htaken]
    exact List.append_nil _
  · exact Function.update_self ..

/-- `self._channel = None; self._exchange = None`. -/
theorem reset_lone (hs : Spares choose) (self : Publisher) {α : Type} {Q : Except Exn α → World → Prop}
    {k : Except Exn Unit → Coroutine α} (h : ∀ w₁, w.Untouched w₁ → w₁.taken = w.taken →
      w₁.Attached self → Lone P t choose Q (k (.ok ())) w₁) :
    Lone P t choose Q (.await (.setChannel self.id none)
      (Prog.onOk fun _ => .await (.setExchange self.id none) k)) w := by
  apply setSelf_lone hs (.setChannel self.id none) rfl rfl rfl
  intro w₁ hw₁ htaken₁ hstate₁
  apply setSelf_lone hs (.setExchange self.id none) rfl rfl rfl
  intro w₂ hw₂ htaken₂ hstate₂
  apply h w₂ (hw₁.trans hw₂) (htaken₂.trans htaken₁)
  intro hchannel
  rw [hstate₂, hstate₁] at hchannel
  exact absurd rfl hchannel

theorem recordFailure_lone (hs : Spares choose) (hnext : Next w₀ rows row) {exc : Exn}
    (hnot : ¬certain row) (h : Batching P certain t w₀ rows w tx) :
    Lone P t choose (Done P certain t w₀ (rows ++ [row]) self) (recordFailure P self row exc) w := by
  apply (markFailure_lone hs hnext hnot h).andThen
  rintro r w₁ ⟨rfl, -, tx₁, h₁⟩
  apply reset_lone (k := .ret) hs self
  intro w₂ hw₂ htaken hattached
  exact Prog.attains_ret.mpr ⟨rfl, hattached, tx₁, h₁.untouched hw₂ htaken⟩

theorem processRow_lone (hs : Spares choose) (hcertain : Certain P choose certain)
    (hnext : Next w₀ rows row) (hattached : w.Attached self) (h : Batching P certain t w₀ rows w tx) :
    Lone P t choose (Done P certain t w₀ (rows ++ [row]) self) (processRow P self ex row) w := by
  have hsavepoint : execOp P t .ok w .savepoint =
      some (.ok (), { w with db := w.db.setSession t { tx with saved := tx.changes :: tx.saved } }) := by
    simp only [execOp, Database.execSavepoint, Database.inTx, h.session, h.live]
    rfl
  apply lone_await (hs.steady w .savepoint rfl) hsavepoint
  have h₁ := h.resave (tx.changes :: tx.saved) (e := ⟨t, .savepoint, .ok ()⟩) rfl
  have hattached₁ : World.Attached self (World.record
      { w with db := w.db.setSession t { tx with saved := tx.changes :: tx.saved } }
      ⟨t, .savepoint, .ok ()⟩) := hattached
  generalize World.record { w with db := w.db.setSession t { tx with saved := tx.changes :: tx.saved } }
    ⟨t, .savepoint, .ok ()⟩ = w₁ at h₁ hattached₁
  have hattempted : Lone P t choose (Done P certain t w₀ (rows ++ [row]) self)
      (exceptException (publishRow P ex row) (recordFailure P self row)) w₁ := by
    apply (publishRow_lone hs hcertain hnext hattached₁ h₁).andThen
    rintro r w₂ ⟨hattached₂, ⟨rfl, tx₂, h₂⟩ | ⟨exc, rfl, hexc, hnot, h₂⟩⟩
    · exact Prog.attains_ret.mpr ⟨rfl, hattached₂, tx₂, h₂⟩
    · have hrecord := @recordFailure_lone P t choose w₂ certain w₀ rows _ row self hs hnext exc hnot h₂
      cases exc with
      | cancelledError => exact absurd rfl hexc
      | _ => exact hrecord
  apply hattempted.andThen
  rintro r w₂ ⟨rfl, hattached₂, tx₂, h₂⟩
  have hrelease : execOp P t .ok w₂ .release =
      some (.ok (), { w₂ with db := w₂.db.setSession t { tx₂ with saved := tx₂.saved.tail } }) := by
    simp only [execOp, Database.execRelease, Database.inTx, h₂.session, h₂.live]
    rfl
  apply lone_await (hs.steady w₂ .release rfl) hrelease
  exact Prog.attains_ret.mpr ⟨rfl, hattached₂, _, h₂.resave _ rfl⟩

end Row

end VcsGateway
