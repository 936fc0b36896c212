import VcsGateway.Agreement
import VcsGateway.Attempts
import VcsGateway.Transparency

/-!
# A publisher that runs alone

What one turn of `OutboxPublisher.run` comes to, whatever the broker does, and how many turns
drain the outbox when it answers.
-/

namespace VcsGateway

open Async

variable {P : Platform} {t : Nat} {choose : World → Op → Choice} {w w₁ w' : World}

/-- The broker opens channels and finds exchanges. -/
structure Connects (choose : World → Op → Choice) : Prop where
  openChannel : ∀ w, ∃ u, choose w .openChannel = .fresh u
  getExchange : ∀ w ch name, choose w (.getExchange ch name) = .ok

section Batch

variable {certain : OutboxEvent → Prop} {w₀ : World} {tx : Tx} {self : Publisher}

/-! ### The rows of a batch -/

theorem lockRows_lone (hs : Spares choose) (hnodup : (w₀.db.outbox.map (·.outboxId)).Nodup)
    {rows : List OutboxEvent} (hrows : ∀ r ∈ rows, r ∈ w₀.db.outbox ∧ r.isDue w₀.clock = true)
    (limit : Nat) (hattached : w.Attached self) (h : Batching P certain t w₀ [] w tx) :
    Lone P t choose (fun r w' => r = .ok (rows.take limit) ∧ w'.Attached self ∧
        Batching P certain t w₀ [] w' tx) (lockRows limit (rows.map (·.outboxId))) w := by
  induction rows generalizing limit w with
  | nil => cases limit <;> exact Prog.attains_ret.mpr ⟨by simp, hattached, h⟩
  | cons row rows ih =>
    cases limit with
    | zero => exact Prog.attains_ret.mpr ⟨rfl, hattached, h⟩
    | succ limit =>
      obtain ⟨hrow, hdue⟩ := hrows row List.mem_cons_self
      have hversion := h.version hnodup hrow (by simp)
      rw [← h.now] at hdue
      have he : execOp P t .ok w (.lockDue row.outboxId) =
          some (.ok (some row), { w with db := w.db.lock t row.outboxId }) := by
        simp only [execOp, Database.execLockDue, Database.inTx, h.session, h.live, awaited, h.not_locked,
          hversion, hdue]
        rfl
      apply lone_await (hs.steady w (.lockDue row.outboxId) rfl) he
      have hlocked := h.lock row.outboxId (e := ⟨t, .lockDue row.outboxId, .ok (some row)⟩) rfl
      have hattached₁ : World.Attached self (World.record { w with db := w.db.lock t row.outboxId }
        ⟨t, .lockDue row.outboxId, .ok (some row)⟩) := hattached
      apply (ih (fun r hr => hrows r (List.mem_cons_of_mem row hr)) limit hattached₁ hlocked).bind
      · rintro rest w₂ ⟨hr, hattached₂, h₂⟩
        obtain rfl := Except.ok.inj hr
        exact Prog.attains_ret.mpr ⟨rfl, hattached₂, h₂⟩
      · rintro e w₂ ⟨hr, -⟩
        simp at hr

theorem Database.mem_due {db : Database} {now : Time} {r : OutboxEvent} :
    r ∈ db.due now ↔ r ∈ db.outbox ∧ r.isDue now = true := by
  unfold Database.due
  rw [List.mem_insertionSort, List.mem_filter]

theorem Database.due_nodup {db : Database} (h : (db.outbox.map (·.outboxId)).Nodup) (now : Time) :
    ((db.due now).map (·.outboxId)).Nodup := by
  unfold Database.due
  exact ((List.perm_insertionSort _ _).map _).nodup_iff.mpr (h.sublist (List.filter_sublist.map _))

/-- `_SELECT_DUE` takes the rows that have waited longest. -/
theorem selectDue_lone (hs : Spares choose) (hnodup : (w₀.db.outbox.map (·.outboxId)).Nodup)
    (limit : Nat) (hattached : w.Attached self) (hfresh : tx.changes = {})
    (h : Batching P certain t w₀ [] w tx) :
    Lone P t choose (fun r w' => r = .ok ((w₀.db.due w₀.clock).take limit) ∧ w'.Attached self ∧
        Batching P certain t w₀ [] w' tx) (selectDue limit) w := by
  have houtbox : w.db.outbox = w₀.db.outbox := congrArg Ledger.outbox h.within.ledger
  have happly : tx.changes.apply w.db.outbox = w₀.db.outbox := by
    rw [Changes.apply, hfresh, houtbox, List.append_nil,
      List.map_congr_left fun r _ => Changes.latest_of_writes rfl r, List.map_id']
  have he : execOp P t .ok w .dueScan = some (.ok ((w₀.db.due w₀.clock).map (·.outboxId)), w) := by
    simp only [execOp, Database.execDueScan, Database.inTx, h.session, h.live, happly, h.now]
    rfl
  apply lone_await (hs.steady w .dueScan rfl) he
  have hscanned := h.untouched (.record w ⟨t, .dueScan, .ok ((w₀.db.due w₀.clock).map (·.outboxId))⟩)
    ((taken_record w _).trans (List.append_nil _))
  exact lockRows_lone hs hnodup (fun r hr => Database.mem_due.mp hr) limit hattached hscanned

/-! ### The exchange -/

/-- `self` has an exchange, or the broker has raised. -/
def Acquired (P : Platform) (choose : World → Op → Choice) (certain : OutboxEvent → Prop) (t : Nat)
    (w₀ : World) (tx : Tx) (self : Publisher) (r : Except Exn Unit) (w' : World) : Prop :=
  Batching P certain t w₀ [] w' tx ∧
    ((r = .ok () ∧ (w'.publishers self.id).exchange ≠ none) ∨ ∃ n, r = .error (.fault n) ∧ ¬Connects choose)

theorem reacquire_lone (hs : Spares choose) (h : Batching P certain t w₀ [] w tx) :
    Lone P t choose (Acquired P choose certain t w₀ tx self) (reacquire self true) w := by
  rcases hs.openChannel w with ⟨u, hc⟩ | ⟨n, hc⟩
  · have he : u ∉ w.used → execOp P t (.fresh u) w .openChannel =
        some (.ok u, { w with used := u :: w.used, channels := u :: w.channels }) := by
      intro hu
      simp [execOp, execOpenChannel, World.takeFresh, hu, awaitedFresh]
    have hnone : u ∈ w.used → execOp P t (.fresh u) w .openChannel = none := by
      intro hu
      simp [execOp, execOpenChannel, World.takeFresh, hu]
    apply lone_fresh hc he hnone
    intro hu
    have hopened : w.Untouched (World.record { w with used := u :: w.used, channels := u :: w.channels }
        ⟨t, .openChannel, .ok u⟩) := ⟨rfl, rfl, rfl, rfl, fun _ hmem => List.mem_cons_of_mem u hmem⟩
    have h₁ := h.untouched hopened ((taken_record _ _).trans (List.append_nil _))
    generalize World.record { w with used := u :: w.used, channels := u :: w.channels }
      ⟨t, .openChannel, .ok u⟩ = w₁ at h₁
    apply setSelf_lone hs (.setChannel self.id (some u)) rfl rfl rfl
    intro w₂ hw₂ htaken₂ _
    have h₂ := h₁.untouched hw₂ htaken₂
    rcases hs.getExchange w₂ u self.exchangeName with hc | ⟨n, hc⟩
    · apply lone_await hc rfl
      have h₃ := h₂.untouched (.record w₂ ⟨t, .getExchange u self.exchangeName,
        .ok ⟨u, self.exchangeName⟩⟩) ((taken_record w₂ _).trans (List.append_nil _))
      apply setSelf_lone hs (.setExchange self.id (some ⟨u, self.exchangeName⟩)) rfl rfl rfl
      intro w₄ hw₄ htaken₄ hstate
      exact Prog.attains_ret.mpr ⟨h₃.untouched hw₄ htaken₄, .inl ⟨rfl, by simp [hstate]⟩⟩
    · apply lone_await hc rfl
      have h₃ := h₂.untouched (.record w₂ ⟨t, .getExchange u self.exchangeName, .error (.fault n)⟩)
        ((taken_record w₂ _).trans (List.append_nil _))
      refine Prog.attains_ret.mpr ⟨h₃, .inr ⟨n, rfl, ?_⟩⟩
      intro hup
      rw [hup.getExchange] at hc
      simp at hc
  · have he : execOp P t (.fault n) w .openChannel = some (.error (.fault n), w) := by
      simp [execOp, execOpenChannel, World.takeFresh, awaitedFresh]
    apply lone_await hc he
    have h₁ := h.untouched (.record w ⟨t, .openChannel, .error (.fault n)⟩)
      ((taken_record w _).trans (List.append_nil _))
    refine Prog.attains_ret.mpr ⟨h₁, .inr ⟨n, rfl, ?_⟩⟩
    intro hup
    obtain ⟨u, hu⟩ := hup.openChannel w
    rw [hu] at hc
    simp at hc

theorem currentExchange_lone (hs : Spares choose) (hexchange : (w.publishers self.id).exchange ≠ none)
    (h : Batching P certain t w₀ [] w tx) :
    Lone P t choose (fun r w' => (∃ ex, r = .ok ex) ∧ w'.Attached self ∧ Batching P certain t w₀ [] w' tx)
      (currentExchange self) w := by
  obtain ⟨ex, hex⟩ := Option.ne_none_iff_exists'.mp hexchange
  obtain ⟨state, hstate⟩ : ∃ state, w.publishers self.id = state := ⟨_, rfl⟩
  have he : execOp P t .ok w (.getSelf self.id) = some (.ok state, w) := by
    rw [← hstate]
    rfl
  rw [hstate] at hex
  obtain ⟨channel, exchange⟩ := state
  obtain rfl : exchange = some ex := hex
  apply lone_await (hs.steady w (.getSelf self.id) rfl) he
  have h₁ := h.untouched (.record w ⟨t, .getSelf self.id, .ok ⟨channel, some ex⟩⟩)
    ((taken_record w _).trans (List.append_nil _))
  exact Prog.attains_ret.mpr ⟨⟨ex, rfl⟩, fun _ => hexchange, h₁⟩

theorem ensureExchange_lone (hs : Spares choose) (hattached : w.Attached self)
    (h : Batching P certain t w₀ [] w tx) :
    Lone P t choose (fun r w' => Batching P certain t w₀ [] w' tx ∧
        (((∃ ex, r = .ok ex) ∧ w'.Attached self) ∨ ∃ n, r = .error (.fault n) ∧ ¬Connects choose))
      (ensureExchange self) w := by
  have hfinish : ∀ w', Batching P certain t w₀ [] w' tx → (w'.publishers self.id).exchange ≠ none →
      Lone P t choose (fun r w' => Batching P certain t w₀ [] w' tx ∧
        (((∃ ex, r = .ok ex) ∧ w'.Attached self) ∨ ∃ n, r = .error (.fault n) ∧ ¬Connects choose))
        (currentExchange self) w' := by
    intro w' h' hexchange
    apply (currentExchange_lone hs hexchange h').mono
    rintro r w₂ ⟨hex, hattached₂, h₂⟩
    exact ⟨h₂, .inl ⟨hex, hattached₂⟩⟩
  have hreopen : ∀ w', Batching P certain t w₀ [] w' tx →
      Lone P t choose (fun r w' => Batching P certain t w₀ [] w' tx ∧
        (((∃ ex, r = .ok ex) ∧ w'.Attached self) ∨ ∃ n, r = .error (.fault n) ∧ ¬Connects choose))
        (reacquire self true >>= fun _ => currentExchange self) w' := by
    intro w' h'
    apply (reacquire_lone hs h').bind
    · rintro u w₂ ⟨h₂, ⟨-, hexchange⟩ | ⟨n, hr, -⟩⟩
      · exact hfinish w₂ h₂ hexchange
      · simp at hr
    · rintro e w₂ ⟨h₂, ⟨hr, -⟩ | ⟨n, hr, hdown⟩⟩
      · simp at hr
      · exact ⟨h₂, .inr ⟨n, by simpa using hr, hdown⟩⟩
  have he : execOp P t .ok w (.getSelf self.id) = some (.ok (w.publishers self.id), w) := rfl
  apply lone_await (hs.steady w (.getSelf self.id) rfl) he
  have h₁ := h.untouched (.record w ⟨t, .getSelf self.id, .ok (w.publishers self.id)⟩)
    ((taken_record w _).trans (List.append_nil _))
  have hattached₁ : World.Attached self (w.record ⟨t, .getSelf self.id, .ok (w.publishers self.id)⟩) :=
    hattached
  have hstate : (w.record ⟨t, .getSelf self.id, .ok (w.publishers self.id)⟩).publishers self.id =
      w.publishers self.id := rfl
  generalize w.publishers self.id = state at h₁ hattached₁ hstate ⊢
  generalize w.record ⟨t, .getSelf self.id, .ok state⟩ = w₁ at h₁ hattached₁ hstate ⊢
  obtain ⟨channel, exchange⟩ := state
  cases channel with
  | none => exact hreopen w₁ h₁
  | some ch =>
    have he₁ : execOp P t .ok w₁ (.isClosed ch) = some (.ok (decide (ch ∉ w₁.channels)), w₁) := rfl
    apply lone_await (hs.steady w₁ (.isClosed ch) rfl) he₁
    have h₂ := h₁.untouched (.record w₁ ⟨t, .isClosed ch, .ok (decide (ch ∉ w₁.channels))⟩)
      ((taken_record w₁ _).trans (List.append_nil _))
    have hexchange : (w₁.publishers self.id).exchange ≠ none := hattached₁ (by simp [hstate])
    generalize decide (ch ∉ w₁.channels) = closed at h₂ ⊢
    cases closed with
    | true => exact hreopen _ h₂
    | false => exact hfinish _ h₂ hexchange

/-! ### The batch -/

theorem next_due (hnodup : (w₀.db.outbox.map (·.outboxId)).Nodup) {limit : Nat} {rows : List OutboxEvent}
    {row : OutboxEvent} (h : rows ++ [row] <+: (w₀.db.due w₀.clock).take limit) : Next w₀ rows row := by
  have hrow : row ∈ w₀.db.due w₀.clock := List.mem_of_mem_take (h.subset (by simp))
  obtain ⟨hstored, hdue⟩ := Database.mem_due.mp hrow
  have hids : ((rows ++ [row]).map (·.outboxId)).Nodup :=
    (Database.due_nodup hnodup w₀.clock).sublist ((h.sublist.trans (List.take_sublist ..)).map _)
  refine ⟨hstored, ?_, ?_, hnodup⟩
  · simp only [OutboxEvent.isDue, Bool.and_eq_true, decide_eq_true_eq] at hdue
    exact hdue.1
  · rw [List.map_append, List.nodup_append] at hids
    intro hmem
    exact hids.2.2 _ hmem row.outboxId (by simp) rfl

/-- The batch is through, or the broker has raised before its first row. -/
def Batched (P : Platform) (choose : World → Op → Choice) (certain : OutboxEvent → Prop) (t : Nat)
    (w₀ : World) (self : Publisher) (r : Except Exn Unit) (w' : World) : Prop :=
  (r = .ok () ∧ w'.Attached self ∧
      ∃ tx, Batching P certain t w₀ ((w₀.db.due w₀.clock).take self.batchSize) w' tx) ∨
    ∃ n, r = .error (.fault n) ∧ ¬Connects choose ∧ ∃ tx, Batching P certain t w₀ [] w' tx

theorem batchBody_lone (hs : Spares choose) (hcertain : Certain P choose certain)
    (hnodup : (w₀.db.outbox.map (·.outboxId)).Nodup) (hattached : w.Attached self)
    (hfresh : tx.changes = {}) (h : Batching P certain t w₀ [] w tx) :
    Lone P t choose (Batched P choose certain t w₀ self) (batchBody P self) w := by
  apply (selectDue_lone hs hnodup self.batchSize hattached hfresh h).bind
  · rintro rows w₁ ⟨hr, hattached₁, h₁⟩
    obtain rfl := Except.ok.inj hr
    generalize hrows : (w₀.db.due w₀.clock).take self.batchSize = rows
    by_cases hempty : rows.isEmpty = true
    · rw [if_pos hempty]
      obtain rfl := List.isEmpty_iff.mp hempty
      exact Prog.attains_ret.mpr (.inl ⟨rfl, hattached₁, tx, hrows ▸ h₁⟩)
    · rw [if_neg hempty]
      apply (ensureExchange_lone hs hattached₁ h₁).bind
      · rintro ex w₂ ⟨h₂, ⟨-, hattached₂⟩ | ⟨n, hr, -⟩⟩
        · apply Prog.Attains.forEach
            (fun rows w' => w'.Attached self ∧ ∃ tx, Batching P certain t w₀ rows w' tx)
            ⟨hattached₂, tx, h₂⟩
          · rintro done row w₃ hprefix ⟨hattached₃, tx₃, h₃⟩
            apply (processRow_lone hs hcertain (next_due hnodup (hrows ▸ hprefix)) hattached₃ h₃).mono
            rintro r w₄ ⟨rfl, hattached₄, hbatching⟩
            exact .inl ⟨rfl, hattached₄, hbatching⟩
          · rintro w₃ ⟨hattached₃, hbatching⟩
            exact .inl ⟨rfl, hattached₃, hrows ▸ hbatching⟩
        · simp at hr
      · rintro e w₂ ⟨h₂, ⟨⟨ex, hr⟩, -⟩ | ⟨n, hr, hdown⟩⟩
        · simp at hr
        · exact .inr ⟨n, by simpa using hr, hdown, tx, h₂⟩
  · rintro e w₁ ⟨hr, -⟩
    simp at hr

/-! ### The turn -/

/-- No row is locked, and `t` may begin a transaction. -/
structure World.Idle (t : Nat) (w : World) : Prop where
  free : w.db.Free t
  unlocked : ∀ id, w.db.rowLock id = none
  distinct : (w.db.outbox.map (·.outboxId)).Nodup

/-- A turn has attempted the `rows`, and `f` is what has become of each. -/
structure World.Turned (P : Platform) (certain : OutboxEvent → Prop) (t : Nat)
    (rows : List OutboxEvent) (f : OutboxEvent → OutboxEvent) (w w' : World) : Prop where
  ledger : w'.db.ledger = { w.db.ledger with outbox := w.db.outbox.map f }
  attempts : ∀ r ∈ rows, Attempt P certain w.clock w.appClock r (f r)
  others : ∀ r ∈ w.db.outbox, r ∉ rows → f r = r
  taken : w'.taken = w.taken ++
    ((rows.map f).filter fun v => v.status = .dispatched).map (·.outboxId)
  idle : w'.Idle t
  sessions : w'.db.sessions = w.db.sessions
  clock : w'.clock = w.clock
  appClock : w'.appClock = w.appClock

theorem Attempt.outboxId {now appNow : Time} {r r' : OutboxEvent} (h : Attempt P certain now appNow r r') :
    r'.outboxId = r.outboxId := by
  cases h with
  | dispatched => rfl
  | failed _ _ => rfl
  | retry _ _ => exact OutboxEvent.markRetry_outboxId ..

namespace Batching

variable {rows : List OutboxEvent}

theorem unlocked (h : Batching P certain t w₀ rows w tx) (id : UUID) :
    (w.db.close t).rowLock id = none := by
  simp only [Database.close]
  rcases hlock : w.db.rowLock id with _ | t'
  · rfl
  · rw [h.unshared id t' hlock, if_pos rfl]

theorem free (h : Batching P certain t w₀ rows w tx) (hfree : w₀.db.Free t) : (w.db.close t).Free t := by
  constructor
  · rw [h.within.sessions_close hfree]
    exact hfree.session
  · rw [h.within.keyLock_close hfree]
    exact hfree.keyLock

theorem latest_of_notMem (h : Batching P certain t w₀ rows w tx)
    (hnodup : (w₀.db.outbox.map (·.outboxId)).Nodup) (hrows : ∀ r ∈ rows, r ∈ w₀.db.outbox)
    {r : OutboxEvent} (hr : r ∈ w₀.db.outbox) (hnew : r ∉ rows) : tx.changes.latest r = r := by
  have hnone : tx.changes.writes.find? (fun v => v.outboxId = r.outboxId) = none := by
    apply List.find?_eq_none.mpr
    intro v hv heq
    obtain ⟨r', hr', hid⟩ := h.others v hv
    have hsame : r'.outboxId = r.outboxId := by
      rw [← hid]
      simpa using heq
    exact hnew (List.inj_on_of_nodup_map hnodup (hrows r' hr') hr hsame ▸ hr')
  rw [Changes.latest, hnone, Option.getD_none]

/-- The transaction of the batch is committed. -/
theorem committed (h : Batching P certain t w₀ rows w tx) (hidle : w₀.Idle t)
    (hrows : ∀ r ∈ rows, r ∈ w₀.db.outbox) {e : Event} (he : e.taken = none) :
    World.Turned P certain t rows tx.changes.latest w₀
      (World.record { w with db := w.db.install t tx } e) := by
  have htenants : w.db.tenants = w₀.db.tenants := congrArg Ledger.tenants h.within.ledger
  have hwhitelist : w.db.whitelist = w₀.db.whitelist := congrArg Ledger.whitelist h.within.ledger
  have hinbound : w.db.inbound = w₀.db.inbound := congrArg Ledger.inbound h.within.ledger
  have houtbox : w.db.outbox = w₀.db.outbox := congrArg Ledger.outbox h.within.ledger
  have happly : tx.changes.apply w.db.outbox = w₀.db.outbox.map tx.changes.latest := by
    rw [Changes.apply, h.inserts, List.append_nil, houtbox]
  have hid : ∀ r ∈ w₀.db.outbox, (tx.changes.latest r).outboxId = r.outboxId := by
    intro r hr
    by_cases hmem : r ∈ rows
    · exact (h.attempts r hmem).outboxId
    · rw [h.latest_of_notMem hidle.distinct hrows hr hmem]
  refine ⟨?_, h.attempts, fun r hr hnew => h.latest_of_notMem hidle.distinct hrows hr hnew, ?_,
    ⟨⟨(h.free hidle.free).session, (h.free hidle.free).keyLock⟩, h.unlocked, ?_⟩,
    h.within.sessions_close hidle.free, h.within.clock, h.within.appClock⟩
  · change (⟨w.db.tenants, w.db.whitelist, w.db.inbound ++ tx.changes.inbound,
      tx.changes.apply w.db.outbox⟩ : Ledger) = _
    rw [happly, htenants, hwhitelist, hinbound, h.inbound, List.append_nil]
    rfl
  · rw [taken_record, he]
    exact (List.append_nil _).trans h.taken
  · change ((tx.changes.apply w.db.outbox).map (·.outboxId)).Nodup
    have hids : (w₀.db.outbox.map tx.changes.latest).map (·.outboxId) = w₀.db.outbox.map (·.outboxId) := by
      rw [List.map_map]
      exact List.map_congr_left hid
    rw [happly, hids]
    exact hidle.distinct

/-- The transaction of the batch is given up before its first row. -/
theorem rolledBack (h : Batching P certain t w₀ [] w tx) (hidle : w₀.Idle t) {e : Event}
    (he : e.taken = none) : World.Turned P certain t [] (fun r => r) w₀
      (World.record { w with db := w.db.discard t } e) := by
  have houtbox : w.db.outbox = w₀.db.outbox := congrArg Ledger.outbox h.within.ledger
  refine ⟨?_, by simp, fun _ _ _ => rfl, ?_,
    ⟨⟨(h.free hidle.free).session, (h.free hidle.free).keyLock⟩, h.unlocked, ?_⟩,
    h.within.sessions_close hidle.free, h.within.clock, h.within.appClock⟩
  · rw [List.map_id']
    exact h.within.ledger
  · rw [taken_record, he]
    exact (List.append_nil _).trans h.taken
  · change (w.db.outbox.map (·.outboxId)).Nodup
    rw [houtbox]
    exact hidle.distinct

end Batching

theorem World.Turned.reset {rows : List OutboxEvent} {f : OutboxEvent → OutboxEvent}
    (h : World.Turned P certain t rows f w₀ w) (hw : w.Untouched w₁) (htaken : w₁.taken = w.taken) :
    World.Turned P certain t rows f w₀ w₁ where
  ledger := hw.db ▸ h.ledger
  attempts := h.attempts
  others := h.others
  taken := htaken.trans h.taken
  idle := ⟨hw.db ▸ h.idle.free, hw.db ▸ h.idle.unlocked, hw.db ▸ h.idle.distinct⟩
  sessions := hw.db ▸ h.sessions
  clock := hw.clock.trans h.clock
  appClock := hw.appClock.trans h.appClock

/-- What a turn comes to: the first rows that are due are attempted, or there is no exchange. -/
def TurnEnds (P : Platform) (choose : World → Op → Choice) (certain : OutboxEvent → Prop) (t : Nat)
    (self : Publisher) (w : World) (r : Except Exn Bool) (w' : World) : Prop :=
  r = .ok false ∧ w'.Attached self ∧ ∃ rows f, World.Turned P certain t rows f w w' ∧
    (rows = (w.db.due w.clock).take self.batchSize ∨ rows = [] ∧ ¬Connects choose)

theorem processBatch_lone (hs : Spares choose) (hcertain : Certain P choose certain) (hidle : w.Idle t)
    (hattached : w.Attached self) :
    Lone P t choose (fun r w' => ∃ rows f, World.Turned P certain t rows f w w' ∧
        ((r = .ok () ∧ w'.Attached self ∧ rows = (w.db.due w.clock).take self.batchSize) ∨
          ∃ n, r = .error (.fault n) ∧ rows = [] ∧ ¬Connects choose)) (processBatch P self) w := by
  have hbegin : execOp P t .ok w .begin =
      some (.ok (), { w with db := w.db.setSession t { now := w.clock } }) := by
    simp only [execOp, Database.execBegin, hidle.free.session]
    rfl
  apply lone_await (hs.steady w .begin rfl) hbegin
  have hopen : Batching P certain t w [] (World.record
      { w with db := w.db.setSession t { now := w.clock } } ⟨t, .begin, .ok ()⟩) { now := w.clock } := by
    refine ⟨.setSession w t _ _, ?_, Database.setSession_sessions_self .., rfl, rfl, rfl, rfl, by simp,
      by simp, taken_record w ⟨t, .begin, .ok ()⟩⟩
    intro id t' hlock
    have hlock : w.db.rowLock id = some t' := hlock
    simp [hidle.unlocked id] at hlock
  have hopened : World.Attached self (World.record
      { w with db := w.db.setSession t { now := w.clock } } ⟨t, .begin, .ok ()⟩) := hattached
  apply (batchBody_lone hs hcertain hidle.distinct hopened rfl hopen).andThen
  rintro r w₁ (⟨rfl, hattached₁, tx, h₁⟩ | ⟨n, rfl, hdown, tx, h₁⟩)
  · have hcommit : execOp P t .ok w₁ .commit = some (.ok (), { w₁ with db := w₁.db.install t tx }) := by
      simp only [execOp, Database.execCommit, h₁.session, Database.settle, h₁.live]
      rfl
    apply lone_await (hs.steady w₁ .commit rfl) hcommit
    have hrows : ∀ r ∈ (w.db.due w.clock).take self.batchSize, r ∈ w.db.outbox :=
      fun r hr => (Database.mem_due.mp (List.mem_of_mem_take hr)).1
    have hturned := h₁.committed hidle hrows (e := ⟨t, .commit, .ok ()⟩) rfl
    exact Prog.attains_ret.mpr ⟨_, _, hturned, .inl ⟨rfl, hattached₁, rfl⟩⟩
  · have hrollback : execOp P t .ok w₁ .rollback = some (.ok (), { w₁ with db := w₁.db.discard t }) := by
      simp only [execOp, Database.execRollback, h₁.session]
      rfl
    apply lone_await (hs.steady w₁ .rollback rfl) hrollback
    have hturned := h₁.rolledBack hidle (e := ⟨t, .rollback, .ok ()⟩) rfl
    exact Prog.attains_ret.mpr ⟨_, _, hturned, .inr ⟨n, rfl, rfl, hdown⟩⟩

/-- One turn of `run`, whatever the broker does. -/
theorem runOnce_lone (hs : Spares choose) (hcertain : Certain P choose certain) (hidle : w.Idle t)
    (hattached : w.Attached self) :
    Lone P t choose (TurnEnds P choose certain t self w) (runOnce P self) w := by
  apply (processBatch_lone hs hcertain hidle hattached).andThen
  rintro r w₁ ⟨rows, f, hturned, ⟨rfl, hattached₁, hrows⟩ | ⟨n, rfl, hrows, hdown⟩⟩
  · exact Prog.attains_ret.mpr ⟨rfl, hattached₁, rows, f, hturned, .inl hrows⟩
  · apply reset_lone hs self
    intro w₂ hw₂ htaken hattached₂
    exact Prog.attains_ret.mpr ⟨rfl, hattached₂, rows, f, hturned.reset hw₂ htaken, .inr ⟨hrows, hdown⟩⟩

end Batch

/-! ### The rows that are left -/

section Sorted

variable {α : Type} (le : α → α → Prop) [DecidableRel le]

theorem orderedInsert_below {a : α} {l : List α} (h : ∀ b ∈ l, le a b) : l.orderedInsert le a = a :: l := by
  cases l with
  | nil => rfl
  | cons b l => simp [h b List.mem_cons_self]

variable [IsTrans α le] [Std.Total le] (p : α → Bool)

omit [Std.Total le] in
theorem filter_orderedInsert (a : α) {l : List α} (h : l.Pairwise le) :
    (l.orderedInsert le a).filter p =
      if p a then (l.filter p).orderedInsert le a else l.filter p := by
  induction l with
  | nil => cases ha : p a <;> simp [ha]
  | cons b l ih =>
    obtain ⟨hb, hl⟩ := List.pairwise_cons.mp h
    by_cases hab : le a b
    · -- `a` goes first, also among what is kept
      have hbelow : ∀ x ∈ (b :: l).filter p, le a x := by
        intro x hx
        rcases List.mem_cons.mp (List.mem_of_mem_filter hx) with rfl | hx
        · exact hab
        · exact trans_of le hab (hb x hx)
      rw [List.orderedInsert_cons, if_pos hab, List.filter_cons, orderedInsert_below le hbelow]
    · rw [List.orderedInsert_cons, if_neg hab, List.filter_cons, ih hl]
      cases hpb : p b <;> cases hpa : p a <;> simp [hpb, hab]

/-- The sort is stable: it does not matter when elements are dropped. -/
theorem filter_insertionSort (l : List α) : (l.insertionSort le).filter p = (l.filter p).insertionSort le := by
  induction l with
  | nil => rfl
  | cons a l ih =>
    rw [List.insertionSort_cons, filter_orderedInsert le p a (List.pairwise_insertionSort le l), ih]
    cases hpa : p a <;> simp [hpa]

end Sorted

/-- Without its first elements a list without repetitions is the rest. -/
theorem filter_notMem_take {α κ : Type} [DecidableEq κ] (key : α → κ) {l : List α} (h : (l.map key).Nodup)
    (n : Nat) : l.filter (fun x => key x ∉ (l.take n).map key) = l.drop n := by
  induction l generalizing n with
  | nil => simp
  | cons a l ih =>
    obtain ⟨ha, hl⟩ := List.nodup_cons.mp h
    cases n with
    | zero => simp
    | succ n =>
      rw [List.drop_succ_cons, ← ih hl n, List.filter_cons, if_neg (by simp)]
      apply List.filter_congr
      intro x hx
      have hne : key x ≠ key a := fun heq => ha (heq ▸ List.mem_map_of_mem hx)
      simp [hne]

/-- What has become of a row when the `rows` have been published. -/
def sent (rows : List OutboxEvent) (now : Time) (r : OutboxEvent) : OutboxEvent :=
  if r.outboxId ∈ rows.map (·.outboxId) then r.markDispatched now else r

theorem sent_append {rows rows' : List OutboxEvent} (now : Time) (r : OutboxEvent)
    (h : ((rows ++ rows').map (·.outboxId)).Nodup) :
    sent rows' now (sent rows now r) = sent (rows ++ rows') now r := by
  rw [List.map_append, List.nodup_append] at h
  unfold sent
  by_cases hr : r.outboxId ∈ rows.map (·.outboxId)
  · have hnot : (r.markDispatched now).outboxId ∉ rows'.map (·.outboxId) :=
      fun hr' => h.2.2 _ hr _ hr' rfl
    have hboth : r.outboxId ∈ (rows ++ rows').map (·.outboxId) := by
      rw [List.map_append]
      exact List.mem_append_left _ hr
    rw [if_pos hr, if_pos hboth, if_neg hnot]
  · rw [if_neg hr, List.map_append]
    simp [hr]

theorem sent_due {db : Database} {now : Time} (h : (db.outbox.map (·.outboxId)).Nodup)
    {r : OutboxEvent} (hr : r ∈ db.outbox) :
    sent (db.due now) now r = if r.isDue now then r.markDispatched now else r := by
  unfold sent
  by_cases hdue : r.isDue now = true
  · have hmem : r ∈ db.due now := Database.mem_due.mpr ⟨hr, hdue⟩
    rw [if_pos (List.mem_map_of_mem hmem), if_pos hdue]
  · have hid : r.outboxId ∉ (db.due now).map (·.outboxId) := by
      intro hmem
      obtain ⟨r', hr', heq⟩ := List.mem_map.mp hmem
      have hstored := Database.mem_due.mp hr'
      obtain rfl := List.inj_on_of_nodup_map h hstored.1 hr heq
      exact hdue hstored.2
    rw [if_neg hid, if_neg hdue]

theorem Database.due_of_sent {db db' : Database} {now : Time} (h : (db.outbox.map (·.outboxId)).Nodup)
    (n : Nat) (hdb : db'.outbox = db.outbox.map (sent ((db.due now).take n) now)) :
    db'.due now = (db.due now).drop n := by
  generalize hrows : (db.due now).take n = rows at hdb
  have hkept : ∀ l : List OutboxEvent, (l.map (sent rows now)).filter (·.isDue now) =
      (l.filter (·.isDue now)).filter fun r => r.outboxId ∉ rows.map (·.outboxId) := by
    intro l
    induction l with
    | nil => rfl
    | cons r l ih =>
      by_cases hr : r.outboxId ∈ rows.map (·.outboxId)
      · have hsent : sent rows now r = r.markDispatched now := if_pos hr
        have hdone : (r.markDispatched now).isDue now = false := rfl
        rw [List.map_cons, List.filter_cons, hsent, hdone, if_neg (by simp), ih, List.filter_filter,
          List.filter_filter, List.filter_cons, if_neg (by simp [hr])]
      · have hsent : sent rows now r = r := if_neg hr
        rw [List.map_cons, List.filter_cons, hsent, ih, List.filter_filter, List.filter_filter,
          List.filter_cons]
        simp [hr]
  have htrans : IsTrans OutboxEvent fun r r' => r.dispatchAt ≤ r'.dispatchAt := ⟨fun _ _ _ => Nat.le_trans⟩
  have htotal : Std.Total fun r r' : OutboxEvent => r.dispatchAt ≤ r'.dispatchAt :=
    ⟨fun r r' => Nat.le_total r.dispatchAt r'.dispatchAt⟩
  have hids := Database.due_nodup h now
  unfold Database.due at hrows hids ⊢
  rw [hdb, hkept, ← filter_insertionSort, ← hrows]
  exact filter_notMem_take OutboxEvent.outboxId hids n

/-! ### Turn after turn -/

/-- The first `n` turns of the loop of `run`. -/
def turns (P : Platform) (self : Publisher) : Nat → Coroutine Bool
  | 0 => pure false
  | n + 1 => do
    let stopped ← runOnce P self
    if stopped then pure true else turns P self n

/-- The `rows` have been published, one after the other, and nothing else has changed. -/
structure World.Drained (t : Nat) (rows : List OutboxEvent) (w w' : World) : Prop where
  ledger : w'.db.ledger = { w.db.ledger with outbox := w.db.outbox.map (sent rows w.clock) }
  taken : w'.taken = w.taken ++ rows.map (·.outboxId)
  idle : w'.Idle t
  sessions : w'.db.sessions = w.db.sessions
  clock : w'.clock = w.clock

section Turns

variable {certain : OutboxEvent → Prop} {self : Publisher}

theorem World.Turned.drained {rows : List OutboxEvent} {f : OutboxEvent → OutboxEvent}
    (h : World.Turned P certain t rows f w w') (hdistinct : (w.db.outbox.map (·.outboxId)).Nodup)
    (hrows : ∀ r ∈ rows, r ∈ w.db.outbox ∧ certain r) : World.Drained t rows w w' := by
  have hsent : ∀ r ∈ rows, f r = r.markDispatched w.clock := by
    intro r hr
    have hattempt := h.attempts r hr
    generalize f r = v at hattempt ⊢
    cases hattempt with
    | dispatched => rfl
    | failed hnot _ => exact absurd (hrows r hr).2 hnot
    | retry hnot _ => exact absurd (hrows r hr).2 hnot
  have hmap : w.db.outbox.map f = w.db.outbox.map (sent rows w.clock) := by
    apply List.map_congr_left
    intro r hr
    unfold sent
    by_cases hid : r.outboxId ∈ rows.map (·.outboxId)
    · obtain ⟨r', hr', heq⟩ := List.mem_map.mp hid
      obtain rfl := List.inj_on_of_nodup_map hdistinct (hrows r' hr').1 hr heq
      rw [if_pos hid, hsent _ hr']
    · have hnew : r ∉ rows := fun hmem => hid (List.mem_map_of_mem hmem)
      rw [if_neg hid, h.others r hr hnew]
  refine ⟨hmap ▸ h.ledger, ?_, h.idle, h.sessions, h.clock⟩
  · rw [h.taken, List.map_congr_left hsent, List.filter_eq_self.mpr, List.map_map]
    · rfl
    · intro v hv
      obtain ⟨r, -, rfl⟩ := List.mem_map.mp hv
      rfl

theorem World.Drained.refl (hidle : w.Idle t) : World.Drained t [] w w := by
  refine ⟨?_, by simp, hidle, rfl, rfl⟩
  have hid : w.db.outbox.map (sent [] w.clock) = w.db.outbox :=
    (List.map_congr_left fun r _ => if_neg (by simp)).trans (List.map_id' _)
  rw [hid]
  rfl

theorem World.Drained.trans {rows rows' : List OutboxEvent} {w₂ : World} (h : World.Drained t rows w w₁)
    (h' : World.Drained t rows' w₁ w₂) (hdistinct : ((rows ++ rows').map (·.outboxId)).Nodup) :
    World.Drained t (rows ++ rows') w w₂ where
  ledger := by
    have houtbox : w₁.db.outbox = w.db.outbox.map (sent rows w.clock) := congrArg Ledger.outbox h.ledger
    have hmap : (w.db.outbox.map (sent rows w.clock)).map (sent rows' w.clock) =
        w.db.outbox.map (sent (rows ++ rows') w.clock) := by
      rw [List.map_map]
      exact List.map_congr_left fun r _ => sent_append w.clock r hdistinct
    rw [h'.ledger, h.ledger, houtbox, h.clock, hmap]
  taken := by rw [h'.taken, h.taken, List.map_append, List.append_assoc]
  idle := h'.idle
  sessions := h'.sessions.trans h.sessions
  clock := h'.clock.trans h.clock

/-- `n` turns publish the first rows that are due. -/
theorem turns_lone (hs : Spares choose) (hup : Connects choose) (hcertain : Certain P choose certain)
    (n : Nat) (hidle : w.Idle t) (hattached : w.Attached self)
    (hdue : ∀ r ∈ w.db.due w.clock, certain r) :
    Lone P t choose (fun r w' => r = .ok false ∧
        World.Drained t ((w.db.due w.clock).take (n * self.batchSize)) w w') (turns P self n) w := by
  induction n generalizing w with
  | zero =>
    rw [Nat.zero_mul, List.take_zero]
    exact Prog.attains_ret.mpr ⟨rfl, .refl hidle⟩
  | succ n ih =>
    apply (runOnce_lone hs hcertain hidle hattached).bind
    · rintro stopped w₁ ⟨hr, hattached₁, rows, f, hturned, hrows | ⟨-, hdown⟩⟩
      · obtain rfl := Except.ok.inj hr
        subst hrows
        have hfirst := hturned.drained hidle.distinct fun r hr =>
          ⟨(Database.mem_due.mp (List.mem_of_mem_take hr)).1, hdue r (List.mem_of_mem_take hr)⟩
        -- what is due now is the rest of what was due before
        have hrest : w₁.db.due w₁.clock = (w.db.due w.clock).drop self.batchSize := by
          rw [hfirst.clock]
          exact Database.due_of_sent hidle.distinct _ (congrArg Ledger.outbox hfirst.ledger)
        have hsplit : (w.db.due w.clock).take ((n + 1) * self.batchSize) =
            (w.db.due w.clock).take self.batchSize ++
              (w₁.db.due w₁.clock).take (n * self.batchSize) := by
          rw [hrest, Nat.succ_mul, Nat.add_comm, List.take_add]
        have hdistinct : (((w.db.due w.clock).take ((n + 1) * self.batchSize)).map (·.outboxId)).Nodup :=
          (Database.due_nodup hidle.distinct w.clock).sublist ((List.take_sublist ..).map _)
        rw [hsplit] at hdistinct ⊢
        have hdue₁ : ∀ r ∈ w₁.db.due w₁.clock, certain r :=
          fun r hr => hdue r (List.mem_of_mem_drop (hrest ▸ hr))
        apply (ih hfirst.idle hattached₁ hdue₁).mono
        rintro r w₂ ⟨rfl, hsecond⟩
        exact ⟨rfl, hfirst.trans hsecond hdistinct⟩
      · exact absurd hup hdown
    · rintro e w₁ ⟨hr, -⟩
      simp at hr

end Turns

namespace Example

/-- The first webhook is stored, and its row becomes due. -/
def untilDue : List GatewayLabel :=
  solo (.webhook firstDelivery) freshChoices ++
    .step 0 (.fresh ⟨21⟩) :: ((Choice.ok :: Choice.ok :: emitChoices 22).map (.step 0) ++
      [.env (.tick (seconds 30))])

theorem due_run : ∃ c row, (gateway keeping).run initial untilDue = some c ∧
    c.world.db.outbox = [row] ∧ row.isDue c.world.clock = true ∧
    (∀ t, c.world.db.sessions t = none) ∧ c.world.publishers 0 = {} :=
  ⟨_, _, run_insertEvent rfl rfl rfl rfl (by decide) (keeping_row rfl rfl rfl rfl) rfl, rfl, rfl,
    fun t => by cases t <;> rfl, rfl⟩

theorem attached_of_fresh (h : w.publishers 0 = {}) : w.Attached publisher := by
  intro hchannel
  have hnone : (w.publishers publisher.id).channel = none := congrArg PublisherState.channel h
  exact absurd hnone hchannel

/-- The broker takes no message. -/
def refusing (w : World) : Op → Choice
  | .publish _ _ _ => .fault 0
  | op => answering w op

theorem refusing_spares : Spares refusing where
  steady w op hop := by cases op <;> simp_all [Op.steady, refusing, answering]
  redisGet w key := .inl rfl
  redisSetex w key ttl v := .inl rfl
  uuid4 w := ⟨_, rfl⟩
  insertEvent w e := ⟨_, rfl⟩
  openChannel w := .inl ⟨_, rfl⟩
  getExchange w ch name := .inl rfl
  publish w ex m key := .inr ⟨0, rfl⟩
  closeChannel w ch := .inl rfl

theorem answering_connects : Connects answering := ⟨fun _ => ⟨_, rfl⟩, fun _ _ _ => rfl⟩

end Example

/-! ### In every reachable state -/

section Reach

variable {c : GatewayConfig} {same : Json → Json → Prop} {self : Publisher}

theorem reachable_idle {allowed : Task → Prop} (h : Reachable P allowed c)
    (hclosed : ∀ t', c.world.db.sessions t' = none) (t : Nat) : c.world.Idle t := by
  have hreach : Reachable P (fun _ => True) c := by
    obtain ⟨tenants, whitelist, ls, -, hrun⟩ := h
    exact ⟨tenants, whitelist, ls, fun l _ => by cases l <;> exact trivial, hrun⟩
  obtain ⟨σ, hinv, -⟩ := reachable_delivered hreach
  have hinv : Delivered c.world σ c.taskOf := hinv
  refine ⟨⟨hclosed t, ?_⟩, ?_, hinv.sound.outboxNodup⟩
  · intro k hk
    obtain ⟨tx, htx⟩ := hinv.sound.keyLock k t hk
    simp [hclosed] at htx
  · intro id
    rcases hlock : c.world.db.rowLock id with _ | t'
    · rfl
    · obtain ⟨-, tx, htx⟩ := hinv.sound.rowLock id t' hlock
      simp [hclosed] at htx

/-- What `persist` has written can be decoded. -/
theorem reachable_deliverable (hP : P.Digests) (hjson : P.KeepsJson same) (h : Reachable P serviceTask c)
    {r : OutboxEvent} (hr : r ∈ c.world.db.outbox) : r.Deliverable P := by
  obtain ⟨t, args, now, row, hlogged, hrow, hcore⟩ := (reachable_every h).outbox r hr
  obtain ⟨req, correlationId, prData, -, -, -, hinserts⟩ := insert_of_call hP h hlogged rfl
  obtain ⟨eventId, timestamp, rawJson, hloads, rfl⟩ := hinserts
  obtain ⟨payload, headers, hpayload, hheaders, rfl⟩ := NewOutboxEvent.row_eq_some P hrow
  have hpayload' : r.payload = payload := congrArg OutboxEvent.payload hcore
  have hheaders' : r.headers = headers := congrArg OutboxEvent.headers hcore
  have hbuilt : P.Built (.dict [("correlation_id", .str correlationId.str)]) := by
    apply Platform.Built.dict
    · simp
    · simp only [List.forall_mem_singleton]
      exact .str _
  constructor
  · obtain ⟨text, j, hdecode, hj, -⟩ := written_read hjson hbuilt hheaders
    refine ⟨j, ?_⟩
    simp only [rowHeaders, hheaders', hdecode, hj]
  · obtain ⟨text, j, hdecode, -⟩ :=
      written_read hjson (message_built (loadsDict_built hjson hloads) rfl) hpayload
    refine ⟨text.toUTF8, ?_⟩
    simp only [rowPayload, hpayload', hdecode]

end Reach

end VcsGateway
