import VcsGateway.Moves

/-!
# The storage invariant

What holds of the database in every reachable state, whatever the programs are: the
tables are what the write-ahead log says, identifiers and idempotency keys are unique,
and what an open transaction has written is under its locks.
-/

namespace VcsGateway

open Async

theorem OutboxEvent.outboxId_eq_of_core {r r' : OutboxEvent} (h : r.core = r'.core) :
    r.outboxId = r'.outboxId :=
  congrArg (·.outboxId) h

namespace Database

/-- What is known of the changes `ch` of the open transaction `t`. -/
structure Pending (db : Database) (t : Nat) (ch : Changes) : Prop where
  insertsLocked : ∀ r ∈ ch.inserts, db.rowLock r.outboxId = some t
  insertsNew : ∀ r ∈ ch.inserts, ∀ b ∈ db.outbox, b.outboxId ≠ r.outboxId
  insertsNodup : (ch.inserts.map (·.outboxId)).Nodup
  writesLocked : ∀ v ∈ ch.writes, db.rowLock v.outboxId = some t
  writesBase : ∀ v ∈ ch.writes, ∃ b ∈ db.outbox ++ ch.inserts, v.core = b.core
  inboundLocked : ∀ i ∈ ch.inbound, db.keyLock i.prHashKey = some t
  inboundNew : ∀ i ∈ ch.inbound, ∀ b ∈ db.inbound, b.prHashKey ≠ i.prHashKey
  inboundNodup : (ch.inbound.map (·.prHashKey)).Nodup

/-- The storage invariant; `used` are the identifiers handed out so far. -/
structure Storage (db : Database) (used : List UUID) : Prop where
  outboxUsed : ∀ r ∈ db.outbox, r.outboxId ∈ used
  outboxNodup : (db.outbox.map (·.outboxId)).Nodup
  inboundNodup : (db.inbound.map (·.prHashKey)).Nodup
  inboundWal : db.inbound = db.wal.flatMap (·.changes.inbound)
  outboxWal : db.outbox.map OutboxEvent.core =
    (db.wal.flatMap (·.changes.inserts)).map OutboxEvent.core
  rowLock : ∀ id t, db.rowLock id = some t → id ∈ used ∧ ∃ tx, db.sessions t = some tx
  keyLock : ∀ k t, db.keyLock k = some t → ∃ tx, db.sessions t = some tx
  pending : ∀ t tx, db.sessions t = some tx → ∀ ch ∈ tx.changes :: tx.saved, db.Pending t ch

theorem Storage.initial (tenants : UUID → Option Tenant) (whitelist : List VcsEventWhitelist) :
    Storage { tenants, whitelist } [] where
  outboxUsed := by simp
  outboxNodup := by simp
  inboundNodup := by simp
  inboundWal := rfl
  outboxWal := rfl
  rowLock := by simp
  keyLock := by simp
  pending := by simp

variable {db db' : Database} {t t' : Nat} {ch : Changes} {used used' : List UUID}

theorem Pending.empty : db.Pending t {} := by
  constructor <;> simp

/-- What transaction `t` knows survives a step that takes none of its locks and
    commits nothing under them. -/
theorem Pending.mono (h : db.Pending t ch)
    (hrow : ∀ id, db.rowLock id = some t → db'.rowLock id = some t)
    (hkey : ∀ k, db.keyLock k = some t → db'.keyLock k = some t)
    (hcore : ∀ b ∈ db.outbox, ∃ b' ∈ db'.outbox, b'.core = b.core)
    (hid : ∀ b' ∈ db'.outbox,
      (∃ b ∈ db.outbox, b.outboxId = b'.outboxId) ∨ db.rowLock b'.outboxId ≠ some t)
    (hin : ∀ i' ∈ db'.inbound, i' ∈ db.inbound ∨ db.keyLock i'.prHashKey ≠ some t) :
    db'.Pending t ch where
  insertsLocked r hr := hrow _ (h.insertsLocked r hr)
  insertsNew r hr b' hb' heq := by
    rcases hid b' hb' with ⟨b, hb, hbid⟩ | hne
    · exact h.insertsNew r hr b hb (hbid.trans heq)
    · exact hne (heq ▸ h.insertsLocked r hr)
  insertsNodup := h.insertsNodup
  writesLocked v hv := hrow _ (h.writesLocked v hv)
  writesBase v hv := by
    obtain ⟨b, hb, hvb⟩ := h.writesBase v hv
    rcases List.mem_append.mp hb with hb | hb
    · obtain ⟨b', hb', heq⟩ := hcore b hb
      exact ⟨b', List.mem_append_left _ hb', hvb.trans heq.symm⟩
    · exact ⟨b, List.mem_append_right _ hb, hvb⟩
  inboundLocked i hi := hkey _ (h.inboundLocked i hi)
  inboundNew i hi b' hb' heq := by
    rcases hin b' hb' with hb | hne
    · exact h.inboundNew i hi b' hb heq
    · exact hne (heq ▸ h.inboundLocked i hi)
  inboundNodup := h.inboundNodup

/-- The same when the tables did not change. -/
theorem Pending.mono_locks (h : db.Pending t ch)
    (hrow : ∀ id, db.rowLock id = some t → db'.rowLock id = some t)
    (hkey : ∀ k, db.keyLock k = some t → db'.keyLock k = some t)
    (hout : db'.outbox = db.outbox) (hin : db'.inbound = db.inbound) : db'.Pending t ch := by
  refine h.mono hrow hkey ?_ ?_ ?_
  · intro b hb
    exact ⟨b, hout ▸ hb, rfl⟩
  · intro b hb
    exact .inl ⟨b, hout ▸ hb, rfl⟩
  · intro i hi
    exact .inl (hin ▸ hi)

/-! ### Versions -/

theorem Pending.ids_nodup (h : db.Pending t ch) (hs : db.Storage used) :
    ((db.outbox ++ ch.inserts).map (·.outboxId)).Nodup := by
  rw [List.map_append, List.nodup_append]
  refine ⟨hs.outboxNodup, h.insertsNodup, ?_⟩
  intro a ha b hb heq
  obtain ⟨x, hx, rfl⟩ := List.mem_map.mp ha
  obtain ⟨y, hy, rfl⟩ := List.mem_map.mp hb
  exact h.insertsNew y hy x hx heq

theorem Pending.latest_core (h : db.Pending t ch) (hs : db.Storage used) {r : OutboxEvent}
    (hr : r ∈ db.outbox ++ ch.inserts) : (ch.latest r).core = r.core := by
  unfold Changes.latest
  rcases hf : ch.writes.find? fun v => v.outboxId = r.outboxId with _ | v
  · rw [hf, Option.getD_none]
  · have hv : v.outboxId = r.outboxId := by simpa using List.find?_some hf
    obtain ⟨b, hb, hvb⟩ := h.writesBase v (List.mem_of_find?_eq_some hf)
    have hbr : b = r :=
      List.inj_on_of_nodup_map (h.ids_nodup hs) hb hr
        ((OutboxEvent.outboxId_eq_of_core hvb).symm.trans hv)
    rw [hf, Option.getD_some, hvb, hbr]

theorem Pending.apply_core (h : db.Pending t ch) (hs : db.Storage used) :
    (ch.apply db.outbox).map OutboxEvent.core = (db.outbox ++ ch.inserts).map OutboxEvent.core := by
  unfold Changes.apply
  rw [List.map_map]
  exact List.map_congr_left fun r hr => h.latest_core hs hr

theorem map_outboxId (rows : List OutboxEvent) :
    rows.map (·.outboxId) = (rows.map OutboxEvent.core).map (·.outboxId) := by
  rw [List.map_map]; rfl

theorem Pending.apply_ids (h : db.Pending t ch) (hs : db.Storage used) :
    (ch.apply db.outbox).map (·.outboxId) = (db.outbox ++ ch.inserts).map (·.outboxId) := by
  rw [map_outboxId, h.apply_core hs, ← map_outboxId]

/-- A version that a transaction sees is an identified row of its own or of the table. -/
theorem Pending.version_base (h : db.Pending t ch) {id : UUID} {r : OutboxEvent}
    (hv : ch.version db.outbox id = some r) :
    ∃ b ∈ db.outbox ++ ch.inserts, r.core = b.core := by
  have hr := (version_eq_some hv).2
  simp only [List.append_assoc, List.mem_append] at hr
  rcases hr with hr | hr | hr
  · exact h.writesBase r hr
  · exact ⟨r, List.mem_append_right _ hr, rfl⟩
  · exact ⟨r, List.mem_append_left _ hr, rfl⟩

theorem Storage.version_used (hs : db.Storage used) {tx : Tx} (ht : db.sessions t = some tx)
    {id : UUID} {r : OutboxEvent} (hv : tx.changes.version db.outbox id = some r) :
    id ∈ used := by
  have hp := hs.pending t tx ht tx.changes List.mem_cons_self
  obtain ⟨b, hb, hrb⟩ := hp.version_base hv
  have hid : id = b.outboxId :=
    (version_eq_some hv).1.symm.trans (OutboxEvent.outboxId_eq_of_core hrb)
  rcases List.mem_append.mp hb with hb | hb
  · exact hid ▸ hs.outboxUsed b hb
  · exact hid ▸ (hs.rowLock _ _ (hp.insertsLocked b hb)).1

/-! ### One step -/

/-- Only the session of `t` has to be looked at anew. -/
theorem Storage.pending_step (hs : db.Storage used)
    (hsess : ∀ t' ≠ t, db'.sessions t' = db.sessions t')
    (hother : ∀ t' ≠ t, ∀ ch, db.Pending t' ch → db'.Pending t' ch)
    (hself : ∀ tx, db'.sessions t = some tx → ∀ ch ∈ tx.changes :: tx.saved, db'.Pending t ch) :
    ∀ t' tx, db'.sessions t' = some tx → ∀ ch ∈ tx.changes :: tx.saved, db'.Pending t' ch := by
  intro t' tx htx ch hch
  by_cases heq : t' = t
  · subst heq; exact hself tx htx ch hch
  · rw [hsess t' heq] at htx
    exact hother t' heq ch (hs.pending t' tx htx ch hch)

theorem Storage.more_used (hs : db.Storage used) (h : used ⊆ used') : db.Storage used' :=
  { hs with
    outboxUsed := fun r hr => h (hs.outboxUsed r hr)
    rowLock := fun id t hl => ⟨h (hs.rowLock id t hl).1, (hs.rowLock id t hl).2⟩ }

/-- A change of the session of `t` alone. -/
theorem Storage.setSession (hs : db.Storage used) {tx' : Tx}
    (hself : ∀ ch ∈ tx'.changes :: tx'.saved, db.Pending t ch) :
    (db.setSession t tx').Storage used := by
  have hopen : ∀ t' tx, db.sessions t' = some tx →
      ∃ tx, (db.setSession t tx').sessions t' = some tx := by
    intro t' tx htx
    by_cases heq : t' = t
    · subst heq; exact ⟨tx', setSession_sessions_self tx'⟩
    · exact ⟨tx, (setSession_sessions_of_ne heq).trans htx⟩
  refine { hs with rowLock := ?_, keyLock := ?_, pending := ?_ }
  · intro id t' hl
    obtain ⟨hused, tx, htx⟩ := hs.rowLock id t' hl
    exact ⟨hused, hopen t' tx htx⟩
  · intro k t' hl
    obtain ⟨tx, htx⟩ := hs.keyLock k t' hl
    exact hopen t' tx htx
  · refine hs.pending_step (t := t) (fun t' hne => setSession_sessions_of_ne hne) ?_ ?_
    · intro t' _ ch hp
      exact hp.mono_locks (fun _ h => h) (fun _ h => h) rfl rfl
    · intro tx htx ch hch
      rw [setSession_sessions_self, Option.some.injEq] at htx
      subst htx
      exact (hself ch hch).mono_locks (fun _ h => h) (fun _ h => h) rfl rfl

theorem Storage.lock (hs : db.Storage used) {tx : Tx} (ht : db.sessions t = some tx) {id : UUID}
    (hfree : db.FreeFor t id) (hused : id ∈ used) : (db.lock t id).Storage used := by
  have hlock : ∀ t' id', db.rowLock id' = some t' → (db.lock t id).rowLock id' = some t' := by
    intro t' id' hl
    by_cases heq : id' = id
    · subst heq
      simp [Database.lock, hfree t' hl]
    · simp [Database.lock, heq, hl]
  refine { hs with rowLock := ?_, pending := ?_ }
  · intro id' t' hl
    by_cases heq : id' = id
    · subst heq
      obtain rfl : t = t' := by simpa [Database.lock] using hl
      exact ⟨hused, tx, ht⟩
    · exact hs.rowLock id' t' (by simpa [Database.lock, heq] using hl)
  · intro t' tx' htx' ch hch
    exact (hs.pending t' tx' htx' ch hch).mono_locks (hlock t') (fun _ h => h) rfl rfl

/-- Locking a row before its new version is written is all that `write` adds. -/
theorem Storage.write (hs : db.Storage used) {tx : Tx} (ht : db.sessions t = some tx)
    {r v : OutboxEvent} {m : Mark} (hfree : db.FreeFor t v.outboxId)
    (hv : tx.changes.version db.outbox v.outboxId = some r) (hcore : v.core = r.core) :
    (db.write t tx v m).Storage used := by
  have hs' := hs.lock ht hfree (hs.version_used ht hv)
  refine hs'.setSession fun ch hch => ?_
  rcases List.mem_cons.mp hch with rfl | hch
  · have hp := hs'.pending t tx ht tx.changes List.mem_cons_self
    refine { hp with writesLocked := ?_, writesBase := ?_ }
    · intro x hx
      rcases List.mem_cons.mp hx with rfl | hx
      · simp [Database.lock]
      · exact hp.writesLocked x hx
    · intro x hx
      rcases List.mem_cons.mp hx with rfl | hx
      · obtain ⟨b, hb, hrb⟩ :=
          (hs.pending t tx ht tx.changes List.mem_cons_self).version_base hv
        exact ⟨b, hb, hcore.trans hrb⟩
      · exact hp.writesBase x hx
  · exact hs'.pending t tx ht ch (List.mem_cons_of_mem _ hch)

theorem Storage.addInbound (hs : db.Storage used) {tx : Tx} (ht : db.sessions t = some tx)
    {row : InboundEvent}
    (hnew : ∀ i ∈ db.inbound ++ tx.changes.inbound, i.prHashKey ≠ row.prHashKey)
    (hfree : db.keyLock row.prHashKey = none) : (db.addInbound t tx row).Storage used := by
  have hlock : ∀ t' k, db.keyLock k = some t' → (db.addInbound t tx row).keyLock k = some t' := by
    intro t' k hl
    have hne : k ≠ row.prHashKey := by
      rintro rfl
      simp [hfree] at hl
    simp [Database.addInbound, hne, hl]
  have hsess : ∀ t' ≠ t, (db.addInbound t tx row).sessions t' = db.sessions t' :=
    fun t' hne => setSession_sessions_of_ne hne
  have hopen : ∀ t' tx', db.sessions t' = some tx' →
      ∃ tx', (db.addInbound t tx row).sessions t' = some tx' := by
    intro t' tx' htx'
    by_cases heq : t' = t
    · subst heq; exact ⟨_, setSession_sessions_self _⟩
    · exact ⟨tx', (hsess t' heq).trans htx'⟩
  have hmono : ∀ t' ch, db.Pending t' ch → (db.addInbound t tx row).Pending t' ch :=
    fun t' ch hp => hp.mono_locks (fun _ h => h) (hlock t') rfl rfl
  refine { hs with rowLock := ?_, keyLock := ?_, pending := ?_ }
  · intro id t' hl
    obtain ⟨hused, tx', htx'⟩ := hs.rowLock id t' hl
    exact ⟨hused, hopen t' tx' htx'⟩
  · intro k t' hl
    by_cases heq : k = row.prHashKey
    · obtain rfl : t = t' := by simpa [Database.addInbound, heq] using hl
      exact ⟨_, setSession_sessions_self _⟩
    · obtain ⟨tx', htx'⟩ := hs.keyLock k t' (by simpa [Database.addInbound, heq] using hl)
      exact hopen t' tx' htx'
  · refine hs.pending_step hsess (fun t' _ ch hp => hmono t' ch hp) ?_
    intro tx' htx' ch hch
    obtain rfl := Option.some.inj ((setSession_sessions_self _).symm.trans htx')
    have hp := hmono t _ (hs.pending t tx ht tx.changes List.mem_cons_self)
    rcases List.mem_cons.mp hch with rfl | hch
    · refine { hp with inboundLocked := ?_, inboundNew := ?_, inboundNodup := ?_ }
      · intro i hi
        rcases List.mem_append.mp hi with hi | hi
        · exact hp.inboundLocked i hi
        · obtain rfl := List.mem_singleton.mp hi
          simp [Database.addInbound]
      · intro i hi b hb
        rcases List.mem_append.mp hi with hi | hi
        · exact hp.inboundNew i hi b hb
        · obtain rfl := List.mem_singleton.mp hi
          exact hnew b (List.mem_append_left _ hb)
      · rw [Tx.addInbound_inbound, List.map_append, List.nodup_append]
        refine ⟨hp.inboundNodup, by simp, ?_⟩
        intro a ha b hb heq
        obtain ⟨i, hi, rfl⟩ := List.mem_map.mp ha
        obtain rfl : b = row.prHashKey := by simpa using hb
        exact hnew i (List.mem_append_right _ hi) heq
    · exact hmono t _ (hs.pending t tx ht ch (List.mem_cons_of_mem _ hch))

theorem Storage.addOutbox (hs : db.Storage used) {tx : Tx} (ht : db.sessions t = some tx)
    {row : OutboxEvent} (hsub : used ⊆ used') (hfresh : row.outboxId ∉ used)
    (hused : row.outboxId ∈ used') : (db.addOutbox t tx row).Storage used' := by
  have hfree : db.FreeFor t row.outboxId :=
    fun t' hl => absurd (hs.rowLock _ t' hl).1 hfresh
  have hs' := (hs.more_used hsub).lock ht hfree hused
  refine hs'.setSession fun ch hch => ?_
  rcases List.mem_cons.mp hch with rfl | hch
  · have hp := hs'.pending t tx ht tx.changes List.mem_cons_self
    refine { hp with insertsLocked := ?_, insertsNew := ?_, insertsNodup := ?_, writesBase := ?_ }
    · intro r hr
      rcases List.mem_append.mp hr with hr | hr
      · exact hp.insertsLocked r hr
      · obtain rfl := List.mem_singleton.mp hr
        simp [Database.lock]
    · intro r hr b hb
      rcases List.mem_append.mp hr with hr | hr
      · exact hp.insertsNew r hr b hb
      · obtain rfl := List.mem_singleton.mp hr
        exact fun heq => hfresh (heq ▸ hs.outboxUsed b hb)
    · rw [Tx.addInsert_inserts, List.map_append, List.nodup_append]
      refine ⟨hp.insertsNodup, by simp, ?_⟩
      intro a ha b hb heq
      obtain ⟨r, hr, rfl⟩ := List.mem_map.mp ha
      obtain rfl : b = row.outboxId := by simpa using hb
      have hlocked := (hs.pending t tx ht tx.changes List.mem_cons_self).insertsLocked r hr
      exact hfresh (heq ▸ (hs.rowLock _ _ hlocked).1)
    · intro v hv
      obtain ⟨b, hb, hvb⟩ := hp.writesBase v hv
      exact ⟨b, by simp only [Tx.addInsert_inserts, List.mem_append] at hb ⊢; tauto, hvb⟩
  · exact hs'.pending t tx ht ch (List.mem_cons_of_mem _ hch)

theorem close_rowLock_of_ne {id : UUID} (hne : t' ≠ t) (h : db.rowLock id = some t') :
    (db.close t).rowLock id = some t' := by
  simp [Database.close, h, hne]

theorem close_keyLock_of_ne {k : String} (hne : t' ≠ t) (h : db.keyLock k = some t') :
    (db.close t).keyLock k = some t' := by
  simp [Database.close, h, hne]

theorem close_rowLock_eq_some {id : UUID} (h : (db.close t).rowLock id = some t') :
    db.rowLock id = some t' ∧ t' ≠ t := by
  simp only [Database.close] at h
  split at h
  · simp at h
  · next hne => exact ⟨h, fun heq => hne (heq ▸ h)⟩

theorem close_keyLock_eq_some {k : String} (h : (db.close t).keyLock k = some t') :
    db.keyLock k = some t' ∧ t' ≠ t := by
  simp only [Database.close] at h
  split at h
  · simp at h
  · next hne => exact ⟨h, fun heq => hne (heq ▸ h)⟩

theorem close_sessions_of_ne (hne : t' ≠ t) : (db.close t).sessions t' = db.sessions t' := by
  simp [Database.close, hne]

@[simp] theorem close_sessions_self : (db.close t).sessions t = none := by
  simp [Database.close]

@[simp] theorem settle_sessions_self (tx : Tx) : (db.settle t tx).sessions t = none := by
  unfold Database.settle
  split
  · exact close_sessions_self
  · exact close_sessions_self

theorem Storage.close (hs : db.Storage used) : (db.close t).Storage used := by
  refine { hs with rowLock := ?_, keyLock := ?_, pending := ?_ }
  · intro id t' hl
    obtain ⟨hl, hne⟩ := close_rowLock_eq_some hl
    obtain ⟨hused, tx, htx⟩ := hs.rowLock id t' hl
    exact ⟨hused, tx, (close_sessions_of_ne hne).trans htx⟩
  · intro k t' hl
    obtain ⟨hl, hne⟩ := close_keyLock_eq_some hl
    obtain ⟨tx, htx⟩ := hs.keyLock k t' hl
    exact ⟨tx, (close_sessions_of_ne hne).trans htx⟩
  · refine hs.pending_step (fun t' hne => close_sessions_of_ne hne) ?_ ?_
    · intro t' hne ch hp
      exact hp.mono_locks (fun _ h => close_rowLock_of_ne hne h)
        (fun _ h => close_keyLock_of_ne hne h) rfl rfl
    · intro tx htx
      simp at htx

theorem Storage.discard (hs : db.Storage used) : (db.discard t).Storage used :=
  { hs.close (t := t) with
    pending := fun t' tx htx ch hch =>
      ((hs.close (t := t)).pending t' tx htx ch hch).mono_locks (fun _ h => h) (fun _ h => h)
        rfl rfl }

/-- Committing moves the changes of `t` into the tables and into the log at once. -/
theorem Storage.install (hs : db.Storage used) {tx : Tx} (ht : db.sessions t = some tx) :
    (db.install t tx).Storage used := by
  have hp := hs.pending t tx ht tx.changes List.mem_cons_self
  have hids : (db.install t tx).outbox.map (·.outboxId) =
      (db.outbox ++ tx.changes.inserts).map (·.outboxId) := hp.apply_ids hs
  have hcores : (db.install t tx).outbox.map OutboxEvent.core =
      (db.outbox ++ tx.changes.inserts).map OutboxEvent.core := hp.apply_core hs
  refine {
    outboxUsed := ?_
    outboxNodup := ?_
    inboundNodup := ?_
    inboundWal := ?_
    outboxWal := ?_
    rowLock := (hs.close (t := t)).rowLock
    keyLock := (hs.close (t := t)).keyLock
    pending := ?_ }
  · intro r hr
    have hid : r.outboxId ∈ (db.install t tx).outbox.map (·.outboxId) :=
      List.mem_map_of_mem hr
    rw [hids, List.mem_map] at hid
    obtain ⟨b, hb, hbr⟩ := hid
    rcases List.mem_append.mp hb with hb | hb
    · exact hbr ▸ hs.outboxUsed b hb
    · exact hbr ▸ (hs.rowLock _ _ (hp.insertsLocked b hb)).1
  · rw [hids]
    exact hp.ids_nodup hs
  · change ((db.inbound ++ tx.changes.inbound).map (·.prHashKey)).Nodup
    rw [List.map_append, List.nodup_append]
    refine ⟨hs.inboundNodup, hp.inboundNodup, ?_⟩
    intro a ha b hb heq
    obtain ⟨x, hx, rfl⟩ := List.mem_map.mp ha
    obtain ⟨y, hy, rfl⟩ := List.mem_map.mp hb
    exact hp.inboundNew y hy x hx heq
  · change db.inbound ++ tx.changes.inbound = _
    simp [Database.install, hs.inboundWal]
  · rw [hcores, List.map_append, hs.outboxWal]
    simp [Database.install]
  · refine hs.pending_step (fun t' hne => close_sessions_of_ne hne) ?_ ?_
    · intro t' hne ch hp'
      refine hp'.mono (fun _ h => close_rowLock_of_ne hne h)
        (fun _ h => close_keyLock_of_ne hne h) ?_ ?_ ?_
      · intro b hb
        refine ⟨tx.changes.latest b, ?_, hp.latest_core hs (List.mem_append_left _ hb)⟩
        exact List.mem_map_of_mem (List.mem_append_left _ hb)
      · intro b' hb'
        have hid : b'.outboxId ∈ (db.install t tx).outbox.map (·.outboxId) :=
          List.mem_map_of_mem hb'
        rw [hids, List.mem_map] at hid
        obtain ⟨b, hb, hbid⟩ := hid
        rcases List.mem_append.mp hb with hb | hb
        · exact .inl ⟨b, hb, hbid⟩
        · refine .inr fun hl => hne ?_
          have hlocked := hp.insertsLocked b hb
          rw [hbid, hl] at hlocked
          exact Option.some.inj hlocked
      · intro i' hi'
        rcases List.mem_append.mp hi' with hi | hi
        · exact .inl hi
        · refine .inr fun hl => hne ?_
          have hlocked := hp.inboundLocked i' hi
          rw [hl] at hlocked
          exact Option.some.inj hlocked
    · intro tx' htx'
      simp [Database.install] at htx'

/-- **Every step keeps the storage invariant.** -/
theorem Storage.step (hs : db.Storage used) {P : Platform} {op : Op} {fresh : UUID → Prop}
    (h : Moves P op fresh t db db')
    (hsub : used ⊆ used') (hfresh : ∀ u, fresh u → u ∉ used ∧ u ∈ used') :
    db'.Storage used' := by
  cases h with
  | idle => exact hs.more_used hsub
  | opened now _ hnone =>
    refine (hs.more_used hsub).setSession fun ch hch => ?_
    obtain rfl : ch = {} := by simpa using hch
    exact .empty
  | kept tx tx' htx _ hsubset =>
    exact (hs.more_used hsub).setSession fun ch hch =>
      (hs.pending t tx htx ch (hsubset ch hch))
  | discarded tx htx => exact (hs.more_used hsub).discard
  | installed tx _ htx _ => exact (hs.more_used hsub).install htx
  | locked tx id r _ htx hfree hv _ =>
    exact (hs.more_used hsub).lock htx hfree (hsub (hs.version_used htx hv))
  | wrote tx r v m hw htx _ hfree hv => exact (hs.more_used hsub).write htx hfree hv hw.core_eq
  | insertedInbound tx e row _ _ htx hnew hlock =>
    exact (hs.more_used hsub).addInbound htx hnew hlock
  | insertedOutbox tx e row _ _ htx hf =>
    exact hs.addOutbox htx hsub (hfresh _ hf).1 (hfresh _ hf).2

end Database

/-- The storage invariant of a world. -/
def World.Sound (w : World) : Prop := w.db.Storage w.used

variable {P : Platform} {t : Nat} {c : Choice} {w w' : World}

theorem World.Sound.initial (tenants : UUID → Option Tenant)
    (whitelist : List VcsEventWhitelist) : (World.initial tenants whitelist).Sound :=
  Database.Storage.initial tenants whitelist

theorem World.Sound.execOp (hw : w.Sound) {op : Op} {r : Except Exn op.Ret}
    (h : execOp P t c w op = some (r, w')) : w'.Sound :=
  Database.Storage.step hw (execOp_moves h) (execOp_frame h).used fun _ hu => hu

theorem World.Sound.exec (hw : w.Sound) {op : Op} {r : Except Exn op.Ret}
    (h : VcsGateway.exec P t op c w = some (r, w')) : w'.Sound := by
  obtain ⟨w₁, h₁, rfl⟩ := exec_eq_some h
  have hw₁ : w₁.Sound := hw.execOp h₁
  exact hw₁

/-! ### Answers -/

/-- What the answer of an operation tells, whatever the state is. -/
def Op.Answers : (op : Op) → Except Exn op.Ret → Prop
  | .insertInbound e, .ok row => row.toNewInboundEvent =
      { e with rawPayload := row.rawPayload, webhookHeaders := row.webhookHeaders }
  | .insertInbound _, .error exc => exc.OfDatabase ∨ exc = .uniqueViolationError
  | .selectByPrHashKey k, .ok (some row) => row.prHashKey = k
  | .selectWhitelist provider, .ok rows => ∀ r ∈ rows, r.vcsProvider = provider ∧ r.isActive = true
  | .dueScan, .ok ids => ids.Nodup
  | .lockDue id, .ok (some row) => row.outboxId = id
  | _, .ok _ => True
  | _, .error exc => exc.OfDatabase

theorem Database.Storage.dueScan_nodup {db : Database} {used : List UUID} (hs : db.Storage used)
    {tx : Tx} (ht : db.sessions t = some tx) :
    ((((tx.changes.apply db.outbox).filter (·.isDue tx.now)).insertionSort
      fun r r' => r.dispatchAt ≤ r'.dispatchAt).map (·.outboxId)).Nodup := by
  have hp := hs.pending t tx ht tx.changes List.mem_cons_self
  have hall : ((tx.changes.apply db.outbox).map (·.outboxId)).Nodup := by
    rw [hp.apply_ids hs]
    exact hp.ids_nodup hs
  have hdue : (((tx.changes.apply db.outbox).filter (·.isDue tx.now)).map (·.outboxId)).Nodup :=
    hall.sublist (List.filter_sublist.map _)
  exact ((List.perm_insertionSort _ _).map _).nodup_iff.mpr hdue

theorem World.Sound.answers (hw : w.Sound) : ∀ {op : Op} {r : Except Exn op.Ret},
    VcsGateway.exec P t op c w = some (r, w') → op.Answers r := by
  have hread : ∀ {w₂ : World} {α : Type} {a : α} {w₁ : World} {r : Except Exn α},
      awaited c w (some (.ok a, w₁)) = some (r, w₂) →
      (∃ e, r = .error e ∧ e.OfDatabase) ∨ r = .ok a := by
    intro w₂ α a w₁ r h
    rcases awaited_world h with ⟨e, hr, he, -⟩ | ⟨hr, -⟩
    · exact .inl ⟨e, hr, .external he⟩
    · exact .inr hr
  have hmark : ∀ {w₂ : World} {id : UUID} {m : Mark} {set : Tx → OutboxEvent → OutboxEvent}
      {r : Except Exn Unit}, w.onDb (w.db.execMark t c id m set) = some (r, w₂) →
      (∃ e, r = .error e ∧ e.OfDatabase) ∨ r = .ok () := by
    intro w₂ id m set r h
    obtain ⟨db', hdb, -⟩ := onDb_eq_some h
    obtain ⟨tx, -, ⟨e, rfl, he, -⟩ | ⟨-, rfl, -⟩ | ⟨row, -, rfl, -⟩⟩ :=
      Database.execMark_eq_some hdb
    · exact .inl ⟨e, rfl, he⟩
    · exact .inr rfl
    · exact .inr rfl
  intro op r hexec
  obtain ⟨w₁, h, rfl⟩ := exec_eq_some hexec
  clear hexec
  cases op with
  | uuid4 =>
    obtain ⟨u, -, -, rfl, -⟩ := execUuid4_eq_some h
    exact trivial
  | utcnow =>
    obtain ⟨rfl, -⟩ := atOnce_eq_some h
    exact trivial
  | redisGet key =>
    rcases hread h with ⟨e, rfl, he⟩ | rfl
    · exact he
    · exact trivial
  | redisSetex key ttl value =>
    rcases execSetex_eq_some h with ⟨e, rfl, he, -⟩ | ⟨rfl | ⟨e, rfl, he⟩, -⟩
    · exact .external he
    · exact trivial
    · exact .external he
  | selectTenant id =>
    rcases hread h with ⟨e, rfl, he⟩ | rfl
    · exact he
    · exact trivial
  | selectWhitelist provider =>
    rcases hread h with ⟨e, rfl, he⟩ | rfl
    · exact he
    · intro row hrow
      simpa [List.mem_filter] using (List.mem_filter.mp hrow).2
  | selectByPrHashKey k =>
    rcases hread h with ⟨e, rfl, he⟩ | rfl
    · exact he
    · rcases hf : w.db.inbound.find? fun i => i.prHashKey = k with _ | row
      · rw [hf]; exact trivial
      · rw [hf]
        have hk : row.prHashKey = k := by simpa using List.find?_some hf
        exact hk
  | begin =>
    obtain ⟨db', hdb, -⟩ := onDb_eq_some h
    obtain ⟨-, ⟨e, rfl, he, -⟩ | ⟨rfl, -⟩⟩ := Database.execBegin_eq_some hdb
    · exact he
    · exact trivial
  | commit =>
    obtain ⟨db', hdb, -⟩ := onDb_eq_some h
    obtain ⟨tx, -, ⟨rfl, -⟩ | ⟨rfl, -⟩ | ⟨e, rfl, he, -⟩⟩ := Database.execCommit_eq_some hdb
    · exact trivial
    · exact .external .cancelled
    · exact he
  | rollback =>
    obtain ⟨db', hdb, -⟩ := onDb_eq_some h
    obtain ⟨tx, -, -, rfl | ⟨e, rfl, he⟩⟩ := Database.execRollback_eq_some hdb
    · exact trivial
    · exact he
  | savepoint =>
    obtain ⟨db', hdb, -⟩ := onDb_eq_some h
    obtain ⟨tx, -, ⟨e, rfl, he, -⟩ | ⟨rfl, -⟩⟩ := Database.execSavepoint_eq_some hdb
    · exact he
    · exact trivial
  | release =>
    obtain ⟨db', hdb, -⟩ := onDb_eq_some h
    obtain ⟨tx, -, ⟨e, rfl, he, -⟩ | ⟨rfl, -⟩⟩ := Database.execRelease_eq_some hdb
    · exact he
    · exact trivial
  | rollbackTo =>
    obtain ⟨db', hdb, -⟩ := onDb_eq_some h
    obtain ⟨tx, -, ⟨e, rfl, he, -⟩ | ⟨ch, saved, -, rfl, -⟩⟩ := Database.execRollbackTo_eq_some hdb
    · exact he
    · exact trivial
  | insertInbound e =>
    obtain ⟨db', hdb, -⟩ := onDb_eq_some h
    obtain ⟨tx, -, ⟨exc, rfl, -, he | ⟨he, -⟩⟩ | ⟨row, -, hrow, rfl, -⟩⟩ :=
      Database.execInsertInbound_eq_some hdb
    · exact .inl he
    · exact .inr he
    · exact e.row_eq_some P hrow
  | insertEvent e =>
    obtain ⟨db', hdb, -⟩ := execOp_insertEvent_eq_some h
    obtain ⟨tx, -, ⟨exc, rfl, he, -⟩ | ⟨u, row, -, -, -, rfl, -⟩⟩ :=
      Database.execInsertEvent_eq_some hdb
    · exact he
    · exact trivial
  | cancelScan k v =>
    obtain ⟨db', hdb, -⟩ := onDb_eq_some h
    obtain ⟨tx, -, ⟨exc, rfl, he, -⟩ | ⟨-, rfl⟩⟩ := Database.execCancelScan_eq_some hdb
    · exact he
    · exact trivial
  | cancelRow id k v reason =>
    obtain ⟨db', hdb, -⟩ := onDb_eq_some h
    obtain ⟨tx, -, ⟨exc, rfl, he, -⟩ | ⟨rfl, -⟩ | ⟨row, -, rfl, -⟩⟩ :=
      Database.execCancelRow_eq_some hdb
    · exact he
    · exact trivial
    · exact trivial
  | dueScan =>
    obtain ⟨db', hdb, -⟩ := onDb_eq_some h
    obtain ⟨tx, htx, ⟨exc, rfl, he, -⟩ | ⟨-, rfl⟩⟩ := Database.execDueScan_eq_some hdb
    · exact he
    · exact hw.dueScan_nodup htx
  | lockDue id =>
    obtain ⟨db', hdb, -⟩ := onDb_eq_some h
    obtain ⟨tx, -, ⟨exc, rfl, he, -⟩ | ⟨rfl, -⟩ | ⟨row, -, rfl, -, hv, -⟩⟩ :=
      Database.execLockDue_eq_some hdb
    · exact he
    · exact trivial
    · exact (Database.version_eq_some hv).1
  | markDispatched id =>
    rcases hmark h with ⟨e, rfl, he⟩ | rfl
    · exact he
    · exact trivial
  | markFailed id msg =>
    rcases hmark h with ⟨e, rfl, he⟩ | rfl
    · exact he
    · exact trivial
  | markRetry id msg at_ =>
    rcases hmark h with ⟨e, rfl, he⟩ | rfl
    · exact he
    · exact trivial
  | openChannel =>
    rcases execOpenChannel_eq_some h with ⟨e, rfl, he, -⟩ | ⟨u, -, -, rfl, -⟩
    · exact .external he
    · exact trivial
  | getExchange ch name =>
    rcases hread h with ⟨e, rfl, he⟩ | rfl
    · exact he
    · exact trivial
  | publish exchange message routingKey =>
    rcases hread h with ⟨e, rfl, he⟩ | rfl
    · exact he
    · exact trivial
  | closeChannel ch =>
    rcases hread h with ⟨e, rfl, he⟩ | rfl
    · exact he
    · exact trivial
  | isClosed ch =>
    obtain ⟨rfl, -⟩ := atOnce_eq_some h
    exact trivial
  | getSelf p =>
    obtain ⟨rfl, -⟩ := atOnce_eq_some h
    exact trivial
  | setChannel p ch =>
    obtain ⟨rfl, -⟩ := atOnce_eq_some h
    exact trivial
  | setExchange p ex =>
    obtain ⟨rfl, -⟩ := atOnce_eq_some h
    exact trivial

theorem World.Sound.envStep (hw : w.Sound) (e : EnvEvent) : (envStep e w).Sound := by
  have hcongr : ∀ db : Database, db.sessions = w.db.sessions → db.rowLock = w.db.rowLock →
      db.keyLock = w.db.keyLock → db.inbound = w.db.inbound → db.outbox = w.db.outbox →
      db.wal = w.db.wal → db.Storage w.used := by
    intro db hsess hrow hkey hin hout hwal
    have hp : ∀ t ch, w.db.Pending t ch → db.Pending t ch := fun t ch hp =>
      hp.mono_locks (fun _ h => hrow ▸ h) (fun _ h => hkey ▸ h) hout hin
    exact {
      outboxUsed := hout ▸ hw.outboxUsed
      outboxNodup := hout ▸ hw.outboxNodup
      inboundNodup := hin ▸ hw.inboundNodup
      inboundWal := by rw [hin, hwal]; exact hw.inboundWal
      outboxWal := by rw [hout, hwal]; exact hw.outboxWal
      rowLock := by rw [hrow, hsess]; exact hw.rowLock
      keyLock := by rw [hkey, hsess]; exact hw.keyLock
      pending := by
        rw [hsess]
        exact fun t tx htx ch hch => hp t ch (hw.pending t tx htx ch hch) }
  cases e with
  | tick n => exact hw
  | tickApp n => exact hw
  | evict key => exact hw
  | setTenant id row => exact hcongr _ rfl rfl rfl rfl rfl rfl
  | setWhitelist rows => exact hcongr _ rfl rfl rfl rfl rfl rfl
  | dropChannel ch => exact hw

theorem World.Sound.vanish (hw : w.Sound) (t : Nat) : (vanish t w).Sound := by
  unfold VcsGateway.vanish
  split
  · exact hw
  · exact Database.Storage.discard hw

/-! ### Coroutines that vanish -/

section Vanish

variable (t : Nat) (w : World)

@[simp] theorem vanish_trace : (vanish t w).trace = w.trace := by
  unfold vanish
  split <;> rfl

@[simp] theorem vanish_redis : (vanish t w).redis = w.redis := by
  unfold vanish
  split <;> rfl

@[simp] theorem vanish_used : (vanish t w).used = w.used := by
  unfold vanish
  split <;> rfl

@[simp] theorem vanish_wal : (vanish t w).db.wal = w.db.wal := by
  unfold vanish
  split <;> rfl

@[simp] theorem vanish_outbox : (vanish t w).db.outbox = w.db.outbox := by
  unfold vanish
  split <;> rfl

theorem vanish_sessions_of_ne {t' : Nat} (hne : t' ≠ t) :
    (vanish t w).db.sessions t' = w.db.sessions t' := by
  unfold vanish
  split
  · rfl
  · exact Database.close_sessions_of_ne hne

@[simp] theorem vanish_sessions_self : (vanish t w).db.sessions t = none := by
  unfold vanish
  split
  · assumption
  · exact Database.close_sessions_self

variable {t w}

/-- The sessions that are left are those of others. -/
theorem vanish_session_some {t' : Nat} {tx : Tx} (h : (vanish t w).db.sessions t' = some tx) :
    t' ≠ t ∧ w.db.sessions t' = some tx := by
  have hne : t' ≠ t := by
    rintro rfl
    simp at h
  exact ⟨hne, (vanish_sessions_of_ne t w hne).symm.trans h⟩

end Vanish

end VcsGateway
