import VcsGateway.Async.Separation
import VcsGateway.Agreement
import VcsGateway.Keys

/-!
# Tenants do not meet

A run of `process_webhook` calls for many tenants, from which all calls but those of one
tenant are struck: the calls of that tenant go exactly the way they went, and the tables
hold its rows.
-/

namespace VcsGateway

open Async

/-! ### Outcomes in two states -/

section Rel

variable {σ σ' α : Type}

/-- What happens in the one state happens in the other, with the same answer. -/
def Outcome.Rel (S : σ → σ' → Prop) : Outcome σ α → Outcome σ' α → Prop
  | none, _ => True
  | some (r, s), some (r', s') => r = r' ∧ S s s'
  | some _, none => False

variable {S : σ → σ' → Prop}

theorem Outcome.Rel.some_left {o : Outcome σ α} {o' : Outcome σ' α} (h : Outcome.Rel S o o')
    {r : Except Exn α} {s : σ} (ho : o = some (r, s)) : ∃ s', o' = some (r, s') ∧ S s s' := by
  subst ho
  rcases o' with _ | ⟨r', s'⟩
  · exact h.elim
  · obtain ⟨rfl, hs⟩ := h
    exact ⟨s', rfl, hs⟩

theorem awaited_rel {c : Choice} {broken : σ} {broken' : σ'} {o : Outcome σ α} {o' : Outcome σ' α}
    (hbroken : S broken broken') (h : Outcome.Rel S o o') :
    Outcome.Rel S (awaited c broken o) (awaited c broken' o') := by
  cases c with
  | ok => exact h
  | fault n => exact ⟨rfl, hbroken⟩
  | cancel => exact ⟨rfl, hbroken⟩
  | fresh u => trivial
  | lost n => trivial

theorem awaitedFresh_rel {c : Choice} {broken : σ} {broken' : σ'} {o : UUID → Outcome σ α}
    {o' : UUID → Outcome σ' α} (hbroken : S broken broken') (h : ∀ u, Outcome.Rel S (o u) (o' u)) :
    Outcome.Rel S (awaitedFresh c broken o) (awaitedFresh c broken' o') := by
  cases c with
  | fresh u => exact h u
  | fault n => exact ⟨rfl, hbroken⟩
  | cancel => exact ⟨rfl, hbroken⟩
  | ok => trivial
  | lost n => trivial

theorem inTx_rel {S : Database → Database → Prop} {db db' : Database} {t : Nat}
    {r r' : Tx → Outcome Database α} (hS : S db db') (hsession : db'.sessions t = db.sessions t)
    (h : ∀ tx, db.sessions t = some tx → Outcome.Rel S (r tx) (r' tx)) :
    Outcome.Rel S (db.inTx t r) (db'.inTx t r') := by
  unfold Database.inTx
  rw [hsession]
  rcases htx : db.sessions t with _ | tx
  · trivial
  · simp only
    by_cases haborted : tx.aborted = true
    · simp only [haborted, if_true]
      exact ⟨rfl, hS⟩
    · simp only [haborted]
      exact h tx htx

end Rel

/-! ### Whose row, whose transaction -/

section Sides

-- the tenant that is kept, the keys of its webhooks, and the side on which a call stands:
-- `some true` is a call of that tenant, `some false` one of another, `none` no call
variable (T : UUID) (mine : String → Bool) (side : Nat → Option Bool)

/-- The rows of a transaction all stand on its side. -/
structure Changes.OnSide (b : Bool) (ch : Changes) : Prop where
  writes : ch.writes = []
  inbound : ∀ row ∈ ch.inbound, mine row.prHashKey = b ∧ decide (row.tenantId = T) = b
  inserts : ∀ r ∈ ch.inserts, mine r.prHashKey = b ∧ r.prVersion = 1

/-- Rows, transactions and locks stand on one side each. -/
structure Database.Sorted (db : Database) : Prop where
  inbound : ∀ row ∈ db.inbound, mine row.prHashKey = decide (row.tenantId = T)
  outbox : ∀ r ∈ db.outbox, r.prVersion = 1
  pending : ∀ t tx, db.sessions t = some tx → ∃ b, side t = some b ∧
    ∀ ch ∈ tx.changes :: tx.saved, ch.OnSide T mine b
  holder : ∀ k t, db.keyLock k = some t → side t = some (mine k)

/-- What the calls of side `b` await. -/
def Op.OnSide (b : Bool) : Op → Prop
  | .redisGet key | .redisSetex key _ _ =>
    (∃ k, key = idempotencyKey k ∧ mine k = b) ∨
      ∃ id, key = tenantConfigKey id ∧ decide (id = T) = b
  | .selectTenant id => decide (id = T) = b
  | .selectByPrHashKey k => mine k = b
  | .insertInbound e => mine e.prHashKey = b ∧ decide (e.tenantId = T) = b
  | .insertEvent e => mine e.prHashKey = b ∧ e.prVersion = 1
  | .cancelScan _ v => v = 1
  | .uuid4 | .utcnow | .selectWhitelist _ | .begin | .commit | .rollback | .openChannel
  | .getExchange _ _ | .publish _ _ _ | .closeChannel _ => True
  | _ => False

/-- `_CANCEL_PREVIOUS` finds nothing. -/
def Op.FindsNothing : (op : Op) → Except Exn op.Ret → Prop
  | .cancelScan _ _, r => ∀ ids, r = .ok ids → ids = []
  | _, _ => True

variable {T mine side} {P : Platform} {db db' : Database} {t : Nat} {b : Bool}

theorem Changes.OnSide.empty : Changes.OnSide T mine b {} :=
  ⟨rfl, by simp, by simp⟩

theorem Changes.OnSide.apply {ch : Changes} (h : ch.OnSide T mine b) (outbox : List OutboxEvent) :
    ch.apply outbox = outbox ++ ch.inserts := by
  unfold Changes.apply
  rw [List.map_congr_left (g := id)]
  · exact List.map_id _
  · intro r _
    simp [Changes.latest, h.writes]

/-- There is no version before the first. -/
theorem Changes.OnSide.noPrevious {ch : Changes} (h : ch.OnSide T mine b) (k : String)
    {outbox : List OutboxEvent} (houtbox : ∀ r ∈ outbox, r.prVersion = 1) :
    (ch.apply outbox).filter (fun r => r.isPrevious k 1) = [] := by
  rw [h.apply]
  apply List.filter_eq_nil_iff.mpr
  intro r hr
  have hr1 : r.prVersion = 1 := by
    rcases List.mem_append.mp hr with hr | hr
    · exact houtbox r hr
    · exact (h.inserts r hr).2
  simp [OutboxEvent.isPrevious, hr1]

namespace Database.Sorted

/-- The changes of the call `t`. -/
theorem changes (h : db.Sorted T mine side) (hside : side t = some b) {tx : Tx}
    (htx : db.sessions t = some tx) : ∀ ch ∈ tx.changes :: tx.saved, ch.OnSide T mine b := by
  obtain ⟨b', hb', hch⟩ := h.pending t tx htx
  rw [hside, Option.some.injEq] at hb'
  rw [hb']
  exact hch

/-- Only the session of `t` has changed. -/
theorem setSession (h : db.Sorted T mine side) (hside : side t = some b) {tx : Tx}
    (htx : ∀ ch ∈ tx.changes :: tx.saved, ch.OnSide T mine b) :
    (db.setSession t tx).Sorted T mine side where
  inbound := h.inbound
  outbox := h.outbox
  pending t' tx' htx' := by
    by_cases heq : t' = t
    · subst heq
      rw [setSession_sessions_self, Option.some.injEq] at htx'
      rw [← htx']
      exact ⟨b, hside, htx⟩
    · rw [setSession_sessions_of_ne heq] at htx'
      exact h.pending t' tx' htx'
  holder := h.holder

theorem close (h : db.Sorted T mine side) (t : Nat) : (db.close t).Sorted T mine side where
  inbound := h.inbound
  outbox := h.outbox
  pending t' tx' htx' := by
    by_cases heq : t' = t
    · subst heq
      simp at htx'
    · rw [close_sessions_of_ne heq] at htx'
      exact h.pending t' tx' htx'
  holder k t' hk := h.holder k t' (close_keyLock_eq_some hk).1

theorem install (h : db.Sorted T mine side) (hside : side t = some b) {tx : Tx}
    (htx : db.sessions t = some tx) : (db.install t tx).Sorted T mine side where
  inbound row hrow := by
    have hch := h.changes hside htx _ List.mem_cons_self
    rcases List.mem_append.mp hrow with hrow | hrow
    · exact h.inbound row hrow
    · obtain ⟨hkey, htenant⟩ := hch.inbound row hrow
      rw [hkey, htenant]
  outbox r hr := by
    have hch := h.changes hside htx _ List.mem_cons_self
    change r ∈ tx.changes.apply db.outbox at hr
    rw [hch.apply] at hr
    rcases List.mem_append.mp hr with hr | hr
    · exact h.outbox r hr
    · exact (hch.inserts r hr).2
  pending := (h.close t).pending
  holder := (h.close t).holder

theorem addInbound (h : db.Sorted T mine side) (hside : side t = some b) {tx : Tx}
    (htx : db.sessions t = some tx) {row : InboundEvent} (hkey : mine row.prHashKey = b)
    (htenant : decide (row.tenantId = T) = b) : (db.addInbound t tx row).Sorted T mine side := by
  have hch := h.changes hside htx
  have hset : (db.setSession t (tx.addInbound row)).Sorted T mine side := by
    refine h.setSession hside fun ch hmem => ?_
    rcases List.mem_cons.mp hmem with rfl | hmem
    · obtain ⟨hwrites, hinbound, hinserts⟩ := hch _ List.mem_cons_self
      refine ⟨hwrites, fun row' hrow' => ?_, hinserts⟩
      rcases List.mem_append.mp hrow' with hrow' | hrow'
      · exact hinbound row' hrow'
      · rw [List.mem_singleton.mp hrow']
        exact ⟨hkey, htenant⟩
    · exact hch ch (List.mem_cons_of_mem _ hmem)
  refine ⟨hset.inbound, hset.outbox, hset.pending, fun k t' hk => ?_⟩
  change Function.update db.keyLock row.prHashKey (some t) k = some t' at hk
  by_cases heq : k = row.prHashKey
  · subst heq
    rw [Function.update_self, Option.some.injEq] at hk
    rw [← hk, hside, hkey]
  · rw [Function.update_of_ne heq] at hk
    exact h.holder k t' hk

theorem addOutbox (h : db.Sorted T mine side) (hside : side t = some b) {tx : Tx}
    (htx : db.sessions t = some tx) {row : OutboxEvent} (hkey : mine row.prHashKey = b)
    (hversion : row.prVersion = 1) : (db.addOutbox t tx row).Sorted T mine side := by
  have hch := h.changes hside htx
  have hset : (db.setSession t (tx.addInsert row)).Sorted T mine side := by
    refine h.setSession hside fun ch hmem => ?_
    rcases List.mem_cons.mp hmem with rfl | hmem
    · obtain ⟨hwrites, hinbound, hinserts⟩ := hch _ List.mem_cons_self
      refine ⟨hwrites, hinbound, fun r hr => ?_⟩
      rcases List.mem_append.mp hr with hr | hr
      · exact hinserts r hr
      · rw [List.mem_singleton.mp hr]
        exact ⟨hkey, hversion⟩
    · exact hch ch (List.mem_cons_of_mem _ hmem)
  exact ⟨hset.inbound, hset.outbox, hset.pending, hset.holder⟩

/-- **One step.** -/
theorem moves (h : db.Sorted T mine side) (hside : side t = some b) {op : Op} {fresh : UUID → Prop}
    (hop : op.OnSide T mine b) (hm : db.Moves P op fresh t db') : db'.Sorted T mine side := by
  cases hm with
  | idle => exact h
  | opened now _ _ =>
    refine h.setSession hside fun ch hch => ?_
    obtain rfl : ch = {} := by simpa using hch
    exact .empty
  | kept tx tx' htx _ hsub => exact h.setSession hside fun ch hch => h.changes hside htx ch (hsub ch hch)
  | discarded tx _ =>
    have hclose := h.close t
    exact ⟨hclose.inbound, hclose.outbox, hclose.pending, hclose.holder⟩
  | installed tx _ htx _ => exact h.install hside htx
  | locked tx id r he => subst he; exact hop.elim
  | wrote tx r v m hw =>
    cases op with
    | cancelRow id k ver reason => exact hop.elim
    | markDispatched id => exact hop.elim
    | markFailed id msg => exact hop.elim
    | markRetry id msg at_ => exact hop.elim
    | _ => exact hw.elim
  | insertedInbound tx e row he hrow htx _ _ =>
    subst he
    have heq := e.row_eq_some P hrow
    have hkey : row.prHashKey = e.prHashKey := congrArg (·.prHashKey) heq
    have htenant : row.tenantId = e.tenantId := congrArg (·.tenantId) heq
    exact h.addInbound hside htx (hkey ▸ hop.1) (htenant ▸ hop.2)
  | insertedOutbox tx e row he hrow htx _ =>
    subst he
    obtain ⟨payload, headers, -, -, heq⟩ := e.row_eq_some P hrow
    have hkey : row.prHashKey = e.prHashKey := congrArg (·.prHashKey) heq
    have hversion : row.prVersion = e.prVersion := congrArg (·.prVersion) heq
    exact h.addOutbox hside htx (hkey ▸ hop.1) (hversion.trans hop.2)

theorem findsNothing (h : db.Sorted T mine side) (hside : side t = some b) {k : String}
    {ids : List UUID} {c : Choice} (he : db.execCancelScan t c k 1 = some (.ok ids, db')) :
    ids = [] := by
  obtain ⟨tx, htx, ⟨e, he, -⟩ | ⟨-, hids⟩⟩ := Database.execCancelScan_eq_some he
  · simp at he
  · have hch := h.changes hside htx _ List.mem_cons_self
    rw [Except.ok.inj hids, hch.noPrevious k h.outbox, List.map_nil]

/-- A call has been given a side. -/
theorem grow {side' : Nat → Option Bool} (h : db.Sorted T mine side)
    (hside : ∀ t b, side t = some b → side' t = some b) : db.Sorted T mine side' where
  inbound := h.inbound
  outbox := h.outbox
  pending t tx htx := by
    obtain ⟨b, hb, hch⟩ := h.pending t tx htx
    exact ⟨b, hside t b hb, hch⟩
  holder k t hk := hside t _ (h.holder k t hk)

end Database.Sorted

/-! ### The database of one side -/

variable (T mine side) in
/-- `db'` holds what stands on the kept side of `db`. -/
structure Database.Shows (db db' : Database) : Prop where
  sorted : db.Sorted T mine side
  tenants : db'.tenants = db.tenants
  whitelist : db'.whitelist = db.whitelist
  inbound : db'.inbound = db.inbound.filter fun row => mine row.prHashKey
  outbox : db'.outbox = db.outbox.filter fun r => mine r.prHashKey
  sessions : ∀ t, side t ≠ some false → db'.sessions t = db.sessions t
  keyLock : ∀ k, mine k = true → db'.keyLock k = db.keyLock k

namespace Database.Shows

variable {db₁ : Database}

theorem session (h : Database.Shows T mine side db db') (hside : side t = some true) :
    db'.sessions t = db.sessions t :=
  h.sessions t (by simp [hside])

/-- The locks that a call of the other side gives back are on its own side. -/
theorem keyLock_left (h : Database.Shows T mine side db db') (hside : side t = some false)
    {k : String} (hk : mine k = true) : db'.keyLock k = (db.close t).keyLock k := by
  rw [h.keyLock k hk]
  simp only [Database.close]
  by_cases hheld : db.keyLock k = some t
  · have hholder := h.sorted.holder k t hheld
    rw [hside, hk] at hholder
    simp at hholder
  · rw [if_neg hheld]

theorem sessions_left (h : Database.Shows T mine side db db') (hside : side t = some false)
    (hsessions : ∀ t' ≠ t, db₁.sessions t' = db.sessions t') :
    ∀ t', side t' ≠ some false → db'.sessions t' = db₁.sessions t' := by
  intro t' ht'
  have hne : t' ≠ t := by
    rintro rfl
    exact ht' hside
  rw [hsessions t' hne]
  exact h.sessions t' ht'

theorem discard_left (h : Database.Shows T mine side db db') (hside : side t = some false) :
    Database.Shows T mine side (db.discard t) db' := by
  have hclose := h.sorted.close t
  refine ⟨⟨hclose.inbound, hclose.outbox, hclose.pending, hclose.holder⟩, h.tenants, h.whitelist,
    h.inbound, h.outbox, ?_, fun k hk => h.keyLock_left hside hk⟩
  exact h.sessions_left hside fun t' hne => close_sessions_of_ne hne

/-- **A step of the other side** is not seen. -/
theorem left (h : Database.Shows T mine side db db') (hside : side t = some false) {op : Op}
    {fresh : UUID → Prop} (hop : op.OnSide T mine false) (hm : db.Moves P op fresh t db₁) :
    Database.Shows T mine side db₁ db' := by
  have hsorted := h.sorted.moves hside hop hm
  have hsessions := h.sessions_left hside fun t' hne => hm.sessions_of_ne hne
  cases hm with
  | idle => exact h
  | opened now _ _ => exact ⟨hsorted, h.tenants, h.whitelist, h.inbound, h.outbox, hsessions, h.keyLock⟩
  | kept tx tx' _ _ _ =>
    exact ⟨hsorted, h.tenants, h.whitelist, h.inbound, h.outbox, hsessions, h.keyLock⟩
  | discarded tx _ => exact h.discard_left hside
  | installed tx _ htx _ =>
    have hch := h.sorted.changes hside htx _ List.mem_cons_self
    have hinbound : (tx.changes.inbound.filter fun row => mine row.prHashKey) = [] := by
      apply List.filter_eq_nil_iff.mpr
      intro row hrow
      simp [(hch.inbound row hrow).1]
    have hinserts : (tx.changes.inserts.filter fun r => mine r.prHashKey) = [] := by
      apply List.filter_eq_nil_iff.mpr
      intro r hr
      simp [(hch.inserts r hr).1]
    refine ⟨hsorted, h.tenants, h.whitelist, ?_, ?_, hsessions, fun k hk => h.keyLock_left hside hk⟩
    · simp only [Database.install, List.filter_append]
      rw [h.inbound, hinbound, List.append_nil]
    · simp only [Database.install, hch.apply, List.filter_append]
      rw [h.outbox, hinserts, List.append_nil]
  | locked tx id r he => subst he; exact hop.elim
  | wrote tx r v m hw =>
    cases op with
    | cancelRow id k ver reason => exact hop.elim
    | markDispatched id => exact hop.elim
    | markFailed id msg => exact hop.elim
    | markRetry id msg at_ => exact hop.elim
    | _ => exact hw.elim
  | insertedInbound tx e row he hrow _ _ _ =>
    subst he
    have hkey : row.prHashKey = e.prHashKey := congrArg (·.prHashKey) (e.row_eq_some P hrow)
    refine ⟨hsorted, h.tenants, h.whitelist, h.inbound, h.outbox, hsessions, fun k hk => ?_⟩
    have hne : k ≠ row.prHashKey := by
      rintro rfl
      rw [hkey, hop.1] at hk
      simp at hk
    change db'.keyLock k = Function.update db.keyLock row.prHashKey (some t) k
    rw [Function.update_of_ne hne]
    exact h.keyLock k hk
  | insertedOutbox tx e row _ _ _ _ =>
    exact ⟨hsorted, h.tenants, h.whitelist, h.inbound, h.outbox, hsessions, h.keyLock⟩

/-! Steps of the kept side. -/

theorem setSession (h : Database.Shows T mine side db db') (hside : side t = some true) {tx : Tx}
    (htx : ∀ ch ∈ tx.changes :: tx.saved, ch.OnSide T mine true) :
    Database.Shows T mine side (db.setSession t tx) (db'.setSession t tx) where
  sorted := h.sorted.setSession hside htx
  tenants := h.tenants
  whitelist := h.whitelist
  inbound := h.inbound
  outbox := h.outbox
  sessions t' ht' := by
    by_cases heq : t' = t
    · rw [heq, setSession_sessions_self, setSession_sessions_self]
    · rw [setSession_sessions_of_ne heq, setSession_sessions_of_ne heq]
      exact h.sessions t' ht'
  keyLock := h.keyLock

theorem abort (h : Database.Shows T mine side db db') (hside : side t = some true) {tx : Tx}
    (htx : db.sessions t = some tx) :
    Database.Shows T mine side (db.abort t tx) (db'.abort t tx) :=
  h.setSession hside fun ch hch => h.sorted.changes hside htx ch hch

theorem close (h : Database.Shows T mine side db db') (t : Nat) :
    Database.Shows T mine side (db.close t) (db'.close t) where
  sorted := h.sorted.close t
  tenants := h.tenants
  whitelist := h.whitelist
  inbound := h.inbound
  outbox := h.outbox
  sessions t' ht' := by
    by_cases heq : t' = t
    · rw [heq, close_sessions_self, close_sessions_self]
    · rw [close_sessions_of_ne heq, close_sessions_of_ne heq]
      exact h.sessions t' ht'
  keyLock k hk := by
    simp only [Database.close]
    rw [h.keyLock k hk]

theorem discard (h : Database.Shows T mine side db db') (t : Nat) :
    Database.Shows T mine side (db.discard t) (db'.discard t) := by
  have hclose := h.close t
  refine ⟨?_, hclose.tenants, hclose.whitelist, hclose.inbound, hclose.outbox, hclose.sessions,
    hclose.keyLock⟩
  exact ⟨hclose.sorted.inbound, hclose.sorted.outbox, hclose.sorted.pending, hclose.sorted.holder⟩

theorem install (h : Database.Shows T mine side db db') (hside : side t = some true) {tx : Tx}
    (htx : db.sessions t = some tx) :
    Database.Shows T mine side (db.install t tx) (db'.install t tx) := by
  have hch := h.sorted.changes hside htx _ List.mem_cons_self
  have hclose := h.close t
  have hinbound : (tx.changes.inbound.filter fun row => mine row.prHashKey) = tx.changes.inbound :=
    List.filter_eq_self.mpr fun row hrow => (hch.inbound row hrow).1
  have hinserts : (tx.changes.inserts.filter fun r => mine r.prHashKey) = tx.changes.inserts :=
    List.filter_eq_self.mpr fun r hr => (hch.inserts r hr).1
  refine ⟨h.sorted.install hside htx, h.tenants, h.whitelist, ?_, ?_, hclose.sessions,
    hclose.keyLock⟩
  · simp only [Database.install, List.filter_append]
    rw [h.inbound, hinbound]
  · simp only [Database.install, hch.apply, List.filter_append]
    rw [h.outbox, hinserts]

theorem settle (h : Database.Shows T mine side db db') (hside : side t = some true) {tx : Tx}
    (htx : db.sessions t = some tx) :
    Database.Shows T mine side (db.settle t tx) (db'.settle t tx) := by
  unfold Database.settle
  by_cases haborted : tx.aborted = true
  · simp only [haborted, if_true]
    exact h.discard t
  · simp only [haborted]
    exact h.install hside htx

theorem execBegin (h : Database.Shows T mine side db db') (hside : side t = some true) (now : Time)
    (c : Choice) : Outcome.Rel (Database.Shows T mine side) (db.execBegin t now c)
      (db'.execBegin t now c) := by
  unfold Database.execBegin
  rw [h.session hside]
  rcases db.sessions t with _ | tx
  · refine awaited_rel h ⟨rfl, h.setSession hside fun ch hch => ?_⟩
    obtain rfl : ch = {} := by simpa using hch
    exact .empty
  · trivial

theorem execCommit (h : Database.Shows T mine side db db') (hside : side t = some true) (c : Choice) :
    Outcome.Rel (Database.Shows T mine side) (db.execCommit t c) (db'.execCommit t c) := by
  unfold Database.execCommit
  rw [h.session hside]
  rcases htx : db.sessions t with _ | tx
  · trivial
  · have hsettle := h.settle hside htx
    have hawait : ∀ c, Outcome.Rel (Database.Shows T mine side)
        (awaited c (db.discard t) (some (.ok (), db.settle t tx)))
        (awaited c (db'.discard t) (some (.ok (), db'.settle t tx))) :=
      fun c => awaited_rel (h.discard t) ⟨rfl, hsettle⟩
    cases c with
    | lost n => exact ⟨rfl, hsettle⟩
    | ok => exact hawait .ok
    | fresh u => exact hawait (.fresh u)
    | fault n => exact hawait (.fault n)
    | cancel => exact hawait .cancel

theorem execRollback (h : Database.Shows T mine side db db') (hside : side t = some true)
    (c : Choice) :
    Outcome.Rel (Database.Shows T mine side) (db.execRollback t c) (db'.execRollback t c) := by
  unfold Database.execRollback
  rw [h.session hside]
  rcases db.sessions t with _ | tx
  · trivial
  · exact awaited_rel (h.discard t) ⟨rfl, h.discard t⟩

/-- The rows with a key of the kept side are the same. -/
theorem any_key (h : Database.Shows T mine side db db') {k : String} (hk : mine k = true) :
    (db'.inbound.any fun row => row.prHashKey = k) = db.inbound.any fun row => row.prHashKey = k := by
  rw [h.inbound, List.any_filter]
  congr 1
  funext row
  by_cases heq : row.prHashKey = k
  · simp [heq, hk]
  · simp [heq]

theorem execInsertInbound (h : Database.Shows T mine side db db') (hside : side t = some true)
    {e : NewInboundEvent} (hkey : mine e.prHashKey = true) (htenant : decide (e.tenantId = T) = true)
    (c : Choice) : Outcome.Rel (Database.Shows T mine side) (db.execInsertInbound t P c e)
      (db'.execInsertInbound t P c e) := by
  refine inTx_rel h (h.session hside) fun tx htx => ?_
  refine awaited_rel (h.abort hside htx) ?_
  rcases hrow : e.row P tx.now with _ | row
  · exact ⟨rfl, h.abort hside htx⟩
  · have heq := e.row_eq_some P hrow
    have hrowKey : mine row.prHashKey = true := by
      rw [show row.prHashKey = e.prHashKey from congrArg (·.prHashKey) heq, hkey]
    have hrowTenant : decide (row.tenantId = T) = true := by
      rw [show row.tenantId = e.tenantId from congrArg (·.tenantId) heq, htenant]
    simp only [List.any_append, h.any_key hrowKey, h.keyLock _ hrowKey]
    split
    · exact ⟨rfl, h.abort hside htx⟩
    · rcases db.keyLock row.prHashKey with _ | t'
      · refine ⟨rfl, h.sorted.addInbound hside htx hrowKey hrowTenant, h.tenants, h.whitelist,
          h.inbound, h.outbox, ?_, ?_⟩
        · intro t' ht'
          by_cases heq' : t' = t
          · rw [heq']
            simp [Database.addInbound]
          · simp only [Database.addInbound, setSession_sessions_of_ne heq']
            exact h.sessions t' ht'
        · intro k hk
          simp only [Database.addInbound]
          by_cases heq' : k = row.prHashKey
          · rw [heq', Function.update_self, Function.update_self]
          · rw [Function.update_of_ne heq', Function.update_of_ne heq']
            exact h.keyLock k hk
      · trivial

theorem execInsertEvent (h : Database.Shows T mine side db db') (hside : side t = some true)
    {e : NewOutboxEvent} (hkey : mine e.prHashKey = true) (hversion : e.prVersion = 1) (c : Choice) :
    Outcome.Rel (Database.Shows T mine side) (db.execInsertEvent t P c e)
      (db'.execInsertEvent t P c e) := by
  refine inTx_rel h (h.session hside) fun tx htx => ?_
  refine awaitedFresh_rel (h.abort hside htx) fun u => ?_
  rcases hrow : e.row P u tx.now with _ | row
  · exact ⟨rfl, h.abort hside htx⟩
  · obtain ⟨payload, headers, -, -, heq⟩ := e.row_eq_some P hrow
    have hrowKey : mine row.prHashKey = true := by
      rw [show row.prHashKey = e.prHashKey from congrArg (·.prHashKey) heq, hkey]
    have hrowVersion : row.prVersion = 1 := by
      rw [show row.prVersion = e.prVersion from congrArg (·.prVersion) heq, hversion]
    refine ⟨rfl, h.sorted.addOutbox hside htx hrowKey hrowVersion, h.tenants, h.whitelist,
      h.inbound, h.outbox, ?_, h.keyLock⟩
    intro t' ht'
    by_cases heq' : t' = t
    · rw [heq']
      simp [Database.addOutbox]
    · simp only [Database.addOutbox, setSession_sessions_of_ne heq']
      exact h.sessions t' ht'

theorem execCancelScan (h : Database.Shows T mine side db db') (hside : side t = some true)
    (k : String) (c : Choice) : Outcome.Rel (Database.Shows T mine side) (db.execCancelScan t c k 1)
      (db'.execCancelScan t c k 1) := by
  refine inTx_rel h (h.session hside) fun tx htx => ?_
  refine awaited_rel (h.abort hside htx) ⟨?_, h⟩
  have hch := h.sorted.changes hside htx _ List.mem_cons_self
  rw [hch.noPrevious k h.sorted.outbox, hch.noPrevious k]
  intro r hr
  rw [h.outbox] at hr
  exact h.sorted.outbox r (List.mem_of_mem_filter hr)

end Database.Shows

/-! ### The world of one side -/

variable (T mine side) in
/-- `w'` is what `w` looks like from the kept side. -/
structure World.Shows (w w' : World) : Prop where
  db : Database.Shows T mine side w.db w'.db
  idempotency : ∀ k, mine k = true → w'.redis (idempotencyKey k) = w.redis (idempotencyKey k)
  tenant : w'.redis (tenantConfigKey T) = w.redis (tenantConfigKey T)
  clock : w'.clock = w.clock
  appClock : w'.appClock = w.appClock
  used : w'.used ⊆ w.used
  trace : w'.trace = w.trace.filter fun e => side e.tid = some true
  started : ∀ e ∈ w.trace, side e.tid ≠ none

namespace World.Shows

variable {w w' w₁ : World} {c : Choice}

theorem setDb (h : World.Shows T mine side w w') {db₁ db₁' : Database}
    (hdb : Database.Shows T mine side db₁ db₁') :
    World.Shows T mine side { w with db := db₁ } { w' with db := db₁' } :=
  ⟨hdb, h.idempotency, h.tenant, h.clock, h.appClock, h.used, h.trace, h.started⟩

theorem onDb {α : Type} (h : World.Shows T mine side w w') {o o' : Outcome Database α}
    (ho : Outcome.Rel (Database.Shows T mine side) o o') :
    Outcome.Rel (World.Shows T mine side) (w.onDb o) (w'.onDb o') := by
  rcases o with _ | ⟨r, db₁⟩
  · trivial
  · obtain ⟨db₁', ho', hdb⟩ := ho.some_left rfl
    rw [ho']
    exact ⟨rfl, h.setDb hdb⟩

/-- An identifier that is fresh is fresh from the kept side. -/
theorem takeFresh (h : World.Shows T mine side w w') (hw : w.takeFresh c = some w₁) :
    ∃ w₁', w'.takeFresh c = some w₁' ∧ World.Shows T mine side w₁ w₁' := by
  rcases takeFresh_eq_some hw with ⟨u, rfl, hfresh, rfl⟩ | ⟨hno, rfl⟩
  · refine ⟨{ w' with used := u :: w'.used }, ?_, ?_⟩
    · simp only [World.takeFresh, if_neg fun hu => hfresh (h.used hu)]
    · exact ⟨h.db, h.idempotency, h.tenant, h.clock, h.appClock, List.cons_subset_cons u h.used,
        h.trace, h.started⟩
  · refine ⟨w', ?_, h⟩
    unfold World.takeFresh
    cases c with
    | fresh u => exact absurd rfl (hno u)
    | _ => rfl

/-- The entry under a key of the kept side. -/
theorem redis (h : World.Shows T mine side w w') {key : String}
    (hkey : (∃ k, key = idempotencyKey k ∧ mine k = true) ∨
      ∃ id, key = tenantConfigKey id ∧ decide (id = T) = true) : w'.redis key = w.redis key := by
  rcases hkey with ⟨k, rfl, hk⟩ | ⟨id, rfl, hid⟩
  · exact h.idempotency k hk
  · rw [of_decide_eq_true hid]
    exact h.tenant

theorem setex (h : World.Shows T mine side w w') (key : String) (ttl : Nat) (value : String) :
    World.Shows T mine side (w.setex key ttl value) (w'.setex key ttl value) := by
  have hupdate : ∀ key', w'.redis key' = w.redis key' →
      (w'.setex key ttl value).redis key' = (w.setex key ttl value).redis key' := by
    intro key' hkey'
    simp only [World.setex, h.clock]
    by_cases heq : key' = key
    · rw [heq, Function.update_self, Function.update_self]
    · rw [Function.update_of_ne heq, Function.update_of_ne heq]
      exact hkey'
  exact ⟨h.db, fun k hk => hupdate _ (h.idempotency k hk), hupdate _ h.tenant, h.clock, h.appClock,
    h.used, h.trace, h.started⟩

/-- An entry under a key of the other side. -/
theorem setex_left (h : World.Shows T mine side w w') {key : String} (ttl : Nat) (value : String)
    (hkey : (∃ k, key = idempotencyKey k ∧ mine k = false) ∨
      ∃ id, key = tenantConfigKey id ∧ decide (id = T) = false) :
    World.Shows T mine side (w.setex key ttl value) w' := by
  refine ⟨h.db, fun k hk => ?_, ?_, h.clock, h.appClock, h.used, h.trace, h.started⟩
  · have hne : idempotencyKey k ≠ key := by
      rcases hkey with ⟨k', rfl, hk'⟩ | ⟨id, rfl, -⟩
      · intro heq
        rw [idempotencyKey_injective heq, hk'] at hk
        simp at hk
      · exact idempotencyKey_ne_tenantConfigKey k id
    simp only [World.setex, Function.update_of_ne hne]
    exact h.idempotency k hk
  · have hne : tenantConfigKey T ≠ key := by
      rcases hkey with ⟨k', rfl, -⟩ | ⟨id, rfl, hid⟩
      · exact (idempotencyKey_ne_tenantConfigKey k' T).symm
      · intro heq
        exact of_decide_eq_false hid (tenantConfigKey_injective heq).symm
    simp only [World.setex, Function.update_of_ne hne]
    exact h.tenant

/-- **A call of the kept side** is answered the same. -/
theorem execOp (h : World.Shows T mine side w w') (hside : side t = some true) {op : Op}
    (hop : op.OnSide T mine true) :
    Outcome.Rel (World.Shows T mine side) (execOp P t c w op) (execOp P t c w' op) := by
  have hread : ∀ {α : Type} (a : α), Outcome.Rel (World.Shows T mine side)
      (awaited c w (some (.ok a, w))) (awaited c w' (some (.ok a, w'))) :=
    fun a => awaited_rel h ⟨rfl, h⟩
  cases op with
  | uuid4 =>
    cases c with
    | fresh u =>
      rcases hw : w.takeFresh (.fresh u) with _ | w₁
      · simp only [VcsGateway.execOp, execUuid4, hw]
        trivial
      · obtain ⟨w₁', hw', hshows⟩ := h.takeFresh hw
        simp only [VcsGateway.execOp, execUuid4, hw, hw']
        exact ⟨rfl, hshows⟩
    | _ => trivial
  | utcnow =>
    cases c with
    | ok => exact ⟨congrArg Except.ok h.appClock.symm, h⟩
    | _ => trivial
  | redisGet key =>
    have hcached : w'.cached key = w.cached key := by
      unfold World.cached
      rw [h.redis hop, h.clock]
    simp only [VcsGateway.execOp, hcached]
    exact hread _
  | redisSetex key ttl value =>
    have hset := h.setex key ttl value
    cases c with
    | lost n => exact ⟨rfl, hset⟩
    | ok => exact ⟨rfl, hset⟩
    | fault n => exact ⟨rfl, h⟩
    | cancel => exact ⟨rfl, h⟩
    | fresh u => trivial
  | selectTenant id =>
    simp only [VcsGateway.execOp, h.db.tenants]
    exact hread _
  | selectWhitelist provider =>
    simp only [VcsGateway.execOp, h.db.whitelist]
    exact hread _
  | selectByPrHashKey k =>
    have hk : mine k = true := hop
    have hfind : (w'.db.inbound.find? fun i => i.prHashKey = k) =
        w.db.inbound.find? fun i => i.prHashKey = k := by
      rw [h.db.inbound, List.find?_filter]
      congr 1
      funext i
      by_cases heq : i.prHashKey = k
      · simp [heq, hk]
      · simp [heq]
    simp only [VcsGateway.execOp, hfind]
    exact hread _
  | begin =>
    simp only [VcsGateway.execOp, h.clock]
    exact h.onDb (h.db.execBegin hside w.clock c)
  | commit => exact h.onDb (h.db.execCommit hside c)
  | rollback => exact h.onDb (h.db.execRollback hside c)
  | insertInbound e => exact h.onDb (h.db.execInsertInbound hside hop.1 hop.2 c)
  | insertEvent e =>
    rcases hw : w.takeFresh c with _ | w₁
    · simp only [VcsGateway.execOp, hw]
      trivial
    · obtain ⟨w₁', hw', hshows⟩ := h.takeFresh hw
      simp only [VcsGateway.execOp, hw, hw']
      exact hshows.onDb (h.db.execInsertEvent hside hop.1 hop.2 c)
  | cancelScan k v =>
    have hv : v = 1 := hop
    subst hv
    exact h.onDb (h.db.execCancelScan hside k c)
  | openChannel =>
    rcases hw : w.takeFresh c with _ | w₁
    · simp only [VcsGateway.execOp, execOpenChannel, hw]
      trivial
    · obtain ⟨w₁', hw', hshows⟩ := h.takeFresh hw
      simp only [VcsGateway.execOp, execOpenChannel, hw, hw']
      refine awaitedFresh_rel h fun u => ⟨rfl, ?_⟩
      exact ⟨hshows.db, hshows.idempotency, hshows.tenant, hshows.clock, hshows.appClock,
        hshows.used, hshows.trace, hshows.started⟩
  | getExchange ch name => exact hread _
  | publish exchange message routingKey => exact hread _
  | closeChannel ch =>
    refine awaited_rel h ⟨rfl, ?_⟩
    exact ⟨h.db, h.idempotency, h.tenant, h.clock, h.appClock, h.used, h.trace, h.started⟩
  | _ => exact hop.elim

/-- **A call of the other side** is not seen. -/
theorem left (h : World.Shows T mine side w w') (hside : side t = some false) {op : Op}
    (hop : op.OnSide T mine false) {r : Except Exn op.Ret}
    (he : VcsGateway.execOp P t c w op = some (r, w₁)) : World.Shows T mine side w₁ w' := by
  have hdb := h.db.left hside hop (execOp_moves he)
  have hset : ∀ db₁, w₁ = { w with db := db₁ } → World.Shows T mine side w₁ w' := by
    rintro db₁ rfl
    exact ⟨hdb, h.idempotency, h.tenant, h.clock, h.appClock, h.used, h.trace, h.started⟩
  have hread : ∀ {α : Type} {a : α} {r : Except Exn α},
      awaited c w (some (.ok a, w)) = some (r, w₁) → World.Shows T mine side w₁ w' := by
    intro α a r hr
    rcases awaited_world hr with ⟨_, _, _, rfl⟩ | ⟨_, rfl⟩ <;> exact h
  have hused : ∀ u, World.Shows T mine side { w with used := u :: w.used } w' := by
    intro u
    exact ⟨h.db, h.idempotency, h.tenant, h.clock, h.appClock,
      fun _ hu => List.mem_cons_of_mem u (h.used hu), h.trace, h.started⟩
  cases op with
  | uuid4 =>
    obtain ⟨u, -, -, -, rfl⟩ := execUuid4_eq_some he
    exact hused u
  | utcnow =>
    obtain ⟨-, rfl⟩ := atOnce_eq_some he
    exact h
  | redisGet key => exact hread he
  | redisSetex key ttl value =>
    rcases execSetex_eq_some he with ⟨_, _, _, rfl⟩ | ⟨_, rfl⟩
    · exact h
    · exact h.setex_left ttl value hop
  | selectTenant id => exact hread he
  | selectWhitelist provider => exact hread he
  | selectByPrHashKey k => exact hread he
  | insertEvent e =>
    simp only [VcsGateway.execOp, Option.bind_eq_some_iff] at he
    obtain ⟨w₂, hw₂, he⟩ := he
    obtain ⟨db₁, -, rfl⟩ := onDb_eq_some he
    rcases takeFresh_eq_some hw₂ with ⟨u, -, -, rfl⟩ | ⟨-, rfl⟩
    · have hshows := hused u
      exact ⟨hdb, hshows.idempotency, hshows.tenant, hshows.clock, hshows.appClock, hshows.used,
        hshows.trace, hshows.started⟩
    · exact hset db₁ rfl
  | openChannel =>
    rcases execOpenChannel_eq_some he with ⟨_, _, _, rfl⟩ | ⟨u, -, -, -, rfl⟩
    · exact h
    · have hshows := hused u
      exact ⟨hshows.db, hshows.idempotency, hshows.tenant, hshows.clock, hshows.appClock,
        hshows.used, hshows.trace, hshows.started⟩
  | getExchange ch name => exact hread he
  | publish exchange message routingKey => exact hread he
  | closeChannel ch =>
    rcases awaited_world he with ⟨_, _, _, rfl⟩ | ⟨_, rfl⟩
    · exact h
    · exact ⟨h.db, h.idempotency, h.tenant, h.clock, h.appClock, h.used, h.trace, h.started⟩
  | begin =>
    obtain ⟨db₁, -, heq⟩ := onDb_eq_some he
    exact hset db₁ heq
  | commit =>
    obtain ⟨db₁, -, heq⟩ := onDb_eq_some he
    exact hset db₁ heq
  | rollback =>
    obtain ⟨db₁, -, heq⟩ := onDb_eq_some he
    exact hset db₁ heq
  | insertInbound e =>
    obtain ⟨db₁, -, heq⟩ := onDb_eq_some he
    exact hset db₁ heq
  | cancelScan k v =>
    obtain ⟨db₁, -, heq⟩ := onDb_eq_some he
    exact hset db₁ heq
  | _ => exact hop.elim

/-- The event is entered on its side. -/
theorem record (h : World.Shows T mine side w w') (hside : side t = some true) (op : Op)
    (r : Except Exn op.Ret) : World.Shows T mine side (w.record ⟨t, op, r⟩) (w'.record ⟨t, op, r⟩) := by
  refine ⟨h.db, h.idempotency, h.tenant, h.clock, h.appClock, h.used, ?_, ?_⟩
  · simp only [World.record, List.filter_append, h.trace]
    simp [hside]
  · intro e he
    rcases List.mem_append.mp he with he | he
    · exact h.started e he
    · rw [List.mem_singleton.mp he]
      simp [hside]

theorem record_left (h : World.Shows T mine side w w') (hside : side t = some false) (op : Op)
    (r : Except Exn op.Ret) : World.Shows T mine side (w.record ⟨t, op, r⟩) w' := by
  refine ⟨h.db, h.idempotency, h.tenant, h.clock, h.appClock, h.used, ?_, ?_⟩
  · simp only [World.record, List.filter_append, h.trace]
    simp [hside]
  · intro e he
    rcases List.mem_append.mp he with he | he
    · exact h.started e he
    · rw [List.mem_singleton.mp he]
      simp [hside]

theorem env (h : World.Shows T mine side w w') (e : EnvEvent) :
    World.Shows T mine side (envStep e w) (envStep e w') := by
  have hdb := h.db
  have hsorted := hdb.sorted
  cases e with
  | tick n =>
    exact ⟨hdb, h.idempotency, h.tenant, congrArg (· + n) h.clock, h.appClock, h.used, h.trace,
      h.started⟩
  | tickApp n =>
    exact ⟨hdb, h.idempotency, h.tenant, h.clock, congrArg (· + n) h.appClock, h.used, h.trace,
      h.started⟩
  | evict key =>
    have hupdate : ∀ key', w'.redis key' = w.redis key' →
        Function.update w'.redis key none key' = Function.update w.redis key none key' := by
      intro key' hkey'
      by_cases heq : key' = key
      · rw [heq, Function.update_self, Function.update_self]
      · rw [Function.update_of_ne heq, Function.update_of_ne heq]
        exact hkey'
    exact ⟨hdb, fun k hk => hupdate _ (h.idempotency k hk), hupdate _ h.tenant, h.clock, h.appClock,
      h.used, h.trace, h.started⟩
  | setTenant id row =>
    refine ⟨⟨?_, ?_, hdb.whitelist, hdb.inbound, hdb.outbox, hdb.sessions, hdb.keyLock⟩,
      h.idempotency, h.tenant, h.clock, h.appClock, h.used, h.trace, h.started⟩
    · exact ⟨hsorted.inbound, hsorted.outbox, hsorted.pending, hsorted.holder⟩
    · simp only [envStep, hdb.tenants]
  | setWhitelist rows =>
    refine ⟨⟨?_, hdb.tenants, rfl, hdb.inbound, hdb.outbox, hdb.sessions, hdb.keyLock⟩,
      h.idempotency, h.tenant, h.clock, h.appClock, h.used, h.trace, h.started⟩
    exact ⟨hsorted.inbound, hsorted.outbox, hsorted.pending, hsorted.holder⟩
  | dropChannel ch =>
    exact ⟨hdb, h.idempotency, h.tenant, h.clock, h.appClock, h.used, h.trace, h.started⟩

theorem vanish (h : World.Shows T mine side w w') (hside : side t = some true) :
    World.Shows T mine side (vanish t w) (vanish t w') := by
  unfold VcsGateway.vanish
  rw [h.db.session hside]
  rcases w.db.sessions t with _ | tx
  · exact h
  · exact h.setDb (h.db.discard t)

theorem vanish_left (h : World.Shows T mine side w w') (hside : side t = some false) :
    World.Shows T mine side (VcsGateway.vanish t w) w' := by
  unfold VcsGateway.vanish
  rcases htx : w.db.sessions t with _ | tx
  · exact h
  · exact h.setDb (h.db.discard_left hside)

/-- A call has been given a side. -/
theorem grow {side' : Nat → Option Bool} (h : World.Shows T mine side w w')
    (hside : ∀ t b, side t = some b → side' t = some b) : World.Shows T mine side' w w' := by
  have hdb := h.db
  refine ⟨⟨hdb.sorted.grow hside, hdb.tenants, hdb.whitelist, hdb.inbound, hdb.outbox, ?_,
    hdb.keyLock⟩, h.idempotency, h.tenant, h.clock, h.appClock, h.used, ?_, ?_⟩
  · intro t ht
    exact hdb.sessions t fun hfalse => ht (hside t false hfalse)
  · rw [h.trace]
    apply List.filter_congr
    intro e he
    obtain ⟨b, hb⟩ := Option.ne_none_iff_exists'.mp (h.started e he)
    rw [hb, hside e.tid b hb]
  · intro e he
    obtain ⟨b, hb⟩ := Option.ne_none_iff_exists'.mp (h.started e he)
    simp [hside e.tid b hb]

/-- No call of either side finds a version to cancel. -/
theorem findsNothing (h : World.Shows T mine side w w') (hside : side t = some b) {op : Op}
    (hop : op.OnSide T mine b) {r : Except Exn op.Ret}
    (he : VcsGateway.execOp P t c w op = some (r, w₁)) : op.FindsNothing r := by
  cases op with
  | cancelScan k v =>
    have hv : v = 1 := hop
    subst hv
    obtain ⟨db₁, hdb, -⟩ := onDb_eq_some he
    rintro ids rfl
    exact h.db.sorted.findsNothing hside hdb
  | _ => trivial

/-- A coroutine without a side has no transaction. -/
theorem vanish_none (h : World.Shows T mine side w w') (hside : side t = none) :
    VcsGateway.vanish t w = w := by
  unfold VcsGateway.vanish
  rcases htx : w.db.sessions t with _ | tx
  · rfl
  · obtain ⟨b, hb, -⟩ := h.db.sorted.pending t tx htx
    simp [hside] at hb

end World.Shows

end Sides

/-! ### Calls -/

section Calls

/-- The call awaits only what stands on side `b`, as long as `_CANCEL_PREVIOUS` finds nothing. -/
abbrev Stays (T : UUID) (mine : String → Bool) (b : Bool) {α : Type} (p : Coroutine α) : Prop :=
  (Protocol.heeding (Op.OnSide T mine b) Op.FindsNothing).Conforms (fun _ _ => True) p ()

variable {T : UUID} {mine : String → Bool} {b : Bool} {P : Platform} {req : Request} {α β : Type}

theorem Stays.bind {p : Coroutine α} {f : α → Coroutine β} (hp : Stays T mine b p)
    (hf : ∀ a, Stays T mine b (f a)) : Stays T mine b (p >>= f) :=
  Protocol.Conforms.bind hp (fun a _ _ => hf a) fun _ _ _ => trivial

theorem stays_perform (op : Op) (h : op.OnSide T mine b) : Stays T mine b (perform op) :=
  ⟨h, fun _ _ => trivial⟩

theorem Op.Journey.onSide {op : Op} (h : op.Journey) : op.OnSide T mine b := by
  cases h <;> trivial

theorem emit_stays (stepType : JourneyStepType) (status : JourneyStepStatus)
    (correlationId tenantId : UUID) (metadata : List (String × Json)) :
    Stays T mine b (emit P stepType status correlationId tenantId metadata) :=
  ((emit_only P stepType status correlationId tenantId metadata).mono fun _ h => h.onSide).heeding

theorem getWebhookSecret_stays {id : UUID} (hid : decide (id = T) = b) :
    Stays T mine b (getWebhookSecret P id) := by
  refine ((getWebhookSecret_only P id).mono fun op hop => ?_).heeding
  cases hop with
  | get => exact .inr ⟨id, rfl, hid⟩
  | select => exact hid
  | set value => exact .inr ⟨id, rfl, hid⟩

theorem setIdempotencyCache_stays {k : String} (hk : mine k = b) (ttl : Nat) :
    Stays T mine b (setIdempotencyCache k ttl) := by
  refine ((setIdempotencyCache_only k ttl).mono ?_).heeding
  rintro op rfl
  exact .inl ⟨k, rfl, hk⟩

theorem check_stays {k : String} (hk : mine k = b) : Stays T mine b (check P k) := by
  have hget : Stays T mine b (getIdempotencyCache k) := by
    refine ((getIdempotencyCache_only k).mono ?_).heeding
    rintro op rfl
    exact .inl ⟨k, rfl, hk⟩
  refine hget.bind fun cached => ?_
  rcases cached with _ | v
  · have hselect : Stays T mine b (getByPrHashKey P k) := by
      refine ((getByPrHashKey_only P k).mono ?_).heeding
      rintro op rfl
      exact hk
    refine hselect.bind fun existing => ?_
    rcases existing with _ | row
    · trivial
    · exact (setIdempotencyCache_stays hk _).bind fun _ => trivial
  · trivial

/-- No row is taken up, for none is found. -/
theorem cancelPrevious_stays (k reason : String) : Stays T mine b (cancelPrevious k 1 reason) := by
  refine ⟨rfl, fun r hr => ?_⟩
  cases r with
  | error e => trivial
  | ok ids =>
    obtain rfl : ids = [] := hr ids rfl
    trivial

theorem transaction_stays {body : Coroutine α} (hbody : Stays T mine b body) :
    Stays T mine b (transaction body) := by
  apply conforms_transaction (R := fun _ _ => True)
  · trivial
  · exact fun _ _ => trivial
  · exact hbody
  · exact fun _ _ _ => ⟨trivial, trivial, fun _ _ => trivial⟩
  · exact fun _ _ _ => ⟨trivial, trivial, fun _ _ => trivial⟩

theorem persist_stays {k : String} (hk : mine k = b) (htenant : decide (req.tenantId = T) = b)
    (correlationId : UUID) (prData : PullRequestData) :
    Stays T mine b (persist P req correlationId prData k) := by
  refine (stays_perform .uuid4 trivial).bind fun eventId => ?_
  refine Stays.bind (p := Prog.ofExcept _) trivial fun rawJson => ?_
  refine (stays_perform .utcnow trivial).bind fun timestamp => ?_
  have hbody : Stays T mine b (persistBody P req correlationId eventId timestamp prData k rawJson) := by
    refine Stays.bind (Stays.bind (stays_perform (.insertInbound _) ⟨hk, htenant⟩) fun _ => trivial) fun _ => ?_
    refine (cancelPrevious_stays k _).bind fun _ => ?_
    exact stays_perform (.insertEvent _) ⟨hk, rfl⟩
  refine Stays.bind (Protocol.Conforms.handle (transaction_stays hbody) (fun _ _ _ => trivial) ?_)
    fun _ => trivial
  intro e _ _
  cases e <;> trivial

theorem persistStep_stays {k : String} (hk : mine k = b) (htenant : decide (req.tenantId = T) = b)
    (correlationId : UUID) (prData : PullRequestData) :
    Stays T mine b (persistStep P req correlationId prData k) := by
  refine (persist_stays hk htenant correlationId prData).andThen fun r _ _ => ?_
  rcases r with exc | ⟨eventId, outboxId⟩
  · rcases exc with ⟨cls, msg, details⟩
    · cases cls <;> trivial
    all_goals trivial
  · refine (setIdempotencyCache_stays hk _).bind fun _ => ?_
    exact (emit_stays _ _ _ _ _).bind fun _ => trivial

/-- The keys of the request stand on its side. -/
def Request.KeyOn (P : Platform) (mine : String → Bool) (b : Bool) (req : Request) : Prop :=
  ∀ prData, parsePayload P req.vcsProvider req.rawPayload = .ok prData →
    mine (requestKey P req prData) = b

theorem processWebhook_stays (htenant : decide (req.tenantId = T) = b) (hkey : req.KeyOn P mine b) :
    Stays T mine b (processWebhook P req) := by
  refine (stays_perform .uuid4 trivial).bind fun correlationId => ?_
  by_cases hprovider : req.vcsProvider ∉ supportedProviders
  · simp only [hprovider, not_false_eq_true, if_true]
    trivial
  simp only [hprovider, if_false]
  refine (getWebhookSecret_stays htenant).bind fun secret => ?_
  refine (stays_perform (.selectWhitelist req.vcsProvider) trivial).bind fun whitelist => ?_
  refine Stays.bind ?_ fun _ => (emit_stays _ _ _ _ _).bind fun _ => ?_
  · exact ((validateSignature_only P _ _ _ _ _ _).mono fun _ h => h.onSide).heeding
  refine Protocol.Conforms.ofExcept_bind (fun prData hparse => ?_) fun _ _ => trivial
  have hk := hkey prData hparse
  by_cases hallowed : isEventAllowed (extractEventType req.headers) prData.action whitelist = true
  · simp only [hallowed, Bool.not_true, Bool.false_eq_true, if_false]
    refine (check_stays hk).bind fun detection => ?_
    rcases detection with _ | detection
    · exact (emit_stays _ _ _ _ _).bind fun _ => persistStep_stays hk htenant correlationId prData
    · exact (emit_stays _ _ _ _ _).bind fun _ => trivial
  · simp only [hallowed, Bool.not_false, if_true]
    exact (emit_stays _ _ _ _ _).bind fun _ => trivial

end Calls

/-! ### Runs -/

section Runs

variable {P : Platform} {T : UUID} {mine : String → Bool} {ls : List GatewayLabel} {c d : GatewayConfig}

/-- The side of every call. -/
def sides (T : UUID) (τ : Nat → Option Task) (t : Nat) : Option Bool :=
  match τ t with
  | some (.webhook req) => some (decide (req.tenantId = T))
  | _ => none

theorem sides_webhook {τ : Nat → Option Task} {t : Nat} {req : Request}
    (h : τ t = some (.webhook req)) : sides T τ t = some (decide (req.tenantId = T)) := by
  simp [sides, h]

/-- What a call awaits stands on its side. -/
def Task.OnSide (T : UUID) (mine : String → Bool) : Task → Op → Prop
  | .webhook req, op => op.OnSide T mine (decide (req.tenantId = T))
  | _, _ => False

/-- Only `process_webhook` is called, with keys that stand on the side of the call. -/
def keepsSides (P : Platform) (T : UUID) (mine : String → Bool) : GatewayLabel → Prop
  | .spawn _ k => ∃ req, k = .webhook req ∧ req.KeyOn P mine (decide (req.tenantId = T))
  | _ => True

/-- The calls for one tenant, apart from those for the others. -/
def tenantApart (P : Platform) (T : UUID) (mine : String → Bool) :
    (gateway P).Separation (keepsSides P T mine) where
  kept k := ∃ req, k = .webhook req ∧ req.tenantId = T
  ops := Task.OnSide T mine
  admits := Op.FindsNothing
  Sim w w' τ := World.Shows T mine (sides T τ) w w'
  conforms t k hk := by
    obtain ⟨req, rfl, hkey⟩ := hk
    exact processWebhook_stays rfl hkey
  spawn {w w' τ t k} _ h ht := by
    apply h.grow
    intro t' b hb
    by_cases heq : t' = t
    · subst heq
      simp [sides, ht] at hb
    · unfold sides at hb ⊢
      rw [Function.update_of_ne heq]
      exact hb
  keptExec {w w' τ t k op ch a w₁} h ht hk hop he := by
    obtain ⟨req, rfl, hT⟩ := hk
    have hside := sides_webhook (T := T) ht
    have hop : op.OnSide T mine (decide (req.tenantId = T)) := hop
    rw [decide_eq_true hT] at hside hop
    obtain ⟨w₂, hexec, rfl⟩ := exec_eq_some he
    obtain ⟨w₂', he', hw⟩ := (h.execOp hside hop).some_left hexec
    refine ⟨h.findsNothing hside hop hexec, w₂'.record ⟨t, op, a⟩, ?_, hw.record hside op a⟩
    exact exec_of_execOp he'
  leftExec {w w' τ t k op ch a w₁} h ht hk hop he := by
    cases k with
    | webhook req =>
      have hside := sides_webhook (T := T) ht
      have hop : op.OnSide T mine (decide (req.tenantId = T)) := hop
      have hT : ¬req.tenantId = T := fun hT => hk ⟨req, rfl, hT⟩
      rw [decide_eq_false hT] at hside hop
      obtain ⟨w₂, hexec, rfl⟩ := exec_eq_some he
      exact ⟨h.findsNothing hside hop hexec, (h.left hside hop hexec).record_left hside op a⟩
    | _ => exact hop.elim
  env {_ _ _ e} _ h := h.env e
  keptKill {w w' τ t k} h ht hk := by
    obtain ⟨req, rfl, hT⟩ := hk
    have hside := sides_webhook (T := T) ht
    rw [decide_eq_true hT] at hside
    exact h.vanish hside
  leftKill {w w' τ t k} h ht hk := by
    cases k with
    | webhook req =>
      have hside := sides_webhook (T := T) ht
      have hT : ¬req.tenantId = T := fun hT => hk ⟨req, rfl, hT⟩
      rw [decide_eq_false hT] at hside
      exact h.vanish_left hside
    | _ =>
      have hside : sides T τ t = none := by simp [sides, ht]
      change World.Shows T mine (sides T τ) (vanish t w) w'
      rw [h.vanish_none hside]
      exact h

/-- The bytes of the two requests parse, and their keys are the same. -/
def SameKey (P : Platform) (req : Request) (prData : PullRequestData) (req' : Request)
    (prData' : PullRequestData) : Prop :=
  parsePayload P req.vcsProvider req.rawPayload = .ok prData ∧
    parsePayload P req'.vcsProvider req'.rawPayload = .ok prData' ∧
    requestKey P req prData = requestKey P req' prData'

/-- SHA-256 has no collision among the key strings of the webhooks. -/
def NoCollision (P : Platform) (ls : List GatewayLabel) : Prop :=
  ∀ t req prData t' req' prData', .spawn t (.webhook req) ∈ ls → .spawn t' (.webhook req') ∈ ls →
    SameKey P req prData req' prData' → keyInput req prData = keyInput req' prData'

/-- The tenant can be read back from the key string. -/
theorem tenant_of_keyInput {req req' : Request} {prData prData' : PullRequestData}
    (h : SameKey P req prData req' prData') (heq : keyInput req prData = keyInput req' prData') :
    req.tenantId = req'.tenantId := by
  have hprovider : ∀ {req : Request} {prData : PullRequestData},
      parsePayload P req.vcsProvider req.rawPayload = .ok prData → ':' ∉ req.vcsProvider.toList := by
    intro req prData h
    rcases parsePayload_fields h with ⟨hp, -⟩ | ⟨hp, -⟩
    · rw [hp]; decide
    · rw [hp]; decide
  rw [← String.toList_inj] at heq
  unfold keyInput at heq
  rw [toList_prHashInput, toList_prHashInput] at heq
  obtain ⟨-, heq⟩ := append_sep_inj (hprovider h.1) (hprovider h.2.1) heq
  obtain ⟨heq, -⟩ := append_sep_inj UUID.colon_not_mem_str UUID.colon_not_mem_str heq
  exact UUID.str_injective (String.toList_inj.mp heq)

open Classical in
/-- The keys of the webhooks of `T` that are started. -/
noncomputable def keysOf (P : Platform) (T : UUID) (ls : List GatewayLabel) (k : String) : Bool :=
  decide (∃ t req prData, .spawn t (.webhook req) ∈ ls ∧ req.tenantId = T ∧
    parsePayload P req.vcsProvider req.rawPayload = .ok prData ∧ requestKey P req prData = k)

theorem keysOf_eq_true_iff {k : String} : keysOf P T ls k = true ↔
    ∃ t req prData, .spawn t (.webhook req) ∈ ls ∧ req.tenantId = T ∧
      parsePayload P req.vcsProvider req.rawPayload = .ok prData ∧ requestKey P req prData = k := by
  simp [keysOf]

theorem NoCollision.keyOn (h : NoCollision P ls) {t : Nat} {req : Request}
    (hspawn : .spawn t (.webhook req) ∈ ls) :
    req.KeyOn P (keysOf P T ls) (decide (req.tenantId = T)) := by
  intro prData hparse
  rw [Bool.eq_iff_iff, keysOf_eq_true_iff, decide_eq_true_iff]
  constructor
  · rintro ⟨t', req', prData', hspawn', rfl, hparse', hkey⟩
    have hsame : SameKey P req prData req' prData' := ⟨hparse, hparse', hkey.symm⟩
    exact tenant_of_keyInput hsame (h t req prData t' req' prData' hspawn hspawn' hsame)
  · intro hT
    exact ⟨t, req, prData, hspawn, hT, hparse, rfl⟩

theorem World.Shows.initial (T : UUID) (mine : String → Bool) (tenants : UUID → Option Tenant)
    (whitelist : List VcsEventWhitelist) : World.Shows T mine (sides T fun _ => none)
      (World.initial tenants whitelist) (World.initial tenants whitelist) where
  db := by
    refine ⟨⟨?_, ?_, ?_, ?_⟩, rfl, rfl, rfl, rfl, fun _ _ => rfl, fun _ _ => rfl⟩ <;>
      simp [World.initial]
  idempotency _ _ := rfl
  tenant := rfl
  clock := rfl
  appClock := rfl
  used := List.Subset.refl _
  trace := rfl
  started := by simp [World.initial]

/-- The call `t` is one of `process_webhook` for `T`. -/
def callFor (T : UUID) (c : GatewayConfig) (t : Nat) : Bool := sides T c.taskOf t = some true

/-- `c'` is what `c` holds of the tenant `T`: its calls, the way they went, and its rows. -/
structure OfTenant (T : UUID) (c c' : GatewayConfig) : Prop where
  calls : ∀ t, c'.threads t = if callFor T c t then c.threads t else none
  events : c'.world.trace = c.world.trace.filter fun e => callFor T c e.tid
  inbound : c'.world.db.inbound = c.world.db.inbound.filter fun row => row.tenantId = T
  outbox : c'.world.db.outbox = c.world.db.outbox.filter fun r =>
    c.world.db.inbound.any fun row => row.identity = r.identity ∧ row.tenantId = T

theorem callFor_iff (h : (gateway P).run d ls = some c) {t : Nat} {k : Task}
    (hspawn : .spawn t k ∈ ls) :
    callFor T c t = true ↔ ∃ req, k = .webhook req ∧ req.tenantId = T := by
  have htask : c.taskOf t = some k := Machine.run_taskOf h (.inr hspawn)
  unfold callFor sides
  rw [htask]
  cases k <;> simp

/-- The outbox row of a call is on the side of its `inbound_event` row. -/
theorem Accounted.mine_outbox {w : World} {σ : Nat → CallState} {τ : Nat → Option Task}
    {side : Nat → Option Bool} (h : Accounted P w σ τ) (hdb : w.db.Sorted T mine side)
    {r : OutboxEvent} (hr : r ∈ w.db.outbox) :
    mine r.prHashKey = w.db.inbound.any fun row => row.identity = r.identity ∧ row.tenantId = T := by
  have hmem : r.identity ∈ w.db.inbound.map InboundEvent.identity := by
    rw [← h.identities]
    exact List.mem_map_of_mem hr
  obtain ⟨row, hrow, hidentity⟩ := List.mem_map.mp hmem
  have hkey : row.prHashKey = r.prHashKey := congrArg Prod.fst hidentity
  rw [← hkey, hdb.inbound row hrow, Bool.eq_iff_iff, List.any_eq_true]
  constructor
  · intro hT
    exact ⟨row, hrow, decide_eq_true ⟨hidentity, of_decide_eq_true hT⟩⟩
  · rintro ⟨row', hrow', heq⟩
    obtain ⟨hidentity', hT⟩ := of_decide_eq_true heq
    rw [h.inbound_eq hrow hrow' (hidentity.trans hidentity'.symm)]
    exact decide_eq_true hT

/-- **Tenants do not meet.**  Strike from a run of `process_webhook` calls the calls for all
    other tenants: those of `T` end as they ended, on the same answers, and `T` has the same
    rows. -/
theorem tenants_do_not_meet {tenants : UUID → Option Tenant} {whitelist : List VcsEventWhitelist}
    (hls : ∀ l ∈ ls, starts (fun k => ∃ req, k = .webhook req) l) (hcollision : NoCollision P ls)
    (h : (gateway P).run (Config.start (World.initial tenants whitelist)) ls = some c) (T : UUID) :
    ∃ c', (gateway P).run (Config.start (World.initial tenants whitelist))
        (ls.filter (Label.of (callFor T c))) = some c' ∧ OfTenant T c c' := by
  have hok : ∀ l ∈ ls, keepsSides P T (keysOf P T ls) l := by
    intro l hl
    cases l with
    | spawn t k =>
      obtain ⟨req, rfl⟩ := hls _ hl
      exact ⟨req, rfl, hcollision.keyOn hl⟩
    | _ => trivial
  have hstart : (tenantApart P T (keysOf P T ls)).Related (callFor T c)
      (Config.start (World.initial tenants whitelist)) (Config.start (World.initial tenants whitelist)) :=
    .start (World.Shows.initial T _ tenants whitelist)
  obtain ⟨c', hrun, hrelated⟩ := hstart.run hok (fun t k hspawn => callFor_iff h hspawn) h
  have hshows : World.Shows T (keysOf P T ls) (sides T c.taskOf) c.world c'.world := hrelated.sim
  have hreachable : Reachable P serviceTask c := by
    refine ⟨tenants, whitelist, ls, fun l hl => ?_, h⟩
    cases l with
    | spawn t k =>
      obtain ⟨req, rfl⟩ := hls _ hl
      trivial
    | _ => trivial
  obtain ⟨σ, hinv, -⟩ := reachable_accounted hreachable
  have hinv : Accounted P c.world σ c.taskOf := hinv
  refine ⟨c', hrun, hrelated.threads, hshows.trace, ?_, ?_⟩
  · rw [hshows.db.inbound]
    exact List.filter_congr hshows.db.sorted.inbound
  · rw [hshows.db.outbox]
    exact List.filter_congr fun r hr => hinv.mine_outbox hshows.db.sorted hr

end Runs

namespace Example

/-- The same webhook, sent to a tenant that does not exist. -/
def strayDelivery : Request := { delivery first with tenantId := ⟨8⟩ }

/-- The first webhook is accepted while the stray one looks its tenant up. -/
def twoTenants : List GatewayLabel :=
  (.spawn 1 (.webhook strayDelivery) :: .step 1 (.fresh ⟨50⟩) ::
      solo (.webhook (delivery first)) freshChoices) ++
    .step 0 (.fresh ⟨21⟩) :: ((Choice.ok :: Choice.ok :: emitChoices 22).map (.step 0) ++
      [Choice.ok, .ok].map (.step 1))

theorem twoTenants_run : ∃ c, (gateway (storing first)).run initial twoTenants = some c ∧
    Finished c 0 (.webhook (delivery first)) (.ok (.accepted ⟨9⟩ ⟨20⟩ ⟨21⟩)) ∧
    ∃ e, Finished c 1 (.webhook strayDelivery) (.error e) :=
  ⟨_, run_insertEvent rfl rfl rfl rfl (by decide) (storing_row rfl rfl rfl rfl) rfl, rfl, _, rfl⟩

theorem twoTenants_spawns {t : Nat} {k : Task} (h : .spawn t k ∈ twoTenants) :
    t = 1 ∧ k = .webhook strayDelivery ∨ t = 0 ∧ k = .webhook (delivery first) := by
  simpa [twoTenants, solo] using h

theorem twoTenants_noCollision : NoCollision (storing first) twoTenants := by
  rintro t req prData t' req' prData' h h' ⟨hparse, hparse', hkey⟩
  have hdata : ∃ data, parsePayload (storing first) "gitlab" first.text.toUTF8 = .ok data ∧
      requestKey (storing first) (delivery first) data ≠
        requestKey (storing first) strayDelivery data := ⟨_, rfl, by decide⟩
  obtain ⟨data, hdata, hne⟩ := hdata
  rcases twoTenants_spawns h with ⟨-, hk⟩ | ⟨-, hk⟩ <;> cases hk <;>
    rcases twoTenants_spawns h' with ⟨-, hk⟩ | ⟨-, hk⟩ <;> cases hk
  all_goals
    obtain rfl : data = prData := Except.ok.inj (hdata.symm.trans hparse)
    obtain rfl : data = prData' := Except.ok.inj (hdata.symm.trans hparse')
  · rfl
  · exact absurd hkey.symm hne
  · exact absurd hkey hne
  · rfl

end Example

/-- The first webhook is accepted without the stray one, too. -/
theorem tenants_do_not_meet_stray : ∃ c c',
    (gateway (Example.storing Example.first)).run Example.initial Example.twoTenants = some c ∧
    (gateway (Example.storing Example.first)).run Example.initial
      (Example.twoTenants.filter (Label.of (callFor Example.tenant.tenantId c))) = some c' ∧
    OfTenant Example.tenant.tenantId c c' ∧
    Finished c' 0 (.webhook (Example.delivery Example.first)) (.ok (.accepted ⟨9⟩ ⟨20⟩ ⟨21⟩)) := by
  obtain ⟨c, hrun, hfin, -⟩ := Example.twoTenants_run
  have hwebhooks : ∀ l ∈ Example.twoTenants, starts (fun k => ∃ req, k = .webhook req) l := by
    intro l hl
    cases l with
    | spawn t k =>
      rcases Example.twoTenants_spawns hl with ⟨-, rfl⟩ | ⟨-, rfl⟩
      · exact ⟨_, rfl⟩
      · exact ⟨_, rfl⟩
    | _ => trivial
  obtain ⟨c', hrun', hsame⟩ :=
    tenants_do_not_meet hwebhooks Example.twoTenants_noCollision hrun Example.tenant.tenantId
  refine ⟨c, c', hrun, hrun', hsame, ?_⟩
  have hcall : callFor Example.tenant.tenantId c 0 = true := by
    have hthread : c.threads 0 = some ⟨.webhook (Example.delivery Example.first), .ret _, true⟩ := hfin
    simp [callFor, sides, Config.taskOf, hthread, Example.delivery]
  have hthread := hsame.calls 0
  rw [if_pos hcall] at hthread
  exact hthread.trans hfin

end VcsGateway
