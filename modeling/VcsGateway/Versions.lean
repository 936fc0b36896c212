import VcsGateway.Async.Monitor
import VcsGateway.Durability
import VcsGateway.Supersession

/-!
# The newest version

What `schedule_event` does to the older versions of an event: the protocol of its
transactions, and the order of commits under which only the newest version is live.
-/

namespace VcsGateway

open Async

variable {P : Platform}

/-! ### The protocol -/

/-- A `schedule_event` under way: the rows that `_CANCEL_PREVIOUS` found, those of them
    that it has taken up again, and whether the new row has been inserted. -/
structure Search where
  prHashKey : String
  prVersion : Int
  found : List UUID
  visited : List UUID := []
  inserted : Bool := false

structure VersionState where
  isPublisher : Bool
  search : Option Search := none

namespace VersionState

def allows (s : VersionState) : Op → Prop
  | .begin => s.search = none
  | .savepoint | .release | .rollbackTo => s.isPublisher = true
  | .markDispatched _ | .markFailed _ _ | .markRetry _ _ _ => s.isPublisher = true
  | .cancelScan _ _ => s.isPublisher = false ∧ s.search = none
  | .cancelRow id k v _ => s.isPublisher = false ∧ ∃ q, s.search = some q ∧ q.prHashKey = k ∧
      q.prVersion = v ∧ q.inserted = false ∧ id ∈ q.found
  | .insertEvent args => s.isPublisher = false ∧ ∃ q, s.search = some q ∧
      q.prHashKey = args.prHashKey ∧ q.prVersion = args.prVersion ∧ q.inserted = false ∧
      q.found ⊆ q.visited
  | _ => True

/-- The transaction is over. -/
def rest (s : VersionState) : VersionState := { s with search := none }

def visit (s : VersionState) (id : UUID) : VersionState :=
  { s with search := s.search.map fun q => { q with visited := id :: q.visited } }

def insert (s : VersionState) : VersionState :=
  { s with search := s.search.map fun q => { q with inserted := true } }

def next (s : VersionState) : (op : Op) → Except Exn op.Ret → VersionState
  | .cancelScan prHashKey prVersion, .ok found =>
    { s with search := some { prHashKey, prVersion, found } }
  | .cancelRow id _ _ _, .ok _ => s.visit id
  | .insertEvent _, _ => s.insert
  | .commit, _ | .rollback, _ => s.rest
  | _, _ => s

def start (k : Task) : VersionState := { isPublisher := k.marks }

end VersionState

@[reducible] def versioning : Protocol Exn Op Op.Ret where
  State := VersionState
  allows := VersionState.allows
  next := VersionState.next
  admits _ _ := True

/-! ### The programs follow it -/

section Conformance

variable {s : VersionState}

theorem journey_versions {op : Op} (h : op.Journey) (s : VersionState) :
    versioning.allows s op ∧ ∀ r, versioning.next s op r = s := by
  cases h <;> exact ⟨trivial, fun r => by cases r <;> rfl⟩

theorem idle_versions {op : Op} (h : op.Idle) (s : VersionState) :
    versioning.allows s op ∧ ∀ r, versioning.next s op r = s := by
  cases h with
  | journey h => exact journey_versions h s
  | _ => exact ⟨trivial, fun r => by cases r <;> rfl⟩

/-- The cancelling loop is about to take up these rows. -/
structure Taking (k : String) (v : Int) (ids : List UUID) (s : VersionState) : Prop where
  role : s.isPublisher = false
  search : ∃ q, s.search = some q ∧ q.prHashKey = k ∧ q.prVersion = v ∧ q.inserted = false ∧
    ids ⊆ q.found ∧ ∀ id ∈ q.found, id ∈ q.visited ∨ id ∈ ids

theorem Taking.visit {k : String} {v : Int} {id : UUID} {ids : List UUID}
    (h : Taking k v (id :: ids) s) : Taking k v ids (s.visit id) := by
  obtain ⟨hrole, q, hq, hk, hv, hinserted, hsub, hrest⟩ := h
  refine ⟨hrole, { q with visited := id :: q.visited }, ?_, hk, hv, hinserted, ?_, ?_⟩
  · simp [VersionState.visit, hq]
  · exact fun id' hid' => hsub (List.mem_cons_of_mem _ hid')
  · intro id' hid'
    rcases hrest id' hid' with hvisited | hleft
    · exact .inl (List.mem_cons_of_mem _ hvisited)
    · rcases List.mem_cons.mp hleft with rfl | hleft
      · exact .inl List.mem_cons_self
      · exact .inr hleft

theorem cancelPrevious_versions (k : String) (v : Int) (reason : String)
    (hrole : s.isPublisher = false) (hsearch : s.search = none) :
    versioning.Conforms (fun r s' => match r with
      | .ok _ => Taking k v [] s'
      | .error _ => s'.isPublisher = false) (cancelPrevious k v reason) s := by
  apply Protocol.Conforms.bind (P := versioning)
    (R := fun r s' => match r with
      | .ok ids => Taking k v ids s'
      | .error _ => s'.isPublisher = false)
  · apply Protocol.Conforms.perform (P := versioning)
    · exact ⟨hrole, hsearch⟩
    intro r _
    cases r with
    | error e => exact hrole
    | ok ids => exact ⟨hrole, _, rfl, rfl, rfl, rfl, fun _ h => h, fun id hid => .inr hid⟩
  · intro ids s' hs'
    apply Protocol.Conforms.mono (Protocol.Conforms.forEach (P := versioning) (I := Taking k v)
      (E := fun _ s' => s'.isPublisher = false) ?_ ids s' hs')
    · intro r s'' hs''
      cases r <;> exact hs''
    · intro id ids s' hs'
      obtain ⟨q, hq, hk, hv, hinserted, hsub, -⟩ := hs'.search
      apply Protocol.Conforms.perform (P := versioning)
      · exact ⟨hs'.role, q, hq, hk, hv, hinserted, hsub List.mem_cons_self⟩
      intro r _
      cases r with
      | error e => exact hs'.role
      | ok u => exact hs'.visit
  · exact fun e s' hs' => hs'

theorem scheduleEvent_versions (eventType : String) (correlationId : UUID) (k : String) (v : Int)
    (payload headers : Json) (debounceSeconds : Nat) (hrole : s.isPublisher = false)
    (hsearch : s.search = none) :
    versioning.Conforms (fun _ s' => s'.isPublisher = false)
      (scheduleEvent P eventType correlationId k v payload headers debounceSeconds) s := by
  apply Protocol.Conforms.bind (cancelPrevious_versions k v _ hrole hsearch)
  · intro u s' hs'
    obtain ⟨q, hq, hk, hv, hinserted, -, hrest⟩ := hs'.search
    apply Protocol.Conforms.perform
    · refine ⟨hs'.role, q, hq, hk, hv, hinserted, fun id hid => ?_⟩
      exact (hrest id hid).resolve_right (by simp)
    · exact fun r _ => hs'.role
  · exact fun e s' hs' => hs'

/-- A transaction that schedules an event is over when it ends. -/
theorem scheduling_versions {α : Type} {body : Coroutine α} (hsearch : s.search = none)
    (hbody : versioning.Conforms (fun _ s' => s'.isPublisher = s.isPublisher) body s) :
    Rests versioning (transaction body) s := by
  have hrest : ∀ s' : VersionState, s'.isPublisher = s.isPublisher → s'.rest = s := by
    intro s' hs'
    simp [VersionState.rest, hs', ← hsearch]
  apply conforms_transaction hsearch
  · exact fun _ _ => rfl
  · exact hbody
  · exact fun a s' hs' => ⟨trivial, hrest s' hs', fun e _ => hrest s' hs'⟩
  · exact fun exc s' hs' => ⟨trivial, hrest s' hs', fun e _ => hrest s' hs'⟩

theorem persistBody_versions (req : Request) (correlationId eventId : UUID) (timestamp : Time)
    (prData : PullRequestData) (prHashKey : String) (rawJson : List (String × Json))
    (hrole : s.isPublisher = false) (hsearch : s.search = none) :
    versioning.Conforms (fun _ s' => s'.isPublisher = false)
      (persistBody P req correlationId eventId timestamp prData prHashKey rawJson) s := by
  have hinsert : (insertInbound P (inboundArgs req correlationId eventId prData prHashKey
      rawJson)).Only fun op => versioning.allows s op ∧ ∀ r, versioning.next s op r = s := by
    apply Prog.Only.bind
    · exact Prog.only_perform.mpr ⟨trivial, fun r => by cases r <;> rfl⟩
    · exact fun _ => trivial
  apply Protocol.Conforms.bind (Protocol.Conforms.idle hinsert)
  · intro row s' hs'
    rw [hs']
    exact scheduleEvent_versions _ _ _ _ _ _ _ hrole hsearch
  · intro e s' hs'
    rw [hs']
    exact hrole

theorem publisher_versions {op : Op} (h : op.InBatch ∨ op.Reset) (hrole : s.isPublisher = true) :
    versioning.allows s op ∧ ∀ r, versioning.next s op r = s := by
  rcases h with h | h
  · cases h with
    | savepoint | release | rollbackTo | markDispatched | markFailed | markRetry =>
      exact ⟨hrole, fun r => by cases r <;> rfl⟩
    | _ => exact ⟨trivial, fun r => by cases r <;> rfl⟩
  · cases h <;> exact ⟨trivial, fun r => by cases r <;> rfl⟩

/-- **Every task follows the protocol.** -/
theorem task_versions (k : Task) :
    versioning.Conforms (fun _ _ => True) (k.prog P) (VersionState.start k) := by
  have hidle : ∀ {α : Type} {p : Coroutine α} {s : VersionState}, p.Only Op.Idle →
      versioning.Conforms (fun _ _ => True) p s := by
    intro α p s hp
    exact (Protocol.Conforms.idle (hp.mono fun op h => idle_versions h s)).mono fun _ _ _ => trivial
  cases k with
  | webhook req =>
    apply Protocol.Conforms.mono (Q := fun _ s' => s' = VersionState.start (.webhook req))
    · apply processWebhook_rests (fun op h => idle_versions h _)
      intro correlationId eventId timestamp prData rawJson
      exact scheduling_versions rfl (persistBody_versions _ _ _ _ _ _ _ rfl rfl)
    · exact fun _ _ _ => trivial
  | checkDuplicate key => exact hidle (checkDuplicate_idle P key)
  | checkStale key v => exact hidle (checkStale_idle P key v)
  | scheduleEvent a =>
    have hrests : Rests versioning ((Task.scheduleEvent a).prog P)
        (VersionState.start (.scheduleEvent a)) :=
      scheduling_versions rfl (scheduleEvent_versions _ _ _ _ _ _ _ rfl rfl)
    exact hrests.mono fun _ _ _ => trivial
  | publisher self =>
    have hbatch : (batchBody P self).Only fun op =>
        versioning.allows (VersionState.start (.publisher self)) op ∧
          ∀ r, versioning.next (VersionState.start (.publisher self)) op r =
            VersionState.start (.publisher self) :=
      (batchBody_only P self).mono fun op h => publisher_versions (.inl h) rfl
    have hafter : ∀ r, (afterBatch self r).Only fun op =>
        versioning.allows (VersionState.start (.publisher self)) op ∧
          ∀ r, versioning.next (VersionState.start (.publisher self)) op r =
            VersionState.start (.publisher self) :=
      fun r => (afterBatch_only self r).mono fun op h => publisher_versions (.inr h) rfl
    apply Protocol.Conforms.mono (Q := fun _ s' => s' = VersionState.start (.publisher self))
    · apply Rests.andThen
      · apply scheduling_versions rfl
        apply Protocol.Conforms.mono (Protocol.Conforms.idle hbatch)
        intro r s' hs'
        rw [hs']
      · exact fun r => Protocol.Conforms.idle (hafter r)
    · exact fun _ _ _ => trivial

end Conformance

/-! ### What the transactions have done -/

/-- What a `schedule_event` under way, with the changes `ch`, knows of the rows `outbox`. -/
structure Search.Describes (q : Search) (outbox : List OutboxEvent) (ch : Changes) : Prop where
  found : ∀ id ∈ q.found, ∃ b ∈ outbox, b.outboxId = id
  visited : q.visited ⊆ q.found
  superseded : ∀ b ∈ outbox, b.outboxId ∈ q.visited → b.prHashKey = q.prHashKey →
    b.prVersion < q.prVersion → (ch.latest b).status ≠ .scheduled
  inserts : ch.inserts = [] ∨ ∃ n, ch.inserts = [n] ∧ n.prHashKey = q.prHashKey ∧
    n.prVersion = q.prVersion ∧ q.inserted = true ∧ q.found ⊆ q.visited

def VersionState.Describes (s : VersionState) (outbox : List OutboxEvent) (tx : Tx) : Prop :=
  if s.isPublisher then ∀ ch ∈ tx.changes :: tx.saved, ch.inserts = []
  else match s.search with
    | none => tx.changes.inserts = [] ∧ tx.changes.writes = []
    | some q => q.Describes outbox tx.changes

namespace VersionState

variable {s : VersionState} {outbox : List OutboxEvent} {tx : Tx}

theorem describes_publisher (hs : s.isPublisher = true) :
    s.Describes outbox tx ↔ ∀ ch ∈ tx.changes :: tx.saved, ch.inserts = [] := by
  simp [Describes, hs]

theorem describes_none (hs : s.isPublisher = false) (hsearch : s.search = none) :
    s.Describes outbox tx ↔ tx.changes.inserts = [] ∧ tx.changes.writes = [] := by
  simp [Describes, hs, hsearch]

theorem describes_some (hs : s.isPublisher = false) {q : Search} (hsearch : s.search = some q) :
    s.Describes outbox tx ↔ q.Describes outbox tx.changes := by
  simp [Describes, hs, hsearch]

/-- A failed statement changes nothing. -/
theorem describes_aborted : s.Describes outbox { tx with aborted := true } ↔ s.Describes outbox tx :=
  Iff.rfl

theorem next_isPublisher (s : VersionState) (op : Op) (r : Except Exn op.Ret) :
    (s.next op r).isPublisher = s.isPublisher := by
  cases op <;> cases r <;> rfl

end VersionState

/-! ### The columns that stay -/

theorem OutboxEvent.prHashKey_eq_of_core {r r' : OutboxEvent} (h : r.core = r'.core) :
    r.prHashKey = r'.prHashKey :=
  congrArg (·.prHashKey) h

theorem OutboxEvent.prVersion_eq_of_core {r r' : OutboxEvent} (h : r.core = r'.core) :
    r.prVersion = r'.prVersion :=
  congrArg (·.prVersion) h

/-! ### A row that is no longer scheduled -/

section Final

variable {db : Database} {t : Nat} {ch : Changes} {used : List UUID} {b : OutboxEvent}

theorem Database.Tracked.marksOf_ne_nil (h : db.Tracked t ch) (hb : ch.Touched b.outboxId) :
    ch.marksOf b.outboxId ≠ [] := by
  obtain ⟨v, hv, hid⟩ := hb
  have hmem : v.outboxId ∈ ch.marks.map (·.1) := h.paired ▸ List.mem_map_of_mem hv
  obtain ⟨m, hm, hmid⟩ := List.mem_map.mp hmem
  have hmark : m ∈ ch.marks.filter fun m => m.1 = b.outboxId :=
    List.mem_filter.mpr ⟨hm, by simp [hmid, hid]⟩
  intro hnil
  rw [Changes.marksOf, List.reverse_eq_nil_iff, List.map_eq_nil_iff] at hnil
  rw [hnil] at hmark
  simp at hmark

/-- No transaction updates it. -/
theorem Database.Lifecycles.latest_final (hl : db.Lifecycles used) (h : db.Tracked t ch)
    (hb : b ∈ db.outbox) (hfinal : b.status ≠ .scheduled) : ch.latest b = b := by
  apply Changes.latest_of_not_touched
  intro htouched
  have hlife := (h.touched b (List.mem_append_left _ hb) htouched).lived
  exact h.marksOf_ne_nil htouched ((hl.rows b hb).lived.final hlife hfinal)

end Final

/-! ### One step -/

section Step

variable {w w₁ : World} {t : Nat} {c : Choice} {s : VersionState} {op : Op}

/-- A publisher inserts nothing. -/
theorem VersionState.Describes.publisher {db db' : Database} {fresh : UUID → Prop}
    (hm : Database.Moves P op fresh t db db') (hrole : s.isPublisher = true) (hallow : s.allows op)
    (h : ∀ tx, db.sessions t = some tx → s.Describes db.outbox tx) {tx' : Tx}
    (htx' : db'.sessions t = some tx') : ∀ ch ∈ tx'.changes :: tx'.saved, ch.inserts = [] := by
  intro ch hch
  rcases hm.pends htx' hch with rfl | ⟨tx, htx, hpends⟩
  · rfl
  have hold := (describes_publisher hrole).mp (h tx htx)
  cases hpends with
  | before hmem => exact hold ch hmem
  | wrote r v m _ _ => exact hold tx.changes List.mem_cons_self
  | insertedInbound e row _ => exact hold tx.changes List.mem_cons_self
  | insertedOutbox e row he =>
    subst he
    exact absurd hallow.1 (by simp [hrole])

/-- The others have one set of changes. -/
theorem VersionState.Describes.congr {outbox : List OutboxEvent} {tx tx' : Tx}
    (hrole : s.isPublisher = false) (h : s.Describes outbox tx)
    (hwrites : tx'.changes.writes = tx.changes.writes)
    (hinserts : tx'.changes.inserts = tx.changes.inserts) : s.Describes outbox tx' := by
  have hlatest : ∀ b, tx'.changes.latest b = tx.changes.latest b := by
    intro b
    rw [Changes.latest, hwrites]
    rfl
  rcases hsearch : s.search with _ | q
  · rw [describes_none hrole hsearch] at h ⊢
    rw [hwrites, hinserts]
    exact h
  · rw [describes_some hrole hsearch] at h ⊢
    refine ⟨h.found, h.visited, ?_, ?_⟩
    · intro b hb
      rw [hlatest]
      exact h.superseded b hb
    · rw [hinserts]
      exact h.inserts

/-- The version that `_CANCEL_PREVIOUS` takes up of a stored row. -/
theorem World.Sound.version_stored (hs : w.Sound) {tx : Tx} (htx : w.db.sessions t = some tx)
    {b : OutboxEvent} (hb : b ∈ w.db.outbox) :
    tx.changes.version w.db.outbox b.outboxId = some (tx.changes.latest b) := by
  have hp := Database.Storage.pending hs t tx htx tx.changes List.mem_cons_self
  rcases hv : tx.changes.version w.db.outbox b.outboxId with _ | r
  · exact absurd hv (Database.version_isSome hb)
  · obtain ⟨b', hb', hid, hlatest⟩ := hp.version_latest hs hv
    obtain rfl : b' = b :=
      List.inj_on_of_nodup_map (hp.ids_nodup hs) hb' (List.mem_append_left _ hb) hid
    rw [hlatest]

theorem Search.Describes.visit {q : Search} {id : UUID} {outbox : List OutboxEvent}
    {ch ch' : Changes} (h : q.Describes outbox ch) (hinserted : q.inserted = false)
    (hid : id ∈ q.found) (hinserts : ch'.inserts = ch.inserts)
    (hself : ∀ b ∈ outbox, b.outboxId = id → b.prHashKey = q.prHashKey →
      b.prVersion < q.prVersion → (ch'.latest b).status ≠ .scheduled)
    (hother : ∀ b ∈ outbox, b.outboxId ≠ id → ch'.latest b = ch.latest b) :
    ({ q with visited := id :: q.visited } : Search).Describes outbox ch' where
  found := h.found
  visited := by
    intro id' hid'
    rcases List.mem_cons.mp hid' with rfl | hid'
    · exact hid
    · exact h.visited hid'
  superseded := by
    intro b hb hvisited hkey hversion
    by_cases heq : b.outboxId = id
    · exact hself b hb heq hkey hversion
    · rw [hother b hb heq]
      exact h.superseded b hb ((List.mem_cons.mp hvisited).resolve_left heq) hkey hversion
  inserts := by
    rcases h.inserts with hnil | ⟨n, -, -, -, hdone, -⟩
    · exact .inl (hinserts.trans hnil)
    · simp [hinserted] at hdone

/-- A row of `_CANCEL_PREVIOUS` is no longer scheduled when it has been taken up. -/
theorem VersionState.Describes.cancelRow {id : UUID} {k reason : String} {v : Int}
    {a : Except Exn Unit} {db' : Database} (hs : w.Sound)
    (h : ∀ tx, w.db.sessions t = some tx → s.Describes w.db.outbox tx)
    (hallow : s.allows (.cancelRow id k v reason))
    (he : w.db.execCancelRow t c id k v reason = some (a, db')) {tx' : Tx}
    (htx' : db'.sessions t = some tx') :
    (s.next (.cancelRow id k v reason) a).Describes db'.outbox tx' := by
  obtain ⟨hrole, q, hsearch, hk, hv, hinserted, hid⟩ := hallow
  obtain ⟨tx, htx, hcases⟩ := Database.execCancelRow_eq_some he
  have hp := Database.Storage.pending hs t tx htx tx.changes List.mem_cons_self
  have hold := (describes_some hrole hsearch).mp (h tx htx)
  have hvisit : (s.visit id).search = some { q with visited := id :: q.visited } := by
    simp [VersionState.visit, hsearch]
  rcases hcases with ⟨exc, rfl, -, rfl⟩ | ⟨rfl, hskip, rfl⟩ | ⟨r, -, rfl, -, hversion, -, rfl⟩
  · obtain rfl : _ = tx' := Option.some.inj ((Database.setSession_sessions_self _).symm.trans htx')
    exact h tx htx
  · obtain rfl : tx = tx' := Option.some.inj (htx.symm.trans htx')
    rw [show s.next (.cancelRow id k v reason) (.ok ()) = s.visit id from rfl,
      describes_some (s := s.visit id) hrole hvisit]
    apply hold.visit hinserted hid rfl _ fun b _ _ => rfl
    intro b hb hbid hkey hlt
    -- the newest version did not match, and it keeps its key and its version number
    have hfound := hs.version_stored htx hb
    rw [hbid] at hfound
    have hprevious := hskip _ hfound
    have hcore := hp.latest_core hs (List.mem_append_left _ hb)
    have hkey' : (tx.changes.latest b).prHashKey = k :=
      (OutboxEvent.prHashKey_eq_of_core hcore).trans (hkey.trans hk)
    have hversion' : (tx.changes.latest b).prVersion < v :=
      (OutboxEvent.prVersion_eq_of_core hcore).trans_lt (hv ▸ hlt)
    simpa [OutboxEvent.isPrevious, hkey', hversion'] using hprevious
  · have hrid : r.outboxId = id := (Database.version_eq_some hversion).1
    obtain rfl : _ = tx' := Option.some.inj ((Database.setSession_sessions_self _).symm.trans htx')
    rw [show s.next (.cancelRow id k v reason) (.ok ()) = s.visit id from rfl,
      describes_some (s := s.visit id) hrole hvisit]
    have hcancelled : (r.cancel reason).outboxId = id := hrid
    have hinserts : (tx.addWrite (r.cancel reason) .cancelled).changes.inserts = tx.changes.inserts :=
      rfl
    apply hold.visit hinserted hid hinserts
    · intro b hb hbid _ _
      rw [Changes.latest_addWrite_self tx _ (hcancelled.trans hbid.symm)]
      simp [OutboxEvent.cancel]
    · intro b hb hbid
      exact Changes.latest_addWrite_of_ne tx _ fun heq => hbid (heq.symm.trans hcancelled)

/-- A transaction that has changed nothing sees the table itself. -/
theorem Changes.apply_of_nil {ch : Changes} {outbox : List OutboxEvent} (hinserts : ch.inserts = [])
    (hwrites : ch.writes = []) : ch.apply outbox = outbox := by
  have hlatest : ∀ b, ch.latest b = b := by
    intro b
    simp [Changes.latest, hwrites]
  rw [Changes.apply, hinserts, List.append_nil, List.map_congr_left fun b _ => hlatest b, List.map_id']

/-- `_CANCEL_PREVIOUS` finds every older version that waits. -/
theorem VersionState.Describes.found {k : String} {v : Int} {ids : List UUID} {db' : Database}
    (h : ∀ tx, w.db.sessions t = some tx → s.Describes w.db.outbox tx)
    (hallow : s.allows (.cancelScan k v)) (he : w.db.execCancelScan t c k v = some (.ok ids, db'))
    {b : OutboxEvent} (hb : b ∈ w.db.outbox) (hkey : b.prHashKey = k) (hversion : b.prVersion < v)
    (hscheduled : b.status = .scheduled) : b.outboxId ∈ ids := by
  obtain ⟨hrole, hsearch⟩ := hallow
  obtain ⟨tx, htx, ⟨exc, hexc, -⟩ | ⟨-, hids⟩⟩ := Database.execCancelScan_eq_some he
  · simp at hexc
  · obtain ⟨hinserts, hwrites⟩ := (describes_none hrole hsearch).mp (h tx htx)
    rw [Changes.apply_of_nil hinserts hwrites, Except.ok.injEq] at hids
    rw [hids]
    apply List.mem_map_of_mem
    simp [hb, OutboxEvent.isPrevious, hkey, hversion, hscheduled]

/-- What `_CANCEL_PREVIOUS` finds at its start. -/
theorem VersionState.Describes.cancelScan {k : String} {v : Int} {a : Except Exn (List UUID)}
    {db' : Database} (h : ∀ tx, w.db.sessions t = some tx → s.Describes w.db.outbox tx)
    (hallow : s.allows (.cancelScan k v)) (he : w.db.execCancelScan t c k v = some (a, db'))
    {tx' : Tx} (htx' : db'.sessions t = some tx') :
    (s.next (.cancelScan k v) a).Describes db'.outbox tx' := by
  obtain ⟨hrole, hsearch⟩ := hallow
  obtain ⟨tx, htx, ⟨exc, rfl, -, rfl⟩ | ⟨rfl, rfl⟩⟩ := Database.execCancelScan_eq_some he
  · obtain rfl : _ = tx' := Option.some.inj ((Database.setSession_sessions_self _).symm.trans htx')
    exact h tx htx
  · obtain rfl : tx = tx' := Option.some.inj (htx.symm.trans htx')
    obtain ⟨hinserts, hwrites⟩ := (describes_none hrole hsearch).mp (h tx htx)
    rw [describes_some ((s.next_isPublisher _ _).trans hrole) rfl]
    refine ⟨?_, ?_, ?_, .inl hinserts⟩
    · intro id hid
      obtain ⟨b, hb, rfl⟩ := List.mem_map.mp hid
      rw [Changes.apply_of_nil hinserts hwrites] at hb
      exact ⟨b, (List.mem_filter.mp hb).1, rfl⟩
    · exact List.nil_subset _
    · intro b _ hvisited
      simp at hvisited

/-- The new row is inserted when the older versions have been dealt with. -/
theorem VersionState.Describes.insertEvent {args : NewOutboxEvent} {a : Except Exn UUID}
    {db' : Database} (h : ∀ tx, w.db.sessions t = some tx → s.Describes w.db.outbox tx)
    (hallow : s.allows (.insertEvent args)) (he : w.db.execInsertEvent t P c args = some (a, db'))
    {tx' : Tx} (htx' : db'.sessions t = some tx') :
    (s.next (.insertEvent args) a).Describes db'.outbox tx' := by
  obtain ⟨hrole, q, hsearch, hk, hv, hinserted, hall⟩ := hallow
  have hinsert : s.insert.search = some { q with inserted := true } := by
    simp [VersionState.insert, hsearch]
  have hnext : s.next (.insertEvent args) a = s.insert := by
    cases a <;> rfl
  rw [hnext, describes_some (s := s.insert) hrole hinsert]
  obtain ⟨tx, htx, hcases⟩ := Database.execInsertEvent_eq_some he
  have hold := (describes_some hrole hsearch).mp (h tx htx)
  have hnil : tx.changes.inserts = [] := by
    rcases hold.inserts with hnil | ⟨n, -, -, -, hdone, -⟩
    · exact hnil
    · simp [hinserted] at hdone
  rcases hcases with ⟨exc, rfl, -, rfl⟩ | ⟨u, row, -, -, hrow, rfl, rfl⟩
  · obtain rfl : _ = tx' := Option.some.inj ((Database.setSession_sessions_self _).symm.trans htx')
    exact ⟨hold.found, hold.visited, hold.superseded, .inl hnil⟩
  · obtain rfl : _ = tx' := Option.some.inj ((Database.setSession_sessions_self _).symm.trans htx')
    refine ⟨hold.found, hold.visited, hold.superseded, .inr ⟨row, ?_, ?_, ?_, rfl, hall⟩⟩
    · simp [hnil]
    · obtain ⟨payload, headers, -, -, rfl⟩ := args.row_eq_some P hrow
      exact hk.symm
    · obtain ⟨payload, headers, -, -, rfl⟩ := args.row_eq_some P hrow
      exact hv.symm

/-- **Every step of a task keeps the description of its transaction.** -/
theorem VersionState.Describes.exec {r : Except Exn op.Ret} (hs : w.Sound)
    (h : ∀ tx, w.db.sessions t = some tx → s.Describes w.db.outbox tx) (hallow : s.allows op)
    (he : execOp P t c w op = some (r, w₁)) {tx' : Tx} (htx' : w₁.db.sessions t = some tx') :
    (s.next op r).Describes w₁.db.outbox tx' := by
  by_cases hrole : s.isPublisher = true
  · rw [describes_publisher ((s.next_isPublisher op r).trans hrole)]
    exact VersionState.Describes.publisher (execOp_moves he) hrole hallow h htx'
  have hrole : s.isPublisher = false := by simpa using hrole
  have hquiet : op.quiet = true → s.next op r = s → (s.next op r).Describes w₁.db.outbox tx' := by
    intro hq hnext
    rw [hnext, (execOp_frame he).db hq]
    rw [(execOp_frame he).db hq] at htx'
    exact h tx' htx'
  -- the session is still that of `tx`
  have hsame : ∀ {tx : Tx}, w.db.sessions t = some tx → w₁.db.outbox = w.db.outbox →
      tx'.changes.writes = tx.changes.writes → tx'.changes.inserts = tx.changes.inserts →
      s.next op r = s → (s.next op r).Describes w₁.db.outbox tx' := by
    intro tx htx hout hwrites hinserts hnext
    rw [hnext, hout]
    exact (h tx htx).congr hrole hwrites hinserts
  cases op with
  | begin =>
    obtain ⟨db', hdb, rfl⟩ := onDb_eq_some he
    obtain ⟨hnone, ⟨e, rfl, -, rfl⟩ | ⟨rfl, rfl⟩⟩ := Database.execBegin_eq_some hdb
    · simp [hnone] at htx'
    · obtain rfl : _ = tx' := Option.some.inj ((Database.setSession_sessions_self _).symm.trans htx')
      exact (describes_none hrole hallow).mpr ⟨rfl, rfl⟩
  | commit =>
    obtain ⟨db', hdb, rfl⟩ := onDb_eq_some he
    obtain ⟨tx, -, ⟨-, rfl⟩ | ⟨-, rfl⟩ | ⟨e, -, -, rfl⟩⟩ := Database.execCommit_eq_some hdb
    · simp at htx'
    · simp at htx'
    · simp [Database.discard] at htx'
  | rollback =>
    obtain ⟨db', hdb, rfl⟩ := onDb_eq_some he
    obtain ⟨tx, -, rfl, -⟩ := Database.execRollback_eq_some hdb
    simp [Database.discard] at htx'
  | savepoint | release | rollbackTo => exact absurd hallow (by simp [VersionState.allows, hrole])
  | markDispatched | markFailed | markRetry => exact absurd hallow (by simp [VersionState.allows, hrole])
  | insertInbound e =>
    obtain ⟨db', hdb, rfl⟩ := onDb_eq_some he
    have hnext : s.next (.insertInbound e) r = s := by cases r <;> rfl
    obtain ⟨tx, htx, ⟨exc, -, rfl, -⟩ | ⟨row, -, -, -, -, -, rfl⟩⟩ :=
      Database.execInsertInbound_eq_some hdb
    · obtain rfl : _ = tx' := Option.some.inj ((Database.setSession_sessions_self _).symm.trans htx')
      exact hsame htx rfl rfl rfl hnext
    · obtain rfl : _ = tx' := Option.some.inj ((Database.setSession_sessions_self _).symm.trans htx')
      exact hsame htx rfl rfl rfl hnext
  | insertEvent args =>
    obtain ⟨db', hdb, hw₁, -⟩ := execOp_insertEvent_eq_some he
    rw [hw₁] at htx' ⊢
    exact VersionState.Describes.insertEvent h hallow hdb htx'
  | cancelScan k v =>
    obtain ⟨db', hdb, rfl⟩ := onDb_eq_some he
    exact VersionState.Describes.cancelScan h hallow hdb htx'
  | cancelRow id k v reason =>
    obtain ⟨db', hdb, rfl⟩ := onDb_eq_some he
    exact VersionState.Describes.cancelRow hs h hallow hdb htx'
  | dueScan =>
    obtain ⟨db', hdb, rfl⟩ := onDb_eq_some he
    have hnext : s.next .dueScan r = s := by cases r <;> rfl
    obtain ⟨tx, htx, ⟨exc, -, -, rfl⟩ | ⟨rfl, -⟩⟩ := Database.execDueScan_eq_some hdb
    · obtain rfl : _ = tx' := Option.some.inj ((Database.setSession_sessions_self _).symm.trans htx')
      exact hsame htx rfl rfl rfl hnext
    · exact hsame htx' rfl rfl rfl hnext
  | lockDue id =>
    obtain ⟨db', hdb, rfl⟩ := onDb_eq_some he
    have hnext : s.next (.lockDue id) r = s := by cases r <;> rfl
    obtain ⟨tx, htx, ⟨exc, -, -, rfl⟩ | ⟨-, rfl⟩ | ⟨row, -, -, -, -, -, rfl⟩⟩ :=
      Database.execLockDue_eq_some hdb
    · obtain rfl : _ = tx' := Option.some.inj ((Database.setSession_sessions_self _).symm.trans htx')
      exact hsame htx rfl rfl rfl hnext
    · exact hsame htx' rfl rfl rfl hnext
    · exact hsame htx' rfl rfl rfl hnext
  | _ => exact hquiet rfl (by cases r <;> rfl)

end Step

section Commit

variable {db : Database} {used : List UUID} {t t' : Nat} {tx tx' : Tx} {s : VersionState}

/-- Where a row of the table comes from when `t` has committed. -/
theorem Database.mem_install {r : OutboxEvent} (h : r ∈ (db.install t tx).outbox) :
    ∃ b ∈ db.outbox ++ tx.changes.inserts, r = tx.changes.latest b := by
  obtain ⟨b, hb, rfl⟩ := List.mem_map.mp h
  exact ⟨b, hb, rfl⟩

/-- A row that is scheduled when `t` has committed was scheduled before. -/
theorem Database.Lifecycles.scheduled_before (hl : db.Lifecycles used)
    (htx : db.sessions t = some tx) {b : OutboxEvent} (hb : b ∈ db.outbox)
    (hscheduled : (tx.changes.latest b).status = .scheduled) : b.status = .scheduled := by
  by_contra hfinal
  have htracked := hl.pending t tx htx tx.changes List.mem_cons_self
  rw [hl.latest_final htracked hb hfinal] at hscheduled
  exact hfinal hscheduled

/-- A commit of `t` changes nothing for another transaction. -/
theorem VersionState.Describes.installed (hs : db.Storage used) (hl : db.Lifecycles used)
    (htx : db.sessions t = some tx) (htx' : db.sessions t' = some tx') (hne : t' ≠ t)
    (h : s.Describes db.outbox tx') : s.Describes (db.install t tx).outbox tx' := by
  have hp := hs.pending t tx htx tx.changes List.mem_cons_self
  have hp' := hs.pending t' tx' htx' tx'.changes List.mem_cons_self
  by_cases hrole : s.isPublisher = true
  · exact (describes_publisher hrole).mpr ((describes_publisher hrole).mp h)
  have hrole : s.isPublisher = false := by simpa using hrole
  rcases hsearch : s.search with _ | q
  · exact (describes_none hrole hsearch).mpr ((describes_none hrole hsearch).mp h)
  rw [describes_some hrole hsearch] at h ⊢
  refine ⟨?_, h.visited, ?_, h.inserts⟩
  · intro id hid
    obtain ⟨b, hb, rfl⟩ := h.found id hid
    have hcore := hp.latest_core hs (List.mem_append_left _ hb)
    exact ⟨_, List.mem_map_of_mem (List.mem_append_left _ hb),
      OutboxEvent.outboxId_eq_of_core hcore⟩
  · intro r hr hvisited hkey hversion
    obtain ⟨b, hb, rfl⟩ := Database.mem_install hr
    have hcore := hp.latest_core hs hb
    have hid := OutboxEvent.outboxId_eq_of_core hcore
    rw [hid] at hvisited
    rcases List.mem_append.mp hb with hstored | hinserted
    · have hkey' : b.prHashKey = q.prHashKey :=
        (OutboxEvent.prHashKey_eq_of_core hcore).symm.trans hkey
      have hversion' : b.prVersion < q.prVersion :=
        (OutboxEvent.prVersion_eq_of_core hcore).symm.trans_lt hversion
      have hfinal := h.superseded b hstored hvisited hkey' hversion'
      by_cases htouched : tx'.changes.Touched b.outboxId
      · -- the row is locked by `t'`, so `t` has not updated it
        obtain ⟨v', hv', hvid'⟩ := htouched
        have hlock := hp'.writesLocked v' hv'
        have huntouched : ¬tx.changes.Touched b.outboxId := by
          rintro ⟨v, hv, hvid⟩
          have hlock' := hp.writesLocked v hv
          rw [hvid, ← hvid', hlock] at hlock'
          exact hne (Option.some.inj hlock')
        rw [Changes.latest_of_not_touched huntouched]
        exact hfinal
      · rw [Changes.latest_of_not_touched htouched] at hfinal
        have htracked := hl.pending t tx htx tx.changes List.mem_cons_self
        rw [hl.latest_final htracked hstored hfinal, Changes.latest_of_not_touched htouched]
        exact hfinal
    · -- a row that `t` has just inserted was in no table before
      obtain ⟨b', hb', hid'⟩ := h.found _ (h.visited hvisited)
      exact absurd hid' (hp.insertsNew b hinserted b' hb')

end Commit

/-! ### The order of the commits -/

/-- The rows that were in the table when each task began to look for older versions. -/
abbrev Seen := Nat → List UUID

/-- The task awaits the first part of `_CANCEL_PREVIOUS`. -/
def looking (c : GatewayConfig) (t : Nat) : Bool :=
  match c.threads t with
  | some ⟨_, .await (.cancelScan _ _) _, _⟩ => true
  | _ => false

def Seen.look (seen : Seen) (c : GatewayConfig) : GatewayLabel → Seen
  | .step t _ =>
    if looking c t then Function.update seen t (c.world.db.outbox.map (·.outboxId)) else seen
  | _ => seen

/-- A commit that adds a row to the events of a key comes after the commits of all the older
    versions of the key, and before those of the newer ones.  No older version that waits has
    been committed since the transaction looked for older versions. -/
def Seen.CommitsInOrder (seen : Seen) (c : GatewayConfig) (l : GatewayLabel) : Prop :=
  ∀ t tx, CommitsAt c t l → c.world.db.sessions t = some tx → ∀ n ∈ tx.changes.inserts,
    ∀ b ∈ c.world.db.outbox, b.prHashKey = n.prHashKey →
      b.prVersion < n.prVersion ∧ (b.status = .scheduled → b.outboxId ∈ seen t)

/-- The runs in which every commit comes in order. -/
def inOrder : Monitor Exn Op Op.Ret World Choice EnvEvent Task.Result where
  State := Seen
  observe := Seen.look
  ok := Seen.CommitsInOrder

/-- Of the events of a key at most one is SCHEDULED, and it has the greatest version. -/
structure NewestLive (outbox : List OutboxEvent) : Prop where
  one : ∀ r ∈ outbox, ∀ r' ∈ outbox, r.prHashKey = r'.prHashKey → r.status = .scheduled →
    r'.status = .scheduled → r = r'
  greatest : ∀ r ∈ outbox, r.status = .scheduled → ∀ b ∈ outbox, b.prHashKey = r.prHashKey →
    b.prVersion ≤ r.prVersion

/-- A publish call for the row. -/
def Event.Publishes (e : Event) (id : UUID) : Prop :=
  ∃ ex m key, e.op = .publish ex m key ∧ m.source = some id

/-- No row is published after a row of its key with a greater version. -/
def World.PublishedInOrder (w : World) : Prop :=
  w.trace.Pairwise fun e e' => ∀ r ∈ w.db.outbox, ∀ r' ∈ w.db.outbox,
    e.Publishes r.outboxId → e'.Publishes r'.outboxId → r.prHashKey = r'.prHashKey →
      r.prVersion ≤ r'.prVersion

/-! ### Every commit keeps the newest version live -/

section Install

variable {db : Database} {used : List UUID} {t : Nat} {tx : Tx}

/-- A transaction that inserts nothing. -/
theorem NewestLive.install_updates (h : NewestLive db.outbox) (hs : db.Storage used)
    (hl : db.Lifecycles used) (htx : db.sessions t = some tx) (hnil : tx.changes.inserts = []) :
    NewestLive (db.install t tx).outbox := by
  have hp := hs.pending t tx htx tx.changes List.mem_cons_self
  have hmem : ∀ r ∈ (db.install t tx).outbox, ∃ b ∈ db.outbox, r = tx.changes.latest b := by
    intro r hr
    obtain ⟨b, hb, rfl⟩ := Database.mem_install hr
    exact ⟨b, by simpa [hnil] using hb, rfl⟩
  have hcore : ∀ b ∈ db.outbox, (tx.changes.latest b).core = b.core := by
    intro b hb
    exact hp.latest_core hs (List.mem_append_left _ hb)
  constructor
  · intro r hr r' hr' hkey hscheduled hscheduled'
    obtain ⟨b, hb, rfl⟩ := hmem r hr
    obtain ⟨b', hb', rfl⟩ := hmem r' hr'
    have hkey' : b.prHashKey = b'.prHashKey :=
      (OutboxEvent.prHashKey_eq_of_core (hcore b hb)).symm.trans
        (hkey.trans (OutboxEvent.prHashKey_eq_of_core (hcore b' hb')))
    rw [h.one b hb b' hb' hkey' (hl.scheduled_before htx hb hscheduled)
      (hl.scheduled_before htx hb' hscheduled')]
  · intro r hr hscheduled r' hr' hkey
    obtain ⟨b, hb, rfl⟩ := hmem r hr
    obtain ⟨b', hb', rfl⟩ := hmem r' hr'
    have hkey' : b'.prHashKey = b.prHashKey :=
      (OutboxEvent.prHashKey_eq_of_core (hcore b' hb')).symm.trans
        (hkey.trans (OutboxEvent.prHashKey_eq_of_core (hcore b hb)))
    rw [OutboxEvent.prVersion_eq_of_core (hcore b hb), OutboxEvent.prVersion_eq_of_core (hcore b' hb')]
    exact h.greatest b hb (hl.scheduled_before htx hb hscheduled) b' hb' hkey'

/-- A transaction that inserts the newest version, and supersedes the older ones. -/
theorem NewestLive.install_newest (h : NewestLive db.outbox) (hs : db.Storage used)
    (hl : db.Lifecycles used) (htx : db.sessions t = some tx) {n : OutboxEvent}
    (hn : tx.changes.inserts = [n])
    (hless : ∀ b ∈ db.outbox, b.prHashKey = n.prHashKey → b.prVersion < n.prVersion)
    (hsuperseded : ∀ b ∈ db.outbox, b.prHashKey = n.prHashKey →
      (tx.changes.latest b).status ≠ .scheduled) : NewestLive (db.install t tx).outbox := by
  have hp := hs.pending t tx htx tx.changes List.mem_cons_self
  have hmem : ∀ r ∈ (db.install t tx).outbox, ∃ b, (b ∈ db.outbox ∨ b = n) ∧
      r = tx.changes.latest b ∧ r.core = b.core := by
    intro r hr
    obtain ⟨b, hb, rfl⟩ := Database.mem_install hr
    exact ⟨b, by simpa [hn] using hb, rfl, hp.latest_core hs hb⟩
  -- a row of the table that is scheduled belongs to another key
  have hother : ∀ b ∈ db.outbox, (tx.changes.latest b).status = .scheduled →
      b.prHashKey ≠ n.prHashKey := fun b hb hscheduled hkey => hsuperseded b hb hkey hscheduled
  constructor
  · intro r hr r' hr' hkey hscheduled hscheduled'
    obtain ⟨b, hb, rfl, hcore⟩ := hmem r hr
    obtain ⟨b', hb', rfl, hcore'⟩ := hmem r' hr'
    have hkey' : b.prHashKey = b'.prHashKey :=
      (OutboxEvent.prHashKey_eq_of_core hcore).symm.trans
        (hkey.trans (OutboxEvent.prHashKey_eq_of_core hcore'))
    rcases hb with hb | rfl <;> rcases hb' with hb' | rfl
    · rw [h.one b hb b' hb' hkey' (hl.scheduled_before htx hb hscheduled)
        (hl.scheduled_before htx hb' hscheduled')]
    · exact absurd hkey' (hother b hb hscheduled)
    · exact absurd hkey'.symm (hother b' hb' hscheduled')
    · rfl
  · intro r hr hscheduled r' hr' hkey
    obtain ⟨b, hb, rfl, hcore⟩ := hmem r hr
    obtain ⟨b', hb', rfl, hcore'⟩ := hmem r' hr'
    have hkey' : b'.prHashKey = b.prHashKey :=
      (OutboxEvent.prHashKey_eq_of_core hcore').symm.trans
        (hkey.trans (OutboxEvent.prHashKey_eq_of_core hcore))
    rw [OutboxEvent.prVersion_eq_of_core hcore, OutboxEvent.prVersion_eq_of_core hcore']
    rcases hb with hb | rfl <;> rcases hb' with hb' | rfl
    · exact h.greatest b hb (hl.scheduled_before htx hb hscheduled) b' hb' hkey'
    · exact absurd hkey'.symm (hother b hb hscheduled)
    · exact Int.le_of_lt (hless b' hb' hkey')
    · exact Int.le_refl _

end Install

/-! ### The invariant of the runs -/

/-- A step keeps the rows of the table, and schedules none of them again. -/
structure KeepsOutbox (outbox outbox' : List OutboxEvent) : Prop where
  kept : ∀ b ∈ outbox, ∃ r ∈ outbox', r.outboxId = b.outboxId
  same : ∀ b ∈ outbox, ∀ r ∈ outbox', r.outboxId = b.outboxId → r.core = b.core ∧
    (r.status = .scheduled → b.status = .scheduled)

theorem keepsOutbox_step {c c' : GatewayConfig} {l : GatewayLabel}
    (h : Reachable P (fun _ => True) c) (hstep : (gateway P).step c l = some c') :
    KeepsOutbox c.world.db.outbox c'.world.db.outbox := by
  have hrun : (gateway P).run c [l] = some c' := Machine.run_cons_eq_some.mpr ⟨c', hstep, rfl⟩
  obtain ⟨σ, hinv, -⟩ := reachable_delivered (h.run hrun)
  have hsound : c'.world.Sound := Delivered.sound hinv
  constructor
  · intro b hb
    obtain ⟨r, hr, hcore, -⟩ := final_stays h hrun hb
    exact ⟨r, hr, OutboxEvent.outboxId_eq_of_core hcore⟩
  · intro b hb r hr hid
    obtain ⟨r', hr', hcore, hfinal⟩ := final_stays h hrun hb
    have hid' : r'.outboxId = r.outboxId := (OutboxEvent.outboxId_eq_of_core hcore).trans hid.symm
    obtain rfl : r' = r := hsound.row_eq hr' hr hid'
    refine ⟨hcore, fun hscheduled => ?_⟩
    by_contra hnot
    exact hnot ((hfinal hnot).symm.trans hscheduled)

/-- What the monitor has seen of the older versions, the transactions have found. -/
structure Seen.Tells (seen : Seen) (outbox : List OutboxEvent) (σ : Nat → VersionState) : Prop where
  stored : ∀ t, ∀ id ∈ seen t, ∃ b ∈ outbox, b.outboxId = id
  found : ∀ t q, (σ t).search = some q → ∀ b ∈ outbox, b.outboxId ∈ seen t →
    b.prHashKey = q.prHashKey → b.prVersion < q.prVersion → b.status = .scheduled →
      b.outboxId ∈ q.found

/-- Where the task has not looked again. -/
theorem Seen.look_of_not_looking {seen : Seen} {c : GatewayConfig} {t : Nat} {ch : Choice}
    {k : Task} {op : Op} {f : Except Exn op.Ret → Prog Exn Op Op.Ret k.Result}
    (ht : c.threads t = some ⟨k, .await op f, true⟩) (hop : ∀ k v, op ≠ .cancelScan k v) :
    seen.look c (.step t ch) = seen := by
  have hnot : looking c t = false := by
    unfold looking
    rw [ht]
    cases op with
    | cancelScan k v => exact absurd rfl (hop k v)
    | _ => rfl
  simp [Seen.look, hnot]

theorem Seen.look_looking {seen : Seen} {c : GatewayConfig} {t : Nat} {ch : Choice} {k : Task}
    {key : String} {v : Int} {f : Except Exn (List UUID) → Prog Exn Op Op.Ret k.Result}
    (ht : c.threads t = some ⟨k, .await (.cancelScan key v) f, true⟩) :
    seen.look c (.step t ch) = Function.update seen t (c.world.db.outbox.map (·.outboxId)) := by
  have hlooking : looking c t = true := by
    unfold looking
    rw [ht]
  simp [Seen.look, hlooking]

theorem Seen.Tells.step {seen : Seen} {outbox outbox' : List OutboxEvent} {σ σ' : Nat → VersionState}
    (h : seen.Tells outbox σ) (hkeeps : KeepsOutbox outbox outbox')
    (hsearch : ∀ t q', (σ' t).search = some q' → ∃ q, (σ t).search = some q ∧
      q'.prHashKey = q.prHashKey ∧ q'.prVersion = q.prVersion ∧ q'.found = q.found) :
    seen.Tells outbox' σ' := by
  constructor
  · intro t id hid
    obtain ⟨b, hb, rfl⟩ := h.stored t id hid
    exact hkeeps.kept b hb
  · intro t q' hq' r hr hseen hkey hversion hscheduled
    obtain ⟨q, hq, hqkey, hqversion, hqfound⟩ := hsearch t q' hq'
    obtain ⟨b, hb, hid⟩ := h.stored t _ hseen
    obtain ⟨hcore, hbefore⟩ := hkeeps.same b hb r hr hid.symm
    rw [hqfound, ← hid]
    apply h.found t q hq b hb (hid ▸ hseen)
    · rw [← OutboxEvent.prHashKey_eq_of_core hcore, hkey, hqkey]
    · rw [← OutboxEvent.prVersion_eq_of_core hcore, ← hqversion]
      exact hversion
    · exact hbefore hscheduled

theorem VersionState.next_search {s : VersionState} {op : Op} {r : Except Exn op.Ret}
    (hop : ∀ k v, op ≠ .cancelScan k v) {q' : Search} (h : (s.next op r).search = some q') :
    ∃ q, s.search = some q ∧ q'.prHashKey = q.prHashKey ∧ q'.prVersion = q.prVersion ∧
      q'.found = q.found := by
  cases op with
  | cancelScan k v => exact absurd rfl (hop k v)
  | cancelRow id k v reason =>
    cases r with
    | error e => exact ⟨q', h, rfl, rfl, rfl⟩
    | ok u =>
      obtain ⟨q, hq, rfl⟩ := Option.map_eq_some_iff.mp h
      exact ⟨q, hq, rfl, rfl, rfl⟩
  | insertEvent args =>
    have hinsert : s.insert.search = some q' := by cases r <;> exact h
    obtain ⟨q, hq, rfl⟩ := Option.map_eq_some_iff.mp hinsert
    exact ⟨q, hq, rfl, rfl, rfl⟩
  | commit => cases r <;> cases h
  | rollback => cases r <;> cases h
  | _ => exact ⟨q', by cases r <;> exact h, rfl, rfl, rfl⟩

/-- The published rows, in the order of the calls. -/
structure World.Published (w : World) : Prop where
  stored : ∀ e ∈ w.trace, ∀ id, e.Publishes id → ∃ b ∈ w.db.outbox, b.outboxId = id
  order : w.PublishedInOrder

theorem World.Published.grow {w w' : World} (h : w.Published) (htrace : w'.trace = w.trace)
    (hkeeps : KeepsOutbox w.db.outbox w'.db.outbox) : w'.Published := by
  constructor
  · intro e he id hpublishes
    obtain ⟨b, hb, rfl⟩ := h.stored e (htrace ▸ he) id hpublishes
    exact hkeeps.kept b hb
  · unfold World.PublishedInOrder
    rw [htrace]
    apply h.order.imp_of_mem
    intro e e' he he' horder r hr r' hr' hpublishes hpublishes' hkey
    obtain ⟨b, hb, hid⟩ := h.stored e he _ hpublishes
    obtain ⟨b', hb', hid'⟩ := h.stored e' he' _ hpublishes'
    have hcore := (hkeeps.same b hb r hr hid.symm).1
    have hcore' := (hkeeps.same b' hb' r' hr' hid'.symm).1
    rw [OutboxEvent.prVersion_eq_of_core hcore, OutboxEvent.prVersion_eq_of_core hcore']
    apply horder b hb b' hb' (hid ▸ hpublishes) (hid' ▸ hpublishes')
    rw [← OutboxEvent.prHashKey_eq_of_core hcore, hkey, OutboxEvent.prHashKey_eq_of_core hcore']

/-- A publish call for a row of the greatest version. -/
theorem World.Published.record {w : World} (h : w.Published) {e : Event}
    (hnew : ∀ r ∈ w.db.outbox, e.Publishes r.outboxId → ∀ b ∈ w.db.outbox,
      b.prHashKey = r.prHashKey → b.prVersion ≤ r.prVersion)
    (hstored : ∀ id, e.Publishes id → ∃ b ∈ w.db.outbox, b.outboxId = id) :
    (w.record e).Published := by
  constructor
  · intro e' he' id hpublishes
    rcases List.mem_append.mp he' with hold | hlast
    · exact h.stored e' hold id hpublishes
    · rw [List.mem_singleton.mp hlast] at hpublishes
      exact hstored id hpublishes
  · unfold World.PublishedInOrder World.record
    rw [List.pairwise_append]
    refine ⟨h.order, List.pairwise_singleton _ _, ?_⟩
    intro e₁ _ e₂ he₂ b hb r hr _ hpublishes hkey
    rw [List.mem_singleton.mp he₂] at hpublishes
    exact hnew r hr hpublishes b hb hkey

/-- The invariant of the runs whose commits come in order. -/
structure Superseding (P : Platform) (seen : Seen) (c : GatewayConfig) (σ : Nat → VersionState) :
    Prop where
  reachable : Reachable P (fun _ => True) c
  guides : versioning.Guides (fun _ => True) c σ
  described : ∀ t tx, c.world.db.sessions t = some tx → (σ t).Describes c.world.db.outbox tx
  tells : seen.Tells c.world.db.outbox σ
  newest : NewestLive c.world.db.outbox
  published : c.world.Published

namespace Superseding

variable {seen : Seen} {c c' : GatewayConfig} {σ : Nat → VersionState} {t : Nat}

theorem delivered (h : Superseding P seen c σ) : c.world.Sound ∧
    c.world.db.Lifecycles c.world.used ∧ ∀ t, c.threads t = none → c.world.db.sessions t = none := by
  obtain ⟨τ, hinv, -⟩ := reachable_delivered h.reachable
  have hinv : Delivered c.world τ c.taskOf := hinv
  refine ⟨hinv.sound, hinv.lives, fun t ht => ?_⟩
  have hidle : (τ t).phase = .outside := hinv.idle t (by simp [Config.taskOf, ht])
  exact (hinv.batch t).closed fun hopen => hopen.1 hidle

theorem reachable_step (h : Superseding P seen c σ) {l : GatewayLabel}
    (hstep : (gateway P).step c l = some c') : Reachable P (fun _ => True) c' :=
  h.reachable.run (Machine.run_cons_eq_some.mpr ⟨c', hstep, Machine.run_nil c'⟩)

theorem spawn (h : Superseding P seen c σ) {k : Task}
    (hstep : (gateway P).step c (.spawn t k) = some c') :
    Superseding P seen c' (Function.update σ t (VersionState.start k)) := by
  have hreach := h.reachable_step hstep
  obtain ⟨ht, rfl⟩ := Machine.step_spawn hstep
  have hclosed := h.delivered.2.2 t ht
  refine ⟨hreach, h.guides.update fun _ => task_versions k, ?_, ?_, h.newest, h.published⟩
  · intro t' tx htx
    have hne : t' ≠ t := by
      rintro rfl
      exact absurd (htx.symm.trans hclosed) (by simp)
    rw [Function.update_of_ne hne]
    exact h.described t' tx htx
  · refine ⟨h.tells.stored, fun t' q hq => ?_⟩
    by_cases heq : t' = t
    · subst heq
      rw [Function.update_self] at hq
      cases hq
    · rw [Function.update_of_ne heq] at hq
      exact h.tells.found t' q hq

theorem env (h : Superseding P seen c σ) {e : EnvEvent}
    (hstep : (gateway P).step c (.env e) = some c') : Superseding P seen c' σ := by
  have hreach := h.reachable_step hstep
  have hkeeps := keepsOutbox_step h.reachable hstep
  obtain rfl : _ = c' := Option.some.inj hstep
  have hout : (envStep e c.world).db.outbox = c.world.db.outbox := by cases e <;> rfl
  have hsessions : (envStep e c.world).db.sessions = c.world.db.sessions := by cases e <;> rfl
  have htrace : (envStep e c.world).trace = c.world.trace := by cases e <;> rfl
  refine ⟨hreach, h.guides, ?_, ?_, ?_, h.published.grow htrace hkeeps⟩
  · intro t tx htx
    have htx : (envStep e c.world).db.sessions t = some tx := htx
    change (σ t).Describes (envStep e c.world).db.outbox tx
    rw [hsessions] at htx
    rw [hout]
    exact h.described t tx htx
  · change seen.Tells (envStep e c.world).db.outbox σ
    rw [hout]
    exact h.tells
  · change NewestLive (envStep e c.world).db.outbox
    rw [hout]
    exact h.newest

theorem kill (h : Superseding P seen c σ) (hstep : (gateway P).step c (.kill t) = some c') :
    Superseding P seen c' σ := by
  have hreach := h.reachable_step hstep
  have hkeeps := keepsOutbox_step h.reachable hstep
  obtain ⟨k, op, f, ht, rfl⟩ := Machine.step_kill hstep
  have hout : (vanish t c.world).db.outbox = c.world.db.outbox := vanish_outbox t c.world
  refine ⟨hreach, h.guides.kill rfl, ?_, ?_, ?_, h.published.grow (vanish_trace t c.world) hkeeps⟩
  · intro t' tx htx
    obtain ⟨-, htx⟩ := vanish_session_some htx
    change (σ t').Describes (vanish t c.world).db.outbox tx
    rw [hout]
    exact h.described t' tx htx
  · change seen.Tells (vanish t c.world).db.outbox σ
    rw [hout]
    exact h.tells
  · change NewestLive (vanish t c.world).db.outbox
    rw [hout]
    exact h.newest

/-- The transaction that commits keeps the newest version live. -/
theorem install (h : Superseding P seen c σ) {tx : Tx} (htx : c.world.db.sessions t = some tx)
    (hok : ∀ n ∈ tx.changes.inserts, ∀ b ∈ c.world.db.outbox, b.prHashKey = n.prHashKey →
      b.prVersion < n.prVersion ∧ (b.status = .scheduled → b.outboxId ∈ seen t)) :
    NewestLive (c.world.db.install t tx).outbox := by
  obtain ⟨hsound, hlives, -⟩ := h.delivered
  have hdescribed := h.described t tx htx
  by_cases hrole : (σ t).isPublisher = true
  · rw [VersionState.describes_publisher hrole] at hdescribed
    exact h.newest.install_updates hsound hlives htx (hdescribed _ List.mem_cons_self)
  have hrole : (σ t).isPublisher = false := by simpa using hrole
  rcases hsearch : (σ t).search with _ | q
  · rw [VersionState.describes_none hrole hsearch] at hdescribed
    exact h.newest.install_updates hsound hlives htx hdescribed.1
  rw [VersionState.describes_some hrole hsearch] at hdescribed
  rcases hdescribed.inserts with hnil | ⟨n, hn, hkey, hversion, -, hall⟩
  · exact h.newest.install_updates hsound hlives htx hnil
  have hok : ∀ b ∈ c.world.db.outbox, b.prHashKey = n.prHashKey →
      b.prVersion < n.prVersion ∧ (b.status = .scheduled → b.outboxId ∈ seen t) :=
    hok n (by simp [hn])
  apply h.newest.install_newest hsound hlives htx hn
  · exact fun b hb hbkey => (hok b hb hbkey).1
  · -- a row that waited has been found and taken up
    intro b hb hbkey hscheduled
    obtain ⟨hless, hseen⟩ := hok b hb hbkey
    have hbefore := hlives.scheduled_before htx hb hscheduled
    have hfound := h.tells.found t q hsearch b hb (hseen hbefore) (hbkey.trans hkey)
      (hversion ▸ hless) hbefore
    exact hdescribed.superseded b hb (hall hfound) (hbkey.trans hkey) (hversion ▸ hless) hscheduled

/-- What a step of `t` does to the table. -/
theorem outbox_step {w : World} {op : Op} {ch : Choice} {r : Except Exn op.Ret} {k : Task}
    {f : Except Exn op.Ret → Prog Exn Op Op.Ret k.Result}
    (ht : c.threads t = some ⟨k, .await op f, true⟩)
    (h₁ : execOp P t ch c.world op = some (r, w)) : w.db.outbox = c.world.db.outbox ∨
      ∃ tx, c.world.db.sessions t = some tx ∧ CommitsAt c t (.step t ch) ∧
        w.db = c.world.db.install t tx := by
  by_cases hop : op = .commit
  · subst hop
    obtain ⟨db', hdb, rfl⟩ := onDb_eq_some h₁
    obtain ⟨tx, htx, -⟩ := Database.execCommit_eq_some hdb
    rcases execCommit_discards hdb htx with ⟨hab, hch⟩ | rfl
    · exact .inr ⟨tx, htx, ⟨k, f, tx, ch, ht, htx, hab, rfl, hch⟩,
        execCommit_installs hdb htx hab hch⟩
    · exact .inl rfl
  · exact .inl ((execOp_moves h₁).outbox hop)

theorem step (h : Superseding P seen c σ) {ch : Choice}
    (hok : seen.CommitsInOrder c (.step t ch)) (hstep : (gateway P).step c (.step t ch) = some c') :
    ∃ σ', Superseding P (seen.look c (.step t ch)) c' σ' := by
  have hreach := h.reachable_step hstep
  have hkeeps := keepsOutbox_step h.reachable hstep
  obtain ⟨hsound, hlives, -⟩ := h.delivered
  obtain ⟨k, op, f, r, w', ht, he, rfl⟩ := Machine.step_step hstep
  obtain ⟨w₁, h₁, rfl⟩ := exec_eq_some he
  have hkeeps : KeepsOutbox c.world.db.outbox w₁.db.outbox := hkeeps
  have hconf : versioning.Conforms (fun _ _ => True) (.await op f) (σ t) := h.guides t _ ht rfl
  obtain ⟨hallow, hrest⟩ := hconf
  have hmoves := execOp_moves h₁
  have hframe := execOp_frame h₁
  have hnewest : NewestLive w₁.db.outbox := by
    rcases outbox_step ht h₁ with hout | ⟨tx, htx, hcommits, hinstall⟩
    · rw [hout]
      exact h.newest
    · rw [hinstall]
      exact h.install htx fun n hn b hb hkey => hok t tx hcommits htx n hn b hb hkey
  refine ⟨Function.update σ t ((σ t).next op r), hreach, h.guides.update fun _ => hrest r trivial,
    ?_, ?_, hnewest, ?_⟩
  · intro t' tx' htx'
    have htx' : w₁.db.sessions t' = some tx' := htx'
    change ((Function.update σ t ((σ t).next op r)) t').Describes w₁.db.outbox tx'
    by_cases heq : t' = t
    · subst heq
      rw [Function.update_self]
      exact VersionState.Describes.exec hsound (h.described t') hallow h₁ htx'
    · rw [Function.update_of_ne heq]
      rw [hmoves.sessions_of_ne heq] at htx'
      have hbefore := h.described t' tx' htx'
      rcases outbox_step ht h₁ with hout | ⟨tx, htx, -, hinstall⟩
      · rw [hout]
        exact hbefore
      · rw [hinstall]
        exact hbefore.installed hsound hlives htx htx' heq
  · change (seen.look c (.step t ch)).Tells w₁.db.outbox (Function.update σ t ((σ t).next op r))
    by_cases hop : ∃ key v, op = .cancelScan key v
    · obtain ⟨key, v, rfl⟩ := hop
      have hout : w₁.db.outbox = c.world.db.outbox := hmoves.outbox (by simp)
      obtain ⟨db', hdb, -⟩ := onDb_eq_some h₁
      rw [Seen.look_looking ht, hout]
      constructor
      · intro t' id hid
        by_cases heq : t' = t
        · rw [heq, Function.update_self] at hid
          obtain ⟨b, hb, rfl⟩ := List.mem_map.mp hid
          exact ⟨b, hb, rfl⟩
        · rw [Function.update_of_ne heq] at hid
          exact h.tells.stored t' id hid
      · intro t' q hq b hb hseen hkey hversion hscheduled
        by_cases heq : t' = t
        · rw [heq, Function.update_self] at hq
          cases r with
          | error e => simp [VersionState.next, hallow.2] at hq
          | ok ids =>
            obtain rfl := Option.some.inj hq
            exact VersionState.Describes.found (h.described t) hallow hdb hb hkey hversion hscheduled
        · rw [Function.update_of_ne heq] at hq hseen
          exact h.tells.found t' q hq b hb hseen hkey hversion hscheduled
    · rw [Seen.look_of_not_looking ht fun key v heq => hop ⟨key, v, heq⟩]
      apply h.tells.step hkeeps
      intro t' q' hq'
      by_cases heq : t' = t
      · rw [heq] at hq' ⊢
        rw [Function.update_self] at hq'
        exact VersionState.next_search (fun key v heq => hop ⟨key, v, heq⟩) hq'
      · rw [Function.update_of_ne heq] at hq'
        exact ⟨q', hq', rfl, rfl, rfl⟩
  · -- the batch that publishes holds a row that is scheduled
    have hheld : ∀ id, Event.Publishes ⟨t, op, r⟩ id → ∃ row ∈ w₁.db.outbox,
        row.outboxId = id ∧ row.status = .scheduled := by
      intro id hpublishes
      obtain ⟨ex, m, key, hop, hsource⟩ := hpublishes
      have hop : op = .publish ex m key := hop
      subst hop
      obtain ⟨self, -, tx, row, -, hheld, hid, -⟩ := published_held h.reachable ht hsource
      refine ⟨row, ?_, hid, hheld.scheduled⟩
      rw [hframe.db rfl]
      exact hheld.stored
    have hsound' : w₁.Sound := hsound.execOp h₁
    have hgrown : w₁.Published := h.published.grow hframe.trace hkeeps
    apply hgrown.record
    · intro b hb hpublishes b' hb' hkey
      obtain ⟨row, hrow, hid, hscheduled⟩ := hheld _ hpublishes
      obtain rfl : row = b := hsound'.row_eq hrow hb hid
      exact hnewest.greatest row hrow hscheduled b' hb' hkey
    · intro id hpublishes
      obtain ⟨row, hrow, hid, -⟩ := hheld id hpublishes
      exact ⟨row, hrow, hid⟩

end Superseding

/-- **In a run whose commits come in order only the newest version is live.** -/
theorem newest_live {tenants : UUID → Option Tenant} {whitelist : List VcsEventWhitelist}
    {ls : List GatewayLabel} {c : GatewayConfig}
    (hrun : (gateway P).run (Config.start (World.initial tenants whitelist)) ls = some c)
    (hordered : inOrder.Accepts (gateway P) (fun _ => [])
      (Config.start (World.initial tenants whitelist)) ls) :
    NewestLive c.world.db.outbox ∧ c.world.PublishedInOrder := by
  have hinit : Superseding P (fun _ => []) (Config.start (World.initial tenants whitelist))
      (fun _ => { isPublisher := false }) := by
    refine ⟨reachable_start P _ tenants whitelist, ?_, ?_, ⟨?_, ?_⟩, ⟨?_, ?_⟩, ⟨?_, .nil⟩⟩
    all_goals simp [Protocol.Guides, Config.start, World.initial]
  have hsteps : ∀ seen c l c', (∃ σ, Superseding P seen c σ) → inOrder.ok seen c l →
      (gateway P).step c l = some c' → ∃ σ, Superseding P (inOrder.observe seen c l) c' σ := by
    intro seen c l c' hinv hok hstep
    obtain ⟨σ, hinv⟩ := hinv
    cases l with
    | spawn t k => exact ⟨_, hinv.spawn hstep⟩
    | step t ch => exact hinv.step hok hstep
    | env e => exact ⟨σ, hinv.env hstep⟩
    | kill t => exact ⟨σ, hinv.kill hstep⟩
  obtain ⟨seen, σ, hinv⟩ := Monitor.run_induction _ hsteps ⟨_, hinit⟩ hordered hrun
  exact ⟨hinv.newest, hinv.published.order⟩

/-! ### Two versions -/

/-- `CommitsInOrder`, tested. -/
def Seen.commitsInOrder (seen : Seen) (c : GatewayConfig) : GatewayLabel → Bool
  | .step t _ =>
    match c.threads t with
    | some ⟨_, .await .commit _, _⟩ =>
      match c.world.db.sessions t with
      | some tx => tx.changes.inserts.all fun n => c.world.db.outbox.all fun b =>
          b.prHashKey ≠ n.prHashKey || (b.prVersion < n.prVersion &&
            (b.status ≠ .scheduled || (seen t).contains b.outboxId))
      | none => true
    | _ => true
  | _ => true

theorem Seen.commitsInOrder_sound {seen : Seen} {c : GatewayConfig} {l : GatewayLabel}
    (h : seen.commitsInOrder c l = true) : seen.CommitsInOrder c l := by
  intro t tx hcommits htx n hn b hb hkey
  obtain ⟨k, f, tx', ch, ht, -, -, rfl, -⟩ := hcommits
  simp only [commitsInOrder, ht, htx, List.all_eq_true] at h
  simpa [hkey, or_iff_not_imp_left] using h n hn b hb

namespace Example

/-- The task `t` schedules a version of the event. -/
def schedulesVersion (t : Nat) (prVersion : Int) (choices : List Choice) : List GatewayLabel :=
  .spawn t (.scheduleEvent { scheduleArgs "k1" with prVersion }) :: choices.map (.step t)

/-- The first version cancels nothing, and the second one cancels the first. -/
def oldestFirst : List GatewayLabel :=
  schedulesVersion 0 1 [.ok, .ok, .fresh ⟨1⟩, .ok] ++
    schedulesVersion 1 2 [.ok, .ok, .ok, .fresh ⟨2⟩, .ok]

/-- Neither version cancels the other. -/
def newestFirst : List GatewayLabel :=
  schedulesVersion 0 2 [.ok, .ok, .fresh ⟨1⟩, .ok] ++
    schedulesVersion 1 1 [.ok, .ok, .fresh ⟨2⟩, .ok]

/-- The answers to a batch that selects two rows. -/
def selection : List Choice := [.ok, .ok, .ok, .ok, .ok, .fresh ⟨3⟩, .ok, .ok, .ok, .ok]

/-- A batch that publishes both. -/
def publishesBoth : List GatewayLabel :=
  .spawn 2 (.publisher publisher) :: (selection ++ publishes ++ publishes).map (.step 2)

theorem oldestFirst_accepted :
    inOrder.Accepts (gateway publishing) (fun _ => []) initial oldestFirst :=
  Monitor.accepts_sound (fun _ _ _ => Seen.commitsInOrder_sound) rfl

theorem newestFirst_run : ∃ c c' r r' e e',
    (gateway publishing).run initial newestFirst = some c ∧
    (gateway publishing).run c publishesBoth = some c' ∧
    c.world.db.sessions 0 = none ∧ c.world.db.sessions 1 = none ∧ c.world.db.outbox = [r, r'] ∧
    c'.world.db.outbox = [r, r'] ∧ r.prHashKey = "k1" ∧ r'.prHashKey = "k1" ∧ r.prVersion = 2 ∧
    r'.prVersion = 1 ∧ r.status = .scheduled ∧ r'.status = .scheduled ∧
    c'.world.trace[19]? = some e ∧ c'.world.trace[23]? = some e' ∧ e.Publishes r.outboxId ∧
    e'.Publishes r'.outboxId :=
  ⟨_, _, _, _, _, _, rfl, rfl, rfl, rfl, rfl, rfl, rfl, rfl, rfl, rfl, rfl, rfl, rfl, rfl,
    ⟨_, _, _, rfl, rfl⟩, ⟨_, _, _, rfl, rfl⟩⟩

end Example

theorem newest_live_two : ∃ c, (gateway Example.publishing).run Example.initial Example.oldestFirst =
    some c ∧ NewestLive c.world.db.outbox ∧ c.world.PublishedInOrder ∧
    c.world.db.outbox.map (fun r => (r.prVersion, r.status)) =
      [(1, .cancelled), (2, .scheduled)] :=
  have hrun : ∃ c, (gateway Example.publishing).run Example.initial Example.oldestFirst = some c ∧
      c.world.db.outbox.map (fun r => (r.prVersion, r.status)) =
        [(1, .cancelled), (2, .scheduled)] := ⟨_, rfl, rfl⟩
  have ⟨c, hrun, hrows⟩ := hrun
  have ⟨hnewest, hpublished⟩ := newest_live hrun Example.oldestFirst_accepted
  ⟨c, hrun, hnewest, hpublished, hrows⟩

/-- **An older version that comes late is live beside the newer one**, and is published after it. -/
theorem late_version_live : ∃ c c', (gateway Example.publishing).run Example.initial
      Example.newestFirst = some c ∧
    (gateway Example.publishing).run c Example.publishesBoth = some c' ∧
    c.world.db.sessions 0 = none ∧ c.world.db.sessions 1 = none ∧
    ¬NewestLive c.world.db.outbox ∧ ¬c'.world.PublishedInOrder := by
  obtain ⟨c, c', r, r', e, e', hrun, hrun', hclosed, hclosed', hrows, hrows', hkey, hkey', hversion,
    hversion', hscheduled, hscheduled', he, he', hpublishes, hpublishes'⟩ := Example.newestFirst_run
  refine ⟨c, c', hrun, hrun', hclosed, hclosed', ?_, ?_⟩
  · intro hnewest
    have heq : r = r' := hnewest.one r (by simp [hrows]) r' (by simp [hrows]) (hkey.trans hkey'.symm)
      hscheduled hscheduled'
    rw [heq, hversion'] at hversion
    exact absurd hversion (by decide)
  · intro hordered
    obtain ⟨hlt, he⟩ := List.getElem?_eq_some_iff.mp he
    obtain ⟨hlt', he'⟩ := List.getElem?_eq_some_iff.mp he'
    have hpair := List.pairwise_iff_getElem.mp hordered 19 23 hlt hlt' (by decide)
    rw [he, he'] at hpair
    have hle := hpair r (by simp [hrows']) r' (by simp [hrows']) hpublishes hpublishes'
      (hkey.trans hkey'.symm)
    rw [hversion, hversion'] at hle
    exact absurd hle (by decide)

end VcsGateway
