import VcsGateway.Alone
import VcsGateway.Columns

/-!
# The internal lookups

What `check_duplicate` and `check_stale` answer, from the cache and from the table.
-/

namespace VcsGateway

open Async

variable {P : Platform} {t : Nat} {choose : World → Op → Choice} {w : World} {k : String}

/-! ### The table -/

theorem modelValidate_eq {row event : InboundEvent} (h : row.modelValidate P = .ok event) :
    event = { row with rawPayload := event.rawPayload, webhookHeaders := event.webhookHeaders } := by
  unfold InboundEvent.modelValidate at h
  split at h
  · rw [← Except.ok.inj h]
  · rw [← Except.ok.inj h]
  · rw [← Except.ok.inj h]
  · simp at h

/-- Every committed row was read back by the call that inserted it. -/
theorem stored_valid {c : GatewayConfig} (h : Reachable P serviceTask c) :
    ∀ row ∈ c.world.db.inbound, ∃ event, row.modelValidate P = .ok event := by
  intro row hrow
  obtain ⟨σ, hinv, -⟩ := reachable_accounted h
  have hinv : Accounted P c.world σ c.taskOf := hinv
  obtain ⟨commit, -, id, haccepts, -⟩ := hinv.commit_of hrow
  exact haccepts.valid

/-- `SELECT … WHERE pr_hash_key = $1`. -/
def World.stored (w : World) (k : String) : Option InboundEvent :=
  w.db.inbound.find? fun row => row.prHashKey = k

theorem getByPrHashKey_alone (hs : Serves choose)
    (hvalid : ∀ row ∈ w.db.inbound, ∃ event, row.modelValidate P = .ok event) :
    Alone P t choose (fun r w' => w.Untouched w' ∧
        ((w.stored k = none ∧ r = .ok none) ∨ ∃ row event, w.stored k = some row ∧
          row.modelValidate P = .ok event ∧ r = .ok (some event)))
      (getByPrHashKey P k) w := by
  have hselect : execOp P t (choose w (.selectByPrHashKey k)) w (.selectByPrHashKey k) =
      some (.ok (w.stored k), w) := by
    rw [hs.steady w _ rfl]
    rfl
  apply alone_await rfl hselect
  rcases hrow : w.stored k with _ | row
  · exact Prog.ensures_ret.mpr ⟨.record w _, .inl ⟨rfl, rfl⟩⟩
  · obtain ⟨event, hevent⟩ := hvalid row (List.mem_of_find?_eq_some hrow)
    simp only [Prog.onOk, Prog.andThen, hevent]
    exact Prog.ensures_ret.mpr ⟨.record w _, .inr ⟨row, event, rfl, hevent, rfl⟩⟩

/-! ### The cache -/

/-- Redis answers, and it has the key. -/
def Hits (choose : World → Op → Choice) (w : World) (k : String) : Prop :=
  choose w (.redisGet (idempotencyKey k)) = .ok ∧ ∃ v, w.cached (idempotencyKey k) = some v

theorem getIdempotencyCache_hit (hhit : Hits choose w k) :
    Alone P t choose (fun r _ => ∃ v, r = .ok (some v)) (getIdempotencyCache k) w := by
  obtain ⟨hc, v, hv⟩ := hhit
  apply alone_await hc rfl
  rw [hv]
  exact Prog.ensures_ret.mpr ⟨v, rfl⟩

theorem getIdempotencyCache_miss (hs : Serves choose) (hmiss : ¬Hits choose w k) :
    Alone P t choose (fun r w' => r = .ok none ∧ w.Untouched w') (getIdempotencyCache k) w := by
  rcases hs.redisGet w (idempotencyKey k) with hc | ⟨n, hc⟩
  · have hnone : w.cached (idempotencyKey k) = none := by
      rw [Option.eq_none_iff_forall_ne_some]
      intro v hv
      exact hmiss ⟨hc, v, hv⟩
    apply alone_await hc rfl
    rw [hnone]
    exact Prog.ensures_ret.mpr ⟨rfl, .record w _⟩
  · apply alone_await hc rfl
    exact Prog.ensures_ret.mpr ⟨rfl, .record w _⟩

/-! ### Duplicates -/

/-- The answer without the cache. -/
def databaseAnswer (w : World) (k : String) : DuplicateAnswer :=
  match w.stored k with
  | none => { isDuplicate := false, cacheHit := false, prHashKey := k }
  | some row =>
    { isDuplicate := true
      cacheHit := false
      prHashKey := k
      existingEventId := some (some row.eventId.str)
      existingCorrelationId := some (some row.correlationId.str) }

/-- On a hit the identifiers are missing. -/
theorem checkDuplicate_hit (hhit : Hits choose w k) :
    Alone P t choose (fun r _ => r = .ok { isDuplicate := true, cacheHit := true, prHashKey := k })
      (checkDuplicate P k) w := by
  apply Prog.Ensures.bind (Q := fun r _ => r = .ok (some .redisCache))
  · apply (getIdempotencyCache_hit hhit).bind
    · rintro cached w₁ ⟨v, hv⟩
      obtain rfl := Except.ok.inj hv
      exact Prog.ensures_ret.mpr rfl
    · rintro e w₁ ⟨v, hv⟩
      simp at hv
  · intro detection w₁ hdetection
    obtain rfl := Except.ok.inj hdetection
    exact Prog.ensures_ret.mpr rfl
  · intro e w₁ he
    simp at he

theorem check_miss (hs : Serves choose) (hmiss : ¬Hits choose w k)
    (hvalid : ∀ row ∈ w.db.inbound, ∃ event, row.modelValidate P = .ok event) :
    Alone P t choose
      (fun r w' => w'.db = w.db ∧ r = .ok ((w.stored k).map fun _ => .dbLookup)) (check P k) w := by
  apply (getIdempotencyCache_miss hs hmiss).bind
  · rintro cached w₁ ⟨hcached, hw₁⟩
    obtain rfl := Except.ok.inj hcached
    have hstored : w₁.stored k = w.stored k := by
      unfold World.stored
      rw [hw₁.db]
    apply (getByPrHashKey_alone hs (hw₁.db ▸ hvalid)).bind
    · rintro existing w₂ ⟨hw₂, ⟨hnone, hr⟩ | ⟨row, event, hrow, -, hr⟩⟩
      · obtain rfl := Except.ok.inj hr
        rw [← hstored, hnone]
        exact Prog.ensures_ret.mpr ⟨hw₂.db.trans hw₁.db, rfl⟩
      · obtain rfl := Except.ok.inj hr
        rw [← hstored, hrow]
        apply (setex_alone hs _ _ _ _).bind
        · rintro u w₃ ⟨-, hw₃⟩
          exact Prog.ensures_ret.mpr ⟨hw₃.db.trans (hw₂.db.trans hw₁.db), rfl⟩
        · rintro e w₃ ⟨he, -⟩
          simp at he
    · rintro e w₂ ⟨-, ⟨-, he⟩ | ⟨_, _, -, -, he⟩⟩
      · simp at he
      · simp at he
  · rintro e w₁ ⟨he, -⟩
    simp at he

theorem checkDuplicate_miss (hs : Serves choose) (hmiss : ¬Hits choose w k)
    (hvalid : ∀ row ∈ w.db.inbound, ∃ event, row.modelValidate P = .ok event) :
    Alone P t choose (fun r _ => r = .ok (databaseAnswer w k)) (checkDuplicate P k) w := by
  apply (check_miss hs hmiss hvalid).bind
  · rintro detection w₁ ⟨hdb, hdetection⟩
    obtain rfl := Except.ok.inj hdetection
    have hstored : w₁.stored k = w.stored k := by
      unfold World.stored
      rw [hdb]
    unfold databaseAnswer
    rcases hrow : w.stored k with _ | row
    · exact Prog.ensures_ret.mpr rfl
    · -- the row is read once more, for its identifiers
      apply (getByPrHashKey_alone hs (hdb ▸ hvalid)).bind
      · rintro existing w₂ ⟨-, ⟨hnone, -⟩ | ⟨row', event, hrow', hevent, hr⟩⟩
        · simp [hstored, hrow] at hnone
        · obtain rfl := Except.ok.inj hr
          obtain rfl : row = row' := Option.some.inj (hrow.symm.trans (hstored.symm.trans hrow'))
          rw [modelValidate_eq hevent]
          exact Prog.ensures_ret.mpr rfl
      · rintro e w₂ ⟨-, ⟨-, he⟩ | ⟨_, _, -, -, he⟩⟩
        · simp at he
        · simp at he
  · rintro e w₁ ⟨-, he⟩
    simp at he

/-- The same finding, wherever it comes from. -/
structure DuplicateAnswer.Agrees (a a' : DuplicateAnswer) : Prop where
  isDuplicate : a.isDuplicate = a'.isDuplicate
  existingEventId : a.existingEventId = a'.existingEventId
  existingCorrelationId : a.existingCorrelationId = a'.existingCorrelationId

/-- What a hit answers is not what the table answers. -/
theorem hit_disagrees {a : DuplicateAnswer} (ha : a.isDuplicate = true ∧ a.existingEventId = none) :
    ¬a.Agrees (databaseAnswer w k) ∧ ¬(databaseAnswer w k).Agrees a := by
  unfold databaseAnswer
  rcases w.stored k with _ | row
  · constructor
    · intro h
      simpa [ha.1] using h.isDuplicate
    · intro h
      simpa [ha.1] using h.isDuplicate
  · constructor
    · intro h
      simpa [ha.2] using h.existingEventId
    · intro h
      simpa [ha.2] using h.existingEventId

/-- **`check_duplicate` gives the same answer over two states of Redis if and only if both
have the key, or neither.** -/
theorem answers_agree_iff {c c' : GatewayConfig} (h : Reachable P serviceTask c)
    (h' : Reachable P serviceTask c') (hdb : c'.world.db.inbound = c.world.db.inbound)
    {choose' : World → Op → Choice} {t' : Nat} (hs : Serves choose) (hs' : Serves choose') :
    ∃ a a', Alone P t choose (fun r _ => r = .ok a) (checkDuplicate P k) c.world ∧
      Alone P t' choose' (fun r _ => r = .ok a') (checkDuplicate P k) c'.world ∧
      (a.Agrees a' ↔ (Hits choose c.world k ↔ Hits choose' c'.world k)) := by
  have hsame : databaseAnswer c'.world k = databaseAnswer c.world k := by
    unfold databaseAnswer World.stored
    rw [hdb]
  by_cases hhit : Hits choose c.world k
  · by_cases hhit' : Hits choose' c'.world k
    · exact ⟨_, _, checkDuplicate_hit hhit, checkDuplicate_hit hhit',
        by simp [hhit, hhit'], fun _ => ⟨rfl, rfl, rfl⟩⟩
    · refine ⟨_, _, checkDuplicate_hit hhit, checkDuplicate_miss hs' hhit' (stored_valid h'), ?_⟩
      simp [hhit, hhit', hit_disagrees]
  · by_cases hhit' : Hits choose' c'.world k
    · refine ⟨_, _, checkDuplicate_miss hs hhit (stored_valid h), checkDuplicate_hit hhit', ?_⟩
      simp [hhit, hhit', hit_disagrees]
    · refine ⟨_, _, checkDuplicate_miss hs hhit (stored_valid h),
        checkDuplicate_miss hs' hhit' (stored_valid h'), by simp [hhit, hhit'], fun _ => ?_⟩
      rw [hsame]
      exact ⟨rfl, rfl, rfl⟩

namespace Example

/-- The key of the first webhook. -/
def firstKey : String := "e1b31461ebdb537c3196222b385217176e8659debcd52b9287409920d5174a01"

/-- The webhook is stored, its entry in Redis is evicted, and the key is looked up twice. -/
def lookedUpTwice : List GatewayLabel :=
  solo (.webhook (delivery first)) (freshChoices ++ storedChoices) ++
    .env (.evict (idempotencyKey firstKey)) ::
      (.spawn 1 (.checkDuplicate firstKey) :: [Choice.ok, .ok, .ok, .ok].map (.step 1) ++
        [.spawn 2 (.checkDuplicate firstKey), .step 2 .ok])

theorem lookedUpTwice_labels : lookedUpTwice =
    solo (.webhook (delivery first)) freshChoices ++
      .step 0 (.fresh ⟨21⟩) :: ((Choice.ok :: Choice.ok :: emitChoices 22).map (.step 0) ++
        .env (.evict (idempotencyKey firstKey)) ::
          (.spawn 1 (.checkDuplicate firstKey) :: [Choice.ok, .ok, .ok, .ok].map (.step 1) ++
            [.spawn 2 (.checkDuplicate firstKey), .step 2 .ok])) :=
  rfl

theorem storedOnce_run : ∃ c,
    (gateway (storing first)).run initial
      (solo (.webhook (delivery first)) (freshChoices ++ storedChoices)) = some c ∧
    Finished c 0 (.webhook (delivery first)) (.ok (.accepted ⟨9⟩ ⟨20⟩ ⟨21⟩)) ∧
    c.world.db.inbound.length = 1 := by
  rw [stored_labels]
  exact ⟨_, run_insertEvent rfl rfl rfl rfl (by decide) (storing_row rfl rfl rfl rfl) rfl, rfl, rfl⟩

theorem lookedUpTwice_run : ∃ c, (gateway (storing first)).run initial lookedUpTwice = some c ∧
    Finished c 1 (.checkDuplicate firstKey) (.ok
      { isDuplicate := true
        cacheHit := false
        prHashKey := firstKey
        existingEventId := some (some "00000000-0000-0000-0000-000000000014")
        existingCorrelationId := some (some "00000000-0000-0000-0000-000000000009") }) ∧
    Finished c 2 (.checkDuplicate firstKey)
      (.ok { isDuplicate := true, cacheHit := true, prHashKey := firstKey }) := by
  rw [lookedUpTwice_labels]
  exact ⟨_, run_insertEvent rfl rfl rfl rfl (by decide) (storing_row rfl rfl rfl rfl) rfl, rfl, rfl⟩

/-- Redis fails on every read. -/
def redisDown : World → Op → Choice
  | _, .redisGet _ => .fault 0
  | _, _ => .ok

theorem redisDown_serves : Serves redisDown where
  steady w op hop := by
    cases op with
    | redisGet key => simp [Op.steady] at hop
    | _ => rfl
  redisGet w key := .inr ⟨0, rfl⟩
  redisSetex w key ttl v := .inl rfl

theorem not_hits_redisDown (w : World) (k : String) : ¬Hits redisDown w k := by
  rintro ⟨hok, -⟩
  simp [redisDown] at hok

end Example

/-- Without Redis every answer comes from the table. -/
theorem answers_agree_redisDown : ∃ c, Reachable (Example.storing Example.first) serviceTask c ∧
    c.world.db.inbound.length = 1 ∧
    ∃ a a', Alone (Example.storing Example.first) 1 Example.redisDown (fun r _ => r = .ok a)
        (checkDuplicate (Example.storing Example.first) Example.firstKey) c.world ∧
      Alone (Example.storing Example.first) 2 Example.redisDown (fun r _ => r = .ok a')
        (checkDuplicate (Example.storing Example.first) Example.firstKey) c.world ∧ a.Agrees a' := by
  obtain ⟨c, hrun, -, hrows⟩ := Example.storedOnce_run
  have hc := Example.reachable_run hrun rfl
  obtain ⟨a, a', ha, ha', hiff⟩ := answers_agree_iff hc hc rfl Example.redisDown_serves
    Example.redisDown_serves
  exact ⟨c, hc, hrows, a, a', ha, ha', hiff.mpr (by simp [Example.not_hits_redisDown])⟩

/-- **The answer changes between two calls with no webhook in between**: the identifiers of
the stored event are there only when the key is not in Redis. -/
theorem answers_disagree : ∃ c, Reachable (Example.storing Example.first) serviceTask c ∧
    ∃ a a', Finished c 1 (.checkDuplicate Example.firstKey) (.ok a) ∧
      Finished c 2 (.checkDuplicate Example.firstKey) (.ok a') ∧ a.isDuplicate = true ∧
      ¬a.Agrees a' := by
  obtain ⟨c, hrun, hfirst, hsecond⟩ := Example.lookedUpTwice_run
  refine ⟨c, Example.reachable_run hrun rfl, _, _, hfirst, hsecond, rfl, ?_⟩
  intro h
  simpa using h.existingEventId

/-! ### Stale events -/

/-- `check_stale` comes to this verdict, whenever it runs alone. -/
def Verdict (P : Platform) (w : World) (k : String) (prVersion : Int) (isStale : Bool) : Prop :=
  ∀ t choose, Serves choose →
    Alone P t choose (fun r _ => ∃ a, r = .ok a ∧ a.isStale = isStale) (checkStale P k prVersion) w

/-- A webhook is never stale against its own row. -/
theorem checkStale_stored {c : GatewayConfig} (h : Reachable P serviceTask c) {e : InboundEvent}
    (he : e ∈ c.world.db.inbound) : Verdict P c.world e.prHashKey e.prVersion false := by
  intro t choose hs
  have hstored : c.world.stored e.prHashKey = some e := by
    obtain ⟨row, hrow⟩ : ∃ row, c.world.stored e.prHashKey = some row :=
      Option.isSome_iff_exists.mp (List.find?_isSome.mpr ⟨e, he, by simp⟩)
    have hkey : row.prHashKey = e.prHashKey := by simpa using List.find?_some hrow
    have hmem := List.mem_of_find?_eq_some hrow
    rw [hrow, List.inj_on_of_nodup_map (inboundKeys_nodup h) hmem he hkey]
  apply (getByPrHashKey_alone hs (stored_valid h)).bind
  · rintro existing w₁ ⟨-, ⟨hnone, -⟩ | ⟨row, event, hrow, hevent, hr⟩⟩
    · simp [hstored] at hnone
    · obtain rfl := Except.ok.inj hr
      obtain rfl : e = row := Option.some.inj (hstored.symm.trans hrow)
      have hversion : event.prVersion = e.prVersion := by rw [modelValidate_eq hevent]
      simp only [hversion, gt_iff_lt, lt_irrefl, if_false]
      exact Prog.ensures_ret.mpr ⟨_, rfl, rfl⟩
  · rintro e w₁ ⟨-, ⟨-, he⟩ | ⟨_, _, -, -, he⟩⟩
    · simp at he
    · simp at he

/-- Webhooks of the same pull request. -/
structure InboundEvent.SamePullRequest (e e' : InboundEvent) : Prop where
  tenantId : e'.tenantId = e.tenantId
  vcsProvider : e'.vcsProvider = e.vcsProvider
  repoId : e'.repoId = e.repoId
  prId : e'.prId = e.prId

/-- `e'` was accepted after `e`. -/
def AcceptedBefore (db : Database) (e e' : InboundEvent) : Prop :=
  ∃ earlier later, db.inbound = earlier ++ later ∧ e ∈ earlier ∧ e' ∈ later

theorem AcceptedBefore.mem {db : Database} {e e' : InboundEvent} (h : AcceptedBefore db e e') :
    e ∈ db.inbound := by
  obtain ⟨earlier, later, heq, he, -⟩ := h
  rw [heq]
  exact List.mem_append_left _ he

/-- Stale detection detects staleness. -/
structure StaleDetected (P : Platform) (w : World) : Prop where
  stale : ∀ e e', AcceptedBefore w.db e e' → e.SamePullRequest e' → e.commitSha ≠ e'.commitSha →
    Verdict P w e.prHashKey e.prVersion true
  last : ∀ e ∈ w.db.inbound, (∀ e', AcceptedBefore w.db e e' → ¬e.SamePullRequest e') →
    Verdict P w e.prHashKey e.prVersion false

theorem serves_ok : Serves fun _ _ => .ok where
  steady _ _ _ := rfl
  redisGet _ _ := .inl rfl
  redisSetex _ _ _ _ := .inl rfl

theorem Verdict.unique {b b' : Bool} {v : Int} (h : Verdict P w k v b) (h' : Verdict P w k v b') :
    b = b' := by
  obtain ⟨r, w₁, hr, a, ha, hb⟩ := h 0 _ serves_ok
  obtain ⟨r', w₂, hr', a', ha', hb'⟩ := h' 0 _ serves_ok
  obtain ⟨rfl, rfl⟩ := Prod.mk.inj (Option.some.inj (hr.symm.trans hr'))
  obtain rfl := Except.ok.inj (ha.symm.trans ha')
  exact hb.symm.trans hb'

/-- **Stale events are detected in exactly those states in which there are none**: no pull
request has two accepted webhooks with different commits. -/
theorem stale_detected_iff {c : GatewayConfig} (h : Reachable P serviceTask c) :
    StaleDetected P c.world ↔ ∀ e e', AcceptedBefore c.world.db e e' → e.SamePullRequest e' →
      e.commitSha = e'.commitSha := by
  constructor
  · intro hdetected e e' hbefore hsame
    by_contra hne
    have hfresh := checkStale_stored h hbefore.mem
    exact absurd ((hdetected.stale e e' hbefore hsame hne).unique hfresh) (by simp)
  · intro hcommits
    constructor
    · intro e e' hbefore hsame hne
      exact absurd (hcommits e e' hbefore hsame) hne
    · intro e he _
      exact checkStale_stored h he

namespace Example

/-- The text of a JSON value after one character of whitespace. -/
def indented (c : UInt8) (body : Json) : ByteArray := ⟨⟨c :: body.text.toUTF8.data.toList⟩⟩

/-- `json.loads` on two bodies: the first begins with a line feed, the second with a space. -/
def readIndented (body : ByteArray) : Option Json :=
  if body.data.toList.head? = some 10 then some first else some second

def both : Platform := { storing first with loads := readIndented, readJson := readIndented }

def firstDelivery : Request := { delivery first with rawPayload := indented 10 first }
def secondDelivery : Request := { delivery second with rawPayload := indented 32 second }

theorem both_dumps (j : Json) : textOk (both.dumps j) = true := (storing_codec first).dumps j

theorem both_row {payload headers : Json} {args : NewOutboxEvent} {u : UUID} {now : Time}
    (htype : textOk args.eventType = true) (hkey : varcharOk 64 args.prHashKey = true)
    (hpayload : args.payload = .str (both.dumps payload))
    (hheaders : args.headers = .str (both.dumps headers)) :
    args.row both u now = some
      { outboxId := u
        eventType := args.eventType
        correlationId := args.correlationId
        prHashKey := args.prHashKey
        prVersion := args.prVersion
        payload := args.payload
        headers := args.headers
        dispatchAt := now + seconds args.debounceSeconds
        createdAt := now } := by
  apply NewOutboxEvent.row_eq rfl rfl
  rw [hpayload, hheaders]
  simp only [Json.jsonbOk, htype, hkey, both_dumps, Bool.and_self]

/-- The answers up to the `INSERT` for the second commit; the cache of the tenant fails. -/
def secondChoices : List Choice :=
  [.fresh ⟨30⟩, .fault 0, .ok, .ok, .ok] ++ emitChoices 31 ++ emitChoices 32 ++ [.ok, .ok] ++
    emitChoices 33 ++ [.fresh ⟨34⟩, .ok, .ok, .ok, .ok]

/-- Two commits of one merge request are delivered one after the other; the second one is
    about to be stored. -/
def untilCommit : List GatewayLabel :=
  (solo (.webhook firstDelivery) freshChoices ++
    .step 0 (.fresh ⟨21⟩) :: ((Choice.ok :: Choice.ok :: emitChoices 22).map (.step 0) ++
      .spawn 1 (.webhook secondDelivery) :: secondChoices.map (.step 1))) ++
    [.step 1 (.fresh ⟨35⟩)]

def afterCommit : List GatewayLabel := (Choice.ok :: emitChoices 36).map (.step 1)

theorem twoCommits_run : ∃ c c' c'', (gateway both).run initial untilCommit = some c ∧
    (gateway both).step c (.step 1 .ok) = some c' ∧ (gateway both).run c' afterCommit = some c'' ∧
    Finished c'' 0 (.webhook firstDelivery) (.ok (.accepted ⟨9⟩ ⟨20⟩ ⟨21⟩)) ∧
    Finished c'' 1 (.webhook secondDelivery) (.ok (.accepted ⟨30⟩ ⟨34⟩ ⟨35⟩)) ∧
    c''.world.db.outbox.map (·.status) = [.scheduled, .scheduled] ∧
    ∃ e e' r, c.world.db.inbound = [e] ∧ c'.world.db.inbound = [e, e'] ∧
      c''.world.db.inbound = [e, e'] ∧ e.SamePullRequest e' ∧ e.commitSha = "c1" ∧
      e'.commitSha = "c2" ∧ c.world.db.outbox = [r] ∧ r.identity = e.identity ∧
      r.status = .scheduled :=
  ⟨_, _, _, run_insertEvent (run_insertEvent rfl rfl rfl rfl (by decide)
    (both_row rfl rfl rfl rfl) rfl) rfl rfl rfl (by decide) (both_row rfl rfl rfl rfl) rfl, rfl,
    rfl, rfl, rfl, rfl, _, _, _, rfl, rfl, rfl, ⟨rfl, rfl, rfl, rfl⟩, rfl, rfl, rfl, rfl, rfl⟩

theorem reachable_twoCommits {c c' c'' : GatewayConfig}
    (h : (gateway both).run initial untilCommit = some c)
    (hstep : (gateway both).step c (.step 1 .ok) = some c')
    (hrun : (gateway both).run c' afterCommit = some c'') : Reachable both serviceTask c'' := by
  apply @reachable_run _ (untilCommit ++ .step 1 .ok :: afterCommit)
  · rw [Machine.run_append, h, Option.bind_some, Machine.run_cons_eq_some]
    exact ⟨c', hstep, hrun⟩
  · rfl

end Example

/-- One commit is the last one. -/
theorem stale_detected_first : ∃ c, Reachable (Example.storing Example.first) serviceTask c ∧
    c.world.db.inbound.length = 1 ∧ StaleDetected (Example.storing Example.first) c.world := by
  obtain ⟨c, hrun, -, hrows⟩ := Example.storedOnce_run
  have hc := Example.reachable_run hrun rfl
  refine ⟨c, hc, hrows, (stale_detected_iff hc).mpr ?_⟩
  rintro e e' ⟨earlier, later, heq, he, he'⟩ -
  rw [heq, List.length_append] at hrows
  have := List.length_pos_of_mem he
  have := List.length_pos_of_mem he'
  omega

/-- **The first of two commits is not stale.** -/
theorem stale_undetected : ∃ c, Reachable Example.both serviceTask c ∧
    ∃ e e', AcceptedBefore c.world.db e e' ∧ e.SamePullRequest e' ∧ e.commitSha ≠ e'.commitSha ∧
      Verdict Example.both c.world e.prHashKey e.prVersion false ∧
      ¬StaleDetected Example.both c.world := by
  obtain ⟨c₁, c₂, c, h₁, h₂, hrun, -, -, -, e, e', -, -, -, hrows, hsame, hfirst, hsecond, -⟩ :=
    Example.twoCommits_run
  have hc := Example.reachable_twoCommits h₁ h₂ hrun
  have hbefore : AcceptedBefore c.world.db e e' := ⟨[e], [e'], hrows, by simp, by simp⟩
  have hne : e.commitSha ≠ e'.commitSha := by
    rw [hfirst, hsecond]
    decide
  have hverdict := checkStale_stored hc hbefore.mem
  refine ⟨c, hc, e, e', hbefore, hsame, hne, hverdict, ?_⟩
  intro hdetected
  exact absurd ((hdetected.stale e e' hbefore hsame hne).unique hverdict) (by simp)

end VcsGateway
