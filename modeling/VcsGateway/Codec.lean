import VcsGateway.Service

/-!
# What a message says

A message goes through `json.dumps`, a `jsonb` column, asyncpg and UTF-8 before it is
read.  Equality of JSON values is a parameter here: `jsonb` keeps a value up to the order
of its members and the spelling of its numbers.
-/

namespace VcsGateway

variable {P : Platform} {same : Json → Json → Prop}

/-- Equality of JSON values: objects are equal when their members are, and strings and
    `null` are equal to nothing else. -/
structure Json.Equality (same : Json → Json → Prop) : Prop where
  equivalence : Equivalence same
  null : ∀ {j}, same .null j → j = .null
  str : ∀ {s j}, same (.str s) j → j = .str s
  member : ∀ {j j' k v}, same j j' → j.field? k = some v → ∃ v', j'.field? k = some v' ∧ same v v'

theorem Json.equality_eq : Json.Equality (fun j j' => j = j') where
  equivalence := ⟨fun _ => rfl, Eq.symm, Eq.trans⟩
  null h := h.symm
  str h := h.symm
  member := by
    rintro j _ k v rfl hv
    exact ⟨v, hv, rfl⟩

/-- `sys.get_int_max_str_digits()`. -/
def maxStrDigits : Nat := 4300

/-- A value that `json.loads` builds: the keys of a `dict` are distinct, and an `int` has
    no more digits than Python converts. -/
inductive Platform.Built (P : Platform) : Json → Prop where
  | null : Built P .null
  | bool (b : Bool) : Built P (.bool b)
  | int (n : Int) (h : n.natAbs < 10 ^ maxStrDigits) : Built P (.int n)
  | float (r : String) (h : ∃ text, P.loadsStr text = some (.float r)) : Built P (.float r)
  | str (s : String) : Built P (.str s)
  | list (xs : List Json) (h : ∀ x ∈ xs, Built P x) : Built P (.list xs)
  | dict (items : List (String × Json)) (hkeys : (items.map (·.1)).Nodup)
      (h : ∀ kv ∈ items, Built P kv.2) : Built P (.dict items)

/-- JSON texts and `jsonb` columns keep what is written to them. -/
structure Platform.KeepsJson (P : Platform) (same : Json → Json → Prop) : Prop where
  built : ∀ {body j}, P.loads body = some j → P.Built j
  loads_dumps : ∀ {j}, P.Built j → P.loadsStr (P.dumps j) = some j
  loads_utf8 : ∀ {text j}, P.loadsStr text = some j → P.loads text.toUTF8 = some j
  text : ∀ {text stored j}, P.jsonbEncode (.str text) = some stored → P.loadsStr text = some j →
    ∃ text' j', P.jsonbDecode stored = .str text' ∧ P.loadsStr text' = some j' ∧ same j j'
  dict : ∀ {items stored}, P.jsonbEncode (.dict items) = some stored →
    same (.dict items) (P.jsonbDecode stored)

/-- What the JSON value says about the event, under the names of the message. -/
structure Tells (same : Json → Json → Prop) (j : Json) (e : NewInboundEvent) : Prop where
  eventId : j.field? "event_id" = some (.str e.eventId.str)
  correlationId : j.field? "correlation_id" = some (.str e.correlationId.str)
  tenantId : j.field? "tenant_id" = some (.str e.tenantId.str)
  vcsProvider : j.field? "vcs_provider" = some (.str e.vcsProvider)
  vcsInstanceId : j.field? "vcs_instance_id" = some (.str e.vcsInstanceId)
  repoId : j.field? "repo_id" = some (.str e.repoId)
  repoName : j.field? "repo_name" = some (optStr e.repoName)
  prId : j.field? "pr_id" = some (.str e.prId)
  prTitle : j.field? "pr_title" = some (optStr e.prTitle)
  prAuthor : j.field? "pr_author" = some (optStr e.prAuthor)
  prUrl : j.field? "pr_url" = some (optStr e.prUrl)
  commitSha : j.field? "commit_sha" = some (.str e.commitSha)
  prAction : j.field? "pr_action" = some (.str e.action)
  prHashKey : j.field? "pr_hash_key" = some (.str e.prHashKey)
  prVersion : ∃ v, j.field? "pr_version" = some v ∧ same (.int e.prVersion) v
  rawPayload : ∃ v, j.field? "raw_payload" = some v ∧ same e.rawPayload v

section Same

variable (hsame : Json.Equality same) {j j' : Json}

include hsame

theorem member_str (h : same j j') {k s : String} (hk : j.field? k = some (.str s)) :
    j'.field? k = some (.str s) := by
  obtain ⟨v, hv, heq⟩ := hsame.member h hk
  rw [hv, hsame.str heq]

theorem member_optStr (h : same j j') {k : String} {s : Option String}
    (hk : j.field? k = some (optStr s)) : j'.field? k = some (optStr s) := by
  cases s with
  | none =>
    obtain ⟨v, hv, heq⟩ := hsame.member h hk
    rw [hv, hsame.null heq]
    rfl
  | some s => exact member_str hsame h hk

/-- A value that is equal to the message of a call says what the call stores. -/
theorem message_tells {req : Request} {correlationId eventId : UUID} {timestamp : Time}
    {prData : PullRequestData} {prHashKey : String} {rawJson : List (String × Json)}
    (h : same ((receivedMessage req correlationId eventId timestamp prData prHashKey
      rawJson).modelDump P) j) :
    Tells same j (inboundArgs req correlationId eventId prData prHashKey rawJson) where
  eventId := member_str hsame h rfl
  correlationId := member_str hsame h rfl
  tenantId := member_str hsame h rfl
  vcsProvider := member_str hsame h rfl
  vcsInstanceId := member_str hsame h rfl
  repoId := member_str hsame h rfl
  repoName := member_optStr hsame h rfl
  prId := member_str hsame h rfl
  prTitle := member_optStr hsame h rfl
  prAuthor := member_optStr hsame h rfl
  prUrl := member_optStr hsame h rfl
  commitSha := member_str hsame h rfl
  prAction := member_str hsame h rfl
  prHashKey := member_str hsame h rfl
  prVersion := hsame.member h rfl
  rawPayload := hsame.member h rfl

/-- The payload column may hold anything that is equal as JSON. -/
theorem Tells.rawPayload_congr {e : NewInboundEvent} (h : Tells same j e) {raw : Json}
    {webhookHeaders : Option Json} (hraw : same e.rawPayload raw) :
    Tells same j { e with rawPayload := raw, webhookHeaders } where
  eventId := h.eventId
  correlationId := h.correlationId
  tenantId := h.tenantId
  vcsProvider := h.vcsProvider
  vcsInstanceId := h.vcsInstanceId
  repoId := h.repoId
  repoName := h.repoName
  prId := h.prId
  prTitle := h.prTitle
  prAuthor := h.prAuthor
  prUrl := h.prUrl
  commitSha := h.commitSha
  prAction := h.prAction
  prHashKey := h.prHashKey
  prVersion := h.prVersion
  rawPayload := by
    obtain ⟨v, hv, heq⟩ := h.rawPayload
    exact ⟨v, hv, hsame.equivalence.trans (hsame.equivalence.symm hraw) heq⟩

end Same

/-! ### What is built -/

theorem optStr_built (s : Option String) : P.Built (optStr s) := by
  cases s with
  | none => exact .null
  | some s => exact .str s

theorem loadsDict_built (hjson : P.KeepsJson same) {rawPayload : ByteArray}
    {rawJson : List (String × Json)} (h : loadsDict P rawPayload = .ok rawJson) :
    P.Built (.dict rawJson) := by
  unfold loadsDict at h
  split at h
  · simp at h
  · next items hloads =>
    obtain rfl := Except.ok.inj h
    exact hjson.built hloads
  · simp at h

theorem message_built {m : WebhookReceivedMessage} (hraw : P.Built (.dict m.rawPayload))
    (hversion : m.prVersion = 1) : P.Built (m.modelDump P) := by
  have hint : P.Built (.int m.prVersion) := by
    rw [hversion]
    exact .int 1 (Nat.one_lt_pow (by decide) (by decide))
  apply Platform.Built.dict
  · simp only [List.map_cons, List.map_nil]
    decide
  · simp only [List.forall_mem_cons]
    exact ⟨.str _, .str _, .str _, .str _, .str _, .str _, .str _, .str _, optStr_built _, .str _,
      optStr_built _, optStr_built _, optStr_built _, .str _, .str _, .str _, hint, hraw,
      by simp⟩

/-- **What is read is what was written**, whichever way `jsonb` spells it. -/
theorem written_read (hjson : P.KeepsJson same) {j stored : Json} (hj : P.Built j)
    (hstored : P.jsonbEncode (.str (P.dumps j)) = some stored) :
    ∃ text j', P.jsonbDecode stored = .str text ∧ P.loadsStr text = some j' ∧ same j j' :=
  hjson.text hstored (hjson.loads_dumps hj)

end VcsGateway
