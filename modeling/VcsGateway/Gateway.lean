import VcsGateway.Publisher

/-!
# The gateway as a machine

The tasks that run concurrently, and the machine that interleaves them.
-/

namespace VcsGateway

open Async

/-- A `schedule_event` transaction of its own. -/
structure ScheduleArgs where
  eventType : String
  correlationId : UUID
  prHashKey : String
  prVersion : Int
  payload : Json
  headers : Json
  debounceSeconds : Nat

inductive Task where
  | webhook (req : Request)
  | checkDuplicate (prHashKey : String)
  | checkStale (prHashKey : String) (prVersion : Int)
  | scheduleEvent (args : ScheduleArgs)
  | publisher (self : Publisher)

@[reducible] def Task.Result : Task → Type
  | .webhook _ => WebhookResult
  | .checkDuplicate _ => DuplicateAnswer
  | .checkStale _ _ => StaleAnswer
  | .scheduleEvent _ => UUID
  | .publisher _ => Bool

variable (P : Platform)

def Task.prog : (k : Task) → Coroutine k.Result
  | .webhook req => processWebhook P req
  | .checkDuplicate k => VcsGateway.checkDuplicate P k
  | .checkStale k v => VcsGateway.checkStale P k v
  | .scheduleEvent a =>
    transaction
      (VcsGateway.scheduleEvent P a.eventType a.correlationId a.prHashKey a.prVersion a.payload
        a.headers a.debounceSeconds)
  | .publisher self => runOnce P self

def gateway : Machine Exn Op Op.Ret World Choice EnvEvent Task Task.Result where
  exec := exec P
  env := envStep
  kill := vanish
  prog := Task.prog P

abbrev GatewayConfig := Config Exn Op Op.Ret World Task.Result
abbrev GatewayLabel := Label Choice EnvEvent Task

/-- Labels that start no other tasks than the `allowed` ones. -/
def starts (allowed : Task → Prop) : GatewayLabel → Prop
  | .spawn _ k => allowed k
  | _ => True

/-- `c` is reached from the empty tables by a run that starts only `allowed` tasks. -/
def Reachable (allowed : Task → Prop) (c : GatewayConfig) : Prop :=
  ∃ tenants whitelist ls, (∀ l ∈ ls, starts allowed l) ∧
    (gateway P).run (Config.start (World.initial tenants whitelist)) ls = some c

/-- The task `k` that runs as `t` has ended with the result `r`. -/
def Finished (c : GatewayConfig) (t : Nat) (k : Task) (r : Except Exn k.Result) : Prop :=
  c.threads t = some ⟨k, .ret r, true⟩

/-- The tasks of the service; a `schedule_event` transaction runs inside `persist` only. -/
def serviceTask : Task → Prop
  | .scheduleEvent _ => False
  | _ => True

theorem reachable_start (allowed : Task → Prop) (tenants : UUID → Option Tenant)
    (whitelist : List VcsEventWhitelist) :
    Reachable P allowed (Config.start (World.initial tenants whitelist)) := by
  refine ⟨tenants, whitelist, [], ?_, rfl⟩
  intro l hl
  simp at hl

/-! ### An example -/

namespace Example

/-- The merge request webhook of a commit. -/
def payload (action commit : String) : Json :=
  .dict [("object_kind", .str "merge_request"),
    ("object_attributes", .dict [("iid", .int 7), ("title", .str "Fix"),
      ("url", .str "https://gitlab.com/g/r/-/merge_requests/7"),
      ("last_commit", .dict [("id", .str commit)]), ("action", .str action),
      ("author_id", .int 1)]),
    ("project", .dict [("id", .int 3), ("path_with_namespace", .str "g/r"),
      ("web_url", .str "https://gitlab.com/g/r")]),
    ("user", .dict [("username", .str "bob")])]

def first : Json := payload "open" "c1"
def second : Json := payload "update" "c2"

def tenant : Tenant :=
  { tenantId := ⟨5⟩, customerId := ⟨6⟩, name := "acme", isActive := true,
    webhookSecret := "s3cret", planType := "pro" }

def tenants : UUID → Option Tenant := fun id => if id = tenant.tenantId then some tenant else none

def whitelist : List VcsEventWhitelist :=
  [⟨"gitlab", "Merge Request Hook", "open", true⟩,
    ⟨"gitlab", "Merge Request Hook", "update", true⟩]

/-- The digests of the two key strings that occur. -/
def sha256Hex (s : String) : String :=
  if s = "gitlab:00000000-0000-0000-0000-000000000005:3:7:gitlab.com:open:c1" then
    "e1b31461ebdb537c3196222b385217176e8659debcd52b9287409920d5174a01"
  else "19601790c33ab278b3cd6e2da78ec6d3e086c639294e38cef08720b12aebae10"

/-- `json.loads` on the two bodies that occur. -/
def reader (body : ByteArray) : Option Json :=
  [first, second].find? fun j => j.text.toUTF8 = body

/-- The libraries on what occurs below, under a pool with a JSON codec. -/
def platform : Platform where
  sha256Hex := sha256Hex
  hmacSha256Hex _ _ := ""
  loads := reader
  loadsStr text := if text = tenant.modelDump.text then some tenant.modelDump else none
  dumps := Json.text
  readJson := reader
  toInt
    | .int n => some n
    | _ => none
  isPrintable _ := true
  excStr _ := "Connection lost"
  isoformat _ := "1970-01-01T00:00:00Z"
  jsonbEncode := some
  jsonbDecode := id

/-- The delivery of a webhook by GitLab. -/
def delivery (body : Json) : Request :=
  { tenantId := tenant.tenantId, vcsProvider := "gitlab", rawPayload := body.text.toUTF8,
    headers := [("X-Gitlab-Token", "s3cret"), ("X-Gitlab-Event", "Merge Request Hook")] }

/-- No task has been started. -/
def initial : GatewayConfig := Config.start (World.initial tenants whitelist)

/-- A label that starts no `schedule_event` on its own. -/
def service : GatewayLabel → Bool
  | .spawn _ (.scheduleEvent _) => false
  | _ => true

theorem reachable_run {P : Platform} {ls : List GatewayLabel} {c : GatewayConfig}
    (h : (gateway P).run initial ls = some c) (hls : ls.all service = true) :
    Reachable P serviceTask c := by
  refine ⟨tenants, whitelist, ls, ?_, h⟩
  intro l hl
  have hservice := List.all_eq_true.mp hls l hl
  unfold service at hservice
  split at hservice
  · simp at hservice
  · next hnot =>
    cases l with
    | spawn t k =>
      cases k with
      | scheduleEvent args => exact absurd rfl (hnot t args)
      | _ => trivial
    | _ => trivial

end Example

end VcsGateway
