import VcsGateway.Platform

/-!
# Payloads and the event filter

`models/requests.py`, `payload_parser.py` and `event_filter.py`.  A model class is
read from a JSON value field by field; one bad or missing field is a pydantic
`ValidationError`.
-/

namespace VcsGateway

variable (P : Platform)

def Json.strField (j : Json) (k : String) : Option String :=
  match j.field? k with
  | some (.str s) => some s
  | _ => none

def Json.intField (j : Json) (k : String) : Option Int := (j.field? k).bind P.toInt

def Json.dictField (j : Json) (k : String) : Option (List (String × Json)) :=
  match j.field? k with
  | some (.dict items) => some items
  | _ => none

/-! ## GitHub -/

structure GitHubPullRequest where
  number : Int
  title : String
  user : List (String × Json)
  htmlUrl : String
  head : List (String × Json)
  base : List (String × Json)

def GitHubPullRequest.validate (j : Json) : Option GitHubPullRequest := do
  let number ← j.intField P "number"
  let title ← j.strField "title"
  let user ← j.dictField "user"
  let htmlUrl ← j.strField "html_url"
  let head ← j.dictField "head"
  let base ← j.dictField "base"
  return { number, title, user, htmlUrl, head, base }

structure GitHubRepository where
  id : Int
  fullName : String
  htmlUrl : String

def GitHubRepository.validate (j : Json) : Option GitHubRepository := do
  let id ← j.intField P "id"
  let fullName ← j.strField "full_name"
  let htmlUrl ← j.strField "html_url"
  return { id, fullName, htmlUrl }

structure GitHubWebhookPayload where
  action : String
  pullRequest : GitHubPullRequest
  repository : GitHubRepository

def GitHubWebhookPayload.validate (j : Json) : Option GitHubWebhookPayload := do
  let action ← j.strField "action"
  let pullRequest ← (j.field? "pull_request").bind (GitHubPullRequest.validate P)
  let repository ← (j.field? "repository").bind (GitHubRepository.validate P)
  return { action, pullRequest, repository }

/-! ## GitLab -/

structure GitLabObjectAttributes where
  iid : Int
  title : String
  url : String
  lastCommit : List (String × Json)
  action : String
  authorId : Int

def GitLabObjectAttributes.validate (j : Json) : Option GitLabObjectAttributes := do
  let iid ← j.intField P "iid"
  let title ← j.strField "title"
  let url ← j.strField "url"
  let lastCommit ← j.dictField "last_commit"
  let action ← j.strField "action"
  let authorId ← j.intField P "author_id"
  return { iid, title, url, lastCommit, action, authorId }

structure GitLabProject where
  id : Int
  pathWithNamespace : String
  webUrl : String

def GitLabProject.validate (j : Json) : Option GitLabProject := do
  let id ← j.intField P "id"
  let pathWithNamespace ← j.strField "path_with_namespace"
  let webUrl ← j.strField "web_url"
  return { id, pathWithNamespace, webUrl }

structure GitLabWebhookPayload where
  objectKind : String
  objectAttributes : GitLabObjectAttributes
  project : GitLabProject
  user : List (String × Json)

def GitLabWebhookPayload.validate (j : Json) : Option GitLabWebhookPayload := do
  let objectKind ← j.strField "object_kind"
  let objectAttributes ← (j.field? "object_attributes").bind (GitLabObjectAttributes.validate P)
  let project ← (j.field? "project").bind (GitLabProject.validate P)
  let user ← j.dictField "user"
  return { objectKind, objectAttributes, project, user }

/-! ## Normalization -/

/-- Normalized PR data extracted from any VCS webhook payload. -/
structure PullRequestData where
  prId : String
  repoId : String
  repoName : Option String
  prTitle : String
  prAuthor : String
  prUrl : String
  commitSha : String
  action : String
  vcsInstanceId : String := "github.com"
deriving DecidableEq, Repr

/-- `str(items.get(k, ""))`. -/
def Platform.strGet (items : List (String × Json)) (k : String) : String :=
  P.str ((dictGet? items k).getD (.str ""))

/-- Parse and normalize a raw webhook body. -/
def parsePayload (vcsProvider : String) (rawPayload : ByteArray) : Except Exn PullRequestData :=
  if vcsProvider = "github" then
    match (P.readJson rawPayload).bind (GitHubWebhookPayload.validate P) with
    | none => .error (.pydanticValidationError "GitHubWebhookPayload")
    | some payload => .ok {
        prId := toString payload.pullRequest.number
        repoId := toString payload.repository.id
        repoName := some payload.repository.fullName
        prTitle := payload.pullRequest.title
        prAuthor := P.strGet payload.pullRequest.user "login"
        prUrl := payload.pullRequest.htmlUrl
        commitSha := P.strGet payload.pullRequest.head "sha"
        action := payload.action
        vcsInstanceId := "github.com" }
  else if vcsProvider = "gitlab" then
    match (P.readJson rawPayload).bind (GitLabWebhookPayload.validate P) with
    | none => .error (.pydanticValidationError "GitLabWebhookPayload")
    | some payload => .ok {
        prId := toString payload.objectAttributes.iid
        repoId := toString payload.project.id
        repoName := some payload.project.pathWithNamespace
        prTitle := payload.objectAttributes.title
        prAuthor := P.strGet payload.user "username"
        prUrl := payload.objectAttributes.url
        commitSha := P.strGet payload.objectAttributes.lastCommit "id"
        action := payload.objectAttributes.action
        vcsInstanceId := "gitlab.com" }
  else .error (.valueError ("Unsupported vcs_provider: " ++ vcsProvider))

/-! ## Event filter -/

/-- `shared_schema.vcs_event_whitelist` row. -/
structure VcsEventWhitelist where
  vcsProvider : String
  eventType : String
  eventAction : String
  isActive : Bool
deriving DecidableEq, Repr

/-- Is the pair `(event_type, action)` in the whitelist? -/
def isEventAllowed (eventType action : String) (whitelist : List VcsEventWhitelist) : Bool :=
  whitelist.any fun w => w.eventType = eventType && w.eventAction = action

/-- `headers.get("X-GitHub-Event") or headers.get("X-Gitlab-Event") or ""`. -/
def extractEventType (headers : Headers) : String :=
  if headers.getD "X-GitHub-Event" ≠ "" then headers.getD "X-GitHub-Event"
  else headers.getD "X-Gitlab-Event"

end VcsGateway
