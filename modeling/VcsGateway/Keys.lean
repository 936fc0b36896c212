import VcsGateway.Text
import VcsGateway.Gateway

/-!
# What the idempotency key identifies

The string fed to SHA-256 joins seven fields with colons.  Provider, tenant, repository,
pull request and instance can be read back from it; of the action and the commit id,
the two fields that the payload controls, only their concatenation can.
-/

namespace VcsGateway

variable (P : Platform)

/-- The string that `process_webhook` feeds to SHA-256. -/
def keyInput (req : Request) (prData : PullRequestData) : String :=
  prHashInput req.vcsProvider req.tenantId.str prData.repoId prData.prId prData.vcsInstanceId
    prData.action prData.commitSha

theorem requestKey_eq (req : Request) (prData : PullRequestData) :
    requestKey P req prData = P.sha256Hex (keyInput req prData) := rfl

/-- The column types of `vcs_event_whitelist`. -/
def VcsEventWhitelist.fits (w : VcsEventWhitelist) : Bool :=
  varcharOk 50 w.vcsProvider && varcharOk 100 w.eventType && varcharOk 100 w.eventAction

/-- `pull_request.head.sha` or `object_attributes.last_commit.id` of the body. -/
def commitId (req : Request) : Option Json :=
  (P.readJson req.rawPayload).bind fun j =>
    if req.vcsProvider = "github" then
      ((j.field? "pull_request").bind (·.field? "head")).bind (·.field? "sha")
    else ((j.field? "object_attributes").bind (·.field? "last_commit")).bind (·.field? "id")

/-- The request gets as far as `compute_pr_hash_key`, under some content of the whitelist
    table. -/
structure ReachesKey (req : Request) (prData : PullRequestData) : Prop where
  parsed : parsePayload P req.vcsProvider req.rawPayload = .ok prData
  allowed : ∃ whitelist : List VcsEventWhitelist,
    (∀ w ∈ whitelist, w.vcsProvider = req.vcsProvider ∧ w.isActive = true ∧ w.fits = true) ∧
      isEventAllowed (extractEventType req.headers) prData.action whitelist = true

/-! ### What the parser puts into the fields -/

variable {P}

theorem strField_eq_some {j : Json} {k s : String} (h : j.strField k = some s) :
    j.field? k = some (.str s) := by
  unfold Json.strField at h
  split at h
  · obtain rfl := Option.some.inj h
    assumption
  · simp at h

theorem dictField_eq_some {j : Json} {k : String} {items : List (String × Json)}
    (h : j.dictField k = some items) : j.field? k = some (.dict items) := by
  unfold Json.dictField at h
  split at h
  · obtain rfl := Option.some.inj h
    assumption
  · simp at h

/-- The fields of a parsed body that the key is made of. -/
structure KeyFields (P : Platform) (req : Request) (prData : PullRequestData) (instance_ : String) :
    Prop where
  prId : ∃ number : Int, prData.prId = toString number
  repoId : ∃ id : Int, prData.repoId = toString id
  vcsInstanceId : prData.vcsInstanceId = instance_
  commitSha : prData.commitSha = P.str ((commitId P req).getD (.str ""))

theorem parsePayload_fields {req : Request} {prData : PullRequestData}
    (h : parsePayload P req.vcsProvider req.rawPayload = .ok prData) :
    (req.vcsProvider = "github" ∧ KeyFields P req prData "github.com") ∨
      (req.vcsProvider = "gitlab" ∧ KeyFields P req prData "gitlab.com") := by
  unfold parsePayload at h
  by_cases hgithub : req.vcsProvider = "github"
  · rw [if_pos hgithub] at h
    rcases hv : (P.readJson req.rawPayload).bind (GitHubWebhookPayload.validate P) with _ | payload
    · simp [hv] at h
    simp only [hv, Except.ok.injEq] at h
    obtain ⟨j, hj, hvalid⟩ := Option.bind_eq_some_iff.mp hv
    simp only [GitHubWebhookPayload.validate, GitHubPullRequest.validate, Option.bind_eq_bind,
      Option.bind_eq_some_iff, Option.pure_def, Option.some.injEq] at hvalid
    obtain ⟨action, -, pr, ⟨prJson, hpr, n, -, title, -, user, -, url, -, head, hhead, base, -, rfl⟩,
      repo, -, rfl⟩ := hvalid
    have hcommit : commitId P req = dictGet? head "sha" := by
      simp only [commitId, hj, Option.bind_some, if_pos hgithub, hpr, dictField_eq_some hhead]
      rfl
    refine .inl ⟨hgithub, ⟨n, by rw [← h]⟩, ⟨repo.id, by rw [← h]⟩, by rw [← h], ?_⟩
    rw [← h, hcommit]
    rfl
  · rw [if_neg hgithub] at h
    by_cases hgitlab : req.vcsProvider = "gitlab"
    · rw [if_pos hgitlab] at h
      rcases hv : (P.readJson req.rawPayload).bind (GitLabWebhookPayload.validate P) with _ | payload
      · simp [hv] at h
      simp only [hv, Except.ok.injEq] at h
      obtain ⟨j, hj, hvalid⟩ := Option.bind_eq_some_iff.mp hv
      simp only [GitLabWebhookPayload.validate, GitLabObjectAttributes.validate, Option.bind_eq_bind,
        Option.bind_eq_some_iff, Option.pure_def, Option.some.injEq] at hvalid
      obtain ⟨kind, -, attrs, ⟨attrsJson, hattrs, n, -, title, -, url, -, commit, hcommit, action, -,
        author, -, rfl⟩, project, -, user, -, rfl⟩ := hvalid
      have hid : commitId P req = dictGet? commit "id" := by
        simp only [commitId, hj, Option.bind_some, if_neg hgithub, hattrs, dictField_eq_some hcommit]
        rfl
      refine .inr ⟨hgitlab, ⟨n, by rw [← h]⟩, ⟨project.id, by rw [← h]⟩, by rw [← h], ?_⟩
      rw [← h, hid]
      rfl
    · rw [if_neg hgitlab] at h
      simp at h

/-! ### Reading the key string -/

theorem tenantConfigKey_injective {id id' : UUID} (h : tenantConfigKey id = tenantConfigKey id') :
    id = id' := by
  have hlist := congrArg String.toList h
  simp only [tenantConfigKey, String.toList_append, List.append_cancel_left_eq] at hlist
  exact UUID.str_injective (String.toList_injective hlist)

theorem toList_prHashInput (provider tenant repo pr instance_ action sha : String) :
    (prHashInput provider tenant repo pr instance_ action sha).toList =
      provider.toList ++ ':' :: (tenant.toList ++ ':' :: (repo.toList ++ ':' :: (pr.toList ++
        ':' :: (instance_.toList ++ ':' :: (action.toList ++ ':' :: sha.toList))))) := by
  have hcolon : ":".toList = [':'] := by decide
  simp [prHashInput, String.toList_append, hcolon, List.append_assoc]

/-- Both requests are about the same pull request of the same tenant. -/
structure SamePullRequest (req : Request) (prData : PullRequestData) (req' : Request)
    (prData' : PullRequestData) : Prop where
  vcsProvider : req.vcsProvider = req'.vcsProvider
  tenantId : req.tenantId = req'.tenantId
  repoId : prData.repoId = prData'.repoId
  prId : prData.prId = prData'.prId

variable {req req' : Request} {prData prData' : PullRequestData}

/-- What can be read back from the key string. -/
theorem keyInput_eq_iff (h : ReachesKey P req prData) (h' : ReachesKey P req' prData') :
    keyInput req prData = keyInput req' prData' ↔
      SamePullRequest req prData req' prData' ∧
        prData.action.toList ++ ':' :: prData.commitSha.toList =
          prData'.action.toList ++ ':' :: prData'.commitSha.toList := by
  have hprovider : ∀ {req : Request} {prData : PullRequestData}, ReachesKey P req prData →
      ':' ∉ req.vcsProvider.toList ∧ ':' ∉ prData.repoId.toList ∧ ':' ∉ prData.prId.toList ∧
        ':' ∉ prData.vcsInstanceId.toList := by
    intro req prData h
    rcases parsePayload_fields h.parsed with ⟨hp, ⟨n, hn⟩, ⟨id, hid⟩, hinst, -⟩ |
      ⟨hp, ⟨n, hn⟩, ⟨id, hid⟩, hinst, -⟩
    · rw [hp, hn, hid, hinst]
      exact ⟨by decide, colon_not_mem_toString id, colon_not_mem_toString n, by decide⟩
    · rw [hp, hn, hid, hinst]
      exact ⟨by decide, colon_not_mem_toString id, colon_not_mem_toString n, by decide⟩
  have hinstance : req.vcsProvider = req'.vcsProvider →
      prData.vcsInstanceId = prData'.vcsInstanceId := by
    intro heq
    rcases parsePayload_fields h.parsed with ⟨hp, hf⟩ | ⟨hp, hf⟩ <;>
      rcases parsePayload_fields h'.parsed with ⟨hp', hf'⟩ | ⟨hp', hf'⟩
    · rw [hf.vcsInstanceId, hf'.vcsInstanceId]
    · exact absurd (hp.symm.trans (heq.trans hp')) (by decide)
    · exact absurd (hp.symm.trans (heq.trans hp')) (by decide)
    · rw [hf.vcsInstanceId, hf'.vcsInstanceId]
  rw [← String.toList_inj]
  unfold keyInput
  rw [toList_prHashInput, toList_prHashInput]
  obtain ⟨hp, hr, hn, hi⟩ := hprovider h
  obtain ⟨hp', hr', hn', hi'⟩ := hprovider h'
  constructor
  · intro heq
    obtain ⟨h₁, heq⟩ := append_sep_inj hp hp' heq
    obtain ⟨h₂, heq⟩ := append_sep_inj UUID.colon_not_mem_str UUID.colon_not_mem_str heq
    obtain ⟨h₃, heq⟩ := append_sep_inj hr hr' heq
    obtain ⟨h₄, heq⟩ := append_sep_inj hn hn' heq
    obtain ⟨-, heq⟩ := append_sep_inj hi hi' heq
    exact ⟨⟨String.toList_inj.mp h₁, UUID.str_injective (String.toList_inj.mp h₂),
      String.toList_inj.mp h₃, String.toList_inj.mp h₄⟩, heq⟩
  · rintro ⟨hsame, heq⟩
    rw [hsame.vcsProvider, hsame.tenantId, hsame.repoId, hsame.prId, hinstance hsame.vcsProvider,
      heq]

/-! ### Which webhooks it tells apart -/

/-- Both payloads carry the same commit id. -/
def SameCommit (P : Platform) (req req' : Request) : Prop :=
  ∃ id, commitId P req = some id ∧ commitId P req' = some id

/-- If the strings fed to SHA-256 are equal, the webhooks are about the same pull request,
    action and commit. -/
def KeyIdentifies (P : Platform) (req : Request) (prData : PullRequestData) (req' : Request)
    (prData' : PullRequestData) : Prop :=
  keyInput req prData = keyInput req' prData' →
    SamePullRequest req prData req' prData' ∧ prData.action = prData'.action ∧
      SameCommit P req req'

/-- Two different webhooks of one pull request that the key merges.  `commit_sha` is the
    `str` of the commit id, and empty when there is none. -/
inductive Merged (P : Platform) (req : Request) (prData : PullRequestData) (req' : Request)
    (prData' : PullRequestData) : Prop
  | commits : SamePullRequest req prData req' prData' → prData.action = prData'.action →
      prData.commitSha = prData'.commitSha → ¬SameCommit P req req' →
      Merged P req prData req' prData'
  | longer (m : String) : SamePullRequest req prData req' prData' →
      prData.action = prData'.action ++ ":" ++ m →
      prData'.commitSha = m ++ ":" ++ prData.commitSha → Merged P req prData req' prData'
  | shorter (m : String) : SamePullRequest req prData req' prData' →
      prData'.action = prData.action ++ ":" ++ m →
      prData.commitSha = m ++ ":" ++ prData'.commitSha → Merged P req prData req' prData'

theorem toList_append_colon (s s' : String) : (s ++ ":" ++ s').toList = s.toList ++ ':' :: s'.toList := by
  have hcolon : ":".toList = [':'] := by decide
  simp [String.toList_append, hcolon]

theorem append_colon_ne (s m : String) : s ≠ s ++ ":" ++ m := by
  intro h
  have hlist := congrArg (fun s => s.toList.length) h
  simp at hlist

/-- **The key identifies the webhook**, but for the pairs that `Merged` lists. -/
theorem key_identifies_iff (h : ReachesKey P req prData) (h' : ReachesKey P req' prData') :
    KeyIdentifies P req prData req' prData' ↔ ¬Merged P req prData req' prData' := by
  have hiff := keyInput_eq_iff h h'
  constructor
  · intro hid hmerged
    cases hmerged with
    | commits hsame haction hsha hne =>
      exact hne (hid (hiff.mpr ⟨hsame, by rw [haction, hsha]⟩)).2.2
    | longer m hsame haction hsha =>
      have heq : keyInput req prData = keyInput req' prData' :=
        hiff.mpr ⟨hsame, by simp [haction, hsha]⟩
      exact append_colon_ne _ m ((hid heq).2.1.symm.trans haction)
    | shorter m hsame haction hsha =>
      have heq : keyInput req prData = keyInput req' prData' :=
        hiff.mpr ⟨hsame, by simp [haction, hsha]⟩
      exact append_colon_ne _ m ((hid heq).2.1.trans haction)
  · intro hnot heq
    obtain ⟨hsame, hjoin⟩ := hiff.mp heq
    -- the two action fields are equal, or one extends the other
    rcases append_sep_eq_iff.mp hjoin with ⟨haction, hsha⟩ | ⟨m, haction, hsha⟩ | ⟨m, haction, hsha⟩
    · have haction' : prData.action = prData'.action := String.toList_inj.mp haction
      have hsha' : prData.commitSha = prData'.commitSha := String.toList_inj.mp hsha
      refine ⟨hsame, haction', ?_⟩
      by_contra hne
      exact hnot (.commits hsame haction' hsha' hne)
    · refine absurd (.shorter (String.ofList m) hsame ?_ ?_) hnot
      · apply String.toList_inj.mp
        rw [toList_append_colon, haction, String.toList_ofList]
      · apply String.toList_inj.mp
        rw [toList_append_colon, hsha, String.toList_ofList]
    · refine absurd (.longer (String.ofList m) hsame ?_ ?_) hnot
      · apply String.toList_inj.mp
        rw [toList_append_colon, haction, String.toList_ofList]
      · apply String.toList_inj.mp
        rw [toList_append_colon, hsha, String.toList_ofList]

/-- Webhooks with a string for a commit id and no colon in their actions are told apart. -/
theorem key_identifies_strings (h : ReachesKey P req prData) (h' : ReachesKey P req' prData')
    {sha sha' : String} (hsha : commitId P req = some (.str sha))
    (hsha' : commitId P req' = some (.str sha')) (haction : ':' ∉ prData.action.toList)
    (haction' : ':' ∉ prData'.action.toList) : KeyIdentifies P req prData req' prData' := by
  have hcommit : ∀ {req : Request} {prData : PullRequestData} {sha : String},
      ReachesKey P req prData → commitId P req = some (.str sha) → prData.commitSha = sha := by
    intro req prData sha h hsha
    rcases parsePayload_fields h.parsed with ⟨-, hf⟩ | ⟨-, hf⟩ <;>
      rw [hf.commitSha, hsha] <;> rfl
  rw [key_identifies_iff h h']
  intro hmerged
  cases hmerged with
  | commits _ _ heq hne =>
    rw [hcommit h hsha, hcommit h' hsha'] at heq
    exact hne ⟨.str sha, hsha, heq ▸ hsha'⟩
  | longer m _ heq _ => exact haction (by simp [heq])
  | shorter m _ heq _ => exact haction' (by simp [heq])

/-! ### An example -/

namespace Example

/-- The webhook of a merge request with this commit id. -/
def commitPayload (id : Json) : Json :=
  .dict [("object_kind", .str "merge_request"),
    ("object_attributes", .dict [("iid", .int 7), ("title", .str "Fix"),
      ("url", .str "https://gitlab.com/g/r/-/merge_requests/7"),
      ("last_commit", .dict [("id", id)]), ("action", .str "open"), ("author_id", .int 1)]),
    ("project", .dict [("id", .int 3), ("path_with_namespace", .str "g/r"),
      ("web_url", .str "https://gitlab.com/g/r")]),
    ("user", .dict [("username", .str "bob")])]

theorem commitPayload_ne : (commitPayload (.int 1)).text ≠ (commitPayload (.str "1")).text := by
  intro h
  have hlist := congrArg String.toList h
  simp [commitPayload, Json.text, Json.textItems, String.toList_append, List.append_assoc] at hlist
  exact absurd hlist (by decide)

/-- `json.loads` on the two bodies. -/
def commitReader (body : ByteArray) : Option Json :=
  [commitPayload (.int 1), commitPayload (.str "1")].find? fun j => j.text.toUTF8 = body

def commitPlatform : Platform := { platform with loads := commitReader, readJson := commitReader }

theorem commitReader_int : commitReader (commitPayload (.int 1)).text.toUTF8 =
    some (commitPayload (.int 1)) := by
  simp [commitReader]

theorem commitReader_str : commitReader (commitPayload (.str "1")).text.toUTF8 =
    some (commitPayload (.str "1")) := by
  have hne : ¬(commitPayload (.int 1)).text.toByteArray = (commitPayload (.str "1")).text.toByteArray :=
    fun h => commitPayload_ne (String.toByteArray_inj.mp h)
  simp [commitReader, hne]

/-- What the parser makes of both. -/
def commitData : PullRequestData :=
  { prId := "7", repoId := "3", repoName := some "g/r", prTitle := "Fix", prAuthor := "bob",
    prUrl := "https://gitlab.com/g/r/-/merge_requests/7", commitSha := "1", action := "open",
    vcsInstanceId := "gitlab.com" }

theorem reachesKey_commit {id : Json}
    (hread : commitReader (commitPayload id).text.toUTF8 = some (commitPayload id))
    (hstr : commitPlatform.str id = "1") :
    ReachesKey commitPlatform (delivery (commitPayload id)) commitData := by
  constructor
  · change parsePayload commitPlatform "gitlab" (commitPayload id).text.toUTF8 = _
    have hdata : parsePayload commitPlatform "gitlab" (commitPayload id).text.toUTF8 =
        .ok { commitData with commitSha := commitPlatform.str id } := by
      unfold parsePayload
      rw [show commitPlatform.readJson = commitReader from rfl, hread]
      rfl
    rw [hdata, hstr]
    rfl
  · refine ⟨whitelist, ?_, ?_⟩
    · change ∀ w ∈ whitelist, w.vcsProvider = "gitlab" ∧ w.isActive = true ∧ w.fits = true
      decide
    · rfl

theorem commitId_commit {id : Json}
    (hread : commitReader (commitPayload id).text.toUTF8 = some (commitPayload id)) :
    commitId commitPlatform (delivery (commitPayload id)) = some id := by
  have hread' : commitPlatform.readJson (delivery (commitPayload id)).rawPayload =
      some (commitPayload id) := by
    rw [show commitPlatform.readJson = commitReader from rfl,
      show (delivery (commitPayload id)).rawPayload = (commitPayload id).text.toUTF8 from rfl, hread]
  have hprovider : ¬(delivery (commitPayload id)).vcsProvider = "github" := by simp [delivery]
  simp only [commitId, hread', Option.bind_some, if_neg hprovider]
  rfl

end Example

/-- A redelivery of a webhook is recognized. -/
theorem key_identifies_redelivery :
    KeyIdentifies Example.commitPlatform (Example.delivery (Example.commitPayload (.str "1")))
      Example.commitData (Example.delivery (Example.commitPayload (.str "1")))
      Example.commitData := by
  have hreach := Example.reachesKey_commit Example.commitReader_str rfl
  apply (key_identifies_iff hreach hreach).mpr
  intro hmerged
  cases hmerged with
  | commits _ _ _ hne =>
    have hid := Example.commitId_commit Example.commitReader_str
    exact hne ⟨_, hid, hid⟩
  | longer m _ heq _ => exact append_colon_ne _ m heq
  | shorter m _ heq _ => exact append_colon_ne _ m heq

/-- The commit ids 1 and "1" are merged. -/
theorem key_merges_commits :
    ReachesKey Example.commitPlatform (Example.delivery (Example.commitPayload (.int 1)))
        Example.commitData ∧
      ReachesKey Example.commitPlatform (Example.delivery (Example.commitPayload (.str "1")))
        Example.commitData ∧
      ¬KeyIdentifies Example.commitPlatform (Example.delivery (Example.commitPayload (.int 1)))
        Example.commitData (Example.delivery (Example.commitPayload (.str "1")))
        Example.commitData := by
  refine ⟨Example.reachesKey_commit Example.commitReader_int rfl,
    Example.reachesKey_commit Example.commitReader_str rfl, fun hid => ?_⟩
  obtain ⟨-, -, id, hint, hstr⟩ := hid rfl
  rw [Example.commitId_commit Example.commitReader_int] at hint
  rw [Example.commitId_commit Example.commitReader_str, ← hint] at hstr
  simp at hstr

end VcsGateway
