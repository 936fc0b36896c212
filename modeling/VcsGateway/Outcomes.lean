import VcsGateway.TenantCache

/-!
# How a call ends

The result of `process_webhook`, read off the answers that its operations got: what a
signature that does not verify leads to, which events are ignored, and which exceptions
escape.
-/

namespace VcsGateway

open Async

variable {P : Platform}

/-! ### Signatures -/

def isHexDigit (c : Char) : Bool := c.isDigit || ('a' ≤ c && c ≤ 'f')

/-- A SHA-256 digest in hexadecimal. -/
def isHexDigest (s : String) : Bool := s.toList.length = 64 && s.toList.all isHexDigit

/-- `hexdigest` writes 64 hexadecimal digits. -/
structure Platform.Digests (P : Platform) : Prop where
  sha256 : ∀ s, isHexDigest (P.sha256Hex s) = true
  hmac : ∀ secret payload, isHexDigest (P.hmacSha256Hex secret payload) = true

theorem isHexDigit_ascii {c : Char} (h : isHexDigit c = true) : c.toNat < 128 := by
  simp only [isHexDigit, Char.isDigit, Bool.or_eq_true, Bool.and_eq_true, decide_eq_true_eq] at h
  rcases h with ⟨-, h⟩ | ⟨-, h⟩
  · have hle : c.toNat ≤ '9'.toNat := h
    have h9 : '9'.toNat = 57 := by decide
    omega
  · have hle : c.toNat ≤ 'f'.toNat := h
    have hf : 'f'.toNat = 102 := by decide
    omega

theorem isHexDigest_ascii {s : String} (h : isHexDigest s = true) :
    s.toList.all (·.toNat < 128) = true := by
  simp only [isHexDigest, Bool.and_eq_true, List.all_eq_true] at h ⊢
  intro c hc
  simpa using isHexDigit_ascii (h.2 c hc)

/-- What `compare_digest` can compare with a digest. -/
def Comparable (header : String) : Prop :=
  "sha256=".toList <+: header.toList → ∀ c ∈ header.toList, c.toNat < 128

/-- The check answers, and answers whether the header is the signature. -/
def GithubExact (P : Platform) (payload : ByteArray) (secret header : String) : Prop :=
  validateGithubSignature P payload secret header =
    .ok (decide (header = "sha256=" ++ P.hmacSha256Hex secret payload))

def GitlabExact (header secret : String) : Prop :=
  validateGitlabToken header secret = decide (header = secret)

theorem gitlabExact (header secret : String) : GitlabExact header secret := by
  simp [GitlabExact, validateGitlabToken, String.toByteArray_inj]

/-- What the check of a GitHub signature comes to. -/
theorem validateGithubSignature_eq (hP : P.Digests) (payload : ByteArray) (secret header : String) :
    (Comparable header ∧ GithubExact P payload secret header) ∨
      (¬Comparable header ∧ header ≠ "sha256=" ++ P.hmacSha256Hex secret payload ∧
        ∃ e, validateGithubSignature P payload secret header = .error (.typeError e)) := by
  have hprefix : "sha256=".toList.all (·.toNat < 128) = true := by decide
  have hexpected : ("sha256=" ++ P.hmacSha256Hex secret payload).toList.all (·.toNat < 128) = true := by
    rw [String.toList_append, List.all_append, hprefix, isHexDigest_ascii (hP.hmac secret payload)]
    rfl
  unfold GithubExact validateGithubSignature
  by_cases hstart : "sha256=".toList.isPrefixOf header.toList = true
  · simp only [hstart, Bool.not_true, Bool.false_eq_true, if_false]
    by_cases hascii : header.toList.all (·.toNat < 128) = true
    · left
      constructor
      · intro _ c hc
        simpa using List.all_eq_true.mp hascii c hc
      · simp only [compareDigest, hexpected, hascii, Bool.and_self, if_true, Except.ok.injEq,
          decide_eq_decide]
        exact eq_comm
    · right
      refine ⟨fun hcomp => hascii ?_, fun heq => hascii ?_, ?_⟩
      · rw [List.all_eq_true]
        intro c hc
        simpa using hcomp (List.isPrefixOf_iff_prefix.mp hstart) c hc
      · rw [heq]
        exact hexpected
      · simp [compareDigest, hascii]
  · left
    constructor
    · intro hpre
      exact absurd (List.isPrefixOf_iff_prefix.mpr hpre) hstart
    · have hne : header ≠ "sha256=" ++ P.hmacSha256Hex secret payload := by
        rintro rfl
        apply hstart
        rw [List.isPrefixOf_iff_prefix, String.toList_append]
        exact List.prefix_append _ _
      rw [Bool.not_eq_true] at hstart
      simp only [hstart, hne, Bool.not_false, if_true, decide_false]

theorem githubExact_iff (hP : P.Digests) (payload : ByteArray) (secret header : String) :
    GithubExact P payload secret header ↔ Comparable header := by
  rcases validateGithubSignature_eq hP payload secret header with ⟨hcomp, hexact⟩ |
    ⟨hcomp, -, e, herr⟩
  · exact ⟨fun _ => hcomp, fun _ => hexact⟩
  · constructor
    · intro hexact
      rw [GithubExact, herr] at hexact
      simp at hexact
    · intro h
      exact absurd h hcomp

/-- The request carries the credential of the webhook secret. -/
def Verifies (P : Platform) (req : Request) (secret : String) : Prop :=
  (req.vcsProvider = "github" ∧
    req.headers.getD "X-Hub-Signature-256" = "sha256=" ++ P.hmacSha256Hex secret req.rawPayload) ∨
  (req.vcsProvider = "gitlab" ∧ req.headers.getD "X-Gitlab-Token" = secret)

/-- The signature check does not raise. -/
def Checkable (req : Request) : Prop :=
  req.vcsProvider = "github" → Comparable (req.headers.getD "X-Hub-Signature-256")

/-- What the signature check of a request comes to. -/
theorem signatureValid_eq (hP : P.Digests) (req : Request) (secret : String) :
    (Checkable req ∧ ((Verifies P req secret ∧
        signatureValid P req.vcsProvider req.rawPayload req.headers secret = .ok true) ∨
      (¬Verifies P req secret ∧
        signatureValid P req.vcsProvider req.rawPayload req.headers secret = .ok false))) ∨
    (¬Checkable req ∧ ¬Verifies P req secret ∧ ∃ e,
      signatureValid P req.vcsProvider req.rawPayload req.headers secret = .error (.typeError e)) := by
  unfold signatureValid
  by_cases hgithub : req.vcsProvider = "github"
  · have hverifies : Verifies P req secret ↔ req.headers.getD "X-Hub-Signature-256" =
        "sha256=" ++ P.hmacSha256Hex secret req.rawPayload := by simp [Verifies, hgithub]
    rw [if_pos hgithub, hverifies]
    rcases validateGithubSignature_eq hP req.rawPayload secret
        (req.headers.getD "X-Hub-Signature-256") with ⟨hcomp, hexact⟩ | ⟨hcomp, hne, herr⟩
    · refine .inl ⟨fun _ => hcomp, ?_⟩
      rw [hexact]
      by_cases heq : req.headers.getD "X-Hub-Signature-256" =
          "sha256=" ++ P.hmacSha256Hex secret req.rawPayload
      · exact .inl ⟨heq, by simp [heq]⟩
      · exact .inr ⟨heq, by simp [heq]⟩
    · exact .inr ⟨fun h => hcomp (h hgithub), hne, herr⟩
  · have hcheck : Checkable req := fun h => absurd h hgithub
    refine .inl ⟨hcheck, ?_⟩
    rw [if_neg hgithub]
    by_cases hgitlab : req.vcsProvider = "gitlab"
    · have hverifies : Verifies P req secret ↔ req.headers.getD "X-Gitlab-Token" = secret := by
        simp [Verifies, hgitlab]
      rw [if_pos hgitlab, hverifies, gitlabExact]
      by_cases heq : req.headers.getD "X-Gitlab-Token" = secret
      · exact .inl ⟨heq, by simp [heq]⟩
      · exact .inr ⟨heq, by simp [heq]⟩
    · refine .inr ⟨?_, by rw [if_neg hgitlab]⟩
      simp [Verifies, hgithub, hgitlab]

/-! ### The stages of a call -/

theorem exceptException_follows {α : Type} {p : Coroutine α} {h : Exn → Coroutine α}
    {steps : List GatewayStep} {r : Except Exn α} (hf : (exceptException p h).Follows steps r) :
    (p.Follows steps r ∧ (∀ e, r = .error e → e = .cancelledError)) ∨
      ∃ exc first rest, exc ≠ .cancelledError ∧ steps = first ++ rest ∧ p.Follows first (.error exc) ∧
        (h exc).Follows rest r := by
  obtain ⟨first, rest, a, rfl, hp, hrest⟩ := Prog.follows_andThen.mp hf
  rcases a with exc | a
  · cases exc with
    | cancelledError =>
      obtain ⟨rfl, rfl⟩ := Prog.follows_ret.mp hrest
      refine .inl ⟨by simpa using hp, ?_⟩
      intro e he
      exact (Except.error.inj he).symm
    | _ => exact .inr ⟨_, first, rest, by simp, rfl, hp, hrest⟩
  · obtain ⟨rfl, rfl⟩ := Prog.follows_ret.mp hrest
    refine .inl ⟨by simpa using hp, ?_⟩
    intro e he
    simp at he

theorem emit_follows {stepType : JourneyStepType} {status : JourneyStepStatus}
    {correlationId tenantId : UUID} {metadata : List (String × Json)} {steps : List GatewayStep}
    {r : Except Exn Unit}
    (h : (emit P stepType status correlationId tenantId metadata).Follows steps r) :
    r = .ok () ∨ r = .error .cancelledError := by
  have hsup := (emit_suppressed P stepType status correlationId tenantId metadata).follows h
  rcases r with e | ⟨⟩
  · exact .inr (by rw [hsup e rfl])
  · exact .inl rfl

/-- What `process_webhook` does once it knows the secret and the whitelist. -/
def afterLookup (P : Platform) (req : Request) (correlationId : UUID) (secret : String)
    (whitelist : List VcsEventWhitelist) : Coroutine WebhookResult := do
  validateSignature P req.vcsProvider req.rawPayload req.headers secret correlationId req.tenantId
  emit P .webhookReceived .inProgress correlationId req.tenantId
  parseStep P req correlationId (extractEventType req.headers) whitelist

/-- The call has got the secret of the tenant and the whitelist of the provider; `rest`
    are the answers after that. -/
def LookedUp (P : Platform) (req : Request) (steps : List GatewayStep) (correlationId : UUID)
    (secret : String) (whitelist : List VcsEventWhitelist) (rest : List GatewayStep) : Prop :=
  ∃ lookup, (getWebhookSecret P req.tenantId).Follows lookup (.ok secret) ∧
    steps = ⟨.uuid4, .ok correlationId⟩ ::
      (lookup ++ ⟨.selectWhitelist req.vcsProvider, .ok whitelist⟩ :: rest)

/-- How a call begins. -/
theorem processWebhook_follows {req : Request} {steps : List GatewayStep}
    {r : Except Exn WebhookResult} (h : (processWebhook P req).Follows steps r) :
    (∃ e, steps = [⟨.uuid4, .error e⟩] ∧ r = .error e) ∨
    ∃ correlationId later, steps = ⟨.uuid4, .ok correlationId⟩ :: later ∧
      ((req.vcsProvider ∉ supportedProviders ∧ later = [] ∧
          r = .error (unsupportedProvider P req.vcsProvider)) ∨
        (req.vcsProvider ∈ supportedProviders ∧
          ((∃ e, (getWebhookSecret P req.tenantId).Follows later (.error e) ∧ r = .error e) ∨
            ∃ lookup secret, (getWebhookSecret P req.tenantId).Follows lookup (.ok secret) ∧
              ((∃ e, later = lookup ++ [⟨.selectWhitelist req.vcsProvider, .error e⟩] ∧
                  r = .error e) ∨
                ∃ whitelist rest,
                  later = lookup ++ ⟨.selectWhitelist req.vcsProvider, .ok whitelist⟩ :: rest ∧
                  (afterLookup P req correlationId secret whitelist).Follows rest r)))) := by
  rcases Prog.follows_bind.mp h with ⟨first, later, correlationId, rfl, hfirst, hlater⟩ | ⟨e, rfl, he⟩
  swap
  · exact .inl ⟨e, Prog.follows_perform.mp he, rfl⟩
  obtain rfl := Prog.follows_perform.mp hfirst
  refine .inr ⟨correlationId, later, rfl, ?_⟩
  by_cases hprovider : req.vcsProvider ∈ supportedProviders
  · rw [if_neg (not_not_intro hprovider)] at hlater
    refine .inr ⟨hprovider, ?_⟩
    rcases Prog.follows_bind.mp hlater with ⟨lookup, later, secret, rfl, hlookup, hlater⟩ | ⟨e, rfl, he⟩
    swap
    · exact .inl ⟨e, he, rfl⟩
    refine .inr ⟨lookup, secret, hlookup, ?_⟩
    rcases Prog.follows_bind.mp hlater with ⟨read, rest, whitelist, rfl, hread, hrest⟩ | ⟨e, rfl, he⟩
    · obtain rfl := Prog.follows_perform.mp hread
      exact .inr ⟨whitelist, rest, rfl, hrest⟩
    · obtain rfl := Prog.follows_perform.mp he
      exact .inl ⟨e, rfl, rfl⟩
  · rw [if_pos hprovider] at hlater
    obtain ⟨rfl, rfl⟩ := Prog.follows_ret.mp hlater
    exact .inl ⟨hprovider, rfl, rfl⟩

theorem LookedUp.follows {req : Request} {steps : List GatewayStep} {correlationId : UUID}
    {secret : String} {whitelist : List VcsEventWhitelist} {rest : List GatewayStep}
    {r : Except Exn WebhookResult} (h : LookedUp P req steps correlationId secret whitelist rest)
    (hf : (processWebhook P req).Follows steps r) :
    req.vcsProvider ∈ supportedProviders ∧
      (afterLookup P req correlationId secret whitelist).Follows rest r := by
  obtain ⟨lookup, hlookup, rfl⟩ := h
  rcases processWebhook_follows hf with ⟨e, heq, -⟩ | ⟨correlationId', later, heq, hcases⟩
  · simp at heq
  simp only [List.cons.injEq, Step.mk.injEq, heq_eq_eq, Except.ok.injEq, true_and] at heq
  obtain ⟨rfl, rfl⟩ := heq
  rcases hcases with ⟨-, hnil, -⟩ | ⟨hprovider, ⟨e, herr, -⟩ | ⟨lookup', secret', hlookup', hlater⟩⟩
  · simp at hnil
  · obtain ⟨-, hresult, -⟩ := hlookup.unique herr (List.append_nil _).symm
    simp at hresult
  rcases hlater with ⟨e, heq, -⟩ | ⟨whitelist', rest', heq, hrest⟩
  · obtain ⟨-, -, htail⟩ := hlookup.unique hlookup' heq
    simp at htail
  · obtain ⟨-, hsecret, htail⟩ := hlookup.unique hlookup' heq
    obtain rfl := Except.ok.inj hsecret
    simp only [List.cons.injEq, Step.mk.injEq, heq_eq_eq, Except.ok.injEq, true_and] at htail
    obtain ⟨rfl, rfl⟩ := htail
    exact ⟨hprovider, hrest⟩

/-! ### Requests that do not verify -/

/-- The request is rejected, and the rejection is traced: `rest` are the answers after the
    lookup, `r` is the result. -/
structure Rejected (P : Platform) (req : Request) (correlationId : UUID) (rest : List GatewayStep)
    (r : Except Exn WebhookResult) : Prop where
  result : r = .error invalidSignature
  traced : (emit P .signatureVerified .failed correlationId req.tenantId).Follows rest (.ok ())

/-- The three outcomes of the signature check. -/
theorem validateSignature_follows (hP : P.Digests) {req : Request} {secret : String}
    {correlationId : UUID} {steps : List GatewayStep} {r : Except Exn Unit}
    (h : (validateSignature P req.vcsProvider req.rawPayload req.headers secret correlationId
      req.tenantId).Follows steps r) :
    (¬Checkable req ∧ ¬Verifies P req secret ∧ steps = [] ∧ ∃ e, r = .error (.typeError e)) ∨
    (Checkable req ∧ r = .error .cancelledError) ∨
    (Checkable req ∧ ¬Verifies P req secret ∧ r = .error invalidSignature ∧
      (emit P .signatureVerified .failed correlationId req.tenantId).Follows steps (.ok ())) ∨
    (Checkable req ∧ Verifies P req secret ∧ r = .ok () ∧
      (emit P .signatureVerified .completed correlationId req.tenantId).Follows steps (.ok ())) := by
  have hbind : ∀ valid, signatureValid P req.vcsProvider req.rawPayload req.headers secret = .ok valid →
      validateSignature P req.vcsProvider req.rawPayload req.headers secret correlationId
        req.tenantId = (do
          emit P .signatureVerified (if valid then .completed else .failed) correlationId req.tenantId
          if !valid then .throw invalidSignature else pure ()) := by
    intro valid hvalid
    unfold validateSignature
    rw [hvalid]
    rfl
  rcases signatureValid_eq hP req secret with ⟨hcheck, ⟨hver, hvalid⟩ | ⟨hver, hvalid⟩⟩ |
    ⟨hcheck, hver, e, hvalid⟩
  · rw [hbind true hvalid] at h
    rcases Prog.follows_bind.mp h with ⟨s₁, s₂, u, rfl, hemit, hend⟩ | ⟨e, rfl, he⟩
    · obtain ⟨rfl, rfl⟩ := Prog.follows_ret.mp hend
      rw [List.append_nil]
      exact .inr (.inr (.inr ⟨hcheck, hver, rfl, hemit⟩))
    · rcases emit_follows he with hok | hcancel
      · simp at hok
      · exact .inr (.inl ⟨hcheck, hcancel⟩)
  · rw [hbind false hvalid] at h
    rcases Prog.follows_bind.mp h with ⟨s₁, s₂, u, rfl, hemit, hend⟩ | ⟨e, rfl, he⟩
    · obtain ⟨rfl, rfl⟩ := Prog.follows_ret.mp hend
      rw [List.append_nil]
      exact .inr (.inr (.inl ⟨hcheck, hver, rfl, hemit⟩))
    · rcases emit_follows he with hok | hcancel
      · simp at hok
      · exact .inr (.inl ⟨hcheck, hcancel⟩)
  · unfold validateSignature at h
    rw [hvalid] at h
    obtain ⟨rfl, rfl⟩ := Prog.follows_ret.mp h
    exact .inl ⟨hcheck, hver, rfl, e, rfl⟩

section AfterLookup

variable {req : Request} {correlationId : UUID} {secret : String}
  {whitelist : List VcsEventWhitelist} {rest : List GatewayStep} {r : Except Exn WebhookResult}

/-- What the signature check makes of a call. -/
theorem afterLookup_follows (hP : P.Digests)
    (h : (afterLookup P req correlationId secret whitelist).Follows rest r) :
    (¬Checkable req ∧ ¬Verifies P req secret ∧ rest = [] ∧ ∃ e, r = .error (.typeError e)) ∨
    (Checkable req ∧ r = .error .cancelledError) ∨
    (Checkable req ∧ ¬Verifies P req secret ∧ Rejected P req correlationId rest r) ∨
    (Checkable req ∧ Verifies P req secret ∧ ∃ traced later, rest = traced ++ later ∧
      (∀ step ∈ traced, step.op.Journey) ∧
      (parseStep P req correlationId (extractEventType req.headers) whitelist).Follows later r) := by
  rcases Prog.follows_bind.mp h with ⟨first, later, u, rfl, hfirst, hlater⟩ | ⟨exc, rfl, he⟩
  · rcases validateSignature_follows hP hfirst with ⟨-, -, -, e, heq⟩ | ⟨-, heq⟩ | ⟨-, -, heq, -⟩ |
      ⟨hcheck, hver, -, hemit⟩
    · simp at heq
    · simp at heq
    · simp at heq
    rcases Prog.follows_bind.mp hlater with ⟨second, later, u, rfl, hsecond, hlater⟩ | ⟨e, rfl, he⟩
    · refine .inr (.inr (.inr ⟨hcheck, hver, first ++ second, later, by simp, ?_, hlater⟩))
      intro step hstep
      rcases List.mem_append.mp hstep with hstep | hstep
      · exact (emit_only P _ _ _ _ _).follows hemit step hstep
      · exact (emit_only P _ _ _ _ _).follows hsecond step hstep
    · rcases emit_follows he with heq | heq
      · simp at heq
      · exact .inr (.inl ⟨hcheck, by rw [Except.error.inj heq]⟩)
  · rcases validateSignature_follows hP he with ⟨hcheck, hver, hnil, e, heq⟩ | ⟨hcheck, heq⟩ |
      ⟨hcheck, hver, heq, hemit⟩ | ⟨-, -, heq, -⟩
    · exact .inl ⟨hcheck, hver, hnil, e, by rw [Except.error.inj heq]⟩
    · exact .inr (.inl ⟨hcheck, by rw [Except.error.inj heq]⟩)
    · exact .inr (.inr (.inl ⟨hcheck, hver, by rw [Except.error.inj heq], hemit⟩))
    · simp at heq

end AfterLookup

/-- **Signature verification is exact and total** on the headers that can be compared, and
    on no others. -/
theorem signature_exact_iff (hP : P.Digests) {c : GatewayConfig} (h : Reachable P serviceTask c) :
    (∀ payload secret header, GithubExact P payload secret header ↔ Comparable header) ∧
    (∀ header secret, GitlabExact header secret) ∧
    ∀ t req r correlationId secret whitelist rest, Finished c t (.webhook req) r →
      LookedUp P req (stepsOf c t) correlationId secret whitelist rest → ¬Verifies P req secret →
      r ≠ .error .cancelledError → (Rejected P req correlationId rest r ↔ Checkable req) := by
  refine ⟨githubExact_iff hP, gitlabExact, ?_⟩
  intro t req r correlationId secret whitelist rest hfin hlook hver hcancel
  obtain ⟨-, hafter⟩ := hlook.follows (hfin.follows h)
  rcases afterLookup_follows hP hafter with ⟨hcheck, -, -, e, rfl⟩ | ⟨-, heq⟩ |
    ⟨hcheck, -, hrejected⟩ | ⟨-, hver', -⟩
  · constructor
    · intro hrejected
      have hresult := hrejected.result
      simp [invalidSignature, Exn.validationError] at hresult
    · intro hcheck'
      exact absurd hcheck' hcheck
  · exact absurd heq hcancel
  · exact ⟨fun _ => hcheck, fun _ => hrejected⟩
  · exact absurd hver' hver

namespace Example

/-- The same libraries on signed bodies: the digest is the one of the body `\x7b\x7d` under
    `s3cret`. -/
def signedPlatform : Platform :=
  { platform with
    hmacSha256Hex := fun _ _ => "adbde1ce40c89c14215687d5d762a47df6dfaefcfad61e2e86718ffc8498571b" }

theorem signedPlatform_digests : signedPlatform.Digests where
  sha256 s := by
    change isHexDigest (sha256Hex s) = true
    unfold sha256Hex
    split
    · decide
    · decide
  hmac _ _ := by
    change isHexDigest "adbde1ce40c89c14215687d5d762a47df6dfaefcfad61e2e86718ffc8498571b" = true
    decide

/-- A request by GitHub whose signature header is not ASCII. -/
def unreadable : Request :=
  { tenantId := tenant.tenantId, vcsProvider := "github", rawPayload := "\x7b\x7d".toUTF8,
    headers := [("X-Hub-Signature-256", "sha256=é"), ("X-GitHub-Event", "pull_request")] }

def lookupSteps : List GatewayStep :=
  [⟨.redisGet (tenantConfigKey tenant.tenantId), .ok none⟩,
    ⟨.selectTenant tenant.tenantId, .ok (some tenant)⟩,
    ⟨.redisSetex (tenantConfigKey tenant.tenantId) 300 tenant.modelDump.text, .ok ()⟩]

/-- One task runs alone, with these answers. -/
def solo (k : Task) (choices : List Choice) : List GatewayLabel :=
  .spawn 0 k :: choices.map (.step 0)

theorem reachable_solo {P : Platform} {allowed : Task → Prop} {k : Task} {choices : List Choice}
    {c : GatewayConfig} (hk : allowed k) (h : (gateway P).run initial (solo k choices) = some c) :
    Reachable P allowed c := by
  refine ⟨tenants, whitelist, solo k choices, ?_, h⟩
  intro l hl
  rcases List.mem_cons.mp hl with rfl | hl
  · exact hk
  · obtain ⟨ch, -, rfl⟩ := List.mem_map.mp hl
    trivial

/-- The answers to the lookup, on a miss of the cache. -/
def lookupChoices : List Choice := [.fresh ⟨9⟩, .ok, .ok, .ok, .ok]

def nonAsciiError : Exn :=
  .typeError "comparing strings with non-ASCII characters is not supported"

theorem unreadable_run : ∃ c, (gateway signedPlatform).run initial (solo (.webhook unreadable) lookupChoices) = some c ∧
    Finished c 0 (.webhook unreadable) (.error nonAsciiError) ∧
    stepsOf c 0 = ⟨.uuid4, .ok ⟨9⟩⟩ :: (lookupSteps ++ [⟨.selectWhitelist "github", .ok []⟩]) :=
  ⟨_, rfl, rfl, rfl⟩

theorem lookupSteps_follows : (getWebhookSecret signedPlatform tenant.tenantId).Follows lookupSteps
    (.ok "s3cret") :=
  .await _ (.await _ (.await _ (.ret _)))

end Example

theorem signature_exact_unreadable : ∃ c,
    Finished c 0 (.webhook Example.unreadable) (.error Example.nonAsciiError) ∧
      (Rejected Example.signedPlatform Example.unreadable ⟨9⟩ [] (.error Example.nonAsciiError) ↔
        Checkable Example.unreadable) := by
  obtain ⟨c, hrun, hfin, hsteps⟩ := Example.unreadable_run
  have hreach : Reachable Example.signedPlatform serviceTask c :=
    Example.reachable_solo (k := .webhook Example.unreadable) trivial hrun
  refine ⟨c, hfin, (signature_exact_iff Example.signedPlatform_digests hreach).2.2 0 _ _ ⟨9⟩ "s3cret"
    [] [] hfin ⟨Example.lookupSteps, Example.lookupSteps_follows, hsteps⟩ ?_ ?_⟩
  · rintro (⟨-, heq⟩ | ⟨heq, -⟩)
    · exact absurd heq (by decide)
    · exact absurd heq (by decide)
  · simp [Example.nonAsciiError]

/-- A header that no signature check can answer. -/
theorem header_not_compared :
    ¬GithubExact Example.signedPlatform "\x7b\x7d".toUTF8 "s3cret" "sha256=é" := by
  rw [githubExact_iff Example.signedPlatform_digests]
  intro hcomp
  have hprefix : "sha256=".toList <+: "sha256=é".toList := by decide
  exact absurd (hcomp hprefix 'é' (by decide)) (by decide)

/-! ### Events that are not whitelisted -/

/-- The operation writes a row or an idempotency entry. -/
def Op.Stores : Op → Prop
  | .insertInbound _ | .insertEvent _ => True
  | .redisSetex key _ _ => ∃ k, key = idempotencyKey k
  | _ => False

theorem Op.Journey.not_stores {op : Op} (h : op.Journey) : ¬op.Stores := by
  cases h <;> exact id

theorem Op.TenantLookup.not_stores {op : Op} {tenantId : UUID} (h : op.TenantLookup tenantId) :
    ¬op.Stores := by
  cases h with
  | get => exact id
  | select => exact id
  | set v =>
    rintro ⟨k, hk⟩
    exact idempotencyKey_ne_tenantConfigKey k tenantId hk.symm

theorem isEventAllowed_eq_false {eventType action : String} {whitelist : List VcsEventWhitelist}
    (h : ∀ w ∈ whitelist, w.eventType ≠ eventType) : isEventAllowed eventType action whitelist = false := by
  rw [isEventAllowed, List.any_eq_false]
  intro w hw
  simp [h w hw]

theorem parsePayload_error {vcsProvider : String} {rawPayload : ByteArray} {e : Exn}
    (h : parsePayload P vcsProvider rawPayload = .error e) :
    (∃ model, e = .pydanticValidationError model) ∨ ∃ message, e = .valueError message := by
  unfold parsePayload at h
  split at h
  · split at h
    · exact .inl ⟨_, (Except.error.inj h).symm⟩
    · simp at h
  · split at h
    · split at h
      · exact .inl ⟨_, (Except.error.inj h).symm⟩
      · simp at h
    · exact .inr ⟨_, (Except.error.inj h).symm⟩

/-- What becomes of an event type that no whitelist row has. -/
theorem parseStep_follows_ignored {req : Request} {correlationId : UUID} {eventType : String}
    {whitelist : List VcsEventWhitelist} {steps : List GatewayStep} {r : Except Exn WebhookResult}
    (hwhitelist : ∀ w ∈ whitelist, w.eventType ≠ eventType)
    (h : (parseStep P req correlationId eventType whitelist).Follows steps r) :
    (∃ e, parsePayload P req.vcsProvider req.rawPayload = .error e ∧ steps = [] ∧ r = .error e) ∨
      ∃ prData, parsePayload P req.vcsProvider req.rawPayload = .ok prData ∧
        (∀ step ∈ steps, step.op.Journey) ∧
        (r = .ok (.ignored correlationId eventType) ∨ r = .error .cancelledError) := by
  unfold parseStep at h
  rcases hparse : parsePayload P req.vcsProvider req.rawPayload with e | prData
  · rw [hparse] at h
    obtain ⟨rfl, rfl⟩ := Prog.follows_ret.mp h
    exact .inl ⟨e, rfl, rfl, rfl⟩
  · rw [hparse] at h
    change (ite _ _ _ : Coroutine WebhookResult).Follows steps r at h
    simp only [isEventAllowed_eq_false hwhitelist, Bool.not_false, if_true] at h
    refine .inr ⟨prData, rfl, ?_⟩
    rcases Prog.follows_bind.mp h with ⟨first, rest, u, rfl, hemit, hend⟩ | ⟨e, rfl, hemit⟩
    · obtain ⟨rfl, rfl⟩ := Prog.follows_ret.mp hend
      rw [List.append_nil]
      exact ⟨(emit_only P _ _ _ _ _).follows hemit, .inl rfl⟩
    · refine ⟨(emit_only P _ _ _ _ _).follows hemit, .inr ?_⟩
      rcases emit_follows hemit with heq | heq
      · simp at heq
      · rw [Except.error.inj heq]

/-- **Events that are not whitelisted are ignored** when their body is a pull request body,
    and only then. -/
theorem ignored_iff (hP : P.Digests) {c : GatewayConfig} (h : Reachable P serviceTask c) {t : Nat}
    {req : Request} {r : Except Exn WebhookResult} {correlationId : UUID} {secret : String}
    {whitelist : List VcsEventWhitelist} {rest : List GatewayStep} (hfin : Finished c t (.webhook req) r)
    (hlook : LookedUp P req (stepsOf c t) correlationId secret whitelist rest)
    (hver : Verifies P req secret)
    (hwhitelist : ∀ w ∈ whitelist, w.eventType ≠ extractEventType req.headers)
    (hcancel : r ≠ .error .cancelledError) :
    (r = .ok (.ignored correlationId (extractEventType req.headers)) ∧
        ∀ step ∈ stepsOf c t, ¬step.op.Stores) ↔
      ∃ prData, parsePayload P req.vcsProvider req.rawPayload = .ok prData := by
  obtain ⟨-, hafter⟩ := hlook.follows (hfin.follows h)
  rcases afterLookup_follows hP hafter with ⟨-, hver', -⟩ | ⟨-, heq⟩ | ⟨-, hver', -⟩ |
    ⟨-, -, traced, later, hrest, htraced, hlater⟩
  · exact absurd hver hver'
  · exact absurd heq hcancel
  · exact absurd hver hver'
  rcases parseStep_follows_ignored hwhitelist hlater with ⟨e, hparse, -, rfl⟩ |
    ⟨prData, hparse, hjourney, hresult⟩
  · constructor
    · intro hignored
      simp at hignored
    · rintro ⟨prData, hok⟩
      simp [hparse] at hok
  · have hignored := hresult.resolve_right hcancel
    refine ⟨fun _ => ⟨prData, hparse⟩, fun _ => ⟨hignored, ?_⟩⟩
    obtain ⟨lookup, hlookup, hsteps⟩ := hlook
    intro step hstep
    rw [hsteps, hrest] at hstep
    simp only [List.mem_cons, List.mem_append] at hstep
    rcases hstep with rfl | hstep | rfl | hstep | hstep
    · exact id
    · exact ((getWebhookSecret_only P req.tenantId).follows hlookup step hstep).not_stores
    · exact id
    · exact (htraced step hstep).not_stores
    · exact (hjourney step hstep).not_stores

namespace Example

/-- The body of a push event. -/
def push : Json := .dict [("object_kind", .str "push"), ("ref", .str "refs/heads/main")]

/-- The same libraries on the text of one body. -/
def reading (body : Json) : Platform :=
  { signedPlatform with loads := fun _ => some body, readJson := fun _ => some body }

theorem reading_digests (body : Json) : (reading body).Digests where
  sha256 := signedPlatform_digests.sha256
  hmac := signedPlatform_digests.hmac

/-- A delivery under an event type that the whitelist does not have. -/
def event (body : Json) (eventType : String) : Request :=
  { delivery body with headers := [("X-Gitlab-Token", "s3cret"), ("X-Gitlab-Event", eventType)] }

/-- The answers to a journey event that RabbitMQ refuses. -/
def emitChoices (n : Nat) : List Choice := [.fresh ⟨n⟩, .ok, .fault 0]

def pushChoices : List Choice := lookupChoices ++ emitChoices 10 ++ emitChoices 11

def noteChoices : List Choice := pushChoices ++ emitChoices 12

theorem event_verifies (body : Json) (eventType : String) :
    Verifies (reading body) (event body eventType) "s3cret" :=
  .inr ⟨rfl, rfl⟩

theorem lookupSteps_follows_reading (body : Json) :
    (getWebhookSecret (reading body) tenant.tenantId).Follows lookupSteps (.ok "s3cret") :=
  .await _ (.await _ (.await _ (.ret _)))

theorem push_run : ∃ c,
    (gateway (reading push)).run initial (solo (.webhook (event push "Push Hook")) pushChoices) =
      some c ∧
    Finished c 0 (.webhook (event push "Push Hook"))
      (.error (.pydanticValidationError "GitLabWebhookPayload")) ∧
    ∃ rest, stepsOf c 0 =
      ⟨.uuid4, .ok ⟨9⟩⟩ :: (lookupSteps ++ ⟨.selectWhitelist "gitlab", .ok whitelist⟩ :: rest) :=
  ⟨_, rfl, rfl, _, rfl⟩

theorem note_run : ∃ c,
    (gateway (reading first)).run initial (solo (.webhook (event first "Note Hook")) noteChoices) =
      some c ∧
    Finished c 0 (.webhook (event first "Note Hook")) (.ok (.ignored ⟨9⟩ "Note Hook")) ∧
    ∃ rest, stepsOf c 0 =
      ⟨.uuid4, .ok ⟨9⟩⟩ :: (lookupSteps ++ ⟨.selectWhitelist "gitlab", .ok whitelist⟩ :: rest) :=
  ⟨_, rfl, rfl, _, rfl⟩

end Example

theorem ignored_note : ∃ c, Finished c 0 (.webhook (Example.event Example.first "Note Hook"))
      (.ok (.ignored ⟨9⟩ "Note Hook")) ∧
    ∀ step ∈ stepsOf c 0, ¬step.op.Stores := by
  obtain ⟨c, hrun, hfin, rest, hsteps⟩ := Example.note_run
  have hiff := ignored_iff (Example.reading_digests _)
    (Example.reachable_solo (k := .webhook _) trivial hrun) hfin
    ⟨Example.lookupSteps, Example.lookupSteps_follows_reading _, hsteps⟩
    (Example.event_verifies _ _) (by decide) (by simp)
  exact ⟨c, hfin, (hiff.mpr ⟨_, rfl⟩).2⟩

/-- A push event is not ignored. -/
theorem push_not_ignored : ∃ c, Reachable (Example.reading Example.push) serviceTask c ∧
    Finished c 0 (.webhook (Example.event Example.push "Push Hook"))
      (.error (.pydanticValidationError "GitLabWebhookPayload")) ∧
    Verifies (Example.reading Example.push) (Example.event Example.push "Push Hook") "s3cret" ∧
    ∃ rest, LookedUp (Example.reading Example.push) (Example.event Example.push "Push Hook")
        (stepsOf c 0) ⟨9⟩ "s3cret" Example.whitelist rest ∧
      ∀ w ∈ Example.whitelist, w.eventType ≠ "Push Hook" := by
  obtain ⟨c, hrun, hfin, rest, hsteps⟩ := Example.push_run
  exact ⟨c, Example.reachable_solo (k := .webhook _) trivial hrun, hfin, Example.event_verifies _ _,
    rest, ⟨Example.lookupSteps, Example.lookupSteps_follows_reading _, hsteps⟩, by decide⟩

end VcsGateway
