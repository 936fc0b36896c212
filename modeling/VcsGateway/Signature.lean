import VcsGateway.Platform

/-!
# Webhook signatures and the idempotency key

`core/signature.py`: pure functions, no I/O.
-/

namespace VcsGateway

variable (P : Platform)

/-- `hmac.compare_digest` on two strings, which must be ASCII. -/
def compareDigest (a b : String) : Except Exn Bool :=
  if a.toList.all (·.toNat < 128) && b.toList.all (·.toNat < 128) then .ok (a = b)
  else .error (.typeError "comparing strings with non-ASCII characters is not supported")

/-- Validate GitHub HMAC-SHA256 webhook signature. -/
def validateGithubSignature (payloadBytes : ByteArray) (secret signatureHeader : String) :
    Except Exn Bool :=
  if !("sha256=".toList.isPrefixOf signatureHeader.toList) then .ok false
  else compareDigest ("sha256=" ++ P.hmacSha256Hex secret payloadBytes) signatureHeader

/-- Validate GitLab webhook token: the comparison is on the encoded bytes. -/
def validateGitlabToken (tokenHeader secret : String) : Bool :=
  tokenHeader.toUTF8 = secret.toUTF8

/-- The string that is fed to SHA-256. -/
def prHashInput (vcsProvider tenantId repoId prId vcsInstanceId action commitSha : String) :
    String :=
  vcsProvider ++ ":" ++ tenantId ++ ":" ++ repoId ++ ":" ++ prId ++ ":" ++ vcsInstanceId ++ ":" ++
    action ++ ":" ++ commitSha

/-- Compute the idempotency hash for a PR webhook event. -/
def computePrHashKey (vcsProvider tenantId repoId prId vcsInstanceId action commitSha : String) :
    String :=
  P.sha256Hex (prHashInput vcsProvider tenantId repoId prId vcsInstanceId action commitSha)

end VcsGateway
