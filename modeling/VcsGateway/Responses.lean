import VcsGateway.Values

/-!
# Exceptions as HTTP responses

`api/exception_handlers.py` and the handlers that `create_app` registers.
-/

namespace VcsGateway

/-- `error_code`. -/
def ServiceErrorClass.errorCode : ServiceErrorClass → String
  | .validationError => "VALIDATION_ERROR"
  | .notFoundError => "NOT_FOUND"
  | .duplicateError => "DUPLICATE"
  | .staleEventError => "STALE_EVENT"
  | .quotaExceededError => "QUOTA_EXCEEDED"
  | .businessRuleError => "BUSINESS_RULE_VIOLATION"
  | .databaseError => "DATABASE_ERROR"
  | .queueError => "QUEUE_ERROR"
  | .externalServiceError => "EXTERNAL_SERVICE_ERROR"
  | .redisError => "REDIS_ERROR"

/-- A `JSONResponse`. -/
structure Response where
  status : Nat
  headers : List (String × String) := []
  content : List (String × Json)

/-- `items[k] = v` on a dictionary. -/
def dictSet {α : Type} (items : List (String × α)) (k : String) (v : α) : List (String × α) :=
  if items.any (·.1 = k) then items.map fun kv => if kv.1 = k then (k, v) else kv
  else items ++ [(k, v)]

/-- A dictionary display that ends with `**more`. -/
def dictUpdate {α : Type} (items more : List (String × α)) : List (String × α) :=
  more.foldl (fun acc kv => dictSet acc kv.1 kv.2) items

def notFoundHandler (message : String) (details : List (String × String)) : Response where
  status := 404
  content := dictUpdate
    [("code", .str ServiceErrorClass.notFoundError.errorCode), ("message", .str message)]
    (details.map fun kv => (kv.1, .str kv.2))

/-- The service layer encodes intent via `details["code"]`. -/
def validationHandler (message : String) (details : List (String × String)) : Response :=
  let code := (dictGet? details "code").getD ""
  { status :=
      if code = "INVALID_SIGNATURE" then 401
      else if code = "TENANT_INACTIVE" ∨ code = "UNSUPPORTED_PROVIDER" then 403
      else 400
    content :=
      [("code", .str (if code = "" then ServiceErrorClass.validationError.errorCode else code)),
        ("message", .str message)] }

def businessRuleHandler (message : String) (details : List (String × String)) : Response where
  status := 403
  content :=
    [("code", .str ((dictGet? details "code").getD ServiceErrorClass.businessRuleError.errorCode)),
      ("message", .str message)]

def databaseHandler : Response where
  status := 500
  headers := [("Retry-After", "60")]
  content := [("code", .str ServiceErrorClass.databaseError.errorCode),
    ("message", .str "Database unavailable"), ("retry_after", .int 60)]

def queueHandler : Response where
  status := 500
  headers := [("Retry-After", "60")]
  content := [("code", .str ServiceErrorClass.queueError.errorCode),
    ("message", .str "Queue unavailable"), ("retry_after", .int 60)]

/-- What the registered handlers make of an exception; `none` when there is no handler for
    its class. -/
def Exn.response : Exn → Option Response
  | .service .notFoundError message details => some (notFoundHandler message details)
  | .service .validationError message details => some (validationHandler message details)
  | .service .businessRuleError message details => some (businessRuleHandler message details)
  | .service .databaseError _ _ => some databaseHandler
  | .service .queueError _ _ => some queueHandler
  | _ => none

/-- Only service errors have a handler. -/
theorem Exn.response_eq_some {e : Exn} {response : Response} (h : e.response = some response) :
    ∃ cls message details, e = .service cls message details := by
  cases e with
  | service cls message details => exact ⟨cls, message, details, rfl⟩
  | _ => simp [Exn.response] at h

end VcsGateway
