import VcsGateway.Values

/-!
# What the service rests on

The libraries under the service, as far as their results reach its logic, and the
settings of `config.py`.  The theorems hold for every `Platform`, so no digest, no
JSON text and no column codec is fixed; where one of them relies on a property of a
library it says so in a hypothesis of its own.
-/

namespace VcsGateway

abbrev Time := Nat -- microseconds

def seconds (n : Nat) : Time := n * 1000000

/-- `config.Settings`, the fields the modelled code reads. -/
structure Settings where
  rabbitmqExchangeWebhook : String := "vcs.webhook.received"
  rabbitmqExchangeJourney : String := "journey.events"
  redisIdempotencyTtlSeconds : Nat := 259200
  outboxDebounceSeconds : Nat := 30
  outboxBatchSize : Nat := 50

structure Platform where
  /-- `hashlib.sha256(s.encode("utf-8")).hexdigest()`. -/
  sha256Hex : String → String
  /-- `hmac.new(secret.encode("utf-8"), payload, hashlib.sha256).hexdigest()`. -/
  hmacSha256Hex : String → ByteArray → String
  /-- `json.loads` on bytes; `none` is a `JSONDecodeError`. -/
  loads : ByteArray → Option Json
  /-- `json.loads` on a string. -/
  loadsStr : String → Option Json
  /-- `json.dumps`. -/
  dumps : Json → String
  /-- The JSON reader behind pydantic's `model_validate_json`. -/
  readJson : ByteArray → Option Json
  /-- pydantic's conversion to `int` (lax mode). -/
  toInt : Json → Option Int
  isPrintable : Char → Bool
  /-- `str(exc)`. -/
  excStr : Exn → String
  /-- A `datetime` in a JSON dump. -/
  isoformat : Time → String
  /-- What asyncpg sends for a `jsonb` parameter; `none` when it refuses the value. -/
  jsonbEncode : Json → Option Json
  /-- What asyncpg returns for a `jsonb` column. -/
  jsonbDecode : Json → Json
  settings : Settings := {}

def Platform.str (P : Platform) (j : Json) : String := j.pyStr P.isPrintable

end VcsGateway
