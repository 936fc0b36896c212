import Mathlib

/-!
# Python values and exceptions

The values the service passes around: UUIDs, JSON values as `json.loads` builds
them, header dictionaries, and the exceptions that travel through the pipeline
(`core/exceptions.py` and the library exceptions the code can meet).
-/

namespace VcsGateway

/-! ## UUIDs -/

structure UUID where
  bits : BitVec 128
deriving DecidableEq, Repr

/-- The 32 hexadecimal digits, most significant first. -/
def UUID.hex (u : UUID) : List Char :=
  (List.range 32).map fun i => Nat.digitChar (u.bits.toNat / 16 ^ (31 - i) % 16)

/-- `str(uuid)`: the digits in groups of 8, 4, 4, 4 and 12. -/
def UUID.chars (u : UUID) : List Char :=
  u.hex.take 8 ++ '-' :: ((u.hex.drop 8).take 4 ++ '-' :: ((u.hex.drop 12).take 4 ++
    '-' :: ((u.hex.drop 16).take 4 ++ '-' :: u.hex.drop 20)))

def UUID.str (u : UUID) : String := String.ofList u.chars

/-! ## JSON values -/

/-- A Python value built from JSON.  A float is known by its `repr`; the items of a
    `dict` stand in insertion order. -/
inductive Json where
  | null
  | bool (b : Bool)
  | int (n : Int)
  | float (repr : String)
  | str (s : String)
  | list (xs : List Json)
  | dict (items : List (String × Json))
deriving Repr, BEq

/-- `items.get(k)` on a dictionary. -/
def dictGet? {α : Type} (items : List (String × α)) (k : String) : Option α :=
  (items.find? fun kv => kv.1 = k).map (·.2)

/-- A member of a JSON object; a value of another kind has none. -/
def Json.field? (j : Json) (k : String) : Option Json :=
  match j with
  | .dict items => dictGet? items k
  | _ => none

/-- `bool(j)`. -/
def Json.truthy : Json → Bool
  | .null => false
  | .bool b => b
  | .int n => n ≠ 0
  | .float r => r ≠ "0.0" && r ≠ "-0.0"
  | .str s => s ≠ ""
  | .list xs => !xs.isEmpty
  | .dict items => !items.isEmpty

section Str

-- `str.isprintable` on one character; asked outside ASCII only
variable (isPrintable : Char → Bool)

/-- The last `n` hexadecimal digits of `c`. -/
def hexDigits (n c : Nat) : List Char :=
  (List.range n).map fun i => Nat.digitChar (c / 16 ^ (n - 1 - i) % 16)

def reprChar (quote c : Char) : List Char :=
  if c = quote ∨ c = '\\' then ['\\', c]
  else if c = '\t' then ['\\', 't']
  else if c = '\n' then ['\\', 'n']
  else if c = '\r' then ['\\', 'r']
  else if c.toNat < 0x20 ∨ c.toNat = 0x7f then '\\' :: 'x' :: hexDigits 2 c.toNat
  else if c.toNat < 0x7f ∨ isPrintable c then [c]
  else if c.toNat ≤ 0xff then '\\' :: 'x' :: hexDigits 2 c.toNat
  else if c.toNat ≤ 0xffff then '\\' :: 'u' :: hexDigits 4 c.toNat
  else '\\' :: 'U' :: hexDigits 8 c.toNat

def singleQuote : Char := Char.ofNat 39
def doubleQuote : Char := Char.ofNat 34

/-- `repr(s)`: single quotes, unless only double quotes avoid an escape. -/
def reprStr (s : String) : String :=
  let quote :=
    if s.toList.contains singleQuote && !s.toList.contains doubleQuote then doubleQuote
    else singleQuote
  String.ofList (quote :: (s.toList.flatMap (reprChar isPrintable quote) ++ [quote]))

mutual

def Json.pyRepr : Json → String
  | .null => "None"
  | .bool true => "True"
  | .bool false => "False"
  | .int n => toString n
  | .float r => r
  | .str s => reprStr isPrintable s
  | .list xs => "[" ++ ", ".intercalate (Json.pyReprList xs) ++ "]"
  | .dict items => "\x7b" ++ ", ".intercalate (Json.pyReprItems items) ++ "\x7d"

def Json.pyReprList : List Json → List String
  | [] => []
  | x :: xs => x.pyRepr :: Json.pyReprList xs

def Json.pyReprItems : List (String × Json) → List String
  | [] => []
  | (k, x) :: items => (reprStr isPrintable k ++ ": " ++ x.pyRepr) :: Json.pyReprItems items

end

/-- `str(j)`. -/
def Json.pyStr : Json → String
  | .str s => s
  | j => j.pyRepr isPrintable

end Str

/-! ## JSON texts -/

/-- A character of a string in the output of `json.dumps`, which is ASCII. -/
def jsonChar (c : Char) : List Char :=
  if c = doubleQuote ∨ c = '\\' then ['\\', c]
  else if c = '\n' then ['\\', 'n']
  else if c = '\r' then ['\\', 'r']
  else if c = '\t' then ['\\', 't']
  else if c.toNat = 8 then ['\\', 'b']
  else if c.toNat = 12 then ['\\', 'f']
  else if 0x20 ≤ c.toNat ∧ c.toNat ≤ 0x7e then [c]
  else if c.toNat ≤ 0xffff then '\\' :: 'u' :: hexDigits 4 c.toNat
  else
    '\\' :: 'u' :: (hexDigits 4 (0xd800 + (c.toNat - 0x10000) / 0x400) ++
      '\\' :: 'u' :: hexDigits 4 (0xdc00 + (c.toNat - 0x10000) % 0x400))

def jsonStr (s : String) : String :=
  String.ofList (doubleQuote :: (s.toList.flatMap jsonChar ++ [doubleQuote]))

/-- The text of the float with this `repr`. -/
def floatText (r : String) : String :=
  if r = "nan" then "NaN"
  else if r = "inf" then "Infinity"
  else if r = "-inf" then "-Infinity"
  else r

mutual

/-- `json.dumps(j)`. -/
def Json.text : Json → String
  | .null => "null"
  | .bool true => "true"
  | .bool false => "false"
  | .int n => toString n
  | .float r => floatText r
  | .str s => jsonStr s
  | .list xs => "[" ++ ", ".intercalate (Json.textList xs) ++ "]"
  | .dict items => "\x7b" ++ ", ".intercalate (Json.textItems items) ++ "\x7d"

def Json.textList : List Json → List String
  | [] => []
  | x :: xs => x.text :: Json.textList xs

def Json.textItems : List (String × Json) → List String
  | [] => []
  | (k, x) :: items => (jsonStr k ++ ": " ++ x.text) :: Json.textItems items

end

/-! ## Header dictionaries -/

abbrev Headers := List (String × String)

/-- `headers.get(k, "")`. -/
def Headers.getD (headers : Headers) (k : String) : String := (dictGet? headers k).getD ""

/-! ## Exceptions -/

/-- The subclasses of `ServiceError`. -/
inductive ServiceErrorClass where
  | validationError | notFoundError | duplicateError | staleEventError
  | quotaExceededError | businessRuleError
  | databaseError | queueError | externalServiceError | redisError
deriving DecidableEq, Repr

/-- What a coroutine can raise.  `fault n` stands for any exception of an awaited
    library call (asyncpg, redis, aio_pika) that the code does not tell apart. -/
inductive Exn where
  | service (cls : ServiceErrorClass) (message : String) (details : List (String × String))
  | pydanticValidationError (model : String)
  | jsonDecodeError
  | valueError (message : String)
  | typeError (message : String)
  | attributeError (message : String)
  | keyError (key : String)
  | assertionError
  | uniqueViolationError
  | dataError
  | inFailedSqlTransactionError
  | fault (n : Nat)
  /-- `asyncio.CancelledError`, the one that is no `Exception`. -/
  | cancelledError
deriving DecidableEq, Repr

def Exn.validationError := Exn.service .validationError
def Exn.notFoundError := Exn.service .notFoundError
def Exn.duplicateError := Exn.service .duplicateError

end VcsGateway
