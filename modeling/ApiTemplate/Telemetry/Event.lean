import Mathlib.Data.Rat.Defs

/-!
# The telemetry record

`TelemetryEvent` and the values its fields carry: what `json.loads`, `parse_qs` and `model_dump`
build out of dicts, lists, tuples and scalars.
-/

namespace ApiTemplate.Telemetry

abbrev Bytes : Type := List UInt8

/-- A scalar. `bytes` stands for `bytes`, `bytearray` and `memoryview`; a float is given by its
value and a UUID by its canonical text. -/
inductive Scalar
  | none
  | bool (b : Bool)
  | int (n : ℤ)
  | float (x : ℚ)
  | uuid (text : String)
  | str (s : String)
  | bytes (b : Bytes)
  deriving DecidableEq

/-- A JSON-like value. The entries of a dict stand in insertion order. -/
inductive Value
  | scalar (s : Scalar)
  | list (items : List Value)
  | tuple (items : List Value)
  | dict (entries : List (Scalar × Value))

namespace Value

abbrev str (s : String) : Value := .scalar (.str s)

abbrev none : Value := .scalar .none

end Value

def SERVICE_API : String := "api"

def KIND_HTTP_REQUEST : String := "http_request"

def KIND_LOG : String := "log"

def KIND_SYSTEM : String := "system"

/-- One line in `logs/<service>.log`. `epoch` defaults to the clock and is always given here. -/
structure TelemetryEvent where
  service : String
  level : String := "INFO"
  kind : String := KIND_HTTP_REQUEST
  epoch : ℚ
  traceId : Option String := none
  execMs : Option ℚ := none
  userId : Option String := none
  ip : Option String := none
  method : Option String := none
  url : Option String := none
  urlParams : Option Value := none
  data : Option Value := none
  statusCode : Option ℤ := none
  userAgent : Option String := none
  logger : Option String := none
  message : Option String := none
  traceback : Option String := none

/-- The execution context, with the texts of its ids. -/
structure Context where
  traceId : String
  userId : Option String

end ApiTemplate.Telemetry
