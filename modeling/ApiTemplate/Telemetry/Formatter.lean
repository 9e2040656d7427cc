import ApiTemplate.Stream.JsonText
import ApiTemplate.Telemetry.Masking

/-!
# The JSON formatter

The text of a `TelemetryEvent` and `TelemetryJsonFormatter.format`. How the encoder prints floats and
byte strings is a parameter.
-/

namespace ApiTemplate.Telemetry

open JsonText

/-- The texts that `msgspec` chooses for floats and for the base64 of byte strings. -/
structure Encoder where
  float : ℚ → List Char
  bytes : Bytes → List Char

namespace Encoder

variable (enc : Encoder)

def scalar : Scalar → List Char
  | .none => "null".toList
  | .bool b => (if b then "true" else "false").toList
  | .int n => (toString n).toList
  | .float x => enc.float x
  | .uuid text => quote text.toList
  | .str s => quote s.toList
  | .bytes b => quote (enc.bytes b)

/-- Numbers are quoted when they are keys. -/
def key : Scalar → List Char
  | .int n => quote (toString n).toList
  | .float x => quote (enc.float x)
  | k => enc.scalar k

mutual

def value : Value → List Char
  | .scalar s => enc.scalar s
  | .list items => array (values items)
  | .tuple items => array (values items)
  | .dict entries => object (members entries)

def values : List Value → List (List Char)
  | [] => []
  | item :: items => value item :: values items

def members : List (Scalar × Value) → List (List Char)
  | [] => []
  | (k, v) :: entries => member (enc.key k) (value v) :: members entries

end

def text (s : String) : List Char := quote s.toList

/-- The fields before and after `data`; a field that holds its default is left out. -/
def headFields (event : TelemetryEvent) : List (String × Option (List Char)) :=
  [("service", some (text event.service)),
    ("level", if event.level = "INFO" then none else some (text event.level)),
    ("kind", if event.kind = KIND_HTTP_REQUEST then none else some (text event.kind)),
    ("epoch", some (enc.float event.epoch)),
    ("trace_id", event.traceId.map text),
    ("exec_ms", event.execMs.map enc.float),
    ("user_id", event.userId.map text),
    ("ip", event.ip.map text),
    ("method", event.method.map text),
    ("url", event.url.map text),
    ("url_params", event.urlParams.map enc.value)]

def tailFields (event : TelemetryEvent) : List (String × Option (List Char)) :=
  [("status_code", event.statusCode.map fun code => (toString code).toList),
    ("user_agent", event.userAgent.map text),
    ("logger", event.logger.map text),
    ("message", event.message.map text),
    ("traceback", event.traceback.map text)]

def present (fields : List (String × Option (List Char))) : List (List Char) :=
  fields.filterMap fun (name, value) => value.map (member (text name))

/-- `_ENCODER.encode(event)` -/
def event (event : TelemetryEvent) : List Char :=
  object (present (enc.headFields event ++
    ("data", event.data.map enc.value) :: tailFields event))

theorem members_eq (entries : List (Scalar × Value)) :
    enc.members entries = entries.map fun e => member (enc.key e.1) (enc.value e.2) := by
  induction entries with
  | nil => rfl
  | cons e entries ih => rw [members, ih, List.map_cons]

/-- The text of a record shows the text of its data in a context of the other fields. -/
theorem event_of_data {e : TelemetryEvent} {data : Value} (h : e.data = some data) :
    enc.event e = object (present (enc.headFields e) ++
      member (text "data") (enc.value data) :: present (tailFields e)) := by
  unfold event present
  rw [h, List.filterMap_append]
  rfl

end Encoder

/-! ## Log records -/

/-- The attributes `logging.makeLogRecord({})` sets. -/
def recordAttributes : List String :=
  ["name", "msg", "args", "levelname", "levelno", "pathname", "filename", "module", "exc_info",
    "exc_text", "stack_info", "lineno", "funcName", "created", "msecs", "relativeCreated",
    "thread", "threadName", "processName", "process", "taskName"]

/-- `_RESERVED` -/
def RESERVED : List String := recordAttributes ++ ["message", "asctime", "telemetry_event", "taskName"]

/-- `logging.LogRecord`. `message` is `getMessage()`, `excText` what `formatException` makes of
`exc_info`; `extra` are the attributes beyond those every record has. -/
structure LogRecord where
  name : String
  levelname : String
  created : ℚ
  message : String
  excText : Option String := none
  telemetryEvent : Option TelemetryEvent := none
  extra : List (String × Value)

/-- `Logger.makeRecord`; an extra that would overwrite an attribute raises `KeyError`. -/
def makeRecord (name levelname : String) (created : ℚ) (message : String)
    (extra : List (String × Value)) : Option LogRecord :=
  if extra.any fun e => e.1 ∈ ["message", "asctime"] ++ recordAttributes then none
  else some { name, levelname, created, message, extra }

/-- `_extract_extras` -/
def extractExtras (record : LogRecord) : List (String × Value) :=
  record.extra.filter fun e => e.1 ∉ RESERVED

/-- `TelemetryJsonFormatter.format`, before the event is encoded. `context` is
`current_context()`. -/
def formatEvent (service : String) (context : Option String × Option String)
    (record : LogRecord) : TelemetryEvent :=
  match record.telemetryEvent with
  | some event => event
  | none =>
    let extras := extractExtras record
    { service
      level := record.levelname
      kind := KIND_LOG
      epoch := record.created
      traceId := context.1
      userId := context.2
      logger := some record.name
      message := some (maskText record.message)
      traceback := record.excText.map maskText
      data := if extras.isEmpty then none
        else some (mask 0 (.dict (extras.map fun e => (.str e.1, e.2)))) }

def format (enc : Encoder) (service : String) (context : Option String × Option String)
    (record : LogRecord) : String :=
  String.ofList (enc.event (formatEvent service context record))

end ApiTemplate.Telemetry
