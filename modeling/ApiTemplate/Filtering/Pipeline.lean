import ApiTemplate.Filtering.Validator
import ApiTemplate.Identity.Base

/-!
# The pipeline of a field

`FilterPipelineInjector`: the value schema of a specification, followed by its validation. The
schema of a base type, `json.loads` and the local time zone are parameters.
-/

namespace ApiTemplate.Filtering

/-- `RANGE_SEPARATOR` -/
def RANGE_SEPARATOR : Char := ','

/-- What the pipeline is built on: the schema of pydantic for a class, which returns a value or
rejects; `json.loads`; and `astimezone(pytz.utc)` of a naive datetime. -/
structure Env where
  schema : PyType → Value → Option Item
  loads : String → Except PyError Value
  localToUtc : ℤ → Except PyError ℤ

/-- The schema of a class returns instances of it. -/
def Env.Typed (env : Env) : Prop :=
  ∀ T raw x, env.schema T raw = some x → x.isInstance T = true

/-! ## Before the schema -/

/-- `part.strip() or None` -/
def rangePart (part : List Char) : Item :=
  let text := Identity.strip (String.ofList part)
  if text = "" then .none else .scalar (.str text)

/-- `_split_range` -/
def splitRange (value : Value) : Value :=
  match value.text with
  | none => value
  | some s =>
    match s.toList.splitOn RANGE_SEPARATOR with
    | [low, high] => .tuple [rangePart low, rangePart high]
    | _ => value

/-- `_split_collection` -/
def splitCollection (value : Value) : Value :=
  match value.text with
  | none => value
  | some s => .list ((s.toList.splitOn RANGE_SEPARATOR).map fun part =>
      .scalar (.str (String.ofList part)))

/-- `_parse_json`; a text that is no JSON is passed on. -/
def parseJson (env : Env) (value : Value) : Except PyError Value :=
  match value.text with
  | none => .ok value
  | some s =>
    match env.loads s with
    | .ok v => .ok v
    | .error (.valueError _) => .ok value
    | .error e => .error e

/-! ## Schemas -/

/-- An exception inside of a schema: pydantic turns a `ValueError` into a rejection, and lets every
other one pass. -/
def inSchema {α : Type} (x : Except PyError α) : Except PyError α :=
  x.mapError fun
    | .valueError _ => .validationError
    | e => e

/-- `set_timezone` -/
def setTimezone (env : Env) (x : Item) : Except PyError Item :=
  match x with
  | .scalar (.datetime wall none) =>
    (env.localToUtc wall).map fun utc => .scalar (.datetime utc (some 0))
  | x => .ok x

/-- The schema of `_get_base_type()`. -/
def elementSchema (env : Env) (spec : FilterSpec) (raw : Item) : Except PyError Item :=
  match env.schema spec.baseType (.item raw) with
  | none => .error .validationError
  | some x => if spec.baseType = .datetime then inSchema (setTimezone env x) else .ok x

/-- `nullable_schema` on an element -/
def nullable (schema : Item → Except PyError Item) (raw : Item) : Except PyError Item :=
  if raw = .none then .ok .none else schema raw

/-- The elements of a tuple schema. A rejection is collected, and the next element is looked at. -/
def schemaItems (schema : Item → Except PyError Item) : List Item → Except PyError (List Item)
  | [] => .ok []
  | raw :: raws =>
    match schema raw with
    | .ok x => (schemaItems schema raws).map (x :: ·)
    | .error e => if e.rejects then schemaItems schema raws >>= fun _ => .error e else .error e

/-- `tuple_positional_schema` with two elements -/
def tuplePair (schema : Item → Except PyError Item) (raw : Value) : Except PyError Value :=
  match FilterValidator.elements raw with
  | none => .error .validationError
  | some items => do
    let pair ← schemaItems schema (items.take 2)
    if items.length = 2 then .ok (.tuple pair) else .error .validationError

/-- `tuple_variable_schema` -/
def tupleVariable (schema : Item → Except PyError Item) (raw : Value) : Except PyError Value :=
  match FilterValidator.elements raw with
  | none => .error .validationError
  | some items => (schemaItems schema items).map .tuple

/-- The value schema that the lookup selects. -/
def valueSchema (env : Env) (spec : FilterSpec) (raw : Value) : Except PyError Value :=
  match spec.lookup with
  | .range => tuplePair (nullable (elementSchema env spec)) (splitRange raw)
  | .in => tupleVariable (nullable (elementSchema env spec)) (splitCollection raw)
  | .json => parseJson env raw >>= tupleVariable (elementSchema env spec)
  | _ =>
    match env.schema spec.baseType raw with
    | none => .error .validationError
    | some x => .ok (.item x)

/-- The core schema of the field: the value schema, then the validation; `None` passes unless the
field is required. -/
def pipeline (env : Env) (spec : FilterSpec) (raw : Value) : Except PyError Value :=
  if spec.required = false ∧ raw = .none then .ok .none
  else do
    let value ← valueSchema env spec raw
    inSchema (FilterValidator.validate spec value)
    return value

end ApiTemplate.Filtering
