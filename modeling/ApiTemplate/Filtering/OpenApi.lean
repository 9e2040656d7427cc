import ApiTemplate.Filtering.Annotations
import ApiTemplate.Filtering.Validation

/-!
# The documented parameters

`_schema_for_spec`, with the values that a schema of OpenAPI admits, against the values that the
validator accepts. A bound of a schema constrains numbers alone, and the schema of an enum class
does not look at the choices.
-/

namespace ApiTemplate.Filtering

open Fallible FilterValidator

/-! ## Values of JSON -/

inductive Json
  | null
  | bool (b : Bool)
  | number (q : ℚ)
  | string (s : String)
  deriving DecidableEq

/-- How the document shows values: `float(q)`, the number that is written for a `float`, and the
text that is written for a date or a datetime. -/
structure Rendering where
  float : ℚ → ℚ
  repr : ℚ → ℚ
  iso : Scalar → String

variable (R : Rendering)

/-- An infinite number and `nan` are written as `null`. -/
def Scalar.json : Scalar → Json
  | bool b => .bool b
  | int n => .number n
  | float (.finite q) => .number (R.repr q)
  | float _ => .null
  | decimal (.finite q) => .number q
  | decimal _ => .null
  | str s => .string s
  | s => .string (R.iso s)

def Item.json : Item → Json
  | scalar s => s.json R
  | member m => m.value.json R
  | _ => .null

/-! ## Schemas of OpenAPI -/

inductive OpenAPIType
  | integer
  | number
  | boolean
  | string
  deriving DecidableEq

structure OpenAPISchema where
  type : OpenAPIType
  format : Option String := none
  enum : Option (List Json) := none
  exclusiveMinimum : Option Json := none
  minimum : Option Json := none
  exclusiveMaximum : Option Json := none
  maximum : Option Json := none
  minLength : Option ℤ := none
  maxLength : Option ℤ := none
  deriving DecidableEq

/-- The value is of the type; `1.0` is an integer. -/
def OpenAPIType.admits : OpenAPIType → Json → Bool
  | integer, .number q => q.den = 1
  | number, .number _ => true
  | boolean, .bool _ => true
  | string, .string _ => true
  | _, _ => false

/-- A keyword for numbers, which constrains no other value. -/
def Json.bounded (test : ℚ → ℚ → Bool) (keyword : Option Json) (value : Json) : Bool :=
  match keyword, value with
  | some (number b), number q => test q b
  | _, _ => true

/-- A keyword for the length of strings. -/
def Json.measured (test : ℤ → ℤ → Bool) (keyword : Option ℤ) (value : Json) : Bool :=
  match keyword, value with
  | some n, string s => test s.length n
  | _, _ => true

/-- The schema admits the value. A `format` is an annotation. -/
def OpenAPISchema.admits (schema : OpenAPISchema) (value : Json) : Bool :=
  schema.type.admits value &&
    (value.bounded (fun q b => b < q) schema.exclusiveMinimum &&
      value.bounded (fun q b => b ≤ q) schema.minimum &&
      value.bounded (fun q b => q < b) schema.exclusiveMaximum &&
      value.bounded (fun q b => q ≤ b) schema.maximum) &&
    (value.measured (fun length n => n ≤ length) schema.minLength &&
      value.measured (fun length n => length ≤ n) schema.maxLength) &&
    schema.enum.all (value ∈ ·)

/-! ## The schema of a specification -/

/-- `_PY_TO_OPENAPI.get(base, (OpenAPIType.STRING, None))` -/
def pyToOpenapi : PyType → OpenAPIType × Option String
  | .decimal => (.number, none)
  | .int => (.integer, none)
  | .float => (.number, none)
  | .bool => (.boolean, none)
  | .date => (.string, some "date")
  | .datetime => (.string, some "date-time")
  | _ => (.string, none)

/-- `_to_number` -/
def toNumber (value : Item) : Except PyError Item :=
  match value with
  | .scalar (.decimal (.finite q)) =>
    .ok (.scalar (if q.den = 1 then .int q.num else .float (.finite (R.float q))))
  -- `int(value)`
  | .scalar (.decimal (.infinite _)) => .error .overflowError
  | .scalar (.decimal .nan) => .ok (.scalar (.float .nan))
  | value => .ok value

/-- What the document shows for a bound or a choice. -/
def Rendering.shown (c : Item) : Json :=
  match toNumber R c with
  | .ok n => n.json R
  | .error _ => .null

def Rendering.listed (c : Item) : Json :=
  match c with
  | .member m => m.value.json R
  | c => R.shown c

/-- The number lies within the bounds that are shown, and is one of the listed choices. -/
def FilterSpec.Shows (spec : FilterSpec) (q : ℚ) : Prop :=
  (∀ b r, spec.gt = some b → R.shown b = .number r → r < q) ∧
    (∀ b r, spec.gte = some b → R.shown b = .number r → r ≤ q) ∧
    (∀ b r, spec.lt = some b → R.shown b = .number r → q < r) ∧
    (∀ b r, spec.lte = some b → R.shown b = .number r → q ≤ r) ∧
    ∀ cs, spec.choices = some cs → .number q ∈ cs.map R.listed

/-- The declared bounds and choices admit the value. -/
def FilterSpec.Declares (spec : FilterSpec) (x : Item) : Prop :=
  (∀ y ∈ spec.all, x.Comparable y) ∧ Within spec.toBounds x ∧ Chosen spec x

section

variable {R} {spec : FilterSpec} {c x : Item}

/-- The schema with what the document shows. -/
def Rendering.schema (R : Rendering) (spec : FilterSpec) : OpenAPISchema where
  type := (pyToOpenapi spec.baseType).1
  format := (pyToOpenapi spec.baseType).2
  enum := spec.choices.map (·.map R.listed)
  exclusiveMinimum := spec.gt.map R.shown
  minimum := spec.gte.map R.shown
  exclusiveMaximum := spec.lt.map R.shown
  maximum := spec.lte.map R.shown
  minLength := spec.minLength
  maxLength := spec.maxLength

variable {env : Env}

end

/-- The document shows the number unchanged: it is integral, or survives `float()`. -/
def Rendering.Keeps (q : ℚ) : Prop := q.den = 1 ∨ R.repr (R.float q) = q

section

variable {R} {spec : FilterSpec} {c x : Item} {q r : ℚ}

end

/-! ## A narrowed enum class -/

end ApiTemplate.Filtering
