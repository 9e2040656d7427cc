import ApiTemplate.Filtering.Value

/-!
# Filter specifications

`FilterSpec` and its factories. `Factory` collects the calls, `Factory.build` runs one, and
`FilterSpec.bind` is what the metaclass of the query models does to a field's specification.
-/

namespace ApiTemplate.Filtering

/-- `_SCALAR_ALLOWED_LOOKUPS` -/
def SCALAR_ALLOWED_LOOKUPS : List FilterLookupEnum := [.eq, .gt, .lt, .gte, .lte]

/-- `_COLLECTION_ALLOWED_LOOKUPS` -/
def COLLECTION_ALLOWED_LOOKUPS : List FilterLookupEnum := [.in]

/-- The bounds on comparable values. -/
structure Bounds where
  gt : Option Item := none
  gte : Option Item := none
  lt : Option Item := none
  lte : Option Item := none
  deriving DecidableEq

namespace Bounds

/-- The declared bounds, in the order in which they are checked. -/
def all (b : Bounds) : List Item :=
  b.gt.toList ++ b.gte.toList ++ b.lt.toList ++ b.lte.toList

end Bounds

structure FilterSpec extends Bounds where
  baseType : PyType
  lookup : FilterLookupEnum := .eq
  field : Option String := none
  required : Bool := false
  bothRequired : Bool := false
  minLength : Option ℤ := none
  maxLength : Option ℤ := none
  choices : Option (List Item) := none
  unique : Bool := true
  deriving DecidableEq

/-- `ChoicesInT`: a tuple of values or an enum class. -/
inductive Choices
  | tuple (items : List Item)
  | enumClass (E : EnumClass)
  deriving DecidableEq

/-- `bool(choices)`; a class is true. -/
def Choices.truthy : Choices → Bool
  | tuple items => !items.isEmpty
  | enumClass _ => true

/-- The characters before the first `__`. -/
def beforeSeparator : List Char → List Char
  | [] => []
  | '_' :: '_' :: _ => []
  | c :: cs => c :: beforeSeparator cs

/-- `name.split("__")[0]` -/
def fieldOfName (name : String) : String := String.ofList (beforeSeparator name.toList)

/-- `tuple_from_enum` -/
def tupleFromEnum (E : EnumClass) : List Item := E.members.map Item.member

/-- `_ensure_scalar_lookup` -/
def ensureScalarLookup (lookup : FilterLookupEnum) : Except PyError Unit :=
  if lookup ∈ SCALAR_ALLOWED_LOOKUPS then .ok ()
  else .error (.valueError ("Lookup " ++ lookup.value ++ " is not a scalar lookup; allowed: " ++
    "(<FilterLookupEnum.EQ: 'eq'>, <FilterLookupEnum.GT: 'gt'>, <FilterLookupEnum.LT: 'lt'>, " ++
    "<FilterLookupEnum.GTE: 'gte'>, <FilterLookupEnum.LTE: 'lte'>)"))

section

variable (parse : String → Option Numeral)

/-- `_to_decimal` -/
def toDecimal (value : Option Item) : Except PyError (Option Item) :=
  match value with
  | none => .ok none
  | some x => (x.toDecimal parse).map some

/-- The elements of a tuple of choices, each through `_to_decimal`; `None` stays `None`. -/
def choiceToDecimal (c : Item) : Except PyError Item :=
  if c = .none then .ok .none else c.toDecimal parse

/-- `_parse_choices` -/
def parseChoices (choices : Option Choices) : Except PyError (Option (List Item)) :=
  match choices with
  | none => .ok none
  | some (.enumClass E) => .ok (some (tupleFromEnum E))
  | some (.tuple items) => (items.mapM (choiceToDecimal parse)).map some

/-- `_to_decimal` on each bound -/
def Bounds.toDecimal (b : Bounds) : Except PyError Bounds := do
  let gt ← Filtering.toDecimal parse b.gt
  let gte ← Filtering.toDecimal parse b.gte
  let lt ← Filtering.toDecimal parse b.lt
  let lte ← Filtering.toDecimal parse b.lte
  return { gt, gte, lt, lte }

namespace FilterSpec

/-! ## Scalar factories -/

def numeric (baseType : PyType) (field : Option String) (lookup : FilterLookupEnum)
    (required : Bool) (bounds : Bounds) (choices : Option Choices) : Except PyError FilterSpec := do
  ensureScalarLookup lookup
  let bounds ← bounds.toDecimal parse
  let choices ← parseChoices parse choices
  return { bounds with baseType, lookup, field, required, choices }

def date (field : Option String) (lookup : FilterLookupEnum) (required : Bool) (bounds : Bounds) :
    Except PyError FilterSpec := do
  ensureScalarLookup lookup
  return { bounds with baseType := .date, lookup, field, required }

def datetime (field : Option String) (lookup : FilterLookupEnum) (required : Bool)
    (bounds : Bounds) : Except PyError FilterSpec := do
  ensureScalarLookup lookup
  return { bounds with baseType := .datetime, lookup, field, required }

def string (field : Option String) (required : Bool) (minLength maxLength : Option ℤ)
    (choices : Option Choices) : Except PyError FilterSpec := do
  let choices ← parseChoices parse choices
  return { baseType := .str, lookup := .eq, field, required, minLength, maxLength, choices }

def enum (E : EnumClass) (field : Option String) (required : Bool) (choices : Option Choices) :
    Except PyError FilterSpec :=
  (if choices.any Choices.truthy then parseChoices parse choices
    else .ok (some (tupleFromEnum E))).map fun choices =>
      { baseType := .enum E, lookup := .eq, field, required, choices }

/-! ## Range factories -/

def numericRange (baseType : PyType) (field : Option String) (required bothRequired : Bool)
    (bounds : Bounds) : Except PyError FilterSpec := do
  let bounds ← bounds.toDecimal parse
  return { bounds with
    baseType, lookup := .range, field, required := required || bothRequired, bothRequired }

def dateRange (field : Option String) (required bothRequired : Bool) (bounds : Bounds) :
    FilterSpec :=
  { bounds with
    baseType := .date, lookup := .range, field, required := required || bothRequired,
    bothRequired }

def datetimeRange (field : Option String) (required bothRequired : Bool) (bounds : Bounds) :
    FilterSpec :=
  { bounds with
    baseType := .datetime, lookup := .range, field, required := required || bothRequired,
    bothRequired }

/-! ## The other factories -/

def boolean (required : Bool) : FilterSpec :=
  { baseType := .bool, required, lookup := .eq,
    choices := some [.scalar (.str "true"), .scalar (.str "false")] }

def json (baseType : PyType) (field : Option String) (required : Bool) (maxLength : Option ℤ) :
    FilterSpec :=
  { baseType, lookup := .json, field, required, maxLength }

/-- The parsed choices are overwritten: `isinstance(base_type, Enum)` is false of a class. -/
def collection (baseType : PyType) (lookup : FilterLookupEnum) (required : Bool)
    (choices : Option Choices) (unique : Bool := true) : Except PyError FilterSpec :=
  if lookup ∉ COLLECTION_ALLOWED_LOOKUPS then
    .error (.runtimeError "Invalid lookup for collection filter")
  else
    (if choices.any Choices.truthy then parseChoices parse choices else .ok none).map fun _ =>
      { baseType, lookup, required, choices := none, unique }

/-- What the metaclass does to the specification of the field `name` of a query model. -/
def bind (spec : FilterSpec) (name : String) : FilterSpec :=
  { spec with field := some (spec.field.getD (fieldOfName name)) }

end FilterSpec

/-! ## Factory calls -/

/-- A call of a factory of `FilterSpec`. -/
inductive Factory
  | numeric (baseType : PyType) (field : Option String) (lookup : FilterLookupEnum)
      (required : Bool) (bounds : Bounds) (choices : Option Choices)
  | date (field : Option String) (lookup : FilterLookupEnum) (required : Bool) (bounds : Bounds)
  | datetime (field : Option String) (lookup : FilterLookupEnum) (required : Bool)
      (bounds : Bounds)
  | string (field : Option String) (required : Bool) (minLength maxLength : Option ℤ)
      (choices : Option Choices)
  | enum (E : EnumClass) (field : Option String) (required : Bool) (choices : Option Choices)
  | numericRange (baseType : PyType) (field : Option String) (required bothRequired : Bool)
      (bounds : Bounds)
  | dateRange (field : Option String) (required bothRequired : Bool) (bounds : Bounds)
  | datetimeRange (field : Option String) (required bothRequired : Bool) (bounds : Bounds)
  | boolean (required : Bool)
  | json (baseType : PyType) (field : Option String) (required : Bool) (maxLength : Option ℤ)
  | collection (baseType : PyType) (lookup : FilterLookupEnum) (required : Bool)
      (choices : Option Choices) (unique : Bool)

def Factory.build : Factory → Except PyError FilterSpec
  | numeric baseType field lookup required bounds choices =>
    FilterSpec.numeric parse baseType field lookup required bounds choices
  | date field lookup required bounds => FilterSpec.date field lookup required bounds
  | datetime field lookup required bounds => FilterSpec.datetime field lookup required bounds
  | string field required minLength maxLength choices =>
    FilterSpec.string parse field required minLength maxLength choices
  | enum E field required choices => FilterSpec.enum parse E field required choices
  | numericRange baseType field required bothRequired bounds =>
    FilterSpec.numericRange parse baseType field required bothRequired bounds
  | dateRange field required bothRequired bounds =>
    .ok (FilterSpec.dateRange field required bothRequired bounds)
  | datetimeRange field required bothRequired bounds =>
    .ok (FilterSpec.datetimeRange field required bothRequired bounds)
  | boolean required => .ok (FilterSpec.boolean required)
  | json baseType field required maxLength =>
    .ok (FilterSpec.json baseType field required maxLength)
  | collection baseType lookup required choices unique =>
    FilterSpec.collection parse baseType lookup required choices unique

end

end ApiTemplate.Filtering
