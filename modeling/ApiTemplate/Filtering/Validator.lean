import ApiTemplate.Filtering.Spec

/-!
# The validator

`FilterValidator` with its constraint checks and details. `from_details` dumps the details, which
fails if a set of duplicates cannot be built again from what its elements are dumped to.
-/

namespace ApiTemplate.Filtering

namespace FilterValidator

/-! ## Detail builders -/

def requiredDetail (spec : FilterSpec) : AppExceptionDetail where
  status := .requiredFilter
  message := "Value is required"
  field := spec.field
  payload := { lookup := some spec.lookup, location := true }

def invalidValueDetail (spec : FilterSpec) : AppExceptionDetail where
  status := .invalidValue
  message := "Value format is invalid"
  field := spec.field
  payload := { location := true }

def boundDetail (spec : FilterSpec) (bound : String) (value : Option Item) :
    AppExceptionDetail where
  status := .invalidValue
  message := "Value format is invalid"
  field := spec.field
  payload := { ranges := [(bound, value)] }

def rangeOrderDetail (spec : FilterSpec) (low high : Item) : AppExceptionDetail where
  status := .invalidValue
  message := "Value format is invalid"
  field := spec.field
  payload := { ranges := [("low", some low), ("high", some high)] }

def lengthDetail (spec : FilterSpec) : AppExceptionDetail where
  status := .invalidValue
  message := "Value format is invalid"
  field := spec.field
  payload := { location := true,
               lengths := [("min_length", spec.minLength), ("max_length", spec.maxLength)] }

/-- `c.value` of a member, and any other choice as it is -/
def choiceValue : Item → Item
  | .member m => .scalar m.value
  | c => c

def choicesDetail (spec : FilterSpec) : AppExceptionDetail where
  status := .invalidValue
  message := "Value format is invalid"
  field := spec.field
  payload := { location := true, values := some ((spec.choices.getD []).map choiceValue) }

def duplicateDetail (spec : FilterSpec) (duplicates : List Item) : AppExceptionDetail where
  status := .duplicated
  message := "Filter value was duplicated"
  field := spec.field
  payload := { location := true, duplicates := some duplicates }

/-- `raise AppException.from_details(details)` -/
def raiseDetails {α : Type} (details : List AppExceptionDetail) : Except PyError α :=
  if details.all fun d => (d.payload.duplicates.getD []).all Item.dumpHashable then
    .error (.appException details)
  else .error .typeError

/-! ## Constraint checks -/

/-- `not value op bound`, for a declared bound -/
def checkBound (spec : FilterSpec) (value : Value) (name : String) (op : CompareOp)
    (bound : Option Item) : Except PyError (List AppExceptionDetail) :=
  match bound with
  | none => .ok []
  | some b => (value.compare op b).map fun holds =>
      if holds then [] else [boundDetail spec name bound]

/-- `_validate_bounds` -/
def validateBounds (spec : FilterSpec) (value : Value) :
    Except PyError (List AppExceptionDetail) := do
  let gt ← checkBound spec value "gt" .gt spec.gt
  let gte ← checkBound spec value "gte" .ge spec.gte
  let lt ← checkBound spec value "lt" .lt spec.lt
  let lte ← checkBound spec value "lte" .le spec.lte
  return gt ++ gte ++ lt ++ lte

/-- `_validate_length` -/
def validateLength (spec : FilterSpec) (value : Value) :
    Except PyError (List AppExceptionDetail) :=
  if spec.minLength = none ∧ spec.maxLength = none then .ok []
  else value.len.map fun length =>
    if spec.minLength.any (fun m => (length : ℤ) < m) ||
        spec.maxLength.any (fun m => (length : ℤ) > m) then [lengthDetail spec] else []

/-- `_validate_choices` -/
def validateChoices (spec : FilterSpec) (value : Value) : List AppExceptionDetail :=
  match spec.choices with
  | none => []
  | some choices => if value.isIn choices then [] else [choicesDetail spec]

/-- `if details: raise ...` -/
def finish (details : List AppExceptionDetail) : Except PyError Unit :=
  if details = [] then .ok () else raiseDetails details

/-- What an absent value leads to. -/
def absent (spec : FilterSpec) : Except PyError Unit :=
  if spec.required then raiseDetails [requiredDetail spec] else .ok ()

/-! ## Lookups -/

/-- `_validate_scalar` -/
def validateScalar (spec : FilterSpec) (value : Value) : Except PyError Unit :=
  if value = .none then absent spec
  else do
    let bounds ← validateBounds spec value
    let length ← validateLength spec value
    finish (bounds ++ length ++ validateChoices spec value)

/-- The elements of a tuple or a list. -/
def elements : Value → Option (List Item)
  | .tuple items => some items
  | .list items => some items
  | .item _ => none

/-- The checks of one endpoint of a range or of one element of a collection. -/
def validateEndpoint (spec : FilterSpec) (endpoint : Item) :
    Except PyError (List AppExceptionDetail) := do
  let bounds ← validateBounds spec (.item endpoint)
  return bounds ++ validateChoices spec (.item endpoint)

/-- The order of two endpoints that are present. -/
def validateOrder (spec : FilterSpec) (low high : Item) :
    Except PyError (List AppExceptionDetail) :=
  if low ≠ .none ∧ high ≠ .none then
    (low.compare .gt high).map fun above => if above then [rangeOrderDetail spec low high] else []
  else .ok []

/-- The checks of an endpoint that may be absent. -/
def validatePresent (spec : FilterSpec) (endpoint : Item) :
    Except PyError (List AppExceptionDetail) :=
  if endpoint ≠ .none then validateEndpoint spec endpoint else .ok []

/-- `_validate_range` -/
def validateRange (spec : FilterSpec) (value : Value) : Except PyError Unit :=
  if value = .none then absent spec
  else
    match elements value with
    | some [low, high] =>
      if low = .none ∧ high = .none then
        .error (.valueError ("Range filter requires at least one boundary. " ++
          "Use 'value,' for lower bound or ',value' for upper bound."))
      else if (low = .none ∨ high = .none) ∧ spec.bothRequired then
        raiseDetails [requiredDetail spec]
      else do
        let order ← validateOrder spec low high
        let lower ← validatePresent spec low
        let upper ← validatePresent spec high
        finish (order ++ lower ++ upper)
    | _ => raiseDetails [invalidValueDetail spec]

/-- The loop of `_validate_collection`: the details, and the set of the elements met again, where
`seen` and `duplicates` are the sets so far. -/
def validateElements (spec : FilterSpec) : List Item → List Item → List Item →
    Except PyError (List AppExceptionDetail × List Item)
  | _, duplicates, [] => .ok ([], duplicates)
  | seen, duplicates, x :: items => do
    let details ← validateEndpoint spec x
    -- `x in seen` hashes `x`
    if !x.hashable then throw .typeError
    let rest ← validateElements spec (x.addTo seen)
      (if x.isIn seen then x.addTo duplicates else duplicates) items
    return (details ++ rest.1, rest.2)

/-- `_validate_collection` -/
def validateCollection (spec : FilterSpec) (value : Value) : Except PyError Unit :=
  if value = .none then absent spec
  else
    match elements value with
    | none => raiseDetails [invalidValueDetail spec]
    | some items =>
      if items.all (· = .none) then absent spec
      else if items.any (· = .none) then raiseDetails [invalidValueDetail spec]
      else if items.any (fun x => !x.isInstance spec.baseType) then
        raiseDetails [invalidValueDetail spec]
      else do
        let (details, duplicates) ← validateElements spec [] [] items
        finish (details ++ if duplicates = [] then [] else [duplicateDetail spec duplicates])

/-- `_validate_json` -/
def validateJson (spec : FilterSpec) (value : Value) : Except PyError Unit :=
  if value = .none ∨ elements value = some [] then absent spec
  else
    match elements value with
    | none => raiseDetails [invalidValueDetail spec]
    | some _ => do finish (← validateLength spec value)

/-- `validate` -/
def validate (spec : FilterSpec) (value : Value) : Except PyError Unit :=
  if spec.field = none then
    .error (.runtimeError "FilterSpec.field must be set before validation")
  else
    match spec.lookup with
    | .eq => validateScalar spec value
    | .range => validateRange spec value
    | .in => validateCollection spec value
    | .json => validateJson spec value
    | lookup => .error (.runtimeError ("Undefined filter lookup type `" ++ lookup.value ++ "`"))

end FilterValidator

end ApiTemplate.Filtering
