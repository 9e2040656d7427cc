import Mathlib.Data.List.Basic
import Mathlib.Data.Rat.Defs
import Mathlib.Algebra.Order.Field.Rat
import Mathlib.Order.Defs.LinearOrder
import Mathlib.Tactic.Common

/-!
# Python values

The values a filter meets, with the operators that its specification, validator and compiler apply
to them: `==`, the order comparisons, `in`, `len`, `hash`, `isinstance` and `Decimal()`. A member of
an enum class with a data type (`IntEnum`, `StrEnum`) is an instance of that type and behaves as its
value; any other member is equal to itself alone.
-/

namespace ApiTemplate.Filtering

/-! ## Values -/

/-- A `float` or a `Decimal`. -/
inductive Numeral
  | finite (q : ℚ)
  | infinite (negative : Bool)
  | nan
  deriving DecidableEq

/-- A value of a built-in type. A date is given by its ordinal; a datetime by its wall clock in
microseconds, with its offset from UTC if it is aware. -/
inductive Scalar
  | bool (b : Bool)
  | int (n : ℤ)
  | float (x : Numeral)
  | decimal (x : Numeral)
  | str (s : String)
  | date (ordinal : ℤ)
  | datetime (wall : ℤ) (offset : Option ℤ)
  deriving DecidableEq

/-- A member of an enum class; `mixed` says that the class has the data type of its values. -/
structure Member where
  cls : String
  mixed : Bool
  name : String
  value : Scalar
  deriving DecidableEq

/-- An enum class, with the names and the values of its members. -/
structure EnumClass where
  name : String
  mixed : Bool
  entries : List (String × Scalar)
  deriving DecidableEq

/-- `__members__.values()` -/
def EnumClass.members (E : EnumClass) : List Member :=
  E.entries.map fun entry => { cls := E.name, mixed := E.mixed, name := entry.1, value := entry.2 }

/-- An instance of some other class, with what its `==` compares. `dumpHashable` says that what
`model_dump` makes of it can be hashed. -/
structure Opaque where
  cls : String
  id : ℕ
  hashable : Bool := true
  dumpHashable : Bool := true
  deriving DecidableEq

inductive Item
  | none
  | scalar (s : Scalar)
  | member (m : Member)
  | object (o : Opaque)
  deriving DecidableEq

/-- An item, or a tuple or a list of items. -/
inductive Value
  | item (x : Item)
  | tuple (items : List Item)
  | list (items : List Item)
  deriving DecidableEq

/-- `None` -/
abbrev Value.none : Value := .item .none

abbrev Value.str (s : String) : Value := .item (.scalar (.str s))

/-- The class of a value. -/
inductive PyType
  | bool
  | int
  | float
  | decimal
  | str
  | date
  | datetime
  | enum (E : EnumClass)
  | cls (name : String)
  deriving DecidableEq

/-! ## Errors -/

inductive FilterLookupEnum
  | eq
  | gt
  | lt
  | gte
  | lte
  | in
  | range
  | search
  | json
  deriving DecidableEq

def FilterLookupEnum.value : FilterLookupEnum → String
  | eq => "eq"
  | gt => "gt"
  | lt => "lt"
  | gte => "gte"
  | lte => "lte"
  | .in => "in"
  | range => "rn"
  | search => "search"
  | json => "json"

/-- The members of `AppExceptionStatusCodes` that filters use. -/
inductive AppExceptionStatusCodes
  | requiredFilter
  | invalidValue
  | duplicated
  deriving DecidableEq

/-- The entries of the payload of a detail; the location is always `query_params`. -/
structure DetailPayload where
  lookup : Option FilterLookupEnum := none
  location : Bool := false
  ranges : List (String × Option Item) := []
  lengths : List (String × Option ℤ) := []
  values : Option (List Item) := none
  duplicates : Option (List Item) := none
  deriving DecidableEq

structure AppExceptionDetail where
  status : AppExceptionStatusCodes
  message : String
  field : Option String
  payload : DetailPayload
  deriving DecidableEq

/-- What can leave a call. `validationError` is the rejection by a schema of pydantic. -/
inductive PyError
  | validationError
  | appException (details : List AppExceptionDetail)
  | valueError (message : String)
  | runtimeError (message : String)
  | typeError
  | invalidOperation
  | overflowError
  | recursionError
  | attributeError
  deriving DecidableEq

/-- The error refuses a request: an `AppException` or a `ValueError`, which `ValidationError` is. -/
def PyError.rejects : PyError → Bool
  | validationError => true
  | appException _ => true
  | valueError _ => true
  | _ => false

namespace PyError

@[simp] theorem rejects_validationError : validationError.rejects = true := rfl

@[simp] theorem rejects_appException (details : List AppExceptionDetail) :
    (appException details).rejects = true := rfl

@[simp] theorem rejects_valueError (message : String) : (valueError message).rejects = true := rfl

@[simp] theorem rejects_runtimeError (message : String) :
    (runtimeError message).rejects = false := rfl

@[simp] theorem rejects_typeError : typeError.rejects = false := rfl

@[simp] theorem rejects_invalidOperation : invalidOperation.rejects = false := rfl

@[simp] theorem rejects_attributeError : attributeError.rejects = false := rfl

end PyError

/-! ## Operators -/

namespace Scalar

/-- The value of a number. -/
def number : Scalar → Option Numeral
  | bool b => some (.finite (if b then 1 else 0))
  | int n => some (.finite n)
  | float x => some x
  | decimal x => some x
  | _ => none

def isDecimal : Scalar → Bool
  | decimal _ => true
  | _ => false

end Scalar

/-- The order of two numbers, unless one is no number. -/
def Numeral.cmp : Numeral → Numeral → Option Ordering
  | nan, _ => none
  | _, nan => none
  | finite p, finite q => some (compare p q)
  | finite _, infinite negative => some (if negative then .gt else .lt)
  | infinite negative, finite _ => some (if negative then .lt else .gt)
  | infinite a, infinite b => some (compare (!a) (!b))

/-- The comparison of two numbers, where `decimal` says that one of them is a `Decimal`: a `nan` is
unordered among floats, and signals against a `Decimal`. -/
def Numeral.order (decimal : Bool) (x y : Numeral) : Except PyError (Option Ordering) :=
  match x.cmp y with
  | some o => .ok (some o)
  | none => if decimal then .error .invalidOperation else .ok none

namespace Scalar

/-- The order that `<`, `<=`, `>` and `>=` go by. -/
def cmp (a b : Scalar) : Except PyError (Option Ordering) :=
  match a, b with
  | str s, str t => .ok (some (compare s t))
  | date m, date n => .ok (some (compare m n))
  | datetime m none, datetime n none => .ok (some (compare m n))
  | datetime m (some o), datetime n (some p) => .ok (some (compare (m - o) (n - p)))
  | a, b =>
    match a.number, b.number with
    | some x, some y => Numeral.order (a.isDecimal || b.isDecimal) x y
    | _, _ => .error .typeError

/-- `==` -/
def eq (a b : Scalar) : Bool :=
  match a, b with
  | str s, str t => s = t
  | date m, date n => m = n
  | datetime m none, datetime n none => m = n
  | datetime m (some o), datetime n (some p) => m - o = n - p
  | a, b =>
    match a.number, b.number with
    | some x, some y => x.cmp y = some .eq
    | _, _ => false

end Scalar

inductive CompareOp
  | gt
  | ge
  | lt
  | le
  deriving DecidableEq

def CompareOp.test : CompareOp → Ordering → Bool
  | gt, o => o = .gt
  | ge, o => o ≠ .lt
  | lt, o => o = .lt
  | le, o => o ≠ .gt

namespace Item

/-- The built-in value an item is an instance of. -/
def data : Item → Option Scalar
  | scalar s => some s
  | member m => if m.mixed then some m.value else Option.none
  | _ => Option.none

/-- `a op b` for an order comparison -/
def compare (op : CompareOp) (a b : Item) : Except PyError Bool :=
  match a.data, b.data with
  | some x, some y => (x.cmp y).map fun o => o.elim false op.test
  | _, _ => .error .typeError

/-- `a is b`, for items that are one object wherever they come from. -/
def same : Item → Item → Bool
  | scalar _, _ => false
  | a, b => a = b

/-- `a == b` -/
def eq (a b : Item) : Bool :=
  match a.data, b.data with
  | some x, some y => x.eq y
  | _, _ => a.same b

/-- `x in items` -/
def isIn (x : Item) (items : List Item) : Bool := items.any fun c => x.same c || x.eq c

/-- `items.add(x)`, for a set that is listed in the order of its calls -/
def addTo (x : Item) (items : List Item) : List Item := if x.isIn items then items else items ++ [x]

def hashable : Item → Bool
  | object o => o.hashable
  | _ => true

def dumpHashable : Item → Bool
  | object o => o.dumpHashable
  | _ => true

/-- `isinstance(x, T)` -/
def isInstance (x : Item) (T : PyType) : Bool :=
  match T with
  | .enum E => match x with
    | member m => m ∈ E.members
    | _ => false
  | .cls name => match x with
    | object o => o.cls = name
    | _ => false
  | T => match x.data with
    | some (.bool _) => T = .bool || T = .int
    | some (.int _) => T = .int
    | some (.float _) => T = .float
    | some (.decimal _) => T = .decimal
    | some (.str _) => T = .str
    | some (.date _) => T = .date
    | some (.datetime _ _) => T = .date || T = .datetime
    | Option.none => false

/-- `Decimal(x)`, where `parse` reads a string. -/
def toDecimal (parse : String → Option Numeral) (x : Item) : Except PyError Item :=
  match x.data with
  | some (.str s) =>
    match parse s with
    | some d => .ok (.scalar (.decimal d))
    | Option.none => .error .invalidOperation
  | some s =>
    match s.number with
    | some d => .ok (.scalar (.decimal d))
    | Option.none => .error .typeError
  | Option.none => .error .typeError

end Item

namespace Value

/-- The text of a string. -/
def text : Value → Option String
  | item x =>
    match x.data with
    | some (.str s) => some s
    | _ => Option.none
  | _ => Option.none

/-- `len(v)` -/
def len : Value → Except PyError ℕ
  | tuple items => .ok items.length
  | list items => .ok items.length
  | item x =>
    match x.data with
    | some (.str s) => .ok s.length
    | _ => .error .typeError

def compare (op : CompareOp) (v : Value) (bound : Item) : Except PyError Bool :=
  match v with
  | item x => x.compare op bound
  | _ => .error .typeError

def isIn (v : Value) (items : List Item) : Bool :=
  match v with
  | item x => x.isIn items
  | _ => false

end Value

end ApiTemplate.Filtering
