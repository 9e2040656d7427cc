import ApiTemplate.Filtering.Pipeline

/-!
# The compiler

`PydanticFilterParser`, `SqlAlchemyFiltersCompiler` and `compile_range`, into predicates over the
columns of a row, with the meaning of SQL: a comparison with `NULL` is unknown, and a row is
selected where the predicate is true.
-/

namespace ApiTemplate.Filtering

/-! ## Predicates -/

/-- The expressions the compiler builds. A `handler` stands for what a `compile_*` method of a
subclass returns. -/
inductive Predicate
  | eq (column : String) (value : Value)
  | gt (column : String) (value : Value)
  | lt (column : String) (value : Value)
  | ge (column : String) (value : Value)
  | le (column : String) (value : Value)
  | between (column : String) (low high : Item)
  | in_ (column : String) (values : List Item)
  | ilike (column : String) (value : Value)
  | handler (name : String) (value : Value)
  deriving DecidableEq

/-- A row, by its columns; `Item.none` is `NULL`. -/
abbrev Row : Type := String → Item

/-- What a database knows of its values: the order of two values that are not null, where it has
one, which texts match a prefix, and what a handler means. -/
structure Sql where
  cmp : Item → Item → Option Ordering
  ilike : Item → Value → Bool
  handler : String → Value → Row → Option Bool

namespace Sql

/-- A comparison with a value; `none` is unknown. -/
def test (sql : Sql) (p : Ordering → Bool) (a b : Item) : Option Bool :=
  if a = .none ∨ b = .none then none else (sql.cmp a b).map p

def and3 : Option Bool → Option Bool → Option Bool
  | some false, _ => some false
  | _, some false => some false
  | some true, some true => some true
  | _, _ => none

def or3 : Option Bool → Option Bool → Option Bool
  | some true, _ => some true
  | _, some true => some true
  | some false, some false => some false
  | _, _ => none

/-- The item of a parameter. -/
def param : Value → Item
  | .item x => x
  | _ => .none

/-- The truth value of a predicate on a row. -/
def eval (sql : Sql) (row : Row) : Predicate → Option Bool
  | .eq column value => sql.test (· = .eq) (row column) (param value)
  | .gt column value => sql.test (· = .gt) (row column) (param value)
  | .lt column value => sql.test (· = .lt) (row column) (param value)
  | .ge column value => sql.test (· ≠ .lt) (row column) (param value)
  | .le column value => sql.test (· ≠ .gt) (row column) (param value)
  | .between column low high =>
    and3 (sql.test (· ≠ .lt) (row column) low) (sql.test (· ≠ .gt) (row column) high)
  | .in_ column values =>
    values.foldr (fun v rest => or3 (sql.test (· = .eq) (row column) v) rest) (some false)
  | .ilike column value => if row column = .none then none else some (sql.ilike (row column) value)
  | .handler name value => sql.handler name value row

/-- The rows a `WHERE` with the predicate keeps. -/
def selects (sql : Sql) (p : Predicate) (row : Row) : Prop := sql.eval row p = some true

end Sql

/-! ## Containers -/

structure FilterContainer where
  value : Value
  lookup : FilterLookupEnum
  field : String
  deriving DecidableEq

/-- `spec.field or name.split("__")[0]` -/
def containerField (spec : FilterSpec) (name : String) : String :=
  match spec.field with
  | none => fieldOfName name
  | some field => if field = "" then fieldOfName name else field

/-- `PydanticFilterParser.parse` on one field of a query model. -/
def parseField (spec : FilterSpec) (name : String) (value : Value) : Option FilterContainer :=
  if value = .none then none
  else some { value, lookup := spec.lookup, field := containerField spec name }

/-! ## Compilation -/

/-- `compile_range` -/
def compileRange (column : String) (value : Value) (field : String) : Except PyError Predicate :=
  match FilterValidator.elements value with
  | some [low, high] =>
    if low ≠ .none ∧ high ≠ .none then .ok (.between column low high)
    else if low ≠ .none then .ok (.ge column (.item low))
    else if high ≠ .none then .ok (.le column (.item high))
    else .error (.runtimeError ("Range filter `" ++ field ++ "` has no boundary; " ++
      "FilterValidator should have rejected it."))
  -- `low, high = value`
  | some _ => .error (.valueError "not enough values to unpack")
  | none => .error .typeError

theorem compileRange_eq_ok {lo hi : Item} (column field : String)
    (h : lo ≠ .none ∨ hi ≠ .none) :
    ∃ p, compileRange column (.tuple [lo, hi]) field = .ok p := by
  unfold compileRange
  by_cases hlo : lo = .none <;> by_cases hhi : hi = .none <;> simp_all [FilterValidator.elements]

/-- A compiler class with its model: the names of both, the columns of the model, the `compile_*`
methods that the class declares itself, and its scopes. -/
structure SqlAlchemyFiltersCompiler where
  name : String := "SqlAlchemyFiltersCompiler"
  model : String
  columns : List String
  methods : List String := []
  scopes : List String := []
  scopedFields : List String := []

namespace SqlAlchemyFiltersCompiler

/-- `_is_absent` -/
def isAbsent (container : FilterContainer) : Bool :=
  container.value = .none ||
    ((container.lookup = .json || container.lookup = .in) &&
      (FilterValidator.elements container.value = some []))

/-- A method that a lookup by name finds: one that the class declares, or the inherited
`compile_search__eq`. -/
def method (self : SqlAlchemyFiltersCompiler) (name : String) : Option String :=
  if name ∈ self.methods ∨ name = "compile_search__eq" then some name else none

/-- `sorted(names)`, as it is printed -/
def reprList (names : List String) : String :=
  "[" ++ ", ".intercalate ((names.mergeSort (· ≤ ·)).map fun s => "'" ++ s ++ "'") ++ "]"

/-- `f"{container.field}__{container.lookup}"` -/
def suffix (container : FilterContainer) : String :=
  container.field ++ "__" ++ container.lookup.value

/-- `_resolve`, to the name of the method -/
def resolve (self : SqlAlchemyFiltersCompiler) (container : FilterContainer)
    (scope : Option String) : Except PyError (Option String) :=
  match scope.bind fun s => self.method ("compile_" ++ s ++ "__" ++ suffix container) with
  | some name => .ok (some name)
  | none =>
    if container.field ∈ self.scopedFields then
      match scope with
      | none =>
        .error (.runtimeError (self.name ++ " declares `" ++ container.field ++
          "` as scope-dependent, so the caller must pass `scope=` (one of " ++
          reprList self.scopes ++ ") to compile it."))
      | some s =>
        .error (.runtimeError (self.name ++ " declares `" ++ container.field ++
          "` as scope-dependent but `compile_" ++ s ++ "__" ++ suffix container ++
          "` does not exist. Add that method, or drop the field from `scoped_fields` " ++
          "if it no longer varies by read model."))
    else .ok (self.method ("compile_" ++ suffix container))

/-- A call of a method: a declared one, or the inherited `compile_search__eq`, which reads
`self.model.name`. -/
def call (self : SqlAlchemyFiltersCompiler) (name : String) (container : FilterContainer) :
    Except PyError Predicate :=
  if name ∈ self.methods then .ok (.handler name container.value)
  else if "name" ∈ self.columns then .ok (.ilike "name" container.value)
  else .error .attributeError

/-- The generic column path of `_compile`. -/
def compileColumn (self : SqlAlchemyFiltersCompiler) (container : FilterContainer) :
    Except PyError Predicate :=
  if container.lookup = .json then
    .error (.runtimeError (self.name ++ " has no handler for JSON filter `" ++ container.field ++
      "`. A structured payload has no generic column mapping, so it needs an explicit `compile_" ++
      container.field ++ "__json` method."))
  else if container.field ∉ self.columns then
    .error (.runtimeError (self.name ++ " cannot compile filter `" ++ suffix container ++ "`: " ++
      self.model ++ " has no such column and no `compile_" ++ suffix container ++
      "` override is declared."))
  else
    match container.lookup with
    | .eq => .ok (.eq container.field container.value)
    | .range => compileRange container.field container.value container.field
    | .in =>
      match FilterValidator.elements container.value with
      | some items => .ok (.in_ container.field items)
      | none => .error .typeError
    | .gt => .ok (.gt container.field container.value)
    | .lt => .ok (.lt container.field container.value)
    | .gte => .ok (.ge container.field container.value)
    | .lte => .ok (.le container.field container.value)
    | lookup => .error (.runtimeError ("Unknown filter lookup " ++ lookup.value ++ "."))

/-- `_compile` -/
def compileOne (self : SqlAlchemyFiltersCompiler) (scope : Option String)
    (container : FilterContainer) : Except PyError Predicate := do
  match ← self.resolve container scope with
  | some name => self.call name container
  | none => self.compileColumn container

/-- `compile` -/
def compile (self : SqlAlchemyFiltersCompiler) (scope : Option String)
    (containers : List FilterContainer) : Except PyError (List Predicate) :=
  if scope.any (fun s => s ∉ self.scopes) then
    .error (.runtimeError (self.name ++ " got unknown scope `" ++ scope.getD "" ++
      "`; declared scopes: " ++ (if self.scopes = [] then "(none)" else reprList self.scopes) ++ "."))
  else (containers.filter fun c => !isAbsent c).mapM (self.compileOne scope)

end SqlAlchemyFiltersCompiler

end ApiTemplate.Filtering
