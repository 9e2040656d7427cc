import ApiTemplate.Fallible.Results
import ApiTemplate.Filtering.Compiler
import ApiTemplate.Listing.Window

/-!
# The base repository

`SqlAlchemyRepository` over the rows of one table: the statements that `filter`, `filter_by` and
`filter_exists` build, and what they make of the answers of the database. A statement has no order
of its own, so any window of the matching rows is an answer to it.
-/

namespace ApiTemplate.Listing

open Filtering (Item Row Scalar Numeral Opaque Sql)
open Window (IsWindow Unordered window)
open Fallible (bind_eq_ok map_eq_ok mapM_ok exists_mapM_ok_iff)

/-! ## Truth of values -/

namespace Truth

/-- A number is true unless it is zero. -/
def numeral : Numeral → Bool
  | .finite q => q ≠ 0
  | .infinite _ => true
  | .nan => true

def scalar : Scalar → Bool
  | .bool b => b
  | .int n => n ≠ 0
  | .float x => numeral x
  | .decimal x => numeral x
  | .str s => s ≠ ""
  | .date _ => true
  | .datetime _ _ => true

/-- `bool(value)`; a member of a class with a data type has the truth of its value. -/
def item (object : Opaque → Bool) : Item → Bool
  | .none => false
  | .scalar s => scalar s
  | .member m => if m.mixed then scalar m.value else true
  | .object o => object o

end Truth

/-! ## Statements -/

/-- What the repositories rely on: the comparisons of the database, the truth and the text of
objects, and which texts match a pattern. -/
structure Engine where
  sql : Sql
  truth : Opaque → Bool
  str : Item → String
  ilike : Item → String → Bool

/-- An element of `where(…)`. -/
inductive Clause
  | equals (column : String) (value : Item)
  | ilike (column : String) (pattern : String)
  deriving DecidableEq

/-- `select(self.model)` with what was added to it; the loader options change no row. -/
structure Select where
  clauses : List Clause := []
  options : List String := []
  limit : Option ℕ := none
  offset : ℕ := 0
  deriving DecidableEq

inductive RepositoryError
  | attributeError
  | keyError (message : String)
  | valueError (message : String)
  deriving DecidableEq

namespace Engine

variable (E : Engine)

/-- `if value` -/
def truthy (value : Item) : Bool := Truth.item E.truth value

/-- The clause is true of the row, neither false nor unknown. -/
def holds (row : Row) : Clause → Bool
  | .equals column value => E.sql.test (· = .eq) (row column) value = some true
  | .ilike column pattern => row column ≠ .none && E.ilike (row column) pattern

/-- The rows of the table that satisfy all of the clauses. -/
def matching (clauses : List Clause) (table : List Row) : List Row :=
  table.filter fun row => clauses.all (E.holds row)

end Engine

/-- What a database answers to the statements. -/
abbrev Database : Type := Select → List Row

/-- The answers are windows of the matching rows. -/
def Database.IsFor (E : Engine) (table : List Row) (db : Database) : Prop :=
  ∀ stmt, IsWindow Unordered stmt.limit stmt.offset (E.matching stmt.clauses table) (db stmt)

/-- The database that answers in the order of the table. -/
def Database.stored (E : Engine) (table : List Row) : Database := fun stmt =>
  window stmt.limit stmt.offset (E.matching stmt.clauses table)

/-! ## The repository -/

/-- A repository, with the attributes of its model. -/
structure SqlAlchemyRepository where
  attributes : List String

/-- Keyword arguments. -/
abbrev Kwargs : Type := List (String × Item)

namespace SqlAlchemyRepository

variable (self : SqlAlchemyRepository) (E : Engine)

/-- `getattr(self.model, key)`, or the error -/
def getattr (error : RepositoryError) (key : String) : Except RepositoryError String :=
  if key ∈ self.attributes then .ok key else .error error

/-- `_parse_search` -/
def parseSearch (search : Kwargs) : Except RepositoryError (List Clause) :=
  (search.filter fun arg => E.truthy arg.2).mapM fun arg =>
    (self.getattr .attributeError arg.1).map fun column =>
      .ilike column ("%" ++ E.str arg.2 ++ "%")

/-- `parse_to_statement`; a search that is `None` is empty. -/
def parseToStatement (search filters : Kwargs) : Except RepositoryError (Option Select) := do
  let filterArgs ← (filters.filter fun arg => E.truthy arg.2).mapM fun arg =>
    (self.getattr .attributeError arg.1).map fun column => Clause.equals column arg.2
  let searchFilters ← self.parseSearch E search
  let conditions := filterArgs ++ searchFilters
  return if conditions = [] then none else some { clauses := conditions }

/-- `_get_count` -/
def getCount (db : Database) (smt : Select) : ℕ := (db smt).length

/-- The `_select` of `filter` -/
def filterSelect (limit : Option ℕ) (offset : ℕ) (search filters : Kwargs) :
    Except RepositoryError Select := do
  if filters = [] ∧ search = [] then return { limit, offset }
  match ← self.parseToStatement E search filters with
  -- `None` has no attribute `limit`
  | none => throw RepositoryError.attributeError
  | some select => return { select with limit, offset }

/-- `filter`, with the count if it is needed -/
def filter (db : Database) (limit : Option ℕ) (offset : ℕ) (search : Kwargs) (needCount : Bool)
    (filters : Kwargs) : Except RepositoryError (List Row × Option ℕ) := do
  let select ← self.filterSelect E limit offset search filters
  let result := db select
  if !needCount then return (result, none)
  let resLen := result.length
  if some resLen = limit then return (result, some (getCount db select))
  if resLen > 0 then return (result, some (offset + resLen))
  return (result, some 0)

/-- `filter_by` -/
def filterBy (db : Database) (offset limit : ℕ) (options : List String) (kwargs : Kwargs) :
    Except RepositoryError (List Row) := do
  let filters ← (kwargs.filter fun arg => arg.2 ≠ .none).mapM fun arg =>
    (self.getattr (.keyError "Temp error.") arg.1).map fun column => Clause.equals column arg.2
  if filters = [] then throw (RepositoryError.valueError "At least one filter must be provided")
  let select : Select := { clauses := filters }
  return db (if options = [] then select else { select with options, limit := some limit, offset })

/-- `filter_exists` -/
def filterExists (db : Database) (search filters : Kwargs) : Except RepositoryError Bool := do
  match ← self.parseToStatement E search filters with
  | none => return false
  | some select => return db select ≠ []

/-! ## What the statements ask for -/

/-- The arguments that make a condition. -/
def effective (args : Kwargs) : Kwargs := args.filter fun arg => E.truthy arg.2

/-- Every given filter as an equality. -/
def equalities (filters : Kwargs) : List Clause :=
  filters.map fun arg => .equals arg.1 arg.2

/-- The conditions of `filter` and `filter_exists`. -/
def conditions (search filters : Kwargs) : List Clause :=
  equalities (effective E filters) ++
    (effective E search).map fun arg => .ilike arg.1 ("%" ++ E.str arg.2 ++ "%")

/-- The model has every attribute that is asked for. -/
def Known (args : Kwargs) : Prop := ∀ arg ∈ args, arg.1 ∈ self.attributes

instance (args : Kwargs) : Decidable (self.Known args) :=
  inferInstanceAs (Decidable (∀ arg ∈ args, arg.1 ∈ self.attributes))

section

variable {self : SqlAlchemyRepository} {E : Engine}

theorem getattr_map (error : RepositoryError) (clause : String → Clause) {key : String}
    (h : key ∈ self.attributes) : (self.getattr error key).map clause = .ok (clause key) := by
  rw [getattr, if_pos h]
  rfl

theorem mapM_getattr (error : RepositoryError) (clause : String × Item → String → Clause)
    (args : Kwargs) (clauses : List Clause) :
    (args.mapM fun arg => (self.getattr error arg.1).map (clause arg)) = .ok clauses ↔
      self.Known args ∧ clauses = args.map fun arg => clause arg arg.1 := by
  constructor
  · intro h
    have hknown : self.Known args := fun arg harg => by
      obtain ⟨_, hclause⟩ := exists_mapM_ok_iff.mp ⟨clauses, h⟩ arg harg
      obtain ⟨column, hcolumn, -⟩ := map_eq_ok.mp hclause
      by_contra hno
      rw [getattr, if_neg hno] at hcolumn
      cases hcolumn
    refine ⟨hknown, ?_⟩
    rw [mapM_ok fun arg harg => getattr_map error (clause arg) (hknown arg harg)] at h
    exact (Except.ok.inj h).symm
  · rintro ⟨hknown, rfl⟩
    exact mapM_ok fun arg harg => getattr_map error (clause arg) (hknown arg harg)

theorem parseSearch_eq_ok {search : Kwargs} {clauses : List Clause} :
    self.parseSearch E search = .ok clauses ↔ self.Known (effective E search) ∧
      clauses = (effective E search).map fun arg => .ilike arg.1 ("%" ++ E.str arg.2 ++ "%") :=
  mapM_getattr _ _ _ _

theorem parseToStatement_eq_ok {search filters : Kwargs} {stmt : Option Select} :
    self.parseToStatement E search filters = .ok stmt ↔
      self.Known (effective E filters) ∧ self.Known (effective E search) ∧
        stmt = if conditions E search filters = [] then none
          else some { clauses := conditions E search filters } := by
  simp only [parseToStatement, bind_eq_ok, parseSearch_eq_ok]
  constructor
  · rintro ⟨clauses, hfilters, _, ⟨hsearch, rfl⟩, hstmt⟩
    obtain ⟨hknown, rfl⟩ :=
      (mapM_getattr _ (fun arg column => .equals column arg.2) _ _).mp hfilters
    exact ⟨hknown, hsearch, (Except.ok.inj hstmt).symm⟩
  · rintro ⟨hknown, hsearch, rfl⟩
    exact ⟨_, (mapM_getattr _ (fun arg column => .equals column arg.2) _ _).mpr ⟨hknown, rfl⟩, _,
      ⟨hsearch, rfl⟩, rfl⟩

end

end SqlAlchemyRepository

end ApiTemplate.Listing
