import ApiTemplate.Filtering.Compiler
import ApiTemplate.Identity.Tables
import ApiTemplate.Stream.LikePattern

/-!
# The search over users

`UserFilterCompiler`, whose `compile_search__eq` puts the text of the caller into a pattern as it
is. The predicate selects the users of whom a name or the address starts with the text if and only
if the text has no metacharacter.
-/

namespace ApiTemplate.Filtering

open Identity (UserRow)
open Like (CaseFold)

/-! ## The compiler of the user filters -/

/-- `column.ilike(pattern)` -/
structure Ilike where
  column : String
  pattern : String
  deriving DecidableEq

namespace UserFilterCompiler

/-- The clauses that `compile_search__eq` joins by `or_`. -/
def compileSearchEq (value : String) : List Ilike :=
  let pattern := value ++ "%"
  [⟨"first_name", pattern⟩, ⟨"last_name", pattern⟩, ⟨"email", pattern⟩]

/-- `UserFilterCompiler(UserOrmModel)` -/
def compiler : SqlAlchemyFiltersCompiler where
  name := "UserFilterCompiler"
  model := "UserOrmModel"
  columns := ["id", "email", "password", "phone", "first_name", "last_name", "address",
    "description", "information", "avatar_id", "is_active", "is_superuser", "email_confirmed",
    "date_joined", "last_login_time", "avatar", "status", "deactivated_at", "activated_at",
    "activated_by_id", "deactivated_by_id", "created_at", "updated_at"]
  methods := ["compile_search__eq"]

end UserFilterCompiler

/-! ## Its meaning -/

/-- The text columns of a user, as the columns of a row. -/
def userColumns (u : UserRow) : Row
  | "first_name" => .scalar (.str u.firstName)
  | "last_name" => .scalar (.str u.lastName)
  | "email" => .scalar (.str u.email)
  | _ => .none

/-- The truth value of an `ILIKE` on a row. -/
def Ilike.eval (F : CaseFold) (row : Row) (clause : Ilike) : Option Bool :=
  match (Value.item (row clause.column)).text with
  | none => none
  | some text => Like.ilike F clause.pattern.toList text.toList

/-- A database, where the one method of the compiler means the disjunction of its clauses. -/
def Sql.withSearch (sql : Sql) (F : CaseFold) : Sql :=
  { sql with
    handler := fun name value row =>
      if name = "compile_search__eq" then
        (UserFilterCompiler.compileSearchEq (value.text.getD "")).foldr
          (fun clause rest => Sql.or3 (clause.eval F row) rest) (some false)
      else sql.handler name value row }

/-- A name or the address of the user starts with the text, up to case. -/
def UserStartsWith (F : CaseFold) (s : String) (u : UserRow) : Prop :=
  Like.StartsWith F s.toList u.firstName.toList ∨ Like.StartsWith F s.toList u.lastName.toList ∨
    Like.StartsWith F s.toList u.email.toList

/-- The container of a search. -/
def searchContainer (s : String) : FilterContainer :=
  { value := .str s, lookup := .eq, field := "search" }

variable (F : CaseFold) (sql : Sql)

theorem compile_search (s : String) :
    UserFilterCompiler.compiler.compile none [searchContainer s] =
      .ok [.handler "compile_search__eq" (.str s)] := by
  have hresolve : UserFilterCompiler.compiler.resolve (searchContainer s) none =
      .ok (some "compile_search__eq") := rfl
  have hone : UserFilterCompiler.compiler.compileOne none (searchContainer s) =
      .ok (.handler "compile_search__eq" (.str s)) := by
    unfold SqlAlchemyFiltersCompiler.compileOne
    rw [hresolve]
    rfl
  have habsent : SqlAlchemyFiltersCompiler.isAbsent (searchContainer s) = false := rfl
  simp only [SqlAlchemyFiltersCompiler.compile, Option.any_none, Bool.false_eq_true, if_false,
    List.filter_cons, habsent, Bool.not_false, if_true, List.filter_nil, List.mapM_cons, hone,
    List.mapM_nil]
  rfl

theorem or3_eq_true {p q : Option Bool} :
    Sql.or3 p q = some true ↔ p = some true ∨ q = some true := by
  rcases p with _ | _ | _ <;> rcases q with _ | _ | _ <;> decide

/-- What the predicate selects, clause by clause. -/
theorem selects_search_iff (s : String) (u : UserRow) :
    (sql.withSearch F).selects (.handler "compile_search__eq" (.str s)) (userColumns u) ↔
      Like.ilike F (s.toList ++ ['%']) u.firstName.toList = some true ∨
        Like.ilike F (s.toList ++ ['%']) u.lastName.toList = some true ∨
        Like.ilike F (s.toList ++ ['%']) u.email.toList = some true := by
  have hpattern : (s ++ "%").toList = s.toList ++ ['%'] := by rw [String.toList_append]; rfl
  show Sql.or3 (Like.ilike F (s ++ "%").toList u.firstName.toList)
    (Sql.or3 (Like.ilike F (s ++ "%").toList u.lastName.toList)
      (Sql.or3 (Like.ilike F (s ++ "%").toList u.email.toList) (some false))) = some true ↔ _
  rw [hpattern, or3_eq_true, or3_eq_true, or3_eq_true]
  simp

/-- A user with one text in each of the columns of the search. -/
def userNamed (text : String) : UserRow where
  id := 0
  email := text
  password := none
  firstName := text
  lastName := text
  isActive := true
  isSuperuser := false
  emailConfirmed := true
  status := 1
  dateJoined := none
  lastLoginTime := none

theorem ilike_prefix_of_search {s : String} (h : ∀ u : UserRow,
    (sql.withSearch F).selects (.handler "compile_search__eq" (.str s)) (userColumns u) ↔
      UserStartsWith F s u) (text : List Char) :
    Like.ilike F (s.toList ++ ['%']) text = some true ↔ Like.StartsWith F s.toList text := by
  have huser := h (userNamed (String.ofList text))
  rw [selects_search_iff] at huser
  simpa only [UserStartsWith, userNamed, String.toList_ofList, or_self] using huser

/-- **The predicate of a search selects, from any set of users, those of whom a name or the address
starts with the text, if and only if the text has no metacharacter.** -/
theorem search_selects_iff (s : String) :
    (∃ p, UserFilterCompiler.compiler.compile none [searchContainer s] = .ok [p] ∧
      ∀ rows : Set UserRow, {u ∈ rows | (sql.withSearch F).selects p (userColumns u)} =
        {u ∈ rows | UserStartsWith F s u}) ↔ ∀ c ∈ s.toList, c ∉ Like.metacharacters := by
  rw [compile_search, ← Like.ilike_prefix_iff F]
  constructor
  · rintro ⟨p, hp, h⟩
    obtain rfl : Predicate.handler "compile_search__eq" (.str s) = p := by
      injection hp with hp
      exact (List.cons.inj hp).1
    refine ilike_prefix_of_search F sql fun u => ?_
    have hu := Set.ext_iff.mp (h Set.univ) u
    simpa using hu
  · intro h
    refine ⟨_, rfl, fun rows => Set.ext fun u => and_congr_right fun _ => ?_⟩
    rw [selects_search_iff]
    exact or_congr (h _) (or_congr (h _) (h _))

/-- A database that answers nothing but the search. -/
def searchSql : Sql := Sql.withSearch ⟨fun _ _ => none, fun _ _ => false, fun _ _ _ => none⟩ .ascii

/-- A search for `%` selects every user. -/
theorem search_percent : ¬ ∃ p, UserFilterCompiler.compiler.compile none [searchContainer "%"] =
      .ok [p] ∧ ∀ rows : Set UserRow, {u ∈ rows | searchSql.selects p (userColumns u)} =
        {u ∈ rows | UserStartsWith .ascii "%" u} := by
  rintro ⟨p, hp, h⟩
  rw [compile_search] at hp
  obtain rfl : Predicate.handler "compile_search__eq" (.str "%") = p := by
    injection hp with hp
    exact (List.cons.inj hp).1
  have hann : userNamed "Ann" ∈ {u ∈ Set.univ | UserStartsWith .ascii "%" u} := by
    rw [← h Set.univ]
    exact ⟨Set.mem_univ _, (selects_search_iff .ascii _ "%" _).mpr (.inl (by decide))⟩
  exact absurd hann.2 (by unfold UserStartsWith; decide)

end ApiTemplate.Filtering
