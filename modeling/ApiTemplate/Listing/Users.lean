import ApiTemplate.Blob.Handlers
import ApiTemplate.Filtering.Search
import ApiTemplate.Identity.Repositories
import ApiTemplate.Listing.Ordering
import ApiTemplate.Listing.Window

/-!
# The list of users

`UserOrmRepository.get_list`: a count over the users alone, and a page of the users joined with the
blobs of their avatars. As an identifier belongs to one blob, both describe the same users.
-/

namespace ApiTemplate.Listing

open Blob (BlobRow)
open Fallible (bind_eq_ok mapM_ok exists_mapM_ok_iff)
open Filtering (FilterContainer Item Predicate PyError Sql)
open Identity (Id Micros UserRow fullName makeMediaFullUrl)
open Window (IsWindow isWindow_map window)

/-! ## Outer joins -/

section

variable {α β : Type}

/-- Every row on the left beside its partners on the right, or beside none. -/
def outerJoin (on : α → β → Bool) (left : List α) (right : List β) : List (α × Option β) :=
  left.flatMap fun a =>
    match right.filter (on a) with
    | [] => [(a, none)]
    | partners => partners.map fun b => (a, some b)

/-- Rows with one partner at most are neither dropped nor doubled. -/
theorem outerJoin_eq_map {on : α → β → Bool} {left : List α} {right : List β}
    (h : ∀ a, (right.filter (on a)).length ≤ 1) :
    outerJoin on left right = left.map fun a => (a, right.find? (on a)) := by
  unfold outerJoin
  rw [List.map_eq_flatMap]
  refine congrArg left.flatMap (funext fun a => ?_)
  have hone := h a
  rw [← List.head?_filter]
  rcases hpartners : right.filter (on a) with _ | ⟨b, _ | ⟨c, rest⟩⟩
  · rfl
  · rfl
  · rw [hpartners, List.length_cons, List.length_cons] at hone
    omega

theorem length_filter_key_le_one {key : β → ℕ} {right : List β} (h : (right.map key).Nodup)
    (on : β → Bool) {k : ℕ} (hon : ∀ b, on b → key b = k) : (right.filter on).length ≤ 1 := by
  have hnodup : ((right.filter on).map key).Nodup := h.sublist (List.filter_sublist.map key)
  have hall : (right.filter on).map key = List.replicate (right.filter on).length k := by
    rw [List.map_eq_replicate_iff]
    exact fun b hb => hon b (List.mem_filter.mp hb).2
  rw [hall, List.nodup_replicate] at hnodup
  exact hnodup

end

/-! ## Tables -/

/-- `UserOrmModel` -/
structure UserOrmModel extends UserRow where
  createdAt : Micros
  updatedAt : Micros
  activatedAt : Option Micros := none
  deactivatedAt : Option Micros := none
  activatedById : Option Id := none
  deactivatedById : Option Id := none

/-- The value of a column that may be null. -/
def nullable {α : Type} (item : α → Item) (value : Option α) : Item := (value.map item).getD .none

namespace Column

def text (s : String) : Item := .scalar (.str s)

def uuid (id : Id) : Item := .object { cls := "UUID", id }

/-- `DateTime(timezone=True)` -/
def instant (t : Micros) : Item := .scalar (.datetime t (some 0))

end Column

/-- The columns of a user. -/
def UserOrmModel.columns (u : UserOrmModel) : Filtering.Row
  | "id" => Column.uuid u.id
  | "email" => Column.text u.email
  | "password" => nullable Column.text u.password
  | "phone" => nullable Column.text u.phone
  | "first_name" => Column.text u.firstName
  | "last_name" => Column.text u.lastName
  | "address" => nullable Column.text u.address
  | "description" => nullable Column.text u.description
  | "information" => nullable Column.text u.information
  | "avatar_id" => nullable Column.uuid u.avatarId
  | "is_active" => .scalar (.bool u.isActive)
  | "is_superuser" => .scalar (.bool u.isSuperuser)
  | "email_confirmed" => .scalar (.bool u.emailConfirmed)
  | "date_joined" => nullable Column.instant u.dateJoined
  | "last_login_time" => nullable Column.instant u.lastLoginTime
  | "status" => .scalar (.int u.status)
  | "deactivated_at" => nullable Column.instant u.deactivatedAt
  | "activated_at" => nullable Column.instant u.activatedAt
  | "activated_by_id" => nullable Column.uuid u.activatedById
  | "deactivated_by_id" => nullable Column.uuid u.deactivatedById
  | "created_at" => Column.instant u.createdAt
  | "updated_at" => Column.instant u.updatedAt
  | _ => .none

/-! ## Statements -/

/-- The columns that `get_list` selects. -/
structure UserListRow where
  id : Id
  email : String
  firstName : String
  lastName : String
  phone : Option String
  status : ℤ
  createdAt : Micros
  avatarPath : Option String
  deriving DecidableEq

/-- The statement for the rows. -/
structure UserStatement where
  conditions : List Predicate
  ordering : List OrderingItem
  limit : ℕ
  offset : ℕ

/-- What a database answers to the two statements. -/
structure UserDatabase where
  count : List Predicate → ℕ
  rows : UserStatement → List UserListRow

/-- The user satisfies all of the conditions. -/
def satisfies (sql : Sql) (conditions : List Predicate) (u : UserOrmModel) : Bool :=
  conditions.all fun p => sql.eval u.columns p = some true

/-- The order of the values of a column; a null is after all others. -/
def compareValues (sql : Sql) (a b : Item) : Ordering :=
  if a = .none then (if b = .none then .eq else .gt)
  else if b = .none then .lt
  else (sql.cmp a b).getD .eq

def OrderingItem.compare (sql : Sql) (item : OrderingItem) (u v : UserOrmModel) : Ordering :=
  match item.direction with
  | .asc => compareValues sql (u.columns item.field) (v.columns item.field)
  | .desc => (compareValues sql (u.columns item.field) (v.columns item.field)).swap

/-- `u` may stand in front of `v`: at the first item that tells them apart, it comes first. -/
def Consistent (sql : Sql) (ordering : List OrderingItem) (u v : UserOrmModel) : Prop :=
  ordering.foldr (fun item rest => (item.compare sql u v).then rest) .eq ≠ .gt

/-- `BlobObjectOrmModel.id == self.model.avatar_id` -/
def isAvatar (u : UserOrmModel) (b : BlobRow) : Bool := u.avatarId = some b.id

def UserListRow.ofJoined (row : UserOrmModel × Option BlobRow) : UserListRow where
  id := row.1.id
  email := row.1.email
  firstName := row.1.firstName
  lastName := row.1.lastName
  phone := row.1.phone
  status := row.1.status
  createdAt := row.1.createdAt
  avatarPath := row.2.bind (·.thumbnailPath)

/-- The count is that of the users, and the rows are a window of the joined rows, in an order that
the statement allows. -/
structure UserDatabase.IsFor (sql : Sql) (users : List UserOrmModel) (blobs : List BlobRow)
    (db : UserDatabase) : Prop where
  count : ∀ conditions, db.count conditions = (users.filter (satisfies sql conditions)).length
  rows : ∀ stmt, ∃ page, db.rows stmt = page.map UserListRow.ofJoined ∧
    IsWindow (fun a b => Consistent sql stmt.ordering a.1 b.1) (some stmt.limit) stmt.offset
      ((outerJoin isAvatar users blobs).filter fun row => satisfies sql stmt.conditions row.1) page

/-! ## The repository -/

structure ListQueryResponse (α : Type) where
  count : ℕ
  rows : List α
  deriving DecidableEq

structure UserListDTO where
  id : Id
  email : String
  fullName : String
  status : ℤ
  createdAt : Micros
  firstName : Option String
  lastName : Option String
  phone : Option String
  avatarUrl : Option String
  deriving DecidableEq

namespace UserOrmRepository

/-- `_compile_filters` -/
def compileFilters (filters : List FilterContainer) : Except PyError (List Predicate) :=
  if filters = [] then .ok [] else Filtering.UserFilterCompiler.compiler.compile none filters

/-- The attributes with an order: all but the relationship. -/
def orderable : List String := Filtering.UserFilterCompiler.compiler.columns.filter (· ≠ "avatar")

/-- `_parse_ordering` -/
def parseOrdering (ordering : Option OrderingContainer) : Except PyError (List OrderingItem) :=
  ((ordering.map OrderingContainer.items).getD []).mapM fun item =>
    if item.field ∈ orderable then .ok item else .error .attributeError

/-- The row of the response. -/
def toDTO (baseUrl : String) (row : UserListRow) : UserListDTO where
  id := row.id
  email := row.email
  fullName := fullName row.firstName row.lastName
  status := row.status
  createdAt := row.createdAt
  firstName := some row.firstName
  lastName := some row.lastName
  phone := row.phone
  avatarUrl := (row.avatarPath.filter (· ≠ "")).map (makeMediaFullUrl baseUrl)

/-- `get_list` -/
def getList (baseUrl : String) (db : UserDatabase) (limit offset : ℕ)
    (filters : List FilterContainer) (ordering : Option OrderingContainer) :
    Except PyError (ListQueryResponse UserListDTO) := do
  let conditions ← compileFilters filters
  let count := db.count conditions
  let ordering ← parseOrdering ordering
  let rows := db.rows { conditions, ordering, limit, offset }
  return { count, rows := rows.map (toDTO baseUrl) }

/-! ## The page and the count -/

/-- The avatar of a user, the first that there is. -/
def avatar (blobs : List BlobRow) (u : UserOrmModel) : Option BlobRow := blobs.find? (isAvatar u)

/-- The response row of a user. -/
def toListDTO (baseUrl : String) (blobs : List BlobRow) (u : UserOrmModel) : UserListDTO :=
  toDTO baseUrl (.ofJoined (u, avatar blobs u))

theorem outerJoin_isAvatar {blobs : List BlobRow} (hblobs : (blobs.map BlobRow.id).Nodup)
    (users : List UserOrmModel) :
    outerJoin isAvatar users blobs = users.map fun u => (u, avatar blobs u) := by
  refine outerJoin_eq_map fun u => ?_
  cases havatar : u.avatarId with
  | none =>
    have hempty : blobs.filter (isAvatar u) = [] :=
      List.filter_eq_nil_iff.mpr fun b _ h => by
        rw [isAvatar, havatar] at h
        cases of_decide_eq_true h
    rw [hempty]
    exact Nat.zero_le 1
  | some id =>
    refine length_filter_key_le_one (k := id) hblobs _ fun b hb => ?_
    rw [isAvatar, havatar] at hb
    exact (Option.some.inj (of_decide_eq_true hb)).symm

theorem parseOrdering_eq_ok {ordering : Option OrderingContainer} {items : List OrderingItem} :
    parseOrdering ordering = .ok items ↔
      items = (ordering.map OrderingContainer.items).getD [] ∧
        ∀ item ∈ items, item.field ∈ orderable := by
  unfold parseOrdering
  generalize (ordering.map OrderingContainer.items).getD [] = given
  have hone : ∀ item : OrderingItem, item.field ∈ orderable →
      (if item.field ∈ orderable then .ok item else .error .attributeError :
        Except PyError OrderingItem) = .ok (id item) := fun item h => if_pos h
  constructor
  · intro h
    have hfields : ∀ item ∈ given, item.field ∈ orderable := fun item hitem => by
      obtain ⟨_, hok⟩ := exists_mapM_ok_iff.mp ⟨items, h⟩ item hitem
      by_contra hno
      rw [if_neg hno] at hok
      cases hok
    rw [mapM_ok fun item hitem => hone item (hfields item hitem), List.map_id] at h
    obtain rfl := Except.ok.inj h
    exact ⟨rfl, hfields⟩
  · rintro ⟨rfl, hfields⟩
    rw [mapM_ok fun item hitem => hone item (hfields item hitem), List.map_id]

theorem getList_eq_ok {baseUrl : String} {db : UserDatabase} {limit offset : ℕ}
    {filters : List FilterContainer} {ordering : Option OrderingContainer}
    {response : ListQueryResponse UserListDTO} :
    getList baseUrl db limit offset filters ordering = .ok response ↔
      ∃ conditions items, compileFilters filters = .ok conditions ∧
        parseOrdering ordering = .ok items ∧
        response = ⟨db.count conditions,
          (db.rows ⟨conditions, items, limit, offset⟩).map (toDTO baseUrl)⟩ := by
  unfold getList
  simp only [bind_eq_ok]
  constructor
  · rintro ⟨conditions, hconditions, items, hitems, hresponse⟩
    exact ⟨conditions, items, hconditions, hitems, (Except.ok.inj hresponse).symm⟩
  · rintro ⟨conditions, items, hconditions, hitems, rfl⟩
    exact ⟨conditions, hconditions, items, hitems, rfl⟩

/-- The statement for the rows is answered by a window of the users that satisfy the conditions,
each with its avatar. -/
theorem exists_page {sql : Sql} {users : List UserOrmModel} {blobs : List BlobRow}
    (hblobs : (blobs.map BlobRow.id).Nodup) {db : UserDatabase} (hdb : db.IsFor sql users blobs)
    (stmt : UserStatement) :
    ∃ page, IsWindow (Consistent sql stmt.ordering) (some stmt.limit) stmt.offset
        (users.filter (satisfies sql stmt.conditions)) page ∧
      db.rows stmt = page.map fun u => UserListRow.ofJoined (u, avatar blobs u) := by
  obtain ⟨joined, hrows, hwindow⟩ := hdb.rows stmt
  rw [outerJoin_isAvatar hblobs, List.filter_map] at hwindow
  obtain ⟨page, hpage, rfl⟩ := (isWindow_map (g := Prod.fst) fun _ => rfl).mp hwindow
  refine ⟨page, hpage, ?_⟩
  rw [hrows, List.map_map]
  rfl

theorem getList_spec (sql : Sql) (users : List UserOrmModel) (blobs : List BlobRow)
    (hblobs : (blobs.map BlobRow.id).Nodup) (db : UserDatabase) (hdb : db.IsFor sql users blobs)
    (baseUrl : String) (limit offset : ℕ) (filters : List FilterContainer)
    (ordering : Option OrderingContainer) :
    ((∃ response, getList baseUrl db limit offset filters ordering = .ok response) ↔
      (∃ conditions, compileFilters filters = .ok conditions) ∧
        ∀ container ∈ ordering, ∀ item ∈ container.items, item.field ∈ orderable) ∧
    ∀ response, getList baseUrl db limit offset filters ordering = .ok response →
      ∃ conditions page, compileFilters filters = .ok conditions ∧
        response.count = (users.filter (satisfies sql conditions)).length ∧
        IsWindow (Consistent sql ((ordering.map OrderingContainer.items).getD [])) (some limit)
          offset (users.filter (satisfies sql conditions)) page ∧
        response.rows = page.map (toListDTO baseUrl blobs) ∧
        response.rows.length = min limit (response.count - offset) := by
  constructor
  · have hordering : (∀ container ∈ ordering, ∀ item ∈ container.items, item.field ∈ orderable) ↔
        ∃ items, parseOrdering ordering = .ok items := by
      simp only [parseOrdering_eq_ok, exists_eq_left]
      cases ordering with
      | none => simp
      | some container => simp
    rw [hordering]
    simp only [getList_eq_ok]
    constructor
    · rintro ⟨_, conditions, items, hconditions, hitems, -⟩
      exact ⟨⟨conditions, hconditions⟩, items, hitems⟩
    · rintro ⟨⟨conditions, hconditions⟩, items, hitems⟩
      exact ⟨_, conditions, items, hconditions, hitems, rfl⟩
  · intro response hresponse
    obtain ⟨conditions, items, hconditions, hitems, rfl⟩ := getList_eq_ok.mp hresponse
    obtain ⟨page, hpage, hrows⟩ := exists_page hblobs hdb ⟨conditions, items, limit, offset⟩
    rw [(parseOrdering_eq_ok.mp hitems).1] at hpage
    refine ⟨conditions, page, hconditions, hdb.count conditions, hpage, ?_, ?_⟩
    · rw [hrows, List.map_map]
      rfl
    · rw [hrows, List.length_map, List.length_map, hdb.count]
      exact hpage.length

/-- A user with an avatar. -/
def oneUser : UserOrmModel where
  id := 1
  email := "a@b.c"
  password := none
  firstName := "Ann"
  lastName := ""
  avatarId := some 2
  isActive := true
  isSuperuser := false
  emailConfirmed := true
  status := 1
  dateJoined := none
  lastLoginTime := none
  createdAt := 0
  updatedAt := 0

/-- The database of that user. -/
def oneUserDatabase (sql : Sql) (blobs : List BlobRow) : UserDatabase where
  count conditions := ([oneUser].filter (satisfies sql conditions)).length
  rows stmt := (window (some stmt.limit) stmt.offset ((outerJoin isAvatar [oneUser] blobs).filter
    fun row => satisfies sql stmt.conditions row.1)).map .ofJoined

theorem getList_oneUser : ∃ response,
    getList "http://a.b" (oneUserDatabase ⟨fun _ _ => none, fun _ _ => false, fun _ _ _ => none⟩
      [{ id := 2, path := "images/a.webp" }]) 10 0 [] none = .ok response ∧
      response.rows.length = 1 := by
  have hblobs : (([{ id := 2, path := "images/a.webp" }] : List BlobRow).map BlobRow.id).Nodup :=
    List.nodup_singleton 2
  have hdb (sql : Sql) :
      (oneUserDatabase sql [{ id := 2, path := "images/a.webp" }]).IsFor sql [oneUser]
        [{ id := 2, path := "images/a.webp" }] :=
    ⟨fun _ => rfl, fun stmt =>
      ⟨_, rfl, _, .refl _, (List.pairwise_singleton _ _).filter _, rfl⟩⟩
  obtain ⟨hok, hspec⟩ := getList_spec _ _ _ hblobs _ (hdb _) "http://a.b" 10 0 [] none
  obtain ⟨response, hresponse⟩ := hok.mpr ⟨⟨[], rfl⟩, fun _ h => absurd h (Option.not_mem_none _)⟩
  obtain ⟨conditions, _, hconditions, hcount, -, -, hlength⟩ := hspec response hresponse
  obtain rfl := Except.ok.inj hconditions
  exact ⟨response, hresponse, by rw [hlength, hcount]; rfl⟩

end UserOrmRepository

end ApiTemplate.Listing
