import ApiTemplate.Listing.Users
import Mathlib.Data.List.Dedup

/-!
# All pages of the users

A client that reads the list page by page sends one query for each page, and the database puts the
users in an order of its own for each of them. What the queries have in common is what `ordering`
says. If it tells any two of the users apart, the pages hold each of them once; if not, a page may
show a user again and none show another.
-/

namespace ApiTemplate.Listing

open Blob (BlobRow)
open Filtering (FilterContainer Item PyError Sql)
open Window (IsWindow Separates exists_pages_missing isWindow_map perm_of_separates window)

/-! ## The bounds of a page -/

def MIN_LIMIT : ℕ := 1

def MAX_LIMIT : ℕ := 300

/-- `Field(gt=api_const.MIN_LIMIT - 1, lt=api_const.MAX_LIMIT + 1)` -/
def ListQuery.admits (limit : ℕ) : Bool := MIN_LIMIT - 1 < limit && limit < MAX_LIMIT + 1

/-! ## Orders of users -/

/-- The values of each column are compared along some order of theirs. -/
def OrdersColumns (sql : Sql) : Prop :=
  ∀ field, Std.TransCmp fun u v : UserOrmModel =>
    compareValues sql (u.columns field) (v.columns field)

/-- The comparison that a query asks for. -/
def compareBy (sql : Sql) (ordering : List OrderingItem) (u v : UserOrmModel) : Ordering :=
  ordering.foldr (fun item rest => (item.compare sql u v).then rest) .eq

instance (sql : Sql) (ordering : List OrderingItem) (u v : UserOrmModel) :
    Decidable (Consistent sql ordering u v) :=
  inferInstanceAs (Decidable (_ ≠ _))

variable {sql : Sql} {ordering : List OrderingItem}

theorem OrdersColumns.item (h : OrdersColumns sql) (item : OrderingItem) :
    Std.TransCmp (item.compare sql) := by
  have hfield := h item.field
  obtain ⟨direction, field⟩ := item
  cases direction with
  | asc => exact hfield
  | desc =>
    -- the other way round
    have hswap : OrderingItem.compare sql ⟨.desc, field⟩ = fun u v : UserOrmModel =>
        compareValues sql (v.columns field) (u.columns field) :=
      funext fun u => funext fun v => hfield.eq_swap.symm
    rw [hswap]
    exact Std.TransCmp.opposite

theorem OrdersColumns.compareBy (h : OrdersColumns sql) (ordering : List OrderingItem) :
    Std.TransCmp (compareBy sql ordering) := by
  induction ordering with
  | nil => exact { eq_swap := rfl, isLE_trans := fun _ _ => rfl }
  | cons item rest ih =>
    have hitem := h.item item
    show Std.TransCmp (compareLex (item.compare sql) (Listing.compareBy sql rest))
    infer_instance

theorem consistent_iff {u v : UserOrmModel} :
    Consistent sql ordering u v ↔ (compareBy sql ordering u v).isLE = true :=
  Ordering.isLE_iff_ne_gt.symm

theorem OrdersColumns.consistent_trans (h : OrdersColumns sql) (u v w : UserOrmModel)
    (huv : Consistent sql ordering u v) (hvw : Consistent sql ordering v w) :
    Consistent sql ordering u w := by
  rw [consistent_iff] at huv hvw ⊢
  exact (h.compareBy ordering).isLE_trans huv hvw

theorem OrdersColumns.consistent_total (h : OrdersColumns sql) (u v : UserOrmModel) :
    Consistent sql ordering u v ∨ Consistent sql ordering v u := by
  have hswap := (h.compareBy ordering).eq_swap (a := u) (b := v)
  rw [consistent_iff, consistent_iff, hswap]
  cases Listing.compareBy sql ordering v u with
  | lt => exact .inr rfl
  | eq => exact .inl rfl
  | gt => exact .inl rfl

theorem OrdersColumns.compareBy_eq (h : OrdersColumns sql) {u v : UserOrmModel}
    (huv : Consistent sql ordering u v) (hvu : Consistent sql ordering v u) :
    Listing.compareBy sql ordering u v = .eq := by
  have hordering := h.compareBy ordering
  exact Std.OrientedCmp.isLE_antisymm (consistent_iff.mp huv) (consistent_iff.mp hvu)

/-- Users that are not told apart are alike in every field of the ordering. -/
theorem compare_of_compareBy {u v : UserOrmModel} (h : compareBy sql ordering u v = .eq)
    {item : OrderingItem} (hitem : item ∈ ordering) : item.compare sql u v = .eq := by
  induction ordering with
  | nil => exact absurd hitem List.not_mem_nil
  | cons first rest ih =>
    obtain ⟨hfirst, hrest⟩ := Ordering.then_eq_eq.mp h
    rcases List.mem_cons.mp hitem with rfl | hitem
    · exact hfirst
    · exact ih hrest hitem

theorem compareValues_of_compare {u v : UserOrmModel} {item : OrderingItem}
    (h : item.compare sql u v = .eq) :
    compareValues sql (u.columns item.field) (v.columns item.field) = .eq := by
  obtain ⟨direction, field⟩ := item
  cases direction with
  | asc => exact h
  | desc => exact Ordering.swap_eq_eq.mp h

/-- An ordering by the address, whatever comes before it, tells all users apart. -/
theorem separates_of_email (h : OrdersColumns sql)
    (hcmp : ∀ s t, (sql.cmp (Column.text s) (Column.text t)).getD .eq = .eq → s = t)
    {users : List UserOrmModel} (hemails : (users.map fun u => u.email).Nodup)
    {item : OrderingItem} (hitem : item ∈ ordering) (hfield : item.field = "email") :
    Separates (Consistent sql ordering) users := by
  intro u hu v hv huv hvu
  have hvalues := compareValues_of_compare (compare_of_compareBy (h.compareBy_eq huv hvu) hitem)
  rw [hfield] at hvalues
  exact List.inj_on_of_nodup_map hemails hu hv (hcmp _ _ hvalues)

/-- Users in an order that the query allows. -/
def sorted (sql : Sql) (ordering : List OrderingItem) (users : List UserOrmModel) :
    List UserOrmModel :=
  users.mergeSort fun u v => Consistent sql ordering u v

theorem sorted_perm (users : List UserOrmModel) : (sorted sql ordering users).Perm users :=
  List.mergeSort_perm _ _

theorem OrdersColumns.pairwise_sorted (h : OrdersColumns sql) (users : List UserOrmModel) :
    (sorted sql ordering users).Pairwise (Consistent sql ordering) := by
  have hsorted : (sorted sql ordering users).Pairwise fun u v =>
      decide (Consistent sql ordering u v) = true :=
    List.pairwise_mergeSort
      (fun u v w huv hvw => decide_eq_true
        (h.consistent_trans u v w (of_decide_eq_true huv) (of_decide_eq_true hvw)))
      (fun u v => by simpa using h.consistent_total u v) users
  exact hsorted.imp of_decide_eq_true

/-! ## Databases -/

namespace UserOrmRepository

variable {users : List UserOrmModel} {blobs : List BlobRow}

/-- A database that answers with some pages of users. -/
def databaseOf (sql : Sql) (users : List UserOrmModel) (blobs : List BlobRow)
    (page : UserStatement → List UserOrmModel) : UserDatabase where
  count conditions := (users.filter (satisfies sql conditions)).length
  rows stmt := (page stmt).map fun u => .ofJoined (u, avatar blobs u)

theorem isFor_databaseOf (hblobs : (blobs.map BlobRow.id).Nodup)
    {page : UserStatement → List UserOrmModel}
    (hpage : ∀ stmt, IsWindow (Consistent sql stmt.ordering) (some stmt.limit) stmt.offset
      (users.filter (satisfies sql stmt.conditions)) (page stmt)) :
    (databaseOf sql users blobs page).IsFor sql users blobs where
  count _ := rfl
  rows stmt := by
    refine ⟨(page stmt).map fun u => (u, avatar blobs u), ?_, ?_⟩
    · show (page stmt).map _ = _
      rw [List.map_map]
      rfl
    · rw [outerJoin_isAvatar hblobs, List.filter_map]
      exact (isWindow_map (g := Prod.fst) fun _ => rfl).mpr ⟨_, hpage stmt, rfl⟩

/-- The pages of one order of the users. -/
def sortedPage (sql : Sql) (users : List UserOrmModel) (stmt : UserStatement) :
    List UserOrmModel :=
  window (some stmt.limit) stmt.offset
    (sorted sql stmt.ordering (users.filter (satisfies sql stmt.conditions)))

theorem isWindow_sortedPage (h : OrdersColumns sql) (stmt : UserStatement) :
    IsWindow (Consistent sql stmt.ordering) (some stmt.limit) stmt.offset
      (users.filter (satisfies sql stmt.conditions)) (sortedPage sql users stmt) :=
  ⟨_, sorted_perm _, h.pairwise_sorted _, rfl⟩

/-! ## All pages -/

variable {baseUrl : String} {filters : List FilterContainer}
  {container : Option OrderingContainer} {conditions : List Filtering.Predicate}

theorem getList_eq (baseUrl : String) (hconditions : compileFilters filters = .ok conditions)
    (hordering : parseOrdering container = .ok ordering) (db : UserDatabase) (limit offset : ℕ) :
    getList baseUrl db limit offset filters container =
      .ok ⟨db.count conditions,
        (db.rows ⟨conditions, ordering, limit, offset⟩).map (toDTO baseUrl)⟩ :=
  getList_eq_ok.mpr ⟨conditions, ordering, hconditions, hordering, rfl⟩

theorem toListDTO_inj (hids : (users.map fun u => u.id).Nodup) {u v : UserOrmModel}
    (hu : u ∈ users) (hv : v ∈ users)
    (h : toListDTO baseUrl blobs u = toListDTO baseUrl blobs v) : u = v :=
  List.inj_on_of_nodup_map hids hu hv (congrArg UserListDTO.id h)

open Classical in
/-- The database answers the queries for pages of one user with some pages, and all others in one
order. -/
theorem exists_database (hsql : OrdersColumns sql) (hblobs : (blobs.map BlobRow.id).Nodup)
    {page : ℕ → List UserOrmModel}
    (hpage : ∀ i, IsWindow (Consistent sql ordering) (some 1) i
      (users.filter (satisfies sql conditions)) (page i)) :
    ∃ db : UserDatabase, db.IsFor sql users blobs ∧
      ∀ i, db.rows ⟨conditions, ordering, 1, i⟩ =
        (page i).map fun u => .ofJoined (u, avatar blobs u) := by
  let answer (stmt : UserStatement) : List UserOrmModel :=
    if stmt.conditions = conditions ∧ stmt.ordering = ordering ∧ stmt.limit = 1 then
      page stmt.offset
    else sortedPage sql users stmt
  refine ⟨databaseOf sql users blobs answer, isFor_databaseOf hblobs fun stmt => ?_, fun i => ?_⟩
  · by_cases hstmt : stmt.conditions = conditions ∧ stmt.ordering = ordering ∧ stmt.limit = 1
    · rw [show answer stmt = page stmt.offset from if_pos hstmt, hstmt.1, hstmt.2.1, hstmt.2.2]
      exact hpage stmt.offset
    · rw [show answer stmt = sortedPage sql users stmt from if_neg hstmt]
      exact isWindow_sortedPage hsql stmt
  · exact congrArg (List.map fun u => UserListRow.ofJoined (u, avatar blobs u))
      (if_pos ⟨rfl, rfl, rfl⟩)

/-- **One page after the other shows every user once, whatever the database does, if and only if the
ordering tells any two of the users apart.** -/
theorem pages_iff (sql : Sql) (hsql : OrdersColumns sql) (users : List UserOrmModel)
    (hids : (users.map fun u => u.id).Nodup) (blobs : List BlobRow)
    (hblobs : (blobs.map BlobRow.id).Nodup) (baseUrl : String) (filters : List FilterContainer)
    (container : Option OrderingContainer) (conditions : List Filtering.Predicate)
    (hconditions : compileFilters filters = .ok conditions) (ordering : List OrderingItem)
    (hordering : parseOrdering container = .ok ordering) :
    (∀ db : UserDatabase, db.IsFor sql users blobs → ∀ limit, ListQuery.admits limit = true →
      ∀ (k : ℕ) (pages : ℕ → ListQueryResponse UserListDTO),
        (∀ i, getList baseUrl db limit (i * limit) filters container = .ok (pages i)) →
        (pages 0).count ≤ k * limit →
        ((List.range k).flatMap fun i => (pages i).rows).Perm
          ((users.filter (satisfies sql conditions)).map (toListDTO baseUrl blobs))) ↔
      Separates (Consistent sql ordering) (users.filter (satisfies sql conditions)) := by
  constructor
  · intro h u hu v hv huv hvu
    by_contra hne
    have hnodup : (users.filter (satisfies sql conditions)).Nodup := hids.of_map.filter _
    obtain ⟨page, hpage, hmissing⟩ := exists_pages_missing hsql.consistent_trans hnodup
      (sorted_perm _) (hsql.pairwise_sorted _) hu hv huv hvu hne
    obtain ⟨db, hdb, hrows⟩ := exists_database hsql hblobs hpage
    have hperm := h db hdb 1 rfl (users.filter (satisfies sql conditions)).length _
      (fun i => getList_eq baseUrl hconditions hordering db 1 (i * 1))
      ((hdb.count conditions).trans (Nat.mul_one _).symm).le
    obtain ⟨i, -, hi⟩ := List.mem_flatMap.mp (hperm.mem_iff.mpr (List.mem_map_of_mem hv))
    rw [hrows, Nat.mul_one, List.map_map] at hi
    obtain ⟨w, hw, hdto⟩ := List.mem_map.mp hi
    obtain rfl : w = v :=
      toListDTO_inj hids (List.mem_filter.mp ((hpage i).mem hw)).1 (List.mem_filter.mp hv).1 hdto
    exact hmissing i hw
  · intro hsep db hdb limit _ k pages hpages hk
    have hpage : ∀ i, ∃ page, IsWindow (Consistent sql ordering) (some limit) (i * limit)
        (users.filter (satisfies sql conditions)) page ∧
          (pages i).rows = page.map (toListDTO baseUrl blobs) := fun i => by
      obtain ⟨page, hpage, hrows⟩ := exists_page hblobs hdb ⟨conditions, ordering, limit, i * limit⟩
      refine ⟨page, hpage, ?_⟩
      have hresponse := (hpages i).symm.trans (getList_eq baseUrl hconditions hordering db limit _)
      rw [Except.ok.inj hresponse, hrows, List.map_map]
      rfl
    choose page hpage hrows using hpage
    have hcount : (pages 0).count = (users.filter (satisfies sql conditions)).length := by
      have hresponse := (hpages 0).symm.trans (getList_eq baseUrl hconditions hordering db limit _)
      rw [Except.ok.inj hresponse]
      exact hdb.count conditions
    simp only [hrows]
    rw [← List.map_flatMap]
    exact (perm_of_separates hsep hpage (hcount ▸ hk)).1.map _

/-- A database that compares texts, and no other values. -/
def textSql : Sql where
  cmp a b := some (compareOn textOf a b)
  ilike _ _ := false
  handler _ _ _ := none
where
  textOf : Item → String
    | .scalar (.str s) => s
    | _ => ""

theorem ordersColumns_textSql : OrdersColumns textSql := by
  intro field
  have hcompare : (fun u v : UserOrmModel =>
      compareValues textSql (u.columns field) (v.columns field)) =
        compareLex (compareOn fun u : UserOrmModel => decide (u.columns field = .none))
          (compareOn fun u => textSql.textOf (u.columns field)) := by
    funext u v
    unfold compareValues compareLex compareOn
    by_cases hu : u.columns field = .none
    · by_cases hv : v.columns field = .none
      · simp [hu, hv]
      · simp [hu, hv]
        rfl
    · by_cases hv : v.columns field = .none
      · simp [hu, hv]
        rfl
      · simp [hu, hv]
        rfl
  rw [hcompare]
  infer_instance

/-- Two users in the order in which they registered. -/
def twoUsers : List UserOrmModel := [{ oneUser with id := 3, email := "c@b.c" }, oneUser]

/-- `?ordering=email` -/
def byEmail : OrderingContainer := ⟨[⟨.asc, "email"⟩]⟩

theorem parseOrdering_byEmail : parseOrdering (some byEmail) = .ok byEmail.items :=
  parseOrdering_eq_ok.mpr ⟨rfl, by decide⟩

theorem pages_byEmail :
    let db := databaseOf textSql twoUsers [] (sortedPage textSql twoUsers)
    ∃ pages : ℕ → ListQueryResponse UserListDTO,
      (∀ i, getList "http://a.b" db 1 (i * 1) [] (some byEmail) = .ok (pages i)) ∧
        ((List.range 2).flatMap fun i => (pages i).rows).Perm
          ((twoUsers.filter (satisfies textSql [])).map (toListDTO "http://a.b" [])) := by
  intro db
  have hblobs : (([] : List BlobRow).map BlobRow.id).Nodup := List.nodup_nil
  have hdb : db.IsFor textSql twoUsers [] :=
    isFor_databaseOf hblobs (isWindow_sortedPage ordersColumns_textSql)
  have hconditions : compileFilters [] = .ok [] := rfl
  have hpages := fun i =>
    getList_eq "http://a.b" hconditions parseOrdering_byEmail db 1 (i * 1)
  have hsep : Separates (Consistent textSql byEmail.items)
      (twoUsers.filter (satisfies textSql [])) :=
    separates_of_email ordersColumns_textSql (fun _ _ => Std.LawfulEqOrd.eq_of_compare)
      ((by decide : (twoUsers.map fun u => u.email).Nodup).sublist (List.filter_sublist.map _))
      List.mem_cons_self rfl
  refine ⟨_, hpages, ?_⟩
  exact (pages_iff textSql ordersColumns_textSql twoUsers (by decide) [] hblobs
    "http://a.b" [] (some byEmail) [] rfl byEmail.items parseOrdering_byEmail).mpr hsep db hdb 1 rfl
    2 _ hpages (List.length_filter_le _ _)

end UserOrmRepository

end ApiTemplate.Listing
