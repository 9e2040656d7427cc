import ApiTemplate.Listing.Repository

/-!
# Pages of the base repository

`filter` counts the rows of the page itself where the page is full, and none where it is past the
end. `filter_by`, `filter` and `filter_exists` do not agree on which arguments make a condition, nor
on when the limit applies.
-/

namespace ApiTemplate.Listing

open Filtering (Item Row)
open Fallible (bind_eq_ok mapM_ok)
open Window (IsWindow Unordered window isWindow_unordered isWindow_perm_iff exists_isWindow_mem)

/-- A database that compares values by equality, and an object that is true. -/
def Engine.plain : Engine where
  sql := { cmp := fun a b => if a = b then some .eq else some .lt, ilike := fun _ _ => false,
           handler := fun _ _ _ => none }
  truth := fun _ => true
  str := fun _ => ""
  ilike := fun _ _ => false

theorem Database.stored_isFor (E : Engine) (table : List Row) :
    (Database.stored E table).IsFor E table :=
  fun _ => isWindow_unordered rfl

/-- Another answer to one statement. -/
theorem Database.IsFor.update {E : Engine} {db : Database} {table page : List Row}
    (hdb : db.IsFor E table) (stmt : Select)
    (hpage : IsWindow Unordered stmt.limit stmt.offset (E.matching stmt.clauses table) page) :
    Database.IsFor E table (Function.update db stmt page) := by
  intro other
  by_cases hother : other = stmt
  · subst hother
    rwa [Function.update_self]
  · rw [Function.update_of_ne hother]
    exact hdb other

namespace SqlAlchemyRepository

variable {self : SqlAlchemyRepository} {E : Engine} {db : Database} {table : List Row}
  {search filters : Kwargs} {limit offset : ℕ}

/-! ## The answer of `filter` -/

variable (self E search filters) in
/-- The model has the attributes of the conditions, and there is a condition unless there is no
argument at all. -/
def Answerable : Prop :=
  self.Known (effective E filters) ∧ self.Known (effective E search) ∧
    (filters = [] ∧ search = [] ∨ conditions E search filters ≠ [])

/-- The count that goes with a page. -/
def countOf (limit : Option ℕ) (offset : ℕ) (page : List Row) : ℕ :=
  if some page.length = limit then page.length
  else if page.length > 0 then offset + page.length
  else 0

theorem filterSelect_eq_ok {limit : Option ℕ} {stmt : Select} :
    self.filterSelect E limit offset search filters = .ok stmt ↔
      self.Answerable E search filters ∧
        stmt = { clauses := conditions E search filters, limit, offset } := by
  unfold filterSelect Answerable
  by_cases hnone : filters = [] ∧ search = []
  · obtain ⟨rfl, rfl⟩ := hnone
    have hknown : self.Known (effective E []) := fun arg harg => absurd harg List.not_mem_nil
    rw [if_pos ⟨rfl, rfl⟩]
    constructor
    · intro h
      exact ⟨⟨hknown, hknown, .inl ⟨rfl, rfl⟩⟩, (Except.ok.inj h).symm⟩
    · rintro ⟨-, rfl⟩
      rfl
  · rw [if_neg hnone, bind_eq_ok]
    simp only [parseToStatement_eq_ok, hnone, false_or]
    constructor
    · rintro ⟨_, ⟨hfilters, hsearch, rfl⟩, hstmt⟩
      by_cases hconditions : conditions E search filters = []
      · rw [if_pos hconditions] at hstmt
        cases hstmt
      · rw [if_neg hconditions] at hstmt
        exact ⟨⟨hfilters, hsearch, hconditions⟩, (Except.ok.inj hstmt).symm⟩
    · rintro ⟨⟨hfilters, hsearch, hconditions⟩, rfl⟩
      refine ⟨_, ⟨hfilters, hsearch, rfl⟩, ?_⟩
      rw [if_neg hconditions]
      rfl

theorem filter_eq_ok {limit : Option ℕ} {needCount : Bool} {answer : List Row × Option ℕ} :
    self.filter E db limit offset search needCount filters = .ok answer ↔
      self.Answerable E search filters ∧
        answer = (db { clauses := conditions E search filters, limit, offset },
          if needCount then some (countOf limit offset
            (db { clauses := conditions E search filters, limit, offset })) else none) := by
  have hcount (stmt : Select) : (if !needCount then pure (db stmt, none)
      else if some (db stmt).length = limit then pure (db stmt, some (getCount db stmt))
      else if (db stmt).length > 0 then pure (db stmt, some (offset + (db stmt).length))
      else pure (db stmt, some 0) : Except RepositoryError (List Row × Option ℕ)) =
      .ok (db stmt, if needCount then some (countOf limit offset (db stmt)) else none) := by
    cases needCount with
    | false => rfl
    | true =>
      rw [if_neg (by decide), if_pos rfl]
      unfold countOf getCount
      split_ifs <;> rfl
  unfold filter
  rw [bind_eq_ok]
  simp only [filterSelect_eq_ok, hcount]
  constructor
  · rintro ⟨_, ⟨hanswerable, rfl⟩, hanswer⟩
    exact ⟨hanswerable, (Except.ok.inj hanswer).symm⟩
  · rintro ⟨hanswerable, rfl⟩
    exact ⟨_, ⟨hanswerable, rfl⟩, rfl⟩

/-! ## The total -/

variable (self E table search filters limit offset) in
/-- Whatever the database answers, the page is a window of the matching rows and the count is the
number of them all. -/
def CountsAll : Prop :=
  ∀ db : Database, db.IsFor E table → ∃ page,
    self.filter E db (some limit) offset search true filters =
        .ok (page, some (E.matching (conditions E search filters) table).length) ∧
      IsWindow Unordered (some limit) offset (E.matching (conditions E search filters) table) page

/-- The count of a page is the total if no row matches, on a partial last page, and on a full page
that is the only one. -/
theorem countOf_eq_iff {rows page : List Row}
    (h : IsWindow Unordered (some limit) offset rows page) :
    countOf (some limit) offset page = rows.length ↔
      rows.length = 0 ∨ offset < rows.length ∧ rows.length < offset + limit ∨
        offset = 0 ∧ rows.length = limit := by
  have hlength := h.length
  simp only [countOf, Option.some_inj]
  split_ifs with hfull hsome <;> omega

theorem countsAll_iff (self : SqlAlchemyRepository) (E : Engine) (table : List Row)
    (search filters : Kwargs) (limit offset : ℕ) :
    self.CountsAll E table search filters limit offset ↔
      self.Answerable E search filters ∧
        ((E.matching (conditions E search filters) table).length = 0 ∨
          offset < (E.matching (conditions E search filters) table).length ∧
            (E.matching (conditions E search filters) table).length < offset + limit ∨
          offset = 0 ∧ (E.matching (conditions E search filters) table).length = limit) := by
  constructor
  · intro h
    obtain ⟨page, hpage, hwindow⟩ := h _ (Database.stored_isFor E table)
    obtain ⟨hanswerable, hanswer⟩ := filter_eq_ok.mp hpage
    rw [Prod.mk.injEq, if_pos rfl, Option.some_inj] at hanswer
    obtain ⟨rfl, hcount⟩ := hanswer
    exact ⟨hanswerable, (countOf_eq_iff hwindow).mp hcount.symm⟩
  · rintro ⟨hanswerable, hcount⟩ db hdb
    have hwindow := hdb { clauses := conditions E search filters, limit := some limit, offset }
    refine ⟨_, filter_eq_ok.mpr ⟨hanswerable, ?_⟩, hwindow⟩
    rw [if_pos rfl, (countOf_eq_iff hwindow).mpr hcount]

/-- The first of two pages counts one row. -/
theorem not_countsAll_first_page : ¬ CountsAll ⟨["id"]⟩ .plain
    [fun _ => .scalar (.int 1), fun _ => .scalar (.int 2)] [] [] 1 0 := by
  intro h
  obtain ⟨page, hpage, -⟩ := h _ (Database.stored_isFor _ _)
  obtain ⟨-, hanswer⟩ := filter_eq_ok.mp hpage
  cases (Prod.mk.inj hanswer).2

/-! ## Equality filters -/

variable (E filters table) in
/-- The rows that satisfy every one of the filters. -/
def candidates : List Row := E.matching (equalities filters) table

variable (self E table filters limit offset) in
/-- Whatever the database answers, `filter_by` and `filter` answer with a window of the candidates,
and `filter_exists` tells if there are any. -/
def Agree (options : List String) : Prop :=
  ∀ db : Database, db.IsFor E table →
    (∃ page, self.filterBy db offset limit options filters = .ok page ∧
      IsWindow Unordered (some limit) offset (candidates E table filters) page) ∧
    (∃ page, self.filter E db (some limit) offset [] false filters = .ok (page, none) ∧
      IsWindow Unordered (some limit) offset (candidates E table filters) page) ∧
    self.filterExists E db [] filters = .ok (decide (candidates E table filters ≠ []))

theorem conditions_nil : conditions E [] filters = equalities (effective E filters) :=
  List.append_nil _

/-- With every filter given, the statement of `filter_by` has all of them. -/
theorem filterBy_eq (hknown : self.Known filters) (hne : filters ≠ [])
    (hgiven : ∀ arg ∈ filters, arg.2 ≠ .none) (options : List String) :
    self.filterBy db offset limit options filters =
      .ok (db (if options = [] then { clauses := equalities filters }
        else { clauses := equalities filters, options, limit := some limit, offset })) := by
  have hall : filters.filter (fun arg => arg.2 ≠ .none) = filters :=
    List.filter_eq_self.mpr fun arg harg => decide_eq_true (hgiven arg harg)
  have hequalities : equalities filters ≠ [] := fun h => hne (List.map_eq_nil_iff.mp h)
  have hclauses := (mapM_getattr (.keyError "Temp error.")
    (fun arg column => .equals column arg.2) filters (equalities filters)).mpr ⟨hknown, rfl⟩
  unfold filterBy
  rw [hall, hclauses]
  exact if_neg hequalities

theorem filterExists_eq (hknown : self.Known (effective E filters)) (hdb : db.IsFor E table)
    (hsome : effective E filters ≠ []) :
    self.filterExists E db [] filters =
      .ok (decide (candidates E table (effective E filters) ≠ [])) := by
  have hclauses : conditions E [] filters ≠ [] := by
    rw [conditions_nil]
    exact fun h => hsome (List.map_eq_nil_iff.mp h)
  have hparse : self.parseToStatement E [] filters =
      .ok (some { clauses := conditions E [] filters }) := parseToStatement_eq_ok.mpr
    ⟨hknown, fun arg harg => absurd harg List.not_mem_nil, (if_neg hclauses).symm⟩
  have hlength := (hdb { clauses := conditions E [] filters }).length_none
  unfold filterExists
  rw [hparse]
  refine congrArg Except.ok (decide_eq_decide.mpr ?_)
  rw [← List.length_pos_iff, ← List.length_pos_iff, hlength, Nat.sub_zero, conditions_nil]
  rfl

variable (E table filters) in
/-- The falsy filters narrow what the others select. -/
theorem candidates_eq_filter : candidates E table filters =
    (candidates E table (effective E filters)).filter
      fun row => (equalities filters).all (E.holds row) := by
  unfold candidates Engine.matching
  rw [List.filter_filter]
  refine List.filter_congr fun row _ => ?_
  rw [Bool.eq_iff_iff, Bool.and_eq_true, iff_self_and]
  intro h
  refine List.all_eq_true.mpr fun clause hclause => List.all_eq_true.mp h clause ?_
  exact List.map_subset _ (List.filter_subset_self _) hclause

/-- Without loader options `filter_by` answers with all of the candidates. -/
theorem filterBy_isWindow_iff (hknown : self.Known filters) (hne : filters ≠ [])
    (hgiven : ∀ arg ∈ filters, arg.2 ≠ .none) (hdb : db.IsFor E table) (options : List String) :
    (∃ page, self.filterBy db offset limit options filters = .ok page ∧
      IsWindow Unordered (some limit) offset (candidates E table filters) page) ↔
      options ≠ [] ∨ candidates E table filters = [] ∨
        offset = 0 ∧ (candidates E table filters).length ≤ limit := by
  rw [filterBy_eq hknown hne hgiven]
  simp only [Except.ok.injEq, exists_eq_left']
  by_cases hoptions : options = []
  · rw [if_pos hoptions, or_iff_right (not_not_intro hoptions)]
    refine isWindow_perm_iff ?_
    obtain ⟨order, hperm, -, hpage⟩ := hdb { clauses := equalities filters }
    rw [hpage]
    exact hperm
  · rw [if_neg hoptions]
    exact iff_of_true (hdb { clauses := equalities filters, options, limit := some limit, offset })
      (.inl hoptions)

/-- `filter` drops the falsy filters. -/
theorem filter_isWindow_iff (hknown : self.Known filters) (hne : filters ≠ []) :
    (∀ db : Database, db.IsFor E table → ∃ page,
      self.filter E db (some limit) offset [] false filters = .ok (page, none) ∧
        IsWindow Unordered (some limit) offset (candidates E table filters) page) ↔
      effective E filters ≠ [] ∧
        (candidates E table (effective E filters) = candidates E table filters ∨ limit = 0 ∨
          (candidates E table (effective E filters)).length ≤ offset) := by
  have hanswerable : self.Answerable E [] filters ↔ effective E filters ≠ [] := by
    have hconditions : conditions E [] filters ≠ [] ↔ effective E filters ≠ [] := by
      rw [conditions_nil]
      exact not_congr List.map_eq_nil_iff
    unfold Answerable
    rw [hconditions, or_iff_right fun h => hne h.1]
    refine ⟨fun h => h.2.2, fun h => ⟨fun arg harg => hknown arg (List.mem_of_mem_filter harg),
      fun arg harg => absurd harg List.not_mem_nil, h⟩⟩
  rw [candidates_eq_filter E table filters, ← Window.isWindow_filter_iff]
  constructor
  · intro h
    have heffective : effective E filters ≠ [] := by
      obtain ⟨page, hpage, -⟩ := h _ (Database.stored_isFor E table)
      exact hanswerable.mp (filter_eq_ok.mp hpage).1
    refine ⟨heffective, fun page hpage => ?_⟩
    -- the database may answer with any window
    rw [candidates, ← conditions_nil] at hpage
    have hdb := (Database.stored_isFor E table).update
      { clauses := conditions E [] filters, limit := some limit, offset } hpage
    obtain ⟨answer, hanswer, hwindow⟩ := h _ hdb
    rw [(Prod.mk.inj (filter_eq_ok.mp hanswer).2).1, Function.update_self] at hwindow
    exact hwindow
  · rintro ⟨heffective, hwindows⟩ db hdb
    refine ⟨_, filter_eq_ok.mpr ⟨hanswerable.mpr heffective, rfl⟩, hwindows _ ?_⟩
    rw [candidates, ← conditions_nil]
    exact hdb { clauses := conditions E [] filters, limit := some limit, offset }

theorem filterExists_eq_candidates_iff (hknown : self.Known filters) (hdb : db.IsFor E table)
    (hsome : effective E filters ≠ []) :
    self.filterExists E db [] filters = .ok (decide (candidates E table filters ≠ [])) ↔
      candidates E table (effective E filters) = [] ∨ candidates E table filters ≠ [] := by
  rw [filterExists_eq (fun arg harg => hknown arg (List.mem_of_mem_filter harg)) hdb hsome,
    Except.ok.injEq, decide_eq_decide]
  have hnone : candidates E table (effective E filters) = [] → candidates E table filters = [] := by
    intro h
    rw [candidates_eq_filter, h]
    rfl
  tauto

theorem agree_iff (self : SqlAlchemyRepository) (E : Engine) (table : List Row) (filters : Kwargs)
    (limit offset : ℕ) (options : List String) (hknown : self.Known filters) (hne : filters ≠ [])
    (hgiven : ∀ arg ∈ filters, arg.2 ≠ .none) :
    self.Agree E table filters limit offset options ↔
      (effective E filters ≠ [] ∧
        (candidates E table (effective E filters) = candidates E table filters ∨ limit = 0 ∨
          (candidates E table (effective E filters)).length ≤ offset)) ∧
      (candidates E table (effective E filters) = [] ∨ candidates E table filters ≠ []) ∧
      (options ≠ [] ∨ candidates E table filters = [] ∨
        offset = 0 ∧ (candidates E table filters).length ≤ limit) := by
  rw [← filter_isWindow_iff hknown hne]
  have hstored := Database.stored_isFor E table
  constructor
  · intro h
    have hfilter := fun db hdb => (h db hdb).2.1
    have heffective := ((filter_isWindow_iff hknown hne).mp hfilter).1
    exact ⟨hfilter, (filterExists_eq_candidates_iff hknown hstored heffective).mp (h _ hstored).2.2,
      (filterBy_isWindow_iff hknown hne hgiven hstored options).mp (h _ hstored).1⟩
  · rintro ⟨hfilter, hexists, hfilterBy⟩ db hdb
    have heffective := ((filter_isWindow_iff hknown hne).mp hfilter).1
    exact ⟨(filterBy_isWindow_iff hknown hne hgiven hdb options).mpr hfilterBy, hfilter db hdb,
      (filterExists_eq_candidates_iff hknown hdb heffective).mpr hexists⟩

/-- One filter that is true of the only row. -/
theorem agree_one :
    Agree ⟨["id"]⟩ .plain [fun _ => .scalar (.int 1)] [("id", .scalar (.int 1))] 1 0 [] :=
  (agree_iff _ _ _ _ _ _ _ (by decide) (by decide) (by decide)).mpr
    ⟨⟨by decide, .inl rfl⟩, .inr (List.cons_ne_nil _ _), .inr (.inr ⟨rfl, le_rfl⟩)⟩

/-- `active=False` is dropped by `filter` and `filter_exists`, so they find a row that is active. -/
theorem not_agree_false : ¬ Agree ⟨["id", "active"]⟩ .plain
    [fun column => if column = "id" then .scalar (.int 1) else .scalar (.bool true)]
    [("id", .scalar (.int 1)), ("active", .scalar (.bool false))] 10 0 ["profile"] := by
  intro h
  have hexists := (h _ (Database.stored_isFor _ _)).2.2
  rw [filterExists_eq_candidates_iff (by decide) (Database.stored_isFor _ _) (by decide)] at hexists
  rcases hexists with hnone | hsome
  · exact absurd hnone (List.cons_ne_nil _ _)
  · exact hsome rfl

end SqlAlchemyRepository

end ApiTemplate.Listing
