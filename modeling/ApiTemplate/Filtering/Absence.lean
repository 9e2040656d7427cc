import ApiTemplate.Filtering.Compiler

/-!
# Absent values

The validator and the compiler each decide which value of an `IN` or a `JSON` filter carries no
constraint. They agree on all values but the lists of nulls.
-/

namespace ApiTemplate.Filtering

open FilterValidator

/-- The validator takes the value for absent: it fails a required filter as a missing one, and
otherwise passes. -/
def TreatsAbsent (spec : FilterSpec) (value : Value) : Prop :=
  validate { spec with required := true } value =
      .error (.appException [requiredDetail spec]) ∧
    validate { spec with required := false } value = .ok ()

/-- The compiler skips the value. -/
def Skipped (spec : FilterSpec) (field : String) (value : Value) : Prop :=
  SqlAlchemyFiltersCompiler.isAbsent { value, lookup := spec.lookup, field } = true

/-! ## The checks do not depend on `required` -/

section

variable (spec : FilterSpec) (r r' : Bool)

theorem validateElements_required (seen duplicates items : List Item) :
    validateElements { spec with required := r } seen duplicates items =
      validateElements { spec with required := r' } seen duplicates items := by
  induction items generalizing seen duplicates with
  | nil => rfl
  | cons x items ih =>
    unfold validateElements
    simp only [ih]
    rfl

end

/-! ## Values the validator takes for absent -/

variable {spec : FilterSpec} {value : Value}

theorem treatsAbsent_of_absent
    (h : ∀ b, validate { spec with required := b } value = absent { spec with required := b }) :
    TreatsAbsent spec value :=
  ⟨(h true).trans rfl, (h false).trans rfl⟩

/-- A result that is the same for a required filter is no absence. -/
theorem not_treatsAbsent
    (h : validate { spec with required := true } value =
      validate { spec with required := false } value) : ¬ TreatsAbsent spec value := by
  rintro ⟨hreq, hopt⟩
  rw [h, hopt] at hreq
  cases hreq

theorem treatsAbsent_in_iff (hl : spec.lookup = .in) (hf : spec.field ≠ none) :
    TreatsAbsent spec value ↔
      value = .none ∨ ∃ items, elements value = some items ∧ ∀ x ∈ items, x = .none := by
  have hval : ∀ b, validate { spec with required := b } value =
      validateCollection { spec with required := b } value := fun b => by
    simp [validate, hl, hf]
  constructor
  · intro h
    by_contra hne
    rw [not_or] at hne
    obtain ⟨hsome, hall⟩ := hne
    refine not_treatsAbsent ?_ h
    rw [hval, hval]
    unfold validateCollection
    rw [if_neg hsome, if_neg hsome]
    cases he : elements value with
    | none => rfl
    | some items =>
      have hnull : ¬ (items.all (· = .none) = true) := by
        simp only [List.all_eq_true, decide_eq_true_eq]
        exact fun hitems => hall ⟨items, he, hitems⟩
      simp only [if_neg hnull]
      rw [validateElements_required spec true false]
      rfl
  · rintro (rfl | ⟨items, he, hitems⟩)
    · exact treatsAbsent_of_absent fun b => (hval b).trans rfl
    · refine treatsAbsent_of_absent fun b => (hval b).trans ?_
      have hnull : items.all (· = .none) = true := by simpa using hitems
      unfold validateCollection
      simp only [he, hnull, if_true, ite_self]

theorem treatsAbsent_json_iff (hl : spec.lookup = .json) (hf : spec.field ≠ none) :
    TreatsAbsent spec value ↔ value = .none ∨ elements value = some [] := by
  have hval : ∀ b, validate { spec with required := b } value =
      validateJson { spec with required := b } value := fun b => by
    simp [validate, hl, hf]
  constructor
  · intro h
    by_contra hne
    refine not_treatsAbsent ?_ h
    rw [hval, hval]
    unfold validateJson
    rw [if_neg hne, if_neg hne]
    rfl
  · intro h
    refine treatsAbsent_of_absent fun b => (hval b).trans ?_
    unfold validateJson
    exact if_pos h

/-! ## Values the compiler skips -/

theorem skipped_iff {field : String} (hl : spec.lookup = .in ∨ spec.lookup = .json) :
    Skipped spec field value ↔ value = .none ∨ elements value = some [] := by
  unfold Skipped SqlAlchemyFiltersCompiler.isAbsent
  rcases hl with hl | hl <;> simp [hl]

/-- Nothing is compiled from a value that is skipped. -/
theorem compile_skipped {field : String} (self : SqlAlchemyFiltersCompiler)
    (scope : Option String) {predicates : List Predicate} (hs : Skipped spec field value)
    (hc : self.compile scope [{ value, lookup := spec.lookup, field }] = .ok predicates) :
    predicates = [] := by
  unfold Skipped at hs
  unfold SqlAlchemyFiltersCompiler.compile at hc
  split at hc
  · cases hc
  · rw [List.filter_cons_of_neg (by simp [hs])] at hc
    injection hc with hc
    exact hc.symm

/-! ## Agreement -/

/-- The validator and the compiler classify the value alike, and a value that the validator takes
for absent excludes no row. -/
structure Agrees (spec : FilterSpec) (field : String) (value : Value) : Prop where
  absent_iff : TreatsAbsent spec value ↔ Skipped spec field value
  keeps : TreatsAbsent spec value → ∀ (compiler : SqlAlchemyFiltersCompiler)
    (scope : Option String) (predicates : List Predicate),
    compiler.compile scope [{ value, lookup := spec.lookup, field }] = .ok predicates →
    ∀ (sql : Sql) (row : Row), ∀ p ∈ predicates, sql.selects p row

theorem agrees_of_absent_iff {field : String}
    (h : TreatsAbsent spec value ↔ Skipped spec field value) : Agrees spec field value where
  absent_iff := h
  keeps habsent compiler scope predicates hc sql row p hp := by
    rw [compile_skipped compiler scope (h.mp habsent) hc] at hp
    exact absurd hp (List.not_mem_nil)

/-- **The two notions of absence agree on a value unless it is a list of nulls, and not an empty
one, of an `IN` filter.** -/
theorem agrees_iff (spec : FilterSpec) (field : String) (value : Value)
    (hl : spec.lookup = .in ∨ spec.lookup = .json) (hf : spec.field ≠ none) :
    Agrees spec field value ↔
      ¬ (spec.lookup = .in ∧
        ∃ items, elements value = some items ∧ items ≠ [] ∧ ∀ x ∈ items, x = .none) := by
  have hskip : Skipped spec field value ↔ _ := skipped_iff hl
  rcases hl with hl | hl
  · have habs : TreatsAbsent spec value ↔ _ := treatsAbsent_in_iff hl hf
    constructor
    · rintro ⟨hiff, -⟩ ⟨-, items, he, hne, hitems⟩
      rcases hskip.mp (hiff.mp (habs.mpr (.inr ⟨items, he, hitems⟩))) with rfl | hempty
      · cases he
      · rw [he] at hempty
        exact hne (Option.some.inj hempty)
    · intro hcond
      refine agrees_of_absent_iff (habs.trans (Iff.trans ?_ hskip.symm))
      refine or_congr_right ⟨?_, ?_⟩
      · rintro ⟨items, he, hitems⟩
        rcases eq_or_ne items [] with rfl | hne
        · exact he
        · exact absurd ⟨hl, items, he, hne, hitems⟩ hcond
      · intro he
        exact ⟨[], he, by simp⟩
  · refine iff_of_true ?_ (by simp [hl])
    exact agrees_of_absent_iff ((treatsAbsent_json_iff hl hf).trans hskip.symm)

/-- A filter for values of a column of integers. -/
def idsFilter : FilterSpec :=
  { baseType := .int, lookup := .in, field := some "id" }

theorem agrees_ids : Agrees idsFilter "id" (.tuple [.scalar (.int 1), .scalar (.int 2)]) :=
  (agrees_iff idsFilter "id" _ (.inl rfl) (by decide)).mpr <| by
    rintro ⟨-, items, he, -, hitems⟩
    cases he
    exact absurd (hitems (.scalar (.int 1)) (by simp)) (by decide)

/-- A request whose body has `[null]` for the filter passes the pipeline, and its predicate selects
no row, whatever the row and the database. -/
theorem nulls_not_agree : ∃ (env : Env) (spec : FilterSpec) (value : Value), env.Typed ∧
    (FilterSpec.collection (fun _ => none) .int .in false none).map (·.bind "id") = .ok spec ∧
    pipeline env spec (.list [.none]) = .ok value ∧
    (∃ p, SqlAlchemyFiltersCompiler.compile { model := "User", columns := ["id"] } none
        [{ value, lookup := spec.lookup, field := "id" }] = .ok [p] ∧
      ∀ (sql : Sql) (row : Row), ¬ sql.selects p row) ∧
    ¬ Agrees spec "id" value := by
  refine ⟨{ schema := fun _ _ => none, loads := fun _ => .ok .none, localToUtc := .ok },
    idsFilter, .tuple [.none], ?_, ?_, rfl, ⟨.in_ "id" [.none], rfl, ?_⟩, ?_⟩
  · rintro T raw x ⟨⟩
  · rfl
  · intro sql row h
    cases hrow : row "id" <;> simp [Sql.selects, Sql.eval, Sql.test, Sql.or3, hrow] at h
  · rintro ⟨hiff, -⟩
    have habs : TreatsAbsent idsFilter (.tuple [.none]) :=
      (treatsAbsent_in_iff rfl (by decide)).mpr (.inr ⟨[.none], rfl, by simp⟩)
    exact absurd ((skipped_iff (.inl rfl)).mp (hiff.mp habs)) (by decide)

end ApiTemplate.Filtering
