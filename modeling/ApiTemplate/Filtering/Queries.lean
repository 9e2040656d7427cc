import ApiTemplate.Filtering.Annotations
import ApiTemplate.Filtering.Totality
import Mathlib.Data.List.Forall2
import Mathlib.Data.List.Nodup

/-!
# Queries

A query model with all of its fields, its instances, and what the parser and the compiler make of an
instance. Every field that is present contributes one predicate of its own, which depends on the
field and its value alone.
-/

namespace ApiTemplate.Filtering

open Fallible FilterValidator SqlAlchemyFiltersCompiler

/-! ## Traversals of selected elements -/

section

variable {ε α β γ : Type} {c : α → Option β} {f : β → Except ε γ} {as : List α} {bs : List γ}

/-- A traversal of the selected elements relates them to the results, in order. -/
theorem mapM_filterMap_eq_ok_iff : (as.filterMap c).mapM f = .ok bs ↔
    List.Forall₂ (fun a b => ∃ x, c a = some x ∧ f x = .ok b) (as.filter fun a => (c a).isSome)
      bs := by
  induction as generalizing bs with
  | nil =>
    rw [List.filter_nil, List.forall₂_nil_left_iff]
    exact ⟨fun h => (Except.ok.inj h).symm, fun h => h ▸ rfl⟩
  | cons a as ih =>
    cases ha : c a with
    | none =>
      rw [List.filterMap_cons_none ha, List.filter_cons_of_neg (by simp [ha])]
      exact ih
    | some x =>
      rw [List.filterMap_cons_some ha, List.filter_cons_of_pos (by simp [ha]), mapM_cons,
        List.forall₂_cons_left_iff]
      simp only [bind_eq_ok, map_eq_ok, ih, ha, Option.some.injEq, exists_eq_left']
      constructor
      · rintro ⟨b, hb, bs', hbs', rfl⟩
        exact ⟨b, bs', hb, hbs', rfl⟩
      · rintro ⟨b, bs', hb, hbs', rfl⟩
        exact ⟨b, hb, bs', hbs', rfl⟩

/-- The selected elements with their results. -/
theorem zip_of_mapM (h : (as.filterMap c).mapM f = .ok bs) :
    (as.filter fun a => (c a).isSome).zip bs =
      as.filterMap fun a => (c a).bind fun x => (f x).toOption.map (Prod.mk a) := by
  induction as generalizing bs with
  | nil => rfl
  | cons a as ih =>
    cases ha : c a with
    | none =>
      rw [List.filterMap_cons_none ha] at h
      rw [List.filter_cons_of_neg (by simp [ha]), List.filterMap_cons_none (by simp [ha])]
      exact ih h
    | some x =>
      rw [List.filterMap_cons_some ha, mapM_cons] at h
      obtain ⟨b, hb, h⟩ := bind_eq_ok.mp h
      obtain ⟨bs', hbs', rfl⟩ := map_eq_ok.mp h
      have hpair : (c a).bind (fun x => (f x).toOption.map (Prod.mk a)) = some (a, b) := by
        rw [ha, Option.bind_some, hb]
        rfl
      rw [List.filter_cons_of_pos (by simp [ha]), List.zip_cons_cons, ih hbs']
      exact (List.filterMap_cons_some (f := fun a => (c a).bind fun x =>
        (f x).toOption.map (Prod.mk a)) hpair).symm

/-- A list without duplicates of which one element alone may be selected. -/
theorem filterMap_of_unique {a : α} (hnodup : as.Nodup) (ha : a ∈ as)
    (h : ∀ b ∈ as, b ≠ a → c b = none) : as.filterMap c = (c a).toList := by
  induction as with
  | nil => exact absurd ha List.not_mem_nil
  | cons b as ih =>
    obtain ⟨hb, hnodup⟩ := List.nodup_cons.mp hnodup
    by_cases hab : b = a
    · subst hab
      have hrest : as.filterMap c = [] := List.filterMap_eq_nil_iff.mpr fun x hx =>
        h x (List.mem_cons_of_mem b hx) fun hxb => hb (hxb ▸ hx)
      cases hc : c b with
      | none => rw [List.filterMap_cons_none hc, hrest, Option.toList_none]
      | some x => rw [List.filterMap_cons_some hc, hrest, Option.toList_some]
    · rw [List.filterMap_cons_none (h b (by simp) hab)]
      refine ih hnodup ?_ fun x hx => h x (List.mem_cons_of_mem b hx)
      exact (List.mem_cons.mp ha).resolve_left fun heq => hab heq.symm

end

/-! ## Query models -/

/-- A query model, with its `model_fields` in order and their annotations. -/
structure QueryModel where
  modelFields : List (String × Annotation)
  distinct : (modelFields.map Prod.fst).Nodup

/-- An instance, by the names of its fields. -/
abbrev Instance : Type := String → Value

/-- The instance with the value of the field alone. -/
def Instance.only (q : Instance) (name : String) : Instance :=
  fun other => if other = name then q other else .none

namespace QueryModel

/-- The filter fields, as the metaclass leaves them. -/
def filterFields (model : QueryModel) : List FilterField :=
  model.modelFields.filterMap fun field => FilterMeta.rewrite field.1 field.2

/-- `PydanticFilterParser.parse` -/
def parse (model : QueryModel) (q : Instance) : List FilterContainer :=
  model.filterFields.filterMap fun f => parseField f.spec f.name (q f.name)

end QueryModel

/-- The value is no constraint. -/
def FilterField.Absent (field : FilterField) (v : Value) : Prop :=
  v = .none ∨ ((field.spec.lookup = .json ∨ field.spec.lookup = .in) ∧ elements v = some [])

instance (field : FilterField) (v : Value) : Decidable (field.Absent v) := by
  unfold FilterField.Absent
  infer_instance

namespace QueryModel

/-- The filter fields whose values are not absent, in order. -/
def present (model : QueryModel) (q : Instance) : List FilterField :=
  model.filterFields.filter fun f => ¬ f.Absent (q f.name)

/-- The instance is compiled, and the row satisfies all of its predicates. -/
def Selects (model : QueryModel) (compiler : SqlAlchemyFiltersCompiler) (sql : Sql) (q : Instance)
    (row : Row) : Prop :=
  ∃ ps, compiler.compile none (model.parse q) = .ok ps ∧ ∀ p ∈ ps, sql.selects p row

/-- Every filter field has a value that it accepts, or its default. -/
def Valid (model : QueryModel) (env : Env) (q : Instance) : Prop :=
  ∀ f ∈ model.filterFields, (∃ raw, f.validate env raw = .ok (q f.name)) ∨
    (f.spec.required = false ∧ q f.name = .none)

/-- The compiler has what the filter fields need: their columns, their handlers for JSON, and for a
search the column `name`. -/
def Served (model : QueryModel) (compiler : SqlAlchemyFiltersCompiler) : Prop :=
  ∀ f ∈ model.filterFields, f.spec.lookup ≠ .search ∧ (∃ field, compiler.Covers f.spec field) ∧
    ¬ (f.spec.lookup = .eq ∧ compiler.Nameless f.spec)

end QueryModel

/-! ## Fields -/

section

variable {model : QueryModel} {f g : FilterField} {q : Instance} {v : Value}

/-- What a field contributes: its container, unless the compiler skips it. -/
def FilterField.constraint (field : FilterField) (v : Value) : Option FilterContainer :=
  (parseField field.spec field.name v).filter fun container => !isAbsent container

theorem FilterField.constraint_isSome : (f.constraint v).isSome = true ↔ ¬ f.Absent v := by
  unfold constraint parseField Absent
  by_cases hv : v = .none
  · simp [hv]
  · cases f.spec.lookup <;> simp [hv, isAbsent]

theorem FilterField.constraint_none : f.constraint .none = none := rfl

theorem name_of_rewrite {name : String} { annotation : Annotation}
    (h : FilterMeta.rewrite name annotation = some f) : f.name = name := by
  obtain ⟨s, hs, hfield⟩ := Option.map_eq_some_iff.mp h
  rw [← hfield]
  cases annotation <;> rfl

theorem map_name_filterFields (fields : List (String × Annotation)) :
    ((fields.filterMap fun field => FilterMeta.rewrite field.1 field.2).map
      FilterField.name).Sublist (fields.map Prod.fst) := by
  induction fields with
  | nil => exact .slnil
  | cons field fields ih =>
    cases h : FilterMeta.rewrite field.1 field.2 with
    | none =>
      simp only [List.filterMap_cons, h]
      exact ih.cons field.1
    | some f =>
      simp only [List.filterMap_cons, h, List.map_cons, name_of_rewrite h]
      exact ih.cons_cons field.1

/-- The filter fields of a model have different names. -/
theorem filterFields_names_nodup (model : QueryModel) :
    (model.filterFields.map FilterField.name).Nodup :=
  (map_name_filterFields model.modelFields).nodup model.distinct

end

/-! ## Compilation by fields -/

section

variable {model : QueryModel} {compiler : SqlAlchemyFiltersCompiler} {f g : FilterField}
  {q q' : Instance} {ps : List Predicate} {p : Predicate}

theorem present_eq (model : QueryModel) (q : Instance) :
    model.present q = model.filterFields.filter fun f => (f.constraint (q f.name)).isSome :=
  List.filter_congr fun f _ => by
    rw [Bool.eq_iff_iff, decide_eq_true_iff, FilterField.constraint_isSome]

theorem compile_parse (model : QueryModel) (compiler : SqlAlchemyFiltersCompiler) (q : Instance) :
    compiler.compile none (model.parse q) =
      (model.filterFields.filterMap fun f => f.constraint (q f.name)).mapM
        (compiler.compileOne none) := by
  unfold compile QueryModel.parse
  rw [List.filter_filterMap]
  rfl

theorem constraint_only (hf : f ∈ model.filterFields) :
    (model.filterFields.filterMap fun g => g.constraint (q.only f.name g.name)) =
      (f.constraint (q f.name)).toList := by
  have hnames := filterFields_names_nodup model
  rw [filterMap_of_unique (hnames.of_map _) hf]
  · simp only [Instance.only, if_true]
  · intro g hg hne
    have hname : g.name ≠ f.name := fun h => hne (List.inj_on_of_nodup_map hnames hg hf h)
    simp only [Instance.only, if_neg hname, FilterField.constraint_none]

/-- The field alone is compiled to its own predicate. -/
theorem compile_only_iff (hf : f ∈ model.filterFields) :
    compiler.compile none (model.parse (q.only f.name)) = .ok [p] ↔
      ∃ x, f.constraint (q f.name) = some x ∧ compiler.compileOne none x = .ok p := by
  rw [compile_parse, constraint_only hf]
  cases f.constraint (q f.name) with
  | none => simp [pure, Except.pure]
  | some x =>
    rw [Option.toList_some, mapM_cons]
    simp only [bind_eq_ok, map_eq_ok, Option.some.injEq, exists_eq_left']
    constructor
    · rintro ⟨b, hb, bs, -, h⟩
      rw [← (List.cons.inj h).1]
      exact hb
    · intro h
      exact ⟨p, h, [], rfl, rfl⟩

theorem compile_iff_forall₂ : compiler.compile none (model.parse q) = .ok ps ↔
    List.Forall₂ (fun f p => compiler.compile none (model.parse (q.only f.name)) = .ok [p])
      (model.present q) ps := by
  rw [compile_parse, mapM_filterMap_eq_ok_iff, ← present_eq]
  have hfields : ∀ f ∈ model.present q, f ∈ model.filterFields := fun f hf =>
    List.mem_of_mem_filter hf
  generalize model.present q = fs at hfields
  constructor
  · intro h
    induction h with
    | nil => exact .nil
    | cons hp _ ih =>
      obtain ⟨hf, hfields⟩ := List.forall_mem_cons.mp hfields
      exact .cons ((compile_only_iff hf).mpr hp) (ih hfields)
  · intro h
    induction h with
    | nil => exact .nil
    | cons hp _ ih =>
      obtain ⟨hf, hfields⟩ := List.forall_mem_cons.mp hfields
      exact .cons ((compile_only_iff hf).mp hp) (ih hfields)

/-- The rows of a query are those of all its fields. -/
theorem selects_iff {sql : Sql} {row : Row} (h : compiler.compile none (model.parse q) = .ok ps) :
    (∀ p ∈ ps, sql.selects p row) ↔
      ∀ f ∈ model.present q, model.Selects compiler sql (q.only f.name) row := by
  have hall := compile_iff_forall₂.mp h
  clear h
  generalize model.present q = fs at hall
  induction hall with
  | nil => simp
  | @cons f p fs ps hp _ ih =>
    have hone : model.Selects compiler sql (q.only f.name) row ↔ sql.selects p row := by
      constructor
      · rintro ⟨ps', hps', hsatisfied⟩
        obtain rfl := Except.ok.inj (hps'.symm.trans hp)
        exact hsatisfied p (by simp)
      · intro hsatisfied
        exact ⟨[p], hp, by simpa using hsatisfied⟩
    rw [List.forall_mem_cons, List.forall_mem_cons, hone]
    exact and_congr_right fun _ => ih

/-- The predicates of the fields that have the same value in both instances. -/
theorem frame {ps' : List Predicate} (keep : FilterField → Bool)
    (hsame : ∀ f, keep f = true → q f.name = q' f.name)
    (h : compiler.compile none (model.parse q) = .ok ps)
    (h' : compiler.compile none (model.parse q') = .ok ps') :
    ((model.present q).zip ps).filter (keep ·.1) =
      ((model.present q').zip ps').filter (keep ·.1) := by
  rw [compile_parse] at h h'
  rw [present_eq, present_eq, zip_of_mapM h, zip_of_mapM h', List.filter_filterMap,
    List.filter_filterMap]
  refine List.filterMap_congr fun f _ => ?_
  cases hkeep : keep f with
  | true => rw [hsame f hkeep]
  | false =>
    have hnone : ∀ o : Option FilterContainer, Option.filter (fun pair : FilterField × Predicate =>
        keep pair.1) (o.bind fun x => (compiler.compileOne none x).toOption.map (Prod.mk f)) =
          none := by
      intro o
      rw [Option.filter_eq_none_iff]
      intro pair hpair
      obtain ⟨x, -, hx⟩ := Option.bind_eq_some_iff.mp hpair
      obtain ⟨p, -, rfl⟩ := Option.map_eq_some_iff.mp hx
      simp [hkeep]
    rw [hnone, hnone]

end

/-! ## Valid instances -/

section

variable {env : Env} {compiler : SqlAlchemyFiltersCompiler} {model : QueryModel}
  {f : FilterField} {q : Instance} {raw v : Value}

/-- The shape of what a field accepts. -/
theorem shape_of_validate (h : f.validate env raw = .ok v) (hv : v ≠ .none) :
    (f.spec.lookup = .range → ∃ lo hi, v = .tuple [lo, hi] ∧ (lo ≠ .none ∨ hi ≠ .none)) ∧
      (f.spec.lookup = .in → ∃ items, v = .tuple items) := by
  unfold FilterField.validate at h
  split at h
  · exact absurd (Except.ok.inj h).symm hv
  obtain ⟨w, hw, h⟩ := bind_eq_ok.mp h
  obtain ⟨⟨⟩, hok, h⟩ := bind_eq_ok.mp h
  rw [inSchema_eq_ok_iff] at hok
  obtain rfl := Except.ok.inj h
  unfold FilterField.valueSchema at hw
  constructor
  · intro hl
    simp only [hl] at hw
    obtain ⟨a, b, lo, hi, -, -, -, rfl⟩ := tuplePair_eq_ok_iff.mp hw
    refine ⟨lo, hi, rfl, ?_⟩
    unfold FilterValidator.validate at hok
    split at hok
    · cases hok
    simp only [hl] at hok
    by_contra hno
    obtain ⟨e, he, -⟩ := validateRange_of_not_present fun hpresent : Present f.spec lo hi =>
      hno hpresent.1
    rw [hok] at he
    cases he
  · intro hl
    simp only [hl] at hw
    obtain ⟨raws, items, -, -, rfl⟩ := tupleVariable_eq_ok_iff.mp hw
    exact ⟨items, rfl⟩

/-- What a valid field contributes is compiled. -/
theorem constraint_compiles (hserved : model.Served compiler) (hvalid : model.Valid env q)
    (hf : f ∈ model.filterFields) {x : FilterContainer}
    (hx : f.constraint (q f.name) = some x) : ∃ p, compiler.compileOne none x = .ok p := by
  obtain ⟨hlookup, ⟨field, hcovers⟩, hsearch⟩ := hserved f hf
  have hpresent : q f.name ≠ .none := by
    intro hnone
    rw [hnone, FilterField.constraint_none] at hx
    cases hx
  have hcontainer : x = { value := q f.name, lookup := f.spec.lookup, field } := by
    have hparse := (Option.filter_eq_some_iff.mp hx).1
    rw [parseField, if_neg hpresent, containerField_of_covers hcovers] at hparse
    exact (Option.some.inj hparse).symm
  obtain ⟨raw, hraw⟩ := (hvalid f hf).resolve_right fun h => hpresent h.2
  obtain ⟨hrange, hin⟩ := shape_of_validate hraw hpresent
  rw [hcontainer]
  exact (compileOne_eq_ok_iff hlookup hcovers hrange hin).mpr hsearch

theorem compile_of_valid (hserved : model.Served compiler) (hvalid : model.Valid env q) :
    ∃ ps, compiler.compile none (model.parse q) = .ok ps := by
  rw [compile_parse, exists_mapM_ok_iff]
  intro x hx
  obtain ⟨f, hf, hfx⟩ := List.mem_filterMap.mp hx
  exact constraint_compiles hserved hvalid hf hfx

end

/-- **A query is compiled field by field**: the valid instances of a model that the compiler serves
are compiled, to one predicate for every field that is present, in order, which is the predicate of
the field alone; the rows selected are those that every present field selects alone; and another
value of one field changes no predicate of another field. -/
theorem compile_parse_fieldwise (model : QueryModel) (compiler : SqlAlchemyFiltersCompiler)
    (q : Instance) :
    (∀ env, model.Served compiler → model.Valid env q →
      ∃ ps, compiler.compile none (model.parse q) = .ok ps) ∧
    (∀ ps, compiler.compile none (model.parse q) = .ok ps ↔
      List.Forall₂ (fun f p => compiler.compile none (model.parse (q.only f.name)) = .ok [p])
        (model.present q) ps) ∧
    (∀ ps sql row, compiler.compile none (model.parse q) = .ok ps →
      ((∀ p ∈ ps, sql.selects p row) ↔
        ∀ f ∈ model.present q, model.Selects compiler sql (q.only f.name) row)) ∧
    ∀ (name : String) (v : Value) ps ps', compiler.compile none (model.parse q) = .ok ps →
      compiler.compile none (model.parse (Function.update q name v)) = .ok ps' →
      ((model.present q).zip ps).filter (·.1.name ≠ name) =
        ((model.present (Function.update q name v)).zip ps').filter (·.1.name ≠ name) := by
  refine ⟨fun env => compile_of_valid, fun ps => compile_iff_forall₂,
    fun ps sql row => selects_iff, fun name v ps ps' h h' => ?_⟩
  refine frame (fun f => f.name ≠ name) (fun f hne => ?_) h h'
  exact (Function.update_of_ne (of_decide_eq_true hne) v q).symm

/-! ## A query over amounts -/

/-- `amount` and `amount__rn`, which share a column, and `title`. -/
def invoiceQuery : QueryModel where
  modelFields := [("amount", .annotated (.type .int) [.spec { baseType := .int }]),
    ("page", .type .int),
    ("amount__rn", .spec { baseType := .int, lookup := .range }),
    ("title", .annotated ATSearch [.spec stringSpec])]
  distinct := by decide

def invoiceCompiler : SqlAlchemyFiltersCompiler where
  model := "Invoice"
  columns := ["amount", "title"]

/-- Both filters of the amount, and no title. -/
def invoiceInstance : Instance := fun name =>
  if name = "amount" then .item (.scalar (.int 5))
  else if name = "amount__rn" then .tuple [.scalar (.int 1), .none]
  else .none

theorem invoiceQuery_served : invoiceQuery.Served invoiceCompiler := by
  have hfields : ∀ f ∈ invoiceQuery.filterFields, f.spec.lookup ≠ .search ∧
      f.spec.lookup ≠ .json ∧ f.spec.field = some (containerField f.spec f.name) ∧
      containerField f.spec f.name ∈ invoiceCompiler.columns := by decide
  intro f hf
  obtain ⟨hsearch, hjson, hfield, hcolumn⟩ := hfields f hf
  refine ⟨hsearch, ⟨_, hfield, List.not_mem_nil, fun _ => hcolumn, fun h => absurd h hjson, ?_⟩, ?_⟩
  · intro hempty
    rw [hempty] at hcolumn
    exact absurd hcolumn (by decide)
  · rintro ⟨-, hname, -⟩
    rw [Option.some.inj (hfield.symm.trans hname)] at hcolumn
    exact absurd hcolumn (by decide)

theorem invoiceInstance_valid : invoiceQuery.Valid instancesEnv invoiceInstance := by
  have hfields : ∀ f ∈ invoiceQuery.filterFields,
      f.validate instancesEnv (invoiceInstance f.name) = .ok (invoiceInstance f.name) := by decide
  exact fun f hf => .inl ⟨_, hfields f hf⟩

/-- Both filters of the amount are compiled. -/
theorem compile_parse_invoices : ∃ ps,
    invoiceCompiler.compile none (invoiceQuery.parse invoiceInstance) = .ok ps :=
  (compile_parse_fieldwise invoiceQuery invoiceCompiler invoiceInstance).1 instancesEnv
    invoiceQuery_served invoiceInstance_valid

example : invoiceCompiler.compile none (invoiceQuery.parse invoiceInstance) =
    .ok [.eq "amount" (.item (.scalar (.int 5))), .ge "amount" (.item (.scalar (.int 1)))] := by
  rfl

end ApiTemplate.Filtering
