import ApiTemplate.Filtering.Compiler
import ApiTemplate.Filtering.Schemas
import ApiTemplate.Filtering.Validation

/-!
# Requests that end well

A filter ends well on a value if the pipeline accepts it or rejects it, and what it accepts is
compiled. For every specification a factory returns, the requests that end well are characterised by
what the values are: where a comparison can be made, what can be hashed, and which lookup it is.
-/

namespace ApiTemplate.Filtering

open Fallible FilterValidator

/-! ## Specifications of the factories -/

/-- What holds of the specifications that the factories return. -/
structure FilterSpec.Built (spec : FilterSpec) : Prop where
  lookup : spec.lookup ≠ .search
  lengths : spec.minLength ≠ none ∨ spec.maxLength ≠ none →
    spec.lookup = .json ∨ spec.baseType = .str
  collection : spec.lookup = .in → spec.all = [] ∧ spec.choices = none

theorem ensureScalarLookup_eq_ok {lookup : FilterLookupEnum} {u : Unit}
    (h : ensureScalarLookup lookup = .ok u) : lookup ≠ .search ∧ lookup ≠ .in := by
  cases lookup <;> simp [ensureScalarLookup, SCALAR_ALLOWED_LOOKUPS] at h ⊢

theorem built_of_build {parse : String → Option Numeral} {f : Factory} {spec : FilterSpec}
    (h : f.build parse = .ok spec) : spec.Built := by
  cases f with
  | numeric base field lookup required bounds choices =>
    simp only [Factory.build, FilterSpec.numeric, bind_eq_ok] at h
    obtain ⟨u, hlookup, b, -, cs, -, h⟩ := h
    obtain rfl := Except.ok.inj h
    obtain ⟨hs, hi⟩ := ensureScalarLookup_eq_ok hlookup
    exact ⟨hs, by simp, fun hin => absurd hin hi⟩
  | date field lookup required bounds | datetime field lookup required bounds =>
    simp only [Factory.build, FilterSpec.date, FilterSpec.datetime, bind_eq_ok] at h
    obtain ⟨u, hlookup, h⟩ := h
    obtain rfl := Except.ok.inj h
    obtain ⟨hs, hi⟩ := ensureScalarLookup_eq_ok hlookup
    exact ⟨hs, by simp, fun hin => absurd hin hi⟩
  | string field required minLength maxLength choices =>
    simp only [Factory.build, FilterSpec.string, bind_eq_ok] at h
    obtain ⟨cs, -, h⟩ := h
    obtain rfl := Except.ok.inj h
    exact ⟨by simp, by simp, by simp⟩
  | enum E field required choices =>
    obtain ⟨cs, -, rfl⟩ := map_eq_ok.mp h
    exact ⟨by simp, by simp, by simp⟩
  | numericRange base field required bothRequired bounds =>
    obtain ⟨b, -, h⟩ := bind_eq_ok.mp h
    obtain rfl := Except.ok.inj h
    exact ⟨by simp, by simp, by simp⟩
  | dateRange | datetimeRange | boolean | json =>
    obtain rfl := Except.ok.inj h
    constructor <;> simp [FilterSpec.dateRange, FilterSpec.datetimeRange, FilterSpec.boolean,
      FilterSpec.json]
  | collection base lookup required choices unique =>
    simp only [Factory.build, FilterSpec.collection] at h
    split at h
    · cases h
    · rename_i hlookup
      obtain ⟨cs, -, rfl⟩ := map_eq_ok.mp h
      have hin : lookup = .in := by simpa [COLLECTION_ALLOWED_LOOKUPS] using hlookup
      exact ⟨by simp [hin], by simp, fun _ => ⟨rfl, rfl⟩⟩

theorem FilterSpec.Built.bind {spec : FilterSpec} (h : spec.Built) (name : String) :
    (spec.bind name).Built := ⟨h.lookup, h.lengths, h.collection⟩

/-! ## Compilation -/

/-- The field of the filter has a name, the model has its column or, for a JSON filter, the compiler
has its handler; and the field does not depend on a scope. -/
structure SqlAlchemyFiltersCompiler.Covers (compiler : SqlAlchemyFiltersCompiler)
    (spec : FilterSpec) (field : String) : Prop where
  field_eq : spec.field = some field
  unscoped : field ∉ compiler.scopedFields
  column : spec.lookup ≠ .json → field ∈ compiler.columns
  handler : spec.lookup = .json → "compile_" ++ (field ++ "__" ++ "json") ∈ compiler.methods
  named : field ≠ ""

/-- The filter goes to the inherited `compile_search__eq`, and the model has no column `name`. -/
def SqlAlchemyFiltersCompiler.Nameless (self : SqlAlchemyFiltersCompiler) (spec : FilterSpec) :
    Prop :=
  spec.field = some "search" ∧ "compile_search__eq" ∉ self.methods ∧ "name" ∉ self.columns

/-- What the pipeline accepts is compiled. -/
def Compiles (compiler : SqlAlchemyFiltersCompiler) (spec : FilterSpec) (name : String)
    (v : Value) : Prop :=
  ∃ predicates, compiler.compile none (parseField spec name v).toList = .ok predicates

theorem suffix_eq_search_iff {field : String} {lookup : FilterLookupEnum} :
    "compile_" ++ (field ++ "__" ++ lookup.value) = "compile_search__eq" ↔
      field = "search" ∧ lookup = .eq := by
  have hsearch : "compile_search__eq" = "compile_" ++ ("search" ++ "__" ++ "eq") := by decide
  rw [hsearch]
  constructor
  · intro h
    have hlist := congrArg String.toList h
    simp only [String.toList_append, List.append_cancel_left_eq] at hlist
    have hlast := congrArg List.getLast? hlist
    cases lookup with
    | eq =>
      exact ⟨String.toList_injective
        (List.append_cancel_right (List.append_cancel_right hlist)), rfl⟩
    | _ => simp [FilterLookupEnum.value] at hlast
  · rintro ⟨rfl, rfl⟩
    rfl

section

variable {compiler : SqlAlchemyFiltersCompiler} {spec : FilterSpec} {field name : String}
  {v : Value}

theorem containerField_of_covers (hcovers : compiler.Covers spec field) :
    containerField spec name = field := by
  rw [containerField, hcovers.field_eq]
  exact if_neg hcovers.named

theorem resolve_of_covers (hcovers : compiler.Covers spec field) :
    compiler.resolve { value := v, lookup := spec.lookup, field } none =
      .ok (compiler.method ("compile_" ++ (field ++ "__" ++ spec.lookup.value))) := by
  unfold SqlAlchemyFiltersCompiler.resolve
  simp [hcovers.unscoped, SqlAlchemyFiltersCompiler.suffix]

theorem compileColumn_eq_ok (hlookup : spec.lookup ≠ .search) (hcovers : compiler.Covers spec field)
    (hjson : spec.lookup ≠ .json)
    (hrange : spec.lookup = .range → ∃ lo hi, v = .tuple [lo, hi] ∧ (lo ≠ .none ∨ hi ≠ .none))
    (hin : spec.lookup = .in → ∃ items, v = .tuple items) :
    ∃ p, compiler.compileColumn { value := v, lookup := spec.lookup, field } = .ok p := by
  unfold SqlAlchemyFiltersCompiler.compileColumn
  rw [if_neg hjson, if_neg (not_not.mpr (hcovers.column hjson))]
  cases hl : spec.lookup with
  | range =>
    obtain ⟨lo, hi, rfl, hpresent⟩ := hrange hl
    exact compileRange_eq_ok field field hpresent
  | «in» =>
    obtain ⟨items, rfl⟩ := hin hl
    exact ⟨_, rfl⟩
  | json => exact absurd hl hjson
  | search => exact absurd hl hlookup
  | eq | gt | lt | gte | lte => exact ⟨_, rfl⟩

theorem compileOne_eq_ok_iff (hlookup : spec.lookup ≠ .search)
    (hcovers : compiler.Covers spec field)
    (hrange : spec.lookup = .range → ∃ lo hi, v = .tuple [lo, hi] ∧ (lo ≠ .none ∨ hi ≠ .none))
    (hin : spec.lookup = .in → ∃ items, v = .tuple items) :
    (∃ p, compiler.compileOne none { value := v, lookup := spec.lookup, field } = .ok p) ↔
      ¬ (spec.lookup = .eq ∧ compiler.Nameless spec) := by
  have hone : compiler.compileOne none { value := v, lookup := spec.lookup, field } =
      (compiler.method ("compile_" ++ (field ++ "__" ++ spec.lookup.value))).elim
        (compiler.compileColumn { value := v, lookup := spec.lookup, field })
        (compiler.call · { value := v, lookup := spec.lookup, field }) := by
    unfold SqlAlchemyFiltersCompiler.compileOne
    rw [resolve_of_covers hcovers]
    cases compiler.method ("compile_" ++ (field ++ "__" ++ spec.lookup.value)) <;> rfl
  rw [hone]
  unfold SqlAlchemyFiltersCompiler.method SqlAlchemyFiltersCompiler.call
  by_cases hown : "compile_" ++ (field ++ "__" ++ spec.lookup.value) ∈ compiler.methods
  · refine iff_of_true ?_ ?_
    · simp [hown]
    · rintro ⟨heq, hfield, hno, -⟩
      obtain rfl : field = "search" := Option.some.inj (hcovers.field_eq.symm.trans hfield)
      rw [heq] at hown
      exact hno hown
  by_cases hsearch : "compile_" ++ (field ++ "__" ++ spec.lookup.value) = "compile_search__eq"
  · obtain ⟨rfl, heq⟩ := suffix_eq_search_iff.mp hsearch
    rw [hsearch] at hown ⊢
    by_cases hname : "name" ∈ compiler.columns
    · simp [hown, hname, SqlAlchemyFiltersCompiler.Nameless]
    · simp [hown, hname, SqlAlchemyFiltersCompiler.Nameless, heq, hcovers.field_eq]
  · have hjson : spec.lookup ≠ .json := fun hl => hown (by
      rw [hl]
      exact hcovers.handler hl)
    have hnot : ¬ (spec.lookup = .eq ∧ compiler.Nameless spec) := by
      rintro ⟨heq, hfield, -⟩
      exact hsearch (suffix_eq_search_iff.mpr
        ⟨Option.some.inj (hcovers.field_eq.symm.trans hfield), heq⟩)
    rw [if_neg (by simp [hown, hsearch])]
    exact iff_of_true (compileColumn_eq_ok hlookup hcovers hjson hrange hin) hnot

/-- A value of the shape that the lookup compiles is compiled, unless it is searched for in a model
without a name. -/
theorem compiles_iff (hlookup : spec.lookup ≠ .search) (hcovers : compiler.Covers spec field)
    (hv : v ≠ .none)
    (hrange : spec.lookup = .range → ∃ lo hi, v = .tuple [lo, hi] ∧ (lo ≠ .none ∨ hi ≠ .none))
    (hin : spec.lookup = .in → ∃ items, v = .tuple items) :
    Compiles compiler spec name v ↔ ¬ (spec.lookup = .eq ∧ compiler.Nameless spec) := by
  unfold Compiles parseField SqlAlchemyFiltersCompiler.compile
  rw [if_neg hv, containerField_of_covers hcovers]
  simp only [Option.toList_some, Option.any_none, Bool.false_eq_true, if_false]
  by_cases habsent : SqlAlchemyFiltersCompiler.isAbsent
      { value := v, lookup := spec.lookup, field } = true
  · rw [List.filter_cons_of_neg (by simp [habsent])]
    refine iff_of_true ⟨[], rfl⟩ ?_
    rintro ⟨heq, -⟩
    simp [SqlAlchemyFiltersCompiler.isAbsent, heq, hv] at habsent
  · rw [List.filter_cons_of_pos (by simp [habsent]), exists_mapM_ok_iff,
      ← compileOne_eq_ok_iff hlookup hcovers hrange hin]
    simp

theorem compiles_none : Compiles compiler spec name .none := ⟨[], rfl⟩

end

/-! ## Safe requests -/

/-- No error escapes from the value schema: the datetimes it returns can be converted to UTC, and
the text of a JSON filter can be loaded or is no JSON. -/
def SchemaSafe (env : Env) (spec : FilterSpec) (raw : Value) : Prop :=
  match spec.lookup with
  | .range => ∀ items, elements (splitRange raw) = some items →
      ∀ r ∈ items.take 2, r ≠ .none → Zoned env spec r
  | .in => ∀ items, elements (splitCollection raw) = some items →
      ∀ r ∈ items, r ≠ .none → Zoned env spec r
  | .json => (∀ s, raw.text = some s → FailsIn Rejects (env.loads s)) ∧
      ∀ v, parseJson env raw = .ok v → ∀ items, elements v = some items →
        ∀ r ∈ items, Zoned env spec r
  | _ => True

/-- The checks of the lookup can be made on the value that the schema returns. The lookups that the
validator does not know have none. -/
def ValueSafe (compiler : SqlAlchemyFiltersCompiler) (spec : FilterSpec) (v : Value) : Prop :=
  match spec.lookup with
  | .eq => ∀ x, v = .item x → (∀ y ∈ spec.all, x.Comparable y) ∧
      (compiler.Nameless spec → ¬ Admissible spec x)
  | .range => ∀ lo hi, v = .tuple [lo, hi] → Present spec lo hi → RangeComparable spec lo hi
  | .in => ∀ items, v = .tuple items → .none ∈ items ∨ Hashable items
  | .json => True
  | _ => False

/-- The filter is absent, or its schema and its checks can deal with the value. -/
def Safe (env : Env) (compiler : SqlAlchemyFiltersCompiler) (spec : FilterSpec) (raw : Value) :
    Prop :=
  (spec.required = false ∧ raw = .none) ∨
    (SchemaSafe env spec raw ∧ ∀ v, valueSchema env spec raw = .ok v → ValueSafe compiler spec v)

/-- The pipeline accepts or rejects, and what it accepts is compiled. -/
structure EndsWell (env : Env) (compiler : SqlAlchemyFiltersCompiler) (spec : FilterSpec)
    (name : String) (raw : Value) : Prop where
  rejects : FailsIn Rejects (pipeline env spec raw)
  compiles : ∀ v, pipeline env spec raw = .ok v → Compiles compiler spec name v

section

variable {env : Env} {compiler : SqlAlchemyFiltersCompiler} {spec : FilterSpec}
  {field name : String} {raw v : Value}

theorem failsIn_parseJson : FailsIn Rejects (parseJson env raw) ↔
    ∀ s, raw.text = some s → FailsIn Rejects (env.loads s) := by
  unfold parseJson
  cases raw.text with
  | none => simp
  | some s =>
    simp only [Option.some.injEq, forall_eq']
    cases env.loads s with
    | ok v => simp
    | error e => cases e <;> simp

theorem failsIn_valueSchema :
    FailsIn Rejects (valueSchema env spec raw) ↔ SchemaSafe env spec raw := by
  unfold valueSchema SchemaSafe
  cases spec.lookup with
  | range => simp only [failsIn_tuplePair, failsIn_nullable, failsIn_elementSchema]
  | «in» => simp only [failsIn_tupleVariable, failsIn_nullable, failsIn_elementSchema]
  | json => simp only [failsIn_bind, failsIn_parseJson, failsIn_tupleVariable, failsIn_elementSchema]
  | eq | gt | lt | gte | lte | search => cases env.schema spec.baseType raw <;> simp

/-! ## Each lookup -/

theorem valueSchema_scalar (henv : env.Typed) (hv : valueSchema env spec raw = .ok v)
    (hrange : spec.lookup ≠ .range) (hin : spec.lookup ≠ .in) (hjson : spec.lookup ≠ .json) :
    ∃ x, v = .item x ∧ x.isInstance spec.baseType = true := by
  unfold valueSchema at hv
  cases hl : spec.lookup with
  | range => exact absurd hl hrange
  | «in» => exact absurd hl hin
  | json => exact absurd hl hjson
  | eq | gt | lt | gte | lte | search =>
    rw [hl] at hv
    cases hx : env.schema spec.baseType raw with
    | none => simp [hx] at hv
    | some x =>
      simp only [hx, Except.ok.injEq] at hv
      exact ⟨x, hv.symm, henv _ _ _ hx⟩

/-- The value ends well in the validator and the compiler. -/
def ValueEndsWell (compiler : SqlAlchemyFiltersCompiler) (spec : FilterSpec) (name : String)
    (v : Value) : Prop :=
  FailsIn Rejects (validate spec v) ∧ (validate spec v = .ok () → Compiles compiler spec name v)

theorem endsWell_eq_iff (hbuilt : spec.Built) (hcovers : compiler.Covers spec field)
    (hl : spec.lookup = .eq) {x : Item} (hx : x.isInstance spec.baseType = true) :
    ValueEndsWell compiler spec name (.item x) ↔ ValueSafe compiler spec (.item x) := by
  have hne := ne_none_of_isInstance hx
  have hlen : spec.minLength ≠ none ∨ spec.maxLength ≠ none →
      ∃ length, (Value.item x).len = .ok length := by
    intro h
    rcases hbuilt.lengths h with hjson | hstr
    · simp [hl] at hjson
    · rw [hstr] at hx
      obtain ⟨s, hs⟩ := str_of_isInstance hx
      exact ⟨s.length, by simp [Value.len, hs]⟩
  have hvalidate : validate spec (.item x) = validateScalar spec (.item x) := by
    simp [validate, hcovers.field_eq, hl]
  have hcompiles : Compiles compiler spec name (.item x) ↔ ¬ compiler.Nameless spec := by
    rw [compiles_iff hbuilt.lookup hcovers (by simpa using hne) (by simp [hl]) (by simp [hl])]
    simp [hl]
  have hchecks := checks_scalar x hlen
  unfold ValueEndsWell ValueSafe
  rw [hvalidate, validateScalar_item hne, hchecks.failsIn_finish_iff, hcompiles]
  simp only [hl, Value.item.injEq, forall_eq']
  refine and_congr_right fun hC => ?_
  rw [hchecks.finish_eq_ok_iff hC]
  tauto

theorem endsWell_range_iff (hbuilt : spec.Built) (hcovers : compiler.Covers spec field)
    (hl : spec.lookup = .range) {lo hi : Item} :
    ValueEndsWell compiler spec name (.tuple [lo, hi]) ↔
      ValueSafe compiler spec (.tuple [lo, hi]) := by
  have hvalidate : validate spec (.tuple [lo, hi]) = validateRange spec (.tuple [lo, hi]) := by
    simp [validate, hcovers.field_eq, hl]
  have hcompiles : validateRange spec (.tuple [lo, hi]) = .ok () →
      Compiles compiler spec name (.tuple [lo, hi]) := by
    intro hok
    have hpresent : Present spec lo hi := by
      by_contra hno
      obtain ⟨e, he, -⟩ := validateRange_of_not_present hno
      rw [hok] at he
      cases he
    rw [compiles_iff hbuilt.lookup hcovers (by simp) (fun _ => ⟨lo, hi, rfl, hpresent.1⟩)
      (by simp [hl])]
    simp [hl]
  unfold ValueEndsWell ValueSafe
  rw [hvalidate, failsIn_validateRange, and_iff_left hcompiles]
  simp [hl]

theorem endsWell_in_iff (hbuilt : spec.Built) (hcovers : compiler.Covers spec field)
    (hl : spec.lookup = .in) {items : List Item}
    (htyped : ∀ x ∈ items, x ≠ .none → x.isInstance spec.baseType = true) :
    ValueEndsWell compiler spec name (.tuple items) ↔ ValueSafe compiler spec (.tuple items) := by
  have hvalidate : validate spec (.tuple items) = validateCollection spec (.tuple items) := by
    simp [validate, hcovers.field_eq, hl]
  have hcompiles : Compiles compiler spec name (.tuple items) := by
    rw [compiles_iff hbuilt.lookup hcovers (by simp) (by simp [hl]) (fun _ => ⟨items, rfl⟩)]
    simp [hl]
  obtain ⟨hall, hchoices⟩ := hbuilt.collection hl
  unfold ValueEndsWell ValueSafe
  rw [hvalidate, failsIn_validateCollection hall hchoices htyped,
    and_iff_left fun _ => hcompiles]
  simp [hl]

theorem endsWell_json (hbuilt : spec.Built) (hcovers : compiler.Covers spec field)
    (hl : spec.lookup = .json) {items : List Item} :
    ValueEndsWell compiler spec name (.tuple items) := by
  have hvalidate : validate spec (.tuple items) = validateJson spec (.tuple items) := by
    simp [validate, hcovers.field_eq, hl]
  refine ⟨by rw [hvalidate]; exact failsIn_validateJson, fun _ => ?_⟩
  rw [compiles_iff hbuilt.lookup hcovers (by simp) (by simp [hl]) (by simp [hl])]
  simp [hl]

/-- The lookups that the validator does not know break on every value. -/
theorem not_endsWell_of_unknown (hcovers : compiler.Covers spec field)
    (hl : spec.lookup ∉ [FilterLookupEnum.eq, .range, .in, .json]) :
    ¬ ValueEndsWell compiler spec name v := by
  rintro ⟨hfails, -⟩
  have herror : ∃ message, validate spec v = .error (.runtimeError message) := by
    unfold validate
    rw [hcovers.field_eq]
    cases hl' : spec.lookup <;> simp [hl'] at hl ⊢
  obtain ⟨message, hmessage⟩ := herror
  simpa using hfails _ hmessage

/-- On a value that the schema returns, the validator and the compiler end well if and only if it
is safe. -/
theorem endsWell_value_iff (henv : env.Typed) (hbuilt : spec.Built)
    (hcovers : compiler.Covers spec field) (hv : valueSchema env spec raw = .ok v) :
    ValueEndsWell compiler spec name v ↔ ValueSafe compiler spec v := by
  cases hl : spec.lookup with
  | eq =>
    obtain ⟨x, rfl, hx⟩ := valueSchema_scalar henv hv (by simp [hl]) (by simp [hl]) (by simp [hl])
    exact endsWell_eq_iff hbuilt hcovers hl hx
  | range =>
    simp only [valueSchema, hl] at hv
    obtain ⟨a, b, lo, hi, -, -, -, rfl⟩ := tuplePair_eq_ok_iff.mp hv
    exact endsWell_range_iff hbuilt hcovers hl
  | «in» =>
    simp only [valueSchema, hl] at hv
    obtain ⟨raws, items, -, hitems, rfl⟩ := tupleVariable_eq_ok_iff.mp hv
    refine endsWell_in_iff hbuilt hcovers hl fun x hx hne => ?_
    obtain ⟨r, -, hr⟩ := exists_of_mem_mapM hitems hx
    rcases nullable_eq_ok_iff.mp hr with ⟨-, rfl⟩ | ⟨-, hok⟩
    · exact absurd rfl hne
    · exact isInstance_elementSchema henv hok
  | json =>
    simp only [valueSchema, hl] at hv
    obtain ⟨w, -, hw⟩ := bind_eq_ok.mp hv
    obtain ⟨raws, items, -, -, rfl⟩ := tupleVariable_eq_ok_iff.mp hw
    refine iff_of_true (endsWell_json hbuilt hcovers hl) ?_
    simp [ValueSafe, hl]
  | gt | lt | gte | lte | search =>
    refine iff_of_false (not_endsWell_of_unknown hcovers (by simp [hl])) ?_
    simp [ValueSafe, hl]

/-- **A request to a filter that a factory returns ends well, by acceptance and compilation or by a
rejection, if and only if it is safe.** -/
theorem endsWell_iff (parse : String → Option Numeral) (f : Factory) (spec : FilterSpec)
    (hf : f.build parse = .ok spec) (name : String) (env : Env) (henv : env.Typed)
    (compiler : SqlAlchemyFiltersCompiler) (field : String)
    (hcovers : compiler.Covers (spec.bind name) field) (raw : Value) :
    EndsWell env compiler (spec.bind name) name raw ↔ Safe env compiler (spec.bind name) raw := by
  have hbuilt := (built_of_build hf).bind name
  generalize spec.bind name = spec at *
  by_cases habsent : spec.required = false ∧ raw = .none
  · have hpipeline : pipeline env spec raw = .ok .none := if_pos habsent
    refine iff_of_true ⟨by rw [hpipeline]; exact failsIn_ok _, fun v hv => ?_⟩ (.inl habsent)
    rw [hpipeline] at hv
    obtain rfl := Except.ok.inj hv
    exact compiles_none
  · unfold Safe
    rw [or_iff_right habsent, ← failsIn_valueSchema]
    constructor
    · rintro ⟨hrejects, hcompiles⟩
      obtain ⟨hschema, hvalidate⟩ := (failsIn_pipeline habsent).mp hrejects
      refine ⟨hschema, fun v hv => ?_⟩
      have hends : ValueEndsWell compiler spec name v :=
        ⟨hvalidate v hv, fun hok => hcompiles v ((pipeline_eq_ok_iff habsent).mpr ⟨hv, hok⟩)⟩
      exact (endsWell_value_iff henv hbuilt hcovers hv).mp hends
    · rintro ⟨hschema, hsafe⟩
      have hends : ∀ v, valueSchema env spec raw = .ok v → ValueEndsWell compiler spec name v :=
        fun v hv => (endsWell_value_iff henv hbuilt hcovers hv).mpr (hsafe v hv)
      refine ⟨(failsIn_pipeline habsent).mpr ⟨hschema, fun v hv => (hends v hv).1⟩, fun v hv => ?_⟩
      obtain ⟨hv, hok⟩ := (pipeline_eq_ok_iff habsent).mp hv
      exact (hends v hv).2 hok

end

/-! ## Requests to three filters -/

/-- Schemas that return one value of each of three types. -/
def sampleEnv : Env where
  schema T _ :=
    match T with
    | .int => some (.scalar (.int 5))
    | .str => some (.scalar (.str "open"))
    | .datetime => some (.scalar (.datetime 0 none))
    | _ => none
  loads _ := .error (.valueError "")
  localToUtc wall := .ok wall

theorem sampleEnv_typed : sampleEnv.Typed := by
  intro T raw x h
  cases T <;> simp only [sampleEnv, reduceCtorEq, Option.some.injEq] at h <;> subst h <;> rfl

theorem endsWell_title :
    EndsWell sampleEnv { model := "Task", columns := ["title"] }
      (({ baseType := .str, maxLength := some 20 } : FilterSpec).bind "title") "title"
      (.str "open") :=
  (endsWell_iff (fun _ => none) (.string none false none (some 20) none)
    { baseType := .str, maxLength := some 20 } rfl "title" sampleEnv sampleEnv_typed
    { model := "Task", columns := ["title"] } "title"
    ⟨rfl, by simp, by simp, by simp [FilterSpec.bind], by decide⟩ (.str "open")).mpr <| by
      refine .inr ⟨trivial, fun v _ x _ => ⟨by simp [Bounds.all, FilterSpec.bind], ?_⟩⟩
      rintro ⟨hfield, -, -⟩
      exact absurd hfield (by decide)

/-- A lookup that the factory admits breaks in the validator, and so does a naive datetime against
an aware bound. -/
theorem requests_break : sampleEnv.Typed ∧
    (∃ spec, (Factory.numeric .int (some "amount") .gt false {} none).build (fun _ => none) =
        .ok spec ∧
      pipeline sampleEnv (spec.bind "amount__gt") (.str "5") =
        .error (.runtimeError "Undefined filter lookup type `gt`") ∧
      ¬ EndsWell sampleEnv { model := "Invoice", columns := ["amount"] }
        (spec.bind "amount__gt") "amount__gt" (.str "5")) ∧
    ∃ spec, (Factory.datetime (some "due") .eq false
        { gte := some (.scalar (.datetime 0 (some 0))) }).build (fun _ => none) = .ok spec ∧
      pipeline sampleEnv (spec.bind "due") (.str "1970-01-01T00:00:00") = .error .typeError ∧
      ¬ EndsWell sampleEnv { model := "Invoice", columns := ["due"] }
        (spec.bind "due") "due" (.str "1970-01-01T00:00:00") := by
  have hbreak : ∀ {compiler spec name raw e}, pipeline sampleEnv spec raw = .error e →
      e.rejects = false → ¬ EndsWell sampleEnv compiler spec name raw := by
    rintro compiler spec name raw e he hno ⟨hrejects, -⟩
    simpa [hno] using hrejects e he
  refine ⟨sampleEnv_typed, ⟨_, rfl, ?_, ?_⟩, ⟨_, rfl, ?_, ?_⟩⟩
  · rfl
  · exact hbreak (by rfl) rfl
  · rfl
  · exact hbreak (by rfl) rfl

end ApiTemplate.Filtering
