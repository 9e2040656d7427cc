import ApiTemplate.Filtering.Schemas
import ApiTemplate.Identity.Annotated

/-!
# Annotated filter fields

The annotations of a query model, what `FilterMeta` makes of them, and the values that a filter
field accepts. The schema hook asks for the schema of the specification's base type, so of the
constraints of a declaration it keeps those that stand beside the specification and loses those
inside of an `Optional`.
-/

namespace ApiTemplate.Filtering

open FilterValidator Fallible
open Identity (trim)

/-! ## Constraints -/

/-- The constraints of a `StringConstraints` or a `Field`. -/
structure Constraints extends Bounds where
  stripWhitespace : Bool := false
  minLength : Option ℤ := none
  maxLength : Option ℤ := none
  deriving DecidableEq

/-- The text is stripped. -/
def Item.stripped (x : Item) : Item :=
  match x with
  | .scalar (.str s) => .scalar (.str (String.ofList (trim s.toList)))
  | x => x

/-- The bound is none, or satisfied. -/
def Item.satisfies (x : Item) (op : CompareOp) (bound : Option Item) : Bool :=
  bound.all fun y => decide (x.compare op y = .ok true)

def Bounds.holds (b : Bounds) (x : Item) : Bool :=
  x.satisfies .gt b.gt && x.satisfies .ge b.gte && x.satisfies .lt b.lt && x.satisfies .le b.lte

/-- The length is bounded by none, or by what it lies between. -/
def Constraints.holdsLength (c : Constraints) (x : Item) : Bool :=
  if c.minLength = none ∧ c.maxLength = none then true
  else match (Value.item x).len with
    | .ok length =>
      c.minLength.all (fun (n : ℤ) => n ≤ length) && c.maxLength.all (fun (n : ℤ) => length ≤ n)
    | .error _ => false

/-- The value satisfies the constraints. -/
def Constraints.holds (c : Constraints) (x : Item) : Bool :=
  (!c.stripWhitespace || x.stripped = x) && c.holdsLength x && c.toBounds.holds x

/-- What the schema of a class with constraints makes of a value of the class: it strips the text
before it checks anything. -/
def constrain (cs : List Constraints) (x : Item) : Option Item :=
  let y := if cs.any (·.stripWhitespace) then x.stripped else x
  if cs.all (·.holds y) then some y else none

/-! ## Annotations -/

/-- What stands beside the type in an `Annotated`. -/
inductive Metadata
  | constraints (c : Constraints)
  | spec (s : FilterSpec)
  deriving DecidableEq

inductive Annotation
  | type (T : PyType)
  | optional (inner : Annotation)
  | annotated (inner : Annotation) (metadata : List Metadata)
  | spec (s : FilterSpec)

namespace Annotation

/-- `get_args` of an `Annotated`: nested ones are flat. Anything else has no metadata. -/
def args : Annotation → Annotation × List Metadata
  | annotated inner metadata => (inner.args.1, inner.args.2 ++ metadata)
  | annotation => ( annotation, [])

end Annotation

def Metadata.spec? : Metadata → Option FilterSpec
  | constraints _ => none
  | spec s => some s

def Metadata.constraints? : Metadata → Option Constraints
  | constraints c => some c
  | spec _ => none

/-- The constraints that are declared in an annotation. -/
def Annotation.constraints : Annotation → List Constraints
  | type _ => []
  | optional inner => inner.constraints
  | annotated inner metadata => inner.constraints ++ metadata.filterMap Metadata.constraints?
  | spec _ => []

/-- What the metaclass leaves: `Annotated[(base, *metadata, FilterPipelineInjector(spec))]`. -/
structure FilterField where
  name : String
  base : Annotation
  metadata : List Constraints
  spec : FilterSpec

namespace FilterMeta

/-- `_extract_spec` -/
def extractSpec : Annotation → Option FilterSpec
  | .spec s => some s
  | .annotated inner metadata =>
    ( Annotation.annotated inner metadata).args.2.findSome? Metadata.spec?
  | _ => none

/-- The loop of `__new__` on one annotation; a field without a specification is left alone. -/
def rewrite (name : String) ( annotation : Annotation) : Option FilterField :=
  (extractSpec annotation).map fun s =>
    match annotation with
    | .annotated inner metadata =>
      { name, base := ( Annotation.annotated inner metadata).args.1,
        metadata := ( Annotation.annotated inner metadata).args.2.filterMap Metadata.constraints?,
        spec := s.bind name }
    | _ => { name, base := .type s.baseType, metadata := [], spec := s.bind name }

end FilterMeta

/-! ## The schema of a field -/

/-- `handler(T)`, called by an item of an `Annotated`: the schema of the type, then the constraints
in front of the item. -/
def constrained (before : List Constraints) (schema : Except PyError Item) : Except PyError Item :=
  schema >>= fun x => (constrain before x).elim (.error .validationError) .ok

namespace FilterField

/-- The schema of `_get_base_type()`. The hook of the injector does not look at its source type. -/
def elementSchema (env : Env) (field : FilterField) (raw : Item) : Except PyError Item :=
  constrained field.metadata (Filtering.elementSchema env field.spec raw)

/-- The value schema that the lookup selects. -/
def valueSchema (env : Env) (field : FilterField) (raw : Value) : Except PyError Value :=
  match field.spec.lookup with
  | .range => tuplePair (nullable (field.elementSchema env)) (splitRange raw)
  | .in => tupleVariable (nullable (field.elementSchema env)) (splitCollection raw)
  | .json => parseJson env raw >>= tupleVariable (field.elementSchema env)
  | _ => (constrained field.metadata
      ((env.schema field.spec.baseType raw).elim (.error .validationError) .ok)).map .item

/-- The core schema of the field. -/
def validate (env : Env) (field : FilterField) (raw : Value) : Except PyError Value :=
  if field.spec.required = false ∧ raw = .none then .ok .none
  else do
    let value ← field.valueSchema env raw
    inSchema (FilterValidator.validate field.spec value)
    return value

end FilterField

/-- The items of a value. -/
def Value.components : Value → List Item
  | item x => [x]
  | tuple items => items
  | list items => items

/-- Every item that is present satisfies the constraints. -/
def Value.Satisfies (v : Value) (cs : List Constraints) : Prop :=
  ∀ x ∈ v.components, x ≠ .none → ∀ c ∈ cs, c.holds x = true

/-- The field accepts values that satisfy the constraints alone. -/
def FilterField.Enforces (env : Env) (field : FilterField) (cs : List Constraints) : Prop :=
  ∀ raw v, field.validate env raw = .ok v → v.Satisfies cs

/-! ## Values of a class -/

/-- The value is of the class itself, and not of a class derived from it; a `Decimal` is finite. -/
def Item.Plain (x : Item) (T : PyType) : Prop :=
  match T, x with
  | .bool, .scalar (.bool _) => True
  | .int, .scalar (.int _) => True
  | .float, .scalar (.float _) => True
  | .decimal, .scalar (.decimal (.finite _)) => True
  | .str, .scalar (.str _) => True
  | .date, .scalar (.date _) => True
  | .datetime, .scalar (.datetime _ _) => True
  | .enum E, .member m => m ∈ E.members
  | .cls name, .object o => o.cls = name
  | _, _ => False

instance (x : Item) (T : PyType) : Decidable (x.Plain T) := by
  unfold Item.Plain
  split <;> infer_instance

/-- The schema of a class returns values of the class itself, and such a value unchanged. -/
structure Env.Exact (env : Env) : Prop where
  plain : ∀ T raw x, env.schema T raw = some x → x.Plain T
  fixed : ∀ T x, x.Plain T → env.schema T (.item x) = some x

/-- An element of a range, a collection or an array of the base type; its datetimes are aware. -/
def FilterSpec.Element (spec : FilterSpec) (x : Item) : Prop :=
  x.Plain spec.baseType ∧ ∀ wall, x ≠ .scalar (.datetime wall none)

/-- The shape of the values of the lookup. -/
def FilterSpec.Shapes (spec : FilterSpec) (v : Value) : Prop :=
  match spec.lookup with
  | .range => ∃ lo hi, v = .tuple [lo, hi] ∧ (lo = .none ∨ spec.Element lo) ∧
      (hi = .none ∨ spec.Element hi)
  | .in => ∃ items, v = .tuple items ∧ ∀ x ∈ items, x = .none ∨ spec.Element x
  | .json => ∃ items, v = .tuple items ∧ ∀ x ∈ items, spec.Element x
  | _ => ∃ x, v = .item x ∧ x.Plain spec.baseType

/-- The constraints inside of the base follow from those beside the specification and from the
specification itself, on values of the base type. -/
def FilterField.Implied (field : FilterField) : Prop :=
  ∀ v, field.spec.Shapes v → v.Satisfies field.metadata → FilterValidator.validate field.spec v =
    .ok () → v.Satisfies field.base.constraints

/-! ## What the handler returns -/

section

variable {T : PyType} {x y : Item} {cs : List Constraints} {schema : Except PyError Item}
  {spec : FilterSpec}

theorem Item.Plain.ne_none (h : x.Plain T) : x ≠ .none := by
  rintro rfl
  cases T <;> exact h

theorem Item.plain_str {s : String} : (Item.scalar (.str s)).Plain T ↔ T = .str := by
  cases T <;> simp [Item.Plain]

theorem Item.Plain.stripped (h : x.Plain T) : x.stripped.Plain T := by
  unfold Item.stripped
  split
  · exact Item.plain_str.mpr (Item.plain_str.mp h)
  · exact h

theorem FilterSpec.Element.stripped (h : spec.Element x) : spec.Element x.stripped := by
  refine ⟨h.1.stripped, ?_⟩
  unfold Item.stripped
  split
  · nofun
  · exact h.2

theorem constrain_eq_some_iff : constrain cs x = some y ↔
    y = (if cs.any (·.stripWhitespace) then x.stripped else x) ∧ ∀ c ∈ cs, c.holds y = true := by
  unfold constrain
  generalize (if cs.any (·.stripWhitespace) then x.stripped else x) = z
  rw [Option.ite_none_right_eq_some, List.all_eq_true, Option.some.injEq]
  constructor
  · rintro ⟨h, rfl⟩
    exact ⟨rfl, h⟩
  · rintro ⟨rfl, h⟩
    exact ⟨h, rfl⟩

/-- A property that stripping keeps is kept. -/
theorem constrain_keeps {P : Item → Prop} (hP : P x) (hstripped : P x.stripped)
    (h : constrain cs x = some y) : P y := by
  rw [(constrain_eq_some_iff.mp h).1]
  split
  · exact hstripped
  · exact hP

theorem constrain_of_holds (h : ∀ c ∈ cs, c.holds x = true) : constrain cs x = some x := by
  refine constrain_eq_some_iff.mpr ⟨?_, h⟩
  split
  · rename_i hany
    obtain ⟨c, hc, hstrip⟩ := List.any_eq_true.mp hany
    have hholds := h c hc
    simp only [Constraints.holds, hstrip, Bool.not_true, Bool.false_or, Bool.and_eq_true,
      decide_eq_true_eq] at hholds
    exact hholds.1.1.symm
  · rfl

theorem constrained_eq_ok_iff : constrained cs schema = .ok y ↔
    ∃ x, schema = .ok x ∧ constrain cs x = some y := by
  unfold constrained
  rw [bind_eq_ok]
  refine exists_congr fun x => and_congr_right fun _ => ?_
  cases constrain cs x <;> simp

/-- Without constraints the handler returns the schema of the class. -/
theorem constrained_nil : constrained [] schema = schema := by
  cases schema <;> rfl

end

/-! ## Values of the schema -/

section

variable {env : Env} {field : FilterField} {raw v : Value}

/-- Without constraints beside the specification a field is its pipeline. -/
theorem validate_of_metadata_nil (h : field.metadata = []) (raw : Value) :
    field.validate env raw = pipeline env field.spec raw := by
  have hvalue : field.valueSchema env raw = valueSchema env field.spec raw := by
    have helement : field.elementSchema env = elementSchema env field.spec := by
      funext r
      rw [FilterField.elementSchema, h, constrained_nil]
    unfold FilterField.valueSchema valueSchema
    rw [helement, h, constrained_nil]
    cases field.spec.lookup <;> first | rfl | (cases env.schema field.spec.baseType raw <;> rfl)
  unfold FilterField.validate pipeline
  rw [hvalue]

theorem element_of_elementSchema (henv : env.Exact) {spec : FilterSpec} {r x : Item}
    (h : elementSchema env spec r = .ok x) : spec.Element x := by
  unfold elementSchema at h
  cases hy : env.schema spec.baseType (.item r) with
  | none =>
    rw [hy] at h
    cases h
  | some y =>
    have hplain := henv.plain _ _ _ hy
    simp only [hy] at h
    by_cases hbase : spec.baseType = .datetime
    · rw [if_pos hbase, inSchema_eq_ok_iff] at h
      unfold setTimezone at h
      split at h
      · obtain ⟨utc, -, rfl⟩ := map_eq_ok.mp h
        refine ⟨?_, nofun⟩
        rw [hbase]
        trivial
      · rename_i hno
        obtain rfl := Except.ok.inj h
        exact ⟨hplain, hno⟩
    · rw [if_neg hbase] at h
      obtain rfl := Except.ok.inj h
      refine ⟨hplain, ?_⟩
      rintro wall rfl
      cases hT : spec.baseType <;> simp_all [Item.Plain]

theorem elementSchema_of_element (henv : env.Exact) {spec : FilterSpec} {x : Item}
    (h : spec.Element x) : elementSchema env spec x = .ok x := by
  unfold elementSchema
  simp only [henv.fixed _ x h.1]
  split
  · rw [inSchema_eq_ok_iff]
    unfold setTimezone
    split
    · rename_i wall
      exact absurd rfl (h.2 wall)
    · rfl
  · rfl

theorem fieldElement_eq_ok (henv : env.Exact) {r x : Item}
    (h : field.elementSchema env r = .ok x) :
    field.spec.Element x ∧ ∀ c ∈ field.metadata, c.holds x = true := by
  obtain ⟨y, hy, hconstrain⟩ := constrained_eq_ok_iff.mp h
  have helement := element_of_elementSchema henv hy
  exact ⟨constrain_keeps helement helement.stripped hconstrain,
    (constrain_eq_some_iff.mp hconstrain).2⟩

theorem fieldElement_self (henv : env.Exact) {x : Item} (hx : field.spec.Element x)
    (h : ∀ c ∈ field.metadata, c.holds x = true) : field.elementSchema env x = .ok x :=
  constrained_eq_ok_iff.mpr ⟨x, elementSchema_of_element henv hx, constrain_of_holds h⟩

theorem nullable_eq_ok (henv : env.Exact) {r x : Item}
    (h : nullable (field.elementSchema env) r = .ok x) :
    (x = .none ∨ field.spec.Element x) ∧ (x ≠ .none → ∀ c ∈ field.metadata, c.holds x = true) := by
  rcases nullable_eq_ok_iff.mp h with ⟨-, rfl⟩ | ⟨-, hx⟩
  · exact ⟨.inl rfl, fun hne => absurd rfl hne⟩
  · obtain ⟨helement, hholds⟩ := fieldElement_eq_ok henv hx
    exact ⟨.inr helement, fun _ => hholds⟩

theorem nullable_self (henv : env.Exact) {x : Item} (hx : x = .none ∨ field.spec.Element x)
    (h : x ≠ .none → ∀ c ∈ field.metadata, c.holds x = true) :
    nullable (field.elementSchema env) x = .ok x := by
  rw [nullable_eq_ok_iff]
  rcases hx with rfl | hx
  · exact .inl ⟨rfl, rfl⟩
  · exact .inr ⟨hx.1.ne_none, fieldElement_self henv hx (h hx.1.ne_none)⟩

/-- The value schema returns values of the shape that satisfy the constraints beside the
specification, and such a value unchanged. -/
theorem shapes_of_valueSchema (henv : env.Exact) (h : field.valueSchema env raw = .ok v) :
    field.spec.Shapes v ∧ v.Satisfies field.metadata := by
  unfold FilterField.valueSchema at h
  unfold FilterSpec.Shapes
  cases hl : field.spec.lookup with
  | range =>
    simp only [hl] at h ⊢
    obtain ⟨a, b, x, y, -, hx, hy, rfl⟩ := tuplePair_eq_ok_iff.mp h
    obtain ⟨hx, hxholds⟩ := nullable_eq_ok henv hx
    obtain ⟨hy, hyholds⟩ := nullable_eq_ok henv hy
    refine ⟨⟨x, y, rfl, hx, hy⟩, fun z hz hne => ?_⟩
    rcases List.mem_pair.mp hz with rfl | rfl
    · exact hxholds hne
    · exact hyholds hne
  | «in» =>
    simp only [hl] at h ⊢
    obtain ⟨raws, items, -, hitems, rfl⟩ := tupleVariable_eq_ok_iff.mp h
    have hall : ∀ x ∈ items, (x = .none ∨ field.spec.Element x) ∧
        (x ≠ .none → ∀ c ∈ field.metadata, c.holds x = true) := fun x hx => by
      obtain ⟨r, -, hr⟩ := exists_of_mem_mapM hitems hx
      exact nullable_eq_ok henv hr
    exact ⟨⟨items, rfl, fun x hx => (hall x hx).1⟩, fun x hx hne => (hall x hx).2 hne⟩
  | json =>
    simp only [hl] at h ⊢
    obtain ⟨w, -, hw⟩ := bind_eq_ok.mp h
    obtain ⟨raws, items, -, hitems, rfl⟩ := tupleVariable_eq_ok_iff.mp hw
    have hall : ∀ x ∈ items, field.spec.Element x ∧ ∀ c ∈ field.metadata, c.holds x = true :=
      fun x hx => by
        obtain ⟨r, -, hr⟩ := exists_of_mem_mapM hitems hx
        exact fieldElement_eq_ok henv hr
    exact ⟨⟨items, rfl, fun x hx => (hall x hx).1⟩, fun x hx _ => (hall x hx).2⟩
  | eq | gt | lt | gte | lte | search =>
    simp only [hl] at h ⊢
    obtain ⟨x, hx, rfl⟩ := map_eq_ok.mp h
    obtain ⟨y, hy, hconstrain⟩ := constrained_eq_ok_iff.mp hx
    have hplain : y.Plain field.spec.baseType := by
      cases hz : env.schema field.spec.baseType raw with
      | none => simp [hz] at hy
      | some z =>
        rw [hz] at hy
        obtain rfl := Except.ok.inj hy
        exact henv.plain _ _ _ hz
    have hxplain : x.Plain field.spec.baseType :=
      constrain_keeps (P := fun z => z.Plain field.spec.baseType) hplain hplain.stripped hconstrain
    refine ⟨⟨x, rfl, hxplain⟩, fun z hz _ => ?_⟩
    rw [List.mem_singleton.mp hz]
    exact (constrain_eq_some_iff.mp hconstrain).2

theorem mapM_self {schema : Item → Except PyError Item} {items : List Item}
    (h : ∀ x ∈ items, schema x = .ok x) : items.mapM schema = .ok items := by
  have hmap := mapM_ok (g := id) h
  rwa [List.map_id] at hmap

theorem valueSchema_of_shapes (henv : env.Exact) (hshape : field.spec.Shapes v)
    (h : v.Satisfies field.metadata) : field.valueSchema env v = .ok v := by
  unfold FilterSpec.Shapes at hshape
  unfold FilterField.valueSchema
  cases hl : field.spec.lookup with
  | range =>
    simp only [hl] at hshape ⊢
    obtain ⟨lo, hi, rfl, hlo, hhi⟩ := hshape
    refine tuplePair_eq_ok_iff.mpr ⟨lo, hi, lo, hi, rfl, ?_, ?_, rfl⟩
    · exact nullable_self henv hlo (h lo (by simp [Value.components]))
    · exact nullable_self henv hhi (h hi (by simp [Value.components]))
  | «in» =>
    simp only [hl] at hshape ⊢
    obtain ⟨items, rfl, hitems⟩ := hshape
    exact tupleVariable_eq_ok_iff.mpr ⟨items, items, rfl,
      mapM_self fun x hx => nullable_self henv (hitems x hx) (h x hx), rfl⟩
  | json =>
    simp only [hl] at hshape ⊢
    obtain ⟨items, rfl, hitems⟩ := hshape
    refine bind_eq_ok.mpr ⟨.tuple items, rfl,
      tupleVariable_eq_ok_iff.mpr ⟨items, items, rfl, ?_, rfl⟩⟩
    exact mapM_self fun x hx =>
      fieldElement_self henv (hitems x hx) (h x hx (hitems x hx).1.ne_none)
  | eq | gt | lt | gte | lte | search =>
    simp only [hl] at hshape ⊢
    obtain ⟨x, rfl, hx⟩ := hshape
    have hholds := h x (by simp [Value.components]) hx.ne_none
    refine map_eq_ok.mpr ⟨x, constrained_eq_ok_iff.mpr ⟨x, ?_, constrain_of_holds hholds⟩, rfl⟩
    rw [henv.fixed _ x hx]
    rfl

theorem FilterSpec.Shapes.ne_none {spec : FilterSpec} (h : spec.Shapes v) : v ≠ .none := by
  rintro rfl
  unfold FilterSpec.Shapes at h
  cases hl : spec.lookup <;> simp only [hl] at h
  case range => simp at h
  case «in» => simp at h
  case json => simp at h
  all_goals
    obtain ⟨x, hx, hplain⟩ := h
    exact hplain.ne_none (Value.item.inj hx).symm

theorem satisfies_none (cs : List Constraints) : Value.none.Satisfies cs := by
  intro x hx hne
  exact absurd (List.mem_singleton.mp hx) hne

/-- What the field accepts, unless it is absent. -/
theorem validate_eq_ok_iff (henv : env.Exact) (hne : v ≠ .none) :
    (∃ raw, field.validate env raw = .ok v) ↔
      field.spec.Shapes v ∧ v.Satisfies field.metadata ∧
        FilterValidator.validate field.spec v = .ok () := by
  unfold FilterField.validate
  constructor
  · rintro ⟨raw, h⟩
    split at h
    · exact absurd (Except.ok.inj h).symm hne
    · obtain ⟨w, hw, h⟩ := bind_eq_ok.mp h
      obtain ⟨⟨⟩, hok, h⟩ := bind_eq_ok.mp h
      obtain rfl := Except.ok.inj h
      obtain ⟨hshape, hsatisfies⟩ := shapes_of_valueSchema henv hw
      exact ⟨hshape, hsatisfies, inSchema_eq_ok_iff.mp hok⟩
  · rintro ⟨hshape, hsatisfies, hok⟩
    refine ⟨v, (if_neg fun h => hne h.2).trans ?_⟩
    exact bind_eq_ok.mpr ⟨v, valueSchema_of_shapes henv hshape hsatisfies,
      bind_eq_ok.mpr ⟨(), inSchema_eq_ok_iff.mpr hok, rfl⟩⟩

end

/-! ## Declared constraints -/

theorem constraints_args ( annotation : Annotation) :
    annotation.constraints =
      annotation.args.1.constraints ++ annotation.args.2.filterMap Metadata.constraints? := by
  induction annotation with
  | type T => rfl
  | optional inner ih => simp [ Annotation.args]
  | annotated inner metadata ih =>
    rw [ Annotation.constraints, ih, Annotation.args, List.filterMap_append, List.append_assoc]
  | spec s => rfl

/-- The declared constraints stand beside the specification, or inside of the base. -/
theorem constraints_of_rewrite {name : String} { annotation : Annotation} {field : FilterField}
    (h : FilterMeta.rewrite name annotation = some field) :
    annotation.constraints = field.base.constraints ++ field.metadata := by
  obtain ⟨s, hs, hfield⟩ := Option.map_eq_some_iff.mp h
  cases annotation with
  | annotated inner metadata =>
    rw [← hfield]
    exact constraints_args _
  | spec s' =>
    rw [← hfield]
    rfl
  | type | optional => cases hs

theorem Value.satisfies_append {v : Value} {cs ds : List Constraints} :
    v.Satisfies (cs ++ ds) ↔ v.Satisfies cs ∧ v.Satisfies ds := by
  simp only [Value.Satisfies, List.forall_mem_append]
  exact ⟨fun h => ⟨fun x hx hne => (h x hx hne).1, fun x hx hne => (h x hx hne).2⟩,
    fun h x hx hne => ⟨h.1 x hx hne, h.2 x hx hne⟩⟩

/-- **The values that a filter field accepts satisfy all constraints of its annotation if and only
if those inside of its base are implied by the others.** -/
theorem enforces_declared_iff (env : Env) (henv : env.Exact) (name : String)
    ( annotation : Annotation) (field : FilterField)
    (hfield : FilterMeta.rewrite name annotation = some field) :
    field.Enforces env annotation.constraints ↔ field.Implied := by
  rw [constraints_of_rewrite hfield]
  constructor
  · intro h v hshape hsatisfies hok
    obtain ⟨raw, hraw⟩ := (validate_eq_ok_iff henv hshape.ne_none).mpr
      ⟨hshape, hsatisfies, hok⟩
    exact (Value.satisfies_append.mp (h raw v hraw)).1
  · intro h raw v hraw
    by_cases hnone : v = .none
    · rw [hnone]
      exact satisfies_none _
    · obtain ⟨hshape, hsatisfies, hok⟩ := (validate_eq_ok_iff henv hnone).mp ⟨raw, hraw⟩
      exact Value.satisfies_append.mpr ⟨h v hshape hsatisfies hok, hsatisfies⟩

/-- Constraints that stand beside the specification, after the flattening, are all enforced. -/
theorem implied_of_flat {field : FilterField} (h : field.base.constraints = []) :
    field.Implied := by
  intro v _ _ _ x _ _ c hc
  rw [h] at hc
  exact absurd hc (List.not_mem_nil)

/-! ## The search of the user list -/

/-- An environment whose schemas accept the instances of a class alone. -/
def instancesEnv : Env where
  schema := fun T raw =>
    match raw with
    | .item x => if x.Plain T then some x else none
    | _ => none
  loads := fun _ => .error (.valueError "Expecting value")
  localToUtc := .ok

theorem instancesEnv_exact : instancesEnv.Exact where
  plain := by
    intro T raw x h
    cases raw with
    | item y =>
      obtain ⟨hplain, ⟨⟩⟩ := Option.ite_none_right_eq_some.mp h
      exact hplain
    | tuple | list => cases h
  fixed := fun T x h => if_pos h

/-- `ATSearch` -/
def ATSearch : Annotation :=
  .annotated (.type .str) [.constraints { maxLength := some 100, stripWhitespace := true }]

/-- `FilterSpec.string()` -/
def stringSpec : FilterSpec := { baseType := .str }

/-- `UserListQuery.search` -/
def userListSearch : Annotation := .annotated (.optional ATSearch) [.spec stringSpec]

/-- The field that the metaclass makes of `UserListQuery.search`. -/
def userListSearchField : FilterField where
  name := "search"
  base := .optional ATSearch
  metadata := []
  spec := stringSpec.bind "search"

def longSearch : String := String.ofList (List.replicate 101 'a')

/-- The search accepts a string of 101 characters. -/
theorem userListSearch_not_enforced :
    instancesEnv.Exact ∧ FilterMeta.rewrite "search" userListSearch = some userListSearchField ∧
      userListSearchField.validate instancesEnv (.str longSearch) = .ok (.str longSearch) ∧
      ¬ (Value.str longSearch).Satisfies userListSearch.constraints := by
  refine ⟨instancesEnv_exact, rfl, (validate_of_metadata_nil rfl _).trans rfl, fun h => ?_⟩
  have hholds := h (.scalar (.str longSearch)) (List.mem_singleton_self _) nofun
    { maxLength := some 100, stripWhitespace := true } (by decide)
  revert hholds
  decide +kernel

/-- In `AFSearch` the constraints stand beside the specification. -/
theorem enforces_declared_afSearch :
    (FilterField.mk "search" (.type .str)
        [{ maxLength := some 100, stripWhitespace := true }] (stringSpec.bind "search")).Enforces
      instancesEnv ( Annotation.annotated ATSearch [.spec stringSpec]).constraints :=
  (enforces_declared_iff instancesEnv instancesEnv_exact "search"
    (.annotated ATSearch [.spec stringSpec]) _ rfl).mpr (implied_of_flat rfl)

end ApiTemplate.Filtering
