import ApiTemplate.Filtering.Checks

/-!
# Declared choices

Which of the values that a factory is given as choices survive in the specification that it returns,
and are what the membership check accepts.
-/

namespace ApiTemplate.Filtering

open FilterValidator Fallible

/-! ## What is declared -/

/-- The choices declare the value for a filter of the type: a tuple declares its elements; an enum
class declares its members and, for a filter of another type, their values. -/
def Choices.Declares (base : PyType) (choices : Choices) (v : Item) : Prop :=
  match choices, base with
  | .tuple items, _ => v.isIn items = true
  | .enumClass F, .enum _ => v.isIn (tupleFromEnum F) = true
  | .enumClass F, _ =>
    v.isIn (tupleFromEnum F) = true ∨ ∃ m ∈ F.members, v.eq (.scalar m.value) = true

/-- The base type and the allowed values of a call that declares some. -/
def Factory.declared : Factory → Option (PyType × (Item → Prop))
  | numeric base _ _ _ _ choices => choices.map fun c => (base, c.Declares base)
  | string _ _ _ _ choices => choices.map fun c => (.str, c.Declares .str)
  | enum E _ _ none => some (.enum E, fun _ => True)
  | enum E _ _ (some choices) => some (.enum E, choices.Declares (.enum E))
  | boolean _ => some (.bool, fun _ => True)
  | collection base _ _ choices _ => choices.map fun c => (base, c.Declares base)
  | _ => none

/-- A tuple of values of the type, or an enum class. -/
def Choices.Typed (base : PyType) : Choices → Prop
  | tuple items => ∀ c ∈ items, c.isInstance base = true
  | enumClass _ => True

/-- The arguments are of the types that the factory names, and the lookup is one it admits. -/
def Factory.Typed : Factory → Prop
  | numeric base _ lookup _ bounds choices =>
    base ∈ [PyType.int, .float, .decimal] ∧ lookup ∈ SCALAR_ALLOWED_LOOKUPS ∧
      (∀ b ∈ bounds.all, ∃ y, b.number = some y) ∧ ∀ c ∈ choices, c.Typed base
  | string _ _ _ _ choices => ∀ c ∈ choices, c.Typed .str
  | enum E _ _ choices => ∀ c ∈ choices, c.Typed (.enum E)
  | collection base lookup _ choices _ =>
    lookup ∈ COLLECTION_ALLOWED_LOOKUPS ∧ ∀ c ∈ choices, c.Typed base
  | _ => True

/-- The call returns a specification, and its membership check accepts of the values of the type
those that are declared. -/
def Factory.ChoicesKept (parse : String → Option Numeral) (f : Factory) (base : PyType)
    (declares : Item → Prop) : Prop :=
  ∃ spec, f.build parse = .ok spec ∧ ∀ v, v.isInstance base = true →
    (validateChoices spec (.item v) = [] ↔ declares v)

/-! ## When it is kept -/

/-- The members of the class are of its data type, or no value of the base type equals the value of
a member. -/
def EnumClass.ByValue (F : EnumClass) (base : PyType) : Prop :=
  F.mixed = true ∨
    ∀ v : Item, v.isInstance base = true → ∀ m ∈ F.members, v.eq (.scalar m.value) = false

/-- `Decimal()` takes the value. -/
def Item.Converts (parse : String → Option Numeral) (c : Item) : Prop :=
  (∃ y, c.number = some y) ∨ ∃ s y, c.data = some (.str s) ∧ parse s = some y

/-- The choices come through the conversions of the factory. -/
def Factory.Preserved (parse : String → Option Numeral) : Factory → Prop
  | numeric _ _ _ _ _ (some (.tuple items)) =>
    ∀ m, Item.member m ∈ items → (Item.member m).number ≠ some .nan
  | numeric base _ _ _ _ (some (.enumClass F)) => F.ByValue base
  | string _ _ _ _ (some (.tuple items)) => items = []
  | string _ _ _ _ (some (.enumClass F)) => F.ByValue .str
  | enum E _ _ (some (.tuple items)) =>
    if items = [] then E.members = [] else ∀ c ∈ items, ∃ y, c.number = some y ∧ y ≠ .nan
  | boolean _ => False
  | collection base _ _ (some choices) _ =>
    (∀ items, choices = .tuple items → ∀ c ∈ items, c.Converts parse) ∧
      ∀ v, v.isInstance base = true → choices.Declares base v
  | _ => True

/-! ## Tuples -/

section

variable {parse : String → Option Numeral} {items ds : List Item}

theorem choiceToDecimal_of_number {c : Item} {y : Numeral} (h : c.number = some y) :
    choiceToDecimal parse c = .ok (.scalar (.decimal y)) := by
  unfold choiceToDecimal
  rw [if_neg (by rintro rfl; cases h), Item.toDecimal_of_number h]

theorem exists_toDecimal_iff {c : Item} :
    (∃ d, c.toDecimal parse = .ok d) ↔ c.Converts parse := by
  constructor
  · rintro ⟨d, hd⟩
    obtain ⟨y, -, hy | ⟨s, hs, hy⟩⟩ := Item.toDecimal_eq_ok hd
    · exact .inl ⟨y, hy⟩
    · exact .inr ⟨s, y, hs, hy⟩
  · rintro (⟨y, hy⟩ | ⟨s, y, hs, hy⟩)
    · exact ⟨_, Item.toDecimal_of_number hy⟩
    · exact ⟨.scalar (.decimal y), by simp [Item.toDecimal, hs, hy]⟩

/-- The number of a choice, as a `Decimal`. -/
def Item.decimal (c : Item) : Item := .scalar (.decimal (c.number.getD .nan))

theorem parseChoices_numbers (h : ∀ c ∈ items, ∃ y, c.number = some y) :
    parseChoices parse (some (.tuple items)) = .ok (some (items.map Item.decimal)) := by
  have hmap : items.mapM (choiceToDecimal parse) = .ok (items.map Item.decimal) :=
    mapM_ok fun c hc => by
      obtain ⟨y, hy⟩ := h c hc
      rw [choiceToDecimal_of_number hy, Item.decimal, hy, Option.getD_some]
  simp only [parseChoices, hmap, Except.map]

theorem parseChoices_eq_ok {r : Option (List Item)}
    (h : parseChoices parse (some (.tuple items)) = .ok r) :
    ∃ ds, r = some ds ∧ items.mapM (choiceToDecimal parse) = .ok ds := by
  obtain ⟨ds, hds, rfl⟩ := map_eq_ok.mp h
  exact ⟨ds, rfl, hds⟩

/-- A value that is no number is none of the converted choices. -/
theorem not_isIn_converted (hds : items.mapM (choiceToDecimal parse) = .ok ds)
    (hitems : Item.none ∉ items) {a : Item} (ha : ∀ x, a.number = some x → x = .nan) :
    a.isIn ds = false := by
  rw [Bool.eq_false_iff]
  intro hin
  obtain ⟨d, hd, heq⟩ := Item.isIn_iff.mp hin
  obtain ⟨c, hc, hcd⟩ := exists_of_mem_mapM hds hd
  unfold choiceToDecimal at hcd
  rw [if_neg (ne_of_mem_of_not_mem hc hitems)] at hcd
  obtain ⟨y, rfl, -⟩ := Item.toDecimal_eq_ok hcd
  rw [Item.not_same_scalar, Item.not_eq_decimal ha] at heq
  simp at heq

/-- Among numbers, the converted choices are the choices. -/
theorem isIn_decimal_iff (h : ∀ c ∈ items, ∃ y, c.number = some y)
    (hnan : ∀ m, Item.member m ∈ items → (Item.member m).number ≠ some .nan) {v : Item} :
    v.isIn (items.map Item.decimal) = true ↔ v.isIn items = true := by
  simp only [Item.isIn_iff, List.mem_map, exists_exists_and_eq_and]
  refine exists_congr fun c => and_congr_right fun hc => ?_
  obtain ⟨y, hy⟩ := h c hc
  have hdec : c.decimal = .scalar (.decimal y) := by rw [Item.decimal, hy, Option.getD_some]
  rw [hdec, Item.not_same_scalar, ← Item.eq_decimal hy]
  constructor
  · rintro (hfalse | heq)
    · cases hfalse
    · exact .inr heq
  · rintro (hsame | heq)
    · obtain ⟨rfl, hscalar⟩ := Item.same_iff.mp hsame
      refine .inr (Item.eq_self_of_number hy ?_)
      rintro rfl
      cases v with
      | scalar s => exact hscalar s rfl
      | member m => exact hnan m hc hy
      | none => cases hy
      | object o => cases hy
    · exact .inr heq

end

/-! ## Enum classes -/

section

variable {E F : EnumClass} {base : PyType}

theorem isIn_tupleFromEnum {m : Member} (h : m ∈ E.members) :
    (Item.member m).isIn (tupleFromEnum E) = true :=
  Item.isIn_iff.mpr ⟨.member m, List.mem_map_of_mem h, .inl (Item.same_self_of_member m)⟩

theorem exists_member_of_isInstance {v : Item} (h : v.isInstance (.enum E) = true) :
    ∃ m ∈ E.members, v = .member m := by
  cases v <;> simp [Item.isInstance] at h
  exact ⟨_, h, rfl⟩

theorem mixed_of_mem {m : Member} (h : m ∈ F.members) : m.mixed = F.mixed := by
  obtain ⟨entry, -, rfl⟩ := List.mem_map.mp h
  rfl

/-- The members of a class stand for their values where the values have the base type. -/
theorem declares_iff_isIn (F : EnumClass) (base : PyType)
    (hdata : ∀ v : Item, v.isInstance base = true → v.data ≠ none) :
    (∀ v : Item, v.isInstance base = true → (v.isIn (tupleFromEnum F) = true ↔
      v.isIn (tupleFromEnum F) = true ∨ ∃ m ∈ F.members, v.eq (.scalar m.value) = true)) ↔
    F.ByValue base := by
  constructor
  · intro h
    refine or_iff_not_imp_left.mpr fun hmixed v hv m hm => ?_
    rw [Bool.eq_false_iff]
    intro heq
    obtain ⟨c, hc, hcv⟩ := Item.isIn_iff.mp ((h v hv).mpr (.inr ⟨m, hm, heq⟩))
    obtain ⟨n, hn, rfl⟩ := List.mem_map.mp hc
    have hplain : (Item.member n).data = none := by
      simp [Item.data, mixed_of_mem hn, hmixed]
    have hsame : v.same (.member n) = true := by
      rcases hcv with hsame | heq
      · exact hsame
      · exact Item.eq_of_data_none hplain ▸ heq
    rw [(Item.same_iff.mp hsame).1] at hv
    exact hdata _ hv hplain
  · intro h v hv
    refine ⟨.inl, ?_⟩
    rintro (hin | ⟨m, hm, heq⟩)
    · exact hin
    rcases h with hmixed | hno
    · have hmember : (Item.member m).data = some m.value := by
        simp [Item.data, mixed_of_mem hm, hmixed]
      obtain ⟨s, hs⟩ := Option.ne_none_iff_exists'.mp (hdata v hv)
      rw [Item.eq_of_data hs (t := m.value) rfl, ← Item.eq_of_data hs hmember] at heq
      exact Item.isIn_iff.mpr ⟨.member m, List.mem_map_of_mem hm, .inr heq⟩
    · rw [hno v hv m hm] at heq
      cases heq

end

/-! ## Parsed choices -/

/-- The parsed choices accept of the values of the type those that are declared. -/
def Kept (parse : String → Option Numeral) (base : PyType) (choices : Option Choices)
    (declares : Item → Prop) : Prop :=
  ∃ cs, parseChoices parse choices = .ok cs ∧ ∀ v : Item, v.isInstance base = true →
    ((∀ l, cs = some l → v.isIn l = true) ↔ declares v)

section

variable {parse : String → Option Numeral} {base : PyType} {items : List Item}

/-- A choice that is kept, and equals itself, is a number. -/
theorem number_of_kept {declares : Item → Prop}
    (hkept : Kept parse base (some (.tuple items)) declares)
    (htyped : ∀ c ∈ items, c.isInstance base = true) {c : Item} (hc : c ∈ items)
    (hdeclared : declares c) : ∃ y, c.number = some y ∧ y ≠ .nan := by
  obtain ⟨cs, hparse, hiff⟩ := hkept
  obtain ⟨ds, rfl, hds⟩ := parseChoices_eq_ok hparse
  have hin := (hiff c (htyped c hc)).mpr hdeclared ds rfl
  by_contra hno
  have hnone : Item.none ∉ items := fun h => ne_none_of_isInstance (htyped _ h) rfl
  rw [not_isIn_converted hds hnone] at hin
  · cases hin
  · intro x hx
    by_contra hne
    exact hno ⟨x, hx, hne⟩

theorem kept_numbers (hnumber : ∀ c ∈ items, ∃ y, c.number = some y)
    (hnan : ∀ m, Item.member m ∈ items → (Item.member m).number ≠ some .nan) :
    Kept parse base (some (.tuple items)) fun v => v.isIn items = true := by
  refine ⟨_, parseChoices_numbers hnumber, fun v _ => ?_⟩
  simp only [Option.some.injEq, forall_eq']
  exact isIn_decimal_iff hnumber hnan

theorem kept_numeric_iff (hbase : base ∈ [PyType.int, .float, .decimal])
    (htyped : ∀ c ∈ items, c.isInstance base = true) :
    Kept parse base (some (.tuple items)) (fun v => v.isIn items = true) ↔
      ∀ m, Item.member m ∈ items → (Item.member m).number ≠ some .nan := by
  constructor
  · intro hkept m hm
    have hself : (Item.member m).isIn items = true :=
      Item.isIn_iff.mpr ⟨_, hm, .inl (Item.same_self_of_member m)⟩
    obtain ⟨y, hy, hne⟩ := number_of_kept hkept htyped hm hself
    rw [hy]
    exact fun h => hne (Option.some.inj h)
  · exact kept_numbers fun c hc => number_of_isInstance hbase (htyped c hc)

theorem kept_str_iff (htyped : ∀ c ∈ items, c.isInstance .str = true) :
    Kept parse .str (some (.tuple items)) (fun v => v.isIn items = true) ↔ items = [] := by
  constructor
  · intro hkept
    by_contra hne
    obtain ⟨c, hc⟩ := List.exists_mem_of_ne_nil items hne
    obtain ⟨s, hs⟩ := str_of_isInstance (htyped c hc)
    have hself : c.isIn items = true :=
      Item.isIn_iff.mpr ⟨c, hc, .inr (Item.eq_self_of_str hs)⟩
    obtain ⟨y, hy, -⟩ := number_of_kept hkept htyped hc hself
    simp [Item.number, hs, Scalar.number] at hy
  · rintro rfl
    exact kept_numbers (by simp) (by simp)

theorem kept_enum_iff {E : EnumClass} (htyped : ∀ c ∈ items, c.isInstance (.enum E) = true) :
    Kept parse (.enum E) (some (.tuple items)) (fun v => v.isIn items = true) ↔
      ∀ c ∈ items, ∃ y, c.number = some y ∧ y ≠ .nan := by
  constructor
  · intro hkept c hc
    obtain ⟨m, -, rfl⟩ := exists_member_of_isInstance (htyped c hc)
    exact number_of_kept hkept htyped hc
      (Item.isIn_iff.mpr ⟨_, hc, .inl (Item.same_self_of_member m)⟩)
  · intro hnumber
    refine kept_numbers (fun c hc => ?_) (fun m hm h => ?_)
    · obtain ⟨y, hy, -⟩ := hnumber c hc
      exact ⟨y, hy⟩
    · obtain ⟨y, hy, hne⟩ := hnumber _ hm
      exact hne (Option.some.inj (hy.symm.trans h))

theorem kept_class_iff {F : EnumClass} {declares : Item → Prop} :
    Kept parse base (some (.enumClass F)) declares ↔
      ∀ v : Item, v.isInstance base = true →
        (v.isIn (tupleFromEnum F) = true ↔ declares v) := by
  constructor
  · rintro ⟨cs, hparse, hiff⟩ v hv
    obtain rfl : some (tupleFromEnum F) = cs := by injection hparse
    simpa using hiff v hv
  · intro h
    refine ⟨_, rfl, fun v hv => ?_⟩
    simpa using h v hv

/-! ## Factories -/

/-- A factory that builds the specification around the parsed choices keeps what they keep. -/
theorem choicesKept_iff {f : Factory} {declares : Item → Prop} {choices : Option Choices}
    {mk : Option (List Item) → FilterSpec} (hmk : ∀ cs, (mk cs).choices = cs)
    (hf : f.build parse = (parseChoices parse choices).map mk) :
    f.ChoicesKept parse base declares ↔ Kept parse base choices declares := by
  unfold Factory.ChoicesKept Kept
  simp only [hf, map_eq_ok, validateChoices_eq_nil_iff]
  constructor
  · rintro ⟨_, ⟨cs, hcs, rfl⟩, h⟩
    exact ⟨cs, hcs, by simpa only [hmk] using h⟩
  · rintro ⟨cs, hcs, h⟩
    exact ⟨mk cs, ⟨cs, hcs, rfl⟩, by simpa only [hmk] using h⟩

theorem exists_toDecimal_bounds {b : Bounds} (h : ∀ x ∈ b.all, ∃ y, x.number = some y) :
    ∃ b', b.toDecimal parse = .ok b' := by
  have hside : ∀ o : Option Item, (∀ x ∈ o.toList, ∃ y, x.number = some y) →
      ∃ o', toDecimal parse o = .ok o' := by
    intro o ho
    cases o with
    | none => exact ⟨none, rfl⟩
    | some x =>
      obtain ⟨y, hy⟩ := ho x (by simp)
      exact ⟨_, by rw [toDecimal, Item.toDecimal_of_number hy]; rfl⟩
  simp only [Bounds.all, List.mem_append] at h
  obtain ⟨gt, hgt⟩ := hside b.gt fun x hx => h x (by simp [hx])
  obtain ⟨gte, hgte⟩ := hside b.gte fun x hx => h x (by simp [hx])
  obtain ⟨lt, hlt⟩ := hside b.lt fun x hx => h x (by simp [hx])
  obtain ⟨lte, hlte⟩ := hside b.lte fun x hx => h x (by simp [hx])
  exact ⟨{ gt, gte, lt, lte }, by rw [Bounds.toDecimal, hgt, hgte, hlt, hlte]; rfl⟩

theorem ensureScalarLookup_ok {lookup : FilterLookupEnum} (h : lookup ∈ SCALAR_ALLOWED_LOOKUPS) :
    ensureScalarLookup lookup = .ok () := if_pos h

theorem numeric_kept_iff {field : Option String} {lookup : FilterLookupEnum} {required : Bool}
    {bounds : Bounds} {choices : Choices}
    (ht : (Factory.numeric base field lookup required bounds (some choices)).Typed) :
    (Factory.numeric base field lookup required bounds (some choices)).ChoicesKept parse base
      (choices.Declares base) ↔
    (Factory.numeric base field lookup required bounds (some choices)).Preserved parse := by
  obtain ⟨hbase, hlookup, hbounds, hchoices⟩ := ht
  obtain ⟨b, hb⟩ : ∃ b, bounds.toDecimal parse = .ok b := exists_toDecimal_bounds hbounds
  have hbuild : (Factory.numeric base field lookup required bounds (some choices)).build parse =
      (parseChoices parse (some choices)).map fun cs =>
        { b with baseType := base, lookup, field, required, choices := cs } := by
    simp only [Factory.build, FilterSpec.numeric, ensureScalarLookup_ok hlookup, hb]
    cases parseChoices parse (some choices) <;> rfl
  rw [choicesKept_iff (fun _ => rfl) hbuild]
  cases choices with
  | tuple items => exact kept_numeric_iff hbase (hchoices _ rfl)
  | enumClass F =>
    rw [kept_class_iff]
    have hvalue := declares_iff_isIn F base fun v =>
      data_ne_none_of_isInstance (List.mem_append_left [PyType.str] hbase)
    simp only [List.mem_cons, List.not_mem_nil, or_false] at hbase
    rcases hbase with rfl | rfl | rfl <;> exact hvalue

theorem string_kept_iff {field : Option String} {required : Bool} {minLength maxLength : Option ℤ}
    {choices : Choices}
    (ht : (Factory.string field required minLength maxLength (some choices)).Typed) :
    (Factory.string field required minLength maxLength (some choices)).ChoicesKept parse .str
      (choices.Declares .str) ↔
    (Factory.string field required minLength maxLength (some choices)).Preserved parse := by
  have hbuild : (Factory.string field required minLength maxLength (some choices)).build parse =
      (parseChoices parse (some choices)).map fun cs =>
        { baseType := .str, lookup := .eq, field, required, minLength, maxLength,
          choices := cs } := by
    simp only [Factory.build, FilterSpec.string]
    cases parseChoices parse (some choices) <;> rfl
  rw [choicesKept_iff (fun _ => rfl) hbuild]
  cases choices with
  | tuple items => exact kept_str_iff (ht _ rfl)
  | enumClass F =>
    rw [kept_class_iff]
    exact declares_iff_isIn F .str fun v => data_ne_none_of_isInstance (by simp)

theorem enum_kept_iff {E : EnumClass} {field : Option String} {required : Bool}
    {choices : Option Choices} {declares : Item → Prop}
    (ht : (Factory.enum E field required choices).Typed)
    (hd : (Factory.enum E field required choices).declared = some (.enum E, declares)) :
    (Factory.enum E field required choices).ChoicesKept parse (.enum E) declares ↔
      (Factory.enum E field required choices).Preserved parse := by
  have hwhole : ∀ v : Item, v.isInstance (.enum E) = true → v.isIn (tupleFromEnum E) = true := by
    intro v hv
    obtain ⟨m, hm, rfl⟩ := exists_member_of_isInstance hv
    exact isIn_tupleFromEnum hm
  have hmk : ∀ parsed : Option Choices, (if choices.any Choices.truthy then
        parseChoices parse choices else .ok (some (tupleFromEnum E))) =
          parseChoices parse parsed →
      ((Factory.enum E field required choices).ChoicesKept parse (.enum E) declares ↔
        Kept parse (.enum E) parsed declares) := by
    intro parsed hparsed
    refine choicesKept_iff ?_ (congrArg (Except.map _) hparsed)
    exact fun _ => rfl
  match choices, hd, hmk with
  | none, hd, hmk =>
    obtain rfl : (fun _ => True) = declares := by simpa [Factory.declared] using hd
    rw [hmk (some (.enumClass E)) rfl, kept_class_iff]
    exact iff_of_true (fun v hv => iff_of_true (hwhole v hv) trivial) trivial
  | some (.enumClass F), hd, hmk =>
    obtain rfl : (Choices.enumClass F).Declares (.enum E) = declares := by
      simpa [Factory.declared] using hd
    rw [hmk (some (.enumClass F)) rfl, kept_class_iff]
    exact iff_of_true (fun v hv => Iff.rfl) trivial
  | some (.tuple []), hd, hmk =>
    obtain rfl : (Choices.tuple []).Declares (.enum E) = declares := by
      simpa [Factory.declared] using hd
    rw [hmk (some (.enumClass E)) rfl, kept_class_iff]
    show _ ↔ E.members = []
    constructor
    · intro h
      refine List.eq_nil_iff_forall_not_mem.mpr fun m hm => ?_
      have hv : (Item.member m).isInstance (.enum E) = true := by simpa [Item.isInstance] using hm
      simpa [Choices.Declares, Item.isIn] using (h _ hv).mp (hwhole _ hv)
    · intro h v hv
      obtain ⟨m, hm, -⟩ := exists_member_of_isInstance hv
      rw [h] at hm
      exact absurd hm (List.not_mem_nil)
  | some (.tuple (c :: items)), hd, hmk =>
    obtain rfl : (Choices.tuple (c :: items)).Declares (.enum E) = declares := by
      simpa [Factory.declared] using hd
    rw [hmk (some (.tuple (c :: items))) rfl]
    exact kept_enum_iff (ht _ rfl)

theorem boolean_not_kept {required : Bool} {declares : Item → Prop}
    (hd : (Factory.boolean required).declared = some (.bool, declares)) :
    ¬ (Factory.boolean required).ChoicesKept parse .bool declares := by
  rintro ⟨spec, hspec, h⟩
  obtain rfl : (fun _ => True) = declares := by simpa [Factory.declared] using hd
  obtain rfl : FilterSpec.boolean required = spec := by injection hspec
  have hin := validateChoices_eq_nil_iff.mp ((h (.scalar (.bool true)) rfl).mpr trivial) _ rfl
  cases hin

/-- Choices that are false parse. -/
theorem exists_parsed_iff {choices : Choices} :
    (∃ cs, (if (some choices).any Choices.truthy then parseChoices parse (some choices)
      else .ok none) = .ok cs) ↔ ∃ cs, parseChoices parse (some choices) = .ok cs := by
  by_cases h : choices.truthy = true
  · simp [h]
  · refine iff_of_true ⟨none, by simp [h]⟩ ?_
    match choices, h with
    | .tuple [], _ => exact ⟨some [], rfl⟩

theorem collection_kept_iff {lookup : FilterLookupEnum} {required unique : Bool}
    {choices : Choices}
    (ht : (Factory.collection base lookup required (some choices) unique).Typed) :
    (Factory.collection base lookup required (some choices) unique).ChoicesKept parse base
      (choices.Declares base) ↔
    (Factory.collection base lookup required (some choices) unique).Preserved parse := by
  obtain ⟨hlookup, hchoices⟩ := ht
  have hparse : (∃ cs, parseChoices parse (some choices) = .ok cs) ↔
      ∀ items, choices = .tuple items → ∀ c ∈ items, c.Converts parse := by
    cases choices with
    | enumClass F => exact iff_of_true ⟨_, rfl⟩ (by simp)
    | tuple items =>
      have hsome : ∀ c ∈ items, choiceToDecimal parse c = c.toDecimal parse := fun c hc =>
        if_neg (ne_none_of_isInstance (hchoices _ rfl c hc))
      have hmap : (∃ cs, parseChoices parse (some (.tuple items)) = .ok cs) ↔
          ∃ ds, items.mapM (choiceToDecimal parse) = .ok ds := by
        simp [parseChoices, map_eq_ok]
      rw [hmap, exists_mapM_ok_iff]
      simp only [Choices.tuple.injEq, forall_eq']
      refine forall₂_congr fun c hc => ?_
      rw [hsome c hc, exists_toDecimal_iff]
  have hbuild : ∀ spec,
      (Factory.collection base lookup required (some choices) unique).build parse = .ok spec ↔
        (∀ items, choices = .tuple items → ∀ c ∈ items, c.Converts parse) ∧
        spec = { baseType := base, lookup, required, choices := none, unique } := by
    intro spec
    rw [← hparse, ← exists_parsed_iff, Factory.build, FilterSpec.collection,
      if_neg (not_not.mpr hlookup), map_eq_ok]
    exact ⟨fun ⟨cs, hcs, h⟩ => ⟨⟨cs, hcs⟩, h.symm⟩, fun ⟨⟨cs, hcs⟩, h⟩ => ⟨cs, hcs, h.symm⟩⟩
  unfold Factory.ChoicesKept
  simp only [hbuild, validateChoices_eq_nil_iff]
  constructor
  · rintro ⟨_, ⟨hconverts, rfl⟩, h⟩
    exact ⟨hconverts, fun v hv => (h v hv).mp (by simp)⟩
  · rintro ⟨hconverts, h⟩
    exact ⟨_, ⟨hconverts, rfl⟩, fun v hv => iff_of_true (by simp) (h v hv)⟩

end

/-! ## Every factory -/

/-- **A factory that declares a set of values returns a specification that accepts exactly that set,
if and only if its choices come through its conversions.** -/
theorem choicesKept_iff_preserved (parse : String → Option Numeral) (f : Factory) (base : PyType)
    (declares : Item → Prop) (ht : f.Typed) (hd : f.declared = some (base, declares)) :
    f.ChoicesKept parse base declares ↔ f.Preserved parse := by
  cases f with
  | numeric b field lookup required bounds choices =>
    obtain ⟨choices, rfl, hpair⟩ := Option.map_eq_some_iff.mp hd
    obtain ⟨rfl, rfl⟩ := Prod.mk.inj hpair
    exact numeric_kept_iff ht
  | string field required minLength maxLength choices =>
    obtain ⟨choices, rfl, hpair⟩ := Option.map_eq_some_iff.mp hd
    obtain ⟨rfl, rfl⟩ := Prod.mk.inj hpair
    exact string_kept_iff ht
  | enum E field required choices =>
    obtain rfl : .enum E = base := by
      cases choices <;> exact congrArg Prod.fst (Option.some.inj hd)
    exact enum_kept_iff ht hd
  | boolean required =>
    obtain rfl : .bool = base := congrArg Prod.fst (Option.some.inj hd)
    exact iff_of_false (boolean_not_kept hd) id
  | collection b lookup required choices unique =>
    obtain ⟨choices, rfl, hpair⟩ := Option.map_eq_some_iff.mp hd
    obtain ⟨rfl, rfl⟩ := Prod.mk.inj hpair
    exact collection_kept_iff ht
  | date | datetime | numericRange | dateRange | datetimeRange | json => cases hd

/-- A filter for one of two whole numbers. -/
theorem choicesKept_sizes :
    (Factory.numeric .int none .eq false {}
      (some (.tuple [.scalar (.int 10), .scalar (.int 20)]))).ChoicesKept (fun _ => none) .int
      ((Choices.tuple [.scalar (.int 10), .scalar (.int 20)]).Declares .int) :=
  (choicesKept_iff_preserved (fun _ => none) (.numeric .int none .eq false {} _) _ _
    ⟨by decide, by decide, by simp [Bounds.all], by
      rintro c ⟨⟩
      simp [Choices.Typed, Item.isInstance, Item.data]⟩ rfl).mpr (by simp [Factory.Preserved])

/-- A filter for a `bool` refuses `True`, and a filter for one of two strings is not built. -/
theorem choices_not_kept :
    (Factory.boolean false).declared = some (.bool, fun _ => True) ∧
      (∃ spec, (Factory.boolean false).build (fun _ => none) = .ok spec ∧
        validateChoices spec (.item (.scalar (.bool true))) = [choicesDetail spec]) ∧
      ¬ (Factory.boolean false).ChoicesKept (fun _ => none) .bool (fun _ => True) ∧
      (Factory.string none false none none
        (some (.tuple [.scalar (.str "new"), .scalar (.str "used")]))).build (fun _ => none) =
          .error .invalidOperation :=
  ⟨rfl, ⟨_, rfl, rfl⟩, boolean_not_kept rfl, rfl⟩

end ApiTemplate.Filtering
