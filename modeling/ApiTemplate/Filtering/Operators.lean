import ApiTemplate.Filtering.Value

/-!
# Facts about the operators

`==` between a value and a number goes by the number alone, so a conversion to `Decimal` keeps it.
-/

namespace ApiTemplate.Filtering

theorem Numeral.cmp_self {x : Numeral} (h : x ≠ .nan) : x.cmp x = some .eq := by
  cases x with
  | nan => exact absurd rfl h
  | finite q => simp [cmp]
  | infinite negative => simp [cmp]

theorem Scalar.eq_of_number {a b : Scalar} {y : Numeral} (h : b.number = some y) :
    a.eq b = a.number.elim false fun x => decide (x.cmp y = some .eq) := by
  cases b <;> simp only [number, reduceCtorEq, Option.some.injEq] at h <;> subst h <;>
    (cases a <;> simp [eq, number])

theorem Numeral.cmp_eq_iff {x y : Numeral} : x.cmp y = some .eq ↔ x = y ∧ x ≠ .nan := by
  cases x with
  | nan => simp [cmp]
  | finite p =>
    cases y with
    | infinite b => cases b <;> simp [cmp]
    | _ => simp [cmp]
  | infinite a =>
    cases y with
    | finite q => cases a <;> simp [cmp]
    | infinite b => cases a <;> cases b <;> simp [cmp]
    | nan => simp [cmp]

/-- What `==` compares of a number: nothing of a `nan`. -/
def Numeral.code (x : Numeral) : Option Scalar := if x = .nan then none else some (.decimal x)

/-- What `==` compares, the same for all numbers of one value and for all datetimes of one
instant. -/
def Scalar.code : Scalar → Option Scalar
  | .str s => some (.str s)
  | .date n => some (.date n)
  | .datetime m none => some (.datetime m none)
  | .datetime m (some o) => some (.datetime (m - o) (some 0))
  | s => s.number.bind Numeral.code

theorem Numeral.code_eq_iff {x y : Numeral} :
    (x.code = y.code ∧ x.code ≠ none) ↔ x = y ∧ x ≠ .nan := by
  unfold code
  by_cases hx : x = .nan <;> by_cases hy : y = .nan <;> simp_all [eq_comm]

theorem Scalar.code_of_number {a : Scalar} {x : Numeral} (h : a.number = some x) :
    a.code = x.code := by
  cases a <;> simp_all [number, code]

theorem Scalar.eq_iff_code {a b : Scalar} :
    a.eq b = true ↔ a.code = b.code ∧ a.code ≠ none := by
  by_cases hnumber : (∃ x, a.number = some x) ∧ ∃ y, b.number = some y
  · obtain ⟨⟨x, hx⟩, y, hy⟩ := hnumber
    rw [eq_of_number hy, hx, code_of_number hx, code_of_number hy, Numeral.code_eq_iff,
      Option.elim_some, decide_eq_true_iff, Numeral.cmp_eq_iff]
  · cases a with
    | datetime m o =>
      cases b with
      | datetime n p => cases o <;> cases p <;> simp [eq, code, number]
      | _ => cases o <;> simp [eq, code, number, Numeral.code, eq_comm]
    | _ =>
      cases b with
      | datetime n p => cases p <;> simp_all [eq, code, number, Numeral.code]
      | _ => simp_all [eq, code, number, Numeral.code]

theorem Scalar.eq_trans {a b c : Scalar} (hab : a.eq b = true) (hbc : b.eq c = true) :
    a.eq c = true := by
  rw [eq_iff_code] at hab hbc ⊢
  exact ⟨hab.1.trans hbc.1, hab.2⟩

namespace Item

/-- The value of a number. -/
def number (x : Item) : Option Numeral := x.data.bind Scalar.number

@[simp] theorem number_decimal (y : Numeral) :
    (Item.scalar (.decimal y)).number = some y := rfl

theorem same_iff {a b : Item} : a.same b = true ↔ a = b ∧ ∀ s, a ≠ .scalar s := by
  cases a <;> simp [same]

theorem same_self_of_member (m : Member) : (Item.member m).same (.member m) = true := by
  simp [same]

theorem not_same_scalar (a : Item) (s : Scalar) : a.same (.scalar s) = false := by
  cases a <;> simp [same]

theorem eq_of_data {a b : Item} {s t : Scalar} (ha : a.data = some s) (hb : b.data = some t) :
    a.eq b = s.eq t := by
  unfold eq
  rw [ha, hb]

theorem eq_of_data_none {a b : Item} (hb : b.data = Option.none) : a.eq b = a.same b := by
  unfold eq
  rw [hb]
  cases a.data <;> rfl

theorem eq_of_number {a b : Item} {y : Numeral} (h : b.number = some y) :
    a.eq b = a.number.elim false fun x => decide (x.cmp y = some .eq) := by
  unfold number at h
  obtain ⟨t, ht, hy⟩ := Option.bind_eq_some_iff.mp h
  cases ha : a.data with
  | some s =>
    rw [eq_of_data ha ht, number, ha, Option.bind_some]
    exact Scalar.eq_of_number hy
  | none =>
    simp only [eq, ha, number, Option.bind_none, Option.elim_none]
    rw [Bool.eq_false_iff]
    intro hsame
    rw [(same_iff.mp hsame).1, ht] at ha
    cases ha

/-- A number stays the same choice when it is converted. -/
theorem eq_decimal {a b : Item} {y : Numeral} (h : b.number = some y) :
    a.eq b = a.eq (.scalar (.decimal y)) := by
  rw [eq_of_number h, eq_of_number (number_decimal y)]

theorem eq_self_of_number {a : Item} {y : Numeral} (h : a.number = some y) (hy : y ≠ .nan) :
    a.eq a = true := by
  simp [eq_of_number h, h, Numeral.cmp_self hy]

theorem eq_self_of_str {a : Item} {s : String} (h : a.data = some (.str s)) : a.eq a = true := by
  simp [eq, h, Scalar.eq]

/-- A value that is no number, or no number but `nan`, equals no `Decimal`. -/
theorem not_eq_decimal {a : Item} (h : ∀ x, a.number = some x → x = .nan) (y : Numeral) :
    a.eq (.scalar (.decimal y)) = false := by
  rw [eq_of_number (number_decimal y)]
  cases ha : a.number with
  | none => rfl
  | some x =>
    rw [h x ha]
    rfl

theorem isIn_iff {a : Item} {items : List Item} :
    a.isIn items = true ↔ ∃ c ∈ items, a.same c = true ∨ a.eq c = true := by
  simp [isIn]

/-- Two values are the same element of a set if they are one object, or their data is equal. -/
theorem matches_iff {a b : Item} : (a.same b = true ∨ a.eq b = true) ↔
    (a = b ∧ ∀ s, a ≠ .scalar s) ∨
      ∃ s t, a.data = some s ∧ b.data = some t ∧ s.eq t = true := by
  rw [same_iff]
  constructor
  · rintro (hsame | heq)
    · exact .inl hsame
    · cases ha : a.data with
      | none =>
        simp only [eq, ha] at heq
        exact .inl (same_iff.mp heq)
      | some s =>
        cases hb : b.data with
        | none =>
          rw [eq_of_data_none hb] at heq
          exact .inl (same_iff.mp heq)
        | some t =>
          rw [eq_of_data ha hb] at heq
          exact .inr ⟨s, t, rfl, rfl, heq⟩
  · rintro (hsame | ⟨s, t, ha, hb, heq⟩)
    · exact .inl hsame
    · exact .inr ((eq_of_data ha hb).trans heq)

theorem matches_trans {a b c : Item} (hab : a.same b = true ∨ a.eq b = true)
    (hbc : b.same c = true ∨ b.eq c = true) : a.same c = true ∨ a.eq c = true := by
  rw [matches_iff] at hab hbc ⊢
  rcases hab with ⟨rfl, -⟩ | ⟨s, t, ha, hb, hst⟩
  · exact hbc
  · rcases hbc with ⟨rfl, -⟩ | ⟨t', u, hb', hc, htu⟩
    · exact .inr ⟨s, t, ha, hb, hst⟩
    · obtain rfl : t = t' := Option.some.inj (hb.symm.trans hb')
      exact .inr ⟨s, u, ha, hc, Scalar.eq_trans hst htu⟩

/-! ## Sets -/

theorem isIn_append_singleton {a x : Item} {items : List Item} :
    a.isIn (items ++ [x]) = true ↔ a.isIn items = true ∨ (a.same x = true ∨ a.eq x = true) := by
  simp [isIn]

/-- A set that has `x` is left as it is, and then it has what matches `x`. -/
theorem isIn_addTo {a x : Item} {items : List Item} :
    a.isIn (x.addTo items) = true ↔ a.isIn (items ++ [x]) = true := by
  unfold addTo
  split
  · rename_i hx
    rw [isIn_append_singleton]
    refine ⟨.inl, ?_⟩
    rintro (ha | ha)
    · exact ha
    · obtain ⟨c, hc, hxc⟩ := isIn_iff.mp hx
      exact isIn_iff.mpr ⟨c, hc, matches_trans ha hxc⟩
  · exact Iff.rfl

/-- A property of what matches holds in a set with `x` if it holds in the set and of `x`. -/
theorem forall_addTo_iff {P : Item → Prop}
    (hP : ∀ x y : Item, (x.same y = true ∨ x.eq y = true) → P y → P x) {x : Item}
    {items : List Item} : (∀ y ∈ x.addTo items, P y) ↔ (∀ y ∈ items, P y) ∧ P x := by
  unfold addTo
  split
  · rename_i hx
    obtain ⟨c, hc, hxc⟩ := isIn_iff.mp hx
    exact (and_iff_left_of_imp fun h => hP x c hxc (h c hc)).symm
  · simp [or_imp, forall_and]

/-- Two objects that are the same element of a set are dumped alike. -/
theorem dumpHashable_congr {a b : Item} (h : a.same b = true ∨ a.eq b = true) :
    a.dumpHashable = true ↔ b.dumpHashable = true := by
  obtain ⟨rfl, -⟩ | ⟨s, t, ha, hb, -⟩ := matches_iff.mp h
  · exact Iff.rfl
  · have hdata : ∀ {c : Item} {u : Scalar}, c.data = some u → c.dumpHashable = true := by
      intro c u hc
      cases c with
      | object o => cases hc
      | _ => rfl
    exact iff_of_true (hdata ha) (hdata hb)

/-! ## Conversion to `Decimal` -/

variable {parse : String → Option Numeral}

theorem toDecimal_of_number {a : Item} {y : Numeral} (h : a.number = some y) :
    a.toDecimal parse = .ok (.scalar (.decimal y)) := by
  unfold number at h
  obtain ⟨s, hs, hy⟩ := Option.bind_eq_some_iff.mp h
  cases s <;> simp_all [toDecimal, Scalar.number]

theorem toDecimal_eq_ok {a b : Item} (h : a.toDecimal parse = .ok b) :
    ∃ y, b = .scalar (.decimal y) ∧ (a.number = some y ∨
      ∃ s, a.data = some (.str s) ∧ parse s = some y) := by
  cases hdata : a.data with
  | none => simp [toDecimal, hdata] at h
  | some t =>
    have hnumber : a.number = t.number := by simp [number, hdata]
    by_cases hs : ∃ s, t = .str s
    · obtain ⟨s, rfl⟩ := hs
      cases hy : parse s with
      | none => simp [toDecimal, hdata, hy] at h
      | some y =>
        simp only [toDecimal, hdata, hy, Except.ok.injEq] at h
        exact ⟨y, h.symm, .inr ⟨s, rfl, hy⟩⟩
    · cases hy : t.number with
      | none =>
        cases t <;> simp_all [toDecimal, Scalar.number]
      | some y =>
        rw [toDecimal_of_number (hnumber.trans hy)] at h
        exact ⟨y, (Except.ok.inj h).symm, .inl (hnumber.trans hy)⟩

end Item

/-! ## Instances -/

theorem ne_none_of_isInstance {c : Item} {T : PyType} (h : c.isInstance T = true) :
    c ≠ .none := by
  rintro rfl
  cases T <;> simp [Item.isInstance, Item.data] at h

theorem data_ne_none_of_isInstance {base : PyType}
    (hbase : base ∈ [PyType.int, .float, .decimal, .str])
    {v : Item} (h : v.isInstance base = true) : v.data ≠ none := by
  intro hnone
  simp only [List.mem_cons, List.not_mem_nil, or_false] at hbase
  rcases hbase with rfl | rfl | rfl | rfl <;> simp [Item.isInstance, hnone] at h

theorem number_of_isInstance {base : PyType}
    (hbase : base ∈ [PyType.int, .float, .decimal]) {v : Item}
    (h : v.isInstance base = true) : ∃ y, v.number = some y := by
  obtain ⟨s, hs⟩ := Option.ne_none_iff_exists'.mp
    (data_ne_none_of_isInstance (List.mem_append_left [PyType.str] hbase) h)
  simp only [List.mem_cons, List.not_mem_nil, or_false] at hbase
  rcases hbase with rfl | rfl | rfl <;> cases s <;>
    simp_all [Item.isInstance, Item.number, Scalar.number]

theorem str_of_isInstance {v : Item} (h : v.isInstance .str = true) :
    ∃ s, v.data = some (.str s) := by
  obtain ⟨s, hs⟩ := Option.ne_none_iff_exists'.mp (data_ne_none_of_isInstance (by simp) h)
  cases s <;> simp_all [Item.isInstance]

end ApiTemplate.Filtering
