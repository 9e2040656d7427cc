import ApiTemplate.Filtering.Checks

/-!
# What the validator does with a value

For each lookup, when no error but a rejection leaves the validator, and which values it accepts.
-/

namespace ApiTemplate.Filtering

open Fallible

namespace FilterValidator

variable {spec : FilterSpec} {value : Value}

/-! ## Scalars -/

/-- A string is as long as the specification asks. -/
def LengthFits (spec : FilterSpec) (length : ℕ) : Prop :=
  (∀ m, spec.minLength = some m → m ≤ length) ∧ ∀ m, spec.maxLength = some m → (length : ℤ) ≤ m

theorem checks_validateLength
    (h : spec.minLength ≠ none ∨ spec.maxLength ≠ none → ∃ length, value.len = .ok length) :
    Checks (validateLength spec value) True
      (∀ length, value.len = .ok length → LengthFits spec length) := by
  unfold validateLength LengthFits
  by_cases hnone : spec.minLength = none ∧ spec.maxLength = none
  · rw [if_pos hnone]
    exact Checks.nil.congr Iff.rfl (by simp [hnone])
  · rw [if_neg hnone]
    obtain ⟨length, hlength⟩ := h (by tauto)
    simp only [hlength, Except.map, Except.ok.injEq, forall_eq']
    refine .of_ok rfl ?_ ?_
    · split <;> simp [Plain, lengthDetail]
    · cases spec.minLength <;> cases spec.maxLength <;> simp [not_lt]

/-- The bounds, the length and the choices admit the value. -/
def Admissible (spec : FilterSpec) (x : Item) : Prop :=
  Within spec.toBounds x ∧ (∀ length, (Value.item x).len = .ok length → LengthFits spec length) ∧
    Chosen spec x

theorem validateScalar_item {x : Item} (hx : x ≠ .none) : validateScalar spec (.item x) =
    both (both (validateBounds spec (.item x)) (validateLength spec (.item x)))
      (.ok (validateChoices spec (.item x))) >>= finish := by
  have hnone : Value.item x ≠ .none := by simpa using hx
  unfold validateScalar
  rw [if_neg hnone]
  simp only [both, bind_assoc, pure_bind]
  rfl

theorem checks_scalar (x : Item)
    (h : spec.minLength ≠ none ∨ spec.maxLength ≠ none → ∃ length, (Value.item x).len = .ok length) :
    Checks (both (both (validateBounds spec (.item x)) (validateLength spec (.item x)))
      (.ok (validateChoices spec (.item x)))) (∀ y ∈ spec.all, x.Comparable y)
      (Admissible spec x) :=
  (((checks_validateBounds spec x).both (checks_validateLength h)).both
    (checks_validateChoices spec x)).congr (by simp) (by simp [Admissible, and_assoc])

/-! ## Ranges -/

variable {lo hi : Item}

/-- The endpoints that have to be present are. -/
def Present (spec : FilterSpec) (lo hi : Item) : Prop :=
  (lo ≠ .none ∨ hi ≠ .none) ∧ (spec.bothRequired = true → lo ≠ .none ∧ hi ≠ .none)

/-- The endpoints can be compared with each other and with the bounds. -/
def RangeComparable (spec : FilterSpec) (lo hi : Item) : Prop :=
  (lo ≠ .none → hi ≠ .none → lo.Comparable hi) ∧
    (lo ≠ .none → ∀ y ∈ spec.all, lo.Comparable y) ∧ (hi ≠ .none → ∀ y ∈ spec.all, hi.Comparable y)

/-- The endpoints are in order and admitted. -/
def RangeAdmissible (spec : FilterSpec) (lo hi : Item) : Prop :=
  (lo ≠ .none → hi ≠ .none → lo.compare .gt hi = .ok false) ∧
    (lo ≠ .none → Within spec.toBounds lo ∧ Chosen spec lo) ∧
    (hi ≠ .none → Within spec.toBounds hi ∧ Chosen spec hi)

theorem checks_range (spec : FilterSpec) (lo hi : Item) :
    Checks (both (both (validateOrder spec lo hi) (validatePresent spec lo))
      (validatePresent spec hi)) (RangeComparable spec lo hi) (RangeAdmissible spec lo hi) :=
  (((checks_validateOrder spec lo hi).both (checks_validatePresent spec lo)).both
    (checks_validatePresent spec hi)).congr and_assoc and_assoc

theorem validateRange_of_not_present (hp : ¬ Present spec lo hi) :
    ∃ e, validateRange spec (.tuple [lo, hi]) = .error e ∧ Rejects e := by
  unfold validateRange
  simp only [elements, reduceCtorEq, if_false]
  by_cases hnone : lo = .none ∧ hi = .none
  · exact ⟨_, if_pos hnone, rfl⟩
  · rw [if_neg hnone, if_pos (by unfold Present at hp; tauto),
      raiseDetails_of_plain (by simp [Plain, requiredDetail])]
    exact ⟨_, rfl, rfl⟩

theorem validateRange_of_present (hp : Present spec lo hi) :
    validateRange spec (.tuple [lo, hi]) =
      both (both (validateOrder spec lo hi) (validatePresent spec lo))
        (validatePresent spec hi) >>= finish := by
  unfold validateRange
  simp only [elements, reduceCtorEq, if_false, both, bind_assoc, pure_bind]
  rw [if_neg (by unfold Present at hp; tauto), if_neg (by unfold Present at hp; tauto)]

theorem failsIn_validateRange : FailsIn Rejects (validateRange spec (.tuple [lo, hi])) ↔
    (Present spec lo hi → RangeComparable spec lo hi) := by
  by_cases hp : Present spec lo hi
  · rw [validateRange_of_present hp, (checks_range spec lo hi).failsIn_finish_iff]
    simp [hp]
  · obtain ⟨e, he, hrejects⟩ := validateRange_of_not_present hp
    rw [he]
    simpa [hp] using hrejects

/-- The set of the elements that are met again, where `seen` and `duplicates` are the sets so
far. -/
def repeated : List Item → List Item → List Item → List Item
  | _, duplicates, [] => duplicates
  | seen, duplicates, x :: items =>
    repeated (x.addTo seen) (if x.isIn seen then x.addTo duplicates else duplicates) items

/-- An element is met again if it matches an element before it. -/
theorem forall_repeated_iff {P : Item → Prop}
    (hP : ∀ x y : Item, (x.same y = true ∨ x.eq y = true) → P y → P x) (duplicates items : List Item)
    {seen before : List Item} (hseen : ∀ x : Item, x.isIn seen = true ↔ x.isIn before = true) :
    (∀ x ∈ repeated seen duplicates items, P x) ↔ (∀ x ∈ duplicates, P x) ∧
      ∀ front x rest, items = front ++ x :: rest → x.isIn (before ++ front) = true → P x := by
  induction items generalizing seen before duplicates with
  | nil => simp [repeated]
  | cons x items ih =>
    have hcons : (∀ front y rest, x :: items = front ++ y :: rest →
        y.isIn (before ++ front) = true → P y) ↔ (x.isIn before = true → P x) ∧
        ∀ front y rest, items = front ++ y :: rest →
          y.isIn (before ++ [x] ++ front) = true → P y := by
      constructor
      · intro h
        refine ⟨fun hx => h [] x items rfl (by simpa using hx), fun front y rest hitems hy => ?_⟩
        exact h (x :: front) y rest (by rw [hitems]; rfl) (by simpa using hy)
      · rintro ⟨hx, h⟩ front y rest hitems hy
        rcases List.cons_eq_append_iff.mp hitems with ⟨rfl, hy'⟩ | ⟨front', rfl, hitems'⟩
        · obtain ⟨rfl, -⟩ := List.cons.inj hy'
          exact hx (by simpa using hy)
        · exact h front' y rest hitems' (by simpa using hy)
    have hseen' : ∀ y : Item, y.isIn (x.addTo seen) = true ↔ y.isIn (before ++ [x]) = true := by
      intro y
      rw [Item.isIn_addTo, Item.isIn_append_singleton, Item.isIn_append_singleton, hseen]
    rw [hcons, repeated, ih _ hseen', ← and_assoc, ← hseen]
    refine and_congr_left fun _ => ?_
    by_cases hx : x.isIn seen = true
    · rw [if_pos hx, Item.forall_addTo_iff hP, forall_prop_of_true hx]
    · rw [if_neg hx]
      exact (and_iff_left fun h => absurd h hx).symm

section

variable {items : List Item}

/-- Without bounds and choices, the loop fails on an element that cannot be hashed. -/
theorem validateElements_of_free (hall : spec.all = []) (hchoices : spec.choices = none)
    (seen duplicates : List Item) : validateElements spec seen duplicates items =
      if items.all Item.hashable then .ok ([], repeated seen duplicates items)
      else .error .typeError := by
  have hendpoint : ∀ x, validateEndpoint spec x = .ok [] := by
    intro x
    obtain ⟨details, hok, -, hnil⟩ := (checks_validateEndpoint spec x).finds (by simp [hall])
    rw [hok, hnil.mpr ?_]
    simp only [Bounds.all, List.append_eq_nil_iff, Option.toList_eq_nil_iff] at hall
    exact ⟨by simp [Within, hall], fun cs h => by simp [hchoices] at h⟩
  induction items generalizing seen duplicates with
  | nil => rfl
  | cons x items ih =>
    rw [validateElements, hendpoint, ih]
    cases hx : x.hashable with
    | false => simp [hx]; rfl
    | true =>
      have hhash : (x :: items).all Item.hashable = items.all Item.hashable := by simp [hx]
      rw [hhash, repeated]
      cases items.all Item.hashable with
      | false => rfl
      | true => rfl

/-- A set can be made of the elements, and another one of what the repeated ones are dumped to. -/
def Hashable (items : List Item) : Prop :=
  (∀ x ∈ items, x.hashable = true) ∧
    ∀ front x rest, items = front ++ x :: rest → x.isIn front = true → x.dumpHashable = true

theorem hashable_iff : Hashable items ↔
    items.all Item.hashable = true ∧ ∀ x ∈ repeated [] [] items, x.dumpHashable = true := by
  have hrepeated := forall_repeated_iff (P := fun x => x.dumpHashable = true)
    (fun x y h => (Item.dumpHashable_congr h).mpr) [] items
    fun x => Iff.refl (x.isIn [] = true)
  rw [hrepeated, List.all_eq_true]
  simp [Hashable]

theorem failsIn_duplicates (spec : FilterSpec) (duplicates : List Item) :
    FailsIn Rejects (finish (if duplicates = [] then [] else [duplicateDetail spec duplicates])) ↔
      ∀ x ∈ duplicates, x.dumpHashable = true := by
  by_cases hnil : duplicates = []
  · simp [hnil, finish]
  · rw [if_neg hnil, finish, if_neg (by simp), raiseDetails]
    by_cases hdump : ∀ x ∈ duplicates, x.dumpHashable = true
    · rw [if_pos (by simpa [duplicateDetail] using hdump)]
      simpa using hdump
    · rw [if_neg (by simpa [duplicateDetail] using hdump)]
      simpa using hdump

theorem failsIn_validateCollection (hall : spec.all = []) (hchoices : spec.choices = none)
    (htyped : ∀ x ∈ items, x ≠ .none → x.isInstance spec.baseType = true) :
    FailsIn Rejects (validateCollection spec (.tuple items)) ↔
      .none ∈ items ∨ Hashable items := by
  have hplain : Plain [invalidValueDetail spec] := by simp [Plain, invalidValueDetail]
  unfold validateCollection
  simp only [elements, reduceCtorEq, if_false]
  by_cases hnone : .none ∈ items
  · refine iff_of_true ?_ (.inl hnone)
    split
    · exact failsIn_absent spec
    · rw [if_pos (by simpa using hnone)]
      exact failsIn_raiseDetails hplain
  · have hany : items.any (· = .none) = false := by
      simpa using fun x hx => ne_of_mem_of_not_mem hx hnone
    have hinst : items.any (fun x => !x.isInstance spec.baseType) = false := by
      simp only [List.any_eq_false, Bool.not_eq_true', Bool.not_eq_false]
      exact fun x hx => htyped x hx (ne_of_mem_of_not_mem hx hnone)
    rw [hany, hinst, validateElements_of_free hall hchoices, hashable_iff]
    simp only [hnone, false_or, Bool.false_eq_true, if_false]
    by_cases hempty : items.all (· = .none) = true
    · obtain rfl : items = [] := by
        refine List.eq_nil_iff_forall_not_mem.mpr fun x hx => hnone ?_
        have hx' : x = .none := by simpa using List.all_eq_true.mp hempty x hx
        rwa [← hx']
      exact iff_of_true (failsIn_absent spec) (by simp [repeated])
    · rw [if_neg hempty]
      by_cases hhash : items.all Item.hashable = true
      · rw [if_pos hhash, and_iff_right hhash, ← failsIn_duplicates spec]
        rfl
      · rw [if_neg hhash]
        exact iff_of_false (by simp [failsIn_bind]) fun h => hhash h.1

/-! ## JSON -/

theorem failsIn_validateJson : FailsIn Rejects (validateJson spec value) := by
  unfold validateJson
  split
  · exact failsIn_absent spec
  · cases he : elements value with
    | none => exact failsIn_raiseDetails (by simp [Plain, invalidValueDetail])
    | some items =>
      have hlen : ∃ length, value.len = .ok length := by
        cases value <;> simp [elements, Value.len] at he ⊢
      exact (checks_validateLength fun _ => hlen).failsIn_finish_iff.mpr trivial

end

end FilterValidator

end ApiTemplate.Filtering
