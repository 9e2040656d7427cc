import ApiTemplate.Filtering.Validation

/-!
# Collections of values

Which lists the validator accepts for a specification of `FilterSpec.collection` without choices.
The flag `unique` of the specification is not read: a list in which an element occurs twice is
rejected whether the flag is set or not.
-/

namespace ApiTemplate.Filtering

open FilterValidator Fallible

/-- No element occurs twice. -/
def Distinct (items : List Item) : Prop :=
  ∀ front x rest, items = front ++ x :: rest → x.isIn front = false

/-- There are elements, and each of them is an instance of the type. -/
def Filled (base : PyType) (items : List Item) : Prop :=
  items ≠ [] ∧ .none ∉ items ∧ ∀ x ∈ items, x.isInstance base = true

/-- The lists that a collection with the flag `unique` is for. -/
def CollectionAccepts (base : PyType) (required unique : Bool) (items : List Item) : Prop :=
  ((∀ x ∈ items, x = .none) ∧ required = false) ∨
    Filled base items ∧ (unique = true → Distinct items)

theorem repeated_eq_nil_iff {items : List Item} :
    repeated [] [] items = [] ↔ Distinct items := by
  have hrepeated := forall_repeated_iff (P := fun _ => False) (fun _ _ _ => id) [] items
    fun x => Iff.refl (x.isIn [] = true)
  rw [List.eq_nil_iff_forall_not_mem]
  refine hrepeated.trans ?_
  simp only [List.nil_append, Distinct, Bool.eq_false_iff, ne_eq, List.not_mem_nil, false_imp_iff,
    implies_true, true_and]

theorem distinct_singleton (x : Item) : Distinct [x] := by
  intro front y rest h
  obtain rfl : front = [] := by
    have hlen := congrArg List.length h
    simp only [List.length_append, List.length_cons, List.length_nil] at hlen
    exact List.length_eq_zero_iff.mp (by omega)
  rfl

section

variable {spec : FilterSpec} {items : List Item}

theorem validateCollection_of_filled (hall : spec.all = []) (hchoices : spec.choices = none)
    (hfilled : Filled spec.baseType items) : validateCollection spec (.tuple items) = .ok () ↔
      (∀ x ∈ items, x.hashable = true) ∧ Distinct items := by
  obtain ⟨hne, hnone, hinst⟩ := hfilled
  obtain ⟨y, hy⟩ := List.exists_mem_of_ne_nil items hne
  have hsome : ∀ x ∈ items, x ≠ .none := fun x hx => ne_of_mem_of_not_mem hx hnone
  have hnulls : items.all (· = .none) = false :=
    List.all_eq_false.mpr ⟨y, hy, by simpa using hsome y hy⟩
  have hany : items.any (· = .none) = false := by simpa using hsome
  have hother : items.any (fun x => !x.isInstance spec.baseType) = false := by simpa using hinst
  unfold validateCollection
  simp only [elements, reduceCtorEq, if_false, hnulls, hany, hother, Bool.false_eq_true,
    validateElements_of_free hall hchoices]
  by_cases hhash : items.all Item.hashable = true
  · rw [if_pos hhash]
    show finish (if repeated [] [] items = [] then [] else _) = .ok () ↔ _
    rw [finish_eq_ok_iff, ← repeated_eq_nil_iff, List.all_eq_true.symm, and_iff_right hhash]
    split <;> simp_all
  · rw [if_neg hhash]
    exact iff_of_false (by simp [bind, Except.bind]) fun h => hhash (List.all_eq_true.mpr h.1)

theorem absent_eq_ok_iff : absent spec = .ok () ↔ spec.required = false := by
  unfold absent
  cases spec.required <;> simp [raiseDetails_ne_ok]

theorem validateCollection_eq_ok_iff (hall : spec.all = []) (hchoices : spec.choices = none) :
    validateCollection spec (.tuple items) = .ok () ↔
      ((∀ x ∈ items, x = .none) ∧ spec.required = false) ∨
        Filled spec.baseType items ∧ (∀ x ∈ items, x.hashable = true) ∧ Distinct items := by
  by_cases hfilled : Filled spec.baseType items
  · rw [validateCollection_of_filled hall hchoices hfilled]
    refine ⟨fun h => .inr ⟨hfilled, h⟩, ?_⟩
    rintro (⟨hnulls, -⟩ | ⟨-, h⟩)
    · obtain ⟨y, hy⟩ := List.exists_mem_of_ne_nil items hfilled.1
      exact absurd hy (hnulls y hy ▸ hfilled.2.1)
    · exact h
  · have hor : (((∀ x ∈ items, x = .none) ∧ spec.required = false) ∨
        Filled spec.baseType items ∧ (∀ x ∈ items, x.hashable = true) ∧ Distinct items) ↔
        (∀ x ∈ items, x = .none) ∧ spec.required = false := by simp [hfilled]
    rw [hor]
    unfold validateCollection
    simp only [elements, reduceCtorEq, if_false]
    by_cases hnulls : items.all (· = .none) = true
    · rw [if_pos hnulls, absent_eq_ok_iff]
      exact ⟨fun h => ⟨by simpa using hnulls, h⟩, And.right⟩
    · rw [if_neg hnulls]
      have hne : items ≠ [] := by
        rintro rfl
        exact hnulls rfl
      refine iff_of_false ?_ fun h => hnulls (by simpa using h.1)
      by_cases hany : items.any (· = .none) = true
      · rw [if_pos hany]
        exact raiseDetails_ne_ok _ _
      · rw [if_neg hany]
        have hother : items.any (fun x => !x.isInstance spec.baseType) = true := by
          by_contra hno
          refine hfilled ⟨hne, by simpa using hany, by simpa using hno⟩
        rw [if_pos hother]
        exact raiseDetails_ne_ok _ _

end

/-- **The validator accepts what the collection is for, of a list that is filled with instances, if
and only if the flag is set or no element occurs twice, and all elements can be hashed unless one
occurs twice. Of every other list it does.** -/
theorem collection_accepts_iff (parse : String → Option Numeral) (base : PyType)
    (lookup : FilterLookupEnum) (required unique : Bool) (name : String) (spec : FilterSpec)
    (hspec : (FilterSpec.collection parse base lookup required none unique).map (·.bind name) =
      .ok spec) (items : List Item) :
    (validate spec (.tuple items) = .ok () ↔ CollectionAccepts base required unique items) ↔
      (Filled base items → (unique = true ∨ Distinct items) ∧
        (Distinct items → ∀ x ∈ items, x.hashable = true)) := by
  obtain ⟨built, hbuilt, rfl⟩ := map_eq_ok.mp hspec
  unfold FilterSpec.collection at hbuilt
  split at hbuilt
  · cases hbuilt
  · rename_i hlookup
    obtain ⟨cs, -, rfl⟩ := map_eq_ok.mp hbuilt
    obtain rfl : lookup = .in := by simpa [COLLECTION_ALLOWED_LOOKUPS] using hlookup
    have hvalidate : validate (FilterSpec.bind
        { baseType := base, lookup := .in, required, choices := none, unique } name)
        (.tuple items) = .ok () ↔ _ := validateCollection_eq_ok_iff rfl rfl
    rw [hvalidate]
    unfold CollectionAccepts FilterSpec.bind
    dsimp only
    by_cases hnulls : ∀ x ∈ items, x = .none
    · have hno : ¬ Filled base items := by
        rintro ⟨hne, hnone, -⟩
        obtain ⟨y, hy⟩ := List.exists_mem_of_ne_nil items hne
        exact hnone (hnulls y hy ▸ hy)
      simp [hno]
    · by_cases hfilled : Filled base items
      · by_cases hdistinct : Distinct items
        · cases unique <;> simp [hnulls, hfilled, hdistinct]
        · cases unique <;> simp [hnulls, hfilled, hdistinct]
      · simp [hnulls, hfilled]

/-- A filter for identifiers, with or without the flag. -/
def idsSpec (unique : Bool) : FilterSpec :=
  { baseType := .int, lookup := .in, field := some "id", unique }

theorem collection_accepts_one :
    validate (idsSpec false) (.tuple [.scalar (.int 1)]) = .ok () ↔
      CollectionAccepts .int false false [.scalar (.int 1)] :=
  (collection_accepts_iff (fun _ => none) .int .in false false "id" (idsSpec false) rfl
    [.scalar (.int 1)]).mpr fun _ => ⟨.inr (distinct_singleton _), fun _ => by decide⟩

/-- Without the flag, a list with an element twice is rejected all the same. -/
theorem collection_rejects_repeated :
    (FilterSpec.collection (fun _ => none) .int .in false none false).map (·.bind "id") =
      .ok (idsSpec false) ∧
    ¬ (validate (idsSpec false) (.tuple [.scalar (.int 1), .scalar (.int 1)]) = .ok () ↔
      CollectionAccepts .int false false [.scalar (.int 1), .scalar (.int 1)]) := by
  refine ⟨rfl, fun h => ?_⟩
  have haccepts : CollectionAccepts .int false false [.scalar (.int 1), .scalar (.int 1)] :=
    .inr ⟨⟨by decide, by decide, by decide⟩, nofun⟩
  have hrejects : ¬ validate (idsSpec false) (.tuple [.scalar (.int 1), .scalar (.int 1)]) =
      .ok () := by decide
  exact hrejects (h.mpr haccepts)

end ApiTemplate.Filtering
