import ApiTemplate.Fallible.Results
import ApiTemplate.Filtering.Operators
import ApiTemplate.Filtering.Validator

/-!
# The constraint checks

When the checks of the validator can be made at all, and what they find. A comparison of values of
different kinds raises an error that is no rejection.
-/

namespace ApiTemplate.Filtering

open Fallible

/-- The error refuses the request. -/
def Rejects (e : PyError) : Prop := e.rejects = true

@[simp] theorem rejects_iff {e : PyError} : Rejects e ↔ e.rejects = true := Iff.rfl

/-! ## Comparable values -/

/-- Two values that the order comparisons accept: strings, dates, datetimes that are both naive or
both aware, and numbers, of which none is `nan` if one is a `Decimal`. -/
def Scalar.Comparable (a b : Scalar) : Prop :=
  match a, b with
  | .str _, .str _ => True
  | .date _, .date _ => True
  | .datetime _ o, .datetime _ p => o.isSome = p.isSome
  | a, b => ∃ x y, a.number = some x ∧ b.number = some y ∧
      (x = .nan ∨ y = .nan → a.isDecimal = false ∧ b.isDecimal = false)

def Item.Comparable (a b : Item) : Prop :=
  ∃ s t, a.data = some s ∧ b.data = some t ∧ s.Comparable t

theorem Numeral.cmp_eq_none_iff {x y : Numeral} : x.cmp y = none ↔ x = .nan ∨ y = .nan := by
  cases x <;> cases y <;> simp [cmp]

theorem Numeral.order_succeedsIff (decimal : Bool) (x y : Numeral) :
    SucceedsIff Rejects (x = .nan ∨ y = .nan → decimal = false) (order decimal x y) := by
  unfold order
  cases hxy : x.cmp y with
  | some o =>
    refine .of_ok (fun hnan => ?_) rfl
    rw [cmp_eq_none_iff.mpr hnan] at hxy
    cases hxy
  | none =>
    have hnan := cmp_eq_none_iff.mp hxy
    cases decimal with
    | false => exact .of_ok (fun _ => rfl) rfl
    | true => exact .of_error (fun h => by simpa using h hnan) rfl (by simp)

theorem Scalar.cmp_of_not_number {a b : Scalar} (h : a.number = none ∨ b.number = none) :
    (a.Comparable b ∧ ∃ o, a.cmp b = .ok o) ∨
      (¬ a.Comparable b ∧ a.cmp b = .error .typeError) := by
  cases a with
  | datetime m o =>
    cases b with
    | datetime n p => cases o <;> cases p <;> simp [Comparable, cmp, number]
    | _ => simp [Comparable, cmp, number]
  | _ => cases b <;> simp_all [Comparable, cmp, number]

theorem Scalar.cmp_of_number {a b : Scalar} {x y : Numeral} (hx : a.number = some x)
    (hy : b.number = some y) : a.cmp b = Numeral.order (a.isDecimal || b.isDecimal) x y := by
  cases a <;> cases b <;> simp_all [cmp, number]

theorem Scalar.cmp_succeedsIff (a b : Scalar) :
    SucceedsIff Rejects (a.Comparable b) (a.cmp b) := by
  by_cases hnumber : a.number = none ∨ b.number = none
  · rcases Scalar.cmp_of_not_number hnumber with ⟨hC, o, ho⟩ | ⟨hC, he⟩
    · exact .of_ok hC ho
    · exact .of_error hC he (by simp)
  · rw [not_or] at hnumber
    obtain ⟨x, hx⟩ := Option.ne_none_iff_exists'.mp hnumber.1
    obtain ⟨y, hy⟩ := Option.ne_none_iff_exists'.mp hnumber.2
    rw [Scalar.cmp_of_number hx hy]
    refine (Numeral.order_succeedsIff _ x y).congr ?_
    cases a <;> cases b <;> simp_all [Comparable, number]

theorem Item.compare_succeedsIff (op : CompareOp) (a b : Item) :
    SucceedsIff Rejects (a.Comparable b) (a.compare op b) := by
  unfold Item.compare Item.Comparable
  cases ha : a.data with
  | none => exact .of_error (by simp) rfl (by simp)
  | some s =>
    cases hb : b.data with
    | none => exact .of_error (by simp) rfl (by simp)
    | some t => exact ((Scalar.cmp_succeedsIff s t).map _).congr (by simp)

namespace FilterValidator

/-! ## Details -/

theorem validateChoices_eq_nil_iff {spec : FilterSpec} {v : Item} :
    validateChoices spec (.item v) = [] ↔ ∀ cs, spec.choices = some cs → v.isIn cs = true := by
  unfold validateChoices
  cases spec.choices with
  | none => simp
  | some cs =>
    have hin : (Value.item v).isIn cs = v.isIn cs := rfl
    cases hv : v.isIn cs <;> rw [hv] at hin <;> simp [hin, hv]

/-- No detail lists duplicates. -/
def Plain (details : List AppExceptionDetail) : Prop :=
  ∀ d ∈ details, d.payload.duplicates = none

@[simp] theorem plain_nil : Plain [] := by simp [Plain]

theorem Plain.append {as bs : List AppExceptionDetail} (ha : Plain as) (hb : Plain bs) :
    Plain (as ++ bs) :=
  List.forall_mem_append.mpr ⟨ha, hb⟩

theorem raiseDetails_of_plain {α : Type} {details : List AppExceptionDetail} (h : Plain details) :
    raiseDetails (α := α) details = .error (.appException details) := by
  refine if_pos (List.all_eq_true.mpr fun d hd => ?_)
  rw [h d hd]
  rfl

theorem raiseDetails_ne_ok {α : Type} (details : List AppExceptionDetail) (a : α) :
    raiseDetails details ≠ .ok a := by
  unfold raiseDetails
  split <;> simp

theorem failsIn_raiseDetails {α : Type} {details : List AppExceptionDetail} (h : Plain details) :
    FailsIn Rejects (raiseDetails (α := α) details) := by
  rw [raiseDetails_of_plain h]
  simp

theorem finish_eq_ok_iff {details : List AppExceptionDetail} :
    finish details = .ok () ↔ details = [] := by
  unfold finish
  split <;> simp_all [raiseDetails_ne_ok]

theorem failsIn_finish {details : List AppExceptionDetail} (h : Plain details) :
    FailsIn Rejects (finish details) := by
  unfold finish
  split
  · exact failsIn_ok ()
  · exact failsIn_raiseDetails h

theorem failsIn_absent (spec : FilterSpec) : FailsIn Rejects (absent spec) := by
  unfold absent
  split
  · exact failsIn_raiseDetails (by simp [Plain, requiredDetail])
  · exact failsIn_ok ()

/-- The check can be made, and finds nothing if and only if `D` holds. -/
def Finds (check : Except PyError (List AppExceptionDetail)) (D : Prop) : Prop :=
  ∃ details, check = .ok details ∧ Plain details ∧ (details = [] ↔ D)

/-- The check can be made if and only if `C` holds, and then finds nothing if and only if `D`
holds. Where it cannot be made, an error escapes. -/
structure Checks (check : Except PyError (List AppExceptionDetail)) (C D : Prop) : Prop where
  made : SucceedsIff Rejects C check
  finds : C → Finds check D

/-- One check after the other. -/
def both (check other : Except PyError (List AppExceptionDetail)) :
    Except PyError (List AppExceptionDetail) := do
  let details ← check
  let others ← other
  return details ++ others

namespace Checks

variable {check other : Except PyError (List AppExceptionDetail)} {C C' D D' : Prop}

theorem of_ok {details : List AppExceptionDetail} (h : check = .ok details) (hplain : Plain details)
    (hnil : details = [] ↔ D) : Checks check True D :=
  ⟨.of_ok trivial h, fun _ => ⟨details, h, hplain, hnil⟩⟩

theorem nil : Checks (.ok []) True True := of_ok rfl plain_nil (by simp)

theorem congr (h : Checks check C D) (hC : C ↔ C') (hD : D ↔ D') : Checks check C' D' where
  made := h.made.congr hC
  finds hC' := by
    obtain ⟨details, hok, hplain, hnil⟩ := h.finds (hC.mpr hC')
    exact ⟨details, hok, hplain, hnil.trans hD⟩

theorem both (h : Checks check C D) (h' : Checks other C' D') :
    Checks (both check other) (C ∧ C') (D ∧ D') where
  made := by
    refine (h.made.bind fun details _ => h'.made.bind (D := True) fun others _ => ?_).congr ?_
    · exact .of_ok trivial rfl
    · simp
  finds := by
    rintro ⟨hC, hC'⟩
    obtain ⟨as, rfl, ha, hD⟩ := h.finds hC
    obtain ⟨bs, rfl, hb, hD'⟩ := h'.finds hC'
    exact ⟨as ++ bs, rfl, ha.append hb, List.append_eq_nil_iff.trans (and_congr hD hD')⟩

/-- The validation that raises what the check finds. -/
theorem failsIn_finish_iff (h : Checks check C D) : FailsIn Rejects (check >>= finish) ↔ C := by
  by_cases hC : C
  · obtain ⟨details, rfl, hplain, -⟩ := h.finds hC
    exact iff_of_true (failsIn_finish hplain) hC
  · obtain ⟨e, rfl, he⟩ := h.made.error hC
    exact iff_of_false (fun hfails => he (hfails e rfl)) hC

theorem finish_eq_ok_iff (h : Checks check C D) (hC : C) : (check >>= finish) = .ok () ↔ D := by
  obtain ⟨details, rfl, -, hD⟩ := h.finds hC
  exact FilterValidator.finish_eq_ok_iff.trans hD

end Checks

/-! ## Bounds and choices -/

section

variable (spec : FilterSpec) (x : Item)

/-- The value satisfies the bounds. -/
def Within (b : Bounds) (x : Item) : Prop :=
  (∀ y, b.gt = some y → x.compare .gt y = .ok true) ∧
    (∀ y, b.gte = some y → x.compare .ge y = .ok true) ∧
    (∀ y, b.lt = some y → x.compare .lt y = .ok true) ∧
    ∀ y, b.lte = some y → x.compare .le y = .ok true

/-- The value is one of the choices, if there are any. -/
def Chosen (spec : FilterSpec) (x : Item) : Prop :=
  ∀ choices, spec.choices = some choices → x.isIn choices = true

theorem checks_checkBound (name : String) (op : CompareOp) (bound : Option Item) :
    Checks (checkBound spec (.item x) name op bound)
      (∀ y, bound = some y → x.Comparable y)
      (∀ y, bound = some y → x.compare op y = .ok true) := by
  cases bound with
  | none => exact Checks.nil.congr (by simp) (by simp)
  | some y =>
    have hmade := Item.compare_succeedsIff op x y
    refine ⟨(hmade.map _).congr (by simp), fun hC => ?_⟩
    obtain ⟨holds, hb⟩ := hmade.ok (hC y rfl)
    refine ⟨if holds then [] else [boundDetail spec name (some y)], ?_, ?_, ?_⟩
    · simp only [checkBound, Value.compare, hb, Except.map]
    · cases holds <;> simp [Plain, boundDetail]
    · cases holds <;> simp [hb]

theorem checks_validateBounds :
    Checks (validateBounds spec (.item x)) (∀ y ∈ spec.all, x.Comparable y)
      (Within spec.toBounds x) := by
  have hboth : validateBounds spec (.item x) =
      both (both (both (checkBound spec (.item x) "gt" .gt spec.gt)
        (checkBound spec (.item x) "gte" .ge spec.gte))
        (checkBound spec (.item x) "lt" .lt spec.lt))
        (checkBound spec (.item x) "lte" .le spec.lte) := by
    simp only [validateBounds, both, bind_assoc, pure_bind]
  rw [hboth]
  refine ((((checks_checkBound spec x _ _ _).both (checks_checkBound spec x _ _ _)).both
    (checks_checkBound spec x _ _ _)).both (checks_checkBound spec x _ _ _)).congr ?_ ?_
  · simp only [Bounds.all, List.mem_append, Option.mem_toList, or_imp, forall_and]
  · simp only [Within, and_assoc]

theorem checks_validateChoices :
    Checks (.ok (validateChoices spec (.item x))) True (Chosen spec x) := by
  refine .of_ok rfl ?_ ?_
  · unfold validateChoices
    split
    · exact plain_nil
    · split <;> simp [Plain, choicesDetail]
  · exact validateChoices_eq_nil_iff

theorem checks_validateEndpoint :
    Checks (validateEndpoint spec x) (∀ y ∈ spec.all, x.Comparable y)
      (Within spec.toBounds x ∧ Chosen spec x) :=
  ((checks_validateBounds spec x).both (checks_validateChoices spec x)).congr (by simp) Iff.rfl

theorem checks_validatePresent :
    Checks (validatePresent spec x) (x ≠ .none → ∀ y ∈ spec.all, x.Comparable y)
      (x ≠ .none → Within spec.toBounds x ∧ Chosen spec x) := by
  unfold validatePresent
  by_cases h : x = .none
  · rw [if_neg (not_not.mpr h)]
    exact Checks.nil.congr (by simp [h]) (by simp [h])
  · rw [if_pos h]
    exact (checks_validateEndpoint spec x).congr (by simp [h]) (by simp [h])

theorem checks_validateOrder (low high : Item) :
    Checks (validateOrder spec low high) (low ≠ .none → high ≠ .none → low.Comparable high)
      (low ≠ .none → high ≠ .none → low.compare .gt high = .ok false) := by
  unfold validateOrder
  by_cases h : low ≠ .none ∧ high ≠ .none
  · rw [if_pos h]
    have hmade := Item.compare_succeedsIff .gt low high
    refine ⟨(hmade.map _).congr (by simp [h]), fun hC => ?_⟩
    obtain ⟨above, hb⟩ := hmade.ok (hC h.1 h.2)
    refine ⟨if above then [rangeOrderDetail spec low high] else [], ?_, ?_, ?_⟩
    · simp only [hb, Except.map]
    · cases above <;> simp [Plain, rangeOrderDetail]
    · cases above <;> simp [hb, h]
  · rw [if_neg h]
    refine Checks.nil.congr ?_ ?_ <;> exact iff_of_true trivial fun hl hh => absurd ⟨hl, hh⟩ h

end

end FilterValidator

end ApiTemplate.Filtering
