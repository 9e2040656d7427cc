import Mathlib.Algebra.Order.BigOperators.Group.List
import Mathlib.Data.List.Basic

/-!
# Results

`Result.merge_errs` collects the errors of several results. It takes every `Sequence` for a list of
errors, so a text falls into its characters; and it reports a failure only if an error was
collected, so a failure with an empty list is lost.
-/

namespace ApiTemplate.Errors

/-! ## Objects -/

/-- Values of Python, by what `isinstance(_, Sequence)` and iteration make of them; `other` is no
sequence, `sequence` is one that is neither a `list` nor a `str`. -/
inductive Obj (α : Type)
  | other (a : α)
  | str (s : List Char)
  | list (items : List (Obj α))
  | sequence (items : List (Obj α))

variable {α V : Type}

/-- The elements of a `Sequence`; the characters of a string are strings. -/
def Obj.elements : Obj α → Option (List (Obj α))
  | .other _ => none
  | .str s => some (s.map fun c => .str [c])
  | .list items => some items
  | .sequence items => some items

/-! ## `result.py` -/

inductive Result (V E : Type)
  | ok (value : V)
  | err (error : E)

namespace Result

def isOk {E : Type} : Result V E → Bool
  | .ok _ => true
  | .err _ => false

/-- One pass of the loop in `merge_errs`. -/
def collect (errs : List (Obj α)) : Result V (Obj α) → List (Obj α)
  | .ok _ => errs
  | .err e =>
    match e.elements with
    | some items => errs ++ items
    | none => errs ++ [e]

def mergeErrs (results : List (Result V (Obj α))) : Result Unit (List (Obj α)) :=
  let errs := results.foldl collect []
  if errs.isEmpty then .ok () else .err errs

/-- `from_errs`, which gives `Result.OK` for an empty list. -/
def fromErrs {E : Type} (errs : List E) : Result Unit (List E) :=
  if errs.isEmpty then .ok () else .err errs

/-! ## Collected errors -/

/-- The errors of the failures, in order. -/
def errors (results : List (Result V (Obj α))) : List (Obj α) :=
  results.filterMap fun
    | .ok _ => none
    | .err e => some e

theorem errors_eq_nil {results : List (Result V (Obj α))} :
    errors results = [] ↔ ∀ res ∈ results, res.isOk = true := by
  unfold errors
  rw [List.filterMap_eq_nil_iff]
  refine forall₂_congr fun res _ => ?_
  cases res <;> simp [isOk]

/-- What an error adds. -/
def added (e : Obj α) : List (Obj α) := e.elements.getD [e]

theorem foldl_collect (results : List (Result V (Obj α))) (errs : List (Obj α)) :
    results.foldl collect errs = errs ++ (errors results).flatMap added := by
  induction results generalizing errs with
  | nil => exact (List.append_nil errs).symm
  | cons res results ih =>
    rw [List.foldl_cons, ih]
    cases res with
    | ok _ => rfl
    | err e =>
      show collect errs (.err e : Result V (Obj α)) ++ _ = errs ++ (added e ++ _)
      have hcollect : collect errs (.err e : Result V (Obj α)) = errs ++ added e := by
        cases e <;> rfl
      rw [hcollect, List.append_assoc]
      rfl

/-- `merge_errs` decides as `from_errs` does. -/
theorem mergeErrs_eq (results : List (Result V (Obj α))) :
    mergeErrs results = fromErrs ((errors results).flatMap added) := by
  unfold mergeErrs fromErrs
  rw [foldl_collect, List.nil_append]

/-! ## Merged errors -/

/-- A list stands for its elements, and any other error for itself. -/
def contribution : Obj α → List (Obj α)
  | .list items => items
  | e => [e]

/-- The merged result is a success if all results are, and otherwise has the errors of the failures
in order. -/
structure Merges (results : List (Result V (Obj α))) (merged : Result Unit (List (Obj α))) :
    Prop where
  verdict : merged.isOk = true ↔ ∀ res ∈ results, res.isOk = true
  errs : merged.isOk = false → merged = .err ((errors results).flatMap contribution)

/-- The error is a list, a text of one character, or no sequence. -/
def Single : Obj α → Prop
  | .other _ => True
  | .str s => s.length = 1
  | .list _ => True
  | .sequence _ => False

theorem added_of_single {e : Obj α} (h : Single e) : added e = contribution e := by
  cases e with
  | other a => rfl
  | list items => rfl
  | sequence items => exact absurd h id
  | str s =>
    obtain ⟨c, rfl⟩ := List.length_eq_one_iff.mp h
    rfl

mutual

/-- The size of an object, in which a string of one character is as small as its character. -/
def weight : Obj α → ℕ
  | .other _ => 1
  | .str s => if s.length = 1 then 1 else s.length + 1
  | .list items => 1 + weights items
  | .sequence items => 1 + weights items

def weights : List (Obj α) → ℕ
  | [] => 0
  | e :: errs => weight e + weights errs

end

theorem weights_append (errs errs' : List (Obj α)) :
    weights (errs ++ errs') = weights errs + weights errs' := by
  induction errs with
  | nil => exact (Nat.zero_add _).symm
  | cons e errs ih => rw [List.cons_append, weights, weights, ih, Nat.add_assoc]

theorem weights_chars (s : List Char) :
    weights (s.map fun c => (.str [c] : Obj α)) = s.length := by
  induction s with
  | nil => rfl
  | cons c s ih =>
    rw [List.map_cons, weights, ih, List.length_cons, Nat.add_comm]
    rfl

/-- An error that is split has less weight in its parts. -/
theorem weights_added (e : Obj α) :
    weights (added e) ≤ weights (contribution e) ∧
      (weights (added e) = weights (contribution e) → Single e) := by
  cases e with
  | other a => exact ⟨Nat.le_refl _, fun _ => trivial⟩
  | list items => exact ⟨Nat.le_refl _, fun _ => trivial⟩
  | sequence items =>
    show weights items ≤ 1 + weights items + 0 ∧ (weights items = 1 + weights items + 0 → False)
    omega
  | str s =>
    have hparts : weights (added (.str s : Obj α)) = s.length := weights_chars s
    have hwhole : weights (contribution (.str s : Obj α)) =
        if s.length = 1 then 1 else s.length + 1 := by
      show weight (.str s : Obj α) + 0 = _
      rw [weight, Nat.add_zero]
    rw [hparts, hwhole]
    show _ ∧ (_ → s.length = 1)
    split_ifs <;> omega

/-- The collected errors are those of the failures only if none of these is split. -/
theorem single_of_flatMap_eq {errs : List (Obj α)}
    (h : errs.flatMap added = errs.flatMap contribution) : ∀ e ∈ errs, Single e := by
  have hle : ∀ errs : List (Obj α),
      weights (errs.flatMap added) ≤ weights (errs.flatMap contribution) := by
    intro errs
    induction errs with
    | nil => exact Nat.le_refl _
    | cons e errs ih =>
      rw [List.flatMap_cons, List.flatMap_cons, weights_append, weights_append]
      exact Nat.add_le_add (weights_added e).1 ih
  have hweights := congrArg weights h
  clear h
  induction errs with
  | nil => exact fun _ hmem => absurd hmem List.not_mem_nil
  | cons e errs ih =>
    rw [List.flatMap_cons, List.flatMap_cons, weights_append, weights_append] at hweights
    have hhead := (weights_added e).1
    have hrest := hle errs
    rw [List.forall_mem_cons]
    exact ⟨(weights_added e).2 (by omega), ih (by omega)⟩

/-- Nothing is collected exactly if all errors are empty sequences. -/
theorem flatMap_contribution_eq_nil {errs : List (Obj α)} :
    errs.flatMap contribution = [] ↔ ∀ e ∈ errs, e = .list [] := by
  rw [List.flatMap_eq_nil_iff]
  refine forall₂_congr fun e _ => ?_
  cases e <;> simp [contribution]

/-- `merge_errs` merges exactly if no error is a sequence other than a list or a text of one
character, and not all failures, if there are any, have an empty list. -/
theorem mergeErrs_merges_iff (results : List (Result V (Obj α))) :
    Merges results (mergeErrs results) ↔ (∀ e ∈ errors results, Single e) ∧
      ((∀ res ∈ results, res.isOk = true) ∨ ∃ e ∈ errors results, e ≠ .list []) := by
  rw [mergeErrs_eq, fromErrs]
  constructor
  · rintro ⟨hverdict, herrs⟩
    by_cases hok : ∀ res ∈ results, res.isOk = true
    · refine ⟨?_, .inl hok⟩
      rw [errors_eq_nil.mpr hok]
      exact fun _ hmem => absurd hmem List.not_mem_nil
    · split at hverdict
      · exact absurd (hverdict.mp rfl) hok
      · next hne =>
        rw [if_neg hne] at herrs
        have heq : (errors results).flatMap added = (errors results).flatMap contribution :=
          Result.err.inj (herrs rfl)
        refine ⟨single_of_flatMap_eq heq, .inr ?_⟩
        by_contra hall
        push Not at hall
        rw [heq, flatMap_contribution_eq_nil.mpr hall] at hne
        exact hne rfl
  · rintro ⟨hsingle, hcond⟩
    have heq : (errors results).flatMap added = (errors results).flatMap contribution :=
      List.flatMap_congr fun e hmem => added_of_single (hsingle e hmem)
    rw [heq]
    split
    · next hnil =>
      have hempty := flatMap_contribution_eq_nil.mp (List.isEmpty_iff.mp hnil)
      refine ⟨iff_of_true rfl ?_, nofun⟩
      rcases hcond with hok | ⟨e, hmem, hne⟩
      · exact hok
      · exact absurd (hempty e hmem) hne
    · next hne =>
      refine ⟨iff_of_false Bool.false_ne_true fun hok => hne ?_, fun _ => rfl⟩
      rw [errors_eq_nil.mpr hok]
      rfl

/-- A failure whose error is the text `ab`. -/
def failed : List (Result Unit (Obj Empty)) := [.err (.str ['a', 'b'])]

theorem not_merges_failed : ¬ Merges failed (mergeErrs failed) := by
  rintro ⟨-, herrs⟩
  have hsplit := Result.err.inj (herrs rfl)
  cases hsplit

end Result

end ApiTemplate.Errors
