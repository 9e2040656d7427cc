import Mathlib.Data.List.Basic

/-!
# Records of a stream

A stream over any alphabet is cut into records by a separator. `complete` are the records the
separator closes, `rest` is what follows the last separator. Both are computed incrementally: a
reader that keeps only `rest` and prepends it to the next chunk sees every record exactly once,
however the stream is cut into chunks.
-/

namespace Lines

variable {α : Type} [DecidableEq α] (sep : α)

/-- The records that a separator closes, in order. -/
def complete (xs : List α) : List (List α) := (xs.splitOn sep).dropLast

/-- What follows the last separator. -/
def rest (xs : List α) : List α := (xs.splitOn sep).getLast (List.splitOn_ne_nil sep xs)

/-- Write records down, each with its separator. -/
def join (ls : List (List α)) : List α := ls.flatMap (· ++ [sep])

theorem splitOn_eq (xs : List α) : xs.splitOn sep = complete sep xs ++ [rest sep xs] :=
  (List.dropLast_append_getLast (List.splitOn_ne_nil sep xs)).symm

theorem eq_of_splitOn_eq (ls : List (List α)) (r : List α) {xs : List α}
    (h : xs.splitOn sep = ls ++ [r]) : complete sep xs = ls ∧ rest sep xs = r := by
  have h' := (splitOn_eq sep xs).symm.trans h
  exact ⟨(List.append_inj' h' rfl).1, List.singleton_inj.mp (List.append_inj' h' rfl).2⟩

@[simp] theorem complete_nil : complete sep ([] : List α) = [] := rfl

@[simp] theorem rest_nil : rest sep ([] : List α) = [] := rfl

theorem splitOn_cons (x : α) (xs : List α) :
    (x :: xs).splitOn sep =
      if x = sep then [] :: xs.splitOn sep else (xs.splitOn sep).modifyHead (List.cons x) := by
  unfold List.splitOn
  rw [List.splitOnP_cons_eq_if_modifyHead]
  simp only [beq_iff_eq]

theorem splitOn_cons_self (xs : List α) : (sep :: xs).splitOn sep = [] :: xs.splitOn sep := by
  rw [splitOn_cons, if_pos rfl]

theorem splitOn_append_sep (xs ys : List α) :
    (xs ++ sep :: ys).splitOn sep = xs.splitOn sep ++ ys.splitOn sep :=
  List.splitOnP_append_cons xs ys (by simp)

/-! A character that is put in front of a stream closes a record, extends the open rest, or extends
the first record. -/

theorem cons_self (xs : List α) :
    complete sep (sep :: xs) = [] :: complete sep xs ∧ rest sep (sep :: xs) = rest sep xs :=
  eq_of_splitOn_eq sep ([] :: complete sep xs) (rest sep xs)
    ((splitOn_cons_self sep xs).trans (by rw [splitOn_eq]; rfl))

theorem cons_of_complete_nil {x : α} {xs : List α} (hx : x ≠ sep) (h : complete sep xs = []) :
    complete sep (x :: xs) = [] ∧ rest sep (x :: xs) = x :: rest sep xs :=
  eq_of_splitOn_eq sep [] (x :: rest sep xs)
    (by rw [splitOn_cons, if_neg hx, splitOn_eq, h]; rfl)

theorem cons_of_complete_cons {x : α} {xs l : List α} {ls : List (List α)} (hx : x ≠ sep)
    (h : complete sep xs = l :: ls) :
    complete sep (x :: xs) = (x :: l) :: ls ∧ rest sep (x :: xs) = rest sep xs :=
  eq_of_splitOn_eq sep ((x :: l) :: ls) (rest sep xs)
    (by rw [splitOn_cons, if_neg hx, splitOn_eq, h]; rfl)

/-- The records of a stream and of its continuation. -/
theorem splitOn_append (xs ys : List α) :
    (xs ++ ys).splitOn sep = complete sep xs ++ (rest sep xs ++ ys).splitOn sep := by
  induction xs with
  | nil => rfl
  | cons x xs ih =>
    by_cases hx : x = sep
    · rw [hx, (cons_self sep xs).1, (cons_self sep xs).2, List.cons_append, splitOn_cons_self, ih]
      rfl
    · rw [List.cons_append, splitOn_cons, if_neg hx, ih]
      rcases hl : complete sep xs with _ | ⟨l, ls⟩
      · obtain ⟨hc, hr⟩ := cons_of_complete_nil sep hx hl
        rw [hc, hr, List.nil_append, List.nil_append, List.cons_append, splitOn_cons, if_neg hx]
      · obtain ⟨hc, hr⟩ := cons_of_complete_cons sep hx hl
        rw [hc, hr]
        rfl

theorem complete_append (xs ys : List α) :
    complete sep (xs ++ ys) = complete sep xs ++ complete sep (rest sep xs ++ ys) :=
  (eq_of_splitOn_eq sep _ _ (by rw [splitOn_append, splitOn_eq sep (rest sep xs ++ ys),
    List.append_assoc])).1

theorem rest_append (xs ys : List α) : rest sep (xs ++ ys) = rest sep (rest sep xs ++ ys) :=
  (eq_of_splitOn_eq sep (complete sep xs ++ complete sep (rest sep xs ++ ys)) _
    (by rw [splitOn_append, splitOn_eq sep (rest sep xs ++ ys), List.append_assoc])).2

theorem rest_append_of_whole {xs : List α} (h : rest sep xs = []) (ys : List α) :
    rest sep (xs ++ ys) = rest sep ys := by
  rw [rest_append, h, List.nil_append]

/-- No record and no open rest holds the separator. -/
theorem not_mem_of_mem_splitOn {xs l : List α} (h : l ∈ xs.splitOn sep) : sep ∉ l := by
  induction xs generalizing l with
  | nil =>
    rw [List.splitOn_nil, List.mem_singleton] at h
    rw [h]
    exact List.not_mem_nil
  | cons x xs ih =>
    by_cases hx : x = sep
    · rw [hx, splitOn_cons_self] at h
      rcases List.mem_cons.mp h with rfl | h
      · exact List.not_mem_nil
      · exact ih h
    · rw [splitOn_cons, if_neg hx] at h
      rcases hl : xs.splitOn sep with _ | ⟨m, ms⟩
      · exact absurd hl (List.splitOn_ne_nil sep xs)
      · rw [hl] at h ih
        rcases List.mem_cons.mp h with rfl | h
        · intro hmem
          rcases List.mem_cons.mp hmem with heq | hmem
          · exact hx heq.symm
          · exact ih List.mem_cons_self hmem
        · exact ih (List.mem_cons_of_mem _ h)

theorem not_mem_rest (xs : List α) : sep ∉ rest sep xs :=
  not_mem_of_mem_splitOn sep (List.getLast_mem _)

theorem splitOn_of_not_mem {xs : List α} (h : sep ∉ xs) : xs.splitOn sep = [xs] := by
  induction xs with
  | nil => rfl
  | cons x xs ih =>
    have hx : x ≠ sep := fun heq => h (heq ▸ List.mem_cons_self)
    rw [splitOn_cons, if_neg hx, ih fun hmem => h (List.mem_cons_of_mem x hmem)]
    rfl

theorem complete_of_not_mem {xs : List α} (h : sep ∉ xs) : complete sep xs = [] :=
  (eq_of_splitOn_eq sep [] _ (splitOn_of_not_mem sep h)).1

theorem rest_of_not_mem {xs : List α} (h : sep ∉ xs) : rest sep xs = xs :=
  (eq_of_splitOn_eq sep [] _ (splitOn_of_not_mem sep h)).2

/-- The records, written down again, and the rest are the stream. -/
theorem join_complete (xs : List α) : join sep (complete sep xs) ++ rest sep xs = xs := by
  induction xs with
  | nil => rfl
  | cons x xs ih =>
    by_cases hx : x = sep
    · rw [hx, (cons_self sep xs).1, (cons_self sep xs).2]
      exact congrArg (sep :: ·) ih
    · rcases hl : complete sep xs with _ | ⟨l, ls⟩
      · obtain ⟨hc, hr⟩ := cons_of_complete_nil sep hx hl
        rw [hl] at ih
        rw [hc, hr]
        exact congrArg (x :: ·) ih
      · obtain ⟨hc, hr⟩ := cons_of_complete_cons sep hx hl
        rw [hl] at ih
        rw [hc, hr]
        exact congrArg (x :: ·) ih

end Lines
