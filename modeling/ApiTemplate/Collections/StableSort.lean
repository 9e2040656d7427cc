import Mathlib.Data.List.Basic
import Mathlib.Order.Lattice

/-!
# Stable sorting by a key
-/

namespace StableSort

variable {α κ : Type*} [LinearOrder κ]

/-- `sorted(l, key=key)` -/
def sorted (key : α → κ) (l : List α) : List α := l.mergeSort fun a b => decide (key a ≤ key b)

variable (key : α → κ) (l : List α)

theorem sorted_perm : (sorted key l).Perm l := List.mergeSort_perm _ _

theorem le_trans_key (a b c : α) (hab : decide (key a ≤ key b) = true)
    (hbc : decide (key b ≤ key c) = true) : decide (key a ≤ key c) = true :=
  decide_eq_true (le_trans (of_decide_eq_true hab) (of_decide_eq_true hbc))

theorem le_total_key (a b : α) : (decide (key a ≤ key b) || decide (key b ≤ key a)) = true := by
  rw [Bool.or_eq_true, decide_eq_true_iff, decide_eq_true_iff]
  exact le_total _ _

theorem sorted_pairwise : (sorted key l).Pairwise fun a b => key a ≤ key b :=
  (List.pairwise_mergeSort (le_trans_key key) (le_total_key key) l).imp of_decide_eq_true

/-- Elements with one key stay in their order. -/
theorem filter_sorted (k : κ) :
    ((sorted key l).filter fun a => decide (key a = k)) = l.filter fun a => decide (key a = k) := by
  have htied : (l.filter fun a => decide (key a = k)).Pairwise
      fun a b => decide (key a ≤ key b) = true := by
    refine List.pairwise_of_forall_mem_list fun a ha b hb => decide_eq_true ?_
    have ha := of_decide_eq_true (List.mem_filter.mp ha).2
    have hb := of_decide_eq_true (List.mem_filter.mp hb).2
    exact le_of_eq (ha.trans hb.symm)
  have hsub := (List.sublist_mergeSort (le_trans_key key) (le_total_key key) htied
    List.filter_sublist).filter fun a => decide (key a = k)
  rw [List.filter_filter] at hsub
  simp only [Bool.and_self] at hsub
  exact (hsub.eq_of_length ((sorted_perm key l).symm.filter _).length_eq).symm

end StableSort
