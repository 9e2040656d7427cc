import Mathlib.Data.Set.Card
import Mathlib.Logic.Relation

/-!
# Recursion along a relation

How deep a recursion goes that follows a relation and remembers nothing. From where a cycle can be
reached the depth has no bound; else the number of what can be reached is one.
-/

namespace Depth

open Relation

variable {α : Type*} {r : α → α → Prop} {a b : α} {n m : ℕ}

/-- Fewer than `n` steps of the relation follow one another from here. -/
def Below (r : α → α → Prop) : ℕ → α → Prop
  | 0, _ => False
  | n + 1, a => ∀ b, r a b → Below r n b

theorem Below.mono (h : Below r n a) (hle : n ≤ m) : Below r m a := by
  induction n generalizing m a with
  | zero => exact h.elim
  | succ n ih =>
    have hpos : 0 < m := Nat.lt_of_lt_of_le n.succ_pos hle
    obtain ⟨m, rfl⟩ := Nat.exists_eq_succ_of_ne_zero (Nat.ne_of_gt hpos)
    exact fun b hab => ih (h b hab) (Nat.le_of_succ_le_succ hle)

theorem Below.of_reflTransGen (h : Below r n a) (hab : ReflTransGen r a b) : Below r n b := by
  induction hab with
  | refl => exact h
  | tail _ hstep ih =>
    cases n with
    | zero => exact ih.elim
    | succ n => exact (ih _ hstep).mono n.le_succ

theorem Below.not_cycle (h : Below r n a) : ¬TransGen r a a := by
  induction n generalizing a with
  | zero => exact h.elim
  | succ n ih =>
    intro hcycle
    obtain ⟨b, hab, hba⟩ := TransGen.head'_iff.mp hcycle
    exact ih (h b hab) (TransGen.tail' hba hab)

/-- Without cycles, the depth is bounded by the number of what is reached. -/
theorem below_card (hfinite : {b | ReflTransGen r a b}.Finite)
    (hcycle : ∀ b, ReflTransGen r a b → ¬TransGen r b b) :
    Below r {b | ReflTransGen r a b}.ncard a := by
  induction hn : {b | ReflTransGen r a b}.ncard using Nat.strong_induction_on generalizing a with
  | _ n ih =>
    obtain ⟨n, rfl⟩ : ∃ m, n = m + 1 := by
      refine Nat.exists_eq_succ_of_ne_zero fun hzero => ?_
      have hempty := (Set.ncard_eq_zero hfinite).mp (hn.trans hzero)
      exact Set.eq_empty_iff_forall_notMem.mp hempty a ReflTransGen.refl
    intro b hab
    have hsubset : {c | ReflTransGen r b c} ⊆ {c | ReflTransGen r a c} :=
      fun c hbc => ReflTransGen.head hab hbc
    have hback : ¬ReflTransGen r b a := fun hba =>
      hcycle a ReflTransGen.refl (TransGen.head' hab hba)
    have hcard := Set.ncard_lt_ncard ⟨hsubset, fun h => hback (h ReflTransGen.refl)⟩ hfinite
    rw [hn] at hcard
    have hbelow := ih _ hcard (hfinite.subset hsubset)
      (fun c hbc => hcycle c (ReflTransGen.head hab hbc)) rfl
    exact hbelow.mono (Nat.le_of_lt_succ hcard)

end Depth
