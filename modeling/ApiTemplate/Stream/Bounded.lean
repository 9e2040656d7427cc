import Mathlib.Data.List.Basic

/-!
# Bounded buffers

A buffer that takes what still fits of each chunk holds the beginning of what it was given, however
the chunks are cut.
-/

namespace Bounded

variable {α : Type*}

/-- The buffer after a chunk, of which it takes what still fits. -/
def push (cap : ℕ) (buf chunk : List α) : List α :=
  if buf.length < cap then buf ++ chunk.take (cap - buf.length) else buf

theorem push_take (cap : ℕ) (all chunk : List α) :
    push cap (all.take cap) chunk = (all ++ chunk).take cap := by
  unfold push
  rw [List.take_append, List.length_take]
  split_ifs with hlt
  · have hshort : all.length < cap := by omega
    rw [Nat.min_eq_right (Nat.le_of_lt hshort)]
  · have hfull : cap - all.length = 0 := by omega
    rw [hfull, List.take_zero, List.append_nil]

@[simp]
theorem push_nil (cap : ℕ) (buf : List α) : push cap buf [] = buf := by
  unfold push
  simp

end Bounded
