import Mathlib.Data.Nat.Bitwise
import Mathlib.Tactic.Ring

/-!
# Bit fields

Words that are made up of fields, the highest first. Every field is read back from its place, words
of one layout are ordered as their first different fields are, and they differ if a field does.
-/

namespace BitFields

/-- A number of a width. -/
structure Field where
  width : ℕ
  value : ℕ
  lt : value < 2 ^ width

/-- The width of a word. -/
def width (fs : List Field) : ℕ := (fs.map Field.width).sum

/-- The word of the fields. -/
def pack : List Field → ℕ
  | [] => 0
  | f :: fs => f.value * 2 ^ width fs + pack fs

@[simp] theorem width_nil : width [] = 0 := rfl

@[simp] theorem width_cons (f : Field) (fs : List Field) :
    width (f :: fs) = f.width + width fs := rfl

theorem pack_lt (fs : List Field) : pack fs < 2 ^ width fs := by
  induction fs with
  | nil => exact Nat.one_pos
  | cons f fs ih =>
    rw [width_cons, pow_add, pack]
    calc f.value * 2 ^ width fs + pack fs
        < f.value * 2 ^ width fs + 2 ^ width fs := Nat.add_lt_add_left ih _
      _ = (f.value + 1) * 2 ^ width fs := by ring
      _ ≤ 2 ^ f.width * 2 ^ width fs := Nat.mul_le_mul_right _ f.lt

theorem pack_append (hi lo : List Field) :
    pack (hi ++ lo) = pack hi * 2 ^ width lo + pack lo := by
  induction hi with
  | nil => rw [List.nil_append, pack, Nat.zero_mul, Nat.zero_add]
  | cons f hi ih =>
    have hwidth : width (hi ++ lo) = width hi + width lo := by
      rw [width, List.map_append, List.sum_append, width, width]
    rw [List.cons_append, pack, pack, ih, hwidth, pow_add]
    ring

/-! ## Reading -/

/-- What stands above the lower fields. -/
theorem pack_append_div (hi lo : List Field) : pack (hi ++ lo) / 2 ^ width lo = pack hi := by
  rw [pack_append, Nat.mul_comm, Nat.mul_add_div (Nat.two_pow_pos _),
    Nat.div_eq_of_lt (pack_lt lo), Nat.add_zero]

theorem pack_append_mod (hi lo : List Field) : pack (hi ++ lo) % 2 ^ width lo = pack lo := by
  rw [pack_append, Nat.mul_comm, Nat.mul_add_mod, Nat.mod_eq_of_lt (pack_lt lo)]

/-- A field is read from its place. -/
theorem read_pack (hi : List Field) (f : Field) (lo : List Field) :
    (pack (hi ++ f :: lo) >>> width lo) % 2 ^ f.width = f.value := by
  have hlow := pack_append_div (hi ++ [f]) lo
  have hfield := pack_append_mod hi [f]
  rw [List.append_assoc, List.singleton_append] at hlow
  rw [Nat.shiftRight_eq_div_pow, hlow]
  simpa [pack] using hfield

/-- The highest field is what stands above the others. -/
theorem read_pack_first (f : Field) (lo : List Field) :
    pack (f :: lo) >>> width lo = f.value := by
  have h := pack_append_div [f] lo
  rw [Nat.shiftRight_eq_div_pow]
  simpa [pack] using h

/-! ## Order -/

/-- Words of one layout are ordered as their highest fields are. -/
theorem pack_lt_pack {f g : Field} {fs gs : List Field} (hwidth : width fs = width gs)
    (h : f.value < g.value) : pack (f :: fs) < pack (g :: gs) := by
  rw [pack, pack, hwidth]
  have hlow := pack_lt fs
  rw [hwidth] at hlow
  calc f.value * 2 ^ width gs + pack fs
      < f.value * 2 ^ width gs + 2 ^ width gs := Nat.add_lt_add_left hlow _
    _ = (f.value + 1) * 2 ^ width gs := by ring
    _ ≤ g.value * 2 ^ width gs := Nat.mul_le_mul_right _ h
    _ ≤ g.value * 2 ^ width gs + pack gs := Nat.le_add_right _ _

/-! ## Disjunctions -/

/-- A field below a word is added by a disjunction. -/
theorem shiftLeft_or {lo : ℕ} (hi : ℕ) {n : ℕ} (h : lo < 2 ^ n) :
    hi <<< n ||| lo = hi * 2 ^ n + lo := by
  rw [← Nat.shiftLeft_add_eq_or_of_lt h, Nat.shiftLeft_eq]

end BitFields
