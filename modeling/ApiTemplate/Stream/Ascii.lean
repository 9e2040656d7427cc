import Mathlib.Tactic.Common

/-!
# ASCII letters

Letters and digits, and the lower case of a character, through its number.
-/

namespace Ascii

def isLetter (c : Char) : Bool := ('a' ≤ c && c ≤ 'z') || ('A' ≤ c && c ≤ 'Z')

def isDigit (c : Char) : Bool := '0' ≤ c && c ≤ '9'

def isAlphanumeric (c : Char) : Bool := isLetter c || isDigit c

theorem le_iff_toNat {c d : Char} : c ≤ d ↔ c.toNat ≤ d.toNat := Iff.rfl

theorem eq_iff_toNat {c d : Char} : c = d ↔ c.toNat = d.toNat :=
  ⟨congrArg Char.toNat, fun h => Char.ext (UInt32.toNat_inj.mp h)⟩

theorem isLetter_iff {c : Char} : isLetter c = true ↔
    (97 ≤ c.toNat ∧ c.toNat ≤ 122) ∨ (65 ≤ c.toNat ∧ c.toNat ≤ 90) := by
  simp only [isLetter, Bool.or_eq_true, Bool.and_eq_true, decide_eq_true_eq, le_iff_toNat]
  rfl

theorem isDigit_iff {c : Char} : isDigit c = true ↔ 48 ≤ c.toNat ∧ c.toNat ≤ 57 := by
  simp only [isDigit, Bool.and_eq_true, decide_eq_true_eq, le_iff_toNat]
  rfl

theorem toNat_toLower (c : Char) :
    c.toLower.toNat = if 65 ≤ c.toNat ∧ c.toNat ≤ 90 then c.toNat + 32 else c.toNat := by
  unfold Char.toLower
  by_cases h : 65 ≤ c.toNat ∧ c.toNat ≤ 90
  · have h' : c.val ≥ 'A'.val ∧ c.val ≤ 'Z'.val := h
    rw [if_pos h, dif_pos h']
    show (c.val + ('a'.val - 'A'.val)).toNat = c.toNat + 32
    rw [UInt32.toNat_add, Nat.mod_eq_of_lt]
    · rfl
    · show c.toNat + 32 < 2 ^ 32
      omega
  · have h' : ¬ (c.val ≥ 'A'.val ∧ c.val ≤ 'Z'.val) := h
    rw [if_neg h, dif_neg h']

@[simp] theorem toLower_toLower (c : Char) : c.toLower.toLower = c.toLower := by
  rw [eq_iff_toNat, toNat_toLower, toNat_toLower]
  split_ifs <;> omega

/-- What is no letter is the lower case of itself alone. -/
theorem toLower_eq_iff {m : Char} (hm : isLetter m = false) (c : Char) :
    c.toLower = m ↔ c = m := by
  have hm' := isLetter_iff.not.mp (Bool.eq_false_iff.mp hm)
  rw [eq_iff_toNat, eq_iff_toNat, toNat_toLower]
  split <;> omega

theorem toLower_of_not_isLetter {c : Char} (hc : isLetter c = false) : c.toLower = c :=
  (toLower_eq_iff hc c).mpr rfl

@[simp] theorem isLetter_toLower (c : Char) : isLetter c.toLower = isLetter c := by
  rw [Bool.eq_iff_iff, isLetter_iff, isLetter_iff, toNat_toLower]
  split <;> omega

@[simp] theorem isDigit_toLower (c : Char) : isDigit c.toLower = isDigit c := by
  rw [Bool.eq_iff_iff, isDigit_iff, isDigit_iff, toNat_toLower]
  split <;> omega

@[simp] theorem isAlphanumeric_toLower (c : Char) :
    isAlphanumeric c.toLower = isAlphanumeric c := by
  simp only [isAlphanumeric, isLetter_toLower, isDigit_toLower]

end Ascii
