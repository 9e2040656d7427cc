import ApiTemplate.Stream.Decimals

/-!
# Amounts of money

`split_amount` rounds to hundredths and splits the result at the decimal point. The sign goes with
the whole part, which has none where it is zero.
-/

namespace ApiTemplate.Functions

open Decimals Decimal

/-! ## `numeric_funcs.py` -/

/-- `Decimal("0.01")` -/
def CENTS : Decimal := ⟨false, 1, -2⟩

/-- `split_amount`, of a number for which `Decimal(str(number))` is `number`. -/
def splitAmount (number : Decimal) : Option (ℤ × ℤ) := do
  let value ← number.quantize CENTS .halfUp
  let whole := value.toInt
  let fractional := (((value.sub (ofInt whole)).abs.mul (ofInt 100)).toIntegralValue).toInt
  some (whole, fractional)

/-- `quantize_money` -/
def quantizeMoney (number : Decimal) : Option Decimal := number.quantize CENTS .halfUp

/-! ## Rounding -/

/-- What `quantize` gives has two decimals, and it fits. -/
theorem rescale_of_quantizeMoney {x q : Decimal} (h : quantizeMoney x = some q) :
    q = x.rescale (-2) .halfUp ∧ q.coefficient < 10 ^ prec := by
  unfold quantizeMoney quantize at h
  dsimp only at h
  split at h
  · next hlt =>
    obtain rfl := Option.some.inj h
    exact ⟨rfl, hlt⟩
  · cases h

theorem exponent_rescale (x : Decimal) (exponent : ℤ) (mode : Rounding) :
    (x.rescale exponent mode).exponent = exponent := by
  unfold rescale
  split <;> rfl

theorem negative_rescale (x : Decimal) (exponent : ℤ) (mode : Rounding) :
    (x.rescale exponent mode).negative = x.negative := by
  unfold rescale
  split <;> rfl

/-- The whole part of a number of hundredths, and the hundredths beside it. -/
def parts (q : Decimal) : ℤ × ℤ :=
  (if q.negative then -((q.coefficient / 100 : ℕ) : ℤ) else (q.coefficient / 100 : ℕ),
    (q.coefficient % 100 : ℕ))

theorem toInt_hundredths (negative : Bool) (c : ℕ) :
    (⟨negative, c, -2⟩ : Decimal).toInt = (parts ⟨negative, c, -2⟩).1 := rfl

theorem signed_rescale_ofInt (n : ℤ) :
    ((ofInt n).rescale (-2) .halfEven).signed = n * 100 := by
  have hle : (-2 : ℤ) ≤ (ofInt n).exponent := Int.negSucc_le_zero 1
  have hcast : ((n.natAbs * 10 ^ 2 : ℕ) : ℤ) = n.natAbs * 100 := Nat.cast_mul _ _
  have hshift : ((ofInt n).exponent - -2).toNat = 2 := rfl
  unfold rescale
  rw [if_pos hle, hshift]
  unfold ofInt signed
  by_cases hn : n < 0
  · rw [if_pos (decide_eq_true hn), hcast]
    omega
  · rw [if_neg (by simpa using hn), hcast]
    omega

/-- The fraction, which is below one, is exact. -/
theorem sub_whole (negative : Bool) (c : ℕ) :
    ∃ negative', (⟨negative, c, -2⟩ : Decimal).sub (ofInt (parts ⟨negative, c, -2⟩).1) =
      ⟨negative', c % 100, -2⟩ := by
  have hself : ((⟨negative, c, -2⟩ : Decimal).rescale (-2) .halfEven).signed =
      if negative then -(c : ℤ) else c := by
    simp [rescale, signed]
  have hmin : min (-2 : ℤ) (ofInt (parts ⟨negative, c, -2⟩).1).exponent = -2 := rfl
  have hrest : (((if negative then -(c : ℤ) else c) - (parts ⟨negative, c, -2⟩).1 * 100).natAbs) =
      c % 100 := by
    unfold parts
    cases negative
    · simp only [Bool.false_eq_true, if_false]
      omega
    · simp only [if_true]
      omega
  have hlt : c % 100 < 10 ^ prec := Nat.lt_of_lt_of_le (Nat.mod_lt _ (by decide)) (by decide)
  unfold Decimal.sub
  rw [hmin]
  dsimp only
  rw [hself, signed_rescale_ofInt, hrest]
  exact ⟨_, fix_of_lt hlt⟩

theorem toIntegralValue_whole (n : ℕ) :
    (⟨false, n * 100, -2⟩ : Decimal).toIntegralValue = ⟨false, n, 0⟩ := by
  have hround : Rounding.halfEven.div (n * 100) 100 = n := by
    unfold Rounding.div
    dsimp only
    rw [if_neg (by omega)]
    omega
  show (⟨false, Rounding.halfEven.div (n * 100) 100, 0⟩ : Decimal) = _
  rw [hround]

/-- An amount is split at the decimal point of what it is rounded to. -/
theorem splitAmount_eq {x q : Decimal} (h : quantizeMoney x = some q) :
    splitAmount x = some (parts q) := by
  obtain ⟨hq, -⟩ := rescale_of_quantizeMoney h
  obtain ⟨negative, c, exponent⟩ := q
  obtain rfl : exponent = -2 := (congrArg Decimal.exponent hq).trans (exponent_rescale x _ _)
  obtain ⟨negative', hsub⟩ := sub_whole negative c
  have hlt : c % 100 < 10 ^ prec := Nat.lt_of_lt_of_le (Nat.mod_lt _ (by decide)) (by decide)
  have hlt' : c % 100 * 100 < 10 ^ prec :=
    Nat.lt_of_lt_of_le (Nat.mul_lt_mul_of_pos_right (Nat.mod_lt _ (by decide)) (by decide))
      (by decide)
  have habs : (⟨negative', c % 100, -2⟩ : Decimal).abs = ⟨false, c % 100, -2⟩ := fix_of_lt hlt
  have hmul : (⟨false, c % 100, -2⟩ : Decimal).mul (ofInt 100) = ⟨false, c % 100 * 100, -2⟩ :=
    fix_of_lt hlt'
  have hint : (⟨false, c % 100 * 100, -2⟩ : Decimal).toIntegralValue = ⟨false, c % 100, 0⟩ :=
    toIntegralValue_whole (c % 100)
  have hfraction : (⟨false, c % 100, 0⟩ : Decimal).toInt = (parts ⟨negative, c, -2⟩).2 :=
    mul_one _
  unfold splitAmount
  unfold quantizeMoney at h
  rw [h]
  show some ((⟨negative, c, -2⟩ : Decimal).toInt, _) = _
  rw [toInt_hundredths, hsub, habs, hmul, hint, hfraction]

/-- A rounded amount is a number of hundredths. -/
theorem exists_hundredths {x q : Decimal} (h : quantizeMoney x = some q) :
    ∃ c, q = ⟨x.negative, c, -2⟩ := by
  obtain ⟨hq, -⟩ := rescale_of_quantizeMoney h
  obtain ⟨negative, c, exponent⟩ := q
  obtain rfl : negative = x.negative :=
    (congrArg Decimal.negative hq).trans (negative_rescale x _ _)
  obtain rfl : exponent = -2 := (congrArg Decimal.exponent hq).trans (exponent_rescale x _ _)
  exact ⟨c, rfl⟩

/-- How many hundredths there are tells how large the amount is. -/
theorem le_coefficient_iff {x q : Decimal} (h : quantizeMoney x = some q) (n : ℕ) :
    n ≤ q.coefficient ↔ ((n : ℚ) - 1 / 2) / 100 ≤ |x.value| := by
  have hscale : (10 : ℚ) ^ (-2 : ℤ) = 1 / 100 := by norm_num
  rw [(rescale_of_quantizeMoney h).1, le_rescale_iff, hscale, div_div_eq_mul_div, div_one,
    div_le_iff₀ (by norm_num)]

/-! ## The pair and the amount -/

/-- The pair of the amount `x`, which is rounded to `q`: the second part is below 100, both make up
the size of `q`, and no amount that is rounded to anything else has the same pair. -/
def Determines (x q : Decimal) : Prop :=
  ∃ w f, splitAmount x = some (w, f) ∧ 0 ≤ f ∧ f ≤ 99 ∧ |q.value| = |(w : ℚ)| + f / 100 ∧
    ∀ y r, quantizeMoney y = some r → splitAmount y = some (w, f) → r.value = q.value

theorem abs_value_hundredths (negative : Bool) (c : ℕ) :
    |(⟨negative, c, -2⟩ : Decimal).value| = |((parts ⟨negative, c, -2⟩).1 : ℚ)| +
      (parts ⟨negative, c, -2⟩).2 / 100 := by
  have hnat : (parts ⟨negative, c, -2⟩).1.natAbs = c / 100 := by
    unfold parts
    cases negative
    · rfl
    · exact Int.natAbs_neg _
  have hwhole : |((parts ⟨negative, c, -2⟩).1 : ℚ)| = (c / 100 : ℕ) := by
    rw [← Int.cast_abs, Int.abs_eq_natAbs, hnat, Int.cast_natCast]
  have hsum : (c : ℚ) = 100 * (c / 100 : ℕ) + (c % 100 : ℕ) := by
    exact_mod_cast (Nat.div_add_mod c 100).symm
  have hscale : (10 : ℚ) ^ (-2 : ℤ) = 1 / 100 := by norm_num
  rw [abs_value, hwhole, hscale, hsum]
  show _ = ((c / 100 : ℕ) : ℚ) + (((c % 100 : ℕ) : ℤ) : ℚ) / 100
  rw [Int.cast_natCast]
  ring

/-- The pair of any amount has its size. -/
theorem parts_bounds (q : Decimal) : 0 ≤ (parts q).2 ∧ (parts q).2 ≤ 99 := by
  unfold parts
  omega

/-- The opposite amount. -/
def neg (x : Decimal) : Decimal := ⟨!x.negative, x.coefficient, x.exponent⟩

theorem quantizeMoney_neg {x : Decimal} {c : ℕ} (h : quantizeMoney x = some ⟨x.negative, c, -2⟩) :
    quantizeMoney (neg x) = some ⟨!x.negative, c, -2⟩ := by
  obtain ⟨hq, hlt⟩ := rescale_of_quantizeMoney h
  have hneg : (neg x).rescale (-2) .halfUp = ⟨!x.negative, c, -2⟩ := by
    have hcoefficient : ((neg x).rescale (-2) .halfUp).coefficient = c := by
      rw [show c = (x.rescale (-2) .halfUp).coefficient from congrArg coefficient hq]
      unfold rescale neg
      split <;> rfl
    have hnegative := negative_rescale (neg x) (-2) .halfUp
    have hexponent := exponent_rescale (neg x) (-2) .halfUp
    generalize (neg x).rescale (-2) .halfUp = r at hcoefficient hnegative hexponent
    obtain ⟨negative, coefficient, exponent⟩ := r
    dsimp only at hcoefficient hnegative hexponent
    rw [hcoefficient, hnegative, hexponent]
    rfl
  unfold quantizeMoney quantize
  dsimp only
  rw [show CENTS.exponent = -2 from rfl, hneg, if_pos hlt]

/-- Below one unit the opposite amount has the same pair. -/
theorem not_determines {x : Decimal} {c : ℕ} (h : quantizeMoney x = some ⟨x.negative, c, -2⟩)
    (hpos : 0 < c) (hlt : c < 100) : ¬ Determines x ⟨x.negative, c, -2⟩ := by
  rintro ⟨w, f, hsplit, -, -, -, hdetermined⟩
  have hneg := quantizeMoney_neg h
  have hzero : c / 100 = 0 := Nat.div_eq_of_lt hlt
  have hparts : parts ⟨!x.negative, c, -2⟩ = parts ⟨x.negative, c, -2⟩ := by
    unfold parts
    dsimp only
    rw [hzero]
    cases x.negative <;> rfl
  have hvalue := hdetermined (neg x) _ hneg (by
    rw [splitAmount_eq hneg, hparts, ← splitAmount_eq h, hsplit])
  have hopposite : (⟨!x.negative, c, -2⟩ : Decimal).value =
      -(⟨x.negative, c, -2⟩ : Decimal).value := by
    unfold value signed
    cases x.negative <;> simp
  have habs := abs_value ⟨x.negative, c, -2⟩
  have hsize : (0 : ℚ) < c * 10 ^ (-2 : ℤ) := by positivity
  rw [hopposite] at hvalue
  have hvalueZero : (⟨x.negative, c, -2⟩ : Decimal).value = 0 := by linarith
  rw [hvalueZero, abs_zero] at habs
  exact hsize.ne habs

/-- An amount of whole units, or of nothing, is told by its pair. -/
theorem value_eq_of_parts {negative negative' : Bool} {c c' : ℕ} (hc : c = 0 ∨ 100 ≤ c)
    (h : parts ⟨negative', c', -2⟩ = parts ⟨negative, c, -2⟩) :
    (⟨negative', c', -2⟩ : Decimal).value = (⟨negative, c, -2⟩ : Decimal).value := by
  obtain ⟨hwhole, hfraction⟩ := Prod.mk.inj h
  have hsigned : (⟨negative', c', -2⟩ : Decimal).signed = (⟨negative, c, -2⟩ : Decimal).signed := by
    unfold signed
    dsimp only at hwhole hfraction ⊢
    cases negative <;> cases negative' <;> simp only [Bool.false_eq_true, if_false, if_true] at *
    all_goals omega
  exact congrArg (fun n : ℤ => (n : ℚ) * 10 ^ (-2 : ℤ)) hsigned

/-- The pair determines the rounded amount exactly where this is zero, or a unit at least. -/
theorem determines_iff {x q : Decimal} (h : quantizeMoney x = some q) :
    Determines x q ↔ |x.value| < 1 / 200 ∨ 199 / 200 ≤ |x.value| := by
  obtain ⟨c, rfl⟩ := exists_hundredths h
  have hone : 1 ≤ c ↔ 1 / 200 ≤ |x.value| := by
    have hcoefficient := le_coefficient_iff h 1
    norm_num at hcoefficient ⊢
    exact hcoefficient
  have hhundred : 100 ≤ c ↔ 199 / 200 ≤ |x.value| := by
    have hcoefficient := le_coefficient_iff h 100
    norm_num at hcoefficient ⊢
    exact hcoefficient
  rw [← hhundred, ← not_le, ← hone]
  constructor
  · intro hdetermines
    by_contra hnot
    exact not_determines h (by omega) (by omega) hdetermines
  · intro hc
    obtain ⟨hnonneg, hle⟩ := parts_bounds ⟨x.negative, c, -2⟩
    refine ⟨_, _, splitAmount_eq h, hnonneg, hle, abs_value_hundredths _ _, fun y r hr hsplit => ?_⟩
    obtain ⟨c', rfl⟩ := exists_hundredths hr
    rw [splitAmount_eq hr, Option.some_inj] at hsplit
    exact value_eq_of_parts (by omega) hsplit

theorem determines_iff_carry :
    Determines ⟨false, 1234999, -3⟩ ⟨false, 123500, -2⟩ ↔
      |(⟨false, 1234999, -3⟩ : Decimal).value| < 1 / 200 ∨
        199 / 200 ≤ |(⟨false, 1234999, -3⟩ : Decimal).value| :=
  determines_iff rfl

/-- Half a unit and its opposite are both split into 0 and 50. -/
theorem not_determines_half :
    quantizeMoney ⟨true, 5, -1⟩ = some ⟨true, 50, -2⟩ ∧
      ¬ Determines ⟨true, 5, -1⟩ ⟨true, 50, -2⟩ :=
  ⟨rfl, not_determines rfl (by decide) (by decide)⟩

end ApiTemplate.Functions
