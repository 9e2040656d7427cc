import ApiTemplate.Stream.Scientific
import Mathlib.Data.Int.Log
import Mathlib.Data.Rat.Floor
import Mathlib.Tactic.NormNum

/-!
# Floating point numbers

Numbers with 53 binary digits, as Python's `float` has them. A text is read as the number nearest to
what it says. A number is written with the fewest decimal digits that are read as this number, so
its text is read back.
-/

namespace Binary64

open Decimals Numerals Padding Scientific

/-! ## Sizes -/

/-- The size of a finite number: at most 53 binary digits, the last one not below `2 ^ -1074`. -/
def Representable (r : ℚ) : Prop :=
  r < 2 ^ 1024 ∧ ∃ (m : ℕ) (e : ℤ), m < 2 ^ 53 ∧ -1074 ≤ e ∧ r = m * 2 ^ e

def Size : Type := {r : ℚ // Representable r}

instance : DecidableEq Size := inferInstanceAs (DecidableEq {r : ℚ // Representable r})

/-- The nearest natural number, and in the middle the even one. -/
def rint (q : ℚ) : ℕ := Rounding.halfEven.div q.num.natAbs q.den

/-- The place of the last digit that fits. -/
def lastPlace (q : ℚ) : ℤ := max (-1074) (Int.log 2 q - 52)

/-- The nearest number of 53 digits. -/
def nearest (q : ℚ) : ℚ := rint (q / 2 ^ lastPlace q) * 2 ^ lastPlace q

theorem rint_natCast (n : ℕ) : rint n = n := by
  rw [rint, Rat.num_natCast, Rat.den_natCast, Int.natAbs_natCast]
  show (if 2 * (n % 1) = 1 then n / 1 + n / 1 % 2 else (2 * n + 1) / (2 * 1)) = n
  rw [if_neg (by omega)]
  omega

/-- Rounding does not pass a natural number. -/
theorem rint_le {q : ℚ} {n : ℕ} (hq : 0 ≤ q) (h : q ≤ n) : rint q ≤ n := by
  have hnum : q.num.natAbs ≤ n * q.den := by
    have hcast : ((q.num.natAbs : ℤ) : ℚ) = q.num := by
      rw [Int.natAbs_of_nonneg (Rat.num_nonneg.mpr hq)]
    have hden : (0 : ℚ) < q.den := by exact_mod_cast q.den_pos
    have hle : (q.num : ℚ) ≤ n * q.den := by
      rw [← div_le_iff₀ hden, Rat.num_div_den]
      exact h
    rw [← hcast] at hle
    exact_mod_cast hle
  have hden := q.den_pos
  show (if 2 * (q.num.natAbs % q.den) = q.den then q.num.natAbs / q.den + q.num.natAbs / q.den % 2
    else (2 * q.num.natAbs + q.den) / (2 * q.den)) ≤ n
  split_ifs with hmiddle
  · -- in the middle the quotient is not exact
    have hlt : q.num.natAbs / q.den < n := by
      rw [Nat.div_lt_iff_lt_mul hden]
      refine lt_of_le_of_ne hnum fun heq => ?_
      rw [heq, Nat.mul_mod_left] at hmiddle
      omega
    omega
  · rw [← Nat.lt_succ_iff, Nat.div_lt_iff_lt_mul (by omega)]
    calc 2 * q.num.natAbs + q.den ≤ 2 * (n * q.den) + q.den := by omega
      _ < (n + 1) * (2 * q.den) := by
        rw [Nat.add_mul, Nat.mul_left_comm 2 n]
        omega

/-- The digits that fit are 53. -/
theorem div_lastPlace_le {q : ℚ} : q / 2 ^ lastPlace q ≤ (2 ^ 53 : ℕ) := by
  have hpos : (0 : ℚ) < 2 ^ lastPlace q := zpow_pos (by norm_num) _
  rw [div_le_iff₀ hpos]
  have hlog : Int.log 2 q + 1 ≤ 53 + lastPlace q := by
    have := le_max_right (-1074) (Int.log 2 q - 52)
    unfold lastPlace
    omega
  calc q ≤ 2 ^ (Int.log 2 q + 1) := by exact_mod_cast (Int.lt_zpow_succ_log_self one_lt_two q).le
    _ ≤ 2 ^ (53 + lastPlace q) := zpow_le_zpow_right₀ (by norm_num) hlog
    _ = (2 ^ 53 : ℕ) * 2 ^ lastPlace q := by
      rw [zpow_add₀ (by norm_num)]
      norm_num

theorem representable_of_le {m : ℕ} {e : ℤ} (hm : m ≤ 2 ^ 53) (he : -1074 ≤ e)
    (hlt : (m * 2 ^ e : ℚ) < 2 ^ 1024) : Representable (m * 2 ^ e) := by
  rcases Nat.lt_or_eq_of_le hm with hm | rfl
  · exact ⟨hlt, m, e, hm, he, rfl⟩
  · refine ⟨hlt, 2 ^ 52, e + 1, by norm_num, by omega, ?_⟩
    rw [zpow_add₀ (by norm_num)]
    push_cast
    ring

theorem representable_nearest {q : ℚ} (hq : 0 ≤ q) (hlt : nearest q < 2 ^ 1024) :
    Representable (nearest q) :=
  representable_of_le
    (rint_le (div_nonneg hq (zpow_nonneg (by norm_num) _)) div_lastPlace_le) (le_max_left _ _) hlt

theorem Representable.nonneg {r : ℚ} (h : Representable r) : 0 ≤ r := by
  obtain ⟨-, m, e, -, -, rfl⟩ := h
  positivity

/-- A number that fits is not rounded. -/
theorem nearest_of_representable {r : ℚ} (h : Representable r) : nearest r = r := by
  obtain ⟨-, m, e, hm, he, rfl⟩ := h
  have htwo : (2 : ℚ) ≠ 0 := by norm_num
  have hplace : m = 0 ∨ lastPlace (m * 2 ^ e) ≤ e := by
    rcases Nat.eq_zero_or_pos m with hzero | hpos
    · exact .inl hzero
    · have hsize : (0 : ℚ) < m * 2 ^ e := by positivity
      have hlog : Int.log 2 (m * 2 ^ e : ℚ) < 53 + e := by
        rw [← Int.lt_zpow_iff_log_lt one_lt_two hsize]
        calc (m * 2 ^ e : ℚ) < 2 ^ 53 * 2 ^ e := by
              have hm' : (m : ℚ) < 2 ^ 53 := by exact_mod_cast hm
              exact mul_lt_mul_of_pos_right hm' (zpow_pos (by norm_num) _)
          _ = ((2 : ℕ) : ℚ) ^ (53 + e) := by
              rw [zpow_add₀ (by norm_num)]
              norm_num
      exact .inr (max_le he (by omega))
  rcases hplace with rfl | hplace
  · simp [nearest, rint, Rounding.div]
  · obtain ⟨k, hk⟩ := Int.eq_ofNat_of_zero_le (Int.sub_nonneg.mpr hplace)
    have hscaled : (m * 2 ^ e : ℚ) / 2 ^ lastPlace (m * 2 ^ e) = (m * 2 ^ k : ℕ) := by
      rw [mul_div_assoc, ← zpow_sub₀ htwo, hk]
      push_cast
      rw [zpow_natCast]
    unfold nearest
    rw [hscaled, rint_natCast, ← hscaled, div_mul_cancel₀ _ (zpow_ne_zero _ htwo)]

/-! ## Numbers -/

inductive PyFloat
  | finite (negative : Bool) (size : Size)
  | inf (negative : Bool)
  | nan
  deriving DecidableEq

/-- A number of any size, rounded. -/
def round (negative : Bool) (q : ℚ) (hq : 0 ≤ q) : PyFloat :=
  if h : nearest q < 2 ^ 1024 then .finite negative ⟨nearest q, representable_nearest hq h⟩
  else .inf negative

/-- The size of a decimal number. -/
def magnitude (x : Decimal) : ℚ := x.coefficient * 10 ^ x.exponent

theorem magnitude_nonneg (x : Decimal) : 0 ≤ magnitude x := by
  unfold magnitude
  positivity

def ofDecimal (x : Decimal) : PyFloat := round x.negative (magnitude x) (magnitude_nonneg x)

theorem round_of_nearest {negative : Bool} {q : ℚ} {hq : 0 ≤ q} {r : Size}
    (h : nearest q = r.val) : round negative q hq = .finite negative r := by
  have hlt : nearest q < 2 ^ 1024 := h ▸ r.property.1
  unfold round
  rw [dif_pos hlt]
  exact congrArg (PyFloat.finite negative) (Subtype.ext h)

/-- A size that fits is that of the number. -/
theorem round_eq_finite_iff {negative : Bool} {q : ℚ} {hq : 0 ≤ q} :
    (∃ r : Size, round negative q hq = .finite negative r ∧ r.val = q) ↔ Representable q := by
  constructor
  · rintro ⟨r, -, rfl⟩
    exact r.property
  · intro h
    exact ⟨⟨q, h⟩, round_of_nearest (nearest_of_representable h), rfl⟩

/-! ## Reading -/

/-- Underscores stand between digits only. -/
def scored (text : List Char) : Bool :=
  ((' ' :: text).zip (text ++ [' '])).all fun (a, b) =>
    (a ≠ '_' || asciiDigit b) && (b ≠ '_' || asciiDigit a)

/-- The words among the numbers. -/
def word (text : List Char) : Option PyFloat :=
  let (negative, text) := readSign text
  let text := text.map Char.toLower
  if text = "inf".toList ∨ text = "infinity".toList then some (.inf negative)
  else if text = "nan".toList then some .nan
  else none

/-- `float(text)`; none where it raises. -/
def float (space : Char → Bool) (text : List Char) : Option PyFloat :=
  let text := strip asciiBlank (text.map (asciiChar space))
  if scored text then
    let text := text.filter (· ≠ '_')
    (word text).or ((read text).map fun n => ofDecimal n.decimal)
  else none

theorem scored_of_plain {text : List Char} (h : Plain text) : scored text = true := by
  have hne : ∀ c ∈ ' ' :: (text ++ [' ']), c ≠ '_' := by
    intro c hc
    rcases List.mem_cons.mp hc with rfl | hc
    · decide
    · rcases List.mem_append.mp hc with hc | hc
      · exact (h c hc).2.2
      · rw [List.mem_singleton.mp hc]
        decide
  refine List.all_eq_true.mpr fun ⟨a, b⟩ hab => ?_
  obtain ⟨ha, hb⟩ := List.of_mem_zip hab
  have ha : a ≠ '_' := hne a ((List.mem_cons.mp ha).elim (fun h => h ▸ List.mem_cons_self)
    fun h => List.mem_cons_of_mem _ (List.mem_append_left _ h))
  have hb : b ≠ '_' := hne b (List.mem_cons_of_mem _ hb)
  simp [ha, hb]

theorem toLower_digit {c : Char} (h : asciiDigit c = true) : c.toLower ≠ 'i' ∧ c.toLower ≠ 'n' := by
  have hall : ∀ d < 10, (digitChar d).toLower ≠ 'i' ∧ (digitChar d).toLower ≠ 'n' := by decide
  have hbounds := asciiDigit_iff.mp h
  rw [← digitChar_toNat_sub h]
  exact hall _ (by omega)

/-- A numeral is no word. -/
theorem word_text {n : Numeral} (h : n.Digits) (mark : Char) (width : ℕ) :
    word (n.text mark width) = none := by
  obtain ⟨c, rest, hwhole⟩ := List.exists_cons_of_ne_nil h.ne_nil
  have hc := toLower_digit (h.whole c (hwhole ▸ List.mem_cons_self))
  unfold word Numeral.text
  rw [readSign_signText h.whole h.ne_nil]
  dsimp only
  rw [hwhole, List.cons_append, List.map_cons, if_neg, if_neg]
  · exact fun heq => hc.2 (List.cons.inj heq).1
  · rintro (heq | heq)
    · exact hc.1 (List.cons.inj heq).1
    · exact hc.1 (List.cons.inj heq).1

/-- In a text without blanks and underscores nothing is taken away. -/
theorem float_of_plain {text : List Char} (h : Plain text) (space : Char → Bool) :
    float space text = (word text).or ((read text).map fun n => ofDecimal n.decimal) := by
  have hfilter : text.filter (· ≠ '_') = text :=
    List.filter_eq_self.mpr fun c hc => decide_eq_true (h c hc).2.2
  unfold float
  rw [h.map_asciiChar, h.strip fun c hc _ => asciiBlank_low hc, if_pos (scored_of_plain h),
    hfilter]

theorem float_text {n : Numeral} (h : n.Digits) {mark : Char} (hmark : mark = 'e' ∨ mark = 'E')
    (width : ℕ) (space : Char → Bool) :
    float space (n.text mark width) = some (ofDecimal n.decimal) := by
  rw [float_of_plain (plain_text h hmark width), word_text h, Option.none_or, read_text h hmark,
    Option.map_some]

/-! ## Writing -/

/-- The place of the last of `k` digits. -/
def place (r : ℚ) (k : ℕ) : ℤ := Int.log 10 r + 1 - k

/-- The `k` digits next to `r` that are read as `r`, the nearest ones if they are. -/
def nearby (r : ℚ) (k : ℕ) : Option ℕ :=
  let q := r / 10 ^ place r k
  [rint q, ⌊q⌋₊, ⌈q⌉₊].find? fun c => nearest (c * 10 ^ place r k) = r

/-- All digits of a number are read as it. -/
theorem exists_nearby {r : ℚ} (h : Representable r) : ∃ k, (nearby r k).isSome := by
  have hnearest := nearest_of_representable h
  obtain ⟨-, m, e, -, he, hr⟩ := h
  have hplace : place r (Int.log 10 r + 1075).toNat ≤ -1074 := by
    unfold place
    omega
  obtain ⟨j, hj⟩ := Int.eq_ofNat_of_zero_le (a := -place r (Int.log 10 r + 1075).toNat) (by omega)
  obtain ⟨i, hi⟩ := Int.eq_ofNat_of_zero_le (a := e + j) (by omega)
  generalize (Int.log 10 r + 1075).toNat = k at *
  have hpos : (10 : ℚ) ^ place r k ≠ 0 := zpow_ne_zero _ (by norm_num)
  have hten : (10 : ℚ) ^ j = 2 ^ (j : ℤ) * 5 ^ j := by
    rw [zpow_natCast, ← mul_pow]
    norm_num
  have hscaled : r / 10 ^ place r k = (m * 2 ^ i * 5 ^ j : ℕ) := by
    have hplace : place r k = -(j : ℤ) := by omega
    rw [hplace, zpow_neg, div_inv_eq_mul, zpow_natCast, hten, hr, mul_assoc, ← mul_assoc (2 ^ e),
      ← zpow_add₀ (by norm_num), hi, zpow_natCast]
    push_cast
    ring
  refine ⟨k, List.find?_isSome.mpr ⟨_, List.mem_cons_self, decide_eq_true ?_⟩⟩
  rw [hscaled, rint_natCast, ← hscaled, div_mul_cancel₀ _ hpos, hnearest]

/-- The fewest digits that are read as `r`, and the place of the last one. -/
def shortest (r : Size) : ℕ × ℤ :=
  if r.val = 0 then (0, 0)
  else
    let k := Nat.find (exists_nearby r.property)
    ((nearby r.val k).get (Nat.find_spec (exists_nearby r.property)), place r.val k)

theorem nearest_shortest (r : Size) :
    nearest ((shortest r).1 * 10 ^ (shortest r).2) = r.val := by
  unfold shortest
  split_ifs with hzero
  · rw [hzero]
    simp [nearest, rint, Rounding.div]
  · have hfound := List.find?_some
      (Option.some_get (Nat.find_spec (exists_nearby r.property))).symm
    exact of_decide_eq_true hfound

/-- A finite number as it is written, with an exponent where it is very large or small. -/
def floatNumeral (negative : Bool) (r : Size) : Numeral :=
  let (coefficient, exponent) := shortest r
  let digits := decimal coefficient
  let decpt := digits.length + exponent
  if -4 < decpt ∧ decpt ≤ 16 then
    let (whole, fraction) := layout digits decpt
    ⟨negative, whole, if fraction = [] then ['0'] else fraction, none⟩
  else
    let (whole, fraction) := layout digits 1
    ⟨negative, whole, fraction, some (decpt - 1)⟩

/-- `repr(x)` -/
def repr : PyFloat → List Char
  | .finite negative r => (floatNumeral negative r).text 'e' 2
  | .inf negative => signText negative ++ "inf".toList
  | .nan => "nan".toList

/-- Where the point stands says what the digits are worth. -/
theorem value_layout (digits : List Char) (dotplace : ℤ) :
    (value ((layout digits dotplace).1 ++ (layout digits dotplace).2) : ℚ) *
        10 ^ (-((layout digits dotplace).2.length : ℤ)) =
      value digits * 10 ^ (dotplace - digits.length) := by
  rcases le_or_gt dotplace digits.length with hle | hlt
  · obtain ⟨hvalue, hlength⟩ := layout_of_le dotplace hle
    rw [hvalue, hlength, neg_sub]
  · obtain ⟨hvalue, hfraction⟩ := layout_of_lt dotplace hlt
    obtain ⟨k, hk⟩ := Int.eq_ofNat_of_zero_le (a := dotplace - digits.length) (by omega)
    rw [hvalue, hfraction, hk, Int.toNat_natCast]
    simp

/-- A zero behind the point is worth nothing. -/
theorem value_fill (whole fraction : List Char) :
    (value (whole ++ if fraction = [] then ['0'] else fraction) : ℚ) *
        10 ^ (-((if fraction = [] then ['0'] else fraction).length : ℤ)) =
      value (whole ++ fraction) * 10 ^ (-(fraction.length : ℤ)) := by
  split_ifs with hnil
  · have hzero : value ['0'] = 0 := rfl
    rw [hnil, value_append, hzero, List.append_nil]
    simp
  · rfl

theorem magnitude_floatNumeral (negative : Bool) (r : Size) :
    magnitude (floatNumeral negative r).decimal = (shortest r).1 * 10 ^ (shortest r).2 := by
  have hten : (10 : ℚ) ≠ 0 := by norm_num
  unfold floatNumeral magnitude Numeral.decimal
  dsimp only
  by_cases hfixed : -4 < (decimal (shortest r).1).length + (shortest r).2 ∧
      (decimal (shortest r).1).length + (shortest r).2 ≤ 16
  · rw [if_pos hfixed]
    dsimp only
    rw [Option.getD_none, zero_sub, value_fill, value_layout, value_decimal, add_sub_cancel_left]
  · rw [if_neg hfixed]
    dsimp only
    rw [Option.getD_some, sub_eq_add_neg, add_comm, zpow_add₀ hten, ← mul_assoc, value_layout,
      value_decimal, mul_assoc, ← zpow_add₀ hten]
    refine congrArg (fun e : ℤ => ((shortest r).1 : ℚ) * 10 ^ e) ?_
    omega

theorem digits_floatNumeral (negative : Bool) (r : Size) : (floatNumeral negative r).Digits := by
  have hdigits := asciiDigit_layout_decimal (shortest r).1
  have hne := fun dotplace => layout_ne_nil dotplace (decimal_ne_nil (shortest r).1)
  unfold floatNumeral
  dsimp only
  split_ifs with hfixed hnil
  · refine ⟨hne _, (hdigits _).1, fun c hc => ?_⟩
    rw [List.mem_singleton.mp hc]
    rfl
  · exact ⟨hne _, (hdigits _).1, (hdigits _).2⟩
  · exact ⟨hne _, (hdigits _).1, (hdigits _).2⟩

/-- A finite number is read back from its numeral. -/
theorem ofDecimal_floatNumeral (negative : Bool) (r : Size) :
    ofDecimal (floatNumeral negative r).decimal = .finite negative r := by
  have hsign : (floatNumeral negative r).decimal.negative = negative := by
    unfold floatNumeral Numeral.decimal
    dsimp only
    split_ifs <;> rfl
  have hnearest : nearest (magnitude (floatNumeral negative r).decimal) = r.val := by
    rw [magnitude_floatNumeral, nearest_shortest]
  have hround : ofDecimal (floatNumeral negative r).decimal =
      .finite (floatNumeral negative r).decimal.negative r := round_of_nearest hnearest
  rw [hround, hsign]

/-- A number is read back from its text. -/
theorem float_repr (space : Char → Bool) (x : PyFloat) : float space (repr x) = some x := by
  have hword : ∀ text, Plain text → ∀ x, word text = some x → float space text = some x := by
    intro text hplain x hx
    rw [float_of_plain hplain, hx, Option.some_or]
  cases x with
  | finite negative r =>
    rw [repr, float_text (digits_floatNumeral negative r) (.inl rfl), ofDecimal_floatNumeral]
  | inf negative =>
    cases negative with
    | false => exact hword _ (by decide) _ rfl
    | true => exact hword _ (by decide) _ rfl
  | nan => exact hword _ (by decide) _ rfl

end Binary64
