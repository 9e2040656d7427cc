import ApiTemplate.Identity.Annotated
import ApiTemplate.Stream.Padding
import Mathlib.Probability.Distributions.Uniform

/-!
# Numeric one-time codes

`generate_numeric_otp` pads a drawn number with zeros. The draws of a length and its codes are in
bijection, as far as `str` writes the draws: it refuses numbers of more than `MAX_STR_DIGITS`
digits.
-/

namespace ApiTemplate.Functions

open Identity Numerals Padding

/-! ## `security_funcs.py` -/

/-- `generate_numeric_otp` for the number that `secrets.randbelow(10**length)` draws; none where
`str` raises. -/
def generateNumericOtp (length draw : ℕ) : Option String :=
  (str draw).map fun text => String.ofList (zfill text length)

/-! ## Draws and codes -/

theorem str_natCast (n : ℕ) :
    str n = if n < 10 ^ MAX_STR_DIGITS then some (decimal n) else none := by
  have hnot : ¬((n : ℤ) < 0) := Int.not_lt.mpr (Int.natCast_nonneg n)
  have hlength : (decimal n).length ≤ MAX_STR_DIGITS ↔ n < 10 ^ MAX_STR_DIGITS :=
    length_decimal_le (by decide)
  simp only [str, Int.natAbs_natCast, if_neg hnot, hlength]

theorem generateNumericOtp_of_lt {length draw : ℕ} (h : draw < 10 ^ MAX_STR_DIGITS) :
    generateNumericOtp length draw = some (String.ofList (pad length draw)) := by
  rw [generateNumericOtp, str_natCast, if_pos h]
  rfl

theorem generateNumericOtp_of_le {length draw : ℕ} (h : 10 ^ MAX_STR_DIGITS ≤ draw) :
    generateNumericOtp length draw = none := by
  rw [generateNumericOtp, str_natCast, if_neg (Nat.not_lt.mpr h)]
  rfl

theorem generateNumericOtp_eq_some {length draw : ℕ} {code : String} :
    generateNumericOtp length draw = some code ↔
      draw < 10 ^ MAX_STR_DIGITS ∧ String.ofList (pad length draw) = code := by
  by_cases h : draw < 10 ^ MAX_STR_DIGITS
  · rw [generateNumericOtp_of_lt h, Option.some_inj, and_iff_right h]
  · rw [generateNumericOtp_of_le (Nat.not_lt.mp h)]
    exact iff_of_false nofun fun hcode => h hcode.1

/-- A code with no more than `MAX_STR_DIGITS` digits behind its leading zeros. -/
def Writable (length : ℕ) (code : String) : Prop :=
  ∀ c ∈ code.toList.take (length - MAX_STR_DIGITS), c = '0'

/-- A number is below `10 ^ MAX_STR_DIGITS` if its digits before the last `MAX_STR_DIGITS` are
zeros. -/
theorem value_lt_of_writable {length : ℕ} {code : String} (h : IsDigits length code.toList)
    (hwritable : Writable length code) : value code.toList < 10 ^ MAX_STR_DIGITS := by
  have hsplit : code.toList =
      List.replicate (code.toList.take (length - MAX_STR_DIGITS)).length '0' ++
        code.toList.drop (length - MAX_STR_DIGITS) := by
    rw [← List.eq_replicate_iff.mpr ⟨rfl, hwritable⟩, List.take_append_drop]
  have hrest : IsDigits (code.toList.drop (length - MAX_STR_DIGITS)).length
      (code.toList.drop (length - MAX_STR_DIGITS)) :=
    ⟨rfl, fun c hc => h.digit c (List.mem_of_mem_drop hc)⟩
  have hlength : (code.toList.drop (length - MAX_STR_DIGITS)).length ≤ MAX_STR_DIGITS := by
    rw [List.length_drop, h.length]
    omega
  calc value code.toList
      = value (code.toList.drop (length - MAX_STR_DIGITS)) := by
        conv_lhs => rw [hsplit, value_zeros_append]
    _ < 10 ^ (code.toList.drop (length - MAX_STR_DIGITS)).length := hrest.value_lt
    _ ≤ 10 ^ MAX_STR_DIGITS := Nat.pow_le_pow_right (by decide) hlength

/-- The code of one draw. -/
theorem existsUnique_draw {length : ℕ} (hlength : 1 ≤ length) {code : String}
    (h : IsDigits length code.toList) (hwritable : Writable length code) :
    ∃! draw : Fin (10 ^ length), generateNumericOtp length draw = some code := by
  refine ⟨⟨value code.toList, h.value_lt⟩, ?_, ?_⟩
  · refine generateNumericOtp_eq_some.mpr ⟨value_lt_of_writable h hwritable, ?_⟩
    rw [h.pad_value hlength, String.ofList_toList]
  · intro draw hdraw
    obtain ⟨-, hpad⟩ := generateNumericOtp_eq_some.mp hdraw
    refine Fin.ext ?_
    show (draw : ℕ) = value code.toList
    rw [← hpad, String.toList_ofList, value_pad]

/-- Where a function takes a value at one place only, a uniform argument leads to it as often as to
any other such value. -/
theorem map_uniform_apply {α β : Type*} [Fintype α] [Nonempty α] {f : α → β} {b : β}
    (h : ∃! a, f a = b) :
    (PMF.uniformOfFintype α).map f b = (Fintype.card α : ENNReal)⁻¹ := by
  classical
  obtain ⟨a, rfl, hunique⟩ := h
  rw [PMF.map_apply, tsum_eq_single a fun a' hne => if_neg fun heq => hne (hunique a' heq.symm),
    if_pos rfl, PMF.uniformOfFintype_apply]

theorem isWhiteSpace_of_asciiDigit {c : Char} (h : asciiDigit c = true) :
    isWhiteSpace c = false := by
  have hbounds := asciiDigit_iff.mp h
  refine isWhiteSpace_of_not_isSpace ?_
  simp only [isSpace, Bool.or_eq_false_iff, Bool.and_eq_false_iff, decide_eq_false_iff_not,
    beq_eq_false_iff_ne, ne_eq]
  omega

/-- Codes pass the type unchanged. -/
theorem atOtp_of_isDigits {code : String} (h : IsDigits otpCodeLength code.toList) :
    atOtp code = some code := by
  have htrim : trim code.toList = code.toList :=
    trim_of_forall fun c hc => isWhiteSpace_of_asciiDigit (h.digit c hc)
  have hfits : (otpMinLength ≤ code.toList.length && code.toList.length ≤ otpMaxLength && true) =
      true := by
    rw [h.length]
    rfl
  simp only [atOtp, StringConstraints.apply, StringConstraints.stripped, StringConstraints.fits,
    StringConstraints.lowered, htrim, if_true, hfits, String.ofList_toList, Bool.false_eq_true,
    if_false]

/-! ## Codes of a length -/

/-- What holds of the codes of a length. -/
structure Codes (length : ℕ) : Prop where
  code : ∀ draw < 10 ^ length, draw < 10 ^ MAX_STR_DIGITS →
    ∃ code, generateNumericOtp length draw = some code ∧ IsDigits length code.toList
  raises : ∀ draw, 10 ^ MAX_STR_DIGITS ≤ draw → generateNumericOtp length draw = none
  distinct : ∀ draw < 10 ^ length, ∀ draw' < 10 ^ length, ∀ code,
    generateNumericOtp length draw = some code → generateNumericOtp length draw' = some code →
      draw = draw'
  drawn : ∀ code : String, IsDigits length code.toList → Writable length code →
    ∃! draw : Fin (10 ^ length), generateNumericOtp length draw = some code
  uniform : ∀ code : String, IsDigits length code.toList → Writable length code →
    (PMF.uniformOfFintype (Fin (10 ^ length))).map
      (fun draw : Fin (10 ^ length) => generateNumericOtp length draw) (some code) =
        (10 ^ length)⁻¹
  accepted : length = otpCodeLength → ∀ draw < 10 ^ length,
    ∃ code, generateNumericOtp length draw = some code ∧ atOtp code = some code

theorem codes_of_pos {length : ℕ} (h : 1 ≤ length) : Codes length where
  code draw hdraw hmax :=
    ⟨_, generateNumericOtp_of_lt hmax, by
      rw [String.toList_ofList]
      exact isDigits_pad h hdraw⟩
  raises draw hmax := generateNumericOtp_of_le hmax
  distinct draw hdraw draw' hdraw' code hcode hcode' := by
    obtain ⟨-, rfl⟩ := generateNumericOtp_eq_some.mp hcode
    obtain ⟨-, hpad⟩ := generateNumericOtp_eq_some.mp hcode'
    rw [← value_pad length draw, ← value_pad length draw', String.ofList_injective hpad]
  drawn code hcode hwritable := existsUnique_draw h hcode hwritable
  uniform code hcode hwritable := by
    rw [map_uniform_apply (existsUnique_draw h hcode hwritable), Fintype.card_fin]
    push_cast
    rfl
  accepted hlength draw hdraw := by
    have hmax : draw < 10 ^ MAX_STR_DIGITS :=
      hdraw.trans_le (Nat.pow_le_pow_right (by decide) (hlength ▸ by decide))
    refine ⟨_, generateNumericOtp_of_lt hmax, atOtp_of_isDigits ?_⟩
    rw [String.toList_ofList, ← hlength]
    exact isDigits_pad h hdraw

theorem codes_six : Codes 6 := codes_of_pos (by decide)

/-- The least draw that `str` refuses is one of the next length. -/
theorem not_code_of_long :
    10 ^ MAX_STR_DIGITS < 10 ^ (MAX_STR_DIGITS + 1) ∧
      generateNumericOtp (MAX_STR_DIGITS + 1) (10 ^ MAX_STR_DIGITS) = none :=
  ⟨Nat.pow_lt_pow_right (by decide) (Nat.lt_succ_self _), generateNumericOtp_of_le (Nat.le_refl _)⟩

end ApiTemplate.Functions
