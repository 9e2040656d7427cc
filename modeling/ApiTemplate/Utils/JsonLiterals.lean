import ApiTemplate.Security.CanonicalDict
import ApiTemplate.Stream.Binary64
import ApiTemplate.Stream.JsonReader

/-!
# Literals of JSON documents

Numbers and words as `json.dumps` writes and `json.loads` reads them. A number without a fraction
and an exponent is an integer, any other one a float; the text of a float always has one of them. So
each literal that is written is read back, the names of numbers that are not finite included.
-/

namespace ApiTemplate.Utils

open Binary64 JsonDocument Numerals Padding Scientific Security

/-! ## Writing -/

/-- `floatstr` -/
def floatText : PyFloat → List Char
  | .finite negative r => repr (.finite negative r)
  | .inf negative => signText negative ++ "Infinity".toList
  | .nan => "NaN".toList

/-- A number on a line with two ends; `nan` is nowhere. -/
def position : ℤ ⊕ PyFloat → Option (ℤ × ℚ)
  | .inl n => some (0, n)
  | .inr (.finite negative r) => some (0, if negative then -r.val else r.val)
  | .inr (.inf negative) => some (if negative then -1 else 1, 0)
  | .inr .nan => none

/-- `x < y` -/
def lessPosition (x y : ℤ ⊕ PyFloat) : Bool :=
  match position x, position y with
  | some p, some q => p.1 < q.1 ∨ (p.1 = q.1 ∧ p.2 < q.2)
  | _, _ => false

/-! ## Reading -/

/-- Digits without a leading zero. -/
def Leading (digits : List Char) : Prop := digits = ['0'] ∨ ∃ c ∈ digits.head?, c ≠ '0'

instance (digits : List Char) : Decidable (Leading digits) :=
  inferInstanceAs (Decidable (_ ∨ ∃ c ∈ digits.head?, c ≠ '0'))

/-- `_match_number`: a numeral as JSON has it, without a plus sign and with digits behind the
point. -/
def jsonNumber (space : Char → Bool) (text : List Char) : Option (Scalar PyFloat) :=
  let (n, rest) := readParts text
  if rest = [] ∧ text.head? ≠ some '+' ∧ Leading n.whole ∧ (n.fraction = [] → '.' ∉ text) then
    if n.fraction = [] ∧ n.exponent = none then (int space text).map .int
    else (float space text).map .float
  else none

/-- The literals that are no numerals. -/
def words : List (List Char × Scalar PyFloat) :=
  [("null".toList, .none), ("true".toList, .bool true), ("false".toList, .bool false),
    ("NaN".toList, .float .nan), ("Infinity".toList, .float (.inf false)),
    ("-Infinity".toList, .float (.inf true))]

def readLiteral (space : Char → Bool) (text : List Char) : Option (Scalar PyFloat) :=
  (Dict.get? words text).or (jsonNumber space text)

/-! ## Numerals -/

theorem leading_decimal (n : ℕ) : Leading (decimal n) := by
  unfold decimal
  split_ifs with hzero
  · exact .inl rfl
  · have hne : Nat.digits 10 n ≠ [] := Nat.digits_ne_nil_iff_ne_zero.mpr hzero
    have hlast := Nat.getLast_digit_ne_zero 10 hzero
    have hlt : (Nat.digits 10 n).getLast hne < 10 :=
      Nat.digits_lt_base (by decide) (List.getLast_mem hne)
    refine .inr ⟨digitChar ((Nat.digits 10 n).getLast hne), ?_, fun heq => hlast ?_⟩
    · rw [List.head?_reverse, List.getLast?_map, List.getLast?_eq_some_getLast hne]
      rfl
    · have htoNat := congrArg Char.toNat heq
      rw [digitChar_toNat hlt] at htoNat
      have hzero : '0'.toNat = 48 := rfl
      omega

theorem decimal_eq_zero {n : ℕ} (h : decimal n = ['0']) : n = 0 := by
  rw [← value_decimal n, h]
  rfl

/-- Without leading zeros, unless zero itself is filled up, none come. -/
theorem leading_layout {digits : List Char} {dotplace : ℤ} (h : Leading digits)
    (hzero : digits = ['0'] → dotplace ≤ 1) : Leading (layout digits dotplace).1 := by
  unfold layout
  split_ifs with hleft hright
  · exact .inl rfl
  · rcases h with rfl | ⟨c, hc, hne⟩
    · have hone := hzero rfl
      have hfill : (dotplace - (['0'] : List Char).length).toNat = 0 := by
        simp only [List.length_singleton]
        omega
      rw [hfill]
      exact .inl rfl
    · refine .inr ⟨c, ?_, hne⟩
      rw [List.head?_append, Option.mem_def.mp hc]
      rfl
  · rcases h with rfl | ⟨c, hc, hne⟩
    · have hone := hzero rfl
      simp only [List.length_singleton] at hright
      omega
    · obtain ⟨rest, rfl⟩ := List.head?_eq_some_iff.mp (Option.mem_def.mp hc)
      obtain ⟨k, hk⟩ := Nat.exists_eq_succ_of_ne_zero (n := dotplace.toNat) (by omega)
      refine .inr ⟨c, ?_, hne⟩
      rw [hk]
      rfl

theorem leading_floatNumeral (negative : Bool) (r : Size) :
    Leading (floatNumeral negative r).whole := by
  have hzero : decimal (shortest r).1 = ['0'] → shortest r = (0, 0) := by
    intro h
    have hnearest := nearest_shortest r
    rw [decimal_eq_zero h] at hnearest
    have hr : r.val = 0 := by
      rw [← hnearest]
      simp [nearest, rint, Decimals.Rounding.div]
    exact if_pos hr
  have hleading := leading_decimal (shortest r).1
  have hdecpt : decimal (shortest r).1 = ['0'] →
      ((decimal (shortest r).1).length : ℤ) + (shortest r).2 ≤ 1 := by
    intro h
    rw [h, hzero h]
    rfl
  unfold floatNumeral
  dsimp only
  split_ifs
  · exact leading_layout hleading hdecpt
  · exact leading_layout hleading hdecpt
  · exact leading_layout hleading fun _ => le_refl _

/-- The text of a float has a fraction or an exponent. -/
theorem fraction_or_exponent (negative : Bool) (r : Size) :
    (floatNumeral negative r).fraction ≠ [] ∨ (floatNumeral negative r).exponent ≠ none := by
  unfold floatNumeral
  dsimp only
  split_ifs with hfixed hnil
  · exact .inl (List.cons_ne_nil _ _)
  · exact .inl hnil
  · exact .inr nofun

/-! ## Literals that are read back -/

theorem get?_words {text : List Char} (h : ∀ c ∈ text, NumeralChar c) :
    Dict.get? words text = none := by
  have hwords : ∀ word ∈ words, ∃ c ∈ word.1, ¬NumeralChar c := by
    simp only [words, List.forall_mem_cons]
    exact ⟨⟨'u', by decide, by decide⟩, ⟨'u', by decide, by decide⟩, ⟨'s', by decide, by decide⟩,
      ⟨'N', by decide, by decide⟩, ⟨'I', by decide, by decide⟩, ⟨'I', by decide, by decide⟩,
      List.forall_mem_nil _⟩
  rw [Option.eq_none_iff_forall_ne_some]
  intro s hs
  obtain ⟨c, hc, hne⟩ := hwords _ (Dict.mem_of_get? hs)
  exact hne (h c hc)

/-- The first character of a numeral is its dash or a digit. -/
theorem head_text {n : Numeral} (h : n.Digits) (mark : Char) (width : ℕ) :
    (n.text mark width).head? ≠ some '+' := by
  obtain ⟨c, rest, hwhole⟩ := List.exists_cons_of_ne_nil h.ne_nil
  have hc := h.whole c (hwhole ▸ List.mem_cons_self)
  unfold Numeral.text signText
  rw [hwhole]
  split_ifs
  · exact fun heq => absurd (Option.some.inj heq) (by decide)
  · intro heq
    rw [Option.some.inj heq] at hc
    exact absurd hc (by decide)

theorem not_mem_text {n : Numeral} (h : n.Digits) (width : ℕ) (hfraction : n.fraction = []) :
    '.' ∉ n.text 'e' width := by
  have hdigits : ∀ digits : List Char, (∀ c ∈ digits, asciiDigit c = true) → '.' ∉ digits :=
    fun digits hall hmem => absurd (hall _ hmem) (by decide)
  have hpoint : pointText n.fraction = [] := if_pos hfraction
  unfold Numeral.text
  rw [hpoint, List.nil_append, List.mem_append, List.mem_append]
  rintro (hmem | hmem | hmem)
  · revert hmem
    cases n.negative <;> decide
  · exact hdigits _ h.whole hmem
  · revert hmem
    cases n.exponent with
    | none => exact List.not_mem_nil
    | some exponent =>
      intro hmem
      rcases List.mem_cons.mp hmem with heq | hmem
      · exact absurd heq (by decide)
      · rcases List.mem_cons.mp hmem with heq | hmem
        · split_ifs at heq
          · exact absurd heq (by decide)
          · exact absurd heq (by decide)
        · exact hdigits _ (fun _ => asciiDigit_of_mem_pad) hmem

/-- A numeral of JSON is read as an integer or a float. -/
theorem readLiteral_text {n : Numeral} (h : n.Digits) (hleading : Leading n.whole) (width : ℕ)
    (space : Char → Bool) :
    readLiteral space (n.text 'e' width) =
      if n.fraction = [] ∧ n.exponent = none then (int space (n.text 'e' width)).map .int
      else some (.float (ofDecimal n.decimal)) := by
  unfold readLiteral jsonNumber
  rw [get?_words (numeralChar_of_mem_text h (.inl rfl) width), Option.none_or,
    readParts_text h (.inl rfl) width]
  dsimp only
  rw [if_pos ⟨rfl, head_text h _ _, hleading, not_mem_text h width⟩,
    float_text h (.inl rfl) width space]
  rfl

theorem readLiteral_floatText (space : Char → Bool) (x : PyFloat) :
    readLiteral space (floatText x) = some (.float x) := by
  cases x with
  | finite negative r =>
    have hnot : ¬((floatNumeral negative r).fraction = [] ∧
        (floatNumeral negative r).exponent = none) := fun h =>
      (fraction_or_exponent negative r).elim (· h.1) (· h.2)
    show readLiteral space ((floatNumeral negative r).text 'e' 2) = _
    rw [readLiteral_text (digits_floatNumeral negative r) (leading_floatNumeral negative r),
      if_neg hnot, ofDecimal_floatNumeral]
  | inf negative => cases negative <;> rfl
  | nan => rfl

theorem readLiteral_str (space : Char → Bool) {n : ℤ} {text : List Char} (h : str n = some text) :
    readLiteral space text = some (.int n) := by
  have hread := readLiteral_text (digits_intNumeral n) (leading_decimal n.natAbs) 0 space
  rw [text_intNumeral h, if_pos ⟨rfl, rfl⟩, int_str h] at hread
  exact hread

/-! ## Tokens -/

theorem tokenChar_of_numeralChar {c : Char} (h : NumeralChar c) : tokenChar c = true := by
  rcases h with hdigit | rfl | rfl | rfl | rfl | rfl
  · have halpha : c.isDigit = true := by
      simp only [Char.isDigit, Bool.and_eq_true, decide_eq_true_eq]
      exact asciiDigit_iff.mp hdigit
    simp [tokenChar, Char.isAlphanum, halpha]
  all_goals rfl

theorem tokenChar_of_mem_floatText (x : PyFloat) : ∀ c ∈ floatText x, tokenChar c = true := by
  cases x with
  | finite negative r =>
    exact fun c hc => tokenChar_of_numeralChar
      (numeralChar_of_mem_text (digits_floatNumeral negative r) (.inl rfl) 2 c hc)
  | inf negative => cases negative <;> exact List.all_eq_true.mp rfl
  | nan => exact List.all_eq_true.mp rfl

theorem floatText_ne_nil (x : PyFloat) : floatText x ≠ [] := by
  cases x with
  | finite negative r => exact text_ne_nil (digits_floatNumeral negative r) _ _
  | inf negative => cases negative <;> decide
  | nan => decide

def floatToken (x : PyFloat) : Token :=
  ⟨floatText x, floatText_ne_nil x, tokenChar_of_mem_floatText x⟩

/-- The text of a float is not that of an integer. -/
theorem exists_mem_floatText (x : PyFloat) :
    ∃ c ∈ floatText x, c ≠ '-' ∧ ¬(48 ≤ c.toNat ∧ c.toNat ≤ 57) := by
  cases x with
  | finite negative r =>
    have hmem : '.' ∈ floatText (.finite negative r) ∨ 'e' ∈ floatText (.finite negative r) := by
      show '.' ∈ Numeral.text 'e' 2 _ ∨ 'e' ∈ Numeral.text 'e' 2 _
      rcases fraction_or_exponent negative r with hfraction | hexponent
      · exact .inl (by simp [Numeral.text, pointText, hfraction])
      · obtain ⟨exponent, hsome⟩ := Option.ne_none_iff_exists'.mp hexponent
        exact .inr (by simp [Numeral.text, hsome, exponentText])
    rcases hmem with hmem | hmem
    · exact ⟨'.', hmem, by decide⟩
    · exact ⟨'e', hmem, by decide⟩
  | inf negative => exact ⟨'I', by cases negative <;> decide, by decide⟩
  | nan => exact ⟨'N', by decide, by decide⟩

/-- The floats of Python among the floats that a JSON text can hold. -/
def pyFloats : Floats PyFloat where
  token := floatToken
  less := lessPosition
  token_inj x y h := by
    have hread : ∀ x, readLiteral (fun _ => false) (floatToken x).text = some (.float x) :=
      readLiteral_floatText _
    have hsame := hread x
    rw [h, hread y] at hsame
    exact (Scalar.float.inj (Option.some.inj hsame)).symm
  token_ne_null x h := by
    have hread := readLiteral_floatText (fun _ => false) x
    rw [show floatText x = nullToken.text from congrArg Token.text h] at hread
    cases hread
  token_ne_bool x b h := by
    have hread := readLiteral_floatText (fun _ => false) x
    rw [show floatText x = (boolToken b).text from congrArg Token.text h] at hread
    cases b <;> cases hread
  token_ne_int := exists_mem_floatText

/-- A literal is read back from its token. -/
theorem readLiteral_literal (space : Char → Bool) {s : Scalar PyFloat} {t : Token}
    (h : literal pyFloats s = .ok (.inl t)) : readLiteral space t.text = some s := by
  cases hasToken_of_literal pyFloats h with
  | none => rfl
  | bool b => cases b <;> rfl
  | int n t hn => exact readLiteral_str space (intToken_text hn)
  | float x => exact readLiteral_floatText space x

end ApiTemplate.Utils
