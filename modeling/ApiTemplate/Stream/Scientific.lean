import ApiTemplate.Stream.Decimals
import ApiTemplate.Stream.Padding

/-!
# Numerals with a point and an exponent

Texts such as `-12.5E+7`, what they are read as, and how the digits of a number are laid out around
the point. A text that is written from its parts is read back as these, whatever stands behind it.
-/

namespace Scientific

open Decimals Numerals Padding

/-! ## Numerals -/

/-- The parts of a numeral: its digits before and behind the point, and its exponent. -/
structure Numeral where
  negative : Bool
  whole : List Char
  fraction : List Char
  exponent : Option ℤ
  deriving DecidableEq

/-- The number that is written. -/
def Numeral.decimal (n : Numeral) : Decimal :=
  ⟨n.negative, value (n.whole ++ n.fraction), n.exponent.getD 0 - n.fraction.length⟩

/-- A numeral with digits in front of its point. -/
structure Numeral.Digits (n : Numeral) : Prop where
  ne_nil : n.whole ≠ []
  whole : ∀ c ∈ n.whole, asciiDigit c = true
  fraction : ∀ c ∈ n.fraction, asciiDigit c = true

/-! ## Writing -/

def signText (negative : Bool) : List Char := if negative then ['-'] else []

def pointText (fraction : List Char) : List Char :=
  if fraction = [] then [] else '.' :: fraction

/-- `mark`, a sign and at least `width` digits. -/
def exponentText (mark : Char) (width : ℕ) (exponent : ℤ) : List Char :=
  mark :: (if exponent < 0 then '-' else '+') :: pad width exponent.natAbs

def Numeral.text (mark : Char) (width : ℕ) (n : Numeral) : List Char :=
  signText n.negative ++ (n.whole ++ (pointText n.fraction ++
    n.exponent.elim [] (exponentText mark width)))

/-- Digits with the point behind the first `dotplace` of them, filled up with zeros. -/
def layout (digits : List Char) (dotplace : ℤ) : List Char × List Char :=
  if dotplace ≤ 0 then (['0'], List.replicate (-dotplace).toNat '0' ++ digits)
  else if digits.length ≤ dotplace then
    (digits ++ List.replicate (dotplace - digits.length).toNat '0', [])
  else (digits.take dotplace.toNat, digits.drop dotplace.toNat)

/-! ## Reading -/

def readSign : List Char → Bool × List Char
  | '-' :: text => (true, text)
  | '+' :: text => (false, text)
  | text => (false, text)

/-- The digits behind a point. -/
def readFraction : List Char → List Char × List Char
  | '.' :: text => (text.takeWhile asciiDigit, text.dropWhile asciiDigit)
  | text => ([], text)

/-- An exponent, if there is one. -/
def readExponent (text : List Char) : Option ℤ × List Char :=
  match text with
  | [] => (none, [])
  | c :: rest =>
    let (negative, rest) := readSign rest
    let digits := rest.takeWhile asciiDigit
    if (c = 'e' ∨ c = 'E') ∧ digits ≠ [] then
      (some (if negative then -(value digits : ℤ) else value digits), rest.dropWhile asciiDigit)
    else (none, text)

/-- The numeral in front of a text, and what follows. -/
def readParts (text : List Char) : Numeral × List Char :=
  let (negative, text) := readSign text
  let whole := text.takeWhile asciiDigit
  let (fraction, text) := readFraction (text.dropWhile asciiDigit)
  let (exponent, text) := readExponent text
  (⟨negative, whole, fraction, exponent⟩, text)

/-- A numeral that is the whole text. -/
def read (text : List Char) : Option Numeral :=
  let (n, rest) := readParts text
  if n.whole ++ n.fraction ≠ [] ∧ rest = [] then some n else none

/-! ## Runs of digits -/

/-- No digit goes on here. -/
def Ends (text : List Char) : Prop := ∀ c ∈ text.head?, asciiDigit c = false

theorem ends_nil : Ends [] := nofun

theorem ends_cons {c : Char} (h : asciiDigit c = false) (text : List Char) : Ends (c :: text) := by
  rintro _ ⟨⟩
  exact h

section

variable {digits text : List Char}

theorem takeWhile_digits (h : ∀ c ∈ digits, asciiDigit c = true) (hend : Ends text) :
    (digits ++ text).takeWhile asciiDigit = digits := by
  rw [List.takeWhile_append_of_pos h]
  cases text with
  | nil => exact List.append_nil digits
  | cons c text => rw [List.takeWhile_cons_of_neg (by simp [hend c rfl]), List.append_nil]

theorem dropWhile_digits (h : ∀ c ∈ digits, asciiDigit c = true) (hend : Ends text) :
    (digits ++ text).dropWhile asciiDigit = text := by
  rw [List.dropWhile_append_of_pos h]
  cases text with
  | nil => rfl
  | cons c text => exact List.dropWhile_cons_of_neg (by simp [hend c rfl])

end

/-! ## Parts that are read back -/

/-- What `readSign` leaves as it is. -/
theorem readSign_of_ne {c : Char} (hdash : c ≠ '-') (hplus : c ≠ '+') (text : List Char) :
    readSign (c :: text) = (false, c :: text) := by
  unfold readSign
  split
  · next heq => exact absurd (List.cons.inj heq).1 hdash
  · next heq => exact absurd (List.cons.inj heq).1 hplus
  · rfl

theorem readSign_digits {digits : List Char} (h : ∀ c ∈ digits, asciiDigit c = true)
    (hne : digits ≠ []) (text : List Char) :
    readSign (digits ++ text) = (false, digits ++ text) := by
  obtain ⟨c, rest, rfl⟩ := List.exists_cons_of_ne_nil hne
  have hc := asciiDigit_iff.mp (h c List.mem_cons_self)
  refine readSign_of_ne ?_ ?_ _
  · rintro rfl
    exact absurd hc.1 (by decide)
  · rintro rfl
    exact absurd hc.1 (by decide)

/-- A sign in front of digits. -/
theorem readSign_signText {digits : List Char} (h : ∀ c ∈ digits, asciiDigit c = true)
    (hne : digits ≠ []) (negative : Bool) (text : List Char) :
    readSign (signText negative ++ (digits ++ text)) = (negative, digits ++ text) := by
  cases negative with
  | false => exact readSign_digits h hne text
  | true => rfl

theorem readFraction_of_ne {c : Char} (hc : c ≠ '.') (text : List Char) :
    readFraction (c :: text) = ([], c :: text) := by
  unfold readFraction
  split
  · next heq => exact absurd (List.cons.inj heq).1 hc
  · rfl

theorem readFraction_pointText {fraction : List Char} (h : ∀ c ∈ fraction, asciiDigit c = true)
    {text : List Char} (hend : Ends text) (hpoint : ∀ c ∈ text.head?, c ≠ '.') :
    readFraction (pointText fraction ++ text) = (fraction, text) := by
  unfold pointText
  split
  · next hnil =>
    rw [hnil, List.nil_append]
    cases text with
    | nil => rfl
    | cons c text => exact readFraction_of_ne (hpoint c rfl) text
  · show (List.takeWhile _ (fraction ++ text), List.dropWhile _ (fraction ++ text)) = _
    rw [takeWhile_digits h hend, dropWhile_digits h hend]

theorem readExponent_exponentText {mark : Char} (hmark : mark = 'e' ∨ mark = 'E') (width : ℕ)
    (exponent : ℤ) {text : List Char} (hend : Ends text) :
    readExponent (exponentText mark width exponent ++ text) = (some exponent, text) := by
  have htake : (pad width exponent.natAbs ++ text).takeWhile asciiDigit =
      pad width exponent.natAbs := takeWhile_digits (fun _ => asciiDigit_of_mem_pad) hend
  have hdrop : (pad width exponent.natAbs ++ text).dropWhile asciiDigit = text :=
    dropWhile_digits (fun _ => asciiDigit_of_mem_pad) hend
  have hsign : ∀ sign : Char, readSign (sign :: (pad width exponent.natAbs ++ text)) =
      (decide (exponent < 0), pad width exponent.natAbs ++ text) →
      readExponent (mark :: sign :: (pad width exponent.natAbs ++ text)) =
        (some exponent, text) := by
    intro sign hread
    unfold readExponent
    dsimp only
    rw [hread]
    dsimp only
    rw [htake, hdrop, if_pos ⟨hmark, pad_ne_nil _ _⟩, value_pad]
    refine congrArg (fun n => (some n, text)) ?_
    split_ifs with hneg
    · have := of_decide_eq_true hneg
      omega
    · have := of_decide_eq_false (Bool.not_eq_true _ ▸ hneg)
      omega
  by_cases hneg : exponent < 0
  · have htext : exponentText mark width exponent ++ text =
        mark :: '-' :: (pad width exponent.natAbs ++ text) := by
      rw [exponentText, if_pos hneg]
      rfl
    rw [htext]
    exact hsign '-' (by rw [decide_eq_true hneg]; rfl)
  · have htext : exponentText mark width exponent ++ text =
        mark :: '+' :: (pad width exponent.natAbs ++ text) := by
      rw [exponentText, if_neg hneg]
      rfl
    rw [htext]
    exact hsign '+' (by rw [decide_eq_false hneg]; rfl)

/-! ## Whole numerals -/

/-- What may stand behind the digits of a numeral. -/
def Follows (text : List Char) : Prop := ∀ c ∈ text.head?, c ≠ '.' ∧ asciiDigit c = false

theorem follows_nil : Follows [] := nofun

theorem follows_exponentText {mark : Char} (hmark : mark = 'e' ∨ mark = 'E') (width : ℕ)
    (exponent : ℤ) : Follows (exponentText mark width exponent) := by
  rintro _ ⟨⟩
  rcases hmark with rfl | rfl
  · decide
  · decide

theorem Follows.ends {text : List Char} (h : Follows text) : Ends text := fun c hc => (h c hc).2

theorem Follows.ends_pointText {text : List Char} (h : Follows text) (fraction : List Char) :
    Ends (pointText fraction ++ text) := by
  unfold pointText
  split
  · exact h.ends
  · exact ends_cons (by decide) _

/-- The parts of a numeral are read back. -/
theorem readParts_text {n : Numeral} (h : n.Digits) {mark : Char} (hmark : mark = 'e' ∨ mark = 'E')
    (width : ℕ) : readParts (n.text mark width) = (n, []) := by
  obtain ⟨negative, whole, fraction, exponent⟩ := n
  obtain ⟨hne, hwhole, hfraction⟩ := h
  have hread : ∀ text, Follows text → readExponent text = (exponent, []) →
      readParts (signText negative ++ (whole ++ (pointText fraction ++ text))) =
        (⟨negative, whole, fraction, exponent⟩, []) := by
    intro text hfollows hexponent
    have hends := hfollows.ends_pointText fraction
    unfold readParts
    rw [readSign_signText hwhole hne]
    dsimp only
    rw [takeWhile_digits hwhole hends, dropWhile_digits hwhole hends,
      readFraction_pointText hfraction hfollows.ends fun c hc => (hfollows c hc).1]
    dsimp only
    rw [hexponent]
  cases exponent with
  | none => exact hread [] follows_nil rfl
  | some exponent =>
    have hexponent := readExponent_exponentText hmark width exponent ends_nil
    rw [List.append_nil] at hexponent
    exact hread _ (follows_exponentText hmark width exponent) hexponent

/-- A numeral is read back. -/
theorem read_text {n : Numeral} (h : n.Digits) {mark : Char} (hmark : mark = 'e' ∨ mark = 'E')
    (width : ℕ) : read (n.text mark width) = some n := by
  unfold read
  rw [readParts_text h hmark width]
  exact if_pos ⟨List.append_ne_nil_of_left_ne_nil h.ne_nil _, rfl⟩

/-! ## Characters of numerals -/

/-- A digit, a sign, a point or the mark of an exponent. -/
def NumeralChar (c : Char) : Prop :=
  asciiDigit c = true ∨ c = '-' ∨ c = '+' ∨ c = '.' ∨ c = 'e' ∨ c = 'E'

instance : DecidablePred NumeralChar := fun _ => inferInstanceAs (Decidable (_ ∨ _))

theorem numeralChar_of_digits {digits : List Char} (h : ∀ c ∈ digits, asciiDigit c = true) :
    ∀ c ∈ digits, NumeralChar c := fun c hc => .inl (h c hc)

theorem numeralChar_signText (negative : Bool) : ∀ c ∈ signText negative, NumeralChar c := by
  cases negative with
  | false => nofun
  | true => exact List.forall_mem_singleton.mpr (.inr (.inl rfl))

theorem numeralChar_pointText {fraction : List Char} (h : ∀ c ∈ fraction, asciiDigit c = true) :
    ∀ c ∈ pointText fraction, NumeralChar c := by
  unfold pointText
  split_ifs
  · nofun
  · exact List.forall_mem_cons.mpr ⟨by decide, numeralChar_of_digits h⟩

theorem numeralChar_exponentText {mark : Char} (hmark : mark = 'e' ∨ mark = 'E') (width : ℕ)
    (exponent : ℤ) : ∀ c ∈ exponentText mark width exponent, NumeralChar c := by
  refine List.forall_mem_cons.mpr ⟨?_, List.forall_mem_cons.mpr ⟨?_, ?_⟩⟩
  · rcases hmark with rfl | rfl <;> decide
  · split_ifs <;> decide
  · exact numeralChar_of_digits fun _ => asciiDigit_of_mem_pad

theorem numeralChar_of_mem_text {n : Numeral} (h : n.Digits) {mark : Char}
    (hmark : mark = 'e' ∨ mark = 'E') (width : ℕ) : ∀ c ∈ n.text mark width, NumeralChar c := by
  refine List.forall_mem_append.mpr ⟨numeralChar_signText _, List.forall_mem_append.mpr
    ⟨numeralChar_of_digits h.whole, List.forall_mem_append.mpr
      ⟨numeralChar_pointText h.fraction, ?_⟩⟩⟩
  cases n.exponent with
  | none => nofun
  | some exponent => exact numeralChar_exponentText hmark width exponent

/-- Characters of ASCII that are no blanks and no underscores. -/
def Plain (text : List Char) : Prop := ∀ c ∈ text, 33 ≤ c.toNat ∧ c.toNat < 127 ∧ c ≠ '_'

instance (text : List Char) : Decidable (Plain text) := List.decidableBAll _ text

theorem plain_of_numeralChar {text : List Char} (h : ∀ c ∈ text, NumeralChar c) : Plain text := by
  intro c hc
  rcases h c hc with hdigit | rfl | rfl | rfl | rfl | rfl
  · have hbounds := asciiDigit_iff.mp hdigit
    refine ⟨by omega, by omega, ?_⟩
    rintro rfl
    exact absurd hbounds.2 (by decide)
  all_goals decide

theorem plain_text {n : Numeral} (h : n.Digits) {mark : Char} (hmark : mark = 'e' ∨ mark = 'E')
    (width : ℕ) : Plain (n.text mark width) :=
  plain_of_numeralChar (numeralChar_of_mem_text h hmark width)

theorem text_ne_nil {n : Numeral} (h : n.Digits) (mark : Char) (width : ℕ) :
    n.text mark width ≠ [] :=
  List.append_ne_nil_of_right_ne_nil _ (List.append_ne_nil_of_left_ne_nil h.ne_nil _)

section

variable {text : List Char} (h : Plain text)

include h

theorem Plain.map_asciiChar (space : Char → Bool) : text.map (asciiChar space) = text :=
  (List.map_congr_left fun c hc => asciiChar_of_lt (h c hc).2.1).trans (List.map_id _)

theorem Plain.strip {blank : Char → Bool}
    (hblank : ∀ c, blank c = true → c.toNat < 127 → c.toNat ≤ 32) :
    strip blank text = text := by
  have hstays : ∀ c ∈ text, blank c = false := by
    intro c hc
    by_contra hne
    have := hblank c (Bool.not_eq_false _ ▸ hne) (h c hc).2.1
    have := (h c hc).1
    omega
  cases text with
  | nil => rfl
  | cons c text =>
    exact strip_append [] (List.cons_ne_nil c text) (hstays _ (List.head_mem _))
      (hstays _ (List.getLast_mem _))

end

theorem asciiBlank_low {c : Char} (h : asciiBlank c = true) : c.toNat ≤ 32 := by
  unfold asciiBlank at h
  simp only [Bool.or_eq_true, Bool.and_eq_true, decide_eq_true_eq] at h
  omega

/-! ## Layouts -/

section

variable {digits : List Char} (dotplace : ℤ)

theorem asciiDigit_layout (h : ∀ c ∈ digits, asciiDigit c = true) :
    (∀ c ∈ (layout digits dotplace).1, asciiDigit c = true) ∧
      ∀ c ∈ (layout digits dotplace).2, asciiDigit c = true := by
  have hzeros : ∀ n, ∀ c ∈ List.replicate n '0', asciiDigit c = true := by
    intro n c hc
    rw [(List.mem_replicate.mp hc).2]
    rfl
  unfold layout
  split_ifs
  · exact ⟨hzeros 1, List.forall_mem_append.mpr ⟨hzeros _, h⟩⟩
  · exact ⟨List.forall_mem_append.mpr ⟨h, hzeros _⟩, nofun⟩
  · exact ⟨fun c hc => h c (List.mem_of_mem_take hc), fun c hc => h c (List.mem_of_mem_drop hc)⟩

theorem layout_ne_nil (hne : digits ≠ []) : (layout digits dotplace).1 ≠ [] := by
  unfold layout
  split_ifs with hleft hright
  · exact List.cons_ne_nil _ _
  · exact List.append_ne_nil_of_left_ne_nil hne _
  · rw [List.ne_nil_iff_length_pos, List.length_take]
    have := List.length_pos_iff.mpr hne
    omega

/-- The point stands within the digits, or in front of them. -/
theorem layout_of_le (h : dotplace ≤ digits.length) :
    value ((layout digits dotplace).1 ++ (layout digits dotplace).2) = value digits ∧
      ((layout digits dotplace).2.length : ℤ) = digits.length - dotplace := by
  unfold layout
  split_ifs with hleft hright
  · refine ⟨?_, ?_⟩
    · show value ('0' :: (List.replicate _ '0' ++ digits)) = _
      rw [← List.cons_append, ← List.replicate_succ, value_zeros_append]
    · show (((List.replicate _ '0' ++ digits).length : ℕ) : ℤ) = _
      rw [List.length_append, List.length_replicate]
      omega
  · have hzero : (dotplace - digits.length).toNat = 0 := by omega
    rw [hzero]
    refine ⟨by simp, ?_⟩
    show (0 : ℤ) = _
    omega
  · refine ⟨by rw [List.take_append_drop], ?_⟩
    rw [List.length_drop]
    omega

/-- The digits are filled up to the point. -/
theorem layout_of_lt (h : digits.length < dotplace) :
    value ((layout digits dotplace).1 ++ (layout digits dotplace).2) =
        value digits * 10 ^ (dotplace - digits.length).toNat ∧
      (layout digits dotplace).2 = [] := by
  unfold layout
  rw [if_neg (by omega), if_pos (by omega)]
  refine ⟨?_, rfl⟩
  show value ((digits ++ _) ++ []) = _
  rw [List.append_nil, value_append, value_zeros, List.length_replicate, Nat.add_zero]

end

/-! ## Texts of integers -/

def intNumeral (n : ℤ) : Numeral := ⟨decide (n < 0), decimal n.natAbs, [], none⟩

theorem digits_intNumeral (n : ℤ) : (intNumeral n).Digits :=
  ⟨decimal_ne_nil _, fun _ => asciiDigit_of_mem_decimal, nofun⟩

/-- The text of an integer is a numeral. -/
theorem text_intNumeral {n : ℤ} {text : List Char} (h : str n = some text) (mark : Char)
    (width : ℕ) : (intNumeral n).text mark width = text := by
  unfold str at h
  split_ifs at h with _ hneg
  · rw [← Option.some.inj h]
    simp [intNumeral, Numeral.text, signText, pointText, hneg]
  · rw [← Option.some.inj h]
    simp [intNumeral, Numeral.text, signText, pointText, hneg]

/-! ## Texts of decimals -/

/-- A `Decimal` as it is written. -/
def numeralOf (x : Decimal) : Numeral :=
  let digits := decimal x.coefficient
  let leftdigits := x.exponent + digits.length
  let dotplace := if x.exponent ≤ 0 ∧ -6 < leftdigits then leftdigits else 1
  let (whole, fraction) := layout digits dotplace
  ⟨x.negative, whole, fraction,
    if leftdigits = dotplace then none else some (leftdigits - dotplace)⟩

/-- `str(x)` of a finite `Decimal`. -/
def decimalText (x : Decimal) : List Char := (numeralOf x).text 'E' 1

theorem asciiDigit_layout_decimal (n : ℕ) (dotplace : ℤ) :
    (∀ c ∈ (layout (decimal n) dotplace).1, asciiDigit c = true) ∧
      ∀ c ∈ (layout (decimal n) dotplace).2, asciiDigit c = true :=
  asciiDigit_layout dotplace fun _ hc => asciiDigit_of_mem_decimal hc

theorem digits_numeralOf (x : Decimal) : (numeralOf x).Digits := by
  have hdigits := asciiDigit_layout_decimal x.coefficient
  exact ⟨layout_ne_nil _ (decimal_ne_nil _), (hdigits _).1, (hdigits _).2⟩

/-- A number is what its numeral says. -/
theorem decimal_numeralOf (x : Decimal) : (numeralOf x).decimal = x := by
  obtain ⟨negative, coefficient, exponent⟩ := x
  have hpos : 0 < (decimal coefficient).length := List.length_pos_iff.mpr (decimal_ne_nil _)
  unfold numeralOf
  dsimp only
  generalize hdot : (if exponent ≤ 0 ∧ -6 < exponent + (decimal coefficient).length then
    exponent + ((decimal coefficient).length : ℤ) else 1) = dotplace
  have hle : dotplace ≤ (decimal coefficient).length := by
    rw [← hdot]
    split_ifs <;> omega
  obtain ⟨hvalue, hlength⟩ := layout_of_le dotplace hle
  unfold Numeral.decimal
  dsimp only
  rw [hvalue, hlength, value_decimal]
  refine congrArg (Decimal.mk negative coefficient) ?_
  split_ifs with hexp
  · rw [Option.getD_none]
    omega
  · rw [Option.getD_some]
    omega

/-- The numeral that `Decimal(text)` reads; underscores do not count. -/
def readDecimal (space : Char → Bool) (text : List Char) : Option Decimal :=
  (read (((strip space text).map (asciiChar space)).filter (· ≠ '_'))).map Numeral.decimal

/-- A `Decimal` is read back from its text. -/
theorem readDecimal_decimalText {space : Char → Bool} (hspace : IsSpace space) (x : Decimal) :
    readDecimal space (decimalText x) = some x := by
  have hplain : Plain (decimalText x) := plain_text (digits_numeralOf x) (.inr rfl) 1
  have hfilter : (decimalText x).filter (· ≠ '_') = decimalText x :=
    List.filter_eq_self.mpr fun c hc => decide_eq_true (hplain c hc).2.2
  unfold readDecimal
  rw [hplain.strip hspace.low, hplain.map_asciiChar, hfilter, decimalText,
    read_text (digits_numeralOf x) (.inr rfl), Option.map_some, decimal_numeralOf]

end Scientific
