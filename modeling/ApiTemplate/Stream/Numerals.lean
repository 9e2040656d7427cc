import Mathlib.Data.List.DropRight
import Mathlib.Data.Nat.Digits.Lemmas

/-!
# Numerals

Python's `int` of a text and `str` of an integer. Every character is first turned into ASCII:
decimal digits of all scripts count, a blank outside ASCII becomes a space. Then come an optional
sign and digits, between which single underscores may stand. Neither function handles more than
`MAX_STR_DIGITS` digits.
-/

namespace Numerals

/-! ## Digits of Unicode -/

/-- The zeros of the scripts with decimal digits, each followed by the digits one to nine. -/
def decimalZeros : List ℕ :=
  [48, 1632, 1776, 1984, 2406, 2534, 2662, 2790, 2918, 3046, 3174, 3302, 3430, 3558, 3664, 3792,
    3872, 4160, 4240, 6112, 6160, 6470, 6608, 6784, 6800, 6992, 7088, 7232, 7248, 42528, 43216,
    43264, 43472, 43504, 43600, 44016, 65296, 66720, 68912, 69734, 69872, 69942, 70096, 70384,
    70736, 70864, 71248, 71360, 71472, 71904, 72016, 72784, 73040, 73120, 73552, 92768, 92864,
    93008, 120782, 120792, 120802, 120812, 120822, 123200, 123632, 124144, 125264, 130032]

/-- The digits that are not decimal, such as superscripts: first and last of each block. -/
def otherDigits : List (ℕ × ℕ) :=
  [(178, 179), (185, 185), (4969, 4977), (6618, 6618), (8304, 8304), (8308, 8313), (8320, 8329),
    (9312, 9320), (9332, 9340), (9352, 9360), (9450, 9450), (9461, 9469), (9471, 9471),
    (10102, 10110), (10112, 10120), (10122, 10130), (68160, 68163), (69216, 69224),
    (69714, 69722), (127232, 127242)]

/-- `unicodedata.decimal` -/
def decimalValue (c : Char) : Option ℕ :=
  (decimalZeros.find? fun first => first ≤ c.toNat && c.toNat < first + 10).map (c.toNat - ·)

/-- The character counts as a digit for `str.isdigit`. -/
def isDigit (c : Char) : Bool :=
  (decimalValue c).isSome || otherDigits.any fun block => block.1 ≤ c.toNat && c.toNat ≤ block.2

/-- `text.isdigit()` -/
def allDigits (text : List Char) : Bool := text ≠ [] && text.all isDigit

/-! ## Reading -/

/-- `sys.int_info.default_max_str_digits` -/
def MAX_STR_DIGITS : ℕ := 4300

def digitChar (d : ℕ) : Char := Char.ofNat (48 + d)

/-- A character as `int` reads it, for the blanks of `str.isspace`. -/
def asciiChar (space : Char → Bool) (c : Char) : Char :=
  if c.toNat < 127 then c
  else if space c then ' '
  else ((decimalValue c).map digitChar).getD '?'

/-- `Py_ISSPACE` -/
def asciiBlank (c : Char) : Bool := (9 ≤ c.toNat && c.toNat ≤ 13) || c.toNat = 32

def asciiDigit (c : Char) : Bool := 48 ≤ c.toNat && c.toNat ≤ 57

/-- Digits with single underscores between them. -/
def number (text : List Char) : Option ℕ :=
  let groups := text.splitOn '_'
  if (groups.all fun group => group ≠ [] && group.all asciiDigit) ∧
      groups.flatten.length ≤ MAX_STR_DIGITS then
    some (Nat.ofDigits 10 (groups.flatten.reverse.map fun c => c.toNat - 48))
  else none

/-- A text without its first and last blanks. -/
def strip (blank : Char → Bool) (text : List Char) : List Char :=
  (text.dropWhile blank).rdropWhile blank

/-- `int(text)`; none where it raises. -/
def int (space : Char → Bool) (text : List Char) : Option ℤ :=
  match strip asciiBlank (text.map (asciiChar space)) with
  | [] => none
  | c :: digits =>
    if c = '-' then (number digits).map fun n : ℕ => -(n : ℤ)
    else if c = '+' then (number digits).map fun n : ℕ => (n : ℤ)
    else (number (c :: digits)).map fun n : ℕ => (n : ℤ)

/-! ## Writing -/

/-- The digits of a number. -/
def decimal (n : ℕ) : List Char :=
  if n = 0 then ['0'] else ((Nat.digits 10 n).map digitChar).reverse

/-- `str(n)`; none where it raises. -/
def str (n : ℤ) : Option (List Char) :=
  if (decimal n.natAbs).length ≤ MAX_STR_DIGITS then
    some (if n < 0 then '-' :: decimal n.natAbs else decimal n.natAbs)
  else none

/-! ## Characters -/

theorem digitChar_toNat {d : ℕ} (h : d < 10) : (digitChar d).toNat = 48 + d := by
  interval_cases d <;> rfl

theorem toNat_eq_iff {c d : Char} : c.toNat = d.toNat ↔ c = d :=
  Char.toNat_inj

/-- A decimal digit stands in the block of one of the zeros. -/
theorem decimalValue_eq_some {c : Char} {d : ℕ} (h : decimalValue c = some d) :
    ∃ first ∈ decimalZeros, c.toNat = first + d ∧ d < 10 := by
  obtain ⟨first, hfind, rfl⟩ := Option.map_eq_some_iff.mp h
  have hblock := List.find?_some hfind
  simp only [Bool.and_eq_true, decide_eq_true_eq] at hblock
  exact ⟨first, List.mem_of_find?_eq_some hfind, by omega, by omega⟩

theorem isDigit_of_ascii {c : Char} (h : 48 ≤ c.toNat ∧ c.toNat ≤ 57) : isDigit c = true := by
  have hfind : (decimalZeros.find? fun first =>
      first ≤ c.toNat && c.toNat < first + 10).isSome := by
    rw [List.find?_isSome]
    refine ⟨48, by decide, ?_⟩
    rw [Bool.and_eq_true, decide_eq_true_eq, decide_eq_true_eq]
    omega
  unfold isDigit decimalValue
  rw [Option.isSome_map, hfind, Bool.true_or]

theorem decimalZeros_ascii : ∀ first ∈ decimalZeros, first < 127 → first = 48 := by decide

theorem otherDigits_not_ascii : ∀ block ∈ otherDigits, 127 ≤ block.1 := by decide

section

variable {space : Char → Bool} {c : Char}

theorem asciiChar_of_lt (h : c.toNat < 127) : asciiChar space c = c := if_pos h

/-- A decimal digit of any script is read as that of ASCII. -/
theorem asciiChar_decimal {d : ℕ} (hspace : space c = false) (h : decimalValue c = some d) :
    asciiChar space c = digitChar d := by
  obtain ⟨first, hfirst, hc, hd⟩ := decimalValue_eq_some h
  by_cases hascii : c.toNat < 127
  · have hzero : first = 48 := decimalZeros_ascii first hfirst (by omega)
    rw [asciiChar_of_lt hascii, ← toNat_eq_iff, digitChar_toNat hd]
    omega
  · unfold asciiChar
    rw [if_neg hascii, hspace, h]
    rfl

/-- Another digit is read as no digit. -/
theorem asciiChar_other (hspace : space c = false) (hdigit : isDigit c = true)
    (h : decimalValue c = none) : asciiChar space c = '?' := by
  unfold isDigit at hdigit
  rw [h, Option.isSome_none, Bool.false_or, List.any_eq_true] at hdigit
  obtain ⟨block, hblock, hc⟩ := hdigit
  simp only [Bool.and_eq_true, decide_eq_true_eq] at hc
  have hascii := otherDigits_not_ascii block hblock
  unfold asciiChar
  rw [if_neg (by omega), hspace, h]
  rfl

/-- A digit is read as a digit of ASCII exactly when it is decimal, and never as a blank, a sign or
an underscore. -/
theorem asciiChar_digit (hspace : space c = false) (hdigit : isDigit c = true) :
    (asciiDigit (asciiChar space c) = (decimalValue c).isSome) ∧
      48 ≤ (asciiChar space c).toNat ∧ (asciiChar space c).toNat ≤ 63 := by
  cases h : decimalValue c with
  | none =>
    rw [asciiChar_other hspace hdigit h]
    decide
  | some d =>
    obtain ⟨-, -, -, hd⟩ := decimalValue_eq_some h
    rw [asciiChar_decimal hspace h]
    unfold asciiDigit
    rw [digitChar_toNat hd]
    refine ⟨?_, by omega, by omega⟩
    rw [Option.isSome_some, Bool.and_eq_true, decide_eq_true_eq, decide_eq_true_eq]
    omega

end

/-! ## Numbers -/

/-- The characters between underscores are in the groups. -/
theorem mem_flatten_splitOn {α : Type*} [DecidableEq α] {sep x : α} {l : List α} (hx : x ∈ l)
    (hsep : x ≠ sep) : x ∈ (l.splitOn sep).flatten := by
  induction l with
  | nil => exact absurd hx List.not_mem_nil
  | cons a l ih =>
    rw [List.splitOn_cons_eq_if_modifyHead]
    split_ifs with ha
    · have hne : x ≠ a := fun h => hsep (h.trans (beq_iff_eq.mp ha))
      rw [List.flatten_cons, List.nil_append]
      exact ih ((List.mem_cons.mp hx).resolve_left hne)
    · obtain ⟨group, groups, hgroups⟩ := List.exists_cons_of_ne_nil (List.splitOn_ne_nil sep l)
      rw [hgroups] at ih ⊢
      rcases List.mem_cons.mp hx with rfl | hl
      · exact List.mem_cons_self
      · exact List.mem_cons_of_mem a (ih hl)

theorem asciiDigit_of_number {text : List Char} {n : ℕ} (h : number text = some n) :
    ∀ c ∈ text, c = '_' ∨ asciiDigit c = true := by
  intro c hc
  unfold number at h
  dsimp only at h
  split_ifs at h with hgroups
  by_cases hsep : c = '_'
  · exact .inl hsep
  · obtain ⟨group, hgroup, hmem⟩ := List.mem_flatten.mp (mem_flatten_splitOn hc hsep)
    have hall := List.all_eq_true.mp hgroups.1 group hgroup
    rw [Bool.and_eq_true] at hall
    exact .inr (List.all_eq_true.mp hall.2 c hmem)

theorem number_of_not_mem {text : List Char} (hne : text ≠ []) (h : '_' ∉ text) :
    number text = if text.all asciiDigit ∧ text.length ≤ MAX_STR_DIGITS then
      some (Nat.ofDigits 10 (text.reverse.map fun c => c.toNat - 48)) else none := by
  unfold number
  rw [List.splitOn_eq_singleton h]
  simp [hne]

theorem number_isSome {text : List Char} (hne : text ≠ []) (h : '_' ∉ text) :
    (number text).isSome ↔
      (∀ c ∈ text, asciiDigit c = true) ∧ text.length ≤ MAX_STR_DIGITS := by
  rw [number_of_not_mem hne h, ← List.all_eq_true]
  split_ifs with hdigits
  · simp [hdigits]
  · simp only [Option.isSome_none, Bool.false_eq_true, false_iff]
    exact hdigits

/-! ## Blanks, signs and digits -/

/-- Blanks are dropped up to the first of them that stays. -/
theorem strip_append {blank : Char → Bool} (front : List Char) {back : List Char} (hne : back ≠ [])
    (hhead : blank (back.head hne) = false) (hlast : blank (back.getLast hne) = false) :
    strip blank (front ++ back) = front.dropWhile blank ++ back := by
  have hdrop : (front ++ back).dropWhile blank = front.dropWhile blank ++ back := by
    rw [List.dropWhile_append]
    split_ifs with hempty
    · rw [List.isEmpty_iff.mp hempty, List.nil_append]
      exact List.dropWhile_eq_self_iff.mpr fun _ => by
        rw [← List.head_eq_getElem hne, hhead]
        exact Bool.false_ne_true
    · rfl
  unfold strip
  rw [hdrop, List.rdropWhile_eq_self_iff]
  intro hall
  rw [List.getLast_append_of_ne_nil _ hne, hlast]
  exact Bool.false_ne_true

theorem int_eq {space : Char → Bool} {text digits : List Char} {c : Char}
    (h : strip asciiBlank (text.map (asciiChar space)) = c :: digits) :
    int space text =
      if c = '-' then (number digits).map fun n : ℕ => -(n : ℤ)
      else if c = '+' then (number digits).map fun n : ℕ => (n : ℤ)
      else (number (c :: digits)).map fun n : ℕ => (n : ℤ) := by
  unfold int
  rw [h]

/-- What is said of the characters counted as blanks: no digit is one, and the ASCII ones among them
come up to the space. -/
structure IsSpace (space : Char → Bool) : Prop where
  digit : ∀ c, isDigit c = true → space c = false
  low : ∀ c, space c = true → c.toNat < 127 → c.toNat ≤ 32

theorem number_cons_isSome {text : List Char} {c : Char} (hscore : c ≠ '_')
    (hdigit : asciiDigit c = false) : (number (c :: text)).isSome = false := by
  rw [Option.isSome_eq_false_iff, Option.isNone_iff_eq_none, Option.eq_none_iff_forall_ne_some]
  intro n hn
  rcases asciiDigit_of_number hn c List.mem_cons_self with h | h
  · exact hscore h
  · exact absurd h (by rw [hdigit]; exact Bool.false_ne_true)

/-- A blank that stays is read as no digit and no sign. -/
theorem asciiChar_blank {space : Char → Bool} (hspace : IsSpace space) {c : Char}
    (hc : space c = true) (hstays : asciiBlank (asciiChar space c) = false) :
    (asciiChar space c).toNat ≤ 32 := by
  by_cases hascii : c.toNat < 127
  · rw [asciiChar_of_lt hascii]
    exact hspace.low c hc hascii
  · unfold asciiChar at hstays
    rw [if_neg hascii, if_pos hc] at hstays
    exact absurd hstays (by decide)

/-- What is no blank and no sign is read as digits, after as many dashes as there are. -/
theorem int_isSome_of_dashes {space : Char → Bool} {text ds : List Char} {k : ℕ} (hne : ds ≠ [])
    (hds : ∀ c ∈ ds, 48 ≤ c.toNat)
    (h : strip asciiBlank (text.map (asciiChar space)) = List.replicate k '-' ++ ds) :
    (int space text).isSome ↔ k ≤ 1 ∧ (number ds).isSome := by
  match k with
  | 0 =>
    obtain ⟨d, ds', rfl⟩ := List.exists_cons_of_ne_nil hne
    have hd := hds d List.mem_cons_self
    rw [int_eq h, if_neg, if_neg, Option.isSome_map]
    · exact (and_iff_right (Nat.zero_le 1)).symm
    · rintro rfl
      exact absurd hd (by decide)
    · rintro rfl
      exact absurd hd (by decide)
  | 1 =>
    rw [int_eq h, if_pos rfl, Option.isSome_map]
    exact (and_iff_right (Nat.le_refl 1)).symm
  | k + 2 =>
    have hdashes : (number ('-' :: (List.replicate k '-' ++ ds))).isSome = false :=
      number_cons_isSome (by decide) (by decide)
    rw [int_eq h, if_pos rfl, Option.isSome_map]
    show (number ('-' :: (List.replicate k '-' ++ ds))).isSome ↔ _
    rw [hdashes]
    simp

/-- What begins below the digits and the signs is no number. -/
theorem int_isSome_of_low {space : Char → Bool} {text rest : List Char} {c : Char}
    (hlow : c.toNat ≤ 32) (h : strip asciiBlank (text.map (asciiChar space)) = c :: rest) :
    (int space text).isSome = false := by
  rw [int_eq h, if_neg, if_neg, Option.isSome_map, number_cons_isSome]
  · rintro rfl
    exact absurd hlow (by decide)
  · unfold asciiDigit
    rw [Bool.and_eq_false_iff, decide_eq_false_iff_not]
    exact .inl (by omega)
  · rintro rfl
    exact absurd hlow (by decide)
  · rintro rfl
    exact absurd hlow (by decide)

section

variable {space : Char → Bool} (hspace : IsSpace space) {blanks digits : List Char} {k : ℕ}
  (hne : digits ≠ []) (hdigits : ∀ c ∈ digits, isDigit c = true)

include hspace hdigits

theorem toNat_of_mem_read : ∀ x ∈ digits.map (asciiChar space), 48 ≤ x.toNat ∧ x.toNat ≤ 63 := by
  intro x hx
  obtain ⟨c, hc, rfl⟩ := List.mem_map.mp hx
  exact (asciiChar_digit (hspace.digit c (hdigits c hc)) (hdigits c hc)).2

include hne

theorem number_read_isSome : (number (digits.map (asciiChar space))).isSome ↔
    (∀ c ∈ digits, (decimalValue c).isSome) ∧ digits.length ≤ MAX_STR_DIGITS := by
  have hscore : '_' ∉ digits.map (asciiChar space) := by
    intro hmem
    exact absurd (toNat_of_mem_read hspace hdigits '_' hmem).2 (by decide)
  rw [number_isSome (by simpa using hne) hscore, List.length_map, List.forall_mem_map]
  refine and_congr_left fun _ => forall₂_congr fun c hc => ?_
  rw [(asciiChar_digit (hspace.digit c (hdigits c hc)) (hdigits c hc)).1]

theorem strip_dashed : strip asciiBlank
    ((blanks ++ (List.replicate k '-' ++ digits)).map (asciiChar space)) =
      (blanks.map (asciiChar space)).dropWhile asciiBlank ++
        (List.replicate k '-' ++ digits.map (asciiChar space)) := by
  have hback : ∀ x ∈ List.replicate k '-' ++ digits.map (asciiChar space),
      asciiBlank x = false := by
    intro x hx
    rcases List.mem_append.mp hx with hdash | hdigit
    · rw [(List.mem_replicate.mp hdash).2]
      decide
    · have hbounds := toNat_of_mem_read hspace hdigits x hdigit
      unfold asciiBlank
      simp only [Bool.or_eq_false_iff, Bool.and_eq_false_iff, decide_eq_false_iff_not]
      omega
  have hback_ne : List.replicate k '-' ++ digits.map (asciiChar space) ≠ [] := by
    simp [hne]
  rw [List.map_append, List.map_append, List.map_replicate,
    asciiChar_of_lt (show '-'.toNat < 127 by decide)]
  exact strip_append _ hback_ne (hback _ (List.head_mem hback_ne))
    (hback _ (List.getLast_mem hback_ne))

/-- Blanks, dashes and digits are a number exactly when ASCII blanks, at most one dash and not too
many decimal digits are read. -/
theorem int_isSome_iff (hblanks : ∀ c ∈ blanks, space c = true) :
    (int space (blanks ++ (List.replicate k '-' ++ digits))).isSome ↔
      (∀ c ∈ blanks, asciiBlank (asciiChar space c) = true) ∧ k ≤ 1 ∧
        (∀ c ∈ digits, (decimalValue c).isSome) ∧ digits.length ≤ MAX_STR_DIGITS := by
  have hstrip : strip asciiBlank ((blanks ++ (List.replicate k '-' ++ digits)).map
      (asciiChar space)) = _ := strip_dashed hspace hne hdigits
  cases hstays : (blanks.map (asciiChar space)).dropWhile asciiBlank with
  | nil =>
    have hall : ∀ c ∈ blanks, asciiBlank (asciiChar space c) = true :=
      List.forall_mem_map.mp (List.dropWhile_eq_nil_iff.mp hstays)
    rw [hstays, List.nil_append] at hstrip
    rw [int_isSome_of_dashes (by simpa using hne)
      (fun c hc => (toNat_of_mem_read hspace hdigits c hc).1) hstrip,
      number_read_isSome hspace hne hdigits]
    exact (and_iff_right hall).symm
  | cons x rest =>
    have hx : asciiBlank x = false := by
      have hhead := List.head_dropWhile_not (p := asciiBlank) (l := blanks.map (asciiChar space))
        (by simp [hstays])
      simpa [hstays] using hhead
    have hmem : x ∈ blanks.map (asciiChar space) :=
      (List.dropWhile_sublist asciiBlank).subset (hstays ▸ List.mem_cons_self)
    obtain ⟨c, hc, rfl⟩ := List.mem_map.mp hmem
    rw [hstays, List.cons_append] at hstrip
    rw [int_isSome_of_low (asciiChar_blank hspace (hblanks c hc) hx) hstrip]
    refine iff_of_false Bool.false_ne_true fun h => absurd (h.1 c hc) ?_
    rw [hx]
    exact Bool.false_ne_true

end

/-! ## Texts of integers -/

theorem decimal_ne_nil (n : ℕ) : decimal n ≠ [] := by
  unfold decimal
  split_ifs with hzero
  · exact List.cons_ne_nil _ _
  · simpa using Nat.digits_ne_nil_iff_ne_zero.mpr hzero

theorem toNat_of_mem_decimal {n : ℕ} {c : Char} (h : c ∈ decimal n) :
    48 ≤ c.toNat ∧ c.toNat ≤ 57 := by
  unfold decimal at h
  split_ifs at h
  · rw [List.mem_singleton.mp h]
    decide
  · obtain ⟨d, hd, rfl⟩ := List.mem_map.mp (List.mem_reverse.mp h)
    have hlt : d < 10 := Nat.digits_lt_base (by decide) hd
    rw [digitChar_toNat hlt]
    omega

theorem asciiDigit_of_mem_decimal {n : ℕ} {c : Char} (h : c ∈ decimal n) :
    asciiDigit c = true := by
  have hbounds := toNat_of_mem_decimal h
  unfold asciiDigit
  simpa using hbounds

theorem ofDigits_decimal (n : ℕ) :
    Nat.ofDigits 10 ((decimal n).reverse.map fun c => c.toNat - 48) = n := by
  unfold decimal
  split_ifs with hzero
  · rw [hzero]
    rfl
  · have hdigits : ((Nat.digits 10 n).map digitChar).map (fun c => c.toNat - 48) =
        Nat.digits 10 n := by
      rw [List.map_map]
      refine (List.map_congr_left fun d hd => ?_).trans (List.map_id _)
      show (digitChar d).toNat - 48 = d
      rw [digitChar_toNat (Nat.digits_lt_base (by decide) hd)]
      omega
    rw [List.reverse_reverse, hdigits, Nat.ofDigits_digits]

/-- A number is read back from its digits. -/
theorem number_decimal {n : ℕ} (h : (decimal n).length ≤ MAX_STR_DIGITS) :
    number (decimal n) = some n := by
  have hscore : '_' ∉ decimal n := fun hmem =>
    absurd (toNat_of_mem_decimal hmem).2 (by decide)
  rw [number_of_not_mem (decimal_ne_nil n) hscore, if_pos, ofDigits_decimal]
  exact ⟨List.all_eq_true.mpr fun c hc => asciiDigit_of_mem_decimal hc, h⟩

theorem length_decimal_le {n k : ℕ} (hk : 0 < k) : (decimal n).length ≤ k ↔ n < 10 ^ k := by
  unfold decimal
  split_ifs with hzero
  · rw [hzero]
    exact iff_of_true hk (by positivity)
  · rw [List.length_reverse, List.length_map, Nat.digits_length_le_iff (by decide)]

/-- What was read can be written. -/
theorem length_decimal_of_number {text : List Char} {n : ℕ} (h : number text = some n) :
    (decimal n).length ≤ MAX_STR_DIGITS := by
  rw [length_decimal_le (by decide)]
  unfold number at h
  dsimp only at h
  split_ifs at h with hgroups
  obtain ⟨hall, hlength⟩ := hgroups
  have hvalues : ∀ d ∈ (text.splitOn '_').flatten.reverse.map fun c => c.toNat - 48, d < 10 := by
    rw [List.forall_mem_map]
    intro c hc
    obtain ⟨group, hgroup, hmem⟩ := List.mem_flatten.mp (List.mem_reverse.mp hc)
    have hdigits := List.all_eq_true.mp hall group hgroup
    rw [Bool.and_eq_true] at hdigits
    have hdigit := List.all_eq_true.mp hdigits.2 c hmem
    unfold asciiDigit at hdigit
    rw [Bool.and_eq_true, decide_eq_true_eq, decide_eq_true_eq] at hdigit
    omega
  calc n = Nat.ofDigits 10 _ := (Option.some.inj h).symm
    _ < 10 ^ _ := Nat.ofDigits_lt_base_pow_length (by decide) hvalues
    _ ≤ 10 ^ MAX_STR_DIGITS := by
      rw [List.length_map, List.length_reverse]
      exact Nat.pow_le_pow_right (by decide) hlength

/-- Dashes and digits of ASCII are read as they are. -/
theorem read_plain (space : Char → Bool) {text : List Char} (hne : text ≠ [])
    (h : ∀ c ∈ text, c = '-' ∨ 48 ≤ c.toNat ∧ c.toNat ≤ 57) :
    strip asciiBlank (text.map (asciiChar space)) = text := by
  have hbounds : ∀ c ∈ text, 33 ≤ c.toNat ∧ c.toNat ≤ 57 := by
    intro c hc
    rcases h c hc with rfl | hdigit
    · decide
    · omega
  have hmap : text.map (asciiChar space) = text := by
    refine (List.map_congr_left fun c hc => ?_).trans (List.map_id _)
    exact asciiChar_of_lt (by have := hbounds c hc; omega)
  have hblank : ∀ c ∈ text, asciiBlank c = false := by
    intro c hc
    have hc := hbounds c hc
    unfold asciiBlank
    simp only [Bool.or_eq_false_iff, Bool.and_eq_false_iff, decide_eq_false_iff_not]
    omega
  rw [hmap]
  exact strip_append [] hne (hblank _ (List.head_mem hne))
    (hblank _ (List.getLast_mem hne))

/-- An integer is read back from its text. -/
theorem int_str {space : Char → Bool} {n : ℤ} {text : List Char} (h : str n = some text) :
    int space text = some n := by
  unfold str at h
  split_ifs at h with hlength hneg
  · obtain rfl := Option.some.inj h
    have hread := read_plain space (List.cons_ne_nil '-' (decimal n.natAbs)) fun c hc =>
        (List.mem_cons.mp hc).imp_right toNat_of_mem_decimal
    rw [int_eq hread, if_pos rfl, number_decimal hlength, Option.map_some]
    exact congrArg some (by omega)
  · obtain rfl := Option.some.inj h
    obtain ⟨c, digits, hdecimal⟩ := List.exists_cons_of_ne_nil (decimal_ne_nil n.natAbs)
    have hbounds := toNat_of_mem_decimal (hdecimal ▸ List.mem_cons_self)
    have hread := read_plain space (decimal_ne_nil n.natAbs) fun c hc =>
      .inr (toNat_of_mem_decimal hc)
    rw [int_eq (hread.trans hdecimal), if_neg, if_neg, ← hdecimal, number_decimal hlength,
      Option.map_some]
    · exact congrArg some (by omega)
    · rintro rfl
      exact absurd hbounds.1 (by decide)
    · rintro rfl
      exact absurd hbounds.1 (by decide)

theorem str_isSome_of_int {space : Char → Bool} {text : List Char} {n : ℤ}
    (h : int space text = some n) : (str n).isSome := by
  have hlength : (decimal n.natAbs).length ≤ MAX_STR_DIGITS := by
    unfold int at h
    split at h
    · cases h
    · split_ifs at h <;> obtain ⟨m, hm, rfl⟩ := Option.map_eq_some_iff.mp h
      · simpa using length_decimal_of_number hm
      · simpa using length_decimal_of_number hm
      · simpa using length_decimal_of_number hm
  unfold str
  rw [if_pos hlength]
  rfl

/-- The text of an integer has at most one dash before its digits. -/
theorem str_eq {n : ℤ} {text : List Char} (h : str n = some text) :
    ∃ k digits, k ≤ 1 ∧ digits ≠ [] ∧ text = List.replicate k '-' ++ digits ∧
      ∀ c ∈ digits, 48 ≤ c.toNat ∧ c.toNat ≤ 57 := by
  unfold str at h
  split_ifs at h with _ hneg
  · exact ⟨1, _, Nat.le_refl 1, decimal_ne_nil _, (Option.some.inj h).symm,
      fun c hc => toNat_of_mem_decimal hc⟩
  · exact ⟨0, _, Nat.zero_le 1, decimal_ne_nil _, (Option.some.inj h).symm,
      fun c hc => toNat_of_mem_decimal hc⟩

/-- The text of an integer is made of dashes and digits. -/
theorem toNat_of_mem_str {n : ℤ} {text : List Char} (h : str n = some text) :
    ∀ c ∈ text, c = '-' ∨ 48 ≤ c.toNat ∧ c.toNat ≤ 57 := by
  obtain ⟨k, digits, -, -, rfl, hdigits⟩ := str_eq h
  intro c hc
  exact (List.mem_append.mp hc).imp (fun hdash => (List.mem_replicate.mp hdash).2) (hdigits c)

theorem str_inj {n m : ℤ} {text : List Char} (hn : str n = some text) (hm : str m = some text) :
    n = m := by
  have hread : int (fun _ => false) text = some n := int_str hn
  exact Option.some.inj (hread.symm.trans (int_str hm))

end Numerals
