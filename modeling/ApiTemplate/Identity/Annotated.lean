import ApiTemplate.Identity.Base
import ApiTemplate.Stream.Ascii
import Mathlib.Data.List.DropRight

/-!
# Value types of the identity domain

The annotated types that commands and domain parameters share: the constraints on strings, and the
normalisation of names. What the types rely on of Unicode is a parameter. A value that a type has
returned passes the type again, unchanged, unless it is a name.
-/

namespace ApiTemplate.Identity

/-! ## Constants -/

def userNameMinLength : ℕ := 1

def userNameMaxLength : ℕ := 50

def userEmailMinLength : ℕ := 5

def userEmailMaxLength : ℕ := 254

def userPhoneMinLength : ℕ := 12

def userPhoneMaxLength : ℕ := 15

def userPasswordMinLength : ℕ := 8

/-- `USER_PASSWORD_MAX_LENGTH`, also the width of the column. -/
def userPasswordMaxLength : ℕ := 128

def userAddressMaxLength : ℕ := 500

def userDescriptionMaxLength : ℕ := 5000

def userInformationMaxLength : ℕ := 5000

def otpMinLength : ℕ := 6

def otpMaxLength : ℕ := 6

/-- `OTP_CODE_LENGTH`, the digits in a mailed numeric code. -/
def otpCodeLength : ℕ := 6

/-! ## Unicode -/

/-- The characters with the property `White_Space`: what pydantic strips and `\s` matches. -/
def isWhiteSpace (c : Char) : Bool := isSpace c && !(28 ≤ c.toNat && c.toNat ≤ 31)

/-- The normal form NFKC, the letters `\p{L}` and the digits `\d`. -/
structure Unicode where
  nfkc : String → String
  isLetter : Char → Bool
  isDigit : Char → Bool
  letter_not_space : ∀ c, isLetter c = true → isSpace c = false

/-! ## String constraints -/

/-- `strip_whitespace` -/
def trim (s : List Char) : List Char := (s.dropWhile isWhiteSpace).rdropWhile isWhiteSpace

structure StringConstraints where
  minLength : ℕ := 0
  maxLength : ℕ
  pattern : List Char → Bool := fun _ => true
  stripWhitespace : Bool := false
  toLower : Bool := false

namespace StringConstraints

variable (c : StringConstraints)

def stripped (raw : List Char) : List Char := if c.stripWhitespace then trim raw else raw

def lowered (text : List Char) : List Char := if c.toLower then text.map Char.toLower else text

/-- The checks on the stripped text. -/
def fits (text : List Char) : Bool :=
  c.minLength ≤ text.length && text.length ≤ c.maxLength && c.pattern text

/-- What the constraints make of a string, unless they reject it. The letters of a text are ASCII
where they are lowered. -/
def apply (raw : String) : Option String :=
  let text := c.stripped raw.toList
  if c.fits text then some (String.ofList (c.lowered text)) else none

end StringConstraints

/-! ## Patterns -/

/-- `[A-Za-z0-9._%+-]` -/
def isLocalChar (c : Char) : Bool := Ascii.isAlphanumeric c || c ∈ ['.', '_', '%', '+', '-']

/-- `[A-Za-z0-9.-]` -/
def isDomainChar (c : Char) : Bool := Ascii.isAlphanumeric c || c ∈ ['.', '-']

/-- `[A-Za-z0-9.-]+\.[A-Za-z]{2,}`, split at the last dot. -/
def matchesDomain (s : List Char) : Bool :=
  let front := s.rdropWhile (· ≠ '.')
  let last := s.rtakeWhile (· ≠ '.')
  2 ≤ front.length && front.all isDomainChar && 2 ≤ last.length && last.all Ascii.isLetter

/-- `USER_EMAIL_REGEX`, split at the first `@`. -/
def matchesEmail (s : List Char) : Bool :=
  let front := s.takeWhile (· ≠ '@')
  let rest := s.dropWhile (· ≠ '@')
  1 ≤ front.length && front.all isLocalChar && 1 ≤ rest.length && matchesDomain (rest.drop 1)

section

variable (U : Unicode)

/-- `[1-9]\d{7,14}` -/
def matchesDigits : List Char → Bool
  | [] => false
  | c :: cs => '1' ≤ c && c ≤ '9' && 7 ≤ cs.length && cs.length ≤ 14 && cs.all U.isDigit

/-- `USER_PHONE_REGEX` -/
def matchesPhone : List Char → Bool
  | '+' :: cs => matchesDigits U cs
  | cs => matchesDigits U cs

/-- `[\s-]` -/
def isNameSeparator (c : Char) : Bool := isWhiteSpace c || c = '-'

/-- What `USER_NAME_REGEX` leaves to match after a letter. -/
def matchesNameRest : List Char → Bool
  | [] => true
  | [c] => U.isLetter c
  | c :: d :: cs =>
    if U.isLetter c then matchesNameRest (d :: cs)
    else isNameSeparator c && U.isLetter d && matchesNameRest cs

/-- `USER_NAME_REGEX.fullmatch` -/
def matchesUserName : List Char → Bool
  | [] => false
  | c :: cs => U.isLetter c && matchesNameRest U cs

/-! ## Names -/

/-- `[\u200B-\u200D\uFEFF]` -/
def isZeroWidth (c : Char) : Bool := (0x200B ≤ c.toNat && c.toNat ≤ 0x200D) || c.toNat == 0xFEFF

/-- `normalize_string` -/
def normalizeString (value : String) : String :=
  strip (String.ofList ((U.nfkc value).toList.filter fun c => !isZeroWidth c))

/-- The constraints in front of the normalisation of a name. -/
def nameConstraints : StringConstraints where
  minLength := userNameMinLength
  maxLength := userNameMaxLength
  stripWhitespace := true

/-- `regex_validator_factory(USER_NAME_REGEX, normalize=True)` -/
def validateName (value : String) : Option String :=
  let name := normalizeString U value
  if matchesUserName U name.toList then some name else none

/-! ## Types -/

/-- `ATUserName` -/
def atUserName (raw : String) : Option String := (nameConstraints.apply raw).bind (validateName U)

def emailConstraints : StringConstraints where
  minLength := userEmailMinLength
  maxLength := userEmailMaxLength
  pattern := matchesEmail
  stripWhitespace := true
  toLower := true

/-- `ATUserEmail` -/
def atUserEmail (raw : String) : Option String := emailConstraints.apply raw

/-- `ATPhone` -/
def atPhone (raw : String) : Option String :=
  StringConstraints.apply
    { minLength := userPhoneMinLength, maxLength := userPhoneMaxLength, pattern := matchesPhone U,
      stripWhitespace := true } raw

/-- `ATPassword` -/
def atPassword (raw : String) : Option String :=
  StringConstraints.apply { minLength := userPasswordMinLength, maxLength := userPasswordMaxLength }
    raw

/-- `ATAddress` -/
def atAddress (raw : String) : Option String :=
  StringConstraints.apply { maxLength := userAddressMaxLength, stripWhitespace := true } raw

/-- `ATDescription` -/
def atDescription (raw : String) : Option String :=
  StringConstraints.apply { maxLength := userDescriptionMaxLength } raw

/-- `ATInformation` -/
def atInformation (raw : String) : Option String :=
  StringConstraints.apply { maxLength := userInformationMaxLength } raw

/-- `ATOtp` -/
def atOtp (raw : String) : Option String :=
  StringConstraints.apply
    { minLength := otpMinLength, maxLength := otpMaxLength, stripWhitespace := true } raw

end

/-! ## Stripped texts -/

theorem rdropWhile_dropWhile_eq_self {p : Char → Bool} {s : List Char}
    (h : s.dropWhile p = s) : (s.rdropWhile p).dropWhile p = s.rdropWhile p := by
  rw [List.dropWhile_eq_self_iff] at h ⊢
  intro hpos
  have hpre : s.rdropWhile p <+: s := List.rdropWhile_prefix p s
  rw [hpre.getElem hpos]
  exact h (hpos.trans_le hpre.length_le)

theorem trim_of_forall {s : List Char} (h : ∀ c ∈ s, isWhiteSpace c = false) : trim s = s := by
  have hfront : s.dropWhile isWhiteSpace = s := by
    rw [List.dropWhile_eq_self_iff]
    intro hpos
    rw [h _ (List.getElem_mem hpos)]
    exact Bool.false_ne_true
  have hback : s.rdropWhile isWhiteSpace = s := by
    rw [List.rdropWhile_eq_self_iff]
    intro hne
    rw [h _ (List.getLast_mem hne)]
    exact Bool.false_ne_true
  rw [trim, hfront, hback]

@[simp] theorem trim_trim (s : List Char) : trim (trim s) = trim s := by
  unfold trim
  rw [rdropWhile_dropWhile_eq_self (List.dropWhile_idempotent _ _), List.rdropWhile_idempotent]

theorem isSpace_of_isLetter {c : Char} (hc : Ascii.isLetter c = true) : isSpace c = false := by
  have hrange := Ascii.isLetter_iff.mp hc
  simp only [isSpace, Bool.or_eq_false_iff, Bool.and_eq_false_iff, decide_eq_false_iff_not,
    beq_eq_false_iff_ne, ne_eq]
  omega

theorem isWhiteSpace_of_not_isSpace {c : Char} (hc : isSpace c = false) :
    isWhiteSpace c = false := by rw [isWhiteSpace, hc, Bool.false_and]

theorem isWhiteSpace_toLower (c : Char) : isWhiteSpace c.toLower = isWhiteSpace c := by
  cases hc : Ascii.isLetter c with
  | false => rw [Ascii.toLower_of_not_isLetter hc]
  | true =>
    have hlower : Ascii.isLetter c.toLower = true := by rw [Ascii.isLetter_toLower, hc]
    rw [isWhiteSpace_of_not_isSpace (isSpace_of_isLetter hlower),
      isWhiteSpace_of_not_isSpace (isSpace_of_isLetter hc)]

theorem rdropWhile_map (p : Char → Bool) (f : Char → Char) (s : List Char) :
    (s.map f).rdropWhile p = (s.rdropWhile (p ∘ f)).map f := by
  unfold List.rdropWhile
  rw [← List.map_reverse, List.dropWhile_map, List.map_reverse]

theorem trim_map_toLower (s : List Char) :
    trim (s.map Char.toLower) = (trim s).map Char.toLower := by
  have hcomp : isWhiteSpace ∘ Char.toLower = isWhiteSpace := funext isWhiteSpace_toLower
  unfold trim
  rw [List.dropWhile_map, rdropWhile_map, hcomp]

/-! ## Types that accept what they return -/

namespace StringConstraints

variable {c : StringConstraints} {raw text : String}

/-- Constraints whose pattern does not tell a text from its lower case accept what they return. -/
theorem apply_of_apply (hpattern : c.toLower = true →
      ∀ s : List Char, c.pattern (s.map Char.toLower) = c.pattern s)
    (h : c.apply raw = some text) : c.apply text = some text := by
  unfold apply at h
  dsimp only at h
  split at h
  · rename_i hfits
    obtain rfl := Option.some.inj h
    have hstripped : c.stripped (c.lowered (c.stripped raw.toList)) =
        c.lowered (c.stripped raw.toList) := by
      unfold stripped lowered
      split_ifs <;> simp only [trim_map_toLower, trim_trim]
    have hlowered : c.lowered (c.lowered (c.stripped raw.toList)) =
        c.lowered (c.stripped raw.toList) := by
      unfold lowered
      split_ifs
      · rw [List.map_map]
        exact List.map_congr_left fun d _ => Ascii.toLower_toLower d
      · rfl
    have hfits' : c.fits (c.lowered (c.stripped raw.toList)) = true := by
      rw [← hfits]
      unfold lowered fits
      split_ifs with hlower
      · rw [List.length_map, hpattern hlower]
      · rfl
    simp only [apply, String.toList_ofList, hstripped, hfits', if_true, hlowered]
  · cases h

end StringConstraints

theorem isLocalChar_toLower (c : Char) : isLocalChar c.toLower = isLocalChar c := by
  cases hc : Ascii.isLetter c with
  | false => rw [Ascii.toLower_of_not_isLetter hc]
  | true => simp [isLocalChar, Ascii.isAlphanumeric, hc]

theorem isDomainChar_toLower (c : Char) : isDomainChar c.toLower = isDomainChar c := by
  cases hc : Ascii.isLetter c with
  | false => rw [Ascii.toLower_of_not_isLetter hc]
  | true => simp [isDomainChar, Ascii.isAlphanumeric, hc]

theorem ne_comp_toLower {m : Char} (hm : Ascii.isLetter m = false) :
    (fun c : Char => decide (c ≠ m)) ∘ Char.toLower = fun c => decide (c ≠ m) :=
  funext fun c => decide_eq_decide.mpr (Ascii.toLower_eq_iff hm c).not

theorem matchesDomain_toLower (s : List Char) :
    matchesDomain (s.map Char.toLower) = matchesDomain s := by
  have hdot := ne_comp_toLower (m := '.') rfl
  have hlast : (s.map Char.toLower).rtakeWhile (· ≠ '.') =
      (s.rtakeWhile (· ≠ '.')).map Char.toLower := by
    rw [List.rtakeWhile, ← List.map_reverse, List.takeWhile_map, hdot, ← List.map_reverse]
    rfl
  have hletter : Ascii.isLetter ∘ Char.toLower = Ascii.isLetter := funext Ascii.isLetter_toLower
  have hdomain : isDomainChar ∘ Char.toLower = isDomainChar := funext isDomainChar_toLower
  unfold matchesDomain
  rw [hlast, rdropWhile_map, hdot]
  simp only [List.length_map, List.all_map, hletter, hdomain]

theorem matchesEmail_toLower (s : List Char) :
    matchesEmail (s.map Char.toLower) = matchesEmail s := by
  have hat := ne_comp_toLower (m := '@') rfl
  have hlocal : isLocalChar ∘ Char.toLower = isLocalChar := funext isLocalChar_toLower
  unfold matchesEmail
  rw [List.takeWhile_map, List.dropWhile_map, hat]
  simp only [List.length_map, List.all_map, hlocal, ← List.map_drop, matchesDomain_toLower]

section

variable {U : Unicode} {raw text : String}

theorem atUserEmail_idem (h : atUserEmail raw = some text) : atUserEmail text = some text :=
  StringConstraints.apply_of_apply (fun _ => matchesEmail_toLower) h

theorem atPhone_idem (h : atPhone U raw = some text) : atPhone U text = some text :=
  StringConstraints.apply_of_apply nofun h

theorem atAddress_idem (h : atAddress raw = some text) : atAddress text = some text :=
  StringConstraints.apply_of_apply nofun h

end

end ApiTemplate.Identity
