import ApiTemplate.Stream.Ascii
import ApiTemplate.Stream.UrlQuery

/-!
# URIs

URIs with an authority, by the generic syntax: scheme, user information, a registered name, port,
path, query and fragment, each with its characters. A text is parsed exactly as the URI whose
components are in the grammar and whose text it is; percent-encoded octets are decoded afterwards.
-/

namespace Uri

open Ascii

/-! ## Characters -/

def unreserved (c : Char) : Bool :=
  isAlphanumeric c || c = '-' || c = '.' || c = '_' || c = '~'

def subDelim (c : Char) : Bool :=
  c = '!' || c = '$' || c = '&' || c = '\'' || c = '(' || c = ')' || c = '*' || c = '+' ||
    c = ',' || c = ';' || c = '='

def regNameChar (c : Char) : Bool := unreserved c || subDelim c

def userinfoChar (c : Char) : Bool := regNameChar c || c = ':'

def pchar (c : Char) : Bool := regNameChar c || c = ':' || c = '@'

def pathChar (c : Char) : Bool := pchar c || c = '/'

def queryChar (c : Char) : Bool := pathChar c || c = '?'

def schemeChar (c : Char) : Bool := isAlphanumeric c || c = '+' || c = '-' || c = '.'

/-- Characters that are allowed, and percent-encoded octets. -/
def escaped (allowed : Char → Bool) : List Char → Bool
  | [] => true
  | '%' :: a :: b :: cs => (UrlQuery.escapedByte a b).isSome && escaped allowed cs
  | c :: cs => allowed c && escaped allowed cs

/-- The octets of a component. -/
def octets : List Char → List UInt8
  | [] => []
  | '%' :: a :: b :: cs =>
    match UrlQuery.escapedByte a b with
    | some byte => byte :: octets cs
    | none => 37 :: octets (a :: b :: cs)
  | c :: cs => c.val.toUInt8 :: octets cs

/-- The octets of a text that is not encoded. -/
def utf8 (cs : List Char) : List UInt8 := cs.flatMap String.utf8EncodeChar

/-! ## Components -/

/-- What stands before the first `c`, and what after it. -/
def cut (c : Char) : List Char → List Char × Option (List Char)
  | [] => ([], none)
  | d :: cs => if d = c then ([], some cs) else ((cut c cs).1.cons d, (cut c cs).2)

structure Parts where
  scheme : List Char
  userinfo : Option (List Char)
  host : List Char
  port : Option (List Char)
  path : List Char
  query : Option (List Char)
  fragment : Option (List Char)
  deriving DecidableEq

/-- A component with the character before it. -/
def before (c : Char) : Option (List Char) → List Char
  | none => []
  | some cs => c :: cs

/-- A component with the character after it. -/
def after (c : Char) : Option (List Char) → List Char
  | none => []
  | some cs => cs ++ [c]

namespace Parts

def hostport (p : Parts) : List Char := p.host ++ before ':' p.port

def authority (p : Parts) : List Char := after '@' p.userinfo ++ p.hostport

/-- What stands between the scheme and the query. -/
def hierPart (p : Parts) : List Char := '/' :: '/' :: (p.authority ++ p.path)

def text (p : Parts) : List Char :=
  p.scheme ++ ':' :: p.hierPart ++ before '?' p.query ++ before '#' p.fragment

/-- The components are in the grammar. -/
structure Valid (p : Parts) : Prop where
  scheme_first : ∃ c cs, p.scheme = c :: cs ∧ isLetter c = true
  scheme : ∀ c ∈ p.scheme, schemeChar c = true
  userinfo : ∀ cs ∈ p.userinfo, escaped userinfoChar cs = true
  host : escaped regNameChar p.host = true
  port : ∀ cs ∈ p.port, ∀ c ∈ cs, isDigit c = true
  path_first : p.path = [] ∨ p.path.head? = some '/'
  path : escaped pathChar p.path = true
  query : ∀ cs ∈ p.query, escaped queryChar cs = true
  fragment : ∀ cs ∈ p.fragment, escaped queryChar cs = true

/-- `Valid`, to be computed. -/
def valid (p : Parts) : Bool :=
  p.scheme.head?.any isLetter && p.scheme.all schemeChar &&
    p.userinfo.all (escaped userinfoChar) && escaped regNameChar p.host &&
    p.port.all (·.all isDigit) && (p.path = [] || p.path.head? = some '/') &&
    escaped pathChar p.path && p.query.all (escaped queryChar) &&
    p.fragment.all (escaped queryChar)

theorem valid_iff (p : Parts) : p.valid = true ↔ p.Valid := by
  have hfirst : p.scheme.head?.any isLetter = true ↔
      ∃ c cs, p.scheme = c :: cs ∧ isLetter c = true := by
    cases p.scheme <;> simp
  have hall : ∀ (o : Option (List Char)) (f : List Char → Bool),
      o.all f = true ↔ ∀ cs ∈ o, f cs = true := by
    intro o f
    cases o <;> simp
  simp only [valid, Bool.and_eq_true, Bool.or_eq_true, decide_eq_true_eq, hfirst, hall,
    List.all_eq_true]
  constructor
  · rintro ⟨⟨⟨⟨⟨⟨⟨⟨h1, h2⟩, h3⟩, h4⟩, h5⟩, h6⟩, h7⟩, h8⟩, h9⟩
    exact ⟨h1, h2, h3, h4, h5, h6, h7, h8, h9⟩
  · rintro ⟨h1, h2, h3, h4, h5, h6, h7, h8, h9⟩
    exact ⟨⟨⟨⟨⟨⟨⟨⟨h1, h2⟩, h3⟩, h4⟩, h5⟩, h6⟩, h7⟩, h8⟩, h9⟩

/-- The octets of the user, which ends at the first colon. -/
def user (p : Parts) : Option (List UInt8) := p.userinfo.map fun cs => octets (cut ':' cs).1

def password (p : Parts) : Option (List UInt8) :=
  p.userinfo.bind fun cs => (cut ':' cs).2.map octets

/-- The number of the port, unless it is left empty. -/
def portNumber (p : Parts) : Option ℕ :=
  p.port.bind fun cs => if cs = [] then none else some (Nat.ofDigitChars 10 cs 0)

end Parts

/-! ## Parsing -/

/-- The user information and the rest of an authority. -/
def splitUser (authority : List Char) : Option (List Char) × List Char :=
  match cut '@' authority with
  | (hostport, none) => (none, hostport)
  | (userinfo, some hostport) => (some userinfo, hostport)

/-- The components of what follows the scheme's `://`. -/
def splitAuthority (scheme : List Char) (query fragment : Option (List Char))
    (rest : List Char) : Parts :=
  let (authority, path) := cut '/' rest
  let (userinfo, hostport) := splitUser authority
  let (host, port) := cut ':' hostport
  { scheme, userinfo, host, port, path := before '/' path, query, fragment }

def split (cs : List Char) : Option Parts :=
  let (cs, fragment) := cut '#' cs
  let (cs, query) := cut '?' cs
  match cut ':' cs with
  | (scheme, some ('/' :: '/' :: rest)) => some (splitAuthority scheme query fragment rest)
  | _ => none

def parse (cs : List Char) : Option Parts := (split cs).filter Parts.valid

/-! ## Cuts -/

theorem cut_append (c : Char) (cs : List Char) :
    (cut c cs).1 ++ before c (cut c cs).2 = cs ∧ c ∉ (cut c cs).1 := by
  induction cs with
  | nil => exact ⟨rfl, List.not_mem_nil⟩
  | cons d cs ih =>
    unfold cut
    by_cases hd : d = c
    · rw [if_pos hd, hd]
      exact ⟨rfl, List.not_mem_nil⟩
    · rw [if_neg hd]
      exact ⟨congrArg (d :: ·) ih.1, by simpa [Ne.symm hd] using ih.2⟩

theorem cut_of_not_mem {c : Char} {cs : List Char} (h : c ∉ cs) (o : Option (List Char)) :
    cut c (cs ++ before c o) = (cs, o) := by
  induction cs with
  | nil =>
    cases o with
    | none => rfl
    | some ds => exact if_pos rfl
  | cons d cs ih =>
    obtain ⟨hd, hcs⟩ := not_or.mp (List.mem_cons.not.mp h)
    rw [List.cons_append, cut, if_neg (Ne.symm hd), ih hcs]

/-! ## Separators -/

/-- A character of no component of this kind. -/
theorem not_mem_of_escaped {allowed : Char → Bool} {c : Char} (hc : allowed c = false)
    (hpercent : c ≠ '%') (hhex : UrlQuery.hexValue c = none) {cs : List Char}
    (h : escaped allowed cs = true) : c ∉ cs := by
  fun_induction escaped allowed cs with
  | case1 => exact List.not_mem_nil
  | case2 a b cs ih =>
    rw [Bool.and_eq_true] at h
    obtain ⟨byte, hbyte⟩ := Option.isSome_iff_exists.mp h.1
    obtain ⟨hi, hhi, hrest⟩ := Option.bind_eq_some_iff.mp hbyte
    obtain ⟨lo, hlo, -⟩ := Option.bind_eq_some_iff.mp hrest
    simp only [List.mem_cons, not_or]
    refine ⟨hpercent, ?_, ?_, ih h.2⟩
    · rintro rfl
      rw [hhex] at hhi
      cases hhi
    · rintro rfl
      rw [hhex] at hlo
      cases hlo
  | case3 d cs hd ih =>
    rw [Bool.and_eq_true] at h
    refine List.mem_cons.not.mpr (not_or.mpr ⟨?_, ih h.2⟩)
    rintro rfl
    rw [hc] at h
    cases h.1

theorem not_mem_of_forall {allowed : Char → Bool} {c : Char} (hc : allowed c = false)
    {cs : List Char} (h : ∀ d ∈ cs, allowed d = true) : c ∉ cs := by
  intro hmem
  rw [h c hmem] at hc
  cases hc

theorem not_mem_before {c d : Char} (hd : c ≠ d) {o : Option (List Char)}
    (h : ∀ cs ∈ o, c ∉ cs) : c ∉ before d o := by
  cases o with
  | none => exact List.not_mem_nil
  | some cs => exact List.mem_cons.not.mpr (not_or.mpr ⟨hd, h cs rfl⟩)

theorem not_mem_after {c d : Char} (hd : c ≠ d) {o : Option (List Char)}
    (h : ∀ cs ∈ o, c ∉ cs) : c ∉ after d o := by
  cases o with
  | none => exact List.not_mem_nil
  | some cs => simpa [after, hd] using h cs rfl

namespace Parts

variable {p : Parts}

theorem Valid.not_mem_userinfo (h : p.Valid) {c : Char} (hc : userinfoChar c = false)
    (hpercent : c ≠ '%') (hhex : UrlQuery.hexValue c = none) : ∀ cs ∈ p.userinfo, c ∉ cs :=
  fun cs hcs => not_mem_of_escaped hc hpercent hhex (h.userinfo cs hcs)

theorem Valid.not_mem_hostport (h : p.Valid) {c : Char} (hc : regNameChar c = false)
    (hdigit : isDigit c = false) (hcolon : c ≠ ':') (hpercent : c ≠ '%')
    (hhex : UrlQuery.hexValue c = none) : c ∉ p.hostport := by
  rw [hostport, List.mem_append, not_or]
  exact ⟨not_mem_of_escaped hc hpercent hhex h.host,
    not_mem_before hcolon fun cs hcs => not_mem_of_forall hdigit (h.port cs hcs)⟩

theorem Valid.not_mem_authority (h : p.Valid) {c : Char} (huser : userinfoChar c = false)
    (hhost : regNameChar c = false) (hdigit : isDigit c = false) (hcolon : c ≠ ':')
    (hat : c ≠ '@') (hpercent : c ≠ '%') (hhex : UrlQuery.hexValue c = none) :
    c ∉ p.authority := by
  rw [authority, List.mem_append, not_or]
  exact ⟨not_mem_after hat (h.not_mem_userinfo huser hpercent hhex),
    h.not_mem_hostport hhost hdigit hcolon hpercent hhex⟩

theorem Valid.not_mem_hierPart (h : p.Valid) {c : Char} (huser : userinfoChar c = false)
    (hhost : regNameChar c = false) (hdigit : isDigit c = false) (hcolon : c ≠ ':')
    (hat : c ≠ '@') (hpath : pathChar c = false) (hslash : c ≠ '/') (hpercent : c ≠ '%')
    (hhex : UrlQuery.hexValue c = none) : c ∉ p.hierPart := by
  simp only [hierPart, List.mem_cons, List.mem_append, not_or]
  exact ⟨hslash, hslash, h.not_mem_authority huser hhost hdigit hcolon hat hpercent hhex,
    not_mem_of_escaped hpath hpercent hhex h.path⟩

end Parts

/-! ## The parser and the grammar -/

theorem splitUser_append (authority : List Char) :
    after '@' (splitUser authority).1 ++ (splitUser authority).2 = authority := by
  have h := (cut_append '@' authority).1
  unfold splitUser
  generalize cut '@' authority = pair at h ⊢
  obtain ⟨front, _ | back⟩ := pair
  · simpa [before, after] using h
  · simpa [before, after] using h

theorem splitAuthority_text (scheme : List Char) (query fragment : Option (List Char))
    (rest : List Char) :
    (splitAuthority scheme query fragment rest).authority ++
      (splitAuthority scheme query fragment rest).path = rest := by
  have hpath := (cut_append '/' rest).1
  have huser := splitUser_append (cut '/' rest).1
  have hport := (cut_append ':' (splitUser (cut '/' rest).1).2).1
  show after '@' (splitUser (cut '/' rest).1).1 ++
    ((cut ':' (splitUser (cut '/' rest).1).2).1 ++
      before ':' (cut ':' (splitUser (cut '/' rest).1).2).2) ++ before '/' (cut '/' rest).2 = rest
  rw [hport, huser, hpath]

/-- The components of a text make it up again. -/
theorem text_of_split {cs : List Char} {p : Parts} (h : split cs = some p) : p.text = cs := by
  have hfragment := (cut_append '#' cs).1
  have hquery := (cut_append '?' (cut '#' cs).1).1
  have hscheme := (cut_append ':' (cut '?' (cut '#' cs).1).1).1
  unfold split at h
  generalize cut '#' cs = first at *
  obtain ⟨cs₁, fragment⟩ := first
  dsimp only at *
  generalize cut '?' cs₁ = second at *
  obtain ⟨cs₂, query⟩ := second
  dsimp only at *
  generalize cut ':' cs₂ = third at *
  obtain ⟨scheme, _ | rest⟩ := third
  · cases h
  · dsimp only at h hscheme
    split at h
    · next scheme' rest' heq =>
      obtain ⟨rfl, hrest⟩ := Prod.mk.inj heq
      obtain rfl := Option.some.inj hrest
      obtain rfl := Option.some.inj h
      have htext := splitAuthority_text scheme query fragment rest'
      show scheme ++ ':' :: '/' :: '/' :: (_ ++ _) ++ before '?' query ++ before '#' fragment = cs
      rw [htext, ← hfragment, ← hquery, ← hscheme]
      rfl
    · cases h

theorem splitUser_eq {p : Parts} (h : p.Valid) :
    splitUser p.authority = (p.userinfo, p.hostport) := by
  unfold splitUser Parts.authority
  cases huser : p.userinfo with
  | none =>
    have hcut := cut_of_not_mem
      (h.not_mem_hostport (by decide) (by decide) (by decide) (by decide) (by decide) : '@' ∉ _)
      none
    simp only [before, List.append_nil] at hcut
    simp [after, hcut]
  | some cs =>
    have hcut := cut_of_not_mem
      (h.not_mem_userinfo (by decide) (by decide) (by decide) cs huser : '@' ∉ cs)
      (some p.hostport)
    simp only [before] at hcut
    simp [after, hcut]

theorem splitAuthority_eq {p : Parts} (h : p.Valid) :
    splitAuthority p.scheme p.query p.fragment (p.authority ++ p.path) = p := by
  obtain ⟨o, hpath⟩ : ∃ o, p.path = before '/' o := by
    rcases h.path_first with hnil | hslash
    · exact ⟨none, hnil⟩
    · obtain ⟨cs, hcs⟩ := List.head?_eq_some_iff.mp hslash
      exact ⟨some cs, hcs⟩
  have hauthority := cut_of_not_mem (h.not_mem_authority (by decide) (by decide) (by decide)
    (by decide) (by decide) (by decide) (by decide) : '/' ∉ p.authority) o
  have hhost := cut_of_not_mem
    (not_mem_of_escaped (by decide) (by decide) (by decide) h.host : ':' ∉ p.host) p.port
  unfold splitAuthority
  rw [hpath, hauthority]
  dsimp only
  rw [splitUser_eq h]
  dsimp only
  rw [Parts.hostport, hhost, ← hpath]

/-- A URI in the grammar is split into its components. -/
theorem split_text {p : Parts} (h : p.Valid) : split p.text = some p := by
  have hscheme : ∀ c : Char, schemeChar c = false → c ∉ p.scheme := fun c hc =>
    not_mem_of_forall hc h.scheme
  have hmain : ∀ c : Char, c = '#' ∨ c = '?' → c ∉ p.scheme ++ ':' :: p.hierPart := by
    rintro c (rfl | rfl)
    · simp only [List.mem_append, List.mem_cons, not_or]
      exact ⟨hscheme _ (by decide), by decide, h.not_mem_hierPart (by decide) (by decide)
        (by decide) (by decide) (by decide) (by decide) (by decide) (by decide) (by decide)⟩
    · simp only [List.mem_append, List.mem_cons, not_or]
      exact ⟨hscheme _ (by decide), by decide, h.not_mem_hierPart (by decide) (by decide)
        (by decide) (by decide) (by decide) (by decide) (by decide) (by decide) (by decide)⟩
  have hquery : '#' ∉ before '?' p.query := not_mem_before (by decide) fun cs hcs =>
    not_mem_of_escaped (by decide) (by decide) (by decide) (h.query cs hcs)
  have hfirst := cut_of_not_mem (List.mem_append.not.mpr
    (not_or.mpr ⟨hmain '#' (.inl rfl), hquery⟩)) p.fragment
  have hsecond := cut_of_not_mem (hmain '?' (.inr rfl)) p.query
  have hthird := cut_of_not_mem (hscheme ':' (by decide)) (some p.hierPart)
  unfold split
  rw [Parts.text, hfirst]
  dsimp only
  rw [hsecond]
  dsimp only
  rw [show p.scheme ++ ':' :: p.hierPart = p.scheme ++ before ':' (some p.hierPart) from rfl,
    hthird]
  exact congrArg some (splitAuthority_eq h)

/-- A text is read as `p` exactly if it is the text of `p`, and `p` is in the grammar. -/
theorem parse_eq_some_iff {cs : List Char} {p : Parts} :
    parse cs = some p ↔ p.Valid ∧ p.text = cs := by
  rw [parse, Option.filter_eq_some_iff, Parts.valid_iff]
  constructor
  · rintro ⟨hsplit, hvalid⟩
    exact ⟨hvalid, text_of_split hsplit⟩
  · rintro ⟨hvalid, rfl⟩
    exact ⟨split_text hvalid, hvalid⟩

/-! ## Octets -/

theorem octets_length_le (cs : List Char) : (octets cs).length ≤ cs.length := by
  fun_induction octets cs with
  | case1 => exact Nat.le_refl _
  | case2 a b cs byte hbyte ih => simp only [List.length_cons]; omega
  | case3 a b cs hbyte ih => simp only [List.length_cons] at ih ⊢; omega
  | case4 c cs hc ih => simp only [List.length_cons]; omega

/-- Where decoding drops no character there was no escape. -/
theorem forall_of_octets_length {allowed : Char → Bool} {cs : List Char}
    (h : escaped allowed cs = true) (hlength : (octets cs).length = cs.length) :
    ∀ c ∈ cs, allowed c = true := by
  fun_induction escaped allowed cs with
  | case1 => exact fun _ hc => absurd hc List.not_mem_nil
  | case2 a b cs ih =>
    rw [Bool.and_eq_true] at h
    obtain ⟨byte, hbyte⟩ := Option.isSome_iff_exists.mp h.1
    have hle := octets_length_le cs
    rw [octets, hbyte] at hlength
    simp only [List.length_cons] at hlength
    omega
  | case3 c cs hc ih =>
    rw [Bool.and_eq_true] at h
    have hcons : octets (c :: cs) = c.val.toUInt8 :: octets cs := by
      rw [octets]
      exact fun a b rest hcs => hc a b rest hcs
    rw [hcons, List.length_cons, List.length_cons, Nat.succ_inj] at hlength
    exact List.forall_mem_cons.mpr ⟨h.1, ih h.2 hlength⟩

theorem length_le_utf8 (cs : List Char) : cs.length ≤ (utf8 cs).length := by
  induction cs with
  | nil => exact Nat.le_refl _
  | cons c cs ih =>
    have hc := Char.utf8Size_pos c
    rw [utf8, List.flatMap_cons, List.length_append, String.length_utf8EncodeChar, ← utf8,
      List.length_cons]
    omega

/-- ASCII without a percent sign stands for itself. -/
theorem octets_eq_utf8 {cs : List Char} (h : ∀ c ∈ cs, c.toNat < 128 ∧ c ≠ '%') :
    octets cs = utf8 cs := by
  induction cs with
  | nil => rfl
  | cons c cs ih =>
    obtain ⟨⟨hascii, hpercent⟩, hcs⟩ := List.forall_mem_cons.mp h
    have hcons : octets (c :: cs) = c.val.toUInt8 :: octets cs := by
      rw [octets]
      rintro a b rest rfl
      exact absurd rfl hpercent
    have hsize : c.utf8Size = 1 := by
      have hval : c.val ≤ 0x7F := UInt32.le_iff_toNat_le.mpr (Nat.le_of_lt_succ hascii)
      exact if_pos hval
    rw [hcons, ih hcs, utf8, utf8, List.flatMap_cons, String.utf8EncodeChar_eq_singleton hsize]
    rfl

theorem escaped_of_forall {allowed : Char → Bool} (hpercent : allowed '%' = false)
    {cs : List Char} (h : ∀ c ∈ cs, allowed c = true) : escaped allowed cs = true := by
  fun_induction escaped allowed cs with
  | case1 => rfl
  | case2 a b cs ih =>
    have hp := h '%' (by simp)
    rw [hpercent] at hp
    cases hp
  | case3 c cs hc ih =>
    rw [Bool.and_eq_true]
    exact ⟨h c (by simp), ih fun d hd => h d (by simp [hd])⟩

theorem escapedByte_none {c : Char} (hhex : UrlQuery.hexValue c = none) (d : Char) :
    UrlQuery.escapedByte c d = none ∧ UrlQuery.escapedByte d c = none := by
  constructor
  · rw [UrlQuery.escapedByte, hhex]
    rfl
  · rw [UrlQuery.escapedByte, hhex]
    cases UrlQuery.hexValue d <;> rfl

theorem escaped_cons_of_ne {allowed : Char → Bool} {c : Char} (hc : c ≠ '%') (cs : List Char) :
    escaped allowed (c :: cs) = (allowed c && escaped allowed cs) := by
  rw [escaped]
  rintro a b rest rfl
  exact absurd rfl hc

theorem not_escaped_percent {allowed : Char → Bool} (hallowed : allowed '%' = false) {c : Char}
    (hhex : UrlQuery.hexValue c = none) (b : List Char) :
    escaped allowed ('%' :: c :: b) = false := by
  cases b with
  | nil =>
    rw [escaped, hallowed, Bool.false_and]
    intro _ _ _ _ h
    cases h
  | cons d b => rw [escaped, (escapedByte_none hhex d).1, Option.isSome_none, Bool.false_and]

/-- Both sides of a separator are in the grammar if the whole is. -/
theorem escaped_of_append {allowed : Char → Bool} (hallowed : allowed '%' = false)
    {a b : List Char} {c : Char} (hpercent : c ≠ '%') (hhex : UrlQuery.hexValue c = none)
    (h : escaped allowed (a ++ c :: b) = true) :
    escaped allowed a = true ∧ escaped allowed b = true := by
  fun_induction escaped allowed a with
  | case1 =>
    rw [List.nil_append, escaped_cons_of_ne hpercent, Bool.and_eq_true] at h
    exact ⟨rfl, h.2⟩
  | case2 x y a ih =>
    rw [List.cons_append, List.cons_append, List.cons_append, escaped, Bool.and_eq_true] at h
    obtain ⟨ha, hb⟩ := ih h.2
    exact ⟨by rw [h.1, ha, Bool.and_self], hb⟩
  | case3 d a hd ih =>
    by_cases hdp : d = '%'
    · subst hdp
      rcases a with _ | ⟨x, _ | ⟨y, a⟩⟩
      · rw [List.cons_append, List.nil_append, not_escaped_percent hallowed hhex] at h
        cases h
      · rw [List.cons_append, List.cons_append, List.nil_append, escaped,
          (escapedByte_none hhex x).2, Option.isSome_none, Bool.false_and] at h
        cases h
      · exact (hd x y a rfl rfl).elim
    · rw [List.cons_append, escaped_cons_of_ne hdp, Bool.and_eq_true] at h
      obtain ⟨ha, hb⟩ := ih h.2
      exact ⟨by rw [h.1, ha, Bool.and_self], hb⟩

end Uri
