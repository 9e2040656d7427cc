import ApiTemplate.Stream.JsonText
import ApiTemplate.Stream.Utf16

/-!
# JSON documents

Documents with strings of UTF-16 code units, and their compact text in ASCII. The text of a document
can be read off in front of whatever follows, so it determines the document: tokens end where a
character of punctuation stands, strings at their closing quote.
-/

namespace JsonDocument

open JsonText Utf16

/-! ## Documents and their texts -/

def tokenChar (c : Char) : Bool := c.isAlphanum || c = '-' || c = '+' || c = '.'

/-- A literal that is no string: a number or a word. -/
structure Token where
  text : List Char
  ne_nil : text ≠ []
  chars : ∀ c ∈ text, tokenChar c = true

inductive Doc
  | token (t : Token)
  | str (s : List CodeUnit)
  | array (items : List Doc)
  | object (members : List (List CodeUnit × Doc))

/-- A code unit of a string literal; what is not printable ASCII is escaped. -/
def escapeUnit (u : CodeUnit) : List Char :=
  if u.val = 34 then ['\\', '"']
  else if u.val = 92 then ['\\', '\\']
  else if 32 ≤ u.val ∧ u.val ≤ 126 then [Char.ofNat u.val]
  else if u.val = 10 then ['\\', 'n']
  else if u.val = 13 then ['\\', 'r']
  else if u.val = 9 then ['\\', 't']
  else if u.val = 8 then ['\\', 'b']
  else if u.val = 12 then ['\\', 'f']
  else ['\\', 'u', hexDigit (u.val / 4096), hexDigit (u.val / 256 % 16),
    hexDigit (u.val / 16 % 16), hexDigit (u.val % 16)]

def quoteUnits (s : List CodeUnit) : List Char := '"' :: (s.flatMap escapeUnit ++ ['"'])

mutual

def Doc.text : Doc → List Char
  | .token t => t.text
  | .str s => quoteUnits s
  | .array items => array (itemTexts items)
  | .object members => object (memberTexts members)

def itemTexts : List Doc → List (List Char)
  | [] => []
  | item :: items => item.text :: itemTexts items

def memberTexts : List (List CodeUnit × Doc) → List (List Char)
  | [] => []
  | (key, value) :: members => member (quoteUnits key) value.text :: memberTexts members

end

/-! ## Strings -/

/-- Read one code unit of a string literal. -/
def readUnit : List Char → Option (ℕ × List Char)
  | '\\' :: 'n' :: text => some (10, text)
  | '\\' :: 'r' :: text => some (13, text)
  | '\\' :: 't' :: text => some (9, text)
  | '\\' :: 'b' :: text => some (8, text)
  | '\\' :: 'f' :: text => some (12, text)
  | '\\' :: 'u' :: a :: b :: c :: d :: text =>
    some (hexValue a * 4096 + hexValue b * 256 + hexValue c * 16 + hexValue d, text)
  | '\\' :: c :: text => some (c.toNat, text)
  | c :: text => if c = '"' then none else some (c.toNat, text)
  | [] => none

theorem hexValue_hexDigit_of_lt : ∀ n < 16, hexValue (hexDigit n) = n := by decide

theorem readUnit_plain : ∀ n < 127, 32 ≤ n ∧ n ≠ 34 ∧ n ≠ 92 →
    (Char.ofNat n ≠ '\\' ∧ Char.ofNat n ≠ '"') ∧ (Char.ofNat n).toNat = n := by
  decide

theorem readUnit_of_ne {c : Char} (hslash : c ≠ '\\') (hquote : c ≠ '"') (text : List Char) :
    readUnit (c :: text) = some (c.toNat, text) := by
  unfold readUnit
  split <;> simp_all

/-- A code unit is read back. -/
theorem readUnit_escapeUnit (u : CodeUnit) (text : List Char) :
    readUnit (escapeUnit u ++ text) = some (u.val, text) := by
  obtain ⟨n, hn⟩ := u
  unfold escapeUnit
  by_cases hquote : n = 34
  · subst hquote
    rfl
  by_cases hslash : n = 92
  · subst hslash
    rfl
  rw [if_neg hquote, if_neg hslash]
  by_cases hplain : 32 ≤ n ∧ n ≤ 126
  · rw [if_pos hplain]
    obtain ⟨⟨hs, hq⟩, htoNat⟩ := readUnit_plain n (by omega) ⟨hplain.1, hquote, hslash⟩
    exact (readUnit_of_ne hs hq text).trans (by rw [htoNat])
  rw [if_neg hplain]
  split_ifs with h10 h13 h9 h8 h12
  · subst h10
    rfl
  · subst h13
    rfl
  · subst h9
    rfl
  · subst h8
    rfl
  · subst h12
    rfl
  · show some (_, text) = some (n, text)
    rw [hexValue_hexDigit_of_lt _ (by omega), hexValue_hexDigit_of_lt _ (by omega),
      hexValue_hexDigit_of_lt _ (by omega), hexValue_hexDigit_of_lt _ (by omega)]
    have hsum : n / 4096 * 4096 + n / 256 % 16 * 256 + n / 16 % 16 * 16 + n % 16 = n := by omega
    rw [hsum]

/-- A string literal determines the string and what follows it. -/
theorem units_append_inj {s t : List CodeUnit} {r r' : List Char}
    (h : s.flatMap escapeUnit ++ '"' :: r = t.flatMap escapeUnit ++ '"' :: r') :
    s = t ∧ r = r' := by
  induction s generalizing t with
  | nil =>
    cases t with
    | nil => exact ⟨rfl, (List.cons.inj h).2⟩
    | cons v t =>
      have hread := readUnit_escapeUnit v (t.flatMap escapeUnit ++ '"' :: r')
      rw [← List.append_assoc, ← List.flatMap_cons, ← h] at hread
      cases hread
  | cons u s ih =>
    have hread := readUnit_escapeUnit u (s.flatMap escapeUnit ++ '"' :: r)
    rw [← List.append_assoc, ← List.flatMap_cons, h] at hread
    cases t with
    | nil => cases hread
    | cons v t =>
      rw [List.flatMap_cons, List.append_assoc, readUnit_escapeUnit] at hread
      obtain ⟨hunit, hrest⟩ := Prod.mk.inj (Option.some.inj hread)
      obtain ⟨rfl, hr⟩ := ih hrest.symm
      exact ⟨by rw [Fin.ext hunit], hr⟩

theorem quoteUnits_append_inj {s t : List CodeUnit} {r r' : List Char}
    (h : quoteUnits s ++ r = quoteUnits t ++ r') : s = t ∧ r = r' := by
  refine units_append_inj ?_
  simpa [quoteUnits] using h

/-! ## Separators -/

/-- The text of the elements after the first one, and the closing bracket. -/
def tail (close : Char) (texts : List (List Char)) : List Char :=
  texts.flatMap (',' :: ·) ++ [close]

theorem intercalate_cons (close : Char) (x : List Char) (xs : List (List Char)) :
    [','].intercalate (x :: xs) ++ [close] = x ++ tail close xs := by
  induction xs generalizing x with
  | nil => simp [tail]
  | cons y ys ih =>
    have hcons : [','].intercalate (x :: y :: ys) = x ++ ',' :: [','].intercalate (y :: ys) := by
      simp [List.intercalate]
    rw [hcons, List.append_assoc, List.cons_append, ih y]
    simp [tail]

theorem array_cons (x : List Char) (xs : List (List Char)) :
    array (x :: xs) = '[' :: (x ++ tail ']' xs) := by
  rw [array, intercalate_cons]

theorem object_cons (x : List Char) (xs : List (List Char)) :
    object (x :: xs) = '\x7b' :: (x ++ tail '\x7d' xs) := by
  rw [object, intercalate_cons]

/-! ## What follows a document -/

/-- No token goes on here. -/
def Stops (r : List Char) : Prop := ∀ c ∈ r.head?, tokenChar c = false

theorem stops_nil : Stops [] := by
  intro c hc
  cases hc

theorem stops_cons {c : Char} (h : tokenChar c = false) (r : List Char) : Stops (c :: r) := by
  rintro _ ⟨⟩
  exact h

theorem stops_tail {close : Char} (hclose : tokenChar close = false) (texts : List (List Char))
    (r : List Char) : Stops (tail close texts ++ r) := by
  cases texts with
  | nil => exact stops_cons hclose _
  | cons x xs => exact stops_cons (by decide) _

theorem takeWhile_token (t : Token) {r : List Char} (hr : Stops r) :
    (t.text ++ r).takeWhile tokenChar = t.text := by
  rw [List.takeWhile_append_of_pos t.chars]
  cases r with
  | nil => simp
  | cons c r => rw [List.takeWhile_cons_of_neg (by simp [hr c rfl]), List.append_nil]

theorem token_inj {t t' : Token} {r r' : List Char} (hr : Stops r) (hr' : Stops r')
    (h : t.text ++ r = t'.text ++ r') : t = t' ∧ r = r' := by
  have htext : t.text = t'.text := by
    rw [← takeWhile_token t hr, h, takeWhile_token t' hr']
  obtain ⟨text, _, _⟩ := t
  obtain ⟨text', _, _⟩ := t'
  obtain rfl : text = text' := htext
  exact ⟨rfl, List.append_cancel_left h⟩

/-- What a document begins with. -/
def opens : Doc → Char → Prop
  | .token _, c => tokenChar c = true
  | .str _, c => c = '"'
  | .array _, c => c = '['
  | .object _, c => c = '\x7b'

theorem text_eq_cons (d : Doc) : ∃ c cs, d.text = c :: cs ∧ opens d c := by
  cases d with
  | token t =>
    obtain ⟨c, cs, h⟩ := List.exists_cons_of_ne_nil t.ne_nil
    exact ⟨c, cs, h, t.chars c (by rw [h]; exact List.mem_cons_self)⟩
  | str s => exact ⟨'"', _, rfl, rfl⟩
  | array items => exact ⟨'[', _, by rw [Doc.text, array], rfl⟩
  | object members => exact ⟨'\x7b', _, by rw [Doc.text, object], rfl⟩

/-- A document does not begin like a tail, nor like a document of another kind. -/
theorem opens_of_text_eq {d e : Doc} {r r' : List Char} (h : d.text ++ r = e.text ++ r') :
    ∃ c, opens d c ∧ opens e c := by
  obtain ⟨c, cs, hd, hc⟩ := text_eq_cons d
  obtain ⟨c', cs', he, hc'⟩ := text_eq_cons e
  rw [hd, he, List.cons_append, List.cons_append] at h
  exact ⟨c, hc, (List.cons.inj h).1 ▸ hc'⟩

theorem text_ne_close {d : Doc} {close : Char} (hclose : close = ']' ∨ close = '\x7d')
    {r r' : List Char} : d.text ++ r ≠ close :: r' := by
  obtain ⟨c, cs, hd, hc⟩ := text_eq_cons d
  rw [hd]
  intro h
  obtain rfl := (List.cons.inj h).1
  cases d with
  | token t =>
    have hc' : tokenChar c = true := hc
    rcases hclose with rfl | rfl
    · exact absurd hc' (by decide)
    · exact absurd hc' (by decide)
  | str s =>
    obtain rfl : c = '"' := hc
    simp at hclose
  | array items =>
    obtain rfl : c = '[' := hc
    simp at hclose
  | object members =>
    obtain rfl : c = '\x7b' := hc
    simp at hclose

theorem opens_token {d : Doc} {c : Char} (hc : tokenChar c = true) (h : opens d c) :
    ∃ t, d = .token t := by
  cases d with
  | token t => exact ⟨t, rfl⟩
  | str _ => exact absurd hc (by rw [show c = '"' from h]; decide)
  | array _ => exact absurd hc (by rw [show c = '[' from h]; decide)
  | object _ => exact absurd hc (by rw [show c = '\x7b' from h]; decide)

theorem opens_str {d : Doc} (h : opens d '"') : ∃ s, d = .str s := by
  cases d with
  | token _ => exact absurd (show tokenChar '"' = true from h) (by decide)
  | str s => exact ⟨s, rfl⟩
  | array _ => exact absurd (show '"' = '[' from h) (by decide)
  | object _ => exact absurd (show '"' = '\x7b' from h) (by decide)

theorem opens_array {d : Doc} (h : opens d '[') : ∃ items, d = .array items := by
  cases d with
  | token _ => exact absurd (show tokenChar '[' = true from h) (by decide)
  | str _ => exact absurd (show '[' = '"' from h) (by decide)
  | array items => exact ⟨items, rfl⟩
  | object _ => exact absurd (show '[' = '\x7b' from h) (by decide)

theorem opens_object {d : Doc} (h : opens d '\x7b') : ∃ members, d = .object members := by
  cases d with
  | token _ => exact absurd (show tokenChar '\x7b' = true from h) (by decide)
  | str _ => exact absurd (show '\x7b' = '"' from h) (by decide)
  | array _ => exact absurd (show '\x7b' = '[' from h) (by decide)
  | object members => exact ⟨members, rfl⟩

/-! ## Reading a document off -/

theorem tail_cons (close : Char) (x : List Char) (xs : List (List Char)) (r : List Char) :
    tail close (x :: xs) ++ r = ',' :: (x ++ (tail close xs ++ r)) := by
  simp [tail]

theorem member_append (key value r : List Char) :
    member key value ++ r = key ++ ':' :: (value ++ r) := by
  simp [member]

mutual

/-- The text of a document determines it and what follows. -/
theorem text_inj : ∀ (d e : Doc) {r r' : List Char}, Stops r → Stops r' →
    d.text ++ r = e.text ++ r' → d = e ∧ r = r'
  | .token t, e, r, r', hr, hr', h => by
    obtain ⟨c, hc, he⟩ := opens_of_text_eq h
    obtain ⟨t', rfl⟩ := opens_token hc he
    obtain ⟨rfl, rfl⟩ := token_inj hr hr' h
    exact ⟨rfl, rfl⟩
  | .str s, e, r, r', hr, hr', h => by
    obtain ⟨_, rfl, he⟩ := opens_of_text_eq h
    obtain ⟨s', rfl⟩ := opens_str he
    obtain ⟨rfl, rfl⟩ := quoteUnits_append_inj h
    exact ⟨rfl, rfl⟩
  | .array items, e, r, r', hr, hr', h => by
    obtain ⟨_, rfl, he⟩ := opens_of_text_eq h
    obtain ⟨items', rfl⟩ := opens_array he
    obtain ⟨rfl, rfl⟩ := items_inj items items' h
    exact ⟨rfl, rfl⟩
  | .object members, e, r, r', hr, hr', h => by
    obtain ⟨_, rfl, he⟩ := opens_of_text_eq h
    obtain ⟨members', rfl⟩ := opens_object he
    obtain ⟨rfl, rfl⟩ := members_inj members members' h
    exact ⟨rfl, rfl⟩

theorem items_inj : ∀ (ds es : List Doc) {r r' : List Char},
    array (itemTexts ds) ++ r = array (itemTexts es) ++ r' → ds = es ∧ r = r'
  | [], [], r, r', h => ⟨rfl, List.append_cancel_left h⟩
  | [], e :: es, r, r', h => by
    rw [itemTexts, itemTexts, array_cons, List.cons_append, List.append_assoc] at h
    exact absurd (List.cons.inj h).2.symm (text_ne_close (.inl rfl))
  | d :: ds, [], r, r', h => by
    rw [itemTexts, itemTexts, array_cons, List.cons_append, List.append_assoc] at h
    exact absurd (List.cons.inj h).2 (text_ne_close (.inl rfl))
  | d :: ds, e :: es, r, r', h => by
    rw [itemTexts, itemTexts, array_cons, array_cons, List.cons_append, List.cons_append,
      List.append_assoc, List.append_assoc] at h
    obtain ⟨rfl, htail⟩ := text_inj d e (stops_tail (by decide) _ _)
      (stops_tail (by decide) _ _) (List.cons.inj h).2
    obtain ⟨rfl, rfl⟩ := itemsTail_inj ds es htail
    exact ⟨rfl, rfl⟩

theorem itemsTail_inj : ∀ (ds es : List Doc) {r r' : List Char},
    tail ']' (itemTexts ds) ++ r = tail ']' (itemTexts es) ++ r' → ds = es ∧ r = r'
  | [], [], r, r', h => ⟨rfl, List.append_cancel_left h⟩
  | [], e :: es, r, r', h => by
    rw [itemTexts, itemTexts, tail_cons] at h
    cases h
  | d :: ds, [], r, r', h => by
    rw [itemTexts, itemTexts, tail_cons] at h
    cases h
  | d :: ds, e :: es, r, r', h => by
    rw [itemTexts, itemTexts, tail_cons, tail_cons] at h
    obtain ⟨rfl, htail⟩ := text_inj d e (stops_tail (by decide) _ _)
      (stops_tail (by decide) _ _) (List.cons.inj h).2
    obtain ⟨rfl, rfl⟩ := itemsTail_inj ds es htail
    exact ⟨rfl, rfl⟩

theorem members_inj : ∀ (ds es : List (List CodeUnit × Doc)) {r r' : List Char},
    object (memberTexts ds) ++ r = object (memberTexts es) ++ r' → ds = es ∧ r = r'
  | [], [], r, r', h => ⟨rfl, List.append_cancel_left h⟩
  | [], (k', e) :: es, r, r', h => by
    rw [memberTexts, memberTexts, object_cons] at h
    cases h
  | (k, d) :: ds, [], r, r', h => by
    rw [memberTexts, memberTexts, object_cons] at h
    cases h
  | (k, d) :: ds, (k', e) :: es, r, r', h => by
    rw [memberTexts, memberTexts, object_cons, object_cons, List.cons_append, List.cons_append,
      List.append_assoc, List.append_assoc, member_append, member_append] at h
    obtain ⟨rfl, hvalue⟩ := quoteUnits_append_inj (List.cons.inj h).2
    obtain ⟨rfl, htail⟩ := text_inj d e (stops_tail (by decide) _ _)
      (stops_tail (by decide) _ _) (List.cons.inj hvalue).2
    obtain ⟨rfl, rfl⟩ := membersTail_inj ds es htail
    exact ⟨rfl, rfl⟩

theorem membersTail_inj : ∀ (ds es : List (List CodeUnit × Doc)) {r r' : List Char},
    tail '\x7d' (memberTexts ds) ++ r = tail '\x7d' (memberTexts es) ++ r' → ds = es ∧ r = r'
  | [], [], r, r', h => ⟨rfl, List.append_cancel_left h⟩
  | [], (k', e) :: es, r, r', h => by
    rw [memberTexts, memberTexts, tail_cons] at h
    cases h
  | (k, d) :: ds, [], r, r', h => by
    rw [memberTexts, memberTexts, tail_cons] at h
    cases h
  | (k, d) :: ds, (k', e) :: es, r, r', h => by
    rw [memberTexts, memberTexts, tail_cons, tail_cons, member_append, member_append] at h
    obtain ⟨rfl, hvalue⟩ := quoteUnits_append_inj (List.cons.inj h).2
    obtain ⟨rfl, htail⟩ := text_inj d e (stops_tail (by decide) _ _)
      (stops_tail (by decide) _ _) (List.cons.inj hvalue).2
    obtain ⟨rfl, rfl⟩ := membersTail_inj ds es htail
    exact ⟨rfl, rfl⟩

end

theorem text_injective {d e : Doc} (h : d.text = e.text) : d = e :=
  (text_inj d e stops_nil stops_nil (by rw [h])).1

end JsonDocument
