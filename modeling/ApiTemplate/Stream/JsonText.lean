import Mathlib.Data.Nat.Notation
import Mathlib.Data.List.Basic

/-!
# JSON text

String literals with their escapes, which can be read back, and the punctuation of arrays and
objects. `Framed` functions put their argument into a fixed context; two results are equal only
if the arguments are.
-/

namespace JsonText

/-! ## Strings -/

def hexDigit (n : ℕ) : Char := if n < 10 then Char.ofNat (48 + n) else Char.ofNat (87 + n)

def hexValue (c : Char) : ℕ := if c.toNat < 58 then c.toNat - 48 else c.toNat - 87

/-- A character of a string literal. -/
def escape (c : Char) : List Char :=
  if c = '"' then ['\\', '"']
  else if c = '\\' then ['\\', '\\']
  else if c.toNat < 32 then
    if c = '\n' then ['\\', 'n']
    else if c = '\r' then ['\\', 'r']
    else if c = '\t' then ['\\', 't']
    else if c = Char.ofNat 8 then ['\\', 'b']
    else if c = Char.ofNat 12 then ['\\', 'f']
    else ['\\', 'u', '0', '0', hexDigit (c.toNat / 16), hexDigit (c.toNat % 16)]
  else [c]

/-- Read one character of a string literal. -/
def readChar : List Char → Option (Char × List Char)
  | [] => none
  | '\\' :: 'n' :: text => some ('\n', text)
  | '\\' :: 'r' :: text => some ('\r', text)
  | '\\' :: 't' :: text => some ('\t', text)
  | '\\' :: 'b' :: text => some (Char.ofNat 8, text)
  | '\\' :: 'f' :: text => some (Char.ofNat 12, text)
  | '\\' :: 'u' :: '0' :: '0' :: a :: b :: text =>
    some (Char.ofNat (hexValue a * 16 + hexValue b), text)
  | '\\' :: c :: text => some (c, text)
  | c :: text => if c = '"' then none else some (c, text)

theorem hexValue_hexDigit : ∀ n < 32,
    Char.ofNat (hexValue (hexDigit (n / 16)) * 16 + hexValue (hexDigit (n % 16))) =
      Char.ofNat n := by
  decide

theorem readChar_plain {c : Char} (h : c ≠ '\\') (text : List Char) :
    readChar (c :: text) = if c = '"' then none else some (c, text) := by
  unfold readChar
  split <;> simp_all

/-- A character is read back. -/
theorem readChar_escape (c : Char) (text : List Char) :
    readChar (escape c ++ text) = some (c, text) := by
  unfold escape
  by_cases hquote : c = '"'
  · rw [if_pos hquote, hquote]
    rfl
  rw [if_neg hquote]
  by_cases hslash : c = '\\'
  · rw [if_pos hslash, hslash]
    rfl
  rw [if_neg hslash]
  by_cases hcontrol : c.toNat < 32
  · rw [if_pos hcontrol]
    split_ifs with hn hr ht hb hf
    · rw [hn]
      rfl
    · rw [hr]
      rfl
    · rw [ht]
      rfl
    · rw [hb]
      rfl
    · rw [hf]
      rfl
    · show some (Char.ofNat (hexValue _ * 16 + hexValue _), text) = some (c, text)
      rw [hexValue_hexDigit c.toNat hcontrol, Char.ofNat_toNat]
  · rw [if_neg hcontrol]
    exact (readChar_plain hslash text).trans (if_neg hquote)

def quote (s : List Char) : List Char := '"' :: (s.flatMap escape ++ ['"'])

theorem flatMap_escape_injective {s t : List Char} (h : s.flatMap escape = t.flatMap escape) :
    s = t := by
  induction s generalizing t with
  | nil =>
    cases t with
    | nil => rfl
    | cons d t =>
      have hread := readChar_escape d (t.flatMap escape)
      rw [← List.flatMap_cons, ← h] at hread
      cases hread
  | cons c s ih =>
    cases t with
    | nil =>
      have hread := readChar_escape c (s.flatMap escape)
      rw [← List.flatMap_cons, h] at hread
      cases hread
    | cons d t =>
      have hc := readChar_escape c (s.flatMap escape)
      have hd := readChar_escape d (t.flatMap escape)
      rw [← List.flatMap_cons, h, List.flatMap_cons, hd] at hc
      obtain ⟨rfl, htail⟩ := Prod.mk.inj (Option.some.inj hc)
      rw [ih htail.symm]

theorem quote_injective {s t : List Char} (h : quote s = quote t) : s = t :=
  flatMap_escape_injective (List.append_cancel_right (List.cons.inj h).2)

/-! ## Arrays and objects -/

def array (items : List (List Char)) : List Char := '[' :: ([','].intercalate items ++ [']'])

/-- One `key: value` of an object. -/
def member (key value : List Char) : List Char := key ++ ':' :: value

def object (members : List (List Char)) : List Char :=
  '\x7b' :: ([','].intercalate members ++ ['\x7d'])

/-! ## Contexts -/

/-- The function writes its argument into a fixed context. -/
def Framed (f : List Char → List Char) : Prop := ∃ before after, ∀ x, f x = before ++ x ++ after

namespace Framed

variable {f g : List Char → List Char}

theorem inj (h : Framed f) {x y : List Char} (hxy : f x = f y) : x = y := by
  obtain ⟨before, after, hf⟩ := h
  rw [hf, hf] at hxy
  exact List.append_cancel_left (List.append_cancel_right hxy)

theorem comp (hg : Framed g) (hf : Framed f) : Framed fun x => g (f x) := by
  obtain ⟨before, after, hf⟩ := hf
  obtain ⟨before', after', hg⟩ := hg
  refine ⟨before' ++ before, after ++ after', fun x => ?_⟩
  show g (f x) = _
  rw [hg, hf]
  simp only [List.append_assoc]

theorem intercalate (sep : List Char) (ls ms : List (List Char)) :
    Framed fun x => sep.intercalate (ls ++ x :: ms) := by
  induction ls with
  | nil =>
    cases ms with
    | nil => exact ⟨[], [], fun x => by simp [List.intercalate]⟩
    | cons m ms =>
      exact ⟨[], sep ++ sep.intercalate (m :: ms), fun x => by simp [List.intercalate]⟩
  | cons l ls ih =>
    obtain ⟨before, after, h⟩ := ih
    refine ⟨l ++ sep ++ before, after, fun x => ?_⟩
    have hcons : sep.intercalate (l :: (ls ++ x :: ms)) =
        l ++ sep ++ sep.intercalate (ls ++ x :: ms) := by
      cases ls <;> simp [List.intercalate]
    have hx : sep.intercalate (ls ++ x :: ms) = before ++ x ++ after := h x
    show sep.intercalate (l :: (ls ++ x :: ms)) = _
    rw [hcons, hx]
    simp only [List.append_assoc]

theorem object (ls ms : List (List Char)) : Framed fun x => JsonText.object (ls ++ x :: ms) :=
  comp (g := fun text => '\x7b' :: (text ++ ['\x7d'])) ⟨['\x7b'], ['\x7d'], fun _ => rfl⟩
    (intercalate [','] ls ms)

theorem member (key : List Char) : Framed (JsonText.member key) :=
  ⟨key ++ [':'], [], fun x => by simp [JsonText.member]⟩

end Framed

end JsonText
