import Mathlib.Data.List.Basic
import Mathlib.Tactic.Common

/-!
# Hypertext

A reader of HTML that takes a text one character at a time: tags with quoted values in them, and the
references of the characters that mean something themselves. `Reads` says that a text is read to its
end, from outside of tags to outside of tags; so texts that are read can be joined.
-/

namespace Html

inductive Token
  | char (c : Char)
  | tag (content : List Char)
  deriving DecidableEq

/-- Where the reader stands, with what it has read of a reference or a tag. -/
inductive State
  | text
  | reference (name : List Char)
  | tag (content : List Char)
  | quoted (quote : Char) (content : List Char)
  deriving DecidableEq

/-- The character that a reference stands for. -/
def referenced (name : List Char) : Option Char :=
  if name = ['a', 'm', 'p'] then some '&'
  else if name = ['l', 't'] then some '<'
  else if name = ['g', 't'] then some '>'
  else if name = ['q', 'u', 'o', 't'] then some '"'
  else if name = ['#', 'x', '2', '7'] then some '\''
  else none

/-- One character. Nothing follows an unknown reference, nor a tag within a tag. -/
def step : State → Char → Option (State × List Token)
  | .text, c =>
    if c = '&' then some (.reference [], [])
    else if c = '<' then some (.tag [], [])
    else some (.text, [.char c])
  | .reference name, c =>
    if c = ';' then (referenced name).map fun d => (.text, [.char d])
    else some (.reference (name ++ [c]), [])
  | .tag content, c =>
    if c = '>' then some (.text, [.tag content])
    else if c = '<' then none
    else if c = '"' ∨ c = '\'' then some (.quoted c (content ++ [c]), [])
    else some (.tag (content ++ [c]), [])
  | .quoted quote content, c =>
    if c = quote then some (.tag (content ++ [c]), [])
    else some (.quoted quote (content ++ [c]), [])

def run : State → List Char → Option (State × List Token)
  | s, [] => some (s, [])
  | s, c :: cs =>
    (step s c).bind fun now => (run now.1 cs).map fun later => (later.1, now.2 ++ later.2)

/-- The tokens of a whole text. -/
def read (cs : List Char) : Option (List Token) :=
  (run .text cs).bind fun result => if result.1 = .text then some result.2 else none

/-- The text reads as the tokens, and the reader is outside of tags again. -/
def Reads (cs : List Char) (tokens : List Token) : Prop := run .text cs = some (.text, tokens)

instance (cs : List Char) (tokens : List Token) : Decidable (Reads cs tokens) :=
  inferInstanceAs (Decidable (run .text cs = some (.text, tokens)))

/-- Characters that are shown as they are. -/
def chars (cs : List Char) : List Token := cs.map .char

/-- The name of a tag, without its attributes. -/
def tagName (content : List Char) : List Char := content.takeWhile (· ≠ ' ')

/-- The tags close in the order they opened, above the open ones of a stack. -/
def nested : List (List Char) → List Token → Bool
  | stack, [] => stack.isEmpty
  | stack, .char _ :: tokens => nested stack tokens
  | stack, .tag content :: tokens =>
    if content.head? = some '/' then
      stack.head? = some content.tail && nested stack.tail tokens
    else nested (tagName content :: stack) tokens

/-! ## Reading -/

theorem Reads.read {cs : List Char} {tokens : List Token} (h : Reads cs tokens) :
    read cs = some tokens := by
  unfold Html.read
  rw [show run .text cs = _ from h]
  rfl

theorem run_append {s₁ s₂ s₃ : State} {xs ys : List Char} {ts us : List Token}
    (h : run s₁ xs = some (s₂, ts)) (h' : run s₂ ys = some (s₃, us)) :
    run s₁ (xs ++ ys) = some (s₃, ts ++ us) := by
  induction xs generalizing s₁ ts with
  | nil =>
    cases h
    exact h'
  | cons c xs ih =>
    obtain ⟨⟨s, now⟩, hstep, hrest⟩ := Option.bind_eq_some_iff.mp h
    obtain ⟨⟨s', later⟩, hrun, hlater⟩ := Option.map_eq_some_iff.mp hrest
    obtain ⟨rfl, rfl⟩ : s' = s₂ ∧ now ++ later = ts := by
      cases hlater
      exact ⟨rfl, rfl⟩
    show (step s₁ c).bind (fun now => (run now.1 (xs ++ ys)).map _) = _
    rw [hstep, List.append_assoc, Option.bind_some, ih hrun]
    rfl

theorem Reads.append {xs ys : List Char} {ts us : List Token} (h : Reads xs ts)
    (h' : Reads ys us) : Reads (xs ++ ys) (ts ++ us) :=
  run_append h h'

theorem Reads.flatMap {α : Type} {f : α → List Char} {g : α → List Token}
    (h : ∀ a, Reads (f a) (g a)) (l : List α) : Reads (l.flatMap f) (l.flatMap g) := by
  induction l with
  | nil => rfl
  | cons a l ih =>
    rw [List.flatMap_cons, List.flatMap_cons]
    exact (h a).append ih

/-- A character that means nothing itself. -/
theorem reads_char {c : Char} (hamp : c ≠ '&') (hlt : c ≠ '<') : Reads [c] [.char c] := by
  show (step .text c).bind _ = _
  rw [show step .text c = some (.text, [.char c]) by simp [step, hamp, hlt]]
  rfl

/-! ## Tokens -/

theorem chars_append (xs ys : List Char) : chars (xs ++ ys) = chars xs ++ chars ys :=
  List.map_append

/-- What stands before the first tag is determined. -/
theorem chars_append_tag_inj {xs ys t t' : List Char} {r r' : List Token}
    (h : chars xs ++ .tag t :: r = chars ys ++ .tag t' :: r') : xs = ys ∧ t = t' ∧ r = r' := by
  induction xs generalizing ys with
  | nil =>
    cases ys with
    | nil =>
      cases h
      exact ⟨rfl, rfl, rfl⟩
    | cons y ys => cases h
  | cons x xs ih =>
    cases ys with
    | nil => cases h
    | cons y ys =>
      obtain ⟨hhead, htail⟩ := List.cons.inj h
      obtain ⟨rfl, hrest⟩ := ih htail
      exact ⟨congrArg (· :: xs) (Token.char.inj hhead), hrest⟩

theorem nested_chars (stack : List (List Char)) (cs : List Char) (tokens : List Token) :
    nested stack (chars cs ++ tokens) = nested stack tokens := by
  induction cs with
  | nil => rfl
  | cons c cs ih => exact ih

end Html
