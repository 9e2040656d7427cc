import Mathlib.Data.List.Basic
import Mathlib.Tactic.Common

/-!
# Paths

Paths of the POSIX flavour as lists of components: parsing, joining and printing. Empty components
and `.` are dropped; `..` is kept. What is parsed from a printed path is the path.
-/

/-- A path, by its components. -/
structure PosixPath where
  absolute : Bool
  parts : List (List Char)
  deriving DecidableEq

namespace PosixPath

/-- A component that stays. -/
def isPart (part : List Char) : Bool := part ≠ [] ∧ part ≠ ['.']

/-- The components of a text. -/
def components (cs : List Char) : List (List Char) := (cs.splitOn '/').filter isPart

def parse (cs : List Char) : PosixPath where
  absolute := cs.head? = some '/'
  parts := components cs

/-- `a / b`: an absolute path replaces what it is joined to. -/
def join (a b : PosixPath) : PosixPath :=
  if b.absolute then b else ⟨a.absolute, a.parts ++ b.parts⟩

/-- The text of a path. -/
def asPosix (p : PosixPath) : List Char :=
  if p.parts = [] ∧ p.absolute = false then ['.']
  else (if p.absolute then ['/'] else []) ++ ['/'].intercalate p.parts

/-! ## Components -/

@[simp] theorem components_nil : components [] = [] := rfl

theorem components_append_sep (a b : List Char) :
    components (a ++ '/' :: b) = components a ++ components b := by
  unfold components
  rw [List.splitOn_append_cons_self, List.filter_append]

/-- Leading separators do not matter. -/
@[simp] theorem components_sep (cs : List Char) : components ('/' :: cs) = components cs :=
  components_append_sep [] cs

theorem components_dropWhile_sep (cs : List Char) :
    components (cs.dropWhile (· == '/')) = components cs := by
  induction cs with
  | nil => rfl
  | cons c cs ih =>
    by_cases hc : c = '/'
    · rw [hc, components_sep, List.dropWhile_cons_of_pos (by decide), ih]
    · rw [List.dropWhile_cons_of_neg (by simpa using hc)]

/-- A text without separators is one component. -/
theorem components_part {part : List Char} (hsep : '/' ∉ part) (hpart : isPart part = true) :
    components part = [part] := by
  rw [components, List.splitOn_eq_singleton hsep, List.filter_cons_of_pos hpart, List.filter_nil]

theorem components_intercalate {parts : List (List Char)}
    (h : ∀ part ∈ parts, '/' ∉ part ∧ isPart part = true) :
    components (['/'].intercalate parts) = parts := by
  by_cases hne : parts = []
  · subst hne
    rfl
  · unfold components
    rw [List.splitOn_intercalate '/' (fun part hpart => (h part hpart).1) hne,
      List.filter_eq_self.mpr fun part hpart => (h part hpart).2]

/-! ## Joining -/

theorem join_parse_of_absolute {cs : List Char} (a : PosixPath) (h : cs.head? = some '/') :
    a.join (parse cs) = ⟨true, components cs⟩ := by
  rw [join, parse, if_pos (decide_eq_true h), decide_eq_true h]

theorem join_parse_of_relative {cs : List Char} (a : PosixPath) (h : cs.head? ≠ some '/') :
    a.join (parse cs) = ⟨a.absolute, a.parts ++ components cs⟩ := by
  rw [join, parse, decide_eq_false h]
  rfl

theorem length_join_parse_le (a : PosixPath) (cs : List Char) :
    (a.join (parse cs)).parts.length ≤ a.parts.length + (components cs).length := by
  by_cases h : cs.head? = some '/'
  · rw [join_parse_of_absolute a h]
    exact Nat.le_add_left _ _
  · rw [join_parse_of_relative a h]
    exact Nat.le_of_eq List.length_append

/-! ## Printing -/

/-- Every component is one that a text can have. -/
def IsCanonical (p : PosixPath) : Prop := ∀ part ∈ p.parts, '/' ∉ part ∧ isPart part = true

/-- The text of some components begins with that of the first. -/
theorem head?_intercalate {part : List Char} (hpart : isPart part = true)
    (parts : List (List Char)) : (['/'].intercalate (part :: parts)).head? = part.head? := by
  have hne : part ≠ [] := (of_decide_eq_true hpart).1
  obtain ⟨c, cs, rfl⟩ := List.exists_cons_of_ne_nil hne
  cases parts with
  | nil => simp [List.intercalate]
  | cons other parts => simp [List.intercalate]

theorem parse_asPosix {p : PosixPath} (h : p.IsCanonical) : parse p.asPosix = p := by
  obtain ⟨absolute, parts⟩ := p
  have hcomponents : components (['/'].intercalate parts) = parts := components_intercalate h
  cases absolute with
  | true =>
    have htext : asPosix ⟨true, parts⟩ = '/' :: ['/'].intercalate parts := by simp [asPosix]
    rw [htext, parse, components_sep, hcomponents]
    rfl
  | false =>
    rcases parts with _ | ⟨part, parts⟩
    · decide
    have htext : asPosix ⟨false, part :: parts⟩ = ['/'].intercalate (part :: parts) := by
      simp [asPosix]
    obtain ⟨hsep, hpart⟩ := h part List.mem_cons_self
    have hhead : part.head? ≠ some '/' := fun hhead => hsep (List.mem_of_head? hhead)
    rw [htext, parse, head?_intercalate hpart, hcomponents, decide_eq_false hhead]

end PosixPath
