import Mathlib.Data.List.Basic
import Mathlib.Data.List.Infix
import Mathlib.Tactic.Common

/-!
# Marked-up text

The HTML of chat messages: characters, the entities of `&`, `<` and `>`, and the elements `b` and
`code`. A text is well formed if it is the rendering of a list of tokens whose tags nest.

A `Piece` is a part of a template together with how it is written: a character as it stands, a
character as its entity, or an element around characters as they stand. `reads_take_iff` says when
the beginning of a written template is well formed and shows what the template means.
-/

namespace Markup

inductive Tag
  | b
  | code
  deriving DecidableEq

def Tag.name : Tag → List Char
  | b => ['b']
  | code => ['c', 'o', 'd', 'e']

inductive Token
  | char (c : Char)
  | opening (t : Tag)
  | closing (t : Tag)
  deriving DecidableEq

/-- A character as it stands in a text: the ones with a meaning of their own as their entities. -/
def entity (c : Char) : List Char :=
  if c = '&' then ['&', 'a', 'm', 'p', ';']
  else if c = '<' then ['&', 'l', 't', ';']
  else if c = '>' then ['&', 'g', 't', ';']
  else [c]

/-- The character must not stand in a text itself. -/
def special (c : Char) : Bool := c = '&' || c = '<' || c = '>'

def Token.render : Token → List Char
  | char c => entity c
  | opening t => '<' :: (t.name ++ ['>'])
  | closing t => '<' :: '/' :: (t.name ++ ['>'])

/-- The tags close in the order they opened, above the open ones of a stack. -/
def nested : List Tag → List Token → Bool
  | stack, [] => stack.isEmpty
  | stack, .char _ :: tokens => nested stack tokens
  | stack, .opening t :: tokens => nested (t :: stack) tokens
  | [], .closing _ :: _ => false
  | t' :: stack, .closing t :: tokens => t = t' && nested stack tokens

theorem entity_of_not_special {c : Char} (h : special c = false) : entity c = [c] := by
  simp [special] at h
  simp [entity, h]

theorem one_lt_length_entity {c : Char} (h : special c = true) : 1 < (entity c).length := by
  simp [special] at h
  rcases h with (rfl | rfl) | rfl <;> decide

theorem length_entity_pos (c : Char) : 0 < (entity c).length := by
  by_cases h : special c = true
  · exact (Nat.zero_lt_one).trans (one_lt_length_entity h)
  · rw [entity_of_not_special (by simpa using h)]
    exact Nat.zero_lt_one

/-! ## Written templates -/

/-- A token of a template, with the characters that are written for it. -/
structure Mark where
  token : Token
  written : List Char
  deriving DecidableEq

/-- A part of a template. -/
inductive Piece
  /-- a character, written as it stands -/
  | copied (c : Char)
  /-- a character, written as its entity -/
  | escaped (c : Char)
  /-- an element, with its content written as it stands -/
  | element (t : Tag) (content : List Char)
  deriving DecidableEq

def Mark.copied (c : Char) : Mark where
  token := .char c
  written := [c]

def Mark.faithful (token : Token) : Mark where
  token := token
  written := token.render

namespace Piece

/-- What is written for a piece. -/
def text : Piece → List Char
  | copied c => [c]
  | escaped c => entity c
  | element t content =>
    '<' :: (t.name ++ ['>']) ++ content ++ '<' :: '/' :: (t.name ++ ['>'])

def marks : Piece → List Mark
  | copied c => [.copied c]
  | escaped c => [.faithful (.char c)]
  | element t content =>
    .faithful (.opening t) :: (content.map Mark.copied ++ [.faithful (.closing t)])

/-- Nothing in the piece is written as it stands that must not be. -/
def Clean : Piece → Prop
  | copied c => special c = false
  | escaped _ => True
  | element _ content => ∀ c ∈ content, special c = false

theorem marks_written (p : Piece) : p.marks.flatMap Mark.written = p.text := by
  cases p with
  | copied c => rfl
  | escaped c => simp [marks, text, Mark.faithful, Token.render]
  | element t content =>
    have hcontent : (content.map Mark.copied).flatMap Mark.written = content := by
      induction content with
      | nil => rfl
      | cons c content ih => simp [ih, Mark.copied]
    simp [marks, text, hcontent, Mark.faithful, Token.render]

end Piece

/-- A text, given as the beginning of what is written for a template, is well formed and says the
same: it consists of whole marks of the template, it reads as their tokens, and the tags nest. -/
def Reads (pieces : List Piece) (text : List Char) : Prop :=
  ∃ kept, kept <+: pieces.flatMap Piece.marks ∧ kept.flatMap Mark.written = text ∧
    (kept.map Mark.token).flatMap Token.render = text ∧ nested [] (kept.map Mark.token) = true

/-- With `n` characters to spend on the pieces in order, every piece that is paid for is clean, and
the money runs out between two pieces. -/
def Affordable : ℕ → List Piece → Prop
  | _, [] => True
  | n, p :: pieces =>
    if p.text.length ≤ n then p.Clean ∧ Affordable (n - p.text.length) pieces else n = 0

instance (p : Piece) : Decidable p.Clean :=
  match p with
  | .copied c => inferInstanceAs (Decidable (special c = false))
  | .escaped _ => inferInstanceAs (Decidable True)
  | .element _ content => inferInstanceAs (Decidable (∀ c ∈ content, special c = false))

instance decidableAffordable : (n : ℕ) → (pieces : List Piece) → Decidable (Affordable n pieces)
  | _, [] => inferInstanceAs (Decidable True)
  | n, p :: pieces =>
    have := decidableAffordable (n - p.text.length) pieces
    inferInstanceAs (Decidable (if p.text.length ≤ n then p.Clean ∧ Affordable _ pieces else n = 0))

/-! ## Marks -/

/-- A mark is written as its token reads, or in fewer characters. -/
def Mark.Fair (m : Mark) : Prop :=
  m.written = m.token.render ∨ m.written.length < m.token.render.length

theorem Piece.fair {p : Piece} {m : Mark} (h : m ∈ p.marks) : m.Fair := by
  have hcopied : ∀ c, (Mark.copied c).Fair := by
    intro c
    by_cases hc : special c = true
    · exact .inr (one_lt_length_entity hc)
    · exact .inl (entity_of_not_special (by simpa using hc)).symm
  cases p with
  | copied c =>
    rw [List.mem_singleton.mp h]
    exact hcopied c
  | escaped c =>
    rw [List.mem_singleton.mp h]
    exact .inl rfl
  | element t content =>
    rcases List.mem_cons.mp h with rfl | h
    · exact .inl rfl
    rcases List.mem_append.mp h with h | h
    · obtain ⟨c, -, rfl⟩ := List.mem_map.mp h
      exact hcopied c
    · rw [List.mem_singleton.mp h]
      exact .inl rfl

theorem length_written_le {kept : List Mark} (hfair : ∀ m ∈ kept, m.Fair) :
    (kept.flatMap Mark.written).length ≤
      ((kept.map Mark.token).flatMap Token.render).length := by
  induction kept with
  | nil => exact le_rfl
  | cons m kept ih =>
    have hrest := ih fun m' hm => hfair m' (List.mem_cons_of_mem _ hm)
    have hm : m.written.length ≤ m.token.render.length := by
      rcases hfair m (List.mem_cons_self ..) with h | h
      · rw [h]
      · exact h.le
    simp only [List.flatMap_cons, List.map_cons, List.length_append]
    omega

/-- Marks that take as many characters as their tokens are written as their tokens read. -/
theorem written_eq_render {kept : List Mark} (hfair : ∀ m ∈ kept, m.Fair)
    (h : ((kept.map Mark.token).flatMap Token.render).length =
      (kept.flatMap Mark.written).length) : ∀ m ∈ kept, m.written = m.token.render := by
  induction kept with
  | nil => simp
  | cons m kept ih =>
    have hfair' : ∀ m' ∈ kept, m'.Fair := fun m' hm => hfair m' (List.mem_cons_of_mem _ hm)
    have hrest := length_written_le hfair'
    simp only [List.flatMap_cons, List.map_cons, List.length_append] at h
    have hm : m.written = m.token.render := by
      rcases hfair m (List.mem_cons_self ..) with hm | hm
      · exact hm
      · omega
    rw [hm] at h
    intro m' hm'
    rcases List.mem_cons.mp hm' with rfl | hm'
    · exact hm
    · exact ih hfair' (by omega) m' hm'

theorem render_eq_written {kept : List Mark} (h : ∀ m ∈ kept, m.written = m.token.render) :
    (kept.map Mark.token).flatMap Token.render = kept.flatMap Mark.written := by
  rw [List.flatMap_map]
  exact List.flatMap_congr fun m hm => (h m hm).symm

/-! ## Whole pieces -/

namespace Piece

/-- All marks of a clean piece read as they are written. -/
theorem clean_iff (p : Piece) : p.Clean ↔ ∀ m ∈ p.marks, m.written = m.token.render := by
  have hcopied : ∀ c, special c = false ↔ (Mark.copied c).written = (Mark.copied c).token.render := by
    intro c
    constructor
    · intro h
      exact (entity_of_not_special h).symm
    · intro h
      by_contra hc
      have hlt := one_lt_length_entity (by simpa using hc)
      have : (Mark.copied c).written.length = (entity c).length := congrArg List.length h
      rw [← this] at hlt
      exact absurd hlt (lt_irrefl _)
  cases p with
  | copied c => simpa [Clean, marks] using hcopied c
  | escaped c => simp [Clean, marks, Mark.faithful]
  | element t content =>
    simp only [Clean, marks, List.mem_cons, List.mem_append, List.mem_map]
    constructor
    · rintro h m (rfl | ⟨c, hc, rfl⟩ | rfl | hm)
      · rfl
      · exact (hcopied c).mp (h c hc)
      · rfl
      · cases hm
    · intro h c hc
      exact (hcopied c).mpr (h _ (.inr (.inl ⟨c, hc, rfl⟩)))

theorem written_ne_nil {p : Piece} {m : Mark} (h : m ∈ p.marks) : m.written ≠ [] := by
  cases p with
  | copied c =>
    rw [List.mem_singleton.mp h]
    exact List.cons_ne_nil _ _
  | escaped c =>
    rw [List.mem_singleton.mp h]
    exact List.ne_nil_of_length_pos (length_entity_pos c)
  | element t content =>
    rcases List.mem_cons.mp h with rfl | h
    · exact List.cons_ne_nil _ _
    rcases List.mem_append.mp h with h | h
    · obtain ⟨c, -, rfl⟩ := List.mem_map.mp h
      exact List.cons_ne_nil _ _
    · rw [List.mem_singleton.mp h]
      exact List.cons_ne_nil _ _

end Piece

theorem nested_chars (stack : List Tag) (cs : List Char) (tokens : List Token) :
    nested stack (cs.map Token.char ++ tokens) = nested stack tokens := by
  induction cs with
  | nil => rfl
  | cons c cs ih => exact ih

/-- A whole piece leaves the open tags as they were. -/
theorem Piece.nested_marks (p : Piece) (stack : List Tag) (tokens : List Token) :
    nested stack (p.marks.map Mark.token ++ tokens) = nested stack tokens := by
  cases p with
  | copied c => rfl
  | escaped c => rfl
  | element t content =>
    have hcontent : (content.map Mark.copied).map Mark.token = content.map Token.char := by
      rw [List.map_map]
      rfl
    show nested (t :: stack)
      ((content.map Mark.copied ++ [Mark.faithful (.closing t)]).map Mark.token ++ tokens) = _
    rw [List.map_append, hcontent, List.append_assoc, nested_chars]
    simp [Mark.faithful, nested]

/-- Only the empty beginning of a piece nests, short of the whole piece. -/
theorem Piece.eq_nil_of_prefix (p : Piece) {kept : List Mark} (h : kept <+: p.marks)
    (hne : kept ≠ p.marks) (hn : nested [] (kept.map Mark.token) = true) : kept = [] := by
  have hsingle : ∀ {x : Mark}, kept <+: [x] → kept ≠ [x] → kept = [] := by
    intro x hx hxne
    rcases kept with - | ⟨m, kept⟩
    · rfl
    · obtain ⟨rfl, htail⟩ := List.cons_prefix_cons.mp hx
      rw [List.prefix_nil.mp htail] at hxne
      exact absurd rfl hxne
  cases p with
  | copied c => exact hsingle h hne
  | escaped c => exact hsingle h hne
  | element t content =>
    rcases kept with - | ⟨m, kept⟩
    · rfl
    -- the element is open, and only its content can follow
    obtain ⟨rfl, htail⟩ := List.cons_prefix_cons.mp h
    rcases List.prefix_concat_iff.mp htail with heq | hcontent
    · rw [heq] at hne
      exact absurd rfl hne
    · obtain ⟨cs, -, rfl⟩ := List.prefix_map_iff.mp hcontent
      have hopen := nested_chars [t] cs []
      rw [List.append_nil] at hopen
      have htokens : nested [t] ((cs.map Mark.copied).map Mark.token) = true := hn
      rw [List.map_map] at htokens
      rw [show Mark.token ∘ Mark.copied = Token.char from rfl, hopen] at htokens
      cases htokens

/-! ## Beginnings of a template -/

theorem Reads.nil (pieces : List Piece) : Reads pieces [] :=
  ⟨[], List.nil_prefix, rfl, rfl, rfl⟩

theorem reads_iff {pieces : List Piece} {text : List Char} :
    Reads pieces text ↔ ∃ kept, kept <+: pieces.flatMap Piece.marks ∧
      kept.flatMap Mark.written = text ∧ (∀ m ∈ kept, m.written = m.token.render) ∧
      nested [] (kept.map Mark.token) = true := by
  constructor
  · rintro ⟨kept, hpre, hwritten, hrender, hnested⟩
    refine ⟨kept, hpre, hwritten, written_eq_render ?_ (by rw [hrender, hwritten]), hnested⟩
    intro m hm
    obtain ⟨p, -, hp⟩ := List.mem_flatMap.mp (hpre.subset hm)
    exact p.fair hp
  · rintro ⟨kept, hpre, hwritten, hmarks, hnested⟩
    exact ⟨kept, hpre, hwritten, (render_eq_written hmarks).trans hwritten, hnested⟩

/-- A beginning of the marks of a piece that takes as many characters is the whole piece. -/
theorem Piece.eq_of_length_le (p : Piece) {kept : List Mark} (h : kept <+: p.marks)
    (hlen : p.text.length ≤ (kept.flatMap Mark.written).length) : kept = p.marks := by
  obtain ⟨rest, hrest⟩ := h
  rcases rest with - | ⟨m, rest⟩
  · rwa [List.append_nil] at hrest
  · have hm : m ∈ p.marks := hrest ▸ List.mem_append_right _ (List.mem_cons_self ..)
    have hpos := List.length_pos_iff.mpr (p.written_ne_nil hm)
    rw [← p.marks_written, ← hrest, List.flatMap_append, List.flatMap_cons, List.length_append,
      List.length_append] at hlen
    omega

/-- A beginning of a template that takes the characters of the first piece has that piece whole. -/
theorem exists_append_of_prefix (p : Piece) {kept rest : List Mark}
    (h : kept <+: p.marks ++ rest) (hlen : p.text.length ≤ (kept.flatMap Mark.written).length) :
    ∃ kept', kept = p.marks ++ kept' ∧ kept' <+: rest := by
  rcases List.prefix_or_prefix_of_prefix h (List.prefix_append _ _) with hle | ⟨kept', rfl⟩
  · rw [p.eq_of_length_le hle hlen]
    exact ⟨[], (List.append_nil _).symm, List.nil_prefix⟩
  · exact ⟨kept', rfl, (List.prefix_append_right_inj _).mp h⟩

theorem reads_cons {p : Piece} {pieces : List Piece} {text : List Char} :
    Reads (p :: pieces) (p.text ++ text) ↔ p.Clean ∧ Reads pieces text := by
  rw [reads_iff, reads_iff]
  constructor
  · rintro ⟨kept, hpre, hwritten, hmarks, hnested⟩
    obtain ⟨kept', rfl, hpre'⟩ := exists_append_of_prefix p hpre (by rw [hwritten]; simp)
    rw [List.flatMap_append, p.marks_written] at hwritten
    rw [List.map_append, p.nested_marks] at hnested
    exact ⟨p.clean_iff.mpr fun m hm => hmarks m (List.mem_append_left _ hm), kept', hpre',
      List.append_cancel_left hwritten, fun m hm => hmarks m (List.mem_append_right _ hm), hnested⟩
  · rintro ⟨hclean, kept, hpre, hwritten, hmarks, hnested⟩
    refine ⟨p.marks ++ kept, ?_, ?_, ?_, ?_⟩
    · exact (List.prefix_append_right_inj _).mpr hpre
    · rw [List.flatMap_append, p.marks_written, hwritten]
    · intro m hm
      rcases List.mem_append.mp hm with hm | hm
      · exact p.clean_iff.mp hclean m hm
      · exact hmarks m hm
    · rw [List.map_append, p.nested_marks]
      exact hnested

/-- Short of the first piece, only the empty text is well formed. -/
theorem reads_of_lt {p : Piece} {pieces : List Piece} {text : List Char}
    (hlt : text.length < p.text.length) : Reads (p :: pieces) text ↔ text = [] := by
  constructor
  · intro h
    obtain ⟨kept, hpre, hwritten, -, hnested⟩ := h
    rcases List.prefix_or_prefix_of_prefix hpre (List.prefix_append _ _) with hle | ⟨kept', rfl⟩
    · have hne : kept ≠ p.marks := by
        rintro rfl
        rw [p.marks_written] at hwritten
        rw [hwritten] at hlt
        exact absurd hlt (lt_irrefl _)
      rw [← hwritten, p.eq_nil_of_prefix hle hne hnested, List.flatMap_nil]
    · rw [← hwritten, List.flatMap_append, p.marks_written, List.length_append] at hlt
      omega
  · rintro rfl
    exact .nil _

/-- **Cut templates.** The first `n` characters of a written template are well formed and say the
same exactly if the pieces are affordable. -/
theorem reads_take_iff (n : ℕ) (pieces : List Piece) :
    Reads pieces ((pieces.flatMap Piece.text).take n) ↔ Affordable n pieces := by
  induction pieces generalizing n with
  | nil => simpa [Affordable] using Reads.nil []
  | cons p pieces ih =>
    unfold Affordable
    rw [List.flatMap_cons, List.take_append]
    by_cases hn : p.text.length ≤ n
    · rw [if_pos hn, List.take_of_length_le hn, reads_cons, ih]
    · rw [if_neg hn, Nat.sub_eq_zero_of_le (by omega), List.take_zero, List.append_nil,
        reads_of_lt (by rw [List.length_take]; omega), List.take_eq_nil_iff]
      have : p.text ≠ [] := by
        rintro h
        rw [h] at hn
        exact hn (Nat.zero_le _)
      simp [this]

/-- Where nothing is cut, only what the pieces say matters. -/
theorem affordable_of_length_le {n : ℕ} {pieces : List Piece}
    (h : (pieces.flatMap Piece.text).length ≤ n) : Affordable n pieces ↔ ∀ p ∈ pieces, p.Clean := by
  induction pieces generalizing n with
  | nil => simp [Affordable]
  | cons p pieces ih =>
    rw [List.flatMap_cons, List.length_append] at h
    unfold Affordable
    rw [if_pos (by omega), ih (by omega), List.forall_mem_cons]

end Markup
