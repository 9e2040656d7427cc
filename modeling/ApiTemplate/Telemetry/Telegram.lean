import ApiTemplate.Stream.Markup
import ApiTemplate.Telemetry.Http
import Mathlib.Algebra.Order.Field.Rat
import Mathlib.Data.List.DropRight
import Mathlib.Data.Rat.Floor

/-!
# Telegram messages

`TelegramWriter._format` and `_escape`. `pieces` lists the parts of the message template for an
event, with the way each is written; the message is the beginning of what is written for them.
-/

namespace ApiTemplate.Telemetry.TelegramWriter

open Markup

/-! ## The text -/

/-- `_LEVEL_EMOJI` -/
def levelEmoji : String → Option String
  | "DEBUG" => some "🔧"
  | "INFO" => some "ℹ️"
  | "WARNING" => some "⚠️"
  | "ERROR" => some "🛑"
  | "CRITICAL" => some "🔥"
  | _ => none

/-- `_MAX_TEXT` -/
def MAX_TEXT : ℕ := 3800

/-- `str.replace` of one character. -/
def replaceChar (c : Char) (new : String) (text : List Char) : List Char :=
  text.flatMap fun x => if x = c then new.toList else [x]

/-- `_escape` -/
def escape (text : List Char) : List Char :=
  replaceChar '>' "&gt;" (replaceChar '<' "&lt;" (replaceChar '&' "&amp;" text))

/-- Round to the nearest integer, and to the even one of two. -/
def roundHalfEven (x : ℚ) : ℤ :=
  let n := ⌊x⌋
  if x - n < 1 / 2 then n else if 1 / 2 < x - n then n + 1 else if n % 2 = 0 then n else n + 1

/-- The format `.0f`. -/
def fixed (x : ℚ) : String :=
  if x < 0 then "-" ++ toString (roundHalfEven (-x)) else toString (roundHalfEven x)

/-- `value or ''` -/
def orEmpty (value : Option String) : List Char := (value.getD "").toList

/-- An optional string that is neither `None` nor empty. -/
def truthy (value : Option String) : Bool := value.any (· ≠ "")

/-- The emoji of the level. -/
def emoji (event : TelemetryEvent) : List Char := ((levelEmoji event.level).getD "•").toList

def statusText (event : TelemetryEvent) : List Char :=
  match event.statusCode with
  | some code => if code = 0 then [] else (" → " ++ toString code).toList
  | none => []

/-- The line of the request, where the event has one. -/
def requestLine (event : TelemetryEvent) : List Char :=
  stripText (orEmpty event.method ++ [' '] ++ escape (orEmpty event.url) ++ statusText event)

/-- The parts of the line that says who and how long. -/
def metaParts (event : TelemetryEvent) : List (List Char) :=
  (event.execMs.map fun x => (fixed x ++ "ms").toList).toList ++
    (event.userId.map fun u => "user=".toList ++ u.toList).toList ++
    if truthy event.ip then ["ip=".toList ++ orEmpty event.ip] else []

/-- The lines of a message that is not the system's. -/
def lines (event : TelemetryEvent) : List (List Char) :=
  [emoji event ++ " <b>".toList ++ event.level.toList ++ "</b> · <code>".toList ++
    event.service.toList ++ "</code>".toList] ++
  (if truthy event.method || truthy event.url then [requestLine event] else []) ++
  (if metaParts event ≠ [] then [(" · ".toList).intercalate (metaParts event)] else []) ++
  (if truthy event.traceId then
    ["trace_id=<code>".toList ++ orEmpty event.traceId ++ "</code>".toList] else []) ++
  if truthy event.message then [escape (orEmpty event.message)] else []

/-- `_format` -/
def format (event : TelemetryEvent) : String :=
  if event.kind = KIND_SYSTEM then
    String.ofList ((emoji event ++ " <b>SYSTEM</b>\n".toList ++
      escape (orEmpty event.message)).take MAX_TEXT)
  else String.ofList ((['\n'].intercalate (lines event)).take MAX_TEXT)

/-! ## The template -/

def copied (text : List Char) : List Piece := text.map Piece.copied

def escaped (text : List Char) : List Piece := text.map Piece.escaped

/-- The piece is a blank. -/
def isBlank : Piece → Bool
  | .copied c => isSpace c
  | .escaped c => isSpace c
  | .element _ _ => false

def requestPieces (event : TelemetryEvent) : List Piece :=
  ((copied (orEmpty event.method) ++ copied [' '] ++ escaped (orEmpty event.url) ++
    copied (statusText event)).dropWhile isBlank).rdropWhile isBlank

def linePieces (event : TelemetryEvent) : List (List Piece) :=
  [copied (emoji event ++ [' ']) ++ [.element .b event.level.toList] ++ copied " · ".toList ++
    [.element .code event.service.toList]] ++
  (if truthy event.method || truthy event.url then [requestPieces event] else []) ++
  (if metaParts event ≠ [] then
    [copied ((" · ".toList).intercalate (metaParts event))] else []) ++
  (if truthy event.traceId then
    [copied "trace_id=".toList ++ [.element .code (orEmpty event.traceId)]] else []) ++
  if truthy event.message then [escaped (orEmpty event.message)] else []

/-- The parts of the message template for an event: what the template and the fields that it
copies say, what the fields that it escapes say, and the elements around `SYSTEM`, the level, the
service and the trace id. -/
def pieces (event : TelemetryEvent) : List Piece :=
  if event.kind = KIND_SYSTEM then
    copied (emoji event ++ [' ']) ++ [.element .b "SYSTEM".toList] ++ copied ['\n'] ++
      escaped (orEmpty event.message)
  else [Piece.copied '\n'].intercalate (linePieces event)

/-! ## The text is the beginning of the written template -/

theorem replaceChar_append (c : Char) (new : String) (s t : List Char) :
    replaceChar c new (s ++ t) = replaceChar c new s ++ replaceChar c new t :=
  List.flatMap_append

theorem replaceChar_of_ne {c x : Char} (new : String) (h : x ≠ c) : replaceChar c new [x] = [x] :=
  (List.flatMap_singleton _ _).trans (if_neg h)

/-- The three replacements in a row write each character as its entity. -/
theorem escape_eq (text : List Char) : escape text = text.flatMap entity := by
  induction text with
  | nil => rfl
  | cons c text ih =>
    have hc : escape [c] = entity c := by
      by_cases hamp : c = '&'
      · subst hamp
        decide
      by_cases hlt : c = '<'
      · subst hlt
        decide
      by_cases hgt : c = '>'
      · subst hgt
        decide
      rw [entity, if_neg hamp, if_neg hlt, if_neg hgt, escape, replaceChar_of_ne _ hamp,
        replaceChar_of_ne _ hlt, replaceChar_of_ne _ hgt]
    have happend : escape ([c] ++ text) = escape [c] ++ escape text := by
      simp only [escape, replaceChar_append]
    rw [← List.singleton_append, happend, hc, ih]
    rfl

theorem text_copied (text : List Char) : (copied text).flatMap Piece.text = text := by
  induction text with
  | nil => rfl
  | cons c text ih => exact congrArg (c :: ·) ih

theorem text_escaped (text : List Char) : (escaped text).flatMap Piece.text = escape text := by
  rw [escape_eq, escaped, List.flatMap_map]
  rfl

theorem text_intercalate (sep : List Piece) (ls : List (List Piece)) :
    (sep.intercalate ls).flatMap Piece.text =
      (sep.flatMap Piece.text).intercalate (ls.map fun l => l.flatMap Piece.text) := by
  induction ls with
  | nil => rfl
  | cons l ls ih =>
    rcases ls with - | ⟨l', ls⟩
    · simp
    · rw [List.intercalate_cons_cons, List.flatMap_append, List.flatMap_append, ih]
      simp only [List.map_cons]
      rw [List.intercalate_cons_cons]

/-! ## Blanks -/

theorem isSpace_of_special {c : Char} (h : special c = true) : isSpace c = false := by
  simp [special] at h
  rcases h with (rfl | rfl) | rfl <;> decide

/-- A blank is written as itself. -/
theorem text_of_isBlank {p : Piece} (h : isBlank p = true) :
    ∃ c, isSpace c = true ∧ p.text = [c] := by
  cases p with
  | copied c => exact ⟨c, h, rfl⟩
  | escaped c =>
    refine ⟨c, h, entity_of_not_special ?_⟩
    by_contra hs
    have hspace : isSpace c = true := h
    rw [isSpace_of_special (by simpa using hs)] at hspace
    cases hspace
  | element t content => cases h

/-- Any other piece is written between two characters that are no blanks. -/
theorem text_of_not_isBlank {p : Piece} (h : isBlank p = false) :
    (∃ c cs, isSpace c = false ∧ p.text = c :: cs) ∧
      ∃ c cs, isSpace c = false ∧ p.text = cs ++ [c] := by
  cases p with
  | copied c => exact ⟨⟨c, [], h, rfl⟩, c, [], h, rfl⟩
  | escaped c =>
    by_cases hs : special c = true
    · simp [special] at hs
      rcases hs with (rfl | rfl) | rfl
      · exact ⟨⟨'&', _, by decide, rfl⟩, ';', ['&', 'a', 'm', 'p'], by decide, rfl⟩
      · exact ⟨⟨'&', _, by decide, rfl⟩, ';', ['&', 'l', 't'], by decide, rfl⟩
      · exact ⟨⟨'&', _, by decide, rfl⟩, ';', ['&', 'g', 't'], by decide, rfl⟩
    · have htext : (Piece.escaped c).text = [c] := entity_of_not_special (by simpa using hs)
      rw [htext]
      exact ⟨⟨c, [], h, rfl⟩, c, [], h, rfl⟩
  | element t content =>
    refine ⟨⟨'<', _, by decide, rfl⟩, '>',
      '<' :: (t.name ++ ['>']) ++ content ++ '<' :: '/' :: t.name, by decide, ?_⟩
    simp [Piece.text]

theorem text_dropWhile (ps : List Piece) :
    (ps.dropWhile isBlank).flatMap Piece.text =
      (ps.flatMap Piece.text).dropWhile isSpace := by
  induction ps with
  | nil => rfl
  | cons p ps ih =>
    by_cases hp : isBlank p = true
    · obtain ⟨c, hc, htext⟩ := text_of_isBlank hp
      rw [List.dropWhile_cons_of_pos hp, ih, List.flatMap_cons, htext]
      exact (List.dropWhile_cons_of_pos hc).symm
    · obtain ⟨⟨c, cs, hc, htext⟩, -⟩ := text_of_not_isBlank (by simpa using hp)
      rw [List.dropWhile_cons_of_neg hp, List.flatMap_cons, htext, List.cons_append,
        List.dropWhile_cons_of_neg (by simp [hc])]

theorem text_rdropWhile (ps : List Piece) :
    (ps.rdropWhile isBlank).flatMap Piece.text =
      (ps.flatMap Piece.text).rdropWhile isSpace := by
  induction ps using List.reverseRecOn with
  | nil => simp
  | append_singleton ps p ih =>
    rw [List.flatMap_append, List.flatMap_singleton]
    by_cases hp : isBlank p = true
    · obtain ⟨c, hc, htext⟩ := text_of_isBlank hp
      rw [List.rdropWhile_concat_pos _ _ _ hp, ih, htext, List.rdropWhile_concat_pos _ _ _ hc]
    · obtain ⟨-, c, cs, hc, htext⟩ := text_of_not_isBlank (by simpa using hp)
      rw [List.rdropWhile_concat_neg _ _ _ hp, List.flatMap_append, List.flatMap_singleton, htext,
        ← List.append_assoc, List.rdropWhile_concat_neg _ _ _ (by simp [hc])]

/-! ## The message -/

theorem text_requestPieces (event : TelemetryEvent) :
    (requestPieces event).flatMap Piece.text = requestLine event := by
  have hstrip : ∀ text, stripText text = (text.dropWhile isSpace).rdropWhile isSpace :=
    fun _ => rfl
  unfold requestPieces requestLine
  rw [text_rdropWhile, text_dropWhile, hstrip]
  simp only [List.flatMap_append, text_copied, text_escaped]

theorem text_linePieces (event : TelemetryEvent) :
    (linePieces event).map (fun l => l.flatMap Piece.text) = lines event := by
  have hhead : (copied (emoji event ++ [' ']) ++ [Piece.element .b event.level.toList] ++
      copied " · ".toList ++ [Piece.element .code event.service.toList]).flatMap Piece.text =
      emoji event ++ " <b>".toList ++ event.level.toList ++ "</b> · <code>".toList ++
        event.service.toList ++ "</code>".toList := by
    simp [text_copied, Piece.text, Tag.name]
  have htrace : (copied "trace_id=".toList ++
      [Piece.element .code (orEmpty event.traceId)]).flatMap Piece.text =
      "trace_id=<code>".toList ++ orEmpty event.traceId ++ "</code>".toList := by
    simp [text_copied, Piece.text, Tag.name]
  unfold linePieces lines
  simp only [List.map_append, apply_ite (List.map fun l : List Piece => l.flatMap Piece.text),
    List.map_singleton, List.map_nil, hhead, htrace, text_requestPieces, text_copied, text_escaped]

/-- **The message** is the beginning of what is written for its pieces. -/
theorem format_eq (event : TelemetryEvent) :
    (format event).toList = ((pieces event).flatMap Piece.text).take MAX_TEXT := by
  unfold format pieces
  by_cases hk : event.kind = KIND_SYSTEM
  · rw [if_pos hk, if_pos hk, String.toList_ofList]
    simp [text_copied, text_escaped, Piece.text, Tag.name]
  · rw [if_neg hk, if_neg hk, String.toList_ofList, text_intercalate, text_linePieces]
    rfl

/-- Telegram takes the message: it is short enough, and it is well-formed HTML that says what the
template says for the event. -/
def WellFormed (event : TelemetryEvent) : Prop :=
  (format event).length ≤ 4096 ∧ Reads (pieces event) (format event).toList

theorem length_format_le (event : TelemetryEvent) : (format event).length ≤ MAX_TEXT := by
  rw [← String.length_toList, format_eq, List.length_take]
  exact Nat.min_le_left _ _

/-- **Which messages are well formed.** Those whose pieces are affordable: each piece that the limit
leaves room for copies no `<`, `>` or `&`, and the limit falls between two pieces. -/
theorem wellFormed_iff (event : TelemetryEvent) :
    WellFormed event ↔ Affordable MAX_TEXT (pieces event) := by
  unfold WellFormed
  rw [format_eq, reads_take_iff]
  constructor
  · intro h
    exact h.2
  · intro h
    exact ⟨(length_format_le event).trans (by decide), h⟩

/-- The address of a forwarded request opens an element of its own. -/
theorem format_not_wellFormed : ¬ ∀ event, WellFormed event := by
  intro h
  have hreads := (h { service := "api", epoch := 0, ip := some "<i>" }).2
  have hpieces : pieces { service := "api", epoch := 0, ip := some "<i>" } =
      copied ['ℹ', '️', ' '] ++ [Piece.element .b ['I', 'N', 'F', 'O']] ++ copied [' ', '·', ' '] ++
        [Piece.element .code ['a', 'p', 'i']] ++ copied ['\n', 'i', 'p', '=', '<', 'i', '>'] := by
    simp [pieces, linePieces, metaParts, truthy, orEmpty, emoji, levelEmoji, copied, KIND_SYSTEM,
      KIND_HTTP_REQUEST]
  rw [format_eq, reads_take_iff, hpieces] at hreads
  simp [copied, Affordable, MAX_TEXT, Piece.text, Piece.Clean, special, Tag.name] at hreads

end ApiTemplate.Telemetry.TelegramWriter
