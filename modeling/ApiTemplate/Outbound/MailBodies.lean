import ApiTemplate.Outbound.EmailService
import ApiTemplate.Stream.Html

/-!
# What a mail shows

The body of a mail is a text of HTML with a name or a code put in. Here it is read back: as a title
and lines of text in which nothing of the name or the code is a tag or a reference, so that the body
tells what it was made from.
-/

namespace ApiTemplate.Outbound.EmailService

open Html Identity

/-! ## Documents -/

/-- A line of text; each bold text in it is followed by plain text. -/
structure Line where
  text : List Char
  bold : List (List Char × List Char) := []
  deriving DecidableEq

structure Document where
  title : List Char
  lines : List Line
  deriving DecidableEq

/-- A bold text and the plain text after it. -/
def boldTokens (part : List Char × List Char) : List Token :=
  .tag "b style='font-size:20px'".toList ::
    (chars part.1 ++ .tag "/b".toList :: chars part.2)

def Line.tokens (line : Line) : List Token :=
  .tag "p".toList :: (chars line.text ++ (line.bold.flatMap boldTokens ++ [.tag "/p".toList]))

def Document.tokens (doc : Document) : List Token :=
  .tag "html".toList ::
    .tag "body style=\"font-family:system-ui,sans-serif;line-height:1.5\"".toList ::
    .tag "h2".toList :: (chars doc.title ++ .tag "/h2".toList ::
      (doc.lines.flatMap Line.tokens ++ [.tag "/body".toList, .tag "/html".toList]))

/-- The document of an event. -/
def documentOf : DomainEvent → Option Document
  | .userRegistered _ _ otpCode fullName => some {
      title := "Confirm your email".toList
      lines := [
        { text := "Hi ".toList ++ fullName.toList ++ ",".toList },
        { text := "Your confirmation code is ".toList, bold := [(otpCode.toList, ".".toList)] },
        { text := "It expires in ".toList ++
            (toString (otpTtlMinutes .emailConfirmation)).toList ++ " minutes.".toList }] }
  | .userEmailConfirmed _ _ => none
  | .forgotPasswordStep1 _ _ otpCode => some {
      title := "Reset your password".toList
      lines := [
        { text := "Your password reset code is ".toList, bold := [(otpCode.toList, ".".toList)] },
        { text := "It expires in ".toList ++
            (toString (otpTtlMinutes .forgotPassword)).toList ++
            " minutes. If you did not request it, ignore this email.".toList }] }
  | .forgotPasswordStep2 _ _ _ fullName => some {
      title := "Your password was changed".toList
      lines := [
        { text := "Hi ".toList ++ fullName.toList ++ ",".toList },
        { text := ("Your password has just been changed. If this was not you, contact support " ++
            "immediately.").toList }] }

/-! ## Reading the templates -/

/-- The texts that `escape` makes are read as what they were made of. -/
theorem reads_escape (s : String) : Reads (escape s).toList (chars s.toList) := by
  have hchar : ∀ c : Char, Reads
      (if c = '&' then "&amp;".toList
      else if c = '<' then "&lt;".toList
      else if c = '>' then "&gt;".toList
      else if c = '"' then "&quot;".toList
      else if c = '\'' then "&#x27;".toList
      else [c]) [.char c] := by
    intro c
    split_ifs with hamp hlt hgt hquot hapos
    · rw [hamp]
      rfl
    · rw [hlt]
      rfl
    · rw [hgt]
      rfl
    · rw [hquot]
      rfl
    · rw [hapos]
      rfl
    · exact reads_char hamp hlt
  unfold escape chars
  rw [String.toList_ofList, List.map_eq_flatMap]
  exact Reads.flatMap hchar s.toList

theorem reads_wrap {title body : String} {lines : List Line}
    (h : Reads body.toList (lines.flatMap Line.tokens)) :
    Reads (wrap title body).toList (Document.tokens ⟨title.toList, lines⟩) := by
  have hopen : Reads
      "<html><body style=\"font-family:system-ui,sans-serif;line-height:1.5\">".toList
      [.tag "html".toList,
        .tag "body style=\"font-family:system-ui,sans-serif;line-height:1.5\"".toList] := by
    decide +kernel
  have htitle : Reads "<h2>".toList [.tag "h2".toList] := rfl
  have htitle' : Reads "</h2>".toList [.tag "/h2".toList] := rfl
  have hclose : Reads "</body></html>".toList [.tag "/body".toList, .tag "/html".toList] := rfl
  unfold wrap
  simp only [String.toList_append, List.append_assoc]
  exact hopen.append (htitle.append ((reads_escape title).append
    (htitle'.append (h.append hclose))))

section

variable {start value stop before shown after : List Char}

/-- A line with a value in its text. -/
theorem reads_textLine (hstart : Reads start (.tag "p".toList :: chars before))
    (hvalue : Reads value (chars shown)) (hstop : Reads stop (chars after ++ [.tag "/p".toList])) :
    Reads (start ++ (value ++ stop)) (Line.tokens { text := before ++ shown ++ after }) := by
  have hread := hstart.append (hvalue.append hstop)
  unfold Line.tokens
  rw [chars_append, chars_append, List.flatMap_nil, List.nil_append, List.append_assoc,
    List.append_assoc]
  exact hread

/-- A line with a code in bold. -/
theorem reads_codeLine (code : String)
    (hstart : Reads start
      (.tag "p".toList :: (chars before ++ [.tag "b style='font-size:20px'".toList]))) :
    Reads (start ++ ((escape code).toList ++ "</b>.</p>".toList))
      (Line.tokens { text := before, bold := [(code.toList, ".".toList)] }) := by
  have hstop : Reads "</b>.</p>".toList
      (.tag "/b".toList :: (chars ".".toList ++ [.tag "/p".toList])) := by
    decide +kernel
  have hread := hstart.append ((reads_escape code).append hstop)
  unfold Line.tokens boldTokens
  simpa using hread

end

theorem reads_greeting (fullName : String) :
    Reads ("<p>Hi ".toList ++ ((escape fullName).toList ++ ",</p>".toList))
      (Line.tokens { text := "Hi ".toList ++ fullName.toList ++ ",".toList }) :=
  reads_textLine (by decide +kernel) (reads_escape fullName) (by decide +kernel)

theorem reads_expiry (ttl : String) (stop after : List Char)
    (hvalue : Reads ttl.toList (chars ttl.toList))
    (hstop : Reads stop (chars after ++ [.tag "/p".toList])) :
    Reads ("<p>It expires in ".toList ++ (ttl.toList ++ stop))
      (Line.tokens { text := "It expires in ".toList ++ ttl.toList ++ after }) :=
  reads_textLine (by decide +kernel) hvalue hstop

/-- **The body of a mail reads as its document.** -/
theorem reads_content {event : DomainEvent} {mail : Mail} {doc : Document}
    (hmail : mailOf event = some mail) (hdoc : documentOf event = some doc) :
    Reads mail.content.toList doc.tokens := by
  cases event with
  | userRegistered id recipient otpCode fullName =>
    obtain rfl := Option.some.inj hmail
    obtain rfl := Option.some.inj hdoc
    refine reads_wrap ?_
    simp only [String.toList_append, List.append_assoc, List.flatMap_cons, List.flatMap_nil,
      List.append_nil]
    have hstart : Reads "<p>Your confirmation code is <b style='font-size:20px'>".toList
        (.tag "p".toList :: (chars "Your confirmation code is ".toList ++
          [.tag "b style='font-size:20px'".toList])) := by
      decide +kernel
    have hexpiry := reads_expiry (toString (otpTtlMinutes .emailConfirmation))
      " minutes.</p>".toList " minutes.".toList (by decide +kernel) (by decide +kernel)
    have hread := (reads_greeting fullName).append
      ((reads_codeLine otpCode hstart).append hexpiry)
    simpa only [List.append_assoc] using hread
  | userEmailConfirmed => cases hmail
  | forgotPasswordStep1 id recipient otpCode =>
    obtain rfl := Option.some.inj hmail
    obtain rfl := Option.some.inj hdoc
    refine reads_wrap ?_
    simp only [String.toList_append, List.append_assoc, List.flatMap_cons, List.flatMap_nil,
      List.append_nil]
    have hstart : Reads "<p>Your password reset code is <b style='font-size:20px'>".toList
        (.tag "p".toList :: (chars "Your password reset code is ".toList ++
          [.tag "b style='font-size:20px'".toList])) := by
      decide +kernel
    have hexpiry := reads_expiry (toString (otpTtlMinutes .forgotPassword))
      " minutes. If you did not request it, ignore this email.</p>".toList
      " minutes. If you did not request it, ignore this email.".toList
      (by decide +kernel) (by decide +kernel)
    have hread := (reads_codeLine otpCode hstart).append hexpiry
    simpa only [List.append_assoc] using hread
  | forgotPasswordStep2 id recipient newPassword fullName =>
    obtain rfl := Option.some.inj hmail
    obtain rfl := Option.some.inj hdoc
    refine reads_wrap ?_
    simp only [String.toList_append, List.append_assoc, List.flatMap_cons, List.flatMap_nil,
      List.append_nil]
    have hplain : Reads
        ("<p>Your password has just been changed. If this was not you, contact support ".toList ++
          "immediately.</p>".toList)
        (Line.tokens { text :=
          "Your password has just been changed. If this was not you, contact support ".toList ++
            "immediately.".toList }) := by
      decide +kernel
    have hread := (reads_greeting fullName).append hplain
    simpa only [List.append_assoc] using hread

/-! ## Documents from their tokens -/

section

variable {r r' : List Token}

theorem flatMap_boldTokens_cons (part : List Char × List Char)
    (parts : List (List Char × List Char)) :
    (part :: parts).flatMap boldTokens ++ r =
      .tag "b style='font-size:20px'".toList :: (chars part.1 ++ .tag "/b".toList ::
        (chars part.2 ++ (parts.flatMap boldTokens ++ r))) := by
  rw [List.flatMap_cons, List.append_assoc]
  unfold boldTokens
  rw [List.cons_append, List.append_assoc]
  rfl

/-- What a line shows, up to the tag that closes it. -/
theorem line_inj {xs ys : List Char} {parts parts' : List (List Char × List Char)}
    (h : chars xs ++ (parts.flatMap boldTokens ++ .tag "/p".toList :: r) =
      chars ys ++ (parts'.flatMap boldTokens ++ .tag "/p".toList :: r')) :
    xs = ys ∧ parts = parts' ∧ r = r' := by
  induction parts generalizing xs ys parts' with
  | nil =>
    cases parts' with
    | nil =>
      obtain ⟨rfl, -, rfl⟩ := chars_append_tag_inj h
      exact ⟨rfl, rfl, rfl⟩
    | cons part' parts' =>
      rw [flatMap_boldTokens_cons] at h
      exact absurd (chars_append_tag_inj h).2.1 (by decide +kernel)
  | cons part parts ih =>
    cases parts' with
    | nil =>
      rw [flatMap_boldTokens_cons] at h
      exact absurd (chars_append_tag_inj h).2.1 (by decide +kernel)
    | cons part' parts' =>
      obtain ⟨b, a⟩ := part
      obtain ⟨b', a'⟩ := part'
      rw [flatMap_boldTokens_cons, flatMap_boldTokens_cons] at h
      obtain ⟨rfl, -, hbold⟩ := chars_append_tag_inj h
      obtain ⟨rfl, -, hafter⟩ := chars_append_tag_inj hbold
      obtain ⟨rfl, rfl, hr⟩ := ih hafter
      exact ⟨rfl, rfl, hr⟩

theorem flatMap_tokens_cons (line : Line) (lines : List Line) :
    (line :: lines).flatMap Line.tokens ++ r =
      .tag "p".toList :: (chars line.text ++ (line.bold.flatMap boldTokens ++ .tag "/p".toList ::
        (lines.flatMap Line.tokens ++ r))) := by
  rw [List.flatMap_cons, List.append_assoc]
  unfold Line.tokens
  rw [List.cons_append, List.append_assoc, List.append_assoc]
  rfl

theorem lines_inj {lines lines' : List Line}
    (h : lines.flatMap Line.tokens ++ .tag "/body".toList :: r =
      lines'.flatMap Line.tokens ++ .tag "/body".toList :: r') : lines = lines' := by
  have hends : Token.tag "/body".toList ≠ .tag "p".toList := by decide +kernel
  induction lines generalizing lines' with
  | nil =>
    cases lines' with
    | nil => rfl
    | cons line' lines' =>
      rw [flatMap_tokens_cons] at h
      exact absurd (List.cons.inj h).1 hends
  | cons line lines ih =>
    cases lines' with
    | nil =>
      rw [flatMap_tokens_cons] at h
      exact absurd (List.cons.inj h).1.symm hends
    | cons line' lines' =>
      rw [flatMap_tokens_cons, flatMap_tokens_cons] at h
      obtain ⟨text, bold⟩ := line
      obtain ⟨text', bold'⟩ := line'
      obtain ⟨rfl, rfl, hrest⟩ := line_inj (List.cons.inj h).2
      rw [ih hrest]

end

/-- The tokens tell the document. -/
theorem Document.tokens_injective : Function.Injective Document.tokens := by
  rintro ⟨title, lines⟩ ⟨title', lines'⟩ h
  have htitle := (List.cons.inj (List.cons.inj (List.cons.inj h).2).2).2
  obtain ⟨rfl, -, hlines⟩ := chars_append_tag_inj htitle
  exact congrArg (Document.mk title) (lines_inj hlines)

/-! ## Nesting -/

theorem nested_boldTokens (stack : List (List Char)) (parts : List (List Char × List Char))
    (r : List Token) : nested stack (parts.flatMap boldTokens ++ r) = nested stack r := by
  induction parts with
  | nil => rfl
  | cons part parts ih =>
    rw [flatMap_boldTokens_cons]
    show nested ("b".toList :: stack) _ = _
    rw [nested_chars]
    show nested stack _ = _
    rw [nested_chars, ih]

theorem nested_lines (stack : List (List Char)) (lines : List Line) (r : List Token) :
    nested stack (lines.flatMap Line.tokens ++ r) = nested stack r := by
  induction lines with
  | nil => rfl
  | cons line lines ih =>
    rw [flatMap_tokens_cons]
    show nested ("p".toList :: stack) _ = _
    rw [nested_chars, nested_boldTokens]
    exact ih

theorem Document.nested_tokens (doc : Document) : nested [] doc.tokens = true := by
  unfold Document.tokens
  show nested ["h2".toList, "body".toList, "html".toList] _ = true
  rw [nested_chars]
  show nested ["body".toList, "html".toList] _ = true
  rw [nested_lines]
  rfl

/-- **A mail shows its title, its lines, the name and the code, and nothing else.** Whatever stands
in the name or the code, the body reads as the document of the event: the tags are those of the
document, they nest, and no character of a value is taken for a part of a tag or of a reference. So
mails with the same body show the same. -/
theorem mail_shows_document (event : DomainEvent) (mail : Mail) (hmail : mailOf event = some mail) :
    ∃ doc, documentOf event = some doc ∧ read mail.content.toList = some doc.tokens ∧
      nested [] doc.tokens = true ∧
      ∀ event' mail', mailOf event' = some mail' → mail'.content = mail.content →
        documentOf event' = some doc := by
  have hdocument : ∀ event mail, mailOf event = some mail → ∃ doc, documentOf event = some doc := by
    intro event mail h
    cases event with
    | userEmailConfirmed => cases h
    | _ => exact ⟨_, rfl⟩
  obtain ⟨doc, hdoc⟩ := hdocument event mail hmail
  have hread := (reads_content hmail hdoc).read
  refine ⟨doc, hdoc, hread, doc.nested_tokens, fun event' mail' hmail' hsame => ?_⟩
  obtain ⟨doc', hdoc'⟩ := hdocument event' mail' hmail'
  have hread' := (reads_content hmail' hdoc').read
  rw [hsame, hread] at hread'
  rw [hdoc', Document.tokens_injective (Option.some.inj hread')]

/-- A sign-up under a name with tags in it. -/
def taggedSignup : DomainEvent :=
  .userRegistered 0 "ann@example.com" "123456" "<b>Ann</b> & Co"

theorem mail_shows_document_taggedSignup :
    ∃ (mail : Mail) (doc : Document), mailOf taggedSignup = some mail ∧
      read mail.content.toList = some doc.tokens ∧
      doc.lines.head?.map Line.text = some "Hi <b>Ann</b> & Co,".toList := by
  obtain ⟨doc, hdoc, hread, -, -⟩ := mail_shows_document taggedSignup _ rfl
  refine ⟨_, doc, rfl, hread, ?_⟩
  obtain rfl := Option.some.inj hdoc
  decide +kernel

end ApiTemplate.Outbound.EmailService
