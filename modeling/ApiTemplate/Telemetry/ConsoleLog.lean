import ApiTemplate.Telemetry.Formatter
import ApiTemplate.Telemetry.TextSecrets

/-!
# The console

The handlers of the root logger share one record. `MaskingLogFilter` masks the message on its way
to a plain handler, and nothing else of what the standard formatter prints.
-/

namespace ApiTemplate.Telemetry

open Substitution

/-! ## The standard formatter -/

/-- `if s[-1:] != "\n": s = s + "\n"` -/
def endLine (s : String) : String := if s.toList.getLast? = some '\n' then s else s ++ "\n"

def appendPart (s part : String) : String := if part = "" then s else endLine s ++ part

/-- What `logging.Formatter.format` prints: the message, the exception and the stack. -/
def layout (message exception stack : String) : String :=
  appendPart (appendPart message exception) stack

/-- `record.msg`: a text, or an object with what `str` makes of it, `none` where it raises. -/
inductive Message
  | str (text : String)
  | object (text : Option String)

namespace Message

def render : Message → Option String
  | .str text => some text
  | .object text => text

/-- `isinstance(record.msg, str) and record.msg` -/
def isText : Message → Bool
  | .str text => text ≠ ""
  | .object _ => false

end Message

/-- A `logging.LogRecord` as its handlers see it. `args` is `none` where it is empty, `excInfo` is
what `formatException` makes of `exc_info`; an empty `excText` or `stackInfo` is as good as none. -/
structure SharedRecord (Args : Type) where
  name : String
  levelname : String
  created : ℚ
  msg : Message
  args : Option Args
  excInfo : Option String
  excText : String
  stackInfo : String
  telemetryEvent : Option TelemetryEvent
  extra : List (String × Value)

/-- A handler of the root logger: a plain one that `install_root_handler` found, one that was added
later, or the telemetry handler. -/
inductive Handler
  | console
  | plain
  | telemetry

/-- What a handler writes. -/
inductive Line
  | text (s : String)
  | event (e : TelemetryEvent)

section

-- `percent` is the `%` of a text and its arguments, `none` where it raises
variable {Args : Type} (percent : String → Args → Option String)

namespace SharedRecord

/-- `LogRecord.getMessage` -/
def getMessage (record : SharedRecord Args) : Option String :=
  record.msg.render.bind fun msg =>
    match record.args with
    | none => some msg
    | some args => percent msg args

/-- The text of the exception that the standard formatter prints. -/
def exception (record : SharedRecord Args) : String :=
  if record.excText = "" then record.excInfo.getD "" else record.excText

/-- The formatter caches the text of the exception. -/
def cacheException (record : SharedRecord Args) : SharedRecord Args :=
  { record with excText := record.exception }

/-- The record that the telemetry formatter reads. -/
def toLogRecord (record : SharedRecord Args) (message : String) : LogRecord where
  name := record.name
  levelname := record.levelname
  created := record.created
  message := message
  excText := record.excInfo
  telemetryEvent := record.telemetryEvent
  extra := record.extra

end SharedRecord

/-- `MaskingLogFilter.filter`; where the message cannot be rendered, the record stays. -/
def MaskingLogFilter.filter (record : SharedRecord Args) : SharedRecord Args :=
  if record.msg.isText then
    match record.getMessage percent with
    | some message => { record with msg := .str (maskText message), args := none }
    | none => record
  else record

/-- `logging.Formatter.format`, and the record that it leaves. -/
def Formatter.format (record : SharedRecord Args) : Option String × SharedRecord Args :=
  match record.getMessage percent with
  | none => (none, record)
  | some message =>
    (some (layout message record.cacheException.excText record.stackInfo), record.cacheException)

variable (service : String) (context : Option String × Option String)

/-- The event that the telemetry formatter encodes. -/
def recordEvent (record : SharedRecord Args) : Option TelemetryEvent :=
  match record.telemetryEvent with
  | some event => some event
  | none => (record.getMessage percent).map fun message =>
    formatEvent service context (record.toLogRecord message)

/-- What a handler writes of the record, nothing where its formatter raises, and the record that it
leaves to the next handler. -/
def handle (record : SharedRecord Args) : Handler → Option Line × SharedRecord Args
  | .console =>
    let result := Formatter.format percent (MaskingLogFilter.filter percent record)
    (result.1.map .text, result.2)
  | .plain =>
    let result := Formatter.format percent record
    (result.1.map .text, result.2)
  | .telemetry => ((recordEvent percent service context record).map .event, record)

/-- The record that some handlers leave. -/
def handleAll (record : SharedRecord Args) (handlers : List Handler) : SharedRecord Args :=
  handlers.foldl (fun record handler => (handle percent service context record handler).2) record

variable {percent service context}

/-! ## The shared record -/

theorem cacheException_exception (record : SharedRecord Args) :
    record.cacheException.exception = record.exception := by
  unfold SharedRecord.cacheException SharedRecord.exception
  by_cases h : record.excText = ""
  · simp only [h, if_true]
    by_cases h' : record.excInfo.getD "" = ""
    · rw [if_pos h', h']
    · rw [if_neg h']
  · simp only [h, if_false]

theorem format_fst (record : SharedRecord Args) :
    (Formatter.format percent record).1 = (record.getMessage percent).map fun message =>
      layout message record.exception record.stackInfo := by
  unfold Formatter.format
  cases record.getMessage percent <;> rfl

variable (percent) in
theorem format_snd (record : SharedRecord Args) :
    (Formatter.format percent record).2 = record ∨
      (Formatter.format percent record).2 = record.cacheException := by
  unfold Formatter.format
  cases record.getMessage percent with
  | none => exact .inl rfl
  | some message => exact .inr rfl

theorem filter_of_not {record : SharedRecord Args} (h : record.msg.isText = false) :
    MaskingLogFilter.filter percent record = record := by
  rw [MaskingLogFilter.filter, h]
  rfl

theorem getMessage_filter (record : SharedRecord Args) :
    (MaskingLogFilter.filter percent record).getMessage percent =
      (record.getMessage percent).map (if record.msg.isText then maskText else id) := by
  by_cases h : record.msg.isText = true
  · rw [MaskingLogFilter.filter, if_pos h, if_pos h]
    cases hmessage : record.getMessage percent with
    | none => exact hmessage
    | some message => rfl
  · rw [filter_of_not (Bool.eq_false_iff.mpr h), if_neg h, Option.map_id]
    rfl

theorem map_maskText_maskText (message : Option String) :
    (message.map maskText).map maskText = message.map maskText := by
  rw [Option.map_map]
  exact Option.map_congr fun text _ => maskText_maskText text

theorem getMessage_filter_filter (record : SharedRecord Args) :
    (MaskingLogFilter.filter percent (MaskingLogFilter.filter percent record)).getMessage percent =
      (MaskingLogFilter.filter percent record).getMessage percent := by
  by_cases h : record.msg.isText = true
  · by_cases h' : (MaskingLogFilter.filter percent record).msg.isText = true
    · rw [getMessage_filter, getMessage_filter, if_pos h, if_pos h', map_maskText_maskText]
    · rw [filter_of_not (Bool.eq_false_iff.mpr h')]
  · rw [filter_of_not (Bool.eq_false_iff.mpr h), filter_of_not (Bool.eq_false_iff.mpr h)]

variable (percent) in
theorem filter_cases (record : SharedRecord Args) :
    MaskingLogFilter.filter percent record = record ∨ ∃ message,
      record.getMessage percent = some message ∧ MaskingLogFilter.filter percent record =
        { record with msg := .str (maskText message), args := none } := by
  unfold MaskingLogFilter.filter
  by_cases h : record.msg.isText = true
  · rw [if_pos h]
    cases record.getMessage percent with
    | none => exact .inl rfl
    | some message => exact .inr ⟨message, rfl, rfl⟩
  · exact .inl (if_neg h)

/-- A handler filters the record, or caches the exception, or does both. -/
theorem handle_invariant {β : Type} {f : SharedRecord Args → β}
    (hfilter : ∀ record, f (MaskingLogFilter.filter percent record) = f record)
    (hcache : ∀ record : SharedRecord Args, f record.cacheException = f record)
    (record : SharedRecord Args) (handler : Handler) :
    f (handle percent service context record handler).2 = f record := by
  have hformat : ∀ record, f (Formatter.format percent record).2 = f record := by
    intro record
    rcases format_snd percent record with h | h
    · rw [h]
    · rw [h, hcache]
  cases handler with
  | console => exact (hformat _).trans (hfilter record)
  | plain => exact hformat record
  | telemetry => rfl

theorem handleAll_invariant {β : Type} {f : SharedRecord Args → β}
    (hfilter : ∀ record, f (MaskingLogFilter.filter percent record) = f record)
    (hcache : ∀ record : SharedRecord Args, f record.cacheException = f record)
    (record : SharedRecord Args) (handlers : List Handler) :
    f (handleAll percent service context record handlers) = f record := by
  induction handlers generalizing record with
  | nil => rfl
  | cons handler handlers ih =>
    exact (ih _).trans (handle_invariant hfilter hcache record handler)

theorem exception_filter (record : SharedRecord Args) :
    (MaskingLogFilter.filter percent record).exception = record.exception := by
  rcases filter_cases percent record with h | ⟨message, -, h⟩
  · rw [h]
  · rw [h]
    rfl

theorem stackInfo_filter (record : SharedRecord Args) :
    (MaskingLogFilter.filter percent record).stackInfo = record.stackInfo := by
  rcases filter_cases percent record with h | ⟨message, -, h⟩
  · rw [h]
  · rw [h]

/-- What the console prints of a record. -/
def consoleView (percent : String → Args → Option String) (record : SharedRecord Args) :
    Option String × String × String :=
  ((MaskingLogFilter.filter percent record).getMessage percent, record.exception, record.stackInfo)

def printView (view : Option String × String × String) : Option Line :=
  view.1.map fun message => .text (layout message view.2.1 view.2.2)

theorem handle_console (record : SharedRecord Args) :
    (handle percent service context record .console).1 =
      printView (consoleView percent record) := by
  show ((Formatter.format percent (MaskingLogFilter.filter percent record)).1).map _ = _
  rw [format_fst, Option.map_map, exception_filter, stackInfo_filter]
  rfl

theorem consoleView_filter (record : SharedRecord Args) :
    consoleView percent (MaskingLogFilter.filter percent record) = consoleView percent record := by
  rw [consoleView, getMessage_filter_filter, exception_filter, stackInfo_filter, consoleView]

theorem consoleView_cacheException (record : SharedRecord Args) :
    consoleView percent record.cacheException = consoleView percent record := by
  rw [consoleView, getMessage_filter, cacheException_exception, consoleView, getMessage_filter]
  rfl

end

/-! ## The layout of masked parts -/

/-- `appendPart`, on the characters. -/
def appendLine (s part : List Char) : List Char :=
  if part = [] then s else (if s.getLast? = some '\n' then s else s ++ ['\n']) ++ part

theorem toList_appendPart (s part : String) :
    (appendPart s part).toList = appendLine s.toList part.toList := by
  unfold appendPart appendLine endLine
  simp only [String.toList_eq_nil_iff]
  by_cases hpart : part = ""
  · rw [if_pos hpart, if_pos hpart]
  rw [if_neg hpart, if_neg hpart, String.toList_append]
  by_cases hline : s.toList.getLast? = some '\n'
  · rw [if_pos hline, if_pos hline]
  · rw [if_neg hline, if_neg hline, String.toList_append]
    rfl

theorem toList_layout (message exception stack : String) :
    (layout message exception stack).toList =
      [exception.toList, stack.toList].foldl appendLine message.toList := by
  rw [layout, toList_appendPart, toList_appendPart]
  rfl

/-- Behind a text, the parts begin on a new line. -/
theorem foldl_appendLine (parts : List (List Char)) (s : List Char) :
    ∃ w, parts.foldl appendLine s = s ++ w ∧
      (s.getLast? = some '\n' ∨ ∀ c ∈ w.head?, c = '\n') := by
  induction parts generalizing s with
  | nil => exact ⟨[], (List.append_nil s).symm, .inr (by simp)⟩
  | cons part parts ih =>
    rw [List.foldl_cons]
    by_cases hpart : part = []
    · rw [appendLine, if_pos hpart]
      exact ih s
    obtain ⟨w, hw, -⟩ := ih (appendLine s part)
    rw [hw, appendLine, if_neg hpart]
    by_cases hline : s.getLast? = some '\n'
    · rw [if_pos hline, List.append_assoc]
      exact ⟨_, rfl, .inl hline⟩
    · rw [if_neg hline, List.append_assoc, List.append_assoc]
      refine ⟨_, rfl, .inr ?_⟩
      rintro c ⟨⟩
      rfl

theorem secretRule_mark_run : secretRule.mark ≠ [] ∧
    ∀ c ∈ secretRule.mark, secretRule.inRun c = true := by
  refine ⟨by decide, fun c hc => ?_⟩
  rw [eq_star_of_mem hc]
  decide

/-- Masked parts are laid out as the parts only if the first is masked already. -/
theorem sub_eq_of_foldl {parts parts' : List (List Char)} {s text : List Char}
    (h : parts'.foldl appendLine (s ++ secretRule.sub text) =
      parts.foldl appendLine (s ++ text)) : secretRule.sub text = text := by
  obtain ⟨hne, hmark⟩ := secretRule_mark_run
  by_cases htext : text = []
  · rw [htext]
    rfl
  have hsub : secretRule.sub text ≠ [] := fun hnil => htext (Rule.sub_eq_nil hne hnil)
  obtain ⟨u, hu, hendu⟩ := foldl_appendLine parts' (s ++ secretRule.sub text)
  obtain ⟨v, hv, hendv⟩ := foldl_appendLine parts (s ++ text)
  rw [hu, hv, List.append_assoc, List.append_assoc] at h
  rw [List.getLast?_append_of_ne_nil _ hsub] at hendu
  rw [List.getLast?_append_of_ne_nil _ htext] at hendv
  have hline : secretRule.inRun '\n' = false := by decide
  refine Rule.sub_eq_of_append hmark ?_ (List.append_cancel_left h)
  rcases hendv with hlast | hheadv
  · exact .inl ⟨'\n', hlast, hline⟩
  rcases hendu with hlast | hheadu
  · exact .inl ⟨'\n', Rule.getLast?_of_sub hne hmark hline hlast, hline⟩
  · exact .inr ⟨fun c hc => hheadu c hc ▸ hline, fun c hc => hheadv c hc ▸ hline⟩

theorem sub_eq_of_foldl_map {parts : List (List Char)} {s text : List Char}
    (h : (parts.map secretRule.sub).foldl appendLine (s ++ secretRule.sub text) =
      parts.foldl appendLine (s ++ text)) :
    ∀ part ∈ text :: parts, secretRule.sub part = part := by
  have hfirst := sub_eq_of_foldl h
  refine List.forall_mem_cons.mpr ⟨hfirst, ?_⟩
  rw [hfirst] at h
  induction parts generalizing s text with
  | nil => simp
  | cons part parts ih =>
    by_cases hpart : part = []
    · subst hpart
      exact List.forall_mem_cons.mpr ⟨rfl, ih h hfirst⟩
    have hsub : secretRule.sub part ≠ [] := fun hnil =>
      hpart (Rule.sub_eq_nil secretRule_mark_run.1 hnil)
    rw [List.map_cons, List.foldl_cons, List.foldl_cons, appendLine, appendLine, if_neg hpart,
      if_neg hsub] at h
    have hnext := sub_eq_of_foldl h
    rw [hnext] at h
    exact List.forall_mem_cons.mpr ⟨hnext, ih h hnext⟩

theorem layout_maskText_iff (message exception stack : String) :
    layout message exception stack =
        layout (maskText message) (maskText exception) (maskText stack) ↔
      IsMasked message.toList ∧ IsMasked exception.toList ∧ IsMasked stack.toList := by
  constructor
  · intro h
    have hlists := congrArg String.toList h.symm
    rw [toList_layout, toList_layout, toList_maskText, toList_maskText, toList_maskText] at hlists
    have hsub : ∀ part ∈ message.toList :: [exception.toList, stack.toList],
        secretRule.sub part = part := sub_eq_of_foldl_map (s := []) hlists
    have hmasked : ∀ part : String, secretRule.sub part.toList = part.toList →
        IsMasked part.toList := by
      intro part hpart
      rw [← hpart]
      exact isMasked_sub _
    exact ⟨hmasked _ (hsub _ (by simp)), hmasked _ (hsub _ (by simp)), hmasked _ (hsub _ (by simp))⟩
  · rintro ⟨hmessage, hexception, hstack⟩
    rw [(maskText_eq_self_iff _).mpr hmessage, (maskText_eq_self_iff _).mpr hexception,
      (maskText_eq_self_iff _).mpr hstack]

/-! ## The console -/

/-- Behind any handlers, the console prints the masked parts if and only if the message is a text,
or has nothing to mask, and neither the exception nor the stack has anything to mask. -/
theorem console_masked_iff {Args : Type} (percent : String → Args → Option String)
    (service : String) (context : Option String × Option String) (handlers : List Handler)
    (record : SharedRecord Args) :
    (handle percent service context (handleAll percent service context record handlers)
        .console).1 =
      ((record.getMessage percent).map fun message =>
        .text (layout (maskText message) (maskText record.exception) (maskText record.stackInfo))) ↔
      ∀ message ∈ record.getMessage percent,
        (record.msg.isText = true ∨ IsMasked message.toList) ∧
          IsMasked record.exception.toList ∧ IsMasked record.stackInfo.toList := by
  have hview : consoleView percent (handleAll percent service context record handlers) =
      consoleView percent record :=
    handleAll_invariant consoleView_filter consoleView_cacheException record handlers
  rw [handle_console, hview]
  simp only [printView, consoleView, getMessage_filter]
  cases record.getMessage percent with
  | none => simp
  | some message =>
    simp only [Option.map_some, Option.some_inj, Line.text.injEq, Option.mem_def, forall_eq']
    by_cases htext : record.msg.isText = true
    · have hmasked : IsMasked (maskText message).toList :=
        (maskText_eq_self_iff _).mp (maskText_maskText message)
      have hiff := layout_maskText_iff (maskText message) record.exception record.stackInfo
      rw [maskText_maskText, and_iff_right hmasked] at hiff
      have hshown : record.msg.isText = true ∨ IsMasked message.toList := .inl htext
      rw [if_pos htext, hiff, and_iff_right hshown]
    · rw [if_neg htext, or_iff_right htext]
      exact layout_maskText_iff message record.exception record.stackInfo

/-- The console prints the password in an exception. -/
theorem not_console_masked_exception :
    (handle (fun text (_ : Unit) => some text) "api" (none, none)
      { name := "app", levelname := "ERROR", created := 0, msg := .str "failed", args := none,
        excInfo := some "ValueError: password=hunter2", excText := "", stackInfo := "",
        telemetryEvent := none, extra := [] } .console).1 =
        some (.text "failed\nValueError: password=hunter2") ∧
      layout (maskText "failed") (maskText "ValueError: password=hunter2") (maskText "") ≠
        "failed\nValueError: password=hunter2" := by
  constructor
  · rfl
  · decide

end ApiTemplate.Telemetry
