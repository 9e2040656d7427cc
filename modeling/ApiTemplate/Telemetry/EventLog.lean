import ApiTemplate.Identity.Tables
import ApiTemplate.Telemetry.Formatter

/-!
# What the event bus logs

`LoggingEventPublisherMiddleware` and `ObservabilityEventHandlerMiddleware` log every domain event
with its `model_dump`. The formatter masks the dump by key: the new password is redacted, a one-time
code is not. Two runs that differ in these secrets alone write the same lines exactly when their
one-time codes agree.
-/

namespace ApiTemplate.Telemetry

open Identity (Id DomainEvent)
open JsonText

/-! ## Events -/

/-- `event.__class__.__name__` -/
def className : DomainEvent → String
  | .userRegistered .. => "UserRegisteredEvent"
  | .userEmailConfirmed .. => "UserEmailConfirmedEvent"
  | .forgotPasswordStep1 .. => "ForgotPasswordStep1Event"
  | .forgotPasswordStep2 .. => "ForgotPasswordStep2Event"

def aggregateId : DomainEvent → Id
  | .userRegistered aggregateId .. => aggregateId
  | .userEmailConfirmed aggregateId _ => aggregateId
  | .forgotPasswordStep1 aggregateId .. => aggregateId
  | .forgotPasswordStep2 aggregateId .. => aggregateId

/-- The fields a subclass adds. -/
def fields : DomainEvent → List (String × Value)
  | .userRegistered _ recipient otpCode fullName =>
    [("recipient", .str recipient), ("otp_code", .str otpCode), ("full_name", .str fullName)]
  | .userEmailConfirmed _ targetValue => [("target_value", .str targetValue)]
  | .forgotPasswordStep1 _ recipient otpCode =>
    [("recipient", .str recipient), ("otp_code", .str otpCode)]
  | .forgotPasswordStep2 _ recipient newPassword fullName =>
    [("recipient", .str recipient), ("new_password", .str newPassword),
      ("full_name", .str fullName)]

/-- The one-time code an event carries. -/
def otpCode : DomainEvent → Option String
  | .userRegistered _ _ otpCode _ => some otpCode
  | .forgotPasswordStep1 _ _ otpCode => some otpCode
  | _ => none

/-- The event with another one-time code or password. -/
def withSecret (secret : String) : DomainEvent → DomainEvent
  | .userRegistered aggregateId recipient _ fullName =>
    .userRegistered aggregateId recipient secret fullName
  | .userEmailConfirmed aggregateId targetValue => .userEmailConfirmed aggregateId targetValue
  | .forgotPasswordStep1 aggregateId recipient _ =>
    .forgotPasswordStep1 aggregateId recipient secret
  | .forgotPasswordStep2 aggregateId recipient _ fullName =>
    .forgotPasswordStep2 aggregateId recipient secret fullName

/-- One handler that ran for an event: when it was logged, and whether it raised. -/
structure Handling where
  before : ℚ
  after : ℚ
  elapsed : String
  raised : Bool

/-- One call of `bus.publish`: the event with the fields of `BaseEvent`, the context it is published
in and the handlers that run. -/
structure Publication where
  event : DomainEvent
  eventId : Id
  occurredOn : ℚ
  order : ℤ := 0
  metadata : Value := .none
  context : Option Context
  published : ℚ
  handlings : List Handling

/-- The publication with another one-time code or password. -/
def Publication.withSecret (secret : String) (p : Publication) : Publication :=
  { p with event := Telemetry.withSecret secret p.event }

section

variable (uuid : Id → String)

/-- `event.model_dump()` -/
def modelDump (p : Publication) : List (String × Value) :=
  [("event_id", .scalar (.uuid (uuid p.eventId))), ("occurred_on", .scalar (.float p.occurredOn)),
    ("order", .scalar (.int p.order)), ("meta", p.metadata),
    ("aggregate_id", .scalar (.uuid (uuid (aggregateId p.event)))),
    ("aggregate_name", .str "user")] ++ fields p.event

/-! ## The middlewares -/

def loggerName : String := "src.app.infra.event_sourcing.event_bus_middlewares"

variable (enc : Encoder) (service : String)

/-- `logger.info`: the line the handler writes, unless `makeRecord` raises. -/
def info (context : Context) (now : ℚ) (message : String) (extra : List (String × Value)) :
    Option String :=
  (makeRecord loggerName "INFO" now message extra).map
    (format enc service (some context.traceId, context.userId))

/-- The lines around the handlers of an event. A handler that raises ends the publication. -/
def handlerLines (p : Publication) (context : Context) : List Handling → List String
  | [] => []
  | h :: hs =>
    match info enc service context h.before
        (context.traceId ++ " - Before handling event: " ++ className p.event)
        (modelDump uuid p) with
    | none => []
    | some before =>
      if h.raised then [before]
      else
        match info enc service context h.after
            (context.traceId ++ " - After handling event: " ++ className p.event ++
              ". Completed in: " ++ h.elapsed)
            [("event_id", .scalar (.uuid (uuid p.eventId)))] with
        | none => [before]
        | some after => before :: after :: handlerLines p context hs

/-- The lines of `InProcessEventBus.publish`. Without a context the middleware raises. -/
def lines (p : Publication) : List String :=
  match p.context with
  | none => []
  | some context =>
    match info enc service context p.published (context.traceId ++ " - Event published")
        (modelDump uuid p) with
    | none => []
    | some line => line :: handlerLines uuid enc service p context p.handlings

end

/-! ## What a line shows -/

/-- A code that does not look binary, and is not the mark for omitted values. -/
def Visible (code : String) : Prop := looksBinary (.str code) = false ∧ code ≠ OMITTED

instance (code : String) : Decidable (Visible code) := inferInstanceAs (Decidable (_ ∧ _))

/-- The one-time code a publication shows in the log; without a context there is no line. -/
def shownCode (p : Publication) : Option String :=
  p.context.bind fun _ => (otpCode p.event).filter Visible

variable {uuid : Id → String} {enc : Encoder} {service : String}

/-- The field names of the events. -/
def dumpKeys : List String :=
  ["event_id", "occurred_on", "order", "meta", "aggregate_id", "aggregate_name", "recipient",
    "otp_code", "full_name", "target_value", "new_password"]

theorem mem_dumpKeys {p : Publication} {e : String × Value} (h : e ∈ modelDump uuid p) :
    e.1 ∈ dumpKeys := by
  have hsub : (modelDump uuid p).map Prod.fst ⊆ dumpKeys := by
    unfold modelDump dumpKeys
    cases p.event <;> simp only [fields, List.map_append, List.map_cons, List.map_nil] <;> decide
  exact hsub (List.mem_map_of_mem h)

/-- No field of an event collides with an attribute of a record. -/
theorem not_mem_reserved : ∀ key ∈ dumpKeys, key ∉ ["message", "asctime"] ++ recordAttributes ∧
    key ∉ RESERVED := by
  decide

theorem makeRecord_modelDump (p : Publication) (level : String) (now : ℚ) (message : String) :
    makeRecord loggerName level now message (modelDump uuid p) =
      some { name := loggerName, levelname := level, created := now, message,
             extra := modelDump uuid p } := by
  unfold makeRecord
  refine if_neg fun hany => ?_
  obtain ⟨e, he, hmem⟩ := List.any_eq_true.mp hany
  exact (not_mem_reserved e.1 (mem_dumpKeys he)).1 (of_decide_eq_true hmem)

theorem extractExtras_modelDump (p : Publication) (level : String) (now : ℚ) (message : String) :
    extractExtras { name := loggerName, levelname := level, created := now, message,
                    extra := modelDump uuid p } = modelDump uuid p :=
  List.filter_eq_self.mpr fun e he =>
    decide_eq_true (not_mem_reserved e.1 (mem_dumpKeys he)).2

/-! ### The text of a dump -/

/-- What `mask` leaves of the value of an entry. -/
def maskedValue (key : String) (v : Value) : Value :=
  if isSensitiveKey (.str key) then .str REDACTED
  else if looksBinary v then .str OMITTED
  else mask 1 v

def entryText (enc : Encoder) (e : String × Value) : List Char :=
  member (Encoder.text e.1) (enc.value (maskedValue e.1 e.2))

/-- The text of the masked dump of an event. -/
def dumpText (uuid : Id → String) (enc : Encoder) (p : Publication) : List Char :=
  object ((modelDump uuid p).map (entryText enc))

theorem value_mask_dict (entries : List (String × Value)) :
    enc.value (mask 0 (.dict (entries.map fun e => (.str e.1, e.2)))) =
      object (entries.map (entryText enc)) := by
  rw [mask_dict, maskEntries_eq, Encoder.value, Encoder.members_eq, List.map_map, List.map_map]
  rfl

/-- The line of a log call of the middlewares, around the text of the dump. -/
def lineAround (enc : Encoder) (service : String) (context : Context) (now : ℚ)
    (message : String) (dump : List Char) : List Char :=
  let e : TelemetryEvent :=
    { service, kind := KIND_LOG, epoch := now, traceId := some context.traceId
      userId := context.userId, logger := some loggerName, message := some (maskText message) }
  object (Encoder.present (enc.headFields e) ++
    member (Encoder.text "data") dump :: Encoder.present (Encoder.tailFields e))

theorem framed_lineAround (context : Context) (now : ℚ) (message : String) :
    Framed (lineAround enc service context now message) := by
  refine Framed.comp (g := fun text => object (_ ++ text :: _))
    (f := member (Encoder.text "data")) ?_ (Framed.member _)
  exact Framed.object _ _

theorem info_modelDump (p : Publication) (context : Context) (now : ℚ) (message : String) :
    info enc service context now message (modelDump uuid p) =
      some (String.ofList
        (lineAround enc service context now message (dumpText uuid enc p))) := by
  unfold info format
  rw [makeRecord_modelDump, Option.map_some, Encoder.event_of_data]
  · unfold lineAround dumpText
    rw [← value_mask_dict]
    rfl
  · unfold formatEvent
    simp only [extractExtras_modelDump]
    rfl

/-! ### What the dump shows of a secret -/

/-- What `mask` leaves of a one-time code. -/
def maskedCode (code : String) : String := if looksBinary (.str code) then OMITTED else code

theorem entryText_otpCode (code : String) :
    entryText enc ("otp_code", .str code) =
      member (Encoder.text "otp_code") (quote (maskedCode code).toList) := by
  have hkey : isSensitiveKey (.str "otp_code") = false := by decide
  unfold entryText maskedValue maskedCode
  simp only [hkey, Bool.false_eq_true, if_false]
  by_cases h : looksBinary (.str code) = true
  · rw [if_pos h, if_pos h]
    rfl
  · rw [if_neg h, if_neg h, mask.eq_def, if_neg (by decide)]
    show member _ (enc.value (if looksBinary (.str code) = true then _ else _)) = _
    rw [if_neg h]
    rfl

theorem entryText_newPassword (password : String) :
    entryText enc ("new_password", .str password) =
      member (Encoder.text "new_password") (quote REDACTED.toList) := by
  have hkey : isSensitiveKey (.str "new_password") = true := by decide
  unfold entryText maskedValue
  simp only [hkey, if_true]
  rfl

/-- The entries of the dump that every event has. -/
def commonText (uuid : Id → String) (enc : Encoder) (p : Publication) : List (List Char) :=
  [("event_id", .scalar (.uuid (uuid p.eventId))), ("occurred_on", .scalar (.float p.occurredOn)),
    ("order", .scalar (.int p.order)), ("meta", p.metadata),
    ("aggregate_id", .scalar (.uuid (uuid (aggregateId p.event)))),
    ("aggregate_name", .str "user")].map (entryText enc)

theorem dumpText_eq (p : Publication) :
    dumpText uuid enc p =
      object (commonText uuid enc p ++ (fields p.event).map (entryText enc)) := by
  unfold dumpText commonText modelDump
  rw [List.map_append]

theorem commonText_withSecret (p : Publication) (secret : String) :
    commonText uuid enc (p.withSecret secret) = commonText uuid enc p := by
  unfold commonText Publication.withSecret
  cases p.event <;> rfl

/-- The code of a registration or a password reset is shown as `mask` leaves it. -/
theorem object_otpCode_iff (common after : List (List Char)) (recipient : List Char)
    (code code' : String) :
    object (common ++ recipient :: entryText enc ("otp_code", .str code) :: after) =
        object (common ++ recipient :: entryText enc ("otp_code", .str code') :: after) ↔
      maskedCode code = maskedCode code' := by
  have hsplit : ∀ x, common ++ recipient :: x :: after = (common ++ [recipient]) ++ x :: after := by
    intro x
    simp
  rw [entryText_otpCode, entryText_otpCode]
  constructor
  · intro h
    rw [hsplit, hsplit] at h
    have hquote := (Framed.comp (Framed.object _ after) (Framed.member _)).inj h
    exact String.toList_injective (quote_injective hquote)
  · intro h
    rw [h]

/-- **Two dumps that differ in their secret are equal exactly when the one-time code is shown
alike.** A new password is never shown. -/
theorem dumpText_withSecret_iff (uuid : Id → String) (enc : Encoder) (p : Publication)
    (secret : String) :
    dumpText uuid enc p = dumpText uuid enc (p.withSecret secret) ↔
      (otpCode p.event).map maskedCode =
        (otpCode (withSecret secret p.event)).map maskedCode := by
  rw [dumpText_eq, dumpText_eq, commonText_withSecret]
  show object (_ ++ (fields p.event).map _) =
    object (_ ++ (fields (withSecret secret p.event)).map _) ↔ _
  cases p.event with
  | userRegistered a recipient code fullName =>
    exact (object_otpCode_iff _ _ _ code secret).trans Option.some_inj.symm
  | userEmailConfirmed a target => exact ⟨fun _ => rfl, fun _ => rfl⟩
  | forgotPasswordStep1 a recipient code =>
    exact (object_otpCode_iff _ _ _ code secret).trans Option.some_inj.symm
  | forgotPasswordStep2 a recipient password fullName =>
    refine ⟨fun _ => rfl, fun _ => ?_⟩
    simp only [fields, withSecret, List.map_cons, entryText_newPassword]

/-! ## Two runs -/

theorem className_withSecret (p : Publication) (secret : String) :
    className (p.withSecret secret).event = className p.event := by
  unfold Publication.withSecret
  cases p.event <;> rfl

theorem handlerLines_withSecret (p : Publication) (secret : String) (context : Context)
    (hdump : dumpText uuid enc p = dumpText uuid enc (p.withSecret secret)) (hs : List Handling) :
    handlerLines uuid enc service (p.withSecret secret) context hs =
      handlerLines uuid enc service p context hs := by
  induction hs with
  | nil => rfl
  | cons h hs ih =>
    unfold handlerLines
    rw [className_withSecret, ih, info_modelDump, info_modelDump, ← hdump]
    rfl

theorem length_handlerLines (p : Publication) (secret : String) (context : Context)
    (hs : List Handling) :
    (handlerLines uuid enc service (p.withSecret secret) context hs).length =
      (handlerLines uuid enc service p context hs).length := by
  induction hs with
  | nil => rfl
  | cons h hs ih =>
    have hid : (p.withSecret secret).eventId = p.eventId := rfl
    unfold handlerLines
    rw [className_withSecret, info_modelDump, info_modelDump, hid]
    by_cases hraised : h.raised = true
    · simp only [hraised, if_true, List.length_singleton]
    · simp only [hraised]
      cases info enc service context h.after
          (context.traceId ++ " - After handling event: " ++ className p.event ++
            ". Completed in: " ++ h.elapsed) [("event_id", .scalar (.uuid (uuid p.eventId)))] with
      | none => simp only [Bool.false_eq_true, if_false, List.length_singleton]
      | some after =>
        simp only [Bool.false_eq_true, if_false, List.length_cons]
        rw [ih]

theorem lines_of_context {p : Publication} {context : Context} (h : p.context = some context) :
    lines uuid enc service p =
      String.ofList (lineAround enc service context p.published
        (context.traceId ++ " - Event published") (dumpText uuid enc p)) ::
          handlerLines uuid enc service p context p.handlings := by
  unfold lines
  rw [h]
  show (match info .. with | none => _ | some line => _) = _
  rw [info_modelDump]

theorem length_lines (p : Publication) (secret : String) :
    (lines uuid enc service (p.withSecret secret)).length = (lines uuid enc service p).length := by
  cases hcontext : p.context with
  | none =>
    unfold lines Publication.withSecret
    simp only [hcontext]
  | some context =>
    rw [lines_of_context hcontext, lines_of_context (p := p.withSecret secret) hcontext]
    exact congrArg (· + 1) (length_handlerLines p secret context p.handlings)

/-- A code is shown as it is, or the mark stands for it. -/
theorem filter_visible (code : String) :
    (some code).filter Visible =
      if maskedCode code = OMITTED then none else some (maskedCode code) := by
  unfold maskedCode
  by_cases hbin : looksBinary (.str code) = true
  · simp [Visible, hbin]
  · by_cases homitted : code = OMITTED
    · simp [Visible, homitted]
    · simp [Visible, hbin, homitted]

theorem maskedCode_eq_iff (code code' : String) :
    maskedCode code = maskedCode code' ↔
      (some code).filter Visible = (some code').filter Visible := by
  rw [filter_visible, filter_visible]
  by_cases h : maskedCode code = OMITTED
  · by_cases h' : maskedCode code' = OMITTED
    · simp [h, h']
    · simp [h, h', Ne.symm h']
  · by_cases h' : maskedCode code' = OMITTED
    · simp [h, h']
    · simp [h, h']

/-- One publication writes the same lines in both runs exactly when it shows the same code. -/
theorem lines_withSecret_iff (uuid : Id → String) (enc : Encoder) (service : String)
    (p : Publication) (secret : String) :
    lines uuid enc service p = lines uuid enc service (p.withSecret secret) ↔
      shownCode p = shownCode (p.withSecret secret) := by
  cases hcontext : p.context with
  | none =>
    unfold lines shownCode Publication.withSecret
    simp only [hcontext, Option.bind_none]
  | some context =>
    have hcontext' : (p.withSecret secret).context = some context := hcontext
    have hcodes : shownCode p = shownCode (p.withSecret secret) ↔
        (otpCode p.event).map maskedCode =
          (otpCode (withSecret secret p.event)).map maskedCode := by
      unfold shownCode
      rw [hcontext, hcontext']
      show (otpCode p.event).filter _ = (otpCode (withSecret secret p.event)).filter _ ↔ _
      cases p.event with
      | userRegistered a recipient code fullName =>
        exact (maskedCode_eq_iff code secret).symm.trans Option.some_inj.symm
      | userEmailConfirmed a target => exact ⟨fun _ => rfl, fun _ => rfl⟩
      | forgotPasswordStep1 a recipient code =>
        exact (maskedCode_eq_iff code secret).symm.trans Option.some_inj.symm
      | forgotPasswordStep2 a recipient password fullName => exact ⟨fun _ => rfl, fun _ => rfl⟩
    rw [hcodes, ← dumpText_withSecret_iff uuid enc, lines_of_context hcontext,
      lines_of_context hcontext']
    constructor
    · intro h
      have hline := String.ofList_inj.mp (List.cons.inj h).1
      exact (framed_lineAround context p.published _).inj hline
    · intro h
      rw [← h]
      exact congrArg _ (handlerLines_withSecret p secret context h p.handlings).symm

/-- **Two runs that differ only in their one-time codes and new passwords write the same lines
exactly when they show the same codes.** New passwords never reach the log. -/
theorem sameLines_iff {run run' : List Publication}
    (h : List.Forall₂ (fun p p' => ∃ secret, p' = p.withSecret secret) run run') :
    run.flatMap (lines uuid enc service) = run'.flatMap (lines uuid enc service) ↔
      run.map shownCode = run'.map shownCode := by
  induction h with
  | nil => exact ⟨fun _ => rfl, fun _ => rfl⟩
  | @cons p p' run run' hp _ ih =>
    obtain ⟨secret, rfl⟩ := hp
    rw [List.flatMap_cons, List.flatMap_cons, List.map_cons, List.map_cons, List.cons_eq_cons,
      ← ih, ← lines_withSecret_iff uuid enc service]
    constructor
    · intro heq
      exact List.append_inj heq (length_lines p secret).symm
    · rintro ⟨hp, hrest⟩
      rw [hp, hrest]

/-- An encoder for runs at times without a fraction. -/
def wholeSeconds : Encoder where
  float x := (toString x.num).toList ++ ".0".toList
  bytes _ := []

def oneUuid (_ : Id) : String := "01890a5d-ac96-774b-bcce-b302099a8057"

/-- An event of Ann, in a request, with one handler. -/
def publicationOf (event : DomainEvent) : Publication where
  event := event
  eventId := 1
  occurredOn := 5
  context := some { traceId := "01890a5d-ac96-774b-bcce-b302099a8057", userId := none }
  published := 6
  handlings := [{ before := 7, after := 8, elapsed := "1.0", raised := false }]

theorem sameLines_newPassword :
    [publicationOf (.forgotPasswordStep2 2 "ann@example.com" "hunter2" "Ann")].flatMap
        (lines oneUuid wholeSeconds "api") =
      [publicationOf (.forgotPasswordStep2 2 "ann@example.com" "correct horse" "Ann")].flatMap
        (lines oneUuid wholeSeconds "api") :=
  (sameLines_iff (.cons ⟨"correct horse", rfl⟩ .nil)).mpr rfl

/-- The code of a registration is written to the log. -/
theorem not_sameLines_otpCode :
    lines oneUuid wholeSeconds "api"
        (publicationOf (.userRegistered 2 "ann@example.com" "123456" "Ann")) ≠
      lines oneUuid wholeSeconds "api"
        (publicationOf (.userRegistered 2 "ann@example.com" "654321" "Ann")) := by
  intro h
  have hshown := (lines_withSecret_iff oneUuid wholeSeconds "api"
    (publicationOf (.userRegistered 2 "ann@example.com" "123456" "Ann")) "654321").mp h
  exact absurd hshown (by decide)

end ApiTemplate.Telemetry
