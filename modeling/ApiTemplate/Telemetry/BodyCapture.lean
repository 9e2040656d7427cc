import ApiTemplate.Stream.Bounded
import ApiTemplate.Telemetry.Http

/-!
# The captured body

`TelemetryMiddleware.__call__` around an application that receives and sends ASGI messages. The
wrapper of `receive` copies what still fits of each chunk and hands every message on as it is. The
event shows what the copied bytes decode to, which is not what the body decodes to when the copy
ends before the body does.
-/

namespace ApiTemplate.Telemetry

/-! ## Applications -/

/-- A message that `receive` returns. `body` is none where the message has none. -/
structure ReceiveMessage where
  type : String
  body : Option Bytes := none
  moreBody : Bool := false

/-- A message given to `send`. -/
inductive SendMessage
  | start (status : ℤ)
  | body (bytes : Bytes)

/-- How a call of an application ends. It is cancelled when it awaits a message that never comes. -/
inductive Ending
  | returned
  | raised (exc : Raised)
  | cancelled

/-- An application, by what it does next. -/
inductive App
  | finish (ending : Ending)
  | receive (next : ReceiveMessage → App)
  | send (message : SendMessage) (next : App)

/-- What an application and its server see of a call. -/
structure Exchange where
  received : List ReceiveMessage := []
  sent : List SendMessage := []
  ending : Ending

/-- The messages of a server answered by an application. -/
def App.run : App → List ReceiveMessage → Exchange
  | .finish ending, _ => { ending }
  | .receive _, [] => { ending := .cancelled }
  | .receive next, message :: messages =>
    let exchange := (next message).run messages
    { exchange with received := message :: exchange.received }
  | .send message next, messages =>
    let exchange := next.run messages
    { exchange with sent := message :: exchange.sent }

/-- The bytes of a body that arrived in some messages. -/
def bodyOf (received : List ReceiveMessage) : Bytes :=
  ((received.filter (·.type = "http.request")).map (·.body.getD [])).flatten

/-! ## `TelemetryMiddleware.__call__` -/

/-- The variables of a call that its wrappers write. -/
structure Captured where
  bodyBuf : Bytes := []
  status : Option ℤ := none

def receiveWrapper (captured : Captured) (message : ReceiveMessage) :
    ReceiveMessage × Captured :=
  if message.type = "http.request" ∧ captured.bodyBuf.length < MAX_BODY_BYTES then
    let chunk := message.body.getD []
    if chunk ≠ [] then
      (message, { captured with
        bodyBuf := captured.bodyBuf ++ chunk.take (MAX_BODY_BYTES - captured.bodyBuf.length) })
    else (message, captured)
  else (message, captured)

def sendWrapper (captured : Captured) (message : SendMessage) : SendMessage × Captured :=
  match message with
  | .start status => (message, { captured with status := some status })
  | .body _ => (message, captured)

/-- `self.app(scope, receive_wrapper if capture else receive, send_wrapper)` -/
def App.runWrapped (capture : Bool) :
    App → List ReceiveMessage → Captured → Exchange × Captured
  | .finish ending, _, captured => ({ ending }, captured)
  | .receive _, [], captured => ({ ending := .cancelled }, captured)
  | .receive next, message :: messages, captured =>
    let wrapped := if capture then receiveWrapper captured message else (message, captured)
    let result := (next wrapped.1).runWrapped capture messages wrapped.2
    ({ result.1 with received := wrapped.1 :: result.1.received }, result.2)
  | .send message next, messages, captured =>
    let wrapped := sendWrapper captured message
    let result := next.runWrapped capture messages wrapped.2
    ({ result.1 with sent := wrapped.1 :: result.1.sent }, result.2)

/-- What is left of a call: what was exchanged, what was captured and the event emitted. -/
structure MiddlewareCall where
  exchange : Exchange
  captured : Captured := {}
  event : Option TelemetryEvent := none

section

variable (jsonDecode : Bytes → Option Value)

/-- `TelemetryMiddleware.__call__` for a scope of some type. The event is emitted however the
application ends. -/
def TelemetryMiddleware.call (context : Option Context) (scopeType : String) (scope : Scope)
    (app : App) (messages : List ReceiveMessage) (execMs now : ℚ) : MiddlewareCall :=
  if scopeType ≠ "http" then { exchange := app.run messages }
  else
    let contentType := header scope "content-type"
    let capture := shouldCaptureBody contentType
    let (exchange, captured) := app.runWrapped capture messages {}
    let body := if capture then some captured.bodyBuf else none
    let outcome : Outcome := { raised := none, status := captured.status, execMs, now }
    { exchange, captured
      event := some { httpEvent jsonDecode context scope outcome with
        data := parseJsonBody jsonDecode body contentType } }

end

/-! ## What the wrapper copies -/

theorem bodyOf_cons (message : ReceiveMessage) (received : List ReceiveMessage) :
    bodyOf (message :: received) =
      (if message.type = "http.request" then message.body.getD [] else []) ++ bodyOf received := by
  unfold bodyOf
  by_cases htype : message.type = "http.request"
  · simp [htype]
  · simp [htype]

theorem receiveWrapper_fst (captured : Captured) (message : ReceiveMessage) :
    (receiveWrapper captured message).1 = message := by
  unfold receiveWrapper
  dsimp only
  split_ifs <;> rfl

/-- The buffer takes what still fits of the body of a message. -/
theorem receiveWrapper_bodyBuf (captured : Captured) (message : ReceiveMessage) :
    (receiveWrapper captured message).2.bodyBuf =
      Bounded.push MAX_BODY_BYTES captured.bodyBuf (bodyOf [message]) := by
  have hbody : bodyOf [message] =
      if message.type = "http.request" then message.body.getD [] else [] := by
    rw [bodyOf_cons, show bodyOf [] = [] from rfl, List.append_nil]
  rw [hbody]
  unfold receiveWrapper
  by_cases htype : message.type = "http.request"
  · by_cases hlt : captured.bodyBuf.length < MAX_BODY_BYTES
    · by_cases hchunk : message.body.getD [] = []
      · rw [if_pos ⟨htype, hlt⟩, if_neg (not_not.mpr hchunk), if_pos htype, hchunk,
          Bounded.push_nil]
      · rw [if_pos ⟨htype, hlt⟩, if_pos hchunk, if_pos htype, Bounded.push, if_pos hlt]
    · rw [if_neg fun h => hlt h.2, Bounded.push, if_neg hlt]
  · rw [if_neg fun h => htype h.1, if_neg htype, Bounded.push_nil]

theorem sendWrapper_fst (captured : Captured) (message : SendMessage) :
    (sendWrapper captured message).1 = message := by
  cases message <;> rfl

theorem sendWrapper_bodyBuf (captured : Captured) (message : SendMessage) :
    (sendWrapper captured message).2.bodyBuf = captured.bodyBuf := by
  cases message <;> rfl

/-- The application and its server see what they see without the wrappers. -/
theorem runWrapped_fst (capture : Bool) (app : App) (messages : List ReceiveMessage)
    (captured : Captured) : (app.runWrapped capture messages captured).1 = app.run messages := by
  induction app generalizing messages captured with
  | finish ending => rfl
  | receive next ih =>
    cases messages with
    | nil => rfl
    | cons message messages =>
      have hmessage : (if capture then receiveWrapper captured message
          else (message, captured)).1 = message := by
        split_ifs
        · exact receiveWrapper_fst captured message
        · rfl
      simp only [App.runWrapped, App.run, hmessage, ih]
  | send message next ih =>
    simp only [App.runWrapped, App.run, sendWrapper_fst, ih]

/-- The wrapper adds what was received to what the buffer holds the beginning of. -/
theorem runWrapped_bodyBuf (app : App) (messages : List ReceiveMessage) (captured : Captured)
    (all : Bytes) (h : captured.bodyBuf = all.take MAX_BODY_BYTES) :
    (app.runWrapped true messages captured).2.bodyBuf =
      (all ++ bodyOf (app.run messages).received).take MAX_BODY_BYTES := by
  induction app generalizing messages captured all with
  | finish ending => simpa [App.runWrapped, App.run, bodyOf] using h
  | receive next ih =>
    cases messages with
    | nil => simpa [App.runWrapped, App.run, bodyOf] using h
    | cons message messages =>
      have hbuf : (receiveWrapper captured message).2.bodyBuf =
          (all ++ bodyOf [message]).take MAX_BODY_BYTES := by
        rw [receiveWrapper_bodyBuf, h, Bounded.push_take]
      have hcons : bodyOf [message] ++ bodyOf ((next message).run messages).received =
          bodyOf (message :: ((next message).run messages).received) := by
        rw [bodyOf_cons, bodyOf_cons, show bodyOf [] = [] from rfl, List.append_nil]
      simp only [App.runWrapped, App.run, if_true, receiveWrapper_fst]
      rw [ih message messages _ _ hbuf, List.append_assoc, hcons]
  | send message next ih =>
    simp only [App.runWrapped, App.run]
    exact ih messages _ all ((sendWrapper_bodyBuf captured message).trans h)

/-- Nothing is copied through the bare `receive`. -/
theorem runWrapped_bodyBuf_bare (app : App) (messages : List ReceiveMessage)
    (captured : Captured) :
    (app.runWrapped false messages captured).2.bodyBuf = captured.bodyBuf := by
  induction app generalizing messages captured with
  | finish ending => rfl
  | receive next ih =>
    cases messages with
    | nil => rfl
    | cons message messages => exact ih message messages captured
  | send message next ih =>
    simp only [App.runWrapped]
    rw [ih, sendWrapper_bodyBuf]

/-! ## What the event shows -/

variable {jsonDecode : Bytes → Option Value}

theorem parseJsonBody_eq (body : Option Bytes) (contentType : Option String) :
    parseJsonBody jsonDecode body contentType = none ∨
      ∃ bytes v, body = some bytes ∧ jsonDecode bytes = some v ∧
        parseJsonBody jsonDecode body contentType = some (mask 0 v) := by
  cases body with
  | none => exact .inl rfl
  | some bytes =>
    unfold parseJsonBody
    dsimp only
    split_ifs with hskip
    · exact .inl rfl
    · cases hdecode : jsonDecode bytes with
      | none => exact .inl rfl
      | some v =>
        cases v with
        | scalar s =>
          cases s with
          | none => exact .inl rfl
          | _ => exact .inr ⟨bytes, _, rfl, hdecode, rfl⟩
        | _ => exact .inr ⟨bytes, _, rfl, hdecode, rfl⟩

section

variable (jsonDecode) (context : Option Context) (scope : Scope) (app : App)
  (messages : List ReceiveMessage) (execMs now : ℚ)

theorem TelemetryMiddleware.call_exchange :
    (TelemetryMiddleware.call jsonDecode context "http" scope app messages execMs now).exchange =
      app.run messages :=
  runWrapped_fst (shouldCaptureBody (header scope "content-type")) app messages {}

theorem TelemetryMiddleware.call_bodyBuf :
    (TelemetryMiddleware.call jsonDecode context "http" scope app messages execMs
        now).captured.bodyBuf =
      if shouldCaptureBody (header scope "content-type") then
        (bodyOf (app.run messages).received).take MAX_BODY_BYTES
      else [] := by
  show (app.runWrapped (shouldCaptureBody (header scope "content-type")) messages {}).2.bodyBuf = _
  cases hcapture : shouldCaptureBody (header scope "content-type") with
  | true => rw [if_pos rfl, runWrapped_bodyBuf app messages {} [] rfl, List.nil_append]
  | false => exact runWrapped_bodyBuf_bare app messages {}

/-- The event is that of a request with the body that was received. -/
theorem TelemetryMiddleware.call_event :
    let call := TelemetryMiddleware.call jsonDecode context "http" scope app messages execMs now
    call.event = some (httpEvent jsonDecode context
      { scope with body := bodyOf (app.run messages).received }
      { raised := none, status := call.captured.status, execMs, now }) := by
  intro call
  have hbody : (if shouldCaptureBody (header scope "content-type") then
      some call.captured.bodyBuf else none) =
        if shouldCaptureBody (header scope "content-type") then
          some ((bodyOf (app.run messages).received).take MAX_BODY_BYTES) else none := by
    split_ifs with hcapture
    · rw [call_bodyBuf, if_pos hcapture]
    · rfl
  exact congrArg (fun body => some { httpEvent jsonDecode context scope
    { raised := none, status := call.captured.status, execMs, now } with
      data := parseJsonBody jsonDecode body (header scope "content-type") }) hbody

/-- **The application receives every message as it is, the buffer holds the beginning of a body that
is captured and nothing of one that is not, and the event shows nothing or the masked value of the
bytes in the buffer.** -/
theorem TelemetryMiddleware.call_captured :
    let call := TelemetryMiddleware.call jsonDecode context "http" scope app messages execMs now
    let capture := shouldCaptureBody (header scope "content-type")
    let bytes := (bodyOf call.exchange.received).take MAX_BODY_BYTES
    call.exchange = app.run messages ∧
      call.captured.bodyBuf = (if capture then bytes else []) ∧
      ∃ event, call.event = some event ∧ (event.data = none ∨
        ∃ v, capture = true ∧ jsonDecode bytes = some v ∧ event.data = some (mask 0 v)) := by
  intro call capture bytes
  have hexchange : call.exchange = app.run messages := call_exchange ..
  have hbytes : bytes = (bodyOf (app.run messages).received).take MAX_BODY_BYTES :=
    congrArg (fun exchange : Exchange => (bodyOf exchange.received).take MAX_BODY_BYTES) hexchange
  refine ⟨hexchange, hbytes ▸ call_bodyBuf .., _, call_event .., ?_⟩
  refine (parseJsonBody_eq _ _).imp_right ?_
  rintro ⟨bytes', v, hbody, hdecode, hdata⟩
  have hbody' : (if capture then some bytes else none) = some bytes' := hbytes ▸ hbody
  obtain ⟨hcapture, rfl⟩ : capture = true ∧ bytes = bytes' := by simpa using hbody'
  exact ⟨v, hcapture, hdecode, hdata⟩

end

/-! ## A body that goes on behind a value -/

/-- A decoder for the number one with blanks behind it. -/
def decodeOne : Bytes → Option Value
  | 49 :: blanks => if blanks.all (· = 32) then some (.scalar (.int 1)) else none
  | _ => none

/-- An application that reads one message and answers. -/
def readOnce : App := .receive fun _ => .send (.start 200) (.finish .returned)

def jsonRequest (contentType : String) : Scope where
  method := some "POST"
  baseUrl := "https://example.com/api/v1/users"
  path := "/api/v1/users"
  headers := [("content-type", contentType)]

/-- A one, as many blanks as the buffer holds and a two. -/
def paddedBody : Bytes := 49 :: List.replicate MAX_BODY_BYTES 32 ++ [50]

theorem decodeOne_one (blanks : Bytes) :
    decodeOne (49 :: blanks) =
      if blanks.all (· = 32) then some (.scalar (.int 1)) else none := rfl

theorem decodeOne_take : decodeOne (paddedBody.take MAX_BODY_BYTES) = some (.scalar (.int 1)) := by
  have htake : paddedBody.take MAX_BODY_BYTES = 49 :: List.replicate (MAX_BODY_BYTES - 1) 32 := by
    unfold paddedBody
    rw [List.cons_append, show MAX_BODY_BYTES = MAX_BODY_BYTES - 1 + 1 from rfl,
      List.take_succ_cons, List.take_append_of_le_length (by simp), List.take_replicate]
    simp
  rw [htake, decodeOne_one, if_pos (by simp)]

theorem decodeOne_paddedBody : decodeOne paddedBody = none := by
  unfold paddedBody
  rw [List.cons_append, decodeOne_one, if_neg (by simp)]

theorem bodyOf_readOnce (body : Bytes) :
    bodyOf (readOnce.run [{ type := "http.request", body := some body }]).received = body := by
  show bodyOf [_] = body
  rw [bodyOf_cons, if_pos rfl]
  exact List.append_nil body

/-- The event of a request whose body is padded shows the number one. -/
theorem data_paddedBody {scope : Scope} (outcome : Outcome)
    (hcapture : shouldCaptureBody (header scope "content-type") = true)
    (hbody : scope.body = paddedBody) :
    (httpEvent decodeOne none scope outcome).data = some (mask 0 (.scalar (.int 1))) := by
  have hne : ¬(paddedBody.take MAX_BODY_BYTES = [] ∨
      ¬shouldCaptureBody (header scope "content-type")) := by
    rintro (hempty | hskip)
    · have hdecode := decodeOne_take
      rw [hempty] at hdecode
      exact absurd hdecode (Option.some_ne_none _).symm
    · exact hskip hcapture
  show parseJsonBody decodeOne (if shouldCaptureBody (header scope "content-type") then
    some (scope.body.take MAX_BODY_BYTES) else none) (header scope "content-type") = _
  rw [if_pos hcapture, hbody]
  unfold parseJsonBody
  dsimp only
  rw [if_neg hne, decodeOne_take]

/-- A body that goes on behind a value that fills the buffer is not JSON, and the event shows the
value. A body that is not captured leaves the buffer empty. -/
theorem not_call_captured :
    (let call := TelemetryMiddleware.call decodeOne none "http" (jsonRequest "application/json")
        readOnce [{ type := "http.request", body := some paddedBody }] 3 5
      ∃ event, call.event = some event ∧ event.data ≠ none ∧
        ∀ v, decodeOne (bodyOf call.exchange.received) = some v →
          event.data ≠ some (mask 0 v)) ∧
    let call := TelemetryMiddleware.call decodeOne none "http" (jsonRequest "text/plain")
      readOnce [{ type := "http.request", body := some [49] }] 3 5
    call.captured.bodyBuf ≠ (bodyOf call.exchange.received).take MAX_BODY_BYTES := by
  refine ⟨⟨_, TelemetryMiddleware.call_event .., ?_⟩, ?_⟩
  · rw [data_paddedBody _ (by decide +kernel) (bodyOf_readOnce paddedBody)]
    refine ⟨Option.some_ne_none _, fun v hv => ?_⟩
    rw [TelemetryMiddleware.call_exchange, bodyOf_readOnce, decodeOne_paddedBody] at hv
    exact absurd hv (Option.some_ne_none v).symm
  · intro call
    rw [show call.captured.bodyBuf = _ from TelemetryMiddleware.call_bodyBuf ..,
      show call.exchange = _ from TelemetryMiddleware.call_exchange .., bodyOf_readOnce]
    decide +kernel

end ApiTemplate.Telemetry
