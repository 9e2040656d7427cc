import ApiTemplate.Errors.AppException

/-!
# Posting to other hosts

`HttpClient.post` answers with a `Result`: `Ok` for a response that decodes, `Err` for what its
handlers catch. The handlers read too: the first one a `response` that a timeout does not carry, the
second one the third piece of the url. What they raise leaves `post`.
-/

namespace ApiTemplate.Outbound.HttpClient

open Errors

variable {B J D T α : Type}

/-- `httpx.Response`, what is read of it. -/
structure Response (B : Type) where
  statusCode : ℕ
  body : B

/-- Exceptions. `requestError` is a `RequestError` that is no `TimeoutException`, `other` is none of
`httpx`'s: a url that is refused, a payload without a JSON text, a body that does not decode. -/
inductive Exn (B : Type)
  | httpStatusError (response : Response B)
  | timeoutException
  | requestError
  | attributeError (text : String)
  | indexError
  | other (text : String)

/-- `e.response` -/
def Exn.response : Exn B → Except (Exn B) (Response B)
  | .httpStatusError response => .ok response
  | .timeoutException =>
    .error (.attributeError "'TimeoutException' object has no attribute 'response'")
  | _ => .error (.attributeError "object has no attribute 'response'")

/-- `response.is_success` -/
def Response.isSuccess (response : Response B) : Bool :=
  200 ≤ response.statusCode ∧ response.statusCode ≤ 299

def Response.raiseForStatus (response : Response B) : Except (Exn B) (Response B) :=
  if response.isSuccess then .ok response else .error (.httpStatusError response)

/-! ## `http_client.py` -/

structure Request (D : Type) where
  url : String
  json : D
  timeout : ℕ
  headers : List (String × String)

inductive Level
  | info
  | error
  deriving DecidableEq

/-- `extra["payload"]`: what is posted, or the further keywords of `_log_err`. -/
inductive Payload (D : Type)
  | posted (data : D)
  | keywords (payload : List (String × D))

structure LogRecord (B D : Type) where
  level : Level
  message : String
  payload : Payload D
  data : Option D := none
  url : Option String := none
  excInfo : Option (Exn B) := none

/-- Code that logs and may raise. -/
abbrev Py (B D α : Type) : Type := EStateM (Exn B) (List (LogRecord B D)) α

def log (record : LogRecord B D) : Py B D Unit := modify fun records => records ++ [record]

/-- What `Result` wraps: `Ok` or `Err`. -/
inductive Result (T J : Type)
  | ok (value : T)
  | err (error : AppExceptionDetail J)

/-- `AppExceptionStatusCodes.UNEXPECTED_RESPONSE` -/
def UNEXPECTED_RESPONSE : ℤ := 10002

/-- `HttpClient._log_err` for a post, which gives it no further keywords. -/
def logErr (e : Exn B) (url : String) (response : Option (Response B)) (data : D) : Py B D Unit :=
  let statusCode := match response with
    | some response => toString response.statusCode
    | none => "undefined"
  log {
    level := .error
    message := "Error on POST to " ++ url ++ " with status code " ++ statusCode
    payload := .keywords []
    data := some data
    excInfo := some e }

/-- `url.split('/')[i]` -/
def piece (url : String) (i : ℕ) : Except (Exn B) String :=
  match (url.toList.splitOn '/')[i]? with
  | some cs => .ok (String.ofList cs)
  | none => .error .indexError

def unexpected (message : String) : Result T J :=
  .err { status := UNEXPECTED_RESPONSE, message := some message }

def fullUrl (useTls : Bool) (url : String) : String :=
  (if useTls then "https" else "http") ++ "://" ++ url

/-- The `try` block around the request: the client sends it, its redirects followed. -/
def send (client : Request D → Except (Exn B) (Response B)) (request : Request D) :
    Except (Exn B) (Response B) := do
  let response ← client request
  response.raiseForStatus

/-- `dto(**response.json())` -/
def decode (json : B → Except (Exn B) J) (dto : Option (J → Except (Exn B) T))
    (response : Response B) : Except (Exn B) T := do
  let members ← json response.body
  match dto with
  | some dto => dto members
  | none => throw (.other "'NoneType' object is not callable")

/-- What is raised on the way leaves the function. -/
def raising (x : Except (Exn B) α) : Py B D α :=
  match x with
  | .ok a => pure a
  | .error e => throw e

def onBadAnswer (e : Exn B) (url : String) (data : D) : Py B D (Result T α) := do
  logErr e url (some (← raising e.response)) data
  return unexpected ("При запросе на хост '" ++ (← raising (piece url 0)) ++
    "', сервер ответил не так как ожидалось")

def onRequestError (e : Exn B) (url : String) (data : D) : Py B D (Result T α) := do
  logErr e url none data
  return unexpected ("При запросе на хост '" ++ (← raising (piece url 2)) ++
    "' произошла неожиданная ошибка сети")

def post (client : Request D → Except (Exn B) (Response B))
    (json : B → Except (Exn B) J) (url : String) (data : D) (timeout : ℕ := 5)
    (useTls : Bool := true) (dto : Option (J → Except (Exn B) T) := none)
    (headers : List (String × String) := []) : Py B D (Result T α) := do
  log {
    level := .info
    message := "Post to " ++ fullUrl useTls url
    payload := .posted data }
  match send client ⟨fullUrl useTls url, data, timeout, headers⟩ with
  | .error .timeoutException => onBadAnswer .timeoutException url data
  | .error (.httpStatusError response) => onBadAnswer (.httpStatusError response) url data
  | .error .requestError => onRequestError .requestError url data
  | .error e => throw e
  | .ok response =>
    match decode json dto response with
    | .ok value => return .ok value
    | .error e =>
      log {
        level := .error
        message := "Error on decoding post request"
        payload := .posted data
        url := some (fullUrl useTls url)
        excInfo := some e }
      return unexpected "Ошибка при конвертации данных полученных с сервера"

/-! ## What leaves `post` -/

/-- `post` returns: `Ok` exactly for a response that is no error and that decodes. -/
def Answers (α : Type) (client : Request D → Except (Exn B) (Response B))
    (json : B → Except (Exn B) J) (url : String) (data : D) (timeout : ℕ) (useTls : Bool)
    (dto : Option (J → Except (Exn B) T)) (headers : List (String × String)) : Prop :=
  ∀ records, ∃ result records',
    (post client json url data timeout useTls dto headers : Py B D (Result T α)) records =
      .ok result records' ∧
    ∀ value, result = .ok value ↔
      ∃ response, client ⟨fullUrl useTls url, data, timeout, headers⟩ = .ok response ∧
        response.isSuccess = true ∧ decode json dto response = .ok value

/-- The handlers answer for this end of a request to `url`. -/
def Handled (url : String) : Except (Exn B) (Response B) → Prop
  | .ok _ => True
  | .error (.httpStatusError _) => True
  | .error .requestError => 2 ≤ url.toList.count '/'
  | .error _ => False

theorem length_splitOn (cs : List Char) (c : Char) : (cs.splitOn c).length = cs.count c + 1 := by
  induction cs with
  | nil => rfl
  | cons d cs ih =>
    rw [List.splitOn_cons_eq_if_modifyHead]
    by_cases hd : d = c
    · subst hd
      simp [ih]
    · simp [hd, ih]

/-- The split at `i` is there exactly from `i` separators on. -/
theorem piece_ok_iff (url : String) (i : ℕ) :
    (∃ text, (piece url i : Except (Exn B) String) = .ok text) ↔ i ≤ url.toList.count '/' := by
  have hlen := length_splitOn url.toList '/'
  unfold piece
  cases h : (url.toList.splitOn '/')[i]? with
  | some cs =>
    obtain ⟨hi, -⟩ := List.getElem?_eq_some_iff.mp h
    exact iff_of_true ⟨_, rfl⟩ (by omega)
  | none =>
    have hi := List.getElem?_eq_none_iff.mp h
    exact iff_of_false (by rintro ⟨_, h⟩; cases h) (by omega)

theorem onBadAnswer_returns (response : Response B) (url : String) (data : D)
    (records : List (LogRecord B D)) :
    ∃ error records', (onBadAnswer (.httpStatusError response) url data :
      Py B D (Result T α)) records = .ok (.err error) records' := by
  obtain ⟨host, hhost⟩ := (piece_ok_iff (B := B) url 0).mpr (Nat.zero_le _)
  simp only [onBadAnswer, hhost]
  exact ⟨_, _, rfl⟩

theorem onRequestError_returns {url : String} (hcount : 2 ≤ url.toList.count '/') (e : Exn B)
    (data : D) (records : List (LogRecord B D)) :
    ∃ error records', (onRequestError e url data : Py B D (Result T α)) records =
      .ok (.err error) records' := by
  obtain ⟨host, hhost⟩ := (piece_ok_iff (B := B) url 2).mpr hcount
  simp only [onRequestError, hhost]
  exact ⟨_, _, rfl⟩

theorem onRequestError_raises {url : String} (hcount : ¬2 ≤ url.toList.count '/') (e : Exn B)
    (data : D) (records : List (LogRecord B D)) :
    ∃ records', (onRequestError e url data : Py B D (Result T α)) records =
      .error .indexError records' := by
  have hpiece : (piece url 2 : Except (Exn B) String) = .error .indexError := by
    have hlen := length_splitOn url.toList '/'
    rw [piece, List.getElem?_eq_none_iff.mpr (by omega)]
  simp only [onRequestError, hpiece]
  exact ⟨_, rfl⟩

/-! ## Ends of a request -/

section

variable {client : Request D → Except (Exn B) (Response B)} (json : B → Except (Exn B) J)
  {url : String} {data : D} {timeout : ℕ} {useTls : Bool} (dto : Option (J → Except (Exn B) T))
  {headers : List (String × String)}

theorem answers_of_response {response : Response B}
    (hclient : client ⟨fullUrl useTls url, data, timeout, headers⟩ = .ok response) :
    Answers α client json url data timeout useTls dto headers := by
  intro records
  cases hsuccess : response.isSuccess with
  | false =>
    have hsend : send client ⟨fullUrl useTls url, data, timeout, headers⟩ =
        .error (.httpStatusError response) := by
      simp [send, hclient, Response.raiseForStatus, hsuccess, bind, Except.bind]
    obtain ⟨error, records', h⟩ := onBadAnswer_returns (T := T) (α := α) response url data _
    simp only [post, hsend]
    refine ⟨.err error, records', h, fun value => iff_of_false (by rintro ⟨⟩) ?_⟩
    rintro ⟨response', hresponse', hsuccess', -⟩
    obtain rfl := Except.ok.inj (hclient.symm.trans hresponse')
    simp [hsuccess] at hsuccess'
  | true =>
    have hsend : send client ⟨fullUrl useTls url, data, timeout, headers⟩ = .ok response := by
      simp [send, hclient, Response.raiseForStatus, hsuccess, bind, Except.bind]
    cases hdecode : decode json dto response with
    | ok value =>
      simp only [post, hsend, hdecode]
      refine ⟨.ok value, _, rfl, fun value' => ⟨?_, ?_⟩⟩
      · rintro ⟨⟩
        exact ⟨response, hclient, hsuccess, hdecode⟩
      · rintro ⟨response', hresponse', -, hdecode'⟩
        obtain rfl := Except.ok.inj (hclient.symm.trans hresponse')
        rw [Except.ok.inj (hdecode.symm.trans hdecode')]
    | error e =>
      simp only [post, hsend, hdecode]
      refine ⟨_, _, rfl, fun value' => iff_of_false (by rintro ⟨⟩) ?_⟩
      rintro ⟨response', hresponse', -, hdecode'⟩
      obtain rfl := Except.ok.inj (hclient.symm.trans hresponse')
      rw [hdecode] at hdecode'
      cases hdecode'

theorem send_error {request : Request D} {e : Exn B} (hclient : client request = .error e) :
    send client request = .error e := by
  rw [send, hclient]
  rfl

/-- An exception that a handler turns into an error is an answer. -/
theorem answers_of_err {e : Exn B}
    (hclient : client ⟨fullUrl useTls url, data, timeout, headers⟩ = .error e)
    (h : ∀ records, ∃ error records',
      (post client json url data timeout useTls dto headers : Py B D (Result T α)) records =
        .ok (.err error) records') :
    Answers α client json url data timeout useTls dto headers := by
  intro records
  obtain ⟨error, records', h⟩ := h records
  refine ⟨_, _, h, fun value => iff_of_false (by rintro ⟨⟩) ?_⟩
  rintro ⟨response, hresponse, -⟩
  rw [hclient] at hresponse
  cases hresponse

theorem not_answers_of_raises
    (h : ∃ e records, (post client json url data timeout useTls dto headers :
      Py B D (Result T α)) [] = .error e records) :
    ¬Answers α client json url data timeout useTls dto headers := by
  obtain ⟨e, records, hraises⟩ := h
  intro hanswers
  obtain ⟨result, records', hreturns, -⟩ := hanswers []
  rw [hraises] at hreturns
  cases hreturns

/-- What no handler catches leaves `post`; and so does what the handler of a timeout raises. -/
theorem not_answers_of_unhandled {e : Exn B}
    (hclient : client ⟨fullUrl useTls url, data, timeout, headers⟩ = .error e)
    (hstatus : ∀ response, e ≠ .httpStatusError response) (hrequest : e ≠ .requestError) :
    ¬Answers α client json url data timeout useTls dto headers := by
  refine not_answers_of_raises json dto ?_
  simp only [post, send_error hclient]
  cases e with
  | httpStatusError response => exact absurd rfl (hstatus response)
  | requestError => exact absurd rfl hrequest
  | _ => exact ⟨_, _, rfl⟩

end

/-- `post` answers exactly if the handlers do: not for a timeout, and for another request error
only if the url has two slashes. -/
theorem answers_iff (client : Request D → Except (Exn B) (Response B))
    (json : B → Except (Exn B) J) (url : String) (data : D) (timeout : ℕ) (useTls : Bool)
    (dto : Option (J → Except (Exn B) T)) (headers : List (String × String)) :
    Answers α client json url data timeout useTls dto headers ↔
      Handled url (client ⟨fullUrl useTls url, data, timeout, headers⟩) := by
  cases hclient : client ⟨fullUrl useTls url, data, timeout, headers⟩ with
  | ok response => exact iff_of_true (answers_of_response json dto hclient) trivial
  | error e =>
    have hsend := send_error hclient
    cases e with
    | httpStatusError response =>
      refine iff_of_true (answers_of_err json dto hclient fun records => ?_) trivial
      obtain ⟨error, records', h⟩ := onBadAnswer_returns (T := T) (α := α) response url data _
      simp only [post, hsend]
      exact ⟨error, records', h⟩
    | requestError =>
      by_cases hcount : 2 ≤ url.toList.count '/'
      · refine iff_of_true (answers_of_err json dto hclient fun records => ?_) hcount
        obtain ⟨error, records', h⟩ :=
          onRequestError_returns (T := T) (α := α) hcount .requestError data _
        simp only [post, hsend]
        exact ⟨error, records', h⟩
      · refine iff_of_false (not_answers_of_raises json dto ?_) hcount
        obtain ⟨records', h⟩ :=
          onRequestError_raises (T := T) (α := α) hcount .requestError data _
        simp only [post, hsend]
        exact ⟨_, _, h⟩
    | timeoutException | attributeError text | indexError | other text =>
      exact iff_of_false
        (not_answers_of_unhandled json dto hclient (fun _ h => by cases h) (fun h => by cases h))
        (fun h => h)

/-- A timeout is not answered, nor is a refused connection to a url that is only a host. -/
theorem not_answers :
    ¬Answers Unit (fun _ => .error .timeoutException : Request Unit → Except (Exn Unit) _)
        (fun _ => .ok ()) "domain.example.com/path" () 5 true (some fun _ => .ok ()) [] ∧
    ¬Answers Unit (fun _ => .error .requestError : Request Unit → Except (Exn Unit) _)
        (fun _ => .ok ()) "domain.example.com" () 5 true (some fun _ => .ok ()) [] :=
  ⟨not_answers_of_raises _ _ ⟨_, _, rfl⟩, not_answers_of_raises _ _ ⟨_, _, rfl⟩⟩

end ApiTemplate.Outbound.HttpClient
