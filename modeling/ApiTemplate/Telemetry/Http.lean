import ApiTemplate.Stream.UrlQuery
import ApiTemplate.Telemetry.Masking

/-!
# The telemetry of a request

`TelemetryMiddleware` describes every request with its path and its masked parameters, and the
exception handler describes every error with the full URL. Header names and values, the query string
and the URL are read as texts with one character for each byte. `json_decode` is a parameter; it
returns nothing where the decoder raises.
-/

namespace ApiTemplate.Telemetry

/-! ## Requests and outcomes -/

/-- The ASGI scope of an http request. `baseUrl` is the URL of the request up to its query, `body` is
what the application receives of the body. -/
structure Scope where
  method : Option String
  baseUrl : String
  rootPath : String := ""
  path : String := ""
  queryString : List Char := []
  headers : List (String × String) := []
  client : Option String := none
  body : Bytes := []

/-- The classes of exceptions that the handler tells apart. -/
inductive ExcKind
  | appException
  | validationError
  | httpException (statusCode : ℤ)
  | other
  deriving DecidableEq

/-- An exception with `str(exc)` and the text of `format_exception`. -/
structure Raised where
  kind : ExcKind
  text : String
  traceback : String

/-- What the application makes of a request. `handled` is false when the request ends before it
reaches `TelemetryMiddleware`; `status` is what the middleware sees sent. -/
structure Outcome where
  raised : Option Raised
  handled : Bool := true
  status : Option ℤ
  execMs : ℚ
  now : ℚ

/-! ## `integrations/http.py` -/

def MAX_BODY_BYTES : ℕ := 16 * 1024

/-- Whether a text occurs in another. -/
def contains (needle text : List Char) : Bool := text.tails.any needle.isPrefixOf

def shouldCaptureBody (contentType : Option String) : Bool :=
  match contentType with
  | none => false
  | some ct =>
    let ct := ct.toList.map Char.toLower
    if ["multipart/form-data", "application/octet-stream"].any fun skip =>
      contains skip.toList ct then false
    else contains "application/json".toList ct

def levelForStatus (statusCode : Option ℤ) : String :=
  match statusCode with
  | none => "INFO"
  | some code => if 500 ≤ code then "ERROR" else if 400 ≤ code then "WARNING" else "INFO"

/-- A parameter with one value is that value, others are lists. -/
def flatten (group : String × List String) : Scalar × Value :=
  (.str group.1, match group.2 with
    | [value] => .str value
    | values => .list (values.map .str))

/-- `parse_query`; an empty dict counts as none. -/
def parseQuery (queryString : List Char) : Option Value :=
  if queryString = [] then none
  else
    let flat := (UrlQuery.parseQs queryString).map flatten
    if flat.isEmpty then none else some (mask 0 (.dict flat))

section

variable (jsonDecode : Bytes → Option Value)

/-- `parse_json_body`; `null` is no value. -/
def parseJsonBody (body : Option Bytes) (contentType : Option String) : Option Value :=
  match body with
  | none => none
  | some body =>
    if body = [] ∨ ¬shouldCaptureBody contentType then none
    else
      match jsonDecode body with
      | none => none
      | some (.scalar .none) => none
      | some v => some (mask 0 v)

/-! ## `TelemetryMiddleware` -/

/-- The last header of a name. -/
def header (scope : Scope) (name : String) : Option String :=
  (scope.headers.reverse.find? fun h => h.1.toLower = name).map Prod.snd

/-- `text.strip()` -/
def stripText (text : List Char) : List Char :=
  ((text.dropWhile isSpace).reverse.dropWhile isSpace).reverse

def clientIp (scope : Scope) : Option String :=
  match header scope "x-forwarded-for" with
  | some forwarded =>
    if forwarded = "" then scope.client
    else some (String.ofList (stripText (forwarded.toList.takeWhile (· ≠ ','))))
  | none => scope.client

/-- The event of `TelemetryMiddleware.__call__`, built by `build_http_event`. -/
def httpEvent (context : Option Context) (scope : Scope) (outcome : Outcome) : TelemetryEvent :=
  let contentType := header scope "content-type"
  let body :=
    if shouldCaptureBody contentType then some (scope.body.take MAX_BODY_BYTES) else none
  { service := SERVICE_API
    kind := KIND_HTTP_REQUEST
    level := levelForStatus outcome.status
    epoch := outcome.now
    traceId := context.map Context.traceId
    execMs := some outcome.execMs
    userId := context.bind Context.userId
    ip := clientIp scope
    method := scope.method
    url := some (scope.rootPath ++ scope.path)
    urlParams := parseQuery scope.queryString
    data := parseJsonBody jsonDecode body contentType
    statusCode := outcome.status
    userAgent := header scope "user-agent" }

/-! ## `exception_handler` -/

/-- `str(request.url)` -/
def requestUrl (scope : Scope) : String :=
  if scope.queryString = [] then scope.baseUrl
  else scope.baseUrl ++ "?" ++ String.ofList scope.queryString

/-- The status and the level of an exception. -/
def errorStatus : ExcKind → ℤ × String
  | .appException => (400, "WARNING")
  | .validationError => (422, "WARNING")
  | .httpException statusCode => (statusCode, if 500 ≤ statusCode then "ERROR" else "WARNING")
  | .other => (500, "ERROR")

/-- The event of `_emit_error_event`. -/
def errorEvent (service : String) (context : Option Context) (scope : Scope) (now : ℚ)
    (exc : Raised) : TelemetryEvent :=
  { service
    level := (errorStatus exc.kind).2
    kind := KIND_LOG
    epoch := now
    traceId := context.map Context.traceId
    userId := context.bind Context.userId
    method := scope.method
    url := some (requestUrl scope)
    statusCode := some (errorStatus exc.kind).1
    message := some (maskText exc.text)
    traceback := some (maskText exc.traceback) }

/-- The events emitted for a request: that of the exception handler and that of the middleware. -/
def requestEvents (service : String) (context : Option Context) (scope : Scope)
    (outcome : Outcome) : List TelemetryEvent :=
  (outcome.raised.map (errorEvent service context scope outcome.now)).toList ++
    if outcome.handled then [httpEvent jsonDecode context scope outcome] else []

end

/-! ## Requests that differ in a secret parameter -/

/-- Two requests that differ at most in the value of one parameter with a sensitive name. -/
inductive SameButSecret : Scope → Scope → Prop
  | intro (scope : Scope) (fs gs : List (List Char)) (name v v' : List Char) :
      isSensitiveKey (.str (UrlQuery.decodePart name)) = true → '=' ∉ name →
      (∀ f ∈ fs ++ UrlQuery.field name v :: gs, '&' ∉ f) → '&' ∉ UrlQuery.field name v' →
      SameButSecret
        { scope with queryString := UrlQuery.join (fs ++ UrlQuery.field name v :: gs) }
        { scope with queryString := UrlQuery.join (fs ++ UrlQuery.field name v' :: gs) }

/-- Groups that differ under sensitive names alone are masked alike. -/
theorem maskEntries_flatten {d d' : List (String × List String)}
    (h : List.Forall₂ (UrlQuery.AlikeBut fun name => isSensitiveKey (.str name) = true) d d') :
    maskEntries 0 (d.map flatten) = maskEntries 0 (d'.map flatten) := by
  induction h with
  | nil => rfl
  | @cons g g' d d' hg _ ih =>
    obtain ⟨name, values⟩ := g
    obtain ⟨name', values'⟩ := g'
    obtain ⟨rfl, hvalues⟩ := hg
    rw [List.map_cons, List.map_cons]
    unfold flatten at ih ⊢
    rw [maskEntries, maskEntries, ih]
    by_cases hkey : isSensitiveKey (.str name) = true
    · rw [if_pos hkey, if_pos hkey]
    · obtain rfl : values = values' := hvalues hkey
      rfl

/-- The parameters of two such requests are recorded alike. -/
theorem parseQuery_alike {fs gs : List (List Char)} {name v v' : List Char}
    (hkey : isSensitiveKey (.str (UrlQuery.decodePart name)) = true) (hname : '=' ∉ name)
    (h : ∀ f ∈ fs ++ UrlQuery.field name v :: gs, '&' ∉ f) (h' : '&' ∉ UrlQuery.field name v') :
    parseQuery (UrlQuery.join (fs ++ UrlQuery.field name v :: gs)) =
      parseQuery (UrlQuery.join (fs ++ UrlQuery.field name v' :: gs)) := by
  have hgroups := UrlQuery.parseQs_alikeBut (fun name => isSensitiveKey (.str name) = true)
    hname hkey h h'
  have hempty : ∀ d : List (String × List String), (d.map flatten).isEmpty = d.isEmpty :=
    fun d => List.isEmpty_map
  unfold parseQuery
  rw [if_neg (UrlQuery.join_ne_nil h), if_neg (UrlQuery.join_ne_nil (UrlQuery.forall_field h h'))]
  simp only [mask_dict, maskEntries_flatten hgroups, hempty, List.isEmpty_iff_length_eq_zero,
    hgroups.length_eq]

theorem httpEvent_alike {jsonDecode : Bytes → Option Value} {context : Option Context}
    {scope scope' : Scope} {outcome : Outcome} (h : SameButSecret scope scope') :
    httpEvent jsonDecode context scope outcome = httpEvent jsonDecode context scope' outcome := by
  cases h with
  | intro scope fs gs name v v' hkey hname h h' =>
    unfold httpEvent
    rw [show parseQuery _ = parseQuery _ from parseQuery_alike hkey hname h h']
    rfl

theorem requestUrl_eq_iff {scope scope' : Scope} (h : SameButSecret scope scope') :
    requestUrl scope = requestUrl scope' ↔ scope.queryString = scope'.queryString := by
  cases h with
  | intro scope fs gs name v v' hkey hname h h' =>
    unfold requestUrl
    rw [if_neg (UrlQuery.join_ne_nil h),
      if_neg (UrlQuery.join_ne_nil (UrlQuery.forall_field h h'))]
    simp [String.ofList_inj]

/-- **Two requests that differ in a secret parameter are described alike exactly when no exception
reaches the exception handler.** Otherwise the error event shows the parameter in its URL. -/
theorem sameEvents_iff {jsonDecode : Bytes → Option Value} {service : String}
    {context : Option Context} {scope scope' : Scope} {outcome : Outcome}
    (h : SameButSecret scope scope') :
    requestEvents jsonDecode service context scope outcome =
        requestEvents jsonDecode service context scope' outcome ↔
      outcome.raised = none ∨ scope.queryString = scope'.queryString := by
  unfold requestEvents
  rw [httpEvent_alike h, List.append_cancel_right_eq]
  cases hraised : outcome.raised with
  | none => simp
  | some exc =>
    have hmethod : scope.method = scope'.method := by
      cases h
      rfl
    have herror : errorEvent service context scope outcome.now exc =
        errorEvent service context scope' outcome.now exc ↔
          requestUrl scope = requestUrl scope' := by
      unfold errorEvent
      simp [hmethod]
    simp only [Option.map_some, Option.toList_some, List.singleton_inj, herror,
      requestUrl_eq_iff h, reduceCtorEq, false_or]

/-- `GET /api/v1/blobs?page=2&access_token=...` -/
def tokenRequest (token : String) : Scope where
  method := some "GET"
  baseUrl := "https://example.com/api/v1/blobs"
  path := "/api/v1/blobs"
  queryString := UrlQuery.join
    (["page=2".toList] ++ UrlQuery.field "access_token".toList token.toList :: [])

theorem sameButSecret_tokenRequest :
    SameButSecret (tokenRequest "s3cr3t") (tokenRequest "0ther") :=
  .intro (tokenRequest "s3cr3t") ["page=2".toList] [] "access_token".toList "s3cr3t".toList
    "0ther".toList (by decide) (by decide) (by decide) (by decide)

/-- A decoder for requests without a body. -/
def noBody (_ : Bytes) : Option Value := none

theorem sameEvents_answered :
    requestEvents noBody "api" none (tokenRequest "s3cr3t")
        { raised := none, status := some 200, execMs := 3, now := 5 } =
      requestEvents noBody "api" none (tokenRequest "0ther")
        { raised := none, status := some 200, execMs := 3, now := 5 } :=
  (sameEvents_iff sameButSecret_tokenRequest).mpr (.inl rfl)

/-- A handler that raises leaves the token in the URL of the error event. -/
theorem not_sameEvents_raised :
    SameButSecret (tokenRequest "s3cr3t") (tokenRequest "0ther") ∧
      requestEvents noBody "api" none (tokenRequest "s3cr3t")
          { raised := some ⟨.httpException 404, "404: Not Found", ""⟩, status := some 404,
            execMs := 3, now := 5 } ≠
        requestEvents noBody "api" none (tokenRequest "0ther")
          { raised := some ⟨.httpException 404, "404: Not Found", ""⟩, status := some 404,
            execMs := 3, now := 5 } := by
  refine ⟨sameButSecret_tokenRequest, fun h => ?_⟩
  have hurls := congrArg (List.map (·.url)) h
  exact absurd hurls (by decide)

end ApiTemplate.Telemetry
