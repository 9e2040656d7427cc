import ApiTemplate.Collections.Dict
import ApiTemplate.Filtering.Validator

/-!
# Errors as bodies

`AppException` and `_format_app_exception`, which turns its details into the body of a response.
What stands in a payload is arbitrary. An empty text counts as none wherever the code tests one.
-/

namespace ApiTemplate.Errors

/-! ## Exceptions -/

/-- A value of a body; `any` is a value that the code only passes on. -/
inductive Json (α : Type)
  | null
  | bool (b : Bool)
  | int (n : ℤ)
  | str (s : String)
  | list (items : List (Json α))
  | dict (members : List (String × Json α))
  | any (a : α)

/-- `AppExceptionDetail`; the status is the number of its code. -/
structure AppExceptionDetail (α : Type) where
  status : ℤ
  code : Option String := none
  message : Option String := none
  field : Option String := none
  fields : Option (List String) := none
  payload : Option (List (String × Json α)) := some []
  critical : Option Bool := some false

/-- What may be given as `details`. -/
inductive Details (α : Type)
  | list (details : List (AppExceptionDetail α))
  | one (detail : AppExceptionDetail α)

structure AppException (α : Type) where
  message : String
  details : Option (Details α)
  exceptionStatus : Option ℤ
  statusCode : Option ℤ

/-- What can be raised here. -/
inductive PyError
  | valueError
  | typeError
  deriving DecidableEq

/-- `AppExceptionStatusCodes.DETAILED_ERROR` -/
def DETAILED_ERROR : ℤ := 10000

variable {α : Type}

/-- The constructor. A single detail is wrapped for the dump, and kept as it is. -/
def AppException.new (message : String) (details : Option (Details α) := none)
    (exceptionStatus statusCode : Option ℤ := none) : Except PyError (AppException α) :=
  match details with
  | none =>
    if exceptionStatus = none ∨ exceptionStatus = some 0 then .error .valueError
    else .ok { message, details := none, exceptionStatus, statusCode }
  | some details =>
    .ok { message, details := some details, exceptionStatus := some DETAILED_ERROR, statusCode }

/-! ## `_format_app_exception` -/

/-- The text is there and not empty. -/
def truthy (text : Option String) : Bool := text.any (· ≠ "")

def text : Option String → Json α
  | none => .null
  | some s => .str s

/-- `model_dump()` -/
def AppExceptionDetail.modelDump (detail : AppExceptionDetail α) : List (String × Json α) :=
  [("status", .int detail.status),
    ("code", text detail.code),
    ("message", text detail.message),
    ("field", text detail.field),
    ("fields", match detail.fields with
      | none => .null
      | some fields => .list (fields.map .str)),
    ("payload", match detail.payload with
      | none => .null
      | some payload => .dict payload),
    ("critical", match detail.critical with
      | none => .null
      | some b => .bool b)]

/-- The body for the only detail of a list. -/
def formatOne (detail : AppExceptionDetail α) : Except PyError (Json α) :=
  if truthy detail.field then
    match detail.payload with
    -- `**None`
    | none => .error .typeError
    | some payload =>
      .ok (.dict (Dict.update []
        [(detail.field.getD "", text detail.message),
          ("payload", .dict (Dict.update
            [("message", text detail.message), ("status", .int detail.status)] payload))]))
  else if truthy detail.message then .ok (.dict [("detail", text detail.message)])
  else .ok (.dict detail.modelDump)

/-- The body for several details. -/
def formatMany (details : List (AppExceptionDetail α)) : Json α :=
  if details.all fun d => truthy d.field && truthy d.message then
    .dict (Dict.update [] (details.map fun d => (d.field.getD "", text d.message)))
  else .list (details.map fun d => .dict d.modelDump)

/-- `_format_app_exception` -/
def formatAppException (e : AppException α) : Except PyError (Json α) :=
  match e.details with
  | none => .ok (.dict [("detail", .str e.message)])
  -- `len` of a detail
  | some (.one _) => .error .typeError
  | some (.list []) => .ok (.dict [("detail", .str e.message)])
  | some (.list [detail]) => formatOne detail
  | some (.list details) => .ok (formatMany details)

/-! ## What a body shows -/

/-- The details of an exception. -/
def AppException.allDetails (e : AppException α) : List (AppExceptionDetail α) :=
  match e.details with
  | none => []
  | some (.one detail) => [detail]
  | some (.list details) => details

/-- The body has the message of the detail, where there is one: under the field of the detail, under
`detail` where it has no field, or in an entry of a list together with the field. -/
def Shows (body : Json α) (detail : AppExceptionDetail α) : Prop :=
  truthy detail.message = true →
    match body with
    | .dict members =>
      Dict.get? members (if truthy detail.field then detail.field.getD "" else "detail") =
        some (text detail.message)
    | .list items => ∃ members, .dict members ∈ items ∧
        Dict.get? members "field" = some (text detail.field) ∧
        Dict.get? members "message" = some (text detail.message)
    | _ => False

/-- The details are a list; a single one with a field has a payload, and no message where that field
is `payload`; several that all have a field and a message have one message for each field. -/
def AppException.Renders (e : AppException α) : Prop :=
  match e.details with
  | none => True
  | some (.one _) => False
  | some (.list []) => True
  | some (.list [detail]) => truthy detail.field = true →
      detail.payload ≠ none ∧ (truthy detail.message = true → detail.field ≠ some "payload")
  | some (.list details) => (∀ d ∈ details, truthy d.field = true ∧ truthy d.message = true) →
      ∀ d ∈ details, ∀ d' ∈ details, d.field = d'.field → d.message = d'.message

theorem text_inj {s s' : Option String} : (text s : Json α) = text s' ↔ s = s' := by
  cases s <;> cases s' <;> simp [text]

theorem getD_of_truthy {s : Option String} (h : truthy s = true) : s = some (s.getD "") := by
  cases s with
  | none => cases h
  | some s => rfl

theorem shows_modelDump (detail : AppExceptionDetail α) (items : List (Json α))
    (h : .dict detail.modelDump ∈ items) : Shows (.list items) detail :=
  fun _ => ⟨detail.modelDump, h, rfl, rfl⟩

/-- The body of a single detail. -/
theorem formatOne_iff (detail : AppExceptionDetail α) :
    (∃ body, formatOne detail = .ok body ∧ Shows body detail) ↔
      (truthy detail.field = true →
        detail.payload ≠ none ∧ (truthy detail.message = true → detail.field ≠ some "payload")) := by
  unfold formatOne
  cases hfield : truthy detail.field with
  | false =>
    refine iff_of_true ?_ fun h => absurd h Bool.false_ne_true
    cases hmessage : truthy detail.message with
    | true =>
      refine ⟨_, rfl, fun _ => ?_⟩
      rw [hfield]
      rfl
    | false => exact ⟨_, rfl, fun h => absurd h (by rw [hmessage]; exact Bool.false_ne_true)⟩
  | true =>
    rw [if_pos rfl]
    cases hpayload : detail.payload with
    | none => simp
    | some payload =>
      have hname := getD_of_truthy hfield
      generalize detail.field.getD "" = name at hname ⊢
      obtain ⟨inner, hinner⟩ : ∃ inner : Json α, inner = .dict (Dict.update
          [("message", text detail.message), ("status", .int detail.status)] payload) := ⟨_, rfl⟩
      have hget : Dict.get? (Dict.update [] [(name, text detail.message), ("payload", inner)]) name =
          some (if name = "payload" then inner else text detail.message) := by
        show Dict.get? (Dict.setItem [(name, text detail.message)] "payload" inner) name = _
        by_cases hpay : name = "payload"
        · rw [if_pos hpay, ← hpay, Dict.get?_setItem_self]
        · rw [if_neg hpay, Dict.get?_setItem_of_ne _ _ hpay]
          exact if_pos rfl
      have hshows : Shows (.dict (Dict.update []
          [(name, text detail.message), ("payload", inner)])) detail ↔
            (truthy detail.message = true → detail.field ≠ some "payload") := by
        refine forall_congr' fun hmessage => ?_
        show Dict.get? _ (if truthy detail.field then detail.field.getD "" else "detail") = _ ↔ _
        rw [if_pos hfield, hname, Option.getD_some, hget, Option.some.injEq, Ne, Option.some.injEq]
        by_cases hpay : name = "payload"
        · rw [if_pos hpay, getD_of_truthy hmessage]
          simp [hpay, text, hinner]
        · simp [hpay]
      simp only [Except.ok.injEq, exists_eq_left', ← hinner, hshows]
      simp

/-- The body of several details. -/
theorem formatMany_iff (details : List (AppExceptionDetail α)) :
    (∀ d ∈ details, Shows (formatMany details) d) ↔
      ((∀ d ∈ details, truthy d.field = true ∧ truthy d.message = true) →
        ∀ d ∈ details, ∀ d' ∈ details, d.field = d'.field → d.message = d'.message) := by
  have hall : (details.all fun d => truthy d.field && truthy d.message) = true ↔
      ∀ d ∈ details, truthy d.field = true ∧ truthy d.message = true := by
    simp [List.all_eq_true]
  unfold formatMany
  by_cases hcomplete : ∀ d ∈ details, truthy d.field = true ∧ truthy d.message = true
  · rw [if_pos (hall.mpr hcomplete)]
    have hshows : ∀ d ∈ details, Shows (.dict (Dict.update []
        (details.map fun d => (d.field.getD "", (text d.message : Json α))))) d ↔
          Dict.get? (Dict.update [] (details.map fun d =>
            (d.field.getD "", (text d.message : Json α)))) (d.field.getD "") =
              some (text d.message) := by
      intro d hd
      obtain ⟨hfield, hmessage⟩ := hcomplete d hd
      show (_ → Dict.get? _ (if truthy d.field then d.field.getD "" else "detail") = _) ↔ _
      rw [if_pos hfield]
      exact forall_prop_of_true hmessage
    constructor
    · intro h _ d hd d' hd' hfield
      have hget := (hshows d hd).mp (h d hd)
      rw [hfield, (hshows d' hd').mp (h d' hd'), Option.some.injEq, text_inj] at hget
      exact hget.symm
    · intro h d hd
      refine (hshows d hd).mpr (Dict.get?_update_of_forall [] (List.mem_map.mpr ⟨d, hd, rfl⟩) ?_)
      rintro entry hentry hkey
      obtain ⟨d', hd', rfl⟩ := List.mem_map.mp hentry
      have hfield : d'.field = d.field := by
        rw [getD_of_truthy (hcomplete d' hd').1, getD_of_truthy (hcomplete d hd).1]
        exact congrArg some hkey
      exact congrArg text (h hcomplete d' hd' d hd hfield)
  · rw [if_neg fun h => hcomplete (hall.mp h)]
    refine iff_of_true (fun d hd => shows_modelDump d _ ?_) fun h => absurd h hcomplete
    exact List.mem_map.mpr ⟨d, hd, rfl⟩

/-- **The body is returned and shows every detail exactly when the details are a list, a single one
with a field has a payload and is not named like it, and details that all have a field and a message
have one message for each field.** -/
theorem formatAppException_iff (e : AppException α) :
    (∃ body, formatAppException e = .ok body ∧ ∀ d ∈ e.allDetails, Shows body d) ↔ e.Renders := by
  obtain ⟨message, details, exceptionStatus, statusCode⟩ := e
  unfold formatAppException AppException.allDetails AppException.Renders
  dsimp only
  match details with
  | none => exact iff_of_true ⟨_, rfl, fun d hd => absurd hd List.not_mem_nil⟩ trivial
  | some (.one detail) => simp
  | some (.list []) => exact iff_of_true ⟨_, rfl, fun d hd => absurd hd List.not_mem_nil⟩ trivial
  | some (.list [detail]) =>
    simp only [List.mem_singleton, forall_eq]
    exact formatOne_iff detail
  | some (.list (d :: d' :: details)) =>
    simp only [Except.ok.injEq, exists_eq_left']
    exact formatMany_iff (d :: d' :: details)

/-! ## The details of the filters -/

open Filtering (Item DetailPayload FilterSpec FilterValidator.validate)

/-- The number of a status that filters use. -/
def filterStatus : Filtering.AppExceptionStatusCodes → ℤ
  | .requiredFilter => 210
  | .invalidValue => 209
  | .duplicated => 201

def optionJson (value : Option (Json Item)) : Json Item := value.getD .null

/-- The payload of a detail of `FilterValidator`. -/
def filterPayload (payload : DetailPayload) : List (String × Json Item) :=
  (payload.lookup.map fun lookup => ("lookup", .str lookup.value)).toList ++
    (if payload.location then [("location", .str "query_params")] else []) ++
    (if payload.ranges = [] then [] else
      [("ranges", .dict (payload.ranges.map fun r => (r.1, optionJson (r.2.map .any))))]) ++
    (if payload.lengths = [] then [] else
      [("ranges", .dict (payload.lengths.map fun r => (r.1, optionJson (r.2.map .int))))]) ++
    (payload.values.map fun values => ("values", .list (values.map .any))).toList ++
    (payload.duplicates.map fun items => ("values", .list (items.map .any))).toList

def ofFilter (detail : Filtering.AppExceptionDetail) : AppExceptionDetail Item where
  status := filterStatus detail.status
  message := some detail.message
  field := detail.field
  payload := some (filterPayload detail.payload)

/-- `AppException.from_details` -/
def fromDetails (details : List (AppExceptionDetail α)) : Except PyError (AppException α) :=
  AppException.new "Detailed error. See details" (some (.list details)) none (some DETAILED_ERROR)

/-- A filter for ids from one on. -/
def idsFilter : FilterSpec :=
  { baseType := .int, lookup := .in, field := some "id", gte := some (.scalar (.int 1)) }

/-- The details for `id__in=0,0`. -/
def zerosDetails : List Filtering.AppExceptionDetail :=
  [Filtering.FilterValidator.boundDetail idsFilter "gte" (some (.scalar (.int 1))),
    Filtering.FilterValidator.boundDetail idsFilter "gte" (some (.scalar (.int 1))),
    Filtering.FilterValidator.duplicateDetail idsFilter [.scalar (.int 0)]]

/-- The filter is refused with three details, of whose two messages the body keeps one; a detail
that is not in a list, and a field without a payload, are raised on. -/
theorem not_formatAppException :
    FilterValidator.validate idsFilter (.tuple [.scalar (.int 0), .scalar (.int 0)]) =
        .error (.appException zerosDetails) ∧
      (∃ e body, fromDetails (zerosDetails.map ofFilter) = .ok e ∧
        formatAppException e = .ok body ∧ ∃ d ∈ e.allDetails, ¬Shows body d) ∧
      (∃ e : AppException Item,
        AppException.new "Not found" (some (.one { status := 400, message := some "Not found" })) =
          .ok e ∧ formatAppException e = .error .typeError) ∧
      ∃ e : AppException Item,
        fromDetails [{ status := 209, field := some "name", payload := none }] = .ok e ∧
          formatAppException e = .error .typeError := by
  refine ⟨by decide, ⟨_, _, rfl, rfl, _, List.mem_cons_self, fun h => ?_⟩,
    ⟨_, rfl, rfl⟩, ⟨_, rfl, rfl⟩⟩
  have hget : some (text (some _)) = some (text (some _)) := h rfl
  have hmessage := text_inj.mp (Option.some.inj hget)
  exact absurd (Option.some.inj hmessage) (by decide)

end ApiTemplate.Errors
