import ApiTemplate.Collections.StableSort
import ApiTemplate.Stream.JsonDocument
import ApiTemplate.Stream.Numerals
import Mathlib.Data.List.Forall2
import Mathlib.Data.List.Lex

/-!
# Signatures of dictionaries

`HmacSha256SignatureService.sign_dict` signs the JSON text of a dictionary with sorted keys. JSON
knows strings only as keys, and one kind of list: a dictionary that is verified has the JSON
document of the one that was signed, and need not be equal to it.
-/

namespace ApiTemplate.Security

open JsonDocument Utf16

variable {F : Type}

/-! ## `json.dumps` -/

/-- Keys, and values that are no containers; `other` has no JSON text. -/
inductive Scalar (F : Type)
  | none
  | bool (b : Bool)
  | int (n : ℤ)
  | float (x : F)
  | str (s : Str)
  | other
  deriving DecidableEq

inductive Value (F : Type)
  | scalar (s : Scalar F)
  | list (items : List (Value F))
  | tuple (items : List (Value F))
  | dict (entries : List (Scalar F × Value F))

/-- `dict`, its entries in the order of their insertion. -/
abbrev Dict (F : Type) : Type := List (Scalar F × Value F)

inductive PyError
  | typeError
  | valueError
  deriving DecidableEq

def nullToken : Token := ⟨"null".toList, by decide, List.all_eq_true.mp rfl⟩

def boolToken : Bool → Token
  | true => ⟨"true".toList, by decide, List.all_eq_true.mp rfl⟩
  | false => ⟨"false".toList, by decide, List.all_eq_true.mp rfl⟩

/-- `float.__repr__`, or one of `NaN`, `Infinity` and `-Infinity`; and `<` between numbers. The text
of a float is never that of an integer or a word, and tells floats apart. -/
structure Floats (F : Type) where
  token : F → Token
  less : ℤ ⊕ F → ℤ ⊕ F → Bool
  token_inj : ∀ x y, token x = token y → x = y
  token_ne_null : ∀ x, token x ≠ nullToken
  token_ne_bool : ∀ x b, token x ≠ boolToken b
  token_ne_int : ∀ x, ∃ c ∈ (token x).text, c ≠ '-' ∧ ¬(48 ≤ c.toNat ∧ c.toNat ≤ 57)

theorem tokenChar_of_mem_str {n : ℤ} {text : List Char} (h : Numerals.str n = some text) :
    ∀ c ∈ text, tokenChar c = true := by
  intro c hc
  rcases Numerals.toNat_of_mem_str h c hc with rfl | hdigit
  · decide
  · have halpha : c.isDigit = true := by
      simp only [Char.isDigit, Bool.and_eq_true, decide_eq_true_eq]
      exact ⟨hdigit.1, hdigit.2⟩
    simp [tokenChar, Char.isAlphanum, halpha]

theorem ne_nil_of_str {n : ℤ} {text : List Char} (h : Numerals.str n = some text) :
    text ≠ [] := by
  obtain ⟨k, digits, -, hne, rfl, -⟩ := Numerals.str_eq h
  exact List.append_ne_nil_of_right_ne_nil _ hne

/-- `int.__repr__`, which refuses numbers with too many digits. -/
def intToken (n : ℤ) : Except PyError Token :=
  match h : Numerals.str n with
  | some text => .ok ⟨text, ne_nil_of_str h, tokenChar_of_mem_str h⟩
  | none => .error .valueError

/-- A scalar is a string or has a literal. -/
def literal (floats : Floats F) : Scalar F → Except PyError (Token ⊕ Str)
  | .none => .ok (.inl nullToken)
  | .bool b => .ok (.inl (boolToken b))
  | .int n => (intToken n).map .inl
  | .float x => .ok (.inl (floats.token x))
  | .str s => .ok (.inr s)
  | .other => .error .typeError

/-- A key that is no string is converted to one. -/
def keyUnits (floats : Floats F) (key : Scalar F) : Except PyError (List CodeUnit) :=
  (literal floats key).map fun
    | .inl token => ascii token.text
    | .inr s => encode s

def scalarDoc (floats : Floats F) (s : Scalar F) : Except PyError Doc :=
  (literal floats s).map fun
    | .inl token => .token token
    | .inr s => .str (encode s)

/-- All keys, as strings. -/
def strKeys {α : Type} : List (Scalar F × α) → Option (List (Str × α))
  | [] => some []
  | (.str s, a) :: entries => (strKeys entries).map ((s, a) :: ·)
  | _ :: _ => none

def number : Scalar F → Option (ℤ ⊕ F)
  | .bool b => some (.inl (if b then 1 else 0))
  | .int n => some (.inl n)
  | .float x => some (.inr x)
  | _ => none

/-- `<` between two keys that are numbers. -/
def lessNumber (floats : Floats F) (k l : Scalar F) : Bool :=
  match number k, number l with
  | some x, some y => floats.less x y
  | _, _ => false

/-- `sorted(dct.items())`. The keys of a dictionary differ, so they alone are compared: strings with
strings and numbers with numbers. -/
def sortItems {α : Type} (floats : Floats F) (entries : List (Scalar F × α)) :
    Except PyError (List (Scalar F × α)) :=
  match strKeys entries with
  | some named => .ok ((StableSort.sorted Prod.fst named).map fun e => (.str e.1, e.2))
  | none =>
    if entries.length ≤ 1 then .ok entries
    else if entries.all fun e => (number e.1).isSome then
      .ok (entries.mergeSort fun a b => !lessNumber floats b.1 a.1)
    else .error .typeError

/-- The members of an object: the keys are converted once the items are sorted. -/
def objectOf (floats : Floats F) (members : List (Scalar F × Doc)) : Except PyError Doc := do
  let items ← sortItems floats members
  let members ← items.mapM fun item => (keyUnits floats item.1).map fun key => (key, item.2)
  return .object members

mutual

/-- The JSON document of a value. -/
def Value.document (floats : Floats F) : Value F → Except PyError Doc
  | .scalar s => scalarDoc floats s
  | .list items => (documents floats items).map .array
  | .tuple items => (documents floats items).map .array
  | .dict entries => do objectOf floats (← memberDocs floats entries)

def documents (floats : Floats F) : List (Value F) → Except PyError (List Doc)
  | [] => .ok []
  | item :: items => do
    let d ← item.document floats
    let ds ← documents floats items
    return d :: ds

def memberDocs (floats : Floats F) :
    List (Scalar F × Value F) → Except PyError (List (Scalar F × Doc))
  | [] => .ok []
  | (key, value) :: entries => do
    let d ← value.document floats
    let ds ← memberDocs floats entries
    return (key, d) :: ds

end

/-- `json.dumps(data, sort_keys=True, separators=(",", ":"))` -/
def dumps (floats : Floats F) (data : Dict F) : Except PyError (List Char) :=
  ((Value.dict data).document floats).map Doc.text

/-! ## `security_services.py` -/

/-- `HmacSha256SignatureService` -/
structure SignatureService where
  secret : ByteArray

/-- `key or self._secret` -/
def SignatureService.key (service : SignatureService) : Option ByteArray → ByteArray
  | none => service.secret
  | some key => if key.size = 0 then service.secret else key

variable {D : Type} [DecidableEq D] (hmac : ByteArray → ByteArray → D) (floats : Floats F)
  (service : SignatureService)

def SignatureService.sign (data : ByteArray) (key : Option ByteArray) : D :=
  hmac (service.key key) data

/-- `verify`; `hmac.compare_digest` compares. -/
def SignatureService.verify (data : ByteArray) (signature : D) (key : Option ByteArray) : Bool :=
  service.sign hmac data (some (service.key key)) = signature

/-- `_dump_dict` -/
def dumpDict (data : Dict F) : Except PyError ByteArray :=
  (dumps floats data).map fun text => (String.ofList text).toByteArray

def SignatureService.signDict (data : Dict F) (key : Option ByteArray) : Except PyError D :=
  (dumpDict floats data).map fun bytes => hmac (service.key key) bytes

def SignatureService.verifyDict (data : Dict F) (signature : D) (key : Option ByteArray) :
    Except PyError Bool :=
  (dumpDict floats data).map fun bytes => service.verify hmac bytes signature key

/-! ## Signatures and documents -/

theorem key_key (key : Option ByteArray) :
    service.key (some (service.key key)) = service.key key := by
  by_cases hempty : (service.key key).size = 0
  · have hkey : service.key (some (service.key key)) = service.secret := if_pos hempty
    rw [hkey]
    cases key with
    | none => rfl
    | some key =>
      by_cases hsize : key.size = 0
      · exact (if_pos hsize).symm
      · have hsame : service.key (some key) = key := if_neg hsize
        rw [hsame] at hempty
        exact absurd hempty hsize
  · exact if_neg hempty

theorem utf8_injective {text text' : List Char}
    (h : (String.ofList text).toByteArray = (String.ofList text').toByteArray) : text = text' := by
  have hstring : String.ofList text = String.ofList text' := String.toByteArray_inj.mp h
  rw [← String.toList_ofList (l := text), hstring, String.toList_ofList]

theorem document_of_dumpDict {d : Dict F} {b : ByteArray} (h : dumpDict floats d = .ok b) :
    ∃ doc, (Value.dict d).document floats = .ok doc := by
  cases hdoc : (Value.dict d).document floats with
  | ok doc => exact ⟨doc, rfl⟩
  | error e =>
    simp only [dumpDict, dumps, hdoc, Except.map] at h
    cases h

theorem dumpDict_of_document {d : Dict F} {doc : Doc}
    (h : (Value.dict d).document floats = .ok doc) :
    dumpDict floats d = .ok (String.ofList doc.text).toByteArray := by
  rw [dumpDict, dumps, h]
  rfl

omit [DecidableEq D] in
theorem signDict_of_document {d : Dict F} {doc : Doc}
    (h : (Value.dict d).document floats = .ok doc) (key : Option ByteArray) :
    service.signDict hmac floats d key =
      .ok (hmac (service.key key) (String.ofList doc.text).toByteArray) := by
  rw [SignatureService.signDict, dumpDict_of_document floats h]
  rfl

/-- A signature is that of any dictionary with the same document. -/
theorem verifyDict_iff_document {hmac : ByteArray → ByteArray → D}
    (hinj : ∀ key, Function.Injective (hmac key)) {d₁ d₂ : Dict F} {signature : D}
    {key : Option ByteArray} {doc₁ doc₂ : Doc}
    (hsign : service.signDict hmac floats d₁ key = .ok signature)
    (h₁ : (Value.dict d₁).document floats = .ok doc₁)
    (h₂ : (Value.dict d₂).document floats = .ok doc₂) :
    service.verifyDict hmac floats d₂ signature key = .ok true ↔ doc₁ = doc₂ := by
  have hsignature : hmac (service.key key) (String.ofList doc₁.text).toByteArray = signature :=
    Except.ok.inj ((signDict_of_document hmac floats service h₁ key).symm.trans hsign)
  have hverify : service.verifyDict hmac floats d₂ signature key =
      .ok (service.verify hmac (String.ofList doc₂.text).toByteArray signature key) := by
    rw [SignatureService.verifyDict, dumpDict_of_document floats h₂]
    rfl
  rw [hverify, Except.ok.injEq, SignatureService.verify, SignatureService.sign, key_key,
    decide_eq_true_iff, ← hsignature]
  constructor
  · intro h
    exact (text_injective (utf8_injective (hinj _ h))).symm
  · rintro rfl
    rfl

end ApiTemplate.Security
