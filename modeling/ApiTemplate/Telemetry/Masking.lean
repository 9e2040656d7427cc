import ApiTemplate.Telemetry.Event

/-!
# Secret masking

`mask` redacts structured payloads by key, `mask_text` redacts free-form strings. The patterns of
the module are written out as matchers on character lists; letters are compared as
`re.IGNORECASE` does.
-/

namespace ApiTemplate.Telemetry

def REDACTED : String := "***"

def OMITTED : String := "<omitted>"

/-! ## Patterns -/

/-- The letter a character is compared as under `re.IGNORECASE`. The last four are the only
characters outside ASCII that match an ASCII letter. -/
def foldCase (c : Char) : Char :=
  if c = 'ſ' then 's' else if c = '\u212a' then 'k' else if c = 'İ' ∨ c = 'ı' then 'i' else c.toLower

/-- What follows a literal word at the start of a text. -/
def afterWord : List Char → List Char → Option (List Char)
  | [], text => some text
  | _ :: _, [] => none
  | w :: word, c :: text => if foldCase c = w then afterWord word text else none

/-- What follows the first of some words that starts the text. -/
def afterSome (words : List String) (text : List Char) : Option (List Char) :=
  words.findSome? fun word => afterWord word.toList text

/-- `api[_-]?key` -/
def apiKey : List String := ["apikey", "api_key", "api-key"]

/-- `_SENSITIVE_KEY_RE` -/
def sensitiveWords : List String :=
  ["pass", "pwd", "token", "secret", "authorization", "refresh", "access"] ++ apiKey ++
    ["cvv", "card"]

/-- `_SENSITIVE_KEY_RE.search(key)` -/
def searchSensitive (key : String) : Bool :=
  key.toList.tails.any fun text => (afterSome sensitiveWords text).isSome

/-- `_DATA_URI_RE.match(value)`: `^data:[^;,]*;base64,` -/
def matchDataUri (value : String) : Bool :=
  match afterWord "data:".toList value.toList with
  | none => false
  | some text =>
    (afterWord ";base64,".toList (text.dropWhile fun c => c ≠ ';' && c ≠ ',')).isSome

/-- `\s`, the characters `str.isspace` accepts. -/
def isSpace (c : Char) : Bool :=
  (9 ≤ c.val && c.val ≤ 13) || (28 ≤ c.val && c.val ≤ 32) || c.val = 0x85 || c.val = 0xa0 ||
    c.val = 0x1680 || (0x2000 ≤ c.val && c.val ≤ 0x200a) || c.val = 0x2028 || c.val = 0x2029 ||
    c.val = 0x202f || c.val = 0x205f || c.val = 0x3000

/-- The words of `_TEXT_SECRET_RE`. -/
def textWords : List String :=
  ["password", "passwd", "pwd", "token", "secret", "authorization", "refresh", "access"] ++ apiKey

/-- `["']?` -/
def skipQuote : List Char → List Char
  | [] => []
  | c :: text => if c = '"' ∨ c = '\'' then text else c :: text

/-- `[^\s,;"'&]` -/
def isSecretChar (c : Char) : Bool :=
  !isSpace c && c ≠ ',' && c ≠ ';' && c ≠ '"' && c ≠ '\'' && c ≠ '&'

/-- `_TEXT_SECRET_RE` at the start of a text: its first group and what follows the match. -/
def secretAt (text : List Char) : Option (List Char × List Char) := do
  let afterKey ← afterSome textWords text
  match (skipQuote afterKey).dropWhile isSpace with
  | [] => none
  | c :: afterSeparator =>
    if c = '=' ∨ c = ':' then
      let secret := skipQuote (afterSeparator.dropWhile isSpace)
      if secret.takeWhile isSecretChar = [] then none
      else some (text.take (text.length - secret.length), secret.dropWhile isSecretChar)
    else none

/-- `_TEXT_SECRET_RE.sub`. A match is never empty, so the length of the text is enough fuel. -/
def subSecrets : ℕ → List Char → List Char
  | 0, text => text
  | _ + 1, [] => []
  | fuel + 1, c :: text =>
    match secretAt (c :: text) with
    | some (group, rest) => group ++ REDACTED.toList ++ subSecrets fuel rest
    | none => c :: subSecrets fuel text

def maskText (text : String) : String :=
  String.ofList (subSecrets text.length text.toList)

/-! ## Values -/

def MAX_STR_LEN : ℕ := 4096

def MAX_DEPTH : ℕ := 32

/-- Only a string key can be sensitive. -/
def isSensitiveKey : Scalar → Bool
  | .str key => searchSensitive key
  | _ => false

def looksBinary : Value → Bool
  | .scalar (.bytes _) => true
  | .scalar (.str value) => matchDataUri value || MAX_STR_LEN < value.length
  | _ => false

mutual

/-- `mask(obj, _depth=depth)` -/
def mask (depth : ℕ) (obj : Value) : Value :=
  if MAX_DEPTH < depth then obj
  else
    match obj with
    | .dict entries => .dict (maskEntries depth entries)
    | .list items => .list (maskItems depth items)
    | .tuple items => .list (maskItems depth items)
    | .scalar s => if looksBinary (.scalar s) then .str OMITTED else .scalar s

def maskEntries (depth : ℕ) : List (Scalar × Value) → List (Scalar × Value)
  | [] => []
  | (key, value) :: entries =>
    (key, if isSensitiveKey key then .str REDACTED
      else if looksBinary value then .str OMITTED
      else mask (depth + 1) value) :: maskEntries depth entries

def maskItems (depth : ℕ) : List Value → List Value
  | [] => []
  | item :: items => mask (depth + 1) item :: maskItems depth items

end

theorem maskItems_eq (depth : ℕ) (items : List Value) :
    maskItems depth items = items.map (mask (depth + 1)) := by
  induction items with
  | nil => rfl
  | cons item items ih => rw [maskItems, ih, List.map_cons]

theorem maskEntries_eq (depth : ℕ) (entries : List (Scalar × Value)) :
    maskEntries depth entries = entries.map fun e =>
      (e.1, if isSensitiveKey e.1 then .str REDACTED
        else if looksBinary e.2 then .str OMITTED
        else mask (depth + 1) e.2) := by
  induction entries with
  | nil => rfl
  | cons e entries ih => rw [maskEntries, ih, List.map_cons]

theorem mask_dict (entries : List (Scalar × Value)) :
    mask 0 (.dict entries) = .dict (maskEntries 0 entries) := by
  rw [mask.eq_def]
  rfl

end ApiTemplate.Telemetry
