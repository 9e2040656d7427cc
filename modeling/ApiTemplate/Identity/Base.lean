import Mathlib.Data.Int.Notation
import Mathlib.Tactic.Common

/-!
# Vocabulary of the identity module

Enumerations, error details and results as the source spells them, the exceptions a call may raise,
and `Env`: what one run of a handler reads from outside (clocks, the random choices, the tie-break
of a `LIMIT 1`). Instants are microseconds, as in a `timestamptz`; epochs are seconds.
-/

namespace ApiTemplate.Identity

/-- `ID_T`. -/
abbrev Id := ℕ

/-- An instant in microseconds since the epoch. -/
abbrev Micros := ℤ

/-- `int(clock.get_utc_epoch())` at an instant. -/
def epoch (t : Micros) : ℤ := t.tdiv 1000000

/-- `str.isspace` of one character. -/
def isSpace (c : Char) : Bool :=
  let n := c.toNat
  (9 ≤ n && n ≤ 13) || (28 ≤ n && n ≤ 32) || n == 0x85 || n == 0xA0 || n == 0x1680 ||
    (0x2000 ≤ n && n ≤ 0x200A) || n == 0x2028 || n == 0x2029 || n == 0x202F || n == 0x205F ||
    n == 0x3000

/-- `str.strip()`. -/
def strip (s : String) : String :=
  String.ofList (((s.toList.dropWhile isSpace).reverse.dropWhile isSpace).reverse)

/-! ## Enumerations -/

inductive OtpKindEnum
  | emailConfirmation
  | forgotPassword
  deriving DecidableEq, Repr

inductive ContentTypeEnum
  | user
  deriving DecidableEq, Repr

inductive ApiKeyStatusEnum
  | active
  | inactive
  | blocked
  deriving DecidableEq, Repr

/-- `StatusEnum`, by the integers that are stored. -/
def StatusEnum.active : ℤ := 1

def StatusEnum.inactive : ℤ := 0

inductive AppExceptionStatusCodes
  | invalidLoginCredentials
  | accessTokenRequired
  | invalidPassword
  | invalidOtp
  | otpAlreadyVerified
  | otpExpired
  | invalidTokenType
  | invalidRefreshToken
  | invalidAccessToken
  | otpResendCooldown
  | uniqueConstraint
  | objectNotFound
  deriving DecidableEq, Repr

inductive AppExceptionMessage
  | notFound
  | accessTokenRequired
  | invalidLoginCredentials
  | invalidTokenProvided
  | invalidTokenType
  | invalidOtp
  | otpAlreadyVerified
  | otpExpired
  deriving DecidableEq, Repr

namespace AppExceptionMessage

def value : AppExceptionMessage → String
  | notFound => "Not found"
  | accessTokenRequired => "Access token is not provided."
  | invalidLoginCredentials => "Invalid login credentials."
  | invalidTokenProvided => "Invalid access key"
  | invalidTokenType => "Invalid token type"
  | invalidOtp => "Invalid OTP provided"
  | otpAlreadyVerified => "OTP has already been verified"
  | otpExpired => "OTP has expired"

/-- `str.capitalize`, on ASCII. -/
def capitalize : List Char → List Char
  | [] => []
  | c :: cs => c.toUpper :: cs.map Char.toLower

def addPrefix (m : AppExceptionMessage) (pre : String) : String :=
  String.ofList (capitalize pre.toList ++ ' ' :: m.value.toList.map Char.toLower)

end AppExceptionMessage

/-! ## Errors and results -/

structure AppExceptionDetail where
  status : AppExceptionStatusCodes
  code : Option String := none
  message : Option String := none
  field : Option String := none
  fields : Option (List String) := none
  payload : List (String × String) := []
  critical : Option Bool := some false
  deriving DecidableEq, Repr

/-- `ResultDetailed`: the error details of a refused call, or its value. -/
abbrev ResultDetailed (α : Type) := Except (List AppExceptionDetail) α

/-- The exceptions that can leave a call. -/
inductive Exn
  | integrityError
  | dbApiError
  | multipleResultsFound
  | valueError
  | attributeError
  | runtimeError
  | validationError
  | appException (status : ℕ) (message : AppExceptionMessage) (code : AppExceptionStatusCodes)
  | httpException (status : ℕ) (detail : String)
  deriving DecidableEq, Repr

/-! ## The outside of a run -/

/-- What one run of a handler reads from outside. -/
structure Env where
  /-- The successive readings of the application clock. -/
  clock : ℕ → Micros
  /-- `func.now()`, the start of the database transaction. -/
  now : Micros
  /-- What `set_created_props` reads from the application clock when the flush inserts the code. -/
  stamp : Micros
  /-- The random choice of `bcrypt.gensalt()`. -/
  salt : ℕ
  /-- The code the OTP generator draws. -/
  code : String
  /-- Which of several rows the database returns when the statement leaves it the choice. -/
  tie : ℕ
  /-- `uuid7().hex`. -/
  jti : String := ""

/-- A run in which every reading of the clock gives `t`. -/
def Env.at (t : Micros) (salt : ℕ := 0) (code : String := "000000") : Env where
  clock _ := t
  now := t
  stamp := t
  salt := salt
  code := code
  tie := 0

end ApiTemplate.Identity
