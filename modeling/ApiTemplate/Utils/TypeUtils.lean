import ApiTemplate.Stream.IsoFormat
import ApiTemplate.Telemetry.Destinations
import ApiTemplate.Utils.JsonValues

/-!
# `type_utils.py`

`_TypeCodec` writes a value as bytes by the constant of its type, and reads it back by the same
constant, from two tables. The values that come back are told apart type by type: numbers come back
as floats, dictionaries through JSON, integers up to the digits that Python converts.
-/

namespace ApiTemplate.Utils

open Binary64 Decimals IsoFormat Numerals Padding Scientific
open Telemetry (isSpace isSpace_isSpace)

/-! ## Types and values -/

inductive TypeEnum
  | jsonObject
  | pydanticModel
  | dict
  | string
  | integer
  | float
  | decimal
  | number
  | bool
  | char
  | date
  | dateTime
  | time
  deriving DecidableEq

/-- What a call raises: `key` for a constant that a table lacks. -/
inductive CodecError
  | key
  | value
  | type
  | attribute
  | invalidOperation
  | model
  deriving DecidableEq

/-- A class of `pydantic` models. -/
structure Pydantic where
  Model : Type
  modelDumpJson : Model → Except CodecError String
  eq : Model → Model → Bool

/-- A `Decimal`, finite or not. -/
inductive PyDecimal
  | finite (x : Decimal)
  | infinity (negative : Bool)
  | nan (negative signaling : Bool) (diagnostic : List Char)

variable (P : Pydantic)

/-- The values of a type. -/
def TypeEnum.Val : TypeEnum → Type
  | .jsonObject => PyDict
  | .pydanticModel => P.Model
  | .dict => PyDict
  | .string => String
  | .integer => ℤ
  | .float => PyFloat
  | .decimal => Decimal
  | .number => ℤ
  | .bool => Bool
  | .char => String
  | .date => Date
  | .dateTime => DateTime
  | .time => Time

/-- What the decoder of a type returns. -/
def TypeEnum.Decoded : TypeEnum → Type
  | .jsonObject => Security.Value PyFloat
  | .dict => Security.Value PyFloat
  | .decimal => PyDecimal
  | .number => PyFloat
  | .pydanticModel => P.Model
  | .string => String
  | .integer => ℤ
  | .float => PyFloat
  | .bool => Bool
  | .char => String
  | .date => Date
  | .dateTime => DateTime
  | .time => Time

def equals (α : Type) [DecidableEq α] (x y : α) : Bool := decide (x = y)

def PyDecimal.eq (x : Decimal) : PyDecimal → Bool
  | .finite y => x.value = y.value
  | _ => false

/-- `obj == decoded` -/
def TypeEnum.eq : (t : TypeEnum) → t.Val P → t.Decoded P → Bool
  | .jsonObject, x, y => valueEq (.dict x.entries) y
  | .pydanticModel, x, y => P.eq x y
  | .dict, x, y => valueEq (.dict x.entries) y
  | .string, x, y => equals String x y
  | .integer, x, y => equals ℤ x y
  | .float, x, y => scalarEq (.float x) (.float y)
  | .decimal, x, y => PyDecimal.eq x y
  | .number, x, y => scalarEq (.int x) (.float y)
  | .bool, x, y => equals Bool x y
  | .char, x, y => equals String x y
  | .date, x, y => equals Date x y
  | .dateTime, x, y => DateTime.eq x y
  | .time, x, y => Time.eq x y

/-! ## Texts -/

/-- A result, or the exception that is raised instead. -/
def orRaise {α : Type} (e : CodecError) : Option α → Except CodecError α
  | some a => .ok a
  | none => .error e

/-- `text.encode()` -/
def encodeText (text : List Char) : ByteArray := (String.ofList text).toByteArray

/-- `data.decode()` -/
def decodeString (data : ByteArray) : Except CodecError String :=
  orRaise .value (String.fromUTF8? data)

/-- `read(data.decode())` -/
def readText {α : Type} (e : CodecError) (read : List Char → Option α) (data : ByteArray) :
    Except CodecError α := do
  let text ← decodeString data
  orRaise e (read text.toList)

/-- `str(n)` -/
def strInt (n : ℤ) : Except CodecError (List Char) := orRaise .value (str n)

def ofJsonError : Security.PyError → CodecError
  | .typeError => .type
  | .valueError => .value

/-- The decimals that are no finite numbers. -/
def specialDecimal (text : List Char) : Option PyDecimal :=
  let (negative, text) := readSign text
  let text := text.map Char.toLower
  let word := text.takeWhile fun c => !asciiDigit c
  let diagnostic := text.dropWhile fun c => !asciiDigit c
  if (word = "inf".toList ∨ word = "infinity".toList) ∧ diagnostic = [] then
    some (.infinity negative)
  else if (word = "nan".toList ∨ word = "snan".toList) ∧ diagnostic.all asciiDigit then
    some (.nan negative (word = "snan".toList) diagnostic)
  else none

/-- `Decimal(text)` -/
def decimalOf (text : List Char) : Option PyDecimal :=
  ((readDecimal isSpace text).map .finite).or
    (specialDecimal (((strip isSpace text).map (asciiChar isSpace)).filter (· ≠ '_')))

/-! ## `_ENCODERS`, `_DECODERS` and `_TypeCodec` -/

def encoders : (t : TypeEnum) → Option (t.Val P → Except CodecError ByteArray)
  | .pydanticModel => some fun x => (P.modelDumpJson x).map String.toByteArray
  | .string => some fun x => .ok (String.toByteArray x)
  | .integer => some fun x => (strInt x).map encodeText
  | .float => some fun x => .ok (encodeText (repr x))
  | .decimal => some fun x => .ok (encodeText (decimalText x))
  | .number => some fun x => (strInt x).map encodeText
  | .date => some fun x => .ok (encodeText (Date.isoformat x))
  | .time => some fun x => .ok (encodeText (Time.isoformat x))
  | .dateTime => some fun x => .ok (encodeText (DateTime.isoformat x))
  | .bool => some fun x => (strInt (Bool.toInt x)).map encodeText
  | .char => some fun x => .ok (String.toByteArray x)
  | .dict => some fun x =>
    ((jsonDumps (.dict x.entries)).mapError ofJsonError).map encodeText
  | .jsonObject => none

/-- A class is given by its `model_validate_json`. -/
abbrev Typ : Type := Option (ByteArray → Except CodecError P.Model)

def decoders : (t : TypeEnum) → Option (ByteArray → Typ P → Except CodecError (t.Decoded P))
  | .pydanticModel => some fun v typ =>
    match typ with
    | some modelValidateJson => modelValidateJson v
    | none => .error .attribute
  | .string => some fun v _ => decodeString v
  | .integer => some fun v _ => readText .value (int isSpace) v
  | .float => some fun v _ => readText .value (Binary64.float isSpace) v
  | .decimal => some fun v _ => readText .invalidOperation decimalOf v
  | .number => some fun v _ => readText .value (Binary64.float isSpace) v
  | .date => some fun v _ => readText .value Date.fromisoformat v
  | .time => some fun v _ => readText .value Time.fromisoformat v
  | .dateTime => some fun v _ => readText .value DateTime.fromisoformat v
  | .bool => some fun v _ => (readText .value (int isSpace) v).map fun n => decide (n ≠ 0)
  | .char => some fun v _ => decodeString v
  | .dict => some fun v _ => readText .value (jsonLoads isSpace) v
  | .jsonObject => none

/-- `_TypeCodec.encode` -/
def encode (t : TypeEnum) (obj : t.Val P) : Except CodecError ByteArray :=
  match encoders P t with
  | some f => f obj
  | none => .error .key

/-- `_TypeCodec.decode` -/
def decode (t : TypeEnum) (data : ByteArray) (typ : Typ P) : Except CodecError (t.Decoded P) :=
  match decoders P t with
  | some f => f data typ
  | none => .error .key

/-- The value is encoded, decoded and equal to what was decoded. -/
def RoundTrips (t : TypeEnum) (obj : t.Val P) : Prop :=
  ∃ data decoded, encode P t obj = .ok data ∧ decode P t data none = .ok decoded ∧
    t.eq P obj decoded = true

/-! ## Texts that are read back -/

theorem decodeString_toByteArray (x : String) : decodeString x.toByteArray = .ok x := by
  unfold decodeString String.fromUTF8?
  rw [dif_pos x.isValidUTF8]
  rfl

theorem orRaise_eq_ok {α : Type} {e : CodecError} {result : Option α} {a : α} :
    orRaise e result = .ok a ↔ result = some a := by
  cases result <;> simp [orRaise]

/-- A text is read as what it was written for. -/
theorem readText_encodeText {α : Type} {e : CodecError} {read : List Char → Option α}
    {text : List Char} {a : α} :
    readText e read (encodeText text) = .ok a ↔ read text = some a := by
  unfold readText encodeText
  rw [decodeString_toByteArray]
  show orRaise e (read (String.ofList text).toList) = .ok a ↔ _
  rw [String.toList_ofList]
  exact orRaise_eq_ok

theorem str_isSome_iff {n : ℤ} : (∃ text, str n = some text) ↔ n.natAbs < 10 ^ MAX_STR_DIGITS := by
  rw [← length_decimal_le (by decide)]
  unfold str
  split_ifs with hlength
  · exact iff_of_true ⟨_, rfl⟩ hlength
  · exact iff_of_true ⟨_, rfl⟩ hlength
  · exact iff_of_false nofun hlength

/-! ## Round trips -/

section

variable {P}

/-- The values that come back. -/
def Returns : (t : TypeEnum) → t.Val P → Prop
  | .integer, n => Int.natAbs n < 10 ^ MAX_STR_DIGITS
  | .float, x => Ne (α := PyFloat) x .nan
  | .number, n => Representable (Int.natAbs n)
  | .dateTime, t => DateTime.utcoffsetAt t false = DateTime.utcoffsetAt t true
  | .dict, d => Faithful (.dict d.entries)
  | _, _ => True

/-- A type whose values are all encoded and read back as they are returned. -/
theorem roundTrips_of_decode (P : Pydantic) (t : TypeEnum) (obj : t.Val P)
    (decoded : t.Decoded P) {data : ByteArray} (hencode : encode P t obj = .ok data)
    (hdecode : decode P t data none = .ok decoded) :
    RoundTrips P t obj ↔ t.eq P obj decoded = true := by
  constructor
  · rintro ⟨data', decoded', hencode', hdecode', heq⟩
    obtain rfl := Except.ok.inj (hencode.symm.trans hencode')
    obtain rfl := Except.ok.inj (hdecode.symm.trans hdecode')
    exact heq
  · intro heq
    exact ⟨data, decoded, hencode, hdecode, heq⟩

theorem equals_self (α : Type) [DecidableEq α] (x : α) : equals α x x = true := decide_eq_true rfl

theorem roundTrips_integer (n : ℤ) :
    RoundTrips P .integer n ↔ n.natAbs < 10 ^ MAX_STR_DIGITS := by
  rw [← str_isSome_iff]
  constructor
  · rintro ⟨data, decoded, hencode, -, -⟩
    obtain ⟨text, htext, -⟩ := Fallible.map_eq_ok.mp hencode
    exact ⟨text, orRaise_eq_ok.mp htext⟩
  · rintro ⟨text, htext⟩
    exact (roundTrips_of_decode P .integer n n (congrArg (Except.map _) (orRaise_eq_ok.mpr htext))
      (readText_encodeText.mpr (int_str htext))).mpr (equals_self ℤ n)

theorem roundTrips_float (x : PyFloat) : RoundTrips P .float x ↔ x ≠ .nan :=
  (roundTrips_of_decode P .float x x rfl (readText_encodeText.mpr (float_repr isSpace x))).trans
    (scalarEq_self_iff (Security.HasToken.float x))

/-- The float that is read from an integer. -/
theorem float_str {n : ℤ} {text : List Char} (h : str n = some text) :
    Binary64.float isSpace text = some (ofDecimal (intNumeral n).decimal) := by
  rw [← text_intNumeral h 'e' 0]
  exact float_text (digits_intNumeral n) (.inl rfl) 0 isSpace

theorem magnitude_intNumeral (n : ℤ) : magnitude (intNumeral n).decimal = n.natAbs := by
  have hvalue : value (decimal n.natAbs ++ []) = n.natAbs := by
    rw [List.append_nil, value_decimal]
  show ((value (decimal n.natAbs ++ []) : ℕ) : ℚ) * 10 ^ (0 : ℤ) = n.natAbs
  rw [hvalue, zpow_zero, mul_one]

theorem signed_natAbs (n : ℤ) : (if n < 0 then -(n.natAbs : ℚ) else n.natAbs) = n := by
  rw [← Int.cast_natCast (R := ℚ) n.natAbs, ← Int.cast_neg]
  split_ifs with hneg
  · exact congrArg Int.cast (by omega)
  · exact congrArg Int.cast (by omega)

/-- A float that is equal to an integer represents it. -/
theorem representable_of_eq {n : ℤ} {x : PyFloat} (h : scalarEq (.int n) (.float x) = true) :
    Representable n.natAbs := by
  have hplace : samePlace (some (0, (n : ℚ))) (position (.inr x)) = true := h
  cases x with
  | finite negative r =>
    have hvalue : (n : ℚ) = if negative then -r.val else r.val :=
      (Prod.mk.inj (of_decide_eq_true hplace)).2
    have hnonneg := r.property.nonneg
    have habs : |(n : ℚ)| = r.val := by
      rw [hvalue]
      split_ifs
      · rw [abs_neg, abs_of_nonneg hnonneg]
      · exact abs_of_nonneg hnonneg
    have hcast : (n.natAbs : ℚ) = r.val := by
      rw [← habs, ← Int.cast_abs, Int.abs_eq_natAbs, Int.cast_natCast]
    exact hcast ▸ r.property
  | inf negative =>
    have hsign : (0 : ℤ) = if negative then -1 else 1 :=
      (Prod.mk.inj (of_decide_eq_true hplace)).1
    cases negative <;> exact absurd hsign (by decide)
  | nan => exact absurd hplace Bool.false_ne_true

/-- An integer is equal to the float that it is read as exactly if it is one. -/
theorem number_eq_iff (n : ℤ) :
    scalarEq (.int n) (.float (ofDecimal (intNumeral n).decimal)) = true ↔
      Representable n.natAbs := by
  refine ⟨representable_of_eq, fun h => ?_⟩
  rw [← magnitude_intNumeral] at h
  obtain ⟨r, hround, hr⟩ := round_eq_finite_iff.mpr h
  have hread : ofDecimal (intNumeral n).decimal = .finite (decide (n < 0)) r := hround
  rw [magnitude_intNumeral] at hr
  rw [hread]
  show decide ((0, (n : ℚ)) = (0, if decide (n < 0) = true then -r.val else r.val)) = true
  simp only [decide_eq_true_eq, hr, signed_natAbs]

/-- A float has not too many digits for Python. -/
theorem str_of_representable {n : ℤ} (h : Representable n.natAbs) : ∃ text, str n = some text := by
  have hlt : n.natAbs < 2 ^ 1024 := by
    rw [← Nat.cast_lt (α := ℚ), Nat.cast_pow, Nat.cast_ofNat]
    exact h.1
  have hdigits : 1024 ≤ MAX_STR_DIGITS := by decide
  refine str_isSome_iff.mpr (hlt.trans_le ?_)
  calc 2 ^ 1024 ≤ 2 ^ MAX_STR_DIGITS := pow_le_pow_right₀ one_le_two hdigits
    _ ≤ 10 ^ MAX_STR_DIGITS := pow_le_pow_left₀ (Nat.zero_le 2) (by decide) _

theorem roundTrips_number (n : ℤ) : RoundTrips P .number n ↔ Representable n.natAbs := by
  have hread : ∀ text, str n = some text →
      (RoundTrips P .number n ↔ Representable n.natAbs) := fun text htext =>
    (roundTrips_of_decode P .number n (ofDecimal (intNumeral n).decimal)
      (congrArg (Except.map _) (orRaise_eq_ok.mpr htext))
      (readText_encodeText.mpr (float_str htext))).trans (number_eq_iff n)
  constructor
  · intro h
    have ⟨data, decoded, hencode, _⟩ := h
    obtain ⟨text, htext, -⟩ := Fallible.map_eq_ok.mp hencode
    exact (hread text (orRaise_eq_ok.mp htext)).mp h
  · intro h
    obtain ⟨text, htext⟩ := str_of_representable h
    exact (hread text htext).mpr h

theorem roundTrips_decimal (x : Decimal) : RoundTrips P .decimal x := by
  have hread : decimalOf (decimalText x) = some (.finite x) := by
    rw [decimalOf, readDecimal_decimalText isSpace_isSpace]
    rfl
  exact (roundTrips_of_decode P .decimal x (PyDecimal.finite x) rfl
    (readText_encodeText.mpr hread)).mpr (decide_eq_true rfl)

theorem roundTrips_bool (b : Bool) : RoundTrips P .bool b := by
  have hstr : ∃ text, str (Bool.toInt b) = some text :=
    str_isSome_iff.mpr (lt_of_le_of_lt (b := 1) (by cases b <;> decide)
      (Nat.one_lt_pow (by decide) (by decide)))
  obtain ⟨text, htext⟩ := hstr
  have hdecode : decode P .bool (encodeText text) none = .ok (decide (Bool.toInt b ≠ 0)) :=
    congrArg (Except.map fun n : ℤ => decide (n ≠ 0)) (readText_encodeText.mpr (int_str htext))
  refine (roundTrips_of_decode P .bool b _ (congrArg (Except.map _) (orRaise_eq_ok.mpr htext))
    hdecode).mpr ?_
  cases b <;> rfl

theorem roundTrips_date (d : Date) : RoundTrips P .date d :=
  (roundTrips_of_decode P .date d d rfl
    (readText_encodeText.mpr d.fromisoformat_isoformat)).mpr (equals_self Date d)

theorem roundTrips_time (t : Time) : RoundTrips P .time t :=
  (roundTrips_of_decode P .time t (Time.mk _ _) rfl
    (readText_encodeText.mpr t.fromisoformat_isoformat)).mpr t.eq_of_fromisoformat

theorem roundTrips_dateTime (t : DateTime) :
    RoundTrips P .dateTime t ↔ t.utcoffsetAt false = t.utcoffsetAt true :=
  (roundTrips_of_decode P .dateTime t (DateTime.mk _ _ _ _) rfl
    (readText_encodeText.mpr t.fromisoformat_isoformat)).trans
    t.eq_of_fromisoformat

theorem roundTrips_string (x : String) : RoundTrips P .string x :=
  (roundTrips_of_decode P .string x x rfl (decodeString_toByteArray x)).mpr
    (equals_self String x)

theorem roundTrips_char (x : String) : RoundTrips P .char x :=
  (roundTrips_of_decode P .char x x rfl (decodeString_toByteArray x)).mpr
    (equals_self String x)

theorem roundTrips_dict (d : PyDict) : RoundTrips P .dict d ↔ Faithful (.dict d.entries) := by
  rw [← dumps_loads_iff isSpace]
  have hdecode : ∀ {text v}, decode P .dict (encodeText text) none = .ok v ↔
      jsonLoads isSpace text = some v := readText_encodeText
  constructor
  · rintro ⟨data, v, hencode, hloads, heq⟩
    obtain ⟨text, hdumps, rfl⟩ := Fallible.map_eq_ok.mp hencode
    exact ⟨text, v, Fallible.mapError_eq_ok.mp hdumps, hdecode.mp hloads, heq⟩
  · rintro ⟨text, v, hdumps, hloads, heq⟩
    have hencode : encode P .dict d = .ok (encodeText text) :=
      Fallible.map_eq_ok.mpr ⟨text, Fallible.mapError_eq_ok.mpr hdumps, rfl⟩
    exact ⟨_, v, hencode, hdecode.mpr hloads, heq⟩

/-- The values that come back are exactly these, with `fromisoformat` as documented; the accelerated
one of CPython drops an offset below one second. -/
theorem roundTrips_iff (t : TypeEnum) (ht : t ≠ .pydanticModel ∧ t ≠ .jsonObject)
    (obj : t.Val P) : RoundTrips P t obj ↔ Returns t obj := by
  cases t with
  | jsonObject => exact absurd rfl ht.2
  | pydanticModel => exact absurd rfl ht.1
  | dict => exact roundTrips_dict obj
  | string => exact iff_of_true (roundTrips_string obj) trivial
  | integer => exact roundTrips_integer obj
  | float => exact roundTrips_float obj
  | decimal => exact iff_of_true (roundTrips_decimal obj) trivial
  | number => exact roundTrips_number obj
  | bool => exact iff_of_true (roundTrips_bool obj) trivial
  | char => exact iff_of_true (roundTrips_char obj) trivial
  | date => exact iff_of_true (roundTrips_date obj) trivial
  | dateTime => exact roundTrips_dateTime obj
  | time => exact iff_of_true (roundTrips_time obj) trivial

end

def noModels : Pydantic := ⟨Empty, nofun, nofun⟩

/-- `{"a": [1, {"b": "a"}]}` -/
def strKeyed : PyDict where
  entries := [(.str [97], .list [.scalar (.int 1), .dict [(.str [98], .scalar (.str [97]))]])]
  wellFormed := by simp [WellFormed, WellFormedItems, WellFormedEntries]

theorem roundTrips_strKeyed : RoundTrips noModels .dict strKeyed := by
  have hshort : (1 : ℤ).natAbs < 10 ^ MAX_STR_DIGITS :=
    Nat.one_lt_pow (by decide) (by decide)
  refine (roundTrips_iff .dict (by decide) strKeyed).mpr
    ⟨⟨[97], rfl, List.IsChain.singleton _⟩, ⟨hshort, ?_, trivial⟩, trivial⟩
  exact ⟨⟨[98], rfl, List.IsChain.singleton _⟩, List.IsChain.singleton _, trivial⟩

/-- `{1: "a"}` -/
def intKeyed : PyDict where
  entries := [(.int 1, .scalar (.str [97]))]
  wellFormed := ⟨List.pairwise_singleton _ _, trivial, trivial⟩

/-- The key `1` comes back as `"1"`. -/
theorem not_roundTrips_all : ¬∀ t : TypeEnum, t ≠ .float → ∀ obj : t.Val noModels,
    RoundTrips noModels t obj := by
  intro h
  obtain ⟨⟨s, hs, -⟩, -⟩ := (roundTrips_dict intKeyed).mp (h .dict (by decide) intKeyed)
  cases hs

end ApiTemplate.Utils
