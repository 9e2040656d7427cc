import ApiTemplate.Stream.Padding
import Mathlib.Data.List.GetD

/-!
# Dates and times in ISO 8601

Dates of the Gregorian calendar, times of a day and offsets from UTC, as Python's `datetime` module
writes and reads them. The reader takes the basic and the extended format and weeks; what
`isoformat` writes is read back.
-/

namespace IsoFormat

open Numerals Padding

/-! ## The calendar -/

def isLeap (year : ℕ) : Bool := year % 4 = 0 && (year % 100 ≠ 0 || year % 400 = 0)

/-- The days of the months of a year. -/
def monthDays (year : ℕ) : List ℕ :=
  [31, if isLeap year then 29 else 28, 31, 30, 31, 30, 31, 31, 30, 31, 30, 31]

def daysInMonth (year month : ℕ) : ℕ := (monthDays year).getD (month - 1) 0

def daysBeforeYear (year : ℕ) : ℕ :=
  (year - 1) * 365 + (year - 1) / 4 - (year - 1) / 100 + (year - 1) / 400

structure ValidDate (year month day : ℕ) : Prop where
  year_mem : 1 ≤ year ∧ year ≤ 9999
  month_mem : 1 ≤ month ∧ month ≤ 12
  day_mem : 1 ≤ day ∧ day ≤ daysInMonth year month

instance (year month day : ℕ) : Decidable (ValidDate year month day) :=
  decidable_of_iff ((1 ≤ year ∧ year ≤ 9999) ∧ (1 ≤ month ∧ month ≤ 12) ∧
    1 ≤ day ∧ day ≤ daysInMonth year month)
    ⟨fun h => ⟨h.1, h.2.1, h.2.2⟩, fun h => ⟨h.year_mem, h.month_mem, h.day_mem⟩⟩

structure Date where
  year : ℕ
  month : ℕ
  day : ℕ
  valid : ValidDate year month day
  deriving DecidableEq

/-- `date(year, month, day)`; none where it raises. -/
def Date.mk? (year month day : ℕ) : Option Date :=
  if h : ValidDate year month day then some ⟨year, month, day, h⟩ else none

/-- `date.toordinal`, the first of January of the year 1 being day 1. -/
def Date.toOrdinal (d : Date) : ℕ :=
  daysBeforeYear d.year + ((monthDays d.year).take (d.month - 1)).sum + d.day

/-- The month and the day in it, `n` days after the beginning of the months. -/
def monthDay : List ℕ → ℕ → ℕ → ℕ × ℕ
  | [], month, n => (month, n + 1)
  | days :: months, month, n =>
    if n < days then (month, n + 1) else monthDay months (month + 1) (n - days)

/-- `date.fromordinal` -/
def Date.ofOrdinal (ordinal : ℕ) : Option Date :=
  let n := ordinal - 1
  let n400 := n / 146097
  let n100 := n % 146097 / 36524
  let n4 := n % 146097 % 36524 / 1461
  let n1 := n % 146097 % 36524 % 1461 / 365
  let year := n400 * 400 + n100 * 100 + n4 * 4 + n1 + 1
  -- the last day of a leap year, and of four hundred years
  if n1 = 4 ∨ n100 = 4 then Date.mk? (year - 1) 12 31
  else
    let (month, day) := monthDay (monthDays year) 1 (n % 146097 % 36524 % 1461 % 365)
    Date.mk? year month day

/-- `date.fromisocalendar` -/
def Date.ofWeek (year week day : ℕ) : Option Date :=
  let firstday := daysBeforeYear year + 1
  let firstweekday := (firstday + 6) % 7
  let week1monday := if 3 < firstweekday then firstday + 7 - firstweekday
    else firstday - firstweekday
  let weeks := if firstweekday = 3 ∨ (firstweekday = 2 ∧ isLeap year) then 53 else 52
  if (1 ≤ year ∧ year ≤ 9999) ∧ (1 ≤ week ∧ week ≤ weeks) ∧ 1 ≤ day ∧ day ≤ 7 then
    Date.ofOrdinal (week1monday + (week - 1) * 7 + (day - 1))
  else none

/-! ## Times -/

structure ValidClock (hour minute second microsecond : ℕ) : Prop where
  hour_lt : hour < 24
  minute_lt : minute < 60
  second_lt : second < 60
  microsecond_lt : microsecond < 1000000

instance (hour minute second microsecond : ℕ) :
    Decidable (ValidClock hour minute second microsecond) :=
  decidable_of_iff (hour < 24 ∧ minute < 60 ∧ second < 60 ∧ microsecond < 1000000)
    ⟨fun h => ⟨h.1, h.2.1, h.2.2.1, h.2.2.2⟩,
      fun h => ⟨h.hour_lt, h.minute_lt, h.second_lt, h.microsecond_lt⟩⟩

/-- The time of a day. -/
structure Clock where
  hour : ℕ
  minute : ℕ
  second : ℕ
  microsecond : ℕ
  valid : ValidClock hour minute second microsecond
  deriving DecidableEq

def Clock.mk? (hour minute second microsecond : ℕ) : Option Clock :=
  if h : ValidClock hour minute second microsecond then
    some ⟨hour, minute, second, microsecond, h⟩
  else none

def midnight : Clock := ⟨0, 0, 0, 0, by decide⟩

def micros (hour minute second microsecond : ℕ) : ℕ :=
  ((hour * 60 + minute) * 60 + second) * 1000000 + microsecond

def Clock.micros (c : Clock) : ℕ := IsoFormat.micros c.hour c.minute c.second c.microsecond

/-- The microseconds of a day. -/
def DAY : ℕ := 86400000000

/-- An offset from UTC of less than a day, in microseconds. -/
structure Offset where
  micros : ℤ
  valid : micros.natAbs < DAY
  deriving DecidableEq

/-- `timezone(offset)`; none where it raises. -/
def Offset.mk? (micros : ℤ) : Option Offset :=
  if h : micros.natAbs < DAY then some ⟨micros, h⟩ else none

/-- The zone of a time: its offset at a date, a time and a fold, and for times without a date. -/
structure TzInfo where
  utcoffset : Option (Date × Clock × Bool) → Option Offset

/-- `timezone`, whose offset is always the same. -/
def timezone (offset : Offset) : TzInfo := ⟨fun _ => some offset⟩

structure Time where
  clock : Clock
  tzinfo : Option TzInfo

structure DateTime where
  date : Date
  clock : Clock
  fold : Bool
  tzinfo : Option TzInfo

def Time.utcoffset (t : Time) : Option Offset := t.tzinfo.bind fun zone => zone.utcoffset none

/-- The offset, were the fold another one. -/
def DateTime.utcoffsetAt (t : DateTime) (fold : Bool) : Option Offset :=
  t.tzinfo.bind fun zone => zone.utcoffset (some (t.date, t.clock, fold))

def DateTime.utcoffset (t : DateTime) : Option Offset := t.utcoffsetAt t.fold

/-! ## Equality -/

/-- `t == u` -/
def Time.eq (t u : Time) : Bool :=
  if t.utcoffset = u.utcoffset then t.clock = u.clock
  else match t.utcoffset, u.utcoffset with
    | some x, some y =>
      -- the minutes in UTC, the seconds as they are
      ((t.clock.hour * 60 + t.clock.minute : ℤ) - x.micros / 60000000 =
        (u.clock.hour * 60 + u.clock.minute : ℤ) - y.micros / 60000000) &&
      t.clock.second = u.clock.second && t.clock.microsecond = u.clock.microsecond
    | _, _ => false

/-- The microseconds since the year 1 in UTC. -/
def DateTime.instant (t : DateTime) (offset : Offset) : ℤ :=
  t.date.toOrdinal * DAY + t.clock.micros - offset.micros

/-- `t == u` for zones that are not the same object, unless their offsets do not depend on the fold:
a time whose offset depends on its fold equals no time of another zone. -/
def DateTime.eq (t u : DateTime) : Bool :=
  if t.utcoffset ≠ t.utcoffsetAt (!t.fold) ∨ u.utcoffset ≠ u.utcoffsetAt (!u.fold) then false
  else if t.utcoffset = u.utcoffset then t.date = u.date && t.clock = u.clock
  else match t.utcoffset, u.utcoffset with
    | some x, some y => t.instant x = u.instant y
    | _, _ => false

/-! ## Writing -/

/-- `date.isoformat` -/
def Date.isoformat (d : Date) : List Char :=
  pad 4 d.year ++ '-' :: (pad 2 d.month ++ '-' :: pad 2 d.day)

/-- The microseconds, if there are any. -/
def microText (microsecond : ℕ) : List Char :=
  if microsecond = 0 then [] else '.' :: pad 6 microsecond

/-- `_format_time` -/
def Clock.text (c : Clock) : List Char :=
  pad 2 c.hour ++ ':' :: (pad 2 c.minute ++ ':' :: (pad 2 c.second ++ microText c.microsecond))

/-- The text of an offset behind its sign. -/
def offsetBody (total : ℕ) : List Char :=
  pad 2 (total / 3600000000) ++ ':' :: (pad 2 (total / 60000000 % 60) ++
    if total / 1000000 % 60 ≠ 0 ∨ total % 1000000 ≠ 0 then
      ':' :: (pad 2 (total / 1000000 % 60) ++ microText (total % 1000000))
    else [])

/-- `_format_offset` -/
def Offset.text (offset : Offset) : List Char :=
  (if offset.micros < 0 then '-' else '+') :: offsetBody offset.micros.natAbs

def zoneText (offset : Option Offset) : List Char := offset.elim [] Offset.text

/-- `time.isoformat` -/
def Time.isoformat (t : Time) : List Char := t.clock.text ++ zoneText t.utcoffset

/-- `datetime.isoformat` -/
def DateTime.isoformat (t : DateTime) : List Char :=
  t.date.isoformat ++ 'T' :: (t.clock.text ++ zoneText t.utcoffset)

/-! ## Reading -/

/-- Read `n` digits. -/
def readDigits (n : ℕ) (text : List Char) : Option (ℕ × List Char) :=
  if IsDigits n (text.take n) then some (value (text.take n), text.drop n) else none

/-- Read a mark, if it is there. -/
def readMark (mark : Char) : List Char → Bool × List Char
  | [] => (false, [])
  | c :: text => if c = mark then (true, text) else (false, c :: text)

/-- `date.fromisoformat`: `YYYY-MM-DD`, `YYYY-Www` or `YYYY-Www-D`, and all of them without
dashes. -/
def Date.fromisoformat (text : List Char) : Option Date := do
  let (year, rest) ← readDigits 4 text
  let (hasSep, rest) := readMark '-' rest
  let (isWeek, rest) := readMark 'W' rest
  let (number, rest) ← readDigits 2 rest
  if isWeek = true ∧ rest = [] then Date.ofWeek year number 1
  else
    let (sep, rest) := readMark '-' rest
    let (day, rest) ← readDigits (if isWeek then 1 else 2) rest
    if sep ≠ hasSep ∨ rest ≠ [] then none
    else if isWeek then Date.ofWeek year number day
    else Date.mk? year number day

/-- The fraction of a second; what comes after microseconds is cut off. -/
def readMicro : List Char → Option ℕ
  | [] => some 0
  | c :: digits =>
    if (c = '.' ∨ c = ',') ∧ digits ≠ [] ∧ digits.all asciiDigit then
      some (value ((digits ++ List.replicate 6 '0').take 6))
    else none

/-- `_parse_hh_mm_ss_ff`: `HH`, `HH:MM`, `HH:MM:SS` or `HH:MM:SS.f`, and all without colons. -/
def readClock (text : List Char) : Option (ℕ × ℕ × ℕ × ℕ) := do
  let (hour, rest) ← readDigits 2 text
  if rest = [] then return (hour, 0, 0, 0)
  else
    let (hasSep, rest) := readMark ':' rest
    let (minute, rest) ← readDigits 2 rest
    if rest = [] then return (hour, minute, 0, 0)
    else
      let (sep, rest) := readMark ':' rest
      let (second, rest) ← readDigits 2 rest
      let microsecond ← readMicro rest
      if sep ≠ hasSep then none else return (hour, minute, second, microsecond)

/-- The time, and the sign and the text of the offset. -/
def splitZone (text : List Char) : List Char × Option (Char × List Char) :=
  match ['-', '+', 'Z'].find? (· ∈ text) with
  | none => (text, none)
  | some sign => (text.takeWhile (· ≠ sign), some (sign, (text.dropWhile (· ≠ sign)).tail))

def readOffset (sign : Char) (text : List Char) : Option Offset :=
  if sign = 'Z' then if text = [] then Offset.mk? 0 else none
  else do
    let (hour, minute, second, microsecond) ← readClock text
    let total : ℤ := micros hour minute second microsecond
    Offset.mk? (if sign = '-' then -total else total)

/-- `_parse_isoformat_time` -/
def readTime (text : List Char) : Option (Clock × Option Offset) := do
  let (time, zone) := splitZone text
  let (hour, minute, second, microsecond) ← readClock time
  let clock ← Clock.mk? hour minute second microsecond
  match zone with
  | none => return (clock, none)
  | some (sign, zone) =>
    let offset ← readOffset sign zone
    return (clock, some offset)

/-- `time.fromisoformat` -/
def Time.fromisoformat (text : List Char) : Option Time := do
  let (clock, offset) ← readTime (readMark 'T' text).2
  return ⟨clock, offset.map timezone⟩

/-- `_find_isoformat_datetime_separator`: where the date ends. -/
def separator (text : List Char) : ℕ :=
  let digit (i : ℕ) : Bool := asciiDigit (text.getD i ' ')
  if text.length = 7 then 7
  else if text.getD 4 ' ' = '-' then
    if text.getD 5 ' ' = 'W' then
      if text.getD 8 ' ' = '-' then if digit 10 then 8 else 10 else 8
    else 10
  else if text.getD 4 ' ' = 'W' then
    let end' := 7 + ((text.drop 7).takeWhile asciiDigit).length
    if end' < 9 then end' else if end' % 2 = 0 then 7 else 8
  else 8

/-- `datetime.fromisoformat` -/
def DateTime.fromisoformat (text : List Char) : Option DateTime := do
  let place := separator text
  let date ← Date.fromisoformat (text.take place)
  match text.drop place with
  | [] => return ⟨date, midnight, false, none⟩
  | _ :: time =>
    let (clock, offset) ← readTime time
    return ⟨date, clock, false, offset.map timezone⟩

/-! ## Digits and marks -/

section

variable {n k : ℕ} (hn : 0 < n) (hk : k < 10 ^ n) (rest : List Char)

include hn hk

theorem length_pad : (pad n k).length = n := (isDigits_pad hn hk).length

/-- A padded number is read back. -/
theorem readDigits_pad : readDigits n (pad n k ++ rest) = some (k, rest) := by
  have htake : (pad n k ++ rest).take n = pad n k := List.take_left' (length_pad hn hk)
  have hdrop : (pad n k ++ rest).drop n = rest := List.drop_left' (length_pad hn hk)
  unfold readDigits
  rw [htake, hdrop, if_pos (isDigits_pad hn hk), value_pad]

end

theorem readMark_self (mark : Char) (text : List Char) :
    readMark mark (mark :: text) = (true, text) := if_pos rfl

theorem exists_pad_eq_cons (n k : ℕ) : ∃ c cs, pad n k = c :: cs ∧ asciiDigit c = true := by
  obtain ⟨c, cs, h⟩ := List.exists_cons_of_ne_nil (pad_ne_nil n k)
  exact ⟨c, cs, h, asciiDigit_of_mem_pad (h ▸ List.mem_cons_self)⟩

theorem readMark_pad (mark : Char) (hmark : asciiDigit mark = false) (n k : ℕ) (rest : List Char) :
    readMark mark (pad n k ++ rest) = (false, pad n k ++ rest) := by
  obtain ⟨c, cs, h, hc⟩ := exists_pad_eq_cons n k
  rw [h]
  refine if_neg ?_
  rintro rfl
  rw [hmark] at hc
  exact Bool.false_ne_true hc

/-! ## Dates -/

theorem daysInMonth_le (year month : ℕ) : daysInMonth year month ≤ 31 := by
  have hall : ∀ days ∈ monthDays year, days ≤ 31 := by
    unfold monthDays
    cases isLeap year <;> decide
  unfold daysInMonth
  rcases lt_or_ge (month - 1) (monthDays year).length with hlt | hge
  · rw [List.getD_eq_getElem _ _ hlt]
    exact hall _ (List.getElem_mem hlt)
  · rw [List.getD_eq_default _ _ hge]
    omega

/-- A date is read back. -/
theorem Date.fromisoformat_isoformat (d : Date) : Date.fromisoformat d.isoformat = some d := by
  obtain ⟨year, month, day, hvalid⟩ := d
  have hyear := hvalid.year_mem
  have hmonth := hvalid.month_mem
  have hday := hvalid.day_mem
  have hdays := daysInMonth_le year month
  have hlast := readDigits_pad (n := 2) (k := day) (by omega) (by omega) []
  rw [List.append_nil] at hlast
  unfold Date.fromisoformat Date.isoformat
  simp only [Option.bind_eq_bind, readDigits_pad (n := 4) (k := year) (by omega) (by omega),
    readMark_self, readMark_pad 'W' rfl,
    readDigits_pad (n := 2) (k := month) (by omega) (by omega), Option.bind_some,
    Bool.false_eq_true, false_and, if_false, hlast, ne_eq, not_true_eq_false, or_self]
  exact dif_pos hvalid

/-! ## Clocks -/

theorem readMicro_microText {microsecond : ℕ} (h : microsecond < 1000000) :
    readMicro (microText microsecond) = some microsecond := by
  unfold microText
  split_ifs with hzero
  · rw [hzero]
    rfl
  · have htake : (pad 6 microsecond ++ List.replicate 6 '0').take 6 = pad 6 microsecond :=
      List.take_left' (length_pad (by omega) h)
    have hall : (pad 6 microsecond).all asciiDigit = true :=
      List.all_eq_true.mpr fun _ => asciiDigit_of_mem_pad
    refine (if_pos ⟨.inl rfl, pad_ne_nil _ _, hall⟩).trans ?_
    rw [htake, value_pad]

section

variable {hour minute second microsecond : ℕ} (hhour : hour < 100) (hminute : minute < 100)

include hhour hminute

theorem readClock_seconds (hsecond : second < 100) (hmicro : microsecond < 1000000) :
    readClock (pad 2 hour ++ ':' :: (pad 2 minute ++
      ':' :: (pad 2 second ++ microText microsecond))) =
        some (hour, minute, second, microsecond) := by
  unfold readClock
  simp only [Option.bind_eq_bind, readDigits_pad (n := 2) (k := hour) (by omega) (by omega),
    readDigits_pad (n := 2) (k := minute) (by omega) (by omega),
    readDigits_pad (n := 2) (k := second) (by omega) (by omega), Option.bind_some,
    readMark_self, readMicro_microText hmicro, reduceCtorEq, if_false, ne_eq, not_true_eq_false]
  rfl

theorem readClock_minutes :
    readClock (pad 2 hour ++ ':' :: pad 2 minute) = some (hour, minute, 0, 0) := by
  have hlast := readDigits_pad (n := 2) (k := minute) (by omega) (by omega) []
  rw [List.append_nil] at hlast
  unfold readClock
  simp only [Option.bind_eq_bind, readDigits_pad (n := 2) (k := hour) (by omega) (by omega),
    Option.bind_some, readMark_self, hlast, reduceCtorEq, if_false, if_true]
  rfl

end

theorem readClock_text (c : Clock) :
    readClock c.text = some (c.hour, c.minute, c.second, c.microsecond) := by
  have hvalid := c.valid
  exact readClock_seconds (by have := hvalid.hour_lt; omega) (by have := hvalid.minute_lt; omega)
    (by have := hvalid.second_lt; omega) hvalid.microsecond_lt

theorem Clock.mk?_self (c : Clock) :
    Clock.mk? c.hour c.minute c.second c.microsecond = some c := dif_pos c.valid

/-! ## Offsets -/

/-- Texts without a mark of a zone. -/
def Zoneless (text : List Char) : Prop := ∀ c ∈ text, c ≠ '-' ∧ c ≠ '+' ∧ c ≠ 'Z'

theorem Zoneless.append {text rest : List Char} (h : Zoneless text) (hrest : Zoneless rest) :
    Zoneless (text ++ rest) := List.forall_mem_append.mpr ⟨h, hrest⟩

theorem Zoneless.cons {c : Char} {text : List Char} (hc : c ≠ '-' ∧ c ≠ '+' ∧ c ≠ 'Z')
    (h : Zoneless text) : Zoneless (c :: text) := List.forall_mem_cons.mpr ⟨hc, h⟩

theorem zoneless_nil : Zoneless [] := nofun

theorem zoneless_pad (n k : ℕ) : Zoneless (pad n k) := by
  intro c hc
  have hdigit := asciiDigit_of_mem_pad hc
  refine ⟨?_, ?_, ?_⟩ <;>
  · rintro rfl
    exact absurd hdigit (by decide)

theorem zoneless_microText (microsecond : ℕ) : Zoneless (microText microsecond) := by
  unfold microText
  split_ifs
  · exact zoneless_nil
  · exact (zoneless_pad 6 microsecond).cons (by decide)

theorem zoneless_text (c : Clock) : Zoneless c.text :=
  (zoneless_pad 2 c.hour).append (((zoneless_pad 2 c.minute).append
    (((zoneless_pad 2 c.second).append (zoneless_microText c.microsecond)).cons
      (by decide))).cons (by decide))

theorem splitZone_of_zoneless {text : List Char} (h : Zoneless text) :
    splitZone text = (text, none) := by
  have hfind : ['-', '+', 'Z'].find? (· ∈ text) = none := by
    rw [List.find?_eq_none]
    intro mark hmark hmem
    have hne := h mark (of_decide_eq_true hmem)
    simp only [List.mem_cons, List.not_mem_nil, or_false] at hmark
    rcases hmark with rfl | rfl | rfl
    · exact hne.1 rfl
    · exact hne.2.1 rfl
    · exact hne.2.2 rfl
  unfold splitZone
  rw [hfind]

/-- A text is split at its sign. -/
theorem splitZone_append {text body : List Char} {sign : Char} (h : Zoneless text)
    (hbody : Zoneless body) (hsign : sign = '-' ∨ sign = '+') :
    splitZone (text ++ sign :: body) = (text, some (sign, body)) := by
  have hmem : sign ∈ text ++ sign :: body := by simp
  have hfind : ['-', '+', 'Z'].find? (· ∈ text ++ sign :: body) = some sign := by
    rcases hsign with rfl | rfl
    · exact List.find?_cons_of_pos (decide_eq_true hmem)
    · have hdash : '-' ∉ text ++ '+' :: body := by
        intro hdash
        rcases List.mem_append.mp hdash with hdash | hdash
        · exact (h _ hdash).1 rfl
        · rcases List.mem_cons.mp hdash with heq | hdash
          · exact absurd heq (by decide)
          · exact (hbody _ hdash).1 rfl
      rw [List.find?_cons_of_neg (by simpa using hdash)]
      exact List.find?_cons_of_pos (decide_eq_true hmem)
  have hpasses : ∀ c ∈ text, decide (c ≠ sign) = true := by
    intro c hc
    rcases hsign with rfl | rfl
    · exact decide_eq_true (h c hc).1
    · exact decide_eq_true (h c hc).2.1
  unfold splitZone
  rw [hfind]
  dsimp only
  rw [List.takeWhile_append_of_pos hpasses, List.dropWhile_append_of_pos hpasses,
    List.takeWhile_cons_of_neg (by simp), List.dropWhile_cons_of_neg (by simp), List.append_nil]
  rfl

theorem zoneless_offsetBody (total : ℕ) : Zoneless (offsetBody total) := by
  refine (zoneless_pad 2 _).append (((zoneless_pad 2 _).append ?_).cons (by decide))
  split_ifs
  · exact ((zoneless_pad 2 _).append (zoneless_microText _)).cons (by decide)
  · exact zoneless_nil

theorem readClock_offsetBody {total : ℕ} (h : total < DAY) :
    readClock (offsetBody total) = some (total / 3600000000, total / 60000000 % 60,
      total / 1000000 % 60, total % 1000000) := by
  unfold DAY at h
  unfold offsetBody
  split_ifs with hseconds
  · exact readClock_seconds (by omega) (by omega) (by omega) (by omega)
  · have hzero : total / 1000000 % 60 = 0 ∧ total % 1000000 = 0 := by omega
    rw [List.append_nil, hzero.1, hzero.2]
    exact readClock_minutes (by omega) (by omega)

theorem readOffset_of_ne {sign : Char} (hsign : sign ≠ 'Z') {total : ℕ} (h : total < DAY) :
    readOffset sign (offsetBody total) =
      Offset.mk? (if sign = '-' then -(total : ℤ) else total) := by
  have htotal : micros (total / 3600000000) (total / 60000000 % 60) (total / 1000000 % 60)
      (total % 1000000) = total := by
    unfold micros
    omega
  unfold readOffset
  rw [if_neg hsign, readClock_offsetBody h]
  simp only [Option.bind_eq_bind, Option.bind_some, htotal]

/-- An offset is read back. -/
theorem readOffset_offsetBody (offset : Offset) :
    readOffset (if offset.micros < 0 then '-' else '+') (offsetBody offset.micros.natAbs) =
      some offset := by
  have hmk : Offset.mk? offset.micros = some offset := dif_pos offset.valid
  split_ifs with hneg
  · have hback : -(offset.micros.natAbs : ℤ) = offset.micros := by omega
    rw [readOffset_of_ne (by decide) offset.valid, if_pos rfl, hback, hmk]
  · have hback : (offset.micros.natAbs : ℤ) = offset.micros := by omega
    rw [readOffset_of_ne (by decide) offset.valid, if_neg (by decide), hback, hmk]

/-! ## Times -/

/-- A time and its offset are read back. -/
theorem readTime_text (c : Clock) (offset : Option Offset) :
    readTime (c.text ++ zoneText offset) = some (c, offset) := by
  unfold readTime
  cases offset with
  | none =>
    rw [zoneText, Option.elim_none, List.append_nil, splitZone_of_zoneless (zoneless_text c)]
    simp only [Option.bind_eq_bind, readClock_text, Option.bind_some, Clock.mk?_self]
    rfl
  | some offset =>
    have hsign : (if offset.micros < 0 then '-' else '+') = '-' ∨
        (if offset.micros < 0 then '-' else '+') = '+' := by
      split_ifs
      · exact .inl rfl
      · exact .inr rfl
    have hsplit : splitZone (c.text ++ zoneText (some offset)) =
        (c.text, some (_, offsetBody offset.micros.natAbs)) :=
      splitZone_append (zoneless_text c) (zoneless_offsetBody offset.micros.natAbs) hsign
    rw [hsplit]
    simp only [Option.bind_eq_bind, readClock_text, Option.bind_some, Clock.mk?_self,
      readOffset_offsetBody]
    rfl

theorem Time.fromisoformat_isoformat (t : Time) :
    Time.fromisoformat t.isoformat = some ⟨t.clock, t.utcoffset.map timezone⟩ := by
  have hmark : readMark 'T' t.isoformat = (false, t.isoformat) := by
    unfold Time.isoformat Clock.text
    rw [List.append_assoc, readMark_pad 'T' rfl]
  unfold Time.fromisoformat
  rw [hmark, Time.isoformat, readTime_text]
  rfl

theorem length_isoformat (d : Date) : d.isoformat.length = 10 := by
  have hvalid := d.valid
  have hyear := hvalid.year_mem
  have hmonth := hvalid.month_mem
  have hday := hvalid.day_mem
  have hdays := daysInMonth_le d.year d.month
  unfold Date.isoformat
  rw [List.length_append, List.length_cons, List.length_append, List.length_cons,
    length_pad (by omega) (by omega), length_pad (by omega) (by omega),
    length_pad (by omega) (by omega)]

/-- The date ends behind its ten characters. -/
theorem separator_isoformat (d : Date) (rest : List Char) :
    separator (d.isoformat ++ rest) = 10 := by
  have hyear : (pad 4 d.year).length = 4 :=
    length_pad (by omega) (by have := d.valid.year_mem; omega)
  obtain ⟨c, cs, hpad, hc⟩ := exists_pad_eq_cons 2 d.month
  have htext : d.isoformat ++ rest =
      pad 4 d.year ++ '-' :: c :: (cs ++ '-' :: (pad 2 d.day ++ rest)) := by
    unfold Date.isoformat
    rw [hpad]
    simp only [List.append_assoc, List.cons_append]
  have hlength : (d.isoformat ++ rest).length ≠ 7 := by
    rw [List.length_append, length_isoformat]
    omega
  have hdash : (d.isoformat ++ rest).getD 4 ' ' = '-' := by
    rw [htext, List.getD_append_right _ _ _ _ (by omega), hyear]
    rfl
  have hdigit : (d.isoformat ++ rest).getD 5 ' ' = c := by
    rw [htext, List.getD_append_right _ _ _ _ (by omega), hyear]
    rfl
  have hweek : c ≠ 'W' := by
    rintro rfl
    exact absurd hc (by decide)
  unfold separator
  simp only [if_neg hlength, hdash, hdigit, if_neg hweek, if_true]

theorem DateTime.fromisoformat_isoformat (t : DateTime) :
    DateTime.fromisoformat t.isoformat =
      some ⟨t.date, t.clock, false, t.utcoffset.map timezone⟩ := by
  have htake : t.isoformat.take 10 = t.date.isoformat := List.take_left' (length_isoformat _)
  have hdrop : t.isoformat.drop 10 = 'T' :: (t.clock.text ++ zoneText t.utcoffset) :=
    List.drop_left' (length_isoformat _)
  unfold DateTime.fromisoformat
  dsimp only
  rw [show separator t.isoformat = 10 from separator_isoformat _ _, htake, hdrop,
    Date.fromisoformat_isoformat]
  simp only [Option.bind_eq_bind, Option.bind_some, readTime_text]
  rfl

/-! ## What is read back -/

theorem utcoffset_timezone (offset : Option Offset) (arg : Option (Date × Clock × Bool)) :
    ((offset.map timezone).bind fun zone => zone.utcoffset arg) = offset := by
  cases offset <;> rfl

/-- A time is equal to what is read back. -/
theorem Time.eq_of_fromisoformat (t : Time) :
    t.eq ⟨t.clock, t.utcoffset.map timezone⟩ = true := by
  have hoffset : Time.utcoffset ⟨t.clock, t.utcoffset.map timezone⟩ = t.utcoffset :=
    utcoffset_timezone t.utcoffset none
  unfold Time.eq
  rw [hoffset, if_pos rfl]
  exact decide_eq_true rfl

/-- A date and time is equal to what is read back exactly if its offset does not depend on the
fold. -/
theorem DateTime.eq_of_fromisoformat (t : DateTime) :
    t.eq ⟨t.date, t.clock, false, t.utcoffset.map timezone⟩ = true ↔
      t.utcoffsetAt false = t.utcoffsetAt true := by
  have hoffset : ∀ fold, DateTime.utcoffsetAt ⟨t.date, t.clock, false, t.utcoffset.map timezone⟩
      fold = t.utcoffset := fun fold => utcoffset_timezone t.utcoffset _
  have hfold : t.utcoffset = t.utcoffsetAt (!t.fold) ↔ t.utcoffsetAt false = t.utcoffsetAt true := by
    unfold DateTime.utcoffset
    cases t.fold with
    | false => exact Iff.rfl
    | true => exact eq_comm
  have hself : DateTime.utcoffset ⟨t.date, t.clock, false, t.utcoffset.map timezone⟩ =
      t.utcoffset := hoffset false
  rw [← hfold]
  unfold DateTime.eq
  rw [hself, hoffset]
  by_cases hsame : t.utcoffset = t.utcoffsetAt (!t.fold)
  · rw [if_neg (by simpa using hsame), if_pos rfl]
    simp [hsame]
  · rw [if_pos (.inl hsame)]
    simp [hsame]

end IsoFormat
