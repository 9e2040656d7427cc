import ApiTemplate.Collections.Dict
import ApiTemplate.Stream.JsonDocument

/-!
# Reading JSON

A reader of JSON texts, over what its literals are read as. Blanks may stand around every part, and
a key that comes again replaces the value of its first place. The text of a document is read as what
the document means, whatever stands behind it: its strings with the surrogates joined, its members
as the entries of a dictionary.
-/

namespace JsonReader

open JsonDocument Utf16

variable {α : Type}

/-! ## Texts with blanks -/

mutual

/-- The text of a document, with a blank behind each comma and colon. -/
def spaced : Doc → List Char
  | .token t => t.text
  | .str s => quoteUnits s
  | .array [] => ['[', ']']
  | .array (item :: items) => '[' :: (spaced item ++ spacedItems items)
  | .object [] => ['\x7b', '\x7d']
  | .object ((key, value) :: members) =>
    '\x7b' :: (quoteUnits key ++ ':' :: ' ' :: (spaced value ++ spacedMembers members))

/-- The items after the first one, and the closing bracket. -/
def spacedItems : List Doc → List Char
  | [] => [']']
  | item :: items => ',' :: ' ' :: (spaced item ++ spacedItems items)

def spacedMembers : List (List CodeUnit × Doc) → List Char
  | [] => ['\x7d']
  | (key, value) :: members =>
    ',' :: ' ' :: (quoteUnits key ++ ':' :: ' ' :: (spaced value ++ spacedMembers members))

end

/-! ## Reading -/

inductive Json (α : Type)
  | literal (a : α)
  | str (s : Str)
  | array (items : List (Json α))
  | object (members : List (Str × Json α))

def blank (c : Char) : Bool := c = ' ' || c = '\t' || c = '\n' || c = '\r'

/-- What follows the blanks. -/
def skip (text : List Char) : List Char := text.dropWhile blank

def hexDigit? (c : Char) : Option ℕ :=
  if 48 ≤ c.toNat ∧ c.toNat ≤ 57 then some (c.toNat - 48)
  else if 65 ≤ c.toNat ∧ c.toNat ≤ 70 then some (c.toNat - 55)
  else if 97 ≤ c.toNat ∧ c.toNat ≤ 102 then some (c.toNat - 87)
  else none

/-- The characters that may follow a backslash, and what they stand for. -/
def escapes : List (Char × ℕ) :=
  [('"', 34), ('\\', 92), ('/', 47), ('b', 8), ('f', 12), ('n', 10), ('r', 13), ('t', 9)]

/-- The points of a string literal up to its closing quote; control characters are refused. -/
def scanPoints : List Char → Option (Str × List Char)
  | [] => none
  | '"' :: text => some ([], text)
  | '\\' :: 'u' :: a :: b :: c :: d :: text => do
    let n := (← hexDigit? a) * 4096 + (← hexDigit? b) * 256 + (← hexDigit? c) * 16 + (← hexDigit? d)
    let (s, rest) ← scanPoints text
    return (point n :: s, rest)
  | '\\' :: c :: text => do
    let n ← Dict.get? escapes c
    let (s, rest) ← scanPoints text
    return (point n :: s, rest)
  | c :: text =>
    if c.toNat < 32 then none
    else do
      let (s, rest) ← scanPoints text
      return (point c.toNat :: s, rest)

/-- A string literal behind its opening quote. -/
def scanString (text : List Char) : Option (Str × List Char) :=
  (scanPoints text).map fun (s, rest) => (join s, rest)

section

variable (literal : List Char → Option α)

mutual

/-- Read a document in front of a text. Every literal ends before a blank or punctuation. -/
def scan : ℕ → List Char → Option (Json α × List Char)
  | 0, _ => none
  | fuel + 1, text =>
    match text with
    | '"' :: text => (scanString text).map fun (s, rest) => (.str s, rest)
    | '[' :: text =>
      match skip text with
      | ']' :: rest => some (.array [], rest)
      | text => (scanItems fuel text).map fun (items, rest) => (.array items, rest)
    | '\x7b' :: text =>
      match skip text with
      | '\x7d' :: rest => some (.object [], rest)
      | text => (scanMembers fuel text).map fun (members, rest) =>
          (.object (Dict.update [] members), rest)
    | text => (literal (text.takeWhile tokenChar)).map fun a =>
        (.literal a, text.dropWhile tokenChar)

def scanItems : ℕ → List Char → Option (List (Json α) × List Char)
  | 0, _ => none
  | fuel + 1, text => do
    let (item, rest) ← scan fuel text
    match skip rest with
    | ']' :: rest => return ([item], rest)
    | ',' :: rest =>
      let (items, rest) ← scanItems fuel (skip rest)
      return (item :: items, rest)
    | _ => none

def scanMembers : ℕ → List Char → Option (List (Str × Json α) × List Char)
  | fuel + 1, '"' :: text => do
    let (key, rest) ← scanString text
    match skip rest with
    | ':' :: rest =>
      let (value, rest) ← scan fuel (skip rest)
      match skip rest with
      | '\x7d' :: rest => return ([(key, value)], rest)
      | ',' :: rest =>
        let (members, rest) ← scanMembers fuel (skip rest)
        return ((key, value) :: members, rest)
      | _ => none
    | _ => none
  | _, _ => none

end

/-- The document that is the whole text. -/
def read (text : List Char) : Option (Json α) := do
  let (json, rest) ← scan literal (2 * text.length) (skip text)
  if skip rest = [] then return json else none

/-! ## Meanings -/

mutual

/-- What a document is read as. -/
def meaning : Doc → Option (Json α)
  | .token t => (literal t.text).map .literal
  | .str s => some (.str (join (units s)))
  | .array items => (meanings items).map .array
  | .object members => (memberMeanings members).map fun members => .object (Dict.update [] members)

def meanings : List Doc → Option (List (Json α))
  | [] => some []
  | item :: items => do
    let json ← meaning item
    let jsons ← meanings items
    return json :: jsons

def memberMeanings : List (List CodeUnit × Doc) → Option (List (Str × Json α))
  | [] => some []
  | (key, value) :: members => do
    let json ← meaning value
    let jsons ← memberMeanings members
    return (join (units key), json) :: jsons

end

end

/-! ## Strings -/

theorem hexDigit?_hexDigit : ∀ n < 16, hexDigit? (JsonText.hexDigit n) = some n := by decide

theorem scanPoints_of_ne {c : Char} (hslash : c ≠ '\\') (hquote : c ≠ '"') (hlow : 32 ≤ c.toNat)
    (text : List Char) :
    scanPoints (c :: text) = (scanPoints text).map fun (s, rest) => (point c.toNat :: s, rest) := by
  rw [scanPoints]
  · rw [if_neg (by omega)]
    cases scanPoints text <;> rfl
  · exact fun h => hquote h
  · exact fun _ _ _ _ _ h => absurd h hslash
  · exact fun _ _ h => absurd h hslash

theorem scanPoints_slash {c : Char} {n : ℕ} (hc : c ≠ 'u') (h : Dict.get? escapes c = some n)
    (text : List Char) :
    scanPoints ('\\' :: c :: text) =
      (scanPoints text).map fun (s, rest) => (point n :: s, rest) := by
  rw [scanPoints]
  · rw [h]
    cases scanPoints text <;> rfl
  · exact fun _ _ _ _ _ h _ => hc h

theorem point_val (u : CodeUnit) : point u.val = Fin.castLE (by decide) u :=
  Fin.ext (Nat.mod_eq_of_lt (Nat.lt_trans u.isLt (by decide)))

/-- A code unit is read back. -/
theorem scanPoints_escapeUnit (u : CodeUnit) (text : List Char) :
    scanPoints (escapeUnit u ++ text) =
      (scanPoints text).map fun (s, rest) => (Fin.castLE (by decide) u :: s, rest) := by
  rw [← point_val]
  obtain ⟨n, hn⟩ := u
  unfold escapeUnit
  by_cases hquote : n = 34
  · subst hquote
    exact scanPoints_slash (by decide) rfl text
  by_cases hslash : n = 92
  · subst hslash
    exact scanPoints_slash (by decide) rfl text
  rw [if_neg hquote, if_neg hslash]
  by_cases hplain : 32 ≤ n ∧ n ≤ 126
  · rw [if_pos hplain]
    obtain ⟨⟨hs, hq⟩, htoNat⟩ := readUnit_plain n (by omega) ⟨hplain.1, hquote, hslash⟩
    exact (scanPoints_of_ne hs hq (by omega) text).trans (by rw [htoNat])
  rw [if_neg hplain]
  split_ifs with h10 h13 h9 h8 h12
  · subst h10
    exact scanPoints_slash (by decide) rfl text
  · subst h13
    exact scanPoints_slash (by decide) rfl text
  · subst h9
    exact scanPoints_slash (by decide) rfl text
  · subst h8
    exact scanPoints_slash (by decide) rfl text
  · subst h12
    exact scanPoints_slash (by decide) rfl text
  · have hsum : n / 4096 * 4096 + n / 256 % 16 * 256 + n / 16 % 16 * 16 + n % 16 = n := by omega
    simp only [List.cons_append, List.nil_append]
    rw [scanPoints, hexDigit?_hexDigit _ (by omega), hexDigit?_hexDigit _ (by omega),
      hexDigit?_hexDigit _ (by omega), hexDigit?_hexDigit _ (by omega)]
    simp only [Option.bind_eq_bind, Option.bind_some]
    rw [hsum]
    cases scanPoints text <;> rfl

theorem scanPoints_flatMap (s : List CodeUnit) (text : List Char) :
    scanPoints (s.flatMap escapeUnit ++ '"' :: text) = some (units s, text) := by
  induction s with
  | nil => rfl
  | cons u s ih =>
    rw [List.flatMap_cons, List.append_assoc, scanPoints_escapeUnit, ih]
    rfl

/-- A string is read back, its surrogates joined. -/
theorem scanString_quoteUnits (s : List CodeUnit) (text : List Char) :
    scanString (s.flatMap escapeUnit ++ '"' :: text) = some (join (units s), text) := by
  rw [scanString, scanPoints_flatMap]
  rfl

theorem quoteUnits_append (s : List CodeUnit) (text : List Char) :
    quoteUnits s ++ text = '"' :: (s.flatMap escapeUnit ++ '"' :: text) := by
  rw [quoteUnits, List.cons_append, List.append_assoc]
  rfl

/-! ## Blanks and openings -/

theorem skip_cons {c : Char} (h : blank c = false) (text : List Char) :
    skip (c :: text) = c :: text :=
  List.dropWhile_cons_of_neg (by rw [h]; exact Bool.false_ne_true)

theorem skip_space (text : List Char) : skip (' ' :: text) = skip text :=
  List.dropWhile_cons_of_pos rfl

theorem blank_of_tokenChar {c : Char} (h : tokenChar c = true) : blank c = false := by
  unfold blank
  simp only [Bool.or_eq_false_iff, decide_eq_false_iff_not]
  refine ⟨⟨⟨?_, ?_⟩, ?_⟩, ?_⟩ <;>
  · rintro rfl
    exact absurd h (by decide)

theorem blank_of_opens {d : Doc} {c : Char} (h : opens d c) : blank c = false := by
  cases d with
  | token t => exact blank_of_tokenChar h
  | str s =>
    obtain rfl : c = '"' := h
    rfl
  | array items =>
    obtain rfl : c = '[' := h
    rfl
  | object members =>
    obtain rfl : c = '\x7b' := h
    rfl

theorem ne_close_of_opens {d : Doc} {c : Char} (h : opens d c) : c ≠ ']' := by
  rintro rfl
  cases d with
  | token t => exact absurd (show tokenChar ']' = true from h) (by decide)
  | str s => exact absurd (show ']' = '"' from h) (by decide)
  | array items => exact absurd (show ']' = '[' from h) (by decide)
  | object members => exact absurd (show ']' = '\x7b' from h) (by decide)

theorem spaced_eq_cons (d : Doc) : ∃ c cs, spaced d = c :: cs ∧ opens d c := by
  match d with
  | .token t =>
    obtain ⟨c, cs, h⟩ := List.exists_cons_of_ne_nil t.ne_nil
    exact ⟨c, cs, by rw [spaced, h], t.chars c (by rw [h]; exact List.mem_cons_self)⟩
  | .str s => exact ⟨'"', _, by rw [spaced, quoteUnits], rfl⟩
  | .array [] => exact ⟨'[', _, by rw [spaced], rfl⟩
  | .array (item :: items) => exact ⟨'[', _, by rw [spaced], rfl⟩
  | .object [] => exact ⟨'\x7b', _, by rw [spaced], rfl⟩
  | .object ((key, value) :: members) => exact ⟨'\x7b', _, by rw [spaced], rfl⟩

theorem skip_spaced (d : Doc) (rest : List Char) : skip (spaced d ++ rest) = spaced d ++ rest := by
  obtain ⟨c, cs, h, hopens⟩ := spaced_eq_cons d
  rw [h]
  exact skip_cons (blank_of_opens hopens) _

theorem stops_spacedItems (items : List Doc) (rest : List Char) :
    Stops (spacedItems items ++ rest) := by
  cases items with
  | nil => exact stops_cons (by decide) _
  | cons item items =>
    rw [spacedItems]
    exact stops_cons (by decide) _

theorem stops_spacedMembers (members : List (List CodeUnit × Doc)) (rest : List Char) :
    Stops (spacedMembers members ++ rest) := by
  cases members with
  | nil => exact stops_cons (by decide) _
  | cons member members =>
    rw [spacedMembers]
    exact stops_cons (by decide) _

/-! ## Documents -/

section

variable (literal : List Char → Option α) (fuel : ℕ)

theorem scan_token {c : Char} (h : tokenChar c = true) (text : List Char) :
    scan literal (fuel + 1) (c :: text) =
      (literal ((c :: text).takeWhile tokenChar)).map fun a =>
        (.literal a, (c :: text).dropWhile tokenChar) := by
  have hne : c ≠ '"' ∧ c ≠ '[' ∧ c ≠ '\x7b' := by
    refine ⟨?_, ?_, ?_⟩ <;>
    · rintro rfl
      exact absurd h (by decide)
  rw [scan]
  · exact fun _ heq => hne.1 (List.cons.inj heq).1
  · exact fun _ heq => hne.2.1 (List.cons.inj heq).1
  · exact fun _ heq => hne.2.2 (List.cons.inj heq).1

theorem scan_array {c : Char} (hblank : blank c = false) (hne : c ≠ ']') (text : List Char) :
    scan literal (fuel + 1) ('[' :: c :: text) =
      (scanItems literal fuel (c :: text)).map fun (items, rest) => (.array items, rest) := by
  rw [scan]
  dsimp only
  rw [skip_cons hblank]
  split
  · next heq => exact absurd (List.cons.inj heq).1 hne
  · rfl

theorem scan_object (text : List Char) :
    scan literal (fuel + 1) ('\x7b' :: '"' :: text) =
      (scanMembers literal fuel ('"' :: text)).map fun (members, rest) =>
        (.object (Dict.update [] members), rest) := by
  rw [scan]
  rfl

variable {literal fuel}

/-- The last item. -/
theorem scanItems_close {text rest : List Char} {item : Json α}
    (h : scan literal fuel text = some (item, ']' :: rest)) :
    scanItems literal (fuel + 1) text = some ([item], rest) := by
  rw [scanItems, h]
  rfl

theorem scanItems_comma {text rest : List Char} {item : Json α}
    (h : scan literal fuel text = some (item, ',' :: rest)) :
    scanItems literal (fuel + 1) text =
      (scanItems literal fuel (skip rest)).map fun (items, rest) => (item :: items, rest) := by
  rw [scanItems, h]
  show (scanItems literal fuel (skip rest) >>= fun x => some (item :: x.1, x.2)) = _
  cases scanItems literal fuel (skip rest) <;> rfl

theorem scanMembers_close {key : List CodeUnit} {text rest : List Char} {value : Json α}
    (h : scan literal fuel (skip text) = some (value, '\x7d' :: rest)) :
    scanMembers literal (fuel + 1) (quoteUnits key ++ ':' :: text) =
      some ([(join (units key), value)], rest) := by
  rw [quoteUnits_append, scanMembers, scanString_quoteUnits]
  show (scan literal fuel (skip text) >>= _) = _
  rw [h]
  rfl

theorem scanMembers_comma {key : List CodeUnit} {text rest : List Char} {value : Json α}
    (h : scan literal fuel (skip text) = some (value, ',' :: rest)) :
    scanMembers literal (fuel + 1) (quoteUnits key ++ ':' :: text) =
      (scanMembers literal fuel (skip rest)).map fun (members, rest) =>
        ((join (units key), value) :: members, rest) := by
  rw [quoteUnits_append, scanMembers, scanString_quoteUnits]
  show (scan literal fuel (skip text) >>= _) = _
  rw [h]
  show (scanMembers literal fuel (skip rest) >>= fun x =>
    some ((join (units key), value) :: x.1, x.2)) = _
  cases scanMembers literal fuel (skip rest) <;> rfl

variable (literal)

theorem dropWhile_token (t : Token) {rest : List Char} (h : Stops rest) :
    (t.text ++ rest).dropWhile tokenChar = rest := by
  rw [List.dropWhile_append_of_pos t.chars]
  cases rest with
  | nil => rfl
  | cons c rest => exact List.dropWhile_cons_of_neg (by simp [h c rfl])

/-- A document is read as `json` in front of anything at which its literals stop. -/
def Reads (d : Doc) (json : Json α) : Prop :=
  ∀ {fuel : ℕ} {rest : List Char}, 2 * (spaced d).length ≤ fuel → Stops rest →
    scan literal fuel (spaced d ++ rest) = some (json, rest)

variable {literal}

theorem meanings_cons {item : Doc} {items : List Doc} {jsons : List (Json α)}
    (h : meanings literal (item :: items) = some jsons) :
    ∃ json rest, meaning literal item = some json ∧ meanings literal items = some rest ∧
      jsons = json :: rest := by
  rw [meanings] at h
  obtain ⟨json, hjson, h⟩ := Option.bind_eq_some_iff.mp h
  obtain ⟨rest, hrest, h⟩ := Option.bind_eq_some_iff.mp h
  exact ⟨json, rest, hjson, hrest, (Option.some.inj h).symm⟩

theorem memberMeanings_cons {key : List CodeUnit} {value : Doc}
    {members : List (List CodeUnit × Doc)} {jsons : List (Str × Json α)}
    (h : memberMeanings literal ((key, value) :: members) = some jsons) :
    ∃ json rest, meaning literal value = some json ∧ memberMeanings literal members = some rest ∧
      jsons = (join (units key), json) :: rest := by
  rw [memberMeanings] at h
  obtain ⟨json, hjson, h⟩ := Option.bind_eq_some_iff.mp h
  obtain ⟨rest, hrest, h⟩ := Option.bind_eq_some_iff.mp h
  exact ⟨json, rest, hjson, hrest, (Option.some.inj h).symm⟩

theorem spacedItems_cons_append (item : Doc) (items : List Doc) (rest : List Char) :
    spacedItems (item :: items) ++ rest =
      ',' :: ' ' :: (spaced item ++ (spacedItems items ++ rest)) := by
  rw [spacedItems, List.cons_append, List.cons_append, List.append_assoc]

theorem spacedMembers_cons_append (key : List CodeUnit) (value : Doc)
    (members : List (List CodeUnit × Doc)) (rest : List Char) :
    spacedMembers ((key, value) :: members) ++ rest = ',' :: ' ' :: (quoteUnits key ++
      ':' :: ' ' :: (spaced value ++ (spacedMembers members ++ rest))) := by
  rw [spacedMembers, List.cons_append, List.cons_append, List.append_assoc, List.cons_append,
    List.cons_append, List.append_assoc]

theorem length_spacedItems_pos (items : List Doc) : 0 < (spacedItems items).length := by
  cases items <;> simp [spacedItems]

theorem length_spacedMembers_pos (members : List (List CodeUnit × Doc)) :
    0 < (spacedMembers members).length := by
  rcases members with _ | ⟨⟨key, value⟩, members⟩ <;> simp [spacedMembers]

/-- The fuel for a text suffices for what stands behind its first character. -/
theorem exists_fuel {c : Char} {text : List Char} {fuel : ℕ}
    (h : 2 * (c :: text).length ≤ fuel) : ∃ k, fuel = k + 1 ∧ 2 * text.length < k := by
  rw [List.length_cons] at h
  exact ⟨fuel - 1, by omega, by omega⟩

theorem reads_token {t : Token} {a : α} (ha : literal t.text = some a) :
    Reads literal (.token t) (.literal a) := by
  intro fuel rest hfuel hrest
  obtain ⟨c, cs, htext⟩ := List.exists_cons_of_ne_nil t.ne_nil
  have hc : tokenChar c = true := t.chars c (by rw [htext]; exact List.mem_cons_self)
  rw [spaced, htext] at hfuel
  obtain ⟨fuel, rfl, -⟩ := exists_fuel hfuel
  have hscan := scan_token literal fuel hc (cs ++ rest)
  rw [← List.cons_append, ← htext, takeWhile_token t hrest, dropWhile_token t hrest, ha] at hscan
  rw [spaced]
  exact hscan

theorem reads_str (s : List CodeUnit) : Reads literal (.str s) (.str (join (units s))) := by
  intro fuel rest hfuel hrest
  rw [spaced, quoteUnits] at hfuel
  obtain ⟨fuel, rfl, -⟩ := exists_fuel hfuel
  rw [spaced, quoteUnits_append, scan]
  dsimp only
  rw [scanString_quoteUnits]
  rfl

theorem reads_array_nil : Reads literal (.array []) (.array []) := by
  intro fuel rest hfuel hrest
  rw [spaced] at hfuel ⊢
  obtain ⟨fuel, rfl, -⟩ := exists_fuel hfuel
  rfl

theorem reads_array {item : Doc} {items : List Doc} {jsons : List (Json α)}
    (h : ∀ fuel rest, 2 * ((spaced item).length + (spacedItems items).length) ≤ fuel →
      scanItems literal fuel (spaced item ++ (spacedItems items ++ rest)) = some (jsons, rest)) :
    Reads literal (.array (item :: items)) (.array jsons) := by
  intro fuel rest hfuel hrest
  obtain ⟨c, cs, htext, hopens⟩ := spaced_eq_cons item
  rw [spaced] at hfuel
  obtain ⟨fuel, rfl, hlt⟩ := exists_fuel hfuel
  rw [List.length_append] at hlt
  have hscan := scan_array literal fuel (blank_of_opens hopens) (ne_close_of_opens hopens)
    (cs ++ (spacedItems items ++ rest))
  rw [← List.cons_append, ← htext, h fuel rest (Nat.le_of_lt hlt)] at hscan
  rw [spaced, List.cons_append, List.append_assoc]
  exact hscan

theorem reads_object_nil : Reads literal (.object []) (.object []) := by
  intro fuel rest hfuel hrest
  rw [spaced] at hfuel ⊢
  obtain ⟨fuel, rfl, -⟩ := exists_fuel hfuel
  rfl

theorem reads_object {key : List CodeUnit} {value : Doc} {members : List (List CodeUnit × Doc)}
    {jsons : List (Str × Json α)}
    (h : ∀ fuel rest, 2 * ((spaced value).length + (spacedMembers members).length) ≤ fuel →
      scanMembers literal fuel (quoteUnits key ++
        ':' :: ' ' :: (spaced value ++ (spacedMembers members ++ rest))) = some (jsons, rest)) :
    Reads literal (.object ((key, value) :: members)) (.object (Dict.update [] jsons)) := by
  intro fuel rest hfuel hrest
  rw [spaced] at hfuel
  obtain ⟨fuel, rfl, hlt⟩ := exists_fuel hfuel
  simp only [List.length_append, List.length_cons] at hlt
  have hscan := scan_object literal fuel (key.flatMap escapeUnit ++
    '"' :: ':' :: ' ' :: (spaced value ++ (spacedMembers members ++ rest)))
  rw [← quoteUnits_append, h fuel rest (by omega)] at hscan
  rw [spaced, List.cons_append, List.append_assoc, List.cons_append, List.cons_append,
    List.append_assoc]
  exact hscan

mutual

/-- A document is read as what it means. -/
theorem reads_spaced : ∀ (d : Doc) {json : Json α}, meaning literal d = some json →
    Reads literal d json
  | .token t, json, hjson => by
    rw [meaning] at hjson
    obtain ⟨a, ha, rfl⟩ := Option.map_eq_some_iff.mp hjson
    exact reads_token ha
  | .str s, json, hjson => by
    rw [meaning] at hjson
    obtain rfl := Option.some.inj hjson
    exact reads_str s
  | .array [], json, hjson => by
    rw [meaning, meanings] at hjson
    obtain rfl := Option.some.inj hjson
    exact reads_array_nil
  | .array (item :: items), json, hjson => by
    rw [meaning] at hjson
    obtain ⟨jsons, hjsons, rfl⟩ := Option.map_eq_some_iff.mp hjson
    obtain ⟨first, others, hfirst, hothers, rfl⟩ := meanings_cons hjsons
    exact reads_array fun fuel rest hfuel =>
      scanItems_spaced items fuel rest (reads_spaced item hfirst) hothers hfuel
  | .object [], json, hjson => by
    rw [meaning, memberMeanings] at hjson
    obtain rfl := Option.some.inj hjson
    exact reads_object_nil
  | .object ((key, value) :: members), json, hjson => by
    rw [meaning] at hjson
    obtain ⟨jsons, hjsons, rfl⟩ := Option.map_eq_some_iff.mp hjson
    obtain ⟨first, others, hfirst, hothers, rfl⟩ := memberMeanings_cons hjsons
    exact reads_object fun fuel rest hfuel =>
      scanMembers_spaced members key fuel rest (reads_spaced value hfirst) hothers hfuel

theorem scanItems_spaced : ∀ (items : List Doc) {item : Doc} {json : Json α}
    {jsons : List (Json α)} (fuel : ℕ) (rest : List Char), Reads literal item json →
    meanings literal items = some jsons →
    2 * ((spaced item).length + (spacedItems items).length) ≤ fuel →
    scanItems literal fuel (spaced item ++ (spacedItems items ++ rest)) = some (json :: jsons, rest)
  | [], item, json, jsons, fuel, rest, hitem, hjsons, hfuel => by
    have hpos := length_spacedItems_pos []
    obtain ⟨fuel, rfl⟩ := Nat.exists_eq_succ_of_ne_zero (n := fuel) (by omega)
    rw [meanings] at hjsons
    obtain rfl := Option.some.inj hjsons
    exact scanItems_close (hitem (by omega) (stops_spacedItems [] rest))
  | next :: items, item, json, jsons, fuel, rest, hitem, hjsons, hfuel => by
    have hpos := length_spacedItems_pos (next :: items)
    obtain ⟨fuel, rfl⟩ := Nat.exists_eq_succ_of_ne_zero (n := fuel) (by omega)
    obtain ⟨first, others, hfirst, hothers, rfl⟩ := meanings_cons hjsons
    have hscan : scan literal fuel (spaced item ++ (spacedItems (next :: items) ++ rest)) =
        some (json, spacedItems (next :: items) ++ rest) :=
      hitem (by omega) (stops_spacedItems _ rest)
    rw [spacedItems, List.length_cons, List.length_cons, List.length_append] at hfuel
    have hnext := scanItems_spaced items fuel rest (reads_spaced next hfirst) hothers (by omega)
    rw [spacedItems_cons_append] at hscan ⊢
    rw [scanItems_comma hscan, skip_space, skip_spaced, hnext]
    rfl

theorem scanMembers_spaced : ∀ (members : List (List CodeUnit × Doc)) (key : List CodeUnit)
    {value : Doc} {json : Json α} {jsons : List (Str × Json α)} (fuel : ℕ) (rest : List Char),
    Reads literal value json → memberMeanings literal members = some jsons →
    2 * ((spaced value).length + (spacedMembers members).length) ≤ fuel →
    scanMembers literal fuel (quoteUnits key ++
      ':' :: ' ' :: (spaced value ++ (spacedMembers members ++ rest))) =
        some ((join (units key), json) :: jsons, rest)
  | [], key, value, json, jsons, fuel, rest, hvalue, hjsons, hfuel => by
    have hpos := length_spacedMembers_pos []
    obtain ⟨fuel, rfl⟩ := Nat.exists_eq_succ_of_ne_zero (n := fuel) (by omega)
    rw [memberMeanings] at hjsons
    obtain rfl := Option.some.inj hjsons
    refine scanMembers_close ?_
    rw [skip_space, skip_spaced]
    exact hvalue (by omega) (stops_spacedMembers [] rest)
  | (key', next) :: members, key, value, json, jsons, fuel, rest, hvalue, hjsons, hfuel => by
    have hpos := length_spacedMembers_pos ((key', next) :: members)
    obtain ⟨fuel, rfl⟩ := Nat.exists_eq_succ_of_ne_zero (n := fuel) (by omega)
    obtain ⟨first, others, hfirst, hothers, rfl⟩ := memberMeanings_cons hjsons
    have hscan : scan literal fuel (spaced value ++ (spacedMembers ((key', next) :: members) ++
        rest)) = some (json, spacedMembers ((key', next) :: members) ++ rest) :=
      hvalue (by omega) (stops_spacedMembers _ rest)
    rw [spacedMembers] at hfuel
    simp only [List.length_append, List.length_cons] at hfuel
    have hnext := scanMembers_spaced members key' fuel rest (reads_spaced next hfirst) hothers
      (by omega)
    have hquote : ∀ text, skip (quoteUnits key' ++ text) = quoteUnits key' ++ text :=
      fun text => skip_cons (by decide) _
    rw [← skip_spaced, ← skip_space, spacedMembers_cons_append] at hscan
    rw [spacedMembers_cons_append, scanMembers_comma hscan, skip_space, hquote, hnext]
    rfl

end

/-- The text of a document is read as what it means. -/
theorem read_spaced {d : Doc} {json : Json α} (h : meaning literal d = some json) :
    read literal (spaced d) = some json := by
  have hskip := skip_spaced d []
  have hscan := reads_spaced d h (Nat.le_refl _) stops_nil
  rw [List.append_nil] at hskip hscan
  rw [read, hskip, hscan]
  rfl

end

end JsonReader
